import TableScript.Proofs.Sql.Passage
import TableScript.Proofs.Table.Determined

/-!
# Splitting what a generator joined

PostgreSQL, Redshift and Oracle put double quotes around names and write comments into statements
of their own. If names and comments hold no backslash, and types and default values are calm and
close the parentheses that they open, each statement of a script is a passage, and splitting the
script gives the statements back.
-/

namespace TableScript

open Sql Logged Outcome

namespace Sql

/-- Calm text that closes as many parentheses as it opens. -/
def Balanced (cs : List Char) : Prop := Calm cs ∧ parens cs = 0

instance (cs : List Char) : Decidable (Balanced cs) := inferInstanceAs (Decidable (_ ∧ _))

theorem Balanced.append_space {xs ys : List Char} (hx : Balanced xs) (hy : Balanced ys) :
    Balanced (xs ++ ' ' :: ys) := by
  refine ⟨hx.1.append_space hy.1, ?_⟩
  have hspace : parens [' '] = 0 := rfl
  rw [parens_append, ← List.singleton_append, parens_append, hx.2, hy.2, hspace]
  rfl

theorem Balanced.passage {cs : List Char} (h : Balanced cs) : Passage cs 0 :=
  h.2 ▸ Passage.of_calm h.1

/-- Nothing, or balanced text after a space. -/
def Spaced (cs : List Char) : Prop := ∀ c ∈ cs.head?, c = ' ' ∧ Balanced cs.tail

theorem spaced_nil : Spaced [] := by simp [Spaced]

theorem spaced_cons {cs : List Char} (h : Balanced cs) : Spaced (' ' :: cs) := by
  intro c hc
  cases hc
  exact ⟨rfl, h⟩

theorem Spaced.append {xs ys : List Char} (hx : Spaced xs) (hy : Spaced ys) : Spaced (xs ++ ys) := by
  cases xs with
  | nil => exact hy
  | cons c xs =>
      obtain ⟨rfl, hxs⟩ := hx c rfl
      cases ys with
      | nil => rwa [List.append_nil]
      | cons d ys =>
          obtain ⟨rfl, hys⟩ := hy d rfl
          exact spaced_cons (hxs.append_space hys)

theorem Spaced.flatMap {α : Type} {l : List α} {f : α → List Char} (h : ∀ a ∈ l, Spaced (f a)) :
    Spaced (l.flatMap f) := by
  induction l with
  | nil => exact spaced_nil
  | cons a l ih =>
      obtain ⟨ha, hl⟩ := List.forall_mem_cons.1 h
      exact ha.append (ih hl)

end Sql

namespace Grammar

/-- The grammars that put double quotes around names and comments into statements of their own. -/
def stating : List Grammar := [postgresql, redshift, oracle]

/-- Their types are balanced, and so are those of Firebird, which leaves names as they are. -/
theorem balanced_facts {g : Grammar} (hg : g ∈ firebird :: stating) : g.supportsUnsigned = false ∧
    Sql.Balanced g.incrementsType.toList ∧ Sql.Balanced g.incrementsTypeWithoutKey.toList := by
  revert g
  decide +kernel

section

variable {g : Grammar} (hg : g ∈ stating)

include hg

theorem nameChars_stating (cs : List Char) : g.nameChars cs = encloseName '"' '"' cs := by
  revert hg
  cases g <;> first | exact fun _ => rfl | exact fun h => absurd h (by decide)

theorem textChars_stating (cs : List Char) : g.textChars cs = encloseName '\x27' '\x27' cs := by
  revert hg
  cases g <;> first | exact fun _ => rfl | exact fun h => absurd h (by decide)

theorem stating_facts : g.supportsInlineComment = false ∧ g.commentStyle = .statement ∧
    g.namesPrimaryKey = true ∧ g ≠ .bigquery ∧ g ≠ .firebird := by
  revert g
  decide

end

end Grammar

/-! ## Statements of an outline -/

/-- Names and comments without backslashes, and definitions that are balanced after a space. -/
structure Outline.Balanced (o : Outline) : Prop where
  space : ∀ cs ∈ o.space, '\\' ∉ cs
  name : '\\' ∉ o.name
  columns : ∀ c ∈ o.columns, '\\' ∉ c.name ∧
    (∃ cs, c.definition = ' ' :: cs ∧ Sql.Balanced cs) ∧ ∀ cs ∈ c.comment, '\\' ∉ cs
  key : ∀ cs ∈ o.key, '\\' ∉ cs

/-- The columns and the key of a table in their parentheses. -/
theorem Outline.passage_body {g : Grammar} {o : Outline}
    (hcolumns : ∀ c ∈ o.columns, Passage (g.columnChars c) 0) (hkey : Passage (o.keyChars g) 0) :
    Passage (' ' :: '(' :: ([',', ' '].intercalate (o.body g) ++ [')'])) 0 := by
  have hbody : Passage ([',', ' '].intercalate (o.body g)) 0 := by
    refine .intercalate fun x hx => ?_
    unfold body at hx
    rcases List.mem_append.1 hx with hx | hx
    · obtain ⟨c, hc, rfl⟩ := List.mem_map.1 hx
      exact hcolumns c hc
    · split at hx
      · cases hx
      · cases List.mem_singleton.1 hx
        exact hkey
  have hclosing : Passage [')'] (-1) := Passage.separator (by decide) .nil
  have hlist := hbody.append hclosing (fenced_cons (by decide) _)
  exact (Passage.separator (by decide) hlist).space

theorem Outline.getLast?_tableStatement (g : Grammar) (o : Outline) :
    (o.tableStatement g).getLast? = some ')' := by
  unfold tableStatement
  generalize "create table ".toList = opening
  rw [← List.cons_append, ← List.cons_append, ← List.append_assoc, ← List.append_assoc]
  exact List.getLast?_concat

theorem Outline.getLast?_commentStatement {g : Grammar}
    (hg : ∀ cs, g.textChars cs = encloseName '\x27' '\x27' cs) (o : Outline)
    (p : List Char × List Char) : (o.commentStatement g p).getLast? = some '\x27' := by
  unfold commentStatement
  generalize "is ".toList = word
  rw [hg, encloseName, ← List.append_assoc (' ' :: word),
    ← List.append_assoc, ← List.append_assoc]
  exact List.getLast?_concat

namespace Outline.Balanced

variable {g : Grammar} (hg : g ∈ Grammar.stating) {o : Outline}

include hg

/-- The names of a key with the parenthesis that closes it. -/
theorem passage_names {names : List (List Char)} (hnames : ∀ cs ∈ names, '\\' ∉ cs) :
    Passage ([',', ' '].intercalate (names.map g.nameChars) ++ [')']) (-1) ∧
      Fenced ([',', ' '].intercalate (names.map g.nameChars) ++ [')']) := by
  have hclosing : Passage [')'] (-1) := Passage.separator (by decide) .nil
  have hrest : ∀ l : List (List Char), (∀ cs ∈ l, '\\' ∉ cs) →
      ∃ c cs, (l.map g.nameChars).flatMap ([',', ' '] ++ ·) ++ [')'] = c :: cs ∧ c ≠ '"' ∧
        Passage (c :: cs) (-1) := by
    intro l hl
    induction l with
    | nil => exact ⟨_, _, rfl, by decide, hclosing⟩
    | cons name l ih =>
        obtain ⟨hname, hl⟩ := List.forall_mem_cons.1 hl
        obtain ⟨c, cs, hcs, hc, hpassage⟩ := ih hl
        refine ⟨',', ' ' :: (encloseName '"' '"' name ++ c :: cs), ?_, by decide, ?_⟩
        · rw [List.map_cons, List.flatMap_cons, List.append_assoc, hcs,
            Grammar.nameChars_stating hg]
          rfl
        · exact Passage.separator (c := ',') (by decide) (Passage.name hname hc hpassage).space
  cases names with
  | nil => exact ⟨hclosing, fenced_cons (by decide) _⟩
  | cons name names =>
      obtain ⟨hname, hnames⟩ := List.forall_mem_cons.1 hnames
      obtain ⟨c, cs, hcs, hc, hpassage⟩ := hrest names hnames
      rw [List.map_cons, intercalate_cons, List.append_assoc, hcs, Grammar.nameChars_stating hg]
      exact ⟨.name hname hc hpassage, fenced_cons (by decide) _⟩

variable (h : o.Balanced)

include h

/-- The name of the table, and what begins with another mark. -/
theorem passage_table {c : Char} (hc : c ≠ '"') {cs : List Char} {k : Int}
    (hcs : Passage (c :: cs) k) :
    Passage (o.tableChars g ++ c :: cs) k ∧ Fenced (o.tableChars g ++ c :: cs) := by
  unfold tableChars
  rw [Grammar.nameChars_stating hg]
  have hname : Passage (encloseName '"' '"' o.name ++ c :: cs) k := .name h.name hc hcs
  cases hs : o.space with
  | none => exact ⟨hname, fenced_cons (by decide) _⟩
  | some space =>
      simp only [Grammar.nameChars_stating hg, List.append_assoc, List.cons_append]
      exact ⟨.name (h.space space hs) (by decide) (.point hname), fenced_cons (by decide) _⟩

theorem passage_column {c : OutlineColumn} (hc : c ∈ o.columns) : Passage (g.columnChars c) 0 := by
  obtain ⟨hname, ⟨cs, hdefinition, hbalanced⟩, _⟩ := h.columns c hc
  have hinline : g.inlineComment c.comment = [] := by
    unfold Grammar.inlineComment
    cases c.comment with
    | none => rfl
    | some _ => simp [(Grammar.stating_facts hg).1]
  rw [Grammar.columnChars, Grammar.nameChars_stating hg, hinline, hdefinition, List.append_nil]
  exact .name hname (by decide) hbalanced.passage.space

theorem passage_key : Passage (o.keyChars g) 0 := by
  obtain ⟨_, _, hnames, hbigquery, _⟩ := Grammar.stating_facts hg
  obtain ⟨hkeys, hfence⟩ := passage_names hg h.key
  have hopening : Passage "primary key (".toList 1 := .of_calm (by decide)
  have hword : Passage "constraint ".toList 0 := .of_calm (by decide)
  have hname : '\\' ∉ o.name ++ "_pkey".toList := by
    rw [List.mem_append]
    exact not_or.2 ⟨h.name, by decide⟩
  have hconstraint := Passage.name hname (by decide) (hopening.append hkeys hfence).space
  have hwhole := hword.append hconstraint (fenced_cons (by decide) _)
  have hchars : o.keyChars g = "constraint ".toList ++
      (encloseName '"' '"' (o.name ++ "_pkey".toList) ++ ' ' :: ("primary key (".toList ++
        ([',', ' '].intercalate (o.key.map g.nameChars) ++ [')']))) := by
    unfold keyChars keyOpening keyClosing
    simp only [hnames, if_true, hbigquery, if_false, Grammar.nameChars_stating hg, List.append_assoc,
      List.cons_append]
  rw [hchars]
  exact hwhole

theorem standing_table : Standing (o.tableStatement g) := by
  have hopening : Passage "create table ".toList 0 := .of_calm (by decide)
  obtain ⟨htable, hfence⟩ := h.passage_table hg (by decide)
    (passage_body (fun c hc => h.passage_column hg hc) (h.passage_key hg))
  refine ⟨hopening.append htable hfence, ⟨'c', rfl, by decide⟩, ⟨')', ?_, by decide⟩⟩
  exact getLast?_tableStatement g o

theorem standing_comment {p : List Char × List Char} (hp : p ∈ o.commented) :
    Standing (o.commentStatement g p) := by
  obtain ⟨c, hc, hcomment⟩ := List.mem_filterMap.1 hp
  obtain ⟨text, htext, rfl⟩ := Option.map_eq_some_iff.1 hcomment
  obtain ⟨hname, _, hcomments⟩ := h.columns c hc
  have hopening : Passage "comment on column ".toList 0 := .of_calm (by decide)
  have hcolumn := Passage.name hname (by decide) (Passage.attached (hcomments text htext))
  obtain ⟨htable, hfence⟩ := h.passage_table hg (c := '.') (by decide) hcolumn.point
  have hwhole := hopening.append htable hfence
  have hchars : o.commentStatement g (c.name, text) = "comment on column ".toList ++
      (o.tableChars g ++ '.' :: (encloseName '"' '"' c.name ++
        ' ' :: ("is ".toList ++ encloseName '\x27' '\x27' text))) := by
    unfold commentStatement statementOpening
    simp only [Grammar.nameChars_stating hg, Grammar.textChars_stating hg, List.append_assoc,
      List.cons_append, List.nil_append]
  refine ⟨hchars ▸ hwhole, ⟨'c', rfl, by decide⟩, ⟨'\x27', ?_, by decide⟩⟩
  exact getLast?_commentStatement (Grammar.textChars_stating hg) o _

/-- Every statement of a script can be told from the next. -/
theorem standing : ∀ cs ∈ o.statements g, Standing cs := by
  unfold statements trailingStatements
  rw [(Grammar.stating_facts hg).2.1]
  refine List.forall_mem_cons.2 ⟨h.standing_table hg, fun cs hcs => ?_⟩
  obtain ⟨p, hp, rfl⟩ := List.mem_map.1 hcs
  exact h.standing_comment hg hp

/-- Splitting the script of an outline gives its statements back. -/
theorem split_chars {ss : List Statement} (hsplit : split true (o.chars g) = .ok ss) :
    ss.map (·.chars) = terminated [';'] (o.statements g) := by
  rw [chars_eq_intercalate] at hsplit
  exact split_intercalate (List.cons_ne_nil _ _) (h.standing hg) hsplit

end Outline.Balanced

/-! ## Schemas -/

namespace Schema

/-- Names and comments without backslashes, and balanced types and default values. -/
structure Balanced (s : Schema) : Prop where
  space : ∀ v ∈ s.space.ifTruthy, '\\' ∉ v.chars
  name : '\\' ∉ s.name.chars
  columns : ∀ c ∈ s.columns, '\\' ∉ c.name.chars ∧ Sql.Balanced c.type.chars ∧
    (∀ v ∈ c.default.ifTruthy, Sql.Balanced v.chars) ∧ ∀ v ∈ c.comment.ifTruthy, '\\' ∉ v.chars

section

variable {g : Grammar} (hg : g ∈ Grammar.firebird :: Grammar.stating) {c : SchemaColumn}

include hg

theorem balanced_typeOf (t : Table) (h : Sql.Balanced c.type.chars) :
    Sql.Balanced (g.typeOf t (toColumn c)).chars := by
  unfold Grammar.typeOf toColumn
  cases c.isAutoincrement with
  | false => exact h
  | true =>
      cases t.primaryKey.isEmpty with
      | true => exact (Grammar.balanced_facts hg).2.1
      | false => exact (Grammar.balanced_facts hg).2.2

/-- The clauses before a comment are balanced if the default value is. -/
theorem spaced_clauseChars (h : ∀ v ∈ c.default.ifTruthy, Sql.Balanced v.chars) {k : Clause}
    (hk : k ≠ .comment) : Spaced (g.clauseChars (toColumn c) k) := by
  cases k with
  | unsigned =>
      exact Grammar.clauseChars_unsigned (Grammar.balanced_facts hg).1 _ ▸ spaced_nil
  | nullability =>
      rw [Grammar.clauseChars_nullability,
        show (toColumn c).isNullable = some c.isNullable from rfl]
      cases c.isNullable with
      | false => exact spaced_cons (by decide : Sql.Balanced "not null".toList)
      | true => exact spaced_cons (by decide : Sql.Balanced "null".toList)
  | default =>
      rcases g.clauseChars_default (toColumn c) with hnone | ⟨v, hv, hsome⟩
      · exact hnone ▸ spaced_nil
      · rw [hsome]
        exact spaced_cons ((by decide : Sql.Balanced "default".toList).append_space (h v hv))
  | comment => exact absurd rfl hk

theorem balanced_outlineColumn (t : Table) (htype : Sql.Balanced c.type.chars)
    (hdefault : ∀ v ∈ c.default.ifTruthy, Sql.Balanced v.chars) :
    ∃ cs, g.definitionChars t (toColumn c) = ' ' :: cs ∧ Sql.Balanced cs := by
  have hclauses : Spaced (g.plainClauses.flatMap (g.clauseChars (toColumn c))) :=
    .flatMap fun k hk => spaced_clauseChars hg hdefault (of_decide_eq_true (List.mem_filter.1 hk).2)
  have hspaced := (spaced_cons (balanced_typeOf hg t htype)).append hclauses
  exact ⟨_, rfl, (hspaced ' ' rfl).2⟩

end

/-- Generic databases have no namespace of their own. -/
theorem usedSpace_eq_ifTruthy {b : Builder} (hb : b.grammar ∈ Grammar.stating) (s : Schema) :
    s.usedSpace b = s.space.ifTruthy := by
  cases b with
  | generic d g =>
      by_cases h : s.space.truthy = true
      · simp [usedSpace, Value.orElse, Value.ifTruthy, h]
      · simp only [usedSpace, Value.orElse, Value.ifTruthy, h]
        rfl
  | specialized client =>
      cases client with
      | firebird _ => exact absurd (show Grammar.firebird ∈ Grammar.stating from hb) (by decide)
      | cassandra _ => exact absurd (show Grammar.cassandra ∈ Grammar.stating from hb) (by decide)
      | bigquery _ _ => exact absurd (show Grammar.bigquery ∈ Grammar.stating from hb) (by decide)

theorem Balanced.outline {b : Builder} (hb : b.grammar ∈ Grammar.stating) {s : Schema}
    (hs : s.Balanced) {space : Value} (hspace : s.spaceFor b = .ok space) :
    (b.grammar.outline (s.toTable b space)).Balanced := by
  refine ⟨?_, hs.name, ?_, ?_⟩
  · intro cs hcs
    obtain ⟨v, hv, rfl⟩ := Option.map_eq_some_iff.1 hcs
    rw [space_toTable hspace, usedSpace_eq_ifTruthy hb] at hv
    exact hs.space v hv
  · intro o ho
    obtain ⟨_, hcolumn, rfl⟩ := List.mem_map.1 ho
    obtain ⟨c, hc, rfl⟩ := List.mem_map.1 hcolumn
    obtain ⟨hname, htype, hdefault, hcomment⟩ := hs.columns c hc
    refine ⟨hname, balanced_outlineColumn (List.mem_cons_of_mem _ hb) _ htype hdefault,
      fun cs hcs => ?_⟩
    obtain ⟨v, hv, rfl⟩ := Option.map_eq_some_iff.1 hcs
    exact hcomment v hv
  · intro cs hcs
    obtain ⟨v, hv, rfl⟩ := List.mem_map.1 hcs
    obtain ⟨c, hc, rfl⟩ := List.mem_map.1 hv
    exact (hs.columns c (List.mem_of_mem_filter (List.mem_of_mem_filter hc))).1

end Schema

/-! ## Generators -/

/-- The grammars registered for these databases put double quotes around names and comments into
statements of their own. -/
def Registry.Stating (r : Registry) : Prop :=
  ∀ d ∈ [Dialect.postgresql, .cockroachdb, .redshift, .oracle], ∀ g, r.find? d = some g →
    g ∈ Grammar.stating

/-- The builder of a generic database has the grammar that is registered for it. -/
theorem Builder.find?_of_create {r : Registry} {d : Dialect} (hd : d.isGeneric = true)
    {c : Option Connection} {b : Builder} (h : create r d c = .ok b) :
    r.find? d = some b.grammar := by
  rcases create_cases h with ⟨_, g, hfind, rfl⟩ | ⟨hspecial, _⟩
  · exact hfind
  · rw [hd] at hspecial
    cases hspecial

namespace Generator

/-- Whatever the calls before, splitting the script of a PostgreSQL, CockroachDB, Redshift or Oracle
generator gives the statements of the table back, each but the last with its semicolon. Names and
comments may hold anything but backslashes; types and default values are balanced. -/
theorem split_script {r : Registry} (hr : r.Stating) {g : Generator} (hg : g.Reachable r)
    (hd : g.dialect ∈ [Dialect.postgresql, .cockroachdb, .redshift, .oracle]) {b : Builder}
    (hb : g.builder = some b) {s : Schema} (hs : s.Balanced) {text : String}
    (h : (g.script (some s)).outcome = .ok text) {ss : List Statement}
    (hsplit : split true text.toList = .ok ss) :
    ∃ space statements, s.spaceFor b = .ok space ∧
      (b.grammar.createTable (s.toTable b space)).outcome = .ok statements ∧
      text = String.intercalate statementSeparator statements ∧
      ss.map (·.text) = terminated ";" statements := by
  have hgeneric : ∀ d ∈ [Dialect.postgresql, .cockroachdb, .redshift, .oracle],
      d.isGeneric = true := by decide
  obtain ⟨asked, hasked⟩ := hg.coherent
  have hcreate := hasked.create_eq_ok hb
  rw [← hasked.dialect_eq] at hcreate
  have hgrammar : b.grammar ∈ Grammar.stating :=
    hr _ hd _ (Builder.find?_of_create (hgeneric _ hd) hcreate)
  have hfirebird : b.grammar ≠ .firebird := by
    intro hfirebird
    rw [hfirebird] at hgrammar
    revert hgrammar
    decide
  obtain ⟨l, hl, rfl⟩ := Builder.draft_eq_ok.1 (script_eq_draft hb hfirebird h)
  obtain ⟨_, space, hspace, hl⟩ := Builder.layOut_eq_ok.1 hl
  refine ⟨space, l.statements b.grammar, hspace, ?_, rfl, ?_⟩
  · rw [Grammar.createTable_outcome, hl]
    rfl
  · rw [Grammar.toList_script hl] at hsplit
    have hchars := (hs.outline hgrammar hspace).split_chars hgrammar hsplit
    have htexts : ss.map (·.text) = (ss.map (·.chars)).map String.ofList := List.map_map.symm
    have hback : ((l.statements b.grammar).map String.toList).map String.ofList =
        l.statements b.grammar := by
      rw [List.map_map]
      exact List.map_id'' (fun _ => String.ofList_toList) _
    rw [htexts, hchars, map_terminated (fun _ _ => String.ofList_append),
      ← (Grammar.map_toList_statements hl).2, hback]

theorem split_script_quoted :
    let column : SchemaColumn :=
      ⟨.text "it's; -- $$", .text "numeric(9, 2)", true, false, false, .null, .text ";\n/* 'b'"⟩
    let s : Schema := ⟨.text "t\";\n", .null, [column]⟩
    let b : Builder := .generic .postgresql .postgresql
    let g : Generator := ⟨.postgresql, none, some b⟩
    Registry.standard.Stating ∧ g.Reachable .standard ∧ s.Balanced ∧
      ∃ text ss, (g.script (some s)).outcome = .ok text ∧ split true text.toList = .ok ss ∧
        ∃ space statements, s.spaceFor b = .ok space ∧
          (b.grammar.createTable (s.toTable b space)).outcome = .ok statements ∧
          ss.map (·.text) = terminated ";" statements := by
  intro column s b g
  have hr : Registry.standard.Stating := by
    intro d hd g h
    cases d <;> cases h <;> first | decide | exact absurd hd (by decide)
  have hg : g.Reachable .standard := ⟨.dialect .postgresql, .kept none, g, [], rfl, rfl⟩
  have hs : s.Balanced := by
    refine ⟨by rintro v ⟨⟩, by decide, ?_⟩
    intro c hc
    cases List.mem_singleton.1 hc
    exact ⟨by decide, by decide, by rintro v ⟨⟩, by rintro v ⟨⟩; decide⟩
  obtain ⟨text, h⟩ : ∃ text, (g.script (some s)).outcome = .ok text := ⟨_, rfl⟩
  have hgrouped : Grouped text.toList := by
    cases h
    decide +kernel
  have hsplit : split true text.toList = .ok (trimmedFrom 1 (pieces text.toList)) :=
    split_eq_ok_iff.2 ⟨hgrouped, rfl⟩
  obtain ⟨space, statements, hspace, hstatements, _, hss⟩ :=
    split_script hr hg (by decide) rfl hs h hsplit
  exact ⟨hr, hg, hs, text, _, h, hsplit, space, statements, hspace, hstatements, hss⟩

/-- The lexer reads a hexadecimal number up to the letter G, and the batch end after it. -/
theorem split_script_hexadecimal :
    let default := "0xAGO"
    let column : SchemaColumn := ⟨.text "a", .text "int", false, false, false, .text default, .null⟩
    let s : Schema := ⟨.text "t", .null, [column]⟩
    let b : Builder := .generic .postgresql .postgresql
    let g : Generator := ⟨.postgresql, none, some b⟩
    (create .standard (.dialect .postgresql) (.kept none)).outcome = .ok g ∧
      (∀ cs ∈ ["int".toList, default.toList], (∀ c ∈ cs, isPlain c = true) ∧ parens cs = 0 ∧
        ∀ w ∈ cs.splitOnP (!Char.isAlpha ·), String.ofList (upper w) ∉
          ["BEGIN", "DECLARE", "END", "GO", "IF", "FOR", "WHILE", "CASE"]) ∧
      ∃ text ss, (g.script (some s)).outcome = .ok text ∧ split true text.toList = .ok ss ∧
        ∃ statements, (b.grammar.createTable (s.toTable b .null)).outcome = .ok statements ∧
          ss.map (·.text) ≠ terminated ";" statements := by
  intro default column s b g
  refine ⟨rfl, by decide, "create table \"t\" (\"a\" int not null default 0xAGO)", _, rfl,
    split_eq_ok_iff.2 ⟨by decide +kernel, rfl⟩,
    ["create table \"t\" (\"a\" int not null default 0xAGO)"], rfl, ?_⟩
  decide +kernel

end Generator

end TableScript
