import TableScript.Proofs.Sql.Between
import TableScript.Proofs.Sql.Name
import TableScript.Proofs.Table.Written

/-!
# What mending a Firebird script leaves as it is

A table with a namespace of its own is not qualified by the database, so there is nothing to mend.
The script stays as it is exactly if mending strikes nowhere. That is so if the comments hold no
backslash, and the types and default values open no quotation or comment and do not mention the
database: then no statement refers to a table of the database, whatever the comments say.
-/

namespace TableScript

open Sql Logged Outcome

/-! ## Regular identifiers -/

theorem isBare_of_isRegularRest {c : Char} (hc : isRegularRest c = true) : isBare c = true := by
  unfold isRegularRest at hc
  unfold isBare
  rw [Bool.or_eq_true] at hc ⊢
  refine hc.imp_right fun h => ?_
  rw [beq_iff_eq] at h
  subst h
  rfl

theorem isRegularRest_apart {c : Char} (hc : isRegularRest c = true) :
    Text.isBlank c = false ∧ Text.sameLetter c '\x27' = false ∧
      Text.sameLetter c '.' = false := by
  have hascii := isBare_ascii (isBare_of_isRegularRest hc)
  revert hc
  refine Text.forall_ascii c hascii ?_
  decide +kernel

theorem mentionable_of_isRegular {database : List Char} (h : isRegular database = true) :
    Mentionable (database ++ ['.']) where
  point := by simp
  solid := solid_concat_point fun c hc => (isRegularRest_apart (isRegularRest_of_mem h c hc)).1
  quoteFree := by
    intro a ha
    rcases List.mem_append.1 ha with ha | ha
    · exact (isRegularRest_apart (isRegularRest_of_mem h a ha)).2.1
    · rw [List.mem_singleton.1 ha]
      decide +kernel

/-- Only the name of the database itself reads like it up to the point. -/
theorem sameLetters_of_beginsWith {database space : List Char} {rest : List Char}
    (hdatabase : ∀ c ∈ database, isRegularRest c = true)
    (hspace : ∀ c ∈ space, isRegularRest c = true)
    (h : beginsWith (database ++ ['.']) (space ++ '.' :: rest) = true) :
    SameLetters database space := by
  induction database generalizing space with
  | nil =>
      cases space with
      | nil => exact .nil
      | cons c space =>
          simp only [List.nil_append, List.cons_append, beginsWith, Bool.and_true] at h
          have := isBare_ne_point (isBare_of_isRegularRest (hspace c List.mem_cons_self))
          rw [this] at h
          cases h
  | cons a database ih =>
      obtain ⟨ha, hdatabase⟩ := List.forall_mem_cons.1 hdatabase
      cases space with
      | nil =>
          simp only [List.nil_append, List.cons_append, beginsWith, Bool.and_eq_true] at h
          rw [(isRegularRest_apart ha).2.2] at h
          cases h.1
      | cons c space =>
          simp only [List.cons_append, beginsWith, Bool.and_eq_true] at h
          exact .cons h.1 (ih hdatabase (List.forall_mem_cons.1 hspace).2 h.2)

/-- A name in another namespace, perhaps with the name of a column after it. -/
theorem isTame_and_unmentioned {database space rest : List Char}
    (hdatabase : isRegular database = true) (hspace : isRegular space = true)
    (hother : ¬ SameLetters database space) (hrest : ∀ c ∈ rest, isRegularRest c = true ∨ c = '.') :
    isTame (space ++ '.' :: rest) = true ∧
      Unmentioned (database ++ ['.']) (space ++ '.' :: rest) := by
  have hchars : ∀ c ∈ space ++ '.' :: rest, isRegularRest c = true ∨ c = '.' := by
    intro c hc
    rcases List.mem_append.1 hc with hc | hc
    · exact Or.inl (isRegularRest_of_mem hspace c hc)
    · rcases List.mem_cons.1 hc with rfl | hc
      · exact Or.inr rfl
      · exact hrest c hc
  constructor
  · generalize space ++ '.' :: rest = cs at hchars
    induction cs with
    | nil => rfl
    | cons c cs ih =>
        obtain ⟨hc, hcs⟩ := List.forall_mem_cons.1 hchars
        have hnot : c ∉ '-' :: '/' :: runawayMarks := by
          rcases hc with hc | rfl
          · exact isBare_not_mem (isBare_of_isRegularRest hc)
          · decide
        simp only [List.mem_cons, not_or] at hnot
        simp [isTame, ih hcs, hnot]
  · refine unmentioned_of_solid ?_ ?_
    · intro c hc
      rcases hchars c hc with hc | rfl
      · exact (isRegularRest_apart hc).1
      · decide
    · rw [← Bool.not_eq_true]
      exact fun h => hother (sameLetters_of_beginsWith (isRegularRest_of_mem hdatabase)
        (isRegularRest_of_mem hspace) h)

/-! ## Tables apart from a database -/

/-- Text that opens no quotation or comment and does not mention the tables of a database. -/
def Apart (database cs : List Char) : Prop :=
  isTame cs = true ∧ Unmentioned (database ++ ['.']) cs

instance (database cs : List Char) : Decidable (Apart database cs) :=
  inferInstanceAs (Decidable (_ ∧ _))

/-- A table in another namespace than the database, with regular names. -/
structure Table.Apart (database : List Char) (t : Table) : Prop where
  space : ∃ space, t.space = some space ∧ isRegular space.chars = true ∧
    ¬ SameLetters database space.chars
  name : isRegular t.name.chars = true
  columns : ∀ c ∈ t.columns, isRegular c.name.chars = true ∧ c.isNullable ≠ none ∧
    TableScript.Apart database (Grammar.firebird.typeOf t c).chars ∧
    (∀ v ∈ c.default, TableScript.Apart database v.chars) ∧ ∀ v ∈ c.comment, '\\' ∉ v.chars
  key : ∀ v ∈ t.primaryKey, isRegular v.chars = true

theorem bare_of_isRegular {cs : List Char} (h : isRegular cs = true) :
    ∀ c ∈ cs, isBare c = true :=
  fun c hc => isBare_of_isRegularRest (isRegularRest_of_mem h c hc)

namespace Sql.Settled

variable {name : List Char}

theorem flatMap {α : Type} {l : List α} {f : α → List Char}
    (h : ∀ a ∈ l, Settled name (f a)) : Settled name (l.flatMap f) := by
  induction l with
  | nil => exact .bare (by simp)
  | cons a l ih =>
      obtain ⟨ha, hl⟩ := List.forall_mem_cons.1 h
      rw [List.flatMap_cons]
      exact ha.append (ih hl)

theorem intercalate {xs : List (List Char)} (h : ∀ x ∈ xs, Settled name x) :
    Settled name ([',', ' '].intercalate xs) := by
  cases xs with
  | nil => exact .bare (by simp)
  | cons x xs =>
      obtain ⟨hx, hxs⟩ := List.forall_mem_cons.1 h
      have hcomma : Settled name [',', ' '] := .bare (by decide)
      rw [intercalate_cons]
      exact hx.append (flatMap fun y hy => hcomma.append (hxs y hy))

end Sql.Settled

namespace Table.Apart

variable {database : List Char} {t : Table}

theorem settled_definition (h : t.Apart database) {c : Column} (hc : c ∈ t.columns) :
    Settled (database ++ ['.']) (Grammar.firebird.definitionChars t c) := by
  obtain ⟨_, hnullable, ⟨htype, htypename⟩, hdefault, _⟩ := h.columns c hc
  obtain ⟨nullable, hnullable⟩ := Option.ne_none_iff_exists'.1 hnullable
  have hempty : Settled (database ++ ['.']) [] := .bare (by simp)
  have hplain : Grammar.firebird.plainClauses = [.unsigned, .default, .nullability] := rfl
  have hnull : ∃ words, (if nullable then " null".toList else " not null".toList) = ' ' :: words ∧
      ∀ d ∈ words, isBare d = true := by
    cases nullable
    · exact ⟨"not null".toList, rfl, by decide⟩
    · exact ⟨"null".toList, rfl, by decide⟩
  obtain ⟨words, hwords, hbare⟩ := hnull
  unfold Grammar.definitionChars
  rw [hplain, List.flatMap_cons, List.flatMap_cons, List.flatMap_cons, List.flatMap_nil,
    Grammar.clauseChars_unsigned rfl, Grammar.clauseChars_nullability, hnullable, Option.elim, hwords]
  rcases Grammar.firebird.clauseChars_default c with hnone | ⟨v, hv, hsome⟩
  · rw [hnone]
    exact hempty.part htype htypename (by simpa using hbare)
  · obtain ⟨hv, hvname⟩ := hdefault v hv
    have hword : ∀ d ∈ "default".toList, isBare d = true := by decide
    have hopening : " default ".toList = ' ' :: ("default".toList ++ [' ']) := rfl
    have hboth := (hempty.part htype htypename hword).part hv hvname hbare
    rw [hsome, hopening]
    simpa only [List.nil_append, List.append_nil, List.append_assoc, List.cons_append] using hboth

theorem settled_column (h : t.Apart database) {c : Column} (hc : c ∈ t.columns) :
    Settled (database ++ ['.'])
      (Grammar.firebird.columnChars (Grammar.firebird.outlineColumn t c)) := by
  have hcomment : Grammar.firebird.inlineComment (c.comment.map Value.chars) = [] := by
    cases c.comment <;> rfl
  have hname : Settled (database ++ ['.']) c.name.chars :=
    .bare (bare_of_isRegular (h.columns c hc).1)
  unfold Grammar.columnChars Grammar.outlineColumn
  simp only [hcomment, List.append_nil]
  exact hname.append (h.settled_definition hc)

theorem settled_key (h : t.Apart database) :
    Settled (database ++ ['.']) ((Grammar.firebird.outline t).keyChars .firebird) := by
  have hbare : ∀ {cs : List Char}, (∀ c ∈ cs, isBare c = true) → Settled (database ++ ['.']) cs :=
    fun hcs => .bare hcs
  have hopening : Settled (database ++ ['.'])
      ((Grammar.firebird.outline t).keyOpening .firebird) := by
    have hname : Settled (database ++ ['.']) (t.name.chars ++ "_pkey".toList) :=
      hbare (List.forall_mem_append.2 ⟨bare_of_isRegular h.name, by decide⟩)
    exact (hbare (by decide)).append (hname.append (hbare (by decide)))
  have hcolumns : Settled (database ++ ['.'])
      ([',', ' '].intercalate ((Grammar.firebird.outline t).key.map Grammar.firebird.nameChars)) := by
    refine Settled.intercalate fun x hx => ?_
    obtain ⟨cs, hcs, rfl⟩ := List.mem_map.1 hx
    obtain ⟨v, hv, rfl⟩ := List.mem_map.1 hcs
    exact hbare (bare_of_isRegular (h.key v hv))
  exact hopening.append (hcolumns.append (hbare (by decide)))

/-- The name of the table, perhaps with more after it, between the words of a statement. -/
theorem settled_reference (hdatabase : isRegular database = true) (h : t.Apart database)
    (before rest after : List Char) (hbefore : ∀ c ∈ before, isBare c = true)
    (hafter : ∀ c ∈ after, isBare c = true) (hrest : ∀ c ∈ rest, isRegularRest c = true ∨ c = '.') :
    Settled (database ++ ['.']) (before ++ ' ' ::
      ((Grammar.firebird.outline t).tableChars .firebird ++ rest ++ ' ' :: after)) := by
  obtain ⟨space, hspace, hregular, hother⟩ := h.space
  have htable : (Grammar.firebird.outline t).tableChars .firebird =
      space.chars ++ '.' :: t.name.chars := by
    unfold Outline.tableChars Grammar.outline
    rw [hspace]
    rfl
  obtain ⟨htame, hname⟩ := isTame_and_unmentioned hdatabase hregular hother
    (List.forall_mem_append.2
      ⟨fun c hc => Or.inl (isRegularRest_of_mem h.name c hc), hrest⟩)
  rw [htable, List.append_assoc space.chars, List.cons_append]
  exact .part (.bare hbefore) htame hname hafter

theorem settled_tableStatement (hdatabase : isRegular database = true) (h : t.Apart database) :
    Settled (database ++ ['.']) ((Grammar.firebird.outline t).tableStatement .firebird) := by
  have hbody : ∀ x ∈ (Grammar.firebird.outline t).body .firebird,
      Settled (database ++ ['.']) x := by
    unfold Outline.body
    refine List.forall_mem_append.2 ⟨fun x hx => ?_, fun x hx => ?_⟩
    · obtain ⟨column, hcolumn, rfl⟩ := List.mem_map.1 hx
      obtain ⟨c, hc, rfl⟩ := List.mem_map.1 hcolumn
      exact h.settled_column hc
    · split at hx
      · cases hx
      · rw [List.mem_singleton.1 hx]
        exact h.settled_key
  have hopening := h.settled_reference hdatabase "create table".toList [] ['('] (by decide)
    (by decide) (by simp)
  have hclosing : Settled (database ++ ['.']) [')'] := .bare (by decide)
  have hwhole := hopening.append ((Settled.intercalate hbody).append hclosing)
  have hcreate : "create table ".toList = "create table".toList ++ [' '] := rfl
  unfold Outline.tableStatement
  rw [hcreate]
  simpa only [List.append_assoc, List.cons_append, List.nil_append, List.append_nil] using hwhole

/-- A comment statement with the separator before it, up to the comment. -/
def commentOpening (t : Table) (name : List Char) : List Char :=
  ";\ncomment on column".toList ++ ' ' ::
    ((Grammar.firebird.outline t).tableChars .firebird ++ '.' :: name ++ ' ' :: "is ".toList)

theorem introduces_comment (hdatabase : isRegular database = true) (h : t.Apart database)
    {p : List Char × List Char} (hp : p ∈ (Grammar.firebird.outline t).commented) :
    Introduces (database ++ ['.']) (commentOpening t p.1, p.2) := by
  rw [Grammar.commented_outline] at hp
  obtain ⟨q, hq, rfl⟩ := List.mem_map.1 hp
  obtain ⟨hc, hv⟩ := Grammar.mem_commented.1 hq
  obtain ⟨hname, _, _, _, hcomment⟩ := h.columns q.1 hc
  refine ⟨?_, ?_, hcomment q.2 hv⟩
  · exact h.settled_reference hdatabase ";\ncomment on column".toList ('.' :: q.1.name.chars)
      "is ".toList (by decide) (by decide)
      (List.forall_mem_cons.2 ⟨Or.inr rfl, fun c hc => Or.inl (isRegularRest_of_mem hname c hc)⟩)
  · refine ⟨";\ncomment on column".toList ++ ' ' ::
      ((Grammar.firebird.outline t).tableChars .firebird ++ '.' :: q.1.name.chars ++ [' ', 'i']), ?_⟩
    have his : "is ".toList = ['i', 's', ' '] := rfl
    unfold commentOpening
    rw [his]
    simp

/-- The script of a table is its definition, and then text and comments in turn. -/
theorem chars_eq (t : Table) : (Grammar.firebird.outline t).chars .firebird =
    (Grammar.firebird.outline t).tableStatement .firebird ++
      ((Grammar.firebird.outline t).commented.map fun p => (commentOpening t p.1, p.2)).flatMap
        fun p => p.1 ++ literal p.2 := by
  have hliteral : ∀ cs, Grammar.firebird.textChars cs = literal cs := fun cs => rfl
  have hopening : ";\ncomment on column".toList = ';' :: '\n' :: "comment on column".toList := rfl
  have hwords : "comment on column ".toList = "comment on column".toList ++ [' '] := rfl
  rw [Outline.chars_eq_intercalate, Outline.statements, intercalate_cons]
  refine congrArg _ ?_
  unfold Outline.trailingStatements
  rw [List.flatMap_map, show Grammar.firebird.commentStyle = .statement from rfl, List.flatMap_map]
  refine List.flatMap_congr fun p _ => ?_
  unfold Outline.commentStatement Outline.statementOpening commentOpening
  rw [hopening, hwords, hliteral]
  simp only [List.append_assoc, List.cons_append, List.nil_append]
  rfl

end Table.Apart

namespace Grammar

/-- Removing the name of a database from the script of a table apart from it changes nothing. -/
theorem removeQualifier_eq_script {t : Table} {qualifier script text : String}
    (hqualifier : isRegular qualifier.toList = true) (ht : t.Apart qualifier.toList)
    (hscript : (firebird.script t).outcome = .ok script)
    (h : (removeQualifier qualifier script).outcome = .ok text) : text = script := by
  rw [script_outcome] at hscript
  obtain ⟨l, hl, rfl⟩ := map_eq_ok.1 hscript
  refine removeQualifier_settled (mentionable_of_isRegular hqualifier)
    (ht.settled_tableStatement hqualifier) ?_ ((toList_script hl).trans (Table.Apart.chars_eq t)) h
  intro p hp
  obtain ⟨q, hq, rfl⟩ := List.mem_map.1 hp
  exact ht.introduces_comment hqualifier hq

end Grammar

/-! ## Schemas with a namespace of their own -/

/-- A column whose type, default value and comment cannot pass for a reference to the database. -/
structure SchemaColumn.Apart (database : List Char) (c : SchemaColumn) : Prop where
  type : TableScript.Apart database c.type.chars
  default : ∀ v ∈ c.default.ifTruthy, TableScript.Apart database v.chars
  comment : ∀ v ∈ c.comment.ifTruthy, '\\' ∉ v.chars

namespace Schema

/-- A schema with regular names, in a namespace that is not the database. -/
structure DeclaresApart (database : List Char) (s : Schema) : Prop where
  declared : s.space.truthy = true
  space : isRegular s.space.chars = true
  other : ¬ SameLetters database s.space.chars
  name : isRegular s.name.chars = true
  columns : ∀ c ∈ s.columns, isRegular c.name.chars = true

theorem apart_toTable {database : List Char} {b : Builder} {s : Schema}
    (hs : s.DeclaresApart database) (hcolumns : ∀ c ∈ s.columns, c.Apart database) {space : Value}
    (hspace : s.spaceFor b = .ok space) : (s.toTable b space).Apart database where
  space := by
    refine ⟨s.space, ?_, hs.space, hs.other⟩
    rw [space_toTable hspace, usedSpace, Value.orElse, if_pos hs.declared, Value.ifTruthy,
      if_pos hs.declared]
  name := hs.name
  columns := by
    intro column hcolumn
    obtain ⟨c, hc, rfl⟩ := List.mem_map.1 hcolumn
    obtain ⟨htype, hdefault, hcomment⟩ := hcolumns c hc
    refine ⟨hs.columns c hc, by simp [toColumn], ?_, hdefault, hcomment⟩
    unfold Grammar.typeOf
    by_cases hauto : c.isAutoincrement
    · simp only [toColumn, hauto, if_true]
      split
      · exact ⟨rfl, unmentioned_of_bare (by simp) (by decide)⟩
      · exact ⟨rfl, unmentioned_of_bare (by simp) (by decide)⟩
    · simpa only [toColumn, hauto, Bool.false_eq_true, if_false] using htype
  key := by
    intro v hv
    obtain ⟨c, hc, rfl⟩ := List.mem_map.1 hv
    exact hs.columns c (List.mem_of_mem_filter (List.mem_of_mem_filter hc))

end Schema

namespace Generator

/-- What a Firebird generator answers for a schema in a namespace of its own is the draft, exactly
if mending strikes nowhere, and so whenever no comment has a backslash and no type or default value
opens a quotation or mentions the database. -/
theorem script_eq_draft_iff {g : Generator} {config : FirebirdConfig}
    (hb : g.builder = some (.specialized (.firebird config)))
    (hdatabase : isRegular config.database.chars = true) {s : Schema}
    (hs : s.DeclaresApart config.database.chars) {text : String}
    (h : (g.script (some s)).outcome = .ok text) :
    ∃ draft, ((Builder.specialized (.firebird config)).draft s).outcome = .ok draft ∧
      (text = draft ↔ strikes config.database.chars draft.toList = []) ∧
      ((∀ c ∈ s.columns, c.Apart config.database.chars) → text = draft) := by
  unfold script at h
  simp only [hb] at h
  obtain ⟨draft, hdraft, h⟩ := outcome_bind_eq_ok.1 h
  refine ⟨draft, hdraft, ?_, fun hcolumns => ?_⟩
  · -- The draft itself is a script without anything to take out.
    have hsolid : Solid config.database.chars := fun c hc =>
      (isRegularRest_apart (isRegularRest_of_mem hdatabase c hc)).1
    have hclean : ∀ k ∈ [Chunk.mk draft.toList none],
        k.Clean (config.database.chars.length + 1) := by
      simp [Chunk.Clean]
    have hiff := removeQualifier_eq_iff hsolid h hclean (by simp)
    simp only [List.flatMap_cons, List.flatMap_nil, Chunk.kept, Chunk.places, Option.map_none,
      Option.toList_none, List.append_nil, String.toList_inj] at hiff
    exact hiff
  · obtain ⟨l, hl, rfl⟩ := Builder.draft_eq_ok.1 hdraft
    obtain ⟨_, space, hspace, hl⟩ := Builder.layOut_eq_ok.1 hl
    refine Grammar.removeQualifier_eq_script hdatabase (Schema.apart_toTable hs hcolumns hspace) ?_ h
    rw [Grammar.script_outcome]
    exact map_eq_ok.2 ⟨l, hl, rfl⟩

/-- A comment that ends a literal, a statement and names a table of the database does no harm. -/
theorem script_eq_draft_literal :
    let column : SchemaColumn :=
      ⟨.text "a", .text "decimal(10,2)", false, false, false, .text "-1",
        .text "it's DB.t; create table DB.t"⟩
    let s : Schema := ⟨.text "t", .text "NS", [column]⟩
    let config : FirebirdConfig := ⟨.text "h", .text "DB", 3050, .null, .null, true⟩
    let b : Builder := .specialized (.firebird config)
    let g : Generator := ⟨.firebird, some ⟨.text "DB", [(.text "host", .text "h")]⟩, some b⟩
    isRegular config.database.chars = true ∧ s.DeclaresApart config.database.chars ∧
      (∀ c ∈ s.columns, c.Apart config.database.chars) ∧
      ∃ text, (g.script (some s)).outcome = .ok text ∧ (b.draft s).outcome = .ok text := by
  intro column s config b g
  have hdatabase : isRegular config.database.chars = true := by decide
  have hs : s.DeclaresApart config.database.chars := ⟨rfl, by decide, by decide, by decide, by decide⟩
  have hcolumns : ∀ c ∈ s.columns, c.Apart config.database.chars := by
    intro c hc
    cases List.mem_singleton.1 hc
    refine ⟨by decide, ?_, ?_⟩
    · rintro v ⟨⟩
      decide
    · rintro v ⟨⟩
      decide
  have h : (g.script (some s)).outcome = .ok
      "create table NS.t (a decimal(10,2) default -1 not null);\ncomment on column NS.t.a is 'it''s DB.t; create table DB.t'" :=
    eq_ok_of_toOption (by decide +kernel)
  obtain ⟨draft, hdraft, _, hkept⟩ := script_eq_draft_iff rfl hdatabase hs h
  rw [← hkept hcolumns] at hdraft
  exact ⟨hdatabase, hs, hcolumns, _, h, hdraft⟩

/-- A comment that is a backslash runs into the next statement, and what a second comment says about
the database is taken for a statement. -/
theorem script_ne_draft_backslash :
    let column (name comment : String) : SchemaColumn :=
      ⟨.text name, .text "int", false, false, false, .null, .text comment⟩
    let s : Schema :=
      ⟨.text "t", .text "NS", [column "a" "\\", column "b" "; create table DB.u"]⟩
    let c : Connection := ⟨.text "DB", [(.text "host", .text "h")]⟩
    let config : FirebirdConfig := ⟨.text "h", .text "DB", 3050, .null, .null, true⟩
    let b : Builder := .specialized (.firebird config)
    let g : Generator := ⟨.firebird, some c, some b⟩
    (create .standard (.dialect .firebird) (.kept (some c))).outcome = .ok g ∧
      isRegular config.database.chars = true ∧ s.DeclaresApart config.database.chars ∧
      ∃ text draft, (g.script (some s)).outcome = .ok text ∧ (b.draft s).outcome = .ok draft ∧
        text = "create table NS.t (a int not null, b int not null);\ncomment on column NS.t.a is '\\';\ncomment on column NS.t.b is '; create table u'" ∧
        text ≠ draft := by
  intro column s c config b g
  have hcreate : (create .standard (.dialect .firebird) (.kept (some c))).outcome = .ok g := by
    simp only [c, g, b, config]
    rfl
  refine ⟨hcreate, by decide, ⟨rfl, by decide, by decide, by decide, by decide⟩, _, _,
    eq_ok_of_toOption (by decide +kernel), rfl, rfl, by decide +kernel⟩

end Generator

end TableScript
