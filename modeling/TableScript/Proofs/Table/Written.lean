import TableScript.Proofs.Table.Clauses
import TableScript.Proofs.Table.Outline

/-!
# How a table is written

Unless the names of a database stand without marks, the script of a table is the text of an outline,
which has the names and the comments of the table. `Grammar.toList_script` puts the parts of a
layout together: the columns with their clauses, the key, the name, and the comments.
-/

namespace TableScript

open Sql Outcome

namespace Value

def chars (v : Value) : List Char := v.written.toList

/-- The text with the given characters. -/
def ofChars (cs : List Char) : Value := .text (String.ofList cs)

def IsTextual (v : Value) : Prop := ∃ s, v = .text s

theorem IsTextual.ofChars_chars {v : Value} (h : v.IsTextual) : ofChars v.chars = v := by
  obtain ⟨s, rfl⟩ := h
  exact congrArg text String.ofList_toList

/-- Texts are found again from their characters, one by one. -/
theorem map_ofChars_chars {α : Type} {f : α → Value} {l : List α}
    (h : ∀ a ∈ l, (f a).IsTextual) : (l.map fun a => (f a).chars).map ofChars = l.map f := by
  rw [List.map_map]
  exact List.map_congr_left fun a ha => (h a ha).ofChars_chars

end Value

namespace Grammar

open Logged

/-! ## Names and literals -/

/-- With marks around names, only a text is a name. -/
theorem quoteIdentifier_eq_ok {g : Grammar} {v : Value} {s : String}
    (h : g.quoteIdentifier v = .ok s) :
    (g ≠ .firebird → v.IsTextual) ∧ s.toList = g.nameChars v.chars := by
  by_cases hg : g = .firebird
  · subst hg
    refine ⟨absurd rfl, ?_⟩
    rw [← (quoteIdentifier_firebird_eq_ok.1 h).2]
    rfl
  · obtain ⟨opening, closing, hm, _⟩ := exists_marks hg
    cases v with
    | text t =>
        cases h
        exact ⟨fun _ => ⟨t, rfl⟩, toList_quoteName g t⟩
    | _ => simp [quoteIdentifier, hm] at h

theorem quoteString_eq_ok {g : Grammar} {v : Value} {s : String} (h : g.quoteString v = .ok s) :
    v.IsTextual ∧ s.toList = g.textChars v.chars := by
  cases v with
  | text t =>
      cases h
      exact ⟨⟨t, rfl⟩, toList_quoteText g t⟩
  | _ => cases h

theorem quoteIdentifiers_eq_ok {g : Grammar} {vs : List Value} {names : List String}
    (h : List.Forall₂ (fun v s => g.quoteIdentifier v = .ok s) vs names) :
    (g ≠ .firebird → ∀ v ∈ vs, v.IsTextual) ∧
      names.map String.toList = (vs.map Value.chars).map g.nameChars := by
  induction h with
  | nil => simp
  | cons hv _ ih =>
      obtain ⟨htext, hchars⟩ := quoteIdentifier_eq_ok hv
      refine ⟨fun hg => List.forall_mem_cons.2 ⟨htext hg, ih.1 hg⟩, ?_⟩
      rw [List.map_cons, hchars, ih.2, List.map_cons, List.map_cons]

/-! ## Clauses -/

/-- A clause of a column, after a space; nothing if the column has no such clause. -/
def clauseChars (g : Grammar) (c : Column) (k : Clause) : List Char :=
  (g.clauseText? c k).elim [] fun s => ' ' :: s.toList

theorem layOutClauses_eq_ok {g : Grammar} {c : Column} {ks : List Clause}
    {clauses : List (Clause × String)} (h : (g.layOutClauses c ks).outcome = .ok clauses) :
    (∀ k ∈ ks, ∃ s, (g.clause? c k).outcome = .ok s) ∧
      clauses.flatMap (fun p => ' ' :: p.2.toList) = ks.flatMap (g.clauseChars c) := by
  obtain ⟨hok, rfl, _⟩ := layOutClauses_eq_filterMap h
  refine ⟨fun k hk => ⟨_, hok k hk⟩, ?_⟩
  rw [List.filterMap_eq_flatMap_toList, List.flatMap_assoc]
  refine List.flatMap_congr fun k _ => ?_
  unfold clauseChars
  cases g.clauseText? c k with
  | none => rfl
  | some s => exact List.append_nil _

/-- The clauses of a grammar other than the comment, which is the last if it is there. -/
def plainClauses (g : Grammar) : List Clause := g.clauses.filter (· ≠ .comment)

/-- A comment inside a definition is its last clause. -/
theorem clauses_eq (g : Grammar) :
    g.clauses = g.plainClauses ++ [.comment] ∨
      g.clauses = g.plainClauses ∧ g.supportsInlineComment = false := by
  cases g <;> decide

theorem clauseChars_comment {g : Grammar} {c : Column} {s : Option String}
    (h : (g.clause? c .comment).outcome = .ok s) :
    (g.supportsInlineComment → ∀ v ∈ c.comment, v.IsTextual) ∧
      g.clauseChars c .comment = g.inlineComment (c.comment.map Value.chars) := by
  unfold clauseChars clauseText?
  rw [h]
  cases hc : c.comment with
  | none =>
      have hs : s = none := by
        unfold clause? at h
        rw [hc] at h
        cases g <;> cases h <;> rfl
      simp [hs, inlineComment]
  | some v =>
      by_cases hg : g.supportsInlineComment
      · unfold clause? at h
        rw [hc] at h
        cases hstyle : g.commentStyle with
        | clause | option =>
            simp only [hstyle, outcome_lift] at h
            obtain ⟨t, ht, rfl⟩ := map_eq_ok.1 h
            obtain ⟨htext, hchars⟩ := quoteString_eq_ok ht
            refine ⟨fun _ w hw => by cases hw; exact htext, ?_⟩
            simp [inlineComment, hg, commentOpening, commentClosing, hstyle, hchars]
        | statement | property | dropped => simp [supportsInlineComment, hstyle] at hg
      · have hs : s = none := by
          unfold clause? at h
          rw [hc] at h
          cases g <;> first | (cases h; rfl) | exact absurd rfl hg
        simp [hs, inlineComment, hg]

theorem clauseChars_unsigned {g : Grammar} (hg : g.supportsUnsigned = false) (c : Column) :
    g.clauseChars c .unsigned = [] := by
  rw [clauseChars, clauseText?_unsigned, hg, Bool.and_false]
  rfl

/-- A default value that is written stands after its word. -/
theorem clauseChars_default (g : Grammar) (c : Column) :
    g.clauseChars c .default = [] ∨
      ∃ v ∈ c.default, g.clauseChars c .default = " default ".toList ++ v.chars := by
  unfold clauseChars clauseText?
  cases h : (g.clause? c .default).outcome with
  | error e => exact Or.inl rfl
  | ok text =>
      rw [(clause?_default_eq_ok h).1]
      cases g.supportsDefault with
      | false => exact Or.inl rfl
      | true =>
          cases c.default with
          | none => exact Or.inl rfl
          | some v => exact Or.inr ⟨v, rfl, congrArg (' ' :: ·) String.toList_append⟩

theorem clauseChars_nullability (g : Grammar) (c : Column) :
    g.clauseChars c .nullability =
      c.isNullable.elim [] fun b => if b then " null".toList else " not null".toList := by
  rw [clauseChars, clauseText?_nullability]
  cases c.isNullable with
  | none => rfl
  | some b => cases b <;> rfl

/-! ## Columns -/

/-- The characters between the name of a column and its comment. -/
def definitionChars (g : Grammar) (t : Table) (c : Column) : List Char :=
  ' ' :: (g.typeOf t c).chars ++ g.plainClauses.flatMap (g.clauseChars c)

def outlineColumn (g : Grammar) (t : Table) (c : Column) : OutlineColumn :=
  ⟨c.name.chars, g.definitionChars t c, c.comment.map Value.chars⟩

theorem toList_columnText {g : Grammar} {t : Table} {c : Column} {k : ColumnLayout}
    (h : (g.layOutColumn t c).outcome = .ok k) :
    (g ≠ .firebird → c.name.IsTextual) ∧
      (g.supportsInlineComment → ∀ v ∈ c.comment, v.IsTextual) ∧
      k.text.toList = g.columnChars (g.outlineColumn t c) := by
  obtain ⟨hname, htype, hclauses⟩ := layOutColumn_eq_ok h
  obtain ⟨htext, hnamechars⟩ := quoteIdentifier_eq_ok hname
  obtain ⟨hok, hchars⟩ := layOutClauses_eq_ok hclauses
  have hcomment : (g.supportsInlineComment → ∀ v ∈ c.comment, v.IsTextual) ∧
      g.clauses.flatMap (g.clauseChars c) =
        g.plainClauses.flatMap (g.clauseChars c) ++
          g.inlineComment (c.comment.map Value.chars) := by
    rcases g.clauses_eq with hlast | ⟨hnone, hinline⟩
    · obtain ⟨s, hs⟩ := hok .comment (by rw [hlast]; simp)
      obtain ⟨hcommenttext, hcommentchars⟩ := clauseChars_comment hs
      refine ⟨hcommenttext, ?_⟩
      rw [hlast, List.flatMap_append, List.flatMap_singleton, hcommentchars]
    · refine ⟨fun h => absurd h (by rw [hinline]; decide), ?_⟩
      rw [hnone]
      cases c.comment <;> simp [inlineComment, hinline]
  refine ⟨htext, hcomment.1, ?_⟩
  have htypechars : k.type.toList = (g.typeOf t c).chars := by
    rw [htype]
    rfl
  have hspace : " ".toList = [' '] := rfl
  rw [ColumnLayout.text, String.toList_intercalate, List.map_cons, List.map_cons,
    intercalate_cons, List.flatMap_cons, hspace, hnamechars, htypechars, List.map_map,
    List.flatMap_map, columnChars, outlineColumn, definitionChars]
  have hrest : k.clauses.flatMap (fun p => [' '] ++ (String.toList ∘ Prod.snd) p) =
      g.clauses.flatMap (g.clauseChars c) := hchars
  rw [hrest, hcomment.2]
  simp

def outline (g : Grammar) (t : Table) : Outline where
  space := t.space.map Value.chars
  name := t.name.chars
  columns := t.columns.map (g.outlineColumn t)
  key := t.primaryKey.map Value.chars

theorem toList_columnTexts {g : Grammar} {t : Table} {cs : List Column} {ks : List ColumnLayout}
    (h : List.Forall₂ (fun c k => (g.layOutColumn t c).outcome = .ok k) cs ks) :
    (∀ c ∈ cs, (g ≠ .firebird → c.name.IsTextual) ∧
        (g.supportsInlineComment → ∀ v ∈ c.comment, v.IsTextual)) ∧
      ks.map (fun k => k.text.toList) = cs.map fun c => g.columnChars (g.outlineColumn t c) := by
  induction h with
  | nil => simp
  | cons hc _ ih =>
      obtain ⟨hname, hcomment, hchars⟩ := toList_columnText hc
      refine ⟨List.forall_mem_cons.2 ⟨⟨hname, hcomment⟩, ih.1⟩, ?_⟩
      rw [List.map_cons, hchars, ih.2, List.map_cons]

/-! ## The key and the name of the table -/

/-- The text of a key, part by part. -/
theorem toList_keyLayout (k : KeyLayout) :
    k.text.toList =
      (k.constraint.elim [] fun name => "constraint ".toList ++ (name.toList ++ [' '])) ++
        ("primary key (".toList ++ ([',', ' '].intercalate (k.columns.map String.toList) ++
          ')' :: if k.unenforced then " not enforced".toList else [])) := by
  have hspace : " ".toList = [' '] := rfl
  have hcomma : ", ".toList = [',', ' '] := rfl
  have hclosing : ")".toList = [')'] := rfl
  unfold KeyLayout.text
  cases k.constraint with
  | none =>
      cases k.unenforced <;>
        simp only [String.toList_append, String.toList_intercalate, hcomma, hclosing,
          List.append_assoc, Option.elim, List.nil_append, List.cons_append, if_true,
          Bool.false_eq_true, if_false]
  | some name =>
      cases k.unenforced <;>
        simp only [String.toList_append, String.toList_intercalate, hspace, hcomma, hclosing,
          List.append_assoc, Option.elim, List.nil_append, List.cons_append, if_true,
          Bool.false_eq_true, if_false]

theorem toList_keyText {g : Grammar} {t : Table} {k : KeyLayout} (h : g.layOutKey t = .ok k) :
    (g ≠ .firebird → ∀ v ∈ t.primaryKey, v.IsTextual) ∧ k.text.toList = (g.outline t).keyChars g := by
  obtain ⟨hcolumns, hconstraint, hunenforced⟩ := layOutKey_eq_ok h
  obtain ⟨htext, hchars⟩ := quoteIdentifiers_eq_ok hcolumns
  refine ⟨htext, ?_⟩
  have hname : (g.quoteName (t.name.written ++ "_pkey")).toList =
      g.nameChars (t.name.chars ++ "_pkey".toList) := by
    rw [toList_quoteName]
    exact congrArg g.nameChars String.toList_append
  unfold Outline.keyChars Outline.keyOpening Outline.keyClosing
  rw [toList_keyLayout, hconstraint, hunenforced, hchars]
  by_cases hnames : g.namesPrimaryKey
  · rw [if_pos hnames, if_pos hnames, Option.elim, hname]
    simp only [List.append_assoc, List.cons_append, List.nil_append, decide_eq_true_eq]
    rfl
  · rw [if_neg hnames, if_neg hnames, Option.elim, List.nil_append]
    simp only [decide_eq_true_eq]
    rfl

theorem toList_quoteTable {g : Grammar} {t : Table} {s : String}
    (h : g.quoteTable t.name t.space = .ok s) :
    (g ≠ .firebird → t.name.IsTextual ∧ ∀ v ∈ t.space, v.IsTextual) ∧
      s.toList = (g.outline t).tableChars g := by
  unfold Outline.tableChars outline
  cases hs : t.space with
  | none =>
      rw [hs] at h
      obtain ⟨hname, hchars⟩ := quoteIdentifier_eq_ok h
      exact ⟨fun hg => ⟨hname hg, by simp⟩, hchars⟩
  | some v =>
      rw [hs] at h
      obtain ⟨first, hfirst, h⟩ := bind_eq_ok.1 h
      obtain ⟨second, hsecond, h⟩ := bind_eq_ok.1 h
      cases h
      obtain ⟨hspace, hspacechars⟩ := quoteIdentifier_eq_ok hfirst
      obtain ⟨hname, hnamechars⟩ := quoteIdentifier_eq_ok hsecond
      refine ⟨fun hg => ⟨hname hg, fun w hw => by cases hw; exact hspace hg⟩, ?_⟩
      simp [String.toList_append, hspacechars, hnamechars]

/-! ## Comments -/

theorem commented_outline (g : Grammar) (t : Table) :
    (g.outline t).commented = (commented t).map fun p => (p.1.name.chars, p.2.chars) := by
  unfold Outline.commented commented outline
  rw [List.filterMap_map, List.map_filterMap]
  congr 1
  funext c
  cases h : c.comment <;> simp [outlineColumn, h]

/-- Comments that are attached one by one are texts, and their statements stand in order. -/
theorem map_statements {ps : List (Column × Value)} {texts : List String}
    {statement : List Char × List Char → List Char}
    (h : List.Forall₂
      (fun p s => p.2.IsTextual ∧ s.toList = statement (p.1.name.chars, p.2.chars)) ps texts) :
    (∀ p ∈ ps, p.2.IsTextual) ∧
      texts.map String.toList = (ps.map fun p => (p.1.name.chars, p.2.chars)).map statement := by
  induction h with
  | nil => simp
  | cons hp _ ih =>
      refine ⟨List.forall_mem_cons.2 ⟨hp.1, ih.1⟩, ?_⟩
      rw [List.map_cons, hp.2, ih.2, List.map_cons, List.map_cons]

theorem commentStatements_eq_ok {g : Grammar} {t : Table} {texts : List String}
    (h : g.commentStatements t = .ok texts) :
    List.Forall₂ (fun p s => p.2.IsTextual ∧
      s.toList = (g.outline t).commentStatement g (p.1.name.chars, p.2.chars))
      (commented t) texts := by
  obtain ⟨table, htable, h⟩ := bind_eq_ok.1 h
  have htablechars := (toList_quoteTable htable).2
  refine (mapM_eq_ok.1 h).imp fun p s hp => ?_
  obtain ⟨name, hname, hp⟩ := bind_eq_ok.1 hp
  obtain ⟨text, htext, hp⟩ := bind_eq_ok.1 hp
  cases hp
  obtain ⟨htextual, htextchars⟩ := quoteString_eq_ok htext
  have hnamechars := (quoteIdentifier_eq_ok hname).2
  have hpoint : ".".toList = ['.'] := rfl
  have his : " is ".toList = ' ' :: "is ".toList := rfl
  refine ⟨htextual, ?_⟩
  unfold Outline.commentStatement Outline.statementOpening
  simp only [String.toList_append, htablechars, hnamechars, htextchars, hpoint, his,
    List.append_assoc, List.cons_append, List.nil_append]

theorem descriptionStatements_eq_ok {g : Grammar} {t : Table} {texts : List String}
    (h : g.descriptionStatements t = .ok texts) :
    List.Forall₂ (fun p s => p.2.IsTextual ∧
      s.toList = (g.outline t).descriptionStatement g (p.1.name.chars, p.2.chars))
      (commented t) texts := by
  refine (mapM_eq_ok.1 h).imp fun p s hp => ?_
  obtain ⟨text, htext, hp⟩ := bind_eq_ok.1 hp
  obtain ⟨space, hspace, hp⟩ := bind_eq_ok.1 hp
  obtain ⟨table, htable, hp⟩ := bind_eq_ok.1 hp
  obtain ⟨name, hname, hp⟩ := bind_eq_ok.1 hp
  cases hp
  obtain ⟨htextual, htextchars⟩ := quoteString_eq_ok htext
  have hspacechars := (quoteString_eq_ok hspace).2
  have htablechars := (quoteString_eq_ok htable).2
  have hnamechars := (quoteString_eq_ok hname).2
  have hdefault : (t.space.getD descriptionSpace).chars =
      (t.space.map Value.chars).getD "dbo".toList := by
    cases t.space <;> rfl
  have hcomma : ", @level0type = N'Schema', @level0name = ".toList =
      ',' :: " @level0type = N'Schema', @level0name = ".toList := rfl
  refine ⟨htextual, ?_⟩
  unfold Outline.descriptionStatement Outline.descriptionMiddle Outline.descriptionOpening outline
  simp only [String.toList_append, htextchars, hspacechars, htablechars, hnamechars, hdefault,
    hcomma, List.append_assoc, List.cons_append]

theorem trailingStatements_eq_ok {g : Grammar} {t : Table} {comments : List String}
    (h : (g.trailingStatements t).outcome = .ok comments) :
    (g.commentStyle = .statement ∨ g.commentStyle = .property →
        ∀ p ∈ commented t, p.2.IsTextual) ∧
      comments.map String.toList = (g.outline t).trailingStatements g := by
  unfold trailingStatements at h
  unfold Outline.trailingStatements
  rw [commented_outline]
  cases hstyle : g.commentStyle with
  | statement =>
      rw [hstyle] at h
      obtain ⟨htext, hchars⟩ := map_statements (commentStatements_eq_ok h)
      exact ⟨fun _ => htext, hchars⟩
  | property =>
      rw [hstyle] at h
      obtain ⟨htext, hchars⟩ := map_statements (descriptionStatements_eq_ok h)
      exact ⟨fun _ => htext, hchars⟩
  | dropped =>
      rw [hstyle] at h
      obtain ⟨_, _, h⟩ := outcome_bind_eq_ok.1 h
      cases h
      exact ⟨by simp, rfl⟩
  | clause | option =>
      rw [hstyle] at h
      cases h
      exact ⟨by simp, rfl⟩

/-! ## Scripts -/

/-- The names of a table are texts, and so are the comments that the database keeps. -/
structure Textual (g : Grammar) (t : Table) : Prop where
  name : t.name.IsTextual
  space : ∀ v ∈ t.space, v.IsTextual
  columns : ∀ c ∈ t.columns, c.name.IsTextual
  key : ∀ v ∈ t.primaryKey, v.IsTextual
  comments : g.commentStyle ≠ .dropped → ∀ p ∈ commented t, p.2.IsTextual

theorem mem_commented {t : Table} {p : Column × Value} :
    p ∈ commented t ↔ p.1 ∈ t.columns ∧ p.1.comment = some p.2 := by
  obtain ⟨c, v⟩ := p
  unfold commented
  rw [List.mem_filterMap]
  constructor
  · rintro ⟨d, hd, h⟩
    obtain ⟨w, hw, h⟩ := Option.map_eq_some_iff.1 h
    cases h
    exact ⟨hd, hw⟩
  · rintro ⟨hc, hv⟩
    exact ⟨c, hc, by rw [hv]; rfl⟩

/-- The definition of a table, part by part. -/
theorem toList_tableDefinition (g : Grammar) (table body : String) :
    (g.createKeyword ++ " " ++ table ++ " (" ++ body ++ ")").toList =
      "create table ".toList ++ (table.toList ++ ' ' :: '(' :: (body.toList ++ [')'])) := by
  have hopening : (g.createKeyword ++ " ").toList = "create table ".toList := rfl
  have hparen : " (".toList = [' ', '('] := rfl
  have hclosing : ")".toList = [')'] := rfl
  rw [String.toList_append, String.toList_append, String.toList_append, String.toList_append,
    hopening, hparen, hclosing]
  simp only [List.append_assoc, List.cons_append, List.nil_append]

/-- The statements of a table are those of its outline. -/
theorem map_toList_statements {g : Grammar} {t : Table} {l : Layout}
    (h : (g.layOut t).outcome = .ok l) :
    (g ≠ .firebird → g.Textual t) ∧
      (l.statements g).map String.toList = (g.outline t).statements g := by
  obtain ⟨hcolumns, hkey, htable, hcomments⟩ := layOut_eq_ok h
  obtain ⟨hcolumntext, hcolumnchars⟩ := toList_columnTexts hcolumns
  obtain ⟨htabletext, htablechars⟩ := toList_quoteTable htable
  obtain ⟨hcommenttext, htrailing⟩ := trailingStatements_eq_ok hcomments
  have hkeytext : (g ≠ .firebird → ∀ v ∈ t.primaryKey, v.IsTextual) ∧
      (l.key.map KeyLayout.text).toList.map String.toList =
        if (g.outline t).key = [] then [] else [(g.outline t).keyChars g] := by
    have houtline : (g.outline t).key = t.primaryKey.map Value.chars := rfl
    rw [houtline]
    cases hk : t.primaryKey with
    | nil =>
        rw [hk] at hkey
        have hnone : l.key = none := hkey
        simp [hnone]
    | cons v vs =>
        rw [hk] at hkey
        obtain ⟨k, hlay, hsome⟩ : ∃ k, g.layOutKey t = .ok k ∧ l.key = some k := hkey
        obtain ⟨htext, hchars⟩ := toList_keyText hlay
        rw [hk] at htext
        exact ⟨htext, by simp [hsome, hchars]⟩
  have hbody : l.body.map String.toList = (g.outline t).body g := by
    unfold Layout.body Outline.body outline
    rw [List.map_append, List.map_map, List.map_map]
    exact congrArg₂ (· ++ ·) hcolumnchars hkeytext.2
  refine ⟨fun hg => ⟨(htabletext hg).1, (htabletext hg).2, fun c hc => (hcolumntext c hc).1 hg,
    hkeytext.1 hg, ?_⟩, ?_⟩
  · intro hkept p hp
    cases hstyle : g.commentStyle with
    | statement => exact hcommenttext (Or.inl hstyle) p hp
    | property => exact hcommenttext (Or.inr hstyle) p hp
    | dropped => exact absurd hstyle hkept
    | clause | option =>
        obtain ⟨hc, hv⟩ := mem_commented.1 hp
        exact (hcolumntext p.1 hc).2 (by simp [supportsInlineComment, hstyle]) p.2 hv
  · have hcomma : ", ".toList = [',', ' '] := rfl
    unfold Layout.statements Outline.statements Outline.tableStatement
    rw [List.map_cons, htrailing, toList_tableDefinition, htablechars, String.toList_intercalate,
      hbody, hcomma]

/-- The script of a table is the text of its outline. -/
theorem toList_script {g : Grammar} {t : Table} {l : Layout} (h : (g.layOut t).outcome = .ok l) :
    (l.script g).toList = (g.outline t).chars g := by
  rw [Outline.chars_eq_intercalate, ← (map_toList_statements h).2]
  exact String.toList_intercalate

end Grammar

end TableScript
