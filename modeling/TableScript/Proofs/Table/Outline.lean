import TableScript.Proofs.Grammar
import TableScript.Proofs.Sql.Fragment

/-!
# Outlines of scripts

An outline holds what a script says about its table: the namespace, the name, the columns, the
columns of the key, and the comments. What stands between the name of a column and its comment is
kept as it is written. `Outline.chars` writes an outline down in a grammar's spelling, and
`Outline.chars_inj` says that the text gives the outline back, but for the parts that are taken as
they are: no name and no comment can pass for anything else.
-/

namespace TableScript

open Sql

structure OutlineColumn where
  name : List Char
  /-- The type and the clauses, as they are written after the name. -/
  definition : List Char
  comment : Option (List Char)

/-- What a script says about its table. -/
structure Outline where
  space : Option (List Char)
  name : List Char
  columns : List OutlineColumn
  key : List (List Char)

namespace Sql

/-- A text that begins neither with a closing mark nor with an apostrophe, since it is empty or
begins with a point, a space, a separator or a closing parenthesis. -/
def Delimited (s : List Char) : Prop :=
  ∀ c ∈ s.head?, c = '.' ∨ c = ' ' ∨ c = ',' ∨ c = ')' ∨ c = ';'

theorem delimited_nil : Delimited [] := by simp [Delimited]

theorem delimited_cons {c : Char} {s : List Char}
    (h : c = '.' ∨ c = ' ' ∨ c = ',' ∨ c = ')' ∨ c = ';') : Delimited (c :: s) := by
  simpa [Delimited] using h

theorem Delimited.head?_ne {s : List Char} (h : Delimited s) {c : Char}
    (hc : c ∉ ['.', ' ', ',', ')', ';']) : s.head? ≠ some c := by
  intro hs
  have := h c hs
  simp only [List.mem_cons, List.not_mem_nil, or_false] at hc
  exact hc this

/-- With one more comma in front, a list with commas between is a list of entries. -/
theorem comma_intercalate {xs : List (List Char)} (h : xs ≠ []) (s : List Char) :
    ',' :: ' ' :: ([',', ' '].intercalate xs ++ s) =
      xs.flatMap (fun x => ',' :: ' ' :: x) ++ s := by
  cases xs with
  | nil => exact absurd rfl h
  | cons x xs =>
      rw [intercalate_cons]
      simp

end Sql

namespace Grammar

/-! ## Names and literals -/

theorem nameChars_append_inj {g : Grammar} (hg : g ≠ .firebird) {xs ys s t : List Char}
    (hs : Delimited s) (ht : Delimited t) (h : g.nameChars xs ++ s = g.nameChars ys ++ t) :
    xs = ys ∧ s = t := by
  obtain ⟨opening, closing, hm, _, hc⟩ := exists_marks hg
  simp only [nameChars, hm] at h
  exact encloseName_append_inj (hs.head?_ne hc) (ht.head?_ne hc) h

/-- A name does not begin as a key does. -/
theorem nameChars_head {g : Grammar} (hg : g ≠ .firebird) (cs : List Char) :
    ∃ c rest, g.nameChars cs = c :: rest ∧ c ∉ ['p', 'c'] := by
  obtain ⟨opening, closing, hm, ho, _⟩ := exists_marks hg
  exact ⟨opening, double closing cs ++ [closing], by simp [nameChars, hm, encloseName], ho⟩

theorem textChars_append_inj {g : Grammar} {xs ys s t : List Char}
    (hs : Delimited s) (ht : Delimited t) (h : g.textChars xs ++ s = g.textChars ys ++ t) :
    xs = ys ∧ s = t := by
  have hread := congrArg g.readLiteral h
  rw [readLiteral_textChars_iff.2 (.inr (hs.head?_ne (by decide))),
    readLiteral_textChars_iff.2 (.inr (ht.head?_ne (by decide)))] at hread
  simpa using hread

/-! ## Columns -/

/-- What stands before a comment inside the definition of its column. -/
def commentOpening (g : Grammar) : List Char :=
  match g.commentStyle with
  | .clause => " comment ".toList
  | .option => " options(description=".toList
  | _ => []

def commentClosing (g : Grammar) : List Char := if g.commentStyle = .option then [')'] else []

/-- A comment inside the definition of its column, where the grammar puts it there. -/
def inlineComment (g : Grammar) (comment : Option (List Char)) : List Char :=
  match comment with
  | some cs =>
      if g.supportsInlineComment then g.commentOpening ++ (g.textChars cs ++ g.commentClosing)
      else []
  | none => []

def columnChars (g : Grammar) (c : OutlineColumn) : List Char :=
  g.nameChars c.name ++ (c.definition ++ g.inlineComment c.comment)

/-- The name of a column, and its comment if the definition holds it. -/
def columnContent (g : Grammar) (c : OutlineColumn) : List Char × Option (List Char) :=
  (c.name, if g.supportsInlineComment then c.comment else none)

end Grammar

/-- The definition of a column may be taken as it is, and a space sets it off from the name. -/
structure OutlineColumn.Valid (c : OutlineColumn) : Prop where
  selfContained : SelfContained c.definition
  head : c.definition.head? = some ' '

namespace Sql

def ClosesColumn (s : List Char) : Prop := s.head? = some ',' ∨ s.head? = some ')'

theorem ClosesColumn.delimited {s : List Char} (h : ClosesColumn s) : Delimited s := by
  intro c hc
  rcases h with h | h <;> rw [h] at hc <;> cases hc <;> simp

theorem afterFragment_quote (depth : Nat) (rest : List Char) :
    afterFragment depth ('\x27' :: rest) = '\x27' :: rest := by
  simp [afterFragment]

theorem ClosesColumn.afterFragment {s : List Char} (h : ClosesColumn s) :
    Sql.afterFragment 0 s = s := by
  cases s with
  | nil => rfl
  | cons c s =>
      rcases h with h | h <;> cases h <;> simp [Sql.afterFragment]

end Sql

namespace Grammar

/-- Where comments stand inside definitions, a literal begins with an apostrophe. -/
theorem textChars_cons {g : Grammar} (hg : g.supportsInlineComment) (cs : List Char) :
    ∃ rest, g.textChars cs = '\x27' :: rest := by
  cases g <;> first | exact ⟨_, rfl⟩ | exact absurd hg (by decide)

theorem afterFragment_inlineComment {g : Grammar} (hg : g.supportsInlineComment)
    (cs s : List Char) :
    afterFragment 0 (g.inlineComment (some cs) ++ s) =
      g.textChars cs ++ (g.commentClosing ++ s) := by
  obtain ⟨rest, hrest⟩ := textChars_cons hg cs
  have hdepth : ∃ depth, depthAfter? 0 g.commentOpening = some depth := by
    cases g <;> exact ⟨_, rfl⟩
  obtain ⟨depth, hdepth⟩ := hdepth
  simp only [inlineComment, hg, if_true, List.append_assoc]
  rw [afterFragment_append hdepth, hrest, List.cons_append, afterFragment_quote]

theorem delimited_commentClosing {g : Grammar} {s : List Char} (hs : ClosesColumn s) :
    Delimited (g.commentClosing ++ s) := by
  unfold commentClosing
  split
  · exact delimited_cons (by simp)
  · exact hs.delimited

theorem textChars_append_ne {g : Grammar} (hg : g.supportsInlineComment) {s : List Char}
    (hs : ClosesColumn s) (cs t : List Char) : g.textChars cs ++ t ≠ s := by
  obtain ⟨rest, hrest⟩ := textChars_cons hg cs
  rw [hrest]
  rintro rfl
  rcases hs with h | h <;> simp at h

/-- The comment of a definition and what follows the definition are found again behind it. -/
theorem inlineComment_append_inj {g : Grammar} {x y : Option (List Char)} {s t : List Char}
    (hs : ClosesColumn s) (ht : ClosesColumn t)
    (h : afterFragment 0 (g.inlineComment x ++ s) = afterFragment 0 (g.inlineComment y ++ t)) :
    (if g.supportsInlineComment then x else none) =
        (if g.supportsInlineComment then y else none) ∧ s = t := by
  by_cases hg : g.supportsInlineComment
  · rw [if_pos hg, if_pos hg]
    cases x with
    | none =>
        cases y with
        | none => exact ⟨rfl, by simpa [inlineComment, hs.afterFragment, ht.afterFragment] using h⟩
        | some ys =>
            rw [afterFragment_inlineComment hg] at h
            simp only [inlineComment, List.nil_append, hs.afterFragment] at h
            exact absurd h.symm (textChars_append_ne hg hs _ _)
    | some xs =>
        rw [afterFragment_inlineComment hg] at h
        cases y with
        | none =>
            simp only [inlineComment, List.nil_append, ht.afterFragment] at h
            exact absurd h (textChars_append_ne hg ht _ _)
        | some ys =>
            rw [afterFragment_inlineComment hg] at h
            obtain ⟨hxy, h⟩ := textChars_append_inj (delimited_commentClosing hs)
              (delimited_commentClosing ht) h
            exact ⟨by rw [hxy], List.append_cancel_left h⟩
  · have hnone : ∀ z, g.inlineComment z = [] := by
      intro z
      cases z <;> simp [inlineComment, hg]
    rw [hnone, hnone, List.nil_append, List.nil_append, hs.afterFragment, ht.afterFragment] at h
    exact ⟨by rw [if_neg hg, if_neg hg], h⟩

theorem columnChars_append_inj {g : Grammar} (hg : g ≠ .firebird) {a b : OutlineColumn}
    (ha : a.Valid) (hb : b.Valid) {s t : List Char} (hs : ClosesColumn s) (ht : ClosesColumn t)
    (h : g.columnChars a ++ s = g.columnChars b ++ t) :
    g.columnContent a = g.columnContent b ∧ s = t := by
  have hdelimited : ∀ c : OutlineColumn, c.Valid → ∀ u, Delimited (c.definition ++ u) := by
    intro c hc u d hd
    rw [List.head?_append, hc.head] at hd
    cases hd
    simp
  simp only [columnChars, List.append_assoc] at h
  -- The name ends at its mark. Definitions may differ, so what follows them is found by skipping
  -- one fragment on both sides.
  obtain ⟨hname, h⟩ :=
    nameChars_append_inj hg (hdelimited a ha _) (hdelimited b hb _) h
  have hafter := congrArg (afterFragment 0) h
  rw [afterFragment_append ha.selfContained, afterFragment_append hb.selfContained] at hafter
  obtain ⟨hcomment, hst⟩ := inlineComment_append_inj hs ht hafter
  exact ⟨by rw [columnContent, columnContent, hname, hcomment], hst⟩

end Grammar

namespace Outline

/-! ## The parts of an outline -/

/-- The name of the table, after its namespace if it has one. -/
def tableChars (g : Grammar) (o : Outline) : List Char :=
  match o.space with
  | some space => g.nameChars space ++ '.' :: g.nameChars o.name
  | none => g.nameChars o.name

/-- The opening of the key: the name of the constraint, if the grammar names it. -/
def keyOpening (g : Grammar) (o : Outline) : List Char :=
  if g.namesPrimaryKey then
    "constraint ".toList ++
      (g.nameChars (o.name ++ "_pkey".toList) ++ ' ' :: "primary key (".toList)
  else "primary key (".toList

def keyClosing (g : Grammar) : List Char :=
  ')' :: if g = .bigquery then " not enforced".toList else []

def keyChars (g : Grammar) (o : Outline) : List Char :=
  o.keyOpening g ++ ([',', ' '].intercalate (o.key.map g.nameChars) ++ keyClosing g)

def body (g : Grammar) (o : Outline) : List (List Char) :=
  o.columns.map g.columnChars ++ if o.key = [] then [] else [o.keyChars g]

def commented (o : Outline) : List (List Char × List Char) :=
  o.columns.filterMap fun c => c.comment.map fun cs => (c.name, cs)

/-- The opening of a statement that attaches a comment, up to the name of the column. -/
def statementOpening (g : Grammar) (o : Outline) : List Char :=
  "comment on column ".toList ++ (o.tableChars g ++ ['.'])

def commentStatement (g : Grammar) (o : Outline) (p : List Char × List Char) : List Char :=
  o.statementOpening g ++ (g.nameChars p.1 ++ (' ' :: "is ".toList ++ g.textChars p.2))

def descriptionOpening : List Char :=
  "EXEC sp_addextendedproperty @name = N'MS_Description', @value = ".toList

/-- What stands between the comment and the name of its column in a description. -/
def descriptionMiddle (g : Grammar) (o : Outline) : List Char :=
  ',' :: " @level0type = N'Schema', @level0name = ".toList ++
    g.textChars (o.space.getD "dbo".toList) ++
    ", @level1type = N'Table', @level1name = ".toList ++ g.textChars o.name ++
    ", @level2type = N'Column', @level2name = ".toList

def descriptionStatement (g : Grammar) (o : Outline) (p : List Char × List Char) : List Char :=
  descriptionOpening ++ (g.textChars p.2 ++ (o.descriptionMiddle g ++ g.textChars p.1))

/-- The statements after the table definition, each after a separator. -/
def trailing (g : Grammar) (o : Outline) : List Char :=
  match g.commentStyle with
  | .statement => o.commented.flatMap fun p => ';' :: '\n' :: o.commentStatement g p
  | .property => o.commented.flatMap fun p => ';' :: '\n' :: o.descriptionStatement g p
  | _ => []

/-- The definition of the table. -/
def tableStatement (g : Grammar) (o : Outline) : List Char :=
  "create table ".toList ++ (o.tableChars g ++
    (' ' :: '(' :: ([',', ' '].intercalate (o.body g) ++ [')'])))

def trailingStatements (g : Grammar) (o : Outline) : List (List Char) :=
  match g.commentStyle with
  | .statement => o.commented.map (o.commentStatement g)
  | .property => o.commented.map (o.descriptionStatement g)
  | _ => []

/-- The statements of an outline, one by one. -/
def statements (g : Grammar) (o : Outline) : List (List Char) :=
  o.tableStatement g :: o.trailingStatements g

/-- The script of an outline. -/
def chars (g : Grammar) (o : Outline) : List Char :=
  "create table ".toList ++ (o.tableChars g ++
    (' ' :: '(' :: ([',', ' '].intercalate (o.body g) ++ ')' :: o.trailing g)))

/-- A script is its statements with separators between them. -/
theorem chars_eq_intercalate (g : Grammar) (o : Outline) :
    o.chars g = [';', '\n'].intercalate (o.statements g) := by
  have htrailing : o.trailing g = (o.trailingStatements g).flatMap ([';', '\n'] ++ ·) := by
    unfold trailing trailingStatements
    cases g.commentStyle with
    | statement | property => rw [List.flatMap_map]; rfl
    | clause | option | dropped => rfl
  unfold statements chars tableStatement
  rw [intercalate_cons, ← htrailing]
  simp only [List.append_assoc, List.cons_append, List.nil_append]

/-- Every definition of a column may be taken as it is, and there is one. -/
structure Valid (o : Outline) : Prop where
  columns : ∀ c ∈ o.columns, c.Valid
  nonempty : o.columns ≠ []

/-! ## Telling the parts apart -/

variable {g : Grammar} {o o' : Outline}

theorem tableChars_append_inj (hg : g ≠ .firebird) {s t : List Char}
    (h : o.tableChars g ++ ' ' :: s = o'.tableChars g ++ ' ' :: t) :
    (o.space = o'.space ∧ o.name = o'.name) ∧ s = t := by
  have hspace : ∀ u : List Char, Delimited (' ' :: u) := fun u => delimited_cons (by simp)
  have hpoint : ∀ u : List Char, Delimited ('.' :: u) := fun u => delimited_cons (by simp)
  unfold tableChars at h
  cases hx : o.space with
  | none =>
      cases hy : o'.space with
      | none =>
          simp only [hx, hy] at h
          obtain ⟨hname, h⟩ := Grammar.nameChars_append_inj hg (hspace s) (hspace t) h
          exact ⟨⟨rfl, hname⟩, List.tail_eq_of_cons_eq h⟩
      | some y =>
          simp only [hx, hy, List.append_assoc, List.cons_append] at h
          have h := (Grammar.nameChars_append_inj hg (hspace s) (hpoint _) h).2
          exact absurd (List.head_eq_of_cons_eq h) (by decide)
  | some x =>
      cases hy : o'.space with
      | none =>
          simp only [hx, hy, List.append_assoc, List.cons_append] at h
          have h := (Grammar.nameChars_append_inj hg (hpoint _) (hspace t) h).2
          exact absurd (List.head_eq_of_cons_eq h) (by decide)
      | some y =>
          simp only [hx, hy, List.append_assoc, List.cons_append] at h
          obtain ⟨hxy, h⟩ := Grammar.nameChars_append_inj hg (hpoint _) (hpoint _) h
          obtain ⟨hname, h⟩ := Grammar.nameChars_append_inj hg (hspace s) (hspace t)
            (List.tail_eq_of_cons_eq h)
          exact ⟨⟨by rw [hxy], hname⟩, List.tail_eq_of_cons_eq h⟩

/-- With one more separator in front, the body is a list of columns and perhaps the key. -/
theorem comma_intercalate_body (ho : o.Valid) (s : List Char) :
    ',' :: ' ' :: ([',', ' '].intercalate (o.body g) ++ s) =
      o.columns.flatMap (fun c => ',' :: ' ' :: g.columnChars c) ++
        ((if o.key = [] then [] else ',' :: ' ' :: o.keyChars g) ++ s) := by
  have hne : o.body g ≠ [] := by
    intro h
    simp only [body, List.append_eq_nil_iff, List.map_eq_nil_iff] at h
    exact ho.nonempty h.1
  rw [comma_intercalate hne, body, List.flatMap_append, List.flatMap_map, List.append_assoc]
  by_cases hkey : o.key = [] <;> simp [hkey]

/-- A text that begins as the end of the columns does: with the key or the closing parenthesis. -/
def EndsColumns (s : List Char) : Prop :=
  s.head? = some ')' ∨ ∃ c rest, s = ',' :: ' ' :: c :: rest ∧ c ∈ ['p', 'c']

theorem endsColumns_key (s : List Char) :
    EndsColumns ((if o.key = [] then [] else ',' :: ' ' :: o.keyChars g) ++ ')' :: s) := by
  by_cases hkey : o.key = []
  · left
    simp [hkey]
  · right
    rw [if_neg hkey]
    unfold keyChars keyOpening
    split
    · exact ⟨'c', _, by rfl, by simp⟩
    · exact ⟨'p', _, by rfl, by simp⟩

theorem separable_columns (hg : g ≠ .firebird) :
    Separable (fun c => ',' :: ' ' :: g.columnChars c) g.columnContent OutlineColumn.Valid
      ClosesColumn EndsColumns where
  follows_entry a s _ := Or.inl rfl
  follows_end s hs := by
    rcases hs with hs | ⟨c, rest, rfl, _⟩
    · exact Or.inr hs
    · exact Or.inl rfl
  entry_inj a b s t ha hb hs ht h :=
    Grammar.columnChars_append_inj hg ha hb hs ht
      (List.tail_eq_of_cons_eq (List.tail_eq_of_cons_eq h))
  entry_ne a s t _ ht h := by
    obtain ⟨c, rest, hc, hne⟩ := Grammar.nameChars_head hg a.name
    rcases ht with ht | ⟨d, rest', rfl, hd⟩
    · rw [← h] at ht
      simp at ht
    · have h := List.tail_eq_of_cons_eq (List.tail_eq_of_cons_eq h)
      rw [Grammar.columnChars, hc] at h
      rw [List.head_eq_of_cons_eq h] at hne
      exact hne hd

def EndsKey (s : List Char) : Prop := s.head? = some ')'

theorem separable_key (hg : g ≠ .firebird) :
    Separable (fun cs => ',' :: ' ' :: g.nameChars cs) id (fun _ => True) Delimited EndsKey where
  follows_entry a s _ := delimited_cons (c := ',') (by simp)
  follows_end s hs := by
    intro c hc
    rw [hs] at hc
    cases hc
    simp
  entry_inj a b s t _ _ hs ht h :=
    Grammar.nameChars_append_inj hg hs ht (List.tail_eq_of_cons_eq (List.tail_eq_of_cons_eq h))
  entry_ne a s t _ ht h := by
    have ht : t.head? = some ')' := ht
    rw [← h] at ht
    simp at ht

theorem key_append_inj (hg : g ≠ .firebird) {xs ys : List (List Char)} {s t : List Char}
    (h : xs.flatMap (fun cs => ',' :: ' ' :: g.nameChars cs) ++ ')' :: s =
      ys.flatMap (fun cs => ',' :: ' ' :: g.nameChars cs) ++ ')' :: t) :
    xs = ys ∧ s = t := by
  have hclosing : ∀ u : List Char, EndsKey (')' :: u) := fun u => rfl
  obtain ⟨hxy, hst⟩ := (separable_key hg).append_inj (fun _ _ => trivial) (fun _ _ => trivial)
    (hclosing s) (hclosing t) h
  rw [List.map_id, List.map_id] at hxy
  exact ⟨hxy, List.tail_eq_of_cons_eq hst⟩

/-- What follows the columns gives back the key and the statements after the table definition. -/
theorem key_trailing_inj (hg : g ≠ .firebird) (hname : o.name = o'.name)
    (h : (if o.key = [] then [] else ',' :: ' ' :: o.keyChars g) ++ ')' :: o.trailing g =
      (if o'.key = [] then [] else ',' :: ' ' :: o'.keyChars g) ++ ')' :: o'.trailing g) :
    o.key = o'.key ∧ o.trailing g = o'.trailing g := by
  have hopening : o.keyOpening g = o'.keyOpening g := by simp only [keyOpening, hname]
  by_cases hx : o.key = []
  · by_cases hy : o'.key = []
    · simp only [hx, hy, if_true, List.nil_append] at h
      exact ⟨by rw [hx, hy], List.tail_eq_of_cons_eq h⟩
    · simp only [hx, hy, if_true, if_false, List.nil_append] at h
      exact absurd (List.head_eq_of_cons_eq h) (by decide)
  · by_cases hy : o'.key = []
    · simp only [hx, hy, if_true, if_false, List.nil_append] at h
      exact absurd (List.head_eq_of_cons_eq h) (by decide)
    · simp only [hx, hy, if_false, keyChars, hopening, List.append_assoc,
        List.cons_append] at h
      have h := List.append_cancel_left (List.tail_eq_of_cons_eq (List.tail_eq_of_cons_eq h))
      have h := congrArg (fun s => ',' :: ' ' :: s) h
      have hnil : ∀ xs : List (List Char), xs ≠ [] → xs.map g.nameChars ≠ [] := by simp
      simp only [comma_intercalate (hnil _ hx), comma_intercalate (hnil _ hy),
        List.flatMap_map, keyClosing, List.cons_append] at h
      obtain ⟨hkey, h⟩ := key_append_inj hg h
      exact ⟨hkey, List.tail_eq_of_cons_eq (List.append_cancel_left h)⟩

/-- Statements that follow a table definition give back their columns and comments if each does. -/
theorem flatMap_statements_inj {statement : List Char × List Char → List Char}
    (hstatement : ∀ p q s t, Delimited s → Delimited t →
      statement p ++ s = statement q ++ t → p = q ∧ s = t)
    {ps qs : List (List Char × List Char)}
    (h : ps.flatMap (fun p => ';' :: '\n' :: statement p) =
      qs.flatMap (fun p => ';' :: '\n' :: statement p)) : ps = qs := by
  have hsep : Separable (fun p => ';' :: '\n' :: statement p) id (fun _ => True) Delimited
      (· = []) :=
    { follows_entry := fun a s _ => delimited_cons (c := ';') (by simp)
      follows_end := by
        rintro s rfl
        exact delimited_nil
      entry_inj := fun p q s t _ _ hs ht h =>
        hstatement p q s t hs ht (List.tail_eq_of_cons_eq (List.tail_eq_of_cons_eq h))
      entry_ne := by
        rintro p s t _ rfl h
        simp at h }
  have hpq := (hsep.append_inj (fun _ _ => trivial) (fun _ _ => trivial) rfl rfl
    (congrArg (· ++ []) h)).1
  rwa [List.map_id, List.map_id] at hpq

theorem commentStatement_append_inj (hg : g ≠ .firebird) {p q : List Char × List Char}
    {s t : List Char} (hs : Delimited s) (ht : Delimited t)
    (h : o.commentStatement g p ++ s = o.commentStatement g q ++ t) : p = q ∧ s = t := by
  simp only [commentStatement, List.append_assoc, List.cons_append] at h
  obtain ⟨hcolumn, h⟩ := Grammar.nameChars_append_inj hg (delimited_cons (by simp))
    (delimited_cons (by simp)) (List.append_cancel_left h)
  have h := List.append_cancel_left (List.tail_eq_of_cons_eq h)
  obtain ⟨htext, hst⟩ := Grammar.textChars_append_inj hs ht h
  exact ⟨Prod.ext hcolumn htext, hst⟩

theorem descriptionStatement_append_inj {p q : List Char × List Char} {s t : List Char}
    (hs : Delimited s) (ht : Delimited t)
    (h : o.descriptionStatement g p ++ s = o.descriptionStatement g q ++ t) : p = q ∧ s = t := by
  have hmiddle : ∀ u, Delimited (o.descriptionMiddle g ++ u) := by
    intro u
    unfold descriptionMiddle
    exact delimited_cons (c := ',') (by simp)
  simp only [descriptionStatement, List.append_assoc] at h
  obtain ⟨htext, h⟩ := Grammar.textChars_append_inj (hmiddle _) (hmiddle _)
    (List.append_cancel_left h)
  obtain ⟨hcolumn, hst⟩ := Grammar.textChars_append_inj hs ht (List.append_cancel_left h)
  exact ⟨Prod.ext hcolumn htext, hst⟩

theorem commented_eq_of_statements (hg : g ≠ .firebird) (hspace : o.space = o'.space)
    (hname : o.name = o'.name) (hstyle : g.commentStyle = .statement)
    (h : o.trailing g = o'.trailing g) : o.commented = o'.commented := by
  have htable : o'.tableChars g = o.tableChars g := by simp only [tableChars, hspace, hname]
  have hstatement : o'.commentStatement g = o.commentStatement g := by
    funext p
    unfold commentStatement statementOpening
    rw [htable]
  simp only [trailing, hstyle, hstatement] at h
  exact flatMap_statements_inj (fun p q s t => commentStatement_append_inj hg) h

theorem commented_eq_of_descriptions (hspace : o.space = o'.space) (hname : o.name = o'.name)
    (hstyle : g.commentStyle = .property) (h : o.trailing g = o'.trailing g) :
    o.commented = o'.commented := by
  have hstatement : o'.descriptionStatement g = o.descriptionStatement g := by
    funext p
    simp only [descriptionStatement, descriptionMiddle, hspace, hname]
  simp only [trailing, hstyle, hstatement] at h
  exact flatMap_statements_inj (fun p q s t => descriptionStatement_append_inj) h

/-- The comments of a list of columns are in what their definitions hold, if comments stand
there. -/
theorem commented_eq_of_columnContent (hinline : g.supportsInlineComment)
    (h : o.columns.map g.columnContent = o'.columns.map g.columnContent) :
    o.commented = o'.commented := by
  have hcommented : ∀ q : Outline, q.commented =
      (q.columns.map g.columnContent).filterMap fun p => p.2.map fun cs => (p.1, cs) := by
    intro q
    rw [commented, List.filterMap_map]
    unfold Function.comp Grammar.columnContent
    simp only [hinline, if_true]
  rw [hcommented, hcommented, h]

/-- The text of an outline gives back its namespace, its name, its columns in order, the columns of
its key, and its comments unless the grammar drops them. -/
theorem chars_inj (hg : g ≠ .firebird) (ho : o.Valid) (ho' : o'.Valid)
    (h : o.chars g = o'.chars g) :
    o.space = o'.space ∧ o.name = o'.name ∧
      o.columns.map (·.name) = o'.columns.map (·.name) ∧ o.key = o'.key ∧
      (g.commentStyle ≠ .dropped → o.commented = o'.commented) := by
  have h := List.append_cancel_left h
  obtain ⟨⟨hspace, hname⟩, h⟩ := tableChars_append_inj (g := g) hg h
  have h := congrArg (',' :: ' ' :: ·) (List.tail_eq_of_cons_eq h)
  simp only [comma_intercalate_body ho, comma_intercalate_body ho'] at h
  obtain ⟨hcontent, h⟩ := (separable_columns hg).append_inj ho.columns ho'.columns
    (endsColumns_key _) (endsColumns_key _) h
  have hnames : o.columns.map (·.name) = o'.columns.map (·.name) := by
    have := congrArg (List.map Prod.fst) hcontent
    simpa [Grammar.columnContent, Function.comp_def] using this
  obtain ⟨hkey, htrailing⟩ := key_trailing_inj hg hname h
  refine ⟨hspace, hname, hnames, hkey, fun hdropped => ?_⟩
  by_cases hinline : g.supportsInlineComment
  · exact commented_eq_of_columnContent hinline hcontent
  · cases hstyle : g.commentStyle with
    | statement => exact commented_eq_of_statements hg hspace hname hstyle htrailing
    | property => exact commented_eq_of_descriptions hspace hname hstyle htrailing
    | dropped => exact absurd hstyle hdropped
    | clause | option => simp [Grammar.supportsInlineComment, hstyle] at hinline

end Outline

end TableScript
