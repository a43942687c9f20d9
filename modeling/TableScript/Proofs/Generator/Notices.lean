import TableScript.Proofs.Generator.Rejection
import TableScript.Proofs.Sql.Fragment
import TableScript.Proofs.Table.Attributes
import TableScript.Proofs.Table.PrimaryKey

/-!
# What is told beside a script

The notices of a script follow from what was written. Those about definitions come first, column by
column, and those about dropped comments follow, in the order of the columns. Mending a script adds
none.
-/

namespace TableScript

open Logged Outcome

/-! ## The columns of a schema -/

namespace Schema

theorem increments_toColumn (c : SchemaColumn) : (toColumn c).increments = c.isAutoincrement := by
  unfold Column.increments toColumn
  cases c.isAutoincrement <;> rfl

theorem default_toColumn (c : SchemaColumn) :
    (toColumn c).default = if c.asks .default then some c.default else none := rfl

theorem comment_toColumn (c : SchemaColumn) :
    (toColumn c).comment = if c.asks .comment then some c.comment else none := rfl

end Schema

namespace Rendering

variable {g : Grammar} {t : Table} {table : String} {x : Rendering}

/-- What a rendering is made of: a definition that was laid out, and the statement for its comment,
if the database attaches comments. -/
structure Of (g : Grammar) (t : Table) (table : String) (x : Rendering) : Prop where
  definition : (g.layOutColumn t (Schema.toColumn x.column)).outcome = .ok x.definition
  statement : if g.attachesComments
    then Option.Rel (g.Attaches t table x.column.name) (Schema.toColumn x.column).comment x.statement
    else x.statement = none

/-! ## Attributes one by one -/

theorem Of.texts_unsigned (h : x.Of g t table) :
    x.texts .unsigned =
      if x.column.asks .unsigned && g.supportsUnsigned then ["unsigned"] else [] := by
  have htexts := Grammar.textsOf_eq h.definition .unsigned
  rw [Grammar.clauseText?_unsigned, Schema.increments_toColumn] at htexts
  change x.definition.textsOf .unsigned ++ [] = _
  rw [List.append_nil, htexts]
  change (if x.column.isUnsigned && !x.column.isAutoincrement && g.supportsUnsigned
    then some "unsigned" else none).toList =
      if x.column.isUnsigned && !x.column.isAutoincrement && g.supportsUnsigned
        then ["unsigned"] else []
  split <;> rfl

theorem Of.texts_default (h : x.Of g t table) :
    x.texts .default =
      if x.column.asks .default && g.supportsDefault then ["default " ++ x.column.default.written]
      else [] := by
  have htexts := Grammar.textsOf_eq h.definition .default
  rw [Grammar.clauseText?_default h.definition, Schema.default_toColumn] at htexts
  change x.definition.textsOf .default ++ [] = _
  rw [List.append_nil, htexts]
  cases x.column.asks .default <;> cases g.supportsDefault <;> rfl

theorem Of.textsOf_nullability (h : x.Of g t table) :
    x.definition.textsOf .nullability =
      [if x.column.isNullable then "null" else "not null"] := by
  rw [Grammar.textsOf_eq h.definition, Grammar.clauseText?_nullability]
  rfl

/-- A comment stands in the definition exactly if it is asked for and the database has comments
there. -/
theorem Of.textsOf_comment (h : x.Of g t table) :
    (x.definition.textsOf .comment = [] ∧
        (x.column.asks .comment = true → g.supportsInlineComment = false)) ∨
      x.column.asks .comment = true ∧ g.supportsInlineComment = true ∧
        ∃ literal, g.quoteString x.column.comment = .ok literal ∧
          (x.definition.textsOf .comment = ["comment " ++ literal] ∨
            x.definition.textsOf .comment = ["options(description=" ++ literal ++ ")"]) := by
  have htexts := Grammar.textsOf_eq h.definition .comment
  have hcolumn := Schema.comment_toColumn x.column
  by_cases hinline : g.supportsInlineComment
  · obtain ⟨_, _, hclauses⟩ := Grammar.layOutColumn_eq_ok h.definition
    have hmem : .comment ∈ g.clauses := by
      cases g <;> first | decide | exact absurd hinline (by decide)
    have hok := (Grammar.layOutClauses_eq_filterMap hclauses).1 .comment hmem
    generalize g.clauseText? (Schema.toColumn x.column) .comment = text at htexts hok
    unfold Grammar.clause? at hok
    rw [hcolumn] at hok
    cases hasks : x.column.asks .comment with
    | false =>
        rw [hasks] at hok
        have hnone : text = none := by
          cases hstyle : g.commentStyle <;> (rw [hstyle] at hok; cases hok; rfl)
        exact Or.inl ⟨by rw [htexts, hnone]; rfl, by simp⟩
    | true =>
        rw [hasks] at hok
        refine Or.inr ⟨rfl, hinline, ?_⟩
        cases hstyle : g.commentStyle with
        | clause =>
            rw [hstyle] at hok
            obtain ⟨literal, hliteral, rfl⟩ := map_eq_ok.1 hok
            exact ⟨literal, hliteral, Or.inl htexts⟩
        | option =>
            rw [hstyle] at hok
            obtain ⟨literal, hliteral, rfl⟩ := map_eq_ok.1 hok
            exact ⟨literal, hliteral, Or.inr htexts⟩
        | statement | property | dropped => simp [Grammar.supportsInlineComment, hstyle] at hinline
  · refine Or.inl ⟨?_, fun _ => by simpa using hinline⟩
    rw [htexts]
    unfold Grammar.clauseText? Grammar.clause?
    cases hstyle : g.commentStyle with
    | clause | option => simp [Grammar.supportsInlineComment, hstyle] at hinline
    | statement | property | dropped => cases (Schema.toColumn x.column).comment <;> rfl

/-- A comment has a statement exactly if it is asked for and the database attaches comments. -/
theorem Of.statement_cases (h : x.Of g t table) :
    (x.statement = none ∧ (x.column.asks .comment = true → g.attachesComments = false)) ∨
      x.column.asks .comment = true ∧ g.attachesComments = true ∧
        ∃ text, x.statement = some text ∧
          g.Attaches t table x.column.name x.column.comment text := by
  have hstatement := h.statement
  rw [Schema.comment_toColumn] at hstatement
  obtain ⟨column, definition, statement⟩ := x
  by_cases hg : g.attachesComments
  · rw [if_pos hg] at hstatement
    cases hasks : column.asks .comment with
    | false =>
        rw [hasks] at hstatement
        cases hstatement
        exact Or.inl ⟨rfl, by simp⟩
    | true =>
        rw [hasks] at hstatement
        cases hstatement with
        | some hattaches => exact Or.inr ⟨rfl, hg, _, rfl, hattaches⟩
  · rw [if_neg hg] at hstatement
    exact Or.inl ⟨hstatement, fun _ => by simpa using hg⟩

theorem commentStyle_cases (g : Grammar) :
    g.supportsInlineComment = true ∧ g.attachesComments = false ∧ g.commentStyle ≠ .dropped ∨
      g.supportsInlineComment = false ∧ g.attachesComments = true ∧ g.commentStyle ≠ .dropped ∨
      g.supportsInlineComment = false ∧ g.attachesComments = false ∧ g.commentStyle = .dropped := by
  cases g <;> decide

/-- A comment that is asked for is shown, unless the database drops comments. -/
theorem Of.comment (h : x.Of g t table) :
    (x.texts .comment = [] ∧ (x.column.asks .comment = true → g.commentStyle = .dropped)) ∨
      x.column.asks .comment = true ∧ g.commentStyle ≠ .dropped ∧ x.texts .comment ≠ [] ∧
        x.ShowsComment g t table := by
  have htexts : x.texts .comment = x.definition.textsOf .comment ++ x.statement.toList := rfl
  have hdefinition := h.textsOf_comment
  have hstatement := h.statement_cases
  rcases commentStyle_cases g with ⟨hinline, hattach, hkept⟩ | ⟨hinline, hattach, hkept⟩ |
    ⟨hinline, hattach, hdropped⟩
  · simp only [hinline, hattach, Bool.true_eq_false, Bool.false_eq_true, true_and, false_and,
      and_false, or_false, implies_true, and_true, imp_false, Bool.not_eq_true] at hdefinition hstatement
    rcases hdefinition with ⟨habsent, hasks⟩ | ⟨hasks, literal, hliteral, hclause | hoption⟩
    · exact Or.inl ⟨by rw [htexts, habsent, hstatement]; rfl, by simp [hasks]⟩
    · exact Or.inr ⟨hasks, hkept, by simp [htexts, hclause], .clause hliteral hclause hstatement⟩
    · exact Or.inr ⟨hasks, hkept, by simp [htexts, hoption], .option hliteral hoption hstatement⟩
  · simp only [hinline, hattach, Bool.true_eq_false, Bool.false_eq_true, true_and, false_and,
      and_false, or_false, implies_true, and_true, imp_false, Bool.not_eq_true] at hdefinition hstatement
    rcases hstatement with ⟨habsent, hasks⟩ | ⟨hasks, text, htext, hattaches⟩
    · exact Or.inl ⟨by rw [htexts, hdefinition, habsent]; rfl, by simp [hasks]⟩
    · exact Or.inr ⟨hasks, hkept, by simp [htexts, htext],
        .statement htext hattaches hdefinition⟩
  · simp only [hinline, hattach, Bool.false_eq_true, false_and, and_false, or_false, implies_true,
      and_true] at hdefinition hstatement
    exact Or.inl ⟨by rw [htexts, hdefinition, hstatement]; rfl, fun _ => hdropped⟩

theorem Of.sound (h : x.Of g t table) : x.Sound g t table where
  name := (Grammar.layOutColumn_eq_ok h.definition).1
  ordered := Grammar.sublist_clauses h.definition
  nullability := h.textsOf_nullability
  unsigned := by
    rw [h.texts_unsigned]
    cases x.column.asks .unsigned <;> cases g.supportsUnsigned <;> simp
  default := by
    rw [h.texts_default]
    cases x.column.asks .default <;> cases g.supportsDefault <;> simp
  comment := by
    rcases h.comment with ⟨habsent, _⟩ | ⟨hasks, _, _, hshows⟩
    · exact Or.inl habsent
    · exact Or.inr ⟨hasks, hshows⟩

/-! ## Notices about one column -/

theorem Of.numberingNotices_eq (h : x.Of g t table) :
    x.numberingNotices g =
      if x.column.isAutoincrement then
        (g.incrementsFallback?.map (.numberingReplaced g x.column.name)).toList
      else [] := by
  have htype := (Grammar.layOutColumn_eq_ok h.definition).2.1
  unfold numberingNotices
  cases hauto : x.column.isAutoincrement with
  | false => rfl
  | true =>
      unfold Grammar.typeOf at htype
      rw [SchemaColumn.type_toColumn hauto] at htype
      simp only [Value.text.injEq] at htype
      rw [← htype]
      cases g <;> cases t.primaryKey.isEmpty <;> rfl

theorem Of.lossNotices_unsigned (h : x.Of g t table) :
    x.lossNotices g .unsigned =
      if x.column.asks .unsigned && !g.supportsUnsigned then [.unsignedIgnored g x.column.name]
      else [] := by
  unfold lossNotices isLost
  rw [h.texts_unsigned]
  cases x.column.asks .unsigned <;> cases g.supportsUnsigned <;> rfl

theorem Of.lossNotices_default (h : x.Of g t table) :
    x.lossNotices g .default =
      if x.column.asks .default && !g.supportsDefault then [.defaultDropped g x.column.name]
      else [] := by
  unfold lossNotices isLost
  rw [h.texts_default]
  cases x.column.asks .default <;> cases g.supportsDefault <;> rfl

theorem Of.notices_definition (h : x.Of g t table) :
    (g.layOutColumn t (Schema.toColumn x.column)).notices = x.definitionNotices g := by
  have hdefault : (Schema.toColumn x.column).default.isSome = x.column.asks .default := by
    rw [Schema.default_toColumn]
    cases x.column.asks .default <;> rfl
  rw [Grammar.notices_layOutColumn h.definition, Schema.increments_toColumn, hdefault,
    definitionNotices, h.numberingNotices_eq, h.lossNotices_unsigned, h.lossNotices_default]
  rfl

theorem Of.lossNotices_comment (h : x.Of g t table) :
    x.lossNotices g .comment =
      if x.column.asks .comment && g.commentStyle == .dropped then
        [.commentDropped g x.column.name]
      else [] := by
  unfold lossNotices isLost
  rcases h.comment with ⟨habsent, hdropped⟩ | ⟨hasks, hkept, hshown, _⟩
  · cases hasks : x.column.asks .comment with
    | false => rfl
    | true => simp [habsent, hdropped hasks, Attribute.notice]
  · simp [hasks, hkept, hshown]

end Rendering

namespace Grammar

/-! ## Notices about a table -/

theorem notices_trailingStatements {g : Grammar} {t : Table} {comments : List String}
    (h : (g.trailingStatements t).outcome = .ok comments) :
    (g.trailingStatements t).notices =
      if g.commentStyle = .dropped then
        (commented t).map fun p => .commentDropped g p.1.name
      else [] := by
  unfold trailingStatements at h ⊢
  cases hstyle : g.commentStyle with
  | statement | property | clause | option => rfl
  | dropped =>
      rw [hstyle] at h
      obtain ⟨units, hunits, _⟩ := outcome_bind_eq_ok.1 h
      simp only [if_true]
      rw [notices_bind hunits, notices_forEach_note hunits]
      exact List.append_nil _

theorem notices_layOut {g : Grammar} {t : Table} {l : Layout}
    (h : (g.layOut t).outcome = .ok l) :
    (g.layOut t).notices =
      (t.columns.flatMap fun c => (g.layOutColumn t c).notices) ++
        (g.trailingStatements t).notices := by
  obtain ⟨hcolumns, hkey, htable, hcomments⟩ := layOut_eq_ok h
  have hforEach := outcome_forEach_eq_ok.2 hcolumns
  have hsilent : (g.layOutKey? t).notices = [] := by
    unfold layOutKey?
    split <;> rfl
  rw [layOut_eq, notices_bind hforEach, notices_forEach hforEach,
    notices_bind (layOutKey?_eq_ok.2 hkey), hsilent, notices_bind (a := l.table) htable,
    notices_bind hcomments]
  simp [pure, notices_answer, notices_lift]

theorem notices_script {g : Grammar} {t : Table} {l : Layout} (h : (g.layOut t).outcome = .ok l) :
    (g.script t).notices = (g.layOut t).notices := by
  have hcreate : (g.createTable t).outcome = .ok (l.statements g) := by
    rw [createTable_outcome, h]
    rfl
  unfold script
  rw [notices_bind hcreate]
  unfold createTable
  rw [notices_bind h]
  simp only [pure, notices_answer, List.append_nil]

end Grammar

namespace Builder

/-- A script that is mended is mended without a notice. -/
theorem notices_repair {b : Builder} {draft text : String}
    (h : (b.repair draft).outcome = .ok text) : (b.repair draft).notices = [] := by
  unfold repair at h ⊢
  split
  · rename_i config
    obtain ⟨ss, hsplit, hconcat, _⟩ := Sql.removeQualifier_eq_ok h
    unfold Sql.removeQualifier
    rw [hsplit]
    simp only [hconcat, if_true, notices_answer]
  · rfl

/-- Everything that is told about a draft is told while its table is laid out. -/
theorem notices_draft {b : Builder} {s : Schema} {space : Value} {l : Layout}
    (hfault : s.fault? = none) (hspace : s.spaceFor b = .ok space)
    (h : (b.grammar.layOut (s.toTable b space)).outcome = .ok l) :
    (b.draft s).notices = (b.grammar.layOut (s.toTable b space)).notices := by
  unfold draft
  rw [notices_bind (a := ()) (Schema.check_eq_ok.2 hfault), notices_bind (a := space) hspace]
  exact Grammar.notices_script h

end Builder

namespace Rendering

variable {g : Grammar} {t : Table} {table : String}

theorem flatMap_definitionNotices {xs : List Rendering} (h : ∀ x ∈ xs, x.Of g t table) :
    (xs.map fun x => Schema.toColumn x.column).flatMap (fun c => (g.layOutColumn t c).notices) =
      xs.flatMap (·.definitionNotices g) := by
  rw [List.flatMap_map]
  exact List.flatMap_congr fun x hx => (h x hx).notices_definition

theorem flatMap_commentNotices {xs : List Rendering} (h : ∀ x ∈ xs, x.Of g t table)
    (hcolumns : t.columns = xs.map fun x => Schema.toColumn x.column) :
    (if g.commentStyle = .dropped then
        (Grammar.commented t).map fun p => .commentDropped g p.1.name
      else []) = xs.flatMap (·.lossNotices g .comment) := by
  have hloss : xs.flatMap (·.lossNotices g .comment) =
      xs.flatMap fun x => if x.column.asks .comment && g.commentStyle == .dropped then
        [Notice.commentDropped g x.column.name] else [] :=
    List.flatMap_congr fun x hx => (h x hx).lossNotices_comment
  rw [hloss]
  by_cases hg : g.commentStyle = .dropped
  · rw [if_pos hg]
    unfold Grammar.commented
    rw [hcolumns]
    clear h hcolumns hloss
    induction xs with
    | nil => rfl
    | cons x xs ih =>
        rw [List.map_cons, List.filterMap_cons, List.flatMap_cons, ← ih, Schema.comment_toColumn]
        cases x.column.asks .comment with
        | false => rfl
        | true => simp [hg, Schema.toColumn]
  · simp [hg]

/-! ## Where attributes stand -/

/-- What is written for an attribute is a clause of the definition, or the statement. -/
theorem mem_of_mem_texts {x : Rendering} {a : Attribute} {written : String}
    (h : written ∈ x.texts a) :
    written ∈ x.definition.clauses.map (·.2) ∨ x.statement = some written := by
  rcases List.mem_append.1 h with h | h
  · obtain ⟨p, hp, rfl⟩ := List.mem_map.1 h
    exact .inl (List.mem_map_of_mem (List.mem_filter.1 hp).1)
  · split at h
    · exact .inr (Option.mem_toList.1 h)
    · cases h

end Rendering

namespace Layout

variable {l : Layout} {part : String}

theorem infix_script_of_mem_body (g : Grammar) (h : part ∈ l.body) :
    part.toList <:+: (l.script g).toList := by
  have hbody : part.toList <:+: (String.intercalate ", " l.body).toList := by
    rw [String.toList_intercalate]
    exact Sql.infix_intercalate (List.mem_map_of_mem h) _
  have hstatement : (String.intercalate ", " l.body).toList <:+:
      (g.createKeyword ++ " " ++ l.table ++ " (" ++ String.intercalate ", " l.body ++ ")").toList :=
    ⟨_, _, by rw [String.toList_append, String.toList_append]⟩
  refine hbody.trans (hstatement.trans ?_)
  rw [script, String.toList_intercalate]
  exact Sql.infix_intercalate List.mem_cons_self _

theorem infix_script_of_mem_comments (g : Grammar) (h : part ∈ l.comments) :
    part.toList <:+: (l.script g).toList := by
  rw [script, String.toList_intercalate]
  exact Sql.infix_intercalate (List.mem_map_of_mem (List.mem_cons_of_mem _ h)) _

end Layout

namespace Rendering

/-- What is written for an attribute of a column stands in the script of the layout. -/
theorem infix_script_of_mem_texts {l : Layout} (g : Grammar) {xs : List Rendering}
    (hdefinitions : xs.map (·.definition) = l.columns)
    (hstatements : (xs.map (·.statement)).reduceOption = l.comments) {x : Rendering} (hx : x ∈ xs)
    {a : Attribute} {written : String} (h : written ∈ x.texts a) :
    written.toList <:+: (l.script g).toList := by
  rcases mem_of_mem_texts h with hclause | hstatement
  · have hdefinition : x.definition ∈ l.columns := hdefinitions ▸ List.mem_map_of_mem hx
    have hbody : x.definition.text ∈ l.body :=
      List.mem_append_left _ (List.mem_map_of_mem hdefinition)
    refine List.IsInfix.trans ?_ (Layout.infix_script_of_mem_body g hbody)
    rw [ColumnLayout.text, String.toList_intercalate]
    exact Sql.infix_intercalate
      (List.mem_map_of_mem (List.mem_cons_of_mem _ (List.mem_cons_of_mem _ hclause))) _
  · refine Layout.infix_script_of_mem_comments g ?_
    rw [← hstatements, List.reduceOption_mem_iff, ← hstatement]
    exact List.mem_map_of_mem hx

/-! ## The wording -/

theorem names_of_mem_lossNotices {x : Rendering} {a : Attribute} {n : Notice}
    (h : n ∈ x.lossNotices g a) :
    n.level = .warning ∧ ∀ other, ∃ before after,
      n.message other = before ++ x.column.name.written ++ after := by
  unfold lossNotices at h
  split at h
  · rw [List.mem_singleton] at h
    subst h
    cases a with
    | unsigned => exact ⟨rfl, fun _ => ⟨g.name ++ ": ignoring unsigned on column ", "", by
        rw [String.append_empty]; rfl⟩⟩
    | default => exact ⟨rfl, fun _ => ⟨g.name ++ ": dropping default on column ", "", by
        rw [String.append_empty]; rfl⟩⟩
    | comment => exact ⟨rfl, fun _ => ⟨g.name ++ ": dropping comment on column ", "", by
        rw [String.append_empty]; rfl⟩⟩
  · cases h

theorem names_of_mem_numberingNotices {x : Rendering} {n : Notice} (h : n ∈ x.numberingNotices g) :
    n.level = .warning ∧ ∀ other, ∃ before after,
      n.message other = before ++ x.column.name.written ++ after := by
  unfold numberingNotices at h
  split at h
  · rw [List.mem_singleton] at h
    subst h
    refine ⟨rfl, fun _ => ⟨g.name ++ ": no auto-increment type, column ",
      " rendered as " ++ x.definition.type, ?_⟩⟩
    rw [← String.append_assoc]
    rfl
  · cases h

theorem names_of_mem_notices {xs : List Rendering} {n : Notice}
    (h : n ∈ xs.flatMap (·.definitionNotices g) ++ xs.flatMap (·.lossNotices g .comment)) :
    n.level = .warning ∧ ∃ x ∈ xs, ∀ other, ∃ before after,
      n.message other = before ++ x.column.name.written ++ after := by
  rcases List.mem_append.1 h with h | h
  · obtain ⟨x, hx, h⟩ := List.mem_flatMap.1 h
    rcases List.mem_append.1 h with h | h
    · exact ⟨(names_of_mem_numberingNotices h).1, x, hx, (names_of_mem_numberingNotices h).2⟩
    · rcases List.mem_append.1 h with h | h
      · exact ⟨(names_of_mem_lossNotices h).1, x, hx, (names_of_mem_lossNotices h).2⟩
      · exact ⟨(names_of_mem_lossNotices h).1, x, hx, (names_of_mem_lossNotices h).2⟩
  · obtain ⟨x, hx, h⟩ := List.mem_flatMap.1 h
    exact ⟨(names_of_mem_lossNotices h).1, x, hx, (names_of_mem_lossNotices h).2⟩

end Rendering

namespace Builder

/-- A schema that is laid out has a rendering for every column, in order. -/
theorem exists_renderings_of_layOut {b : Builder} {s : Schema} {l : Layout}
    (h : (b.layOut s).outcome = .ok l) :
    ∃ (space : Value) (xs : List Rendering), s.spaceFor b = .ok space ∧
      b.grammar.quoteTable s.name (s.toTable b space).space = .ok l.table ∧
      xs.map (·.column) = s.columns ∧ xs.map (·.definition) = l.columns ∧
      (xs.map (·.statement)).reduceOption = l.comments ∧
      (∀ x ∈ xs, Rendering.Of b.grammar (s.toTable b space) l.table x) ∧
      (b.draft s).notices = xs.flatMap (·.definitionNotices b.grammar) ++
        xs.flatMap (·.lossNotices b.grammar .comment) := by
  obtain ⟨hfault, space, hspace, h⟩ := layOut_eq_ok.1 h
  obtain ⟨hcolumns, _, htable, hcomments⟩ := Grammar.layOut_eq_ok h
  obtain ⟨os, hos, hstatements⟩ := Grammar.exists_statements htable hcomments
  have hschema : (s.toTable b space).columns = s.columns.map Schema.toColumn := rfl
  rw [hschema, List.forall₂_map_left_iff] at hcolumns hstatements
  obtain ⟨xs, hxcolumns, hxdefinitions, hxstatements, hxs⟩ :=
    exists_renderings hcolumns hstatements
  have hof : ∀ x ∈ xs, Rendering.Of b.grammar (s.toTable b space) l.table x :=
    fun x hx => ⟨(hxs x hx).1, (hxs x hx).2⟩
  have htcolumns : (s.toTable b space).columns = xs.map fun x => Schema.toColumn x.column := by
    rw [hschema, ← hxcolumns, List.map_map]
    rfl
  refine ⟨space, xs, hspace, htable, hxcolumns, hxdefinitions, by rw [hxstatements, hos], hof, ?_⟩
  rw [notices_draft hfault hspace h, Grammar.notices_layOut h,
    Grammar.notices_trailingStatements hcomments, htcolumns,
    Rendering.flatMap_definitionNotices hof, Rendering.flatMap_commentNotices hof htcolumns]

end Builder

namespace Generator

/-- Whenever a generator writes a script, there is a rendering for every column of the schema, and
the draft of the script is made of them: the definitions, each with its name, its type and its
clauses, and after them the statements. A rendering has the column's nullability, its clauses in the
grammar's order, and each attribute that is asked for once in its place or not at all; what it has
stands in the draft. Trailing statements belong to all commented columns or to none. The notices are
the warnings about lost attributes and replaced numberings, each naming its column, and no others. -/
theorem attributes_kept_or_told {g : Generator} {s : Schema} {text : String}
    (h : (g.script (some s)).outcome = .ok text) :
    ∃ (b : Builder) (draft table : String) (key : Option KeyLayout) (xs : List Rendering),
      g.builder = some b ∧ (b.draft s).outcome = .ok draft ∧ (b.repair draft).outcome = .ok text ∧
      xs.map (·.column) = s.columns ∧
      draft = String.intercalate ";\n" (("create table " ++ table ++ " (" ++
        String.intercalate ", "
          (xs.map (fun x => String.intercalate " "
              (x.definition.name :: x.definition.type :: x.definition.clauses.map (·.2))) ++
            (key.map KeyLayout.text).toList) ++ ")") :: (xs.map (·.statement)).reduceOption) ∧
      (∃ t : Table, t.name = s.name ∧ t.space = s.usedSpace b ∧
        b.grammar.quoteTable t.name t.space = .ok table ∧
        ∀ x ∈ xs, Rendering.Sound b.grammar t table x) ∧
      (∀ x ∈ xs, ∀ a, ∀ written ∈ x.texts a, written.toList <:+: draft.toList) ∧
      ((∀ x ∈ xs, x.statement = none) ∨
        ∀ x ∈ xs, x.statement.isSome = x.column.asks .comment) ∧
      (g.script (some s)).notices = xs.flatMap (·.definitionNotices b.grammar) ++
        xs.flatMap (·.lossNotices b.grammar .comment) ∧
      ∀ n ∈ (g.script (some s)).notices, n.level = .warning ∧ ∃ c ∈ s.columns, ∀ other,
        ∃ before after, n.message other = before ++ c.name.written ++ after := by
  cases hb : g.builder with
  | none =>
      rw [script_of_builder_none hb] at h
      cases h
  | some b =>
      have hscript : g.script (some s) = (b.draft s >>= b.repair) := by simp only [script, hb]
      rw [hscript] at h ⊢
      obtain ⟨draft, hdraft, hrepair⟩ := outcome_bind_eq_ok.1 h
      obtain ⟨l, hl, rfl⟩ := Builder.draft_eq_ok.1 hdraft
      obtain ⟨space, xs, hspace, htable, hcolumns, hdefinitions, hcomments, hof, hnotices⟩ :=
        Builder.exists_renderings_of_layOut hl
      have htold : (b.draft s >>= b.repair).notices = xs.flatMap (·.definitionNotices b.grammar) ++
          xs.flatMap (·.lossNotices b.grammar .comment) := by
        rw [notices_bind hdraft, Builder.notices_repair hrepair, List.append_nil, hnotices]
      refine ⟨b, _, l.table, l.key, xs, rfl, hdraft, hrepair, hcolumns, ?_,
        ⟨s.toTable b space, rfl, Schema.space_toTable hspace, htable, fun x hx => (hof x hx).sound⟩,
        fun x hx a written h =>
          Rendering.infix_script_of_mem_texts b.grammar hdefinitions hcomments hx h, ?_, htold, ?_⟩
      · rw [hcomments, Layout.script, Layout.statements, Layout.body, ← hdefinitions, List.map_map]
        rfl
      · cases hg : b.grammar.attachesComments with
        | false =>
            refine Or.inl fun x hx => ?_
            have hstatement := (hof x hx).statement
            rwa [hg] at hstatement
        | true =>
            refine Or.inr fun x hx => ?_
            rcases (hof x hx).statement_cases with ⟨hnone, hasks⟩ | ⟨hasks, _, _, hsome, _⟩
            · have hno : x.column.asks .comment = false := by
                by_contra hyes
                rw [hasks (by simpa using hyes)] at hg
                cases hg
              rw [hnone, hno]
              rfl
            · rw [hsome, hasks]
              rfl
      · intro n hn
        rw [htold] at hn
        obtain ⟨hlevel, x, hx, hnames⟩ := Rendering.names_of_mem_notices hn
        exact ⟨hlevel, x.column, hcolumns ▸ List.mem_map_of_mem hx, hnames⟩

/-- One schema for two databases. MySQL writes whatever the columns ask for. Cassandra numbers no
columns and expresses neither signs nor defaults nor comments. -/
theorem attributes_kept_or_told_twice :
    let c : Connection := ⟨.text "ks", [(.text "host", .text "h")]⟩
    let s : Schema := ⟨.text "t", .null,
      [⟨.text "n", .text "autoincrement", false, true, true, .null, .null⟩,
        ⟨.text "a", .text "int", true, true, true, .int 5, .text "it's"⟩]⟩
    let complete : String := "create table \x60t\x60 (\x60n\x60 int unsigned auto_increment unique not null, \x60a\x60 int unsigned null default 5 comment 'it''s', primary key (\x60a\x60))"
    let reduced : String :=
      "create table \"ks\".\"t\" (\"n\" int not null, \"a\" int null, primary key (\"n\", \"a\"))"
    (∃ g, (create .standard (.dialect .mysql) (.kept none)).outcome = .ok g ∧
      (g.script (some s)).outcome = .ok complete ∧
      ∃ xs : List Rendering, xs.map (·.column) = s.columns ∧
        ∀ x ∈ xs, ∀ a, x.column.asks a = true → x.texts a ≠ []) ∧
    ∃ g, (create .standard (.dialect .cassandra) (.kept (some c))).outcome = .ok g ∧
      (g.script (some s)).outcome = .ok reduced ∧
      (g.script (some s)).notices =
        [.numberingReplaced .cassandra (.text "n") "int", .unsignedIgnored .cassandra (.text "a"),
          .defaultDropped .cassandra (.text "a"), .commentDropped .cassandra (.text "a")] ∧
      ∃ xs : List Rendering, xs.map (·.column) = s.columns ∧
        (g.script (some s)).notices = xs.flatMap (·.definitionNotices .cassandra) ++
          xs.flatMap (·.lossNotices .cassandra .comment) := by
  intro c s complete reduced
  refine ⟨?_, ?_⟩
  · let g : Generator := ⟨.mysql, none, some (.generic .mysql .mysql)⟩
    have hscript : (g.script (some s)).outcome = .ok complete :=
      eq_ok_of_toOption (by decide +kernel)
    have hsilent : (g.script (some s)).notices = [] := rfl
    obtain ⟨b, _, _, _, xs, hb, _, _, hcolumns, _, _, _, _, htold, _⟩ :=
      attributes_kept_or_told hscript
    refine ⟨g, rfl, hscript, xs, hcolumns, fun x hx a hasks htexts => ?_⟩
    -- Whatever is lost is told of, and nothing is told.
    have hlost : x.lossNotices b.grammar a = [a.notice b.grammar x.column.name] := by
      simp [Rendering.lossNotices, Rendering.isLost, hasks, htexts]
    rw [hsilent, eq_comm, List.append_eq_nil_iff, List.flatMap_eq_nil_iff,
      List.flatMap_eq_nil_iff] at htold
    have hdefinition := htold.1 x hx
    have hcomment := htold.2 x hx
    cases a <;> simp_all [Rendering.definitionNotices]
  · let g : Generator := ⟨.cassandra, some c,
      some (.specialized (.cassandra ⟨["h"], 9042, .text "ks", .null, .null⟩))⟩
    have hcreate : (create .standard (.dialect .cassandra) (.kept (some c))).outcome = .ok g := by
      simp only [c, g]
      rfl
    have hscript : (g.script (some s)).outcome = .ok reduced :=
      eq_ok_of_toOption (by decide +kernel)
    have htold : (g.script (some s)).notices = _ := rfl
    obtain ⟨b, _, _, _, xs, hb, _, _, hcolumns, _, _, _, _, hnotices, _⟩ :=
      attributes_kept_or_told hscript
    cases hb
    exact ⟨g, hcreate, hscript, htold, xs, hcolumns, hnotices⟩

end Generator

end TableScript
