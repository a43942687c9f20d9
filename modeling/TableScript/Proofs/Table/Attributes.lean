import Mathlib.Data.List.ReduceOption
import TableScript.Proofs.Sql.Qualifier
import TableScript.Proofs.Table.Clauses

/-!
# What becomes of a column's attributes

A schema may ask for an unsigned column, for a default value and for a comment, and a database may
be unable to express any of them. A rendering holds what was written for one column: its definition,
and the statement that attaches its comment. An attribute is lost if it stands nowhere in the
rendering. `attributes_kept_or_told` says that whatever is written is written once and in its place,
and that the notices of a script tell of the lost attributes and of replaced numberings, and of
nothing else.
-/

namespace TableScript

/-- What a schema asks of a column beside its name, its type and its nullability. -/
inductive Attribute where
  | unsigned
  | default
  | comment
deriving DecidableEq

namespace Attribute

def clause : Attribute → Clause
  | unsigned => .unsigned
  | default => .default
  | comment => .comment

/-- The notice of an attribute that is left out. -/
def notice (g : Grammar) (column : Value) : Attribute → Notice
  | unsigned => .unsignedIgnored g column
  | default => .defaultDropped g column
  | comment => .commentDropped g column

end Attribute

/-- Self-numbering columns have a sign of their own and do not ask for one. -/
def SchemaColumn.asks (c : SchemaColumn) : Attribute → Bool
  | .unsigned => c.isUnsigned && !c.isAutoincrement
  | .default => c.default.truthy
  | .comment => c.comment.truthy

/-- What is written for one column of a schema. -/
structure Rendering where
  column : SchemaColumn
  definition : ColumnLayout
  /-- The statement that attaches the column's comment, if there is one. -/
  statement : Option String

namespace Rendering

/-- Every text that is written for an attribute. -/
def texts (x : Rendering) (a : Attribute) : List String :=
  x.definition.textsOf a.clause ++ if a = .comment then x.statement.toList else []

def isLost (x : Rendering) (a : Attribute) : Bool := x.column.asks a && (x.texts a).isEmpty

def lossNotices (g : Grammar) (x : Rendering) (a : Attribute) : List Notice :=
  if x.isLost a then [a.notice g x.column.name] else []

/-- Cassandra and BigQuery number no columns, and the notice gives the type that is used. -/
def numberingNotices (g : Grammar) (x : Rendering) : List Notice :=
  if x.column.isAutoincrement && (g == .cassandra || g == .bigquery) then
    [.numberingReplaced g x.column.name x.definition.type]
  else []

def definitionNotices (g : Grammar) (x : Rendering) : List Notice :=
  x.numberingNotices g ++ (x.lossNotices g .unsigned ++ x.lossNotices g .default)

end Rendering

/-- A statement that attaches a comment to a column. It names the table as its definition does. -/
inductive Grammar.Attaches (g : Grammar) (t : Table) (table : String) (column comment : Value) :
    String → Prop where
  | statement {name literal : String} (hname : g.quoteIdentifier column = .ok name)
      (hliteral : g.quoteString comment = .ok literal) :
      Attaches g t table column comment
        ("comment on column " ++ table ++ "." ++ name ++ " is " ++ literal)
  | property {literal space tableName name : String} (hliteral : g.quoteString comment = .ok literal)
      (hspace : g.quoteString (t.space.getD (.text "dbo")) = .ok space)
      (htable : g.quoteString t.name = .ok tableName) (hname : g.quoteString column = .ok name) :
      Attaches g t table column comment
        ("EXEC sp_addextendedproperty @name = N'MS_Description', @value = " ++ literal ++
          ", @level0type = N'Schema', @level0name = " ++ space ++
          ", @level1type = N'Table', @level1name = " ++ tableName ++
          ", @level2type = N'Column', @level2name = " ++ name)

namespace Rendering

/-- A comment stands in the definition of its column or in a statement of its own, not in both. -/
inductive ShowsComment (g : Grammar) (t : Table) (table : String) (x : Rendering) : Prop where
  | clause {literal : String} (hliteral : g.quoteString x.column.comment = .ok literal)
      (here : x.definition.textsOf .comment = ["comment " ++ literal]) (alone : x.statement = none)
  | option {literal : String} (hliteral : g.quoteString x.column.comment = .ok literal)
      (here : x.definition.textsOf .comment = ["options(description=" ++ literal ++ ")"])
      (alone : x.statement = none)
  | statement {text : String} (own : x.statement = some text)
      (attaches : g.Attaches t table x.column.name x.column.comment text)
      (alone : x.definition.textsOf .comment = [])

/-- A rendering has the name and the nullability of its column, its clauses in the grammar's order,
and every attribute that is asked for once or not at all. -/
structure Sound (g : Grammar) (t : Table) (table : String) (x : Rendering) : Prop where
  name : g.quoteIdentifier x.column.name = .ok x.definition.name
  ordered : (x.definition.clauses.map (·.1)).Sublist g.clauses
  nullability : x.definition.textsOf .nullability =
    [if x.column.isNullable then "null" else "not null"]
  unsigned : x.texts .unsigned = [] ∨
    x.column.asks .unsigned = true ∧ x.texts .unsigned = ["unsigned"]
  default : x.texts .default = [] ∨
    x.column.asks .default = true ∧ x.texts .default = ["default " ++ x.column.default.written]
  comment : x.texts .comment = [] ∨ x.column.asks .comment = true ∧ x.ShowsComment g t table

end Rendering

/-! ## Statements beside their columns -/

/-- The results for the members that are picked from a list, put beside all members. -/
theorem exists_options {α β γ : Type} {R : β → γ → Prop} {f : α → Option β} {l : List α}
    {out : List γ} (h : List.Forall₂ R (l.filterMap f) out) :
    ∃ os : List (Option γ), os.reduceOption = out ∧
      List.Forall₂ (fun a o => Option.Rel R (f a) o) l os := by
  induction l generalizing out with
  | nil =>
      cases h
      exact ⟨[], rfl, .nil⟩
  | cons a l ih =>
      cases hf : f a with
      | none =>
          rw [List.filterMap_cons_none hf] at h
          obtain ⟨os, hos, hrel⟩ := ih h
          exact ⟨none :: os, hos, .cons (by rw [hf]; exact .none) hrel⟩
      | some b =>
          rw [List.filterMap_cons_some hf] at h
          cases h with
          | cons hb hrest =>
              obtain ⟨os, hos, hrel⟩ := ih hrest
              exact ⟨some _ :: os, by rw [List.reduceOption_cons_of_some, hos],
                .cons (by rw [hf]; exact .some hb) hrel⟩

theorem exists_renderings {A : SchemaColumn → ColumnLayout → Prop}
    {B : SchemaColumn → Option String → Prop} {cs : List SchemaColumn} {ks : List ColumnLayout}
    {os : List (Option String)} (hk : List.Forall₂ A cs ks) (ho : List.Forall₂ B cs os) :
    ∃ xs : List Rendering, xs.map (·.column) = cs ∧ xs.map (·.definition) = ks ∧
      xs.map (·.statement) = os ∧ ∀ x ∈ xs, A x.column x.definition ∧ B x.column x.statement := by
  induction hk generalizing os with
  | nil =>
      cases ho
      exact ⟨[], rfl, rfl, rfl, by simp⟩
  | @cons c k cs ks hck _ ih =>
      cases ho with
      | @cons _ o _ os hco hrest =>
          obtain ⟨xs, hcs, hks, hos, hxs⟩ := ih hrest
          exact ⟨⟨c, k, o⟩ :: xs, by simp [hcs], by simp [hks], by simp [hos],
            List.forall_mem_cons.2 ⟨⟨hck, hco⟩, hxs⟩⟩

namespace Grammar

open Logged Outcome

/-- Whether comments are attached by statements of their own. -/
def attachesComments (g : Grammar) : Bool :=
  g.commentStyle == .statement || g.commentStyle == .property

theorem attaches_of_commentStatements {g : Grammar} {t : Table} {table : String}
    {comments : List String} (htable : g.quoteTable t.name t.space = .ok table)
    (h : g.commentStatements t = .ok comments) :
    List.Forall₂ (fun p text => g.Attaches t table p.1.name p.2 text) (commented t) comments := by
  obtain ⟨table', htable', h⟩ := bind_eq_ok.1 h
  rw [htable] at htable'
  cases htable'
  refine (mapM_eq_ok.1 h).imp fun p text hp => ?_
  obtain ⟨name, hname, hp⟩ := bind_eq_ok.1 hp
  obtain ⟨literal, hliteral, hp⟩ := bind_eq_ok.1 hp
  cases hp
  exact .statement hname hliteral

theorem attaches_of_descriptionStatements {g : Grammar} {t : Table} (table : String)
    {comments : List String} (h : g.descriptionStatements t = .ok comments) :
    List.Forall₂ (fun p text => g.Attaches t table p.1.name p.2 text) (commented t) comments := by
  refine (mapM_eq_ok.1 h).imp fun p text hp => ?_
  obtain ⟨literal, hliteral, hp⟩ := bind_eq_ok.1 hp
  obtain ⟨space, hspace, hp⟩ := bind_eq_ok.1 hp
  obtain ⟨tableName, htable, hp⟩ := bind_eq_ok.1 hp
  obtain ⟨name, hname, hp⟩ := bind_eq_ok.1 hp
  cases hp
  exact .property hliteral hspace htable hname

/-- The trailing statements of a table belong to its commented columns, in their order. -/
theorem exists_statements {g : Grammar} {t : Table} {table : String} {comments : List String}
    (htable : g.quoteTable t.name t.space = .ok table)
    (h : (g.trailingStatements t).outcome = .ok comments) :
    ∃ os : List (Option String), os.reduceOption = comments ∧
      List.Forall₂ (fun c o =>
        if g.attachesComments then Option.Rel (g.Attaches t table c.name) c.comment o
        else o = none) t.columns os := by
  by_cases hg : g.attachesComments
  · have hall : List.Forall₂ (fun p text => g.Attaches t table p.1.name p.2 text) (commented t)
        comments := by
      unfold trailingStatements at h
      cases hstyle : g.commentStyle with
      | statement =>
          rw [hstyle] at h
          exact attaches_of_commentStatements htable h
      | property =>
          rw [hstyle] at h
          exact attaches_of_descriptionStatements table h
      | clause | option | dropped => simp [attachesComments, hstyle] at hg
    obtain ⟨os, hos, hrel⟩ := exists_options hall
    refine ⟨os, hos, hrel.imp fun c o ho => ?_⟩
    rw [if_pos hg]
    cases hc : c.comment with
    | none =>
        rw [hc] at ho
        cases ho
        exact .none
    | some v =>
        rw [hc] at ho
        cases ho with
        | some ho => exact .some ho
  · refine ⟨t.columns.map fun _ => none, ?_, ?_⟩
    · unfold trailingStatements at h
      have hnil : comments = [] := by
        cases hstyle : g.commentStyle with
        | statement | property => simp [attachesComments, hstyle] at hg
        | dropped =>
            rw [hstyle] at h
            obtain ⟨_, _, h⟩ := outcome_bind_eq_ok.1 h
            cases h
            rfl
        | clause | option =>
            rw [hstyle] at h
            cases h
            rfl
      rw [hnil]
      exact List.reduceOption_eq_nil_iff _ |>.2 ⟨t.columns.length, List.map_const' ..⟩
    · rw [List.forall₂_map_right_iff]
      exact List.forall₂_same.2 fun c _ => by rw [if_neg hg]

end Grammar

end TableScript
