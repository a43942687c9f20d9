import TableScript.Generator.Script

/-!
# What a schema lacks

A schema is complete if it names its table and has columns, each of them with a name and a type.
Only a complete schema is without fault. The columns of a schema that falls short are listed with
what each of them lacks: `problemsFrom_eq` gives that list by its members and its order.
-/

namespace TableScript

/-- What every column needs. -/
inductive Need where
  | name
  | type

def SchemaColumn.lacks (c : SchemaColumn) : Need → Bool
  | .name => !c.name.truthy
  | .type => !c.type.truthy

/-- A column at its place in a schema, and a need that it does not meet. -/
structure Lack where
  index : Nat
  column : SchemaColumn
  need : Need

namespace Lack

/-- How a lack is told when the first column has the given position. A column without a name is
called by its position. -/
def problem (position : Nat) (x : Lack) : ColumnProblem :=
  match x.need with
  | .name => .unnamed (position + x.index)
  | .type => .untyped (if x.column.name.truthy then x.column.name else .int ↑(position + x.index))

/-- By column, and the name of a column before its type. -/
def Before (x y : Lack) : Prop :=
  x.index < y.index ∨ x.index = y.index ∧ x.need = .name ∧ y.need = .type

/-- The same lack in a schema with one more column in front. -/
def later (x : Lack) : Lack := { x with index := x.index + 1 }

theorem problem_later (position : Nat) (x : Lack) :
    x.later.problem position = x.problem (position + 1) := by
  have hplace : position + (x.index + 1) = position + 1 + x.index := by omega
  simp only [problem, later, hplace]

theorem Before.later {x y : Lack} (h : x.Before y) : x.later.Before y.later := by
  simpa only [Before, Lack.later, Nat.add_lt_add_iff_right, Nat.add_right_cancel_iff] using h

end Lack

namespace Schema

/-! ## The columns -/

/-- The lacks of the first column. -/
def ownLacks (c : SchemaColumn) : List Lack :=
  ([.name, .type].filter c.lacks).map fun need => ⟨0, c, need⟩

def lacksOf : List SchemaColumn → List Lack
  | [] => []
  | c :: rest => ownLacks c ++ (lacksOf rest).map Lack.later

theorem mem_ownLacks {c : SchemaColumn} {x : Lack} :
    x ∈ ownLacks c ↔ x.index = 0 ∧ x.column = c ∧ c.lacks x.need = true := by
  obtain ⟨index, column, need⟩ := x
  unfold ownLacks
  rw [List.mem_map]
  constructor
  · rintro ⟨need', hneed, h⟩
    cases h
    exact ⟨rfl, rfl, (List.mem_filter.1 hneed).2⟩
  · rintro ⟨hindex, hcolumn, hneed⟩
    cases hindex
    cases hcolumn
    refine ⟨need, List.mem_filter.2 ⟨?_, hneed⟩, rfl⟩
    cases need <;> simp

/-- Every lack is listed, and nothing else is. -/
theorem mem_lacksOf {cs : List SchemaColumn} {x : Lack} :
    x ∈ lacksOf cs ↔ cs[x.index]? = some x.column ∧ x.column.lacks x.need = true := by
  induction cs generalizing x with
  | nil => simp [lacksOf]
  | cons c rest ih =>
      obtain ⟨index, column, need⟩ := x
      rw [lacksOf, List.mem_append, mem_ownLacks, List.mem_map]
      cases index with
      | zero =>
          rw [List.getElem?_cons_zero, Option.some.injEq]
          constructor
          · rintro (⟨_, rfl, hneed⟩ | ⟨y, _, h⟩)
            · exact ⟨rfl, hneed⟩
            · cases h
          · rintro ⟨rfl, hneed⟩
            exact Or.inl ⟨rfl, rfl, hneed⟩
      | succ index =>
          rw [List.getElem?_cons_succ]
          constructor
          · rintro (⟨h, _⟩ | ⟨y, hy, h⟩)
            · cases h
            · cases h
              exact ih.1 hy
          · intro h
            exact Or.inr ⟨⟨index, column, need⟩, ih.2 h, rfl⟩

theorem pairwise_ownLacks (c : SchemaColumn) : (ownLacks c).Pairwise Lack.Before := by
  unfold ownLacks
  cases hname : c.lacks .name <;> cases htype : c.lacks .type <;>
    simp [hname, htype, Lack.Before]

theorem pairwise_lacksOf (cs : List SchemaColumn) : (lacksOf cs).Pairwise Lack.Before := by
  induction cs with
  | nil => exact .nil
  | cons c rest ih =>
      rw [lacksOf, List.pairwise_append, List.pairwise_map]
      refine ⟨pairwise_ownLacks c, ih.imp Lack.Before.later, fun x hx y hy => Or.inl ?_⟩
      obtain ⟨z, _, rfl⟩ := List.mem_map.1 hy
      rw [(mem_ownLacks.1 hx).1]
      exact Nat.succ_pos z.index

theorem columnProblems_eq (position : Nat) (c : SchemaColumn) :
    columnProblems position c = (ownLacks c).map (Lack.problem position) := by
  unfold columnProblems ownLacks
  cases hname : c.name.truthy <;> cases htype : c.type.truthy <;>
    simp [SchemaColumn.lacks, hname, htype, Lack.problem]

theorem problemsFrom_eq_map (position : Nat) (cs : List SchemaColumn) :
    problemsFrom position cs = (lacksOf cs).map (Lack.problem position) := by
  induction cs generalizing position with
  | nil => rfl
  | cons c rest ih =>
      rw [problemsFrom, columnProblems_eq, ih, lacksOf, List.map_append, List.map_map]
      congr 2
      funext x
      exact (Lack.problem_later position x).symm

/-- The problems of columns tell of each lack once, in order. -/
theorem problemsFrom_eq (position : Nat) (cs : List SchemaColumn) :
    ∃ lacks : List Lack, lacks.Pairwise Lack.Before ∧
      (∀ x, x ∈ lacks ↔ cs[x.index]? = some x.column ∧ x.column.lacks x.need = true) ∧
      problemsFrom position cs = lacks.map (Lack.problem position) :=
  ⟨lacksOf cs, pairwise_lacksOf cs, fun _ => mem_lacksOf, problemsFrom_eq_map position cs⟩

/-! ## The schema -/

/-- A schema that names its table and has columns, each with a name and a type. -/
structure Complete (s : Schema) : Prop where
  name : s.name.truthy = true
  columns : s.columns ≠ []
  named : ∀ c ∈ s.columns, c.name.truthy = true
  typed : ∀ c ∈ s.columns, c.type.truthy = true

theorem problemsFrom_eq_nil {position : Nat} {cs : List SchemaColumn} :
    problemsFrom position cs = [] ↔
      ∀ c ∈ cs, c.name.truthy = true ∧ c.type.truthy = true := by
  induction cs generalizing position with
  | nil => simp [problemsFrom]
  | cons c rest ih =>
      rw [problemsFrom, List.append_eq_nil_iff, ih, List.forall_mem_cons, columnProblems]
      cases c.name.truthy <;> cases c.type.truthy <;> simp

/-- A complete schema is without fault, and no other one is. -/
theorem fault?_eq_none_iff {s : Schema} : s.fault? = none ↔ s.Complete := by
  have hproblems := @problemsFrom_eq_nil 1 s.columns
  unfold fault?
  constructor
  · intro h
    split at h
    · cases h
    · rename_i hname
      split at h
      · cases h
      · rename_i hcolumns
        split at h
        · rename_i hnil
          have hmet := hproblems.1 hnil
          exact ⟨by simpa using hname, by simpa using hcolumns, fun c hc => (hmet c hc).1,
            fun c hc => (hmet c hc).2⟩
        · cases h
  · intro h
    have hnil := hproblems.2 fun c hc => ⟨h.named c hc, h.typed c hc⟩
    simp [h.name, h.columns, hnil]

theorem fault?_cases {s : Schema} {fault : RenderFault} (h : s.fault? = some fault) :
    fault = .unnamedTable ∨ fault = .noColumns s.name ∨
      fault = .badColumns s.name (problemsFrom 1 s.columns) := by
  unfold fault? at h
  split at h
  · exact Or.inl (Option.some.inj h).symm
  · split at h
    · exact Or.inr (Or.inl (Option.some.inj h).symm)
    · split at h
      · cases h
      · exact Or.inr (Or.inr (Option.some.inj h).symm)

/-- A schema with a name and columns is at fault for its columns only. -/
theorem fault?_of_columns {s : Schema} (hname : s.name.truthy = true) (hcolumns : s.columns ≠ [])
    (h : ¬ s.Complete) : s.fault? = some (.badColumns s.name (problemsFrom 1 s.columns)) := by
  rw [← fault?_eq_none_iff] at h
  unfold fault? at h ⊢
  simp only [hname, hcolumns, List.isEmpty_iff, Bool.not_true, Bool.false_eq_true, if_false] at h ⊢
  split
  · rename_i hnil
    rw [hnil] at h
    exact absurd rfl h
  · rfl

end Schema

end TableScript
