import Mathlib.Algebra.Group.Nat.Defs
import TableScript.Failure

/-!
# Values that can be written

A value is written with everything that occurs in it, so it can be written exactly if no integer in
it is too long: `Value.isWritable_iff`. A list of values passes `requireWritable` if each of them
can be written.
-/

namespace TableScript

open Decimal (digitLimit)

namespace Value

/-- A value that is another one or stands somewhere in it. -/
inductive Occurs (v : Value) : Value → Prop where
  | here : Occurs v v
  | item {items : List Value} {w : Value} (hw : w ∈ items) (h : Occurs v w) : Occurs v (.list items)
  | key {entries : Entries} {e : Value × Value} (he : e ∈ entries) (h : Occurs v e.1) :
      Occurs v (.mapping entries)
  | entry {entries : Entries} {e : Value × Value} (he : e ∈ entries) (h : Occurs v e.2) :
      Occurs v (.mapping entries)
  | member {members : List Value} {w : Value} (hw : w ∈ members) (h : Occurs v w) :
      Occurs v (.set members)
  | first {a b : Value} (h : Occurs v a) : Occurs v (.pair a b)
  | second {a b : Value} (h : Occurs v b) : Occurs v (.pair a b)
  | body {label : Nat} {w : Value} (h : Occurs v w) : Occurs v (.knot label w)

/-! ## What a value holds -/

theorem isWritable_int_iff {n : Int} :
    (int n).isWritable = true ↔ n.natAbs < 10 ^ digitLimit := by
  rw [isWritable_int, decide_eq_true_eq]
  exact Nat.length_toDigits_le_iff (by decide) (by decide)

theorem areWritable_iff {vs : List Value} :
    areWritable vs = true ↔ ∀ v ∈ vs, v.isWritable = true := by
  induction vs with
  | nil => simp [areWritable]
  | cons v vs ih => simp [areWritable, ih]

theorem entriesWritable_iff {entries : Entries} :
    entriesWritable entries = true ↔
      ∀ e ∈ entries, e.1.isWritable = true ∧ e.2.isWritable = true := by
  induction entries with
  | nil => simp [entriesWritable]
  | cons e entries ih => simp [entriesWritable, ih]

/-- What stands in a value that can be written can be written itself. -/
theorem Occurs.isWritable {v w : Value} (h : v.Occurs w) (hw : w.isWritable = true) :
    v.isWritable = true := by
  induction h with
  | here => exact hw
  | item hmem _ ih | member hmem _ ih => exact ih (areWritable_iff.1 hw _ hmem)
  | key he _ ih => exact ih (entriesWritable_iff.1 hw _ he).1
  | entry he _ ih => exact ih (entriesWritable_iff.1 hw _ he).2
  | first _ ih => exact ih (Bool.and_eq_true_iff.1 hw).1
  | second _ ih => exact ih (Bool.and_eq_true_iff.1 hw).2
  | body _ ih => exact ih hw

mutual

theorem isWritable_of_short : ∀ v : Value,
    (∀ n, (int n).Occurs v → n.natAbs < 10 ^ digitLimit) → v.isWritable = true
  | int n, h => isWritable_int_iff.2 (h n .here)
  | list items, h => areWritable_of_short items fun _ hw n hn => h n (.item hw hn)
  | set members, h => areWritable_of_short members fun _ hw n hn => h n (.member hw hn)
  | mapping entries, h =>
    entriesWritable_of_short entries (fun _ he n hn => h n (.key he hn))
      fun _ he n hn => h n (.entry he hn)
  | pair first second, h =>
    Bool.and_eq_true_iff.2 ⟨isWritable_of_short first fun n hn => h n (.first hn),
      isWritable_of_short second fun n hn => h n (.second hn)⟩
  | knot _ body, h => isWritable_of_short body fun n hn => h n (.body hn)
  | null, _ | bool _, _ | float _, _ | text _, _ | date .., _ | moment _, _ | bytes _, _
  | dialect _, _ | again .., _ => rfl

theorem areWritable_of_short : ∀ vs : List Value,
    (∀ w ∈ vs, ∀ n, (int n).Occurs w → n.natAbs < 10 ^ digitLimit) → areWritable vs = true
  | [], _ => rfl
  | v :: rest, h =>
    Bool.and_eq_true_iff.2 ⟨isWritable_of_short v (h v List.mem_cons_self),
      areWritable_of_short rest fun w hw => h w (List.mem_cons_of_mem v hw)⟩

theorem entriesWritable_of_short : ∀ entries : List (Value × Value),
    (∀ e ∈ entries, ∀ n, (int n).Occurs e.1 → n.natAbs < 10 ^ digitLimit) →
    (∀ e ∈ entries, ∀ n, (int n).Occurs e.2 → n.natAbs < 10 ^ digitLimit) →
    entriesWritable entries = true
  | [], _, _ => rfl
  | (k, v) :: rest, hkeys, hvalues =>
    Bool.and_eq_true_iff.2
      ⟨Bool.and_eq_true_iff.2 ⟨isWritable_of_short k (hkeys (k, v) List.mem_cons_self),
        isWritable_of_short v (hvalues (k, v) List.mem_cons_self)⟩,
      entriesWritable_of_short rest (fun e he => hkeys e (List.mem_cons_of_mem _ he))
        fun e he => hvalues e (List.mem_cons_of_mem _ he)⟩

end

/-- A value can be written exactly if every integer in it has at most as many digits as are read. -/
theorem isWritable_iff {v : Value} :
    v.isWritable = true ↔ ∀ n, (int n).Occurs v → n.natAbs < 10 ^ digitLimit :=
  ⟨fun hv _ hn => isWritable_int_iff.1 (hn.isWritable hv), isWritable_of_short v⟩

theorem isWritable_eq_false_iff {v : Value} :
    v.isWritable = false ↔ ∃ n, (int n).Occurs v ∧ 10 ^ digitLimit ≤ n.natAbs := by
  rw [← Bool.not_eq_true, isWritable_iff]
  simp only [Classical.not_forall, Nat.not_lt, exists_prop]

theorem isWritable_tenTo_digitLimit : (int (10 ^ digitLimit : Nat)).isWritable = false :=
  isWritable_eq_false_iff.2 ⟨_, .here, Int.natAbs_natCast _ ▸ Nat.le_refl _⟩

end Value

/-! ## Several values -/

theorem requireWritable_eq_ok {vs : List Value} {u : Unit} :
    requireWritable vs = .ok u ↔ ∀ v ∈ vs, v.isWritable = true := by
  unfold requireWritable
  split <;> simp_all

theorem requireWritable_eq_error {vs : List Value} {e : Failure} :
    requireWritable vs = .error e ↔
      (∃ v ∈ vs, v.isWritable = false) ∧ e = .impossibleValue := by
  unfold requireWritable
  split
  · simp_all
  · rename_i hv
    have hv : ∃ v ∈ vs, v.isWritable = false := by simpa using hv
    constructor
    · intro h
      cases h
      exact ⟨hv, rfl⟩
    · rintro ⟨-, rfl⟩
      rfl

end TableScript
