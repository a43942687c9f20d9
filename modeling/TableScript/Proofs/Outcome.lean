import Mathlib.Data.List.Forall2
import TableScript.Logged
import TableScript.Proofs.Writable

/-!
# Taking outcomes apart

A computation in steps answers when all its steps do, and fails when the first failing step does.
The lemmas here undo one step at a time, for outcomes alone and for outcomes with notices. A list of
computations answers exactly when its members do, place by place. A notice is given exactly when
what it tells of can be written.
-/

namespace TableScript

namespace Outcome

variable {α β : Type}

theorem bind_eq_ok {x : Except Failure α} {f : α → Except Failure β} {b : β} :
    (x >>= f) = .ok b ↔ ∃ a, x = .ok a ∧ f a = .ok b := by
  cases x with
  | error e => simp [bind, Except.bind]
  | ok a => simp [bind, Except.bind]

/-- Steps answer if each of them does. -/
theorem exists_bind {x : Except Failure α} {f : α → Except Failure β} {a : α} (hx : x = .ok a)
    (hf : ∃ b, f a = .ok b) : ∃ b, (x >>= f) = .ok b := by
  obtain ⟨b, hb⟩ := hf
  exact ⟨b, bind_eq_ok.2 ⟨a, hx, hb⟩⟩

theorem bind_eq_error {x : Except Failure α} {f : α → Except Failure β} {e : Failure} :
    (x >>= f) = .error e ↔ x = .error e ∨ ∃ a, x = .ok a ∧ f a = .error e := by
  cases x with
  | error e' => simp [bind, Except.bind]
  | ok a => simp [bind, Except.bind]

theorem map_eq_ok {x : Except Failure α} {f : α → β} {b : β} :
    x.map f = .ok b ↔ ∃ a, x = .ok a ∧ f a = b := by
  cases x <;> simp [Except.map]

theorem map_eq_error {x : Except Failure α} {f : α → β} {e : Failure} :
    x.map f = .error e ↔ x = .error e := by
  cases x <;> simp [Except.map]

/-- A list of checks passes exactly when every check does, and answers place by place. -/
theorem mapM_eq_ok {f : α → Except Failure β} {l : List α} {bs : List β} :
    l.mapM f = .ok bs ↔ List.Forall₂ (fun a b => f a = .ok b) l bs := by
  induction l generalizing bs with
  | nil =>
      rw [List.forall₂_nil_left_iff, List.mapM_nil]
      simp [pure, Except.pure, eq_comm]
  | cons a l ih =>
      rw [List.mapM_cons, bind_eq_ok]
      constructor
      · rintro ⟨b, hb, h⟩
        obtain ⟨rest, hrest, h⟩ := bind_eq_ok.1 h
        cases h
        exact .cons hb (ih.1 hrest)
      · intro h
        cases h with
        | cons hb hrest => exact ⟨_, hb, bind_eq_ok.2 ⟨_, ih.2 hrest, rfl⟩⟩

theorem exists_forall₂ {R : α → β → Prop} {l : List α} (h : ∀ a ∈ l, ∃ b, R a b) :
    ∃ bs, List.Forall₂ R l bs := by
  induction l with
  | nil => exact ⟨[], .nil⟩
  | cons a l ih =>
      obtain ⟨⟨b, hb⟩, hrest⟩ := List.forall_mem_cons.1 h
      obtain ⟨bs, hbs⟩ := ih hrest
      exact ⟨b :: bs, .cons hb hbs⟩

theorem exists_mapM {f : α → Except Failure β} {l : List α} (h : ∀ a ∈ l, ∃ b, f a = .ok b) :
    ∃ bs, l.mapM f = .ok bs := by
  obtain ⟨bs, hbs⟩ := exists_forall₂ h
  exact ⟨bs, mapM_eq_ok.2 hbs⟩

/-- What is done to every answer of a list of checks may be done afterwards. -/
theorem mapM_map {γ : Type} (f : α → Except Failure β) (h : β → γ) (l : List α) :
    l.mapM (fun a => (f a).map h) = (l.mapM f).map (List.map h) := by
  induction l with
  | nil => rfl
  | cons a l ih =>
      rw [List.mapM_cons, List.mapM_cons, ih]
      cases f a with
      | error e => rfl
      | ok b => cases l.mapM f <;> rfl

theorem eq_ok_of_toOption {x : Except Failure α} {a : α} (h : x.toOption = some a) :
    x = .ok a := by
  cases x with
  | error e => cases h
  | ok b =>
      cases h
      rfl

end Outcome

namespace Logged

variable {α β : Type}

@[simp] theorem outcome_lift (x : Except Failure α) : (lift x).outcome = x := rfl

@[simp] theorem outcome_answer (a : α) : (answer a).outcome = .ok a := rfl

@[simp] theorem outcome_fail (e : Failure) : (fail e : Logged α).outcome = .error e := rfl

theorem outcome_note (n : Notice) : (note n).outcome = requireWritable n.told := by
  unfold note
  cases requireWritable n.told <;> rfl

theorem outcome_note_eq_ok {n : Notice} {u : Unit} :
    (note n).outcome = .ok u ↔ ∀ v ∈ n.told, v.isWritable = true := by
  rw [outcome_note, requireWritable_eq_ok]

theorem outcome_bind (x : Logged α) (f : α → Logged β) :
    (x >>= f).outcome = (x.outcome >>= fun a => (f a).outcome) := by
  change (andThen x f).outcome = _
  unfold andThen
  cases x.outcome <;> rfl

theorem outcome_bind_eq_ok {x : Logged α} {f : α → Logged β} {b : β} :
    (x >>= f).outcome = .ok b ↔ ∃ a, x.outcome = .ok a ∧ (f a).outcome = .ok b := by
  rw [outcome_bind, Outcome.bind_eq_ok]

theorem exists_outcome_bind {x : Logged α} {f : α → Logged β} {a : α} (hx : x.outcome = .ok a)
    (hf : ∃ b, (f a).outcome = .ok b) : ∃ b, (x >>= f).outcome = .ok b := by
  rw [outcome_bind]
  exact Outcome.exists_bind hx hf

theorem outcome_forEach_eq_ok {f : α → Logged β} {l : List α} {bs : List β} :
    (forEach f l).outcome = .ok bs ↔ List.Forall₂ (fun a b => (f a).outcome = .ok b) l bs := by
  induction l generalizing bs with
  | nil =>
      rw [List.forall₂_nil_left_iff, forEach, outcome_answer]
      simp [eq_comm]
  | cons a l ih =>
      change (f a >>= fun b => forEach f l >>= fun bs => answer (b :: bs)).outcome = _ ↔ _
      rw [outcome_bind_eq_ok]
      constructor
      · rintro ⟨b, hb, h⟩
        obtain ⟨rest, hrest, h⟩ := outcome_bind_eq_ok.1 h
        cases h
        exact .cons hb (ih.1 hrest)
      · intro h
        cases h with
        | cons hb hrest => exact ⟨_, hb, outcome_bind_eq_ok.2 ⟨_, ih.2 hrest, rfl⟩⟩

theorem exists_forEach {f : α → Logged β} {l : List α} (h : ∀ a ∈ l, ∃ b, (f a).outcome = .ok b) :
    ∃ bs, (forEach f l).outcome = .ok bs := by
  obtain ⟨bs, hbs⟩ := Outcome.exists_forall₂ h
  exact ⟨bs, outcome_forEach_eq_ok.2 hbs⟩

/-! ## Notices -/

@[simp] theorem notices_lift (x : Except Failure α) : (lift x).notices = [] := rfl

@[simp] theorem notices_answer (a : α) : (answer a).notices = [] := rfl

theorem notices_note {n : Notice} {u : Unit} (h : (note n).outcome = .ok u) :
    (note n).notices = [n] := by
  rw [outcome_note] at h
  unfold note
  rw [h]

/-- A step that answers is told of before the next one. -/
theorem notices_bind {x : Logged α} {a : α} (h : x.outcome = .ok a) (f : α → Logged β) :
    (x >>= f).notices = x.notices ++ (f a).notices := by
  change (andThen x f).notices = _
  simp only [andThen, h]

theorem notices_forEach {f : α → Logged β} {l : List α} {bs : List β}
    (h : (forEach f l).outcome = .ok bs) :
    (forEach f l).notices = l.flatMap fun a => (f a).notices := by
  induction l generalizing bs with
  | nil => rfl
  | cons a l ih =>
      change (f a >>= fun b => forEach f l >>= fun bs => answer (b :: bs)).outcome = _ at h
      obtain ⟨b, hb, h⟩ := outcome_bind_eq_ok.1 h
      obtain ⟨rest, hrest, _⟩ := outcome_bind_eq_ok.1 h
      change (f a >>= fun b => forEach f l >>= fun bs => answer (b :: bs)).notices = _
      rw [notices_bind hb, notices_bind hrest, ih hrest, notices_answer, List.append_nil,
        List.flatMap_cons]

theorem notices_forEach_note {f : α → Notice} {l : List α} {us : List Unit}
    (h : (forEach (fun a => note (f a)) l).outcome = .ok us) :
    (forEach (fun a => note (f a)) l).notices = l.map f := by
  have hgiven := outcome_forEach_eq_ok.1 h
  rw [notices_forEach h]
  clear h
  induction hgiven with
  | nil => rfl
  | cons ha _ ih => rw [List.flatMap_cons, ih, notices_note ha, List.map_cons, List.singleton_append]

end Logged

end TableScript
