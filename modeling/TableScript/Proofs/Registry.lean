import Mathlib.Data.List.Induction
import Mathlib.Data.List.Nodup
import TableScript.Builder
import TableScript.Proofs.Outcome

/-!
# A registry and its history

Grammars are registered and removed in any order, and some of the registrations are refused.
Whatever has happened, a registry holds generic databases only, each of them once, and the grammar
of a database is the one that was registered last. So the three ways of asking for a database,
whether it is supported, for its grammar and for its builder, agree on every value.
-/

namespace TableScript

open Outcome

namespace Registry

variable {γ δ : Type}

/-- The same databases with other grammars. -/
def map (r : Registry γ) (f : γ → δ) : Registry δ := ⟨r.entries.map fun e => (e.1, f e.2)⟩

theorem dialects_map (r : Registry γ) (f : γ → δ) : (r.map f).dialects = r.dialects := by
  simp [map, dialects]

/-! ## Single entries -/

theorem lookup_cons (d d' : Dialect) (g : γ) (es : List (Dialect × γ)) :
    List.lookup d ((d', g) :: es) = if d = d' then some g else es.lookup d := by
  by_cases h : d = d'
  · simp [h]
  · rw [List.lookup_cons, beq_false_of_ne h, if_neg h]

theorem isSome_lookup {es : List (Dialect × γ)} {d : Dialect} :
    (es.lookup d).isSome ↔ d ∈ es.map (·.1) := by
  induction es with
  | nil => simp
  | cons e es ih =>
      obtain ⟨d', g⟩ := e
      rw [lookup_cons, List.map_cons, List.mem_cons, ← ih]
      by_cases h : d = d' <;> simp [h]

theorem lookup_putEntry (d d' : Dialect) (g : γ) (es : List (Dialect × γ)) :
    (putEntry d g es).lookup d' = if d' = d then some g else es.lookup d' := by
  induction es with
  | nil => exact lookup_cons ..
  | cons e es ih =>
      obtain ⟨d₁, g₁⟩ := e
      unfold putEntry
      by_cases h₁ : d₁ = d
      · subst h₁
        rw [if_pos rfl, lookup_cons, lookup_cons]
        split <;> rfl
      · rw [if_neg h₁, lookup_cons, lookup_cons, ih]
        by_cases h : d' = d₁
        · rw [if_pos h, if_pos h, if_neg (h ▸ h₁)]
        · rw [if_neg h, if_neg h]

theorem lookup_filter_ne (d d' : Dialect) (es : List (Dialect × γ)) :
    (es.filter (·.1 != d)).lookup d' = if d' = d then none else es.lookup d' := by
  induction es with
  | nil => simp
  | cons e es ih =>
      obtain ⟨d₁, g₁⟩ := e
      rw [List.filter_cons, lookup_cons]
      by_cases h₁ : d₁ = d
      · rw [if_neg (by simp [h₁]), ih, h₁]
        split <;> rfl
      · rw [if_pos (by simp [h₁]), lookup_cons, ih]
        by_cases h : d' = d₁
        · rw [if_pos h, if_pos h, if_neg (h ▸ h₁)]
        · rw [if_neg h, if_neg h]

/-- A grammar has been put into a list: in the place of the database's former grammar or, if there
was none, at the end. -/
inductive Placed (d : Dialect) (g : γ) : List (Dialect × γ) → List (Dialect × γ) → Prop where
  | replaced (before : List (Dialect × γ)) (former : γ) (after : List (Dialect × γ)) :
      Placed d g (before ++ (d, former) :: after) (before ++ (d, g) :: after)
  | appended {es : List (Dialect × γ)} (h : d ∉ es.map (·.1)) : Placed d g es (es ++ [(d, g)])

theorem placed_putEntry (d : Dialect) (g : γ) (es : List (Dialect × γ)) :
    Placed d g es (putEntry d g es) := by
  induction es with
  | nil => exact .appended (List.not_mem_nil)
  | cons e es ih =>
      obtain ⟨d₁, g₁⟩ := e
      unfold putEntry
      by_cases h : d₁ = d
      · subst h
        rw [if_pos rfl]
        exact .replaced [] g₁ es
      · rw [if_neg h]
        generalize putEntry d g es = es' at ih ⊢
        cases ih with
        | replaced before former after => exact .replaced ((d₁, g₁) :: before) former after
        | appended hd => exact .appended (by simpa [Ne.symm h] using hd)

theorem Placed.dialects {r r' : Registry γ} {d : Dialect} {g : γ}
    (h : Placed d g r.entries r'.entries) :
    r'.dialects = if d ∈ r.dialects then r.dialects else r.dialects ++ [d] := by
  unfold Registry.dialects
  generalize r.entries = es, r'.entries = es' at h ⊢
  cases h with
  | replaced before former after => simp
  | appended hd => rw [if_neg hd, List.map_append, List.map_singleton]

/-! ## Single changes -/

theorem register_eq_ok {r r' : Registry γ} {dialect : Value} {g : γ} :
    r.register dialect g = .ok r' ↔
      ∃ d, Dialect.ofValue dialect = .ok d ∧ d.isGeneric = true ∧
        r' = ⟨putEntry d g r.entries⟩ := by
  unfold register
  rw [bind_eq_ok]
  refine exists_congr fun d => and_congr_right fun _ => ?_
  by_cases hd : d.isGeneric = true
  · simp [hd, pure, Except.pure, eq_comm]
  · simp [hd]

/-- What may be done to a registry. -/
inductive Change (γ : Type) where
  | register (dialect : Value) (grammar : γ)
  | remove (dialect : Dialect)

namespace Change

/-- The registry after a change, and what the change answered. -/
def apply (r : Registry γ) : Change γ → Registry γ × Except Failure Unit
  | register dialect g =>
    match r.register dialect g with
    | .ok r' => (r', .ok ())
    | .error e => (r, .error e)
  | remove d => (r.unregister d, .ok ())

/-- What a change makes of the grammar of a database, if it is a change of that database. -/
def effect? (d : Dialect) : Change γ → Option (Option γ)
  | register dialect g =>
    match Dialect.ofValue dialect with
    | .ok d' => if d' = d ∧ d'.isGeneric = true then some (some g) else none
    | .error _ => none
  | remove d' => if d' = d then some none else none

/-- A registration is made for a generic database and for no other value. -/
theorem apply_register (r : Registry γ) (dialect : Value) (g : γ) :
    (∃ d, Dialect.ofValue dialect = .ok d ∧ d.isGeneric = true ∧
        (register dialect g).apply r = (⟨putEntry d g r.entries⟩, .ok ())) ∨
      ∃ e, (∀ d, Dialect.ofValue dialect = .ok d → d.isGeneric ≠ true) ∧
        (register dialect g).apply r = (r, .error e) := by
  cases hr : r.register dialect g with
  | ok r' =>
      obtain ⟨d, hd, hgeneric, rfl⟩ := register_eq_ok.1 hr
      exact .inl ⟨d, hd, hgeneric, by simp only [apply, hr]⟩
  | error e =>
      refine .inr ⟨e, fun d hd hgeneric => ?_, by simp only [apply, hr]⟩
      rw [register_eq_ok.2 ⟨d, hd, hgeneric, rfl⟩] at hr
      cases hr

theorem find?_apply (r : Registry γ) (change : Change γ) (d : Dialect) :
    (change.apply r).1.find? d = (change.effect? d).getD (r.find? d) := by
  cases change with
  | register dialect g =>
      rcases apply_register r dialect g with ⟨d', hd', hgeneric, happly⟩ | ⟨e, hspecial, happly⟩
      · rw [happly]
        refine (lookup_putEntry d' d g r.entries).trans ?_
        simp only [effect?, hd', hgeneric, and_true]
        by_cases h : d' = d
        · simp [h]
        · simp [h, Ne.symm h, find?]
      · rw [happly]
        cases hd' : Dialect.ofValue dialect with
        | error _ => simp only [effect?, hd', Option.getD_none]
        | ok d' => simp [effect?, hd', hspecial d' hd']
  | remove d' =>
      refine (lookup_filter_ne d' d r.entries).trans ?_
      by_cases h : d' = d
      · simp [effect?, h]
      · simp [effect?, h, Ne.symm h, find?]

end Change

/-! ## Histories -/

/-- The databases of a registry are generic, and no two of them are the same. -/
structure Sound (r : Registry γ) : Prop where
  generic : ∀ d ∈ r.dialects, d.isGeneric = true
  nodup : r.dialects.Nodup

theorem sound_standard : Sound standard where
  generic := by decide
  nodup := by decide

theorem Sound.map {r : Registry γ} (h : r.Sound) (f : γ → δ) : (r.map f).Sound := by
  constructor
  · rw [dialects_map]
    exact h.generic
  · rw [dialects_map]
    exact h.nodup

theorem Sound.placed {r r' : Registry γ} (h : r.Sound) {d : Dialect} (hd : d.isGeneric = true)
    {g : γ} (hplaced : Placed d g r.entries r'.entries) : r'.Sound := by
  have hdialects := hplaced.dialects
  constructor
  · intro d' hd'
    rw [hdialects] at hd'
    split at hd'
    · exact h.generic d' hd'
    · rcases List.mem_append.1 hd' with hd' | hd'
      · exact h.generic d' hd'
      · rw [List.mem_singleton.1 hd']
        exact hd
  · rw [hdialects]
    split
    · exact h.nodup
    · rename_i hnew
      exact List.nodup_append.2 ⟨h.nodup, by simp, by
        simpa using fun d' hd' => ne_of_mem_of_not_mem hd' hnew⟩

theorem Sound.unregister {r : Registry γ} (h : r.Sound) (d : Dialect) : (r.unregister d).Sound := by
  have hfewer : (r.unregister d).dialects.Sublist r.dialects :=
    List.Sublist.map _ List.filter_sublist
  exact ⟨fun d' hd' => h.generic d' (hfewer.subset hd'), h.nodup.sublist hfewer⟩

theorem Sound.apply {r : Registry γ} (h : r.Sound) (change : Change γ) :
    (change.apply r).1.Sound := by
  cases change with
  | register dialect g =>
      rcases Change.apply_register r dialect g with ⟨d, -, hd, happly⟩ | ⟨e, -, happly⟩
      · rw [happly]
        exact h.placed hd (placed_putEntry d g r.entries)
      · rw [happly]
        exact h
  | remove d => exact h.unregister d

/-- The registry after a history of changes. -/
def run (r : Registry γ) (history : List (Change γ)) : Registry γ :=
  history.foldl (fun r change => (change.apply r).1) r

theorem run_append_singleton (r : Registry γ) (history : List (Change γ)) (change : Change γ) :
    r.run (history ++ [change]) = (change.apply (r.run history)).1 :=
  List.foldl_concat ..

theorem Sound.run {r : Registry γ} (h : r.Sound) (history : List (Change γ)) :
    (r.run history).Sound := by
  induction history using List.reverseRecOn with
  | nil => exact h
  | append_singleton history change ih =>
      rw [run_append_singleton]
      exact ih.apply change

/-- The grammar that was last registered for a database and has not been removed since. -/
def latest? (r : Registry γ) (history : List (Change γ)) (d : Dialect) : Option γ :=
  (history.reverse.findSome? (·.effect? d)).getD (r.find? d)

theorem find?_run (r : Registry γ) (history : List (Change γ)) (d : Dialect) :
    (r.run history).find? d = r.latest? history d := by
  induction history using List.reverseRecOn with
  | nil => rfl
  | append_singleton history change ih =>
      rw [run_append_singleton, Change.find?_apply, ih]
      unfold latest?
      rw [List.reverse_append, List.reverse_singleton, List.singleton_append, List.findSome?_cons]
      cases change.effect? d <;> rfl

/-! ## Asking for a database -/

theorem supports_iff {r : Registry γ} {dialect : Value} :
    r.supports dialect = .ok true ↔
      ∃ d g, Dialect.ofValue dialect = .ok d ∧ r.find? d = some g := by
  unfold supports
  cases Dialect.ofValue dialect with
  | ok d => simp [Option.isSome_iff_exists]
  | error e => cases e <;> simp

/-- Whether a database is supported is always answered if it was given by a value that can be
written. -/
theorem exists_supports (r : Registry γ) {dialect : Value} (h : dialect.isWritable = true) :
    ∃ b, r.supports dialect = .ok b := by
  unfold supports
  cases hd : Dialect.ofValue dialect with
  | ok d => exact ⟨_, rfl⟩
  | error e =>
      rw [(Dialect.ofValue_error hd).trans (if_pos h)]
      exact ⟨false, rfl⟩

theorem grammar_eq_ok {r : Registry γ} {dialect : Value} {g : γ} :
    r.grammar dialect = .ok g ↔ ∃ d, Dialect.ofValue dialect = .ok d ∧ r.find? d = some g := by
  unfold grammar
  rw [bind_eq_ok]
  refine exists_congr fun d => and_congr_right fun _ => ?_
  cases r.find? d <;> simp [pure, Except.pure]

/-- A grammar is refused as the name of its database is, or because it is not there. -/
theorem grammar_error {r : Registry γ} {dialect : Value} (hv : dialect.isWritable = true)
    {e : Failure} (h : r.grammar dialect = .error e) : ∃ v, e = .unsupportedDialect v := by
  rcases bind_eq_error.1 h with h | ⟨d, -, h⟩
  · exact ⟨dialect, (Dialect.ofValue_error h).trans (if_pos hv)⟩
  · cases hg : r.find? d with
    | some g =>
        rw [hg] at h
        cases h
    | none =>
        rw [hg] at h
        exact ⟨.text d.name, (Except.error.inj h).symm⟩

theorem Sound.isGeneric {r : Registry γ} (h : r.Sound) {d : Dialect} {g : γ}
    (hd : r.find? d = some g) : d.isGeneric = true :=
  h.generic d (isSome_lookup.1 (Option.isSome_iff_exists.2 ⟨g, hd⟩))

/-- A builder is made of a database and its grammar, and refused as the grammar is. -/
theorem Sound.createGeneric {r : Registry γ} (h : r.Sound) (dialect : Value) :
    Builder.createGeneric r dialect =
      (Dialect.ofValue dialect >>= fun d => (r.grammar dialect).map (.generic d)) := by
  unfold Builder.createGeneric
  cases hd : Dialect.ofValue dialect with
  | error e => rfl
  | ok d =>
      simp only [bind, Except.bind, grammar, hd, Dialect.ofValue_dialect]
      cases hg : r.find? d with
      | some g => simp [h.isGeneric hg, pure, Except.pure, Except.map]
      | none => simp [Except.map]

theorem Sound.createGeneric_eq_ok {r : Registry γ} (h : r.Sound) {dialect : Value} {b : Builder γ} :
    Builder.createGeneric r dialect = .ok b ↔
      ∃ d g, Dialect.ofValue dialect = .ok d ∧ r.find? d = some g ∧ b = .generic d g := by
  rw [h.createGeneric, bind_eq_ok]
  constructor
  · rintro ⟨d, hd, hb⟩
    obtain ⟨g, hg, rfl⟩ := map_eq_ok.1 hb
    obtain ⟨d', hd', hg⟩ := grammar_eq_ok.1 hg
    cases hd.symm.trans hd'
    exact ⟨d, g, hd, hg, rfl⟩
  · rintro ⟨d, g, hd, hg, rfl⟩
    exact ⟨d, hd, map_eq_ok.2 ⟨g, grammar_eq_ok.2 ⟨d, hd, hg⟩, rfl⟩⟩

theorem Sound.createGeneric_error {r : Registry γ} (h : r.Sound) {dialect : Value}
    (hv : dialect.isWritable = true) {e : Failure}
    (he : Builder.createGeneric r dialect = .error e) : ∃ v, e = .unsupportedDialect v := by
  rw [h.createGeneric] at he
  rcases bind_eq_error.1 he with he | ⟨d, -, he⟩
  · exact ⟨dialect, (Dialect.ofValue_error he).trans (if_pos hv)⟩
  · exact grammar_error hv (map_eq_error.1 he)

/-- A value that cannot be written names no database, and the refusal that would say so cannot be
worded: no way of asking answers. -/
theorem unwritable_fails (r : Registry γ) {dialect : Value} (h : dialect.isWritable = false) :
    r.supports dialect = .error .impossibleValue ∧ r.grammar dialect = .error .impossibleValue ∧
      Builder.createGeneric r dialect = .error .impossibleValue := by
  have hd := Dialect.ofValue_of_not_writable h
  refine ⟨by rw [supports, hd], ?_, ?_⟩
  · exact bind_eq_error.2 (.inl hd)
  · exact bind_eq_error.2 (.inl hd)

/-- After every history of registrations, some of them refused, and removals: the registry holds
generic databases only, each of them once. A registration is made for generic databases and changes
nothing but the grammar of the database, which keeps its place or gets the last one; every other
registration is refused and changes nothing. A value is supported if it has a grammar, and it has a
grammar if it has a builder. What is refused is an unsupported database, and whether a value is
supported is answered, exactly if no integer in the value is too long to be written; if there is one,
all three fail for that. A builder is one for the database that the value names,
with the grammar that was last registered for it. -/
theorem agrees_with_history (f : Grammar → γ) (history : List (Change γ)) :
    let r := (standard.map f).run history
    (∀ d ∈ r.dialects, d.isGeneric = true) ∧ r.dialects.Nodup ∧
    (∀ dialect g, let after := (Change.register dialect g).apply r
      (∃ d, Dialect.ofValue dialect = .ok d ∧ d.isGeneric = true ∧ after.2 = .ok () ∧
          Placed d g r.entries after.1.entries) ∨
        (∀ d, Dialect.ofValue dialect = .ok d → d.isGeneric ≠ true) ∧
          (∃ e, after.2 = .error e) ∧ after.1 = r) ∧
    ∀ dialect,
      (r.supports dialect = .ok true ↔ ∃ g, r.grammar dialect = .ok g) ∧
      ((∃ g, r.grammar dialect = .ok g) ↔ ∃ b, Builder.createGeneric r dialect = .ok b) ∧
      ((∃ b, r.supports dialect = .ok b) ∧
          (∀ e, r.grammar dialect = .error e → ∃ v, e = .unsupportedDialect v) ∧
          (∀ e, Builder.createGeneric r dialect = .error e → ∃ v, e = .unsupportedDialect v) ↔
        ∀ n, (Value.int n).Occurs dialect → n.natAbs < 10 ^ Decimal.digitLimit) ∧
      (r.supports dialect = .error .impossibleValue ∧
          r.grammar dialect = .error .impossibleValue ∧
          Builder.createGeneric r dialect = .error .impossibleValue ↔
        ∃ n, (Value.int n).Occurs dialect ∧ 10 ^ Decimal.digitLimit ≤ n.natAbs) ∧
      ∀ b, Builder.createGeneric r dialect = .ok b → ∃ d g, Dialect.ofValue dialect = .ok d ∧
        (standard.map f).latest? history d = some g ∧ b = .generic d g := by
  intro r
  have hr : r.Sound := (sound_standard.map f).run history
  refine ⟨hr.generic, hr.nodup, ?_, fun dialect => ⟨?_, ?_, ?_, ?_, ?_⟩⟩
  · intro dialect g after
    rcases Change.apply_register r dialect g with ⟨d, hd, hgeneric, happly⟩ | ⟨e, hspecial, happly⟩
    · simp only [after, happly]
      exact .inl ⟨d, hd, hgeneric, trivial, placed_putEntry d g r.entries⟩
    · simp only [after, happly]
      exact .inr ⟨hspecial, ⟨e, rfl⟩, trivial⟩
  · simp only [supports_iff, grammar_eq_ok]
    exact exists_comm
  · simp only [hr.createGeneric_eq_ok, grammar_eq_ok]
    constructor
    · rintro ⟨g, d, hd, hg⟩
      exact ⟨.generic d g, d, g, hd, hg, rfl⟩
    · rintro ⟨_, d, g, hd, hg, -⟩
      exact ⟨g, d, hd, hg⟩
  · rw [← Value.isWritable_iff]
    constructor
    · rintro ⟨⟨b, hb⟩, -⟩
      by_contra hv
      rw [(r.unwritable_fails (Bool.eq_false_iff.2 hv)).1] at hb
      cases hb
    · exact fun hv =>
        ⟨r.exists_supports hv, fun e => grammar_error hv, fun e => hr.createGeneric_error hv⟩
  · rw [← Value.isWritable_eq_false_iff]
    refine ⟨fun ⟨hfails, _⟩ => Bool.eq_false_iff.2 fun hv => ?_, r.unwritable_fails⟩
    obtain ⟨b, hb⟩ := r.exists_supports hv
    cases hb.symm.trans hfails
  · intro b hb
    obtain ⟨d, g, hd, hg, rfl⟩ := hr.createGeneric_eq_ok.1 hb
    exact ⟨d, g, hd, by rw [← find?_run]; exact hg, rfl⟩

/-- An integer of one digit too many is no database, but it is not refused as an unsupported one, and
whether it is supported is not answered. -/
theorem unwritable_dialect_not_unsupported :
    let dialect : Value := .int (10 ^ Decimal.digitLimit : Nat)
    (∀ v, standard.grammar dialect ≠ .error (.unsupportedDialect v)) ∧
      (∀ v, Builder.createGeneric standard dialect ≠ .error (.unsupportedDialect v)) ∧
      standard.supports dialect = .error .impossibleValue ∧
      standard.grammar dialect = .error .impossibleValue ∧
      Builder.createGeneric standard dialect = .error .impossibleValue := by
  intro dialect
  obtain ⟨hsupports, hgrammar, hcreate⟩ :=
    standard.unwritable_fails Value.isWritable_tenTo_digitLimit
  refine ⟨fun v h => ?_, fun v h => ?_, hsupports, hgrammar, hcreate⟩
  · cases hgrammar.symm.trans h
  · cases hcreate.symm.trans h

/-- A database that is registered again keeps its place, and one that has been removed loses it. -/
example :
    (standard.run [.register (.text " PG ") .oracle, .remove .redshift,
      .register (.dialect .bigquery) .bigquery, .register (.text "redshift") .sqlite]).entries =
    [(.postgresql, .oracle), (.cockroachdb, .postgresql), (.mysql, .mysql), (.mariadb, .mysql),
     (.tidb, .mysql), (.sqlite, .sqlite), (.libsql, .sqlite), (.sqlserver, .sqlserver),
     (.oracle, .oracle), (.redshift, .sqlite)] := by
  decide +kernel

end Registry

end TableScript
