import Mathlib.Data.List.Induction
import Mathlib.Data.List.Nodup
import TableScript.Profile.Loader

/-!
# Profiles by name

A cache is a mapping that remembers the order of its names. Profiles are put into it one after the
other. As long as their names are texts, it then holds the last profile of every name, at the place
of the first one.
-/

namespace TableScript

namespace Value

theorem sameKey_text {s : String} {v : Value} : (text s).sameKey v = true ↔ v = text s := by
  cases v with
  | text t => rw [sameKey, beq_iff_eq, text.injEq, eq_comm]
  | _ => simp [sameKey, integer?]

/-- Whether a name stands for a key that is already there: it is the same key, or both are the
number that is none. -/
def SharesPlace (key name : Value) : Prop :=
  key = name ∨ key.sameKey name = true ∨ key.isNaN = true ∧ name.isNaN = true

end Value

namespace ProfileCache

/-! ## One profile -/

theorem put_cons (k : Value) (q : Profile) (c : ProfileCache) (name : Value) (p : Profile) :
    put ((k, q) :: c) name p =
      if k.sameKey name || (k.isNaN && name.isNaN) then (k, p) :: c else (k, q) :: put c name p :=
  rfl

theorem sharesPlace_of_eq_true {k name : Value}
    (h : (k.sameKey name || (k.isNaN && name.isNaN)) = true) : k.SharesPlace name := by
  rw [Bool.or_eq_true, Bool.and_eq_true] at h
  exact .inr h

theorem exists_mem_put (c : ProfileCache) (name : Value) (p : Profile) :
    ∃ k, (k, p) ∈ c.put name p ∧ k.SharesPlace name := by
  induction c with
  | nil => exact ⟨name, List.mem_singleton_self _, .inl rfl⟩
  | cons e c ih =>
      obtain ⟨k, q⟩ := e
      rw [put_cons]
      split
      · rename_i h
        exact ⟨k, List.mem_cons_self, sharesPlace_of_eq_true h⟩
      · obtain ⟨k', hk', hplace⟩ := ih
        exact ⟨k', List.mem_cons_of_mem _ hk', hplace⟩

/-- What is in a cache stays there, unless a profile of the same name takes its place. -/
theorem mem_put_or_replaced {c : ProfileCache} {k : Value} {q : Profile} (h : (k, q) ∈ c)
    (name : Value) (p : Profile) :
    (k, q) ∈ c.put name p ∨ (k, p) ∈ c.put name p ∧ k.SharesPlace name := by
  induction c with
  | nil => cases h
  | cons e c ih =>
      obtain ⟨k', q'⟩ := e
      rw [put_cons]
      rcases List.mem_cons.1 h with h | h
      · cases h
        split
        · rename_i hplace
          exact .inr ⟨List.mem_cons_self, sharesPlace_of_eq_true hplace⟩
        · exact .inl List.mem_cons_self
      · split
        · exact .inl (List.mem_cons_of_mem _ h)
        · exact (ih h).imp (List.mem_cons_of_mem _) fun ⟨hmem, hplace⟩ =>
            ⟨List.mem_cons_of_mem _ hmem, hplace⟩

/-- The names of a cache in their order: they are texts, and no two of them are the same. -/
structure Named (c : ProfileCache) (ns : List String) : Prop where
  names : c.map (·.1) = ns.map Value.text
  nodup : ns.Nodup

theorem named_nil : Named [] [] := ⟨rfl, .nil⟩

theorem Named.cons_inv {k : Value} {q : Profile} {c : ProfileCache} {ns : List String}
    (h : Named ((k, q) :: c) ns) :
    ∃ t rest, ns = t :: rest ∧ k = .text t ∧ t ∉ rest ∧ Named c rest := by
  obtain ⟨hnames, hnodup⟩ := h
  cases ns with
  | nil => cases hnames
  | cons t rest =>
      obtain ⟨hk, hrest⟩ := List.cons.inj hnames
      obtain ⟨hfresh, hnodup⟩ := List.nodup_cons.1 hnodup
      exact ⟨t, rest, rfl, hk, hfresh, hrest, hnodup⟩

theorem find?_cons (k : Value) (q : Profile) (c : ProfileCache) (n : Value) :
    find? ((k, q) :: c) n = if k.sameKey n then some q else find? c n := by
  unfold find?
  rw [List.find?_cons]
  cases k.sameKey n <;> rfl

theorem put_cons_text (s t : String) (q p : Profile) (c : ProfileCache) :
    put ((.text t, q) :: c) (.text s) p =
      if t = s then (.text t, p) :: c else (.text t, q) :: put c (.text s) p := by
  simp [put, Keyed.put, Value.sameKey, Value.isNaN]

theorem find?_put {c : ProfileCache} {ns : List String} (hc : Named c ns) (s : String) (p : Profile)
    (n : Value) :
    (c.put (.text s) p).find? n = if (Value.text s).sameKey n then some p else c.find? n := by
  induction c generalizing ns with
  | nil => exact find?_cons ..
  | cons e c ih =>
      obtain ⟨k, q⟩ := e
      obtain ⟨t, rest, -, rfl, -, hrest⟩ := hc.cons_inv
      rw [put_cons_text, find?_cons]
      by_cases hts : t = s
      · subst hts
        rw [if_pos rfl, find?_cons]
        split <;> rfl
      · rw [if_neg hts, find?_cons, ih hrest]
        -- a name is the same as one text at most, so the two tests may change places
        split
        · rename_i htn
          rw [Value.sameKey_text.1 htn, if_neg]
          rw [Value.sameKey_text, Value.text.injEq]
          exact hts
        · rfl

theorem named_put {c : ProfileCache} {ns : List String} (hc : Named c ns) (s : String)
    (p : Profile) : Named (c.put (.text s) p) (if s ∈ ns then ns else ns ++ [s]) := by
  refine ⟨?_, ?_⟩
  · induction c generalizing ns with
    | nil =>
        rw [List.map_eq_nil_iff.1 hc.names.symm]
        rfl
    | cons e c ih =>
        obtain ⟨k, q⟩ := e
        obtain ⟨t, rest, rfl, rfl, -, hrest⟩ := hc.cons_inv
        rw [put_cons_text]
        by_cases hts : t = s
        · rw [if_pos hts, if_pos (by simp [hts])]
          exact hc.names
        · rw [if_neg hts, List.map_cons, ih hrest]
          by_cases hs : s ∈ rest
          · rw [if_pos hs, if_pos (List.mem_cons_of_mem t hs)]
            rfl
          · rw [if_neg hs, if_neg (by simp [hs, Ne.symm hts])]
            rfl
  · split
    · exact hc.nodup
    · rename_i hs
      exact List.nodup_append.2 ⟨hc.nodup, by simp, by simpa using fun t ht => ne_of_mem_of_not_mem ht hs⟩

/-- The profiles of a cache, read off name by name. -/
theorem Named.profiles {c : ProfileCache} {ns : List String} (hc : Named c ns) :
    c.map (·.2) = ns.filterMap fun n => c.find? (.text n) := by
  induction c generalizing ns with
  | nil =>
      rw [List.map_eq_nil_iff.1 hc.names.symm]
      rfl
  | cons e c ih =>
      obtain ⟨k, q⟩ := e
      obtain ⟨t, rest, rfl, rfl, hfresh, hrest⟩ := hc.cons_inv
      have hfirst : find? ((.text t, q) :: c) (.text t) = some q := by
        rw [find?_cons, if_pos (Value.sameKey_text.2 rfl)]
      have hothers : ∀ n ∈ rest, find? ((.text t, q) :: c) (.text n) = find? c (.text n) := by
        intro n hn
        rw [find?_cons, if_neg]
        rw [Value.sameKey_text, Value.text.injEq]
        rintro rfl
        exact hfresh hn
      rw [List.filterMap_cons_some (f := fun n => find? _ (.text n)) hfirst,
        List.filterMap_congr hothers, ← ih hrest, List.map_cons]

/-- The cache after profiles have been put into it one after the other. -/
def putAll (c : ProfileCache) (ps : List Profile) : ProfileCache :=
  ps.foldl (fun c p => c.put p.name p) c

theorem putAll_append (c : ProfileCache) (ps qs : List Profile) :
    c.putAll (ps ++ qs) = (c.putAll ps).putAll qs :=
  List.foldl_append ..

/-- The cache into which profiles have been put one after the other. -/
def ofProfiles (ps : List Profile) : ProfileCache := putAll [] ps

theorem ofProfiles_append_singleton (ps : List Profile) (p : Profile) :
    ofProfiles (ps ++ [p]) = (ofProfiles ps).put p.name p :=
  List.foldl_concat ..

/-- A profile that has been put into a cache is there, unless one of the profiles after it has the
same name and has taken its place. -/
theorem exists_mem_ofProfiles (before : List Profile) (p : Profile) (after : List Profile) :
    ∃ k q, (k, q) ∈ ofProfiles (before ++ p :: after) ∧ k.SharesPlace p.name ∧
      (q = p ∨ q ∈ after ∧ k.SharesPlace q.name) := by
  induction after using List.reverseRecOn with
  | nil =>
      rw [ofProfiles_append_singleton]
      obtain ⟨k, hk, hplace⟩ := exists_mem_put (ofProfiles before) p.name p
      exact ⟨k, p, hk, hplace, .inl rfl⟩
  | append_singleton after p' ih =>
      obtain ⟨k, q, hq, hplace, hwhich⟩ := ih
      rw [← List.cons_append, ← List.append_assoc, ofProfiles_append_singleton]
      rcases mem_put_or_replaced hq p'.name p' with hkept | ⟨hreplaced, hplace'⟩
      · exact ⟨k, q, hkept, hplace, hwhich.imp_right fun ⟨hmem, h⟩ => ⟨by simp [hmem], h⟩⟩
      · exact ⟨k, p', hreplaced, hplace, .inr ⟨by simp, hplace'⟩⟩

end ProfileCache

namespace Profile

/-- The last one of the profiles that have a name. -/
def lastNamed (ps : List Profile) (name : Value) : Option Profile :=
  (ps.filter fun p => p.name.sameKey name).getLast?

/-- One profile for every name, the last one, in the order in which the names appear. -/
def onePerName (ps : List Profile) : List Profile :=
  (ps.map (·.name.written)).eraseDups.filterMap fun n => lastNamed ps (.text n)

theorem lastNamed_append_singleton (ps : List Profile) (p : Profile) (n : Value) :
    lastNamed (ps ++ [p]) n = if p.name.sameKey n then some p else lastNamed ps n := by
  unfold lastNamed
  rw [List.filter_append, List.filter_singleton]
  cases p.name.sameKey n <;> simp

end Profile

namespace ProfileCache

open Profile

theorem eraseDups_append_singleton (ns : List String) (s : String) :
    (ns ++ [s]).eraseDups = if s ∈ ns.eraseDups then ns.eraseDups else ns.eraseDups ++ [s] := by
  rw [List.eraseDups_append]
  by_cases hs : s ∈ ns <;> simp [hs, List.removeAll, List.eraseDups_cons]

theorem named_ofProfiles {ps : List Profile} (h : ∀ p ∈ ps, ∃ s, p.name = .text s) :
    Named (ofProfiles ps) (ps.map (·.name.written)).eraseDups := by
  induction ps using List.reverseRecOn with
  | nil => exact named_nil
  | append_singleton ps p ih =>
      obtain ⟨s, hs⟩ := h p (by simp)
      rw [ofProfiles_append_singleton, hs, List.map_append, List.map_singleton, hs,
        eraseDups_append_singleton]
      exact named_put (ih fun q hq => h q (List.mem_append_left _ hq)) s p

theorem find?_ofProfiles {ps : List Profile} (h : ∀ p ∈ ps, ∃ s, p.name = .text s) (n : Value) :
    (ofProfiles ps).find? n = lastNamed ps n := by
  induction ps using List.reverseRecOn with
  | nil => rfl
  | append_singleton ps p ih =>
      obtain ⟨s, hs⟩ := h p (by simp)
      have hps : ∀ q ∈ ps, ∃ s, q.name = .text s := fun q hq => h q (List.mem_append_left _ hq)
      rw [ofProfiles_append_singleton, lastNamed_append_singleton, hs,
        find?_put (named_ofProfiles hps), ih hps]

theorem profiles_ofProfiles {ps : List Profile} (h : ∀ p ∈ ps, ∃ s, p.name = .text s) :
    (ofProfiles ps).map (·.2) = onePerName ps := by
  rw [(named_ofProfiles h).profiles]
  exact List.filterMap_congr fun n _ => find?_ofProfiles h (.text n)

end ProfileCache

end TableScript
