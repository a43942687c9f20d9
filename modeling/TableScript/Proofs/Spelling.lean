import Mathlib.Data.List.Forall2
import Mathlib.Data.Option.Basic
import TableScript.Value

/-!
# Spellings of keys

Nine keys have two spellings each, one with underscores and one with capitals. Two mappings are
respellings of each other if their entries correspond one by one, under keys that differ at most in
their spelling, and neither has a key in both. What is looked up under all the spellings of a key is
then found in both of them or in neither.
-/

namespace TableScript

/-- The keys with two spellings. -/
def spellings : List (String × String) :=
  [("db_name", "dbName"), ("db_config", "dbConfig"), ("bigquery_options", "bigQueryOptions"),
   ("project_id", "projectId"), ("key_filename", "keyFilename"), ("column_name", "columnName"),
   ("data_type", "dataType"), ("primary_key", "primaryKey"), ("default_value", "defaultValue")]

/-- A key in its spelling with capitals. Other texts stay as they are. -/
def camelCase (s : String) : String := (spellings.lookup s).getD s

/-- Some keys are all the spellings of one. -/
def AreSpellings (key : String) (keys : List String) : Prop :=
  (∀ s ∈ keys, camelCase s = key) ∧ key ∈ keys ∧ ∀ p ∈ spellings, p.2 = key → p.1 ∈ keys

instance (key : String) (keys : List String) : Decidable (AreSpellings key keys) :=
  inferInstanceAs (Decidable (_ ∧ _ ∧ _))

theorem AreSpellings.mem_iff {key s : String} {keys : List String} (h : AreSpellings key keys) :
    s ∈ keys ↔ camelCase s = key := by
  refine ⟨h.1 s, fun hs => ?_⟩
  unfold camelCase at hs
  cases hlookup : spellings.lookup s with
  | none =>
      rw [hlookup] at hs
      cases hs
      exact h.2.1
  | some camel =>
      rw [hlookup] at hs
      cases hs
      obtain ⟨before, after, hspellings, -⟩ := List.lookup_eq_some_iff.1 hlookup
      exact h.2.2 (s, camel) (by simp [hspellings]) rfl

/-- A text as a key, in its spelling with capitals. -/
def Value.camelKey : Value → Value
  | .text s => .text (camelCase s)
  | v => v

theorem Value.camelKey_eq_text {v : Value} {key : String} :
    v.camelKey = .text key ↔ ∃ s, v = .text s ∧ camelCase s = key := by
  cases v <;> simp [camelKey]

namespace Entries

variable {R : String → Value → Value → Prop} {es fs : Entries} {key : String} {keys : List String}

/-- No key stands in both its spellings. -/
def OneSpelling (es : Entries) : Prop :=
  ∀ e ∈ es, ∀ f ∈ es, e.1.camelKey = f.1.camelKey → e.1 = f.1

/-- The entries correspond, with keys that are the same but for their spelling and with values that
are related as the key asks. -/
structure Respelled (R : String → Value → Value → Prop) (es fs : Entries) : Prop where
  entries : List.Forall₂ (fun e f : Value × Value => e.1.camelKey = f.1.camelKey ∧
    ∀ key, e.1.camelKey = .text key → R key e.2 f.2) es fs
  left : es.OneSpelling
  right : fs.OneSpelling

theorem get?_cons (e : Value × Value) (es : Entries) (key : String) :
    get? (e :: es) key = if e.1.isText key then some e.2 else get? es key := by
  unfold get?
  rw [List.find?_cons]
  cases e.1.isText key <;> rfl

theorem getFirst?_singleton (es : Entries) (key : String) : getFirst? es [key] = get? es key := by
  rw [getFirst?, List.findSome?_cons]
  cases get? es key <;> rfl

theorem getFirst?_congr (h : ∀ t ∈ keys, es.get? t = fs.get? t) :
    es.getFirst? keys = fs.getFirst? keys := by
  induction keys with
  | nil => rfl
  | cons t keys ih =>
      obtain ⟨ht, hkeys⟩ := List.forall_mem_cons.1 h
      have ih := ih hkeys
      unfold getFirst? at ih ⊢
      rw [List.findSome?_cons, List.findSome?_cons, ht, ih]

theorem get?_eq_none (h : ∀ e ∈ es, e.1 ≠ .text key) : es.get? key = none := by
  induction es with
  | nil => rfl
  | cons e es ih =>
      obtain ⟨he, hes⟩ := List.forall_mem_cons.1 h
      rw [get?_cons, if_neg fun htext => he (Value.isText_iff.1 htext), ih hes]

theorem OneSpelling.tail {e : Value × Value} (h : OneSpelling (e :: es)) : OneSpelling es :=
  fun f hf g hg => h f (List.mem_cons_of_mem _ hf) g (List.mem_cons_of_mem _ hg)

theorem OneSpelling.get?_eq_none (h : OneSpelling es) {s t : String} {v : Value}
    (hs : es.get? s = some v) (hcamel : camelCase s = camelCase t) (hne : s ≠ t) :
    es.get? t = none := by
  obtain ⟨e, hfind, -⟩ := Option.map_eq_some_iff.1 hs
  have htext := List.find?_some hfind
  have he : e.1 = .text s := Value.isText_iff.1 htext
  refine Entries.get?_eq_none fun f hf hft => hne ?_
  have hsame := h e (List.mem_of_find?_eq_some hfind) f hf
    (by rw [he, hft, Value.camelKey, Value.camelKey, hcamel])
  rw [he, hft] at hsame
  cases hsame
  rfl

/-- An entry under one spelling of a key is followed by none under another. -/
theorem getFirst?_cons_of_camelKey {e : Value × Value} (h : OneSpelling (e :: es))
    (hkeys : AreSpellings key keys) (he : e.1.camelKey = .text key) :
    getFirst? (e :: es) keys = some e.2 := by
  obtain ⟨s, hs, hcamel⟩ := Value.camelKey_eq_text.1 he
  obtain ⟨before, after, rfl, hbefore⟩ := List.eq_append_cons_of_mem (hkeys.mem_iff.2 hcamel)
  refine List.findSome?_eq_some_iff.2 ⟨before, s, after, rfl, ?_, fun t ht => ?_⟩
  · rw [get?_cons, if_pos (Value.isText_iff.2 hs)]
  · -- a later entry under another spelling `t` would have the same key in both its spellings
    have hne : t ≠ s := fun hts => hbefore (hts ▸ ht)
    have hcamel' : camelCase t = key := hkeys.1 t (List.mem_append_left _ ht)
    refine get?_eq_none fun f hf hft => hne ?_
    have hsame : e.1 = f.1 :=
      h e List.mem_cons_self f hf (he.trans (Value.camelKey_eq_text.2 ⟨t, hft, hcamel'⟩).symm)
    rw [hs, hft] at hsame
    cases hsame
    rfl

theorem getFirst?_cons_of_ne {e : Value × Value} (es : Entries) (hkeys : AreSpellings key keys)
    (he : e.1.camelKey ≠ .text key) : getFirst? (e :: es) keys = getFirst? es keys := by
  refine getFirst?_congr fun t ht => ?_
  have htext : ¬ e.1.isText t = true := fun htext =>
    he (Value.camelKey_eq_text.2 ⟨t, Value.isText_iff.1 htext, hkeys.1 t ht⟩)
  rw [get?_cons, if_neg htext]

theorem respelled_nil : Respelled R [] [] :=
  ⟨.nil, List.forall_mem_nil _, List.forall_mem_nil _⟩

theorem OneSpelling.cons {e : Value × Value} (h : es.OneSpelling)
    (he : ∀ f ∈ es, e.1.camelKey ≠ f.1.camelKey) : OneSpelling (e :: es) := by
  intro f hf g hg hfg
  rcases List.mem_cons.1 hf with rfl | hfrest
  · rcases List.mem_cons.1 hg with rfl | hgrest
    · rfl
    · exact absurd hfg (he g hgrest)
  · rcases List.mem_cons.1 hg with rfl | hgrest
    · exact absurd hfg.symm (he f hfrest)
    · exact h f hfrest g hgrest hfg

theorem Respelled.cons (h : Respelled R es fs) {s t : String} (hst : camelCase s = camelCase t)
    {x y : Value} (hxy : R (camelCase s) x y)
    (hes : ∀ e ∈ es, (Value.text s).camelKey ≠ e.1.camelKey)
    (hfs : ∀ f ∈ fs, (Value.text t).camelKey ≠ f.1.camelKey) :
    Respelled R ((.text s, x) :: es) ((.text t, y) :: fs) where
  entries := .cons ⟨congrArg Value.text hst, fun key hkey => by cases hkey; exact hxy⟩ h.entries
  left := h.left.cons hes
  right := h.right.cons hfs

theorem Respelled.getFirst? (h : Respelled R es fs) (hkeys : AreSpellings key keys) :
    Option.Rel (R key) (es.getFirst? keys) (fs.getFirst? keys) := by
  obtain ⟨hentries, hleft, hright⟩ := h
  induction hentries with
  | nil =>
      have hnone : Entries.getFirst? [] keys = none := List.findSome?_eq_none_iff.2 fun _ _ => rfl
      rw [hnone]
      exact .none
  | @cons e f es fs hhead hrest ih =>
      obtain ⟨hkey, hvalue⟩ := hhead
      by_cases he : e.1.camelKey = .text key
      · rw [getFirst?_cons_of_camelKey hleft hkeys he,
          getFirst?_cons_of_camelKey hright hkeys (hkey ▸ he)]
        exact .some (hvalue key he)
      · rw [getFirst?_cons_of_ne es hkeys he, getFirst?_cons_of_ne fs hkeys (hkey ▸ he)]
        exact ih hleft.tail hright.tail

end Entries

end TableScript
