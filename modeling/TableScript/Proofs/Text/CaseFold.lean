import TableScript.Text.Blank
import TableScript.Text.CaseFold

/-!
# Blanks have no letter case

A blank is the same letter as itself only: neither the case runs nor the variants of letters hold
one. So a text without blanks is found, in any letter case, only where there are no blanks.
-/

namespace TableScript.Text

/-- The code points of the blanks. -/
def blankCodes : List Nat :=
  [9, 10, 11, 12, 13, 28, 29, 30, 31, 32, 0x85, 0xa0, 0x1680, 0x2000, 0x2001, 0x2002, 0x2003,
   0x2004, 0x2005, 0x2006, 0x2007, 0x2008, 0x2009, 0x200a, 0x2028, 0x2029, 0x202f, 0x205f, 0x3000]

theorem isBlank_iff {c : Char} : isBlank c = true ↔ c.toNat ∈ blankCodes := by
  unfold isBlank blankCodes
  simp only [Bool.or_eq_true, Bool.and_eq_true, decide_eq_true_eq, beq_iff_eq, List.mem_cons,
    List.not_mem_nil, or_false]
  omega

/-- What holds of the first 128 codes holds of the characters of ASCII. -/
@[elab_as_elim]
theorem forall_ascii {motive : Char → Prop} (c : Char) (hc : c.toNat < 128)
    (h : ∀ n < 128, motive (Char.ofNat n)) : motive c := by
  have := h c.toNat hc
  rwa [Char.ofNat_toNat] at this

/-- What holds of the codes of blanks holds of the blanks. -/
@[elab_as_elim]
theorem forall_blank {motive : Char → Prop} (c : Char) (hc : isBlank c = true)
    (h : ∀ n ∈ blankCodes, motive (Char.ofNat n)) : motive c := by
  have := h c.toNat (isBlank_iff.1 hc)
  rwa [Char.ofNat_toNat] at this

/-- No run of capitals holds a blank or has one as a lower-case form. -/
theorem caseRuns_blank : ∀ r ∈ caseRuns, ∀ n ∈ blankCodes,
    ¬ (r.first ≤ n ∧ n ≤ r.last) ∧ ¬ (r.first + r.offset ≤ n ∧ (n : Int) ≤ r.last + r.offset) := by
  decide +kernel

theorem caseVariants_blank : ∀ p ∈ caseVariants, ∀ n ∈ blankCodes, n ∉ p.2 := by
  decide +kernel

theorem lowerOf_cases (runs : List CaseRun) (n : Nat) :
    lowerOf runs n = n ∨
      ∃ r ∈ runs, r.first ≤ n ∧ n ≤ r.last ∧ lowerOf runs n = (n + r.offset).toNat := by
  induction runs with
  | nil => exact Or.inl rfl
  | cons r rest ih =>
      unfold lowerOf
      by_cases hlt : n < r.first
      · exact Or.inl (by rw [if_pos hlt])
      · rw [if_neg hlt]
        split
        · rename_i hr
          rw [Bool.and_eq_true, decide_eq_true_eq] at hr
          exact Or.inr ⟨r, List.mem_cons_self, by omega, hr.1, rfl⟩
        · rcases ih with ih | ⟨q, hq, h⟩
          · exact Or.inl ih
          · exact Or.inr ⟨q, List.mem_cons_of_mem r hq, h⟩

theorem toLower_blank : ∀ k < 128, ∀ n ∈ blankCodes,
    (Char.ofNat k).toLower.toNat = n ↔ k = n := by
  decide +kernel

/-- A lower-case form is a blank only if the character is that blank. -/
theorem lowerCode_blank {c : Char} {n : Nat} (hn : n ∈ blankCodes) :
    lowerCode c = n ↔ c.toNat = n := by
  unfold lowerCode
  by_cases hascii : c.toNat < 128
  · rw [if_pos hascii]
    have h := toLower_blank c.toNat hascii n hn
    rwa [Char.ofNat_toNat] at h
  · rw [if_neg hascii]
    rcases lowerOf_cases caseRuns c.toNat with h | ⟨r, hr, hfirst, hlast, h⟩
    · rw [h]
    · obtain ⟨hout, hoff⟩ := caseRuns_blank r hr n hn
      have hpos : n ≠ 0 := by
        rintro rfl
        exact absurd hn (by decide)
      rw [h]
      constructor
      · intro he
        exact absurd ⟨by omega, by omega⟩ hoff
      · rintro rfl
        exact absurd ⟨hfirst, hlast⟩ hout

/-- A letter and the same letter in another case are both blank or both not. -/
theorem isBlank_of_sameLetter {a c : Char} (h : sameLetter a c = true) (hc : isBlank c = true) :
    isBlank a = true := by
  rw [isBlank_iff] at hc ⊢
  -- The blank is its own lower-case form, so the other letter has that form or is a variant of it.
  have hlower : lowerCode c = c.toNat := (lowerCode_blank hc).2 rfl
  unfold sameLetter at h
  rw [hlower, Bool.or_eq_true, beq_iff_eq] at h
  rcases h with h | h
  · rw [(lowerCode_blank hc).1 h.symm]
    exact hc
  · cases hlookup : caseVariants.lookup (lowerCode a) with
    | none => simp [hlookup] at h
    | some vs =>
        rw [hlookup, Option.getD_some, List.contains_iff_mem] at h
        obtain ⟨l₁, l₂, hsplit, _⟩ := List.lookup_eq_some_iff.1 hlookup
        have hmem : (lowerCode a, vs) ∈ caseVariants := by
          rw [hsplit]
          simp
        exact absurd h (caseVariants_blank _ hmem _ hc)

end TableScript.Text
