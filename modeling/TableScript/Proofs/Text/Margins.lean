import Mathlib.Data.List.DropRight

/-!
# Margins

The margins of a text are the characters of a class at its two ends. What is left without them
begins and ends with other characters, and is determined by that.
-/

namespace TableScript.Text

variable {p : Char → Bool} {cs : List Char}

/-- A text without the characters of a class at its two ends. -/
def strip (p : Char → Bool) (cs : List Char) : List Char := (cs.dropWhile p).rdropWhile p

theorem exists_margin (p : Char → Bool) (cs : List Char) :
    ∃ back, cs = cs.takeWhile p ++ (strip p cs ++ back) ∧ ∀ c ∈ back, p c = true := by
  refine ⟨(cs.dropWhile p).rtakeWhile p, ?_, fun c hc => List.mem_rtakeWhile_imp hc⟩
  rw [strip, List.rdropWhile_append_rtakeWhile, List.takeWhile_append_dropWhile]

theorem strip_eq_nil_iff : strip p cs = [] ↔ ∀ c ∈ cs, p c = true := by
  rw [strip, List.rdropWhile_eq_nil_iff]
  constructor
  · intro h c hc
    rw [← List.takeWhile_append_dropWhile (p := p) (l := cs)] at hc
    rcases List.mem_append.1 hc with hc | hc
    · exact List.mem_takeWhile_imp hc
    · exact h c hc
  · exact fun h c hc => h c ((List.dropWhile_sublist p).subset hc)

theorem head?_strip (h : strip p cs ≠ []) : ∃ c ∈ (strip p cs).head?, p c = false := by
  have hkept : strip p cs <+: cs.dropWhile p := List.rdropWhile_prefix p (cs.dropWhile p)
  refine ⟨(strip p cs).head h, List.head?_eq_some_head h, ?_⟩
  rw [hkept.head h]
  exact List.head_dropWhile_not p (hkept.ne_nil h)

theorem getLast?_strip (h : strip p cs ≠ []) : ∃ c ∈ (strip p cs).getLast?, p c = false := by
  refine ⟨(strip p cs).getLast h, List.getLast?_eq_some_getLast h, ?_⟩
  exact Bool.eq_false_iff.2 (List.rdropWhile_last_not p (cs.dropWhile p) h)

theorem dropWhile_margin {front : List Char} (hfront : ∀ c ∈ front, p c = true)
    (hhead : ∃ c ∈ cs.head?, p c = false) : (front ++ cs).dropWhile p = cs := by
  obtain ⟨c, hc, hcp⟩ := hhead
  obtain ⟨rest, rfl⟩ := List.head?_eq_some_iff.1 hc
  rw [List.dropWhile_append_of_pos hfront, List.dropWhile_cons_of_neg (by rw [hcp]; decide)]

theorem rdropWhile_margin {back : List Char} (hback : ∀ c ∈ back, p c = true)
    (hlast : ∃ c ∈ cs.getLast?, p c = false) : (cs ++ back).rdropWhile p = cs := by
  have h : (back.reverse ++ cs.reverse).dropWhile p = cs.reverse :=
    dropWhile_margin (by simpa using hback) (by simpa using hlast)
  rw [List.rdropWhile, List.reverse_append, h, List.reverse_reverse]

/-- A text that begins and ends outside of the class is found again between any margins. -/
theorem strip_append {front back : List Char} (hfront : ∀ c ∈ front, p c = true)
    (hback : ∀ c ∈ back, p c = true) (hhead : ∃ c ∈ cs.head?, p c = false)
    (hlast : ∃ c ∈ cs.getLast?, p c = false) : strip p (front ++ (cs ++ back)) = cs := by
  have hhead' : ∃ c ∈ (cs ++ back).head?, p c = false := by
    obtain ⟨c, hc, hcp⟩ := hhead
    exact ⟨c, by rw [List.head?_append, hc]; rfl, hcp⟩
  rw [strip, dropWhile_margin hfront hhead', rdropWhile_margin hback hlast]

end TableScript.Text
