import Mathlib.Data.Nat.Digits.Lemmas
import TableScript.Decimal.Notation
import TableScript.Decimal.Reading
import TableScript.Proofs.Text.CaseFold
import TableScript.Proofs.Text.Margins

/-!
# Numerals

A numeral is an optional sign and decimal digits, with single underscores between the digits, within
margins. The reader of integers accepts the numerals of limited length and nothing else, and gives
each of them its value; so an integer of limited length is read again however it is surrounded.
-/

namespace TableScript.Decimal

open TableScript.Text

/-- Written digits and their values. Between two digits there may be an underscore. -/
inductive Digits : List Char → List Nat → Prop where
  | last {c : Char} {d : Nat} (h : digitValue? c = some d) : Digits [c] [d]
  | next {c : Char} {d : Nat} {cs : List Char} {ds : List Nat} (h : digitValue? c = some d)
      (rest : Digits cs ds) : Digits (c :: cs) (d :: ds)
  | gap {c : Char} {d : Nat} {cs : List Char} {ds : List Nat} (h : digitValue? c = some d)
      (rest : Digits cs ds) : Digits (c :: '_' :: cs) (d :: ds)

/-- A sign, the magnitude behind it and the integer that both make. -/
inductive Signed : List Char → Nat → Int → Prop where
  | none (m : Nat) : Signed [] m m
  | plus (m : Nat) : Signed ['+'] m m
  | minus (m : Nat) : Signed ['-'] m (-m)

/-- A numeral of limited length and its value. -/
inductive Numeral : List Char → Int → Prop where
  | mk {front sign digits back : List Char} {ds : List Nat} {n : Int}
      (hfront : ∀ c ∈ front, isMargin c = true) (hback : ∀ c ∈ back, isMargin c = true)
      (hdigits : Digits digits ds) (hlimit : ds.length ≤ digitLimit)
      (hsign : Signed sign (Nat.ofDigits 10 ds.reverse) n) :
      Numeral (front ++ (sign ++ digits ++ back)) n

/-! ## Digits -/

variable {cs : List Char} {ds : List Nat}

/-- The letters of greater bases are no decimal digits. -/
theorem digitIn?_ten (c : Char) : digitIn? 10 c = digitValue? c := by
  have hletter : ∀ k, 65 ≤ c.toNat → c.toNat ≤ 102 → 10 ≤ k →
      (some k).bind (fun d => if d < 10 then some d else none) = digitValue? c := by
    intro k h65 h102 hk
    have hdigit : c.isDigit = false := by
      rw [Char.isDigit, Bool.and_eq_false_iff, decide_eq_false_iff_not, decide_eq_false_iff_not]
      refine Or.inr fun h57 => ?_
      have h57 : c.toNat ≤ 57 := h57
      omega
    rw [Option.bind_some, if_neg (by omega), digitValue?, if_pos (by omega), hdigit]
    rfl
  unfold digitIn?
  split
  · rename_i h
    have h97 : 97 ≤ c.toNat := h.1
    exact hletter _ (by omega) h.2 (by omega)
  · split
    · rename_i h
      have h65 : 65 ≤ c.toNat := h.1
      have h70 : c.toNat ≤ 70 := h.2
      exact hletter _ h65 (by omega) (by omega)
    · cases h : digitValue? c with
      | none => rfl
      | some d => rw [Option.bind_some, if_pos (digitValue?_lt h)]

theorem Digits.exists_cons (h : Digits cs ds) :
    ∃ c rest, cs = c :: rest ∧ (digitValue? c).isSome = true := by
  cases h with
  | last h => exact ⟨_, _, rfl, by rw [h]; rfl⟩
  | next h rest => exact ⟨_, _, rfl, by rw [h]; rfl⟩
  | gap h rest => exact ⟨_, _, rfl, by rw [h]; rfl⟩

theorem readDigits?_of_digits (h : Digits cs ds) : readDigits? 10 cs = some ds := by
  induction h with
  | last h => simp [readDigits?, digitIn?_ten, h]
  | @next c d cs ds h rest ih =>
      obtain ⟨c', cs', rfl, hsome⟩ := rest.exists_cons
      have hne : c' ≠ '_' := by
        rintro rfl
        cases hsome
      rw [readDigits?, digitIn?_ten, h, ih]
      · rfl
      · simp
      · simp [hne]
  | gap h rest ih =>
      rw [readDigits?, digitIn?_ten, h, ih]
      rfl

theorem digits_of_readDigits? (h : readDigits? 10 cs = some ds) : Digits cs ds := by
  induction cs using readDigits?.induct generalizing ds with
  | case1 => cases h
  | case2 c =>
      rw [readDigits?, digitIn?_ten] at h
      obtain ⟨d, hd, rfl⟩ := Option.map_eq_some_iff.1 h
      exact .last hd
  | case3 c rest ih =>
      rw [readDigits?, digitIn?_ten] at h
      obtain ⟨d, hd, h⟩ := Option.bind_eq_some_iff.1 h
      obtain ⟨ds, hds, h⟩ := Option.bind_eq_some_iff.1 h
      cases h
      exact .gap hd (ih hds)
  | case4 c rest hne hgap ih =>
      rw [readDigits?, digitIn?_ten] at h
      · obtain ⟨d, hd, h⟩ := Option.bind_eq_some_iff.1 h
        obtain ⟨ds, hds, h⟩ := Option.bind_eq_some_iff.1 h
        cases h
        exact .next hd (ih hds)
      · exact hne
      · exact hgap

theorem readDigits?_eq_some : readDigits? 10 cs = some ds ↔ Digits cs ds :=
  ⟨digits_of_readDigits?, readDigits?_of_digits⟩

theorem ofDigits_eq (base : Nat) (ds : List Nat) :
    ofDigits base ds = Nat.ofDigits base ds.reverse := by
  rw [Nat.ofDigits_eq_foldr, List.foldr_reverse, ofDigits]
  congr 1
  funext n d
  simp [Nat.mul_comm, Nat.add_comm]

theorem readNaturalIn?_eq_some {m : Nat} :
    readNaturalIn? 10 cs = some m ↔
      ∃ ds, Digits cs ds ∧ ds.length ≤ digitLimit ∧ Nat.ofDigits 10 ds.reverse = m := by
  unfold readNaturalIn?
  constructor
  · intro h
    obtain ⟨ds, hds, h⟩ := Option.bind_eq_some_iff.1 h
    split at h
    · rename_i hlimit
      refine ⟨ds, readDigits?_eq_some.1 hds, by simpa using hlimit, ?_⟩
      rw [← ofDigits_eq]
      exact Option.some.inj h
    · cases h
  · rintro ⟨ds, hds, hlimit, rfl⟩
    refine Option.bind_eq_some_iff.2 ⟨ds, readDigits?_eq_some.2 hds, ?_⟩
    rw [if_pos (Or.inr hlimit), ofDigits_eq]

/-! ## Signs and margins -/

theorem dropBaseMark_ten (cs : List Char) : dropBaseMark 10 cs = cs := by
  unfold dropBaseMark
  split
  · simp
  · rfl

theorem exists_sign (cs : List Char) :
    ∃ sign, cs = sign ++ (takeSign cs).2 ∧
      ∀ m : Nat, Signed sign m (if (takeSign cs).1 then -(m : Int) else m) := by
  unfold takeSign
  split
  · exact ⟨['-'], rfl, .minus⟩
  · exact ⟨['+'], rfl, .plus⟩
  · exact ⟨[], rfl, .none⟩

theorem takeSign_of_signed {sign : List Char} {m : Nat} {n : Int} (hsign : Signed sign m n)
    (hdigits : Digits cs ds) :
    (takeSign (sign ++ cs)).2 = cs ∧ n = if (takeSign (sign ++ cs)).1 then -(m : Int) else m := by
  cases hsign with
  | none =>
      obtain ⟨c, rest, rfl, hsome⟩ := hdigits.exists_cons
      have hminus : c ≠ '-' := by
        rintro rfl
        cases hsome
      have hplus : c ≠ '+' := by
        rintro rfl
        cases hsome
      have h : takeSign (c :: rest) = (false, c :: rest) := by
        unfold takeSign
        split <;> simp_all
      rw [List.nil_append, h]
      exact ⟨rfl, rfl⟩
  | plus => exact ⟨rfl, rfl⟩
  | minus => exact ⟨rfl, rfl⟩

/-- No digit is blank. -/
theorem isBlank_of_digit {c : Char} (h : (digitValue? c).isSome = true) : isBlank c = false := by
  cases hc : isBlank c with
  | false => rfl
  | true =>
      have hnone : digitValue? c = none := forall_blank c hc (by decide +kernel)
      rw [hnone] at h
      cases h

theorem isMargin_of_digit {c : Char} (h : (digitValue? c).isSome = true) : isMargin c = false := by
  rw [isMargin, isBlank_of_digit h, Bool.false_and]

theorem Digits.getLast (h : Digits cs ds) : ∃ c ∈ cs.getLast?, (digitValue? c).isSome = true := by
  induction h with
  | @last c d h => exact ⟨c, rfl, by rw [h]; rfl⟩
  | next h rest ih =>
      obtain ⟨c, hc, hsome⟩ := ih
      exact ⟨c, by rw [List.getLast?_cons, hc]; rfl, hsome⟩
  | gap h rest ih =>
      obtain ⟨c, hc, hsome⟩ := ih
      exact ⟨c, by rw [List.getLast?_cons, List.getLast?_cons, hc]; rfl, hsome⟩

/-- Between its margins a numeral has none. -/
theorem dropMargins_of_signed {front back sign : List Char} {m : Nat} {n : Int}
    (hfront : ∀ c ∈ front, isMargin c = true) (hback : ∀ c ∈ back, isMargin c = true)
    (hsign : Signed sign m n) (hdigits : Digits cs ds) :
    dropMargins (front ++ (sign ++ cs ++ back)) = sign ++ cs := by
  refine strip_append hfront hback ?_ ?_
  · obtain ⟨c, rest, rfl, hsome⟩ := hdigits.exists_cons
    cases hsign with
    | none => exact ⟨c, rfl, isMargin_of_digit hsome⟩
    | plus => exact ⟨'+', rfl, by decide⟩
    | minus => exact ⟨'-', rfl, by decide⟩
  · obtain ⟨c, hc, hsome⟩ := hdigits.getLast
    exact ⟨c, by rw [List.getLast?_append, hc]; rfl, isMargin_of_digit hsome⟩

theorem readIntegerIn?_ten {n : Int} :
    readIntegerIn? 10 cs = some n ↔
      ∃ m : Nat, readNaturalIn? 10 (takeSign (dropMargins cs)).2 = some m ∧
        n = if (takeSign (dropMargins cs)).1 then -(m : Int) else m := by
  unfold readIntegerIn?
  simp only [dropBaseMark_ten]
  cases readNaturalIn? 10 (takeSign (dropMargins cs)).2 with
  | none => simp
  | some m =>
      constructor
      · intro h
        cases h
        exact ⟨m, rfl, rfl⟩
      · rintro ⟨m', hm, rfl⟩
        cases hm
        rfl

theorem Digits.isBlank (h : Digits cs ds) : ∀ c ∈ cs, Text.isBlank c = false := by
  induction h with
  | last h => simpa using isBlank_of_digit (by rw [h]; rfl)
  | next h rest ih => exact List.forall_mem_cons.2 ⟨isBlank_of_digit (by rw [h]; rfl), ih⟩
  | gap h rest ih =>
      refine List.forall_mem_cons.2 ⟨isBlank_of_digit (by rw [h]; rfl), ?_⟩
      exact List.forall_mem_cons.2 ⟨by decide, ih⟩

theorem Signed.isBlank {sign : List Char} {m : Nat} {n : Int} (h : Signed sign m n) :
    ∀ c ∈ sign, Text.isBlank c = false := by
  cases h with
  | none => exact List.forall_mem_nil _
  | plus => exact List.forall_mem_singleton.2 (by decide)
  | minus => exact List.forall_mem_singleton.2 (by decide)

/-- The blanks in a numeral are its margins, so no information separator is among them. -/
theorem Numeral.isMargin {n : Int} (h : Numeral cs n) :
    ∀ c ∈ cs, Text.isBlank c = true → Decimal.isMargin c = true := by
  obtain ⟨hfront, hback, hdigits, _, hsign⟩ := h
  intro c hc hblank
  rcases List.mem_append.1 hc with hc | hc
  · exact hfront c hc
  · rcases List.mem_append.1 hc with hc | hc
    · have hsolid : Text.isBlank c = false :=
        (List.mem_append.1 hc).elim (hsign.isBlank c) (hdigits.isBlank c)
      rw [hsolid] at hblank
      cases hblank
    · exact hback c hc

/-- The reader of integers reads the numerals of limited length, and nothing else. -/
theorem readIntegerIn?_eq_some {n : Int} : readIntegerIn? 10 cs = some n ↔ Numeral cs n := by
  rw [readIntegerIn?_ten]
  constructor
  · rintro ⟨m, hm, rfl⟩
    obtain ⟨ds, hdigits, hlimit, rfl⟩ := readNaturalIn?_eq_some.1 hm
    obtain ⟨back, hcs, hback⟩ := exists_margin isMargin cs
    obtain ⟨sign, hsign, hsigned⟩ := exists_sign (dropMargins cs)
    change cs = _ ++ (dropMargins cs ++ back) at hcs
    have hfront : ∀ c ∈ cs.takeWhile isMargin, isMargin c = true :=
      fun c hc => List.mem_takeWhile_imp hc
    have h := Numeral.mk hfront hback hdigits hlimit (hsigned _)
    rwa [← hsign, ← hcs] at h
  · rintro ⟨hfront, hback, hdigits, hlimit, hsign⟩
    rw [dropMargins_of_signed hfront hback hsign hdigits]
    obtain ⟨hrest, hvalue⟩ := takeSign_of_signed hsign hdigits
    exact ⟨_, readNaturalIn?_eq_some.2 ⟨_, by rwa [hrest], hlimit, rfl⟩, hvalue⟩

/-! ## Written integers -/

theorem digits_of_isDigit (hne : cs ≠ []) (h : ∀ c ∈ cs, c.isDigit = true) :
    Digits cs (cs.map fun c => c.toNat - 48) := by
  induction cs with
  | nil => exact absurd rfl hne
  | cons c rest ih =>
      obtain ⟨hc, hrest⟩ := List.forall_mem_cons.1 h
      have hvalue : digitValue? c = some (c.toNat - 48) := by
        have h57 : c.toNat ≤ 57 := by
          rw [Char.isDigit, Bool.and_eq_true, decide_eq_true_eq, decide_eq_true_eq] at hc
          exact hc.2
        rw [digitValue?, if_pos (by omega), if_pos hc]
      cases rest with
      | nil => exact .last hvalue
      | cons c' rest => exact .next hvalue (ih (by simp) hrest)

theorem digits_toDigits (m : Nat) :
    Digits (Nat.toDigits 10 m) ((Nat.toDigits 10 m).map fun c => c.toNat - 48) :=
  digits_of_isDigit Nat.toDigits_ne_nil fun _ =>
    Nat.isDigit_of_mem_toDigits (by decide) (by decide)

theorem ofDigits_toDigits (m : Nat) :
    Nat.ofDigits 10 ((Nat.toDigits 10 m).map fun c => c.toNat - 48).reverse = m := by
  rw [← ofDigits_eq, ofDigits, List.foldl_map]
  have h := Nat.ofDigitChars_ten_toDigits (n := m)
  rw [Nat.ofDigitChars_eq_foldl] at h
  simpa [Nat.mul_comm] using h

theorem toList_integerText (n : Int) :
    (integerText n).toList = (if n < 0 then ['-'] else []) ++ Nat.toDigits 10 n.natAbs := by
  unfold integerText naturalText
  split <;> simp

/-- An integer that is not too long is a numeral when it is written, within any margins. -/
theorem numeral_integerText {n : Int} (h : (Nat.toDigits 10 n.natAbs).length ≤ digitLimit)
    {front back : List Char} (hfront : ∀ c ∈ front, isMargin c = true)
    (hback : ∀ c ∈ back, isMargin c = true) :
    Numeral (front ++ ((integerText n).toList ++ back)) n := by
  rw [toList_integerText]
  refine .mk hfront hback (digits_toDigits n.natAbs) (by rwa [List.length_map]) ?_
  rw [ofDigits_toDigits]
  split
  · have hvalue := Signed.minus n.natAbs
    rwa [show -(n.natAbs : Int) = n by omega] at hvalue
  · have hvalue := Signed.none n.natAbs
    rwa [show (n.natAbs : Int) = n by omega] at hvalue

/-- An integer that is written between blanks is read again exactly if there is no information
separator among them. -/
theorem numeral_between_iff {n : Int} (h : (Nat.toDigits 10 n.natAbs).length ≤ digitLimit)
    {front back : List Char} (hfront : ∀ c ∈ front, isBlank c = true)
    (hback : ∀ c ∈ back, isBlank c = true) {m : Int} :
    Numeral (front ++ ((integerText n).toList ++ back)) m ↔
      m = n ∧ ∀ c ∈ front ++ back, isMargin c = true := by
  constructor
  · intro hm
    have hmargin : ∀ c ∈ front ++ back, isMargin c = true := by
      intro c hc
      rcases List.mem_append.1 hc with hc | hc
      · exact hm.isMargin c (by simp [hc]) (hfront c hc)
      · exact hm.isMargin c (by simp [hc]) (hback c hc)
    obtain ⟨hfront, hback⟩ := List.forall_mem_append.1 hmargin
    have hn := numeral_integerText h hfront hback
    exact ⟨Option.some.inj ((readIntegerIn?_eq_some.2 hm).symm.trans (readIntegerIn?_eq_some.2 hn)),
      hmargin⟩
  · rintro ⟨rfl, hmargin⟩
    obtain ⟨hfront, hback⟩ := List.forall_mem_append.1 hmargin
    exact numeral_integerText h hfront hback

theorem Digits.lt_ten (h : Digits cs ds) : ∀ d ∈ ds.reverse, d < 10 := by
  simp only [List.mem_reverse]
  induction h with
  | last h => simpa using digitValue?_lt h
  | next h rest ih => exact List.forall_mem_cons.2 ⟨digitValue?_lt h, ih⟩
  | gap h rest ih => exact List.forall_mem_cons.2 ⟨digitValue?_lt h, ih⟩

theorem Signed.natAbs_eq {sign : List Char} {m : Nat} {n : Int} (h : Signed sign m n) :
    n.natAbs = m := by
  cases h with
  | none => exact Int.natAbs_natCast m
  | plus => exact Int.natAbs_natCast m
  | minus => rw [Int.natAbs_neg, Int.natAbs_natCast]

/-- A numeral stands for an integer that is not too long to be written. -/
theorem Numeral.length_le {n : Int} (h : Numeral cs n) :
    (Nat.toDigits 10 n.natAbs).length ≤ digitLimit := by
  obtain ⟨_, _, hdigits, hlimit, hsign⟩ := h
  have hlt := Nat.ofDigits_lt_base_pow_length (by decide) hdigits.lt_ten
  rw [List.length_reverse] at hlt
  rw [Nat.length_toDigits_le_iff (by decide) (by decide), hsign.natAbs_eq]
  exact lt_of_lt_of_le hlt (Nat.pow_le_pow_right (by decide) hlimit)

end TableScript.Decimal
