import TableScript.Proofs.Sql.Match
import TableScript.Proofs.Text.CaseFold

/-!
# How far tokens reach

Words, numbers and phrases hold none of the marks that set the parts of a statement off from each
other. Other tokens may hold an apostrophe only if they open with a mark that something closes, or
are conversions to a time zone. A token that begins with a letter or a digit ends where the word
ends, or it is a number.
-/

namespace TableScript.Sql

open TableScript.Text

/-- Letters and digits are ASCII here. -/
theorem toNat_lt_of_isAlphanum {c : Char} (h : c.isAlphanum = true) : c.toNat < 128 := by
  delta Char.isAlphanum Char.isAlpha Char.isUpper Char.isLower Char.isDigit at h
  simp only [Bool.or_eq_true, Bool.and_eq_true, decide_eq_true_eq, UInt32.le_iff_toNat_le] at h
  have hcode : c.toNat = c.val.toNat := rfl
  have hupper : 'Z'.val.toNat = 90 := rfl
  have hlower : 'z'.val.toNat = 122 := rfl
  have hdigit : '9'.val.toNat = 57 := rfl
  omega

theorem toNat_lt_of_marks {marks : List Char} (hmarks : ∀ d ∈ marks, d.toNat < 128) {c : Char}
    (h : (c.isAlphanum || marks.contains c) = true) : c.toNat < 128 := by
  rw [Bool.or_eq_true, List.contains_iff_mem] at h
  exact h.elim toNat_lt_of_isAlphanum (hmarks c)

/-- The marks that set the parts of a statement off from each other. -/
def outerMarks : List Char := ['\x27', '"', ';', '(', ')', ',']

/-- A class of characters without any of the outer marks. -/
def Inner (p : Char → Bool) : Prop := outerMarks.all (!p ·) = true

instance (p : Char → Bool) : Decidable (Inner p) :=
  inferInstanceAs (Decidable (outerMarks.all (!p ·) = true))

theorem Inner.not_mem {p : Char → Bool} (hp : Inner p) {c : Char} (h : p c = true) :
    c ∉ outerMarks := by
  intro hc
  have := List.all_eq_true.1 hp c hc
  rw [h] at this
  cases this

theorem inner_isWord : Inner isWord := by decide +kernel

theorem inner_isLetter : Inner isLetter := by decide

theorem inner_isBlank : Inner isBlank := by decide

theorem inner_isDigit : Inner isDigit := by decide +kernel

theorem inner_isHexDigit : Inner Rule.isHexDigit := by decide +kernel

theorem capital_outerMarks : ∀ c ∈ outerMarks, capital c = c := by decide

theorem eq_of_capital {c k : Char} (hk : k ∈ outerMarks) (h : capital c = k) : c = k := by
  have hupper : ∀ n < 128, 97 ≤ n → n ≤ 122 → Char.ofNat (n - 32) ∉ outerMarks := by decide
  unfold capital at h
  simp only [Bool.and_eq_true, decide_eq_true_eq] at h
  split_ifs at h with hletter
  · subst h
    exact absurd hk (hupper c.toNat (by omega) hletter.1 hletter.2)
  · subst h
    exact absurd hk (by decide)
  · subst h
    exact absurd hk (by decide)
  · subst h
    exact absurd hk (by decide)
  · exact h

/-! ## Parts of tokens -/

/-- The first `n` characters hold none of the outer marks. -/
def InnerTo (cs : List Char) (n : Nat) : Prop := ∀ c ∈ cs.take n, c ∉ outerMarks

theorem innerTo_zero (cs : List Char) : InnerTo cs 0 := by simp [InnerTo]

theorem InnerTo.add {cs : List Char} {m n : Nat} (hm : InnerTo cs m)
    (hn : InnerTo (cs.drop m) n) : InnerTo cs (m + n) := by
  intro c hc
  rw [List.take_add] at hc
  rcases List.mem_append.1 hc with hc | hc
  · exact hm c hc
  · exact hn c hc

theorem InnerTo.cons {c : Char} {rest : List Char} {n : Nat} (hc : c ∉ outerMarks)
    (h : InnerTo rest n) : InnerTo (c :: rest) (n + 1) := by
  rw [InnerTo, List.take_succ_cons]
  exact List.forall_mem_cons.2 ⟨hc, h⟩

theorem innerTo_span {p : Char → Bool} (hp : Inner p) {cs : List Char} {n : Nat}
    (hn : n ≤ spanLength p cs) : InnerTo cs n :=
  fun c hc => hp.not_mem (forall_mem_take_spanLength hn c hc)

theorem InnerTo.of_le {cs : List Char} {m n : Nat} (h : InnerTo cs n) (hle : m ≤ n) :
    InnerTo cs m := fun c hc => h c (List.take_subset_take_left cs hle hc)

/-- A keyword whose letters are no outer marks. -/
def InnerWord (k : List Char) : Prop := ∀ a ∈ k, a ∉ outerMarks

instance (k : List Char) : Decidable (InnerWord k) :=
  inferInstanceAs (Decidable (∀ a ∈ k, a ∉ outerMarks))

theorem innerTo_keyword {k cs : List Char} (hk : InnerWord k) {n : Nat}
    (h : keywordLength? k cs = some n) : InnerTo cs n := by
  obtain ⟨_, hk'⟩ := keywordLength?_eq_some_iff.1 h
  intro c hc hmark
  have hmem : capital c ∈ k := hk' ▸ List.mem_map_of_mem hc
  rw [capital_outerMarks c hmark] at hmem
  exact hk c hmem hmark

theorem keywordsLength?_cons_eq_some {k k' : List Char} {ks : List (List Char)} {cs : List Char}
    {n : Nat} (h : keywordsLength? (k :: k' :: ks) cs = some n) :
    ∃ m gap more, keywordLength? k cs = some m ∧ gap = spanLength isBlank (cs.drop m) ∧ gap ≠ 0 ∧
      keywordsLength? (k' :: ks) (cs.drop (m + gap)) = some more ∧ m + gap + more = n := by
  simp only [keywordsLength?] at h
  split at h
  · cases h
  · rename_i m hm
    split at h
    · cases h
    · rename_i hgap
      obtain ⟨more, hmore, rfl⟩ := Option.map_eq_some_iff.1 h
      exact ⟨m, _, more, hm, rfl, hgap, hmore, rfl⟩

theorem innerTo_keywords {ks : List (List Char)} (hks : ∀ k ∈ ks, InnerWord k) {cs : List Char}
    {n : Nat} (h : keywordsLength? ks cs = some n) : InnerTo cs n := by
  induction ks generalizing cs n with
  | nil =>
      cases h
      exact innerTo_zero cs
  | cons k ks ih =>
      obtain ⟨hk, hks⟩ := List.forall_mem_cons.1 hks
      cases ks with
      | nil => exact innerTo_keyword hk h
      | cons k' ks =>
          obtain ⟨m, gap, more, hm, rfl, _, hmore, rfl⟩ := keywordsLength?_cons_eq_some h
          exact ((innerTo_keyword hk hm).add (innerTo_span inner_isBlank (Nat.le_refl _))).add
            (ih hks hmore)

theorem phraseLength?_eq_some {ks : List (List Char)} {cs : List Char} {n : Nat} :
    phraseLength? ks cs = some n ↔
      keywordsLength? ks cs = some n ∧ atWordEnd (cs.drop n) = true := by
  unfold phraseLength?
  cases keywordsLength? ks cs with
  | none => simp
  | some m =>
      simp only [Option.some.injEq]
      constructor
      · intro h
        split at h
        · rename_i hend
          cases h
          exact ⟨rfl, hend⟩
        · cases h
      · rintro ⟨rfl, hend⟩
        rw [if_pos hend]

namespace Rule

/-- No token of the rule holds one of the outer marks. -/
def StaysInside (r : Rule) : Prop :=
  ∀ before cs k n, r before cs = some (k, n) → InnerTo cs n

/-! ## Phrases -/

theorem phrases_eq_some {kind k : TokenKind} {ps : List (List (List Char))}
    {before : Option Char} {cs : List Char} {n : Nat}
    (h : phrases kind ps before cs = some (k, n)) :
    k = kind ∧ ∃ ks ∈ ps, keywordsLength? ks cs = some n ∧ atWordEnd (cs.drop n) = true := by
  obtain ⟨hk, hlength⟩ := ofLength_eq_some.1 h
  obtain ⟨ks, hks, hphrase⟩ := List.exists_of_findSome?_eq_some hlength
  exact ⟨hk, ks, hks, phraseLength?_eq_some.1 hphrase⟩

theorem staysInside_phrases (kind : TokenKind) {ps : List (List (List Char))}
    (hps : ∀ ks ∈ ps, ∀ k ∈ ks, InnerWord k) : StaysInside (phrases kind ps) := by
  intro before cs k n h
  obtain ⟨_, ks, hks, hlength, _⟩ := phrases_eq_some h
  exact innerTo_keywords (hps ks hks) hlength

theorem repeatedBatch_eq_some {k : TokenKind} {before : Option Char} {cs : List Char} {n : Nat}
    (h : repeatedBatch before cs = some (k, n)) :
    k = .keyword ∧ ∃ m c rest, keywordLength? ['G', 'O'] cs = some m ∧ cs.drop m = c :: rest ∧
      isBlank c = true ∧ n = m + 1 + spanLength isDigit rest ∧ atWordEnd (cs.drop n) = true := by
  obtain ⟨hk, hlength⟩ := ofLength_eq_some.1 h
  refine ⟨hk, ?_⟩
  split at hlength
  · cases hlength
  · rename_i m hm
    split at hlength
    · rename_i c rest hdrop
      simp only at hlength
      split at hlength
      · rename_i hcond
        cases hlength
        simp only [Bool.and_eq_true] at hcond
        refine ⟨m, c, rest, hm, hdrop, hcond.1.1, rfl, ?_⟩
        rw [Nat.add_assoc, ← List.drop_drop, hdrop, Nat.add_comm 1, List.drop_succ_cons]
        exact hcond.2
      · cases hlength
    · cases hlength

theorem staysInside_repeatedBatch : StaysInside repeatedBatch := by
  intro before cs k n h
  obtain ⟨_, m, c, rest, hm, hdrop, hc, rfl, _⟩ := repeatedBatch_eq_some h
  rw [Nat.add_assoc]
  refine (innerTo_keyword (by decide) hm).add ?_
  rw [hdrop, Nat.add_comm 1]
  exact (innerTo_span inner_isDigit (Nat.le_refl _)).cons (inner_isBlank.not_mem hc)

/-! ## Names and words -/

theorem nameLength?_eq_some {cs : List Char} {n : Nat} (h : nameLength? cs = some n) :
    ∃ c rest, cs = c :: rest ∧ isLetter c = true ∧ n = spanLength isWord rest + 1 := by
  unfold nameLength? at h
  split at h
  · split at h
    · rename_i c rest hc
      cases h
      exact ⟨c, rest, rfl, hc, rfl⟩
    · cases h
  · cases h

theorem innerTo_name {cs : List Char} {n : Nat} (h : nameLength? cs = some n) : InnerTo cs n := by
  obtain ⟨c, rest, rfl, hc, rfl⟩ := nameLength?_eq_some h
  exact (innerTo_span inner_isWord (Nat.le_refl _)).cons (inner_isLetter.not_mem hc)

theorem qualifyingName_eq_some {k : TokenKind} {before : Option Char} {cs : List Char} {n : Nat}
    (h : qualifyingName before cs = some (k, n)) : k = .name ∧ nameLength? cs = some n := by
  obtain ⟨hk, hlength⟩ := ofLength_eq_some.1 h
  refine ⟨hk, ?_⟩
  split at hlength
  · rename_i m hm
    split at hlength
    · cases hlength
      exact hm
    · cases hlength
  · cases hlength

theorem qualifiedName_eq_some {k : TokenKind} {before : Option Char} {cs : List Char} {n : Nat}
    (h : qualifiedName before cs = some (k, n)) : k = .name ∧ nameLength? cs = some n := by
  unfold qualifiedName at h
  split at h
  · obtain ⟨m, hm, h⟩ := Option.map_eq_some_iff.1 h
    cases h
    exact ⟨rfl, hm⟩
  · cases h

theorem calledName_eq_some {k : TokenKind} {before : Option Char} {cs : List Char} {n : Nat}
    (h : calledName before cs = some (k, n)) : k = .name ∧ nameLength? cs = some n := by
  obtain ⟨hk, hlength⟩ := ofLength_eq_some.1 h
  refine ⟨hk, ?_⟩
  split at hlength
  · rename_i m hm
    split at hlength
    · cases hlength
      exact hm
    · cases hlength
  · cases hlength

/-- The characters of a word after the first. -/
def isWordRest (c : Char) : Bool := isWord c || c == '$' || c == '#'

theorem inner_isWordRest : Inner isWordRest := by decide +kernel

theorem word_eq_some {k : TokenKind} {before : Option Char} {cs : List Char} {n : Nat}
    (h : word before cs = some (k, n)) :
    ∃ c rest, cs = c :: rest ∧ isWord c = true ∧ n = spanLength isWordRest rest + 1 ∧
      k = wordKind (cs.take n) := by
  unfold word at h
  split at h
  · rename_i c rest
    split at h
    · rename_i hc
      cases h
      exact ⟨c, rest, rfl, hc, rfl, rfl⟩
    · cases h
  · cases h

theorem staysInside_qualifyingName : StaysInside qualifyingName :=
  fun _ _ _ _ h => innerTo_name (qualifyingName_eq_some h).2

theorem staysInside_qualifiedName : StaysInside qualifiedName :=
  fun _ _ _ _ h => innerTo_name (qualifiedName_eq_some h).2

theorem staysInside_calledName : StaysInside calledName :=
  fun _ _ _ _ h => innerTo_name (calledName_eq_some h).2

theorem staysInside_word : StaysInside word := by
  intro before cs k n h
  obtain ⟨c, rest, rfl, hc, rfl, _⟩ := word_eq_some h
  exact (innerTo_span inner_isWordRest (Nat.le_refl _)).cons (inner_isWord.not_mem hc)

/-! ## Numbers -/

theorem innerTo_minus (cs : List Char) : InnerTo cs (minusLength cs) := by
  unfold minusLength
  split
  · simp [InnerTo, outerMarks]
  · exact innerTo_zero _

theorem hexNumber_eq_some {k : TokenKind} {before : Option Char} {cs : List Char} {n : Nat}
    (h : hexNumber before cs = some (k, n)) :
    k = .number ∧ ∃ x rest, cs.drop (minusLength cs) = '0' :: x :: rest ∧ capital x = 'X' ∧
      spanLength isHexDigit rest ≠ 0 ∧ n = minusLength cs + 2 + spanLength isHexDigit rest := by
  obtain ⟨hk, hlength⟩ := ofLength_eq_some.1 h
  refine ⟨hk, ?_⟩
  simp only at hlength
  split at hlength
  · rename_i x rest hdrop
    split at hlength
    · rename_i hcond
      cases hlength
      exact ⟨x, rest, hdrop, hcond.1, hcond.2, rfl⟩
    · cases hlength
  · cases hlength

theorem staysInside_hexNumber : StaysInside hexNumber := by
  intro before cs k n h
  obtain ⟨_, x, rest, hdrop, hx, _, rfl⟩ := hexNumber_eq_some h
  have hletter : x ∉ outerMarks := fun hmark => by
    rw [capital_outerMarks x hmark] at hx
    subst hx
    exact absurd hmark (by decide)
  rw [Nat.add_assoc]
  refine (innerTo_minus cs).add ?_
  rw [hdrop, Nat.add_comm 2]
  exact ((innerTo_span inner_isHexDigit (Nat.le_refl _)).cons hletter).cons (by decide)

theorem exponentLength?_eq_some {cs : List Char} {n : Nat} (h : exponentLength? cs = some n) :
    ∃ e rest, cs = e :: rest ∧ capital e = 'E' ∧
      spanLength isDigit (rest.drop (minusLength rest)) ≠ 0 ∧
      n = 1 + minusLength rest + spanLength isDigit (rest.drop (minusLength rest)) := by
  unfold exponentLength? at h
  split at h
  · rename_i e rest
    simp only at h
    split at h
    · rename_i hcond
      cases h
      exact ⟨e, rest, rfl, hcond.1, hcond.2, rfl⟩
    · cases h
  · cases h

theorem innerTo_exponent {cs : List Char} {n : Nat} (h : exponentLength? cs = some n) :
    InnerTo cs n := by
  obtain ⟨e, rest, rfl, he, _, rfl⟩ := exponentLength?_eq_some h
  have hletter : e ∉ outerMarks := fun hmark => by
    rw [capital_outerMarks e hmark] at he
    subst he
    exact absurd hmark (by decide)
  rw [Nat.add_assoc, Nat.add_comm]
  exact ((innerTo_minus rest).add (innerTo_span inner_isDigit (Nat.le_refl _))).cons hletter

theorem innerTo_fraction (cs : List Char) : InnerTo cs (fractionLength cs) := by
  unfold fractionLength
  split
  · simp only
    split
    · exact innerTo_zero _
    · exact (innerTo_span inner_isDigit (Nat.le_refl _)).cons (by decide)
  · exact innerTo_zero _

/-- The length of the digits at the front, after a minus sign. -/
def wholeLength (cs : List Char) : Nat := spanLength isDigit (cs.drop (minusLength cs))

theorem innerTo_whole (cs : List Char) : InnerTo cs (minusLength cs + wholeLength cs) :=
  (innerTo_minus cs).add (innerTo_span inner_isDigit (Nat.le_refl _))

theorem exponentNumber_eq_some {k : TokenKind} {before : Option Char} {cs : List Char} {n : Nat}
    (h : exponentNumber before cs = some (k, n)) :
    k = .number ∧ wholeLength cs ≠ 0 ∧ ∃ m more, InnerTo cs m ∧ exponentLength? (cs.drop m) = some more ∧
      m + more = n := by
  obtain ⟨hk, hlength⟩ := ofLength_eq_some.1 h
  refine ⟨hk, ?_⟩
  simp only at hlength
  split at hlength
  · cases hlength
  · rename_i hwhole
    obtain ⟨more, hmore, hn⟩ := Option.map_eq_some_iff.1 hlength
    exact ⟨hwhole, _, more, (innerTo_whole cs).add (innerTo_fraction _), hmore, hn⟩

theorem staysInside_exponentNumber : StaysInside exponentNumber := by
  intro before cs k n h
  obtain ⟨_, _, m, more, hm, hmore, rfl⟩ := exponentNumber_eq_some h
  exact hm.add (innerTo_exponent hmore)

theorem closeDigits?_eq_some {cs : List Char} {n count least m : Nat}
    (h : closeDigits? cs n count least = some m) :
    (nameStartsAt (cs.drop n) = true ∧ least < count ∧ m = n - 1) ∨
      (nameStartsAt (cs.drop n) = false ∧ m = n) := by
  unfold closeDigits? at h
  split at h
  · rename_i hname
    split at h
    · rename_i hlt
      cases h
      exact Or.inl ⟨hname, hlt, rfl⟩
    · cases h
  · rename_i hname
    cases h
    exact Or.inr ⟨by simpa using hname, rfl⟩

theorem pointNumber_eq_some {k : TokenKind} {before : Option Char} {cs : List Char} {n : Nat}
    (h : pointNumber before cs = some (k, n)) :
    k = .number ∧ ∃ rest, cs.drop (minusLength cs + wholeLength cs) = '.' :: rest ∧
      minusLength cs + wholeLength cs < n ∧
      n ≤ minusLength cs + wholeLength cs + 1 + spanLength isDigit rest := by
  obtain ⟨hk, hlength⟩ := ofLength_eq_some.1 h
  refine ⟨hk, ?_⟩
  simp only at hlength
  split at hlength
  · rename_i rest hdrop
    split at hlength
    · cases hlength
    · refine ⟨rest, hdrop, ?_⟩
      rcases closeDigits?_eq_some hlength with ⟨_, hlt, rfl⟩ | ⟨_, rfl⟩
      · unfold wholeLength
        split at hlt <;> omega
      · unfold wholeLength
        omega
  · cases hlength

theorem staysInside_pointNumber : StaysInside pointNumber := by
  intro before cs k n h
  obtain ⟨_, rest, hdrop, _, hle⟩ := pointNumber_eq_some h
  have hpoint : InnerTo (cs.drop (minusLength cs + wholeLength cs))
      (spanLength isDigit rest + 1) := by
    rw [hdrop]
    exact (innerTo_span inner_isDigit (Nat.le_refl _)).cons (by decide)
  exact ((innerTo_whole cs).add hpoint).of_le (by omega)

theorem wholeNumber_eq_some {k : TokenKind} {before : Option Char} {cs : List Char} {n : Nat}
    (h : wholeNumber before cs = some (k, n)) :
    k = .number ∧
      ((nameStartsAt (cs.drop (minusLength cs + wholeLength cs)) = true ∧ 1 < wholeLength cs ∧
          n + 1 = minusLength cs + wholeLength cs) ∨
        (wholeLength cs ≠ 0 ∧ n = minusLength cs + wholeLength cs)) := by
  obtain ⟨hk, hlength⟩ := ofLength_eq_some.1 h
  refine ⟨hk, ?_⟩
  simp only at hlength
  split at hlength
  · cases hlength
  · rename_i hwhole
    rcases closeDigits?_eq_some hlength with ⟨hname, hlt, rfl⟩ | ⟨_, rfl⟩
    · refine Or.inl ⟨hname, hlt, ?_⟩
      unfold wholeLength
      omega
    · exact Or.inr ⟨hwhole, rfl⟩

theorem staysInside_wholeNumber : StaysInside wholeNumber := by
  intro before cs k n h
  obtain ⟨_, ⟨_, _, hn⟩ | ⟨_, rfl⟩⟩ := wholeNumber_eq_some h
  · exact (innerTo_whole cs).of_le (by omega)
  · exact innerTo_whole cs

/-! ## Blanks, marks and operators -/

theorem staysInside_newline : StaysInside newline := by
  intro before cs k n h
  unfold newline at h
  split at h <;> cases h <;> simp [InnerTo, outerMarks]

theorem staysInside_blank : StaysInside blank := by
  intro before cs k n h
  unfold blank at h
  split at h
  · split at h
    · rename_i hc
      cases h
      exact (innerTo_zero _).cons (inner_isBlank.not_mem hc)
    · cases h
  · cases h

theorem staysInside_shortMark : StaysInside shortMark := by
  intro before cs k n h
  unfold shortMark at h
  split at h <;> cases h <;> simp [InnerTo, outerMarks]

theorem staysInside_markedWord : StaysInside markedWord := by
  intro before cs k n h
  unfold markedWord at h
  split at h
  · split at h
    · rename_i hc
      simp only at h
      split at h
      · cases h
      · cases h
        refine (innerTo_span inner_isWord (Nat.le_refl _)).cons ?_
        rcases hc.1 with rfl | rfl <;> decide
    · cases h
  · cases h

theorem staysInside_command : StaysInside command := by
  intro before cs k n h
  unfold command at h
  split at h
  · simp only at h
    split at h
    · cases h
    · cases h
      exact (innerTo_span inner_isWord (Nat.le_refl _)).cons (by decide)
  · cases h

theorem staysInside_sigilName : StaysInside sigilName := by
  intro before cs k n h
  obtain ⟨marks, name, m, rfl, hmarks, hname, -, rfl⟩ := sigilName_eq_some h
  have hinner : ∀ marks ∈ [['@'], ['#', '#'], ['#']], ∀ c ∈ marks, c ∉ outerMarks := by decide
  refine InnerTo.add ?_ (by simpa using innerTo_name hname)
  intro c hc
  exact hinner marks hmarks c (by simpa using hc)

theorem staysInside_documentOperator : StaysInside documentOperator := by
  intro before cs k n h
  obtain ⟨_, hlength⟩ := ofLength_eq_some.1 h
  split at hlength <;> cases hlength <;> simp [InnerTo, outerMarks]

theorem staysInside_run {kind : TokenKind} {p : Char → Bool} (hp : Inner p) :
    StaysInside (run kind p) := by
  intro before cs k n h
  obtain ⟨_, rfl, _⟩ := run_eq_some h
  exact innerTo_span hp (Nat.le_refl _)

/-- A place for a parameter may hold parentheses, but no apostrophe. -/
theorem placeholder_quoteFree {k : TokenKind} {before : Option Char} {cs : List Char} {n : Nat}
    (h : placeholder before cs = some (k, n)) : '\x27' ∉ cs.take n := by
  unfold placeholder at h
  split at h
  · cases h
    simp
  · rename_i rest
    obtain ⟨m, hm, h⟩ := Option.map_eq_some_iff.1 h
    cases h
    obtain ⟨rfl, hmap⟩ := keywordLength?_eq_some_iff.1 hm
    have hletter : '\x27' ∉ (rest.drop ((parenthesizedWord? rest).getD 0)).take 1 := by
      intro hmem
      have hcapital : capital '\x27' ∈ ['S'] := hmap ▸ List.mem_map_of_mem hmem
      exact absurd hcapital (by decide)
    have hword : '\x27' ∉ rest.take ((parenthesizedWord? rest).getD 0) := by
      cases hp : parenthesizedWord? rest with
      | none => simp
      | some m =>
          unfold parenthesizedWord? at hp
          split at hp
          · rename_i inside
            simp only at hp
            split at hp
            · rename_i after hdrop
              split at hp
              · cases hp
              · cases hp
                have hspan : '\x27' ∉ inside.take (spanLength isWord inside) := fun hmem =>
                  innerTo_span inner_isWord (Nat.le_refl _) _ hmem (by decide)
                have htake : inside.take (spanLength isWord inside + 1) =
                    inside.take (spanLength isWord inside) ++ [')'] := by
                  rw [List.take_add, hdrop]
                  rfl
                simp only [Option.getD_some, List.take_succ_cons, htake]
                simp [hspan]
            · cases hp
          · cases hp
    rw [show (parenthesizedWord? rest).getD 0 + 2 = (parenthesizedWord? rest).getD 0 + 1 + 1 from rfl,
      List.take_succ_cons, List.take_add]
    simp [hletter, hword]
  · cases h

theorem punctuation_quoteFree {k : TokenKind} {before : Option Char} {cs : List Char} {n : Nat}
    (h : punctuation before cs = some (k, n)) : '\x27' ∉ cs.take n := by
  obtain ⟨⟨c, hc, hhead⟩, _⟩ := opensWith_punctuation before cs k n h
  unfold punctuation at h
  split at h
  · split at h
    · cases h
      cases hhead
      intro hmem
      rw [List.take_succ_cons, List.take_zero, List.mem_singleton] at hmem
      rw [← hmem] at hc
      exact absurd hc (by decide)
    · cases h
  · cases h

/-! ## Conversions to a time zone -/

end Rule

theorem keywordsLength?_last {ks : List (List Char)} {k : List Char} {a : Char}
    (hlast : ks.getLast? = some (k ++ [a])) {cs : List Char} {n : Nat}
    (h : keywordsLength? ks cs = some n) :
    ∃ front e, cs.take n = front ++ [e] ∧ capital e = a := by
  induction ks generalizing cs n with
  | nil => cases hlast
  | cons k' ks ih =>
      cases ks with
      | nil =>
          cases hlast
          obtain ⟨_, hmap⟩ := keywordLength?_eq_some_iff.1 h
          obtain ⟨front, last, htake, _, hlast⟩ := List.map_eq_append_iff.1 hmap
          obtain ⟨e, rfl, he⟩ := List.map_eq_singleton_iff.1 hlast
          exact ⟨front, e, htake, he⟩
      | cons k'' ks =>
          obtain ⟨m, gap, more, _, rfl, _, hmore, rfl⟩ := keywordsLength?_cons_eq_some h
          obtain ⟨front, e, htake, he⟩ := ih (by simpa using hlast) hmore
          exact ⟨_, e, by rw [List.take_add, htake, ← List.append_assoc], he⟩

namespace Rule

/-- A conversion to a time zone opens its text after a word that ends in E or H. -/
theorem timeZone_eq_some {k : TokenKind} {before : Option Char} {cs : List Char} {n : Nat}
    (h : timeZone before cs = some (k, n)) :
    ∃ m front e gap, InnerTo cs m ∧ (cs.drop m).head? = some '\x27' ∧
      cs.take m = front ++ e :: gap ∧ capital e ∈ ['E', 'H'] ∧ ∀ c ∈ gap, isBlank c = true := by
  obtain ⟨_, hlength⟩ := ofLength_eq_some.1 h
  simp only at hlength
  split at hlength
  · cases hlength
  · rename_i m hm
    rcases Option.or_eq_some_iff.1 hm with hm | ⟨_, hm⟩
    · -- After the words there are blanks and the apostrophe.
      split at hlength
      · rename_i rest hdrop
        obtain ⟨front, e, htake, he⟩ := keywordsLength?_last (k := ['Z', 'O', 'N']) rfl hm
        refine ⟨m + spanLength isBlank (cs.drop m), front, e,
          (cs.drop m).take (spanLength isBlank (cs.drop m)),
          (innerTo_keywords (by decide) hm).add (innerTo_span inner_isBlank (Nat.le_refl _)), ?_, ?_,
          by simp [he], forall_mem_take_spanLength (Nat.le_refl _)⟩
        · rw [hdrop]
          rfl
        · rw [List.take_add, htake, List.append_assoc]
          rfl
      · cases hlength
    · -- Here the apostrophe belongs to the first word.
      obtain ⟨m', _, _, hm', _⟩ := keywordsLength?_cons_eq_some hm
      obtain ⟨rfl, hmap⟩ := keywordLength?_eq_some_iff.1 hm'
      rcases cs with _ | ⟨w, _ | ⟨i, _ | ⟨t, _ | ⟨e, _ | ⟨q, rest⟩⟩⟩⟩⟩ <;>
        simp only [List.length_cons, List.length_nil, List.take_succ_cons, List.take_zero,
          List.take_nil, List.map_cons, List.map_nil, List.cons.injEq, reduceCtorEq, and_false,
          and_true] at hmap
      obtain ⟨hw, hi, ht, he, hq⟩ := hmap
      have hword : keywordLength? ['W', 'I', 'T', 'H'] (w :: i :: t :: e :: q :: rest) = some 4 :=
        keywordLength?_eq_some_iff.2 ⟨rfl, by simp [hw, hi, ht, he]⟩
      refine ⟨4, [w, i, t], e, [], innerTo_keyword (by decide) hword, ?_, rfl, by simp [he],
        by simp⟩
      rw [eq_of_capital (by decide) hq]
      rfl

end Rule

end TableScript.Sql
