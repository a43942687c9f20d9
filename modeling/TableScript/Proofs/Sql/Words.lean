import TableScript.Proofs.Sql.Extent

/-!
# Words at the front

Where a letter or a digit of ASCII stands, the token is a word, a phrase or a number. A word and a
phrase end with the word that they end in, and what counts as a keyword begins with a whole word. A
number may end inside a word: it gives up its last digit to a letter, or it ends in a digit or in a
hexadecimal digit that no other such digit follows.
-/

namespace TableScript.Sql

open TableScript.Text

theorem spanLength_maximal {p : Char → Bool} (cs : List Char) :
    ∀ c ∈ (cs.drop (spanLength p cs)).head?, p c = false := by
  induction cs with
  | nil => simp
  | cons c cs ih =>
      by_cases hc : p c = true
      · simpa [spanLength, hc] using ih
      · simp [spanLength, hc]

theorem atWordEnd_iff {cs : List Char} :
    atWordEnd cs = true ↔ ∀ c ∈ cs.head?, isWord c = false := by
  cases cs <;> simp [atWordEnd]

theorem isBlank_of_isWord {c : Char} (hc : isWord c = true) : isBlank c = false := by
  rw [← Bool.not_eq_true]
  intro hblank
  have h : isWord c = false := by
    refine forall_blank c hblank ?_
    decide +kernel
  rw [hc] at h
  cases h

theorem isWord_of_capital {c : Char} (h : isWord (capital c) = true) : isWord c = true := by
  have hlower : ∀ n < 128, 97 ≤ n → n ≤ 122 → isWord (Char.ofNat n) = true := by decide +kernel
  have hspecial : ∀ n ∈ [0x130, 0x131, 0x17f, 0x212a], isWord (Char.ofNat n) = true := by
    decide +kernel
  unfold capital at h
  simp only [Bool.and_eq_true, Bool.or_eq_true, decide_eq_true_eq, beq_iff_eq] at h
  split_ifs at h with hletter hi hs hk
  · have := hlower c.toNat (by omega) hletter.1 hletter.2
    rwa [Char.ofNat_toNat] at this
  · have := hspecial c.toNat (by rcases hi with hi | hi <;> simp [hi])
    rwa [Char.ofNat_toNat] at this
  · have := hspecial c.toNat (by simp [hs])
    rwa [Char.ofNat_toNat] at this
  · have := hspecial c.toNat (by simp [hk])
    rwa [Char.ofNat_toNat] at this
  · exact h

/-! ## Whole words -/

/-- The first part of a token up to a blank is a whole word. -/
def WholeWord (cs : List Char) (n : Nat) : Prop :=
  atWordEnd (cs.drop ((cs.take n).takeWhile (!isBlank ·)).length) = true

theorem wholeWord_of_take {cs : List Char} {m n : Nat} (hlength : m ≤ cs.length)
    (hsolid : ∀ c ∈ cs.take m, isBlank c = false)
    (hnext : m = n ∨ m < n ∧ ∃ b ∈ (cs.drop m).head?, isBlank b = true)
    (hend : atWordEnd (cs.drop m) = true) : WholeWord cs n := by
  have hpart : (cs.take n).takeWhile (!isBlank ·) = cs.take m := by
    have hall : ∀ c ∈ cs.take m, (!isBlank c) = true := fun c hc => by rw [hsolid c hc]; rfl
    rcases hnext with rfl | ⟨hlt, b, hb, hblank⟩
    · rw [← List.append_nil (cs.take m), List.takeWhile_append_of_pos hall, List.takeWhile_nil]
    · obtain ⟨k, rfl⟩ := Nat.exists_eq_add_of_lt hlt
      obtain ⟨more, hmore⟩ : ∃ more, cs.drop m = b :: more := by
        cases hdrop : cs.drop m with
        | nil => simp [hdrop] at hb
        | cons d more =>
            rw [hdrop] at hb
            cases hb
            exact ⟨more, rfl⟩
      rw [Nat.add_assoc, List.take_add, List.takeWhile_append_of_pos hall, hmore,
        List.take_succ_cons, List.takeWhile_cons, hblank]
      simp
  rw [WholeWord, hpart, List.length_take_of_le hlength]
  exact hend

/-- A keyword that a blank follows, or with which the token and the word end. -/
theorem wholeWord_of_keyword {k cs : List Char} (hk : ∀ a ∈ k, isWord a = true) {m n : Nat}
    (hm : keywordLength? k cs = some m)
    (hnext : m = n ∧ atWordEnd (cs.drop n) = true ∨
      m < n ∧ ∃ b ∈ (cs.drop m).head?, isBlank b = true) : WholeWord cs n := by
  obtain ⟨rfl, hmap⟩ := keywordLength?_eq_some_iff.1 hm
  have hlength : k.length ≤ cs.length := by
    have := congrArg List.length hmap
    rw [List.length_map, List.length_take] at this
    omega
  have hsolid : ∀ c ∈ cs.take k.length, isBlank c = false := fun c hc =>
    isBlank_of_isWord (isWord_of_capital (hk _ (hmap ▸ List.mem_map_of_mem hc)))
  refine wholeWord_of_take hlength hsolid (hnext.imp_left And.left) ?_
  rcases hnext with ⟨rfl, hend⟩ | ⟨_, b, hb, hblank⟩
  · exact hend
  · rw [atWordEnd_iff]
    intro c hc
    rw [Option.mem_unique hc hb, ← Bool.not_eq_true]
    intro hword
    rw [isBlank_of_isWord hword] at hblank
    cases hblank

theorem wholeWord_of_keywords {ks : List (List Char)} (hne : ks ≠ [])
    (hks : ∀ k ∈ ks, ∀ a ∈ k, isWord a = true) {cs : List Char} {n : Nat}
    (h : keywordsLength? ks cs = some n) (hend : atWordEnd (cs.drop n) = true) :
    WholeWord cs n := by
  rcases ks with _ | ⟨k, _ | ⟨k', ks⟩⟩
  · exact absurd rfl hne
  · exact wholeWord_of_keyword (hks k List.mem_cons_self) h (Or.inl ⟨rfl, hend⟩)
  · obtain ⟨m, gap, more, hm, hspan, hgap, _, rfl⟩ := keywordsLength?_cons_eq_some h
    refine wholeWord_of_keyword (hks k List.mem_cons_self) hm (Or.inr ⟨by omega, ?_⟩)
    obtain ⟨b, hb, hblank⟩ := spanLength_pos_iff.1 (by omega : 0 < spanLength isBlank (cs.drop m))
    exact ⟨b, hb, hblank⟩

theorem isAlpha_of_isDigit {c : Char} (h : isDigit c = true) : c.isAlpha = false := by
  rw [← Bool.not_eq_true]
  intro hc
  have hascii : c.toNat < 128 := toNat_lt_of_isAlphanum (by rw [Char.isAlphanum, hc]; rfl)
  revert h hc
  refine forall_ascii c hascii ?_
  decide +kernel

/-! ## Ends of tokens -/

/-- How a token ends that begins with a letter or a digit. -/
inductive Ends (cs : List Char) (n : Nat) : Prop
  | word (h : atWordEnd (cs.drop n) = true)
  | point (h : '.' ∈ cs.take n)
  /-- A whole number, which gives up its last digit to a letter. -/
  | digits (h : ∀ c ∈ cs.take n, isDigit c = true)
  | exponent {front : List Char} {d : Char} (h : cs.take n = front ++ [d]) (hd : isDigit d = true)
      (hnext : ∀ c ∈ (cs.drop n).head?, isDigit c = false)
  | hex {x : Char} {hs : List Char} (h : cs.take n = '0' :: x :: hs) (hx : capital x = 'X')
      (hne : hs ≠ []) (hhex : ∀ c ∈ hs, Rule.isHexDigit c = true)
      (hnext : ∀ c ∈ (cs.drop n).head?, Rule.isHexDigit c = false)

/-- A token that begins with a letter or a digit. -/
structure Reaches (cs : List Char) (k : TokenKind) (n : Nat) : Prop where
  pos : 0 < n
  inner : InnerTo cs n
  kind : k ≠ .punctuation
  word : k = .name ∨ k = .number ∨ WholeWord cs n
  ends : Ends cs n
  /-- A token that begins with a letter is no number. -/
  letter : (∃ c ∈ cs.head?, c.isAlpha = true) → atWordEnd (cs.drop n) = true

namespace Rule

theorem reaches_name {cs : List Char} {n : Nat} (h : nameLength? cs = some n) :
    Reaches cs .name n := by
  have hinner := innerTo_name h
  obtain ⟨c, rest, rfl, _, rfl⟩ := nameLength?_eq_some h
  have hend : atWordEnd ((c :: rest).drop (spanLength isWord rest + 1)) = true := by
    rw [List.drop_succ_cons, atWordEnd_iff]
    exact spanLength_maximal rest
  exact ⟨Nat.succ_pos _, hinner, by decide, Or.inl rfl, .word hend, fun _ => hend⟩

theorem reaches_qualifyingName {k : TokenKind} {before : Option Char} {cs : List Char} {n : Nat}
    (h : qualifyingName before cs = some (k, n)) : Reaches cs k n := by
  obtain ⟨rfl, hlength⟩ := qualifyingName_eq_some h
  exact reaches_name hlength

theorem reaches_qualifiedName {k : TokenKind} {before : Option Char} {cs : List Char} {n : Nat}
    (h : qualifiedName before cs = some (k, n)) : Reaches cs k n := by
  obtain ⟨rfl, hlength⟩ := qualifiedName_eq_some h
  exact reaches_name hlength

theorem reaches_calledName {k : TokenKind} {before : Option Char} {cs : List Char} {n : Nat}
    (h : calledName before cs = some (k, n)) : Reaches cs k n := by
  obtain ⟨rfl, hlength⟩ := calledName_eq_some h
  exact reaches_name hlength

/-- The words of a list of phrases. -/
def WordPhrases (ps : List (List (List Char))) : Prop :=
  ∀ ks ∈ ps, ks ≠ [] ∧ ∀ k ∈ ks, k ≠ [] ∧ InnerWord k ∧ ∀ a ∈ k, isWord a = true

instance (ps : List (List (List Char))) : Decidable (WordPhrases ps) :=
  inferInstanceAs (Decidable
    (∀ ks ∈ ps, ks ≠ [] ∧ ∀ k ∈ ks, k ≠ [] ∧ InnerWord k ∧ ∀ a ∈ k, isWord a = true))

theorem keywordsLength?_pos {ks : List (List Char)} (hne : ks ≠ []) (hks : ∀ k ∈ ks, k ≠ [])
    {cs : List Char} {n : Nat} (h : keywordsLength? ks cs = some n) : 0 < n := by
  rcases ks with _ | ⟨k, _ | ⟨k', ks⟩⟩
  · exact absurd rfl hne
  · obtain ⟨rfl, _⟩ := keywordLength?_eq_some_iff.1 h
    exact List.length_pos_iff.2 (hks k List.mem_cons_self)
  · obtain ⟨m, gap, more, _, _, hgap, _, rfl⟩ := keywordsLength?_cons_eq_some h
    omega

theorem reaches_phrases {kind k : TokenKind} (hkind : kind ≠ .punctuation)
    {ps : List (List (List Char))} (hps : WordPhrases ps) {before : Option Char} {cs : List Char}
    {n : Nat} (h : phrases kind ps before cs = some (k, n)) : Reaches cs k n := by
  obtain ⟨rfl, ks, hks, hlength, hend⟩ := phrases_eq_some h
  obtain ⟨hne, hwords⟩ := hps ks hks
  exact ⟨keywordsLength?_pos hne (fun k hk => (hwords k hk).1) hlength,
    innerTo_keywords (fun k hk => (hwords k hk).2.1) hlength, hkind,
    Or.inr (Or.inr (wholeWord_of_keywords hne (fun k hk => (hwords k hk).2.2) hlength hend)),
    .word hend, fun _ => hend⟩

theorem reaches_repeatedBatch {k : TokenKind} {before : Option Char} {cs : List Char} {n : Nat}
    (h : repeatedBatch before cs = some (k, n)) : Reaches cs k n := by
  have hinner := staysInside_repeatedBatch before cs k n h
  obtain ⟨rfl, m, c, rest, hm, hdrop, hc, rfl, hend⟩ := repeatedBatch_eq_some h
  refine ⟨by omega, hinner, by decide, Or.inr (Or.inr ?_), .word hend, fun _ => hend⟩
  exact wholeWord_of_keyword (by decide) hm (Or.inr ⟨by omega, c, by rw [hdrop]; rfl, hc⟩)

theorem wordKind_ne_punctuation (cs : List Char) : wordKind cs ≠ .punctuation := by
  simp only [wordKind]
  split_ifs <;> decide

theorem reaches_word {k : TokenKind} {before : Option Char} {cs : List Char} {n : Nat}
    (h : word before cs = some (k, n)) : Reaches cs k n := by
  have hinner := staysInside_word before cs k n h
  obtain ⟨c, rest, rfl, hc, rfl, rfl⟩ := word_eq_some h
  have hend : atWordEnd (rest.drop (spanLength isWordRest rest)) = true := by
    rw [atWordEnd_iff]
    intro d hd
    have := spanLength_maximal rest d hd
    simp only [isWordRest, Bool.or_eq_false_iff] at this
    exact this.1.1
  refine ⟨Nat.succ_pos _, hinner, wordKind_ne_punctuation _, Or.inr (Or.inr ?_), .word hend,
    fun _ => hend⟩
  refine wholeWord_of_take ?_ ?_ (Or.inl rfl) hend
  · rw [List.length_cons]
    exact Nat.succ_le_succ (spanLength_le _ _)
  · rw [List.take_succ_cons]
    refine List.forall_mem_cons.2 ⟨isBlank_of_isWord hc, fun d hd => ?_⟩
    have hrest := forall_mem_take_spanLength (Nat.le_refl _) d hd
    simp only [isWordRest, Bool.or_eq_true, beq_iff_eq] at hrest
    rcases hrest with (hword | rfl) | rfl
    · exact isBlank_of_isWord hword
    · decide
    · decide

/-! ## Numbers without a sign -/

theorem minusLength_cons {c : Char} (hc : c ≠ '-') (rest : List Char) :
    minusLength (c :: rest) = 0 := by
  unfold minusLength
  split
  · rename_i heq
    cases heq
    exact absurd rfl hc
  · rfl

/-- No number begins with a letter. -/
theorem wholeLength_letter {cs : List Char} (h : ∃ c ∈ cs.head?, c.isAlpha = true) :
    minusLength cs = 0 ∧ wholeLength cs = 0 := by
  obtain ⟨c, hc, hletter⟩ := h
  obtain ⟨rest, rfl⟩ : ∃ rest, cs = c :: rest := by
    cases cs with
    | nil => cases hc
    | cons d rest =>
        cases hc
        exact ⟨rest, rfl⟩
  have hdash : c ≠ '-' := by
    rintro rfl
    exact absurd hletter (by decide)
  have hdigit : isDigit c = false := by
    rw [← Bool.not_eq_true]
    intro hdigit
    rw [isAlpha_of_isDigit hdigit] at hletter
    cases hletter
  unfold wholeLength
  rw [minusLength_cons hdash, List.drop_zero, spanLength, hdigit]
  exact ⟨rfl, rfl⟩

theorem reaches_hexNumber {k : TokenKind} {before : Option Char} {c : Char} (hc : c ≠ '-')
    {rest : List Char} {n : Nat} (h : hexNumber before (c :: rest) = some (k, n)) :
    Reaches (c :: rest) k n := by
  have hinner := staysInside_hexNumber before _ k n h
  obtain ⟨rfl, x, digits, hdrop, hx, hne, rfl⟩ := hexNumber_eq_some h
  rw [minusLength_cons hc] at hdrop ⊢
  rw [minusLength_cons hc] at hinner
  rw [List.drop_zero] at hdrop
  rw [hdrop] at hinner ⊢
  have hcount : 0 + 2 + spanLength isHexDigit digits = spanLength isHexDigit digits + 1 + 1 := by
    omega
  rw [hcount] at hinner ⊢
  have hle := spanLength_le isHexDigit digits
  refine ⟨Nat.succ_pos _, hinner, by decide, Or.inr (Or.inl rfl), .hex
    (List.take_succ_cons ..|>.trans (congrArg _ (List.take_succ_cons ..))) hx ?_
    (forall_mem_take_spanLength (Nat.le_refl _)) ?_, ?_⟩
  · intro hnil
    have := congrArg List.length hnil
    rw [List.length_take, List.length_nil] at this
    omega
  · rw [List.drop_succ_cons, List.drop_succ_cons]
    exact spanLength_maximal digits
  · rintro ⟨d, hd, hletter⟩
    cases hd
    exact absurd hletter (by decide)

theorem reaches_exponentNumber {k : TokenKind} {before : Option Char} {cs : List Char} {n : Nat}
    (h : exponentNumber before cs = some (k, n)) : Reaches cs k n := by
  have hinner := staysInside_exponentNumber before _ k n h
  obtain ⟨rfl, hwhole, m, more, _, hmore, rfl⟩ := exponentNumber_eq_some h
  obtain ⟨e, rest, hdrop, _, hne, rfl⟩ := exponentLength?_eq_some hmore
  generalize hrest : rest.drop (minusLength rest) = digits at hne hinner ⊢
  have hdigits : cs.drop (m + (1 + minusLength rest)) = digits := by
    rw [← List.drop_drop, hdrop, Nat.add_comm 1, List.drop_succ_cons, hrest]
  rw [← Nat.add_assoc] at hinner ⊢
  refine ⟨by omega, hinner, by decide, Or.inr (Or.inl rfl), ?_,
    fun hletter => absurd (wholeLength_letter hletter).2 hwhole⟩
  -- The digits of the exponent are a run, and the last of them ends the number.
  have hle := spanLength_le isDigit digits
  rcases List.eq_nil_or_concat (digits.take (spanLength isDigit digits)) with hnil | ⟨front, d, hd⟩
  · have := congrArg List.length hnil
    rw [List.length_take, List.length_nil] at this
    omega
  · rw [List.concat_eq_append] at hd
    have hlast : cs.take (m + (1 + minusLength rest) + spanLength isDigit digits) =
        cs.take (m + (1 + minusLength rest)) ++ front ++ [d] := by
      rw [List.take_add, hdigits, hd, List.append_assoc]
    refine .exponent hlast
      (forall_mem_take_spanLength (Nat.le_refl _) d (by rw [hd]; simp)) ?_
    rw [← List.drop_drop, hdigits]
    exact spanLength_maximal _

theorem reaches_pointNumber {k : TokenKind} {before : Option Char} {cs : List Char} {n : Nat}
    (h : pointNumber before cs = some (k, n)) : Reaches cs k n := by
  have hinner := staysInside_pointNumber before _ k n h
  obtain ⟨rfl, rest, hdrop, hlt, _⟩ := pointNumber_eq_some h
  refine ⟨by omega, hinner, by decide, Or.inr (Or.inl rfl), .point ?_, fun hletter => ?_⟩
  · obtain ⟨j, rfl⟩ := Nat.exists_eq_add_of_lt hlt
    rw [Nat.add_assoc, List.take_add, hdrop, List.take_succ_cons]
    simp
  · obtain ⟨hminus, hwhole⟩ := wholeLength_letter hletter
    rw [hminus, hwhole, List.drop_zero] at hdrop
    obtain ⟨c, hc, hletter⟩ := hletter
    rw [hdrop] at hc
    cases hc
    exact absurd hletter (by decide)

theorem reaches_wholeNumber {k : TokenKind} {before : Option Char} {c : Char} (hc : c ≠ '-')
    {rest : List Char} {n : Nat} (h : wholeNumber before (c :: rest) = some (k, n)) :
    Reaches (c :: rest) k n := by
  have hinner := staysInside_wholeNumber before _ k n h
  obtain ⟨rfl, hcases⟩ := wholeNumber_eq_some h
  have hwhole : wholeLength (c :: rest) ≠ 0 := by omega
  unfold wholeLength at hcases
  rw [minusLength_cons hc, List.drop_zero, Nat.zero_add] at hcases
  have hle : 0 < n ∧ n ≤ spanLength isDigit (c :: rest) := by omega
  exact ⟨hle.1, hinner, by decide, Or.inr (Or.inl rfl), .digits (forall_mem_take_spanLength hle.2),
    fun hletter => absurd (wholeLength_letter hletter).2 hwhole⟩

end Rule

/-! ## Letters and digits -/

/-- The marks that tokens other than words and numbers open with. -/
def openingMarks : List Char :=
  ['$', '/', '-', '#', '\r', '\n', ':', '*', '\x60', '\u00b4', '?', '%', '\\', '@', '\x27', '"', '[',
   ';', '(', ')', ']', ',', '.', '<']

theorem isAlphanum_apart {c : Char} (hc : c.isAlphanum = true) :
    c ∉ openingMarks ∧ isBlank c = false ∧ Rule.isComparison c = false ∧
      Rule.isArithmetic c = false ∧ isWord c = true := by
  have hascii := toNat_lt_of_isAlphanum hc
  revert hc
  refine forall_ascii c hascii ?_
  decide +kernel

/-- Where a letter or a digit stands, the token is a word, a phrase or a number. -/
theorem firstMatch_reaches {c : Char} (hc : c.isAlphanum = true) {rest : List Char}
    {before : Option Char} (htime : Rule.timeZone before (c :: rest) = none) {k : TokenKind} {n : Nat}
    (h : firstMatch before (c :: rest) = (k, n)) : Reaches (c :: rest) k n := by
  obtain ⟨hmarks, hblank, hcomparison, harithmetic, hword⟩ := isAlphanum_apart hc
  have hdash : c ≠ '-' := fun hd => hmarks (by simp [hd, openingMarks])
  have hopens : ∀ {marks : List Char} {kinds : List TokenKind} {r : Rule}, r.OpensWith marks kinds →
      marks ⊆ openingMarks → r before (c :: rest) = some (k, n) → Reaches (c :: rest) k n := by
    intro marks kinds r hr hsub hm
    rw [hr.eq_none (fun d hd hmem => by cases hd; exact hmarks (hsub hmem))] at hm
    cases hm
  have hspan : ∀ {kind : TokenKind} {p : Char → Bool}, p c = false →
      Rule.run kind p before (c :: rest) = some (k, n) → Reaches (c :: rest) k n := by
    intro kind p hp hm
    obtain ⟨_, rfl, hpos⟩ := Rule.run_eq_some hm
    rw [spanLength, hp] at hpos
    cases hpos
  have hspace : Rule.blank before (c :: rest) = some (k, n) → Reaches (c :: rest) k n := by
    intro hm
    simp [Rule.blank, hblank] at hm
  have hzone : Rule.timeZone before (c :: rest) = some (k, n) → Reaches (c :: rest) k n := by
    intro hm
    rw [htime] at hm
    cases hm
  rcases firstMatch_cases h with ⟨r, hr, hm⟩ | ⟨hnone, _⟩
  · revert r
    simp only [rules, List.forall_mem_cons]
    exact ⟨hopens Rule.opensWith_dollarString (by decide),
      hopens Rule.opensWith_blockComment (by decide), hopens Rule.opensWith_lineComment (by decide),
      hopens Rule.opensWith_newline (by decide), hspace, hopens Rule.opensWith_shortMark (by decide),
      hopens (Rule.opensWith_markedName _) (by decide),
      hopens (Rule.opensWith_markedName _) (by decide),
      hopens Rule.opensWith_placeholder (by decide), hopens Rule.opensWith_markedWord (by decide),
      hopens Rule.opensWith_command (by decide),
      Rule.reaches_phrases (by decide) (by decide +kernel), hopens Rule.opensWith_sigilName (by decide),
      Rule.reaches_qualifyingName, Rule.reaches_qualifiedName, Rule.reaches_calledName,
      Rule.reaches_hexNumber hdash, Rule.reaches_exponentNumber, Rule.reaches_pointNumber,
      Rule.reaches_wholeNumber hdash, hopens (Rule.opensWith_quotedString _) (by decide),
      hopens (Rule.opensWith_quotedString _) (by decide),
      hopens Rule.opensWith_bracketedName (by decide),
      Rule.reaches_phrases (by decide) (by decide +kernel),
      Rule.reaches_phrases (by decide) (by decide +kernel),
      Rule.reaches_phrases (by decide) (by decide +kernel),
      Rule.reaches_phrases (by decide) (by decide +kernel),
      Rule.reaches_phrases (by decide) (by decide +kernel),
      Rule.reaches_phrases (by decide) (by decide +kernel),
      Rule.reaches_phrases (by decide) (by decide +kernel),
      Rule.reaches_phrases (by decide) (by decide +kernel), Rule.reaches_repeatedBatch,
      Rule.reaches_phrases (by decide) (by decide +kernel), hzone,
      Rule.reaches_phrases (by decide) (by decide +kernel), Rule.reaches_word,
      hopens Rule.opensWith_punctuation (by decide),
      hopens Rule.opensWith_documentOperator (by decide), hspan hcomparison, hspan harithmetic,
      by simp⟩
  · have hmatch := hnone Rule.word (by simp [rules])
    simp [Rule.word, hword] at hmatch

end TableScript.Sql
