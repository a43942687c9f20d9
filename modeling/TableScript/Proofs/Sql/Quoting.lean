import TableScript.Sql.Quoting

/-!
# Quoted names and literals read back

Reading what was written gives back the name or the text and leaves what follows, exactly if what
follows does not begin with another closing mark: a reader that takes a mark written twice for one
never stops before such a mark. So two quoted names that begin the same text are equal, and the same
text follows them.
-/

namespace TableScript.Sql

/-! ## Marks that are written twice -/

theorem readToMark_cons_of_ne {mark c : Char} (h : c ≠ mark) (rest : List Char) :
    readToMark mark (c :: rest) = (readToMark mark rest).map fun r => (c :: r.1, r.2) := by
  cases rest with
  | nil => simp [readToMark, h]
  | cons d rest => simp [readToMark, h]

theorem readToMark_mark {mark : Char} {rest : List Char} (h : rest.head? ≠ some mark) :
    readToMark mark (mark :: rest) = some ([], rest) := by
  cases rest with
  | nil => simp [readToMark]
  | cons d rest =>
      have hd : d ≠ mark := by simpa using h
      simp [readToMark, hd]

theorem readToMark_double {mark : Char} (cs : List Char) {rest : List Char}
    (h : rest.head? ≠ some mark) :
    readToMark mark (double mark cs ++ mark :: rest) = some (cs, rest) := by
  induction cs with
  | nil => exact readToMark_mark h
  | cons c cs ih =>
      by_cases hc : c = mark
      · subst hc
        simp [double, readToMark, ih]
      · have hd : double mark (c :: cs) = c :: double mark cs := by simp [double, hc]
        rw [hd, List.cons_append, readToMark_cons_of_ne hc, ih]
        rfl

/-- What a reading leaves does not begin with the mark that ended it. -/
theorem head?_of_readToMark {mark : Char} {cs : List Char} {r : List Char × List Char}
    (h : readToMark mark cs = some r) : r.2.head? ≠ some mark := by
  fun_induction readToMark mark cs generalizing r with
  | case1 => cases h
  | case2 =>
      cases h
      simp
  | case3 => cases h
  | case4 rest ih =>
      obtain ⟨tail, htail, rfl⟩ := Option.map_eq_some_iff.1 h
      simpa using ih htail
  | case5 d rest hd =>
      cases h
      simpa using hd
  | case6 c d rest _ ih =>
      obtain ⟨tail, htail, rfl⟩ := Option.map_eq_some_iff.1 h
      simpa using ih htail

theorem readToMark_double_iff {mark : Char} {cs rest : List Char} :
    readToMark mark (double mark cs ++ mark :: rest) = some (cs, rest) ↔
      rest.head? ≠ some mark :=
  ⟨head?_of_readToMark, readToMark_double cs⟩

theorem readName_encloseName_iff {opening closing : Char} {cs rest : List Char} :
    readName opening closing (encloseName opening closing cs ++ rest) = some (cs, rest) ↔
      rest.head? ≠ some closing := by
  simp only [encloseName, List.cons_append, List.append_assoc, List.nil_append, readName, if_true]
  exact readToMark_double_iff

/-! ## Marks that are escaped -/

theorem readEscaped_backslash (pairs : Bool) (c : Char) (rest : List Char) :
    readEscaped pairs ('\\' :: c :: rest) =
      (readEscaped pairs rest).map fun r => (c :: r.1, r.2) := by
  simp [readEscaped]

theorem readEscaped_pair (rest : List Char) :
    readEscaped true ('\x27' :: '\x27' :: rest) =
      (readEscaped true rest).map fun r => ('\x27' :: r.1, r.2) := by
  simp [readEscaped]

theorem readEscaped_cons {pairs : Bool} {c : Char} (hb : c ≠ '\\') (hq : c ≠ '\x27')
    (rest : List Char) :
    readEscaped pairs (c :: rest) = (readEscaped pairs rest).map fun r => (c :: r.1, r.2) := by
  rw [readEscaped.eq_def]
  split
  · simp_all
  · simp_all
  · simp_all
  · rename_i heq
    cases heq
    rw [if_neg hq, if_neg hb]

theorem readEscaped_quote {pairs : Bool} {rest : List Char}
    (h : pairs = true → rest.head? ≠ some '\x27') :
    readEscaped pairs ('\x27' :: rest) = some ([], rest) := by
  cases rest with
  | nil => simp [readEscaped]
  | cons d rest =>
      by_cases hd : d = '\x27'
      · subst hd
        have hp : pairs = false := by
          cases pairs with
          | false => rfl
          | true => exact absurd rfl (h rfl)
        simp [readEscaped, hp]
      · simp [readEscaped, hd]

theorem readEscaped_double (cs : List Char) {rest : List Char} (h : rest.head? ≠ some '\x27') :
    readEscaped true (double '\x27' (double '\\' cs) ++ '\x27' :: rest) = some (cs, rest) := by
  induction cs with
  | nil => exact readEscaped_quote fun _ => h
  | cons c cs ih =>
      by_cases hb : c = '\\'
      · subst hb
        have hd : double '\x27' (double '\\' ('\\' :: cs)) =
            '\\' :: '\\' :: double '\x27' (double '\\' cs) := by simp [double]
        rw [hd, List.cons_append, List.cons_append, readEscaped_backslash, ih]
        rfl
      · by_cases hq : c = '\x27'
        · subst hq
          have hd : double '\x27' (double '\\' ('\x27' :: cs)) =
              '\x27' :: '\x27' :: double '\x27' (double '\\' cs) := by simp [double]
          rw [hd, List.cons_append, List.cons_append, readEscaped_pair, ih]
          rfl
        · have hd : double '\x27' (double '\\' (c :: cs)) =
              c :: double '\x27' (double '\\' cs) := by simp [double, hb, hq]
          rw [hd, List.cons_append, readEscaped_cons hb hq, ih]
          rfl

/-- What is left after apostrophes that are written twice does not begin with one. -/
theorem head?_of_readEscaped {cs : List Char} {r : List Char × List Char}
    (h : readEscaped true cs = some r) : r.2.head? ≠ some '\x27' := by
  fun_induction readEscaped true cs generalizing r with
  | case1 => cases h
  | case2 c rest ih =>
      obtain ⟨tail, htail, rfl⟩ := Option.map_eq_some_iff.1 h
      simpa using ih htail
  | case3 rest _ ih =>
      obtain ⟨tail, htail, rfl⟩ := Option.map_eq_some_iff.1 h
      simpa using ih htail
  | case4 rest hpairs => exact absurd rfl hpairs
  | case5 rest _ hrest =>
      cases h
      intro hhead
      obtain ⟨tail, rfl⟩ := List.head?_eq_some_iff.1 hhead
      exact hrest tail rfl rfl
  | case6 => cases h
  | case7 c rest _ _ _ _ ih =>
      obtain ⟨tail, htail, rfl⟩ := Option.map_eq_some_iff.1 h
      simpa using ih htail

theorem readEscaped_double_iff {cs rest : List Char} :
    readEscaped true (double '\x27' (double '\\' cs) ++ '\x27' :: rest) = some (cs, rest) ↔
      rest.head? ≠ some '\x27' :=
  ⟨head?_of_readEscaped, readEscaped_double cs⟩

theorem readEscaped_escaped (cs rest : List Char) :
    readEscaped false (LiteralStyle.escaped.inside cs ++ '\x27' :: rest) = some (cs, rest) := by
  induction cs with
  | nil => exact readEscaped_quote fun hp => by cases hp
  | cons c cs ih =>
      by_cases hc : c = '\\' ∨ c = '\x27'
      · have hd : LiteralStyle.escaped.inside (c :: cs) =
            '\\' :: c :: LiteralStyle.escaped.inside cs := by
          simp [LiteralStyle.inside, hc]
        rw [hd, List.cons_append, List.cons_append, readEscaped_backslash, ih]
        rfl
      · have hd : LiteralStyle.escaped.inside (c :: cs) =
            c :: LiteralStyle.escaped.inside cs := by
          simp [LiteralStyle.inside, hc]
        rw [not_or] at hc
        rw [hd, List.cons_append, readEscaped_cons hc.1 hc.2, ih]
        rfl

/-! ## What begins a text -/

theorem encloseName_append_inj {opening closing : Char} {xs ys s t : List Char}
    (hs : s.head? ≠ some closing) (ht : t.head? ≠ some closing)
    (h : encloseName opening closing xs ++ s = encloseName opening closing ys ++ t) :
    xs = ys ∧ s = t := by
  have hread := congrArg (readName opening closing) h
  rw [readName_encloseName_iff.2 hs, readName_encloseName_iff.2 ht] at hread
  simpa using hread

end TableScript.Sql
