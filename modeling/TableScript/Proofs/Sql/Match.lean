import Mathlib.Tactic.SplitIfs
import TableScript.Sql.Lexer

/-!
# What rules match

A rule that is about a mark matches only where the mark stands, and gives tokens of few kinds. The
token at a place is the match of some rule, or a single character that no rule knows. Blank tokens
consist of blanks, and where a blank stands the token is blank.
-/

namespace TableScript.Sql

open TableScript.Text

/-! ## Characters of a list -/

/-- What is said of the characters of a list is decided along the list, not over all characters. -/
instance (priority := high) decidableForallMemChar {p : Char → Prop} [DecidablePred p]
    (l : List Char) : Decidable (∀ c ∈ l, p c) := List.decidableBAll p l

instance (priority := high) decidableForallMemOptionChar {p : Char → Prop} [DecidablePred p]
    (o : Option Char) : Decidable (∀ c ∈ o, p c) := Option.decidableForallMem o

/-! ## Runs and keywords -/

theorem forall_mem_take_spanLength {p : Char → Bool} {cs : List Char} {n : Nat}
    (hn : n ≤ spanLength p cs) : ∀ c ∈ cs.take n, p c = true := by
  induction cs generalizing n with
  | nil => simp
  | cons c cs ih =>
      unfold spanLength at hn
      cases n with
      | zero => simp
      | succ n =>
          by_cases hc : p c = true
          · rw [if_pos hc] at hn
            rw [List.take_succ_cons]
            exact List.forall_mem_cons.2 ⟨hc, ih (by omega)⟩
          · rw [if_neg hc] at hn
            omega

theorem spanLength_le (p : Char → Bool) (cs : List Char) : spanLength p cs ≤ cs.length := by
  induction cs with
  | nil => exact Nat.le_refl _
  | cons c cs ih =>
      unfold spanLength
      rw [List.length_cons]
      split <;> omega

theorem spanLength_pos_iff {p : Char → Bool} {cs : List Char} :
    0 < spanLength p cs ↔ ∃ c, cs.head? = some c ∧ p c = true := by
  cases cs with
  | nil => simp [spanLength]
  | cons c rest => by_cases hc : p c = true <;> simp [spanLength, hc]

theorem spanLength_append {p : Char → Bool} {cs rest : List Char} (h : ∀ c ∈ cs, p c = true) :
    spanLength p (cs ++ rest) = cs.length + spanLength p rest := by
  induction cs with
  | nil => simp
  | cons c cs ih =>
      obtain ⟨hc, hcs⟩ := List.forall_mem_cons.1 h
      simp only [List.cons_append, spanLength, hc, if_true, ih hcs, List.length_cons]
      omega

theorem keywordLength?_eq_some_iff {ks cs : List Char} {n : Nat} :
    keywordLength? ks cs = some n ↔ n = ks.length ∧ (cs.take n).map capital = ks := by
  induction ks generalizing cs n with
  | nil =>
      cases n <;> simp [keywordLength?]
  | cons k ks ih =>
      cases cs with
      | nil => simp [keywordLength?]
      | cons c rest =>
          unfold keywordLength?
          by_cases hc : capital c = k
          · rw [if_pos hc, Option.map_eq_some_iff]
            constructor
            · rintro ⟨m, hm, rfl⟩
              obtain ⟨hlen, htake⟩ := ih.1 hm
              exact ⟨by simp [hlen], by simp [hc, htake]⟩
            · rintro ⟨rfl, htake⟩
              rw [List.length_cons, List.take_succ_cons, List.map_cons, List.cons.injEq] at htake
              exact ⟨ks.length, ih.2 ⟨rfl, htake.2⟩, rfl⟩
          · rw [if_neg hc]
            refine iff_of_false (by simp) ?_
            rintro ⟨rfl, htake⟩
            rw [List.length_cons, List.take_succ_cons, List.map_cons, List.cons.injEq] at htake
            exact hc htake.1

/-! ## The marks that tokens open with -/

namespace Rule

theorem ofLength_eq_some {kind k : TokenKind} {length? : List Char → Option Nat}
    {before : Option Char} {cs : List Char} {n : Nat} :
    ofLength kind length? before cs = some (k, n) ↔ k = kind ∧ length? cs = some n := by
  unfold ofLength
  cases length? cs <;> simp [eq_comm]

/-- Every token of the rule begins with one of the given characters and is of one of the given
kinds. -/
def OpensWith (marks : List Char) (kinds : List TokenKind) (r : Rule) : Prop :=
  ∀ before cs k n, r before cs = some (k, n) → (∃ c ∈ marks, cs.head? = some c) ∧ k ∈ kinds

theorem OpensWith.eq_none {marks : List Char} {kinds : List TokenKind} {r : Rule}
    (h : OpensWith marks kinds r) {cs : List Char} (hc : ∀ c ∈ cs.head?, c ∉ marks)
    (before : Option Char) : r before cs = none := by
  cases hm : r before cs with
  | none => rfl
  | some m =>
      obtain ⟨c, hmark, hhead⟩ := (h before cs m.1 m.2 hm).1
      exact absurd hmark (hc c hhead)

theorem opensWith_dollarString : OpensWith ['$'] [.dollarString] dollarString := by
  intro before cs k n h
  unfold dollarString at h
  cases hm : dollarMark? cs with
  | none => simp [hm] at h
  | some m =>
      have hhead : cs.head? = some '$' := by
        unfold dollarMark? at hm
        split at hm <;> first | rfl | cases hm
      simp only [hm] at h
      split at h
      · cases h
      · obtain ⟨_, _, h⟩ := Option.map_eq_some_iff.1 h
        cases h
        exact ⟨⟨'$', by simp, hhead⟩, by simp⟩

theorem opensWith_blockComment : OpensWith ['/'] [.blockComment, .blockHint] blockComment := by
  intro before cs k n h
  unfold blockComment at h
  split at h
  · obtain ⟨_, _, h⟩ := Option.map_eq_some_iff.1 h
    cases h
    refine ⟨⟨'/', by simp, rfl⟩, ?_⟩
    split <;> simp
  · cases h

theorem opensWith_lineComment : OpensWith ['-', '#'] [.lineComment, .lineHint] lineComment := by
  intro before cs k n h
  unfold lineComment at h
  split at h
  · cases h
    refine ⟨⟨'-', by simp, rfl⟩, ?_⟩
    split <;> simp
  · cases h
    refine ⟨⟨'#', by simp, rfl⟩, ?_⟩
    split <;> simp
  · cases h

theorem opensWith_newline : OpensWith ['\r', '\n'] [.newline] newline := by
  intro before cs k n h
  unfold newline at h
  split at h <;> cases h <;> simp

theorem opensWith_shortMark :
    OpensWith [':', '*'] [.assignment, .punctuation, .wildcard] shortMark := by
  intro before cs k n h
  unfold shortMark at h
  split at h <;> cases h <;> simp

theorem opensWith_markedName (mark : Char) : OpensWith [mark] [.name] (markedName mark) := by
  intro before cs k n h
  unfold markedName at h
  split at h
  · split at h
    · rename_i hc
      obtain ⟨_, _, h⟩ := Option.map_eq_some_iff.1 h
      cases h
      simp [hc]
    · cases h
  · cases h

theorem opensWith_placeholder : OpensWith ['?', '%'] [.placeholder] placeholder := by
  intro before cs k n h
  unfold placeholder at h
  split at h
  · cases h
    simp
  · obtain ⟨_, _, h⟩ := Option.map_eq_some_iff.1 h
    cases h
    simp
  · cases h

theorem opensWith_markedWord : OpensWith ['$', ':'] [.placeholder] markedWord := by
  intro before cs k n h
  unfold markedWord at h
  split at h
  · split at h
    · rename_i hc
      simp only at h
      split at h
      · cases h
      · cases h
        simpa using hc.1
    · cases h
  · cases h

theorem opensWith_command : OpensWith ['\\'] [.command] command := by
  intro before cs k n h
  unfold command at h
  split at h
  · simp only at h
    split at h
    · cases h
    · cases h
      simp
  · cases h

theorem sigilName_eq_some {before : Option Char} {cs : List Char} {k : TokenKind} {n : Nat}
    (h : sigilName before cs = some (k, n)) : ∃ marks name m, cs = marks ++ name ∧
      marks ∈ [['@'], ['#', '#'], ['#']] ∧ nameLength? name = some m ∧ k = .name ∧
        n = marks.length + m := by
  unfold sigilName at h
  simp only at h
  split at h <;> (try split at h) <;> (try split at h)
  all_goals cases h
  · exact ⟨['@'], _, _, rfl, by simp, ‹_›, rfl, rfl⟩
  · exact ⟨['#', '#'], _, _, rfl, by simp, ‹_›, rfl, rfl⟩
  · exact ⟨['#'], _, _, rfl, by simp, ‹_›, rfl, rfl⟩

theorem opensWith_sigilName : OpensWith ['@', '#'] [.name] sigilName := by
  intro before cs k n h
  obtain ⟨marks, name, m, rfl, hmarks, -, rfl, -⟩ := sigilName_eq_some h
  simp only [List.mem_cons, List.not_mem_nil, or_false] at hmarks
  rcases hmarks with rfl | rfl | rfl <;> simp

theorem opensWith_quotedString (mark : Char) :
    OpensWith [mark] [.string] (quotedString mark) := by
  intro before cs k n h
  unfold quotedString at h
  split at h
  · split at h
    · rename_i hc
      obtain ⟨_, _, h⟩ := Option.map_eq_some_iff.1 h
      cases h
      simp [hc]
    · cases h
  · cases h

theorem opensWith_bracketedName : OpensWith ['['] [.name] bracketedName := by
  intro before cs k n h
  unfold bracketedName at h
  split at h
  · split at h
    · cases h
    · simp only at h
      split at h
      · split at h
        · cases h
        · cases h
          simp
      · cases h
  · cases h

theorem opensWith_punctuation :
    OpensWith [';', ':', '(', ')', '[', ']', ',', '.'] [.punctuation] punctuation := by
  intro before cs k n h
  unfold punctuation at h
  split at h
  · split at h
    · rename_i hc
      cases h
      simpa [isPunctuation, or_assoc] using hc
    · cases h
  · cases h

theorem opensWith_documentOperator :
    OpensWith ['-', '#', '@', '<'] [.operator] documentOperator := by
  intro before cs k n h
  obtain ⟨rfl, hlength⟩ := ofLength_eq_some.1 h
  split at hlength <;> cases hlength <;> simp

theorem run_eq_some {kind k : TokenKind} {p : Char → Bool} {before : Option Char} {cs : List Char}
    {n : Nat} (h : run kind p before cs = some (k, n)) :
    k = kind ∧ n = spanLength p cs ∧ 0 < n := by
  obtain ⟨hk, hlength⟩ := ofLength_eq_some.1 h
  simp only at hlength
  split at hlength
  · cases hlength
  · cases hlength
    exact ⟨hk, rfl, by omega⟩

end Rule

theorem firstMatch_cases {before : Option Char} {cs : List Char} {k : TokenKind} {n : Nat}
    (h : firstMatch before cs = (k, n)) :
    (∃ rule ∈ rules, rule before cs = some (k, n)) ∨
      ((∀ rule ∈ rules, rule before cs = none) ∧ k = .unknown ∧ n = 1) := by
  unfold firstMatch at h
  cases hf : rules.findSome? fun rule => rule before cs with
  | none =>
      rw [hf] at h
      cases h
      exact Or.inr ⟨List.findSome?_eq_none_iff.1 hf, rfl, rfl⟩
  | some m =>
      rw [hf] at h
      cases h
      exact Or.inl (List.exists_of_findSome?_eq_some hf)

namespace Rule

/-- Tokens of the rule that count as white space are blank. -/
def WhiteIsBlank (r : Rule) : Prop :=
  ∀ before cs k n, r before cs = some (k, n) → k.isWhitespace = true →
    0 < n ∧ ∀ c ∈ cs.take n, isBlank c = true

theorem OpensWith.whiteIsBlank {marks : List Char} {kinds : List TokenKind} {r : Rule}
    (h : OpensWith marks kinds r) (hkinds : kinds.all (!·.isWhitespace) = true) :
    WhiteIsBlank r := by
  intro before cs k n hm hk
  have := List.all_eq_true.1 hkinds k (h before cs k n hm).2
  simp [hk] at this

theorem whiteIsBlank_ofLength {kind : TokenKind} (hkind : kind.isWhitespace = false)
    (length? : List Char → Option Nat) : WhiteIsBlank (ofLength kind length?) := by
  intro before cs k n hm hk
  rw [(ofLength_eq_some.1 hm).1, hkind] at hk
  cases hk

theorem whiteIsBlank_newline : WhiteIsBlank newline := by
  intro before cs k n h hk
  unfold newline at h
  split at h <;> cases h <;> simp <;> decide

theorem whiteIsBlank_blank : WhiteIsBlank blank := by
  intro before cs k n h hk
  unfold blank at h
  split at h
  · split at h
    · cases h
      simpa
    · cases h
  · cases h

theorem whiteIsBlank_qualifiedName : WhiteIsBlank qualifiedName := by
  intro before cs k n h hk
  unfold qualifiedName at h
  split at h
  · obtain ⟨_, _, h⟩ := Option.map_eq_some_iff.1 h
    cases h
    cases hk
  · cases h

theorem wordKind_isWhitespace (cs : List Char) : (wordKind cs).isWhitespace = false := by
  simp only [wordKind]
  split_ifs <;> rfl

theorem whiteIsBlank_word : WhiteIsBlank word := by
  intro before cs k n h hk
  unfold word at h
  split at h
  · split at h
    · cases h
      rw [wordKind_isWhitespace] at hk
      cases hk
    · cases h
  · cases h

theorem whiteIsBlank_rules : ∀ r ∈ rules, WhiteIsBlank r := by
  simp only [rules, List.forall_mem_cons]
  exact ⟨opensWith_dollarString.whiteIsBlank rfl, opensWith_blockComment.whiteIsBlank rfl,
    opensWith_lineComment.whiteIsBlank rfl, whiteIsBlank_newline, whiteIsBlank_blank,
    opensWith_shortMark.whiteIsBlank rfl, (opensWith_markedName _).whiteIsBlank rfl,
    (opensWith_markedName _).whiteIsBlank rfl, opensWith_placeholder.whiteIsBlank rfl,
    opensWith_markedWord.whiteIsBlank rfl, opensWith_command.whiteIsBlank rfl,
    whiteIsBlank_ofLength rfl _, opensWith_sigilName.whiteIsBlank rfl, whiteIsBlank_ofLength rfl _,
    whiteIsBlank_qualifiedName, whiteIsBlank_ofLength rfl _, whiteIsBlank_ofLength rfl _,
    whiteIsBlank_ofLength rfl _, whiteIsBlank_ofLength rfl _, whiteIsBlank_ofLength rfl _,
    (opensWith_quotedString _).whiteIsBlank rfl, (opensWith_quotedString _).whiteIsBlank rfl,
    opensWith_bracketedName.whiteIsBlank rfl, whiteIsBlank_ofLength rfl _, whiteIsBlank_ofLength rfl _,
    whiteIsBlank_ofLength rfl _, whiteIsBlank_ofLength rfl _, whiteIsBlank_ofLength rfl _,
    whiteIsBlank_ofLength rfl _, whiteIsBlank_ofLength rfl _, whiteIsBlank_ofLength rfl _,
    whiteIsBlank_ofLength rfl _, whiteIsBlank_ofLength rfl _, whiteIsBlank_ofLength rfl _,
    whiteIsBlank_ofLength rfl _, whiteIsBlank_word, opensWith_punctuation.whiteIsBlank rfl,
    whiteIsBlank_ofLength rfl _, whiteIsBlank_ofLength rfl _, whiteIsBlank_ofLength rfl _, by simp⟩

end Rule

/-- Where a blank stands, the token is blank. -/
theorem firstMatch_blank (before : Option Char) {c : Char} (hc : isBlank c = true)
    (rest : List Char) : (firstMatch before (c :: rest)).1.isWhitespace = true := by
  have hnone : ∀ {marks : List Char} {kinds : List TokenKind} {r : Rule},
      Rule.OpensWith marks kinds r → marks.all (!isBlank ·) = true → r before (c :: rest) = none := by
    intro marks kinds r hr hmarks
    refine hr.eq_none ?_ before
    intro d hd hmem
    cases hd
    simpa [hc] using List.all_eq_true.1 hmarks c hmem
  have hblank : Rule.blank before (c :: rest) = some (.blank, 1) := by simp [Rule.blank, hc]
  unfold firstMatch rules
  rw [List.findSome?_cons_of_isNone (by rw [hnone Rule.opensWith_dollarString (by decide)]; rfl),
    List.findSome?_cons_of_isNone (by rw [hnone Rule.opensWith_blockComment (by decide)]; rfl),
    List.findSome?_cons_of_isNone (by rw [hnone Rule.opensWith_lineComment (by decide)]; rfl)]
  cases hm : Rule.newline before (c :: rest) with
  | none => simp [hm, hblank, TokenKind.isWhitespace]
  | some m =>
      have hkind := (Rule.opensWith_newline _ _ _ _ hm).2
      simp only [List.mem_singleton] at hkind
      simp [hm, hkind, TokenKind.isWhitespace]

end TableScript.Sql
