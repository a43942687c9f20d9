import TableScript.Proofs.Sql.Match
import TableScript.Sql.Quoting

/-!
# Quoted texts as tokens

A name or a literal whose marks are written twice is one token, from its opening to its closing mark,
unless it holds a backslash: before a mark the lexer takes that for an escape. Single marks are
tokens of their own, whatever stands before or after them.
-/

namespace TableScript.Sql

open TableScript.Text

/-! ## Places where the character before does not matter -/

/-- But for names after a point and what a dollar sign, a colon or a bracket opens, a token does not
depend on the character before it. -/
theorem firstMatch_before {cs : List Char} {before : Option Char}
    (hname : before = some '.' → Rule.nameLength? cs = none)
    (hmark : ∀ c ∈ cs.head?, c ∉ ['$', ':', '[']) : firstMatch before cs = firstMatch none cs := by
  have hnone : ∀ {kinds : List TokenKind} {marks : List Char} {r : Rule},
      r.OpensWith marks kinds → marks ⊆ ['$', ':', '['] → r before cs = r none cs :=
    fun hr hsub => (hr.eq_none (fun c hc hmem => hmark c hc (hsub hmem)) _).trans
      (hr.eq_none (fun c hc hmem => hmark c hc (hsub hmem)) _).symm
  have hqualified : Rule.qualifiedName before cs = Rule.qualifiedName none cs := by
    by_cases hpoint : before = some '.'
    · simp [Rule.qualifiedName, hname hpoint]
    · simp [Rule.qualifiedName, hpoint]
  have hrules : ∀ r ∈ rules, r before cs = r none cs := by
    simp only [rules, List.forall_mem_cons, hnone Rule.opensWith_dollarString (by simp),
      hnone Rule.opensWith_markedWord (by simp), hnone Rule.opensWith_bracketedName (by simp),
      hqualified, true_and]
    refine ⟨rfl, rfl, rfl, rfl, rfl, rfl, rfl, rfl, rfl, rfl, rfl, rfl, rfl, rfl, rfl, rfl, rfl, rfl,
      rfl, rfl, rfl, rfl, rfl, rfl, rfl, rfl, rfl, rfl, rfl, rfl, rfl, rfl, rfl, rfl, rfl, rfl,
      by simp⟩
  have hfind : ∀ l : List Rule, (∀ r ∈ l, r before cs = r none cs) →
      l.findSome? (fun r => r before cs) = l.findSome? fun r => r none cs := by
    intro l hl
    induction l with
    | nil => rfl
    | cons r l ih =>
        obtain ⟨hr, hl⟩ := List.forall_mem_cons.1 hl
        rw [List.findSome?_cons, List.findSome?_cons, hr, ih hl]
  unfold firstMatch
  rw [hfind rules hrules]

theorem findSome?_rules {count : Nat} {r : Rule} (hr : rules[count]? = some r)
    (before : Option Char) (cs : List Char) :
    rules.findSome? (fun rule => rule before cs) =
      ((rules.take count).findSome? fun rule => rule before cs).or ((r before cs).or
        ((rules.drop (count + 1)).findSome? fun rule => rule before cs)) := by
  have hsplit : rules = rules.take count ++ r :: rules.drop (count + 1) := by
    obtain ⟨hlt, hget⟩ := List.getElem?_eq_some_iff.1 hr
    rw [← hget, ← List.drop_eq_getElem_cons hlt, List.take_append_drop]
  refine (congrArg (List.findSome? fun rule => rule before cs) hsplit).trans ?_
  rw [List.findSome?_append, List.findSome?_cons]
  cases r before cs <;> rfl

/-- The first rules that match nothing may be passed over. -/
theorem firstMatch_eq_of_drop {before : Option Char} {cs : List Char} {m : TokenKind × Nat}
    (count : Nat) {r : Rule} (hr : rules[count]? = some r)
    (hfront : (rules.take count).findSome? (fun rule => rule before cs) = none)
    (hm : r before cs = some m) : firstMatch before cs = m := by
  have hfind : rules.findSome? (fun rule => rule before cs) = some m := by
    rw [findSome?_rules hr, hfront, hm]
    rfl
  rw [firstMatch, hfind]
  rfl

/-- So may one rule after them that is known to match nothing. -/
theorem firstMatch_eq_of_none {before : Option Char} {cs : List Char} {m : TokenKind × Nat}
    (count : Nat) {r : Rule} (hr : rules[count]? = some r)
    (hfront : (rules.take count).findSome? (fun rule => rule before cs) = none)
    (hnone : r before cs = none)
    (hback : (rules.drop (count + 1)).findSome? (fun rule => rule before cs) = some m) :
    firstMatch before cs = m := by
  have hfind : rules.findSome? (fun rule => rule before cs) = some m := by
    rw [findSome?_rules hr, hfront, hnone, hback]
    rfl
  rw [firstMatch, hfind]
  rfl

theorem tokensFrom_cons {before : Option Char} {c : Char} {rest : List Char} {k : TokenKind}
    {n : Nat} (h : firstMatch before (c :: rest) = (k, n + 1)) :
    tokensFrom before (c :: rest) =
      ⟨k, c :: rest.take n⟩ :: tokensFrom (c :: rest.take n).getLast? (rest.drop n) := by
  rw [tokensFrom, h]
  rfl

/-! ## Single marks -/

theorem tokensFrom_space (before : Option Char) (rest : List Char) :
    tokensFrom before (' ' :: rest) = ⟨.blank, [' ']⟩ :: tokensFrom (some ' ') rest :=
  tokensFrom_cons (n := 0) rfl

theorem tokensFrom_newline (before : Option Char) (rest : List Char) :
    tokensFrom before ('\n' :: rest) = ⟨.newline, ['\n']⟩ :: tokensFrom (some '\n') rest :=
  tokensFrom_cons (n := 0) rfl

theorem tokensFrom_mark {c : Char} (hc : c ∈ [',', '(', ')', ';']) (before : Option Char)
    (rest : List Char) :
    tokensFrom before (c :: rest) = ⟨.punctuation, [c]⟩ :: tokensFrom (some c) rest := by
  refine tokensFrom_cons (n := 0) ?_
  simp only [List.mem_cons, List.not_mem_nil, or_false] at hc
  rcases hc with rfl | rfl | rfl | rfl
  · exact (firstMatch_before (fun _ => rfl) (by simp)).trans rfl
  · exact (firstMatch_before (fun _ => rfl) (by simp)).trans rfl
  · exact (firstMatch_before (fun _ => rfl) (by simp)).trans rfl
  · exact (firstMatch_before (fun _ => rfl) (by simp)).trans rfl

/-- A point that no digit follows. -/
theorem tokensFrom_point {c : Char} (hc : isDigit c = false) (before : Option Char)
    (rest : List Char) :
    tokensFrom before ('.' :: c :: rest) =
      ⟨.punctuation, ['.']⟩ :: tokensFrom (some '.') (c :: rest) := by
  have hnumber : Rule.pointNumber none ('.' :: c :: rest) = none := by
    have hpoint : isDigit '.' = false := by decide
    simp [Rule.pointNumber, Rule.ofLength, Rule.minusLength, spanLength, hpoint, hc]
  refine tokensFrom_cons (n := 0) ((firstMatch_before (fun _ => rfl) (by simp)).trans ?_)
  exact firstMatch_eq_of_none 18 rfl rfl hnumber rfl

/-! ## Quoted texts -/

theorem escapedLength?_mark {mark : Char} {rest : List Char} (h : rest.head? ≠ some mark) :
    Rule.escapedLength? mark (mark :: rest) = some 1 := by
  cases rest with
  | nil => simp [Rule.escapedLength?]
  | cons d rest =>
      have hd : d ≠ mark := by simpa using h
      simp [Rule.escapedLength?, hd]

theorem escapedLength?_cons {mark c : Char} (hc : c ≠ mark) (hb : c ≠ '\\') (rest : List Char) :
    Rule.escapedLength? mark (c :: rest) = (Rule.escapedLength? mark rest).map (· + 1) := by
  cases rest with
  | nil => simp [Rule.escapedLength?, hc]
  | cons d rest => simp [Rule.escapedLength?, hc, hb]

/-- Without a backslash, a text whose marks are written twice ends at its closing mark. -/
theorem escapedLength?_double {mark : Char} {cs : List Char} (hcs : '\\' ∉ cs) {rest : List Char}
    (h : rest.head? ≠ some mark) :
    Rule.escapedLength? mark (double mark cs ++ mark :: rest) =
      some ((double mark cs).length + 1) := by
  induction cs with
  | nil => exact escapedLength?_mark h
  | cons c cs ih =>
      obtain ⟨hc, hcs⟩ := not_or.1 (mt List.mem_cons.2 hcs)
      by_cases hm : c = mark
      · subst hm
        simp [double, Rule.escapedLength?, ih hcs]
      · have hd : double mark (c :: cs) = c :: double mark cs := by simp [double, hm]
        rw [hd, List.cons_append, escapedLength?_cons hm (Ne.symm hc), ih hcs]
        rfl

theorem firstMatch_quote {mark : Char} (hmark : mark ∈ ['\x27', '"']) {rest : List Char} {n : Nat}
    (h : Rule.escapedLength? mark rest = some n) (before : Option Char) :
    firstMatch before (mark :: rest) = (.string, n + 1) := by
  have hquoted : Rule.quotedString mark none (mark :: rest) = some (.string, n + 1) := by
    simp [Rule.quotedString, h]
  simp only [List.mem_cons, List.not_mem_nil, or_false] at hmark
  rcases hmark with rfl | rfl
  · rw [firstMatch_before (fun _ => rfl) (by simp)]
    exact firstMatch_eq_of_drop 20 rfl rfl hquoted
  · rw [firstMatch_before (fun _ => rfl) (by simp)]
    exact firstMatch_eq_of_drop 21 rfl rfl hquoted

/-- A quoted text without a backslash is one token. -/
theorem tokensFrom_quoted {mark : Char} (hmark : mark ∈ ['\x27', '"']) {cs : List Char}
    (hcs : '\\' ∉ cs) {rest : List Char} (h : rest.head? ≠ some mark) (before : Option Char) :
    tokensFrom before (encloseName mark mark cs ++ rest) =
      ⟨.string, encloseName mark mark cs⟩ :: tokensFrom (some mark) rest := by
  have hlength := escapedLength?_double hcs h
  have hchars : encloseName mark mark cs ++ rest =
      mark :: (double mark cs ++ mark :: rest) := by simp [encloseName]
  have hwhole : double mark cs ++ mark :: rest = (double mark cs ++ [mark]) ++ rest := by simp
  have hcount : (double mark cs).length + 1 = (double mark cs ++ [mark]).length := by simp
  have hlast : (mark :: (double mark cs ++ [mark])).getLast? = some mark := by
    rw [← List.cons_append]
    exact List.getLast?_concat
  rw [hchars, tokensFrom_cons (firstMatch_quote hmark hlength before), hwhole, hcount,
    List.take_left, List.drop_left, hlast]
  rfl

end TableScript.Sql
