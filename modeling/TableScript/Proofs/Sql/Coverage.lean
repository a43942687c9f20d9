import TableScript.Proofs.Outcome
import TableScript.Proofs.Sql.Match
import TableScript.Sql.Qualifier

/-!
# What splitting keeps

The tokens of a script make up the script, and cutting drops nothing but blank tokens at the end.
Unstripped splitting gives what was dropped to the last statement, so the statements make up the
script unless there is none to give it to: a script of blanks has no statement. Mending a script
fails for such a script, and for one that is not grouped, and for no other.
-/

namespace TableScript.Sql

open TableScript.Text

/-- No statement of a script exceeds a limit, so the script can be split. -/
def Grouped (cs : List Char) : Prop := ∀ p ∈ pieces cs, Token.exceeds? p = none

instance (cs : List Char) : Decidable (Grouped cs) :=
  inferInstanceAs (Decidable (∀ p ∈ pieces cs, Token.exceeds? p = none))

theorem split_eq_ok_iff {strip : Bool} {cs : List Char} {ss : List Statement} :
    split strip cs = .ok ss ↔ Grouped cs ∧
      (if strip then trimmedFrom 1 (pieces cs) else attachTail cs (wholeFrom 1 (pieces cs))) = ss := by
  unfold split Grouped
  rw [← List.findSome?_eq_none_iff]
  cases h : (pieces cs).findSome? Token.exceeds? <;> simp [h]

/-! ## Blank tokens -/

theorem forall_mem_concat {p : Char → Prop} {ts : List Token} :
    (∀ c ∈ Token.concat ts, p c) ↔ ∀ t ∈ ts, ∀ c ∈ t.chars, p c := by
  simp only [Token.concat, List.mem_flatMap]
  constructor
  · intro h t ht c hc
    exact h c ⟨t, ht, hc⟩
  · rintro h c ⟨t, ht, hc⟩
    exact h t ht c hc

theorem isBlank_of_isWhitespace {before : Option Char} {cs : List Char} :
    ∀ t ∈ tokensFrom before cs, t.kind.isWhitespace = true → ∀ c ∈ t.chars, isBlank c = true := by
  induction hlen : cs.length using Nat.strongRecOn generalizing before cs with
  | _ n ih =>
      cases cs with
      | nil => simp [tokensFrom]
      | cons c rest =>
          rw [tokensFrom]
          refine List.forall_mem_cons.2 ⟨?_, ?_⟩
          · intro hwhite
            rcases @firstMatch_cases before (c :: rest) _ _ rfl with
              ⟨r, hr, hm⟩ | ⟨_, hkind, _⟩
            · obtain ⟨hpos, hblank⟩ := Rule.whiteIsBlank_rules r hr _ _ _ _ hm hwhite
              obtain ⟨m, hm⟩ := Nat.exists_eq_add_of_lt hpos
              rw [hm] at hblank ⊢
              simpa using hblank
            · rw [hkind] at hwhite
              cases hwhite
          · refine ih _ ?_ rfl
            rw [← hlen, List.length_drop, List.length_cons]
            omega

theorem isWhitespace_of_isBlank {before : Option Char} {cs : List Char}
    (h : ∀ c ∈ cs, isBlank c = true) :
    ∀ t ∈ tokensFrom before cs, t.kind.isWhitespace = true := by
  induction hlen : cs.length using Nat.strongRecOn generalizing before cs with
  | _ n ih =>
      cases cs with
      | nil => simp [tokensFrom]
      | cons c rest =>
          obtain ⟨hc, hrest⟩ := List.forall_mem_cons.1 h
          rw [tokensFrom]
          refine List.forall_mem_cons.2 ⟨firstMatch_blank before hc rest, ?_⟩
          refine ih _ ?_ (fun d hd => hrest d (List.mem_of_mem_drop hd)) rfl
          rw [← hlen, List.length_drop, List.length_cons]
          omega

/-- The tokens of a script are all blank exactly if its characters are. -/
theorem forall_isWhitespace_iff {before : Option Char} {cs : List Char} :
    (∀ t ∈ tokensFrom before cs, t.kind.isWhitespace = true) ↔ ∀ c ∈ cs, isBlank c = true := by
  refine ⟨fun h => ?_, isWhitespace_of_isBlank⟩
  have hconcat := forall_mem_concat.2 fun t ht => isBlank_of_isWhitespace t ht (h t ht)
  rwa [concat_tokensFrom] at hconcat

/-! ## Cutting -/

/-- Cutting drops blank tokens at the end, and nothing else. -/
theorem exists_flatten_cutFrom (s : Cursor) (taken ts : List Token) :
    ∃ white, taken.reverse ++ ts = (cutFrom s taken ts).flatten ++ white ∧
      ∀ t ∈ white, t.kind.isWhitespace = true := by
  induction ts generalizing s taken with
  | nil =>
      unfold cutFrom
      by_cases hwhite : taken.all (·.kind.isWhitespace) = true
      · rw [if_pos hwhite]
        refine ⟨taken.reverse, by simp, fun t ht => ?_⟩
        exact List.all_eq_true.1 hwhite t (List.mem_reverse.1 ht)
      · rw [if_neg hwhite]
        exact ⟨[], by simp⟩
  | cons t rest ih =>
      unfold cutFrom
      split
      · obtain ⟨white, hsplit, hwhite⟩ := ih (Cursor.start.accept t) [t]
        refine ⟨white, ?_, hwhite⟩
        rw [List.flatten_cons, List.append_assoc, ← hsplit]
        rfl
      · obtain ⟨white, hsplit, hwhite⟩ := ih (s.accept t) (t :: taken)
        refine ⟨white, ?_, hwhite⟩
        rw [← hsplit]
        simp

theorem Cursor.accept_of_isWhitespace {t : Token} (h : t.kind.isWhitespace = true) (s : Cursor) :
    s.accept t = s := by
  have hkind : t.kind = .blank ∨ t.kind = .newline := by
    cases hk : t.kind <;> simp_all [TokenKind.isWhitespace]
  rcases hkind with hk | hk <;>
    simp [accept, settle, Mark.ofToken?, Token.isMark, endsBatch, isTransparent, hk,
      TokenKind.isKeyword]

/-- Blank tokens alone are no statement. -/
theorem cutFrom_of_isWhitespace {s : Cursor} (hs : s.ended = false) {taken ts : List Token}
    (htaken : ∀ t ∈ taken, t.kind.isWhitespace = true)
    (hts : ∀ t ∈ ts, t.kind.isWhitespace = true) : cutFrom s taken ts = [] := by
  induction ts generalizing taken with
  | nil =>
      unfold cutFrom
      rw [if_pos (List.all_eq_true.2 htaken)]
  | cons t rest ih =>
      obtain ⟨ht, hrest⟩ := List.forall_mem_cons.1 hts
      unfold cutFrom
      simp only [hs, Bool.false_and, Bool.false_eq_true, if_false,
        Cursor.accept_of_isWhitespace ht]
      exact ih (List.forall_mem_cons.2 ⟨ht, htaken⟩) hrest

/-- Pieces make up the script but for a rest of blanks. -/
theorem exists_tokens_eq (cs : List Char) :
    ∃ white, tokens cs = (pieces cs).flatten ++ white ∧
      ∀ c ∈ Token.concat white, isBlank c = true := by
  obtain ⟨white, hsplit, hwhite⟩ := exists_flatten_cutFrom .start [] (tokens cs)
  rw [List.reverse_nil, List.nil_append] at hsplit
  refine ⟨white, hsplit, forall_mem_concat.2 fun t ht => ?_⟩
  have hmem : t ∈ tokens cs := by
    rw [hsplit]
    exact List.mem_append_right _ ht
  exact isBlank_of_isWhitespace t hmem (hwhite t ht)

theorem pieces_eq_nil_iff {cs : List Char} : pieces cs = [] ↔ ∀ c ∈ cs, isBlank c = true := by
  constructor
  · intro h
    obtain ⟨white, htokens, hwhite⟩ := exists_tokens_eq cs
    rw [h, List.flatten_nil, List.nil_append] at htokens
    rwa [← htokens, concat_tokens] at hwhite
  · intro h
    exact cutFrom_of_isWhitespace rfl (by simp) (forall_isWhitespace_iff.2 h)

/-! ## Statements -/

theorem concat_wholeFrom (line : Nat) (ps : List (List Token)) :
    Statement.concat (wholeFrom line ps) = Token.concat ps.flatten := by
  induction ps generalizing line with
  | nil => rfl
  | cons p ps ih =>
      rw [List.flatten_cons, Token.concat_append, ← ih (line + lineBreaks (Token.concat p))]
      rfl

theorem wholeFrom_eq_nil_iff {line : Nat} {ps : List (List Token)} :
    wholeFrom line ps = [] ↔ ps = [] := by
  cases ps <;> simp [wholeFrom]

theorem concat_extendLast (cs : List Char) {ss : List Statement} (h : ss ≠ []) :
    Statement.concat (extendLast cs ss) = Statement.concat ss ++ cs := by
  induction ss with
  | nil => exact absurd rfl h
  | cons s rest ih =>
      cases rest with
      | nil => simp [extendLast, Statement.concat, Statement.extend]
      | cons s' rest =>
          have hrest := ih (by simp)
          simp only [Statement.concat, extendLast, List.flatMap_cons, List.append_assoc] at hrest ⊢
          rw [hrest]

/-- A statement is one of the pieces, perhaps with the rest if it is the last. -/
theorem exists_piece_of_mem_extendLast {cs : List Char} {line : Nat} {ps : List (List Token)}
    {s : Statement} (h : s ∈ extendLast cs (wholeFrom line ps)) :
    ∃ before p after, ps = before ++ p :: after ∧
      (s.chars = Token.concat p ∨ after = [] ∧ s.chars = Token.concat p ++ cs) := by
  induction ps generalizing line with
  | nil => cases h
  | cons p ps ih =>
      cases ps with
      | nil =>
          rw [wholeFrom, wholeFrom, extendLast, List.mem_singleton] at h
          exact ⟨[], p, [], rfl, Or.inr ⟨rfl, by rw [h]; rfl⟩⟩
      | cons p' ps =>
          rcases List.mem_cons.1 h with rfl | h
          · exact ⟨[], p, p' :: ps, rfl, Or.inl rfl⟩
          · obtain ⟨before, p'', after, hps, hchars⟩ := ih h
            exact ⟨p :: before, p'', after, by rw [hps, List.cons_append], hchars⟩

/-- What follows the pieces goes to the last statement. -/
theorem split_eq_extendLast {cs : List Char} {ss : List Statement} (h : split false cs = .ok ss) :
    ∃ white, tokens cs = (pieces cs).flatten ++ white ∧
      ss = extendLast (Token.concat white) (wholeFrom 1 (pieces cs)) := by
  obtain ⟨_, hss⟩ := split_eq_ok_iff.1 h
  rw [if_neg Bool.false_ne_true] at hss
  obtain ⟨white, htokens, hwhite⟩ := exists_tokens_eq cs
  refine ⟨white, htokens, ?_⟩
  have hconcat := congrArg Token.concat htokens
  rw [concat_tokens, Token.concat_append] at hconcat
  have htail : cs.drop (Statement.concat (wholeFrom 1 (pieces cs))).length =
      Token.concat white := by
    rw [concat_wholeFrom]
    exact (congrArg (List.drop _) hconcat).trans List.drop_left
  rw [← hss]
  unfold attachTail
  rw [htail, if_pos (List.all_eq_true.2 hwhite)]

/-- A statement begins where a token begins. -/
theorem exists_tokens_of_mem_split {cs : List Char} {ss : List Statement}
    (h : split false cs = .ok ss) {s : Statement} (hs : s ∈ ss) :
    ∃ front q rest, tokens cs = front ++ q ∧ Token.concat q = s.chars ++ rest := by
  obtain ⟨white, htokens, rfl⟩ := split_eq_extendLast h
  obtain ⟨before, p, after, hps, hchars⟩ := exists_piece_of_mem_extendLast hs
  rw [hps, List.flatten_append, List.flatten_cons, List.append_assoc, List.append_assoc] at htokens
  rcases hchars with hchars | ⟨rfl, hchars⟩
  · exact ⟨_, _, Token.concat (after.flatten ++ white), htokens, by
      rw [hchars, Token.concat_append]⟩
  · exact ⟨_, _, [], htokens, by rw [hchars]; simp⟩

/-- Unstripped statements make up the script, but for a script of blanks, which has none. -/
theorem concat_split {cs : List Char} {ss : List Statement} (h : split false cs = .ok ss) :
    if ∀ c ∈ cs, isBlank c = true then ss = [] else Statement.concat ss = cs := by
  obtain ⟨white, htokens, hattach⟩ := split_eq_extendLast h
  have hcs := congrArg Token.concat htokens
  rw [concat_tokens, Token.concat_append] at hcs
  by_cases hblank : ∀ c ∈ cs, isBlank c = true
  · rw [if_pos hblank, hattach, pieces_eq_nil_iff.2 hblank]
    rfl
  · rw [if_neg hblank, hattach, concat_extendLast, concat_wholeFrom, ← hcs]
    rw [Ne, wholeFrom_eq_nil_iff, pieces_eq_nil_iff]
    exact hblank

theorem concat_split_eq_iff {cs : List Char} {ss : List Statement} (h : split false cs = .ok ss) :
    Statement.concat ss = cs ↔ cs = [] ∨ ∃ c ∈ cs, isBlank c = false := by
  have hcover := concat_split h
  by_cases hblank : ∀ c ∈ cs, isBlank c = true
  · rw [if_pos hblank] at hcover
    have hnone : ¬ ∃ c ∈ cs, isBlank c = false := by
      rintro ⟨c, hc, hfalse⟩
      rw [hblank c hc] at hfalse
      cases hfalse
    rw [hcover, or_iff_left hnone]
    exact eq_comm
  · rw [if_neg hblank] at hcover
    refine iff_of_true hcover (Or.inr ?_)
    simpa using hblank

theorem removeQualifier_outcome (qualifier script : String) :
    (∃ text, (removeQualifier qualifier script).outcome = .ok text) ∨
      ∃ fault, (removeQualifier qualifier script).outcome = .error (.render fault) := by
  unfold removeQualifier
  split
  · exact Or.inr ⟨_, rfl⟩
  · split
    · exact Or.inl ⟨_, rfl⟩
    · exact Or.inr ⟨_, rfl⟩

theorem removeQualifier_eq_ok_iff {qualifier script : String} :
    (∃ text, (removeQualifier qualifier script).outcome = .ok text) ↔
      ∃ ss, split false script.toList = .ok ss ∧ Statement.concat ss = script.toList := by
  unfold removeQualifier
  cases split false script.toList with
  | error limit =>
      refine iff_of_false ?_ (by simp)
      rintro ⟨text, h⟩
      cases h
  | ok ss =>
      by_cases hconcat : Statement.concat ss = script.toList
      · simp only [hconcat, if_true]
        exact iff_of_true ⟨_, rfl⟩ ⟨ss, rfl, hconcat⟩
      · simp only [hconcat, if_false]
        refine iff_of_false ?_ (by simp [hconcat])
        rintro ⟨text, h⟩
        cases h

theorem removeQualifier_fails_iff {qualifier script : String} :
    (∃ fault, (removeQualifier qualifier script).outcome = .error (.render fault)) ↔
      ¬ ∃ text, (removeQualifier qualifier script).outcome = .ok text := by
  rcases removeQualifier_outcome qualifier script with ⟨text, h⟩ | ⟨fault, h⟩ <;> simp [h]

/-- A script that holds more than blanks is mended if it can be split, and refused for the limit
that it exceeds if it cannot. -/
theorem removeQualifier_of_solid (qualifier : String) {script : String}
    (h : ∃ c ∈ script.toList, isBlank c = false) :
    (∃ ss text, split false script.toList = .ok ss ∧
        (removeQualifier qualifier script).outcome = .ok text) ∨
      ∃ limit, split false script.toList = .error limit ∧
        (removeQualifier qualifier script).outcome = .error (.render (.ungrouped limit)) := by
  unfold removeQualifier
  cases hsplit : split false script.toList with
  | error limit => exact Or.inr ⟨limit, rfl, rfl⟩
  | ok ss =>
      have hconcat := (concat_split_eq_iff hsplit).2 (Or.inr h)
      simp only [hconcat, if_true]
      exact Or.inl ⟨ss, _, rfl, rfl⟩

/-- A script that can be split is made up by its unstripped statements exactly if it is empty or
holds more than blanks, and blanks alone have no statement. Mending a script fails exactly for one
that cannot be split and for blanks alone. -/
theorem split_covers_iff (qualifier script : String) :
    (Grouped script.toList → ∃ ss, split false script.toList = .ok ss ∧
      (Statement.concat ss = script.toList ↔
        script = "" ∨ ∃ c ∈ script.toList, isBlank c = false) ∧
      (script ≠ "" → (∀ c ∈ script.toList, isBlank c = true) → ss = [])) ∧
    ((∃ fault, (removeQualifier qualifier script).outcome = .error (.render fault)) ↔
      ¬ Grouped script.toList ∨ script ≠ "" ∧ ∀ c ∈ script.toList, isBlank c = true) := by
  have hempty : script = "" ↔ script.toList = [] := String.toList_eq_nil_iff.symm
  have hsplit : Grouped script.toList → ∃ ss, split false script.toList = .ok ss :=
    fun h => ⟨_, split_eq_ok_iff.2 ⟨h, rfl⟩⟩
  refine ⟨fun hgrouped => ?_, ?_⟩
  · obtain ⟨ss, hss⟩ := hsplit hgrouped
    refine ⟨ss, hss, ?_, fun _ hblank => ?_⟩
    · rw [hempty]
      exact concat_split_eq_iff hss
    · simpa only [if_pos hblank] using concat_split hss
  · rw [removeQualifier_fails_iff, removeQualifier_eq_ok_iff, not_iff_comm, not_or, not_not, ne_eq,
      hempty]
    constructor
    · rintro ⟨hgrouped, hsolid⟩
      obtain ⟨ss, hss⟩ := hsplit hgrouped
      refine ⟨ss, hss, (concat_split_eq_iff hss).2 ?_⟩
      by_cases hnil : script.toList = []
      · exact Or.inl hnil
      · exact Or.inr (by simpa [hnil] using hsolid)
    · rintro ⟨ss, hss, hconcat⟩
      refine ⟨(split_eq_ok_iff.1 hss).1, fun ⟨hne, hblank⟩ => ?_⟩
      rcases (concat_split_eq_iff hss).1 hconcat with hnil | ⟨c, hc, hsolid⟩
      · exact hne hnil
      · rw [hblank c hc] at hsolid
        cases hsolid

/-- A script of blanks can be split, has no statement and cannot be mended. -/
theorem split_covers_blanks :
    Grouped " \n".toList ∧ split false " \n".toList = .ok [] ∧
      ∃ fault, (removeQualifier "DB" " \n").outcome = .error (.render fault) := by
  have hgrouped : Grouped " \n".toList := by decide +kernel
  have hblank : ∀ c ∈ " \n".toList, isBlank c = true := by decide
  obtain ⟨hcovers, hfails⟩ := split_covers_iff "DB" " \n"
  obtain ⟨ss, hss, _, hnil⟩ := hcovers hgrouped
  rw [hnil (by decide) hblank] at hss
  exact ⟨hgrouped, hss, hfails.2 (Or.inr ⟨by decide, hblank⟩)⟩

end TableScript.Sql
