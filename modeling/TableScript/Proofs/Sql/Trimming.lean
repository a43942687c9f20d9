import TableScript.Proofs.Sql.Coverage
import TableScript.Proofs.Text.Margins

/-!
# Stripped and unstripped statements

A script can be split in two ways. Unstripped statements keep the blanks around them, and the last
one also gets the blanks at the end of the script; stripped ones are trimmed, and those of which
nothing is left are dropped. But none is dropped, since no piece of a script is blank: a piece ends
after a terminator or a batch end, and a rest of blanks is no piece. So the two ways give the same
statements, with and without the blanks around them.
-/

namespace TableScript.Sql

open TableScript.Text

theorem lineBreaks_append (xs ys : List Char) :
    lineBreaks (xs ++ ys) = lineBreaks xs + lineBreaks ys :=
  List.count_append

/-! ## Pieces are not blank -/

/-- A token of another kind than the blank ones does not begin with a blank. -/
theorem exists_solid_of_token {before : Option Char} {cs : List Char} :
    ∀ t ∈ tokensFrom before cs, t.kind.isWhitespace = false → ∃ c ∈ t.chars, isBlank c = false := by
  induction hlen : cs.length using Nat.strongRecOn generalizing before cs with
  | _ n ih =>
      cases cs with
      | nil => simp [tokensFrom]
      | cons c rest =>
          rw [tokensFrom]
          refine List.forall_mem_cons.2 ⟨fun hidle => ⟨c, List.mem_cons_self, ?_⟩, ?_⟩
          · cases hc : isBlank c with
            | false => rfl
            | true =>
                exact absurd (hidle.symm.trans (firstMatch_blank before hc rest)) (by decide)
          · refine ih _ ?_ rfl
            rw [← hlen, List.length_drop, List.length_cons]
            omega

/-- Blank tokens do not end a statement. -/
theorem Cursor.ended_accept {s : Cursor} {t : Token} (h : (s.accept t).ended = true) :
    s.ended = true ∨ t.kind.isWhitespace = false := by
  cases ht : t.kind.isWhitespace with
  | false => exact Or.inr rfl
  | true =>
      rw [accept_of_isWhitespace ht] at h
      exact Or.inl h

/-- A statement that has ended holds a token that is not blank, and so does every piece. -/
theorem exists_token_of_mem_cutFrom {s : Cursor} {taken ts : List Token}
    (hs : s.ended = true → ∃ t ∈ taken, t.kind.isWhitespace = false) :
    ∀ p ∈ cutFrom s taken ts, ∃ t ∈ p, t.kind.isWhitespace = false := by
  induction ts generalizing s taken with
  | nil =>
      unfold cutFrom
      split
      · simp
      · rename_i hidle
        simpa using hidle
  | cons t rest ih =>
      unfold cutFrom
      split
      · rename_i hended
        refine List.forall_mem_cons.2 ⟨?_, ih fun haccept => ?_⟩
        · obtain ⟨u, hu, hidle⟩ := hs (Bool.and_eq_true_iff.1 hended).1
          exact ⟨u, List.mem_reverse.2 hu, hidle⟩
        · rcases Cursor.ended_accept haccept with hstart | hidle
          · cases hstart
          · exact ⟨t, List.mem_cons_self, hidle⟩
      · refine ih fun haccept => ?_
        rcases Cursor.ended_accept haccept with hended | hidle
        · obtain ⟨u, hu, hidle⟩ := hs hended
          exact ⟨u, List.mem_cons_of_mem t hu, hidle⟩
        · exact ⟨t, List.mem_cons_self, hidle⟩

theorem exists_solid_of_mem_pieces (cs : List Char) :
    ∀ p ∈ pieces cs, ∃ c ∈ Token.concat p, isBlank c = false := by
  intro p hp
  obtain ⟨t, ht, hidle⟩ := exists_token_of_mem_cutFrom (by intro h; cases h) p hp
  obtain ⟨white, htokens, _⟩ := exists_tokens_eq cs
  have hmem : t ∈ tokens cs := by
    rw [htokens]
    exact List.mem_append_left _ (List.mem_flatten_of_mem hp ht)
  obtain ⟨c, hc, hsolid⟩ := exists_solid_of_token t hmem hidle
  exact ⟨c, List.mem_flatMap.2 ⟨t, ht, hc⟩, hsolid⟩

/-! ## Statements -/

/-- Unstripped statements are the pieces of a script, and the blanks after them go to the last. -/
theorem exists_tail {cs : List Char} {ss : List Statement} (h : split false cs = .ok ss) :
    ∃ tail, cs = Token.concat (pieces cs).flatten ++ tail ∧ (∀ c ∈ tail, isBlank c = true) ∧
      ss = extendLast tail (wholeFrom 1 (pieces cs)) := by
  obtain ⟨white, htokens, hss⟩ := split_eq_extendLast h
  obtain ⟨white', htokens', hblank⟩ := exists_tokens_eq cs
  obtain rfl := List.append_cancel_left (htokens.symm.trans htokens')
  refine ⟨Token.concat white, ?_, hblank, hss⟩
  rw [← Token.concat_append, ← htokens, concat_tokens]

/-- A statement without the blanks around it: it begins and ends with other characters, and stands
on the lines that are left. -/
structure Statement.Trims (s u : Statement) : Prop where
  margins : ∃ front back, u.chars = front ++ (s.chars ++ back) ∧
    (∀ c ∈ front, isBlank c = true) ∧ (∀ c ∈ back, isBlank c = true) ∧
    s.lineStart = u.lineStart + lineBreaks front
  head : ∃ c ∈ s.chars.head?, isBlank c = false
  last : ∃ c ∈ s.chars.getLast?, isBlank c = false
  type_eq : s.type = u.type

theorem trimmed?_eq {line : Nat} {p : List Token} (h : trimList (Token.concat p) ≠ []) :
    let start := line + lineBreaks ((Token.concat p).takeWhile isBlank)
    let cs := trimList (Token.concat p)
    trimmed? line p = some ⟨cs, start, start + lineBreaks cs, statementType p⟩ := by
  intro start cs
  obtain ⟨c, rest, htrim⟩ := List.exists_cons_of_ne_nil h
  simp only [trimmed?, cs, htrim]
  rfl

/-- A piece that is not blank leaves a statement when it is trimmed. -/
theorem trimmed?_eq_some (line : Nat) {p : List Token}
    (h : ∃ c ∈ Token.concat p, isBlank c = false) :
    ∃ s, trimmed? line p = some s ∧ s.Trims (whole line p) ∧
      s.lineEnd = s.lineStart + lineBreaks s.chars := by
  have hne : trimList (Token.concat p) ≠ [] := by
    intro hnil
    obtain ⟨c, hc, hsolid⟩ := h
    rw [strip_eq_nil_iff.1 hnil c hc] at hsolid
    cases hsolid
  obtain ⟨back, hchars, hback⟩ := exists_margin isBlank (Token.concat p)
  refine ⟨_, trimmed?_eq hne, ⟨⟨_, back, hchars, ?_, hback, rfl⟩, ?_, ?_, rfl⟩, rfl⟩
  · exact fun c hc => List.mem_takeWhile_imp hc
  · exact head?_strip hne
  · exact getLast?_strip hne

theorem Statement.Trims.ne_nil {s u : Statement} (h : s.Trims u) : s.chars ≠ [] := by
  obtain ⟨c, hc, _⟩ := h.head
  exact List.ne_nil_of_mem (List.mem_of_mem_head? hc)

/-- Blanks after a statement are trimmed with it. -/
theorem Statement.Trims.extend {s u : Statement} (h : s.Trims u) {cs : List Char}
    (hcs : ∀ c ∈ cs, isBlank c = true) : s.Trims (u.extend cs) := by
  obtain ⟨front, back, hchars, hfront, hback, hline⟩ := h.margins
  refine ⟨⟨front, back ++ cs, ?_, hfront, List.forall_mem_append.2 ⟨hback, hcs⟩, hline⟩,
    h.head, h.last, h.type_eq⟩
  simp [Statement.extend, hchars]

theorem forall₂_trims (line : Nat) {ps : List (List Token)}
    (h : ∀ p ∈ ps, ∃ c ∈ Token.concat p, isBlank c = false) :
    List.Forall₂ Statement.Trims (trimmedFrom line ps) (wholeFrom line ps) := by
  induction ps generalizing line with
  | nil => exact .nil
  | cons p ps ih =>
      obtain ⟨hp, hps⟩ := List.forall_mem_cons.1 h
      obtain ⟨s, hs, htrims, _⟩ := trimmed?_eq_some line hp
      rw [trimmedFrom, wholeFrom, hs]
      exact .cons htrims (ih _ hps)

theorem forall₂_trims_extendLast {ss us : List Statement}
    (h : List.Forall₂ Statement.Trims ss us) {cs : List Char} (hcs : ∀ c ∈ cs, isBlank c = true) :
    List.Forall₂ Statement.Trims ss (extendLast cs us) := by
  induction h with
  | nil => exact .nil
  | @cons s u ss us hsu hrest ih =>
      cases hrest with
      | nil => exact .cons (hsu.extend hcs) .nil
      | cons _ _ => exact .cons hsu ih

/-- Both ways to split a script give the same statements: as many, of the same types, and the
stripped ones are the others without the blanks around them, on the lines that are left. -/
theorem split_modes_agree {cs : List Char} (h : Grouped cs) :
    ∃ stripped unstripped, split true cs = .ok stripped ∧ split false cs = .ok unstripped ∧
      stripped.length = unstripped.length ∧
      List.Forall₂ Statement.Trims stripped unstripped := by
  have hstripped : split true cs = .ok (trimmedFrom 1 (pieces cs)) := split_eq_ok_iff.2 ⟨h, rfl⟩
  obtain ⟨unstripped, hunstripped⟩ : ∃ us, split false cs = .ok us :=
    ⟨_, split_eq_ok_iff.2 ⟨h, rfl⟩⟩
  obtain ⟨tail, _, htail, hattach⟩ := exists_tail hunstripped
  have htrims : List.Forall₂ Statement.Trims (trimmedFrom 1 (pieces cs)) unstripped := by
    rw [hattach]
    exact forall₂_trims_extendLast (forall₂_trims 1 (exists_solid_of_mem_pieces cs)) htail
  exact ⟨_, unstripped, hstripped, hunstripped, htrims.length_eq, htrims⟩

/-- The blanks at the end belong to the second statement, which begins a line later when it is
stripped. -/
theorem split_modes_agree_two :
    let cs := "\n drop table t ; \n create\n table u \n ".toList
    Grouped cs ∧ ∃ stripped unstripped, split true cs = .ok stripped ∧
      split false cs = .ok unstripped ∧
      stripped.map (fun s => (s.text, s.lineStart)) =
        [("drop table t ;", 2), ("create\n table u", 3)] ∧
      unstripped.map (fun s => (s.text, s.lineStart)) =
        [("\n drop table t ; ", 1), ("\n create\n table u \n ", 2)] ∧
      List.Forall₂ Statement.Trims stripped unstripped := by
  intro cs
  have hgrouped : Grouped cs := by decide +kernel
  obtain ⟨stripped, unstripped, hstripped, hunstripped, _, htrims⟩ := split_modes_agree hgrouped
  obtain ⟨_, rfl⟩ := split_eq_ok_iff.1 hstripped
  obtain ⟨_, rfl⟩ := split_eq_ok_iff.1 hunstripped
  exact ⟨hgrouped, _, _, hstripped, hunstripped, by decide +kernel, by decide +kernel, htrims⟩

end TableScript.Sql
