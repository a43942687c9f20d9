import Mathlib.Tactic.SplitIfs
import TableScript.Sql.Quoting

/-!
# Parts of a script that can be told apart

A fragment is text that is taken into a script as it is, such as a type or a default value. It is
self-contained if it holds no apostrophe, closes the parentheses that it opens and no others, and
has commas and semicolons inside parentheses only. Such a fragment ends where the next apostrophe,
comma or closing parenthesis outside its parentheses stands, whatever follows it.

A list of entries is recovered from the text that they are written as, one entry after the other, if
each entry is recovered from the text that it begins.
-/

namespace TableScript.Sql

/-- The depth of parentheses after a text that begins at the given depth; nothing if the text has an
apostrophe, or a separator or an unmatched closing parenthesis outside all parentheses. -/
def depthAfter? : Nat → List Char → Option Nat
  | depth, [] => some depth
  | depth, c :: rest =>
      if c = '\x27' then none
      else if c = '(' then depthAfter? (depth + 1) rest
      else if c = ')' then
        match depth with
        | 0 => none
        | outer + 1 => depthAfter? outer rest
      else if (c = ',' ∨ c = ';') ∧ depth = 0 then none
      else depthAfter? depth rest

/-- A text that may be taken into a script as it is. -/
def SelfContained (cs : List Char) : Prop := depthAfter? 0 cs = some 0

instance (cs : List Char) : Decidable (SelfContained cs) :=
  inferInstanceAs (Decidable (depthAfter? 0 cs = some 0))

/-- The rest of a text from the first apostrophe on, or from the first comma or closing parenthesis
outside the parentheses that the text opens. -/
def afterFragment : Nat → List Char → List Char
  | _, [] => []
  | depth, c :: rest =>
      if c = '\x27' then c :: rest
      else if c = '(' then afterFragment (depth + 1) rest
      else if c = ')' then
        match depth with
        | 0 => c :: rest
        | outer + 1 => afterFragment outer rest
      else if c = ',' ∧ depth = 0 then c :: rest
      else afterFragment depth rest

theorem depthAfter?_append {d e : Nat} {xs : List Char} (h : depthAfter? d xs = some e)
    (ys : List Char) : depthAfter? d (xs ++ ys) = depthAfter? e ys := by
  induction xs generalizing d with
  | nil =>
      cases h
      rfl
  | cons c xs ih =>
      rw [List.cons_append, depthAfter?.eq_def]
      rw [depthAfter?.eq_def] at h
      dsimp only at h ⊢
      split_ifs at h ⊢ with hq ho hc hs
      · exact ih h
      · cases d with
        | zero => cases h
        | succ outer => exact ih h
      · exact ih h

theorem SelfContained.append {xs ys : List Char} (hx : SelfContained xs) (hy : SelfContained ys) :
    SelfContained (xs ++ ys) := (depthAfter?_append hx ys).trans hy

theorem SelfContained.flatMap {α : Type} {l : List α} {f : α → List Char}
    (h : ∀ a ∈ l, SelfContained (f a)) : SelfContained (l.flatMap f) := by
  induction l with
  | nil => rfl
  | cons a l ih =>
      obtain ⟨ha, hl⟩ := List.forall_mem_cons.1 h
      rw [List.flatMap_cons]
      exact ha.append (ih hl)

/-- A fragment is skipped as a whole. -/
theorem afterFragment_append {d e : Nat} {xs : List Char} (h : depthAfter? d xs = some e)
    (rest : List Char) : afterFragment d (xs ++ rest) = afterFragment e rest := by
  induction xs generalizing d with
  | nil =>
      cases h
      rfl
  | cons c xs ih =>
      rw [List.cons_append, afterFragment.eq_def]
      rw [depthAfter?.eq_def] at h
      dsimp only at h ⊢
      split_ifs at h ⊢ with hq ho hc hcomma hs
      · exact ih h
      · cases d with
        | zero => cases h
        | succ outer => exact ih h
      · exact absurd ⟨Or.inl hcomma.1, hcomma.2⟩ hs
      · exact ih h

/-! ## Lists of entries -/

/-- A joined list is its first member and, after a separator each, the others. -/
theorem intercalate_cons (sep x : List Char) (xs : List (List Char)) :
    sep.intercalate (x :: xs) = x ++ xs.flatMap (sep ++ ·) := by
  induction xs generalizing x with
  | nil => simp
  | cons y ys ih => rw [List.intercalate_cons_cons, ih, List.flatMap_cons, List.append_assoc,
      List.append_assoc]

/-- Every entry of a list stands in the text of the list. -/
theorem infix_intercalate {x : List Char} {xs : List (List Char)} (h : x ∈ xs) (sep : List Char) :
    x <:+: sep.intercalate xs := by
  cases xs with
  | nil => cases h
  | cons y ys =>
      rw [intercalate_cons]
      rcases List.mem_cons.1 h with rfl | h
      · exact (List.prefix_append _ _).isInfix
      · have hentry : sep ++ x <:+: ys.flatMap (sep ++ ·) :=
          List.infix_of_mem_flatten (List.mem_map_of_mem h)
        exact ((List.suffix_append sep x).isInfix.trans hentry).trans
          (List.suffix_append _ _).isInfix

section Entries

variable {α β : Type} {entry : α → List Char} {what : α → β} {valid : α → Prop}
  {follows ends : List Char → Prop}

/-- Entries that can be told apart where one follows the other: before a text that may follow, an
entry gives back what it is about, and no entry begins as the end does. -/
structure Separable (entry : α → List Char) (what : α → β) (valid : α → Prop)
    (follows ends : List Char → Prop) : Prop where
  follows_entry : ∀ a s, valid a → follows (entry a ++ s)
  follows_end : ∀ s, ends s → follows s
  entry_inj : ∀ a b s t, valid a → valid b → follows s → follows t →
    entry a ++ s = entry b ++ t → what a = what b ∧ s = t
  entry_ne : ∀ a s t, valid a → ends t → entry a ++ s ≠ t

theorem Separable.follows_entries (hsep : Separable entry what valid follows ends) {xs : List α}
    (hx : ∀ a ∈ xs, valid a) {s : List Char} (hs : ends s) :
    follows (xs.flatMap entry ++ s) := by
  cases xs with
  | nil => exact hsep.follows_end s hs
  | cons a xs =>
      rw [List.flatMap_cons, List.append_assoc]
      exact hsep.follows_entry a _ (hx a List.mem_cons_self)

/-- Two lists of entries that are written as the same text up to where the entries end hold the same
things and end at the same place. -/
theorem Separable.append_inj (hsep : Separable entry what valid follows ends) {xs ys : List α}
    (hx : ∀ a ∈ xs, valid a) (hy : ∀ a ∈ ys, valid a) {s t : List Char} (hs : ends s)
    (ht : ends t) (h : xs.flatMap entry ++ s = ys.flatMap entry ++ t) :
    xs.map what = ys.map what ∧ s = t := by
  induction xs generalizing ys with
  | nil =>
      cases ys with
      | nil => exact ⟨rfl, h⟩
      | cons b ys =>
          rw [List.flatMap_cons, List.append_assoc] at h
          exact absurd h.symm (hsep.entry_ne b _ s (hy b List.mem_cons_self) hs)
  | cons a xs ih =>
      cases ys with
      | nil =>
          rw [List.flatMap_cons, List.append_assoc] at h
          exact absurd h (hsep.entry_ne a _ t (hx a List.mem_cons_self) ht)
      | cons b ys =>
          have hx' : ∀ a ∈ xs, valid a := fun a ha => hx a (List.mem_cons_of_mem _ ha)
          have hy' : ∀ a ∈ ys, valid a := fun a ha => hy a (List.mem_cons_of_mem _ ha)
          rw [List.flatMap_cons, List.flatMap_cons, List.append_assoc, List.append_assoc] at h
          obtain ⟨hab, h⟩ := hsep.entry_inj a b _ _ (hx a List.mem_cons_self)
            (hy b List.mem_cons_self) (hsep.follows_entries hx' hs) (hsep.follows_entries hy' ht) h
          obtain ⟨hmap, hst⟩ := ih hx' hy' h
          exact ⟨by rw [List.map_cons, List.map_cons, hab, hmap], hst⟩

end Entries

end TableScript.Sql
