import Mathlib.Data.List.Infix
import TableScript.Text.Blank

/-!
# Taking blocks out of a text

Blocks of one length without any blank are taken out of a text, each right after a blank. What is
kept tells which blocks they were: taking them out at other places keeps another text. A block that
is skipped would have to repeat itself up to the blank in front of the next block.
-/

namespace TableScript.Sql

open TableScript.Text

/-- A text in which blocks are marked: what stands before each, and what stands after the last. -/
inductive Cutting where
  | rest (text : List Char)
  | cut (before block : List Char) (tail : Cutting)

/-- A stretch of text, and perhaps the place of a block in it. -/
structure Chunk where
  chars : List Char
  place : Option Nat

def EndsBlank (cs : List Char) : Prop := ∃ front c, cs = front ++ [c] ∧ isBlank c = true

def Solid (cs : List Char) : Prop := ∀ c ∈ cs, isBlank c = false

instance (cs : List Char) : Decidable (Solid cs) :=
  decidable_of_iff (cs.all fun c => !isBlank c) (by simp [Solid])

theorem EndsBlank.not_solid {cs : List Char} (h : EndsBlank cs) : ¬ Solid cs := by
  obtain ⟨front, c, rfl, hc⟩ := h
  intro hsolid
  have := hsolid c (by simp)
  rw [hc] at this
  cases this

theorem EndsBlank.of_append {xs ys : List Char} (h : EndsBlank (xs ++ ys)) (hy : ys ≠ []) :
    EndsBlank ys := by
  obtain ⟨front, c, h, hc⟩ := h
  refine ⟨ys.dropLast, c, ?_, hc⟩
  have hlast : ys.getLast hy = c := by
    have hwhole : (xs ++ ys).getLast (by simp [hy]) = c := by simp [h]
    rwa [List.getLast_append_of_ne_nil _ hy] at hwhole
  rw [← hlast, List.dropLast_append_getLast]

theorem EndsBlank.append {ys : List Char} (h : EndsBlank ys) (xs : List Char) :
    EndsBlank (xs ++ ys) := by
  obtain ⟨front, c, rfl, hc⟩ := h
  exact ⟨xs ++ front, c, by rw [List.append_assoc], hc⟩

/-! ## Repetition -/

/-- A text that begins both with and without one more block in front repeats the block, so it has no
blank. -/
theorem solid_of_repetition {block ys t : List Char} (hblock : Solid block) (hne : block ≠ [])
    (h : ys <+: block ++ t) (h' : ys <+: t) : Solid ys := by
  induction hlen : ys.length using Nat.strongRecOn generalizing ys t with
  | _ n ih =>
      by_cases hle : ys.length ≤ block.length
      · have hfront := List.prefix_of_prefix_length_le h (List.prefix_append block t) hle
        intro c hc
        exact hblock c (hfront.subset hc)
      · -- Without its first block, the text still begins both with and without one.
        have hfront := List.prefix_of_prefix_length_le (List.prefix_append block t) h (by omega)
        obtain ⟨zs, rfl⟩ := hfront
        obtain ⟨u, rfl⟩ := h'
        have hz : zs <+: block ++ (zs ++ u) := by
          have := (List.prefix_append_right_inj block).1 h
          rwa [List.append_assoc] at this
        have hpos : 0 < block.length := List.length_pos_iff.2 hne
        have hsolid := ih zs.length (by rw [← hlen, List.length_append]; omega) hz
          (List.prefix_append zs u) rfl
        intro c hc
        rcases List.mem_append.1 hc with hc | hc
        · exact hblock c hc
        · exact hsolid c hc

/-- Up to a blank, a text cannot go on both with a block and without it, if both ways agree up to
the next blank or to the end. -/
theorem absurd_of_repetition {block ys s t : List Char} (hblock : Solid block)
    (hne : block ≠ []) (hys : EndsBlank ys)
    (hst : s = t ∨ ∃ xs, EndsBlank xs ∧ xs <+: s ∧ xs <+: t)
    (h : ys <+: block ++ s) (h' : ys <+: t) : False := by
  rcases hst with rfl | ⟨xs, hxs, hs, ht⟩
  · exact hys.not_solid (solid_of_repetition hblock hne h h')
  · have hlonger : block ++ xs <+: block ++ s := (List.prefix_append_right_inj block).2 hs
    by_cases hle : ys.length ≤ xs.length
    · have hyx := List.prefix_of_prefix_length_le h' ht hle
      have hyb := List.prefix_of_prefix_length_le h hlonger (by rw [List.length_append]; omega)
      exact hys.not_solid (solid_of_repetition hblock hne hyb hyx)
    · have hxy := List.prefix_of_prefix_length_le ht h' (by omega)
      have hxb := List.prefix_of_prefix_length_le (hxy.trans h) hlonger
        (by rw [List.length_append]; omega)
      exact hxs.not_solid (solid_of_repetition hblock hne hxb List.prefix_rfl)

namespace Cutting

def whole : Cutting → List Char
  | rest text => text
  | cut before block tail => before ++ (block ++ tail.whole)

def kept : Cutting → List Char
  | rest text => text
  | cut before _ tail => before ++ tail.kept

/-- The places of the blocks, where the text begins at the given place. -/
def places (start : Nat) : Cutting → List Nat
  | rest _ => []
  | cut before block tail =>
      (start + before.length) :: tail.places (start + before.length + block.length)

/-- Every block has the given length and no blank, and stands right after a blank. -/
def Clean (n : Nat) : Cutting → Prop
  | rest _ => True
  | cut before block tail =>
      EndsBlank before ∧ block.length = n ∧ Solid block ∧ tail.Clean n

def prepend (cs : List Char) : Cutting → Cutting
  | rest text => rest (cs ++ text)
  | cut before block tail => cut (cs ++ before) block tail

@[simp] theorem whole_prepend (cs : List Char) (c : Cutting) :
    (c.prepend cs).whole = cs ++ c.whole := by
  cases c <;> simp [prepend, whole]

@[simp] theorem kept_prepend (cs : List Char) (c : Cutting) :
    (c.prepend cs).kept = cs ++ c.kept := by
  cases c <;> simp [prepend, kept]

theorem places_prepend (cs : List Char) (c : Cutting) (start : Nat) :
    (c.prepend cs).places start = c.places (start + cs.length) := by
  cases c <;> simp [prepend, places, Nat.add_assoc]

theorem Clean.prepend {n : Nat} {c : Cutting} (h : c.Clean n) (cs : List Char) :
    (c.prepend cs).Clean n := by
  cases c with
  | rest text => trivial
  | cut before block tail => exact ⟨h.1.append cs, h.2⟩

theorem length_kept_le (c : Cutting) : c.kept.length ≤ c.whole.length := by
  induction c with
  | rest text => exact Nat.le_refl _
  | cut before block tail ih =>
      simp only [kept, whole, List.length_append]
      omega

/-- With and without its blocks, a text is the same up to a blank. -/
theorem Clean.common {n : Nat} {c : Cutting} (h : c.Clean n) :
    c.whole = c.kept ∨ ∃ xs, EndsBlank xs ∧ xs <+: c.whole ∧ xs <+: c.kept := by
  cases c with
  | rest text => exact Or.inl rfl
  | cut before block tail =>
      exact Or.inr ⟨before, h.1, List.prefix_append _ _, List.prefix_append _ _⟩

/-- A cutting does not go on past a place where the other one has its block. -/
theorem before_eq_of_append {n : Nat} (hn : 0 < n) {before before' block block' ys : List Char}
    {c c' : Cutting} (h : (cut before block c).Clean n) (h' : (cut before' block' c').Clean n)
    (hwhole : before ++ (block ++ c.whole) = before' ++ (block' ++ c'.whole))
    (hys : before' = before ++ ys) (hkept : c.kept = ys ++ c'.kept) : ys = [] := by
  obtain ⟨_, hlength, hsolid, hc⟩ := h
  obtain ⟨hblank, _, _, _⟩ := h'
  subst hys
  rw [List.append_assoc] at hwhole
  have hwhole := List.append_cancel_left hwhole
  have hne : block ≠ [] := by
    rintro rfl
    simp at hlength
    omega
  by_contra hys
  refine absurd_of_repetition hsolid hne (hblank.of_append hys) hc.common ?_ ?_
  · rw [hwhole]
    exact List.prefix_append _ _
  · rw [hkept]
    exact List.prefix_append _ _

/-- What is kept tells which blocks were taken out. -/
theorem eq_of_kept_eq {n : Nat} (hn : 0 < n) {c d : Cutting} (hc : c.Clean n) (hd : d.Clean n)
    (hwhole : c.whole = d.whole) (hkept : c.kept = d.kept) : c = d := by
  -- Only a cutting without blocks keeps its whole text.
  have hlonger : ∀ before block e t, (cut before block e).Clean n →
      (cut before block e).whole = t → (cut before block e).kept = t → False := by
    rintro before block e t ⟨_, hlength, _, _⟩ hw hk
    have hlen := congrArg List.length (hw.trans hk.symm)
    have hle := e.length_kept_le
    simp only [whole, kept, List.length_append] at hlen
    omega
  induction c generalizing d with
  | rest text =>
      cases d with
      | rest text' => exact congrArg rest hwhole
      | cut before block tail => exact (hlonger _ _ _ _ hd hwhole.symm hkept.symm).elim
  | cut before block tail ih =>
      cases d with
      | rest text => exact (hlonger _ _ _ _ hc hwhole hkept).elim
      | cut before' block' tail' =>
          simp only [whole, kept] at hwhole hkept
          -- One of the two first blocks comes first; the other cutting cannot go past it.
          have hbefore : before = before' := by
            rcases List.append_eq_append_iff.1 hkept with ⟨ys, hys, hk⟩ | ⟨ys, hys, hk⟩
            · have := before_eq_of_append hn hc hd hwhole hys hk
              rw [hys, this, List.append_nil]
            · have := before_eq_of_append hn hd hc hwhole.symm hys hk
              rw [hys, this, List.append_nil]
          subst hbefore
          obtain ⟨_, hlength, _, htail⟩ := hc
          obtain ⟨_, hlength', _, htail'⟩ := hd
          obtain ⟨rfl, hw⟩ :=
            List.append_inj (List.append_cancel_left hwhole) (hlength.trans hlength'.symm)
          rw [ih htail htail' hw (List.append_cancel_left hkept)]

theorem eq_of_places_eq {n start : Nat} {c d : Cutting} (hc : c.Clean n) (hd : d.Clean n)
    (hwhole : c.whole = d.whole) (hplaces : c.places start = d.places start) : c = d := by
  induction c generalizing d start with
  | rest text =>
      cases d with
      | rest text' => exact congrArg rest hwhole
      | cut before block tail => cases hplaces
  | cut before block tail ih =>
      cases d with
      | rest text => cases hplaces
      | cut before' block' tail' =>
          obtain ⟨_, hlength, _, htail⟩ := hc
          obtain ⟨_, hlength', _, htail'⟩ := hd
          obtain ⟨hplace, hplaces⟩ := List.cons.inj hplaces
          obtain ⟨rfl, hrest⟩ := List.append_inj hwhole (Nat.add_left_cancel hplace)
          obtain ⟨rfl, htails⟩ := List.append_inj hrest (hlength.trans hlength'.symm)
          rw [ih htail htail' htails hplaces]

end Cutting

/-! ## Chunks -/

namespace Chunk

def kept (n : Nat) (k : Chunk) : List Char :=
  match k.place with
  | some p => k.chars.take p ++ k.chars.drop (p + n)
  | none => k.chars

/-- If there is a block, it lies inside, has no blank, and stands right after a blank. -/
def Clean (n : Nat) (k : Chunk) : Prop :=
  ∀ p ∈ k.place, p + n ≤ k.chars.length ∧ EndsBlank (k.chars.take p) ∧
    Solid ((k.chars.drop p).take n)

/-- The places of the blocks of a list of chunks, the first of which begins at the given place. -/
def places (start : Nat) : List Chunk → List Nat
  | [] => []
  | k :: ks => (k.place.map (start + ·)).toList ++ places (start + k.chars.length) ks

/-- The blocks of a list of chunks, marked in the text that the chunks are. -/
def cutting (n : Nat) : List Chunk → Cutting
  | [] => .rest []
  | k :: ks =>
      match k.place with
      | some p =>
          .cut (k.chars.take p) ((k.chars.drop p).take n)
            ((cutting n ks).prepend (k.chars.drop (p + n)))
      | none => (cutting n ks).prepend k.chars

theorem whole_cutting (n : Nat) (ks : List Chunk) :
    (cutting n ks).whole = ks.flatMap (·.chars) := by
  induction ks with
  | nil => rfl
  | cons k ks ih =>
      unfold cutting
      cases k.place with
      | none => simp [ih]
      | some p =>
          have hsplit : (k.chars.drop p).take n ++ k.chars.drop (p + n) = k.chars.drop p := by
            rw [← List.drop_drop, List.take_append_drop]
          simp only [Cutting.whole, Cutting.whole_prepend, List.flatMap_cons, ih]
          rw [← List.append_assoc (List.take n _), hsplit, ← List.append_assoc,
            List.take_append_drop]

theorem kept_cutting (n : Nat) (ks : List Chunk) :
    (cutting n ks).kept = ks.flatMap (kept n) := by
  induction ks with
  | nil => rfl
  | cons k ks ih =>
      unfold cutting
      cases hp : k.place with
      | none => simp [kept, hp, ih]
      | some p => simp [kept, hp, ih, Cutting.kept]

theorem clean_cutting {n : Nat} {ks : List Chunk} (h : ∀ k ∈ ks, k.Clean n) :
    (cutting n ks).Clean n := by
  induction ks with
  | nil => trivial
  | cons k ks ih =>
      obtain ⟨hk, hks⟩ := List.forall_mem_cons.1 h
      unfold cutting
      cases hp : k.place with
      | none => exact (ih hks).prepend _
      | some p =>
          obtain ⟨hle, hblank, hsolid⟩ := hk p hp
          refine ⟨hblank, ?_, hsolid, (ih hks).prepend _⟩
          simp only [List.length_take, List.length_drop]
          omega

theorem places_cutting {n : Nat} {ks : List Chunk} (h : ∀ k ∈ ks, k.Clean n) (start : Nat) :
    (cutting n ks).places start = places start ks := by
  induction ks generalizing start with
  | nil => rfl
  | cons k ks ih =>
      obtain ⟨hk, hks⟩ := List.forall_mem_cons.1 h
      unfold cutting places
      cases hp : k.place with
      | none => simp [Cutting.places_prepend, ih hks]
      | some p =>
          obtain ⟨hle, _, _⟩ := hk p hp
          have hbefore : (k.chars.take p).length = p := by
            rw [List.length_take]
            omega
          have hend : start + p + ((k.chars.drop p).take n).length +
              (k.chars.drop (p + n)).length = start + k.chars.length := by
            simp only [List.length_take, List.length_drop]
            omega
          simp only [Cutting.places, Cutting.places_prepend, hbefore, hend, ih hks]
          simp

/-- Two ways to cut one text into chunks keep the same exactly if their blocks are at the same
places. -/
theorem kept_eq_iff_places_eq {n : Nat} (hn : 0 < n) {ks ls : List Chunk}
    (hk : ∀ k ∈ ks, k.Clean n) (hl : ∀ k ∈ ls, k.Clean n)
    (hchars : ks.flatMap (·.chars) = ls.flatMap (·.chars)) :
    ks.flatMap (kept n) = ls.flatMap (kept n) ↔ places 0 ks = places 0 ls := by
  have hwhole : (cutting n ks).whole = (cutting n ls).whole := by
    rw [whole_cutting, whole_cutting, hchars]
  rw [← kept_cutting, ← kept_cutting, ← places_cutting hk, ← places_cutting hl]
  constructor
  · intro h
    rw [Cutting.eq_of_kept_eq hn (clean_cutting hk) (clean_cutting hl) hwhole h]
  · intro h
    rw [Cutting.eq_of_places_eq (clean_cutting hk) (clean_cutting hl) hwhole h]

end Chunk

end TableScript.Sql
