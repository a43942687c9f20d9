import TableScript.Proofs.Sql.Trimming

/-!
# Where statements stand

A statement says on which lines of the script it stands. The counting goes along the pieces, and
what is trimmed or given to the last statement must not disturb it. `Located` says that statements
follow each other in a text, perhaps with gaps between them, on the lines that are counted; from it
every statement has its place in the script.
-/

namespace TableScript.Sql

open TableScript.Text

/-- Statements that follow each other in a text which begins on the given line, with nothing but
blanks around them. -/
inductive Located : Nat → List Char → List Statement → Prop
  | nil (line : Nat) {rest : List Char} (hrest : ∀ c ∈ rest, isBlank c = true) :
      Located line rest []
  | cons {line : Nat} {gap rest : List Char} {s : Statement} {ss : List Statement}
      (hgap : ∀ c ∈ gap, isBlank c = true) (hne : s.chars ≠ [])
      (hstart : s.lineStart = line + lineBreaks gap)
      (hend : s.lineEnd = s.lineStart + lineBreaks s.chars) (later : Located s.lineEnd rest ss) :
      Located line (gap ++ (s.chars ++ rest)) (s :: ss)

namespace Located

variable {line : Nat} {text : List Char} {ss : List Statement}

/-- Blanks in front of the first statement move the statements down. -/
theorem prepend {gap : List Char} (hgap : ∀ c ∈ gap, isBlank c = true)
    (h : Located (line + lineBreaks gap) text ss) : Located line (gap ++ text) ss := by
  cases h with
  | nil _ hrest => exact .nil line (List.forall_mem_append.2 ⟨hgap, hrest⟩)
  | @cons _ gap' rest s ss hgap' hne hstart hend later =>
      rw [← List.append_assoc]
      refine .cons (List.forall_mem_append.2 ⟨hgap, hgap'⟩) hne ?_ hend later
      rw [hstart, lineBreaks_append, Nat.add_assoc]

/-- A statement that stands at the front, and blanks up to the next one. -/
theorem cons_of_front {s : Statement} (back : List Char) (hne : s.chars ≠ [])
    (hstart : s.lineStart = line) (hend : s.lineEnd = s.lineStart + lineBreaks s.chars)
    (hback : ∀ c ∈ back, isBlank c = true)
    (later : Located (line + lineBreaks (s.chars ++ back)) text ss) :
    Located line (s.chars ++ (back ++ text)) (s :: ss) := by
  refine @cons line [] _ s ss (by simp) hne hstart hend (prepend hback ?_)
  rwa [hend, hstart, Nat.add_assoc, ← lineBreaks_append]

end Located

/-! ## Both ways to split -/

variable {ps : List (List Token)}

/-- Trimming moves a statement down by the lines that are cut off in front of it. -/
theorem located_trimmedFrom (line : Nat) (h : ∀ p ∈ ps, ∃ c ∈ Token.concat p, isBlank c = false)
    {rest : List Char} (hrest : ∀ c ∈ rest, isBlank c = true) :
    Located line (Token.concat ps.flatten ++ rest) (trimmedFrom line ps) := by
  induction ps generalizing line with
  | nil => exact .nil line hrest
  | cons p ps ih =>
      obtain ⟨hp, hps⟩ := List.forall_mem_cons.1 h
      obtain ⟨s, hs, htrims, hend⟩ := trimmed?_eq_some line hp
      obtain ⟨front, back, hchars, hfront, hback, hstart⟩ := htrims.margins
      have hfrom : trimmedFrom line (p :: ps) =
          s :: trimmedFrom (line + lineBreaks (Token.concat p)) ps := by
        rw [trimmedFrom, hs]
        rfl
      have hline : line + lineBreaks front + lineBreaks (s.chars ++ back) =
          line + lineBreaks (Token.concat p) := by
        rw [Nat.add_assoc, ← lineBreaks_append]
        exact congrArg (line + lineBreaks ·) hchars.symm
      have htext : Token.concat (p :: ps).flatten ++ rest =
          front ++ (s.chars ++ (back ++ (Token.concat ps.flatten ++ rest))) := by
        change Token.concat p = _ at hchars
        simp only [List.flatten_cons, Token.concat_append, hchars, List.append_assoc]
      rw [hfrom, htext]
      refine Located.prepend hfront (Located.cons_of_front back htrims.ne_nil hstart hend hback ?_)
      rw [hline]
      exact ih _ hps

/-- Without trimming there is no gap, and what is given to the last statement stood behind it. -/
theorem located_extendLast (line : Nat) (h : ∀ p ∈ ps, ∃ c ∈ Token.concat p, isBlank c = false)
    {tail : List Char} (htail : ∀ c ∈ tail, isBlank c = true) :
    Located line (Token.concat ps.flatten ++ tail) (extendLast tail (wholeFrom line ps)) := by
  induction ps generalizing line with
  | nil => exact .nil line htail
  | cons p ps ih =>
      obtain ⟨⟨c, hc, _⟩, hps⟩ := List.forall_mem_cons.1 h
      have hne := List.ne_nil_of_mem hc
      cases ps with
      | nil =>
          have hend : line + lineBreaks (Token.concat p) + lineBreaks tail =
              line + lineBreaks (Token.concat p ++ tail) := by
            rw [lineBreaks_append, Nat.add_assoc]
          have hlast := Located.cons_of_front (s := (whole line p).extend tail) []
            (List.append_ne_nil_of_left_ne_nil hne tail) rfl hend (by simp)
            (.nil _ (List.forall_mem_nil _))
          simpa [Statement.extend, whole, extendLast, wholeFrom] using hlast
      | cons p' ps =>
          have hlater : Located (line + lineBreaks (Token.concat p ++ []))
              (Token.concat (p' :: ps).flatten ++ tail)
              (extendLast tail (wholeFrom (line + lineBreaks (Token.concat p)) (p' :: ps))) := by
            rw [List.append_nil]
            exact ih _ hps
          have hfirst := Located.cons_of_front (s := whole line p) [] hne rfl rfl
            (by simp) hlater
          rw [List.flatten_cons, Token.concat_append, List.append_assoc]
          exact hfirst

/-! ## Places -/

/-- A statement and the place in a script where it begins. -/
structure Placed where
  place : Nat
  statement : Statement

namespace Placed

/-- The statement is not empty, the script goes on with it at its place, and its lines count the
line breaks in front of it and inside. -/
structure StandsIn (cs : List Char) (x : Placed) : Prop where
  ne_nil : x.statement.chars ≠ []
  slice : x.statement.chars <+: cs.drop x.place
  lineStart_eq : x.statement.lineStart = 1 + lineBreaks (cs.take x.place)
  lineEnd_eq : x.statement.lineEnd = x.statement.lineStart + lineBreaks x.statement.chars

/-- One statement begins after the other one has ended. -/
structure Before (x y : Placed) : Prop where
  place_lt : x.place < y.place
  apart : x.place + x.statement.chars.length ≤ y.place
  lines : x.statement.lineEnd ≤ y.statement.lineStart

/-- The statement reaches over a place of the script. -/
def Holds (x : Placed) (i : Nat) : Prop :=
  x.place ≤ i ∧ i < x.place + x.statement.chars.length

end Placed

/-- Statements that follow each other in a text have their places there, behind everything that
stands in front of the text, and hold all of it but blanks. -/
theorem Located.exists_placed {line : Nat} {text : List Char} {ss : List Statement}
    (h : Located line text ss) (front : List Char) (hline : line = 1 + lineBreaks front) :
    ∃ xs : List Placed, xs.map (·.statement) = ss ∧
      (∀ x ∈ xs, x.StandsIn (front ++ text) ∧ front.length ≤ x.place ∧
        line ≤ x.statement.lineStart) ∧
      xs.Pairwise Placed.Before ∧
      ∀ i c, text[i]? = some c → isBlank c = false → ∃ x ∈ xs, x.Holds (front.length + i) := by
  induction h generalizing front with
  | nil line hrest =>
      refine ⟨[], rfl, by simp, .nil, fun i c hc hsolid => ?_⟩
      rw [hrest c (List.mem_of_getElem? hc)] at hsolid
      cases hsolid
  | @cons line gap rest s ss hgap hne hstart hend later ih =>
      have hfront : s.lineEnd = 1 + lineBreaks (front ++ gap ++ s.chars) := by
        rw [hend, hstart, hline, lineBreaks_append, lineBreaks_append]
        omega
      obtain ⟨xs, hxs, hstand, hpairwise, hcover⟩ := ih (front ++ gap ++ s.chars) hfront
      have htext : front ++ (gap ++ (s.chars ++ rest)) = front ++ gap ++ s.chars ++ rest := by
        simp only [List.append_assoc]
      have hslice : (front ++ (gap ++ (s.chars ++ rest))).drop (front ++ gap).length =
          s.chars ++ rest := by
        rw [← List.append_assoc, List.drop_left]
      have hbefore : (front ++ (gap ++ (s.chars ++ rest))).take (front ++ gap).length =
          front ++ gap := by
        rw [← List.append_assoc, List.take_left]
      refine ⟨⟨(front ++ gap).length, s⟩ :: xs, by rw [List.map_cons, hxs], ?_, ?_, ?_⟩
      · refine List.forall_mem_cons.2 ⟨⟨⟨hne, ?_, ?_, hend⟩, ?_, ?_⟩, fun x hx => ?_⟩
        · rw [hslice]
          exact List.prefix_append s.chars rest
        · rw [hbefore, hstart, hline, lineBreaks_append, Nat.add_assoc]
        · simp
        · simp [hstart]
        · obtain ⟨hx, hplace, hline⟩ := hstand x hx
          rw [htext]
          simp only [List.length_append] at hplace
          exact ⟨hx, by omega, by omega⟩
      · refine .cons (fun x hx => ?_) hpairwise
        obtain ⟨_, hplace, hline⟩ := hstand x hx
        have hpos : 0 < s.chars.length := List.length_pos_iff.2 hne
        rw [List.length_append] at hplace
        exact ⟨by simp only; omega, hplace, hline⟩
      · -- A character stands among the blanks in front, in the statement, or behind it.
        intro i c hc hsolid
        rcases Nat.lt_or_ge i gap.length with hi | hi
        · rw [List.getElem?_append_left hi] at hc
          rw [hgap c (List.mem_of_getElem? hc)] at hsolid
          cases hsolid
        rw [List.getElem?_append_right hi] at hc
        rcases Nat.lt_or_ge (i - gap.length) s.chars.length with hj | hj
        · refine ⟨_, List.mem_cons_self, ?_, ?_⟩ <;> simp only [List.length_append] <;> omega
        · rw [List.getElem?_append_right hj] at hc
          obtain ⟨x, hx, hholds⟩ := hcover _ c hc hsolid
          refine ⟨x, List.mem_cons_of_mem _ hx, ?_⟩
          have hplace : (front ++ gap ++ s.chars).length + (i - gap.length - s.chars.length) =
              front.length + i := by
            simp only [List.length_append]
            omega
          rwa [hplace] at hholds

/-- Whether or not they are stripped, the statements of a script stand in it one after the other,
with only blanks around them, and their lines are the lines of the script on which they stand. -/
theorem split_located (strip : Bool) {cs : List Char} (h : Grouped cs) :
    ∃ (ss : List Statement) (xs : List Placed), split strip cs = .ok ss ∧
      xs.map (·.statement) = ss ∧ (∀ x ∈ xs, x.StandsIn cs) ∧ xs.Pairwise Placed.Before ∧
      (∀ s ∈ ss, s.lineStart ≤ s.lineEnd) ∧
      ∀ i c, cs[i]? = some c → isBlank c = false → ∃ x ∈ xs, x.Holds i := by
  obtain ⟨ss, hss⟩ : ∃ ss, split strip cs = .ok ss := ⟨_, split_eq_ok_iff.2 ⟨h, rfl⟩⟩
  have hlocated : Located 1 cs ss := by
    cases strip with
    | true =>
        obtain ⟨_, rfl⟩ := split_eq_ok_iff.1 hss
        obtain ⟨tail, hcs, htail, _⟩ := exists_tail (split_eq_ok_iff.2 ⟨h, rfl⟩)
        have hpieces := located_trimmedFrom 1 (exists_solid_of_mem_pieces cs) htail
        rwa [← hcs] at hpieces
    | false =>
        obtain ⟨tail, hcs, htail, rfl⟩ := exists_tail hss
        have hpieces := located_extendLast 1 (exists_solid_of_mem_pieces cs) htail
        rwa [← hcs] at hpieces
  obtain ⟨xs, hxs, hstand, hpairwise, hcover⟩ := hlocated.exists_placed [] rfl
  refine ⟨ss, xs, hss, hxs, fun x hx => (hstand x hx).1, hpairwise, ?_, fun i c hc hsolid => ?_⟩
  · rw [← hxs, List.forall_mem_map]
    intro x hx
    rw [(hstand x hx).1.lineEnd_eq]
    exact Nat.le_add_right _ _
  · obtain ⟨x, hx, hholds⟩ := hcover i c hc hsolid
    rw [List.length_nil, Nat.zero_add] at hholds
    exact ⟨x, hx, hholds⟩

/-- Line breaks in front of a statement, inside a literal and at the end, which belongs to the last
statement. -/
theorem split_located_literal :
    let cs := "\n insert into t values ('a\nb;') ; \n\n delete from t \n ".toList
    Grouped cs ∧ ∃ (ss : List Statement) (xs : List Placed), split false cs = .ok ss ∧
      xs.map (·.statement) = ss ∧ (∀ x ∈ xs, x.StandsIn cs) ∧ xs.Pairwise Placed.Before ∧
      ss.map (fun s => (s.lineStart, s.lineEnd)) = [(1, 3), (3, 6)] := by
  intro cs
  have hgrouped : Grouped cs := by decide +kernel
  obtain ⟨ss, xs, hss, hxs, hstand, hpairwise, _, _⟩ := split_located false hgrouped
  refine ⟨hgrouped, ss, xs, hss, hxs, hstand, hpairwise, ?_⟩
  obtain ⟨_, rfl⟩ := split_eq_ok_iff.1 hss
  decide +kernel

end TableScript.Sql
