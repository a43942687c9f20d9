import Mathlib.Data.List.TakeWhile
import TableScript.Proofs.Sql.Coverage
import TableScript.Proofs.Sql.Extent
import TableScript.Proofs.Sql.Literal
import TableScript.Proofs.Sql.Reference

/-!
# What stands between literals

Where nothing opens a quotation or a comment, no token reaches into a literal, and a literal without
a backslash is one token. So every statement of such a script begins between two literals, or with
one, and if the text between literals nowhere mentions a name after a blank, no statement refers to
it, whatever the literals hold.
-/

namespace TableScript.Sql

open TableScript.Text

/-! ## Text that opens nothing -/

/-- The marks of quotations, and the number sign of a comment. -/
def runawayMarks : List Char := ['\x27', '"', '\x60', '\u00b4', '$', '[', '#']

/-- Whether a text has none of these marks, and no other beginning of a comment. -/
def isTame : List Char → Bool
  | [] => true
  | c :: rest =>
      !runawayMarks.contains c && !(c == '-' && rest.head? == some '-') &&
        !(c == '/' && rest.head? == some '*') && isTame rest

theorem isTame_drop {cs : List Char} (h : isTame cs = true) (n : Nat) :
    isTame (cs.drop n) = true := by
  induction n generalizing cs with
  | zero => exact h
  | succ n ih =>
      cases cs with
      | nil => rfl
      | cons c rest =>
          rw [isTame, Bool.and_eq_true] at h
          exact ih h.2

theorem isTame_append {xs ys : List Char} (hx : isTame xs = true) (hy : isTame ys = true)
    (hhead : ∀ c ∈ ys.head?, c ≠ '-' ∧ c ≠ '*') : isTame (xs ++ ys) = true := by
  induction xs with
  | nil => exact hy
  | cons c xs ih =>
      simp only [isTame, Bool.and_eq_true] at hx
      obtain ⟨⟨⟨hc, hdash⟩, hslash⟩, hxs⟩ := hx
      have hcomment : ∀ d, d = '-' ∨ d = '*' → (xs ++ ys).head? = some d → xs.head? = some d := by
        intro d hd hhead'
        cases xs with
        | nil =>
            obtain ⟨hne, hne'⟩ := hhead d hhead'
            rcases hd with rfl | rfl
            · exact absurd rfl hne
            · exact absurd rfl hne'
        | cons x xs => exact hhead'
      simp only [List.cons_append, isTame, Bool.and_eq_true]
      refine ⟨⟨⟨hc, ?_⟩, ?_⟩, ih hxs⟩
      · simp only [Bool.not_eq_true', Bool.and_eq_false_iff, beq_eq_false_iff_ne, ne_eq] at hdash ⊢
        exact hdash.imp_right fun hne h => hne (hcomment '-' (Or.inl rfl) h)
      · simp only [Bool.not_eq_true', Bool.and_eq_false_iff, beq_eq_false_iff_ne, ne_eq] at hslash ⊢
        exact hslash.imp_right fun hne h => hne (hcomment '*' (Or.inr rfl) h)

theorem quoteFree_of_isTame {cs : List Char} (h : isTame cs = true) : '\x27' ∉ cs := by
  induction cs with
  | nil => simp
  | cons c rest ih =>
      simp only [isTame, Bool.and_eq_true] at h
      intro hmem
      rcases List.mem_cons.1 hmem with rfl | hmem
      · exact absurd h.1.1.1 (by decide)
      · exact ih h.2 hmem

/-- The last character before blanks at the end is neither an E nor an H. -/
def SparesTime (cs : List Char) : Prop :=
  ∀ front e gap, cs = front ++ e :: gap → (∀ c ∈ gap, isBlank c = true) → capital e ∉ ['E', 'H']

theorem SparesTime.drop {cs : List Char} (h : SparesTime cs) (n : Nat) :
    SparesTime (cs.drop n) := by
  intro front e gap hsplit hgap
  refine h (cs.take n ++ front) e gap ?_ hgap
  rw [List.append_assoc, ← hsplit, List.take_append_drop]

theorem sparesTime_is (cs : List Char) : SparesTime (cs ++ ['s', ' ']) := by
  intro front e gap hsplit hgap
  have hreverse : ' ' :: 's' :: cs.reverse = gap.reverse ++ e :: front.reverse := by
    have := congrArg List.reverse hsplit
    simpa using this
  rcases hg : gap.reverse with _ | ⟨b, _ | ⟨b', more⟩⟩ <;>
    simp only [hg, List.nil_append, List.cons_append, List.cons.injEq] at hreverse
  · rw [← hreverse.1]
    decide
  · rw [← hreverse.2.1]
    decide
  · have hblank := hgap b' (List.mem_reverse.1 (by rw [hg]; simp))
    rw [← hreverse.2.1] at hblank
    exact absurd hblank (by decide)

/-- What may follow the text between literals: nothing, or a literal that no time zone opens. -/
def Meets (cs rest : List Char) : Prop :=
  rest = [] ∨ (∃ more, rest = '\x27' :: more) ∧ SparesTime cs

theorem Meets.drop {cs rest : List Char} (h : Meets cs rest) (n : Nat) : Meets (cs.drop n) rest :=
  h.imp_right fun ⟨hrest, hspares⟩ => ⟨hrest, hspares.drop n⟩

/-- A text up to an apostrophe that has none is what comes before the first. -/
theorem eq_length_of_quote {cs more : List Char} (hcs : '\x27' ∉ cs) {m : Nat}
    (htake : '\x27' ∉ (cs ++ '\x27' :: more).take m)
    (hhead : ((cs ++ '\x27' :: more).drop m).head? = some '\x27') : m = cs.length := by
  rcases Nat.lt_trichotomy m cs.length with hlt | heq | hgt
  · rw [List.drop_append_of_le_length (Nat.le_of_lt hlt), List.drop_eq_getElem_cons hlt] at hhead
    simp only [List.cons_append, List.head?_cons, Option.some.injEq] at hhead
    exact absurd (hhead ▸ List.getElem_mem hlt) hcs
  · exact heq
  · refine absurd ?_ htake
    obtain ⟨k, rfl⟩ := Nat.exists_eq_add_of_lt hgt
    rw [Nat.add_assoc, List.take_length_add_append]
    simp

theorem Meets.timeZone_eq_none {cs rest : List Char} (hcs : '\x27' ∉ cs) (h : Meets cs rest)
    (before : Option Char) : Rule.timeZone before (cs ++ rest) = none := by
  cases hm : Rule.timeZone before (cs ++ rest) with
  | none => rfl
  | some p =>
      obtain ⟨m, front, e, gap, hinner, hhead, htake, he, hgap⟩ := Rule.timeZone_eq_some hm
      rcases h with rfl | ⟨⟨more, rfl⟩, hspares⟩
      · have hquote := List.mem_of_mem_drop (List.mem_of_mem_head? hhead)
        rw [List.append_nil] at hquote
        exact absurd hquote hcs
      · have hlength := eq_length_of_quote hcs (fun hq => hinner _ hq (by decide)) hhead
        rw [hlength, List.take_left] at htake
        exact absurd he (hspares front e gap htake hgap)

/-- The text and the literal after it go on with a character other than an apostrophe only if the
text does. -/
theorem Meets.head?_ne {c d : Char} {cs rest : List Char} (h : Meets (c :: cs) rest)
    (hd : d ≠ '\x27') (hne : cs.head? ≠ some d) : (cs ++ rest).head? ≠ some d := by
  cases cs with
  | cons x xs => exact hne
  | nil =>
      rcases h with rfl | ⟨⟨more, rfl⟩, _⟩
      · exact hne
      · exact fun hhead => hd (Option.some.inj hhead).symm

/-! ## Tokens between literals -/

theorem Rule.lineComment_eq_none {c : Char} {cs : List Char} {before : Option Char}
    (hnumber : c ≠ '#') (hdash : c = '-' → cs.head? ≠ some '-') :
    lineComment before (c :: cs) = none := by
  unfold lineComment
  split
  · rename_i more heq
    obtain ⟨rfl, rfl⟩ := List.cons.inj heq
    exact absurd rfl (hdash rfl)
  · rename_i more heq
    exact absurd (List.cons.inj heq).1 hnumber
  · rfl

theorem Rule.blockComment_eq_none {c : Char} {cs : List Char} {before : Option Char}
    (hslash : c = '/' → cs.head? ≠ some '*') : blockComment before (c :: cs) = none := by
  unfold blockComment
  split
  · rename_i more heq
    obtain ⟨rfl, rfl⟩ := List.cons.inj heq
    exact absurd rfl (hslash rfl)
  · rfl

/-- A token of such a text does not reach into the literal after it. -/
theorem quoteFree_firstMatch {c : Char} {cs rest : List Char} (htame : isTame (c :: cs) = true)
    (hmeets : Meets (c :: cs) rest) {before : Option Char} {k : TokenKind} {n : Nat}
    (h : firstMatch before (c :: cs ++ rest) = (k, n)) : '\x27' ∉ (c :: cs ++ rest).take n := by
  have hquote := quoteFree_of_isTame htame
  simp only [isTame, Bool.and_eq_true] at htame
  obtain ⟨⟨⟨hc, hdash⟩, hslash⟩, _⟩ := htame
  have hopens : ∀ {marks : List Char} {kinds : List TokenKind} {r : Rule}, r.OpensWith marks kinds →
      marks ⊆ runawayMarks → r before (c :: cs ++ rest) = some (k, n) →
        '\x27' ∉ (c :: cs ++ rest).take n := by
    intro marks kinds r hr hmarks hm
    obtain ⟨⟨d, hd, hhead⟩, _⟩ := hr before _ k n hm
    cases hhead
    simp [hmarks hd] at hc
  have hinside : ∀ {r : Rule}, r.StaysInside → r before (c :: cs ++ rest) = some (k, n) →
      '\x27' ∉ (c :: cs ++ rest).take n := fun hr hm hq => hr before _ k n hm _ hq (by decide)
  have hline : Rule.lineComment before (c :: cs ++ rest) = none := by
    refine Rule.lineComment_eq_none ?_ ?_
    · rintro rfl
      exact absurd hc (by decide)
    · rintro rfl
      exact hmeets.head?_ne (by decide) (by simpa using hdash)
  have hblock : Rule.blockComment before (c :: cs ++ rest) = none := by
    refine Rule.blockComment_eq_none ?_
    rintro rfl
    exact hmeets.head?_ne (by decide) (by simpa using hslash)
  have htime := hmeets.timeZone_eq_none hquote before
  have hnone : ∀ {r : Rule}, r before (c :: cs ++ rest) = none →
      r before (c :: cs ++ rest) = some (k, n) → '\x27' ∉ (c :: cs ++ rest).take n := by
    intro r hr hm
    rw [hr] at hm
    cases hm
  rcases firstMatch_cases h with ⟨r, hr, hm⟩ | ⟨_, _, rfl⟩
  · revert r
    simp only [rules, List.forall_mem_cons]
    exact ⟨hopens Rule.opensWith_dollarString (by decide), hnone hblock, hnone hline,
      hinside Rule.staysInside_newline, hinside Rule.staysInside_blank,
      hinside Rule.staysInside_shortMark, hopens (Rule.opensWith_markedName _) (by decide),
      hopens (Rule.opensWith_markedName _) (by decide), Rule.placeholder_quoteFree,
      hinside Rule.staysInside_markedWord, hinside Rule.staysInside_command,
      hinside (Rule.staysInside_phrases _ (by decide)), hinside Rule.staysInside_sigilName,
      hinside Rule.staysInside_qualifyingName, hinside Rule.staysInside_qualifiedName,
      hinside Rule.staysInside_calledName, hinside Rule.staysInside_hexNumber,
      hinside Rule.staysInside_exponentNumber, hinside Rule.staysInside_pointNumber,
      hinside Rule.staysInside_wholeNumber, hopens (Rule.opensWith_quotedString _) (by decide),
      hopens (Rule.opensWith_quotedString _) (by decide),
      hopens Rule.opensWith_bracketedName (by decide),
      hinside (Rule.staysInside_phrases _ (by decide)),
      hinside (Rule.staysInside_phrases _ (by decide)),
      hinside (Rule.staysInside_phrases _ (by decide)),
      hinside (Rule.staysInside_phrases _ (by decide)),
      hinside (Rule.staysInside_phrases _ (by decide)),
      hinside (Rule.staysInside_phrases _ (by decide)),
      hinside (Rule.staysInside_phrases _ (by decide)),
      hinside (Rule.staysInside_phrases _ (by decide)),
      hinside Rule.staysInside_repeatedBatch,
      hinside (Rule.staysInside_phrases _ (by decide)), hnone htime,
      hinside (Rule.staysInside_phrases _ (by decide)), hinside Rule.staysInside_word,
      Rule.punctuation_quoteFree, hinside Rule.staysInside_documentOperator,
      hinside (Rule.staysInside_run (by decide)), hinside (Rule.staysInside_run (by decide)),
      by simp⟩
  · intro hmem
    refine hquote (List.mem_cons.2 (Or.inl ?_))
    simpa using hmem

theorem meets_eq_append {c : Char} {cs rest : List Char} (hmeets : Meets (c :: cs) rest) {n : Nat}
    (h : '\x27' ∉ (c :: cs ++ rest).take n) :
    (cs ++ rest).take (n - 1) = cs.take (n - 1) ∧
      (cs ++ rest).drop (n - 1) = cs.drop (n - 1) ++ rest := by
  rcases hmeets with rfl | ⟨⟨more, rfl⟩, _⟩
  · simp
  · have hle : n - 1 ≤ cs.length := by
      by_contra hlt
      refine h ?_
      obtain ⟨k, hk⟩ : ∃ k, n = cs.length + (k + 1) + 1 := ⟨n - cs.length - 2, by omega⟩
      rw [hk, List.cons_append, List.take_succ_cons, List.take_length_add_append]
      simp
    exact ⟨List.take_append_of_le_length hle, List.drop_append_of_le_length hle⟩

/-- The tokens of a script respect the end of a text that opens nothing. -/
theorem tokensFrom_tame {cs rest : List Char} (htame : isTame cs = true) (hmeets : Meets cs rest)
    (before : Option Char) :
    ∃ ts last, tokensFrom before (cs ++ rest) = ts ++ tokensFrom last rest ∧
      Token.concat ts = cs := by
  induction hlen : cs.length using Nat.strongRecOn generalizing cs before with
  | _ n ih =>
      cases cs with
      | nil => exact ⟨[], before, rfl, rfl⟩
      | cons c cs =>
          rcases hm : firstMatch before (c :: cs ++ rest) with ⟨k, m⟩
          obtain ⟨htake, hdrop⟩ :=
            meets_eq_append hmeets (quoteFree_firstMatch htame hmeets hm)
          have hshort : (cs.drop (m - 1)).length < n := by
            rw [← hlen, List.length_drop, List.length_cons]
            omega
          have htame' : isTame (cs.drop (m - 1)) = true := isTame_drop htame (m - 1 + 1)
          have hmeets' : Meets (cs.drop (m - 1)) rest := hmeets.drop (m - 1 + 1)
          obtain ⟨ts, last, htokens, hconcat⟩ :=
            ih _ hshort htame' hmeets' (c :: cs.take (m - 1)).getLast? rfl
          refine ⟨⟨k, c :: cs.take (m - 1)⟩ :: ts, last, ?_, ?_⟩
          · rw [List.cons_append, tokensFrom, ← List.cons_append, hm]
            simp only [htake, hdrop, htokens, List.cons_append]
          · rw [Token.concat_cons, hconcat, List.cons_append, List.take_append_drop]

/-! ## Text that does not mention a name -/

/-- No part of a text between blanks begins with the name. -/
def Unmentioned (name cs : List Char) : Prop :=
  ∀ part ∈ cs.splitOnP isBlank, beginsWith name part = false

instance (name cs : List Char) : Decidable (Unmentioned name cs) :=
  inferInstanceAs (Decidable (∀ part ∈ cs.splitOnP isBlank, beginsWith name part = false))

theorem unmentioned_append_iff {name xs ys : List Char} {b : Char} (hb : isBlank b = true) :
    Unmentioned name (xs ++ b :: ys) ↔ Unmentioned name xs ∧ Unmentioned name ys := by
  simp only [Unmentioned, List.splitOnP_append_cons _ _ hb, List.forall_mem_append]

theorem unmentioned_of_solid {name cs : List Char} (hcs : Solid cs)
    (h : beginsWith name cs = false) : Unmentioned name cs := by
  rw [Unmentioned, List.splitOnP_eq_singleton hcs]
  simpa using h

/-- A text that begins with the name has a first part that does. -/
theorem Unmentioned.beginsWith_eq_false {name cs : List Char} (h : Unmentioned name cs)
    (hname : Solid name) : beginsWith name cs = false := by
  rw [← Bool.not_eq_true]
  intro hbegins
  obtain ⟨mid, post, rfl, hnamed⟩ := beginsWith_iff.1 hbegins
  have hmid := hnamed.solid hname
  -- The first part is the name and what follows it up to the next blank.
  have hpart : ∀ part, Solid part → Unmentioned name (mid ++ part) → False := by
    intro part hpart hun
    have hsolid : Solid (mid ++ part) := fun c hc =>
      (List.mem_append.1 hc).elim (hmid c) (hpart c)
    rw [Unmentioned, List.splitOnP_eq_singleton hsolid] at hun
    have := hun _ (List.mem_singleton.2 rfl)
    rw [beginsWith_iff.2 ⟨mid, part, rfl, hnamed⟩] at this
    cases this
  have hword : Solid (post.takeWhile (!isBlank ·)) := fun c hc => by
    simpa using List.mem_takeWhile_imp hc
  rcases hrest : post.dropWhile (!isBlank ·) with _ | ⟨b, more⟩
  · rw [List.dropWhile_eq_nil_iff] at hrest
    exact hpart post (fun c hc => by simpa using hrest c hc) h
  · have hb : isBlank b = true := by
      have := List.head_dropWhile_not (!isBlank ·) (l := post) (by rw [hrest]; simp)
      simpa [hrest] using this
    rw [← List.takeWhile_append_dropWhile (p := (!isBlank ·)) (l := post), hrest,
      ← List.append_assoc, unmentioned_append_iff hb] at h
    exact hpart _ hword h.1

/-- Characters of the text between names, types and default values. -/
def isBare (c : Char) : Bool :=
  c.isAlphanum || [' ', '\n', '_', ',', '(', ')', ';'].contains c

theorem isBare_ascii {c : Char} (hc : isBare c = true) : c.toNat < 128 :=
  toNat_lt_of_marks (by decide) hc

theorem isBare_not_mem {c : Char} (hc : isBare c = true) : c ∉ '-' :: '/' :: runawayMarks := by
  have hascii := isBare_ascii hc
  revert hc
  refine forall_ascii c hascii ?_
  decide +kernel

theorem isBare_ne_point {c : Char} (hc : isBare c = true) : sameLetter '.' c = false := by
  have hascii := isBare_ascii hc
  revert hc
  refine forall_ascii c hascii ?_
  decide +kernel

/-- A text of bare characters, with parts between blanks that open nothing and do not mention the
name. -/
inductive Settled (name : List Char) : List Char → Prop
  | bare {cs : List Char} (h : ∀ c ∈ cs, isBare c = true) : Settled name cs
  | part {cs inside after : List Char} (hcs : Settled name cs) (htame : isTame inside = true)
      (hname : Unmentioned name inside) (hafter : ∀ c ∈ after, isBare c = true) :
      Settled name (cs ++ ' ' :: (inside ++ ' ' :: after))

theorem isTame_of_bare {cs : List Char} (h : ∀ c ∈ cs, isBare c = true) : isTame cs = true := by
  induction cs with
  | nil => rfl
  | cons c rest ih =>
      obtain ⟨hc, hrest⟩ := List.forall_mem_cons.1 h
      have hnot := isBare_not_mem hc
      simp only [List.mem_cons, not_or] at hnot
      simp [isTame, ih hrest, hnot]

theorem mem_of_mem_splitOnP {p : Char → Bool} {cs part : List Char} (h : part ∈ cs.splitOnP p) :
    ∀ c ∈ part, c ∈ cs := by
  induction cs generalizing part with
  | nil =>
      rw [List.splitOnP_nil, List.mem_singleton] at h
      simp [h]
  | cons d cs ih =>
      rw [List.splitOnP_cons_eq_if_modifyHead] at h
      split at h
      · rcases List.mem_cons.1 h with rfl | h
        · simp
        · exact fun c hc => List.mem_cons_of_mem d (ih h c hc)
      · cases hs : cs.splitOnP p with
        | nil => simp [hs] at h
        | cons first rest =>
            rw [hs, List.modifyHead_cons] at h
            rcases List.mem_cons.1 h with rfl | h
            · intro c hc
              rcases List.mem_cons.1 hc with rfl | hc
              · exact List.mem_cons_self
              · exact List.mem_cons_of_mem d (ih (by rw [hs]; simp) c hc)
            · exact fun c hc => List.mem_cons_of_mem d (ih (by rw [hs]; simp [h]) c hc)

/-- A name with a point is not mentioned where there is none. -/
theorem unmentioned_of_bare {name cs : List Char} (hname : '.' ∈ name)
    (h : ∀ c ∈ cs, isBare c = true) : Unmentioned name cs := by
  intro part hpart
  rw [← Bool.not_eq_true]
  intro hbegins
  obtain ⟨mid, post, rfl, hnamed⟩ := beginsWith_iff.1 hbegins
  obtain ⟨c, hc, hpoint⟩ := hnamed.exists_right hname
  rw [isBare_ne_point (h c (mem_of_mem_splitOnP hpart c (by simp [hc])))] at hpoint
  cases hpoint

namespace Settled

variable {name : List Char}

theorem append {xs ys : List Char} (hx : Settled name xs) (hy : Settled name ys) :
    Settled name (xs ++ ys) := by
  induction hy with
  | bare hy =>
      cases hx with
      | bare hx => exact .bare (List.forall_mem_append.2 ⟨hx, hy⟩)
      | part hcs htame hname hafter =>
          have h := Settled.part hcs htame hname (List.forall_mem_append.2 ⟨hafter, hy⟩)
          simpa using h
  | part _ htame hname hafter ih =>
      rw [← List.append_assoc]
      exact .part ih htame hname hafter

theorem isTame {cs : List Char} (h : Settled name cs) : Sql.isTame cs = true := by
  induction h with
  | bare h => exact isTame_of_bare h
  | part _ htame _ hafter ih =>
      have hspace : ∀ {xs}, Sql.isTame xs = true → Sql.isTame (' ' :: xs) = true := fun hx => by
        simpa [Sql.isTame, runawayMarks] using hx
      exact isTame_append ih (hspace (isTame_append htame (hspace (isTame_of_bare hafter)) (by simp)))
        (by simp)

theorem unmentioned {cs : List Char} (hname : '.' ∈ name) (h : Settled name cs) :
    Unmentioned name cs := by
  induction h with
  | bare h => exact unmentioned_of_bare hname h
  | part _ _ hinside hafter ih =>
      rw [unmentioned_append_iff (by decide), unmentioned_append_iff (by decide)]
      exact ⟨ih, hinside, unmentioned_of_bare hname hafter⟩

/-- After a blank, the text does not go on with the name. -/
theorem beginsWith_eq_false (hpoint : '.' ∈ name) (hname : Solid name) {front cs : List Char}
    (hfront : EndsBlank front) (h : Settled name (front ++ cs)) : beginsWith name cs = false := by
  obtain ⟨front, b, rfl, hb⟩ := hfront
  have hun := h.unmentioned hpoint
  rw [List.append_assoc, List.singleton_append, unmentioned_append_iff hb] at hun
  exact hun.2.beginsWith_eq_false hname

end Settled

/-! ## Texts and literals in turn -/

def literal (cs : List Char) : List Char := encloseName '\x27' '\x27' cs

/-- A text and the literal after it, which the word `is` introduces. -/
structure Introduces (name : List Char) (p : List Char × List Char) : Prop where
  settled : Settled name p.1
  introduced : ∃ front, p.1 = front ++ ['s', ' ']
  plain : '\\' ∉ p.2

/-- What stands at the beginning of some tokens: the end of a text between literals, and then
nothing or a literal. -/
def BeginsBetween (name cs : List Char) : Prop :=
  ∃ front ends rest, Settled name (front ++ ends) ∧ cs = ends ++ rest ∧
    (rest = [] ∨ rest.head? = some '\x27')

variable {name : List Char}

/-- The tokens of a text and what follows it, from one of them on. -/
theorem beginsBetween_or_length_lt {cs rest : List Char} (hcs : Settled name cs)
    (hrest : rest = [] ∨ rest.head? = some '\x27') {ts us front q : List Token}
    (hts : Token.concat ts = cs) (hus : Token.concat us = rest) (h : ts ++ us = front ++ q) :
    BeginsBetween name (Token.concat q) ∨ ∃ skipped, skipped ≠ [] ∧ us = skipped ++ q := by
  rcases List.append_eq_append_iff.1 h with ⟨skipped, rfl, rfl⟩ | ⟨ends, rfl, rfl⟩
  · by_cases hnil : skipped = []
    · subst hnil
      exact Or.inl ⟨cs, [], rest, by simpa using hcs, by simpa using hus, hrest⟩
    · exact Or.inr ⟨skipped, hnil, rfl⟩
  · refine Or.inl ⟨Token.concat front, Token.concat ends, rest, ?_, ?_, hrest⟩
    · rwa [← Token.concat_append, hts]
    · rw [Token.concat_append, hus]

theorem head?_literals {ps : List (List Char × List Char)} (hps : ∀ p ∈ ps, Introduces name p) :
    (ps.flatMap fun p => p.1 ++ literal p.2).head? ≠ some '\x27' := by
  cases ps with
  | nil => simp
  | cons p ps =>
      obtain ⟨hsettled, ⟨front, hfront⟩, _⟩ := hps p List.mem_cons_self
      have hquote := quoteFree_of_isTame hsettled.isTame
      cases hp : p.1 with
      | nil => simp [hp] at hfront
      | cons c cs =>
          rw [hp] at hquote
          simp only [List.flatMap_cons, hp, List.cons_append, List.head?_cons, ne_eq,
            Option.some.injEq]
          rintro rfl
          exact hquote List.mem_cons_self

/-- In a script of texts and literals in turn, every token begins between literals, or is one. -/
theorem beginsBetween_tokensFrom {cs : List Char} (hcs : Settled name cs)
    {ps : List (List Char × List Char)} (hps : ∀ p ∈ ps, Introduces name p)
    {before : Option Char} {front q : List Token}
    (h : tokensFrom before (cs ++ ps.flatMap fun p => p.1 ++ literal p.2) = front ++ q) :
    BeginsBetween name (Token.concat q) := by
  induction ps generalizing cs before front with
  | nil =>
      obtain ⟨ts, last, htokens, hts⟩ := tokensFrom_tame hcs.isTame (Or.inl rfl) before
      rw [List.flatMap_nil, htokens] at h
      rcases beginsBetween_or_length_lt hcs (Or.inl rfl) hts (concat_tokensFrom last []) h with
        h | ⟨skipped, hne, hnil⟩
      · exact h
      · rw [tokensFrom] at hnil
        exact absurd (List.append_eq_nil_iff.1 hnil.symm).1 hne
  | cons p ps ih =>
      obtain ⟨hp, hps⟩ := List.forall_mem_cons.1 hps
      obtain ⟨hsettled, ⟨words, hwords⟩, hplain⟩ := hp
      have htext := hcs.append hsettled
      have hspares : SparesTime (cs ++ p.1) := by
        rw [hwords, ← List.append_assoc]
        exact sparesTime_is _
      obtain ⟨ts, last, htokens, hts⟩ := tokensFrom_tame htext.isTame
        (Or.inr ⟨⟨_, rfl⟩, hspares⟩ :
          Meets _ (literal p.2 ++ ps.flatMap fun p => p.1 ++ literal p.2)) before
      have hmark : '\x27' ∈ ['\x27', '"'] := by simp
      have hliteral := tokensFrom_quoted hmark hplain (head?_literals hps) last
      rw [List.flatMap_cons, List.append_assoc, ← List.append_assoc cs, htokens] at h
      rcases beginsBetween_or_length_lt htext (Or.inr rfl) hts (concat_tokensFrom _ _) h with
        h | ⟨skipped, hne, hrest⟩
      · exact h
      · -- The literal is one token, so what is left begins after it.
        obtain ⟨t, skipped, rfl⟩ := List.exists_cons_of_ne_nil hne
        rw [literal, hliteral, List.cons_append, List.cons.injEq] at hrest
        have hempty : Settled name [] := .bare (by simp)
        exact ih hempty hps hrest.2

/-! ## References -/

theorem quoteFree_words {ws : List String} (hws : ∀ w ∈ ws, '\x27' ∉ w.toList) {cs : List Char}
    (h : Words ws cs) : '\x27' ∉ cs := by
  have hword : ∀ {w : String} {cs : List Char}, '\x27' ∉ w.toList →
      cs.map Char.toUpper = w.toList → '\x27' ∉ cs := by
    intro w cs hw hmap hmem
    have := List.mem_map_of_mem (f := Char.toUpper) hmem
    rw [hmap] at this
    exact hw this
  induction h with
  | single hw => exact hword (hws _ (by simp)) hw
  | cons hw _ hblank _ ih =>
      obtain ⟨hfirst, hrest⟩ := List.forall_mem_cons.1 hws
      simp only [List.mem_append, not_or]
      exact ⟨⟨hword hfirst hw, fun hmem => absurd (hblank _ hmem) (by decide)⟩, ih hrest⟩

theorem OpensReference.quoteFree {pre : List Char} (h : OpensReference pre) : '\x27' ∉ pre := by
  obtain ⟨margin, words, gap, rfl, hmargin, hwords, _, hgap⟩ := h
  simp only [List.mem_append, not_or]
  refine ⟨⟨fun hmem => absurd (hmargin _ hmem) (by decide), ?_⟩,
    fun hmem => absurd (hgap _ hmem) (by decide)⟩
  rcases hwords with h | h
  · exact quoteFree_words (by decide) h
  · exact quoteFree_words (by decide) h

theorem OpensReference.endsBlank {pre : List Char} (h : OpensReference pre) : EndsBlank pre := by
  obtain ⟨margin, words, gap, rfl, _, _, hne, hgap⟩ := h
  rcases List.eq_nil_or_concat gap with rfl | ⟨gap, b, rfl⟩
  · exact absurd rfl hne
  · exact ⟨margin ++ words ++ gap, b, by simp, hgap b (by simp)⟩

/-- A name with a point that is a text without blanks and apostrophes. -/
structure Mentionable (name : List Char) : Prop where
  point : '.' ∈ name
  solid : Solid name
  quoteFree : ∀ a ∈ name, sameLetter a '\x27' = false

/-- What begins between literals does not refer to the name. -/
theorem BeginsBetween.not_refers {cs : List Char} (h : BeginsBetween name cs)
    (hname : Mentionable name) (pre mid post : List Char) : ¬ Refers name cs pre mid post := by
  obtain ⟨front, ends, rest, hsettled, rfl, hrest⟩ := h
  rintro ⟨hsplit, hopens, hnamed⟩
  have hmid : '\x27' ∉ mid := fun hmem => by
    obtain ⟨a, ha, hquote⟩ := hnamed.exists_left hmem
    rw [hname.quoteFree a ha] at hquote
    cases hquote
  -- The reference ends before the first apostrophe, so it lies between literals.
  have hinside : ∃ more, ends = pre ++ mid ++ more := by
    rcases List.append_eq_append_iff.1 hsplit with ⟨more, hpre, hmore⟩ | ⟨more, hends, _⟩
    · cases more with
      | nil => exact ⟨[], by simpa using hpre.symm⟩
      | cons c more =>
          have hc : c = '\x27' := by
            rcases hrest with rfl | hrest
            · cases hmore
            · rw [hmore] at hrest
              simpa using hrest
          have hmem : '\x27' ∈ pre ++ mid := by simp [hpre, hc]
          exact absurd hmem (by simp [hopens.quoteFree, hmid])
    · exact ⟨more, hends⟩
  obtain ⟨more, rfl⟩ := hinside
  have hsame : front ++ (pre ++ mid ++ more) = (front ++ pre) ++ (mid ++ more) := by simp
  rw [hsame] at hsettled
  have := hsettled.beginsWith_eq_false hname.point hname.solid (hopens.endsBlank.append front)
  rw [beginsWith_iff.2 ⟨mid, more, rfl, hnamed⟩] at this
  cases this

/-- Removing a qualifier leaves a script as it is whose text between literals does not mention it,
whatever the literals hold. -/
theorem removeQualifier_settled {qualifier script text : String}
    (hname : Mentionable (qualifier.toList ++ ['.'])) {cs : List Char}
    (hcs : Settled (qualifier.toList ++ ['.']) cs) {ps : List (List Char × List Char)}
    (hps : ∀ p ∈ ps, Introduces (qualifier.toList ++ ['.']) p)
    (hscript : script.toList = cs ++ ps.flatMap fun p => p.1 ++ literal p.2)
    (h : (removeQualifier qualifier script).outcome = .ok text) : text = script := by
  obtain ⟨ss, hsplit, hconcat, htext⟩ := removeQualifier_eq_ok h
  have hkept : ∀ s ∈ ss, unqualify qualifier.toList s.chars = s.chars := by
    intro s hs
    obtain ⟨front, q, rest, htokens, hq⟩ := exists_tokens_of_mem_split hsplit hs
    rw [hscript] at htokens
    have hbetween := beginsBetween_tokensFrom hcs hps htokens
    have hunnamed := unqualify_unnamed qualifier.toList s.chars
    generalize unqualify qualifier.toList s.chars = out at hunnamed
    cases hunnamed with
    | kept _ => rfl
    | @removed pre mid post hrefers =>
        refine absurd ⟨?_, hrefers.opens, hrefers.named⟩
          (hbetween.not_refers hname pre mid (post ++ rest))
        rw [hq, hrefers.split]
        simp
  rw [← String.toList_inj, htext, ← hconcat, Statement.concat, List.flatMap_congr hkept]

end TableScript.Sql
