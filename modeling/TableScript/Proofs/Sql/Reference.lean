import TableScript.Proofs.Sql.Qualifier

/-!
# What removing a qualifier does

A statement refers to a table where it opens with blanks, the words of an opening in any letter
case with blanks between them, and blanks. What stands there in the letters of the qualifier and
its point is removed, at one place of a statement at most, and a statement that does not refer to a
table in this way stays as it is.
-/

namespace TableScript.Sql

open TableScript.Text

/-- The words, in any letter case, with blanks between them. -/
inductive Words : List String → List Char → Prop
  | single {w : String} {cs : List Char} (hw : cs.map Char.toUpper = w.toList) : Words [w] cs
  | cons {w : String} {ws : List String} {cs gap rest : List Char}
      (hw : cs.map Char.toUpper = w.toList) (hgap : gap ≠ []) (hblank : ∀ c ∈ gap, isBlank c = true)
      (hrest : Words ws rest) : Words (w :: ws) (cs ++ gap ++ rest)

/-- The front of a statement up to the name of a table. -/
def OpensReference (pre : List Char) : Prop :=
  ∃ margin words gap, pre = margin ++ words ++ gap ∧ (∀ c ∈ margin, isBlank c = true) ∧
    (Words ["CREATE", "TABLE"] words ∨ Words ["COMMENT", "ON", "COLUMN"] words) ∧
    gap ≠ [] ∧ ∀ c ∈ gap, isBlank c = true

/-- The same text, ignoring letter case. -/
def SameLetters (name cs : List Char) : Prop :=
  List.Forall₂ (fun a c => sameLetter a c = true) name cs

instance (name cs : List Char) : Decidable (SameLetters name cs) :=
  inferInstanceAs (Decidable (List.Forall₂ (fun a c => sameLetter a c = true) name cs))

theorem SameLetters.exists_right {name cs : List Char} (h : SameLetters name cs) {a : Char}
    (ha : a ∈ name) : ∃ c ∈ cs, sameLetter a c = true := by
  induction h with
  | nil => cases ha
  | cons hac _ ih =>
      rcases List.mem_cons.1 ha with rfl | ha
      · exact ⟨_, List.mem_cons_self, hac⟩
      · obtain ⟨c, hc, h⟩ := ih ha
        exact ⟨c, List.mem_cons_of_mem _ hc, h⟩

theorem SameLetters.exists_left {name cs : List Char} (h : SameLetters name cs) {c : Char}
    (hc : c ∈ cs) : ∃ a ∈ name, sameLetter a c = true := by
  induction h with
  | nil => cases hc
  | cons hac _ ih =>
      rcases List.mem_cons.1 hc with rfl | hc
      · exact ⟨_, List.mem_cons_self, hac⟩
      · obtain ⟨a, ha, h⟩ := ih hc
        exact ⟨a, List.mem_cons_of_mem _ ha, h⟩

/-- A text that reads like one without blanks has none. -/
theorem SameLetters.solid {name cs : List Char} (h : SameLetters name cs) (hname : Solid name) :
    Solid cs := by
  intro c hc
  obtain ⟨a, ha, hac⟩ := h.exists_left hc
  by_contra hblank
  have := isBlank_of_sameLetter hac (by simpa using hblank)
  rw [hname a ha] at this
  cases this

/-- A statement that opens a reference, with the name in some letter case right after it. -/
structure Refers (name cs pre mid post : List Char) : Prop where
  split : cs = pre ++ mid ++ post
  opens : OpensReference pre
  named : SameLetters name mid

/-- What is left of a statement without the name in its reference. -/
inductive Unnamed (name cs : List Char) : List Char → Prop
  | removed {pre mid post : List Char} (h : Refers name cs pre mid post) :
      Unnamed name cs (pre ++ post)
  | kept (h : ∀ pre mid post, ¬ Refers name cs pre mid post) : Unnamed name cs cs

/-! ## Letters -/

/-- A capital that no character beyond ASCII counts as. -/
def isPlainCapital (k : Char) : Bool :=
  k.isUpper && k != 'I' && k != 'S' && k != 'K'

theorem capital_of_ascii {c : Char} (hc : c.toNat < 128) : capital c = c.toUpper := by
  refine forall_ascii c hc ?_
  decide +kernel

theorem toUpper_of_not_ascii {c : Char} (hc : 128 ≤ c.toNat) : c.toUpper = c := by
  unfold Char.toUpper
  have hle : ¬ (c.val ≥ 'a'.val ∧ c.val ≤ 'z'.val) := by
    rintro ⟨_, hle⟩
    have : c.toNat ≤ 122 := UInt32.le_iff_toNat_le.1 hle
    omega
  rw [dif_neg hle]

theorem capital_eq_iff {c k : Char} (hk : isPlainCapital k = true) :
    capital c = k ↔ c.toUpper = k := by
  by_cases hc : c.toNat < 128
  · rw [capital_of_ascii hc]
  · rw [toUpper_of_not_ascii (Nat.le_of_not_lt hc)]
    -- Beyond ASCII a character counts as itself, or as I, S or K.
    have hcases : capital c = c ∨ isPlainCapital (capital c) = false := by
      unfold capital
      simp only
      split_ifs with h
      · simp only [Bool.and_eq_true, decide_eq_true_eq] at h
        omega
      · exact Or.inr rfl
      · exact Or.inr rfl
      · exact Or.inr rfl
      · exact Or.inl rfl
    have hself : isPlainCapital c = false := by
      have hupper : c.isUpper = false := by
        delta Char.isUpper
        have hle : ¬ c.val ≤ 90 := fun hle => by
          have : c.toNat ≤ 90 := UInt32.le_iff_toNat_le.1 hle
          omega
        simp [hle]
      simp [isPlainCapital, hupper]
    rcases hcases with h | h
    · rw [h]
    · refine iff_of_false ?_ ?_
      · rintro rfl
        rw [h] at hk
        cases hk
      · rintro rfl
        rw [hself] at hk
        cases hk

theorem isBlank_of_toUpper {c : Char} (hc : isPlainCapital c.toUpper = true) :
    isBlank c = false := by
  rw [← Bool.not_eq_true]
  intro hblank
  have h : isPlainCapital c.toUpper = false := by
    refine forall_blank c hblank ?_
    decide +kernel
  rw [hc] at h
  cases h

theorem map_capital_iff {ks cs : List Char} (hk : ∀ k ∈ ks, isPlainCapital k = true) :
    cs.map capital = ks ↔ cs.map Char.toUpper = ks := by
  induction cs generalizing ks with
  | nil => simp
  | cons c cs ih =>
      cases ks with
      | nil => simp
      | cons k ks =>
          obtain ⟨hk, hks⟩ := List.forall_mem_cons.1 hk
          simp only [List.map_cons, List.cons.injEq, capital_eq_iff hk, ih hks]

/-! ## Keywords -/

/-- The words of an opening are known by their ASCII letters alone. -/
def PlainWords (ws : List String) : Prop :=
  ∀ w ∈ ws, w.toList ≠ [] ∧ ∀ k ∈ w.toList, isPlainCapital k = true

instance (ws : List String) : Decidable (PlainWords ws) :=
  inferInstanceAs (Decidable (∀ w ∈ ws, w.toList ≠ [] ∧ ∀ k ∈ w.toList, isPlainCapital k = true))

theorem keywordLength?_append {w : String} (hw : ∀ k ∈ w.toList, isPlainCapital k = true)
    {cs rest : List Char} (h : cs.map Char.toUpper = w.toList) :
    keywordLength? w.toList (cs ++ rest) = some cs.length := by
  rw [keywordLength?_eq_some_iff, List.take_left, map_capital_iff hw]
  exact ⟨by rw [← h, List.length_map], h⟩

/-- Words begin with a letter, so no blanks run into them. -/
theorem Words.spanLength_eq_zero {ws : List String} {cs : List Char} (h : Words ws cs)
    (hws : PlainWords ws) (rest : List Char) : spanLength isBlank (cs ++ rest) = 0 := by
  have hfirst : ∀ {w : String} {cs : List Char} (rest : List Char),
      (w.toList ≠ [] ∧ ∀ k ∈ w.toList, isPlainCapital k = true) →
        cs.map Char.toUpper = w.toList → spanLength isBlank (cs ++ rest) = 0 := by
    intro w cs rest ⟨hne, hplain⟩ hw
    cases cs with
    | nil => exact absurd hw.symm hne
    | cons c cs =>
        have hc : isPlainCapital c.toUpper = true := hplain _ (by rw [← hw]; simp)
        simp [spanLength, isBlank_of_toUpper hc]
  cases h with
  | single hw => exact hfirst rest (hws _ (by simp)) hw
  | cons hw _ _ _ =>
      rw [List.append_assoc, List.append_assoc]
      exact hfirst _ (hws _ (by simp)) hw

theorem keywordsLength?_append {ws : List String} {cs : List Char} (h : Words ws cs)
    (hws : PlainWords ws) (rest : List Char) :
    keywordsLength? (ws.map String.toList) (cs ++ rest) = some cs.length := by
  induction h with
  | single hw => exact keywordLength?_append (hws _ (by simp)).2 hw
  | @cons w ws cs gap more hw hgap hblank hmore ih =>
      obtain ⟨hw', hws'⟩ := List.forall_mem_cons.1 hws
      obtain ⟨w', ws'', rfl⟩ : ∃ w' ws'', ws = w' :: ws'' := by cases hmore <;> simp
      have hspan : spanLength isBlank (gap ++ (more ++ rest)) = gap.length := by
        rw [spanLength_append hblank, hmore.spanLength_eq_zero hws', Nat.add_zero]
      rw [List.append_assoc, List.append_assoc]
      simp only [List.map_cons] at ih ⊢
      simp only [keywordsLength?, keywordLength?_append hw'.2 hw, List.drop_left, hspan]
      rw [if_neg (by simpa using hgap), ← List.drop_drop, List.drop_left, List.drop_left, ih hws']
      simp [Nat.add_assoc]

theorem words_of_keywordsLength? {ws : List String} (hne : ws ≠ []) (hws : PlainWords ws)
    {cs : List Char} {n : Nat} (h : keywordsLength? (ws.map String.toList) cs = some n) :
    Words ws (cs.take n) := by
  induction ws generalizing cs n with
  | nil => exact absurd rfl hne
  | cons w ws ih =>
      obtain ⟨hw, hws'⟩ := List.forall_mem_cons.1 hws
      have hword : ∀ {m}, keywordLength? w.toList cs = some m →
          (cs.take m).map Char.toUpper = w.toList := fun hm =>
        (map_capital_iff hw.2).1 (keywordLength?_eq_some_iff.1 hm).2
      cases ws with
      | nil => exact .single (hword h)
      | cons w' ws =>
          simp only [List.map_cons, keywordsLength?] at h
          split at h
          · cases h
          · rename_i m hm
            split at h
            · cases h
            · rename_i hgap
              obtain ⟨k, hk, rfl⟩ := Option.map_eq_some_iff.1 h
              have hrest := ih (by simp) hws' hk
              have hle := spanLength_le isBlank (cs.drop m)
              rw [List.take_add, List.take_add]
              refine .cons (hword hm) ?_ (forall_mem_take_spanLength (Nat.le_refl _)) hrest
              intro hnil
              have := congrArg List.length hnil
              rw [List.length_take, List.length_nil] at this
              omega

/-! ## Openings -/

theorem openings_eq : openings =
    [["CREATE", "TABLE"].map String.toList, ["COMMENT", "ON", "COLUMN"].map String.toList] := rfl

/-- No text opens in both ways. -/
theorem keywordsLength?_create_of_comment {words rest : List Char}
    (h : Words ["COMMENT", "ON", "COLUMN"] words) :
    keywordsLength? (["CREATE", "TABLE"].map String.toList) (words ++ rest) = none := by
  have hcomment : ∃ n, keywordLength? "COMMENT".toList (words ++ rest) = some n := by
    cases h with
    | cons hw _ _ _ =>
        rw [List.append_assoc, List.append_assoc]
        exact ⟨_, keywordLength?_append (by decide) hw⟩
  have hcreate : keywordLength? "CREATE".toList (words ++ rest) = none := by
    obtain ⟨n, hn⟩ := hcomment
    obtain ⟨rfl, hn⟩ := keywordLength?_eq_some_iff.1 hn
    rw [Option.eq_none_iff_forall_ne_some]
    intro m hm
    obtain ⟨rfl, hm⟩ := keywordLength?_eq_some_iff.1 hm
    have hboth := congrArg (List.take 6) hn
    rw [← List.map_take, List.take_take] at hboth
    exact absurd (hm.symm.trans hboth) (by decide)
  simp only [List.map_cons, keywordsLength?, hcreate]

theorem openingLength?_append {margin words : List Char} (rest : List Char)
    (hmargin : ∀ c ∈ margin, isBlank c = true)
    (hwords : Words ["CREATE", "TABLE"] words ∨ Words ["COMMENT", "ON", "COLUMN"] words) :
    openingLength? (margin ++ words ++ rest) = some (margin ++ words).length := by
  have hspan : spanLength isBlank (margin ++ (words ++ rest)) = margin.length := by
    rw [spanLength_append hmargin]
    rcases hwords with h | h
    · rw [h.spanLength_eq_zero (by decide), Nat.add_zero]
    · rw [h.spanLength_eq_zero (by decide), Nat.add_zero]
  have hfound : openings.findSome? (fun ks => keywordsLength? ks (words ++ rest)) =
      some words.length := by
    rw [openings_eq, List.findSome?_cons, List.findSome?_cons]
    rcases hwords with h | h
    · rw [keywordsLength?_append h (by decide)]
    · rw [keywordsLength?_create_of_comment h, keywordsLength?_append h (by decide)]
  unfold openingLength?
  simp only [List.append_assoc, hspan, List.drop_left, hfound, Option.map_some, List.length_append]

theorem openingLength?_eq_some {cs : List Char} {n : Nat} (h : openingLength? cs = some n) :
    ∃ margin words, cs.take n = margin ++ words ∧ (∀ c ∈ margin, isBlank c = true) ∧
      (Words ["CREATE", "TABLE"] words ∨ Words ["COMMENT", "ON", "COLUMN"] words) := by
  unfold openingLength? at h
  obtain ⟨m, hm, rfl⟩ := Option.map_eq_some_iff.1 h
  refine ⟨_, _, List.take_add, forall_mem_take_spanLength (Nat.le_refl _), ?_⟩
  obtain ⟨ks, hks, hm⟩ := List.exists_of_findSome?_eq_some hm
  rw [openings_eq] at hks
  simp only [List.mem_cons, List.not_mem_nil, or_false] at hks
  rcases hks with rfl | rfl
  · exact Or.inl (words_of_keywordsLength? (by simp) (by decide) hm)
  · exact Or.inr (words_of_keywordsLength? (by simp) (by decide) hm)

/-! ## The place of the qualifier -/

theorem beginsWith_iff {name cs : List Char} :
    beginsWith name cs = true ↔ ∃ mid post, cs = mid ++ post ∧ SameLetters name mid := by
  induction name generalizing cs with
  | nil => exact iff_of_true rfl ⟨[], cs, rfl, .nil⟩
  | cons a name ih =>
      cases cs with
      | nil =>
          refine iff_of_false Bool.false_ne_true ?_
          rintro ⟨mid, post, hsplit, hmid⟩
          rw [(List.append_eq_nil_iff.1 hsplit.symm).1] at hmid
          cases hmid
      | cons c cs =>
          rw [beginsWith, Bool.and_eq_true, ih]
          constructor
          · rintro ⟨ha, mid, post, rfl, hmid⟩
            exact ⟨c :: mid, post, rfl, .cons ha hmid⟩
          · rintro ⟨mid, post, hsplit, hmid⟩
            cases hmid with
            | cons ha hmid =>
                rw [List.cons_append, List.cons.injEq] at hsplit
                obtain ⟨rfl, rfl⟩ := hsplit
                exact ⟨ha, _, post, rfl, hmid⟩

theorem longestGap?_isSome {name cs : List Char} {bound n : Nat} (hpos : 0 < n) (hle : n ≤ bound)
    (h : beginsWith name (cs.drop n) = true) : (longestGap? name cs bound).isSome = true := by
  induction bound with
  | zero => omega
  | succ bound ih =>
      unfold longestGap?
      split
      · rfl
      · rename_i hnot
        rcases Nat.lt_or_eq_of_le hle with hlt | rfl
        · exact ih (Nat.le_of_lt_succ hlt)
        · exact absurd h hnot

/-- Where a place for the qualifier is found, the statement refers to a table there. -/
theorem refers_of_qualifierPlace? {name cs : List Char} {p : Nat}
    (h : qualifierPlace? name cs = some p) :
    Refers name cs (cs.take p) ((cs.drop p).take name.length) (cs.drop (p + name.length)) := by
  obtain ⟨_, hbegins⟩ := qualifierPlace?_eq_some h
  obtain ⟨mid, post, hdrop, hnamed⟩ := beginsWith_iff.1 hbegins
  have hlength : name.length = mid.length := hnamed.length_eq
  have hmid : (cs.drop p).take name.length = mid := by rw [hdrop, hlength, List.take_left]
  refine ⟨?_, ?_, hmid ▸ hnamed⟩
  · rw [List.append_assoc, ← List.drop_drop, List.take_append_drop, List.take_append_drop]
  · unfold qualifierPlace? at h
    split at h
    · cases h
    · rename_i n hn
      obtain ⟨gap, hgap, rfl⟩ := Option.map_eq_some_iff.1 h
      obtain ⟨margin, words, htake, hmargin, hwords⟩ := openingLength?_eq_some hn
      obtain ⟨hpos, hle, _⟩ := longestGap?_eq_some hgap
      obtain ⟨_, _, hend, _⟩ := endsBlank_take hpos hle
      refine ⟨margin, words, (cs.drop n).take gap, ?_, hmargin, hwords, ?_,
        forall_mem_take_spanLength hle⟩
      · rw [List.take_add, htake]
      · rw [hend]
        simp

/-- Where a statement refers to a table, a place for the qualifier is found. -/
theorem Refers.qualifierPlace?_isSome {name cs pre mid post : List Char}
    (h : Refers name cs pre mid post) : (qualifierPlace? name cs).isSome = true := by
  obtain ⟨hsplit, ⟨margin, words, gap, rfl, hmargin, hwords, hgap, hblank⟩, hnamed⟩ := h
  have hcs : cs = margin ++ words ++ (gap ++ (mid ++ post)) := by
    rw [hsplit]
    simp only [List.append_assoc]
  unfold qualifierPlace?
  rw [hcs, openingLength?_append _ hmargin hwords]
  simp only [List.drop_left, Option.isSome_map]
  refine longestGap?_isSome (List.length_pos_iff.2 hgap) ?_ ?_
  · rw [spanLength_append hblank]
    exact Nat.le_add_right _ _
  · rw [List.drop_left]
    exact beginsWith_iff.2 ⟨mid, post, rfl, hnamed⟩

theorem beginsWith_append (name rest : List Char) : beginsWith name (name ++ rest) = true :=
  beginsWith_iff.2 ⟨name, rest, rfl, List.forall₂_same.2 fun c _ => by simp [sameLetter]⟩

/-- After opening words and a space, the place of the qualifier is found. -/
theorem qualifierPlace?_opening {qualifier : List Char} (hsolid : Solid qualifier)
    {margin words : List Char} (hmargin : ∀ c ∈ margin, isBlank c = true)
    (hwords : Words ["CREATE", "TABLE"] words ∨ Words ["COMMENT", "ON", "COLUMN"] words)
    (rest : List Char) :
    qualifierPlace? (qualifier ++ ['.']) (margin ++ words ++ ' ' :: (qualifier ++ '.' :: rest)) =
      some ((margin ++ words).length + 1) := by
  have hname : qualifier ++ '.' :: rest = (qualifier ++ ['.']) ++ rest := by simp
  have hgap : spanLength isBlank (' ' :: (qualifier ++ '.' :: rest)) = 1 := by
    have hnone : spanLength isBlank (qualifier ++ '.' :: rest) = 0 := by
      cases qualifier with
      | nil => simp [spanLength, show isBlank '.' = false from by decide]
      | cons c qualifier => simp [spanLength, hsolid c List.mem_cons_self]
    simp [spanLength, hnone, show isBlank ' ' = true from by decide]
  unfold qualifierPlace?
  rw [openingLength?_append _ hmargin hwords]
  simp only [List.drop_left, hgap, longestGap?, List.drop_succ_cons, List.drop_zero]
  rw [hname, beginsWith_append, if_pos rfl]
  rfl

theorem unqualify_unnamed (qualifier cs : List Char) :
    Unnamed (qualifier ++ ['.']) cs (unqualify qualifier cs) := by
  unfold unqualify
  simp only
  cases hp : qualifierPlace? (qualifier ++ ['.']) cs with
  | some p => exact .removed (refers_of_qualifierPlace? hp)
  | none =>
      refine .kept fun pre mid post h => ?_
      have := h.qualifierPlace?_isSome
      rw [hp] at this
      cases this

/-- Removing a qualifier removes it from the references of the statements, and nothing else. A
script in which it does not occur stays as it is. -/
theorem removeQualifier_unnamed {qualifier script text : String}
    (h : (removeQualifier qualifier script).outcome = .ok text) :
    ∃ ss, split false script.toList = .ok ss ∧ Statement.concat ss = script.toList ∧
      (∃ qs, text.toList = qs.flatten ∧
        List.Forall₂ (fun s q => Unnamed (qualifier.toList ++ ['.']) s.chars q) ss qs) ∧
      ((∀ front mid back, script.toList = front ++ mid ++ back →
        ¬ SameLetters (qualifier.toList ++ ['.']) mid) → text = script) := by
  obtain ⟨ss, hsplit, hconcat, htext⟩ := removeQualifier_eq_ok h
  refine ⟨ss, hsplit, hconcat, ⟨ss.map fun s => unqualify qualifier.toList s.chars, ?_, ?_⟩, ?_⟩
  · rw [htext, List.flatMap_def]
  · rw [List.forall₂_map_right_iff, List.forall₂_same]
    exact fun s _ => unqualify_unnamed _ _
  · intro habsent
    have hkept : ∀ s ∈ ss, unqualify qualifier.toList s.chars = s.chars := by
      intro s hs
      have hunnamed := unqualify_unnamed qualifier.toList s.chars
      generalize unqualify qualifier.toList s.chars = out at hunnamed
      cases hunnamed with
      | kept _ => rfl
      | @removed pre mid post hrefers =>
          obtain ⟨before, after, rfl⟩ := List.append_of_mem hs
          refine absurd hrefers.named
            (habsent (Statement.concat before ++ pre) mid (post ++ Statement.concat after) ?_)
          rw [← hconcat]
          simp [Statement.concat, hrefers.split]
    rw [← String.toList_inj, htext, ← hconcat, Statement.concat, List.flatMap_congr hkept]

/-- The qualifier is removed in both statements, and not in the text of the comment. -/
theorem removeQualifier_unnamed_comment :
    ∃ ss, split false "CREATE TABLE db.t (a);\ncomment  on column DB.t.a is 'DB.t'".toList = .ok ss ∧
      ∃ qs, "CREATE TABLE t (a);\ncomment  on column t.a is 'DB.t'".toList = qs.flatten ∧
        List.Forall₂ (fun s q => Unnamed "DB.".toList s.chars q) ss qs := by
  have hscript : (removeQualifier "DB"
      "CREATE TABLE db.t (a);\ncomment  on column DB.t.a is 'DB.t'").outcome =
      .ok "CREATE TABLE t (a);\ncomment  on column t.a is 'DB.t'" :=
    Outcome.eq_ok_of_toOption (by decide +kernel)
  obtain ⟨ss, hsplit, _, hunnamed, _⟩ := removeQualifier_unnamed hscript
  exact ⟨ss, hsplit, hunnamed⟩

end TableScript.Sql
