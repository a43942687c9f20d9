import TableScript.Proofs.Sql.Passage

/-!
# Names without marks

A regular name is a letter of ASCII with letters, digits and underscores of ASCII after it. It may
stand in a script as it is: unless it is a word for a block or the batch end, it is one mild token
beside a point, and with calm text after it a passage.
-/

namespace TableScript

open TableScript.Text

def isRegularRest (c : Char) : Bool := c.isAlphanum || c == '_'

/-- An ASCII letter, and ASCII letters, digits and underscores after it. -/
def isRegular : List Char → Bool
  | [] => false
  | c :: rest => c.isAlpha && rest.all isRegularRest

theorem isRegularRest_of_mem {cs : List Char} (h : isRegular cs = true) :
    ∀ c ∈ cs, isRegularRest c = true := by
  cases cs with
  | nil => cases h
  | cons c rest =>
      rw [isRegular, Bool.and_eq_true, List.all_eq_true] at h
      refine List.forall_mem_cons.2 ⟨?_, h.2⟩
      simp [isRegularRest, Char.isAlphanum, h.1]

theorem isRegular_append {xs ys : List Char} (hx : isRegular xs = true)
    (hy : ∀ c ∈ ys, isRegularRest c = true) : isRegular (xs ++ ys) = true := by
  cases xs with
  | nil => cases hx
  | cons c rest =>
      rw [isRegular, Bool.and_eq_true] at hx
      simp only [List.cons_append, isRegular, List.all_append, hx.1, hx.2, Bool.true_and,
        List.all_eq_true]
      exact hy

namespace Sql

theorem isWord_of_isRegularRest {c : Char} (h : isRegularRest c = true) : isWord c = true := by
  have hmarks : (c.isAlphanum || ['_'].contains c) = true := by
    rwa [List.contains_cons, List.contains_nil, Bool.or_false]
  have hascii := toNat_lt_of_marks (by decide) hmarks
  revert h
  refine forall_ascii c hascii ?_
  decide +kernel

theorem isLetter_of_isAlpha {c : Char} (h : c.isAlpha = true) : isLetter c = true := by
  have hascii : c.toNat < 128 := toNat_lt_of_isAlphanum (by rw [Char.isAlphanum, h, Bool.true_or])
  revert h
  refine forall_ascii c hascii ?_
  decide +kernel

/-- A regular name that is no word for a block and no batch end. -/
structure BareName (w : List Char) : Prop where
  regular : isRegular w = true
  idle : ¬ Turning w

theorem bareName_iff {w : List Char} : BareName w ↔ isRegular w = true ∧ ¬ Turning w :=
  ⟨fun h => ⟨h.regular, h.idle⟩, fun h => ⟨h.1, h.2⟩⟩

instance (w : List Char) : Decidable (BareName w) := decidable_of_iff _ bareName_iff.symm

namespace BareName

variable {w cs : List Char} {before : Option Char}

theorem isWord_of_mem (h : BareName w) : ∀ c ∈ w, isWord c = true :=
  fun c hc => isWord_of_isRegularRest (isRegularRest_of_mem h.regular c hc)

theorem exists_cons (h : BareName w) : ∃ c rest, w = c :: rest ∧ c.isAlpha = true := by
  have hregular := h.regular
  cases w with
  | nil => cases hregular
  | cons c rest =>
      rw [isRegular, Bool.and_eq_true] at hregular
      exact ⟨c, rest, rfl, hregular.1⟩

theorem quoteFree (h : BareName w) : '\x27' ∉ w :=
  fun hc => absurd (h.isWord_of_mem _ hc) (by decide +kernel)

/-- No token stops inside the name. -/
theorem length_le (h : BareName w) {k : TokenKind} {n : Nat} (hreach : Reaches (w ++ cs) k n) :
    w.length ≤ n := by
  by_contra hlt
  have hlt := Nat.lt_of_not_le hlt
  obtain ⟨c, rest, rfl, hc⟩ := h.exists_cons
  have hend := atWordEnd_iff.1 (hreach.letter ⟨c, rfl, hc⟩)
  rw [List.drop_append_of_le_length (Nat.le_of_lt hlt), List.drop_eq_getElem_cons hlt] at hend
  have hword := h.isWord_of_mem _ (List.getElem_mem hlt)
  rw [hend _ rfl] at hword
  cases hword

end BareName

/-! ## Names before calm text -/

theorem tokensFrom_of_firstMatch {before : Option Char} {cs : List Char} (hne : cs ≠ [])
    {k : TokenKind} {n : Nat} (hn : 0 < n) (h : firstMatch before cs = (k, n)) :
    tokensFrom before cs = ⟨k, cs.take n⟩ :: tokensFrom (cs.take n).getLast? (cs.drop n) := by
  obtain ⟨c, rest, rfl⟩ := List.exists_cons_of_ne_nil hne
  obtain ⟨n, rfl⟩ := Nat.exists_eq_add_of_lt hn
  rw [Nat.zero_add] at h ⊢
  exact tokensFrom_cons h

/-- What a token takes of calm text after a word begins with a blank. -/
theorem isBlank_of_take {ys : List Char} (hys : ∀ c ∈ ys, isPlain c = true)
    (hgap : ∀ c ∈ ys.head?, isWord c = false) {n : Nat}
    (hinner : ∀ c ∈ ys.take n, c ∉ outerMarks) : ∀ c ∈ (ys.take n).head?, isBlank c = true := by
  cases ys with
  | nil => simp
  | cons d ys =>
      cases n with
      | zero => simp
      | succ n =>
          intro c hc
          cases hc
          by_contra hsolid
          have halphanum := isAlphanum_of_inner (hys d List.mem_cons_self) (by simpa using hsolid)
            (hinner d List.mem_cons_self)
          have hword := (isAlphanum_apart halphanum).2.2.2.2
          rw [hgap d rfl] at hword
          cases hword

namespace BareName

variable {w : List Char}

theorem takeWhile_append (h : BareName w) {ys : List Char}
    (hys : ∀ c ∈ ys.head?, isBlank c = true) : (w ++ ys).takeWhile (!isBlank ·) = w := by
  have hsolid : ∀ c ∈ w, (!isBlank c) = true := fun c hc => by
    rw [isBlank_of_isWord (h.isWord_of_mem c hc)]
    rfl
  rw [List.takeWhile_append_of_pos hsolid]
  cases ys with
  | nil => rw [List.takeWhile_nil, List.append_nil]
  | cons c ys =>
      rw [List.takeWhile_cons, hys c rfl]
      simp

/-- A bare name and calm text that goes on with another word are a passage. -/
theorem passage (h : BareName w) {ys : List Char} (hys : Calm ys)
    (hgap : ∀ c ∈ ys.head?, isWord c = false) : Passage (w ++ ys) (parens ys) := by
  intro before v hv
  obtain ⟨c, rest, hw, hletter⟩ := h.exists_cons
  have hcons : w ++ ys ++ v = c :: (rest ++ ys ++ v) := by rw [hw]; rfl
  have hquote : '\x27' ∉ w ++ ys := by
    rw [List.mem_append]
    exact not_or.2 ⟨h.quoteFree, quoteFree_of_plain hys.plain⟩
  have halphanum : c.isAlphanum = true := by rw [Char.isAlphanum, hletter, Bool.true_or]
  obtain ⟨k, n, hm⟩ : ∃ k n, firstMatch before (w ++ ys ++ v) = (k, n) := ⟨_, _, rfl⟩
  have hreach : Reaches (w ++ ys ++ v) k n := by
    have htime := hv.timeZone_eq_none hquote before
    rw [hcons] at htime hm ⊢
    exact firstMatch_reaches halphanum htime hm
  -- The token is the name, and perhaps words of the calm text after it.
  have hlength : w.length ≤ n := by
    rw [List.append_assoc] at hreach
    exact h.length_le hreach
  obtain ⟨j, rfl⟩ := Nat.exists_eq_add_of_le hlength
  obtain ⟨htake, hdrop⟩ := hv.take_and_drop hreach.inner
  rw [List.take_length_add_append] at htake
  rw [List.drop_length_add_append] at hdrop
  have hinner : ∀ d ∈ ys.take j, d ∉ outerMarks := fun d hd =>
    hreach.inner d (htake ▸ List.mem_append_right _ hd)
  have hend : ∀ d ∈ (ys.drop j).head?, isWord d = false := by
    intro d hd
    refine atWordEnd_iff.1 (hreach.letter ⟨c, by rw [hcons]; rfl, hletter⟩) d ?_
    rw [hdrop, List.head?_append, hd]
    rfl
  have hcalm : Calm (ys.take j ++ ys.drop j) := by rwa [List.take_append_drop]
  obtain ⟨ts, last, hts, hmild, hheights⟩ :=
    Exposed.exists_mild hv hcalm (.word hend) ((w ++ ys.take j).getLast?)
  refine ⟨⟨k, w ++ ys.take j⟩ :: ts, last, ?_, List.forall_mem_cons.2 ⟨?_, hmild⟩, ?_⟩
  · rw [tokensFrom_of_firstMatch (by simp [hcons]) hreach.pos hm, htake, hdrop, hts]
    rfl
  · refine Token.mild_of_word hreach.kind ?_
    rw [h.takeWhile_append (isBlank_of_take hys.plain hgap hinner)]
    exact h.idle
  · rw [Token.heights_cons, hheights, Token.height_of_kind hreach.kind,
      ← parens_of_inner hinner, ← parens_append, List.take_append_drop]

/-! ## Names beside a point -/

variable {cs : List Char} {before : Option Char}

theorem nameLength?_append (h : BareName w) (hcs : ∀ c ∈ cs.head?, isWord c = false) :
    Rule.nameLength? (w ++ cs) = some w.length := by
  have hword := h.isWord_of_mem
  obtain ⟨c, rest, rfl, hletter⟩ := h.exists_cons
  have hspan : spanLength isWord (rest ++ cs) = rest.length := by
    have hnone : spanLength isWord cs = 0 := by
      cases cs with
      | nil => rfl
      | cons d cs => simp [spanLength, hcs d rfl]
    rw [spanLength_append fun d hd => hword d (List.mem_cons_of_mem c hd), hnone, Nat.add_zero]
  have hname : isLetter c = true := isLetter_of_isAlpha hletter
  simp only [List.cons_append, Rule.nameLength?, hname, if_true, hspan, List.length_cons]

/-- A keyword at the place of the name is the name. -/
theorem length_of_keyword (h : BareName w) (hcs : ∀ c ∈ cs.head?, isWord c = false)
    {k : TokenKind} {n : Nat}
    (hm : Rule.phrases .keyword plainKeywords before (w ++ cs) = some (k, n)) : n = w.length := by
  have hsingle : ∀ ks ∈ plainKeywords, ks.tail = [] ∧ ∀ k ∈ ks, ∀ a ∈ k, isWord a = true := by
    decide +kernel
  have hle := h.length_le (Rule.reaches_phrases (by decide) (by decide +kernel) hm)
  obtain ⟨-, ks, hks, hlength, -⟩ := Rule.phrases_eq_some hm
  obtain ⟨htail, hwords⟩ := hsingle ks hks
  cases ks with
  | nil =>
      cases hlength
      exact (Nat.le_zero.1 hle).symm
  | cons k ks =>
      obtain rfl : ks = [] := htail
      obtain ⟨hcount, hmap⟩ := keywordLength?_eq_some_iff.1 hlength
      by_contra hne
      -- Beyond the name stands no character of a word.
      obtain ⟨j, rfl⟩ := Nat.exists_eq_add_of_lt (Nat.lt_of_le_of_ne hle (Ne.symm hne))
      cases cs with
      | nil =>
          have := congrArg List.length hmap
          rw [List.length_map, List.length_take, List.append_nil] at this
          omega
      | cons c cs =>
          have hmem : c ∈ (w ++ c :: cs).take (w.length + j + 1) := by
            rw [Nat.add_assoc, List.take_length_add_append]
            simp
          have hword := isWord_of_capital
            (hwords k List.mem_cons_self _ (hmap ▸ List.mem_map_of_mem hmem))
          rw [hcs c rfl] at hword
          cases hword

/-- The first rules of all give no token but the name. -/
theorem length_of_frontRule (h : BareName w) (hcs : ∀ c ∈ cs.head?, isWord c = false) {r : Rule}
    (hr : r ∈ rules.take 15) {k : TokenKind} {n : Nat} (hm : r before (w ++ cs) = some (k, n)) :
    k ≠ .punctuation ∧ n = w.length := by
  have hlength := h.nameLength?_append hcs
  obtain ⟨c, rest, hw, hletter⟩ := h.exists_cons
  obtain ⟨hmarks, hblank, -⟩ := isAlphanum_apart (c := c)
    (by rw [Char.isAlphanum, hletter, Bool.true_or])
  have hopens : ∀ {marks : List Char} {kinds : List TokenKind} {r : Rule}, r.OpensWith marks kinds →
      marks ⊆ openingMarks → r before (w ++ cs) = some (k, n) →
        k ≠ .punctuation ∧ n = w.length := by
    intro marks kinds r hr hsub hm
    obtain ⟨⟨d, hd, hhead⟩, -⟩ := hr before _ k n hm
    rw [hw] at hhead
    cases hhead
    exact absurd (hsub hd) hmarks
  have hspace : Rule.blank before (w ++ cs) = some (k, n) → k ≠ .punctuation ∧ n = w.length := by
    intro hm
    simp [Rule.blank, hw, hblank] at hm
  have hname : k = .name ∧ Rule.nameLength? (w ++ cs) = some n →
      k ≠ .punctuation ∧ n = w.length := by
    rintro ⟨rfl, hn⟩
    exact ⟨by decide, Option.some.inj (hn.symm.trans hlength)⟩
  have hkeyword : Rule.phrases .keyword plainKeywords before (w ++ cs) = some (k, n) →
      k ≠ .punctuation ∧ n = w.length := by
    intro hm
    rw [(Rule.phrases_eq_some hm).1]
    exact ⟨by decide, h.length_of_keyword hcs hm⟩
  revert r
  simp only [rules, List.take_succ_cons, List.take_zero, List.forall_mem_cons]
  exact ⟨hopens Rule.opensWith_dollarString (by decide),
    hopens Rule.opensWith_blockComment (by decide), hopens Rule.opensWith_lineComment (by decide),
    hopens Rule.opensWith_newline (by decide), hspace, hopens Rule.opensWith_shortMark (by decide),
    hopens (Rule.opensWith_markedName _) (by decide),
    hopens (Rule.opensWith_markedName _) (by decide),
    hopens Rule.opensWith_placeholder (by decide), hopens Rule.opensWith_markedWord (by decide),
    hopens Rule.opensWith_command (by decide), hkeyword, hopens Rule.opensWith_sigilName (by decide),
    fun hm => hname (Rule.qualifyingName_eq_some hm), fun hm => hname (Rule.qualifiedName_eq_some hm),
    by simp⟩

/-- Beside a point the name is one token. -/
theorem firstMatch_point (h : BareName w) (hcs : ∀ c ∈ cs.head?, isWord c = false)
    (hpoint : before = some '.' ∨ Rule.beforePoint cs = true) :
    ∃ k, k ≠ .punctuation ∧ firstMatch before (w ++ cs) = (k, w.length) := by
  have hlength := h.nameLength?_append hcs
  have hfound : ∃ r ∈ rules.take 15, r before (w ++ cs) ≠ none := by
    rcases hpoint with rfl | hpoint
    · exact ⟨Rule.qualifiedName, by simp [rules], by simp [Rule.qualifiedName, hlength]⟩
    · refine ⟨Rule.qualifyingName, by simp [rules], ?_⟩
      simp [Rule.qualifyingName, Rule.ofLength, hlength, hpoint]
  cases hfront : (rules.take 15).findSome? (fun r => r before (w ++ cs)) with
  | none =>
      obtain ⟨r, hr, hne⟩ := hfound
      exact absurd (List.findSome?_eq_none_iff.1 hfront r hr) hne
  | some m =>
      obtain ⟨r, hr, hm⟩ := List.exists_of_findSome?_eq_some hfront
      obtain ⟨hkind, hn⟩ := h.length_of_frontRule hcs hr hm
      refine ⟨m.1, hkind, ?_⟩
      rw [firstMatch, ← List.take_append_drop 15 rules, List.findSome?_append, hfront, ← hn]
      rfl

end BareName

/-- The name is one mild token, if one token ends where it does. -/
theorem BareName.exists_token {w cs : List Char} {before : Option Char} (h : BareName w)
    (hm : ∃ k, k ≠ .punctuation ∧ firstMatch before (w ++ cs) = (k, w.length)) :
    ∃ t last, t.Mild ∧ t.height = 0 ∧ tokensFrom before (w ++ cs) = t :: tokensFrom last cs := by
  obtain ⟨k, hk, hm⟩ := hm
  obtain ⟨c, rest, hw, -⟩ := h.exists_cons
  refine ⟨⟨k, w⟩, w.getLast?, ?_, Token.height_of_kind hk, ?_⟩
  · refine Token.mild_of_word hk ?_
    have hsolid : (w ++ []).takeWhile (!isBlank ·) = w := h.takeWhile_append (by simp)
    rw [List.append_nil] at hsolid
    rw [hsolid]
    exact h.idle
  · rw [tokensFrom_of_firstMatch (by simp [hw]) (by simp [hw]) hm, List.take_left, List.drop_left]

/-! ## Names with points between them -/

/-- Names with points between them. -/
def dotted (ws : List (List Char)) : List Char := ['.'].intercalate ws

theorem dotted_singleton (w : List Char) : dotted [w] = w := List.intercalate_singleton

theorem dotted_cons_cons (w v : List Char) (ws : List (List Char)) :
    dotted (w :: v :: ws) = w ++ '.' :: dotted (v :: ws) := by
  simp [dotted, intercalate_cons]

/-- Names and what follows them begin with a letter. -/
theorem exists_cons_dotted {w : List Char} {ws : List (List Char)}
    (hws : ∀ v ∈ w :: ws, BareName v) (cs : List Char) :
    ∃ c rest, dotted (w :: ws) ++ cs = c :: rest ∧ isDigit c = false := by
  obtain ⟨c, rest, rfl, hletter⟩ := (hws w List.mem_cons_self).exists_cons
  refine ⟨c, rest ++ ws.flatMap (['.'] ++ ·) ++ cs, ?_, ?_⟩
  · rw [dotted, intercalate_cons]
    rfl
  · rw [← Bool.not_eq_true]
    intro hdigit
    rw [isAlpha_of_isDigit hdigit] at hletter
    cases hletter

/-- Bare names with points between them are mild tokens, after a point or if there are several. -/
theorem runs_dotted {w : List Char} {ws : List (List Char)} (hws : ∀ v ∈ w :: ws, BareName v)
    {cs : List Char} (hcs : ∀ c ∈ cs.head?, isWord c = false) {before : Option Char}
    (hpoint : before = some '.' ∨ ws ≠ []) :
    Runs before (dotted (w :: ws)) cs 0 := by
  induction ws generalizing w before with
  | nil =>
      obtain ⟨hw, -⟩ := List.forall_mem_cons.1 hws
      have hafter : before = some '.' := hpoint.resolve_right (by simp)
      obtain ⟨t, last, hmild, hheight, ht⟩ :=
        hw.exists_token (hw.firstMatch_point hcs (Or.inl hafter))
      refine ⟨[t], last, ?_, List.forall_mem_singleton.2 hmild, ?_⟩
      · simpa only [dotted_singleton, List.singleton_append] using ht
      · rw [Token.heights_cons, hheight, Token.heights_nil, Int.add_zero]
  | cons v ws ih =>
      obtain ⟨hw, hvs⟩ := List.forall_mem_cons.1 hws
      obtain ⟨d, more, hd, hdigit⟩ := exists_cons_dotted hvs cs
      have hbefore : Rule.beforePoint ('.' :: d :: more) = true := by
        have hpoint : isBlank '.' = false := by decide
        simp [Rule.beforePoint, hpoint, hdigit]
      have hfence : ∀ c ∈ ('.' :: d :: more).head?, isWord c = false := by
        rintro c ⟨⟩
        decide +kernel
      obtain ⟨t, next, hidle, hheight, ht⟩ : ∃ t next, t.Mild ∧ t.height = 0 ∧
          tokensFrom before (w ++ '.' :: d :: more) = t :: tokensFrom next ('.' :: d :: more) :=
        hw.exists_token (hw.firstMatch_point hfence (Or.inr hbefore))
      obtain ⟨ts, last, hts, hmild, hheights⟩ := ih hvs (Or.inl rfl)
      refine ⟨t :: ⟨.punctuation, ['.']⟩ :: ts, last, ?_, ?_, ?_⟩
      · rw [dotted_cons_cons, List.append_assoc, List.cons_append, hd, ht,
          tokensFrom_point hdigit, ← hd, hts]
        rfl
      · exact List.forall_mem_cons.2
          ⟨hidle, List.forall_mem_cons.2 ⟨Token.mild_mark (by decide), hmild⟩⟩
      · rw [Token.heights_cons, Token.heights_cons, hheight, hheights]
        rfl

namespace Passage

/-- Several bare names with points between them, and what begins with a mark. -/
theorem dotted {w v : List Char} {ws : List (List Char)} (hws : ∀ u ∈ w :: v :: ws, BareName u)
    {c : Char} (hc : isWord c = false) {cs : List Char} {h : Int} (hcs : Passage (c :: cs) h) :
    Passage (Sql.dotted (w :: v :: ws) ++ c :: cs) h := by
  intro before rest hrest
  have hhead : ∀ d ∈ (c :: cs ++ rest).head?, isWord d = false := by
    rintro d ⟨⟩
    exact hc
  have hnames : Runs before (Sql.dotted (w :: v :: ws)) (c :: cs ++ rest) 0 :=
    runs_dotted hws hhead (Or.inr (List.cons_ne_nil v ws))
  have := hnames.append fun next => hcs next rest hrest
  rwa [Int.zero_add] at this

end Passage

/-! ## Opening words -/

/-- A text that is read as mild tokens whatever follows it. -/
def Leads (cs : List Char) : Prop := ∀ before v, Runs before cs v 0

namespace Leads

variable {xs ys : List Char}

theorem append (hx : Leads xs) (hy : Leads ys) : Leads (xs ++ ys) :=
  fun before v => (hx before (ys ++ v)).append fun next => hy next v

theorem passage (hx : Leads xs) {h : Int} (hy : Passage ys h) : Passage (xs ++ ys) h := by
  intro before v hv
  have := (hx before (ys ++ v)).append fun next => hy next v hv
  rwa [Int.zero_add] at this

end Leads

/-- A word that is one token before a space leads on to what follows. -/
theorem BareName.leads {w : List Char} (h : BareName w) {cs : List Char}
    (hm : ∀ before v, ∃ k, k ≠ .punctuation ∧
      firstMatch before (w ++ ' ' :: (cs ++ v)) = (k, w.length))
    (hcs : Leads cs) : Leads (w ++ ' ' :: cs) := by
  intro before v
  obtain ⟨t, next, hmild, hheight, ht⟩ := h.exists_token (hm before v)
  obtain ⟨ts, last, hts, hmilds, hheights⟩ := hcs (some ' ') v
  refine ⟨t :: ⟨.blank, [' ']⟩ :: ts, last, ?_, ?_, ?_⟩
  · rw [List.append_assoc, List.cons_append, ht, tokensFrom_space, hts]
    rfl
  · exact List.forall_mem_cons.2
      ⟨hmild, List.forall_mem_cons.2 ⟨Token.mild_of_idle rfl (by decide), hmilds⟩⟩
  · rw [Token.heights_cons, Token.heights_cons, hheight, hheights]
    rfl

theorem leads_nil : Leads [] := fun before _ => ⟨[], before, rfl, by simp, rfl⟩

/-- Words of the statements that begin no phrase. -/
def loneWords : List String := ["table", "comment", "on", "column", "constraint"]

theorem firstMatch_loneWord {w : String} (hw : w ∈ loneWords) (before : Option Char)
    (rest : List Char) :
    ∃ k, k ≠ .punctuation ∧ firstMatch before (w.toList ++ ' ' :: rest) = (k, w.toList.length) := by
  have hbare : ∀ w ∈ loneWords, BareName w.toList := by decide +kernel
  have hgap : ∀ c ∈ (' ' :: rest).head?, isWord c = false := by
    rintro c ⟨⟩
    decide +kernel
  by_cases hpoint : before = some '.' ∨ Rule.beforePoint (' ' :: rest) = true
  · exact (hbare w hw).firstMatch_point hgap hpoint
  · obtain ⟨hbefore, hfollows⟩ := not_or.1 hpoint
    have hname : Rule.qualifyingName none (w.toList ++ ' ' :: rest) = none := by
      simp [Rule.qualifyingName, Rule.ofLength, (hbare w hw).nameLength?_append hgap, hfollows]
    refine ⟨wordKind w.toList, Rule.wordKind_ne_punctuation _, ?_⟩
    simp only [loneWords, List.mem_cons, List.not_mem_nil, or_false] at hw
    rcases hw with rfl | rfl | rfl | rfl | rfl <;>
      exact (firstMatch_before (fun h => absurd h hbefore) (by simp)).trans
        (firstMatch_eq_of_none 13 rfl rfl hname rfl)

theorem leads_loneWord {w : String} (hw : w ∈ loneWords) {cs : List Char} (hcs : Leads cs) :
    Leads (w.toList ++ ' ' :: cs) := by
  have hbare : ∀ w ∈ loneWords, BareName w.toList := by decide +kernel
  exact (hbare w hw).leads (fun before v => firstMatch_loneWord hw before (cs ++ v)) hcs

theorem leads_createTable : Leads "create table ".toList := by
  have hchars : "create table ".toList = "create".toList ++ ' ' :: ("table".toList ++ [' ']) := rfl
  have htable : Leads ("table".toList ++ [' ']) := leads_loneWord (by decide) leads_nil
  have hbare : BareName "create".toList := by decide +kernel
  rw [hchars]
  refine hbare.leads (fun before v => ?_) htable
  by_cases hbefore : before = some '.'
  · refine hbare.firstMatch_point ?_ (Or.inl hbefore)
    rintro c ⟨⟩
    decide +kernel
  · -- The word after it is none that the phrase goes on with.
    exact ⟨.definition, by decide, (firstMatch_before (fun h => absurd h hbefore) (by simp)).trans
      (firstMatch_eq_of_drop 28 rfl rfl rfl)⟩

theorem leads_commentOnColumn : Leads "comment on column ".toList := by
  have hchars : "comment on column ".toList =
      "comment".toList ++ ' ' :: ("on".toList ++ ' ' :: ("column".toList ++ [' '])) := rfl
  rw [hchars]
  exact leads_loneWord (by decide) (leads_loneWord (by decide) (leads_loneWord (by decide) leads_nil))

theorem leads_constraint : Leads "constraint ".toList := by
  have hchars : "constraint ".toList = "constraint".toList ++ [' '] := rfl
  rw [hchars]
  exact leads_loneWord (by decide) leads_nil

end Sql

end TableScript
