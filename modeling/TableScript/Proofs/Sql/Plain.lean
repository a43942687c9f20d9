import TableScript.Proofs.Sql.Literal
import TableScript.Proofs.Sql.Mild

/-!
# Plain text as tokens

Plain text consists of letters and digits of ASCII, spaces, commas and parentheses. Its tokens are
mild if no word in it turns anything. Where a token begins in the middle of such a text, letters or
digits may stand right before it: a whole number gives up its last digit to a letter, an exponent
ends at a letter, and a hexadecimal number ends at the first letter that is none of its digits. Only
the last can bring out a word that is not there, and only the batch end.
-/

namespace TableScript.Sql

open TableScript.Text

/-! ## Plain text -/

def isPlain (c : Char) : Bool := c.isAlphanum || [' ', ',', '(', ')'].contains c

/-- Hexadecimal digits, one at least, and the batch end after them. -/
def endsHexBatch : List Char → Bool
  | [] => false
  | c :: rest => Rule.isHexDigit c && (rest == ['G', 'O'] || endsHexBatch rest)

/-- A hexadecimal number, perhaps after other digits, and the batch end right after it. -/
def isHexBatch : List Char → Bool
  | c :: x :: rest =>
      c == '0' && capital x == 'X' && endsHexBatch rest || isDigit c && isHexBatch (x :: rest)
  | _ => false

/-- Plain text in which no word turns anything, and none comes out after a hexadecimal number. -/
structure Calm (cs : List Char) : Prop where
  plain : ∀ c ∈ cs, isPlain c = true
  words : ∀ w ∈ cs.splitOnP (!Char.isAlpha ·), ¬ Turning w
  runs : ∀ r ∈ cs.splitOnP (!Char.isAlphanum ·), isHexBatch r = false

theorem calm_iff {cs : List Char} : Calm cs ↔ (∀ c ∈ cs, isPlain c = true) ∧
    (∀ w ∈ cs.splitOnP (!Char.isAlpha ·), ¬ Turning w) ∧
    ∀ r ∈ cs.splitOnP (!Char.isAlphanum ·), isHexBatch r = false :=
  ⟨fun h => ⟨h.plain, h.words, h.runs⟩, fun h => ⟨h.1, h.2.1, h.2.2⟩⟩

instance (cs : List Char) : Decidable (Calm cs) := decidable_of_iff _ calm_iff.symm

theorem endsHexBatch_append {hs : List Char} (hne : hs ≠ [])
    (hhex : ∀ c ∈ hs, Rule.isHexDigit c = true) : endsHexBatch (hs ++ ['G', 'O']) = true := by
  induction hs with
  | nil => exact absurd rfl hne
  | cons c hs ih =>
      obtain ⟨hc, hhs⟩ := List.forall_mem_cons.1 hhex
      rw [List.cons_append, endsHexBatch, hc, Bool.true_and]
      cases hs with
      | nil => rfl
      | cons d hs => rw [ih (List.cons_ne_nil d hs) hhs, Bool.or_true]

theorem isHexBatch_append {ds hs : List Char} {x : Char} (hds : ∀ c ∈ ds, isDigit c = true)
    (hx : capital x = 'X') (hne : hs ≠ []) (hhex : ∀ c ∈ hs, Rule.isHexDigit c = true) :
    isHexBatch (ds ++ '0' :: x :: (hs ++ ['G', 'O'])) = true := by
  induction ds with
  | nil => simp [isHexBatch, hx, endsHexBatch_append hne hhex]
  | cons d ds ih =>
      obtain ⟨hd, hds⟩ := List.forall_mem_cons.1 hds
      cases ds with
      | nil => simp [isHexBatch, hd, hx, endsHexBatch_append hne hhex]
      | cons d' ds =>
          have hrest := ih hds
          rw [List.cons_append] at hrest
          rw [List.cons_append, List.cons_append, isHexBatch, hd, Bool.true_and, hrest, Bool.or_true]

/-- A part between two separators, or at an end, is one of the parts. -/
theorem mem_splitOnP {p : Char → Bool} {front part back : List Char}
    (hfront : ∀ c ∈ front.getLast?, p c = true) (hpart : ∀ c ∈ part, p c = false)
    (hback : ∀ c ∈ back.head?, p c = true) : part ∈ (front ++ (part ++ back)).splitOnP p := by
  have hfirst : part ∈ (part ++ back).splitOnP p := by
    cases back with
    | nil => rw [List.append_nil, List.splitOnP_eq_singleton hpart]; simp
    | cons c back =>
        rw [List.splitOnP_append_cons_of_forall_mem hpart c (hback c rfl)]
        exact List.mem_cons_self
  rcases List.eq_nil_or_concat front with rfl | ⟨front, c, rfl⟩
  · exact hfirst
  · rw [List.concat_eq_append] at hfront ⊢
    rw [List.append_assoc, List.cons_append, List.nil_append,
      List.splitOnP_append_cons _ _ (hfront c (by simp))]
    exact List.mem_append_right _ hfirst

namespace Calm

theorem nil : Calm [] := by decide

/-- Plain texts with a space between them. -/
theorem append_space {xs ys : List Char} (hx : Calm xs) (hy : Calm ys) : Calm (xs ++ ' ' :: ys) := by
  refine ⟨?_, ?_, ?_⟩
  · refine List.forall_mem_append.2 ⟨hx.plain, List.forall_mem_cons.2 ⟨by decide, hy.plain⟩⟩
  · rw [List.splitOnP_append_cons _ _ (by decide)]
    exact List.forall_mem_append.2 ⟨hx.words, hy.words⟩
  · rw [List.splitOnP_append_cons _ _ (by decide)]
    exact List.forall_mem_append.2 ⟨hx.runs, hy.runs⟩

theorem space {ys : List Char} (hy : Calm ys) : Calm (' ' :: ys) := nil.append_space hy

end Calm

/-! ## Places where a token may begin -/

/-- What stands before and after a place in plain text where a token begins. -/
inductive Exposed (p s : List Char) : Prop
  /-- Only digits stand right before it. -/
  | run {front ds : List Char} (h : p = front ++ ds)
      (hfront : ∀ c ∈ front.getLast?, c.isAlphanum = false) (hds : ∀ c ∈ ds, isDigit c = true)
  | word (h : ∀ c ∈ s.head?, isWord c = false)
  | exponent {front : List Char} {d : Char} (h : p = front ++ [d]) (hd : isDigit d = true)
      (hnext : ∀ c ∈ s.head?, isDigit c = false)
  | hex {front ds hs : List Char} {x : Char} (h : p = front ++ (ds ++ '0' :: x :: hs))
      (hfront : ∀ c ∈ front.getLast?, c.isAlphanum = false) (hds : ∀ c ∈ ds, isDigit c = true)
      (hx : capital x = 'X') (hne : hs ≠ []) (hhex : ∀ c ∈ hs, Rule.isHexDigit c = true)
      (hnext : ∀ c ∈ s.head?, Rule.isHexDigit c = false)

theorem isHexDigit_of_isDigit {c : Char} (h : isDigit c = true) : Rule.isHexDigit c = true := by
  simp [Rule.isHexDigit, h]

namespace Exposed

variable {p rest : List Char} {c : Char}

/-- A token that begins with a digit stands at the front of a word, but for other digits. -/
theorem run_of_digit (h : Exposed p (c :: rest)) (hword : isWord c = true) (hc : isDigit c = true) :
    ∃ front ds, p = front ++ ds ∧ (∀ d ∈ front.getLast?, d.isAlphanum = false) ∧
      ∀ d ∈ ds, isDigit d = true := by
  cases h with
  | run hp hfront hds => exact ⟨_, _, hp, hfront, hds⟩
  | word h => exact absurd hword (by rw [h c rfl]; decide)
  | exponent _ _ hnext => exact absurd hc (by rw [hnext c rfl]; decide)
  | hex _ _ _ _ _ _ hnext =>
      exact absurd (isHexDigit_of_isDigit hc) (by rw [hnext c rfl]; decide)

/-- A token that ends in plain text leaves a place where the next may begin. -/
theorem step (h : Exposed p (c :: rest)) (hword : isWord c = true)
    (hplain : ∀ d ∈ c :: rest, isPlain d = true) {v : List Char} {n : Nat}
    (htake : (c :: rest ++ v).take (n + 1) = c :: rest.take n)
    (hdrop : (c :: rest ++ v).drop (n + 1) = rest.drop n ++ v)
    (hends : Ends (c :: rest ++ v) (n + 1)) : Exposed (p ++ c :: rest.take n) (rest.drop n) := by
  have hnext : ∀ {q : Char → Bool}, (∀ d ∈ ((c :: rest ++ v).drop (n + 1)).head?, q d = false) →
      ∀ d ∈ (rest.drop n).head?, q d = false := by
    intro q hq d hd
    refine hq d ?_
    rw [hdrop, List.head?_append, hd]
    rfl
  cases hends with
  | word hend => exact .word (hnext (atWordEnd_iff.1 hend))
  | point hpoint =>
      have hmem : '.' ∈ c :: rest := by
        rw [htake] at hpoint
        exact (List.take_sublist (n + 1) (c :: rest)).subset hpoint
      exact absurd (hplain _ hmem) (by decide)
  | exponent heq hd hend =>
      rw [htake] at heq
      exact .exponent (by rw [heq, ← List.append_assoc]) hd (hnext hend)
  | digits hall =>
      rw [htake] at hall
      obtain ⟨front, ds, rfl, hfront, hds⟩ := h.run_of_digit hword (hall c List.mem_cons_self)
      exact .run (List.append_assoc ..) hfront (List.forall_mem_append.2 ⟨hds, hall⟩)
  | hex heq hx hne hhex hend =>
      rw [htake] at heq
      obtain ⟨rfl, hrest⟩ := List.cons.inj heq
      obtain ⟨front, ds, rfl, hfront, hds⟩ := h.run_of_digit hword (by decide)
      exact .hex (by rw [hrest, List.append_assoc]) hfront hds hx hne hhex (hnext hend)

end Exposed

/-! ## Words at such places -/

section

variable {c : Char}

theorem toNat_lt_of_isPlain (h : isPlain c = true) : c.toNat < 128 :=
  toNat_lt_of_marks (by decide) h

theorem isWord_eq_isAlphanum (h : isPlain c = true) : isWord c = c.isAlphanum := by
  have hascii := toNat_lt_of_isPlain h
  revert h
  refine forall_ascii c hascii ?_
  decide +kernel

theorem isAlphanum_of_isHexDigit (h : isPlain c = true) (hc : Rule.isHexDigit c = true) :
    c.isAlphanum = true := by
  revert hc
  refine forall_ascii c (toNat_lt_of_isPlain h) ?_
  decide +kernel

theorem isAlphanum_of_capital (h : isPlain c = true) (hc : capital c = 'X') :
    c.isAlphanum = true := by
  revert hc
  refine forall_ascii c (toNat_lt_of_isPlain h) ?_
  decide +kernel

end

theorem capitals_of_isDigit (c : Char) (h : c.isDigit = true) : capitals c = [c] := by
  have hascii : c.toNat < 128 := toNat_lt_of_isAlphanum (by rw [Char.isAlphanum, h, Bool.or_true])
  revert h
  refine forall_ascii c hascii ?_
  decide +kernel

/-- Words that turn something consist of letters. -/
theorem isAlpha_of_turning {w : List Char} (hw : ∀ c ∈ w, c.isAlphanum = true) (h : Turning w) :
    ∀ c ∈ w, c.isAlpha = true := by
  rcases h with h | rfl
  · intro c hc
    have halphanum := hw c hc
    rw [Char.isAlphanum, Token.eq_false_of_upper capitals_of_isDigit (by decide) h c hc,
      Bool.or_false] at halphanum
    exact halphanum
  · decide

/-- The words for blocks begin with letters that are hexadecimal digits. -/
theorem isHexDigit_of_upper {c : Char} (hc : c.isAlphanum = true) {w : List Char}
    (h : String.ofList (upper (c :: w)) ∈ ["BEGIN", "DECLARE", "END"]) :
    Rule.isHexDigit c = true := by
  have hfirst : ∀ word ∈ ["BEGIN", "DECLARE", "END"], ∀ d ∈ word.toList.head?,
      d ∈ ['B', 'D', 'E'] := by decide
  obtain ⟨hcapitals, hhex⟩ : capitals c = [capital c] ∧
      (capital c ∈ ['B', 'D', 'E'] → Rule.isHexDigit c = true) := by
    have hascii := toNat_lt_of_isAlphanum hc
    revert hc
    refine forall_ascii c hascii ?_
    decide +kernel
  refine hhex (hfirst _ h _ ?_)
  rw [String.toList_ofList, upper, List.flatMap_cons, hcapitals]
  rfl

/-- In calm text the batch end does not follow a hexadecimal number. -/
theorem Calm.no_batch {front ds hs q : List Char} {x : Char}
    (h : Calm (front ++ (ds ++ '0' :: x :: hs) ++ (['G', 'O'] ++ q)))
    (hfront : ∀ c ∈ front.getLast?, c.isAlphanum = false) (hds : ∀ c ∈ ds, isDigit c = true)
    (hx : capital x = 'X') (hne : hs ≠ []) (hhex : ∀ c ∈ hs, Rule.isHexDigit c = true)
    (hq : ∀ c ∈ q.head?, c.isAlphanum = false) : False := by
  have hsplit : front ++ (ds ++ '0' :: x :: hs) ++ (['G', 'O'] ++ q) =
      front ++ ((ds ++ '0' :: x :: (hs ++ ['G', 'O'])) ++ q) := by simp
  rw [hsplit] at h
  have hplain : ∀ c ∈ ds ++ '0' :: x :: (hs ++ ['G', 'O']), isPlain c = true := fun c hc =>
    h.plain c (List.mem_append_right _ (List.mem_append_left _ hc))
  have hrun : ∀ c ∈ ds ++ '0' :: x :: (hs ++ ['G', 'O']), c.isAlphanum = true := by
    intro c hc
    have hc' := hplain c hc
    simp only [List.mem_append, List.mem_cons, List.not_mem_nil, or_false] at hc
    rcases hc with hc | rfl | rfl | hc | rfl | rfl
    · exact isAlphanum_of_isHexDigit hc' (isHexDigit_of_isDigit (hds c hc))
    · rfl
    · exact isAlphanum_of_capital hc' hx
    · exact isAlphanum_of_isHexDigit hc' (hhex c hc)
    · rfl
    · rfl
  have hfalse := h.runs _ (mem_splitOnP (fun c hc => by rw [hfront c hc]; rfl)
    (fun c hc => by rw [hrun c hc]; rfl) (fun c hc => by rw [hq c hc]; rfl))
  rw [isHexBatch_append hds hx hne hhex] at hfalse
  cases hfalse

/-- No word of calm text turns anything, and none that comes out after a number. -/
theorem Exposed.not_turning {p w q : List Char} (hcalm : Calm (p ++ (w ++ q)))
    (hplace : Exposed p (w ++ q)) (hne : w ≠ []) (hw : ∀ c ∈ w, c.isAlphanum = true)
    (hq : ∀ c ∈ q.head?, isWord c = false) : ¬ Turning w := by
  intro hturn
  have hnext : ∀ c ∈ q.head?, c.isAlphanum = false := by
    intro c hc
    rw [← isWord_eq_isAlphanum (hcalm.plain c ?_), hq c hc]
    simp [List.mem_of_mem_head? hc]
  have hletters : (∀ c ∈ p.getLast?, c.isAlpha = false) → False := by
    intro hp
    refine hcalm.words w (mem_splitOnP ?_ ?_ ?_) hturn
    · exact fun c hc => by rw [hp c hc]; rfl
    · exact fun c hc => by rw [isAlpha_of_turning hw hturn c hc]; rfl
    · intro c hc
      have := hnext c hc
      rw [Char.isAlphanum, Bool.or_eq_false_iff] at this
      rw [this.1]
      rfl
  obtain ⟨c, w, rfl⟩ := List.exists_cons_of_ne_nil hne
  have hc := hw c List.mem_cons_self
  cases hplace with
  | run hp hfront hds =>
      refine hletters fun d hd => ?_
      rw [hp, List.getLast?_append, Option.mem_def, Option.or_eq_some_iff] at hd
      rcases hd with hd | ⟨_, hd⟩
      · exact isAlpha_of_isDigit (hds d (List.mem_of_getLast? hd))
      · have := hfront d hd
        rw [Char.isAlphanum, Bool.or_eq_false_iff] at this
        exact this.1
  | word h => exact absurd (isAlphanum_apart hc).2.2.2.2 (by rw [h c rfl]; decide)
  | exponent hp hd _ =>
      refine hletters fun e he => ?_
      rw [hp, List.getLast?_concat] at he
      cases he
      exact isAlpha_of_isDigit hd
  | hex hp hfront hds hx hne hhex hafter =>
      rcases hturn with hupper | hbatch
      · exact absurd (isHexDigit_of_upper hc hupper) (by rw [hafter c rfl]; decide)
      · rw [hp, hbatch] at hcalm
        exact hcalm.no_batch hfront hds hx hne hhex hnext

/-! ## Tokens of plain text -/

/-- Nothing, or a text that begins with a mark that no word and no number holds. -/
def Fenced (v : List Char) : Prop := ∀ c ∈ v.head?, c ∈ ['"', ';', '(', ')', ',']

section

variable {v : List Char}

/-- What stays inside the marks does not go beyond the fence. -/
theorem Fenced.take_and_drop (hv : Fenced v) {s : List Char} {n : Nat} (h : InnerTo (s ++ v) n) :
    (s ++ v).take n = s.take n ∧ (s ++ v).drop n = s.drop n ++ v := by
  cases v with
  | nil => simp
  | cons d v =>
      have hn : n ≤ s.length := by
        by_contra hlt
        obtain ⟨k, rfl⟩ := Nat.exists_eq_add_of_lt (Nat.lt_of_not_le hlt)
        refine h d ?_ ?_
        · rw [Nat.add_assoc, List.take_length_add_append]
          simp
        · have hall : ∀ e ∈ ['"', ';', '(', ')', ','], e ∈ outerMarks := by decide
          exact hall d (hv d rfl)
      exact ⟨List.take_append_of_le_length hn, List.drop_append_of_le_length hn⟩

theorem Fenced.timeZone_eq_none (hv : Fenced v) {s : List Char} (hs : '\x27' ∉ s)
    (before : Option Char) : Rule.timeZone before (s ++ v) = none := by
  cases hm : Rule.timeZone before (s ++ v) with
  | none => rfl
  | some m =>
      obtain ⟨m, _, _, _, hinner, hhead, _⟩ := Rule.timeZone_eq_some hm
      rw [(hv.take_and_drop hinner).2, List.head?_append, Option.or_eq_some_iff] at hhead
      rcases hhead with hhead | ⟨_, hhead⟩
      · exact absurd (List.mem_of_mem_drop (List.mem_of_mem_head? hhead)) hs
      · exact absurd (hv _ hhead) (by decide)

theorem quoteFree_of_plain {s : List Char} (hs : ∀ c ∈ s, isPlain c = true) : '\x27' ∉ s :=
  fun h => absurd (hs _ h) (by decide)

theorem isAlphanum_of_inner {c : Char} (h : isPlain c = true) (hblank : isBlank c = false)
    (hc : c ∉ outerMarks) : c.isAlphanum = true := by
  have hascii := toNat_lt_of_isPlain h
  revert h hblank hc
  refine forall_ascii c hascii ?_
  decide +kernel

variable {p rest : List Char} {c : Char}

/-- A word or a number in calm text is mild. -/
theorem Exposed.mild (hcalm : Calm (p ++ c :: rest)) (hplace : Exposed p (c :: rest))
    (hc : c.isAlphanum = true) {k : TokenKind} {n : Nat} (h : Reaches (c :: rest ++ v) k (n + 1))
    (htake : (c :: rest ++ v).take (n + 1) = c :: rest.take n) :
    Token.Mild ⟨k, c :: rest.take n⟩ := by
  rcases h.word with rfl | rfl | hword
  · exact Token.mild_of_idle rfl h.kind
  · exact Token.mild_of_idle rfl h.kind
  · refine Token.mild_of_word h.kind ?_
    rw [WholeWord, htake] at hword
    have hfirst : (!isBlank c) = true := by rw [(isAlphanum_apart hc).2.1]; rfl
    obtain ⟨w, hw⟩ : ∃ w, (c :: rest.take n).takeWhile (!isBlank ·) = c :: w :=
      ⟨_, List.takeWhile_cons_of_pos hfirst⟩
    rw [hw] at hword ⊢
    obtain ⟨q, hq⟩ : ∃ q, c :: rest = (c :: w) ++ q := by
      have hprefix := (hw ▸ List.takeWhile_prefix (!isBlank ·) : c :: w <+: c :: rest.take n)
      obtain ⟨q, hq⟩ := hprefix.trans (List.take_prefix (n + 1) (c :: rest))
      exact ⟨q, hq.symm⟩
    rw [hq] at hcalm hplace hword
    rw [List.append_assoc, List.drop_left, atWordEnd_iff] at hword
    refine hplace.not_turning hcalm (List.cons_ne_nil c w) ?_ ?_
    · intro d hd
      have hmem : d ∈ c :: rest.take n := (hw ▸ List.takeWhile_prefix _).subset hd
      refine isAlphanum_of_inner (hcalm.plain d ?_) ?_ ?_
      · exact List.mem_append_right _ (List.mem_append_left _ hd)
      · have := List.mem_takeWhile_imp (hw ▸ hd)
        simpa using this
      · exact h.inner d (htake ▸ hmem)
    · intro d hd
      exact hword d (by rw [List.head?_append, hd]; rfl)

/-- How many more parentheses a text opens than it closes. -/
def parens (cs : List Char) : Int := cs.count '(' - cs.count ')'

theorem parens_append (xs ys : List Char) : parens (xs ++ ys) = parens xs + parens ys := by
  simp only [parens, List.count_append]
  omega

theorem parens_of_inner {cs : List Char} (h : ∀ c ∈ cs, c ∉ outerMarks) : parens cs = 0 := by
  rw [parens, List.count_eq_zero_of_not_mem fun hc => h _ hc (by decide),
    List.count_eq_zero_of_not_mem fun hc => h _ hc (by decide)]
  rfl

/-- A space, a comma or a parenthesis is a token of its own. -/
theorem exists_separator (hc : c ∈ [' ', ',', '(', ')']) :
    ∃ t : Token, t.Mild ∧ t.height = parens [c] ∧
      ∀ before cs, tokensFrom before (c :: cs) = t :: tokensFrom (some c) cs := by
  simp only [List.mem_cons, List.not_mem_nil, or_false] at hc
  rcases hc with rfl | rfl | rfl | rfl
  · exact ⟨_, Token.mild_of_idle rfl (by decide), rfl, tokensFrom_space⟩
  · exact ⟨_, Token.mild_mark (by decide), rfl, tokensFrom_mark (by decide)⟩
  · exact ⟨_, Token.mild_mark (by decide), rfl, tokensFrom_mark (by decide)⟩
  · exact ⟨_, Token.mild_mark (by decide), rfl, tokensFrom_mark (by decide)⟩

/-- A word or a number in calm text is one mild token, and leaves a place for the next. -/
theorem Exposed.tokensFrom_word (hv : Fenced v) (hcalm : Calm (p ++ c :: rest))
    (h : Exposed p (c :: rest)) (hc : c.isAlphanum = true) (before : Option Char) :
    ∃ t n last, tokensFrom before (c :: rest ++ v) = t :: tokensFrom last (rest.drop n ++ v) ∧
      t.Mild ∧ t.height = parens (c :: rest.take n) ∧
      Exposed (p ++ c :: rest.take n) (rest.drop n) := by
  have hplain : ∀ d ∈ c :: rest, isPlain d = true := fun d hd =>
    hcalm.plain d (List.mem_append_right _ hd)
  cases hm : firstMatch before (c :: rest ++ v) with
  | mk k m =>
      have hreach : Reaches (c :: rest ++ v) k m :=
        firstMatch_reaches hc (hv.timeZone_eq_none (quoteFree_of_plain hplain) before) hm
      obtain ⟨n, rfl⟩ := Nat.exists_eq_add_of_lt hreach.pos
      rw [Nat.zero_add] at hreach hm
      obtain ⟨htake, hdrop⟩ := hv.take_and_drop hreach.inner
      rw [List.take_succ_cons] at htake
      rw [List.drop_succ_cons] at hdrop
      have htaken : (rest ++ v).take n = rest.take n := (List.cons.inj htake).2
      have hleft : (rest ++ v).drop n = rest.drop n ++ v := hdrop
      have hread : tokensFrom before (c :: (rest ++ v)) = ⟨k, c :: (rest ++ v).take n⟩ ::
          tokensFrom (c :: (rest ++ v).take n).getLast? ((rest ++ v).drop n) := tokensFrom_cons hm
      refine ⟨⟨k, c :: rest.take n⟩, n, (c :: rest.take n).getLast?, ?_, ?_, ?_, ?_⟩
      · rw [List.cons_append, hread, htaken, hleft]
      · exact h.mild hcalm hc hreach htake
      · rw [Token.height_of_kind hreach.kind, parens_of_inner (htake ▸ hreach.inner)]
      · exact h.step (isAlphanum_apart hc).2.2.2.2 hplain htake hdrop hreach.ends

/-- Plain text is read as mild tokens up to the fence, from any place where a token may begin. -/
theorem Exposed.exists_mild (hv : Fenced v) {s : List Char} (hcalm : Calm (p ++ s))
    (h : Exposed p s) (before : Option Char) :
    ∃ ts last, tokensFrom before (s ++ v) = ts ++ tokensFrom last v ∧ (∀ t ∈ ts, t.Mild) ∧
      Token.heights ts = parens s := by
  induction hlen : s.length using Nat.strongRecOn generalizing p s before with
  | _ count ih =>
      cases s with
      | nil => exact ⟨[], before, rfl, by simp, rfl⟩
      | cons c rest =>
          by_cases hc : c.isAlphanum = true
          · obtain ⟨t, n, next, htokens, hmild, hheight, hplace⟩ :=
              h.tokensFrom_word hv hcalm hc before
            have hwhole : p ++ c :: rest.take n ++ rest.drop n = p ++ c :: rest := by simp
            obtain ⟨ts, last, hts, hall, hheights⟩ := ih (rest.drop n).length
              (by rw [← hlen, List.length_drop, List.length_cons]; omega) (hwhole ▸ hcalm) hplace
              next rfl
            refine ⟨t :: ts, last, by rw [htokens, hts]; rfl,
              List.forall_mem_cons.2 ⟨hmild, hall⟩, ?_⟩
            rw [Token.heights_cons, hheight, hheights, ← parens_append, List.cons_append,
              List.take_append_drop]
          · have hplain := hcalm.plain c (by simp)
            rw [isPlain, Bool.or_eq_true, List.contains_iff_mem] at hplain
            obtain ⟨t, hmild, hheight, ht⟩ := exists_separator (hplain.resolve_left hc)
            have hplace : Exposed (p ++ [c]) rest :=
              .run (List.append_nil _).symm (by simpa using hc) (by simp)
            obtain ⟨ts, last, hts, hall, hheights⟩ := ih rest.length
              (by rw [← hlen, List.length_cons]; omega)
              (by rwa [List.append_assoc, List.singleton_append]) hplace (some c) rfl
            refine ⟨t :: ts, last, by rw [List.cons_append, ht, hts]; rfl,
              List.forall_mem_cons.2 ⟨hmild, hall⟩, ?_⟩
            rw [Token.heights_cons, hheight, hheights, ← parens_append, List.singleton_append]

end

end TableScript.Sql
