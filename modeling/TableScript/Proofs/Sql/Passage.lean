import TableScript.Proofs.Sql.Fragment
import TableScript.Proofs.Sql.Plain
import TableScript.Proofs.Text.Margins

/-!
# Passages and joined statements

A passage is read by itself: whatever stands before it, and whatever follows behind a fence, its
tokens are mild. Quoted names without backslashes join calm texts to passages, and a statement may
end in a literal. Statements that are passages with balanced parentheses, joined by semicolons and
line ends, are what splitting gives back.
-/

namespace TableScript.Sql

open TableScript.Text

/-- Between a character and a rest, a text is read as mild tokens, which add `h` to the level. -/
def Runs (before : Option Char) (cs v : List Char) (h : Int) : Prop :=
  ∃ ts last, tokensFrom before (cs ++ v) = ts ++ tokensFrom last v ∧ (∀ t ∈ ts, t.Mild) ∧
    Token.heights ts = h

theorem Runs.append {before : Option Char} {xs ys v : List Char} {h k : Int}
    (hx : Runs before xs (ys ++ v) h) (hy : ∀ next, Runs next ys v k) :
    Runs before (xs ++ ys) v (h + k) := by
  obtain ⟨ts, next, hts, hmild, hheights⟩ := hx
  obtain ⟨us, last, hus, hmild', hheights'⟩ := hy next
  refine ⟨ts ++ us, last, ?_, List.forall_mem_append.2 ⟨hmild, hmild'⟩, ?_⟩
  · rw [List.append_assoc, hts, hus, List.append_assoc]
  · rw [Token.heights_append, hheights, hheights']

/-- A text that is read as mild tokens by itself, which add `h` to the level. -/
def Passage (cs : List Char) (h : Int) : Prop := ∀ before v, Fenced v → Runs before cs v h

theorem fenced_nil : Fenced [] := by simp [Fenced]

theorem fenced_cons {c : Char} (hc : c ∈ ['"', ';', '(', ')', ',']) (cs : List Char) :
    Fenced (c :: cs) := by
  intro d hd
  cases hd
  exact hc

theorem Fenced.append {xs ys : List Char} (hx : Fenced xs) (hy : Fenced ys) : Fenced (xs ++ ys) := by
  cases xs with
  | nil => exact hy
  | cons c xs => exact fenced_cons (hx c rfl) (xs ++ ys)

theorem Fenced.head?_ne {v : List Char} (hv : Fenced v) {c : Char}
    (hc : c ∉ ['"', ';', '(', ')', ',']) : v.head? ≠ some c :=
  fun h => hc (hv c h)

namespace Passage

variable {xs ys cs : List Char} {h k : Int}

theorem nil : Passage [] 0 := fun before _ _ => ⟨[], before, rfl, by simp, rfl⟩

theorem of_calm (hcs : Calm cs) : Passage cs (parens cs) := by
  intro before v hv
  exact Exposed.exists_mild hv (p := []) hcs (.run (List.append_nil _).symm (by simp) (by simp)) before

theorem append (hx : Passage xs h) (hy : Passage ys k) (hfence : Fenced ys) :
    Passage (xs ++ ys) (h + k) := fun before v hv =>
  (hx before (ys ++ v) (hfence.append hv)).append fun next => hy next v hv

/-- A passage with one more token in front. -/
theorem token (front : List Char) {t : Token} {next : Option Char}
    (ht : ∀ before v, Fenced v →
      tokensFrom before (front ++ (cs ++ v)) = t :: tokensFrom next (cs ++ v))
    (hmild : t.Mild) (hcs : Passage cs h) : Passage (front ++ cs) (t.height + h) := by
  intro before v hv
  obtain ⟨ts, last, hts, hmilds, hheights⟩ := hcs next v hv
  refine ⟨t :: ts, last, ?_, List.forall_mem_cons.2 ⟨hmild, hmilds⟩, ?_⟩
  · rw [List.append_assoc, ht before v hv, hts, List.cons_append]
  · rw [Token.heights_cons, hheights]

theorem separator {c : Char} (hc : c ∈ [' ', ',', '(', ')']) (hcs : Passage cs h) :
    Passage (c :: cs) (parens [c] + h) := by
  obtain ⟨t, hmild, hheight, ht⟩ := exists_separator hc
  rw [← hheight]
  exact token [c] (fun before v _ => ht before (cs ++ v)) hmild hcs

theorem space (hcs : Passage cs h) : Passage (' ' :: cs) h := by
  have := separator (c := ' ') (by decide) hcs
  rwa [show parens [' '] = 0 from rfl, Int.zero_add] at this

theorem string (mark : Char) (hmark : mark ∈ ['\x27', '"']) {text : List Char}
    (htext : '\\' ∉ text) (hcs : Passage cs h) (hhead : ∀ v, Fenced v → (cs ++ v).head? ≠ some mark) :
    Passage (encloseName mark mark text ++ cs) h := by
  have := token _ (fun before v hv => tokensFrom_quoted hmark htext (hhead v hv) before)
    (Token.mild_of_idle rfl (by simp)) hcs
  rwa [Token.height_of_kind (by simp), Int.zero_add] at this

/-- A quoted name, and what begins with another mark. -/
theorem name {text : List Char} (htext : '\\' ∉ text) {c : Char} (hc : c ≠ '"')
    (hcs : Passage (c :: cs) h) : Passage (encloseName '"' '"' text ++ c :: cs) h :=
  string '"' (by decide) htext hcs fun v _ => by simpa using hc

/-- A point between two quoted names. -/
theorem point (hcs : Passage ('"' :: cs) h) : Passage ('.' :: '"' :: cs) h := by
  have := token ['.'] (fun before v _ => tokensFrom_point (by decide) before (cs ++ v))
    (Token.mild_mark (by decide)) hcs
  rwa [show Token.height ⟨.punctuation, ['.']⟩ = 0 from rfl, Int.zero_add] at this

theorem literal {text : List Char} (htext : '\\' ∉ text) :
    Passage (encloseName '\x27' '\x27' text) 0 := by
  have := string '\x27' (by decide) htext nil fun v hv => hv.head?_ne (by decide)
  rwa [List.append_nil] at this

/-- The end of a statement that attaches a comment. -/
theorem attached {text : List Char} (htext : '\\' ∉ text) :
    Passage (' ' :: ("is ".toList ++ encloseName '\x27' '\x27' text)) 0 := by
  intro before v hv
  obtain ⟨ts, last, hts, hmild, hheights⟩ := (literal htext).space (some 's') v hv
  have hword : tokensFrom (some ' ') ('i' :: 's' :: ' ' :: (encloseName '\x27' '\x27' text ++ v)) =
      ⟨.name, ['i', 's']⟩ :: tokensFrom (some 's') (' ' :: (encloseName '\x27' '\x27' text ++ v)) :=
    tokensFrom_cons (n := 1) rfl
  refine ⟨⟨.blank, [' ']⟩ :: ⟨.name, ['i', 's']⟩ :: ts, last, ?_, ?_, ?_⟩
  · have hchars : ' ' :: ("is ".toList ++ encloseName '\x27' '\x27' text) ++ v =
        ' ' :: 'i' :: 's' :: ' ' :: (encloseName '\x27' '\x27' text ++ v) := rfl
    rw [hchars, tokensFrom_space, hword]
    exact congrArg _ (congrArg _ hts)
  · exact List.forall_mem_cons.2 ⟨by decide, List.forall_mem_cons.2 ⟨by decide, hmild⟩⟩
  · rw [Token.heights_cons, Token.heights_cons, hheights]
    rfl

theorem flatMap {α : Type} {l : List α} {f : α → List Char} (hl : ∀ a ∈ l, Passage (f a) 0)
    (hfence : ∀ a ∈ l, Fenced (f a)) : Passage (l.flatMap f) 0 ∧ Fenced (l.flatMap f) := by
  induction l with
  | nil => exact ⟨nil, fenced_nil⟩
  | cons a l ih =>
      obtain ⟨ha, hl⟩ := List.forall_mem_cons.1 hl
      obtain ⟨hfa, hfl⟩ := List.forall_mem_cons.1 hfence
      obtain ⟨hrest, hfrest⟩ := ih hl hfl
      exact ⟨ha.append hrest hfrest, hfa.append hfrest⟩

/-- Passages with commas between them. -/
theorem intercalate {xs : List (List Char)} (hxs : ∀ x ∈ xs, Passage x 0) :
    Passage ([',', ' '].intercalate xs) 0 := by
  cases xs with
  | nil => exact nil
  | cons x xs =>
      obtain ⟨hx, hxs⟩ := List.forall_mem_cons.1 hxs
      have hentry : ∀ y ∈ xs, Passage ([',', ' '] ++ y) 0 := fun y hy =>
        separator (c := ',') (by decide) (hxs y hy).space
      obtain ⟨hrest, hfence⟩ := flatMap hentry fun y _ => fenced_cons (by decide) _
      rw [intercalate_cons]
      exact hx.append hrest hfence

end Passage

/-! ## Joined statements -/

/-- A statement that is a passage with balanced parentheses, and neither begins nor ends with a
blank. -/
structure Standing (cs : List Char) : Prop where
  passage : Passage cs 0
  head : ∃ c ∈ cs.head?, isBlank c = false
  last : ∃ c ∈ cs.getLast?, isBlank c = false

/-- Texts with an ending after each but the last. -/
def terminated {α : Type} [Append α] (ending : α) : List α → List α
  | [] => []
  | [x] => [x]
  | x :: y :: rest => (x ++ ending) :: terminated ending (y :: rest)

theorem map_terminated {α β : Type} [Append α] [Append β] {f : α → β}
    (hf : ∀ x y, f (x ++ y) = f x ++ f y) (ending : α) (l : List α) :
    (terminated ending l).map f = terminated (f ending) (l.map f) := by
  induction l with
  | nil => rfl
  | cons x rest ih =>
      cases rest with
      | nil => rfl
      | cons y rest =>
          rw [terminated, List.map_cons, hf, ih]
          rfl

theorem trimList_append {margin cs : List Char} (hmargin : ∀ c ∈ margin, isBlank c = true)
    (hhead : ∃ c ∈ cs.head?, isBlank c = false) (hlast : ∃ c ∈ cs.getLast?, isBlank c = false) :
    trimList (margin ++ cs) = cs := by
  have h := strip_append hmargin (List.forall_mem_nil _) hhead hlast
  rwa [List.append_nil] at h

namespace Standing

variable {cs : List Char}

theorem trimList_eq (h : Standing cs) {margin : List Char}
    (hmargin : ∀ c ∈ margin, isBlank c = true) : trimList (margin ++ cs) = cs :=
  trimList_append hmargin h.head h.last

/-- A semicolon after the statement stays with it. -/
theorem trimList_semicolon (h : Standing cs) {margin : List Char}
    (hmargin : ∀ c ∈ margin, isBlank c = true) :
    trimList (margin ++ (cs ++ [';'])) = cs ++ [';'] := by
  obtain ⟨c, hc, hblank⟩ := h.head
  refine trimList_append hmargin ⟨c, ?_, hblank⟩ ⟨';', by simp, by decide⟩
  rw [List.head?_append, hc]
  rfl

/-- The tokens of a statement, whatever stands before it, up to a fence. -/
theorem exists_tokens (h : Standing cs) (before : Option Char) {v : List Char} (hv : Fenced v) :
    ∃ ts last, tokensFrom before (cs ++ v) = ts ++ tokensFrom last v ∧ Token.concat ts = cs ∧
      (∀ t ∈ ts, t.Mild) ∧ Token.heights ts = 0 ∧ ∃ t ∈ ts, t.kind.isWhitespace = false := by
  obtain ⟨ts, last, hts, hmild, hheights⟩ := h.passage before v hv
  have hconcat : Token.concat ts = cs := by
    have hwhole := congrArg Token.concat hts
    rw [concat_tokensFrom, Token.concat_append, concat_tokensFrom] at hwhole
    exact (List.append_cancel_right hwhole).symm
  refine ⟨ts, last, hts, hconcat, hmild, hheights, ?_⟩
  by_contra hwhite
  obtain ⟨c, hc, hblank⟩ := h.head
  have hmem : c ∈ Token.concat ts := hconcat ▸ List.mem_of_mem_head? hc
  have hall : ∀ t ∈ ts, ∀ d ∈ t.chars, isBlank d = true := fun t ht =>
    isBlank_of_isWhitespace t (hts ▸ List.mem_append_left _ ht)
      (by simpa using fun hidle => hwhite ⟨t, ht, hidle⟩)
  rw [forall_mem_concat.2 hall c hmem] at hblank
  cases hblank

end Standing

/-- Texts on lines of their own, but for the first, which stands after a margin. -/
def indented (margin : List Char) : List (List Char) → List (List Char)
  | [] => []
  | x :: xs => (margin ++ x) :: xs.map ('\n' :: ·)

theorem indented_newline (xs : List (List Char)) : indented ['\n'] xs = xs.map ('\n' :: ·) := by
  cases xs <;> rfl

theorem intercalate_cons_cons (x y : List Char) (rest : List (List Char)) :
    [';', '\n'].intercalate (x :: y :: rest) =
      x ++ ';' :: '\n' :: [';', '\n'].intercalate (y :: rest) := by
  simp [intercalate_cons]

theorem flatten_indented (margin : List Char) (sts : List (List Char)) (hne : sts ≠ []) :
    (indented margin (terminated [';'] sts)).flatten =
      margin ++ [';', '\n'].intercalate sts := by
  induction sts generalizing margin with
  | nil => exact absurd rfl hne
  | cons x rest ih =>
      cases rest with
      | nil => simp [terminated, indented]
      | cons y rest =>
          have hrest := ih ['\n'] (List.cons_ne_nil y rest)
          rw [indented_newline] at hrest
          rw [terminated, indented, List.flatten_cons, hrest, intercalate_cons_cons]
          simp

/-- Cut at its semicolons, a joined script falls into its statements. -/
theorem concat_cutFrom {sts : List (List Char)} (hne : sts ≠ []) (h : ∀ cs ∈ sts, Standing cs)
    (before : Option Char) (taken : List Token) :
    (cutFrom .start taken (tokensFrom before ([';', '\n'].intercalate sts))).map Token.concat =
      indented (Token.concat taken.reverse) (terminated [';'] sts) := by
  induction sts generalizing before taken with
  | nil => exact absurd rfl hne
  | cons cs rest ih =>
      obtain ⟨hcs, hrest⟩ := List.forall_mem_cons.1 h
      cases rest with
      | nil =>
          obtain ⟨ts, last, hts, hconcat, hmild, _, t, ht, hidle⟩ :=
            hcs.exists_tokens before fenced_nil
          obtain ⟨s, _, _, hcut⟩ := cutFrom_mild .start hmild taken
          have hkept : ¬ (ts.reverse ++ taken).all (·.kind.isWhitespace) = true := by
            rw [List.all_eq_true]
            intro hall
            have := hall t (by simp [ht])
            rw [hidle] at this
            cases this
          rw [List.append_nil, tokensFrom] at hts
          rw [intercalate_cons, List.flatMap_nil, List.append_nil, hts, hcut, cutFrom, if_neg hkept]
          simp [terminated, indented, hconcat]
      | cons ds rest =>
          obtain ⟨ts, last, hts, hconcat, hmild, hheights, _⟩ :=
            hcs.exists_tokens before (fenced_cons (c := ';') (by decide)
              ('\n' :: [';', '\n'].intercalate (ds :: rest)))
          rw [tokensFrom_mark (by decide), tokensFrom_newline] at hts
          obtain ⟨s, hs, hlevel, hcut⟩ := cutFrom_mild .start hmild taken
          have hclosed : s.level ≤ 0 := by
            rw [hlevel, hheights]
            decide
          have hnext : Token.concat [⟨.newline, ['\n']⟩].reverse = ['\n'] := rfl
          rw [intercalate_cons_cons, hts, hcut, cutFrom_semicolon hs hclosed, List.map_cons,
            ih (List.cons_ne_nil ds rest) hrest, hnext, indented_newline, terminated, indented]
          simp [hconcat]

/-- What an ending makes of a statement is found again between blanks. -/
theorem trimList_terminated {sts : List (List Char)} (h : ∀ cs ∈ sts, Standing cs) :
    ∀ cs ∈ terminated [';'] sts, ∀ margin : List Char, (∀ c ∈ margin, isBlank c = true) →
      trimList (margin ++ cs) = cs := by
  induction sts with
  | nil => simp [terminated]
  | cons cs rest ih =>
      obtain ⟨hcs, hrest⟩ := List.forall_mem_cons.1 h
      cases rest with
      | nil =>
          rw [terminated, List.forall_mem_singleton]
          exact fun margin hmargin => hcs.trimList_eq hmargin
      | cons ds rest =>
          rw [terminated]
          exact List.forall_mem_cons.2
            ⟨fun margin hmargin => hcs.trimList_semicolon hmargin, ih hrest⟩

theorem map_trimList_indented {xs : List (List Char)}
    (h : ∀ cs ∈ xs, ∀ margin : List Char, (∀ c ∈ margin, isBlank c = true) →
      trimList (margin ++ cs) = cs) : (indented [] xs).map trimList = xs := by
  cases xs with
  | nil => rfl
  | cons x xs =>
      obtain ⟨hx, hxs⟩ := List.forall_mem_cons.1 h
      have hrest : (xs.map ('\n' :: ·)).map trimList = xs := by
        rw [List.map_map]
        exact (List.map_congr_left fun y hy => hxs y hy ['\n'] (by decide)).trans (List.map_id xs)
      rw [indented, List.map_cons, hx [] (by simp), hrest]

theorem ne_nil_of_mem_terminated {sts : List (List Char)} (h : ∀ cs ∈ sts, Standing cs) :
    ∀ cs ∈ terminated [';'] sts, cs ≠ [] := by
  induction sts with
  | nil => simp [terminated]
  | cons cs rest ih =>
      obtain ⟨hcs, hrest⟩ := List.forall_mem_cons.1 h
      cases rest with
      | nil =>
          obtain ⟨c, hc, _⟩ := hcs.head
          rw [terminated, List.forall_mem_singleton]
          rintro rfl
          cases hc
      | cons ds rest => exact List.forall_mem_cons.2 ⟨by simp, ih hrest⟩

theorem chars_trimmedFrom (line : Nat) (ps : List (List Token)) :
    (trimmedFrom line ps).map (·.chars) =
      (ps.map fun ts => trimList (Token.concat ts)).filter (· ≠ []) := by
  induction ps generalizing line with
  | nil => rfl
  | cons ts ps ih =>
      rw [trimmedFrom, List.map_append, ih, List.map_cons, List.filter_cons]
      unfold trimmed?
      cases htrim : trimList (Token.concat ts) <;> simp [htrim]

/-- Splitting undoes joining. -/
theorem split_intercalate {sts : List (List Char)} (hne : sts ≠ []) (h : ∀ cs ∈ sts, Standing cs)
    {ss : List Statement} (hsplit : split true ([';', '\n'].intercalate sts) = .ok ss) :
    ss.map (·.chars) = terminated [';'] sts := by
  obtain ⟨_, rfl⟩ := split_eq_ok_iff.1 hsplit
  have hcut : (pieces ([';', '\n'].intercalate sts)).map Token.concat =
      indented [] (terminated [';'] sts) := concat_cutFrom hne h none []
  have htrim : ((pieces ([';', '\n'].intercalate sts)).map fun ts => trimList (Token.concat ts)) =
      terminated [';'] sts := by
    rw [← map_trimList_indented (trimList_terminated h), ← hcut, List.map_map]
    rfl
  rw [if_pos rfl, chars_trimmedFrom, htrim, List.filter_eq_self]
  exact fun cs hcs => decide_eq_true (ne_nil_of_mem_terminated h cs hcs)

theorem chars_wholeFrom (line : Nat) (ps : List (List Token)) :
    (wholeFrom line ps).map (·.chars) = ps.map Token.concat := by
  induction ps generalizing line with
  | nil => rfl
  | cons ts ps ih => rw [wholeFrom, List.map_cons, ih, List.map_cons]; rfl

theorem chars_extendLast_nil (ss : List Statement) :
    (extendLast [] ss).map (·.chars) = ss.map (·.chars) := by
  induction ss with
  | nil => rfl
  | cons s rest ih =>
      cases rest with
      | nil => simp [extendLast, Statement.extend]
      | cons s' rest => exact congrArg (s.chars :: ·) ih

/-- Unstripped, the statements stand on lines of their own. -/
theorem split_intercalate_whole {sts : List (List Char)} (hne : sts ≠ [])
    (h : ∀ cs ∈ sts, Standing cs) {ss : List Statement}
    (hsplit : split false ([';', '\n'].intercalate sts) = .ok ss) :
    ss.map (·.chars) = indented [] (terminated [';'] sts) := by
  have hcut : (pieces ([';', '\n'].intercalate sts)).map Token.concat =
      indented [] (terminated [';'] sts) := concat_cutFrom hne h none []
  obtain ⟨white, htokens, rfl⟩ := split_eq_extendLast hsplit
  have hflatten : Token.concat (pieces ([';', '\n'].intercalate sts)).flatten =
      [';', '\n'].intercalate sts := by
    rw [← concat_wholeFrom 1, Statement.concat, List.flatMap_def, chars_wholeFrom, hcut,
      flatten_indented [] sts hne, List.nil_append]
  have hwhite : Token.concat white = [] := by
    have hconcat := congrArg Token.concat htokens
    rw [concat_tokens, Token.concat_append, hflatten] at hconcat
    simpa using hconcat
  rw [hwhite, chars_extendLast_nil, chars_wholeFrom, hcut]

end TableScript.Sql
