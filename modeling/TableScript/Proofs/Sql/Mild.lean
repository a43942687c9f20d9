import Mathlib.Data.List.TakeWhile
import TableScript.Proofs.Sql.Coverage
import TableScript.Proofs.Sql.Words

/-!
# Tokens that leave a statement going

Outside of all blocks only a few tokens matter for where a statement ends: semicolons, the batch end,
and the words that open a declaration or a body or end one. All others are mild: they change nothing
but the level, which counts the parentheses that are open. A statement of mild tokens whose
parentheses balance ends at the semicolon after it.
-/

namespace TableScript.Sql

open TableScript.Text

/-! ## Mild tokens -/

/-- What a mark adds to the level outside of all blocks. -/
def Mark.height : Mark → Int
  | .opening => 1
  | .closing => -1
  | _ => 0

/-- The marks that end a statement, and those that open or close a block wherever they stand. -/
def turningMarks : List Mark := [.terminator, .declareWord, .beginWord, .endWord]

/-- The words that open or close a block wherever they stand, and the batch end. -/
def Turning (word : List Char) : Prop :=
  String.ofList (upper word) ∈ ["BEGIN", "DECLARE", "END"] ∨ word = ['G', 'O']

instance (word : List Char) : Decidable (Turning word) := inferInstanceAs (Decidable (_ ∨ _))

namespace Token

/-- A token that, outside of all blocks, changes nothing but the level. -/
def Mild (t : Token) : Prop :=
  (∀ m ∈ Mark.ofToken? t, m ∉ turningMarks) ∧ Cursor.endsBatch t = false

instance (t : Token) : Decidable t.Mild := inferInstanceAs (Decidable (_ ∧ _))

/-- What a token adds to the level outside of all blocks. -/
def height (t : Token) : Int := (Mark.ofToken? t).elim 0 Mark.height

def heights : List Token → Int
  | [] => 0
  | t :: ts => t.height + heights ts

@[simp] theorem heights_nil : heights [] = 0 := rfl

@[simp] theorem heights_cons (t : Token) (ts : List Token) :
    heights (t :: ts) = t.height + heights ts := rfl

@[simp] theorem heights_append (ts us : List Token) :
    heights (ts ++ us) = heights ts + heights us := by
  induction ts with
  | nil => simp
  | cons t ts ih => simp [ih, Int.add_assoc]

theorem isMark_of_kind {t : Token} (h : t.kind ≠ .punctuation) (c : Char) : t.isMark c = false := by
  simp [isMark, h]

/-- A token that is no mark has its meaning from the table of words, unless it creates something. -/
theorem mark_of_kind {t : Token} (h : t.kind ≠ .punctuation) {m : Mark}
    (hm : Mark.ofToken? t = some m) :
    m = .createWord ∨ (String.ofList (upper t.chars), m) ∈ Mark.words := by
  unfold Mark.ofToken? at hm
  simp only [isMark_of_kind h, Bool.false_eq_true, if_false] at hm
  split_ifs at hm
  · cases hm
    exact Or.inl rfl
  · obtain ⟨front, back, hwords, _⟩ := List.lookup_eq_some_iff.1 hm
    exact Or.inr (by rw [hwords]; simp)

theorem mark_of_idle {t : Token} (hword : t.kind.isKeyword = false) (hmark : t.kind ≠ .punctuation) :
    Mark.ofToken? t = none := by
  have hdefinition : t.kind ≠ .definition := by
    intro h
    rw [h] at hword
    cases hword
  simp [Mark.ofToken?, isMark_of_kind hmark, hword, hdefinition]

theorem height_of_kind {t : Token} (h : t.kind ≠ .punctuation) : t.height = 0 := by
  have hflat : ∀ p ∈ Mark.words, p.2.height = 0 := by decide
  unfold height
  cases hm : Mark.ofToken? t with
  | none => rfl
  | some m =>
      rcases mark_of_kind h hm with rfl | hword
      · rfl
      · exact hflat _ hword

theorem mild_of_idle {t : Token} (hword : t.kind.isKeyword = false) (hmark : t.kind ≠ .punctuation) :
    t.Mild := by
  refine ⟨by simp [mark_of_idle hword hmark], ?_⟩
  have hkeyword : t.kind ≠ .keyword := by
    intro h
    rw [h] at hword
    cases hword
  simp [Cursor.endsBatch, hkeyword]

theorem mild_mark {c : Char} (hc : c ∈ [',', '(', ')', '.']) : Mild ⟨.punctuation, [c]⟩ := by
  simp only [List.mem_cons, List.not_mem_nil, or_false] at hc
  rcases hc with rfl | rfl | rfl | rfl <;> decide

/-- Characters that are their own capitals and stand in none of these words are not in a word that
opens or closes a block. -/
theorem eq_false_of_upper {p : Char → Bool} (hp : ∀ c, p c = true → capitals c = [c])
    (hwords : ∀ word ∈ ["BEGIN", "DECLARE", "END"], ∀ c ∈ word.toList, p c = false)
    {cs : List Char} (h : String.ofList (upper cs) ∈ ["BEGIN", "DECLARE", "END"]) :
    ∀ c ∈ cs, p c = false := by
  intro c hc
  rw [← Bool.not_eq_true]
  intro hpc
  have hmem : c ∈ (String.ofList (upper cs)).toList := by
    rw [String.toList_ofList, upper, List.mem_flatMap]
    exact ⟨c, hc, by rw [hp c hpc]; simp⟩
  rw [hwords _ h c hmem] at hpc
  cases hpc

theorem capitals_of_isBlank (c : Char) (hc : isBlank c = true) : capitals c = [c] := by
  refine forall_blank c hc ?_
  decide

/-- A word, or a phrase that begins with one, is mild unless the word turns something. -/
theorem mild_of_word {t : Token} (hmark : t.kind ≠ .punctuation)
    (h : ¬ Turning (t.chars.takeWhile (!isBlank ·))) : t.Mild := by
  have hturn : ∀ p ∈ Mark.words, p.2 ∈ turningMarks → p.1 ∈ ["BEGIN", "DECLARE", "END"] := by decide
  constructor
  · intro m hm hturning
    rcases mark_of_kind hmark hm with rfl | hentry
    · exact absurd hturning (by decide)
    · have hword := hturn _ hentry hturning
      have hall : ∀ c ∈ t.chars, (!isBlank c) = true := fun c hc => by
        rw [eq_false_of_upper capitals_of_isBlank (by decide) hword c hc]
        rfl
      rw [List.takeWhile_eq_self_iff.2 hall] at h
      exact h (Or.inl hword)
  · rw [← Bool.not_eq_true]
    intro hbatch
    unfold Cursor.endsBatch at hbatch
    simp only [Bool.and_eq_true, beq_iff_eq] at hbatch
    exact h (Or.inr hbatch.2)

end Token

/-! ## Cutting mild text -/

/-- A cursor in a statement outside of all blocks. -/
structure Cursor.Quiet (s : Cursor) : Prop where
  stack : s.stack = []
  opened : s.opened = false
  ended : s.ended = false

namespace Cursor.Quiet

theorem start : Cursor.start.Quiet := ⟨rfl, rfl, rfl⟩

variable {s : Cursor}

theorem inBody (hs : s.Quiet) : s.inBody = false := by simp [Cursor.inBody, hs.stack]

theorem unopen (hs : s.Quiet) : s.unopen = s := by simp [Cursor.unopen, hs.opened]

theorem close (hs : s.Quiet) (bs : List Block) : s.close bs = s := by
  simp [Cursor.close, hs.stack]

theorem advance (hs : s.Quiet) {m : Mark} (hm : m ∉ turningMarks) :
    (s.advance m).Quiet ∧ (s.advance m).level = s.level + m.height := by
  have hsame : s.Quiet ∧ s.level = s.level + 0 := ⟨hs, (Int.add_zero _).symm⟩
  cases m with
  | terminator | declareWord | beginWord | endWord => exact absurd hm (by decide)
  | opening | closing => exact ⟨⟨hs.stack, hs.opened, hs.ended⟩, rfl⟩
  | createWord => exact ⟨⟨hs.stack, hs.opened, hs.ended⟩, hsame.2⟩
  | qualifier => rwa [Cursor.advance, hs.unopen]
  | forWord | whileWord | loopWord | ifWord | caseWord =>
      simp only [Cursor.advance, hs.inBody, Bool.false_eq_true, if_false]
      exact hsame
  | doWord =>
      unfold Cursor.advance
      cases s.pending with
      | none => exact hsame
      | some b =>
          simp only [hs.inBody, Bool.false_eq_true, if_false]
          exact hsame
  | endIf | endFor | endWhile | endCase | endLoop => rwa [Cursor.advance, hs.close]

/-- A mild token changes nothing but the level. -/
theorem accept (hs : s.Quiet) {t : Token} (ht : t.Mild) :
    (s.accept t).Quiet ∧ (s.accept t).level = s.level + t.height := by
  obtain ⟨hmarks, hbatch⟩ := ht
  have hmark : t.isMark ';' = false := by
    rw [← Bool.not_eq_true]
    intro h
    exact hmarks .terminator (by simp [Mark.ofToken?, h]) (by decide)
  have hsettle : ∀ q : Cursor, q.Quiet → (q.settle t).Quiet ∧ (q.settle t).level = q.level := by
    intro q hq
    unfold Cursor.settle
    rw [hmark, hbatch]
    simp only [Bool.false_eq_true, if_false]
    split
    · exact ⟨hq, rfl⟩
    · exact ⟨⟨hq.stack, rfl, hq.ended⟩, rfl⟩
  unfold Cursor.accept Token.height
  cases hm : Mark.ofToken? t with
  | none =>
      rw [Option.elim, Int.add_zero]
      exact hsettle s hs
  | some m =>
      obtain ⟨hquiet, hlevel⟩ := hs.advance (hmarks m hm)
      obtain ⟨hquiet', hlevel'⟩ := hsettle _ hquiet
      exact ⟨hquiet', hlevel'.trans hlevel⟩

/-- The semicolon ends a statement whose parentheses are closed. -/
theorem accept_semicolon (hs : s.Quiet) (hlevel : s.level ≤ 0) :
    (s.accept ⟨.punctuation, [';']⟩).ended = true := by
  have hmark : Mark.ofToken? ⟨.punctuation, [';']⟩ = some .terminator := rfl
  have hsemicolon : Token.isMark ⟨.punctuation, [';']⟩ ';' = true := rfl
  have hbody : Cursor.inBody { s with pending := none } = false := hs.inBody
  simp only [Cursor.accept, hmark, Cursor.advance, hs.unopen, Cursor.settle, hsemicolon, if_true,
    hbody, hlevel, decide_true, Bool.not_false, Bool.and_self]

end Cursor.Quiet

variable {s : Cursor}

/-- Mild tokens join the statement that they stand in. -/
theorem cutFrom_mild (hs : s.Quiet) {ts : List Token} (hts : ∀ t ∈ ts, t.Mild)
    (taken : List Token) :
    ∃ s', s'.Quiet ∧ s'.level = s.level + Token.heights ts ∧
      ∀ rest, cutFrom s taken (ts ++ rest) = cutFrom s' (ts.reverse ++ taken) rest := by
  induction ts generalizing s taken with
  | nil => exact ⟨s, hs, (Int.add_zero _).symm, fun _ => rfl⟩
  | cons t ts ih =>
      obtain ⟨ht, hts⟩ := List.forall_mem_cons.1 hts
      obtain ⟨hquiet, hlevel⟩ := hs.accept ht
      obtain ⟨s', hs', hlevel', hcut⟩ := ih hquiet hts (t :: taken)
      refine ⟨s', hs', ?_, fun rest => ?_⟩
      · rw [hlevel', hlevel, Token.heights_cons, Int.add_assoc]
      · rw [List.cons_append, cutFrom, hs.ended, Bool.false_and, if_neg Bool.false_ne_true, hcut]
        simp

/-- A statement ends at the semicolon, and the line after it belongs to the next one. -/
theorem cutFrom_semicolon (hs : s.Quiet) (hlevel : s.level ≤ 0) (taken rest : List Token) :
    cutFrom s taken (⟨.punctuation, [';']⟩ :: ⟨.newline, ['\n']⟩ :: rest) =
      (⟨.punctuation, [';']⟩ :: taken).reverse :: cutFrom .start [⟨.newline, ['\n']⟩] rest := by
  have hended := hs.accept_semicolon hlevel
  have hlingers : Cursor.lingers ⟨.newline, ['\n']⟩ = false := rfl
  rw [cutFrom, hs.ended, Bool.false_and, if_neg Bool.false_ne_true, cutFrom, hended, hlingers,
    Bool.not_false, Bool.and_self, if_pos rfl, Cursor.accept_of_isWhitespace rfl]

end TableScript.Sql
