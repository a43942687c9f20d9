import TableScript.Text.Surrogate
import TableScript.Yaml.Place

/-!
# Written scalars

The three ways of writing a scalar: plain, between quotes, and as a block of lines. A line break
inside is folded into a space unless it stands beside an empty line; blocks after a bar keep theirs.
Each reader gives the text of the scalar and the place behind it.
-/

namespace TableScript.Yaml

/-- Reads line ends with spaces or tabs between them. A document mark is not allowed. -/
def quotedBreaks : Nat → Place → List Char → Except Failure (List Char × Place)
  | 0, p, found => .ok (found.reverse, p)
  | fuel + 1, p, found => do
    let atMark ← p.atDocumentMark
    if atMark then throw .malformed
    else
      let q ← p.skip isGap
      match ← q.takeBreak? with
      | some (c, r) => quotedBreaks fuel r (c :: found)
      | none => return (found.reverse, q)

/-- What a line break and the ones after it stand for. -/
def foldBreak (c : Char) (more : List Char) : List Char :=
  if c != '\n' then c :: more else if more.isEmpty then [' '] else more

def escapes : List (Char × Char) :=
  [('0', '\x00'), ('a', '\x07'), ('b', '\x08'), ('t', '\t'), ('\t', '\t'), ('n', '\n'),
   ('v', '\x0b'), ('f', '\x0c'), ('r', '\r'), ('e', '\x1b'), (' ', ' '), ('"', '"'),
   ('\\', '\\'), ('/', '/'), ('N', '\u0085'), ('_', '\u00a0'), ('L', '\u2028'), ('P', '\u2029')]

/-- The number of hexadecimal digits after an escape. -/
def escapeWidths : List (Char × Nat) := [('x', 2), ('u', 4), ('U', 8)]

def hexValue? (c : Char) : Option Nat :=
  if c.isDigit then some (c.toNat - 48)
  else if 'a' ≤ c ∧ c ≤ 'f' then some (c.toNat - 87)
  else if 'A' ≤ c ∧ c ≤ 'F' then some (c.toNat - 55)
  else none

/-- The number that the next `width` hexadecimal digits stand for. -/
def hexNumber (width : Nat) (p : Place) : Except Failure Nat :=
  (List.range width).foldlM (fun n k => do
    match (← p.look k).bind hexValue? with
    | some d => return n * 16 + d
    | none => throw .malformed) 0

/-- The character of a numbered escape. -/
def numberedChar (width : Nat) (p : Place) : Except Failure (Char × Place) := do
  let n ← hexNumber width p
  if 0x7fffffff < n then throw .infiniteNumber
  else
    match Text.ofNumber? n with
    | none => throw .impossibleValue
    | some c => return (c, ← p.forward width)

/-- Reads the rest of a quoted scalar up to its closing mark; `found` is reversed. -/
def quotedRest (mark : Char) : Nat → Place → List Char → Except Failure (List Char × Place)
  | 0, _, _ => .error .malformed
  | fuel + 1, p, found => do
    match ← p.peek with
    | none => throw .malformed
    | some c =>
      if isGap c || isBreak c then do
        let (gap, q) ← p.span isGap
        match ← q.takeBreak? with
        | some (b, r) => do
          let (more, s) ← quotedBreaks (r.rest.length + 1) r []
          quotedRest mark fuel s ((foldBreak b more).reverse ++ found)
        | none => do
          let after ← q.peek
          if after.isNone then throw .malformed
          else quotedRest mark fuel q (gap.reverse ++ found)
      else if c == mark then do
        let after ← p.look 1
        if mark == '\x27' && after == some '\x27' then do
          let q ← p.forward 2
          quotedRest mark fuel q ('\x27' :: found)
        else do
          let q ← p.next
          return (found.reverse, q)
      else if c == '\\' && mark == '"' then do
        let q ← p.next
        match ← q.peek with
        | none => throw .malformed
        | some e =>
          match escapes.lookup e, escapeWidths.lookup e with
          | some d, _ => do
            let r ← q.next
            quotedRest mark fuel r (d :: found)
          | none, some width => do
            let r ← q.next
            let (d, s) ← numberedChar width r
            quotedRest mark fuel s (d :: found)
          | none, none => do
            match ← q.takeBreak? with
            | some (_, r) => do
              let (more, s) ← quotedBreaks (r.rest.length + 1) r []
              quotedRest mark fuel s (more.reverse ++ found)
            | none => throw .malformed
      else do
        let q ← p.next
        quotedRest mark fuel q (c :: found)

def readQuoted (mark : Char) (p : Place) : Except Failure (String × Place) := do
  let q ← p.next
  let (cs, r) ← quotedRest mark (p.rest.length + 1) q []
  return (String.ofList cs, r)

/-- Whether a plain scalar ends before the next character. -/
def endsPlain (inFlow : Bool) (p : Place) : Except Failure Bool := do
  match ← p.peek with
  | none => return true
  | some c =>
    if gapAt (some c) then return true
    else if c == ':' then do
      let after ← p.look 1
      return gapAt after || (inFlow && after.any isFlowMark)
    else return inFlow && (c == '?' || isFlowMark c)

def plainRun (inFlow : Bool) : Nat → Place → List Char → Except Failure (List Char × Place)
  | 0, p, found => .ok (found.reverse, p)
  | fuel + 1, p, found => do
    let isEnd ← endsPlain inFlow p
    match isEnd, p.rest with
    | false, c :: _ => do
      let q ← p.next
      plainRun inFlow fuel q (c :: found)
    | _, _ => return (found.reverse, p)

/-- The spaces between two runs of a plain scalar. -/
structure PlainGap where
  /-- What the gap stands for; nothing if the scalar ends here. -/
  text : List Char
  place : Place
  /-- Whether the gap spans lines. -/
  broken : Bool

/-- Reads line ends with spaces between them; nothing if a document mark follows a line end. -/
def plainBreaks : Nat → Place → List Char → Except Failure (Option (List Char) × Place)
  | 0, p, found => .ok (some found.reverse, p)
  | fuel + 1, p, found => do
    match ← p.peek with
    | some ' ' => do
      let q ← p.next
      plainBreaks fuel q found
    | _ => do
      match ← p.takeBreak? with
      | some (c, q) => do
        let atMark ← q.atDocumentMark
        if atMark then return (none, q) else plainBreaks fuel q (c :: found)
      | none => return (some found.reverse, p)

def plainGap (p : Place) : Except Failure PlainGap := do
  let (gap, q) ← p.span (· == ' ')
  match ← q.takeBreak? with
  | none => return ⟨gap, q, false⟩
  | some (c, r) => do
    let atMark ← r.atDocumentMark
    if atMark then return ⟨[], r, true⟩
    else
      match ← plainBreaks (r.rest.length + 1) r [] with
      | (none, s) => return ⟨[], s, true⟩
      | (some more, s) => return ⟨foldBreak c more, s, true⟩

/-- A plain scalar that has been read. -/
structure Plain where
  chars : List Char
  place : Place
  broken : Bool

/-- Reads the runs of a plain scalar; `gap` stands before the next one. -/
def plainRuns (inFlow : Bool) (indent : Nat) : Nat → Plain → List Char → Except Failure Plain
  | 0, s, _ => .ok s
  | fuel + 1, s, gap => do
    let first ← s.place.peek
    if first == some '#' then return s
    else
      let (run, p) ← plainRun inFlow (s.place.rest.length + 1) s.place []
      if run.isEmpty then return s
      else
        let g ← plainGap p
        let longer : Plain := ⟨s.chars ++ gap ++ run, g.place, g.broken⟩
        if g.text.isEmpty then return longer
        else
          let after ← g.place.peek
          if after == some '#' || (!inFlow && g.place.column < indent) then return longer
          else plainRuns inFlow indent fuel longer g.text

/-- Reads a plain scalar; outside flow collections its lines have to be indented by `indent`. -/
def readPlain (inFlow : Bool) (indent : Nat) (p : Place) : Except Failure Plain :=
  plainRuns inFlow indent (p.rest.length + 1) ⟨[], p, false⟩ []

/-- What happens to the line ends after a block. -/
inductive Chomping where
  | strip
  | clip
  | keep
deriving DecidableEq

def indentDigit (p : Place) : Except Failure (Option Nat × Place) := do
  match ← p.peek with
  | some c =>
    if c == '0' then throw .malformed
    else if c.isDigit then return (some (c.toNat - 48), ← p.next)
    else return (none, p)
  | none => return (none, p)

def chompingMark (p : Place) : Except Failure (Option Chomping × Place) := do
  match ← p.peek with
  | some '+' => return (some .keep, ← p.next)
  | some '-' => return (some .strip, ← p.next)
  | _ => return (none, p)

/-- Reads spaces, perhaps a comment, and a line end. -/
def ignoredLine (p : Place) : Except Failure Place := do
  let q ← p.skip (· == ' ')
  let first ← q.peek
  let r ← if first == some '#' then q.skip (!isBreak ·) else pure q
  match ← r.takeBreak? with
  | some (_, s) => return s
  | none => do
    let after ← r.peek
    if after.isNone then return r else throw .malformed

/-- Reads the line of a block's mark. -/
def blockHeader (p : Place) : Except Failure (Chomping × Option Nat × Place) := do
  let (before, q) ← chompingMark p
  let (indent, r) ← indentDigit q
  let (behind, s) ←
    if before.isNone && indent.isSome then chompingMark r else pure (none, r)
  let after ← s.peek
  if spaceAt after then
    let t ← ignoredLine s
    return ((before.orElse fun _ => behind).getD .clip, indent, t)
  else throw .malformed

/-- Reads the empty lines before a block, and finds the deepest indentation among them and the first
line of text. -/
def blockIndent : Nat → Place → List Char → Nat → Except Failure (List Char × Nat × Place)
  | 0, p, found, deepest => .ok (found.reverse, deepest, p)
  | fuel + 1, p, found, deepest => do
    match ← p.takeBreak? with
    | some (c, q) => blockIndent fuel q (c :: found) deepest
    | none => do
      let first ← p.peek
      if first == some ' ' then do
        let q ← p.next
        blockIndent fuel q found (max deepest q.column)
      else return (found.reverse, deepest, p)

/-- Skips spaces up to a column. -/
def skipIndent (indent : Nat) : Nat → Place → Except Failure Place
  | 0, p => .ok p
  | fuel + 1, p => do
    if p.column < indent then do
      let first ← p.peek
      if first == some ' ' then do
        let q ← p.next
        skipIndent indent fuel q
      else return p
    else return p

def blockBreaks (indent : Nat) : Nat → Place → List Char → Except Failure (List Char × Place)
  | 0, p, found => .ok (found.reverse, p)
  | fuel + 1, p, found => do
    let q ← skipIndent indent (p.rest.length + 1) p
    match ← q.takeBreak? with
    | some (c, r) => blockBreaks indent fuel r (c :: found)
    | none => return (found.reverse, q)

structure Lines where
  text : List Char
  last : List Char
  breaks : List Char
  place : Place

def atLine (indent : Nat) (p : Place) : Except Failure Bool := do
  if p.column = indent then
    let first ← p.peek
    return first.isSome
  else return false

def startsWithGap (p : Place) : Except Failure Bool := do
  let first ← p.peek
  return first.any isGap

/-- Reads the lines of a block after those that have been read. -/
def blockLines (folded : Bool) (indent : Nat) : Nat → Lines → Except Failure Lines
  | 0, s => .ok s
  | fuel + 1, s => do
    let isLine ← atLine indent s.place
    if !isLine then return s
    else
      let startsBlank ← startsWithGap s.place
      let (line, p) ← s.place.span (!isBreak ·)
      let lineEnd ← p.takeBreak?
      let (last, q) := match lineEnd with
        | some (c, q) => ([c], q)
        | none => ([], p)
      let (breaks, r) ← blockBreaks indent (q.rest.length + 1) q []
      let text := s.text ++ s.breaks ++ line
      let isNext ← atLine indent r
      if !isNext then return ⟨text, last, breaks, r⟩
      else
        let nextBlank ← startsWithGap r
        let joint :=
          if folded && last == ['\n'] && !startsBlank && !nextBlank then
            if breaks.isEmpty then [' '] else []
          else last
        blockLines folded indent fuel ⟨text ++ joint, last, breaks, r⟩

/-- Reads a block of lines after its mark; `indent` is the least indentation of its lines. -/
def readBlock (folded : Bool) (indent : Nat) (p : Place) : Except Failure (String × Place) := do
  let first ← p.next
  let (chomping, digit, q) ← blockHeader first
  let least := max indent 1
  let (breaks, column, r) ←
    match digit with
    | none => do
      let (breaks, deepest, r) ← blockIndent (q.rest.length + 1) q [] 0
      pure (breaks, max least deepest, r)
    | some n => do
      let column := least + n - 1
      let (breaks, r) ← blockBreaks column (q.rest.length + 1) q []
      pure (breaks, column, r)
  let lines ← blockLines folded column (r.rest.length + 1) ⟨[], [], breaks, r⟩
  let tail := match chomping with
    | .strip => []
    | .clip => lines.last
    | .keep => lines.last ++ lines.breaks
  return (String.ofList (lines.text ++ tail), lines.place)

end TableScript.Yaml
