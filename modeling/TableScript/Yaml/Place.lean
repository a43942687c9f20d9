import TableScript.Yaml.Source

/-!
# Places in a document

A place knows the rest of the document, its own offset, and its line and column. Line ends are the
line feed, the next-line character and the line and paragraph separators. A byte order mark takes no
column.

To look at a character may fail: where the readable part of the document is over because of a fault,
every look beyond it is that fault.
-/

namespace TableScript.Yaml

structure Place where
  rest : List Char
  /-- The fault behind the rest, if it is not simply the end. -/
  ending : Option Failure
  offset : Nat
  line : Nat
  column : Nat

/-- A line end. -/
def isBreak (c : Char) : Bool :=
  c == '\n' || c == '\u0085' || c == '\u2028' || c == '\u2029'

/-- A space or a tab. -/
def isGap (c : Char) : Bool := c == ' ' || c == '\t'

def spaceAt : Option Char → Bool
  | none => true
  | some c => c == ' ' || isBreak c

/-- As `spaceAt`, or a tab. -/
def gapAt : Option Char → Bool
  | none => true
  | some c => isGap c || isBreak c

def isNameChar (c : Char) : Bool := c.isAlphanum || c == '-' || c == '_'

def isFlowMark (c : Char) : Bool :=
  c == ',' || c == '[' || c == ']' || c == '\x7b' || c == '\x7d'

namespace Place

def start (s : Source) : Place := ⟨s.chars, s.ending, 0, 0, 0⟩

/-- The character `n` places further on; there is none at the end of the document. -/
def look (p : Place) (n : Nat) : Except Failure (Option Char) :=
  match p.rest[n]?, p.ending with
  | some c, _ => .ok (some c)
  | none, none => .ok none
  | none, some e => .error e

def peek (p : Place) : Except Failure (Option Char) := p.look 0

/-- One character further, without a look at what stands there. -/
def step (p : Place) : Place :=
  match p.rest with
  | [] => p
  | c :: rest =>
    if isBreak c then { p with rest, offset := p.offset + 1, line := p.line + 1, column := 0 }
    else if c == '\ufeff' then { p with rest, offset := p.offset + 1 }
    else { p with rest, offset := p.offset + 1, column := p.column + 1 }

/-- `n` characters further, without a look at what stands there. -/
def steps (p : Place) : Nat → Place
  | 0 => p
  | n + 1 => p.step.steps n

def forward (p : Place) (n : Nat) : Except Failure Place := do
  let q := p.steps n
  let _ ← q.peek
  return q

def next (p : Place) : Except Failure Place := p.forward 1

def span (p : Place) (f : Char → Bool) : Except Failure (List Char × Place) := do
  let taken := p.rest.takeWhile f
  let q ← p.forward taken.length
  return (taken, q)

def skip (p : Place) (f : Char → Bool) : Except Failure Place := do
  let (_, q) ← p.span f
  return q

/-- Reads a line end, if there is one. A separator stands for itself, every other end for a line
feed. -/
def takeBreak? (p : Place) : Except Failure (Option (Char × Place)) := do
  match ← p.peek with
  | none => return none
  | some c =>
    if isBreak c then
      let q ← p.next
      return some (if c == '\u2028' || c == '\u2029' then c else '\n', q)
    else return none

/-- Whether a line that starts a new document, or ends this one, stands here. -/
def atDocumentMark (p : Place) : Except Failure Bool := do
  let _ ← p.look 2
  if ['-', '-', '-'].isPrefixOf p.rest || ['.', '.', '.'].isPrefixOf p.rest then
    return gapAt (← p.look 3)
  else return false

end Place

end TableScript.Yaml
