import TableScript.Yaml.Property

/-!
# Cutting a document into tokens

Indentation and flow brackets decide which marks count. A scalar that turns out to be a key is
known as one only when its colon is reached, so each token that could begin a key is remembered
until then: a key stays on one line and has at most 1024 characters. A key that has to be one,
because it stands at the indentation of its mapping, must find its colon.

Cutting stops at the first fault. The tokens before it are handed out all the same, because what is
wrong with them counts more; but not those that could still begin a key.
-/

namespace TableScript.Yaml

/-- A token that may turn out to begin a key. -/
structure Candidate where
  index : Nat
  required : Bool
  place : Place

/-- How far the cutting of a document has come. -/
structure Cutter where
  place : Place
  tokens : List Token := []
  count : Nat := 0
  indent : Option Nat := none
  outer : List (Option Nat) := []
  flowLevel : Nat := 0
  keyAllowed : Bool := true
  /-- At most one candidate for each level of flow brackets. -/
  candidates : List (Nat × Candidate) := []

structure Tokens where
  tokens : List Token
  /-- The fault behind the tokens, if it is not simply the end. -/
  ending : Option Failure

namespace Cutter

def keyLimit : Nat := 1024

def inFlow (s : Cutter) : Bool := s.flowLevel != 0

def push (s : Cutter) (t : Token) : Cutter :=
  { s with tokens := t :: s.tokens, count := s.count + 1 }

/-- Appends a token that is `n` characters long. -/
def mark (s : Cutter) (t : Token) (n : Nat) : Except Failure Cutter := do
  let place ← s.place.forward n
  return { s.push t with place }

/-- Puts a token before the one with the given index. -/
def insert (s : Cutter) (index : Nat) (t : Token) : Cutter :=
  let after := s.count - index
  { s with tokens := s.tokens.take after ++ t :: s.tokens.drop after, count := s.count + 1 }

/-- The tokens that cannot begin a key any more, in their order. -/
def certain (s : Cutter) : List Token :=
  let bound := s.candidates.foldl (fun n c => min n c.2.index) s.count
  s.tokens.reverse.take bound

def dropStale (s : Cutter) : Except Failure Cutter :=
  let stale (c : Candidate) : Bool :=
    c.place.line != s.place.line || keyLimit < s.place.offset - c.place.offset
  if s.candidates.any fun c => stale c.2 && c.2.required then .error .malformed
  else .ok { s with candidates := s.candidates.filter fun c => !stale c.2 }

def dropCandidate (s : Cutter) : Except Failure Cutter :=
  match s.candidates.lookup s.flowLevel with
  | some c =>
    if c.required then .error .malformed
    else .ok { s with candidates := s.candidates.filter (·.1 != s.flowLevel) }
  | none => .ok s

def saveCandidate (s : Cutter) : Except Failure Cutter :=
  if s.keyAllowed then do
    let required := !s.inFlow && s.indent == some s.place.column
    let s ← s.dropCandidate
    return { s with
      candidates := (s.flowLevel, ⟨s.count, required, s.place⟩) :: s.candidates }
  else .ok s

/-- Ends the block collections that are indented further than a column; `none` ends all. -/
def unwind (column : Option Nat) : Nat → Cutter → Cutter
  | 0, s => s
  | fuel + 1, s =>
    match s.indent with
    | none => s
    | some i =>
      if column.any (i ≤ ·) then s
      else
        unwind column fuel
          { s.push .blockEnd with indent := s.outer.head?.getD none, outer := s.outer.tail }

def unwindTo (s : Cutter) (column : Option Nat) : Cutter :=
  if s.inFlow then s else unwind column (s.outer.length + 1) s

/-- Whether a column is further in than the present indentation. -/
def isDeeper (s : Cutter) (column : Nat) : Bool := s.indent.all (· < column)

/-- Makes a column the present indentation. -/
def addIndent (s : Cutter) (column : Nat) : Cutter :=
  { s with outer := s.indent :: s.outer, indent := some column }

/-- Starts a block collection at the present column, unless it has started already. -/
def openBlock (s : Cutter) (start : Token) : Cutter :=
  if s.isDeeper s.place.column then (s.addIndent s.place.column).push start else s

/-- The place behind a byte order mark at the very start. -/
def afterByteOrderMark (p : Place) : Except Failure Place := do
  if p.offset = 0 then
    let first ← p.peek
    if first == some '\ufeff' then p.next else return p
  else return p

def afterComment (p : Place) : Except Failure Place := do
  let first ← p.peek
  if first == some '#' then p.skip (!isBreak ·) else return p

/-- Skips spaces, comments and line ends. A byte order mark is skipped at the very start. -/
def skipGap : Nat → Cutter → Except Failure Cutter
  | 0, s => .ok s
  | fuel + 1, s => do
    let p ← afterByteOrderMark s.place
    let q ← p.skip (· == ' ')
    let r ← afterComment q
    match ← r.takeBreak? with
    | some (_, next) =>
      skipGap fuel { s with place := next, keyAllowed := s.keyAllowed || !s.inFlow }
    | none => return { s with place := r }

/-- A line that starts or ends a document, or a directive, ends all block collections. -/
def leaveBlocks (s : Cutter) : Except Failure Cutter := do
  let s ← (s.unwindTo none).dropCandidate
  return { s with keyAllowed := false }

def takeFlowStart (s : Cutter) (t : Token) : Except Failure Cutter := do
  let s ← s.saveCandidate
  { s with flowLevel := s.flowLevel + 1, keyAllowed := true }.mark t 1

/-- A closing bracket. One that closes nothing is out of place. -/
def takeFlowEnd (s : Cutter) (t : Token) : Except Failure Cutter := do
  let s ← s.dropCandidate
  let s' ← s.mark t 1
  if s.flowLevel = 0 then throw .malformed
  else return { s' with flowLevel := s.flowLevel - 1, keyAllowed := false }

def takeFlowEntry (s : Cutter) : Except Failure Cutter := do
  let s ← { s with keyAllowed := true }.dropCandidate
  s.mark .flowEntry 1

def takeBlockEntry (s : Cutter) : Except Failure Cutter := do
  if !s.inFlow && !s.keyAllowed then throw .malformed
  else
    let s := if s.inFlow then s else s.openBlock .blockSequenceStart
    let s ← { s with keyAllowed := true }.dropCandidate
    s.mark .blockEntry 1

def takeKey (s : Cutter) : Except Failure Cutter := do
  if !s.inFlow && !s.keyAllowed then throw .malformed
  else
    let s := if s.inFlow then s else s.openBlock .blockMappingStart
    let s ← { s with keyAllowed := !s.inFlow }.dropCandidate
    s.mark .key 1

/-- A colon. It makes a key of the candidate of its level, if there is one. -/
def takeValue (s : Cutter) : Except Failure Cutter :=
  match s.candidates.lookup s.flowLevel with
  | some c =>
    let s := { s with candidates := s.candidates.filter (·.1 != s.flowLevel), keyAllowed := false }
    let opens := !s.inFlow && s.isDeeper c.place.column
    let s := s.insert c.index .key
    let s := if opens then (s.insert c.index .blockMappingStart).addIndent c.place.column else s
    s.mark .value 1
  | none => do
    if !s.inFlow && !s.keyAllowed then throw .malformed
    else
      let s := if s.inFlow then s else s.openBlock .blockMappingStart
      let s ← { s with keyAllowed := !s.inFlow }.dropCandidate
      s.mark .value 1

/-- Takes a token that may begin a key, and which no key can follow. -/
def takeNode (s : Cutter) (read : Place → Except Failure (Token × Place)) :
    Except Failure Cutter := do
  let s ← s.saveCandidate
  let (t, p) ← read s.place
  return { s.push t with place := p, keyAllowed := false }

def takeQuoted (s : Cutter) (c : Char) : Except Failure Cutter :=
  s.takeNode fun p => do
    let (text, q) ← readQuoted c p
    return (.scalar text false, q)

def takeNamed (s : Cutter) (token : String → Token) : Except Failure Cutter :=
  s.takeNode fun p => do
    let (name, q) ← readAnchor p
    return (token name, q)

/-- The least column of the lines of a scalar. -/
def scalarColumn (s : Cutter) : Nat := (s.indent.map (· + 1)).getD 0

def takeBlock (s : Cutter) (folded : Bool) : Except Failure Cutter := do
  let s ← { s with keyAllowed := true }.dropCandidate
  let (text, p) ← readBlock folded s.scalarColumn s.place
  return { s.push (.scalar text false) with place := p }

def takePlain (s : Cutter) : Except Failure Cutter := do
  let s ← s.saveCandidate
  let plain ← readPlain s.inFlow s.scalarColumn s.place
  return { s.push (.scalar (String.ofList plain.chars) true) with
    place := plain.place, keyAllowed := plain.broken }

def takeDirective (s : Cutter) : Except Failure Cutter := do
  let s ← s.leaveBlocks
  let (t, p) ← readDirective s.place
  return { s.push t with place := p }

/-- The start or the end of a document. -/
def takeDocumentMark (s : Cutter) (c : Char) : Except Failure Cutter := do
  let s ← s.leaveBlocks
  s.mark (if c == '-' then .documentStart else .documentEnd) 3

/-- Whether a character stands here for an entry, a key or a value, and not for itself. -/
def isIndicator (s : Cutter) (c : Char) : Except Failure Bool := do
  if c == '-' || ((c == '?' || c == ':') && !s.inFlow) then
    let after ← s.place.look 1
    return gapAt after
  else return c == '?' || c == ':'

/-- Whether a plain scalar may begin here. -/
def atPlain (s : Cutter) (c : Char) : Except Failure Bool := do
  if gapAt (some c) || "-?:,[]\x7b\x7d#&*!|>'\"%@\x60".toList.contains c then
    let after ← s.place.look 1
    return !gapAt after && (c == '-' || (!s.inFlow && (c == '?' || c == ':')))
  else return true

/-- Takes the token that begins with a character that has no meaning by itself. -/
def takeOther (s : Cutter) (c : Char) : Except Failure Cutter := do
  let isPlain ← s.atPlain c
  if isPlain then s.takePlain else throw .malformed

/-- Takes the token that begins with a character. -/
def takeToken (s : Cutter) (c : Char) : Except Failure Cutter := do
  let p := s.place
  let atMark ←
    if p.column = 0 && (c == '-' || c == '.') then p.atDocumentMark else pure false
  if atMark then s.takeDocumentMark c
  else if c == '%' && p.column = 0 then s.takeDirective
  else if c == '[' then s.takeFlowStart .flowSequenceStart
  else if c == '\x7b' then s.takeFlowStart .flowMappingStart
  else if c == ']' then s.takeFlowEnd .flowSequenceEnd
  else if c == '\x7d' then s.takeFlowEnd .flowMappingEnd
  else if c == ',' then s.takeFlowEntry
  else if c == '*' then s.takeNamed .alias
  else if c == '&' then s.takeNamed .anchor
  else if c == '!' then s.takeNode readTag
  else if c == '|' && !s.inFlow then s.takeBlock false
  else if c == '>' && !s.inFlow then s.takeBlock true
  else if c == '\x27' || c == '"' then s.takeQuoted c
  else
    let isMark ← s.isIndicator c
    if isMark then
      if c == '-' then s.takeBlockEntry else if c == '?' then s.takeKey else s.takeValue
    else s.takeOther c

/-- Takes the next token; at the end of the document there is none, and its blocks are ended. -/
def takeNext (s : Cutter) : Except Failure (Cutter × Bool) := do
  let s ← s.skipGap (s.place.rest.length + 1)
  let s ← s.dropStale
  let s := s.unwindTo (some s.place.column)
  match ← s.place.peek with
  | none => return (← s.leaveBlocks, false)
  | some c => return (← s.takeToken c, true)

/-- Takes tokens to the end of the document or to the first fault. -/
def run : Nat → Cutter → Tokens
  | 0, _ => ⟨[], some .malformed⟩
  | fuel + 1, s =>
    match s.dropStale with
    | .error e => ⟨s.certain, some e⟩
    | .ok s =>
      match s.takeNext with
      | .error e => ⟨s.certain, some e⟩
      | .ok (s, true) => run fuel s
      | .ok (s, false) => ⟨s.tokens.reverse, none⟩

end Cutter

def tokens (s : Source) : Tokens := Cutter.run (s.chars.length + 2) { place := .start s }

end TableScript.Yaml
