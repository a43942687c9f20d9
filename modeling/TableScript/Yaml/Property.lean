import TableScript.Decimal.Reading
import TableScript.Yaml.Scalar
import TableScript.Yaml.Token

/-!
# Directives, anchors and tags

The parts of a document that are not content: lines that declare a version or the handle of tags,
the names under which nodes are repeated, and the tags that state a node's type.
-/

namespace TableScript.Yaml

def isTagChar (c : Char) : Bool :=
  c.isAlphanum || "-;/?:@&=+$,_.!~*'()[]%".toList.contains c

/-- Reads the bytes of consecutive percent escapes. -/
def percentBytes : Nat → Place → List UInt8 → Except Failure (List UInt8 × Place)
  | 0, p, found => .ok (found.reverse, p)
  | fuel + 1, p, found => do
    let first ← p.peek
    if first == some '%' then
      let q ← p.next
      let n ← hexNumber 2 q
      let r ← q.forward 2
      percentBytes fuel r (n.toUInt8 :: found)
    else return (found.reverse, p)

/-- Reads the text of a tag, in which percent escapes stand for bytes. -/
def tagText : Nat → Place → List Char → Except Failure (List Char × Place)
  | 0, p, found => .ok (found.reverse, p)
  | fuel + 1, p, found => do
    match ← p.peek with
    | none => return (found.reverse, p)
    | some c =>
      if c == '%' then do
        let (bytes, q) ← percentBytes (p.rest.length + 1) p []
        match Text.Utf8.decode none bytes with
        | some (cs, none) => tagText fuel q (cs.reverse ++ found)
        | _ => throw .malformed
      else if isTagChar c then do
        let q ← p.next
        tagText fuel q (c :: found)
      else return (found.reverse, p)

/-- Reads the text of a tag, which must not be empty. -/
def readTagText (p : Place) : Except Failure (String × Place) := do
  let (cs, q) ← tagText (p.rest.length + 1) p []
  if q.offset = p.offset then throw .malformed else return (String.ofList cs, q)

def readHandle (p : Place) : Except Failure (String × Place) := do
  let first ← p.peek
  if first != some '!' then throw .malformed
  else
    let q ← p.next
    let second ← q.peek
    if second == some ' ' then return ("!", q)
    else
      let (name, r) ← q.span isNameChar
      let last ← r.peek
      if last == some '!' then
        let s ← r.next
        return (String.ofList ('!' :: name ++ ['!']), s)
      else throw .malformed

/-- Whether an exclamation mark comes before the next space. -/
def hasHandle : Nat → Place → Except Failure Bool
  | 0, _ => .ok false
  | fuel + 1, p => do
    let first ← p.peek
    if first == some '!' then return true
    else if spaceAt first then return false
    else
      let q ← p.next
      hasHandle fuel q

def readTag (p : Place) : Except Failure (Token × Place) := do
  let second ← p.look 1
  let (handle, suffix, q) ←
    if second == some '<' then do
      let first ← p.forward 2
      let (suffix, q) ← readTagText first
      let last ← q.peek
      if last == some '>' then do
        let r ← q.next
        pure (none, suffix, r)
      else throw .malformed
    else if gapAt second then do
      let q ← p.next
      pure (none, "!", q)
    else do
      let next ← p.next
      let isNamed ← hasHandle (p.rest.length + 1) next
      let (handle, q) ← if isNamed then readHandle p else pure ("!", next)
      let (suffix, r) ← readTagText q
      pure (some handle, suffix, r)
  let after ← q.peek
  if spaceAt after then return (.tag handle suffix, q) else throw .malformed

def endsAnchor (c : Option Char) : Bool :=
  gapAt c || c.any fun d => "?:,]\x7d%@\x60".toList.contains d

/-- Reads the name of an anchor or alias after its mark. -/
def readAnchor (p : Place) : Except Failure (String × Place) := do
  let first ← p.next
  let (name, q) ← first.span isNameChar
  let after ← q.peek
  if name.isEmpty || !endsAnchor after then throw .malformed
  else return (String.ofList name, q)

/-- Reads a number of a version. A number that is too long stands for none. -/
def versionNumber (p : Place) : Except Failure (Nat × Place) := do
  let (digits, q) ← p.span Char.isDigit
  if digits.isEmpty then throw .malformed
  else
    match Decimal.readNatural? digits with
    | some n => return (n, q)
    | none => throw .impossibleValue

/-- Reads a version of two numbers. -/
def readVersion (p : Place) : Except Failure (Directive × Place) := do
  let first ← p.skip (· == ' ')
  let (major, q) ← versionNumber first
  let point ← q.peek
  if point != some '.' then throw .malformed
  else
    let second ← q.next
    let (_, r) ← versionNumber second
    let after ← r.peek
    if spaceAt after then return (.version major, r) else throw .malformed

/-- Reads a handle and what it stands for. -/
def readHandleDirective (p : Place) : Except Failure (Directive × Place) := do
  let first ← p.skip (· == ' ')
  let (handle, q) ← readHandle first
  let between ← q.peek
  if between != some ' ' then throw .malformed
  else
    let second ← q.skip (· == ' ')
    let (expansion, r) ← readTagText second
    let after ← r.peek
    if spaceAt after then return (.handle handle expansion, r) else throw .malformed

def readDirective (p : Place) : Except Failure (Token × Place) := do
  let first ← p.next
  let (name, q) ← first.span isNameChar
  let after ← q.peek
  if name.isEmpty || !spaceAt after then throw .malformed
  else
    let (directive, r) ←
      if name == "YAML".toList then readVersion q
      else if name == "TAG".toList then readHandleDirective q
      else do
        let r ← q.skip (!isBreak ·)
        pure (.other, r)
    let s ← ignoredLine r
    return (.directive directive, s)

end TableScript.Yaml
