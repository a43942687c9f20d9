import TableScript.Failure
import TableScript.Text.Utf8

/-!
# Reading a file in portions

The bytes of a file are decoded piece by piece, and its characters are handed out in portions. A
portion that cannot be decoded, or that holds a character that no document may hold, is not handed
out at all. So what stands before such a portion can still be read, and the fault shows only when
something behind it is asked for. Line ends of every convention become line feeds.
-/

namespace TableScript.Yaml

def isAllowed (c : Char) : Bool :=
  let n := c.toNat
  n == 9 || n == 10 || n == 13 || (0x20 ≤ n && n ≤ 0x7e) || n == 0x85 ||
    (0xa0 ≤ n && n ≤ 0xd7ff) || (0xe000 ≤ n && n ≤ 0xfffd) || 0x10000 ≤ n

/-- Line ends of every convention become line feeds. -/
def unifyLineEnds : List Char → List Char
  | '\r' :: '\n' :: rest => '\n' :: unifyLineEnds rest
  | c :: rest => (if c = '\r' then '\n' else c) :: unifyLineEnds rest
  | [] => []

/-- What is left of a file. -/
structure Supply where
  bytes : List UInt8
  pending : Option Text.Utf8.Pending := none
  /-- Whether a carriage return is held back until it is known what follows it. -/
  held : Bool := false
  /-- Decoded characters that have not been handed out. -/
  ready : List Char := []
  /-- The size of the last piece in bytes. -/
  lastBytes : Nat := 0
  /-- The size of the last piece in characters. -/
  lastChars : Nat := 0

namespace Supply

/-- The number of characters in a portion. -/
def portionSize : Nat := 4096

def pieceSize : Nat := 8192

/-- The number of bytes of the next piece, if some characters are wanted. It is estimated from the
piece before. -/
def nextPieceSize (s : Supply) (wanted : Nat) : Nat :=
  let estimate :=
    if s.lastBytes ≤ s.lastChars || s.lastChars = 0 then wanted
    else s.lastBytes * wanted / s.lastChars
  max pieceSize estimate

/-- The characters of a piece after a carriage return that was held back, and whether one is held
back at its end. -/
def joinHeld (held isLast : Bool) (cs : List Char) : List Char × Bool :=
  if held && cs.isEmpty && !isLast then ([], true)
  else
    let whole := if held then '\r' :: cs else cs
    if whole.getLast? == some '\r' && !isLast then (whole.dropLast, true) else (whole, false)

/-- Decodes the next piece; there is none at the end of the file. -/
def refill (s : Supply) (wanted : Nat) : Except FileFault (Option Supply) :=
  let size := s.nextPieceSize wanted
  let piece := s.bytes.take size
  match Text.Utf8.decode s.pending piece with
  | none => .error .undecodable
  | some (cs, pending) =>
    if piece.isEmpty && pending.isSome then .error .undecodable
    else
      let (joined, held) := joinHeld s.held piece.isEmpty cs
      let chars := unifyLineEnds joined
      if piece.isEmpty && chars.isEmpty then .ok none
      else
        .ok (some
          { bytes := s.bytes.drop size
            pending
            held
            ready := chars
            lastBytes := piece.length
            lastChars := chars.length })

/-- Takes characters until there are as many as are wanted, or no more. -/
def take : Nat → Supply → Nat → List Char → Except FileFault (List Char × Supply)
  | 0, s, _, found => .ok (found, s)
  | fuel + 1, s, wanted, found => do
    let taken := s.ready.take wanted
    let s := { s with ready := s.ready.drop wanted }
    let missing := wanted - taken.length
    if missing = 0 then return (found ++ taken, s)
    else
      match ← s.refill missing with
      | none => return (found ++ taken, s)
      | some s => take fuel s missing (found ++ taken)

def portion (s : Supply) : Except FileFault (List Char × Supply) :=
  s.take (s.bytes.length + 2) portionSize []

end Supply

/-- What can be read of a file. -/
structure Source where
  chars : List Char
  /-- The fault behind the characters, if it is not simply the end. -/
  ending : Option Failure

namespace Source

def failed (e : Failure) : Source := ⟨[], some e⟩

/-- Characters, if all are allowed, and what can be read behind them. -/
def after (cs : List Char) (rest : Source) : Source :=
  if cs.all isAllowed then ⟨cs ++ rest.chars, rest.ending⟩ else failed .malformed

/-- The source that the portions of a supply make up. -/
def ofPortions : Nat → Supply → Source
  | 0, _ => ⟨[], none⟩
  | fuel + 1, s =>
    match s.portion with
    | .error e => failed (.file e)
    | .ok ([], _) => ⟨[], none⟩
    | .ok (cs, s) => after cs (ofPortions fuel s)

/-- The source that a file is. Its first two portions are taken together. -/
def ofBytes (bytes : List UInt8) : Source :=
  match do
    let (first, s) ← Supply.portion { bytes }
    let (second, s) ← s.portion
    return (first ++ second, s) with
  | .error e => failed (.file e)
  | .ok (cs, s) => after cs (ofPortions (bytes.length + 1) s)

end Source

end TableScript.Yaml
