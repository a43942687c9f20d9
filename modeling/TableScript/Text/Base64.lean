/-!
# Base 64

Four characters of an alphabet of sixty-four stand for three bytes. Characters outside the alphabet
are passed over. Equality signs fill the last group; once it is full, nothing more is read.
-/

namespace TableScript.Text.Base64

/-- The six bits that a character stands for. -/
def value? (c : Char) : Option Nat :=
  if c.isUpper then some (c.toNat - 65)
  else if c.isLower then some (c.toNat - 71)
  else if c.isDigit then some (c.toNat + 4)
  else if c == '+' then some 62
  else if c == '/' then some 63
  else none

structure Group where
  /-- The number of characters so far, less than four. -/
  size : Nat := 0
  /-- The bits that are not part of a byte yet. -/
  bits : Nat := 0
  /-- The equality signs since the last character. -/
  fill : Nat := 0

/-- Reads the rest of a text; `found` holds the bytes so far, the last one first. A text that ends
inside a group stands for nothing. -/
def decodeFrom : List Char → Group → List UInt8 → Option (List UInt8)
  | [], g, found => if g.size = 0 then some found.reverse else none
  | c :: rest, g, found =>
    if c == '=' then
      if g.size < 2 then decodeFrom rest g found
      else if 4 ≤ g.size + g.fill + 1 then some found.reverse
      else decodeFrom rest { g with fill := g.fill + 1 } found
    else match value? c, g.size with
      | none, _ => decodeFrom rest g found
      | some v, 0 => decodeFrom rest ⟨1, v, 0⟩ found
      | some v, 1 => decodeFrom rest ⟨2, v % 16, 0⟩ (UInt8.ofNat (g.bits * 4 + v / 16) :: found)
      | some v, 2 => decodeFrom rest ⟨3, v % 4, 0⟩ (UInt8.ofNat (g.bits * 16 + v / 4) :: found)
      | some v, _ => decodeFrom rest {} (UInt8.ofNat (g.bits * 64 + v) :: found)

def decode? (cs : List Char) : Option (List UInt8) := decodeFrom cs {} []

end TableScript.Text.Base64
