/-!
# Halves of surrogate pairs

The numbers from D800 to DFFF are no characters: they serve to spell other characters in pairs. An
escape may name one of them alone, and a text keeps it. Such a half is held as the character that
lies 50000 (in base sixteen) above it, which is assigned to nothing.
-/

namespace TableScript.Text

/-- The distance between a half and the character that holds it. -/
def surrogateShift : Nat := 0x50000

def isSurrogate (n : Nat) : Bool := 0xd800 ≤ n && n < 0xe000

/-- The character, or the half, with a number. There is none beyond 10FFFF. -/
def ofNumber? (n : Nat) : Option Char :=
  if 0x10ffff < n then none
  else some (Char.ofNat (if isSurrogate n then n + surrogateShift else n))

def surrogate? (c : Char) : Option Nat :=
  let n := c.toNat - surrogateShift
  if surrogateShift ≤ c.toNat ∧ isSurrogate n then some n else none

end TableScript.Text
