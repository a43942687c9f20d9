/-!
# UTF-8, byte by byte

A character is spelled by one to four bytes. They are taken one at a time, and the first byte that
no character can have at its place is refused; so a text may be cut into pieces that end inside a
character, and what is pending at the end of a piece is carried to the next one.
-/

namespace TableScript.Text.Utf8

/-- A character of which the first bytes have been taken. -/
structure Pending where
  /-- The number that the bytes so far spell. -/
  number : Nat
  missing : Nat
  least : Nat
  greatest : Nat

/-- What follows the first byte of a character of several bytes. The ranges of the second byte
leave out spellings that are too long, the halves of surrogate pairs, and numbers beyond the last
character. -/
def lead? (b : Nat) : Option Pending :=
  if 0xc2 ≤ b ∧ b ≤ 0xdf then some ⟨b - 0xc0, 1, 0x80, 0xbf⟩
  else if b = 0xe0 then some ⟨0, 2, 0xa0, 0xbf⟩
  else if b = 0xed then some ⟨0xd, 2, 0x80, 0x9f⟩
  else if 0xe1 ≤ b ∧ b ≤ 0xef then some ⟨b - 0xe0, 2, 0x80, 0xbf⟩
  else if b = 0xf0 then some ⟨0, 3, 0x90, 0xbf⟩
  else if 0xf1 ≤ b ∧ b ≤ 0xf3 then some ⟨b - 0xf0, 3, 0x80, 0xbf⟩
  else if b = 0xf4 then some ⟨4, 3, 0x80, 0x8f⟩
  else none

/-- Takes one byte: gives the character that it completes, if it completes one, and what is pending
after it. -/
def step (pending : Option Pending) (byte : UInt8) : Option (Option Char × Option Pending) :=
  let b := byte.toNat
  match pending with
  | none =>
    if b < 0x80 then some (some (Char.ofNat b), none)
    else (lead? b).map fun p => (none, some p)
  | some p =>
    if b < p.least ∨ p.greatest < b then none
    else
      let number := p.number * 64 + (b - 0x80)
      if p.missing ≤ 1 then some (some (Char.ofNat number), none)
      else some (none, some ⟨number, p.missing - 1, 0x80, 0xbf⟩)

/-- The characters that a piece of a text completes, and what is pending at its end. -/
def decode (pending : Option Pending) (bytes : List UInt8) :
    Option (List Char × Option Pending) :=
  let result := bytes.foldlM (fun (s : List Char × Option Pending) b =>
      (step s.2 b).map fun t => (t.1.toList ++ s.1, t.2)) ([], pending)
  result.map fun s => (s.1.reverse, s.2)

end TableScript.Text.Utf8
