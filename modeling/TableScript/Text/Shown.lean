import TableScript.Text.Printable
import TableScript.Text.Surrogate

/-!
# Texts shown in messages

A message shows a text between quotation marks: apostrophes, or double quotes when the text holds an
apostrophe and no double quote. The mark itself and the backslash are escaped, and so is every
character that is not printable. Bytes are shown in the same way after a `b`; of them only those of
ASCII are printable.
-/

namespace TableScript.Text

/-- The mark that surrounds a shown text. -/
def shownMark (cs : List Char) : Char :=
  if cs.contains '\x27' && !cs.contains '"' then '"' else '\x27'

def hexDigits (width n : Nat) : List Char :=
  let ds := Nat.toDigits 16 n
  List.replicate (width - ds.length) '0' ++ ds

def numbered (n : Nat) : List Char :=
  if n < 0x100 then '\\' :: 'x' :: hexDigits 2 n
  else if n < 0x10000 then '\\' :: 'u' :: hexDigits 4 n
  else '\\' :: 'U' :: hexDigits 8 n

/-- How one character is shown, of those that `printable` holds for or not. -/
def shownWhere (printable : Char → Bool) (mark c : Char) : List Char :=
  if c == mark || c == '\\' then ['\\', c]
  else if c == '\t' then ['\\', 't']
  else if c == '\n' then ['\\', 'n']
  else if c == '\r' then ['\\', 'r']
  else if printable c then [c]
  else numbered ((surrogate? c).getD c.toNat)

def shownChar (mark c : Char) : List Char := shownWhere isPrintable mark c

/-- Whether a byte is shown as the character that it spells. -/
def isPrintableByte (c : Char) : Bool := 0x20 ≤ c.toNat && c.toNat < 0x7f

def shown (s : String) : String :=
  let mark := shownMark s.toList
  String.ofList (mark :: s.toList.flatMap (shownChar mark) ++ [mark])

def shownBytes (bytes : List UInt8) : String :=
  let cs := bytes.map fun b => Char.ofNat b.toNat
  let mark := shownMark cs
  String.ofList ('b' :: mark :: cs.flatMap (shownWhere isPrintableByte mark) ++ [mark])

end TableScript.Text
