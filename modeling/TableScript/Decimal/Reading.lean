import TableScript.Text.Blank
import TableScript.Text.Digit

/-!
# Numbers read from text

A number may be surrounded by blanks (the information separators do not count) and has at most one
sign. Its decimal digits may be of any script, and single underscores may stand between them. Of an
integer in base ten at most 4300 digits are read.
-/

namespace TableScript.Decimal

open TableScript.Text

/-- The number that a list of digits, the leading one first, stands for. -/
def ofDigits (base : Nat) (ds : List Nat) : Nat := ds.foldl (fun n d => n * base + d) 0

/-- The value of a digit of a base up to sixteen; beyond nine it is a letter. -/
def digitIn? (base : Nat) (c : Char) : Option Nat :=
  let value :=
    if 'a' ≤ c ∧ c ≤ 'f' then some (c.toNat - 87)
    else if 'A' ≤ c ∧ c ≤ 'F' then some (c.toNat - 55)
    else digitValue? c
  value.bind fun d => if d < base then some d else none

/-- Digits with single underscores between them. -/
def readDigits? (base : Nat) : List Char → Option (List Nat)
  | [] => none
  | [c] => (digitIn? base c).map ([·])
  | c :: '_' :: rest => do return (← digitIn? base c) :: (← readDigits? base rest)
  | c :: rest => do return (← digitIn? base c) :: (← readDigits? base rest)

/-- The longest integer of base ten that is read, in digits. -/
def digitLimit : Nat := 4300

/-- A natural number; one of base ten has at most `digitLimit` digits. -/
def readNaturalIn? (base : Nat) (cs : List Char) : Option Nat := do
  let ds ← readDigits? base cs
  if base ≠ 10 ∨ ds.length ≤ digitLimit then some (ofDigits base ds) else none

def readNatural? (cs : List Char) : Option Nat := readNaturalIn? 10 cs

/-- The blanks that may surround a number. -/
def isMargin (c : Char) : Bool := isBlank c && !(28 ≤ c.toNat && c.toNat ≤ 31)

/-- Drops the margins of a written number. -/
def dropMargins (cs : List Char) : List Char :=
  ((cs.dropWhile isMargin).reverse.dropWhile isMargin).reverse

/-- Takes the sign off a written number; the flag tells whether it is a minus sign. -/
def takeSign : List Char → Bool × List Char
  | '-' :: rest => (true, rest)
  | '+' :: rest => (false, rest)
  | cs => (false, cs)

/-- Drops the mark that a number of base two, eight or sixteen may begin with. -/
def dropBaseMark (base : Nat) (cs : List Char) : List Char :=
  match cs with
  | '0' :: c :: rest =>
    if (base = 2 && (c == 'b' || c == 'B')) || (base = 8 && (c == 'o' || c == 'O')) ||
        (base = 16 && (c == 'x' || c == 'X')) then rest
    else cs
  | _ => cs

/-- An integer with an optional sign, within margins. -/
def readIntegerIn? (base : Nat) (cs : List Char) : Option Int :=
  let (negative, rest) := takeSign (dropMargins cs)
  (readNaturalIn? base (dropBaseMark base rest)).map fun n => if negative then -(n : Int) else n

def readInteger? (s : String) : Option Int := readIntegerIn? 10 s.toList

/-- The float nearest to `digits * 10 ^ exponent`. Beyond 400 places the number is infinite or zero
whatever its digits are. -/
def toFloat (digits : Nat) (exponent : Int) : Float :=
  let places := ((Nat.toDigits 10 digits).length : Int) + exponent
  if digits = 0 then 0.0
  else if 400 < places then 1.0 / 0.0
  else if places < -400 then 0.0
  else Float.ofScientific digits (exponent < 0) exponent.natAbs

def asciiValue (cs : List Char) : Nat := ofDigits 10 (cs.map fun c => c.toNat - 48)

/-- An exponent: an optional sign and ASCII digits. -/
def readExponent? (cs : List Char) : Option Int :=
  let (negative, ds) := takeSign cs
  if ds.isEmpty || !ds.all Char.isDigit then none
  else some (if negative then -(asciiValue ds : Int) else asciiValue ds)

/-- An unsigned decimal with an optional fraction and exponent. -/
def readUnsigned? (cs : List Char) : Option Float :=
  let whole := cs.takeWhile Char.isDigit
  let (fraction, rest) := match cs.dropWhile Char.isDigit with
    | '.' :: r => (r.takeWhile Char.isDigit, r.dropWhile Char.isDigit)
    | r => ([], r)
  if whole.isEmpty && fraction.isEmpty then none
  else
    let digits := asciiValue (whole ++ fraction)
    match rest with
    | [] => some (toFloat digits (-(fraction.length : Int)))
    | e :: exponent =>
      if e == 'e' || e == 'E' then
        (readExponent? exponent).map fun x => toFloat digits (x - fraction.length)
      else none

/-- Infinity and the number that is none may be spelled out, in letters of any size. -/
def readWord? (cs : List Char) : Option Float :=
  let word := String.ofList (cs.map Char.toLower)
  if word == "inf" || word == "infinity" then some (1.0 / 0.0)
  else if word == "nan" then some (0.0 / 0.0)
  else none

/-- A decimal digit of any script as the ASCII digit of the same value. -/
def toAsciiDigit (c : Char) : Char :=
  match digitValue? c with
  | some d => Char.ofNat (d + 48)
  | none => c

/-- Drops the underscores, each of which has to stand between two ASCII digits. -/
def dropUnderscores? : List Char → Option (List Char)
  | [] => some []
  | a :: '_' :: b :: rest =>
    if a.isDigit && b.isDigit then (dropUnderscores? (b :: rest)).map (a :: ·) else none
  | c :: rest => if c = '_' then none else (dropUnderscores? rest).map (c :: ·)

/-- A decimal or a word with an optional sign, within margins. -/
def readFloatIn? (cs : List Char) : Option Float := do
  let (negative, rest) := takeSign (← dropUnderscores? ((dropMargins cs).map toAsciiDigit))
  let magnitude ← (readWord? rest).orElse fun _ => readUnsigned? rest
  some (if negative then -magnitude else magnitude)

def readFloat? (s : String) : Option Float := readFloatIn? s.toList

end TableScript.Decimal
