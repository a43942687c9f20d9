import TableScript.Decimal.Shortest

/-!
# Written numbers

Floating-point numbers are written with the fewest digits that read back. The notation is
positional while the exponent of the leading digit is between -4 and 15, and a number written
positionally always has a fraction.
-/

namespace TableScript.Decimal

inductive FloatValue where
  | undefined
  | infinite (negative : Bool)
  | zero (negative : Bool)
  | finite (negative : Bool) (magnitude : Binary)

def FloatValue.ofBits (bits : Nat) : FloatValue :=
  let negative := bits / Nat.pow 2 63 % 2 == 1
  let exponent : Nat := bits / Nat.pow 2 52 % 2048
  let fraction : Nat := bits % Nat.pow 2 52
  if exponent = 2047 then
    if fraction = 0 then .infinite negative else .undefined
  else if exponent = 0 then
    if fraction = 0 then .zero negative else .finite negative ⟨fraction, -1074, false⟩
  else
    .finite negative
      ⟨fraction + Nat.pow 2 52, Int.ofNat exponent - 1075, fraction == 0 && 1 < exponent⟩

def FloatValue.ofFloat (x : Float) : FloatValue := .ofBits x.toBits.toNat

/-- The integer part, toward zero, of a finite number. -/
def FloatValue.truncate? : FloatValue → Option Int
  | .undefined => none
  | .infinite _ => none
  | .zero _ => some 0
  | .finite negative b =>
    let (n, d) := b.ratio 0
    some (if negative then -((n / d : Nat) : Int) else ((n / d : Nat) : Int))

def naturalText (n : Nat) : String := String.ofList (Nat.toDigits 10 n)

def padded (width n : Nat) : String :=
  let ds := Nat.toDigits 10 n
  String.ofList (List.replicate (width - ds.length) '0' ++ ds)

def integerText (i : Int) : String :=
  if i < 0 then "-" ++ naturalText i.natAbs else naturalText i.natAbs

/-- The digits without the zeros at the end. -/
def significantDigits (n : Nat) : List Char :=
  match ((Nat.toDigits 10 n).reverse.dropWhile (· == '0')).reverse with
  | [] => ['0']
  | ds => ds

/-- Exponents have a sign and at least two digits. -/
def exponentText (e : Int) : String :=
  let ds := naturalText e.natAbs
  (if e < 0 then "e-" else "e+") ++ (if ds.length < 2 then "0" ++ ds else ds)

/-- Writes `0.d₁d₂… * 10 ^ point`. -/
def layOut (ds : List Char) (point : Int) : String :=
  let exponent := point - 1
  if exponent < -4 ∨ 16 ≤ exponent then
    match ds with
    | [] => "0"
    | [d] => String.ofList [d] ++ exponentText exponent
    | d :: rest => String.ofList (d :: '.' :: rest) ++ exponentText exponent
  else if point ≤ 0 then
    "0." ++ String.ofList (List.replicate (-point).toNat '0' ++ ds)
  else
    let whole := ds.take point.toNat
    let fraction := ds.drop point.toNat
    String.ofList (whole ++ List.replicate (point.toNat - ds.length) '0') ++ "." ++
      (if fraction.isEmpty then "0" else String.ofList fraction)

def FloatValue.text : FloatValue → String
  | .undefined => "nan"
  | .infinite negative => if negative then "-inf" else "inf"
  | .zero negative => if negative then "-0.0" else "0.0"
  | .finite negative b =>
    let s := b.shortest
    let text := layOut (significantDigits s.digits) ((digitCount s.digits : Int) + s.exponent)
    if negative then "-" ++ text else text

def floatText (x : Float) : String := (FloatValue.ofFloat x).text

end TableScript.Decimal
