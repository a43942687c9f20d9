/-!
# Shortest decimals

A binary floating-point number stands for every real number that rounds to it. Its shortest decimal
is the one with the fewest digits in that interval, and of those the nearest. All arithmetic is
exact, on natural numbers.
-/

namespace TableScript.Decimal

/-- The number `significand * 2 ^ exponent`. When `narrow` holds, the gap to the next number below
is half the gap to the next one above. -/
structure Binary where
  significand : Nat
  exponent : Int
  narrow : Bool

structure Scientific where
  digits : Nat
  exponent : Int
deriving DecidableEq

def digitCount (n : Nat) : Nat := (Nat.toDigits 10 n).length

def twoTo (q : Int) : Nat := Nat.pow 2 q.toNat

def tenTo (k : Int) : Nat := Nat.pow 10 k.toNat

def leBinary (d : Nat) (k : Int) (s : Nat) (q : Int) : Bool :=
  d * tenTo k * twoTo (-q) ≤ s * twoTo q * tenTo (-k)

def geBinary (d : Nat) (k : Int) (s : Nat) (q : Int) : Bool :=
  s * twoTo q * tenTo (-k) ≤ d * tenTo k * twoTo (-q)

namespace Binary

/-- Whether `d * 10 ^ k` rounds to the number: it lies between the midpoints to the neighbours, and
the midpoints themselves count when the significand is even. -/
def rounds (b : Binary) (d : Nat) (k : Int) : Bool :=
  let low := 4 * b.significand - (if b.narrow then 1 else 2)
  let high := 4 * b.significand + 2
  let q := b.exponent - 2
  if b.significand % 2 = 0 then geBinary d k low q && leBinary d k high q
  else !leBinary d k low q && !geBinary d k high q

/-- The numerator and denominator of the number divided by `10 ^ k`. -/
def ratio (b : Binary) (k : Int) : Nat × Nat :=
  (b.significand * twoTo b.exponent * tenTo (-k), twoTo (-b.exponent) * tenTo k)

/-- The decimal exponent of the leading digit. -/
def magnitude (b : Binary) : Int :=
  let (n, d) := b.ratio 0
  if d ≤ n then (digitCount (n / d) : Int) - 1
  else -(digitCount ((d + n - 1) / n - 1) : Int)

/-- The best decimal on the grid of multiples of `10 ^ k`, if one there rounds to the number. -/
def onGrid? (b : Binary) (k : Int) : Option Nat :=
  let (n, d) := b.ratio k
  let below := n / d
  let rest := n % d
  match b.rounds below k, b.rounds (below + 1) k with
  | false, false => none
  | true, false => some below
  | false, true => some (below + 1)
  | true, true =>
    if 2 * rest < d then some below
    else if d < 2 * rest then some (below + 1)
    else some (if below % 2 = 0 then below else below + 1)

/-- Tries grids of more and more digits, at most `fuel` of them. -/
def search (b : Binary) : Nat → Int → Scientific
  | 0, k => ⟨(b.ratio k).1 / (b.ratio k).2, k⟩
  | fuel + 1, k =>
    match b.onGrid? k with
    | some d => ⟨d, k⟩
    | none => search b fuel (k - 1)

/-- The shortest decimal that rounds to the number; seventeen digits are always enough. -/
def shortest (b : Binary) : Scientific := b.search 17 b.magnitude

end Binary

end TableScript.Decimal
