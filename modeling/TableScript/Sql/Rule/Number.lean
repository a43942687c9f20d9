import TableScript.Sql.Rule.Basic

/-!
# Numbers

Hexadecimal numbers, numbers with an exponent, with a point, and whole numbers. A number in front
of a letter gives up its last digit to the word that begins there.
-/

namespace TableScript.Sql

open TableScript.Text

namespace Rule

def minusLength : List Char → Nat
  | '-' :: _ => 1
  | _ => 0

def isHexDigit (c : Char) : Bool :=
  isDigit c || (let n := c.toNat; (65 ≤ n && n ≤ 70) || (97 ≤ n && n ≤ 102))

def hexNumber : Rule :=
  ofLength .number fun cs =>
    let sign := minusLength cs
    match cs.drop sign with
    | '0' :: x :: rest =>
      let n := spanLength isHexDigit rest
      if capital x = 'X' ∧ n ≠ 0 then some (sign + 2 + n) else none
    | _ => none

/-- The length of an exponent: an E, perhaps a minus sign, and digits. -/
def exponentLength? : List Char → Option Nat
  | e :: rest =>
    let sign := minusLength rest
    let n := spanLength isDigit (rest.drop sign)
    if capital e = 'E' ∧ n ≠ 0 then some (1 + sign + n) else none
  | [] => none

def fractionLength : List Char → Nat
  | '.' :: rest =>
    let n := spanLength isDigit rest
    if n = 0 then 0 else n + 1
  | _ => 0

/-- A number with an exponent. -/
def exponentNumber : Rule :=
  ofLength .number fun cs =>
    let sign := minusLength cs
    let whole := spanLength isDigit (cs.drop sign)
    if whole = 0 then none
    else
      let n := sign + whole
      let m := n + fractionLength (cs.drop n)
      (exponentLength? (cs.drop m)).map (m + ·)

def nameStartsAt : List Char → Bool
  | c :: _ => isNameStart c
  | [] => false

/-- A run of `count` digits that ends at place `n`. Before a letter the last digit is given up,
which leaves at least `least` of them. -/
def closeDigits? (cs : List Char) (n count least : Nat) : Option Nat :=
  if nameStartsAt (cs.drop n) then if least < count then some (n - 1) else none else some n

def pointNumber : Rule :=
  ofLength .number fun cs =>
    let sign := minusLength cs
    let whole := spanLength isDigit (cs.drop sign)
    let n := sign + whole
    match cs.drop n with
    | '.' :: rest =>
      let fraction := spanLength isDigit rest
      if whole = 0 ∧ fraction = 0 then none
      else closeDigits? cs (n + 1 + fraction) fraction (if whole = 0 then 1 else 0)
    | _ => none

def wholeNumber : Rule :=
  ofLength .number fun cs =>
    let sign := minusLength cs
    let whole := spanLength isDigit (cs.drop sign)
    if whole = 0 then none else closeDigits? cs (sign + whole) whole 1

end Rule

end TableScript.Sql
