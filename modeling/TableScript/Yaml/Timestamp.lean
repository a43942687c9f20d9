import TableScript.Decimal.Reading
import TableScript.Value

/-!
# Written days and moments

A day is a year of four digits, a month and a day of one or two each, with dashes between them. A
time may follow after a `T` or blanks: hours, minutes, seconds, perhaps a fraction, and perhaps a
`Z` or the distance from the prime meridian in hours and minutes. A line feed at the end is passed
over.
-/

namespace TableScript.Yaml

/-- The time of a written moment. -/
structure Clock where
  hour : Nat
  minute : Nat
  second : Nat
  microsecond : Nat
  offset : Option Int

/-- A written day or moment. -/
structure Timestamp where
  year : Nat
  month : Nat
  day : Nat
  clock : Option Clock

namespace Timestamp

def dropLineFeed (cs : List Char) : List Char :=
  if cs.getLast? == some '\n' then cs.dropLast else cs

/-- Reads a number of at least `least` and at most `most` digits. -/
def digits? (least most : Nat) (cs : List Char) : Option (Nat × List Char) :=
  let ds := cs.takeWhile Char.isDigit
  if least ≤ ds.length ∧ ds.length ≤ most then
    some (Decimal.asciiValue ds, cs.drop ds.length)
  else none

/-- Passes over a character. -/
def pass? (c : Char) : List Char → Option (List Char)
  | d :: rest => if c = d then some rest else none
  | [] => none

/-- The millionths that the digits of a fraction stand for; further digits do not count. -/
def microseconds (ds : List Char) : Nat :=
  let six := ds.take 6
  Decimal.asciiValue (six ++ List.replicate (6 - six.length) '0')

def fraction (cs : List Char) : Nat × List Char :=
  match cs with
  | '.' :: rest =>
    let ds := rest.takeWhile Char.isDigit
    (microseconds ds, rest.drop ds.length)
  | _ => (0, cs)

def distance? (cs : List Char) : Option Int := do
  let (hours, rest) ← digits? 1 2 cs
  match rest with
  | [] => return ((hours * 60 : Nat) : Int)
  | ':' :: rest => do
    let (minutes, rest) ← digits? 2 2 rest
    if rest.isEmpty then return ((hours * 60 + minutes : Nat) : Int) else none
  | _ => none

def offset? (cs : List Char) : Option (Option Int) :=
  if cs.isEmpty then some none
  else match cs.dropWhile fun c => c == ' ' || c == '\t' with
    | ['Z'] => some (some 0)
    | '+' :: rest => (distance? rest).map some
    | '-' :: rest => (distance? rest).map fun d => some (-d)
    | _ => none

def clock? (cs : List Char) : Option Clock := do
  let (hour, cs) ← digits? 1 2 cs
  let cs ← pass? ':' cs
  let (minute, cs) ← digits? 2 2 cs
  let cs ← pass? ':' cs
  let (second, cs) ← digits? 2 2 cs
  let (microsecond, cs) := fraction cs
  let offset ← offset? cs
  return { hour, minute, second, microsecond, offset }

/-- Reads what follows a day: nothing, or a time. -/
def afterDay? (cs : List Char) : Option (Option Clock) :=
  match cs with
  | [] => some none
  | c :: rest =>
    if c == 'T' || c == 't' then (clock? rest).map some
    else if c == ' ' || c == '\t' then
      (clock? (rest.dropWhile fun d => d == ' ' || d == '\t')).map some
    else none

/-- Reads a day or a moment that no line feed follows. -/
def readLine? (cs : List Char) : Option Timestamp := do
  let (year, cs) ← digits? 4 4 cs
  let cs ← pass? '-' cs
  let (month, cs) ← digits? 1 2 cs
  let cs ← pass? '-' cs
  let (day, cs) ← digits? 1 2 cs
  let clock ← afterDay? cs
  return { year, month, day, clock }

def read? (cs : List Char) : Option Timestamp := readLine? (dropLineFeed cs)

def value? (t : Timestamp) : Option Value :=
  match t.clock with
  | none => if Calendar.isDay t.year t.month t.day then some (.date t.year t.month t.day) else none
  | some c =>
    let m : Moment := ⟨t.year, t.month, t.day, c.hour, c.minute, c.second, c.microsecond, c.offset⟩
    if m.isValid then some (.moment m) else none

end Timestamp

end TableScript.Yaml
