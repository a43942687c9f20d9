import TableScript.Decimal.Notation

/-!
# Days and moments

A day of the calendar that is in use today, carried back to the year one, and a time on such a day.
A time may state how far its clock is from that of the prime meridian; two such times are the same
moment when they agree after that distance is taken away.
-/

namespace TableScript

namespace Calendar

def daysIn (year month : Nat) : Nat :=
  if month = 2 then
    if year % 4 = 0 ∧ (year % 100 ≠ 0 ∨ year % 400 = 0) then 29 else 28
  else if month = 4 ∨ month = 6 ∨ month = 9 ∨ month = 11 then 30
  else 31

def isDay (year month day : Nat) : Bool :=
  1 ≤ year && 1 ≤ month && month ≤ 12 && 1 ≤ day && day ≤ daysIn year month

def dayNumber (year month day : Nat) : Nat :=
  let y := year - 1
  y * 365 + y / 4 - y / 100 + y / 400 +
    (List.range (month - 1)).foldl (fun n m => n + daysIn year (m + 1)) 0 + day

def dayText (year month day : Nat) : String :=
  Decimal.padded 4 year ++ "-" ++ Decimal.padded 2 month ++ "-" ++ Decimal.padded 2 day

end Calendar

structure Moment where
  year : Nat
  month : Nat
  day : Nat
  hour : Nat
  minute : Nat
  second : Nat
  microsecond : Nat
  /-- How many minutes the clock is ahead of the prime meridian's, if that is known. -/
  offset : Option Int
deriving DecidableEq

namespace Moment

def isValid (m : Moment) : Bool :=
  Calendar.isDay m.year m.month m.day && m.hour < 24 && m.minute < 60 && m.second < 60 &&
    m.offset.all fun o => o.natAbs < 1440

def seconds (m : Moment) (offset : Int) : Int :=
  ((Calendar.dayNumber m.year m.month m.day * 24 + m.hour) * 60 + m.minute : Nat) * 60 + m.second -
    offset * 60

/-- Whether two times are the same moment. One with an offset is never the same as one without. -/
def same (m n : Moment) : Bool :=
  match m.offset, n.offset with
  | none, none => m == n
  | some o, some p => m.seconds o == n.seconds p && m.microsecond == n.microsecond
  | _, _ => false

/-- How an offset is shown in messages. One before the prime meridian is a day back and some seconds
on. -/
def offsetShown (o : Int) : String :=
  if o = 0 then "datetime.timezone.utc"
  else
    let delta :=
      if o < 0 then "days=-1, seconds=" ++ Decimal.integerText (86400 + o * 60)
      else "seconds=" ++ Decimal.integerText (o * 60)
    "datetime.timezone(datetime.timedelta(" ++ delta ++ "))"

def shown (m : Moment) : String :=
  let fine :=
    if m.microsecond ≠ 0 then [m.second, m.microsecond]
    else if m.second ≠ 0 then [m.second]
    else []
  let numbers := ([m.year, m.month, m.day, m.hour, m.minute] ++ fine).map Decimal.naturalText
  let offset := m.offset.toList.map fun o => "tzinfo=" ++ offsetShown o
  "datetime.datetime(" ++ String.intercalate ", " (numbers ++ offset) ++ ")"

def offsetText (o : Int) : String :=
  (if o < 0 then "-" else "+") ++ Decimal.padded 2 (o.natAbs / 60) ++ ":" ++
    Decimal.padded 2 (o.natAbs % 60)

def text (m : Moment) : String :=
  Calendar.dayText m.year m.month m.day ++ " " ++ Decimal.padded 2 m.hour ++ ":" ++
    Decimal.padded 2 m.minute ++ ":" ++ Decimal.padded 2 m.second ++
    (if m.microsecond = 0 then "" else "." ++ Decimal.padded 6 m.microsecond) ++
    (m.offset.map offsetText).getD ""

end Moment

end TableScript
