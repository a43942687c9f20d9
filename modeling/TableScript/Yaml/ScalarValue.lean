import TableScript.Failure
import TableScript.Text.Base64
import TableScript.Yaml.Tag

/-!
# Values of scalars

What the text of a scalar stands for, once its type is known. The type may have been stated by a
tag, so the text need not look like it: a sign may stand before another one, digits may be of any
script, and blanks may surround a number.
-/

namespace TableScript.Yaml.Scalar

/-- A value, or the failure that there is none. -/
def orImpossible {α : Type} : Option α → Except Failure α
  | some a => .ok a
  | none => .error .impossibleValue

/-- The text without its underscores. -/
def withoutBars (cs : List Char) : List Char := cs.filter (· != '_')

/-- The integer that a text stands for after its first sign. -/
def readMagnitude : List Char → Except Failure Int
  | [] => .error .outOfRange
  | ['0'] => .ok 0
  | '0' :: 'b' :: ds => orImpossible (Decimal.readIntegerIn? 2 ds)
  | '0' :: 'x' :: ds => orImpossible (Decimal.readIntegerIn? 16 ds)
  | '0' :: ds => orImpossible (Decimal.readIntegerIn? 8 ('0' :: ds))
  | cs => orImpossible do
    let digits ← (Text.split ':' cs).mapM (Decimal.readIntegerIn? 10)
    return digits.foldl (fun n d => n * 60 + d) 0

def readInt (cs : List Char) : Except Failure Int := do
  let (negative, rest) := Decimal.takeSign (withoutBars cs)
  let n ← readMagnitude rest
  return if negative then -n else n

/-- The sum of the parts of a float of base sixty, the last part first. It fails where a power of
sixty is beyond all floats. -/
def sumOfSixties (parts : List Float) : Except Failure Float := do
  let sum ← parts.foldlM (fun (s : Float × Nat) x =>
      let base := Decimal.toFloat s.2 0
      if base.isInf then .error .infiniteNumber else .ok (s.1 + x * base, s.2 * 60)) (0.0, 1)
  return sum.1

/-- The float that a text in small letters stands for after its first sign. -/
def readFloatMagnitude (cs : List Char) : Except Failure Float := do
  if cs == ".inf".toList then return 1.0 / 0.0
  else if cs == ".nan".toList then return 0.0 / 0.0
  else if cs.contains ':' then
    let parts ← orImpossible ((Text.split ':' cs).mapM Decimal.readFloatIn?)
    sumOfSixties parts.reverse
  else orImpossible (Decimal.readFloatIn? cs)

def readFloat (cs : List Char) : Except Failure Float := do
  let bare := (withoutBars cs).map Char.toLower
  if bare.isEmpty then throw .outOfRange
  else
    let (negative, rest) := Decimal.takeSign bare
    let x ← readFloatMagnitude rest
    return if negative then -x else x

def readBool (cs : List Char) : Except Failure Bool :=
  match Tag.truthValues.lookup (String.ofList (cs.map Char.toLower)) with
  | some b => .ok b
  | none => .error .unknownWord

def readBytes (cs : List Char) : Except Failure (List UInt8) :=
  if cs.all fun c => c.toNat < 128 then
    match Text.Base64.decode? cs with
    | some bs => .ok bs
    | none => .error .malformed
  else .error .malformed

def readTimestamp (cs : List Char) : Except Failure Value :=
  match Timestamp.read? cs with
  | some t => orImpossible t.value?
  | none => .error .noOperation

def value (tag : Tag) (text : String) : Except Failure Value :=
  match tag with
  | .null => .ok .null
  | .bool => (readBool text.toList).map .bool
  | .int => (readInt text.toList).map .int
  | .float => (readFloat text.toList).map .float
  | .bytes => (readBytes text.toList).map .bytes
  | .timestamp => readTimestamp text.toList
  | .text => .ok (.text text)
  | _ => .error .malformed

end TableScript.Yaml.Scalar
