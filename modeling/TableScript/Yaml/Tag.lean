import TableScript.Text.Split
import TableScript.Yaml.Timestamp

/-!
# Types of scalars

A scalar without quotes and without a tag has the type that its text looks like: null, a truth
value, a number in one of several notations, a day or moment, one of two special keys, or else a
text. Numbers may hold underscores; colons separate digits of base sixty.
-/

namespace TableScript.Yaml

/-- The type of a node. -/
inductive Tag where
  | null
  | bool
  | int
  | float
  | bytes
  | timestamp
  | text
  | list
  | mapping
  | set
  /-- A list of mappings with one entry each, which stands for their order. -/
  | orderedMapping
  /-- A list of mappings with one entry each. -/
  | pairs
  /-- The key whose value is merged into the mapping. -/
  | merge
  /-- The key that stands for a mapping's main value. -/
  | main
  | unknown
deriving DecidableEq

def tagSpace : String := "tag:yaml.org,2002:"

namespace Tag

/-- The known tags by name. -/
def names : List (String × Tag) :=
  [("null", null), ("bool", bool), ("int", int), ("float", float), ("binary", bytes),
   ("timestamp", timestamp), ("str", text), ("seq", list), ("map", mapping), ("set", set),
   ("omap", orderedMapping), ("pairs", pairs), ("merge", merge), ("value", main)]

def ofName (name : String) : Tag :=
  ((names.map fun n => (tagSpace ++ n.1, n.2)).lookup name).getD unknown

def isNull (cs : List Char) : Bool :=
  ["", "~", "null", "Null", "NULL"].contains (String.ofList cs)

def truthValues : List (String × Bool) :=
  [("yes", true), ("no", false), ("true", true), ("false", false), ("on", true), ("off", false)]

/-- A word in small letters, in capitals, or with a capital first letter. -/
def isWordOf (word cs : List Char) : Bool :=
  cs == word || cs == word.map Char.toUpper ||
    (match word with
      | [] => false
      | c :: rest => cs == c.toUpper :: rest)

def isBool (cs : List Char) : Bool := truthValues.any fun w => isWordOf w.1.toList cs

def unsigned : List Char → List Char
  | '-' :: rest => rest
  | '+' :: rest => rest
  | cs => cs

def isDigitOrBar (c : Char) : Bool := c.isDigit || c == '_'

def isOctal (c : Char) : Bool := ('0' ≤ c && c ≤ '7') || c == '_'

def isBinary (c : Char) : Bool := c == '0' || c == '1' || c == '_'

def isHexadecimal (c : Char) : Bool :=
  c.isDigit || ('a' ≤ c && c ≤ 'f') || ('A' ≤ c && c ≤ 'F') || c == '_'

/-- One or two digits below sixty. -/
def isSixtieth : List Char → Bool
  | [c] => c.isDigit
  | [c, d] => '0' ≤ c && c ≤ '5' && d.isDigit
  | _ => false

/-- Digits, the first of which is none of the excluded ones, and then parts of base sixty. -/
def isSexagesimal (first : Char → Bool) (cs : List Char) : Bool :=
  match Text.split ':' cs with
  | (c :: head) :: part :: parts =>
    first c && head.all isDigitOrBar && (part :: parts).all isSixtieth
  | _ => false

def isInt (cs : List Char) : Bool :=
  match unsigned cs with
  | ['0'] => true
  | '0' :: 'b' :: rest => !rest.isEmpty && rest.all isBinary
  | '0' :: 'x' :: rest => !rest.isEmpty && rest.all isHexadecimal
  | '0' :: rest => rest.all isOctal
  | c :: rest =>
    c.isDigit &&
      (rest.all isDigitOrBar || isSexagesimal (fun d => d.isDigit && d != '0') (c :: rest))
  | [] => false

def isExponent : List Char → Bool
  | [] => true
  | e :: s :: d :: rest =>
    (e == 'e' || e == 'E') && (s == '-' || s == '+') && (d :: rest).all Char.isDigit
  | _ => false

/-- Digits and underscores, then perhaps an exponent. -/
def isFraction (cs : List Char) : Bool := isExponent (cs.dropWhile isDigitOrBar)

def isInfinity (cs : List Char) : Bool :=
  match cs with
  | '.' :: rest => isWordOf "inf".toList rest
  | _ => false

def isNotANumber (cs : List Char) : Bool :=
  cs == ".nan".toList || cs == ".NaN".toList || cs == ".NAN".toList

/-- Parts of base sixty, then a point, digits and underscores. -/
def isSexagesimalFloat (cs : List Char) : Bool :=
  match cs.dropWhile (· != '.') with
  | '.' :: fraction =>
    isSexagesimal Char.isDigit (cs.takeWhile (· != '.')) && fraction.all isDigitOrBar
  | _ => false

def isFloat (cs : List Char) : Bool :=
  isNotANumber cs || isInfinity (unsigned cs) ||
    (match cs with
      | '.' :: c :: rest => c.isDigit && isFraction rest
      | _ => false) ||
    (match unsigned cs with
      | c :: rest =>
        c.isDigit &&
          (match rest.dropWhile isDigitOrBar with
            | '.' :: fraction => isFraction fraction
            | _ => false)
      | [] => false) ||
    isSexagesimalFloat (unsigned cs)

/-- A day in full, or a moment. -/
def isTimestamp (cs : List Char) : Bool :=
  match Timestamp.readLine? cs with
  | some t => t.clock.isSome || cs.length = 10
  | none => false

/-- The marks of other parts of a document, which stand for no value. -/
def isForeign (cs : List Char) : Bool := cs == ['!'] || cs == ['&'] || cs == ['*']

/-- The type that a text without a line feed at its end looks like. -/
def ofLine (cs : List Char) : Tag :=
  if isNull cs then null
  else if isBool cs then bool
  else if isFloat cs then float
  else if isInt cs then int
  else if cs == ['<', '<'] then merge
  else if isTimestamp cs then timestamp
  else if cs == ['='] then main
  else if isForeign cs then unknown
  else text

/-- The type that an unquoted text looks like. One line feed at the end does not count, unless it is
the whole text. -/
def ofPlain (cs : List Char) : Tag :=
  if cs == ['\n'] then text else ofLine (Timestamp.dropLineFeed cs)

end Tag

end TableScript.Yaml
