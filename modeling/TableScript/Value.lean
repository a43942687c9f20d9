import TableScript.Calendar
import TableScript.Decimal.Reading
import TableScript.Dialect.Basic
import TableScript.Text.Shown

/-!
# Document values

Schemas, connections and profiles arrive as documents whose parts may have any type. A value is a
piece of such a document: the types of the usual data formats, days and moments, bytes, sets, pairs,
or a database. Mappings keep the order in which their keys were written.

A document may contain itself. A list or mapping that does is a knot: it has a label, and inside it
the label stands for the whole. A knot is untied before it is taken apart.
-/

namespace TableScript

inductive Value where
  | null
  | bool (b : Bool)
  | int (i : Int)
  | float (x : Float)
  | text (s : String)
  | list (items : List Value)
  | mapping (entries : List (Value × Value))
  | date (year month day : Nat)
  | moment (m : Moment)
  | bytes (bs : List UInt8)
  | set (members : List Value)
  | pair (first second : Value)
  | dialect (d : Dialect)
  /-- A list or mapping that contains itself. -/
  | knot (label : Nat) (body : Value)
  /-- A list or mapping inside itself, by its label. -/
  | again (label : Nat) (isMapping : Bool)

instance : Inhabited Value := ⟨.null⟩

namespace Value

/-- The name of a value's type, as messages give it. -/
def kind : Value → String
  | null => "NoneType"
  | bool _ => "bool"
  | int _ => "int"
  | float _ => "float"
  | text _ => "str"
  | list _ => "list"
  | mapping _ => "dict"
  | date .. => "date"
  | moment _ => "datetime"
  | bytes _ => "bytes"
  | set _ => "set"
  | pair .. => "tuple"
  | dialect _ => "Dialect"
  | knot _ body => body.kind
  | again _ isMapping => if isMapping then "dict" else "list"

/-- Null, false, zero and everything empty is falsy. -/
def truthy : Value → Bool
  | null => false
  | bool b => b
  | int i => i != 0
  | float x => !(x == 0.0)
  | text s => s != ""
  | list items => !items.isEmpty
  | mapping entries => !entries.isEmpty
  | bytes bs => !bs.isEmpty
  | set members => !members.isEmpty
  | knot _ body => body.truthy
  | _ => true

def ifTruthy (v : Value) : Option Value := if v.truthy then some v else none

/-- The first value if it is truthy, else the second. -/
def orElse (v w : Value) : Value := if v.truthy then v else w

def isNull : Value → Bool
  | null => true
  | _ => false

def ifPresent (v : Value) : Option Value := if v.isNull then none else some v

/-- Null, or a text of blanks only. -/
def isBlank : Value → Bool
  | null => true
  | text s => Text.isBlankText s
  | _ => false

mutual

/-- Puts a value in the place of a label. -/
def bind (label : Nat) (whole : Value) : Value → Value
  | again l isMapping => if l = label then whole else again l isMapping
  | knot l body => knot l (if l = label then body else bind label whole body)
  | list items => list (bindItems label whole items)
  | mapping entries => mapping (bindEntries label whole entries)
  | pair first second => pair (bind label whole first) (bind label whole second)
  | v => v

def bindItems (label : Nat) (whole : Value) : List Value → List Value
  | [] => []
  | v :: rest => bind label whole v :: bindItems label whole rest

def bindEntries (label : Nat) (whole : Value) : List (Value × Value) → List (Value × Value)
  | [] => []
  | (k, v) :: rest => (k, bind label whole v) :: bindEntries label whole rest

end

/-- Unties a knot: its label is replaced by the knot itself. -/
def untie : Value → Value
  | knot label body => bind label (knot label body) body
  | v => v

def capitals (d : Dialect) : String := String.ofList (d.name.toList.map Char.toUpper)

def ellipsis (isMapping : Bool) : String := if isMapping then "\x7b...\x7d" else "[...]"

def isMapping : Value → Bool
  | mapping _ => true
  | knot _ body => body.isMapping
  | again _ isMapping => isMapping
  | _ => false

mutual

def shownIn (labels : List Nat) : Value → String
  | null => "None"
  | bool b => if b then "True" else "False"
  | int i => Decimal.integerText i
  | float x => Decimal.floatText x
  | text s => Text.shown s
  | list items => "[" ++ String.intercalate ", " (shownItems labels items) ++ "]"
  | mapping entries =>
    "\x7b" ++ String.intercalate ", " (shownEntries labels entries) ++ "\x7d"
  | date y m d =>
    "datetime.date(" ++ Decimal.naturalText y ++ ", " ++ Decimal.naturalText m ++ ", " ++
      Decimal.naturalText d ++ ")"
  | moment m => m.shown
  | bytes bs => Text.shownBytes bs
  | set [] => "set()"
  | set members => "\x7b" ++ String.intercalate ", " (shownItems labels members) ++ "\x7d"
  | pair first second => "(" ++ shownIn labels first ++ ", " ++ shownIn labels second ++ ")"
  | dialect d => "<Dialect." ++ capitals d ++ ": " ++ Text.shown d.name ++ ">"
  | knot label body =>
    if labels.contains label then ellipsis body.isMapping else shownIn (label :: labels) body
  | again _ isMapping => ellipsis isMapping

def shownItems (labels : List Nat) : List Value → List String
  | [] => []
  | v :: rest => shownIn labels v :: shownItems labels rest

def shownEntries (labels : List Nat) : List (Value × Value) → List String
  | [] => []
  | (k, v) :: rest =>
    (shownIn labels k ++ ": " ++ shownIn labels v) :: shownEntries labels rest

end

def shown (v : Value) : String := shownIn [] v

/-- A value as it is written into running text: texts, days and moments stand for themselves. -/
def written : Value → String
  | text s => s
  | date y m d => Calendar.dayText y m d
  | moment m => m.text
  | dialect d => "Dialect." ++ capitals d
  | v => v.shown

@[simp] theorem written_text (s : String) : (text s).written = s := rfl

mutual

/-- Whether a value can be written. An integer is written only up to the length to which it is
read, and a container only if all that it holds can be written. -/
def isWritable : Value → Bool
  | int i => (Nat.toDigits 10 i.natAbs).length ≤ Decimal.digitLimit
  | list items => areWritable items
  | mapping entries => entriesWritable entries
  | set members => areWritable members
  | pair first second => first.isWritable && second.isWritable
  | knot _ body => body.isWritable
  | _ => true

def areWritable : List Value → Bool
  | [] => true
  | v :: rest => v.isWritable && areWritable rest

def entriesWritable : List (Value × Value) → Bool
  | [] => true
  | (k, v) :: rest => k.isWritable && v.isWritable && entriesWritable rest

end

@[simp] theorem isWritable_text (s : String) : (text s).isWritable = true := rfl

theorem isWritable_int (i : Int) :
    (int i).isWritable = decide ((Nat.toDigits 10 i.natAbs).length ≤ Decimal.digitLimit) := rfl

def isKey : Value → Bool
  | list _ => false
  | mapping _ => false
  | set _ => false
  | pair first second => first.isKey && second.isKey
  | knot .. => false
  | again .. => false
  | _ => true

/-- The integer that a number or a truth value is equal to. -/
def integer? : Value → Option Int
  | bool b => some (if b then 1 else 0)
  | int i => some i
  | float x =>
    match Decimal.FloatValue.ofFloat x with
    | .finite negative b =>
      let (n, d) := b.ratio 0
      if n % d = 0 then some (if negative then -((n / d : Nat) : Int) else ((n / d : Nat) : Int))
      else none
    | v => v.truncate?
  | _ => none

/-- Whether two values are the same key. Numbers and truth values are compared by what they count.
-/
def sameKey : Value → Value → Bool
  | null, null => true
  | text s, text t => s == t
  | date y m d, date y' m' d' => y == y' && m == m' && d == d'
  | moment m, moment n => m.same n
  | bytes a, bytes b => a == b
  | dialect d, dialect e => d == e
  | float x, float y => x == y
  | v, w =>
    match v.integer?, w.integer? with
    | some i, some j => i == j
    | _, _ => false

/-- The number that is none. -/
def isNaN : Value → Bool
  | float x => x.isNaN
  | _ => false

/-- The members of a value that can be run through: items, characters or keys. -/
def members? : Value → Option (List Value)
  | list items => some items
  | text s => some (s.toList.map fun c => text (String.ofList [c]))
  | mapping entries => some (entries.map (·.1))
  | _ => none

def isText (v : Value) (s : String) : Bool :=
  match v with
  | text t => t == s
  | _ => false

theorem isText_iff {v : Value} {s : String} : v.isText s = true ↔ v = text s := by
  cases v with
  | text t => rw [isText, beq_iff_eq, text.injEq]
  | _ => simp [isText]

end Value

abbrev Keyed (α : Type) := List (Value × α)

namespace Keyed

/-- Sets what belongs to a key. A key that is present keeps its place. Although the number that is
none is not the same as itself, it takes its own place. -/
def put {α : Type} : Keyed α → Value → α → Keyed α
  | [], key, a => [(key, a)]
  | (k, b) :: rest, key, a =>
    if k.sameKey key || (k.isNaN && key.isNaN) then (k, a) :: rest else (k, b) :: put rest key a

end Keyed

abbrev Entries := Keyed Value

namespace Entries

def get? (entries : Entries) (key : String) : Option Value :=
  (entries.find? fun e => e.1.isText key).map (·.2)

def get (entries : Entries) (key : String) : Value := (entries.get? key).getD .null

def put (entries : Entries) (key value : Value) : Entries := Keyed.put entries key value

def erase (entries : Entries) (key : String) : Entries :=
  entries.filter fun e => !e.1.isText key

def getFirst? (entries : Entries) (keys : List String) : Option Value :=
  keys.findSome? entries.get?

end Entries

end TableScript
