import TableScript.Value

/-!
# Table definitions

A table has a name, perhaps a namespace, its columns in order, and the names of the columns of its
primary key. A column's clauses are optional: none is written unless it was set.
-/

namespace TableScript

/-- The type of a column: numbered by the database, or a token taken as it is. -/
inductive ColumnType where
  | increments
  | token (value : Value)

structure Column where
  name : Value
  type : ColumnType
  default : Option Value := none
  isUnsigned : Bool := false
  comment : Option Value := none
  isNullable : Option Bool := none

namespace Column

def increments (c : Column) : Bool :=
  match c.type with
  | .increments => true
  | .token _ => false

/-- The type token, or null for a self-numbering column. -/
def typeToken (c : Column) : Value :=
  match c.type with
  | .increments => .null
  | .token value => value

def setDefault (c : Column) (v : Value) : Column := { c with default := v.ifPresent }

def setComment (c : Column) (v : Value) : Column := { c with comment := v.ifPresent }

def setUnsigned (c : Column) : Column := { c with isUnsigned := true }

def setNullable (c : Column) (b : Bool) : Column := { c with isNullable := some b }

end Column

structure Table where
  name : Value
  space : Option Value
  columns : List Column := []
  primaryKey : List Value := []

namespace Table

/-- A table without columns. A falsy namespace counts as none. -/
def empty (name space : Value) : Table := { name, space := space.ifTruthy }

def addColumn (t : Table) (c : Column) : Table := { t with columns := t.columns ++ [c] }

def addIncrements (t : Table) (name : Value) : Table := t.addColumn { name, type := .increments }

def addToken (t : Table) (name type : Value) : Table :=
  t.addColumn { name, type := .token type }

def setPrimaryKey (t : Table) (names : List Value) : Table := { t with primaryKey := names }

/-- The place of a column. A negative index counts from the end. -/
def position? (t : Table) (index : Int) : Option Nat :=
  let i := if index < 0 then index + t.columns.length else index
  if 0 ≤ i ∧ i < t.columns.length then some i.toNat else none

def column? (t : Table) (index : Int) : Option Column := (t.position? index).bind (t.columns[·]?)

def modifyColumn (t : Table) (index : Int) (f : Column → Column) : Table :=
  match t.position? index with
  | some i => { t with columns := t.columns.modify i f }
  | none => t

end Table

end TableScript
