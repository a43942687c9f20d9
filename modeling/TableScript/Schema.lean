import TableScript.Failure

/-!
# Schemas

A schema describes a table without regard to any database: its name, perhaps a namespace, and its
columns. It is read from a document whose keys may be spelled in either of two ways; of two
spellings in one column the one with underscores counts.
-/

namespace TableScript

structure SchemaColumn where
  name : Value
  type : Value
  isNullable : Bool
  isPrimaryKey : Bool
  isUnsigned : Bool
  default : Value
  comment : Value

structure Schema where
  name : Value
  space : Value
  columns : List SchemaColumn

namespace SchemaColumn

/-- The type token of columns that the database numbers by itself. -/
def autoincrement : String := "autoincrement"

def isAutoincrement (c : SchemaColumn) : Bool := c.type.isText autoincrement

def keys : List String :=
  ["column_name", "columnName", "data_type", "dataType", "nullable", "primary_key", "primaryKey",
   "unsigned", "default_value", "defaultValue", "comment"]

def ofEntries (entries : Entries) : SchemaColumn :=
  let pick (names : List String) : Value := (entries.getFirst? names).getD .null
  { name := pick ["column_name", "columnName"]
    type := pick ["data_type", "dataType"]
    isNullable := (pick ["nullable"]).truthy
    isPrimaryKey := (pick ["primary_key", "primaryKey"]).truthy
    isUnsigned := (pick ["unsigned"]).truthy
    default := pick ["default_value", "defaultValue"]
    comment := pick ["comment"] }

def occurs (part : List Char) : List Char → Bool
  | [] => part.isEmpty
  | c :: rest => part.isPrefixOf (c :: rest) || occurs part rest

/-- Reads a column from a document. A text or a list in which no key occurs is a column without any
attribute; one in which a key does occur cannot be looked up. -/
def ofValue : Value → Except Failure SchemaColumn
  | .mapping entries => .ok (ofEntries entries)
  | .text s =>
    if keys.any fun k => occurs k.toList s.toList then .error .wrongType else .ok (ofEntries [])
  | .list items =>
    if keys.any fun k => items.any (·.isText k) then .error .wrongType else .ok (ofEntries [])
  | _ => .error .wrongType

end SchemaColumn

namespace Schema

def primaryColumns (s : Schema) : List SchemaColumn := s.columns.filter (·.isPrimaryKey)

def ofValue : Value → Except Failure Schema
  | .mapping entries =>
    match ((Entries.get? entries "columns").getD (.list [])).members? with
    | none => .error .wrongType
    | some members => do
      let columns ← members.mapM SchemaColumn.ofValue
      return ⟨Entries.get entries "name", Entries.get entries "schema", columns⟩
  | _ => .error .noOperation

end Schema

end TableScript
