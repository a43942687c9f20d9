import TableScript.Logged
import TableScript.Table.Basic

/-!
# The parts of a table script

A grammar turns a table into the parts of its script: the definition of each column, the primary
key, the quoted name of the table, and the statements that attach comments. The parts are written
down in that order, so an earlier part's failure wins. What a database cannot express is left out
with a notice.
-/

namespace TableScript

/-- A written column definition: quoted name, type, and clauses in the grammar's order. -/
structure ColumnLayout where
  name : String
  type : String
  clauses : List (Clause × String)

/-- A written primary key: the quoted name of the constraint, if it has one, and the quoted
columns. -/
structure KeyLayout where
  constraint : Option String
  columns : List String
  /-- Whether the database is told not to check the key. -/
  unenforced : Bool

structure Layout where
  columns : List ColumnLayout
  key : Option KeyLayout
  table : String
  comments : List String

namespace ColumnLayout

def text (c : ColumnLayout) : String :=
  String.intercalate " " (c.name :: c.type :: c.clauses.map (·.2))

end ColumnLayout

namespace KeyLayout

def text (k : KeyLayout) : String :=
  let clause := "primary key (" ++ String.intercalate ", " k.columns ++ ")"
  let named := match k.constraint with
    | some name => "constraint " ++ name ++ " " ++ clause
    | none => clause
  if k.unenforced then named ++ " not enforced" else named

end KeyLayout

namespace Layout

def body (l : Layout) : List String :=
  l.columns.map ColumnLayout.text ++ (l.key.map KeyLayout.text).toList

def statements (g : Grammar) (l : Layout) : List String :=
  (g.createKeyword ++ " " ++ l.table ++ " (" ++ String.intercalate ", " l.body ++ ")") ::
    l.comments

end Layout

def statementSeparator : String := ";\n"

namespace Grammar

open Logged

/-- The type of a column. A primary key of the table takes the place of a column's own. -/
def columnType (g : Grammar) (t : Table) (c : Column) : Logged Value :=
  match c.type with
  | .token value => answer value
  | .increments => do
    match g.incrementsFallback? with
    | some type => note (.numberingReplaced g c.name type)
    | none => answer ()
    return .text (if t.primaryKey.isEmpty then g.incrementsType else g.incrementsTypeWithoutKey)

/-- One clause of a column, if the column has it and the database can express it. -/
def clause? (g : Grammar) (c : Column) : Clause → Logged (Option String)
  | .unsigned =>
    if !c.isUnsigned || c.increments then answer none
    else if g.supportsUnsigned then answer (some "unsigned")
    else do
      note (.unsignedIgnored g c.name)
      return none
  | .nullability => answer (c.isNullable.map fun b => if b then "null" else "not null")
  | .default =>
    match c.default with
    | none => answer none
    | some value =>
      if g.supportsDefault then do
        lift (requireWritable [value])
        return some ("default " ++ value.written)
      else do
        note (.defaultDropped g c.name)
        return none
  | .comment =>
    match g.commentStyle, c.comment with
    | .clause, some value => lift ((g.quoteString value).map fun s => some ("comment " ++ s))
    | .option, some value =>
      lift ((g.quoteString value).map fun s => some ("options(description=" ++ s ++ ")"))
    | _, _ => answer none

def layOutClauses (g : Grammar) (c : Column) : List Clause → Logged (List (Clause × String))
  | [] => answer []
  | k :: rest => do
    let text ← g.clause? c k
    let others ← layOutClauses g c rest
    return (text.map fun s => (k, s)).toList ++ others

/-- The definition of a column. A type that is no text is found out last. -/
def layOutColumn (g : Grammar) (t : Table) (c : Column) : Logged ColumnLayout := do
  let name ← lift (g.quoteIdentifier c.name)
  let type ← g.columnType t c
  let clauses ← g.layOutClauses c g.clauses
  match type with
  | .text s => return ⟨name, s, clauses⟩
  | _ => fail .wrongType

def primaryKeyName (t : Table) : Except Failure String := do
  requireWritable [t.name]
  return t.name.written ++ "_pkey"

/-- The quoted name of the primary key's constraint, if the database names it. -/
def keyConstraint (g : Grammar) (t : Table) : Except Failure (Option String) :=
  if g.namesPrimaryKey then (primaryKeyName t).map fun name => some (g.quoteName name)
  else .ok none

def layOutKey (g : Grammar) (t : Table) : Except Failure KeyLayout := do
  let columns ← t.primaryKey.mapM g.quoteIdentifier
  let constraint ← g.keyConstraint t
  return ⟨constraint, columns, g = .bigquery⟩

/-- The namespace of descriptions of tables that declare none. -/
def descriptionSpace : Value := .text "dbo"

/-- The columns that have a comment, each with its comment. -/
def commented (t : Table) : List (Column × Value) :=
  t.columns.filterMap fun c => c.comment.map fun v => (c, v)

def commentStatements (g : Grammar) (t : Table) : Except Failure (List String) := do
  let table ← g.quoteTable t.name t.space
  (commented t).mapM fun (c, comment) => do
    let name ← g.quoteIdentifier c.name
    let text ← g.quoteString comment
    return "comment on column " ++ table ++ "." ++ name ++ " is " ++ text

def descriptionStatements (g : Grammar) (t : Table) : Except Failure (List String) :=
  (commented t).mapM fun (c, comment) => do
    let text ← g.quoteString comment
    let space ← g.quoteString (t.space.getD descriptionSpace)
    let table ← g.quoteString t.name
    let name ← g.quoteString c.name
    return "EXEC sp_addextendedproperty @name = N'MS_Description', @value = " ++ text ++
      ", @level0type = N'Schema', @level0name = " ++ space ++
      ", @level1type = N'Table', @level1name = " ++ table ++
      ", @level2type = N'Column', @level2name = " ++ name

def trailingStatements (g : Grammar) (t : Table) : Logged (List String) :=
  match g.commentStyle with
  | .statement => lift (g.commentStatements t)
  | .property => lift (g.descriptionStatements t)
  | .dropped => do
    let _ ← forEach (fun (p : Column × Value) => note (.commentDropped g p.1.name)) (commented t)
    return []
  | .clause | .option => answer []

def layOut (g : Grammar) (t : Table) : Logged Layout := do
  let columns ← forEach (g.layOutColumn t) t.columns
  let key ←
    if t.primaryKey.isEmpty then answer none else lift ((g.layOutKey t).map some)
  let table ← lift (g.quoteTable t.name t.space)
  let comments ← g.trailingStatements t
  return ⟨columns, key, table, comments⟩

def createTable (g : Grammar) (t : Table) : Logged (List String) := do
  let layout ← g.layOut t
  return layout.statements g

def script (g : Grammar) (t : Table) : Logged String := do
  let statements ← g.createTable t
  return String.intercalate statementSeparator statements

end Grammar

end TableScript
