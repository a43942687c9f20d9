import TableScript.Generator.Basic
import TableScript.Schema
import TableScript.Sql.Qualifier

/-!
# Scripts for schemas

A schema that names its table and gives every column a name and a type becomes a table of the
generator's database, and the table a script. Firebird's tables are qualified by the database, which
its statements do not allow, so the qualifier is removed from the script.
-/

namespace TableScript

namespace Schema

/-- What one column lacks: first its name, then its type. -/
def columnProblems (position : Nat) (c : SchemaColumn) : List ColumnProblem :=
  (if c.name.truthy then [] else [.unnamed position]) ++
    (if c.type.truthy then []
      else [.untyped (if c.name.truthy then c.name else .int position)])

def problemsFrom (position : Nat) : List SchemaColumn → List ColumnProblem
  | [] => []
  | c :: rest => columnProblems position c ++ problemsFrom (position + 1) rest

/-- Why no script can be written for a schema, if it cannot. -/
def fault? (s : Schema) : Option RenderFault :=
  if !s.name.truthy then some .unnamedTable
  else if s.columns.isEmpty then some (.noColumns s.name)
  else match problemsFrom 1 s.columns with
    | [] => none
    | problems => some (.badColumns s.name problems)

/-- The names that the wording of a schema's fault has in it. -/
def namesInFault (s : Schema) : List Value :=
  if s.name.truthy then
    s.name :: (s.columns.filter fun c => c.name.truthy && !c.type.truthy).map (·.name)
  else []

/-- Refuses a schema for which no script can be written. -/
def check (s : Schema) : Except Failure Unit :=
  match s.fault? with
  | none => .ok ()
  | some fault => do
    requireWritable s.namesInFault
    .error (.render fault)

/-- The columns of the primary key. A self-numbering column of a generic database is its own key
unless the table declares one, so it is left out. -/
def keyColumns (d : Dialect) (s : Schema) : List SchemaColumn :=
  s.primaryColumns.filter fun c => !(d.isGeneric && c.isAutoincrement)

/-- A column of the table. Falsy default values and comments count as none. -/
def toColumn (c : SchemaColumn) : Column where
  name := c.name
  type := if c.isAutoincrement then .increments else .token c.type
  default := c.default.ifTruthy
  isUnsigned := c.isUnsigned
  comment := c.comment.ifTruthy
  isNullable := some c.isNullable

/-- The namespace of a table, which specialized databases need. -/
def spaceFor (b : Builder) (s : Schema) : Except Failure Value :=
  match b with
  | .generic .. => .ok s.space
  | .specialized client =>
    let space := s.space.orElse client.namespaceName
    if space.truthy then .ok space else .error (.render (.noNamespace client.dialect))

def toTable (b : Builder) (space : Value) (s : Schema) : Table where
  name := s.name
  space := (b.newTable s.name space).space
  columns := s.columns.map toColumn
  primaryKey := (s.keyColumns b.dialect).map (·.name)

end Schema

namespace Builder

/-- Mends a script where the database does not take it as it is written. -/
def repair (b : Builder) (script : String) : Logged String :=
  match b with
  | .specialized (.firebird config) => Sql.removeQualifier config.database.written script
  | _ => Logged.answer script

/-- The script for a schema before it is mended. -/
def draft (b : Builder) (s : Schema) : Logged String := do
  Logged.lift s.check
  let space ← Logged.lift (s.spaceFor b)
  b.script (s.toTable b space)

end Builder

def Generator.script (g : Generator) (schema : Option Schema) : Logged String :=
  match g.builder with
  | none => Logged.fail (.render (.noBuilder g.dialect))
  | some b =>
    match schema with
    | none => Logged.fail (.render .noSchema)
    | some s => do
      let text ← b.draft s
      b.repair text

end TableScript
