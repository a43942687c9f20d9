import TableScript.Sql.Nesting
import TableScript.Value

/-!
# Failures

Everything that can go wrong, by cause. The wording of a failure is given by `message?`; failures
that come from a value of an unexpected type, from a file or from the profile format have no
wording of their own. A value that goes into a text has to be one that can be written:
`requireWritable` is the check, wherever a name, a default value or the wording of a refusal is
made of values.
-/

namespace TableScript

/-- What is wrong with a connection or with the profile that holds it. -/
inductive ConnectionFault where
  /-- Required fields are absent or blank. -/
  | missing (subject : String) (fields : List String)
  | badPort (dialect : Dialect) (port : Value)
  | absent (dialect : Dialect)
  | badSettings (settings : Value)
  | notConnection (value : Value)
  /-- A profile file whose document is no mapping. -/
  | badProfile (path : String) (document : Value)
  /-- A profile whose connection is no mapping. -/
  | badProfileConnection (path : String)

namespace ConnectionFault

def subject : ConnectionFault → String
  | missing subject _ => subject
  | badPort dialect _ => dialect.name
  | absent dialect => dialect.name
  | badSettings _ => "connection"
  | notConnection _ => "connection"
  | badProfile .. => "profile"
  | badProfileConnection _ => "profile"

def missingFields : ConnectionFault → List String
  | missing _ fields => fields
  | _ => []

def message : ConnectionFault → String
  | missing subject fields =>
    "Connection for " ++ subject ++ " is missing required field(s): " ++
      String.intercalate ", " fields
  | badPort dialect port => "Invalid port for " ++ dialect.name ++ ": " ++ port.shown
  | absent dialect => dialect.name ++ " requires connection parameters"
  | badSettings settings => "db_config must be a mapping, got " ++ settings.kind
  | notConnection value => "Unsupported connection type: " ++ value.kind
  | badProfile path document =>
    "Profile " ++ path ++ " must be a YAML/JSON mapping, got " ++ document.kind
  | badProfileConnection path => "Profile " ++ path ++ ": connection must be a mapping"

end ConnectionFault

inductive ColumnProblem where
  | unnamed (position : Nat)
  | untyped (label : Value)

def ColumnProblem.message : ColumnProblem → String
  | unnamed position => "column " ++ Decimal.naturalText position ++ " has no name"
  | untyped label => "column " ++ label.written ++ " has no data type"

inductive RenderFault where
  | noBuilder (dialect : Dialect)
  | noSchema
  | unnamedTable
  | noColumns (table : Value)
  | badColumns (table : Value) (problems : List ColumnProblem)
  | noNamespace (dialect : Dialect)
  | ungrouped (limit : Sql.GroupingLimit)
  | uncovered

def RenderFault.message : RenderFault → String
  | noBuilder dialect =>
    "No builder configured for dialect " ++ Text.shown dialect.name
  | noSchema => "No schema given"
  | unnamedTable => "Schema has no table name"
  | noColumns table => "Schema " ++ table.shown ++ " has no columns"
  | badColumns table problems =>
    "Invalid schema " ++ table.shown ++ ": " ++
      String.intercalate "; " (problems.map ColumnProblem.message)
  | noNamespace dialect =>
    dialect.name ++ " needs a schema name or a database name in the connection"
  | ungrouped limit => "Could not tokenize generated SQL: " ++ limit.message
  | uncovered => "Could not tokenize generated SQL: statements do not cover the input"

inductive FileFault where
  | missing
  | isDirectory
  | notDirectory
  | undecodable
deriving DecidableEq

inductive Failure where
  | unsupportedDialect (value : Value)
  | connection (fault : ConnectionFault)
  | render (fault : RenderFault)
  | grouping (limit : Sql.GroupingLimit)
  /-- A grammar was registered for a database that has a client of its own. -/
  | specializedGrammar (dialect : Dialect)
  | file (fault : FileFault)
  | malformed
  /-- A value that does not exist, such as a thirteenth month, or that cannot be written. -/
  | impossibleValue
  | wrongType
  /-- An operation that values of this type do not have. -/
  | noOperation
  | outOfRange
  | infiniteNumber
  | unknownWord
  | tooDeep

namespace Failure

/-- The wording of a failure, if it has one. -/
def message? : Failure → Option String
  | unsupportedDialect value => some ("Unsupported dialect: " ++ value.shown)
  | connection fault => some fault.message
  | render fault => some fault.message
  | grouping limit => some limit.message
  | specializedGrammar dialect =>
    some (dialect.name ++ " is a specialized dialect and uses its own client")
  | _ => none

end Failure

/-- Fails if one of some values cannot be written. -/
def requireWritable (vs : List Value) : Except Failure Unit :=
  if vs.all (·.isWritable) then .ok () else .error .impossibleValue

end TableScript
