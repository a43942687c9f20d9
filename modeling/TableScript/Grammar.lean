import TableScript.Failure
import TableScript.Sql.Quoting

/-!
# Grammars of databases

A grammar says how a database spells the parts of a table definition: the marks around names, the
inside of literals, the type of a self-numbering column, the order in which a column's clauses
follow its type, and what becomes of unsigned columns and of comments.
-/

namespace TableScript

/-- The clauses that may follow the type of a column. -/
inductive Clause where
  | unsigned
  | nullability
  | default
  | comment
deriving DecidableEq

def Clause.name : Clause → String
  | unsigned => "unsigned"
  | nullability => "nullable"
  | default => "default"
  | comment => "comment"

inductive CommentStyle where
  /-- Into the column's definition, after the word `comment`. -/
  | clause
  /-- Into the column's definition, as an option. -/
  | option
  /-- Into a statement of its own. -/
  | statement
  /-- Into an extended property of the column. -/
  | property
  | dropped
deriving DecidableEq

inductive Grammar where
  | postgresql
  | redshift
  | mysql
  | sqlite
  | sqlserver
  | oracle
  | cassandra
  | bigquery
  | firebird
deriving DecidableEq

namespace Grammar

def all : List Grammar :=
  [postgresql, redshift, mysql, sqlite, sqlserver, oracle, cassandra, bigquery, firebird]

def name : Grammar → String
  | postgresql => "postgresql"
  | redshift => "redshift"
  | mysql => "mysql"
  | sqlite => "sqlite"
  | sqlserver => "sqlserver"
  | oracle => "oracle"
  | cassandra => "cassandra"
  | bigquery => "bigquery"
  | firebird => "firebird"

def ofName? (name : String) : Option Grammar := all.find? (·.name == name)

def createKeyword (_ : Grammar) : String := "create table"

def marks : Grammar → Option (Char × Char)
  | postgresql | redshift | oracle | cassandra => some ('"', '"')
  | mysql | sqlite | bigquery => some ('\x60', '\x60')
  | sqlserver => some ('[', ']')
  | firebird => none

def openingMark (g : Grammar) : String := (g.marks.map fun m => String.ofList [m.1]).getD ""

def closingMark (g : Grammar) : String := (g.marks.map fun m => String.ofList [m.2]).getD ""

def literalStyle : Grammar → Sql.LiteralStyle
  | mysql => .doubledEscape
  | bigquery => .escaped
  | sqlserver => .national
  | _ => .doubled

def commentStyle : Grammar → CommentStyle
  | mysql => .clause
  | bigquery => .option
  | postgresql | redshift | oracle | firebird => .statement
  | sqlserver => .property
  | sqlite | cassandra => .dropped

/-- Whether comments stand in the definition of a column. -/
def supportsInlineComment (g : Grammar) : Bool :=
  g.commentStyle == .clause || g.commentStyle == .option

def supportsUnsigned : Grammar → Bool
  | mysql => true
  | _ => false

def supportsDefault : Grammar → Bool
  | cassandra => false
  | _ => true

def clauses : Grammar → List Clause
  | postgresql | redshift | sqlserver => [.unsigned, .nullability, .default]
  | mysql | sqlite => [.unsigned, .nullability, .default, .comment]
  | oracle | cassandra | firebird => [.unsigned, .default, .nullability]
  | bigquery => [.unsigned, .default, .nullability, .comment]

def namesPrimaryKey : Grammar → Bool
  | postgresql | redshift | sqlserver | oracle | firebird => true
  | mysql | sqlite | cassandra | bigquery => false

/-- The type of a self-numbering column of a table without a primary key. -/
def incrementsType : Grammar → String
  | postgresql => "serial primary key"
  | redshift => "integer identity(1,1) primary key"
  | mysql => "int unsigned auto_increment primary key"
  | sqlite => "integer primary key autoincrement"
  | sqlserver => "int identity(1,1) primary key"
  | oracle => "integer generated by default as identity primary key"
  | cassandra => "int"
  | bigquery => "INT64"
  | firebird => "integer generated by default as identity primary key"

/-- The type of a self-numbering column of a table that declares its primary key. -/
def incrementsTypeWithoutKey : Grammar → String
  | postgresql => "serial"
  | redshift => "integer identity(1,1)"
  | mysql => "int unsigned auto_increment unique"
  | sqlite => "integer"
  | sqlserver => "int identity(1,1)"
  | oracle => "integer generated by default as identity"
  | cassandra => "int"
  | bigquery => "INT64"
  | firebird => "integer generated by default as identity"

/-- Databases that cannot number rows render the column as a plain integer. -/
def incrementsFallback? : Grammar → Option String
  | cassandra => some "int"
  | bigquery => some "INT64"
  | _ => none

def quoteName (g : Grammar) (s : String) : String :=
  match g.marks with
  | some (opening, closing) => String.ofList (Sql.encloseName opening closing s.toList)
  | none => s

def quoteText (g : Grammar) (s : String) : String :=
  String.ofList (g.literalStyle.enclose s.toList)

/-- The failure of taking a value apart as if it were a text. -/
def notText : Value → Failure
  | .date .. => .wrongType
  | .moment _ => .wrongType
  | .bytes _ => .wrongType
  | _ => .noOperation

/-- Quotes a name. Without marks every value stands as it is written. -/
def quoteIdentifier (g : Grammar) : Value → Except Failure String
  | .text s => .ok (g.quoteName s)
  | v =>
    if g.marks.isNone then do
      requireWritable [v]
      return v.written
    else .error (notText v)

def quoteString (g : Grammar) : Value → Except Failure String
  | .text s => .ok (g.quoteText s)
  | v => .error (notText v)

/-- A table's name, after the name of its namespace if there is one. -/
def quoteTable (g : Grammar) (table : Value) : Option Value → Except Failure String
  | none => g.quoteIdentifier table
  | some space => do
    let first ← g.quoteIdentifier space
    let second ← g.quoteIdentifier table
    return first ++ "." ++ second

@[simp] theorem quoteIdentifier_text (g : Grammar) (s : String) :
    g.quoteIdentifier (.text s) = .ok (g.quoteName s) := rfl

@[simp] theorem quoteString_text (g : Grammar) (s : String) :
    g.quoteString (.text s) = .ok (g.quoteText s) := rfl

end Grammar

end TableScript
