import TableScript.Text.Blank
import TableScript.Text.CaseFold

/-!
# Target databases

The thirteen databases that a script can be written for. Three of them are specialized: their
scripts need parameters of a connection. A database is named by its identifier or by one of a few
aliases, in any letter case and with blanks around it.
-/

namespace TableScript

inductive Dialect where
  | postgresql
  | redshift
  | cockroachdb
  | mysql
  | mariadb
  | tidb
  | sqlite
  | libsql
  | sqlserver
  | oracle
  | cassandra
  | bigquery
  | firebird
deriving DecidableEq

namespace Dialect

def all : List Dialect :=
  [postgresql, redshift, cockroachdb, mysql, mariadb, tidb, sqlite, libsql, sqlserver, oracle,
   cassandra, bigquery, firebird]

def name : Dialect → String
  | postgresql => "postgresql"
  | redshift => "redshift"
  | cockroachdb => "cockroachdb"
  | mysql => "mysql"
  | mariadb => "mariadb"
  | tidb => "tidb"
  | sqlite => "sqlite"
  | libsql => "libsql"
  | sqlserver => "sqlserver"
  | oracle => "oracle"
  | cassandra => "cassandra"
  | bigquery => "bigquery"
  | firebird => "firebird"

def isSpecialized : Dialect → Bool
  | cassandra | bigquery | firebird => true
  | _ => false

def isGeneric (d : Dialect) : Bool := !d.isSpecialized

/-- Other names of some databases. -/
def aliases : List (String × Dialect) :=
  [("postgres", postgresql), ("pg", postgresql), ("cockroach", cockroachdb), ("mssql", sqlserver),
   ("sqlite3", sqlite)]

def ofName? (name : String) : Option Dialect := all.find? (·.name == name)

/-- Reads an identifier or an alias, ignoring letter case and the blanks around it. -/
def ofText? (s : String) : Option Dialect :=
  let key := String.ofList (Text.lowerList (Text.trimList s.toList))
  (aliases.lookup key).or (ofName? key)

end Dialect

end TableScript
