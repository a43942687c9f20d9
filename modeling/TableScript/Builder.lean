import TableScript.Client
import TableScript.Registry
import TableScript.Table.Layout

/-!
# Script builders

A builder writes table scripts for one database. Generic databases share one kind of builder, which
needs a grammar only; a specialized database's builder is its client.
-/

namespace TableScript

inductive Builder (γ : Type := Grammar) where
  | generic (dialect : Dialect) (grammar : γ)
  | specialized (client : Client)

namespace Builder

variable {γ : Type}

def dialect : Builder γ → Dialect
  | generic d _ => d
  | specialized c => c.dialect

def grammar : Builder → Grammar
  | generic _ g => g
  | specialized c => c.grammar

/-- The namespace of tables that declare none; null if they stay without. -/
def namespaceName : Builder → Value
  | generic .. => .null
  | specialized c => c.namespaceName

/-- The kind of a builder and its database. -/
def label (b : Builder) : String :=
  let kind := match b with
    | generic .. => "SchemaBuilder"
    | specialized (.firebird _) => "FirebirdClient"
    | specialized (.cassandra _) => "CassandraClient"
    | specialized (.bigquery ..) => "BigQueryClient"
  kind ++ "(dialect=" ++ Text.shown b.dialect.name ++ ")"

def createGeneric (r : Registry γ) (dialect : Value) : Except Failure (Builder γ) := do
  let d ← Dialect.ofValue dialect
  if d.isGeneric then return .generic d (← r.grammar (.dialect d))
  else .error (.unsupportedDialect (.text d.name))

/-- The builder for a database and a connection. Generic databases ignore the connection. -/
def create (r : Registry) (d : Dialect) (c : Option Connection) : Except Failure Builder :=
  if d.isGeneric then createGeneric r (.dialect d)
  else (Client.create d c).map .specialized

/-- A table without columns, in the builder's namespace unless it has one. -/
def newTable (b : Builder) (name space : Value) : Table :=
  Table.empty name (space.orElse b.namespaceName)

def script (b : Builder) (t : Table) : Logged String := b.grammar.script t

end Builder

end TableScript
