import TableScript.Builder

/-!
# Generators

A generator holds a database, a connection and the builder made from them. A call that names an
unknown database or hands over something that is no connection changes nothing. A call whose
connection does not suffice keeps the new values and leaves the generator without a builder.
-/

namespace TableScript

structure Generator where
  dialect : Dialect
  connection : Option Connection
  builder : Option Builder

/-- The connection of a configuration: the one in use, or one that is handed over. -/
inductive ConnectionSource where
  | kept (connection : Option Connection)
  | given (value : Value)

def ConnectionSource.read : ConnectionSource → Except Failure (Option Connection)
  | kept connection => .ok connection
  | given value => Connection.ofOptional value

/-- A generator after a call, and what the call answered. -/
structure Configuration where
  generator : Generator
  result : Logged Unit

namespace Generator

def request (dialect : Value) (source : ConnectionSource) :
    Except Failure (Dialect × Option Connection) := do
  let d ← Dialect.ofValue dialect
  let c ← source.read
  return (d, c)

/-- Makes the builder for a database and a connection. An insufficient connection leaves a
notice. -/
def assemble (r : Registry) (d : Dialect) (c : Option Connection) : Configuration :=
  match Builder.create r d c with
  | .ok b => ⟨⟨d, c, some b⟩, Logged.answer ()⟩
  | .error (.connection fault) =>
    ⟨⟨d, c, none⟩, do
      Logged.note (.unconfigured d fault)
      Logged.fail (.connection fault)⟩
  | .error e => ⟨⟨d, c, none⟩, Logged.fail e⟩

def configure (r : Registry) (g : Generator) (dialect : Value) (source : ConnectionSource) :
    Configuration :=
  match request dialect source with
  | .ok (d, c) => assemble r d c
  | .error e => ⟨g, Logged.fail e⟩

def setDialect (r : Registry) (g : Generator) (dialect : Value) : Configuration :=
  g.configure r dialect (.kept g.connection)

def setConnection (r : Registry) (g : Generator) (connection : Value) : Configuration :=
  g.configure r (.dialect g.dialect) (.given connection)

/-- Changes the live connection in place. The builder stays as it is. -/
def editConnection (g : Generator) (e : Connection.Edit) : Generator :=
  { g with connection := g.connection.map (·.edit e) }

/-- A new generator. It exists only if it can be configured at once. -/
def create (r : Registry) (dialect : Value) (source : ConnectionSource) : Logged Generator := do
  let (d, c) ← Logged.lift (request dialect source)
  let configuration := assemble r d c
  configuration.result
  return configuration.generator

def isConfigured (g : Generator) : Bool := g.builder.isSome

end Generator

end TableScript
