import TableScript.Connection
import TableScript.Grammar
import TableScript.Text.Split

/-!
# Clients of specialized databases

A client holds what a specialized database needs from a connection. Required fields are checked
first, then the port. A value that goes into a text, such as the address of the server or the
message that refuses a port, has to be one that can be written.
-/

namespace TableScript

structure FirebirdConfig where
  host : Value
  database : Value
  port : Int
  user : Value
  password : Value
  blobAsText : Bool

structure CassandraConfig where
  contactPoints : List String
  port : Int
  keyspace : Value
  user : Value
  password : Value

structure BigQueryConfig where
  projectId : Value
  keyFilename : Value
  /-- The address of an emulator, when the connection names a host and a port. -/
  apiEndpoint : Option String

inductive Client where
  | firebird (config : FirebirdConfig)
  | cassandra (config : CassandraConfig)
  | bigquery (config : BigQueryConfig) (dataset : Value)

namespace Client

def firebirdPort : Int := 3050

def cassandraPort : Int := 9042

/-- The names of the required fields that are blank. -/
def missingFields (fields : List (String × Value)) : List String :=
  (fields.filter fun f => f.2.isBlank).map (·.1)

def require (d : Dialect) (fields : List (String × Value)) : Except Failure Unit :=
  match missingFields fields with
  | [] => .ok ()
  | names => .error (.connection (.missing d.name names))

/-- Bytes as a text of ASCII characters. A byte beyond those becomes a character that belongs to no
number. -/
def asciiText (bs : List UInt8) : String :=
  String.ofList (bs.map fun b => if b < 128 then Char.ofNat b.toNat else '?')

/-- The integer that a value stands for, if it stands for one. -/
def portNumber? : Value → Option Int
  | .bool b => some (if b then 1 else 0)
  | .int i => some i
  | .float x => (Decimal.FloatValue.ofFloat x).truncate?
  | .text s => Decimal.readInteger? s
  | .bytes bs => Decimal.readInteger? (asciiText bs)
  | _ => none

def isInfinite : Value → Bool
  | .float x =>
    match Decimal.FloatValue.ofFloat x with
    | .infinite _ => true
    | _ => false
  | _ => false

/-- The port of a connection, or the default for a blank one. -/
def readPort (d : Dialect) (default : Int) (v : Value) : Except Failure Int :=
  if v.isBlank then .ok default
  else if isInfinite v then .error .infiniteNumber
  else match portNumber? v with
    | some n => .ok n
    | none => do
      requireWritable [v]
      .error (.connection (.badPort d v))

def hosts (s : String) : List String :=
  ((Text.split ',' s.toList).map Text.trimList |>.filter (!·.isEmpty)).map String.ofList

def readFirebird (c : Connection) : Except Failure FirebirdConfig := do
  let host := c.get "host"
  require .firebird [("host", host), ("database", c.dbName)]
  let port ← readPort .firebird firebirdPort (c.get "port")
  return ⟨host, c.dbName, port, c.get "user", c.get "password", true⟩

def readCassandra (c : Connection) : Except Failure CassandraConfig := do
  let host := c.get "host"
  require .cassandra [("host", host)]
  requireWritable [host]
  let port ← readPort .cassandra cassandraPort (c.get "port")
  return ⟨hosts host.written, port, c.dbName.orElse .null, c.get "user", c.get "password"⟩

def readEndpoint (host port : Value) : Except Failure (Option String) :=
  if host.isBlank || port.isBlank then .ok none
  else do
    requireWritable [host, port]
    return some ("http://" ++ host.written ++ ":" ++ port.written)

/-- The options of a connection under either spelling; an empty one gives way to the other. -/
def bigQueryOptions (c : Connection) : Value :=
  ((c.get "bigQueryOptions").orElse (c.get "bigquery_options")).orElse (.mapping [])

def readBigQuery (c : Connection) : Except Failure BigQueryConfig :=
  match (bigQueryOptions c).untie with
  | .mapping options => do
    let project := (Entries.getFirst? options ["projectId", "project_id"]).getD .null
    require .bigquery [("projectId", project)]
    let endpoint ← readEndpoint (c.get "host") (c.get "port")
    let key := (Entries.getFirst? options ["keyFilename", "key_filename"]).getD .null
    return ⟨project, key, endpoint⟩
  | _ => .error .noOperation

/-- The values that a client tells of when it has been made. -/
def told : Client → List Value
  | firebird config => [config.host, .int config.port, config.database]
  | cassandra config => [.int config.port]
  | bigquery config _ => [config.projectId]

def read : Dialect → Option Connection → Except Failure Client
  | .firebird, some c => (readFirebird c).map .firebird
  | .cassandra, some c => (readCassandra c).map .cassandra
  | .bigquery, some c =>
    (readBigQuery c).map fun config => .bigquery config (c.dbName.orElse .null)
  | d, _ =>
    if d.isSpecialized then .error (.connection (.absent d))
    else .error (.unsupportedDialect (.text d.name))

def create (d : Dialect) (c : Option Connection) : Except Failure Client := do
  let client ← read d c
  requireWritable client.told
  return client

def dialect : Client → Dialect
  | firebird _ => .firebird
  | cassandra _ => .cassandra
  | bigquery .. => .bigquery

def grammar : Client → Grammar
  | firebird _ => .firebird
  | cassandra _ => .cassandra
  | bigquery .. => .bigquery

/-- The namespace of tables that declare none. -/
def namespaceName : Client → Value
  | firebird config => config.database
  | cassandra config => config.keyspace
  | bigquery config dataset => dataset.orElse config.projectId

end Client

end TableScript
