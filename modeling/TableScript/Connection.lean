import TableScript.Failure

/-!
# Connections

A connection names a database and carries settings of any kind. Documents may spell its keys in
either of two ways; of two spellings in one document the one with underscores counts.
-/

namespace TableScript

structure Connection where
  dbName : Value
  settings : Entries

namespace Connection

/-- The value of a setting, or null. -/
def get (c : Connection) (key : String) : Value := c.settings.get key

def readSettings (v : Value) : Except Failure Entries :=
  if v.truthy then
    match v.untie with
    | .mapping entries => .ok entries
    | _ => .error (.connection (.badSettings v))
  else .ok []

def ofEntries (entries : Entries) : Except Failure Connection := do
  let settings ← readSettings ((entries.getFirst? ["db_config", "dbConfig"]).getD .null)
  return ⟨(entries.getFirst? ["db_name", "dbName"]).getD .null, settings⟩

def ofValue : Value → Except Failure Connection
  | .mapping entries => ofEntries entries
  | _ => .error .noOperation

/-- A connection as it is handed over: null for none, or a document. -/
def ofOptional (v : Value) : Except Failure (Option Connection) :=
  match v.untie with
  | .null => .ok none
  | .mapping entries => (ofEntries entries).map some
  | _ => .error (.connection (.notConnection v))

structure Edit where
  dbName : Option Value
  set : Entries
  delete : List String

/-- Assigns the database name, sets the given settings, then removes some. -/
def edit (c : Connection) (e : Edit) : Connection where
  dbName := e.dbName.getD c.dbName
  settings := e.delete.foldl Entries.erase (e.set.foldl (fun s p => s.put p.1 p.2) c.settings)

end Connection

end TableScript
