import TableScript.Connection
import TableScript.Dialect.OfValue
import TableScript.Profile.FileTree
import TableScript.Yaml.Document

/-!
# Connection profiles

A profile is a file that names a database and describes a connection. Its document has to be a
mapping with a truthy database; the connection may be left out. A profile without a name is named
after its file.
-/

namespace TableScript

structure Profile where
  name : Value
  dialect : Dialect
  connection : Connection
  path : String

namespace Profile

/-- The entries of a profile's connection. A falsy one counts as empty. -/
def connectionEntries (path : Path) (v : Value) : Except Failure Entries :=
  if v.truthy then
    match v.untie with
    | .mapping entries => .ok entries
    | _ => .error (.connection (.badProfileConnection path.text))
  else .ok []

def ofDocument (path : Path) (document : Value) : Except Failure Profile :=
  match document.untie with
  | .mapping entries => do
    let dialect := Entries.get entries "dialect"
    if dialect.truthy then
      let connection ← connectionEntries path (Entries.get entries "connection")
      let d ← Dialect.ofValue dialect
      let c ← Connection.ofEntries connection
      return ⟨(Entries.get entries "name").orElse (.text path.stem), d, c, path.text⟩
    else .error (.connection (.missing "profile" ["dialect"]))
  | v => .error (.connection (.badProfile path.text v))

/-- The document in a file. -/
def readDocument (t : FileTree) (path : Path) : Except Failure Value := do
  let bytes ← (t.read path).mapError .file
  Yaml.read bytes

def load (t : FileTree) (path : Path) : Except Failure Profile := do
  let document ← readDocument t path
  ofDocument path document

end Profile

end TableScript
