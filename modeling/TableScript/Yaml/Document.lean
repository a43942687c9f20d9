import TableScript.Yaml.Knot
import TableScript.Yaml.Node

/-!
# Values of documents

A file that holds one document becomes a value: its characters become tokens, the tokens a graph of
nodes, and the graph a value. Each of these steps may fail; the first fault that is met counts. A
fault among the values of nodes shows only when all nodes have been read.
-/

namespace TableScript.Yaml

/-- The value of the document in a file; an empty one is null. -/
def read (bytes : List UInt8) : Except Failure Value := do
  let document ← Document.ofTokens (tokens (Source.ofBytes bytes))
  match document.root with
  | none => return .null
  | some root => do
    let made ← Made.ofGraph document.graph root
    return made.value

end TableScript.Yaml
