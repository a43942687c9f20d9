import TableScript.Sql.Qualifier

/-!
# Scripts that are handed over

A script may come from a document, and then it need not be a text. A falsy value has no
statements; any other value that is no text cannot be read.
-/

namespace TableScript.Sql

def splitValue (strip : Bool) (v : Value) : Except Failure (List Statement) :=
  if v.truthy then
    match v with
    | .text s => (split strip s.toList).mapError .grouping
    | _ => .error .wrongType
  else .ok []

/-- Removes a qualifier from the statements of a value. The statements of a falsy value that is no
text cannot make it up. -/
def removeQualifierOf (qualifier : Value) : Value → Logged String
  | .text s => removeQualifier qualifier.written s
  | v =>
    if v.truthy then Logged.fail .wrongType
    else do
      Logged.note .uncovered
      Logged.fail (.render .uncovered)

end TableScript.Sql
