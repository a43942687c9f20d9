/-!
# Paths of files

A path is a list of names below the current directory or the root. Empty names and single points are
left out when a path is read; double points stay. A name's suffix begins at its last point, unless
that is its first or its last character.
-/

namespace TableScript

structure Path where
  root : String
  names : List String
deriving DecidableEq

namespace Path

/-- Reads a path. Exactly two slashes in front are a root of their own. -/
def ofText (s : String) : Path where
  root :=
    match s.toList with
    | '/' :: '/' :: '/' :: _ => "/"
    | '/' :: '/' :: _ => "//"
    | '/' :: _ => "/"
    | _ => ""
  names := (s.splitOn "/").filter fun name => name != "" && name != "."

def text (p : Path) : String :=
  if p.root == "" && p.names.isEmpty then "."
  else p.root ++ String.intercalate "/" p.names

def child (p : Path) (name : String) : Path := { p with names := p.names ++ [name] }

def name (p : Path) : String := p.names.getLast?.getD ""

/-- A name cut at its last point, if the point is neither the first nor the last character. -/
def cutName (name : String) : String × String :=
  let backwards := name.toList.reverse
  let suffix := backwards.takeWhile (· != '.')
  let rest := backwards.drop (suffix.length + 1)
  if suffix.isEmpty || rest.isEmpty then (name, "")
  else (String.ofList rest.reverse, String.ofList ('.' :: suffix.reverse))

def stem (p : Path) : String := (cutName p.name).1

def suffix (p : Path) : String := (cutName p.name).2

end Path

end TableScript
