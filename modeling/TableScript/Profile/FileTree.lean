import TableScript.Failure
import TableScript.Profile.Path

/-!
# Trees of files

What lies below the current directory, as one value: the entries by their full paths. A path is
followed from directory to directory, so a double point after a missing directory is no way back.
Outside the current directory there are the directories above it, and nothing is known in them.
-/

namespace TableScript

inductive FileEntry where
  | folder
  | file (bytes : List UInt8)
deriving DecidableEq

structure FileTree where
  entries : List (List String × FileEntry)

namespace FileTree

def empty : FileTree := ⟨[]⟩

/-- The entry at a full path. The current directory is always there. -/
def get? (t : FileTree) : List String → Option FileEntry
  | [] => some .folder
  | path => t.entries.lookup path

def put (t : FileTree) (path : List String) (e : FileEntry) : FileTree :=
  ⟨(path, e) :: t.entries.filter (·.1 != path)⟩

def above (path : List String) : Option (List String) :=
  if path.isEmpty then none else some path.dropLast

/-- Follows names from a directory to a full path; the last name need not exist. -/
def follow (t : FileTree) :
    Option (List String) → List String → Except FileFault (Option (List String))
  | path, [] => .ok path
  | none, name :: rest => if name == ".." then follow t none rest else .error .missing
  | some path, name :: rest =>
    match t.get? path with
    | none => .error .missing
    | some (.file _) => .error .notDirectory
    | some .folder =>
      if name == ".." then follow t (above path) rest else follow t (some (path ++ [name])) rest

/-- The full path of a path, if it is not a directory outside the current one. -/
def resolve? (t : FileTree) (p : Path) : Except FileFault (Option (List String)) :=
  t.follow (if p.root == "" then some [] else none) p.names

def resolve (t : FileTree) (p : Path) : Except FileFault (List String) := do
  match ← t.resolve? p with
  | some path => return path
  | none => .error .isDirectory

def entry (t : FileTree) (p : Path) : Except FileFault FileEntry := do
  match ← t.resolve? p with
  | none => return .folder
  | some path =>
    match t.get? path with
    | some e => return e
    | none => .error .missing

def contains (t : FileTree) (p : Path) : Bool := (t.entry p).toOption.isSome

def read (t : FileTree) (p : Path) : Except FileFault (List UInt8) := do
  match ← t.entry p with
  | .file bytes => return bytes
  | .folder => .error .isDirectory

def names (t : FileTree) (p : Path) : Except FileFault (List String) := do
  match ← t.resolve? p with
  | none => return []
  | some path =>
    match t.get? path with
    | none => .error .missing
    | some (.file _) => .error .notDirectory
    | some .folder =>
      let children := t.entries.filterMap fun e =>
        if e.1.dropLast = path then e.1.getLast? else none
      return children.mergeSort fun a b => !(b < a)

def write (t : FileTree) (p : Path) (bytes : List UInt8) : Except FileFault FileTree := do
  let path ← t.resolve p
  match t.get? path with
  | some .folder => .error .isDirectory
  | _ => return t.put path (.file bytes)

def makeAlong (t : FileTree) (path : List String) : List String → Except FileFault FileTree
  | [] => .ok t
  | name :: rest =>
    if name == ".." then
      match above path with
      | none => if rest.isEmpty then .ok t else .error .missing
      | some path => makeAlong t path rest
    else
      let next := path ++ [name]
      match t.get? next with
      | some .folder => makeAlong t next rest
      | some (.file _) => .error .notDirectory
      | none => makeAlong (t.put next .folder) next rest

def makeDirectory (t : FileTree) (p : Path) : Except FileFault FileTree :=
  if p.root == "" then t.makeAlong [] p.names else .error .missing

/-- Removes a file, or a directory with all that is in it. -/
def remove (t : FileTree) (p : Path) : Except FileFault FileTree := do
  let path ← t.resolve p
  match t.get? path with
  | none => .error .missing
  | some _ => return ⟨t.entries.filter fun e => !path.isPrefixOf e.1⟩

end FileTree

end TableScript
