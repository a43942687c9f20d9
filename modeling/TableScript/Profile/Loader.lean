import TableScript.Logged
import TableScript.Profile.Basic

/-!
# Profiles of a directory

A loader reads the profiles of a directory once, and again when it is told to. Files are taken in
the order of their names; of two profiles with one name the later one counts, at the place of the
first. A file that holds no profile is skipped with a notice. A profile whose name cannot be a key
stops the loading half-way, and so does one whose name is a number too long to be written.
-/

namespace TableScript

/-- Profiles by name, in the order in which the names were first used. -/
abbrev ProfileCache := Keyed Profile

namespace ProfileCache

/-- Sets the profile of a name. A name that is present keeps its place. -/
def put (c : ProfileCache) (name : Value) (profile : Profile) : ProfileCache :=
  Keyed.put c name profile

def find? (c : ProfileCache) (name : Value) : Option Profile :=
  (List.find? (fun e => e.1.sameKey name) c).map (·.2)

end ProfileCache

structure Loader where
  directory : Path
  cache : ProfileCache := []
  loaded : Bool := false

structure Loading (α : Type) where
  loader : Loader
  result : Logged α

namespace Loader

def suffixes : List String := [".yaml", ".yml", ".json"]

def isProfile (p : Path) : Bool :=
  suffixes.contains (String.ofList (p.suffix.toList.map Char.toLower))

/-- Failures for which a file is skipped. -/
def isSkipped : Failure → Bool
  | .unsupportedDialect _ => true
  | .connection _ => true
  | .file _ => true
  | .malformed => true
  | .impossibleValue => true
  | _ => false

/-- Whether the name of a profile can be written. -/
def isWritable (name : Value) : Bool := name.isWritable

/-- A profile is put into the cache before its name is written. -/
def loadFiles (t : FileTree) (cache : ProfileCache) : List Path → ProfileCache × Logged Unit
  | [] => (cache, Logged.answer ())
  | path :: rest =>
    match Profile.load t path with
    | .ok profile =>
      if !profile.name.isKey then (cache, Logged.fail .wrongType)
      else if isWritable profile.name then loadFiles t (cache.put profile.name profile) rest
      else (cache.put profile.name profile, Logged.fail .impossibleValue)
    | .error e =>
      if isSkipped e then
        let (cache, result) := loadFiles t cache rest
        (cache, (Logged.note (.profileSkipped path.text e)).andThen fun _ => result)
      else (cache, Logged.fail e)

/-- The profile files of a directory, in the order of their names. -/
def files (t : FileTree) (directory : Path) : Except FileFault (List Path) :=
  (t.names directory).map fun names => (names.map directory.child).filter isProfile

/-- Reads the directory anew. A directory that does not exist leaves a notice. -/
def reload (t : FileTree) (l : Loader) : Loading Unit :=
  if !t.contains l.directory then
    ⟨{ l with cache := [], loaded := true },
      Logged.note (.directoryMissing l.directory.text)⟩
  else
    match files t l.directory with
    | .error fault => ⟨{ l with cache := [] }, Logged.fail (.file fault)⟩
    | .ok paths =>
      let (cache, result) := loadFiles t [] paths
      match result.outcome with
      | .error _ => ⟨{ l with cache }, result⟩
      | .ok _ =>
        ⟨{ l with cache, loaded := true }, result.andThen fun _ =>
          Logged.note (.profilesLoaded cache.length l.directory.text)⟩

/-- Reads the directory if that has not been done. -/
def ensure (t : FileTree) (l : Loader) : Loading Unit :=
  if l.loaded then ⟨l, Logged.answer ()⟩ else l.reload t

def all (t : FileTree) (l : Loader) : Loading (List Profile) :=
  let x := l.ensure t
  ⟨x.loader, x.result.andThen fun _ => Logged.answer (x.loader.cache.map (·.2))⟩

def get (t : FileTree) (l : Loader) (name : Value) : Loading (Option Profile) :=
  let x := l.ensure t
  ⟨x.loader, x.result.andThen fun _ =>
    if name.isKey then Logged.answer (x.loader.cache.find? name) else Logged.fail .wrongType⟩

end Loader

end TableScript
