import Mathlib.Data.List.Induction
import TableScript.Proofs.Outcome
import TableScript.Proofs.Profile.Cache

/-!
# Reading the profiles of a directory

The files of a directory are taken in the order of their names, up to the first one that stops the
reading. A reading that is not stopped leaves the profiles of the files that hold one, and one
notice for every file that holds none. A reading that is stopped leaves the profiles that it has
come to.
-/

namespace TableScript

open Logged Outcome

namespace Logged

variable {α β : Type}

/-- The notices of failures. -/
def errors (x : Logged α) : List Notice := x.notices.filter (·.level == .error)

theorem errors_bind {x : Logged α} {a : α} (h : x.outcome = .ok a) (f : α → Logged β) :
    (x >>= f).errors = x.errors ++ (f a).errors := by
  unfold errors
  rw [notices_bind h, List.filter_append]

theorem errors_andThen_answer {x : Logged α} {a : α} (h : x.outcome = .ok a) (f : α → β) :
    (x.andThen fun a => answer (f a)).errors = x.errors :=
  (errors_bind h _).trans (List.append_nil _)

end Logged

theorem filterMap_cons_eq_append {α β : Type} (f : α → Option β) (a : α) (l : List α) :
    (a :: l).filterMap f = (f a).toList ++ l.filterMap f := by
  cases h : f a with
  | none => exact List.filterMap_cons_none h
  | some b => exact List.filterMap_cons_some h

/-- A file may hold a profile if its suffix is one of three, whatever the case of its letters. -/
theorem Loader.isProfile_eq (path : Path) :
    isProfile path = decide (path.suffix.toLower ∈ [".yaml", ".yml", ".json"]) := by
  have hlower : String.ofList (path.suffix.toList.map Char.toLower) = path.suffix.toLower := by
    rw [← String.toList_map, String.ofList_toList]
    rfl
  rw [isProfile, hlower]
  exact List.contains_eq_mem ..

namespace FileTree

/-- The files of a directory that may hold profiles, in the order of their names. -/
def profileFiles (t : FileTree) (directory : Path) : List Path :=
  (Loader.files t directory).toOption.getD []

/-- The files that may hold profiles are picked from all entries of the directory by their suffix. -/
theorem profileFiles_eq (t : FileTree) (directory : Path) :
    t.profileFiles directory = (((t.names directory).toOption.getD []).map directory.child).filter
      fun path => path.suffix.toLower ∈ [".yaml", ".yml", ".json"] := by
  unfold profileFiles Loader.files
  cases t.names directory with
  | error e => rfl
  | ok names => exact List.filter_congr fun path _ => Loader.isProfile_eq path

/-- The profiles of the files that hold one. -/
def profilesOf (t : FileTree) (paths : List Path) : List Profile :=
  paths.filterMap fun path => (Profile.load t path).toOption

def profiles (t : FileTree) (directory : Path) : List Profile :=
  t.profilesOf (t.profileFiles directory)

/-- The failure with which a file stops the reading of its directory, if it does. -/
def stop? (t : FileTree) (path : Path) : Option Failure :=
  match Profile.load t path with
  | .ok p =>
    if !p.name.isKey then some .wrongType
    else if Loader.isWritable p.name then none else some .impossibleValue
  | .error e => if Loader.isSkipped e then none else some e

/-- The profile that a file gives to the cache, whether or not it stops the reading after that. -/
def entered? (t : FileTree) (path : Path) : Option Profile :=
  match Profile.load t path with
  | .ok p => if p.name.isKey then some p else none
  | .error _ => none

theorem profilesOf_cons (t : FileTree) (path : Path) (rest : List Path) :
    t.profilesOf (path :: rest) = (Profile.load t path).toOption.toList ++ t.profilesOf rest :=
  filterMap_cons_eq_append ..

theorem profilesOf_append (t : FileTree) (before after : List Path) :
    t.profilesOf (before ++ after) = t.profilesOf before ++ t.profilesOf after :=
  List.filterMap_append

/-- A profile whose name cannot be a key stops the reading before it is put into the cache. -/
theorem stop?_of_unkeyed {t : FileTree} {path : Path}
    (h : (Profile.load t path).toOption.any (fun p => !p.name.isKey) = true) :
    t.stop? path = some .wrongType ∧ t.entered? path = none := by
  obtain ⟨p, hload, hkey⟩ := (Option.any_eq_true ..).1 h
  have hkey : p.name.isKey = false := by simpa using hkey
  unfold stop? entered?
  simp [eq_ok_of_toOption hload, hkey]

/-- What is told about a file that holds no profile. -/
def skipNotice? (t : FileTree) (path : Path) : Option Notice :=
  match Profile.load t path with
  | .ok _ => none
  | .error e => some (.profileSkipped path.text e)

def skipNotices (t : FileTree) (directory : Path) : List Notice :=
  (t.profileFiles directory).filterMap t.skipNotice?

theorem filter_skipNotices (t : FileTree) (directory : Path) :
    (t.skipNotices directory).filter (·.level == .error) = t.skipNotices directory := by
  rw [List.filter_eq_self]
  intro n hn
  obtain ⟨path, _, hn⟩ := List.mem_filterMap.1 hn
  unfold skipNotice? at hn
  split at hn
  · cases hn
  · cases hn
    rfl

theorem names_sorted {t : FileTree} {p : Path} {names : List String} (h : t.names p = .ok names) :
    names.Pairwise (· ≤ ·) := by
  unfold FileTree.names at h
  simp only [bind, Except.bind, pure, Except.pure] at h
  split at h
  · cases h
  · split at h
    · cases h
      exact .nil
    · split at h
      · cases h
      · cases h
      · cases h
        refine (List.pairwise_mergeSort ?_ ?_ _).imp ?_
        all_goals simp only [Bool.not_eq_true', decide_eq_false_iff_not, String.not_lt, Bool.or_eq_true]
        · exact fun _ _ _ => String.le_trans
        · exact String.le_total
        · exact id

/-- The files of a directory stand in the order of their names. -/
theorem profileFiles_sorted (t : FileTree) (directory : Path) :
    (t.profileFiles directory).Pairwise (·.name ≤ ·.name) := by
  unfold profileFiles Loader.files
  cases hnames : t.names directory with
  | error e => exact .nil
  | ok names =>
      refine List.Pairwise.filter _ (List.pairwise_map.2 ?_)
      simpa [Path.name, Path.child] using names_sorted hnames

theorem profileFiles_of_missing {t : FileTree} {directory : Path}
    (h : t.contains directory = false) : t.profileFiles directory = [] := by
  unfold contains entry at h
  unfold profileFiles Loader.files names
  cases hpath : t.resolve? directory with
  | error e => rfl
  | ok path =>
      rw [hpath] at h
      cases path with
      | none => simp [bind, Except.bind, pure, Except.pure, Except.toOption] at h
      | some path =>
          cases hentry : t.get? path with
          | none => simp [bind, Except.bind, hentry, Except.map, Except.toOption]
          | some e => simp [bind, Except.bind, pure, Except.pure, Except.toOption, hentry] at h

end FileTree

namespace Loader

open ProfileCache

/-- A file that does not stop the reading gives its profile to the cache, or leaves a notice. -/
theorem loadFiles_cons_of_passed {t : FileTree} {path : Path} (h : t.stop? path = none)
    (c : ProfileCache) (rest : List Path) :
    let x := loadFiles t (c.putAll (Profile.load t path).toOption.toList) rest
    loadFiles t c (path :: rest) =
      (x.1, ⟨(t.skipNotice? path).toList ++ x.2.notices, x.2.outcome⟩) := by
  unfold FileTree.stop? at h
  rw [loadFiles]
  cases hload : Profile.load t path with
  | ok p =>
      cases hkey : p.name.isKey with
      | false => simp [hload, hkey] at h
      | true =>
          cases hwritable : isWritable p.name with
          | false => simp [hload, hkey, hwritable] at h
          | true => simp [hkey, hwritable, FileTree.skipNotice?, hload, putAll, Except.toOption]
  | error e =>
      cases hskipped : isSkipped e with
      | false => simp [hload, hskipped] at h
      | true =>
          simp only [hskipped, if_true, FileTree.skipNotice?, hload]
          rfl

/-- A file that stops the reading may have given its profile to the cache before. -/
theorem loadFiles_cons_of_stopped {t : FileTree} {path : Path} {e : Failure}
    (h : t.stop? path = some e) (c : ProfileCache) (rest : List Path) :
    loadFiles t c (path :: rest) = (c.putAll (t.entered? path).toList, Logged.fail e) := by
  unfold FileTree.stop? at h
  unfold FileTree.entered?
  rw [loadFiles]
  cases hload : Profile.load t path with
  | ok p =>
      cases hkey : p.name.isKey with
      | false =>
          obtain rfl : Failure.wrongType = e := by simpa [hload, hkey] using h
          simp [hkey, putAll]
      | true =>
          cases hwritable : isWritable p.name with
          | true => simp [hload, hkey, hwritable] at h
          | false =>
              obtain rfl : Failure.impossibleValue = e := by simpa [hload, hkey, hwritable] using h
              simp [hkey, hwritable, putAll]
  | error e' =>
      cases hskipped : isSkipped e' with
      | true => simp [hload, hskipped] at h
      | false =>
          obtain rfl : e' = e := by simpa [hload, hskipped] using h
          simp [hskipped, putAll]

/-- The files in front that do not stop the reading are read, and the reading goes on. -/
theorem loadFiles_append_of_passed {t : FileTree} {before : List Path}
    (h : ∀ path ∈ before, t.stop? path = none) (c : ProfileCache) (rest : List Path) :
    let x := loadFiles t (c.putAll (t.profilesOf before)) rest
    loadFiles t c (before ++ rest) =
      (x.1, ⟨before.filterMap t.skipNotice? ++ x.2.notices, x.2.outcome⟩) := by
  induction before generalizing c with
  | nil => rfl
  | cons path before ih =>
      obtain ⟨hpath, hbefore⟩ := List.forall_mem_cons.1 h
      rw [List.cons_append, loadFiles_cons_of_passed hpath, ih hbefore, ← putAll_append,
        ← FileTree.profilesOf_cons, filterMap_cons_eq_append]
      simp only [List.append_assoc]

theorem loadFiles_of_passed {t : FileTree} {paths : List Path}
    (h : ∀ path ∈ paths, t.stop? path = none) (c : ProfileCache) :
    loadFiles t c paths =
      (c.putAll (t.profilesOf paths), ⟨paths.filterMap t.skipNotice?, .ok ()⟩) := by
  have hread := loadFiles_append_of_passed h c []
  simpa only [List.append_nil, loadFiles, notices_answer, outcome_answer] using hread

theorem loadFiles_of_stopped {t : FileTree} {before : List Path} {path : Path} {e : Failure}
    (h : ∀ path ∈ before, t.stop? path = none) (hstop : t.stop? path = some e) (c : ProfileCache)
    (after : List Path) :
    loadFiles t c (before ++ path :: after) =
      (c.putAll (t.profilesOf before ++ (t.entered? path).toList),
        ⟨before.filterMap t.skipNotice?, .error e⟩) := by
  rw [loadFiles_append_of_passed h, loadFiles_cons_of_stopped hstop, putAll_append]
  simp [Logged.fail]

/-! ## Directories -/

theorem files_of_names {t : FileTree} {directory : Path} {names : List String}
    (h : t.names directory = .ok names) :
    files t directory = .ok ((names.map directory.child).filter isProfile) := by
  rw [files, h]
  rfl

theorem reload_of_missing {t : FileTree} {l : Loader} (h : t.contains l.directory = false) :
    l.reload t =
      ⟨{ l with cache := [], loaded := true }, note (.directoryMissing l.directory.text)⟩ := by
  simp only [reload, h, Bool.not_false, if_true]

theorem reload_of_unlisted {t : FileTree} {l : Loader} (h : t.contains l.directory = true)
    {fault : FileFault} (hfiles : files t l.directory = .error fault) :
    l.reload t = ⟨{ l with cache := [] }, fail (.file fault)⟩ := by
  simp only [reload, h, Bool.not_true, Bool.false_eq_true, if_false, hfiles]

theorem reload_of_passed {t : FileTree} {l : Loader} (h : t.contains l.directory = true)
    {paths : List Path} (hfiles : files t l.directory = .ok paths)
    (hpassed : ∀ path ∈ paths, t.stop? path = none) :
    l.reload t =
      ⟨⟨l.directory, ofProfiles (t.profilesOf paths), true⟩,
        ⟨paths.filterMap t.skipNotice? ++
          [.profilesLoaded (ofProfiles (t.profilesOf paths)).length l.directory.text],
          .ok ()⟩⟩ := by
  simp only [reload, h, Bool.not_true, Bool.false_eq_true, if_false, hfiles,
    loadFiles_of_passed hpassed]
  rfl

theorem reload_of_stopped {t : FileTree} {l : Loader} (h : t.contains l.directory = true)
    {before : List Path} {path : Path} {after : List Path}
    (hfiles : files t l.directory = .ok (before ++ path :: after))
    (hpassed : ∀ path ∈ before, t.stop? path = none) {e : Failure} (hstop : t.stop? path = some e) :
    l.reload t =
      ⟨{ l with cache := ofProfiles (t.profilesOf before ++ (t.entered? path).toList) },
        ⟨before.filterMap t.skipNotice?, .error e⟩⟩ := by
  simp only [reload, h, Bool.not_true, Bool.false_eq_true, if_false, hfiles,
    loadFiles_of_stopped hpassed hstop]
  rfl

/-- How the reading of a directory fails, and which profiles it has come to by then: the directory
cannot be listed, or a file stops the reading. -/
inductive Fails (t : FileTree) (directory : Path) : Failure → List Profile → Prop where
  | unlisted {fault : FileFault} (hfiles : files t directory = .error fault) :
      Fails t directory (.file fault) []
  | stopped {before : List Path} {path : Path} {after : List Path} {e : Failure}
      (hfiles : files t directory = .ok (before ++ path :: after))
      (hpassed : ∀ path ∈ before, t.stop? path = none) (hstop : t.stop? path = some e) :
      Fails t directory e (t.profilesOf before ++ (t.entered? path).toList)

/-- A loader that holds the profiles of some files, or none so far. -/
def holding (directory : Path) : Option FileTree → Loader
  | none => { directory }
  | some source => ⟨directory, ofProfiles (source.profiles directory), true⟩

theorem directory_holding (directory : Path) (seen : Option FileTree) :
    (holding directory seen).directory = directory := by
  cases seen <;> rfl

/-- A reading either takes the place of whatever was read before, or fails and leaves the profiles
that it has come to. -/
theorem reload_cases (t : FileTree) (l : Loader) :
    ((l.reload t).result.outcome = .ok () ∧ (l.reload t).loader = holding l.directory (some t) ∧
        (l.reload t).result.errors = t.skipNotices l.directory ∧
        ∀ path ∈ t.profileFiles l.directory, t.stop? path = none) ∨
      ∃ e ps, (l.reload t).result.outcome = .error e ∧ t.contains l.directory = true ∧
        Fails t l.directory e ps ∧ (l.reload t).loader = { l with cache := ofProfiles ps } := by
  cases hthere : t.contains l.directory with
  | false =>
      have hnone := FileTree.profileFiles_of_missing hthere
      rw [reload_of_missing hthere]
      refine .inl ⟨rfl, ?_, ?_, by simp [hnone]⟩
      · simp only [holding, FileTree.profiles, hnone]
        rfl
      · simp only [FileTree.skipNotices, hnone]
        rfl
  | true =>
      cases hfiles : files t l.directory with
      | error fault =>
          rw [reload_of_unlisted hthere hfiles]
          exact .inr ⟨_, _, rfl, rfl, .unlisted hfiles, rfl⟩
      | ok paths =>
          have hpaths : t.profileFiles l.directory = paths := by
            simp only [FileTree.profileFiles, hfiles, Except.toOption, Option.getD_some]
          cases hstop : paths.findSome? t.stop? with
          | none =>
              have hpassed := List.findSome?_eq_none_iff.1 hstop
              rw [reload_of_passed hthere hfiles hpassed]
              refine .inl ⟨rfl, ?_, ?_, hpaths ▸ hpassed⟩
              · simp only [holding, FileTree.profiles, hpaths]
              · rw [errors, List.filter_append, ← hpaths]
                exact (congrArg (· ++ []) (t.filter_skipNotices _)).trans (List.append_nil _)
          | some e =>
              obtain ⟨before, path, after, rfl, hpath, hpassed⟩ := List.findSome?_eq_some_iff.1 hstop
              rw [reload_of_stopped hthere hfiles hpassed hpath]
              exact .inr ⟨_, _, rfl, rfl, .stopped hfiles hpassed hpath, rfl⟩

theorem reload_of_ok {t : FileTree} {l : Loader} (h : (l.reload t).result.outcome = .ok ()) :
    (l.reload t).loader = holding l.directory (some t) ∧
      (l.reload t).result.errors = t.skipNotices l.directory := by
  rcases reload_cases t l with ⟨-, hloader, herrors, -⟩ | ⟨e, ps, he, -⟩
  · exact ⟨hloader, herrors⟩
  · rw [he] at h
    cases h

theorem ensure_of_loaded {t : FileTree} {l : Loader} (h : l.loaded = true) :
    l.ensure t = ⟨l, answer ()⟩ := by
  simp only [ensure, h, if_true]

theorem ensure_of_unloaded {t : FileTree} {l : Loader} (h : l.loaded = false) :
    l.ensure t = l.reload t := by
  simp only [ensure, h, Bool.false_eq_true, if_false]

theorem outcome_all (t : FileTree) (l : Loader) :
    (l.all t).result.outcome =
      ((l.ensure t).result.outcome >>= fun _ => .ok ((l.ensure t).loader.cache.map (·.2))) :=
  outcome_bind ..

theorem outcome_get (t : FileTree) (l : Loader) (name : Value) :
    (l.get t name).result.outcome =
      ((l.ensure t).result.outcome >>= fun _ =>
        if name.isKey then .ok ((l.ensure t).loader.cache.find? name) else .error .wrongType) := by
  refine (outcome_bind ..).trans ?_
  split <;> rfl

/-- Only the first of several calls has to read. -/
theorem ensure_of_ok {t : FileTree} {directory : Path} {seen : Option FileTree}
    (h : ((holding directory seen).ensure t).result.outcome = .ok ()) :
    ((holding directory seen).ensure t).loader = holding directory (some (seen.getD t)) ∧
      ((holding directory seen).ensure t).result.errors =
        if seen.isNone then t.skipNotices directory else [] := by
  cases seen with
  | none => exact reload_of_ok h
  | some source => exact ⟨rfl, rfl⟩

theorem all_of_ok {t : FileTree} {directory : Path} {seen : Option FileTree} {ps : List Profile}
    (h : ((holding directory seen).all t).result.outcome = .ok ps) :
    ((holding directory seen).all t).loader = holding directory (some (seen.getD t)) ∧
      ((holding directory seen).all t).result.errors =
        (if seen.isNone then t.skipNotices directory else []) ∧
      ps = (ofProfiles ((seen.getD t).profiles directory)).map (·.2) := by
  obtain ⟨_, hensure, hps⟩ := outcome_bind_eq_ok.1 h
  obtain ⟨hloader, herrors⟩ := ensure_of_ok hensure
  cases hps
  exact ⟨hloader, (errors_andThen_answer hensure _).trans herrors, by rw [hloader]; rfl⟩

theorem get_of_ok {t : FileTree} {directory : Path} {seen : Option FileTree} {name : Value}
    {p : Option Profile} (h : ((holding directory seen).get t name).result.outcome = .ok p) :
    ((holding directory seen).get t name).loader = holding directory (some (seen.getD t)) ∧
      ((holding directory seen).get t name).result.errors =
        (if seen.isNone then t.skipNotices directory else []) ∧
      p = (ofProfiles ((seen.getD t).profiles directory)).find? name := by
  obtain ⟨_, hensure, hp⟩ := outcome_bind_eq_ok.1 h
  obtain ⟨hloader, herrors⟩ := ensure_of_ok hensure
  by_cases hkey : name.isKey
  · rw [if_pos hkey] at hp
    cases hp
    refine ⟨hloader, ?_, by rw [hloader]; rfl⟩
    simp only [get, hkey, if_true]
    rw [errors_andThen_answer hensure, herrors]
  · rw [if_neg hkey] at hp
    cases hp

end Loader

end TableScript
