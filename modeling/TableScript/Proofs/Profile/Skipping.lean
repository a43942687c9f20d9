import TableScript.Proofs.Profile.Reading

/-!
# Files that are skipped

A file in a directory of profiles may hold anything. If it cannot be read, is no document or is no
profile, it is skipped with one notice, and the profiles of the other files are the same as without
it. Only a profile itself can stop the reading, by its name: one that cannot be a key, or a number
too long to be written.
-/

namespace TableScript

open Logged Outcome

/-- The failures of a file that cannot be read or is no document. -/
def Failure.isUnreadable : Failure → Bool
  | file _ | malformed | impossibleValue => true
  | _ => false

theorem Connection.error_of_ofEntries {entries : Entries} {e : Failure}
    (h : ofEntries entries = .error e) : ∃ fault, e = .connection fault := by
  rcases bind_eq_error.1 h with h | ⟨_, -, h⟩
  · unfold readSettings at h
    split at h
    · split at h
      · cases h
      · cases h
        exact ⟨_, rfl⟩
    · cases h
  · cases h

namespace Profile

/-- The name of a profile can be a key, and it can be written. -/
def Storable (p : Profile) : Prop :=
  p.name.isKey = true ∧ Loader.isWritable p.name = true

theorem isSkipped_of_connectionEntries {path : Path} {v : Value} {e : Failure}
    (h : connectionEntries path v = .error e) : Loader.isSkipped e = true := by
  unfold connectionEntries at h
  split at h
  · split at h
    · cases h
    · cases h
      rfl
  · cases h

/-- A document that is no profile is skipped. -/
theorem isSkipped_of_ofDocument {path : Path} {document : Value} {e : Failure}
    (h : ofDocument path document = .error e) : Loader.isSkipped e = true := by
  unfold ofDocument at h
  split at h
  · dsimp only at h
    split at h
    · rcases bind_eq_error.1 h with h | ⟨connection, -, h⟩
      · exact isSkipped_of_connectionEntries h
      · rcases bind_eq_error.1 h with h | ⟨d, -, h⟩
        · rw [Dialect.ofValue_error h]
          split <;> rfl
        · rcases bind_eq_error.1 h with h | ⟨c, -, h⟩
          · obtain ⟨fault, rfl⟩ := Connection.error_of_ofEntries h
            rfl
          · cases h
    · cases h
      rfl
  · cases h
    rfl

end Profile

namespace FileTree

/-- A directory that can be listed, or that is missing. -/
def Listable (t : FileTree) (directory : Path) : Prop :=
  t.contains directory = false ∨ ∃ paths, Loader.files t directory = .ok paths

/-- Every file of a directory that may hold a profile is a document, or it cannot be read, or it is
none. -/
def Readable (t : FileTree) (directory : Path) : Prop :=
  ∀ path ∈ t.profileFiles directory, ∀ e, Profile.readDocument t path = .error e →
    e.isUnreadable = true

theorem isSkipped_of_isUnreadable {e : Failure} (h : e.isUnreadable = true) :
    Loader.isSkipped e = true := by
  cases e <;> first | rfl | cases h

/-- A file that holds no profile is skipped. -/
theorem Readable.isSkipped {t : FileTree} {directory : Path} (h : t.Readable directory)
    {path : Path} (hpath : path ∈ t.profileFiles directory) {e : Failure}
    (he : Profile.load t path = .error e) : Loader.isSkipped e = true := by
  rcases bind_eq_error.1 he with he | ⟨document, -, he⟩
  · exact isSkipped_of_isUnreadable (h path hpath e he)
  · exact Profile.isSkipped_of_ofDocument he

/-- The files of a directory stop its reading only by the names of their profiles. -/
theorem Readable.passed_iff {t : FileTree} {directory : Path} (h : t.Readable directory) :
    (∀ path ∈ t.profileFiles directory, t.stop? path = none) ↔
      ∀ p ∈ t.profiles directory, p.Storable := by
  constructor
  · intro hpassed p hp
    obtain ⟨path, hpath, hp⟩ := List.mem_filterMap.1 hp
    have hstop := hpassed path hpath
    unfold stop? at hstop
    rw [eq_ok_of_toOption hp] at hstop
    cases hkey : p.name.isKey with
    | false => simp [hkey] at hstop
    | true =>
        cases hwritable : Loader.isWritable p.name with
        | false => simp [hkey, hwritable] at hstop
        | true => exact ⟨hkey, hwritable⟩
  · intro hnames path hpath
    unfold stop?
    cases hload : Profile.load t path with
    | ok p =>
        have hp : p ∈ t.profiles directory :=
          List.mem_filterMap.2 ⟨path, hpath, by rw [hload]; rfl⟩
        obtain ⟨hkey, hwritable⟩ := hnames p hp
        simp [hkey, hwritable]
    | error e => simp [h.isSkipped hpath hload]

theorem mem_profilesOf {t : FileTree} {paths : List Path} {p : Profile} :
    p ∈ t.profilesOf paths ↔ ∃ path ∈ paths, Profile.load t path = .ok p := by
  refine List.mem_filterMap.trans (exists_congr fun path => and_congr_right fun _ => ?_)
  cases Profile.load t path <;> simp [Except.toOption]

theorem readable_of_all {t : FileTree} {directory : Path} {paths : List Path}
    (hfiles : Loader.files t directory = .ok paths)
    (h : (paths.all fun path => match Profile.readDocument t path with
      | .ok _ => true
      | .error e => e.isUnreadable) = true) : t.Readable directory := by
  intro path hpath e he
  have hpath : path ∈ paths := by simpa [profileFiles, hfiles, Except.toOption] using hpath
  simpa [he] using List.all_eq_true.1 h path hpath

end FileTree

namespace Loader

open FileTree ProfileCache

/-- A directory is read if its profiles have names that can be stored, and not otherwise. -/
theorem reload_eq_ok_iff {t : FileTree} {l : Loader} (hlist : t.Listable l.directory)
    (hread : t.Readable l.directory) :
    (l.reload t).result.outcome = .ok () ↔ ∀ p ∈ t.profiles l.directory, p.Storable := by
  rw [← hread.passed_iff]
  rcases reload_cases t l with ⟨hok, -, -, hpassed⟩ | ⟨e, ps, he, hthere, hfails, -⟩
  · exact iff_of_true hok hpassed
  · refine iff_of_false (by simp [he]) fun hpassed => ?_
    rcases hlist with hmissing | ⟨paths, hpaths⟩
    · rw [hmissing] at hthere
      cases hthere
    · cases hfails with
      | unlisted hfiles =>
          rw [hpaths] at hfiles
          cases hfiles
      | stopped hfiles _ hstop =>
          rw [hpassed _ (by simp [profileFiles, hfiles, Except.toOption])] at hstop
          cases hstop

theorem ensure_eq_ok {t : FileTree} {l : Loader} (h : (l.reload t).result.outcome = .ok ()) :
    (l.ensure t).result.outcome = .ok () := by
  unfold ensure
  split
  · rfl
  · exact h

/-- The files of a directory that can be listed are documents, or cannot be read, or are none; the
files are the entries with a suffix of profiles, in any case. Then the directory is read if the names
of all its profiles can be keys and can be written, and not otherwise. If it is read, nothing that is
asked of it fails, except for a name that cannot be a key; every file has one notice or a profile in
the cache, its own or that of a later file with the same name; and other files that hold no profile
would have made no difference. -/
theorem broken_files_skipped_iff {t : FileTree} {l : Loader} (hlist : t.Listable l.directory)
    (hread : t.Readable l.directory) :
    t.profileFiles l.directory =
      (((t.names l.directory).toOption.getD []).map l.directory.child).filter
        (fun path => path.suffix.toLower ∈ [".yaml", ".yml", ".json"]) ∧
    ((l.reload t).result.outcome = .ok () ↔ ∀ p ∈ t.profiles l.directory, p.Storable) ∧
    ((∀ p ∈ t.profiles l.directory, p.Storable) →
      (∃ ps, (l.all t).result.outcome = .ok ps) ∧
      (∀ name : String, ∃ p, (l.get t (.text name)).result.outcome = .ok p) ∧
      (l.reload t).result.errors = t.skipNotices l.directory ∧
      (∀ before path after, t.profileFiles l.directory = before ++ path :: after →
        (∃ e, Profile.load t path = .error e ∧
          .profileSkipped path.text e ∈ (l.reload t).result.errors) ∨
        ∃ p k q, Profile.load t path = .ok p ∧ (k, q) ∈ (l.reload t).loader.cache ∧
          k.SharesPlace p.name ∧
          (q = p ∨ ∃ later ∈ after, Profile.load t later = .ok q ∧ k.SharesPlace q.name)) ∧
      ∀ t' : FileTree, t'.Listable l.directory → t'.Readable l.directory →
        t'.profiles l.directory = t.profiles l.directory →
        (l.reload t').loader = (l.reload t).loader) := by
  refine ⟨t.profileFiles_eq l.directory, reload_eq_ok_iff hlist hread, fun hnames => ?_⟩
  have hok := (reload_eq_ok_iff hlist hread).2 hnames
  obtain ⟨hloader, herrors⟩ := reload_of_ok hok
  have hensure := ensure_eq_ok hok
  refine ⟨⟨_, outcome_bind_eq_ok.2 ⟨(), hensure, rfl⟩⟩,
    fun name => ⟨_, outcome_bind_eq_ok.2 ⟨(), hensure, rfl⟩⟩, herrors, ?_, ?_⟩
  · intro before path after hfiles
    cases hload : Profile.load t path with
    | error e =>
        refine .inl ⟨e, rfl, ?_⟩
        rw [herrors, skipNotices, hfiles, List.mem_filterMap]
        exact ⟨path, by simp, by simp only [skipNotice?, hload]⟩
    | ok p =>
        have hps : t.profiles l.directory = t.profilesOf before ++ p :: t.profilesOf after := by
          rw [profiles, hfiles, profilesOf_append, profilesOf_cons, hload]
          rfl
        obtain ⟨k, q, hq, hplace, hwhich⟩ :=
          exists_mem_ofProfiles (t.profilesOf before) p (t.profilesOf after)
        refine .inr ⟨p, k, q, rfl, by rwa [hloader, holding, hps], hplace, hwhich.imp_right ?_⟩
        rintro ⟨hmem, hplace'⟩
        obtain ⟨later, hlater, hq⟩ := mem_profilesOf.1 hmem
        exact ⟨later, hlater, hq, hplace'⟩
  · intro t' hlist' hread' hsame
    have hok' := (reload_eq_ok_iff hlist' hread').2 (hsame ▸ hnames)
    rw [hloader, (reload_of_ok hok').1, holding, holding, hsame]

/-- A file that is no document, a directory with the name of a file, two profiles with one name, and
a file with another suffix. -/
theorem broken_files_skipped_iff_mixed :
    let octets (s : String) : List UInt8 := s.toList.map fun c => .ofNat c.toNat
    let directory : Path := ⟨"", ["p"]⟩
    let t : FileTree := ⟨[(["p"], .folder),
      (["p", "a.yaml"], .file (octets "name: x\ndialect: mysql\n")),
      (["p", "b.yml"], .file (octets "dialect: [oracle\n")),
      (["p", "c.yaml"], .folder),
      (["p", "d.json"], .file (octets "\x7b\"name\": \"x\", \"dialect\": \"sqlite\"\x7d")),
      (["p", "e.txt"], .file (octets "[oracle\n"))]⟩
    let l : Loader := { directory }
    t.Listable directory ∧ t.Readable directory ∧ (∀ p ∈ t.profiles directory, p.Storable) ∧
      (l.reload t).result.outcome = .ok () ∧ (l.reload t).result.errors.length = 2 := by
  intro octets directory t l
  have hnames : t.names directory = .ok ["a.yaml", "b.yml", "c.yaml", "d.json", "e.txt"] :=
    congrArg Except.ok (List.mergeSort_of_pairwise (by decide +kernel))
  have hfiles : files t directory =
      .ok [⟨"", ["p", "a.yaml"]⟩, ⟨"", ["p", "b.yml"]⟩, ⟨"", ["p", "c.yaml"]⟩,
        ⟨"", ["p", "d.json"]⟩] :=
    (files_of_names hnames).trans (congrArg Except.ok (by decide +kernel))
  have hread : t.Readable directory := FileTree.readable_of_all hfiles (by decide +kernel)
  have hpaths : t.profileFiles directory = _ := congrArg (fun x => x.toOption.getD []) hfiles
  have hstorable : ∀ p ∈ t.profiles directory, p.Storable := by
    unfold FileTree.profiles Profile.Storable
    rw [hpaths]
    decide +kernel
  obtain ⟨-, hiff, hmore⟩ := broken_files_skipped_iff (l := l) (.inr ⟨_, hfiles⟩) hread
  refine ⟨.inr ⟨_, hfiles⟩, hread, hstorable, hiff.2 hstorable, ?_⟩
  obtain ⟨-, -, herrors, -⟩ := hmore hstorable
  rw [herrors]
  unfold FileTree.skipNotices
  rw [show t.profileFiles l.directory = _ from hpaths]
  decide +kernel

/-- A profile whose name is a list stops the reading, and the profile after it is not found. -/
theorem stopped_by_listed_name :
    let octets (s : String) : List UInt8 := s.toList.map fun c => .ofNat c.toNat
    let directory : Path := ⟨"", ["p"]⟩
    let t : FileTree := ⟨[(["p"], .folder),
      (["p", "a.yaml"], .file (octets "name: [x]\ndialect: mysql\n")),
      (["p", "b.yaml"], .file (octets "dialect: sqlite\n"))]⟩
    let l : Loader := { directory }
    t.Listable directory ∧ t.Readable directory ∧ (l.reload t).result.outcome = .error .wrongType ∧
      (l.all t).result.outcome = .error .wrongType ∧
      (l.get t (.text "b")).result.outcome = .error .wrongType := by
  intro octets directory t l
  have hnames : t.names directory = .ok ["a.yaml", "b.yaml"] :=
    congrArg Except.ok (List.mergeSort_of_pairwise (by decide +kernel))
  have hfiles : files t directory = .ok [⟨"", ["p", "a.yaml"]⟩, ⟨"", ["p", "b.yaml"]⟩] :=
    (files_of_names hnames).trans (congrArg Except.ok (by decide +kernel))
  have hstop : t.stop? ⟨"", ["p", "a.yaml"]⟩ = some .wrongType :=
    (FileTree.stop?_of_unkeyed (by decide +kernel)).1
  have hreload : (l.reload t).result.outcome = .error .wrongType := by
    have hpassed : ∀ path ∈ ([] : List Path), t.stop? path = none := by simp
    rw [reload_of_stopped (by decide +kernel) hfiles hpassed hstop]
  have hensure : (l.ensure t).result.outcome = .error .wrongType := by
    rwa [ensure_of_unloaded rfl]
  refine ⟨.inr ⟨_, hfiles⟩, FileTree.readable_of_all hfiles (by decide +kernel), hreload, ?_, ?_⟩
  · rw [outcome_all, hensure]
    rfl
  · rw [outcome_get, hensure]
    rfl

end Loader

end TableScript
