import TableScript.Proofs.Profile.Reading

/-!
# Profiles of one moment

The files that a loader reads may change between its calls. It answers from the files as they were
when it read them last: at the last reload or, without one, at the first call.
-/

namespace TableScript

open Logged Outcome

/-- A loader beside the files that it reads. -/
structure Session where
  files : FileTree
  loader : Loader

namespace Session

/-- Something that happens in a session: the files change in any way, or the loader is called. -/
inductive Event where
  | change (after : FileTree)
  | all
  | get (name : Value)
  | reload

inductive Answer where
  | done
  | profiles (ps : List Profile)
  | profile (p : Option Profile)

namespace Event

def isCall : Event → Bool
  | change _ => false
  | all | get _ | reload => true

def isReload : Event → Bool
  | reload => true
  | change _ | all | get _ => false

/-- The files after an event. -/
def files (t : FileTree) : Event → FileTree
  | change after => after
  | all | get _ | reload => t

def perform (s : Session) : Event → Loading Answer
  | change _ => ⟨s.loader, answer .done⟩
  | all =>
    let x := s.loader.all s.files
    ⟨x.loader, x.result.andThen fun ps => answer (.profiles ps)⟩
  | get name =>
    let x := s.loader.get s.files name
    ⟨x.loader, x.result.andThen fun p => answer (.profile p)⟩
  | reload =>
    let x := s.loader.reload s.files
    ⟨x.loader, x.result.andThen fun _ => answer .done⟩

end Event

def step (s : Session) (e : Event) : Except Failure Session :=
  (e.perform s).result.outcome.map fun _ => ⟨e.files s.files, (e.perform s).loader⟩

/-- The session after some events, if none of them fails. -/
def run (s : Session) (es : List Event) : Except Failure Session := es.foldlM step s

/-- The calls among some events, each with the files of its time. -/
def calls (t : FileTree) : List Event → List (Event × FileTree)
  | [] => []
  | e :: es => if e.isCall then (e, t) :: calls (e.files t) es else calls (e.files t) es

/-- The files that a loader read last: those of the last reload or, without one, those of the first
call. -/
def snapshot? (t : FileTree) (es : List Event) : Option FileTree :=
  (((calls t es).filter (·.1.isReload)).getLast?.or (calls t es).head?).map (·.2)

/-! ## One event -/

/-- The files that a loader has read last after one more event. -/
def Event.lastRead (t : FileTree) (seen : Option FileTree) : Event → Option FileTree
  | change _ => seen
  | reload => some t
  | all | get _ => some (seen.getD t)

/-- Whether an event makes a loader read its directory. -/
def Event.reads (seen : Option FileTree) : Event → Bool
  | change _ => false
  | reload => true
  | all | get _ => seen.isNone

/-- What is answered from the profiles of a directory. -/
def Event.answerFrom (ps : List Profile) : Event → Answer
  | change _ | reload => .done
  | all => .profiles (Profile.onePerName ps)
  | get name => .profile (Profile.lastNamed ps name)

theorem perform_of_ok {t : FileTree} {directory : Path} {seen : Option FileTree} {e : Event}
    {x : Answer} (h : (e.perform ⟨t, .holding directory seen⟩).result.outcome = .ok x) :
    (e.perform ⟨t, .holding directory seen⟩).loader = .holding directory (e.lastRead t seen) ∧
      (e.perform ⟨t, .holding directory seen⟩).result.errors =
        (if e.reads seen then t.skipNotices directory else []) ∧
      ∀ source, e.lastRead t seen = some source →
        (∀ p ∈ source.profiles directory, ∃ s, p.name = .text s) →
          x = e.answerFrom (source.profiles directory) := by
  cases e with
  | change after =>
      cases h
      exact ⟨rfl, rfl, fun _ _ _ => rfl⟩
  | reload =>
      obtain ⟨_, hreload, hx⟩ := outcome_bind_eq_ok.1 h
      obtain ⟨hloader, herrors⟩ := Loader.reload_of_ok hreload
      rw [Loader.directory_holding] at hloader herrors
      cases hx
      exact ⟨hloader, (errors_andThen_answer hreload _).trans herrors, fun _ _ _ => rfl⟩
  | all =>
      obtain ⟨_, hall, hx⟩ := outcome_bind_eq_ok.1 h
      obtain ⟨hloader, herrors, hps⟩ := Loader.all_of_ok hall
      cases hx
      refine ⟨hloader, (errors_andThen_answer hall _).trans herrors, ?_⟩
      rintro source hsource hnames
      cases hsource
      rw [hps, ProfileCache.profiles_ofProfiles hnames]
      rfl
  | get name =>
      obtain ⟨_, hget, hx⟩ := outcome_bind_eq_ok.1 h
      obtain ⟨hloader, herrors, hp⟩ := Loader.get_of_ok hget
      cases hx
      refine ⟨hloader, (errors_andThen_answer hget _).trans herrors, ?_⟩
      rintro source hsource hnames
      cases hsource
      rw [hp, ProfileCache.find?_ofProfiles hnames]
      rfl

/-! ## Several events -/

theorem run_append_singleton (s : Session) (es : List Event) (e : Event) :
    run s (es ++ [e]) = run s es >>= fun s => s.step e := by
  unfold run
  rw [List.foldlM_append]
  simp

/-- The files after some events. -/
def filesAfter (t : FileTree) (es : List Event) : FileTree := es.foldl Event.files t

theorem filesAfter_append_singleton (t : FileTree) (es : List Event) (e : Event) :
    filesAfter t (es ++ [e]) = e.files (filesAfter t es) :=
  List.foldl_concat ..

theorem calls_append_singleton (t : FileTree) (es : List Event) (e : Event) :
    calls t (es ++ [e]) = calls t es ++ if e.isCall then [(e, filesAfter t es)] else [] := by
  induction es generalizing t with
  | nil => rfl
  | cons e' es ih =>
      rw [List.cons_append, calls, calls, ih]
      split <;> rfl

theorem snapshot?_append_singleton (t : FileTree) (es : List Event) (e : Event) :
    snapshot? t (es ++ [e]) = e.lastRead (filesAfter t es) (snapshot? t es) := by
  unfold snapshot?
  rw [calls_append_singleton]
  cases e with
  | change after => simp [Event.isCall, Event.lastRead]
  | reload => simp [Event.isCall, Event.isReload, Event.lastRead]
  | all | get name =>
      cases calls t es <;> simp [Event.isCall, Event.isReload, Event.lastRead]

/-- A session holds what its snapshot says, whatever happened in between. -/
theorem run_eq_ok {directory : Path} {t : FileTree} {es : List Event} {s : Session}
    (h : run ⟨t, { directory }⟩ es = .ok s) :
    s = ⟨filesAfter t es, .holding directory (snapshot? t es)⟩ := by
  induction es using List.reverseRecOn generalizing s with
  | nil =>
      cases h
      rfl
  | append_singleton es e ih =>
      rw [run_append_singleton] at h
      obtain ⟨before, hbefore, h⟩ := bind_eq_ok.1 h
      obtain rfl := ih hbefore
      obtain ⟨x, hx, rfl⟩ := map_eq_ok.1 h
      obtain ⟨hloader, -⟩ := perform_of_ok hx
      rw [hloader, snapshot?_append_singleton, filesAfter_append_singleton]

theorem isNone_snapshot? (t : FileTree) (es : List Event) :
    (snapshot? t es).isNone = (calls t es).isEmpty := by
  unfold snapshot?
  cases calls t es <;> simp

theorem Event.reads_of_isCall {e : Event} (h : e.isCall = true) (t : FileTree) (es : List Event) :
    e.reads (snapshot? t es) = (e.isReload || (calls t es).isEmpty) := by
  cases e with
  | change after => cases h
  | reload => rfl
  | all | get name => exact isNone_snapshot? t es

theorem Event.exists_lastRead {e : Event} (h : e.isCall = true) (t : FileTree)
    (seen : Option FileTree) : ∃ source, e.lastRead t seen = some source := by
  cases e with
  | change after => cases h
  | reload | all | get name => exact ⟨_, rfl⟩

theorem Event.lastRead_of_reads {e : Event} {seen : Option FileTree} (h : e.reads seen = true)
    (t : FileTree) : e.lastRead t seen = some t := by
  cases e with
  | change after => cases h
  | reload => rfl
  | all | get name =>
      obtain rfl := Option.isNone_iff_eq_none.1 h
      rfl

/-- Files are changed and a loader is called in any order, and nothing fails. Then every call has a
snapshot, the files as they were at the last reload or, without one, at the first call. Of the
entries of the directory at that moment, those with a suffix of profiles count, in any case and in
the order of their names. The call tells of those that hold no profile, in this order, if it is a
reload or the first call, and otherwise of no failure. If the names of the profiles are texts, it
answers with the last profile of a name, or with one profile for every name in the order of their
first appearance. -/
theorem answers_of_snapshot {directory : Path} {t : FileTree} {es : List Event} {s : Session}
    (hrun : run ⟨t, { directory }⟩ es = .ok s) {e : Event} (hcall : e.isCall = true) {x : Answer}
    (h : (e.perform s).result.outcome = .ok x) :
    ∃ (source : FileTree) (paths : List Path), snapshot? t (es ++ [e]) = some source ∧
      paths = (((source.names directory).toOption.getD []).map directory.child).filter
        (fun path => path.suffix.toLower ∈ [".yaml", ".yml", ".json"]) ∧
      paths.Pairwise (·.name ≤ ·.name) ∧
      (e.perform s).result.errors =
        (if e.isReload || (calls t es).isEmpty then paths.filterMap source.skipNotice? else []) ∧
      ((∀ p ∈ source.profilesOf paths, ∃ name, p.name = .text name) →
        x = e.answerFrom (source.profilesOf paths)) := by
  obtain rfl := run_eq_ok hrun
  obtain ⟨source, hsource⟩ := Event.exists_lastRead hcall (filesAfter t es) (snapshot? t es)
  obtain ⟨-, herrors, hanswer⟩ := perform_of_ok h
  refine ⟨source, source.profileFiles directory, by rw [snapshot?_append_singleton, hsource],
    source.profileFiles_eq directory, source.profileFiles_sorted directory, ?_,
    hanswer source hsource⟩
  rw [herrors, ← Event.reads_of_isCall hcall]
  by_cases hreads : e.reads (snapshot? t es)
  · rw [Event.lastRead_of_reads hreads] at hsource
    cases hsource
    rw [if_pos hreads, if_pos hreads]
    rfl
  · rw [if_neg hreads, if_neg hreads]

/-- Of four files two have a profile of one name, one holds no profile, and one has another suffix.
They are read once. The profile of the second file is still there when all files are gone. -/
theorem answers_of_snapshot_removed :
    let octets (s : String) : List UInt8 := s.toList.map fun c => .ofNat c.toNat
    let directory : Path := ⟨"", ["p"]⟩
    let a : Path := ⟨"", ["p", "a.YAML"]⟩
    let b : Path := ⟨"", ["p", "b.json"]⟩
    let c : Path := ⟨"", ["p", "c.yml"]⟩
    let t : FileTree := ⟨[(["p"], .folder),
      (a.names, .file (octets "name: x\ndialect: mysql\n")),
      (b.names, .file (octets "\x7b\"name\": \"x\", \"dialect\": \"sqlite\"\x7d")),
      (c.names, .file (octets "[oracle]")),
      (["p", "d.txt"], .file (octets "name: x\ndialect: oracle\n"))]⟩
    ∃ s p, run ⟨t, { directory }⟩ [.all, .change .empty] = .ok s ∧ s.files = .empty ∧
      ((Event.get (.text "x")).perform s).result.outcome = .ok (.profile (some p)) ∧
      p.path = "p/b.json" ∧ ((Event.get (.text "x")).perform s).result.errors = [] := by
  intro octets directory a b c t
  have hnames : t.names directory = .ok ["a.YAML", "b.json", "c.yml", "d.txt"] :=
    congrArg Except.ok (List.mergeSort_of_pairwise (by decide +kernel))
  have hfiles : Loader.files t directory = .ok [a, b, c] :=
    (Loader.files_of_names hnames).trans (congrArg Except.ok (by decide +kernel))
  have hloads : (Loader.all t { directory }).result.outcome.toOption.isSome = true := by
    unfold Loader.all Loader.ensure Loader.reload
    simp only [hfiles]
    decide +kernel
  obtain ⟨ps, hps⟩ := Option.isSome_iff_exists.1 hloads
  have hall : (Event.all.perform ⟨t, { directory }⟩).result.outcome = .ok (.profiles ps) :=
    outcome_bind_eq_ok.2 ⟨ps, eq_ok_of_toOption hps, rfl⟩
  obtain ⟨s, hrun⟩ : ∃ s, run ⟨t, { directory }⟩ [.all, .change .empty] = .ok s :=
    ⟨_, bind_eq_ok.2 ⟨_, map_eq_ok.2 ⟨_, hall, rfl⟩, rfl⟩⟩
  obtain ⟨x, hx⟩ : ∃ x, ((Event.get (.text "x")).perform s).result.outcome = .ok x := by
    rw [run_eq_ok hrun]
    exact ⟨_, rfl⟩
  obtain ⟨source, paths, hsource, hpaths, _, herrors, hanswer⟩ := answers_of_snapshot hrun rfl hx
  obtain rfl : t = source := Option.some.inj hsource
  rw [← t.profileFiles_eq, FileTree.profileFiles, hfiles] at hpaths
  obtain rfl : paths = [a, b, c] := hpaths
  have htexts : (t.profilesOf [a, b, c]).all (·.name.isText "x") = true := by decide +kernel
  have hlast : (Profile.lastNamed (t.profilesOf [a, b, c]) (.text "x")).map (·.path) =
      some "p/b.json" := by decide +kernel
  obtain ⟨p, hp, hpath⟩ := Option.map_eq_some_iff.1 hlast
  have hnamed : ∀ q ∈ t.profilesOf [a, b, c], ∃ name, q.name = .text name :=
    fun q hq => ⟨"x", Value.isText_iff.1 (List.all_eq_true.1 htexts q hq)⟩
  refine ⟨s, p, hrun, by rw [run_eq_ok hrun]; rfl, ?_, hpath, herrors⟩
  rw [hx, hanswer hnamed, Event.answerFrom, hp]

end Session

end TableScript
