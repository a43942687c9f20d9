import TableScript.Proofs.Profile.Snapshot

/-!
# Reloads that fail

A reload forgets what was read before it reads anew. If it fails on the way, a loader that has never
read its directory still has to, and answers as before. A loader that has read it once goes on with
the profiles that the reading had come to.
-/

namespace TableScript

open Logged Outcome

/-- Caches of which the same is answered. -/
structure ProfileCache.Alike (c c' : ProfileCache) : Prop where
  profiles : c.map (·.2) = c'.map (·.2)
  find? : ∀ name : Value, name.isKey = true → c.find? name = c'.find? name

theorem ProfileCache.Alike.refl (c : ProfileCache) : c.Alike c := ⟨rfl, fun _ _ => rfl⟩

namespace Loader

/-- Loaders of which the same is answered. What is in the cache of a loader counts only after it has
read its directory. -/
structure Alike (l l' : Loader) : Prop where
  directory : l.directory = l'.directory
  loaded : l.loaded = l'.loaded
  cache : l.loaded = true → l.cache.Alike l'.cache

theorem Alike.refl (l : Loader) : l.Alike l := ⟨rfl, rfl, fun _ => .refl l.cache⟩

variable {t : FileTree} {l l' : Loader}

/-- A reload begins with an empty cache. -/
theorem Alike.reload_eq (h : l.Alike l') : l.reload t = l'.reload t := by
  obtain ⟨directory, cache, loaded⟩ := l
  obtain ⟨directory', cache', loaded'⟩ := l'
  obtain ⟨rfl, rfl, -⟩ := h
  rfl

theorem Alike.ensure_eq_or_loaded (h : l.Alike l') :
    l.ensure t = l'.ensure t ∨
      l.ensure t = ⟨l, answer ()⟩ ∧ l'.ensure t = ⟨l', answer ()⟩ ∧ l.cache.Alike l'.cache := by
  cases hloaded : l.loaded with
  | false =>
      rw [ensure_of_unloaded hloaded, ensure_of_unloaded (h.loaded ▸ hloaded)]
      exact .inl h.reload_eq
  | true =>
      exact .inr ⟨ensure_of_loaded hloaded, ensure_of_loaded (h.loaded ▸ hloaded), h.cache hloaded⟩

theorem Alike.all (h : l.Alike l') :
    (l.all t).result = (l'.all t).result ∧ (l.all t).loader.Alike (l'.all t).loader := by
  unfold Loader.all
  rcases h.ensure_eq_or_loaded (t := t) with hensure | ⟨hensure, hensure', hcache⟩
  · rw [hensure]
    exact ⟨rfl, .refl _⟩
  · rw [hensure, hensure']
    refine ⟨?_, h⟩
    simp only [hcache.profiles]

theorem Alike.get (h : l.Alike l') (name : Value) :
    (l.get t name).result = (l'.get t name).result ∧
      (l.get t name).loader.Alike (l'.get t name).loader := by
  unfold Loader.get
  rcases h.ensure_eq_or_loaded (t := t) with hensure | ⟨hensure, hensure', hcache⟩
  · rw [hensure]
    exact ⟨rfl, .refl _⟩
  · rw [hensure, hensure']
    refine ⟨?_, h⟩
    by_cases hkey : name.isKey = true
    · simp only [hcache.find? name hkey]
    · simp only [if_neg hkey]

/-- A loader remembers that it has read its directory once. -/
theorem loaded_reload_iff :
    (l.reload t).loader.loaded = true ↔
      l.loaded = true ∨ (l.reload t).result.outcome = .ok () := by
  rcases reload_cases t l with ⟨hok, hloader, -⟩ | ⟨e, ps, he, -, -, hloader⟩
  · rw [hok, hloader]
    exact iff_of_true rfl (.inr rfl)
  · rw [he, hloader]
    simp

theorem loaded_ensure_iff :
    (l.ensure t).loader.loaded = true ↔
      l.loaded = true ∨ (l.reload t).result.outcome = .ok () := by
  cases hloaded : l.loaded with
  | false =>
      rw [ensure_of_unloaded hloaded, loaded_reload_iff, hloaded]
  | true =>
      rw [ensure_of_loaded hloaded]
      exact iff_of_true hloaded (.inl rfl)

end Loader

namespace Session

/-- The session after an event, whether or not it fails. -/
def next (s : Session) (e : Event) : Session :=
  ⟨e.files s.files, (e.perform s).loader⟩

/-- What is answered and told at several events, one after the other. None of them ends the session
by its failure. -/
def answers (s : Session) : List Event → List (Logged Answer)
  | [] => []
  | e :: es => (e.perform s).result :: (s.next e).answers es

/-- The session after several events, some of which may fail. -/
def after (s : Session) (es : List Event) : Session := es.foldl next s

/-- The directory can be read as the files are now. -/
def CanRead (s : Session) : Prop :=
  (s.loader.reload s.files).result.outcome = .ok ()

theorem loaded_next_iff (s : Session) (e : Event) :
    (s.next e).loader.loaded = true ↔ s.loader.loaded = true ∨ e.isCall = true ∧ s.CanRead := by
  cases e with
  | change t => simp [next, Event.perform, Event.isCall]
  | all | get name =>
      simp only [Event.isCall, true_and]
      exact Loader.loaded_ensure_iff
  | reload =>
      simp only [Event.isCall, true_and]
      exact Loader.loaded_reload_iff

/-- A loader has read its directory if one of the calls so far came when it could be read. -/
theorem loaded_after_iff (s : Session) (es : List Event) :
    (s.after es).loader.loaded = true ↔ s.loader.loaded = true ∨
      ∃ before e rest, es = before ++ e :: rest ∧ e.isCall = true ∧ (s.after before).CanRead := by
  induction es generalizing s with
  | nil => simp [after]
  | cons e es ih =>
      -- the call that could read is either the first event or one of those after it
      refine (ih (s.next e)).trans ?_
      rw [loaded_next_iff, or_assoc]
      refine or_congr_right ⟨?_, ?_⟩
      · rintro (⟨hcall, hread⟩ | ⟨before, e', rest, rfl, hcall, hread⟩)
        · exact ⟨[], e, es, rfl, hcall, hread⟩
        · exact ⟨e :: before, e', rest, rfl, hcall, hread⟩
      · rintro ⟨before, e', rest, hes, hcall, hread⟩
        cases before with
        | nil =>
            cases hes
            exact .inl ⟨hcall, hread⟩
        | cons e₁ before =>
            cases hes
            exact .inr ⟨before, e', rest, rfl, hcall, hread⟩

theorem perform_of_alike {t : FileTree} {l l' : Loader} (h : l.Alike l') (e : Event) :
    (e.perform ⟨t, l⟩).result = (e.perform ⟨t, l'⟩).result ∧
      (e.perform ⟨t, l⟩).loader.Alike (e.perform ⟨t, l'⟩).loader := by
  cases e with
  | change after => exact ⟨rfl, h⟩
  | all =>
      obtain ⟨hresult, hloader⟩ := h.all
      exact ⟨by simp only [Event.perform, hresult], hloader⟩
  | get name =>
      obtain ⟨hresult, hloader⟩ := h.get name
      exact ⟨by simp only [Event.perform, hresult], hloader⟩
  | reload =>
      simp only [Event.perform, h.reload_eq]
      exact ⟨trivial, .refl _⟩

/-- Loaders of which the same is answered stay so, whatever happens. -/
theorem answers_of_alike {t : FileTree} {l l' : Loader} (h : l.Alike l') (es : List Event) :
    answers ⟨t, l⟩ es = answers ⟨t, l'⟩ es := by
  induction es generalizing t l l' with
  | nil => rfl
  | cons e es ih =>
      obtain ⟨hresult, hloader⟩ := perform_of_alike (t := t) h e
      rw [answers, answers, hresult]
      exact congrArg _ (ih hloader)

variable {s s' : Session}

theorem answers_all_of_loaded (h : s.loader.loaded = true) :
    s.answers [.all] = [answer (.profiles (s.loader.cache.map (·.2)))] := by
  simp only [answers, Event.perform, Loader.all, Loader.ensure_of_loaded h]
  rfl

theorem answers_get_of_loaded (h : s.loader.loaded = true) {name : Value}
    (hkey : name.isKey = true) :
    s.answers [.get name] = [answer (.profile (s.loader.cache.find? name))] := by
  simp only [answers, Event.perform, Loader.get, Loader.ensure_of_loaded h, hkey, if_true]
  rfl

/-- A loader that has read its directory tells of its cache in what it answers. -/
theorem alike_of_answers (h : s.loader.loaded = true) (h' : s'.loader.loaded = true)
    (hanswers : ∀ es, (∀ e ∈ es, e.isReload = false) → s.answers es = s'.answers es) :
    s.loader.cache.Alike s'.loader.cache := by
  refine ⟨?_, fun name hkey => ?_⟩
  · have hall := hanswers [.all] (by simp [Event.isReload])
    rw [answers_all_of_loaded h, answers_all_of_loaded h'] at hall
    simpa [answer] using hall
  · have hget := hanswers [.get name] (by simp [Event.isReload])
    rw [answers_get_of_loaded h hkey, answers_get_of_loaded h' hkey] at hget
    simpa [answer] using hget

/-! ## A reload that fails -/

theorem outcome_reload (s : Session) :
    (Event.reload.perform s).result.outcome =
      ((s.loader.reload s.files).result.outcome >>= fun _ => .ok .done) :=
  outcome_bind ..

/-- A reload that fails leaves the profiles that it has come to, and changes nothing else. -/
theorem answers_next_reload_iff {e : Failure}
    (h : (Event.reload.perform s).result.outcome = .error e) :
    (∃ ps, Loader.Fails s.files s.loader.directory e ps ∧
      s.next .reload = ⟨s.files, { s.loader with cache := .ofProfiles ps }⟩) ∧
    ((∀ es, (∀ e ∈ es, e.isReload = false) → (s.next .reload).answers es = s.answers es) ↔
      s.loader.loaded = false ∨ (s.next .reload).loader.cache.Alike s.loader.cache) := by
  obtain ⟨ps, hfails, hnext⟩ : ∃ ps, Loader.Fails s.files s.loader.directory e ps ∧
      s.next .reload = ⟨s.files, { s.loader with cache := .ofProfiles ps }⟩ := by
    rcases Loader.reload_cases s.files s.loader with ⟨hok, -⟩ | ⟨e', ps, he, -, hfails, hloader⟩
    · rw [outcome_reload, hok] at h
      cases h
    · rw [outcome_reload, he] at h
      cases h
      exact ⟨ps, hfails, congrArg (Session.mk s.files) hloader⟩
  refine ⟨⟨ps, hfails, hnext⟩, ?_⟩
  rw [hnext]
  constructor
  · intro hanswers
    cases hloaded : s.loader.loaded with
    | false => exact .inl rfl
    | true => exact .inr (alike_of_answers hloaded hloaded hanswers)
  · intro hsame es _
    have halike : Loader.Alike { s.loader with cache := .ofProfiles ps } s.loader :=
      ⟨rfl, rfl, fun hloaded => hsame.resolve_left (Bool.not_eq_false _ ▸ hloaded)⟩
    exact answers_of_alike halike es

/-- Files are changed and a loader is called in any order, some of the calls fail, and at last a
reload does. Then the cache holds the profiles that the reading had come to, and nothing else has
changed. Until the next reload everything is answered as without this one if no call before came
when the directory could be read, or if the profiles in the cache are those that were there; and
otherwise something is answered differently. -/
theorem answers_after_failed_reload_iff {directory : Path} {t : FileTree} {history : List Event}
    {e : Failure}
    (h : (Event.reload.perform (after ⟨t, { directory }⟩ history)).result.outcome = .error e) :
    let start : Session := ⟨t, { directory }⟩
    let s := start.after history
    (∃ ps, Loader.Fails s.files s.loader.directory e ps ∧
      s.next .reload = ⟨s.files, { s.loader with cache := .ofProfiles ps }⟩) ∧
    ((∀ es, (∀ e ∈ es, e.isReload = false) → (s.next .reload).answers es = s.answers es) ↔
      (¬∃ before e rest, history = before ++ e :: rest ∧ e.isCall = true ∧
        (start.after before).CanRead) ∨
      (s.next .reload).loader.cache.Alike s.loader.cache) := by
  intro start s
  obtain ⟨hleft, hiff⟩ := answers_next_reload_iff h
  refine ⟨hleft, hiff.trans (or_congr_left ?_)⟩
  rw [← Bool.not_eq_true]
  exact not_congr ((loaded_after_iff start history).trans (or_iff_right Bool.false_ne_true))

/-- A loader has read its directory, and then the files have changed. -/
theorem after_all_change {t : FileTree} {directory : Path} (hthere : t.contains directory = true)
    {paths : List Path} (hfiles : Loader.files t directory = .ok paths)
    (hpassed : ∀ path ∈ paths, t.stop? path = none) (t' : FileTree) :
    after ⟨t, { directory }⟩ [.all, .change t'] =
      ⟨t', ⟨directory, .ofProfiles (t.profilesOf paths), true⟩⟩ := by
  have hreload := Loader.reload_of_passed (l := { directory }) hthere hfiles hpassed
  exact congrArg (fun x => Session.mk t' x.loader) hreload

/-- A file stops the reading, and the profiles of those in front of it are left. -/
theorem next_reload_of_stopped {t : FileTree} {l : Loader} (hthere : t.contains l.directory = true)
    {before : List Path} {path : Path} {after : List Path}
    (hfiles : Loader.files t l.directory = .ok (before ++ path :: after))
    (hpassed : ∀ path ∈ before, t.stop? path = none) {e : Failure} (hstop : t.stop? path = some e) :
    (Event.reload.perform ⟨t, l⟩).result.outcome = .error e ∧
      (Session.mk t l).next .reload =
        ⟨t, { l with cache := .ofProfiles (t.profilesOf before ++ (t.entered? path).toList) }⟩ := by
  have hreload := Loader.reload_of_stopped hthere hfiles hpassed hstop
  have hloader := congrArg Loading.loader hreload
  refine ⟨?_, congrArg (Session.mk t) hloader⟩
  rw [outcome_reload, hreload]
  rfl

/-- The file that stops the reading comes after the one whose profile is there. -/
theorem answers_after_failed_reload_iff_behind :
    let octets (s : String) : List UInt8 := s.toList.map fun c => .ofNat c.toNat
    let directory : Path := ⟨"", ["p"]⟩
    let a : Path := ⟨"", ["p", "a.yaml"]⟩
    let b : Path := ⟨"", ["p", "b.yaml"]⟩
    let t : FileTree :=
      ⟨[(["p"], .folder), (a.names, .file (octets "name: x\ndialect: mysql\n"))]⟩
    let t' : FileTree := ⟨t.entries ++ [(b.names, .file (octets "name: [y]\ndialect: sqlite\n"))]⟩
    let s : Session := after ⟨t, { directory }⟩ [.all, .change t']
    (Event.reload.perform s).result.outcome = .error .wrongType ∧ s.loader.loaded = true ∧
      s.loader.cache.length = 1 ∧
      ∀ es, (∀ e ∈ es, e.isReload = false) → (s.next .reload).answers es = s.answers es := by
  intro octets directory a b t t' s
  have hnames : t.names directory = .ok ["a.yaml"] :=
    congrArg Except.ok (List.mergeSort_of_pairwise (by decide +kernel))
  have hnames' : t'.names directory = .ok ["a.yaml", "b.yaml"] :=
    congrArg Except.ok (List.mergeSort_of_pairwise (by decide +kernel))
  have hfiles : Loader.files t directory = .ok [a] :=
    (Loader.files_of_names hnames).trans (congrArg Except.ok (by decide +kernel))
  have hfiles' : Loader.files t' directory = .ok ([a] ++ b :: []) :=
    (Loader.files_of_names hnames').trans (congrArg Except.ok (by decide +kernel))
  have hpassed : ∀ path ∈ [a], t.stop? path = none := by
    simp only [List.forall_mem_singleton, ← Option.isNone_iff_eq_none]
    decide +kernel
  have hread : t'.read a = t.read a := by decide +kernel
  have hpassed' : ∀ path ∈ [a], t'.stop? path = none := by
    simp only [List.forall_mem_singleton, ← Option.isNone_iff_eq_none]
    decide +kernel
  have hsame : t'.profilesOf [a] = t.profilesOf [a] := by
    unfold FileTree.profilesOf Profile.load Profile.readDocument
    simp only [List.filterMap_cons, List.filterMap_nil, hread]
  have hone : (ProfileCache.ofProfiles (t.profilesOf [a])).length = 1 := by decide +kernel
  obtain ⟨hstop, hentered⟩ : t'.stop? b = some .wrongType ∧ t'.entered? b = none :=
    FileTree.stop?_of_unkeyed (by decide +kernel)
  have hs : s = ⟨t', ⟨directory, .ofProfiles (t.profilesOf [a]), true⟩⟩ :=
    after_all_change (by decide +kernel) hfiles hpassed t'
  obtain ⟨hfails, hnext⟩ := next_reload_of_stopped
    (l := ⟨directory, .ofProfiles (t.profilesOf [a]), true⟩) (by decide +kernel) hfiles' hpassed'
    hstop
  rw [← hs] at hfails hnext
  rw [hsame, hentered, Option.toList_none, List.append_nil] at hnext
  have hcache : s.loader.cache = .ofProfiles (t.profilesOf [a]) := by rw [hs]
  have hcache' : (s.next .reload).loader.cache = .ofProfiles (t.profilesOf [a]) := by rw [hnext]
  have halike : (s.next .reload).loader.cache.Alike s.loader.cache := by
    rw [hcache, hcache']
    exact .refl _
  obtain ⟨-, hiff⟩ := answers_after_failed_reload_iff hfails
  exact ⟨hfails, by rw [hs], by rw [hcache, hone], hiff.2 (.inr halike)⟩

/-- The file that stops the reading comes between two whose profiles were there. Only that of the
first is left. -/
theorem half_of_profiles_after_failed_reload :
    let octets (s : String) : List UInt8 := s.toList.map fun c => .ofNat c.toNat
    let directory : Path := ⟨"", ["p"]⟩
    let a : Path := ⟨"", ["p", "a.yaml"]⟩
    let b : Path := ⟨"", ["p", "b.yaml"]⟩
    let c : Path := ⟨"", ["p", "c.yaml"]⟩
    let t : FileTree := ⟨[(["p"], .folder), (a.names, .file (octets "dialect: mysql\n")),
      (c.names, .file (octets "dialect: sqlite\n"))]⟩
    let t' : FileTree := ⟨[(["p"], .folder), (a.names, .file (octets "dialect: mysql\n")),
      (b.names, .file (octets "name: [x]\ndialect: mysql\n")),
      (c.names, .file (octets "dialect: sqlite\n"))]⟩
    let s : Session := after ⟨t, { directory }⟩ [.all, .change t']
    (Event.reload.perform s).result.outcome = .error .wrongType ∧
      ∃ ps qs, s.answers [.all] = [answer (.profiles ps)] ∧ ps.length = 2 ∧
        (s.next .reload).answers [.all] = [answer (.profiles qs)] ∧ qs.length = 1 := by
  intro octets directory a b c t t' s
  have hnames : t.names directory = .ok ["a.yaml", "c.yaml"] :=
    congrArg Except.ok (List.mergeSort_of_pairwise (by decide +kernel))
  have hnames' : t'.names directory = .ok ["a.yaml", "b.yaml", "c.yaml"] :=
    congrArg Except.ok (List.mergeSort_of_pairwise (by decide +kernel))
  have hfiles : Loader.files t directory = .ok [a, c] :=
    (Loader.files_of_names hnames).trans (congrArg Except.ok (by decide +kernel))
  have hfiles' : Loader.files t' directory = .ok ([a] ++ b :: [c]) :=
    (Loader.files_of_names hnames').trans (congrArg Except.ok (by decide +kernel))
  have hpassed : ∀ path ∈ [a, c], t.stop? path = none := by
    simp only [← Option.isNone_iff_eq_none]
    decide +kernel
  have hpassed' : ∀ path ∈ [a], t'.stop? path = none := by
    simp only [← Option.isNone_iff_eq_none]
    decide +kernel
  obtain ⟨hstop, hentered⟩ : t'.stop? b = some .wrongType ∧ t'.entered? b = none :=
    FileTree.stop?_of_unkeyed (by decide +kernel)
  have htwo : ((ProfileCache.ofProfiles (t.profilesOf [a, c])).map (·.2)).length = 2 := by
    decide +kernel
  have hone : ((ProfileCache.ofProfiles (t'.profilesOf [a])).map (·.2)).length = 1 := by
    decide +kernel
  have hs : s = ⟨t', ⟨directory, .ofProfiles (t.profilesOf [a, c]), true⟩⟩ :=
    after_all_change (by decide +kernel) hfiles hpassed t'
  obtain ⟨hfails, hnext⟩ := next_reload_of_stopped
    (l := ⟨directory, .ofProfiles (t.profilesOf [a, c]), true⟩) (by decide +kernel) hfiles' hpassed'
    hstop
  rw [← hs] at hfails hnext
  rw [hentered, Option.toList_none, List.append_nil] at hnext
  clear_value s
  have hcache : s.loader.cache = .ofProfiles (t.profilesOf [a, c]) := by rw [hs]
  have hcache' : (s.next .reload).loader.cache = .ofProfiles (t'.profilesOf [a]) := by rw [hnext]
  refine ⟨hfails, _, _, answers_all_of_loaded (by rw [hs]), ?_,
    answers_all_of_loaded (by rw [hnext]), ?_⟩
  · rw [hcache, htwo]
  · rw [hcache', hone]

end Session

end TableScript
