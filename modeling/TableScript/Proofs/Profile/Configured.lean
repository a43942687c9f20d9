import TableScript.Proofs.Generator.Coherence
import TableScript.Proofs.Profile.Cache

/-!
# A generator from a profile

A profile is read, and a generator is made for its database and its connection. That is the same as
handing over what the document says about the two: the checks are the same and come in the same
order, the database first, then the connection, then what the database needs of it.
-/

namespace TableScript

open Outcome

/-- The entries of a mapping. -/
def Value.entries? (v : Value) : Option Entries :=
  match v.untie with
  | .mapping entries => some entries
  | _ => none

theorem Value.untie_of_entries? {v : Value} {entries : Entries} (h : v.entries? = some entries) :
    v.untie = .mapping entries := by
  unfold entries? at h
  split at h
  · rename_i hv
    cases h
    exact hv
  · cases h

namespace Profile

/-- A connection is read from a profile as it is read when it is handed over. -/
theorem connectionEntries_eq_ok (path : Path) {v : Value}
    (h : v.truthy = true → ∃ entries, v.untie = .mapping entries) :
    ∃ entries, connectionEntries path v = .ok entries ∧
      Connection.ofOptional (v.orElse (.mapping [])) = (Connection.ofEntries entries).map some := by
  unfold connectionEntries Value.orElse
  cases hv : v.truthy with
  | false => exact ⟨[], rfl, rfl⟩
  | true =>
      obtain ⟨entries, hentries⟩ := h hv
      simp only [if_true, hentries]
      exact ⟨entries, rfl, by simp only [Connection.ofOptional, hentries]⟩

theorem ofDocument_eq {path : Path} {document : Value} {entries : Entries}
    (hentries : document.untie = .mapping entries)
    (hdialect : (entries.get "dialect").truthy = true) {connection : Entries}
    (hconnection : connectionEntries path (entries.get "connection") = .ok connection) :
    ofDocument path document = (do
      let d ← Dialect.ofValue (entries.get "dialect")
      let c ← Connection.ofEntries connection
      return ⟨(entries.get "name").orElse (.text path.stem), d, c, path.text⟩) := by
  unfold ofDocument
  simp only [hentries, hdialect, hconnection, if_true]
  rfl

end Profile

namespace Generator

/-- A generator for the database and the connection of a profile. -/
def ofProfile (r : Registry) (t : FileTree) (path : Path) : Logged Generator := do
  let p ← Logged.lift (Profile.load t path)
  create r (.dialect p.dialect) (.kept (some p.connection))

/-- The outcome of making a generator: the first of its checks that fails, or a generator. -/
theorem create_given_outcome (r : Registry) (dialect connection : Value) :
    (create r dialect (.given connection)).outcome = (do
      let d ← Dialect.ofValue dialect
      let c ← Connection.ofOptional connection
      let b ← Builder.create r d c
      return ⟨d, c, some b⟩) := by
  rw [create_outcome]
  simp only [request, ConnectionSource.read]
  cases Dialect.ofValue dialect with
  | error e => rfl
  | ok d => cases Connection.ofOptional connection <;> rfl

/-- A profile whose document names a database, and whose connection is a mapping or falsy, leads to
the generator that is made of what the document says, or to the same failure: that of the first
check which fails. -/
theorem ofProfile_eq_create {r : Registry} {t : FileTree} {path : Path} {document : Value}
    {entries : Entries} (hdocument : Profile.readDocument t path = .ok document)
    (hentries : document.untie = .mapping entries)
    (hdialect : (entries.get "dialect").truthy = true)
    (hconnection : (entries.get "connection").truthy = true →
      ∃ connection, (entries.get "connection").untie = .mapping connection) :
    let dialect := entries.get "dialect"
    let connection := (entries.get "connection").orElse (.mapping [])
    ofProfile r t path = create r dialect (.given connection) ∧
      (ofProfile r t path).outcome = (do
        let d ← Dialect.ofValue dialect
        let c ← Connection.ofOptional connection
        let b ← Builder.create r d c
        return ⟨d, c, some b⟩) ∧
      ∀ schema, (ofProfile r t path >>= (·.script schema)) =
        (create r dialect (.given connection) >>= (·.script schema)) := by
  intro dialect connection
  obtain ⟨read, hread, hoptional⟩ := Profile.connectionEntries_eq_ok path hconnection
  have hload : Profile.load t path = _ :=
    (congrArg (· >>= Profile.ofDocument path) hdocument).trans
      (Profile.ofDocument_eq hentries hdialect hread)
  have hgiven : (ConnectionSource.given connection).read = (Connection.ofEntries read).map some :=
    hoptional
  have hsame : ofProfile r t path = create r dialect (.given connection) := by
    unfold ofProfile create request
    rw [hload, hgiven]
    change _ = (Logged.lift (Dialect.ofValue (entries.get "dialect") >>= _) >>= _)
    cases Dialect.ofValue (entries.get "dialect") with
    | error e => rfl
    | ok d => cases Connection.ofEntries read <;> rfl
  refine ⟨hsame, ?_, fun schema => by rw [hsame]⟩
  rw [hsame, create_given_outcome]

/-- A profile whose connection is a mapping. The name of the database is read in any letter case. -/
theorem ofProfile_eq_create_firebird :
    let octets (s : String) : List UInt8 := s.toList.map fun c => .ofNat c.toNat
    let path : Path := ⟨"", ["a.yaml"]⟩
    let t : FileTree := ⟨[(["a.yaml"], .file (octets
      "dialect: Firebird\nconnection: \x7bdbName: DB, dbConfig: \x7bhost: h\x7d\x7d\n"))]⟩
    ∃ (document : Value) (entries connection : Entries) (g : Generator),
      Profile.readDocument t path = .ok document ∧ document.untie = .mapping entries ∧
      entries.get "dialect" = .text "Firebird" ∧
      (entries.get "connection").untie = .mapping connection ∧
      (ofProfile .standard t path).outcome = .ok g ∧ g.dialect = .firebird ∧
      (create .standard (entries.get "dialect")
        (.given ((entries.get "connection").orElse (.mapping [])))).outcome = .ok g := by
  intro octets path t
  have hread : ((Profile.readDocument t path).toOption.bind Value.entries?).any (fun entries =>
      (entries.get "dialect").isText "Firebird" && (entries.get "connection").entries?.isSome) =
      true := by decide +kernel
  have hmade :
      (ofProfile .standard t path).outcome.toOption.any (·.dialect = .firebird) = true := by
    decide +kernel
  obtain ⟨entries, hentries, hshape⟩ := (Option.any_eq_true ..).1 hread
  obtain ⟨document, hdocument, hentries⟩ := Option.bind_eq_some_iff.1 hentries
  obtain ⟨hname, hconnection⟩ := Bool.and_eq_true_iff.1 hshape
  obtain ⟨connection, hconnection⟩ := Option.isSome_iff_exists.1 hconnection
  obtain ⟨g, hg, hdialect⟩ := (Option.any_eq_true ..).1 hmade
  have hname : entries.get "dialect" = .text "Firebird" := Value.isText_iff.1 hname
  have hmapping := Value.untie_of_entries? hconnection
  obtain ⟨hsame, -⟩ := ofProfile_eq_create (r := .standard) (eq_ok_of_toOption hdocument)
    (Value.untie_of_entries? hentries) (hname ▸ rfl) fun _ => ⟨connection, hmapping⟩
  refine ⟨document, entries, connection, g, eq_ok_of_toOption hdocument,
    Value.untie_of_entries? hentries, hname, hmapping, eq_ok_of_toOption hg,
    of_decide_eq_true hdialect, ?_⟩
  rw [← hsame]
  exact eq_ok_of_toOption hg

end Generator

end TableScript
