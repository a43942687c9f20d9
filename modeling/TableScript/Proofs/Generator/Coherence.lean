import TableScript.Generator.Script
import TableScript.Proofs.Client

/-!
# Coherence of a generator over a run

A generator lives through configurations that succeed or fail and through changes of its connection
in place. Its state is explained by one call alone: the last one whose database was known and whose
connection could be read. `lastRequest` follows that call along a run, and `Coherent` says that the
generator has the database it asked for and the builder it was given, if it was given one.
-/

namespace TableScript

/-- What may be done with a generator that exists. A connection is handed over as a document or as
an object; a change in place may be any change of its contents. -/
inductive Call where
  | configure (dialect : Value) (source : ConnectionSource)
  | setDialect (dialect : Value)
  | setConnection (source : ConnectionSource)
  | edit (change : Connection → Connection)

/-- What a configuration asks for: a database, and a connection with its present contents. -/
abbrev Request := Dialect × Option Connection

/-- Every generic database has a grammar. -/
def Registry.Complete (r : Registry) : Prop := ∀ d : Dialect, d.isGeneric → (r.find? d).isSome

/-- The generator has the database that was asked for, and the builder made for it, if one could be
made. -/
structure Generator.Coherent (r : Registry) (asked : Request) (g : Generator) : Prop where
  dialect_eq : g.dialect = asked.1
  builder_eq : g.builder = (Builder.create r asked.1 asked.2).toOption

namespace Builder

open Outcome

/-- A generic database is given a builder with the grammar that is registered for it, any other one
its client. -/
theorem create_cases {r : Registry} {d : Dialect} {c : Option Connection} {b : Builder}
    (h : create r d c = .ok b) :
    d.isGeneric = true ∧ (∃ g, r.find? d = some g ∧ b = .generic d g) ∨
      d.isGeneric = false ∧ ∃ client, Client.create d c = .ok client ∧ b = .specialized client := by
  unfold create at h
  by_cases hd : d.isGeneric = true
  · rw [if_pos hd] at h
    obtain ⟨d', hd', h⟩ := bind_eq_ok.1 h
    cases hd'
    rw [if_pos hd] at h
    obtain ⟨g, hg, h⟩ := bind_eq_ok.1 h
    cases h
    obtain ⟨d', hd', hg⟩ := bind_eq_ok.1 hg
    cases hd'
    split at hg
    · rename_i hfind
      cases hg
      exact Or.inl ⟨hd, g, hfind, rfl⟩
    · cases hg
  · rw [if_neg hd] at h
    obtain ⟨client, hclient, rfl⟩ := map_eq_ok.1 h
    exact Or.inr ⟨by simpa using hd, client, hclient, rfl⟩

theorem dialect_of_create {r : Registry} {d : Dialect} {c : Option Connection} {b : Builder}
    (h : create r d c = .ok b) : b.dialect = d := by
  rcases create_cases h with ⟨_, g, _, rfl⟩ | ⟨_, client, hclient, rfl⟩
  · rfl
  · exact Client.dialect_of_create hclient

/-- A builder leaves a script as it is, unless it is one of Firebird. -/
theorem repair_cases {r : Registry} {d : Dialect} {c : Option Connection} {b : Builder}
    (h : create r d c = .ok b) :
    d ≠ .firebird ∧ b.repair = Logged.answer ∨
      d = .firebird ∧ ∃ config, b = .specialized (.firebird config) := by
  have hd := dialect_of_create h
  rcases create_cases h with ⟨hgeneric, g, _, rfl⟩ | ⟨_, client, _, rfl⟩
  · refine Or.inl ⟨?_, rfl⟩
    rintro rfl
    cases hgeneric
  · subst hd
    cases client with
    | firebird config => exact Or.inr ⟨rfl, config, rfl⟩
    | cassandra config => exact Or.inl ⟨Dialect.noConfusion, rfl⟩
    | bigquery config dataset => exact Or.inl ⟨Dialect.noConfusion, rfl⟩

end Builder

namespace Call

def apply (r : Registry) (g : Generator) : Call → Configuration
  | configure dialect source => g.configure r dialect source
  | setDialect dialect => g.setDialect r dialect
  | setConnection (.given value) => g.setConnection r value
  | setConnection (.kept connection) => g.configure r (.dialect g.dialect) (.kept connection)
  | edit change => ⟨{ g with connection := g.connection.map change }, Logged.answer ()⟩

/-- What a call asks for, if its database is known and its connection can be read. -/
def request? (g : Generator) : Call → Option Request
  | configure dialect source => (Generator.request dialect source).toOption
  | setDialect dialect => (Generator.request dialect (.kept g.connection)).toOption
  | setConnection source => (Generator.request (.dialect g.dialect) source).toOption
  | edit _ => none

/-- The database and the connection that a configuration hands over. -/
def handedOver (g : Generator) : Call → Option (Value × ConnectionSource)
  | configure dialect source => some (dialect, source)
  | setDialect dialect => some (dialect, .kept g.connection)
  | setConnection source => some (.dialect g.dialect, source)
  | edit _ => none

def run (r : Registry) (g : Generator) (calls : List Call) : Generator :=
  calls.foldl (fun g call => (call.apply r g).generator) g

/-- What the last call of a run asked for that could be read; `asked` if there is none. -/
def lastRequest (r : Registry) (g : Generator) (asked : Request) : List Call → Request
  | [] => asked
  | call :: rest =>
      lastRequest r (call.apply r g).generator ((call.request? g).getD asked) rest

theorem run_cons (r : Registry) (g : Generator) (call : Call) (rest : List Call) :
    run r g (call :: rest) = run r (call.apply r g).generator rest := rfl

/-- Every call that hands something over is a configuration. -/
theorem apply_eq_configure {r : Registry} {g : Generator} {call : Call} {dialect : Value}
    {source : ConnectionSource} (h : call.handedOver g = some (dialect, source)) :
    call.apply r g = g.configure r dialect source := by
  cases call with
  | configure _ _ =>
      cases h
      rfl
  | setDialect _ =>
      cases h
      rfl
  | setConnection _ =>
      cases h
      cases source <;> rfl
  | edit _ => cases h

end Call

namespace Generator

/-! ## Single configurations -/

@[simp] theorem request_kept (d : Dialect) (c : Option Connection) :
    request (.dialect d) (.kept c) = .ok (d, c) := rfl

theorem assemble_generator (r : Registry) (d : Dialect) (c : Option Connection) :
    (assemble r d c).generator = ⟨d, c, (Builder.create r d c).toOption⟩ := by
  unfold assemble
  cases h : Builder.create r d c with
  | ok b => rfl
  | error e => cases e <;> rfl

theorem assemble_outcome (r : Registry) (d : Dialect) (c : Option Connection) :
    (assemble r d c).result.outcome = (Builder.create r d c).map fun _ => () := by
  unfold assemble
  cases h : Builder.create r d c with
  | ok b => rfl
  | error e => cases e <;> rfl

/-- A generator is coherent with what a configuration asks for, whether or not it succeeds. -/
theorem coherent_assemble (r : Registry) (asked : Request) :
    Coherent r asked (assemble r asked.1 asked.2).generator := by
  rw [assemble_generator]
  exact ⟨rfl, rfl⟩

theorem create_outcome (r : Registry) (dialect : Value) (source : ConnectionSource) :
    (create r dialect source).outcome =
      (request dialect source).bind fun asked =>
        (Builder.create r asked.1 asked.2).map fun b => ⟨asked.1, asked.2, some b⟩ := by
  unfold create
  cases hr : request dialect source with
  | error e => rfl
  | ok asked =>
      have hg := assemble_generator r asked.1 asked.2
      have ho := assemble_outcome r asked.1 asked.2
      cases hb : Builder.create r asked.1 asked.2 with
      | error e =>
          rw [hb] at ho
          simp only [bind, Logged.andThen, Logged.lift, ho, hb, Except.map, Except.bind]
      | ok b =>
          rw [hb] at hg ho
          simp only [bind, pure, Logged.andThen, Logged.lift, Logged.answer, ho, hg, hb, Except.map,
            Except.bind, Except.toOption]

/-- When every generic database has a grammar, the making of a builder finds no database
unsupported: only the lookup of a name does. -/
theorem builder_ne_unsupported {r : Registry} (hr : r.Complete) (d : Dialect)
    (c : Option Connection) (v : Value) :
    Builder.create r d c ≠ .error (.unsupportedDialect v) := by
  intro h
  unfold Builder.create at h
  split at h
  · rename_i hd
    obtain ⟨g, hg⟩ := Option.isSome_iff_exists.1 (hr d hd)
    have hok : Builder.createGeneric r (.dialect d) = .ok (.generic d g) := by
      simp [Builder.createGeneric, Registry.grammar, hd, hg, bind, Except.bind, pure, Except.pure]
    rw [hok] at h
    cases h
  · rename_i hd
    have hs : d.isSpecialized := by simpa [Dialect.isGeneric] using hd
    have he := Client.error_of_create hs (Outcome.map_eq_error.1 h)
    cases he

/-! ## One call -/

theorem configure_ok {r : Registry} {g : Generator} {dialect : Value} {source : ConnectionSource}
    {asked : Request} (h : request dialect source = .ok asked) :
    g.configure r dialect source = assemble r asked.1 asked.2 := by
  simp [configure, h]

theorem configure_error {r : Registry} {g : Generator} {dialect : Value}
    {source : ConnectionSource} {e : Failure} (h : request dialect source = .error e) :
    g.configure r dialect source = ⟨g, Logged.fail e⟩ := by
  simp [configure, h]

theorem coherent_configure {r : Registry} {asked : Request} {g : Generator}
    (hg : Coherent r asked g) (dialect : Value) (source : ConnectionSource) :
    Coherent r ((request dialect source).toOption.getD asked)
      (g.configure r dialect source).generator := by
  cases h : request dialect source with
  | ok asked' =>
      rw [configure_ok h]
      exact coherent_assemble r asked'
  | error e =>
      rw [configure_error h]
      exact hg

theorem configure_unsupported {r : Registry} (hr : r.Complete) {g : Generator} {dialect : Value}
    {source : ConnectionSource} {v : Value}
    (h : (g.configure r dialect source).result.outcome = .error (.unsupportedDialect v)) :
    (g.configure r dialect source).generator = g := by
  cases hreq : request dialect source with
  | ok asked =>
      rw [configure_ok hreq, assemble_outcome] at h
      exact absurd (Outcome.map_eq_error.1 h) (builder_ne_unsupported hr _ _ _)
  | error e => rw [configure_error hreq]

end Generator

namespace Call

open Generator

theorem coherent_apply {r : Registry} {asked : Request} {g : Generator}
    (hg : Coherent r asked g) (call : Call) :
    Coherent r ((call.request? g).getD asked) (call.apply r g).generator := by
  cases call with
  | configure dialect source => exact coherent_configure hg dialect source
  | setDialect dialect => exact coherent_configure hg dialect _
  | setConnection source =>
      cases source with
      | given value => exact coherent_configure hg (.dialect g.dialect) (.given value)
      | kept connection => exact coherent_configure hg (.dialect g.dialect) (.kept connection)
  | edit change => exact ⟨hg.dialect_eq, hg.builder_eq⟩

theorem apply_unsupported {r : Registry} (hr : r.Complete) {g : Generator} {call : Call}
    {v : Value} (h : (call.apply r g).result.outcome = .error (.unsupportedDialect v)) :
    (call.apply r g).generator = g := by
  cases call with
  | configure dialect source => exact configure_unsupported hr h
  | setDialect dialect => exact configure_unsupported hr h
  | setConnection source =>
      cases source with
      | given value => exact configure_unsupported hr h
      | kept connection => exact configure_unsupported hr h
  | edit change => cases h

/-! ## Runs -/

/-- Whatever the calls, the generator stays coherent with the last request that could be read. -/
theorem coherent_run {r : Registry} {asked : Request} {g : Generator}
    (hg : Coherent r asked g) (calls : List Call) :
    Coherent r (lastRequest r g asked calls) (run r g calls) := by
  induction calls generalizing g asked with
  | nil => exact hg
  | cons call rest ih =>
      rw [run_cons, lastRequest]
      exact ih (coherent_apply hg call)

end Call

namespace Generator

/-- A generator that a run from a successful construction leads to. -/
def Reachable (r : Registry) (g : Generator) : Prop :=
  ∃ dialect source g₀ calls, (create r dialect source).outcome = .ok g₀ ∧ g = Call.run r g₀ calls

theorem coherent_create {r : Registry} {dialect : Value} {source : ConnectionSource}
    {g₀ : Generator} (h : (create r dialect source).outcome = .ok g₀) :
    ∃ first, request dialect source = .ok first ∧ Coherent r first g₀ := by
  rw [create_outcome] at h
  obtain ⟨first, hfirst, h⟩ := Outcome.bind_eq_ok.1 h
  obtain ⟨b, hb, rfl⟩ := Outcome.map_eq_ok.1 h
  exact ⟨first, hfirst, rfl, by rw [hb]; rfl⟩

theorem Reachable.coherent {r : Registry} {g : Generator} (hg : Reachable r g) :
    ∃ asked, Coherent r asked g := by
  obtain ⟨dialect, source, g₀, calls, h₀, rfl⟩ := hg
  obtain ⟨first, _, hfirst⟩ := coherent_create h₀
  exact ⟨_, Call.coherent_run hfirst calls⟩

theorem Coherent.create_eq_ok {r : Registry} {asked : Request} {g : Generator}
    (hg : Coherent r asked g) {b : Builder} (hb : g.builder = some b) :
    Builder.create r asked.1 asked.2 = .ok b := by
  rw [hg.builder_eq] at hb
  cases hc : Builder.create r asked.1 asked.2 with
  | ok b' =>
      rw [hc] at hb
      cases hb
      rfl
  | error e =>
      rw [hc] at hb
      cases hb

/-- A coherent generator answers as a new one for the same database and connection does, and not
at all if there is no such generator. -/
theorem script_of_coherent {r : Registry} {asked : Request} {g : Generator}
    (hg : Coherent r asked g) :
    match (create r (.dialect asked.1) (.kept asked.2)).outcome with
    | .ok fresh => ∀ schema, g.script schema = fresh.script schema
    | .error _ => ∀ schema, g.script schema = Logged.fail (.render (.noBuilder g.dialect)) := by
  have hb := hg.builder_eq
  rw [create_outcome, request_kept]
  simp only [Except.bind]
  cases hc : Builder.create r asked.1 asked.2 with
  | ok b =>
      rw [hc] at hb
      intro schema
      simp only [script, hb, Except.toOption]
  | error e =>
      rw [hc] at hb
      intro schema
      simp only [script, hb, Except.toOption]

/-- Over every run from a successful construction, the generator is explained by the last call whose
database was known and whose connection could be read: it has that call's database and the builder
made for it, or none if none could be made, and writes scripts as a new generator would. A call that
finds its database unsupported changes nothing. -/
theorem explained_by_lastRequest {r : Registry} (hr : r.Complete) {dialect : Value}
    {source : ConnectionSource} {g₀ : Generator}
    (h₀ : (create r dialect source).outcome = .ok g₀) :
    ∃ first, request dialect source = .ok first ∧ ∀ calls : List Call,
      let g := Call.run r g₀ calls
      let asked := Call.lastRequest r g₀ first calls
      g.dialect = asked.1 ∧
      (g.builder = none ↔ ∃ e, Builder.create r asked.1 asked.2 = .error e) ∧
      (∀ b, g.builder = some b ↔ Builder.create r asked.1 asked.2 = .ok b) ∧
      (match (create r (.dialect asked.1) (.kept asked.2)).outcome with
        | .ok fresh => ∀ schema, g.script schema = fresh.script schema
        | .error _ =>
            ∀ schema, g.script schema = Logged.fail (.render (.noBuilder g.dialect))) ∧
      (∀ (call : Call) (v : Value),
        (call.apply r g).result.outcome = .error (.unsupportedDialect v) →
          (call.apply r g).generator = g) := by
  obtain ⟨first, hfirst, hstart⟩ := coherent_create h₀
  refine ⟨first, hfirst, fun calls => ?_⟩
  have hg := Call.coherent_run hstart calls
  refine ⟨hg.dialect_eq, ?_, ?_, script_of_coherent hg, fun call v => Call.apply_unsupported hr⟩
  · rw [hg.builder_eq]
    cases Builder.create r _ _ <;> simp [Except.toOption]
  · intro b'
    rw [hg.builder_eq]
    cases Builder.create r _ _ <;> simp [Except.toOption]

/-- A Firebird generator that is asked for an unknown database and then loses its connection: the
second call explains it, so it has no builder. -/
theorem explained_by_lastRequest_firebird :
    let c : Connection := ⟨.text "DB", [(.text "host", .text "h")]⟩
    let g₀ : Generator :=
      ⟨.firebird, some c,
        some (.specialized (.firebird ⟨.text "h", .text "DB", 3050, .null, .null, true⟩))⟩
    Registry.standard.Complete ∧
      (create .standard (.dialect .firebird) (.kept (some c))).outcome = .ok g₀ ∧
      (Call.run .standard g₀
        [.setDialect (.text "db2"), .edit (fun c => { c with dbName := .null }),
          .setConnection (.given .null)]).builder = none := by
  intro c g₀
  have hr : Registry.standard.Complete := by
    intro d hd
    cases d <;> first | rfl | cases hd
  have h₀ : (create .standard (.dialect .firebird) (.kept (some c))).outcome = .ok g₀ := by
    simp only [c, g₀]
    rfl
  refine ⟨hr, h₀, ?_⟩
  obtain ⟨first, hfirst, h⟩ := explained_by_lastRequest hr h₀
  cases hfirst
  exact (h _).2.1.2 ⟨.connection (.absent .firebird), rfl⟩

end Generator

end TableScript
