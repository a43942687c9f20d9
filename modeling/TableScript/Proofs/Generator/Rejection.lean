import TableScript.Proofs.Generator.Coherence

/-!
# What a rejected connection leaves behind

A configuration whose connection is rejected leaves one of two things behind. A connection that can
be read but does not suffice takes the builder away, and nothing is written until a configuration
succeeds. A connection that cannot be read changes nothing, so a generator that had a builder keeps
writing with it.
-/

namespace TableScript

namespace Call

/-- No configuration of the run succeeds. Changes in place may be among the calls. -/
def NoneSucceeds (r : Registry) (g : Generator) : List Call → Prop
  | [] => True
  | call :: rest =>
      ((call.handedOver g).isSome → ∃ e, (call.apply r g).result.outcome = .error e) ∧
        NoneSucceeds r (call.apply r g).generator rest

end Call

namespace Generator

open Outcome

theorem request_eq_ok {dialect : Value} {source : ConnectionSource} {asked : Request} :
    request dialect source = .ok asked ↔
      Dialect.ofValue dialect = .ok asked.1 ∧ source.read = .ok asked.2 := by
  constructor
  · intro h
    obtain ⟨d, hd, h⟩ := bind_eq_ok.1 h
    obtain ⟨c, hc, h⟩ := bind_eq_ok.1 h
    cases h
    exact ⟨hd, hc⟩
  · rintro ⟨hd, hc⟩
    exact bind_eq_ok.2 ⟨asked.1, hd, bind_eq_ok.2 ⟨asked.2, hc, rfl⟩⟩

/-- The name of an unknown database is no fault of the connection. -/
theorem ofValue_ne_connection (dialect : Value) (fault : ConnectionFault) :
    Dialect.ofValue dialect ≠ .error (.connection fault) := by
  intro h
  have he := Dialect.ofValue_error h
  split at he <;> cases he

/-- A request that fails for the connection fails because the connection cannot be read. -/
theorem read_of_request_error {dialect : Value} {source : ConnectionSource}
    {fault : ConnectionFault} (h : request dialect source = .error (.connection fault)) :
    source.read = .error (.connection fault) := by
  rcases bind_eq_error.1 h with h | ⟨d, _, h⟩
  · exact absurd h (ofValue_ne_connection dialect fault)
  · rcases bind_eq_error.1 h with h | ⟨c, _, h⟩
    · exact h
    · cases h

/-- A configuration that fails either could not be read and changes nothing, or has the new values
and no builder. -/
theorem configure_fails {r : Registry} {g : Generator} {dialect : Value}
    {source : ConnectionSource} {e : Failure}
    (h : (g.configure r dialect source).result.outcome = .error e) :
    (request dialect source = .error e ∧ (g.configure r dialect source).generator = g) ∨
      ∃ asked, request dialect source = .ok asked ∧
        (g.configure r dialect source).generator = ⟨asked.1, asked.2, none⟩ := by
  cases hreq : request dialect source with
  | error e' =>
      rw [configure_error hreq] at h
      cases h
      exact Or.inl ⟨rfl, by rw [configure_error hreq]⟩
  | ok asked =>
      rw [configure_ok hreq, assemble_outcome] at h
      have hb := map_eq_error.1 h
      refine Or.inr ⟨asked, rfl, ?_⟩
      rw [configure_ok hreq, assemble_generator, hb]
      rfl

/-! ## Runs without a builder -/

theorem builder_of_failing_call {r : Registry} {g : Generator} (hg : g.builder = none) (call : Call)
    (h : (call.handedOver g).isSome → ∃ e, (call.apply r g).result.outcome = .error e) :
    (call.apply r g).generator.builder = none := by
  cases hcall : call.handedOver g with
  | none =>
      cases call with
      | edit change => exact hg
      | configure _ _ | setDialect _ | setConnection _ => cases hcall
  | some handed =>
      obtain ⟨dialect, source⟩ := handed
      obtain ⟨e, he⟩ := h (by rw [hcall]; rfl)
      rw [Call.apply_eq_configure hcall] at he ⊢
      rcases configure_fails he with ⟨_, hsame⟩ | ⟨asked, _, hnew⟩
      · rw [hsame, hg]
      · rw [hnew]

/-- A generator without a builder gets none before a configuration succeeds. -/
theorem builder_of_noneSucceeds {r : Registry} {g : Generator} (hg : g.builder = none)
    {calls : List Call} (h : Call.NoneSucceeds r g calls) :
    (Call.run r g calls).builder = none := by
  induction calls generalizing g with
  | nil => exact hg
  | cons call rest ih =>
      rw [Call.run_cons]
      exact ih (builder_of_failing_call hg call h.1) h.2

theorem isConfigured_eq_false {g : Generator} : g.isConfigured = false ↔ g.builder = none := by
  unfold isConfigured
  cases g.builder <;> simp

theorem script_of_builder_none {g : Generator} (hg : g.builder = none) (schema : Option Schema) :
    g.script schema = Logged.fail (.render (.noBuilder g.dialect)) := by
  simp only [script, hg]

/-- A configuration is rejected for its connection. The generator is then without a builder exactly
if the connection could be read or there was no builder before: it has the new values in the first
case and is unchanged in the other. Without a builder it writes no script for any schema as long as
no configuration succeeds. -/
theorem unconfigured_after_rejection_iff {r : Registry} {g : Generator} {call : Call}
    {dialect : Value} {source : ConnectionSource}
    (hcall : call.handedOver g = some (dialect, source)) {fault : ConnectionFault}
    (h : (call.apply r g).result.outcome = .error (.connection fault)) :
    let g' := (call.apply r g).generator
    (g'.isConfigured = false ↔ (∃ c, source.read = .ok c) ∨ g.isConfigured = false) ∧
      ((∃ d c, Dialect.ofValue dialect = .ok d ∧ source.read = .ok c ∧ g' = ⟨d, c, none⟩) ∨
        source.read = .error (.connection fault) ∧ g' = g) ∧
      (g'.isConfigured = false → ∀ calls, Call.NoneSucceeds r g' calls →
        (Call.run r g' calls).isConfigured = false ∧
          ∀ schema, (Call.run r g' calls).script schema =
            Logged.fail (.render (.noBuilder (Call.run r g' calls).dialect))) := by
  intro g'
  have hg' : g' = (g.configure r dialect source).generator := by
    simp only [g', Call.apply_eq_configure hcall]
  rw [Call.apply_eq_configure hcall] at h
  have hlater : g'.isConfigured = false → ∀ calls, Call.NoneSucceeds r g' calls →
      (Call.run r g' calls).isConfigured = false ∧
        ∀ schema, (Call.run r g' calls).script schema =
          Logged.fail (.render (.noBuilder (Call.run r g' calls).dialect)) := by
    intro hnone calls hcalls
    have hb := builder_of_noneSucceeds (isConfigured_eq_false.1 hnone) hcalls
    exact ⟨isConfigured_eq_false.2 hb, script_of_builder_none hb⟩
  rcases configure_fails h with ⟨hreq, hsame⟩ | ⟨asked, hreq, hnew⟩
  · have hread := read_of_request_error hreq
    rw [← hg'] at hsame
    refine ⟨?_, Or.inr ⟨hread, hsame⟩, hlater⟩
    rw [hsame, hread]
    simp
  · obtain ⟨hd, hc⟩ := request_eq_ok.1 hreq
    rw [← hg'] at hnew
    refine ⟨?_, Or.inl ⟨asked.1, asked.2, hd, hc, hnew⟩, hlater⟩
    rw [hnew, hc]
    simp [isConfigured]

/-- A Cassandra generator whose connection loses its host is left without a builder, and an unknown
database after that does not bring it back. -/
theorem unconfigured_after_rejection_cassandra :
    let g : Generator :=
      ⟨.cassandra, some ⟨.text "ks", [(.text "host", .text "h")]⟩,
        some (.specialized (.cassandra ⟨["h"], 9042, .text "ks", .null, .null⟩))⟩
    let call : Call := .setConnection (.given (.mapping [(.text "dbName", .text "other")]))
    let later : List Call := [.setDialect (.text "db2"), .edit fun c => { c with dbName := .null }]
    (call.apply .standard g).result.outcome =
        .error (.connection (.missing "cassandra" ["host"])) ∧
      ∀ schema, (Call.run .standard (call.apply .standard g).generator later).script schema =
        Logged.fail (.render (.noBuilder .cassandra)) := by
  intro g call later
  have h : (call.apply .standard g).result.outcome =
      .error (.connection (.missing "cassandra" ["host"])) := rfl
  have hlater : Call.NoneSucceeds .standard (call.apply .standard g).generator later :=
    ⟨fun _ => ⟨.unsupportedDialect (.text "db2"), rfl⟩, fun h => (by cases h), trivial⟩
  obtain ⟨hiff, _, hrun⟩ := @unconfigured_after_rejection_iff _ g call _ _ rfl _ h
  exact ⟨h, (hrun (hiff.2 (Or.inl ⟨_, rfl⟩)) later hlater).2⟩

/-- Settings that are no mapping are rejected as a connection, and the script of the next schema is
written with the builder of the connection before. -/
theorem configured_after_rejection_cassandra :
    let before : Value :=
      .mapping [(.text "dbName", .text "ks"),
        (.text "dbConfig", .mapping [(.text "host", .text "h")])]
    let call : Call :=
      .setConnection (.given (.mapping [(.text "dbName", .text "other"), (.text "dbConfig", .int 5)]))
    let s : Schema := ⟨.text "t", .null, [⟨.text "a", .text "int", false, false, false, .null, .null⟩]⟩
    ∃ g, (create .standard (.text "cassandra") (.given before)).outcome = .ok g ∧
      g.dialect.isSpecialized = true ∧
      (call.apply .standard g).result.outcome = .error (.connection (.badSettings (.int 5))) ∧
      (call.apply .standard g).generator.isConfigured = true ∧
      ((call.apply .standard g).generator.script (some s)).outcome =
        .ok "create table \"ks\".\"t\" (\"a\" int not null)" :=
  ⟨_, rfl, rfl, rfl, rfl, rfl⟩

end Generator

end TableScript
