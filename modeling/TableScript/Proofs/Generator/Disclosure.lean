import TableScript.Proofs.Generator.Coherence

/-!
# What a script discloses of a connection

A connection holds addresses, users and passwords, but a script shows at most the name of the
database, and for BigQuery the project. The client keeps the rest to itself: whatever a builder
writes, mends or tells is determined by its imprint, which is its database, its grammar and the
namespace of tables that declare none.
-/

namespace TableScript

open Outcome

/-- The project that the options of a connection name. -/
def Connection.project (c : Connection) : Value :=
  match (Client.bigQueryOptions c).untie with
  | .mapping options => (Entries.getFirst? options ["projectId", "project_id"]).getD .null
  | _ => .null

/-- What scripts for a database may show of a connection. -/
def Connection.disclosed : Dialect → Option Connection → List Value
  | .firebird, some c => [c.dbName]
  | .cassandra, some c => [c.dbName]
  | .bigquery, some c => [c.dbName, c.project]
  | _, _ => []

/-- The namespace that a specialized database takes from what a connection discloses. -/
def Dialect.namespaceOf : Dialect → List Value → Value
  | .cassandra, [name] => name.orElse .null
  | .bigquery, [name, project] => (name.orElse .null).orElse project
  | _, [name] => name
  | _, _ => .null

namespace Client

theorem database_of_readFirebird {c : Connection} {config : FirebirdConfig}
    (h : readFirebird c = .ok config) : config.database = c.dbName := by
  obtain ⟨_, _, h⟩ := bind_eq_ok.1 h
  obtain ⟨_, _, h⟩ := bind_eq_ok.1 h
  cases h
  rfl

theorem keyspace_of_readCassandra {c : Connection} {config : CassandraConfig}
    (h : readCassandra c = .ok config) : config.keyspace = c.dbName.orElse .null :=
  congrArg CassandraConfig.keyspace (config_of_readCassandra h)

theorem projectId_of_readBigQuery {c : Connection} {config : BigQueryConfig}
    (h : readBigQuery c = .ok config) : config.projectId = c.project := by
  unfold readBigQuery at h
  unfold Connection.project
  generalize (bigQueryOptions c).untie = v at h ⊢
  cases v with
  | mapping options =>
      obtain ⟨_, _, h⟩ := bind_eq_ok.1 h
      obtain ⟨_, _, h⟩ := bind_eq_ok.1 h
      cases h
      rfl
  | _ => cases h

/-- The namespace of a client shows nothing else of the connection. -/
theorem namespaceName_of_create {d : Dialect} {c : Option Connection} {client : Client}
    (h : create d c = .ok client) :
    client.namespaceName = d.namespaceOf (Connection.disclosed d c) := by
  rcases read_cases (create_eq_ok.1 h).1 with
    ⟨c, config, rfl, rfl, rfl, hconfig⟩ | ⟨c, config, rfl, rfl, rfl, hconfig⟩ |
      ⟨c, config, rfl, rfl, rfl, hconfig⟩
  · exact database_of_readFirebird hconfig
  · exact keyspace_of_readCassandra hconfig
  · exact congrArg (c.dbName.orElse .null).orElse (projectId_of_readBigQuery hconfig)

end Client

namespace Builder

/-- What the scripts of a builder depend on: its database, its grammar, and for a specialized one
the namespace of tables that declare none. -/
def imprint : Builder → Dialect × Grammar × Option Value
  | generic d g => (d, g, none)
  | specialized client => (client.dialect, client.grammar, some client.namespaceName)

/-- Generic databases do not look at the connection at all. -/
theorem imprint_of_create {r : Registry} {d : Dialect} {c₁ c₂ : Option Connection}
    {b₁ b₂ : Builder} (h₁ : create r d c₁ = .ok b₁) (h₂ : create r d c₂ = .ok b₂)
    (hc : Connection.disclosed d c₁ = Connection.disclosed d c₂) : b₁.imprint = b₂.imprint := by
  unfold create at h₁ h₂
  by_cases hd : d.isGeneric
  · rw [if_pos hd] at h₁ h₂
    rw [h₁] at h₂
    cases h₂
    rfl
  · rw [if_neg hd] at h₁ h₂
    obtain ⟨client₁, hclient₁, rfl⟩ := map_eq_ok.1 h₁
    obtain ⟨client₂, hclient₂, rfl⟩ := map_eq_ok.1 h₂
    have hdialect : client₁.dialect = client₂.dialect := by
      rw [Client.dialect_of_create hclient₁, Client.dialect_of_create hclient₂]
    have hgrammar : client₁.grammar = client₂.grammar := by
      cases client₁ <;> cases client₂ <;> first | rfl | cases hdialect
    have hname : client₁.namespaceName = client₂.namespaceName := by
      rw [Client.namespaceName_of_create hclient₁, Client.namespaceName_of_create hclient₂, hc]
    simp only [imprint, hdialect, hgrammar, hname]

variable {b₁ b₂ : Builder}

theorem imprint_cases (h : b₁.imprint = b₂.imprint) :
    b₁ = b₂ ∨ ∃ client₁ client₂, b₁ = specialized client₁ ∧ b₂ = specialized client₂ ∧
      client₁.dialect = client₂.dialect ∧ client₁.grammar = client₂.grammar ∧
      client₁.namespaceName = client₂.namespaceName := by
  cases b₁ with
  | generic d₁ g₁ =>
      cases b₂ with
      | generic d₂ g₂ =>
          cases h
          exact Or.inl rfl
      | specialized client₂ => cases h
  | specialized client₁ =>
      cases b₂ with
      | generic d₂ g₂ => cases h
      | specialized client₂ =>
          simp only [imprint, Prod.mk.injEq, Option.some.injEq] at h
          exact Or.inr ⟨client₁, client₂, rfl, rfl, h.1, h.2.1, h.2.2⟩

/-- Drafts show no more of a builder than its imprint. -/
theorem draft_of_imprint (h : b₁.imprint = b₂.imprint) (s : Schema) : b₁.draft s = b₂.draft s := by
  rcases imprint_cases h with rfl | ⟨client₁, client₂, rfl, rfl, hdialect, hgrammar, hname⟩
  · rfl
  · have hspace : s.spaceFor (specialized client₁) = s.spaceFor (specialized client₂) := by
      simp only [Schema.spaceFor, hdialect, hname]
    have htable (space : Value) :
        s.toTable (specialized client₁) space = s.toTable (specialized client₂) space := by
      simp only [Schema.toTable, newTable, namespaceName, Builder.dialect, hdialect, hname]
    unfold draft
    rw [hspace]
    simp only [script, Builder.grammar, hgrammar, htable]

/-- The qualifier that is removed from Firebird's scripts is the namespace that was put in. -/
theorem repair_of_imprint (h : b₁.imprint = b₂.imprint) (text : String) :
    b₁.repair text = b₂.repair text := by
  rcases imprint_cases h with rfl | ⟨client₁, client₂, rfl, rfl, hdialect, _, hname⟩
  · rfl
  · cases client₁ with
    | firebird config₁ =>
        cases client₂ with
        | firebird config₂ =>
            have hdatabase : config₁.database = config₂.database := hname
            simp only [repair, hdatabase]
        | cassandra _ | bigquery _ _ => cases hdialect
    | cassandra _ => cases client₂ <;> first | rfl | cases hdialect
    | bigquery _ _ => cases client₂ <;> first | rfl | cases hdialect

end Builder

namespace Generator

/-- A generator that has been configured for a database with a connection: by its construction, or
by a call that succeeded, perhaps followed by changes in place and by calls that could not be
read. -/
inductive ConfiguredFor (r : Registry) (d : Dialect) (c : Option Connection) : Generator → Prop where
  | created {dialect : Value} {source : ConnectionSource} {g : Generator}
      (asked : request dialect source = .ok (d, c)) (h : (create r dialect source).outcome = .ok g) :
      ConfiguredFor r d c g
  | called {dialect : Value} {source : ConnectionSource} {g : Generator} {call : Call}
      (handed : call.handedOver g = some (dialect, source))
      (asked : request dialect source = .ok (d, c))
      (h : (call.apply r g).result.outcome = .ok ()) : ConfiguredFor r d c (call.apply r g).generator
  | later {g : Generator} {call : Call} (before : ConfiguredFor r d c g)
      (unread : call.request? g = none) : ConfiguredFor r d c (call.apply r g).generator

theorem ConfiguredFor.coherent {r : Registry} {d : Dialect} {c : Option Connection} {g : Generator}
    (h : ConfiguredFor r d c g) : Coherent r (d, c) g ∧ ∃ b, Builder.create r d c = .ok b := by
  induction h with
  | created asked h =>
      obtain ⟨first, hfirst, hcoherent⟩ := coherent_create h
      rw [asked] at hfirst
      cases hfirst
      rw [create_outcome, asked] at h
      obtain ⟨_, hasked, h⟩ := bind_eq_ok.1 h
      cases hasked
      obtain ⟨b, hb, _⟩ := map_eq_ok.1 h
      exact ⟨hcoherent, b, hb⟩
  | called handed asked h =>
      rw [Call.apply_eq_configure handed, configure_ok asked] at h ⊢
      rw [assemble_outcome] at h
      obtain ⟨b, hb, _⟩ := map_eq_ok.1 h
      exact ⟨coherent_assemble r (d, c), b, hb⟩
  | @later g call _ unread ih =>
      have hcoherent := Call.coherent_apply ih.1 call
      rw [unread] at hcoherent
      exact ⟨hcoherent, ih.2⟩

theorem ConfiguredFor.exists_builder {r : Registry} {d : Dialect} {c : Option Connection}
    {g : Generator} (h : ConfiguredFor r d c g) :
    ∃ b, Builder.create r d c = .ok b ∧ g.builder = some b := by
  obtain ⟨hcoherent, b, hb⟩ := h.coherent
  exact ⟨b, hb, by rw [hcoherent.builder_eq, hb]; rfl⟩

/-- Two generators for one database, configured with connections that differ in nothing that is
disclosed, write the same scripts, fail alike and tell the same: hosts, ports, users, passwords, key
files and all other settings leave no trace. -/
theorem script_eq_of_disclosed_eq {r : Registry} {d : Dialect} {c₁ c₂ : Option Connection}
    (hc : Connection.disclosed d c₁ = Connection.disclosed d c₂) {g₁ g₂ : Generator}
    (h₁ : ConfiguredFor r d c₁ g₁) (h₂ : ConfiguredFor r d c₂ g₂) (schema : Option Schema) :
    g₁.script schema = g₂.script schema := by
  obtain ⟨b₁, hb₁, hg₁⟩ := h₁.exists_builder
  obtain ⟨b₂, hb₂, hg₂⟩ := h₂.exists_builder
  have himprint := Builder.imprint_of_create hb₁ hb₂ hc
  unfold script
  rw [hg₁, hg₂]
  cases schema with
  | none => rfl
  | some s =>
      simp only [Builder.draft_of_imprint himprint s]
      congr 1
      funext text
      exact Builder.repair_of_imprint himprint text

/-- Two BigQuery connections to one project, of which the second one goes to an emulator with a key
file. -/
theorem script_eq_of_disclosed_eq_bigquery :
    let plain : Connection :=
      ⟨.text "sales", [(.text "bigQueryOptions", .mapping [(.text "projectId", .text "p")])]⟩
    let emulated : Connection :=
      ⟨.text "sales",
        [(.text "bigquery_options",
            .mapping [(.text "project_id", .text "p"), (.text "keyFilename", .text "/k.json")]),
          (.text "host", .text "localhost"), (.text "port", .int 9050),
          (.text "password", .text "secret")]⟩
    Connection.disclosed .bigquery (some plain) = Connection.disclosed .bigquery (some emulated) ∧
      ∃ g₁ g₂, ConfiguredFor .standard .bigquery (some plain) g₁ ∧
        ConfiguredFor .standard .bigquery (some emulated) g₂ ∧
        ∀ schema, g₁.script schema = g₂.script schema := by
  intro plain emulated
  have hc : Connection.disclosed .bigquery (some plain) =
      Connection.disclosed .bigquery (some emulated) := rfl
  have h₁ : ConfiguredFor .standard .bigquery (some plain) _ :=
    @ConfiguredFor.created _ _ _ (.dialect .bigquery) (.kept (some plain)) _ rfl rfl
  have h₂ : ConfiguredFor .standard .bigquery (some emulated) _ :=
    @ConfiguredFor.created _ _ _ (.dialect .bigquery) (.kept (some emulated)) _ rfl rfl
  exact ⟨hc, _, _, h₁, h₂, script_eq_of_disclosed_eq hc h₁ h₂⟩

end Generator

end TableScript
