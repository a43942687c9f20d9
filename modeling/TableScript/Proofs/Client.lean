import TableScript.Client
import TableScript.Proofs.Outcome

/-!
# What becomes of a connection

A client is made from a connection or refused. The refusal is a fault of the connection, an infinite
port, options that cannot be looked up, or a value that cannot be written; no other failure leaves
the reading of a connection. A client that is made belongs to the database that was asked for.
-/

namespace TableScript

/-- The failures of reading a connection for a specialized database. -/
inductive Failure.OfConnection : Failure → Prop where
  | fault (fault : ConnectionFault) : OfConnection (.connection fault)
  | infinitePort : OfConnection .infiniteNumber
  | badOptions : OfConnection .noOperation
  | unwritable : OfConnection .impossibleValue

namespace Client

open Failure (OfConnection)
open Outcome

/-! ## Single checks -/

theorem require_eq_ok {d : Dialect} {fields : List (String × Value)} {u : Unit} :
    require d fields = .ok u ↔ missingFields fields = [] := by
  unfold require
  split
  · simp [*]
  · simp_all

theorem require_eq_error {d : Dialect} {fields : List (String × Value)} {e : Failure} :
    require d fields = .error e ↔ missingFields fields ≠ [] ∧
      e = .connection (.missing d.name (missingFields fields)) := by
  unfold require
  split
  · rename_i h
    simp [h]
  · rename_i hne
    constructor
    · intro h
      cases h
      exact ⟨hne, rfl⟩
    · rintro ⟨-, rfl⟩
      rfl

theorem error_of_require {d : Dialect} {fields : List (String × Value)} {e : Failure}
    (h : require d fields = .error e) : OfConnection e := by
  rw [(require_eq_error.1 h).2]
  exact .fault _

theorem error_of_requireWritable {vs : List Value} {e : Failure}
    (h : requireWritable vs = .error e) : OfConnection e := by
  rw [(requireWritable_eq_error.1 h).2]
  exact .unwritable

theorem error_of_readPort {d : Dialect} {default : Int} {v : Value} {e : Failure}
    (h : readPort d default v = .error e) : OfConnection e := by
  unfold readPort at h
  split at h
  · cases h
  · split at h
    · cases h
      exact .infinitePort
    · split at h
      · cases h
      · rcases bind_eq_error.1 h with h | ⟨_, _, h⟩
        · exact error_of_requireWritable h
        · cases h
          exact .fault _

theorem error_of_readEndpoint {host port : Value} {e : Failure}
    (h : readEndpoint host port = .error e) : OfConnection e := by
  unfold readEndpoint at h
  split at h
  · cases h
  · rcases bind_eq_error.1 h with h | ⟨_, _, h⟩
    · exact error_of_requireWritable h
    · cases h

/-! ## Whole connections -/

theorem error_of_readFirebird {c : Connection} {e : Failure}
    (h : readFirebird c = .error e) : OfConnection e := by
  rcases bind_eq_error.1 h with h | ⟨_, _, h⟩
  · exact error_of_require h
  · rcases bind_eq_error.1 h with h | ⟨_, _, h⟩
    · exact error_of_readPort h
    · cases h

theorem error_of_readCassandra {c : Connection} {e : Failure}
    (h : readCassandra c = .error e) : OfConnection e := by
  rcases bind_eq_error.1 h with h | ⟨_, _, h⟩
  · exact error_of_require h
  · rcases bind_eq_error.1 h with h | ⟨_, _, h⟩
    · exact error_of_requireWritable h
    · rcases bind_eq_error.1 h with h | ⟨_, _, h⟩
      · exact error_of_readPort h
      · cases h

theorem error_of_readBigQuery {c : Connection} {e : Failure}
    (h : readBigQuery c = .error e) : OfConnection e := by
  unfold readBigQuery at h
  split at h
  · rcases bind_eq_error.1 h with h | ⟨_, _, h⟩
    · exact error_of_require h
    · rcases bind_eq_error.1 h with h | ⟨_, _, h⟩
      · exact error_of_readEndpoint h
      · cases h
  · cases h
    exact .badOptions

/-- A configuration holds the settings of the connection, except that its port may be the default. -/
theorem config_of_readCassandra {c : Connection} {config : CassandraConfig}
    (h : readCassandra c = .ok config) :
    config = ⟨hosts (c.get "host").written, config.port, c.dbName.orElse .null, c.get "user",
      c.get "password"⟩ := by
  obtain ⟨_, _, h⟩ := bind_eq_ok.1 h
  obtain ⟨_, _, h⟩ := bind_eq_ok.1 h
  obtain ⟨_, _, h⟩ := bind_eq_ok.1 h
  cases h
  rfl

theorem read_none {d : Dialect} (hd : d.isSpecialized) :
    read d none = .error (.connection (.absent d)) := by
  simp only [read, hd, if_true]

theorem error_of_read {d : Dialect} (hd : d.isSpecialized) {c : Option Connection} {e : Failure}
    (h : read d c = .error e) : OfConnection e := by
  cases c with
  | none =>
      rw [read_none hd] at h
      cases h
      exact .fault _
  | some c =>
      cases d with
      | firebird => exact error_of_readFirebird (map_eq_error.1 h)
      | cassandra => exact error_of_readCassandra (map_eq_error.1 h)
      | bigquery => exact error_of_readBigQuery (map_eq_error.1 h)
      | _ => simp [Dialect.isSpecialized] at hd

/-- A client is made if its connection can be read and what it tells of can be written. -/
theorem create_eq_ok {d : Dialect} {c : Option Connection} {client : Client} :
    create d c = .ok client ↔
      read d c = .ok client ∧ ∀ v ∈ client.told, v.isWritable = true := by
  unfold create
  constructor
  · intro h
    obtain ⟨client', hread, h⟩ := bind_eq_ok.1 h
    obtain ⟨_, hwritable, h⟩ := bind_eq_ok.1 h
    cases h
    exact ⟨hread, requireWritable_eq_ok.1 hwritable⟩
  · rintro ⟨hread, hwritable⟩
    exact bind_eq_ok.2 ⟨client, hread, bind_eq_ok.2 ⟨(), requireWritable_eq_ok.2 hwritable, rfl⟩⟩

theorem create_eq_error {d : Dialect} {c : Option Connection} {e : Failure} :
    create d c = .error e ↔ read d c = .error e ∨
      ∃ client, read d c = .ok client ∧ (∃ v ∈ client.told, v.isWritable = false) ∧
        e = .impossibleValue := by
  unfold create
  constructor
  · intro h
    rcases bind_eq_error.1 h with h | ⟨client, hread, h⟩
    · exact Or.inl h
    · rcases bind_eq_error.1 h with h | ⟨_, _, h⟩
      · exact Or.inr ⟨client, hread, requireWritable_eq_error.1 h⟩
      · cases h
  · rintro (h | ⟨client, hread, h⟩)
    · exact bind_eq_error.2 (Or.inl h)
    · exact bind_eq_error.2
        (Or.inr ⟨client, hread, bind_eq_error.2 (Or.inl (requireWritable_eq_error.2 h))⟩)

/-- A specialized database refuses a connection for what is in it, and for nothing else. -/
theorem error_of_create {d : Dialect} (hd : d.isSpecialized) {c : Option Connection} {e : Failure}
    (h : create d c = .error e) : OfConnection e := by
  rcases create_eq_error.1 h with h | ⟨_, _, _, rfl⟩
  · exact error_of_read hd h
  · exact .unwritable

/-- A client is read for a specialized database, from a connection that is there. -/
theorem read_cases {d : Dialect} {c : Option Connection} {client : Client}
    (h : read d c = .ok client) :
    (∃ c' config, d = .firebird ∧ c = some c' ∧ client = .firebird config ∧
        readFirebird c' = .ok config) ∨
      (∃ c' config, d = .cassandra ∧ c = some c' ∧ client = .cassandra config ∧
        readCassandra c' = .ok config) ∨
      ∃ c' config, d = .bigquery ∧ c = some c' ∧
        client = .bigquery config (c'.dbName.orElse .null) ∧ readBigQuery c' = .ok config := by
  cases c with
  | none => cases d <;> simp [read, Dialect.isSpecialized] at h
  | some c =>
      cases d with
      | firebird =>
          obtain ⟨config, hconfig, rfl⟩ := map_eq_ok.1 h
          exact Or.inl ⟨c, config, rfl, rfl, rfl, hconfig⟩
      | cassandra =>
          obtain ⟨config, hconfig, rfl⟩ := map_eq_ok.1 h
          exact Or.inr (Or.inl ⟨c, config, rfl, rfl, rfl, hconfig⟩)
      | bigquery =>
          obtain ⟨config, hconfig, rfl⟩ := map_eq_ok.1 h
          exact Or.inr (Or.inr ⟨c, config, rfl, rfl, rfl, hconfig⟩)
      | _ => simp [read, Dialect.isSpecialized] at h

/-- A client is one of the database that was asked for. -/
theorem dialect_of_create {d : Dialect} {c : Option Connection} {client : Client}
    (h : create d c = .ok client) : client.dialect = d := by
  rcases read_cases (create_eq_ok.1 h).1 with
    ⟨_, _, rfl, _, rfl, _⟩ | ⟨_, _, rfl, _, rfl, _⟩ | ⟨_, _, rfl, _, rfl, _⟩ <;> rfl

end Client

end TableScript
