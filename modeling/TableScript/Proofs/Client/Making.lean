import TableScript.Proofs.Client.Port
import TableScript.Proofs.Generator.Disclosure

/-!
# When a client is made or its connection at fault

The making of a client is settled if it ends with a client or with a fault of the connection. An
infinite port, options that are no mapping, or a value that has to be written but cannot be, end it
by another failure. A connection is regular if none of these is met with.
-/

namespace TableScript

open Outcome

/-- Unless fields are missing, the port is finite, the options are a mapping, and what the client
tells of, refuses or puts into an address can be written. -/
def Connection.Regular (c : Connection) : Dialect → Prop
  | .firebird =>
      (c.get "host").isBlank = false → c.dbName.isBlank = false →
        Client.isInfinite (c.get "port") = false ∧ (c.get "port").isWritable = true ∧
          ((c.get "port").isBlank = true ∨ (∃ n, (c.get "port").StandsFor n) →
            (c.get "host").isWritable = true ∧ c.dbName.isWritable = true)
  | .cassandra =>
      (c.get "host").isBlank = false → (c.get "host").isWritable = true ∧
        Client.isInfinite (c.get "port") = false ∧ (c.get "port").isWritable = true
  | .bigquery =>
      (∃ options, (Client.bigQueryOptions c).untie = .mapping options) ∧
        (c.project.isBlank = false → c.project.isWritable = true ∧
          ((c.get "host").isBlank = false → (c.get "port").isBlank = false →
            (c.get "host").isWritable = true ∧ (c.get "port").isWritable = true))
  | _ => True

namespace Client

variable {α β : Type} {d : Dialect}

/-- An answer, or a fault of the connection. -/
def Settled (x : Except Failure α) : Prop :=
  (∃ a, x = .ok a) ∨ ∃ fault, x = .error (.connection fault)

/-! ## Settled steps -/

theorem settled_ok (a : α) : Settled (.ok a) := Or.inl ⟨a, rfl⟩

theorem settled_fault (fault : ConnectionFault) :
    Settled (.error (.connection fault) : Except Failure α) :=
  Or.inr ⟨fault, rfl⟩

theorem not_settled {e : Failure} (h : ∀ fault, e ≠ .connection fault) :
    ¬ Settled (.error e : Except Failure α) := by
  rintro (⟨a, ha⟩ | ⟨fault, hfault⟩)
  · cases ha
  · cases hfault
    exact h fault rfl

theorem isWritable_of_isBlank {v : Value} (h : v.isBlank = true) : v.isWritable = true := by
  cases v with
  | null => rfl
  | text s => rfl
  | _ => cases h

theorem settled_require {fields : List (String × Value)} {f : Unit → Except Failure β} :
    Settled (require d fields >>= f) ↔ (missingFields fields = [] → Settled (f ())) := by
  by_cases h : missingFields fields = []
  · have hok : require d fields = .ok () := require_eq_ok.2 h
    rw [hok]
    exact ⟨fun hf _ => hf, fun hf => hf h⟩
  · have herror : require d fields = .error _ := require_eq_error.2 ⟨h, rfl⟩
    rw [herror]
    exact ⟨fun _ hnil => absurd hnil h, fun _ => settled_fault _⟩

theorem settled_requireWritable {vs : List Value} {f : Unit → Except Failure β} :
    Settled (requireWritable vs >>= f) ↔ (∀ v ∈ vs, v.isWritable = true) ∧ Settled (f ()) := by
  by_cases h : ∀ v ∈ vs, v.isWritable = true
  · have hok : requireWritable vs = .ok () := requireWritable_eq_ok.2 h
    rw [hok]
    exact ⟨fun hf => ⟨h, hf⟩, fun hf => hf.2⟩
  · have herror : requireWritable vs = .error .impossibleValue :=
      requireWritable_eq_error.2 ⟨by simpa using h, rfl⟩
    rw [herror]
    exact ⟨fun hf => absurd hf (not_settled (by simp)), fun hf => absurd hf.1 h⟩

/-- A step after the port that comes down to the port being writable, and to something that has
nothing to do with the port. -/
theorem settled_readPort {default : Int} {port : Value} {f : Int → Except Failure β} {P : Prop}
    (hdefault : (Value.int default).isWritable = true)
    (hf : ∀ n, Settled (f n) ↔ (Value.int n).isWritable = true ∧ P) :
    Settled (readPort d default port >>= f) ↔
      isInfinite port = false ∧ port.isWritable = true ∧
        (port.isBlank = true ∨ (∃ n, port.StandsFor n) → P) := by
  have h := readPort_reading d default port
  generalize readPort d default port = x at h ⊢
  cases h with
  | blank hblank =>
      have hanswer : Settled ((.ok default : Except Failure Int) >>= f) ↔ P :=
        (hf default).trans (and_iff_right hdefault)
      rw [hanswer]
      simp [hblank, isInfinite_of_isBlank hblank, isWritable_of_isBlank hblank]
  | @number n hblank h =>
      -- what is told is the integer, which can be written exactly when the port can
      have hanswer : Settled ((.ok n : Except Failure Int) >>= f) ↔ port.isWritable = true ∧ P :=
        isWritable_of_standsFor h ▸ hf n
      have hnumber : ∃ n, port.StandsFor n := ⟨n, h⟩
      rw [hanswer]
      simp [hnumber, isInfinite_of_standsFor h]
  | infinite h =>
      have hstop : ¬ Settled ((.error .infiniteNumber : Except Failure Int) >>= f) :=
        not_settled (by simp)
      simp [hstop, h]
  | refused hblank hfinite h hwritable =>
      have hfault : Settled ((.error (.connection (.badPort d port)) : Except Failure Int) >>= f) :=
        settled_fault _
      simp [hfault, hblank, hfinite, hwritable, h _]
  | unwritable hblank hfinite h hwritable =>
      have hstop : ¬ Settled ((.error .impossibleValue : Except Failure Int) >>= f) :=
        not_settled (by simp)
      simp [hstop, hwritable]

/-! ## Settled clients -/

theorem missingFields_eq_nil {fields : List (String × Value)} :
    missingFields fields = [] ↔ ∀ f ∈ fields, f.2.isBlank = false := by
  simp [missingFields]

theorem settled_firebird (c : Connection) :
    Settled (create .firebird (some c)) ↔ c.Regular .firebird := by
  have hcreate : create .firebird (some c) =
      (require .firebird [("host", c.get "host"), ("database", c.dbName)] >>= fun _ =>
        readPort .firebird firebirdPort (c.get "port") >>= fun n =>
          requireWritable [c.get "host", .int n, c.dbName] >>= fun _ => .ok (Client.firebird
            ⟨c.get "host", c.dbName, n, c.get "user", c.get "password", true⟩)) := by
    simp only [create, read, readFirebird]
    cases require .firebird [("host", c.get "host"), ("database", c.dbName)] with
    | error e => rfl
    | ok u => cases readPort .firebird firebirdPort (c.get "port") <;> rfl
  have htold : ∀ (n : Int) (client : Client),
      Settled (requireWritable [c.get "host", .int n, c.dbName] >>= fun _ => .ok client) ↔
        (Value.int n).isWritable = true ∧
          (c.get "host").isWritable = true ∧ c.dbName.isWritable = true := by
    intro n client
    rw [settled_requireWritable]
    simp [settled_ok, and_left_comm]
  rw [hcreate, settled_require, settled_readPort (by decide) fun n => htold n _,
    missingFields_eq_nil]
  simp [Connection.Regular]

theorem settled_cassandra (c : Connection) :
    Settled (create .cassandra (some c)) ↔ c.Regular .cassandra := by
  have hcreate : create .cassandra (some c) =
      (require .cassandra [("host", c.get "host")] >>= fun _ =>
        requireWritable [c.get "host"] >>= fun _ =>
          readPort .cassandra cassandraPort (c.get "port") >>= fun n =>
            requireWritable [.int n] >>= fun _ => .ok (Client.cassandra
              ⟨hosts (c.get "host").written, n, c.dbName.orElse .null, c.get "user",
                c.get "password"⟩)) := by
    simp only [create, read, readCassandra]
    cases require .cassandra [("host", c.get "host")] with
    | error e => rfl
    | ok u =>
        cases requireWritable [c.get "host"] with
        | error e => rfl
        | ok u => cases readPort .cassandra cassandraPort (c.get "port") <;> rfl
  have htold : ∀ (n : Int) (client : Client),
      Settled (requireWritable [.int n] >>= fun _ => .ok client) ↔
        (Value.int n).isWritable = true ∧ True := by
    intro n client
    rw [settled_requireWritable]
    simp [settled_ok]
  rw [hcreate, settled_require, settled_requireWritable,
    settled_readPort (by decide) fun n => htold n _, missingFields_eq_nil]
  simp [Connection.Regular]

theorem settled_readEndpoint {host port : Value} {f : Option String → Except Failure β} {P : Prop}
    (hf : ∀ endpoint, Settled (f endpoint) ↔ P) :
    Settled (readEndpoint host port >>= f) ↔ P ∧
      (host.isBlank = false → port.isBlank = false →
        host.isWritable = true ∧ port.isWritable = true) := by
  by_cases hboth : host.isBlank = false ∧ port.isBlank = false
  · have hread : readEndpoint host port >>= f = (requireWritable [host, port] >>= fun _ =>
        f (some ("http://" ++ host.written ++ ":" ++ port.written))) := by
      simp only [readEndpoint, hboth, Bool.or_self, Bool.false_eq_true, if_false]
      cases requireWritable [host, port] <;> rfl
    rw [hread, settled_requireWritable, hf]
    simp [hboth, and_comm]
  · have hread : readEndpoint host port >>= f = f none := by
      have hor : (host.isBlank || port.isBlank) = true := by
        cases hhost : host.isBlank <;> simp_all
      rw [readEndpoint, if_pos hor]
      rfl
    rw [hread, hf]
    exact (and_iff_left fun hhost hport => absurd ⟨hhost, hport⟩ hboth).symm

theorem settled_bigquery (c : Connection) :
    Settled (create .bigquery (some c)) ↔ c.Regular .bigquery := by
  by_cases hoptions : ∃ options, (bigQueryOptions c).untie = .mapping options
  · obtain ⟨options, hoptions⟩ := hoptions
    have hcreate : create .bigquery (some c) =
        (require .bigquery [("projectId", c.project)] >>= fun _ =>
          readEndpoint (c.get "host") (c.get "port") >>= fun endpoint =>
            requireWritable [c.project] >>= fun _ => .ok (Client.bigquery
              ⟨c.project, (Entries.getFirst? options ["keyFilename", "key_filename"]).getD .null,
                endpoint⟩ (c.dbName.orElse .null))) := by
      simp only [create, read, readBigQuery, Connection.project, hoptions]
      generalize (Entries.getFirst? options ["projectId", "project_id"]).getD .null = project
      cases require .bigquery [("projectId", project)] with
      | error e => rfl
      | ok u => cases readEndpoint (c.get "host") (c.get "port") <;> rfl
    have htold : ∀ client : Client,
        Settled (requireWritable [c.project] >>= fun _ => .ok client) ↔
          c.project.isWritable = true := by
      intro client
      rw [settled_requireWritable]
      simp [settled_ok]
    rw [hcreate, settled_require, settled_readEndpoint fun _ => htold _, missingFields_eq_nil]
    simp [Connection.Regular, hoptions]
  · have hcreate : create .bigquery (some c) = .error .noOperation := by
      simp only [create, read, readBigQuery]
      split
      · exact absurd ⟨_, ‹_›⟩ hoptions
      · rfl
    rw [hcreate, Connection.Regular]
    exact ⟨fun h => absurd h (not_settled (by simp)), fun h => absurd h.1 hoptions⟩

/-- For a specialized database a regular connection gives a client of that database or is at fault,
and it is the other way round too: with any other connection something else fails. -/
theorem made_or_faulted_iff_regular (hd : d.isSpecialized) (c : Connection) :
    ((∃ client, create d (some c) = .ok client ∧ client.dialect = d) ∨
      ∃ fault, create d (some c) = .error (.connection fault)) ↔ c.Regular d := by
  have hmade : (∃ client, create d (some c) = .ok client ∧ client.dialect = d) ↔
      ∃ client, create d (some c) = .ok client :=
    exists_congr fun client => and_iff_left_of_imp dialect_of_create
  rw [hmade]
  cases d with
  | firebird => exact settled_firebird c
  | cassandra => exact settled_cassandra c
  | bigquery => exact settled_bigquery c
  | _ => simp [Dialect.isSpecialized] at hd

/-- One connection for three databases, with a port to be converted and options that are a mapping. -/
theorem made_or_faulted_iff_regular_converted :
    let c : Connection := ⟨.text "D", [(.text "host", .text "h"), (.text "port", .text " 3051 "),
      (.text "bigQueryOptions", .mapping [(.text "projectId", .text "p")])]⟩
    (∀ d ∈ [Dialect.firebird, .cassandra, .bigquery], d.isSpecialized = true ∧ c.Regular d ∧
      ((∃ client, create d (some c) = .ok client ∧ client.dialect = d) ∨
        ∃ fault, create d (some c) = .error (.connection fault))) ∧
      create .firebird (some c) =
        .ok (.firebird ⟨.text "h", .text "D", 3051, .null, .null, true⟩) ∧
      create .bigquery (some c) =
        .ok (.bigquery ⟨.text "p", .null, some "http://h: 3051 "⟩ (.text "D")) := by
  intro c
  have hport : readPort .firebird firebirdPort (c.get "port") = .ok 3051 :=
    eq_ok_of_toOption (by decide +kernel)
  have htold : requireWritable [.text "h", .int 3051, .text "D"] = .ok () :=
    eq_ok_of_toOption (by decide +kernel)
  have hfirebird : create .firebird (some c) =
      .ok (.firebird ⟨.text "h", .text "D", 3051, .null, .null, true⟩) := by
    simp only [create, read, readFirebird, hport]
    exact bind_eq_ok.2 ⟨_, rfl, bind_eq_ok.2 ⟨(), htold, rfl⟩⟩
  refine ⟨fun d hd => ?_, hfirebird, rfl⟩
  have hspecialized : d.isSpecialized = true := by
    simp only [List.mem_cons, List.not_mem_nil, or_false] at hd
    rcases hd with rfl | rfl | rfl <;> rfl
  have hregular : c.Regular d := by
    simp only [List.mem_cons, List.not_mem_nil, or_false] at hd
    rcases hd with rfl | rfl | rfl
    · exact fun _ _ => ⟨rfl, rfl, fun _ => ⟨rfl, rfl⟩⟩
    · exact fun _ => ⟨rfl, rfl, rfl⟩
    · exact ⟨⟨_, rfl⟩, fun _ => ⟨rfl, fun _ _ => ⟨rfl, rfl⟩⟩⟩
  exact ⟨hspecialized, hregular, (made_or_faulted_iff_regular hspecialized c).2 hregular⟩

/-- An infinite port has no integer part, and options that are a number are looked up all the same.
Neither is told as a fault of the connection. -/
theorem infinite_port_or_number_as_options_not_faulted :
    (∀ x : Float, isInfinite (.float x) = true →
      let c : Connection := ⟨.text "D", [(.text "host", .text "h"), (.text "port", .float x)]⟩
      ¬ ((∃ client, create .firebird (some c) = .ok client) ∨
        ∃ fault, create .firebird (some c) = .error (.connection fault))) ∧
      let c : Connection := ⟨.text "ds", [(.text "bigQueryOptions", .int 5)]⟩
      ¬ ((∃ client, create .bigquery (some c) = .ok client) ∨
        ∃ fault, create .bigquery (some c) = .error (.connection fault)) := by
  constructor
  · intro x hx c hsettled
    have hport : c.get "port" = .float x := rfl
    have hregular : c.Regular .firebird := (settled_firebird c).1 hsettled
    have hfinite : isInfinite (c.get "port") = false := (hregular rfl rfl).1
    rw [hport, hx] at hfinite
    cases hfinite
  · intro c
    have hcreate : create .bigquery (some c) = .error .noOperation := rfl
    rw [hcreate]
    exact not_settled (by simp)

end Client

end TableScript
