import TableScript.Proofs.Client.Port

/-!
# What the checks of a connection come to

Firebird and Cassandra require some fields of a connection and then read its port. Blank fields are
told of before anything is wrong with the port; with all of them there the port decides alone.
`Checked` lists the outcomes, each with the condition under which it occurs.
-/

namespace TableScript.Client

open Decimal Outcome

/-- The outcomes of the checks for a connection, of which `blank` are the blank fields, for a port
that has a default. -/
structure Checked (d : Dialect) (blank : List String) (default : Int) (port : Value)
    (x : Except Failure Int) : Prop where
  /-- Blank fields are told of, whatever the port is. -/
  missing : ∀ names, names ≠ [] →
    ((∃ fault, x = .error (.connection fault) ∧ fault.missingFields = names) ↔ names = blank)
  /-- The port is at fault if it stands for no integer, provided that it can be shown. -/
  refused : blank = [] →
    ((∃ fault, x = .error (.connection fault) ∧ fault.missingFields = []) ↔
      port.isBlank = false ∧ port.Numberless ∧ isInfinite port = false ∧ port.isWritable = true)
  unwritable : blank = [] →
    (x = .error .impossibleValue ↔
      port.isBlank = false ∧ port.Numberless ∧ isInfinite port = false ∧ port.isWritable = false)
  infinite : blank = [] → (x = .error .infiniteNumber ↔ isInfinite port = true)
  answer : blank = [] → ∀ n, x = .ok n ↔ if port.isBlank then n = default else port.StandsFor n

variable {d : Dialect} {default : Int} {port : Value}

theorem checked_missing {names : List String} (h : names ≠ []) :
    Checked d names default port (.error (.connection (.missing d.name names))) where
  missing := by
    intro names' _
    constructor
    · rintro ⟨fault, hfault, rfl⟩
      cases hfault
      rfl
    · rintro rfl
      exact ⟨_, rfl, rfl⟩
  refused hnil := absurd hnil h
  unwritable hnil := absurd hnil h
  infinite hnil := absurd hnil h
  answer hnil := absurd hnil h

theorem checked_port {x : Except Failure Int} (h : PortReading d default port x) :
    Checked d [] default port x := by
  cases h with
  | blank hblank =>
      have hfinite := isInfinite_of_isBlank hblank
      have hdefault : ∀ n, default = n ↔ n = default := fun n => eq_comm
      constructor <;> simp +contextual [hblank, hfinite, hdefault]
  | @number m hblank h =>
      have hfinite := isInfinite_of_standsFor h
      have hnumber : ¬ port.Numberless := fun hnone => hnone m h
      have hunique : ∀ n, port.StandsFor n ↔ m = n :=
        fun n => ⟨standsFor_unique h, fun hn => hn ▸ h⟩
      constructor <;> simp +contextual [hblank, hfinite, hnumber, hunique]
  | infinite h =>
      obtain ⟨hblank, hnone⟩ := numberless_of_isInfinite h
      constructor <;> simp +contextual [h, hblank, hnone _]
  | refused hblank hfinite h hwritable =>
      constructor <;>
        simp +contextual [hblank, hfinite, h, h _, hwritable, ConnectionFault.missingFields]
  | unwritable hblank hfinite h hwritable =>
      constructor <;> simp +contextual [hblank, hfinite, h, h _, hwritable]

theorem missingFields_cons (name : String) (v : Value) (fields : List (String × Value)) :
    missingFields ((name, v) :: fields) =
      (if v.isBlank then [name] else []) ++ missingFields fields := by
  unfold missingFields
  cases h : v.isBlank <;> simp [h]

theorem checked_steps (d : Dialect) (fields : List (String × Value)) (default : Int)
    (port : Value) :
    Checked d (missingFields fields) default port
      (require d fields >>= fun _ => readPort d default port) := by
  cases hrequire : require d fields with
  | ok u =>
      rw [require_eq_ok.1 hrequire]
      exact checked_port (readPort_reading d default port)
  | error e =>
      obtain ⟨hne, rfl⟩ := require_eq_error.1 hrequire
      exact checked_missing hne

/-- The checks for Firebird. -/
theorem port_readFirebird (c : Connection) :
    (readFirebird c).map (·.port) =
      (require .firebird [("host", c.get "host"), ("database", c.dbName)] >>= fun _ =>
        readPort .firebird firebirdPort (c.get "port")) := by
  simp only [readFirebird]
  cases require .firebird [("host", c.get "host"), ("database", c.dbName)] with
  | error e => rfl
  | ok u => cases readPort .firebird firebirdPort (c.get "port") <;> rfl

/-- The checks for Cassandra, when the host can be written. -/
theorem port_readCassandra {c : Connection} (hhost : (c.get "host").isWritable = true) :
    (readCassandra c).map (·.port) =
      (require .cassandra [("host", c.get "host")] >>= fun _ =>
        readPort .cassandra cassandraPort (c.get "port")) := by
  have hcheck : requireWritable [c.get "host"] = .ok () :=
    requireWritable_eq_ok.2 (by simpa using hhost)
  simp only [readCassandra, hcheck]
  cases require .cassandra [("host", c.get "host")] with
  | error e => rfl
  | ok u => cases readPort .cassandra cassandraPort (c.get "port") <;> rfl

/-- A text that holds a written integer is not blank. -/
theorem isBlank_written (front back : List Char) (n : Int) :
    (Value.text (String.ofList (front ++ ((integerText n).toList ++ back)))).isBlank = false := by
  have hdigits : Digits (Nat.toDigits 10 n.natAbs) _ := digits_toDigits n.natAbs
  obtain ⟨c, rest, hrest, _⟩ := hdigits.exists_cons
  have hsolid := hdigits.isBlank c (by rw [hrest]; exact List.mem_cons_self)
  rw [Value.isBlank, Text.isBlankText, String.toList_ofList, toList_integerText, hrest,
    List.all_eq_false]
  exact ⟨c, by simp, by rw [hsolid]; decide⟩

/-- If the host is a text or missing, the checks of Firebird and Cassandra come to what `Checked`
lists. An integer of limited length is the same port whether it is given as such or written between
blanks, unless there is an information separator among these. -/
theorem connection_checked (c : Connection)
    (hhost : c.get "host" = .null ∨ ∃ s, c.get "host" = .text s) :
    let port := c.get "port"
    let blankHost := if (c.get "host").isBlank then ["host"] else []
    let blankName := if c.dbName.isBlank then ["database"] else []
    Checked .firebird (blankHost ++ blankName) 3050 port ((readFirebird c).map (·.port)) ∧
      Checked .cassandra blankHost 9042 port ((readCassandra c).map (·.port)) ∧
      ∀ n : Int, (Nat.toDigits 10 n.natAbs).length ≤ digitLimit →
        (Value.int n).isBlank = false ∧ (∀ m, (Value.int n).StandsFor m ↔ m = n) ∧
        ∀ front back : List Char, (∀ ch ∈ front ++ back, Text.isBlank ch = true) →
          let written : Value := .text (String.ofList (front ++ ((integerText n).toList ++ back)))
          written.isBlank = false ∧
            ∀ m, written.StandsFor m ↔ m = n ∧ ∀ ch ∈ front ++ back, isMargin ch = true := by
  intro port blankHost blankName
  have hwritable : (c.get "host").isWritable = true := by
    rcases hhost with h | ⟨s, h⟩ <;> rw [h] <;> rfl
  have hfirebird : missingFields [("host", c.get "host"), ("database", c.dbName)] =
      blankHost ++ blankName := by
    rw [missingFields_cons, missingFields_cons]
    exact congrArg _ (List.append_nil _)
  have hcassandra : missingFields [("host", c.get "host")] = blankHost := by
    rw [missingFields_cons]
    exact List.append_nil _
  refine ⟨?_, ?_, fun n hn => ⟨rfl, fun m => ?_, fun front back hblank => ⟨?_, fun m => ?_⟩⟩⟩
  · rw [port_readFirebird, ← hfirebird]
    exact checked_steps .firebird _ firebirdPort port
  · rw [port_readCassandra hwritable, ← hcassandra]
    exact checked_steps .cassandra _ cassandraPort port
  · exact ⟨fun h => standsFor_unique h (.int n), fun h => h ▸ .int n⟩
  · exact isBlank_written front back n
  · obtain ⟨hfront, hback⟩ := List.forall_mem_append.1 hblank
    rw [Value.standsFor_text, String.toList_ofList, numeral_between_iff hn hfront hback]

/-- Blank fields are told of although the port is no numeral. With them there, a numeral is read
with its sign, its underscore and the blanks around it. -/
theorem connection_checked_precedence :
    let c : Connection := ⟨.null, [(.text "host", .text " "), (.text "port", .text "x")]⟩
    let c' : Connection := ⟨.text "DB", [(.text "host", .text "h"), (.text "port", .text " +1_0 ")]⟩
    c.get "host" = .text " " ∧ c'.get "host" = .text "h" ∧
      (∃ fault, (readFirebird c).map (·.port) = .error (.connection fault) ∧
        fault.missingFields = ["host", "database"]) ∧
      (readFirebird c').map (·.port) = .ok 10 := by
  intro c c'
  have hhost : c.get "host" = .text " " := rfl
  have hhost' : c'.get "host" = .text "h" := rfl
  have hport : c'.get "port" = .text " +1_0 " := rfl
  have hten : (Value.text " +1_0 ").StandsFor 10 := portNumber?_eq_some.1 (by decide +kernel)
  obtain ⟨hblank, -, -⟩ := connection_checked c (Or.inr ⟨_, hhost⟩)
  obtain ⟨hread, -, -⟩ := connection_checked c' (Or.inr ⟨_, hhost'⟩)
  refine ⟨hhost, hhost', (hblank.missing _ (by simp)).2 (by decide +kernel), ?_⟩
  rw [hread.answer (by decide +kernel), hport, if_neg (by decide +kernel)]
  exact hten

/-- A port that is a list is not refused if it holds an integer too long to be written. -/
theorem unwritable_port_not_refused :
    let port : Value := .list [.int (10 ^ digitLimit : Nat)]
    let c : Connection := ⟨.text "DB", [(.text "host", .text "h"), (.text "port", port)]⟩
    port.Numberless ∧ readFirebird c = .error .impossibleValue := by
  have hnumberless : (Value.list [.int (10 ^ digitLimit : Nat)]).Numberless := by
    intro n h
    cases h
  have hwritable : (Value.list [.int (10 ^ digitLimit : Nat)]).isWritable = false := by
    change ((Value.int (10 ^ digitLimit : Nat)).isWritable && true) = false
    rw [Value.isWritable_tenTo_digitLimit, Bool.false_and]
  have hport : readPort .firebird firebirdPort (.list [.int (10 ^ digitLimit : Nat)]) =
      .error .impossibleValue := by
    have h := readPort_reading .firebird firebirdPort (.list [.int (10 ^ digitLimit : Nat)])
    generalize readPort _ _ _ = x at h ⊢
    cases h with
    | blank hblank => cases hblank
    | number _ h => exact absurd h (hnumberless _)
    | infinite h => cases h
    | refused _ _ _ h => rw [hwritable] at h; cases h
    | unwritable => rfl
  exact ⟨hnumberless, bind_eq_error.2 (Or.inr ⟨(), rfl, bind_eq_error.2 (Or.inl hport)⟩)⟩

end TableScript.Client
