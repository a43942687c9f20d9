import TableScript.Proofs.Generator.Coherence
import TableScript.Proofs.Spelling

/-!
# Documents in another spelling

A connection is read from mappings within mappings, a schema from the mappings of its columns. On
every level each key may be spelled in either way, on its own, as long as no mapping has it in both
spellings. A generator made from a respelled connection has the same builder, and writes the same
script for a respelled schema; where one fails, so does the other, with the same failure and the
same notices.
-/

namespace TableScript

open Outcome Entries

namespace Value

/-- Two mappings of which one respells the other, with values that are related as their keys ask. -/
def Respells (R : String → Value → Value → Prop) (v w : Value) : Prop :=
  ∃ es fs, v.untie = .mapping es ∧ w.untie = .mapping fs ∧ Respelled R es fs

/-! What is read of each level agrees; the rest may be anything. -/

def OptionsAgree (key : String) (x y : Value) : Prop :=
  key ∈ ["projectId", "keyFilename"] → x = y

def SettingsAgree (key : String) (x y : Value) : Prop :=
  (key ∈ ["host", "port", "user", "password"] → x = y) ∧
    (key = "bigQueryOptions" → x = y ∨ Respells OptionsAgree x y)

def ConnectionAgree (key : String) (x y : Value) : Prop :=
  (key = "dbName" → x = y) ∧ (key = "dbConfig" → x = y ∨ Respells SettingsAgree x y)

def ColumnAgree (key : String) (x y : Value) : Prop :=
  key ∈ ["columnName", "dataType", "nullable", "primaryKey", "unsigned", "defaultValue",
    "comment"] → x = y

def SchemaAgree (key : String) (x y : Value) : Prop :=
  (key ∈ ["name", "schema"] → x = y) ∧
    (key = "columns" → x = y ∨ ∃ cs ds, x = .list cs ∧ y = .list ds ∧
      List.Forall₂ (fun c d => ∃ es fs, c = .mapping es ∧ d = .mapping fs ∧
        Respelled ColumnAgree es fs) cs ds)

theorem truthy_of_untie {v : Value} {es : Entries} (h : v.untie = .mapping es) :
    v.truthy = !es.isEmpty := by
  cases v with
  | mapping es' =>
      cases h
      rfl
  | knot label body =>
      rw [untie] at h
      cases body with
      | mapping es' =>
          -- untying changes the values but neither the number nor the keys of the entries
          rw [bind] at h
          cases h
          cases es' <;> rfl
      | again l isMapping =>
          rw [bind] at h
          split at h <;> cases h
      | _ => cases h
  | _ => cases h

end Value

open Value

variable {R : String → Value → Value → Prop} {es fs : Entries}

theorem Entries.Respelled.getFirst?_eq (h : Respelled R es fs) (key : String) {keys : List String}
    (hkeys : AreSpellings key keys) (hR : ∀ x y, R key x y → x = y) :
    es.getFirst? keys = fs.getFirst? keys := by
  have hrel := h.getFirst? hkeys
  generalize es.getFirst? keys = x, fs.getFirst? keys = y at hrel ⊢
  cases hrel with
  | none => rfl
  | some hxy => rw [hR _ _ hxy]

/-! ## Connections -/

namespace Connection

/-- Connections of which the same is read. -/
def Alike (c c' : Connection) : Prop :=
  c.dbName = c'.dbName ∧
    (c.settings = c'.settings ∨ Respelled SettingsAgree c.settings c'.settings)

theorem readSettings_of_untie {v : Value} (h : v.untie = .mapping es) :
    readSettings v = .ok es := by
  have htruthy := truthy_of_untie h
  unfold readSettings
  cases es with
  | nil => rw [htruthy]; rfl
  | cons e es => rw [htruthy, h]; rfl

theorem ofOptional_of_untie {v : Value} (h : v.untie = .mapping es) :
    ofOptional v = (ofEntries es).map some := by
  simp only [ofOptional, h]

theorem ofEntries_respelled (h : Respelled ConnectionAgree es fs) :
    (∃ e, ofEntries es = .error e ∧ ofEntries fs = .error e) ∨
      ∃ c c', ofEntries es = .ok c ∧ ofEntries fs = .ok c' ∧ c.Alike c' := by
  have hname : es.getFirst? ["db_name", "dbName"] = fs.getFirst? ["db_name", "dbName"] :=
    h.getFirst?_eq "dbName" (by decide +kernel) fun x y hxy => hxy.1 rfl
  have hsettings : Option.Rel (ConnectionAgree "dbConfig") (es.getFirst? ["db_config", "dbConfig"])
      (fs.getFirst? ["db_config", "dbConfig"]) := h.getFirst? (by decide +kernel)
  unfold ofEntries
  rw [hname]
  generalize es.getFirst? ["db_config", "dbConfig"] = x,
    fs.getFirst? ["db_config", "dbConfig"] = y at hsettings ⊢
  cases hsettings with
  | none => exact Or.inr ⟨_, _, rfl, rfl, rfl, Or.inl rfl⟩
  | @some x y hxy =>
      simp only [Option.getD_some]
      rcases hxy.2 rfl with rfl | ⟨ss, ts, hx, hy, hrespelled⟩
      · cases hread : readSettings x with
        | error e => exact Or.inl ⟨e, rfl, rfl⟩
        | ok ss => exact Or.inr ⟨_, _, rfl, rfl, rfl, Or.inl rfl⟩
      · rw [readSettings_of_untie hx, readSettings_of_untie hy]
        exact Or.inr ⟨_, _, rfl, rfl, rfl, Or.inr hrespelled⟩

end Connection

namespace Client

open Connection (Alike)

variable {c c' : Connection}

theorem get_of_alike (h : c.Alike c') {key : String}
    (hkey : key ∈ ["host", "port", "user", "password"]) : c.get key = c'.get key := by
  obtain ⟨-, hsettings | hsettings⟩ := h
  · rw [Connection.get, Connection.get, hsettings]
  · have hkeys : ∀ key ∈ ["host", "port", "user", "password"], AreSpellings key [key] := by
      decide +kernel
    have hfirst := hsettings.getFirst?_eq key (hkeys key hkey) fun x y hxy => hxy.1 hkey
    rw [getFirst?_singleton, getFirst?_singleton] at hfirst
    rw [Connection.get, Connection.get, Entries.get, Entries.get, hfirst]

/-- Without a second spelling it does not matter that an empty value gives way to it. -/
theorem bigQueryOptions_eq (h : c.settings.OneSpelling) :
    bigQueryOptions c =
      ((c.settings.getFirst? ["bigQueryOptions", "bigquery_options"]).getD .null).orElse
        (.mapping []) := by
  simp only [bigQueryOptions, Connection.get, Entries.get, getFirst?, List.findSome?_cons,
    List.findSome?_nil]
  cases hget : Entries.get? c.settings "bigQueryOptions" with
  | none => cases Entries.get? c.settings "bigquery_options" <;> rfl
  | some x =>
      have hnone := h.get?_eq_none hget
        (by decide +kernel : camelCase "bigQueryOptions" = camelCase "bigquery_options") (by decide)
      rw [hnone]
      simp only [Option.getD_some, Option.getD_none, orElse]
      cases hx : x.truthy with
      | true => simp [hx]
      | false => rfl

theorem bigQueryOptions_of_alike (h : c.Alike c') :
    bigQueryOptions c = bigQueryOptions c' ∨
      Respells OptionsAgree (bigQueryOptions c) (bigQueryOptions c') := by
  obtain ⟨-, hsettings | hsettings⟩ := h
  · left
    rw [bigQueryOptions, bigQueryOptions, Connection.get, Connection.get, Connection.get,
      Connection.get, hsettings]
  · have hrel := hsettings.getFirst? (by decide +kernel :
      AreSpellings "bigQueryOptions" ["bigQueryOptions", "bigquery_options"])
    rw [bigQueryOptions_eq hsettings.left, bigQueryOptions_eq hsettings.right]
    generalize Entries.getFirst? c.settings _ = x, Entries.getFirst? c'.settings _ = y at hrel ⊢
    cases hrel with
    | none => exact Or.inl rfl
    | @some x y hxy =>
        rcases hxy.2 rfl with rfl | hrespells
        · exact Or.inl rfl
        · obtain ⟨es, fs, hx, hy, hrespelled⟩ := hrespells
          -- empty options give way to the default on both sides or on neither
          have hempty : es.isEmpty = fs.isEmpty := by
            cases hrespelled.entries <;> rfl
          simp only [Option.getD_some, orElse, truthy_of_untie hx, truthy_of_untie hy, hempty]
          cases fs.isEmpty with
          | true => exact Or.inl rfl
          | false => exact Or.inr ⟨es, fs, hx, hy, hrespelled⟩

theorem readBigQuery_of_alike (h : c.Alike c') : readBigQuery c = readBigQuery c' := by
  have hhost : c.get "host" = c'.get "host" := get_of_alike h (by simp)
  have hport : c.get "port" = c'.get "port" := get_of_alike h (by simp)
  unfold readBigQuery
  rw [hhost, hport]
  rcases bigQueryOptions_of_alike h with hoptions | ⟨es, fs, hes, hfs, hrespelled⟩
  · rw [hoptions]
  · have hproject : Entries.getFirst? es ["projectId", "project_id"] =
        Entries.getFirst? fs ["projectId", "project_id"] :=
      hrespelled.getFirst?_eq "projectId" (by decide +kernel) fun x y hxy => hxy (by simp)
    have hkey : Entries.getFirst? es ["keyFilename", "key_filename"] =
        Entries.getFirst? fs ["keyFilename", "key_filename"] :=
      hrespelled.getFirst?_eq "keyFilename" (by decide +kernel) fun x y hxy => hxy (by simp)
    simp only [hes, hfs, hproject, hkey]

theorem create_of_alike (h : c.Alike c') (d : Dialect) :
    create d (some c) = create d (some c') := by
  have hget : ∀ key ∈ ["host", "port", "user", "password"], c.get key = c'.get key :=
    fun key hkey => get_of_alike h hkey
  have hread : read d (some c) = read d (some c') := by
    cases d with
    | firebird =>
        simp only [read, readFirebird, h.1, hget "host" (by simp), hget "port" (by simp),
          hget "user" (by simp), hget "password" (by simp)]
    | cassandra =>
        simp only [read, readCassandra, h.1, hget "host" (by simp), hget "port" (by simp),
          hget "user" (by simp), hget "password" (by simp)]
    | bigquery => simp only [read, readBigQuery_of_alike h, h.1]
    | _ => rfl
  rw [create, create, hread]

end Client

/-! ## Schemas -/

theorem SchemaColumn.ofEntries_respelled (h : Respelled ColumnAgree es fs) :
    ofEntries es = ofEntries fs := by
  have hpick : ∀ key keys, AreSpellings key keys → key ∈ ["columnName", "dataType", "nullable",
      "primaryKey", "unsigned", "defaultValue", "comment"] →
      es.getFirst? keys = fs.getFirst? keys :=
    fun key keys hkeys hkey => h.getFirst?_eq key hkeys fun x y hxy => hxy hkey
  simp only [ofEntries,
    hpick "columnName" ["column_name", "columnName"] (by decide +kernel) (by simp),
    hpick "dataType" ["data_type", "dataType"] (by decide +kernel) (by simp),
    hpick "nullable" ["nullable"] (by decide +kernel) (by simp),
    hpick "primaryKey" ["primary_key", "primaryKey"] (by decide +kernel) (by simp),
    hpick "unsigned" ["unsigned"] (by decide +kernel) (by simp),
    hpick "defaultValue" ["default_value", "defaultValue"] (by decide +kernel) (by simp),
    hpick "comment" ["comment"] (by decide +kernel) (by simp)]

theorem SchemaColumn.mapM_respelled {cs ds : List Value}
    (h : List.Forall₂ (fun c d => ∃ es fs, c = .mapping es ∧ d = .mapping fs ∧
      Respelled ColumnAgree es fs) cs ds) : cs.mapM ofValue = ds.mapM ofValue := by
  induction h with
  | nil => rfl
  | cons hcolumn _ ih =>
      obtain ⟨es, fs, rfl, rfl, hrespelled⟩ := hcolumn
      have hvalue : ofValue (.mapping es) = ofValue (.mapping fs) :=
        congrArg Except.ok (ofEntries_respelled hrespelled)
      rw [List.mapM_cons, List.mapM_cons, hvalue, ih]

theorem Schema.ofValue_respelled (h : Respelled SchemaAgree es fs) :
    ofValue (.mapping es) = ofValue (.mapping fs) := by
  have hname : Entries.get? es "name" = Entries.get? fs "name" := by
    rw [← getFirst?_singleton, ← getFirst?_singleton]
    exact h.getFirst?_eq "name" (by decide +kernel) fun x y hxy => hxy.1 (by simp)
  have hspace : Entries.get? es "schema" = Entries.get? fs "schema" := by
    rw [← getFirst?_singleton, ← getFirst?_singleton]
    exact h.getFirst?_eq "schema" (by decide +kernel) fun x y hxy => hxy.1 (by simp)
  have hcolumns : Option.Rel (SchemaAgree "columns") (Entries.get? es "columns")
      (Entries.get? fs "columns") := by
    rw [← getFirst?_singleton, ← getFirst?_singleton]
    exact h.getFirst? (by decide +kernel)
  simp only [ofValue, Entries.get, hname, hspace]
  generalize Entries.get? es "columns" = x, Entries.get? fs "columns" = y at hcolumns ⊢
  cases hcolumns with
  | none => rfl
  | @some x y hxy =>
      rcases hxy.2 rfl with rfl | ⟨cs, ds, rfl, rfl, hrespelled⟩
      · rfl
      · simp only [Option.getD_some, members?, SchemaColumn.mapM_respelled hrespelled]

/-! ## Generators -/

namespace Generator

variable {v w : Value}

theorem create_of_request {r : Registry} {dialect : Value} {source : ConnectionSource}
    {d : Dialect} {c : Option Connection} (h : request dialect source = .ok (d, c)) :
    create r dialect source =
      ((assemble r d c).result >>= fun _ => Logged.answer (assemble r d c).generator) := by
  unfold create
  rw [h]
  rfl

/-- A connection that is read in the same way makes the same builder or the same failure. -/
theorem assemble_of_alike {c c' : Connection} (h : c.Alike c') (r : Registry) (d : Dialect) :
    (assemble r d (some c)).result = (assemble r d (some c')).result ∧
      (assemble r d (some c)).generator.builder = (assemble r d (some c')).generator.builder := by
  have hbuilder : Builder.create r d (some c) = Builder.create r d (some c') := by
    rw [Builder.create, Builder.create, Client.create_of_alike h]
  constructor
  · unfold assemble
    rw [hbuilder]
    cases Builder.create r d (some c') with
    | ok b => rfl
    | error e => cases e <;> rfl
  · rw [assemble_generator, assemble_generator, hbuilder]

theorem request_respelled (h : Respells ConnectionAgree v w) (dialect : Value) :
    (∃ e, request dialect (.given v) = .error e ∧ request dialect (.given w) = .error e) ∨
      ∃ d c c', request dialect (.given v) = .ok (d, some c) ∧
        request dialect (.given w) = .ok (d, some c') ∧ c.Alike c' := by
  obtain ⟨es, fs, hv, hw, hrespelled⟩ := h
  simp only [request, ConnectionSource.read, Connection.ofOptional_of_untie hv,
    Connection.ofOptional_of_untie hw]
  cases Dialect.ofValue dialect with
  | error e => exact Or.inl ⟨e, rfl, rfl⟩
  | ok d =>
      rcases Connection.ofEntries_respelled hrespelled with
        ⟨e, hes, hfs⟩ | ⟨c, c', hes, hfs, halike⟩
      · rw [hes, hfs]
        exact Or.inl ⟨e, rfl, rfl⟩
      · rw [hes, hfs]
        exact Or.inr ⟨d, c, c', rfl, rfl, halike⟩

/-- A generator made from a respelled connection fails in the same way, or has the same builder. -/
theorem create_respelled (h : Respells ConnectionAgree v w) (r : Registry) (dialect : Value) :
    (∃ notices e, create r dialect (.given v) = ⟨notices, .error e⟩ ∧
        create r dialect (.given w) = ⟨notices, .error e⟩) ∨
      ∃ notices g g', create r dialect (.given v) = ⟨notices, .ok g⟩ ∧
        create r dialect (.given w) = ⟨notices, .ok g'⟩ ∧
        g.dialect = g'.dialect ∧ g.builder = g'.builder := by
  rcases request_respelled h dialect with ⟨e, hv, hw⟩ | ⟨d, c, c', hv, hw, halike⟩
  · left
    refine ⟨[], e, ?_, ?_⟩
    · rw [create, hv]
      rfl
    · rw [create, hw]
      rfl
  · obtain ⟨hresult, hbuilder⟩ := assemble_of_alike halike r d
    rw [create_of_request hv, create_of_request hw, hresult]
    obtain ⟨notices, outcome⟩ := (assemble r d (some c')).result
    cases outcome with
    | error e => exact Or.inl ⟨notices, e, rfl, rfl⟩
    | ok u =>
        refine Or.inr ⟨notices ++ [], _, _, rfl, rfl, ?_, hbuilder⟩
        rw [assemble_generator, assemble_generator]

/-- The spelling of keys does not matter: a respelled connection gives the same builder, and with a
respelled schema the same script, or else the same failure. -/
theorem script_respelled (hconnection : Respells ConnectionAgree v w)
    (hschema : Respelled SchemaAgree es fs) (r : Registry) (dialect : Value) :
    ((fun g => (g.dialect, g.builder)) <$> create r dialect (.given v)) =
        ((fun g => (g.dialect, g.builder)) <$> create r dialect (.given w)) ∧
      (do
        let g ← create r dialect (.given v)
        let s ← Logged.lift (Schema.ofValue (.mapping es))
        g.script (some s)) =
      (do
        let g ← create r dialect (.given w)
        let s ← Logged.lift (Schema.ofValue (.mapping fs))
        g.script (some s)) := by
  have hvalue := Schema.ofValue_respelled hschema
  rcases create_respelled hconnection r dialect with
    ⟨notices, e, hv, hw⟩ | ⟨notices, g, g', hv, hw, hdialect, hbuilder⟩
  · rw [hv, hw]
    exact ⟨rfl, rfl⟩
  · have hscript : g.script = g'.script := by
      unfold script
      rw [hdialect, hbuilder]
    have hface : (g.dialect, g.builder) = (g'.dialect, g'.builder) := by rw [hdialect, hbuilder]
    rw [hv, hw, hvalue]
    constructor
    · exact congrArg (fun face => Logged.mk (notices ++ []) (.ok face)) hface
    · simp only [Logged.bind_ok, hscript]

/-- BigQuery's options in either spelling, and a column in either spelling. -/
theorem script_respelled_options :
    let options (key : String) : Value := .mapping [(.text key, .text "p")]
    let settings (key : String) (options : Value) : Value := .mapping [(.text key, options)]
    let connection (name config : String) (settings : Value) : Value :=
      .mapping [(.text name, .text "ds"), (.text config, settings)]
    let column (name type : String) : Value :=
      .mapping [(.text name, .text "a"), (.text type, .text "int64")]
    let schema (column : Value) : Entries :=
      [(.text "name", .text "t"), (.text "columns", .list [column])]
    let v := connection "dbName" "db_config" (settings "bigQueryOptions" (options "project_id"))
    let w := connection "db_name" "dbConfig" (settings "bigquery_options" (options "projectId"))
    let es := schema (column "columnName" "data_type")
    let fs := schema (column "column_name" "dataType")
    let run (connection : Value) (schema : Entries) : Logged String := do
      let g ← create .standard (.text "bigquery") (.given connection)
      let s ← Logged.lift (Schema.ofValue (.mapping schema))
      g.script (some s)
    Respells ConnectionAgree v w ∧ Respelled SchemaAgree es fs ∧ run v es = run w fs ∧
      (run w fs).outcome = .ok "create table `ds`.`t` (`a` int64 not null)" := by
  intro options settings connection column schema v w es fs run
  have hoptions : Respells OptionsAgree (options "project_id") (options "projectId") :=
    ⟨_, _, rfl, rfl, respelled_nil.cons (by decide +kernel) (fun _ => rfl) (by simp) (by simp)⟩
  have hsettings : Respells SettingsAgree (settings "bigQueryOptions" (options "project_id"))
      (settings "bigquery_options" (options "projectId")) :=
    ⟨_, _, rfl, rfl, respelled_nil.cons (by decide +kernel)
      ⟨fun h => absurd h (by decide +kernel), fun _ => Or.inr hoptions⟩ (by simp) (by simp)⟩
  have hconnection : Respells ConnectionAgree v w :=
    ⟨_, _, rfl, rfl, (respelled_nil.cons (by decide +kernel)
      ⟨fun h => absurd h (by decide +kernel), fun _ => Or.inr hsettings⟩ (by simp) (by simp)).cons
        (by decide +kernel) ⟨fun _ => rfl, fun h => absurd h (by decide +kernel)⟩
        (by simp [camelKey]; decide +kernel) (by simp [camelKey]; decide +kernel)⟩
  have hcolumn : Respelled ColumnAgree
      [(.text "columnName", .text "a"), (.text "data_type", .text "int64")]
      [(.text "column_name", .text "a"), (.text "dataType", .text "int64")] :=
    (respelled_nil.cons (by decide +kernel) (fun _ => rfl) (by simp) (by simp)).cons
      (by decide +kernel) (fun _ => rfl)
      (by simp [camelKey]; decide +kernel) (by simp [camelKey]; decide +kernel)
  have hschema : Respelled SchemaAgree es fs :=
    (respelled_nil.cons rfl ⟨fun h => absurd h (by decide +kernel), fun _ =>
      Or.inr ⟨_, _, rfl, rfl, .cons ⟨_, _, rfl, rfl, hcolumn⟩ .nil⟩⟩ (by simp) (by simp)).cons
        rfl ⟨fun _ => rfl, fun h => absurd h (by decide +kernel)⟩
        (by simp [camelKey]; decide +kernel) (by simp [camelKey]; decide +kernel)
  have hscript : (run w fs).outcome = .ok "create table `ds`.`t` (`a` int64 not null)" := by
    simp only [run, w, fs, connection, settings, options, schema, column]
    rfl
  exact ⟨hconnection, hschema, (script_respelled hconnection hschema _ _).2, hscript⟩

end Generator

end TableScript
