import TableScript.Proofs.Generator.Disclosure
import TableScript.Proofs.Generator.Rejection
import TableScript.Proofs.Sql.Coverage
import TableScript.Proofs.Table.Totality

/-!
# When a script is written

A generator whose connection discloses only texts writes a script for a schema of texts under the
conditions that `Accepts` lists. For each way in which they fail there is one fault, and `Refuses`
says which. The two exclude each other and leave nothing out, so `script_written_iff` describes
every outcome.
-/

namespace TableScript

open Outcome Logged

/-- What a script for the requested database may show of the requested connection. -/
def Request.disclosed (asked : Request) : List Value := Connection.disclosed asked.1 asked.2

theorem Value.truthy_of_isBlank {v : Value} (hv : v.IsOptionalText) (h : v.isBlank = false) :
    v.truthy = true := by
  rcases hv with rfl | ⟨s, rfl⟩
  · cases h
  · have hs : s ≠ "" := by
      rintro rfl
      cases h
    simpa [truthy] using hs

theorem Dialect.isOptionalText_namespaceOf (d : Dialect) {vs : List Value}
    (h : ∀ v ∈ vs, v.IsOptionalText) : (d.namespaceOf vs).IsOptionalText := by
  unfold namespaceOf
  split
  · exact (h _ (by simp)).orElse (Or.inl rfl)
  · exact ((h _ (by simp)).orElse (Or.inl rfl)).orElse (h _ (by simp))
  · exact h _ (by simp)
  · exact Or.inl rfl

namespace Client

/-! ## The namespace of a client -/

theorem isBlank_of_require {d : Dialect} {fields : List (String × Value)} {u : Unit}
    (h : require d fields = .ok u) : ∀ f ∈ fields, f.2.isBlank = false := by
  intro f hf
  have hpresent := List.filter_eq_nil_iff.1 (List.map_eq_nil_iff.1 (require_eq_ok.1 h)) f hf
  simpa using hpresent

theorem isBlank_database {c : Connection} {config : FirebirdConfig}
    (h : readFirebird c = .ok config) : config.database.isBlank = false := by
  obtain ⟨_, hrequire, _⟩ := bind_eq_ok.1 h
  rw [database_of_readFirebird h]
  exact isBlank_of_require hrequire ("database", c.dbName) (by simp)

theorem isBlank_projectId {c : Connection} {config : BigQueryConfig}
    (h : readBigQuery c = .ok config) : config.projectId.isBlank = false := by
  unfold readBigQuery at h
  split at h
  · obtain ⟨_, hrequire, h⟩ := bind_eq_ok.1 h
    obtain ⟨_, _, h⟩ := bind_eq_ok.1 h
    cases h
    exact isBlank_of_require hrequire ("projectId", _) (by simp)
  · cases h

/-- Only Cassandra may do without a namespace: the other clients are not made without one. -/
theorem truthy_namespaceName {d : Dialect} {c : Option Connection} {client : Client}
    (h : create d c = .ok client) (htext : client.namespaceName.IsOptionalText)
    (hd : d ≠ .cassandra) : client.namespaceName.truthy = true := by
  rcases read_cases (create_eq_ok.1 h).1 with
    ⟨c, config, rfl, rfl, rfl, hconfig⟩ | ⟨_, _, rfl, _⟩ | ⟨c, config, rfl, rfl, rfl, hconfig⟩
  · exact Value.truthy_of_isBlank htext (isBlank_database hconfig)
  · exact absurd rfl hd
  · have hproject := isBlank_projectId hconfig
    change (Value.orElse _ config.projectId).IsOptionalText at htext
    change (Value.orElse _ config.projectId).truthy = true
    generalize c.dbName.orElse .null = dataset at htext ⊢
    cases hdataset : dataset.truthy with
    | true => rw [Value.truthy_orElse, hdataset, Bool.true_or]
    | false =>
        rw [Value.orElse, hdataset] at htext ⊢
        exact Value.truthy_of_isBlank htext hproject

end Client

namespace Builder

variable {r : Registry} {d : Dialect} {c : Option Connection} {b : Builder} {s : Schema}

theorem isOptionalText_namespaceName (h : create r d c = .ok b)
    (htext : ∀ v ∈ Connection.disclosed d c, v.IsOptionalText) :
    b.namespaceName.IsOptionalText := by
  rcases create_cases h with ⟨_, g, _, rfl⟩ | ⟨_, client, hclient, rfl⟩
  · exact Or.inl rfl
  · have hname := d.isOptionalText_namespaceOf htext
    rwa [← Client.namespaceName_of_create hclient] at hname

/-! ## Drafts -/

/-- A created builder finds a namespace, or it is one of Cassandra and there is none. -/
theorem spaceFor_cases (h : create r d c = .ok b) (hb : b.namespaceName.IsOptionalText)
    (s : Schema) :
    (d.isGeneric = true ∨ s.space.truthy = true ∨ b.namespaceName.truthy = true) ∧
        (∃ space, s.spaceFor b = .ok space) ∨
      d = .cassandra ∧ s.space.truthy = false ∧ b.namespaceName.truthy = false ∧
        s.spaceFor b = .error (.render (.noNamespace .cassandra)) := by
  have hdialect := dialect_of_create h
  rcases create_cases h with ⟨hgeneric, g, _, rfl⟩ | ⟨_, client, hclient, rfl⟩
  · exact Or.inl ⟨Or.inl hgeneric, s.space, rfl⟩
  · have hspace : s.spaceFor (.specialized client) =
        if (s.space.truthy || client.namespaceName.truthy) = true then
          .ok (s.space.orElse client.namespaceName)
        else .error (.render (.noNamespace client.dialect)) := by
      rw [← Value.truthy_orElse]
      rfl
    by_cases htruthy : (s.space.truthy || client.namespaceName.truthy) = true
    · rw [if_pos htruthy] at hspace
      exact Or.inl ⟨Or.inr (Bool.or_eq_true_iff.1 htruthy), _, hspace⟩
    · rw [if_neg htruthy] at hspace
      rw [Bool.not_eq_true, Bool.or_eq_false_iff] at htruthy
      have hcassandra : d = .cassandra := by
        by_contra hd
        have hname := Client.truthy_namespaceName hclient hb hd
        rw [htruthy.2] at hname
        cases hname
      change client.dialect = d at hdialect
      rw [hdialect, hcassandra] at hspace
      exact Or.inr ⟨hcassandra, htruthy.1, htruthy.2, hspace⟩

theorem draft_of_fault (hs : s.Textual) {fault : RenderFault} (h : s.fault? = some fault) :
    (b.draft s).outcome = .error (.render fault) := by
  rw [draft, outcome_bind, outcome_lift, Schema.check_of_fault h hs.isWritable_of_mem_namesInFault]
  rfl

/-- For a schema of texts, a draft fails for the fault of the schema or for the lack of a namespace,
and for nothing else. -/
theorem draft_cases (h : create r d c = .ok b) (hb : b.namespaceName.IsOptionalText)
    (hs : s.Textual) :
    s.Complete ∧
        (d.isGeneric = true ∨ s.space.truthy = true ∨ b.namespaceName.truthy = true) ∧
        (∃ text, (b.draft s).outcome = .ok text) ∨
      (∃ fault, s.fault? = some fault ∧ (b.draft s).outcome = .error (.render fault)) ∨
      d = .cassandra ∧ s.space.truthy = false ∧ b.namespaceName.truthy = false ∧
        (b.draft s).outcome = .error (.render (.noNamespace .cassandra)) := by
  cases hfault : s.fault? with
  | some fault => exact Or.inr (Or.inl ⟨fault, rfl, draft_of_fault hs hfault⟩)
  | none =>
      have hcomplete := Schema.fault?_eq_none_iff.1 hfault
      rcases spaceFor_cases h hb s with
        ⟨hspaced, space, hspace⟩ | ⟨hd, hspaceless, hnameless, hspace⟩
      · refine Or.inl ⟨hcomplete, hspaced, exists_draft hs hcomplete hspace fun v hv => ?_⟩
        obtain ⟨rfl, htruthy⟩ := Value.mem_ifTruthy.1 hv
        exact (hs.space.orElse hb).isTextual htruthy
      · refine Or.inr (Or.inr ⟨hd, hspaceless, hnameless, ?_⟩)
        rw [draft, outcome_bind, outcome_lift, Schema.check_eq_ok (u := ()).2 hfault]
        change (lift (s.spaceFor b) >>= fun space => b.script (s.toTable b space)).outcome = _
        rw [outcome_bind, outcome_lift, hspace]
        rfl

/-- A draft begins with its opening words, so it is not blank. -/
theorem solid_of_draft {text : String} (h : (b.draft s).outcome = .ok text) :
    ∃ c ∈ text.toList, Text.isBlank c = false := by
  obtain ⟨l, _, rfl⟩ := draft_eq_ok.1 h
  refine ⟨'c', ?_, by decide⟩
  rw [Layout.script, Layout.statements, String.toList_intercalate, List.map_cons,
    Sql.intercalate_cons, Grammar.toList_tableDefinition]
  exact List.mem_append_left _ (List.mem_append_left _ (by decide))

/-- Only the mending of a Firebird draft may fail, and only for a limit that the draft exceeds. -/
theorem repair_of_solid (h : create r d c = .ok b) {text : String}
    (hsolid : ∃ c ∈ text.toList, Text.isBlank c = false) :
    ((d = .firebird → ∃ ss, Sql.split false text.toList = .ok ss) ∧
        ∃ mended, (b.repair text).outcome = .ok mended) ∨
      d = .firebird ∧ ∃ limit, Sql.split false text.toList = .error limit ∧
        (b.repair text).outcome = .error (.render (.ungrouped limit)) := by
  rcases repair_cases h with ⟨hd, hrepair⟩ | ⟨hd, config, rfl⟩
  · exact Or.inl ⟨fun h => absurd h hd, text, by rw [hrepair]; rfl⟩
  · rcases Sql.removeQualifier_of_solid config.database.written hsolid with
      ⟨ss, mended, hss, hmended⟩ | ⟨limit, hlimit, hfails⟩
    · exact Or.inl ⟨fun _ => ⟨ss, hss⟩, mended, hmended⟩
    · exact Or.inr ⟨hd, limit, hlimit, hfails⟩

end Builder

namespace Generator

/-! ## Accepting and refusing -/

/-- What it takes for a script: a builder, a complete schema, a namespace unless the database is
generic, and for Firebird a draft that can be split into statements. -/
structure Accepts (g : Generator) (b : Builder) (s : Schema) : Prop where
  builder : g.builder = some b
  complete : s.Complete
  spaced : g.dialect.isGeneric = true ∨ s.space.truthy = true ∨ b.namespaceName.truthy = true
  split : g.dialect = .firebird →
    ∃ draft ss, (b.draft s).outcome = .ok draft ∧ Sql.split false draft.toList = .ok ss

/-- The fault for which a generator writes no script. -/
inductive Refuses (g : Generator) : Option Schema → RenderFault → Prop where
  | noBuilder {schema : Option Schema} (hb : g.builder = none) :
      Refuses g schema (.noBuilder g.dialect)
  | noSchema {b : Builder} (hb : g.builder = some b) : Refuses g none .noSchema
  | badSchema {b : Builder} (hb : g.builder = some b) {s : Schema} {fault : RenderFault}
      (h : s.fault? = some fault) : Refuses g (some s) fault
  | noNamespace {b : Builder} (hb : g.builder = some b) (hd : g.dialect = .cassandra) {s : Schema}
      (hs : s.space.truthy = false) (hname : b.namespaceName.truthy = false) :
      Refuses g (some s) (.noNamespace .cassandra)
  | ungrouped {b : Builder} (hb : g.builder = some b) (hd : g.dialect = .firebird) {s : Schema}
      {draft : String} (hdraft : (b.draft s).outcome = .ok draft) {limit : Sql.GroupingLimit}
      (h : Sql.split false draft.toList = .error limit) : Refuses g (some s) (.ungrouped limit)

variable {g : Generator} {schema : Option Schema}

theorem Accepts.not_refuses {b : Builder} {s : Schema} (h : g.Accepts b s) {fault : RenderFault} :
    ¬ g.Refuses (some s) fault := by
  have hsame : ∀ {b' : Builder}, g.builder = some b' → b' = b := fun hb =>
    Option.some.inj (hb.symm.trans h.builder)
  rintro (hb | hb | ⟨_, hfault⟩ | ⟨hb, hd, hs, hname⟩ | ⟨hb, hd, hdraft, hsplit⟩)
  · rw [h.builder] at hb
    cases hb
  · rw [Schema.fault?_eq_none_iff.2 h.complete] at hfault
    cases hfault
  · rw [hsame hb] at hname
    rcases h.spaced with hspaced | hspaced | hspaced
    · rw [hd] at hspaced
      cases hspaced
    · rw [hs] at hspaced
      cases hspaced
    · rw [hname] at hspaced
      cases hspaced
  · obtain ⟨draft, ss, hdraft', hss⟩ := h.split hd
    rw [hsame hb, hdraft'] at hdraft
    cases hdraft
    rw [hss] at hsplit
    cases hsplit

theorem script_outcome {b : Builder} (hb : g.builder = some b) (s : Schema) :
    (g.script (some s)).outcome =
      ((b.draft s).outcome >>= fun draft => (b.repair draft).outcome) := by
  simp only [script, hb, outcome_bind]

theorem script_of_draft {b : Builder} (hb : g.builder = some b) {s : Schema} {draft : String}
    (h : (b.draft s).outcome = .ok draft) :
    (g.script (some s)).outcome = (b.repair draft).outcome := by
  rw [script_outcome hb, h]
  rfl

theorem script_of_draft_error {b : Builder} (hb : g.builder = some b) {s : Schema} {e : Failure}
    (h : (b.draft s).outcome = .error e) : (g.script (some s)).outcome = .error e := by
  rw [script_outcome hb, h]
  rfl

/-- A coherent generator of texts writes a script for a schema that it accepts, and refuses any
other one. -/
theorem script_cases {r : Registry} {asked : Request} (hg : Coherent r asked g)
    (htext : ∀ v ∈ asked.disclosed, v.IsOptionalText) (hs : ∀ s ∈ schema, s.Textual) :
    (∃ b s, schema = some s ∧ g.Accepts b s ∧ ∃ text, (g.script schema).outcome = .ok text) ∨
      ∃ fault, g.Refuses schema fault ∧ (g.script schema).outcome = .error (.render fault) := by
  cases hb : g.builder with
  | none => exact Or.inr ⟨_, .noBuilder hb, by rw [script_of_builder_none hb]; rfl⟩
  | some b =>
      cases schema with
      | none => exact Or.inr ⟨_, .noSchema hb, by simp only [script, hb, outcome_fail]⟩
      | some s =>
          have hcreate := hg.create_eq_ok hb
          rw [← hg.dialect_eq] at hcreate
          have hname : b.namespaceName.IsOptionalText := by
            refine Builder.isOptionalText_namespaceName hcreate ?_
            rw [hg.dialect_eq]
            exact htext
          rcases Builder.draft_cases hcreate hname (hs s rfl) with
            ⟨hcomplete, hspaced, draft, hdraft⟩ | ⟨fault, hfault, hfails⟩ |
              ⟨hd, hspace, hname, hfails⟩
          · rcases Builder.repair_of_solid hcreate (Builder.solid_of_draft hdraft) with
              ⟨hsplit, text, htext⟩ | ⟨hd, limit, hlimit, hfails⟩
            · refine Or.inl ⟨b, s, rfl, ⟨hb, hcomplete, hspaced, fun hd => ?_⟩, text, ?_⟩
              · obtain ⟨ss, hss⟩ := hsplit hd
                exact ⟨draft, ss, hdraft, hss⟩
              · rw [script_of_draft hb hdraft, htext]
            · refine Or.inr ⟨_, .ungrouped hb hd hdraft hlimit, ?_⟩
              rw [script_of_draft hb hdraft, hfails]
          · exact Or.inr ⟨fault, .badSchema hb hfault, script_of_draft_error hb hfails⟩
          · exact Or.inr ⟨_, .noNamespace hb hd hspace hname, script_of_draft_error hb hfails⟩

/-- No script is refused because its statements do not cover it, and only Cassandra may lack a
namespace. -/
theorem Refuses.fault_cases {fault : RenderFault} (h : g.Refuses schema fault) :
    fault ≠ .uncovered ∧ ∀ d, fault = .noNamespace d → d = .cassandra ∧ g.dialect = .cassandra := by
  cases h with
  | noBuilder _ | noSchema _ | ungrouped _ _ _ _ => exact ⟨by simp, by simp⟩
  | badSchema _ hfault =>
      rcases Schema.fault?_cases hfault with rfl | rfl | rfl <;> exact ⟨by simp, by simp⟩
  | noNamespace _ hd _ _ =>
      refine ⟨by simp, fun d h => ?_⟩
      cases h
      exact ⟨rfl, hd⟩

/-- Whatever the calls before, as long as the last request that could be read discloses only texts:
a generator writes a script for a schema of texts exactly if it accepts it, fails with a render
fault otherwise, lacks a namespace only for Cassandra, and never finds that statements do not cover a
script. A schema that falls short in its columns is refused with every missing name and every
missing type, once each, by column and the name before the type. -/
theorem script_written_iff {r : Registry} {dialect : Value} {source : ConnectionSource}
    {first : Request} (hfirst : request dialect source = .ok first) {g₀ : Generator}
    (h₀ : (create r dialect source).outcome = .ok g₀) (calls : List Call)
    (htext : ∀ v ∈ (Call.lastRequest r g₀ first calls).disclosed, v.IsOptionalText)
    {schema : Option Schema} (hs : ∀ s ∈ schema, s.Textual) :
    let g := Call.run r g₀ calls
    ((∃ text, (g.script schema).outcome = .ok text) ↔ ∃ b s, schema = some s ∧ g.Accepts b s) ∧
    (∀ e, (g.script schema).outcome = .error e → ∃ fault, e = .render fault ∧
      fault ≠ .uncovered ∧
      ∀ d, fault = .noNamespace d → d = .cassandra ∧ g.dialect = .cassandra) ∧
    (∀ b s, g.builder = some b → schema = some s → s.name.truthy = true → s.columns ≠ [] →
      ¬ s.Complete → ∃ lacks : List Lack, lacks.Pairwise Lack.Before ∧
        (∀ x, x ∈ lacks ↔
          s.columns[x.index]? = some x.column ∧ x.column.lacks x.need = true) ∧
        (g.script schema).outcome =
          .error (.render (.badColumns s.name (lacks.map (Lack.problem 1))))) := by
  intro g
  obtain ⟨first', hfirst', hstart⟩ := coherent_create h₀
  rw [hfirst] at hfirst'
  cases hfirst'
  have hcases := script_cases (Call.coherent_run hstart calls) htext hs
  refine ⟨⟨?_, ?_⟩, ?_, ?_⟩
  · rintro ⟨text, htext⟩
    rcases hcases with ⟨b, s, hschema, haccepts, _⟩ | ⟨fault, _, hfails⟩
    · exact ⟨b, s, hschema, haccepts⟩
    · rw [htext] at hfails
      cases hfails
  · rintro ⟨b, s, rfl, haccepts⟩
    rcases hcases with ⟨_, _, _, _, hwritten⟩ | ⟨fault, hrefuses, _⟩
    · exact hwritten
    · exact absurd hrefuses haccepts.not_refuses
  · intro e he
    rcases hcases with ⟨_, _, _, _, text, htext⟩ | ⟨fault, hrefuses, hfails⟩
    · rw [htext] at he
      cases he
    · rw [hfails] at he
      cases he
      exact ⟨fault, rfl, hrefuses.fault_cases⟩
  · rintro b s hb rfl hname hcolumns hincomplete
    obtain ⟨lacks, hordered, hmem, hproblems⟩ := Schema.problemsFrom_eq 1 s.columns
    refine ⟨lacks, hordered, hmem, ?_⟩
    rw [← hproblems]
    have hfault := Schema.fault?_of_columns hname hcolumns hincomplete
    exact script_of_draft_error hb (Builder.draft_of_fault (hs s rfl) hfault)

/-- A Firebird generator that is asked for an unknown database keeps writing. For a nameless column
it lists the missing name. -/
theorem script_written_iff_firebird :
    let c : Connection := ⟨.text "DB", [(.text "host", .text "h")]⟩
    let b : Builder := .specialized (.firebird ⟨.text "h", .text "DB", 3050, .null, .null, true⟩)
    let g₀ : Generator := ⟨.firebird, some c, some b⟩
    let calls : List Call := [.setDialect (.text "db2")]
    let s (name : Value) : Schema :=
      ⟨.text "t", .null, [⟨name, .text "int", false, true, false, .null, .null⟩]⟩
    (create .standard (.dialect .firebird) (.kept (some c))).outcome = .ok g₀ ∧
      (∀ v ∈ (Call.lastRequest .standard g₀ (.firebird, some c) calls).disclosed,
        v.IsOptionalText) ∧
      (∀ name, name.IsOptionalText → (s name).Textual) ∧
      (∃ text, ((Call.run .standard g₀ calls).script (some (s (.text "a")))).outcome = .ok text) ∧
      ∃ problems, ((Call.run .standard g₀ calls).script (some (s .null))).outcome =
        .error (.render (.badColumns (.text "t") problems)) := by
  intro c b g₀ calls s
  have h₀ : (create .standard (.dialect .firebird) (.kept (some c))).outcome = .ok g₀ := by
    simp only [c, g₀, b]
    rfl
  have htext : ∀ v ∈ (Call.lastRequest .standard g₀ (.firebird, some c) calls).disclosed,
      v.IsOptionalText := by
    intro v hv
    cases List.mem_singleton.1 hv
    exact Or.inr ⟨"DB", rfl⟩
  have hs : ∀ name, name.IsOptionalText → (s name).Textual := by
    intro name hname
    refine ⟨Or.inr ⟨"t", rfl⟩, Or.inl rfl, fun column hcolumn => ?_⟩
    cases List.mem_singleton.1 hcolumn
    exact ⟨hname, Or.inr ⟨"int", rfl⟩, Or.inl rfl, Or.inl rfl⟩
  have hnamed : ∀ q ∈ some (s (.text "a")), q.Textual := by
    rintro q ⟨⟩
    exact hs _ (Or.inr ⟨"a", rfl⟩)
  have hnameless : ∀ q ∈ some (s .null), q.Textual := by
    rintro q ⟨⟩
    exact hs _ (Or.inl rfl)
  have haccepts : (Call.run .standard g₀ calls).Accepts b (s (.text "a")) := by
    refine ⟨rfl, ⟨by decide, by simp [s], by simp [s, Value.truthy], by simp [s, Value.truthy]⟩,
      Or.inr (Or.inr (by decide)), fun _ => ?_⟩
    exact ⟨_, _, rfl, Sql.split_eq_ok_iff.2 ⟨by decide +kernel, rfl⟩⟩
  obtain ⟨hiff, _, _⟩ := script_written_iff rfl h₀ calls htext hnamed
  obtain ⟨_, _, hlists⟩ := script_written_iff rfl h₀ calls htext hnameless
  have hincomplete : ¬ (s .null).Complete := by
    intro h
    have hname := h.named _ (List.mem_singleton_self _)
    cases hname
  obtain ⟨lacks, _, _, hfails⟩ := hlists b _ rfl rfl (by decide) (by simp [s]) hincomplete
  exact ⟨h₀, htext, hs, hiff.2 ⟨b, _, rfl, haccepts⟩, _, hfails⟩

end Generator

end TableScript
