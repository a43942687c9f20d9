import TableScript.Generator.Script
import TableScript.Proofs.Outcome

/-!
# What a layout consists of

A table that is laid out has its columns in order, each with its quoted name, its type and its
clauses, its primary key exactly if it declares one, and its comment statements. The lemmas here
undo the steps of `layOut`, so that later statements need not look inside it. `Builder.layOut` is
the layout of a schema, and its text is the draft of the schema's script.
-/

namespace TableScript

namespace Grammar

open Logged Outcome

/-- Firebird's names stand as they are written. -/
theorem quoteIdentifier_firebird (v : Value) :
    firebird.quoteIdentifier v = (requireWritable [v]).map fun _ => v.written := by
  cases v with
  | text s => rfl
  | _ =>
      change (requireWritable _ >>= fun _ => .ok _) = _
      cases requireWritable _ <;> rfl

theorem quoteIdentifier_firebird_eq_ok {v : Value} {s : String} :
    firebird.quoteIdentifier v = .ok s ↔ v.isWritable = true ∧ v.written = s := by
  rw [quoteIdentifier_firebird, map_eq_ok]
  simp [requireWritable_eq_ok]

/-- The type that a column of a table is given. -/
def typeOf (g : Grammar) (t : Table) (c : Column) : Value :=
  match c.type with
  | .token value => value
  | .increments =>
      .text (if t.primaryKey.isEmpty then g.incrementsType else g.incrementsTypeWithoutKey)

/-- A column has a type, with or without a notice, which has to be one that can be written. -/
theorem outcome_columnType (g : Grammar) (t : Table) (c : Column) :
    (g.columnType t c).outcome = .ok (g.typeOf t c) ∨ c.name.isWritable = false := by
  unfold columnType typeOf
  cases c.type with
  | token value => exact Or.inl rfl
  | increments =>
      cases g.incrementsFallback? with
      | none => exact Or.inl rfl
      | some type =>
          cases hname : c.name.isWritable with
          | false => exact Or.inr rfl
          | true =>
              have hnote : (note (.numberingReplaced g c.name type)).outcome = .ok () :=
                outcome_note_eq_ok.2 (by simpa [Notice.told] using hname)
              exact Or.inl (outcome_bind_eq_ok.2 ⟨(), hnote, rfl⟩)

theorem columnType_eq_ok {g : Grammar} {t : Table} {c : Column} {type : Value}
    (h : (g.columnType t c).outcome = .ok type) : type = g.typeOf t c := by
  unfold columnType at h
  unfold typeOf
  cases htype : c.type with
  | token value =>
      rw [htype] at h
      cases h
      rfl
  | increments =>
      rw [htype] at h
      cases hfallback : g.incrementsFallback? with
      | none =>
          rw [hfallback] at h
          cases h
          rfl
      | some fallback =>
          rw [hfallback] at h
          obtain ⟨_, _, h⟩ := outcome_bind_eq_ok.1 h
          cases h
          rfl

theorem layOutColumn_eq_ok {g : Grammar} {t : Table} {c : Column} {l : ColumnLayout}
    (h : (g.layOutColumn t c).outcome = .ok l) :
    g.quoteIdentifier c.name = .ok l.name ∧ g.typeOf t c = .text l.type ∧
      (g.layOutClauses c g.clauses).outcome = .ok l.clauses := by
  obtain ⟨name, hname, h⟩ := outcome_bind_eq_ok.1 h
  obtain ⟨type, htype, h⟩ := outcome_bind_eq_ok.1 h
  obtain ⟨clauses, hclauses, h⟩ := outcome_bind_eq_ok.1 h
  cases columnType_eq_ok htype
  split at h
  · rename_i s hs
    cases h
    exact ⟨hname, hs, hclauses⟩
  · cases h

/-- The key of a table, if it has key columns. -/
def layOutKey? (g : Grammar) (t : Table) : Logged (Option KeyLayout) :=
  if t.primaryKey.isEmpty then answer none else lift ((g.layOutKey t).map some)

/-- The columns of a table are laid out first, then its key, its name and its comments. -/
theorem layOut_eq (g : Grammar) (t : Table) :
    g.layOut t = (forEach (g.layOutColumn t) t.columns >>= fun columns =>
      g.layOutKey? t >>= fun key => lift (g.quoteTable t.name t.space) >>= fun table =>
        g.trailingStatements t >>= fun comments => pure ⟨columns, key, table, comments⟩) := by
  unfold layOut layOutKey?
  cases t.primaryKey.isEmpty <;> rfl

theorem layOutKey?_eq_ok {g : Grammar} {t : Table} {key : Option KeyLayout} :
    (g.layOutKey? t).outcome = .ok key ↔
      if t.primaryKey.isEmpty then key = none else ∃ k, g.layOutKey t = .ok k ∧ key = some k := by
  unfold layOutKey?
  cases t.primaryKey.isEmpty with
  | true => simp [eq_comm]
  | false =>
      rw [if_neg Bool.false_ne_true, if_neg Bool.false_ne_true, outcome_lift, map_eq_ok]
      simp only [eq_comm]

theorem layOut_eq_ok {g : Grammar} {t : Table} {l : Layout} (h : (g.layOut t).outcome = .ok l) :
    List.Forall₂ (fun c k => (g.layOutColumn t c).outcome = .ok k) t.columns l.columns ∧
      (if t.primaryKey.isEmpty then l.key = none
        else ∃ k, g.layOutKey t = .ok k ∧ l.key = some k) ∧
      g.quoteTable t.name t.space = .ok l.table ∧
      (g.trailingStatements t).outcome = .ok l.comments := by
  rw [layOut_eq] at h
  obtain ⟨columns, hcolumns, h⟩ := outcome_bind_eq_ok.1 h
  obtain ⟨key, hkey, h⟩ := outcome_bind_eq_ok.1 h
  obtain ⟨table, htable, h⟩ := outcome_bind_eq_ok.1 h
  obtain ⟨comments, hcomments, h⟩ := outcome_bind_eq_ok.1 h
  cases h
  exact ⟨outcome_forEach_eq_ok.1 hcolumns, layOutKey?_eq_ok.1 hkey, htable, hcomments⟩

theorem primaryKeyName_eq_ok {t : Table} {name : String} :
    primaryKeyName t = .ok name ↔ t.name.isWritable = true ∧ t.name.written ++ "_pkey" = name := by
  rw [primaryKeyName, bind_eq_ok]
  simp [requireWritable_eq_ok, pure, Except.pure]

theorem keyConstraint_eq_ok {g : Grammar} {t : Table} {constraint : Option String}
    (h : g.keyConstraint t = .ok constraint) :
    constraint =
      if g.namesPrimaryKey then some (g.quoteName (t.name.written ++ "_pkey")) else none := by
  unfold keyConstraint at h
  by_cases hnames : g.namesPrimaryKey
  · rw [if_pos hnames] at h ⊢
    obtain ⟨name, hname, rfl⟩ := map_eq_ok.1 h
    rw [(primaryKeyName_eq_ok.1 hname).2]
  · rw [if_neg hnames] at h ⊢
    cases h
    rfl

theorem layOutKey_eq_ok {g : Grammar} {t : Table} {k : KeyLayout} (h : g.layOutKey t = .ok k) :
    List.Forall₂ (fun v s => g.quoteIdentifier v = .ok s) t.primaryKey k.columns ∧
      k.constraint =
        (if g.namesPrimaryKey then some (g.quoteName (t.name.written ++ "_pkey")) else none) ∧
      k.unenforced = decide (g = .bigquery) := by
  obtain ⟨columns, hcolumns, h⟩ := bind_eq_ok.1 h
  obtain ⟨constraint, hconstraint, h⟩ := bind_eq_ok.1 h
  cases h
  exact ⟨mapM_eq_ok.1 hcolumns, keyConstraint_eq_ok hconstraint, rfl⟩

end Grammar

def Layout.script (g : Grammar) (l : Layout) : String :=
  String.intercalate statementSeparator (l.statements g)

namespace Grammar

open Logged

theorem createTable_outcome (g : Grammar) (t : Table) :
    (g.createTable t).outcome = (g.layOut t).outcome.map (Layout.statements g) := by
  change (g.layOut t >>= fun layout => answer _).outcome = _
  rw [outcome_bind]
  cases (g.layOut t).outcome <;> rfl

theorem script_outcome (g : Grammar) (t : Table) :
    (g.script t).outcome = (g.layOut t).outcome.map (Layout.script g) := by
  change (g.createTable t >>= fun statements => answer _).outcome = _
  rw [outcome_bind, createTable_outcome]
  cases (g.layOut t).outcome <;> rfl

end Grammar

namespace Schema

open Outcome

theorem check_eq_ok {s : Schema} {u : Unit} : s.check = .ok u ↔ s.fault? = none := by
  unfold check
  cases s.fault? with
  | none => simp
  | some fault => simp [bind_eq_ok]

/-- A schema is refused for its fault, if the names in the refusal can be written. -/
theorem check_of_fault {s : Schema} {fault : RenderFault} (h : s.fault? = some fault)
    (hnames : ∀ v ∈ s.namesInFault, v.isWritable = true) : s.check = .error (.render fault) := by
  unfold check
  rw [h]
  exact bind_eq_error.2 (Or.inr ⟨(), requireWritable_eq_ok.2 hnames, rfl⟩)

/-- The namespace that a builder gives a schema's table. -/
def usedSpace (b : Builder) (s : Schema) : Option Value :=
  (s.space.orElse b.namespaceName).ifTruthy

/-- A specialized database does not do without a namespace. -/
theorem spaceFor_specialized {client : Client} {s : Schema} {space : Value}
    (h : s.spaceFor (.specialized client) = .ok space) :
    space = s.space.orElse client.namespaceName ∧ space.truthy = true := by
  change (if (s.space.orElse client.namespaceName).truthy then _ else _) = _ at h
  split at h
  · rename_i htruthy
    cases h
    exact ⟨rfl, htruthy⟩
  · cases h

theorem space_toTable {b : Builder} {s : Schema} {space : Value} (h : s.spaceFor b = .ok space) :
    (s.toTable b space).space = s.usedSpace b := by
  change (space.orElse b.namespaceName).ifTruthy = s.usedSpace b
  cases b with
  | generic d g =>
      cases h
      rfl
  | specialized client =>
      obtain ⟨hspace, htruthy⟩ := spaceFor_specialized h
      rw [Value.orElse, if_pos htruthy, hspace]
      rfl

/-- A table that declares no namespace gets the one of its client. -/
theorem spaceFor_undeclared {client : Client} {s : Schema} (hs : s.space.truthy = false)
    {space : Value} (h : s.spaceFor (.specialized client) = .ok space) :
    space = client.namespaceName ∧
      (s.toTable (.specialized client) space).space = some client.namespaceName := by
  obtain ⟨hspace, htruthy⟩ := spaceFor_specialized h
  have hclient : s.space.orElse client.namespaceName = client.namespaceName := by
    rw [Value.orElse, hs]
    rfl
  rw [space_toTable h]
  change _ ∧ (s.space.orElse client.namespaceName).ifTruthy = _
  rw [hclient] at hspace ⊢
  rw [hspace] at htruthy
  exact ⟨hspace, by rw [Value.ifTruthy, if_pos htruthy]⟩

end Schema

namespace Builder

open Logged Outcome

def layOut (b : Builder) (s : Schema) : Logged Layout := do
  Logged.lift s.check
  let space ← Logged.lift (s.spaceFor b)
  b.grammar.layOut (s.toTable b space)

/-- The draft of a script is its layout, written down. -/
theorem draft_outcome (b : Builder) (s : Schema) :
    (b.draft s).outcome = (b.layOut s).outcome.map (Layout.script b.grammar) := by
  unfold draft layOut
  simp only [outcome_bind, outcome_lift]
  cases s.check with
  | error e => rfl
  | ok _ =>
      cases s.spaceFor b with
      | error e => rfl
      | ok space => exact Grammar.script_outcome b.grammar (s.toTable b space)

theorem draft_eq_ok {b : Builder} {s : Schema} {text : String} :
    (b.draft s).outcome = .ok text ↔
      ∃ l, (b.layOut s).outcome = .ok l ∧ l.script b.grammar = text := by
  rw [draft_outcome, map_eq_ok]

theorem layOut_eq_ok {b : Builder} {s : Schema} {l : Layout} :
    (b.layOut s).outcome = .ok l ↔
      s.fault? = none ∧ ∃ space, s.spaceFor b = .ok space ∧
        (b.grammar.layOut (s.toTable b space)).outcome = .ok l := by
  unfold layOut
  rw [outcome_bind_eq_ok]
  simp only [outcome_bind_eq_ok, outcome_lift, Schema.check_eq_ok, exists_const]

end Builder

end TableScript
