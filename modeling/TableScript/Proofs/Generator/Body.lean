import TableScript.Proofs.Generator.Coherence
import TableScript.Proofs.Table.Totality

/-!
# The body of a table

The body of a table has a definition for every column of the schema, in order, and after them the
key clause. Which columns belong to the key depends on the database, and the key in turn decides the
type of every self-numbering column. `body_of_draft` states both for whatever mixture of columns.
-/

namespace TableScript

open Outcome

/-- What is written for a column of a table with the given key columns: its quoted name, and as its
type the token of the schema, in place of which a self-numbering column has a type of the
grammar. -/
structure ColumnLayout.Defines (g : Grammar) (keys : List SchemaColumn) (c : SchemaColumn)
    (l : ColumnLayout) : Prop where
  name : g.quoteIdentifier c.name = .ok l.name
  token : c.isAutoincrement = false → c.type = .text l.type
  numbered : c.isAutoincrement = true →
    l.type = (if keys = [] then g.incrementsType else g.incrementsTypeWithoutKey) ∧
      l.type ≠ SchemaColumn.autoincrement

/-- A key clause for the key columns of a table: their quoted names in order, and the name of its
constraint if the database gives it one. BigQuery does not check keys. -/
structure KeyLayout.Names (g : Grammar) (table : Value) (keys : List SchemaColumn)
    (k : KeyLayout) : Prop where
  columns : List.Forall₂ (fun c name => g.quoteIdentifier c.name = .ok name) keys k.columns
  constraint : k.constraint =
    if g.namesPrimaryKey then some (g.quoteName (table.written ++ "_pkey")) else none
  unenforced : k.unenforced = decide (g = .bigquery)

/-- A layout of the given columns, with a key clause exactly if there are key columns. -/
structure Layout.IsBody (g : Grammar) (table : Value) (columns keys : List SchemaColumn)
    (l : Layout) : Prop where
  columns : List.Forall₂ (ColumnLayout.Defines g keys) columns l.columns
  key_iff : l.key.isSome = true ↔ keys ≠ []
  key : ∀ k ∈ l.key, k.Names g table keys

theorem KeyLayout.text_eq (k : KeyLayout) :
    k.text = (k.constraint.elim "" fun name => "constraint " ++ name ++ " ") ++
      "primary key (" ++ String.intercalate ", " k.columns ++ ")" ++
      if k.unenforced then " not enforced" else "" := by
  unfold text
  cases k.constraint <;> cases k.unenforced <;>
    simp only [Option.elim, String.append_assoc, if_true, Bool.false_eq_true, if_false,
      String.empty_append, String.append_empty]

/-- The script of a layout, part by part. -/
theorem Layout.script_eq (g : Grammar) (l : Layout) :
    l.script g = String.intercalate ";\n" (("create table " ++ l.table ++ " (" ++
      String.intercalate ", "
        (l.columns.map (fun c => String.intercalate " " (c.name :: c.type :: c.clauses.map (·.2))) ++
          (l.key.map fun k =>
            (k.constraint.elim "" fun name => "constraint " ++ name ++ " ") ++
              "primary key (" ++ String.intercalate ", " k.columns ++ ")" ++
              if k.unenforced then " not enforced" else "").toList) ++ ")") ::
      l.comments) := by
  simp only [← KeyLayout.text_eq]
  rfl

namespace Grammar

theorem incrementsType_ne_autoincrement (g : Grammar) :
    g.incrementsType ≠ SchemaColumn.autoincrement ∧
      g.incrementsTypeWithoutKey ≠ SchemaColumn.autoincrement := by
  cases g <;> decide

end Grammar

namespace Schema

theorem keyColumns_eq (d : Dialect) (s : Schema) :
    s.keyColumns d =
      s.columns.filter fun c => c.isPrimaryKey && !(d.isGeneric && c.isAutoincrement) := by
  unfold keyColumns primaryColumns
  rw [List.filter_filter]
  congr 1
  funext c
  exact Bool.and_comm _ _

variable {b : Builder} {s : Schema} {space : Value}

theorem isEmpty_primaryKey_toTable :
    (s.toTable b space).primaryKey.isEmpty = true ↔ s.keyColumns b.dialect = [] := by
  rw [List.isEmpty_iff]
  exact List.map_eq_nil_iff

/-- A column that is laid out has the type that the key of its table demands. -/
theorem defines_of_layOutColumn {c : SchemaColumn} {l : ColumnLayout}
    (h : (b.grammar.layOutColumn (s.toTable b space) (toColumn c)).outcome = .ok l) :
    ColumnLayout.Defines b.grammar (s.keyColumns b.dialect) c l := by
  obtain ⟨hname, htype, _⟩ := Grammar.layOutColumn_eq_ok h
  refine ⟨hname, fun hauto => ?_, fun hauto => ?_⟩
  · simpa [Grammar.typeOf, toColumn, hauto] using htype
  · obtain ⟨hinline, hplain⟩ := b.grammar.incrementsType_ne_autoincrement
    have hnumbered : (if (s.toTable b space).primaryKey.isEmpty then b.grammar.incrementsType
        else b.grammar.incrementsTypeWithoutKey) = l.type := by
      simpa [Grammar.typeOf, toColumn, hauto] using htype
    by_cases hkeys : s.keyColumns b.dialect = []
    · rw [if_pos (isEmpty_primaryKey_toTable.2 hkeys)] at hnumbered
      rw [if_pos hkeys, ← hnumbered]
      exact ⟨rfl, hinline⟩
    · rw [if_neg (mt isEmpty_primaryKey_toTable.1 hkeys)] at hnumbered
      rw [if_neg hkeys, ← hnumbered]
      exact ⟨rfl, hplain⟩

end Schema

/-- The layout of a schema is a body of its columns and its key columns. -/
theorem Builder.isBody_of_layOut {b : Builder} {s : Schema} {l : Layout}
    (h : (b.layOut s).outcome = .ok l) :
    l.IsBody b.grammar s.name s.columns (s.keyColumns b.dialect) ∧
      b.grammar.quoteTable s.name (s.usedSpace b) = .ok l.table := by
  obtain ⟨_, space, hspace, h⟩ := layOut_eq_ok.1 h
  obtain ⟨hcolumns, hkey, htable, _⟩ := Grammar.layOut_eq_ok h
  rw [Schema.space_toTable hspace] at htable
  refine ⟨?_, htable⟩
  have hdefined := (List.forall₂_map_left_iff.1 hcolumns).imp fun _ _ =>
    Schema.defines_of_layOutColumn
  by_cases hkeys : s.keyColumns b.dialect = []
  · rw [if_pos (Schema.isEmpty_primaryKey_toTable.2 hkeys)] at hkey
    exact ⟨hdefined, by simp [hkey, hkeys], by simp [hkey]⟩
  · rw [if_neg (mt Schema.isEmpty_primaryKey_toTable.1 hkeys)] at hkey
    obtain ⟨k, hk, hsome⟩ := hkey
    refine ⟨hdefined, by simp [hsome, hkeys], fun k' hk' => ?_⟩
    rw [hsome] at hk'
    cases hk'
    obtain ⟨hnames, hconstraint, hunenforced⟩ := Grammar.layOutKey_eq_ok hk
    exact ⟨List.forall₂_map_left_iff.1 hnames, hconstraint, hunenforced⟩

namespace Generator

/-- Whatever the calls before: a configured generator has a draft for every complete schema of
texts, for a specialized database once the namespace is a text. The first statement of any draft it
writes defines the columns of the schema in order, the self-numbering ones with a type of the
grammar, and ends in a key clause exactly if there are key columns. A definition is the name, the
type and the clauses of its column, and the key clause lists the key columns. Only Firebird changes
the draft afterwards. -/
theorem body_of_draft {r : Registry} {g : Generator} (hg : g.Reachable r) {b : Builder}
    (hb : g.builder = some b) (s : Schema) :
    let keys := s.columns.filter fun c =>
      c.isPrimaryKey && !(g.dialect.isGeneric && c.isAutoincrement)
    (s.Textual → s.Complete →
      (g.dialect.isGeneric = true ∨ ∃ space, s.usedSpace b = some (.text space)) →
        ∃ text, (b.draft s).outcome = .ok text) ∧
    (∀ text, (b.draft s).outcome = .ok text →
      ∃ l : Layout, l.IsBody b.grammar s.name s.columns keys ∧
        b.grammar.quoteTable s.name (s.usedSpace b) = .ok l.table ∧
        text = String.intercalate ";\n" (("create table " ++ l.table ++ " (" ++
          String.intercalate ", "
            (l.columns.map (fun c =>
                String.intercalate " " (c.name :: c.type :: c.clauses.map (·.2))) ++
              (l.key.map fun k =>
                (k.constraint.elim "" fun name => "constraint " ++ name ++ " ") ++
                  "primary key (" ++ String.intercalate ", " k.columns ++ ")" ++
                  if k.unenforced then " not enforced" else "").toList) ++ ")") ::
          l.comments)) ∧
    g.script (some s) = (b.draft s >>= b.repair) ∧
    (g.dialect ≠ .firebird → b.repair = Logged.answer) := by
  intro keys
  obtain ⟨asked, hasked⟩ := hg.coherent
  have hcreate := hasked.create_eq_ok hb
  rw [← hasked.dialect_eq] at hcreate
  have hkeys : keys = s.keyColumns b.dialect := by
    rw [Builder.dialect_of_create hcreate, Schema.keyColumns_eq]
  refine ⟨fun hs hcomplete hspace => ?_, fun text h => ?_, by simp only [script, hb], ?_⟩
  · rcases Builder.create_cases hcreate with ⟨_, grammar, _, rfl⟩ | ⟨hspecial, client, _, rfl⟩
    · refine Builder.exists_draft hs hcomplete rfl fun v hv => ?_
      obtain ⟨rfl, htruthy⟩ := Value.mem_ifTruthy.1 hv
      exact (hs.space.orElse (Or.inl rfl)).isTextual htruthy
    · rw [hspecial] at hspace
      obtain ⟨n, hn⟩ := hspace.resolve_left Bool.false_ne_true
      obtain ⟨space, hspace⟩ := Builder.exists_spaceFor_iff.2 (Or.inr (by rw [hn]; rfl))
      refine Builder.exists_draft hs hcomplete hspace fun v hv => ?_
      rw [hn] at hv
      cases hv
      exact ⟨n, rfl⟩
  · obtain ⟨l, hl, rfl⟩ := Builder.draft_eq_ok.1 h
    obtain ⟨hbody, htable⟩ := Builder.isBody_of_layOut hl
    rw [hkeys]
    exact ⟨l, hbody, htable, l.script_eq b.grammar⟩
  · intro hd
    exact ((Builder.repair_cases hcreate).resolve_right fun h => hd h.1).2

/-- Of two flagged columns and two self-numbering ones, only the column that is flagged and does not
number itself belongs to the key of a generic table. -/
theorem body_of_draft_mixed :
    let column (name type : String) (flagged : Bool) : SchemaColumn :=
      ⟨.text name, .text type, false, flagged, false, .null, .null⟩
    let s : Schema :=
      ⟨.text "t", .null, [column "id" "autoincrement" true, column "code" "varchar(10)" true,
        column "line" "autoincrement" false]⟩
    let b : Builder := .generic .sqlserver .sqlserver
    let g : Generator := ⟨.sqlserver, none, some b⟩
    let text : String := "create table [t] ([id] int identity(1,1) not null, [code] varchar(10) not null, [line] int identity(1,1) not null, constraint [t_pkey] primary key ([code]))"
    g.Reachable .standard ∧ s.Textual ∧ s.Complete ∧ (b.draft s).outcome = .ok text ∧
      ∃ l k, Layout.IsBody .sqlserver s.name s.columns [column "code" "varchar(10)" true] l ∧
        l.key = some k ∧ k.columns = ["[code]"] ∧ k.constraint = some "[t_pkey]" := by
  intro column s b g text
  have hg : g.Reachable .standard := ⟨.dialect .sqlserver, .kept none, g, [], rfl, rfl⟩
  have hcolumn : ∀ name type flagged, (column name type flagged).Textual := fun name type _ =>
    ⟨Or.inr ⟨name, rfl⟩, Or.inr ⟨type, rfl⟩, Or.inl rfl, Or.inl rfl⟩
  have hs : s.Textual := ⟨Or.inr ⟨"t", rfl⟩, Or.inl rfl, by simp [s, hcolumn]⟩
  have hcomplete : s.Complete :=
    ⟨by decide, by simp [s], by simp [s, column, Value.truthy], by simp [s, column, Value.truthy]⟩
  obtain ⟨hexists, hbody, _, _⟩ := body_of_draft hg rfl s
  have hdraft : (b.draft s).outcome = .ok text := eq_ok_of_toOption (by decide +kernel)
  obtain ⟨text', htext⟩ := hexists hs hcomplete (Or.inl rfl)
  cases hdraft.symm.trans htext
  obtain ⟨l, hl, _, _⟩ := hbody text hdraft
  obtain ⟨k, hk⟩ := Option.isSome_iff_exists.1 (hl.key_iff.2 (by decide))
  obtain ⟨hcolumns, hconstraint, _⟩ := hl.key k hk
  have hcode : List.Forall₂ (fun c name => Grammar.sqlserver.quoteIdentifier c.name = .ok name)
      [column "code" "varchar(10)" true] k.columns := hcolumns
  obtain ⟨name, rest, hname, hrest, hnames⟩ := List.forall₂_cons_left_iff.1 hcode
  rw [List.forall₂_nil_left_iff.1 hrest] at hnames
  cases hname
  exact ⟨hg, hs, hcomplete, hdraft, l, k, hl, hk, hnames.trans (by decide +kernel),
    hconstraint.trans (by decide +kernel)⟩

end Generator

end TableScript
