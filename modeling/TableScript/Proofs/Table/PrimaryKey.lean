import TableScript.Proofs.Table.Layout

/-!
# How many primary keys a table is given

A table gets a primary key from its key constraint, and from every self-numbering column whose type
says so itself. The constraint takes the place of the keys of single columns, but nothing takes the
place of one column's key when another one has a key as well. `primaryKeyCount_eq` counts both kinds.
-/

namespace TableScript

def carriesKey (type : String) : Bool :=
  SchemaColumn.occurs "primary key".toList type.toList

/-- The primary keys that a layout of a schema declares: the self-numbering columns whose type is a
key, and the key constraint. -/
def Layout.primaryKeyCount (s : Schema) (l : Layout) : Nat :=
  ((s.columns.zip l.columns).countP fun p => p.1.isAutoincrement && carriesKey p.2.type) +
    l.key.toList.length

def Schema.autoincrementCount (s : Schema) : Nat := s.columns.countP (·.isAutoincrement)

namespace Grammar

theorem carriesKey_incrementsTypeWithoutKey (g : Grammar) :
    carriesKey g.incrementsTypeWithoutKey = false := by
  cases g <;> decide

/-- Cassandra and BigQuery have no type that numbers a column, so none that makes it a key. -/
theorem carriesKey_incrementsType (g : Grammar) :
    carriesKey g.incrementsType = !(g == .cassandra || g == .bigquery) := by
  cases g <;> decide

/-- The type of a self-numbering column is a key exactly if the table has no key constraint and the
database has such a type. -/
theorem typeOf_increments (g : Grammar) (t : Table) {c : Column} (hc : c.type = .increments)
    {type : String} (h : g.typeOf t c = .text type) :
    carriesKey type = (t.primaryKey.isEmpty && !(g == .cassandra || g == .bigquery)) := by
  unfold typeOf at h
  rw [hc] at h
  cases h
  cases t.primaryKey.isEmpty with
  | true => rw [if_pos rfl, carriesKey_incrementsType, Bool.true_and]
  | false =>
      rw [if_neg Bool.false_ne_true, carriesKey_incrementsTypeWithoutKey, Bool.false_and]

end Grammar

theorem SchemaColumn.type_toColumn {c : SchemaColumn} (hc : c.isAutoincrement = true) :
    (Schema.toColumn c).type = .increments := by
  simp [Schema.toColumn, hc]

/-- Over columns that are laid out in turn, either every self-numbering column carries a key or none
does. -/
theorem countP_carriesKey {g : Grammar} {t : Table} {cs : List SchemaColumn}
    {ks : List ColumnLayout}
    (h : List.Forall₂ (fun c k => (g.layOutColumn t (Schema.toColumn c)).outcome = .ok k) cs ks) :
    (cs.zip ks).countP (fun p => p.1.isAutoincrement && carriesKey p.2.type) =
      if t.primaryKey.isEmpty && !(g == .cassandra || g == .bigquery)
      then cs.countP (·.isAutoincrement) else 0 := by
  induction h with
  | nil => simp
  | @cons c k cs ks hck _ ih =>
      rw [List.zip_cons_cons, List.countP_cons, List.countP_cons, ih]
      cases hc : c.isAutoincrement with
      | false => simp
      | true =>
          have htype := (Grammar.layOutColumn_eq_ok hck).2.1
          rw [Grammar.typeOf_increments g t (SchemaColumn.type_toColumn hc) htype]
          cases t.primaryKey.isEmpty && !(g == .cassandra || g == .bigquery) <;> simp

namespace Builder

/-- A table with a key constraint has one primary key; any other has one for each self-numbering
column, unless the database cannot number columns. -/
theorem primaryKeyCount_eq {b : Builder} {s : Schema} {l : Layout}
    (h : (b.layOut s).outcome = .ok l) :
    l.primaryKeyCount s =
      if s.keyColumns b.dialect = [] then
        if b.grammar = .cassandra ∨ b.grammar = .bigquery then 0 else s.autoincrementCount
      else 1 := by
  obtain ⟨_, space, _, h⟩ := layOut_eq_ok.1 h
  obtain ⟨hcolumns, hkey, _, _⟩ := Grammar.layOut_eq_ok h
  have hcount := countP_carriesKey (List.forall₂_map_left_iff.1 hcolumns)
  have hempty : (s.toTable b space).primaryKey.isEmpty = (s.keyColumns b.dialect).isEmpty := by
    simp [Schema.toTable]
  rw [hempty] at hkey hcount
  unfold Layout.primaryKeyCount
  rw [hcount]
  cases hk : s.keyColumns b.dialect with
  | nil =>
      rw [hk] at hkey
      have hnone : l.key = none := hkey
      by_cases hg : b.grammar = .cassandra ∨ b.grammar = .bigquery
      · have hb : (b.grammar == .cassandra || b.grammar == .bigquery) = true := by simpa using hg
        simp [hnone, hg, hb]
      · have hb : (b.grammar == .cassandra || b.grammar == .bigquery) = false := by simpa using hg
        simp [hnone, hg, hb, Schema.autoincrementCount]
  | cons c rest =>
      rw [hk] at hkey
      obtain ⟨k, _, hsome⟩ : ∃ k, _ ∧ l.key = some k := hkey
      simp [hsome]

/-- For every configured generator and every schema that is laid out: the draft of the script is
that layout, and it declares at most one primary key exactly when the schema has a key constraint,
or the database cannot number columns, or at most one column is self-numbering. -/
theorem primaryKeyCount_le_one_iff {g : Generator} {b : Builder} (hg : g.builder = some b)
    {s : Schema} {l : Layout} (h : (b.layOut s).outcome = .ok l) :
    g.script (some s) = (b.draft s >>= b.repair) ∧
      (b.draft s).outcome = .ok (l.script b.grammar) ∧
      (l.primaryKeyCount s ≤ 1 ↔
        s.keyColumns b.dialect ≠ [] ∨ b.grammar = .cassandra ∨ b.grammar = .bigquery ∨
          s.autoincrementCount ≤ 1) := by
  refine ⟨by simp only [Generator.script, hg], draft_eq_ok.2 ⟨l, h, rfl⟩, ?_⟩
  rw [primaryKeyCount_eq h]
  by_cases hk : s.keyColumns b.dialect = []
  · by_cases hb : b.grammar = .cassandra ∨ b.grammar = .bigquery
    · simp [hk, hb]
      tauto
    · simp only [hk, if_true, if_neg hb, ne_eq, not_true_eq_false, false_or]
      tauto
  · simp [hk]

/-- Two self-numbering columns beside an ordinary key column: the constraint is the only key. -/
theorem primaryKeyCount_le_one_mysql :
    let number (name : String) : SchemaColumn :=
      ⟨.text name, .text "autoincrement", false, false, false, .null, .null⟩
    let code : SchemaColumn :=
      ⟨.text "code", .text "varchar(8)", false, true, false, .null, .null⟩
    let s : Schema := ⟨.text "t", .null, [number "a", number "b", code]⟩
    let g : Generator := ⟨.mysql, none, some (.generic .mysql .mysql)⟩
    g.builder = some (.generic .mysql .mysql) ∧
      ∃ l, (layOut (.generic .mysql .mysql) s).outcome = .ok l ∧ l.primaryKeyCount s ≤ 1 := by
  intro number code s g
  have hk : s.keyColumns .mysql ≠ [] := by
    simp [s, number, code, Schema.keyColumns, Schema.primaryColumns, SchemaColumn.isAutoincrement,
      SchemaColumn.autoincrement, Value.isText]
  exact ⟨rfl, _, rfl, (primaryKeyCount_le_one_iff (g := g) rfl rfl).2.2.2 (Or.inl hk)⟩

/-- Two self-numbering columns of a table without a key constraint are two primary keys. -/
theorem two_primaryKeys_postgresql :
    let number (name : String) : SchemaColumn :=
      ⟨.text name, .text "autoincrement", false, false, false, .null, .null⟩
    let s : Schema := ⟨.text "t", .null, [number "a", number "b"]⟩
    let g : Generator := ⟨.postgresql, none, some (.generic .postgresql .postgresql)⟩
    (g.script (some s)).outcome =
        .ok "create table \"t\" (\"a\" serial primary key not null, \"b\" serial primary key not null)" ∧
      ∃ l, (layOut (.generic .postgresql .postgresql) s).outcome = .ok l ∧
        l.primaryKeyCount s = 2 :=
  ⟨rfl, _, rfl, rfl⟩

end Builder

end TableScript
