import TableScript.Proofs.Table.Lacking
import TableScript.Proofs.Table.Written

/-!
# Tables of texts

A table whose names, types and kept comments are texts is always laid out: there is one lemma for
each part of a layout. A schema whose entries are texts or missing gives such a table once it is
complete and its namespace is settled, so `Builder.exists_draft` finds a draft for it.
-/

namespace TableScript

open Logged Outcome

/-- A text that may be missing. -/
def Value.IsOptionalText (v : Value) : Prop := v = .null ∨ v.IsTextual

theorem Value.IsTextual.isWritable {v : Value} (h : v.IsTextual) : v.isWritable = true := by
  obtain ⟨s, rfl⟩ := h
  rfl

theorem Value.IsOptionalText.isTextual {v : Value} (h : v.IsOptionalText) (hv : v.truthy = true) :
    v.IsTextual := by
  rcases h with rfl | h
  · cases hv
  · exact h

theorem Value.IsOptionalText.orElse {v w : Value} (hv : v.IsOptionalText)
    (hw : w.IsOptionalText) : (v.orElse w).IsOptionalText := by
  unfold Value.orElse
  split
  · exact hv
  · exact hw

theorem Value.mem_ifTruthy {v w : Value} : w ∈ v.ifTruthy ↔ w = v ∧ v.truthy = true := by
  unfold ifTruthy
  cases v.truthy <;> simp [eq_comm]

theorem Value.truthy_orElse (v w : Value) : (v.orElse w).truthy = (v.truthy || w.truthy) := by
  unfold orElse
  cases hv : v.truthy with
  | true => rw [if_pos rfl, hv, Bool.true_or]
  | false => rw [if_neg Bool.false_ne_true, Bool.false_or]

namespace Grammar

/-! ## The parts of a layout -/

variable {g : Grammar} {t : Table} {c : Column}

theorem exists_quoteIdentifier {v : Value} (h : v.IsTextual) :
    ∃ s, g.quoteIdentifier v = .ok s := by
  obtain ⟨text, rfl⟩ := h
  exact ⟨_, rfl⟩

theorem exists_quoteString {v : Value} (h : v.IsTextual) : ∃ s, g.quoteString v = .ok s := by
  obtain ⟨text, rfl⟩ := h
  exact ⟨_, rfl⟩

theorem exists_quoteTable {name : Value} {space : Option Value} (hname : name.IsTextual)
    (hspace : ∀ v ∈ space, v.IsTextual) : ∃ s, g.quoteTable name space = .ok s := by
  cases space with
  | none => exact exists_quoteIdentifier hname
  | some v =>
      obtain ⟨first, hfirst⟩ := exists_quoteIdentifier (g := g) (hspace v rfl)
      obtain ⟨second, hsecond⟩ := exists_quoteIdentifier (g := g) hname
      exact exists_bind hfirst (exists_bind hsecond ⟨_, rfl⟩)

/-- A notice about a text can be written. -/
theorem outcome_note_of_textual {n : Notice} (h : ∀ v ∈ n.told, v.IsTextual) :
    (note n).outcome = .ok () :=
  outcome_note_eq_ok.2 fun v hv => (h v hv).isWritable

theorem exists_clause (hname : c.name.IsTextual) (hdefault : ∀ v ∈ c.default, v.IsTextual)
    (hc : g.commentStyle ≠ .dropped → ∀ v ∈ c.comment, v.IsTextual)
    (k : Clause) : ∃ text, (g.clause? c k).outcome = .ok text := by
  have htold : ∀ v ∈ [c.name], v.IsTextual := List.forall_mem_singleton.2 hname
  unfold clause?
  cases k with
  | unsigned =>
      dsimp only
      split
      · exact ⟨_, rfl⟩
      · split
        · exact ⟨_, rfl⟩
        · exact exists_outcome_bind (outcome_note_of_textual htold) ⟨_, rfl⟩
  | nullability => exact ⟨_, rfl⟩
  | default =>
      cases hv : c.default with
      | none => exact ⟨_, rfl⟩
      | some v =>
          have hwritable : requireWritable [v] = .ok () :=
            requireWritable_eq_ok.2 (List.forall_mem_singleton.2 (hdefault v hv).isWritable)
          dsimp only
          split
          · exact exists_outcome_bind (a := ()) hwritable ⟨_, rfl⟩
          · exact exists_outcome_bind (outcome_note_of_textual htold) ⟨_, rfl⟩
  | comment =>
      cases hv : c.comment with
      | none => cases g.commentStyle <;> exact ⟨_, rfl⟩
      | some v =>
          cases hstyle : g.commentStyle with
          | clause | option =>
              obtain ⟨s, hs⟩ := @exists_quoteString g v (hc (by rw [hstyle]; decide) v hv)
              exact ⟨_, map_eq_ok.2 ⟨s, hs, rfl⟩⟩
          | statement | property | dropped => exact ⟨_, rfl⟩

theorem exists_layOutClauses {ks : List Clause}
    (h : ∀ k ∈ ks, ∃ text, (g.clause? c k).outcome = .ok text) :
    ∃ clauses, (g.layOutClauses c ks).outcome = .ok clauses := by
  induction ks with
  | nil => exact ⟨[], rfl⟩
  | cons k ks ih =>
      obtain ⟨⟨text, htext⟩, hrest⟩ := List.forall_mem_cons.1 h
      obtain ⟨others, hothers⟩ := ih hrest
      exact exists_outcome_bind htext (exists_outcome_bind hothers ⟨_, rfl⟩)

/-- A column with a name that is a text has a type. -/
theorem outcome_columnType_of_textual (h : c.name.IsTextual) :
    (g.columnType t c).outcome = .ok (g.typeOf t c) :=
  (outcome_columnType g t c).resolve_right (by simp [h.isWritable])

theorem exists_layOutColumn (hname : c.name.IsTextual) (htype : (g.typeOf t c).IsTextual)
    (hdefault : ∀ v ∈ c.default, v.IsTextual)
    (hcomment : g.commentStyle ≠ .dropped → ∀ v ∈ c.comment, v.IsTextual) :
    ∃ l, (g.layOutColumn t c).outcome = .ok l := by
  obtain ⟨name, hquoted⟩ := exists_quoteIdentifier (g := g) hname
  obtain ⟨type, htype⟩ := htype
  obtain ⟨clauses, hclauses⟩ : ∃ clauses, (g.layOutClauses c g.clauses).outcome = .ok clauses :=
    exists_layOutClauses fun k _ => exists_clause hname hdefault hcomment k
  have hcolumnType : (g.columnType t c).outcome = .ok (.text type) := by
    rw [outcome_columnType_of_textual hname, htype]
  refine exists_outcome_bind (a := name) hquoted (exists_outcome_bind hcolumnType ?_)
  exact exists_outcome_bind hclauses ⟨_, rfl⟩

theorem exists_layOutKey (hname : t.name.IsTextual) (h : ∀ v ∈ t.primaryKey, v.IsTextual) :
    ∃ k, g.layOutKey t = .ok k := by
  obtain ⟨names, hnames⟩ := exists_mapM fun v hv => exists_quoteIdentifier (g := g) (h v hv)
  obtain ⟨constraint, hconstraint⟩ : ∃ constraint, g.keyConstraint t = .ok constraint := by
    unfold keyConstraint
    split
    · exact ⟨_, map_eq_ok.2 ⟨_, primaryKeyName_eq_ok.2 ⟨hname.isWritable, rfl⟩, rfl⟩⟩
    · exact ⟨none, rfl⟩
  exact exists_bind hnames (exists_bind hconstraint ⟨_, rfl⟩)

theorem exists_commentStatements (ht : g.Textual t) (hstyle : g.commentStyle ≠ .dropped) :
    ∃ texts, g.commentStatements t = .ok texts := by
  obtain ⟨table, htable⟩ := exists_quoteTable ht.name ht.space
  refine exists_bind htable (exists_mapM fun p hp => ?_)
  obtain ⟨name, hname⟩ := exists_quoteIdentifier (g := g) (ht.columns p.1 (mem_commented.1 hp).1)
  obtain ⟨text, htext⟩ := exists_quoteString (g := g) (ht.comments hstyle p hp)
  exact exists_bind hname (exists_bind htext ⟨_, rfl⟩)

theorem exists_descriptionStatements (ht : g.Textual t) (hstyle : g.commentStyle ≠ .dropped) :
    ∃ texts, g.descriptionStatements t = .ok texts := by
  have hspace : (t.space.getD descriptionSpace).IsTextual := by
    cases hs : t.space with
    | none => exact ⟨_, rfl⟩
    | some v => exact ht.space v hs
  refine exists_mapM fun p hp => ?_
  obtain ⟨text, htext⟩ := exists_quoteString (g := g) (ht.comments hstyle p hp)
  obtain ⟨space, hspace⟩ := exists_quoteString (g := g) hspace
  obtain ⟨table, htable⟩ := exists_quoteString (g := g) ht.name
  obtain ⟨name, hname⟩ := exists_quoteString (g := g) (ht.columns p.1 (mem_commented.1 hp).1)
  exact exists_bind htext (exists_bind hspace (exists_bind htable (exists_bind hname ⟨_, rfl⟩)))

theorem exists_trailingStatements (ht : g.Textual t) :
    ∃ comments, (g.trailingStatements t).outcome = .ok comments := by
  unfold trailingStatements
  cases hstyle : g.commentStyle with
  | statement => exact exists_commentStatements ht (by rw [hstyle]; decide)
  | property => exact exists_descriptionStatements ht (by rw [hstyle]; decide)
  | dropped =>
      obtain ⟨told, htold⟩ := exists_forEach (l := commented t)
        (f := fun p => note (.commentDropped g p.1.name)) fun p hp =>
          ⟨(), outcome_note_of_textual (List.forall_mem_singleton.2
            (ht.columns p.1 (mem_commented.1 hp).1))⟩
      exact exists_outcome_bind htold ⟨[], rfl⟩
  | clause | option => exact ⟨[], rfl⟩

/-- A table of texts is laid out. -/
theorem exists_layOut (ht : g.Textual t) (htypes : ∀ c ∈ t.columns, (g.typeOf t c).IsTextual)
    (hdefaults : ∀ c ∈ t.columns, ∀ v ∈ c.default, v.IsTextual) :
    ∃ l, (g.layOut t).outcome = .ok l := by
  have hcomment : ∀ c ∈ t.columns, g.commentStyle ≠ .dropped → ∀ v ∈ c.comment, v.IsTextual :=
    fun c hc hstyle v hv => ht.comments hstyle (c, v) (mem_commented.2 ⟨hc, hv⟩)
  obtain ⟨columns, hcolumns⟩ := exists_forEach fun c hc =>
    exists_layOutColumn (ht.columns c hc) (htypes c hc) (hdefaults c hc) (hcomment c hc)
  obtain ⟨table, htable⟩ := exists_quoteTable ht.name ht.space
  obtain ⟨comments, hcomments⟩ := exists_trailingStatements ht
  have hkey : ∃ key, (g.layOutKey? t).outcome = .ok key := by
    simp only [layOutKey?_eq_ok]
    split
    · exact ⟨none, rfl⟩
    · obtain ⟨k, hk⟩ := exists_layOutKey ht.name ht.key
      exact ⟨some k, k, hk, rfl⟩
  obtain ⟨key, hkey⟩ := hkey
  rw [layOut_eq]
  refine exists_outcome_bind hcolumns (exists_outcome_bind hkey ?_)
  exact exists_outcome_bind (a := table) htable (exists_outcome_bind hcomments ⟨_, rfl⟩)

end Grammar

/-! ## Schemas -/

structure SchemaColumn.Textual (c : SchemaColumn) : Prop where
  name : c.name.IsOptionalText
  type : c.type.IsOptionalText
  default : c.default.IsOptionalText
  comment : c.comment.IsOptionalText

/-- Every entry of the schema is a text or missing. -/
structure Schema.Textual (s : Schema) : Prop where
  name : s.name.IsOptionalText
  space : s.space.IsOptionalText
  columns : ∀ c ∈ s.columns, c.Textual

namespace Schema

variable {b : Builder} {s : Schema} {space : Value}

/-- A refusal names texts only. -/
theorem Textual.isWritable_of_mem_namesInFault (hs : s.Textual) :
    ∀ v ∈ s.namesInFault, v.isWritable = true := by
  unfold namesInFault
  split
  · rename_i hname
    refine List.forall_mem_cons.2 ⟨(hs.name.isTextual hname).isWritable, fun v hv => ?_⟩
    obtain ⟨c, hc, rfl⟩ := List.mem_map.1 hv
    obtain ⟨hmem, hlacks⟩ := List.mem_filter.1 hc
    exact ((hs.columns c hmem).name.isTextual (Bool.and_eq_true_iff.1 hlacks).1).isWritable
  · simp

theorem mem_columns_of_mem_keyColumns {d : Dialect} {c : SchemaColumn} (h : c ∈ s.keyColumns d) :
    c ∈ s.columns :=
  (List.mem_filter.1 (List.mem_filter.1 h).1).1

theorem textual_toTable (hs : s.Textual) (hcomplete : s.Complete)
    (hspace : s.spaceFor b = .ok space) (hused : ∀ v ∈ s.usedSpace b, v.IsTextual) :
    b.grammar.Textual (s.toTable b space) := by
  have hname : ∀ c ∈ s.columns, c.name.IsTextual := fun c hc =>
    (hs.columns c hc).name.isTextual (hcomplete.named c hc)
  refine ⟨hs.name.isTextual hcomplete.name, by rwa [space_toTable hspace], ?_, ?_, ?_⟩
  · intro column hcolumn
    obtain ⟨c, hc, rfl⟩ := List.mem_map.1 hcolumn
    exact hname c hc
  · intro v hv
    obtain ⟨c, hc, rfl⟩ := List.mem_map.1 hv
    exact hname c (mem_columns_of_mem_keyColumns hc)
  · intro _ p hp
    obtain ⟨hcolumn, hcomment⟩ := Grammar.mem_commented.1 hp
    obtain ⟨c, hc, hp⟩ := List.mem_map.1 hcolumn
    rw [← hp] at hcomment
    obtain ⟨hv, htruthy⟩ := Value.mem_ifTruthy.1 hcomment
    rw [hv]
    exact (hs.columns c hc).comment.isTextual htruthy

theorem textual_typeOf (hs : s.Textual) (hcomplete : s.Complete) :
    ∀ c ∈ (s.toTable b space).columns, (b.grammar.typeOf (s.toTable b space) c).IsTextual := by
  intro column hcolumn
  obtain ⟨c, hc, rfl⟩ := List.mem_map.1 hcolumn
  unfold Grammar.typeOf
  cases hauto : c.isAutoincrement with
  | true =>
      simp only [toColumn, hauto, if_true]
      exact ⟨_, rfl⟩
  | false =>
      simp only [toColumn, hauto, Bool.false_eq_true, if_false]
      exact (hs.columns c hc).type.isTextual (hcomplete.typed c hc)

theorem textual_default (hs : s.Textual) :
    ∀ c ∈ (s.toTable b space).columns, ∀ v ∈ c.default, v.IsTextual := by
  intro column hcolumn v hv
  obtain ⟨c, hc, rfl⟩ := List.mem_map.1 hcolumn
  obtain ⟨rfl, htruthy⟩ := Value.mem_ifTruthy.1 hv
  exact (hs.columns c hc).default.isTextual htruthy

end Schema

namespace Builder

variable {b : Builder} {s : Schema}

/-- A specialized builder asks for a namespace, a generic one does not. -/
theorem exists_spaceFor_iff :
    (∃ space, s.spaceFor b = .ok space) ↔
      (∃ d g, b = .generic d g) ∨ (s.usedSpace b).isSome = true := by
  cases b with
  | generic d g => exact iff_of_true ⟨_, rfl⟩ (Or.inl ⟨d, g, rfl⟩)
  | specialized client =>
      by_cases h : (s.space.orElse client.namespaceName).truthy = true <;>
        simp [Schema.spaceFor, Schema.usedSpace, namespaceName, Value.ifTruthy, h]

/-- A complete schema of texts whose namespace is settled has a draft. -/
theorem exists_draft (hs : s.Textual) (hcomplete : s.Complete) {space : Value}
    (hspace : s.spaceFor b = .ok space) (hused : ∀ v ∈ s.usedSpace b, v.IsTextual) :
    ∃ text, (b.draft s).outcome = .ok text := by
  obtain ⟨l, hl⟩ := Grammar.exists_layOut (Schema.textual_toTable hs hcomplete hspace hused)
    (Schema.textual_typeOf hs hcomplete) (Schema.textual_default hs)
  have hlayout := layOut_eq_ok.2 ⟨Schema.fault?_eq_none_iff.2 hcomplete, space, hspace, hl⟩
  exact ⟨_, draft_eq_ok.2 ⟨l, hlayout, rfl⟩⟩

end Builder

end TableScript
