import TableScript.Proofs.Table.Layout

/-!
# The clauses of a column and the notices about them

The definition of a column lists the clauses that the column has and the database can express, in
the order of its grammar and each at most once. For a clause that the database cannot express there
is a notice in its place. `textsOf_eq` says what stands in a definition for each clause, and
`notices_layOutColumn` what is told.
-/

namespace TableScript

/-- The texts of a column's definition that come from one clause. -/
def ColumnLayout.textsOf (l : ColumnLayout) (k : Clause) : List String :=
  (l.clauses.filter fun p => p.1 = k).map (·.2)

namespace Grammar

open Logged Outcome

/-- The text of a clause, if the column has it and the database can express it. -/
def clauseText? (g : Grammar) (c : Column) (k : Clause) : Option String :=
  match (g.clause? c k).outcome with
  | .ok text => text
  | .error _ => none

/-! ## One clause -/

theorem clauseText?_unsigned (g : Grammar) (c : Column) :
    g.clauseText? c .unsigned =
      if c.isUnsigned && !c.increments && g.supportsUnsigned then some "unsigned" else none := by
  unfold clauseText? clause?
  cases c.isUnsigned <;> cases c.increments <;> cases g.supportsUnsigned <;> try rfl
  -- A sign that is left out has no text, whether it can be told of or not.
  change (match (note (.unsignedIgnored g c.name) >>= fun _ => answer (none : Option String)).outcome with
    | .ok text => text
    | .error _ => none) = none
  rw [outcome_bind]
  cases (note (.unsignedIgnored g c.name)).outcome <;> rfl

theorem clauseText?_nullability (g : Grammar) (c : Column) :
    g.clauseText? c .nullability =
      c.isNullable.map fun b => if b then "null" else "not null" := rfl

theorem clause?_default_eq_ok {g : Grammar} {c : Column} {text : Option String}
    (h : (g.clause? c .default).outcome = .ok text) :
    text = (if g.supportsDefault then c.default.map fun v => "default " ++ v.written else none) ∧
      (g.clause? c .default).notices =
        if c.default.isSome && !g.supportsDefault then [.defaultDropped g c.name] else [] := by
  unfold clause? at h ⊢
  cases hdefault : c.default with
  | none =>
      rw [hdefault] at h
      cases h
      cases g.supportsDefault <;> exact ⟨rfl, rfl⟩
  | some v =>
      rw [hdefault] at h
      cases hg : g.supportsDefault with
      | true =>
          simp only [hg, if_true] at h ⊢
          obtain ⟨_, hv, h⟩ := outcome_bind_eq_ok.1 h
          cases h
          exact ⟨rfl, notices_bind hv _⟩
      | false =>
          simp only [hg, Bool.false_eq_true, if_false] at h ⊢
          obtain ⟨_, hnote, h⟩ := outcome_bind_eq_ok.1 h
          cases h
          refine ⟨rfl, ?_⟩
          rw [notices_bind hnote, notices_note hnote]
          rfl

theorem notices_unsigned {g : Grammar} {c : Column} {text : Option String}
    (h : (g.clause? c .unsigned).outcome = .ok text) :
    (g.clause? c .unsigned).notices =
      if c.isUnsigned && !c.increments && !g.supportsUnsigned then [.unsignedIgnored g c.name]
      else [] := by
  unfold clause? at h ⊢
  cases hunsigned : c.isUnsigned <;> cases hincrements : c.increments <;>
    cases hg : g.supportsUnsigned <;> try rfl
  simp only [hunsigned, hincrements, hg, Bool.not_true, Bool.not_false, Bool.or_false,
    Bool.false_eq_true, if_false] at h ⊢
  obtain ⟨_, hnote, _⟩ := outcome_bind_eq_ok.1 h
  rw [notices_bind hnote, notices_note hnote]
  rfl

theorem notices_nullability (g : Grammar) (c : Column) :
    (g.clause? c .nullability).notices = [] := rfl

theorem notices_comment (g : Grammar) (c : Column) : (g.clause? c .comment).notices = [] := by
  unfold clause?
  cases c.comment <;> cases g.commentStyle <;> rfl

/-! ## All clauses -/

theorem nodup_clauses (g : Grammar) : g.clauses.Nodup := by
  cases g <;> decide

theorem layOutClauses_eq_filterMap {g : Grammar} {c : Column} {ks : List Clause}
    {clauses : List (Clause × String)} (h : (g.layOutClauses c ks).outcome = .ok clauses) :
    (∀ k ∈ ks, (g.clause? c k).outcome = .ok (g.clauseText? c k)) ∧
      clauses = ks.filterMap (fun k => (g.clauseText? c k).map fun s => (k, s)) ∧
      (g.layOutClauses c ks).notices = ks.flatMap fun k => (g.clause? c k).notices := by
  induction ks generalizing clauses with
  | nil =>
      cases h
      exact ⟨by simp, rfl, rfl⟩
  | cons k ks ih =>
      obtain ⟨text, htext, h⟩ := outcome_bind_eq_ok.1 h
      obtain ⟨others, hothers, h⟩ := outcome_bind_eq_ok.1 h
      cases h
      obtain ⟨hok, hclauses, hnotices⟩ := ih hothers
      have hk : g.clauseText? c k = text := by
        unfold clauseText?
        rw [htext]
      refine ⟨List.forall_mem_cons.2 ⟨by rw [htext, hk], hok⟩, ?_, ?_⟩
      · rw [List.filterMap_cons, hk, ← hclauses]
        cases text <;> rfl
      · change (g.clause? c k >>= fun text => g.layOutClauses c ks >>= fun others =>
          answer ((text.map fun s => (k, s)).toList ++ others)).notices = _
        rw [notices_bind htext, notices_bind hothers, hnotices, notices_answer, List.append_nil,
          List.flatMap_cons]

/-- A list of clauses without repetition has one place for each of them. -/
theorem filter_filterMap_clauses {ks : List Clause} (hks : ks.Nodup) (text : Clause → Option String)
    (k : Clause) :
    ((ks.filterMap fun k => (text k).map fun s => (k, s)).filter fun p => p.1 = k).map (·.2) =
      if k ∈ ks then (text k).toList else [] := by
  induction ks with
  | nil => rfl
  | cons k' ks ih =>
      obtain ⟨hfresh, hks⟩ := List.nodup_cons.1 hks
      have hrest := ih hks
      by_cases hk : k' = k
      · subst hk
        rw [if_neg hfresh] at hrest
        cases ht : text k' with
        | none => simpa [List.filterMap_cons, ht] using hrest
        | some s => simpa [List.filterMap_cons, ht] using hrest
      · have hk' : k ≠ k' := Ne.symm hk
        cases ht : text k' with
        | none => simpa [List.filterMap_cons, ht, hk'] using hrest
        | some s => simpa [List.filterMap_cons, ht, hk, hk'] using hrest

theorem unsigned_mem_clauses (g : Grammar) : .unsigned ∈ g.clauses := by
  cases g <;> decide

theorem default_mem_clauses (g : Grammar) : .default ∈ g.clauses := by
  cases g <;> decide

/-- A clause that is not in the grammar's order has no text. -/
theorem mem_clauses_or_clauseText?_eq_none (g : Grammar) (c : Column) (k : Clause) :
    k ∈ g.clauses ∨ g.clauseText? c k = none := by
  cases k with
  | unsigned | nullability | default =>
      left
      cases g <;> decide
  | comment =>
      by_cases hg : .comment ∈ g.clauses
      · exact Or.inl hg
      · right
        unfold clauseText? clause?
        cases g <;> first | rfl | exact absurd (by decide) hg

/-- Every clause of a definition is one that its column and its grammar answer. -/
theorem clause?_of_layOutColumn {g : Grammar} {t : Table} {c : Column} {l : ColumnLayout}
    (h : (g.layOutColumn t c).outcome = .ok l) {k : Clause} (hk : k ∈ g.clauses) :
    (g.clause? c k).outcome = .ok (g.clauseText? c k) :=
  (layOutClauses_eq_filterMap (layOutColumn_eq_ok h).2.2).1 k hk

theorem clauseText?_default {g : Grammar} {t : Table} {c : Column} {l : ColumnLayout}
    (h : (g.layOutColumn t c).outcome = .ok l) :
    g.clauseText? c .default =
      if g.supportsDefault then c.default.map fun v => "default " ++ v.written else none :=
  (clause?_default_eq_ok (clause?_of_layOutColumn h g.default_mem_clauses)).1

/-- What stands in a definition for a clause is the text of the clause, once. -/
theorem textsOf_eq {g : Grammar} {t : Table} {c : Column} {l : ColumnLayout}
    (h : (g.layOutColumn t c).outcome = .ok l) (k : Clause) :
    l.textsOf k = (g.clauseText? c k).toList := by
  obtain ⟨_, _, hclauses⟩ := layOutColumn_eq_ok h
  unfold ColumnLayout.textsOf
  rw [(layOutClauses_eq_filterMap hclauses).2.1, filter_filterMap_clauses g.nodup_clauses]
  rcases g.mem_clauses_or_clauseText?_eq_none c k with hk | hk
  · rw [if_pos hk]
  · simp [hk]

/-- The clauses of a definition follow each other in the grammar's order. -/
theorem sublist_clauses {g : Grammar} {t : Table} {c : Column} {l : ColumnLayout}
    (h : (g.layOutColumn t c).outcome = .ok l) : (l.clauses.map (·.1)).Sublist g.clauses := by
  obtain ⟨_, _, hclauses⟩ := layOutColumn_eq_ok h
  have hwritten : l.clauses.map (·.1) = g.clauses.filter fun k => (g.clauseText? c k).isSome := by
    rw [(layOutClauses_eq_filterMap hclauses).2.1, List.map_filterMap, ← List.filterMap_eq_filter]
    congr 1
    funext k
    cases hk : g.clauseText? c k <;> simp [hk, Option.guard]
  rw [hwritten]
  exact List.filter_sublist

/-! ## What is told about a column -/

theorem notices_columnType {g : Grammar} {t : Table} {c : Column} {type : Value}
    (h : (g.columnType t c).outcome = .ok type) :
    (g.columnType t c).notices =
      if c.increments then (g.incrementsFallback?.map (.numberingReplaced g c.name)).toList
      else [] := by
  unfold columnType at h ⊢
  unfold Column.increments
  cases htype : c.type with
  | token value => rfl
  | increments =>
      rw [htype] at h
      cases hfallback : g.incrementsFallback? with
      | none => rfl
      | some fallback =>
          rw [hfallback] at h
          obtain ⟨_, hnote, _⟩ := outcome_bind_eq_ok.1 h
          exact (notices_bind hnote _).trans (by rw [notices_note hnote]; rfl)

/-- Only a sign and a default are ever left out of a definition. -/
theorem notices_clauses (g : Grammar) (c : Column) :
    (g.clauses.flatMap fun k => (g.clause? c k).notices) =
      (g.clause? c .unsigned).notices ++ (g.clause? c .default).notices := by
  have hn := g.notices_nullability c
  have hc := g.notices_comment c
  cases g <;> simp only [clauses, List.flatMap_cons, List.flatMap_nil, hn, hc, List.nil_append,
    List.append_nil]

/-- What is told about a column: its numbering, its sign and its default, in this order. -/
theorem notices_layOutColumn {g : Grammar} {t : Table} {c : Column} {l : ColumnLayout}
    (h : (g.layOutColumn t c).outcome = .ok l) :
    (g.layOutColumn t c).notices =
      (if c.increments then (g.incrementsFallback?.map (.numberingReplaced g c.name)).toList
        else []) ++
      ((if c.isUnsigned && !c.increments && !g.supportsUnsigned then [.unsignedIgnored g c.name]
        else []) ++
      if c.default.isSome && !g.supportsDefault then [.defaultDropped g c.name] else []) := by
  have hunsigned := clause?_of_layOutColumn h g.unsigned_mem_clauses
  have hdefault := clause?_of_layOutColumn h g.default_mem_clauses
  rw [← (clause?_default_eq_ok hdefault).2, ← notices_unsigned hunsigned]
  obtain ⟨name, hname, h⟩ := outcome_bind_eq_ok.1 h
  obtain ⟨type, htype, h⟩ := outcome_bind_eq_ok.1 h
  obtain ⟨clauses, hclauses, h⟩ := outcome_bind_eq_ok.1 h
  rw [← notices_columnType htype, ← notices_clauses, ← (layOutClauses_eq_filterMap hclauses).2.2]
  unfold layOutColumn
  rw [notices_bind (a := name) hname, notices_bind htype, notices_bind hclauses]
  split
  · exact congrArg ((g.columnType t c).notices ++ ·) (List.append_nil _)
  · exact congrArg ((g.columnType t c).notices ++ ·) (List.append_nil _)

end Grammar

end TableScript
