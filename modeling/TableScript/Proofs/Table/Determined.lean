import TableScript.Proofs.Generator.Coherence
import TableScript.Proofs.Table.Written

/-!
# What a script determines

The script of a schema gives back the namespace, the name, the columns in order, the columns of the
key, and the comments that the database keeps, provided that types and default values are
self-contained. Its outline can be read off the text, and the outline has them all.
-/

namespace TableScript

open Sql Outcome

/-! ## Tables -/

namespace Grammar

variable {g : Grammar} {t t' : Table}

/-- Outlines that agree come from tables that agree. -/
theorem eq_of_outline_eq (ht : g.Textual t) (ht' : g.Textual t')
    (hspace : (g.outline t).space = (g.outline t').space)
    (hname : (g.outline t).name = (g.outline t').name)
    (hcolumns : (g.outline t).columns.map (·.name) = (g.outline t').columns.map (·.name))
    (hkey : (g.outline t).key = (g.outline t').key) :
    t.space = t'.space ∧ t.name = t'.name ∧ t.columns.map (·.name) = t'.columns.map (·.name) ∧
      t.primaryKey = t'.primaryKey := by
  have hback : ∀ u : Table, g.Textual u →
      (g.outline u).space.map Value.ofChars = u.space ∧
        Value.ofChars (g.outline u).name = u.name ∧
        ((g.outline u).columns.map (·.name)).map Value.ofChars = u.columns.map (·.name) ∧
        (g.outline u).key.map Value.ofChars = u.primaryKey := by
    intro u hu
    refine ⟨?_, hu.name.ofChars_chars, ?_, ?_⟩
    · unfold outline
      cases hs : u.space with
      | none => rfl
      | some v => exact congrArg some (hu.space v hs).ofChars_chars
    · have hnames : (g.outline u).columns.map (·.name) = u.columns.map fun c => c.name.chars :=
        List.map_map
      rw [hnames]
      exact Value.map_ofChars_chars hu.columns
    · have hkeys := Value.map_ofChars_chars (f := id) hu.key
      rw [List.map_id] at hkeys
      exact hkeys
  obtain ⟨hs, hn, hc, hk⟩ := hback t ht
  obtain ⟨hs', hn', hc', hk'⟩ := hback t' ht'
  exact ⟨by rw [← hs, ← hs', hspace], by rw [← hn, ← hn', hname], by rw [← hc, ← hc', hcolumns],
    by rw [← hk, ← hk', hkey]⟩

def commentsByName (t : Table) : List (Value × Value) :=
  (commented t).map fun p => (p.1.name, p.2)

theorem commentsByName_eq (ht : g.Textual t) (ht' : g.Textual t')
    (hkept : g.commentStyle ≠ .dropped)
    (h : (g.outline t).commented = (g.outline t').commented) :
    commentsByName t = commentsByName t' := by
  have hback : ∀ u : Table, g.Textual u →
      (g.outline u).commented.map (fun p => (Value.ofChars p.1, Value.ofChars p.2)) =
        commentsByName u := by
    intro u hu
    rw [commented_outline, List.map_map]
    refine List.map_congr_left fun p hp => ?_
    exact Prod.ext (hu.columns p.1 (mem_commented.1 hp).1).ofChars_chars
      (hu.comments hkept p hp).ofChars_chars
  rw [← hback t ht, ← hback t' ht', h]

end Grammar

/-! ## Schemas -/

namespace Schema

/-- Types and default values may be taken into a script as they are. -/
def SelfContained (s : Schema) : Prop :=
  ∀ c ∈ s.columns, Sql.SelfContained c.type.chars ∧
    ∀ v ∈ c.default.ifTruthy, Sql.SelfContained v.chars

/-- The comments that a builder's database keeps, with the names of their columns. -/
def keptComments (b : Builder) (s : Schema) : List (Value × Value) :=
  if b.grammar.commentStyle = .dropped then []
  else s.columns.filterMap fun c => c.comment.ifTruthy.map fun v => (c.name, v)

theorem commentsByName_toTable (b : Builder) (s : Schema) (space : Value) :
    Grammar.commentsByName (s.toTable b space) =
      s.columns.filterMap fun c => c.comment.ifTruthy.map fun v => (c.name, v) := by
  unfold Grammar.commentsByName Grammar.commented toTable
  rw [List.filterMap_map, List.map_filterMap]
  congr 1
  funext c
  simp only [Function.comp, Option.map_map]
  rfl

theorem selfContained_incrementsType (g : Grammar) :
    Sql.SelfContained g.incrementsType.toList ∧
      Sql.SelfContained g.incrementsTypeWithoutKey.toList := by
  cases g <;> decide +kernel

theorem selfContained_typeOf (g : Grammar) (t : Table) {c : SchemaColumn}
    (h : Sql.SelfContained c.type.chars) : Sql.SelfContained (g.typeOf t (toColumn c)).chars := by
  unfold Grammar.typeOf toColumn
  cases c.isAutoincrement with
  | true =>
      cases t.primaryKey.isEmpty with
      | true => exact (selfContained_incrementsType g).1
      | false => exact (selfContained_incrementsType g).2
  | false => exact h

/-- The clauses before a comment are self-contained if the default value is. -/
theorem selfContained_clauseChars (g : Grammar) {c : SchemaColumn}
    (h : ∀ v ∈ c.default.ifTruthy, Sql.SelfContained v.chars) {k : Clause} (hk : k ≠ .comment) :
    Sql.SelfContained (g.clauseChars (toColumn c) k) := by
  cases k with
  | unsigned =>
      rw [Grammar.clauseChars, Grammar.clauseText?_unsigned]
      split <;> decide
  | nullability =>
      rw [Grammar.clauseChars_nullability]
      change Sql.SelfContained (if c.isNullable then " null".toList else " not null".toList)
      split <;> decide
  | default =>
      rcases g.clauseChars_default (toColumn c) with hnone | ⟨v, hv, hsome⟩
      · rw [hnone]
        rfl
      · have hword : Sql.SelfContained " default ".toList := by decide
        rw [hsome]
        exact hword.append (h v hv)
  | comment => exact absurd rfl hk

theorem outline_valid {b : Builder} {s : Schema} (hs : s.SelfContained) (hfault : s.fault? = none)
    (space : Value) : (b.grammar.outline (s.toTable b space)).Valid := by
  refine ⟨?_, ?_⟩
  · intro o ho
    obtain ⟨_, hcolumn, rfl⟩ := List.mem_map.1 ho
    obtain ⟨c, hc, rfl⟩ := List.mem_map.1 hcolumn
    obtain ⟨htype, hdefault⟩ := hs c hc
    refine ⟨?_, rfl⟩
    have hspace : Sql.SelfContained [' '] := by decide
    refine (hspace.append (selfContained_typeOf b.grammar _ htype)).append ?_
    refine .flatMap fun k hk => selfContained_clauseChars b.grammar hdefault ?_
    exact of_decide_eq_true (List.mem_filter.1 hk).2
  · intro hnil
    have hcolumns : s.columns = [] := List.map_eq_nil_iff.1 (List.map_eq_nil_iff.1 hnil)
    simp [fault?, hcolumns] at hfault
    split at hfault <;> cases hfault

end Schema

/-! ## Generators -/

/-- Every registered grammar puts marks around names. -/
def Registry.Marking (r : Registry) : Prop := ∀ d g, r.find? d = some g → g.marks.isSome

namespace Builder

/-- Only the builder of a Firebird database leaves names without marks. -/
theorem grammar_ne_firebird {r : Registry} (hr : r.Marking) {d : Dialect} (hd : d ≠ .firebird)
    {c : Option Connection} {b : Builder} (h : create r d c = .ok b) : b.grammar ≠ .firebird := by
  intro hb
  rcases create_cases h with ⟨_, g, hfind, rfl⟩ | ⟨_, client, hclient, rfl⟩
  · have hmarks := hr d g hfind
    rw [show g = .firebird from hb] at hmarks
    cases hmarks
  · have hdialect := Client.dialect_of_create hclient
    cases client with
    | firebird config => exact hd hdialect.symm
    | cassandra config => cases hb
    | bigquery config dataset => cases hb

/-- Only a Firebird script is mended. -/
theorem repair_eq_answer {b : Builder} (hb : b.grammar ≠ .firebird) (text : String) :
    b.repair text = Logged.answer text := by
  cases b with
  | generic d g => rfl
  | specialized client =>
      cases client with
      | firebird config => exact absurd rfl hb
      | cassandra config => rfl
      | bigquery config dataset => rfl

/-- The draft of a script determines the table. -/
theorem table_eq_of_draft_eq {b : Builder} (hb : b.grammar ≠ .firebird) {s s' : Schema}
    (hs : s.SelfContained) (hs' : s'.SelfContained) {text : String}
    (h : (b.draft s).outcome = .ok text) (h' : (b.draft s').outcome = .ok text) :
    s.usedSpace b = s'.usedSpace b ∧ s.name = s'.name ∧
      s.columns.map (·.name) = s'.columns.map (·.name) ∧
      (s.keyColumns b.dialect).map (·.name) = (s'.keyColumns b.dialect).map (·.name) ∧
      s.keptComments b = s'.keptComments b := by
  obtain ⟨l, hl, htext⟩ := draft_eq_ok.1 h
  obtain ⟨l', hl', htext'⟩ := draft_eq_ok.1 h'
  obtain ⟨hfault, space, hspace, hl⟩ := layOut_eq_ok.1 hl
  obtain ⟨hfault', space', hspace', hl'⟩ := layOut_eq_ok.1 hl'
  -- Equal texts are equal outlines; the values that the outlines write out are texts, and come back.
  have htextual := (Grammar.map_toList_statements hl).1 hb
  have htextual' := (Grammar.map_toList_statements hl').1 hb
  have hsame : (b.grammar.outline (s.toTable b space)).chars b.grammar =
      (b.grammar.outline (s'.toTable b space')).chars b.grammar := by
    rw [← Grammar.toList_script hl, ← Grammar.toList_script hl', htext, htext']
  obtain ⟨ho, hn, hc, hk, hcommented⟩ := Outline.chars_inj hb
    (Schema.outline_valid hs hfault space) (Schema.outline_valid hs' hfault' space') hsame
  obtain ⟨ho, hn, hc, hk⟩ := Grammar.eq_of_outline_eq htextual htextual' ho hn hc hk
  rw [Schema.space_toTable hspace, Schema.space_toTable hspace'] at ho
  have hnames : ∀ q : Schema, ∀ v, (q.toTable b v).columns.map (·.name) =
      q.columns.map (·.name) := fun q v => List.map_map
  refine ⟨ho, hn, by rw [← hnames s space, ← hnames s' space', hc], hk, ?_⟩
  unfold Schema.keptComments
  by_cases hdropped : b.grammar.commentStyle = .dropped
  · rw [if_pos hdropped, if_pos hdropped]
  · rw [if_neg hdropped, if_neg hdropped, ← Schema.commentsByName_toTable b s space,
      ← Schema.commentsByName_toTable b s' space']
    exact Grammar.commentsByName_eq htextual htextual' hdropped (hcommented hdropped)

end Builder

namespace Generator

theorem script_eq_draft {g : Generator} {b : Builder} (hb : g.builder = some b)
    (hfirebird : b.grammar ≠ .firebird) {s : Schema} {text : String}
    (h : (g.script (some s)).outcome = .ok text) : (b.draft s).outcome = .ok text := by
  unfold script at h
  simp only [hb] at h
  obtain ⟨draft, hdraft, h⟩ := Logged.outcome_bind_eq_ok.1 h
  rw [Builder.repair_eq_answer hfirebird] at h
  cases h
  exact hdraft

/-- Whatever the calls before, a generator of a database other than Firebird that writes the same
script for two schemas gives both the same namespace, name, columns, key columns and kept comments.
Only types and default values are taken as they are and have to be self-contained; names and
comments may hold any characters. -/
theorem table_eq_of_script_eq {r : Registry} (hr : r.Marking) {g : Generator}
    (hg : g.Reachable r) (hd : g.dialect ≠ .firebird) {b : Builder} (hb : g.builder = some b)
    {s s' : Schema} (hs : s.SelfContained) (hs' : s'.SelfContained) {text : String}
    (h : (g.script (some s)).outcome = .ok text) (h' : (g.script (some s')).outcome = .ok text) :
    s.usedSpace b = s'.usedSpace b ∧ s.name = s'.name ∧
      s.columns.map (·.name) = s'.columns.map (·.name) ∧
      (s.keyColumns b.dialect).map (·.name) = (s'.keyColumns b.dialect).map (·.name) ∧
      s.keptComments b = s'.keptComments b := by
  obtain ⟨asked, hasked⟩ := hg.coherent
  rw [hasked.dialect_eq] at hd
  have hfirebird := Builder.grammar_ne_firebird hr hd (hasked.create_eq_ok hb)
  exact Builder.table_eq_of_draft_eq hfirebird hs hs' (script_eq_draft hb hfirebird h)
    (script_eq_draft hb hfirebird h')

/-- Marks, apostrophes and separators in a name and a comment; an empty namespace and a default
value of zero are not written. -/
theorem table_eq_of_script_eq_mysql :
    let column (default : Value) : SchemaColumn :=
      ⟨.text "c\x60 int, \x60d", .text "decimal(10,2)", false, true, false, default,
        .text "it's\\'), ;\n"⟩
    let s : Schema := ⟨.text "a\x60.\x60b", .null, [column .null]⟩
    let s' : Schema := ⟨.text "a\x60.\x60b", .text "", [column (.int 0)]⟩
    let b : Builder := .generic .mysql .mysql
    let g : Generator := ⟨.mysql, none, some b⟩
    Registry.standard.Marking ∧ g.Reachable .standard ∧ s.SelfContained ∧ s'.SelfContained ∧
      ∃ text, (g.script (some s)).outcome = .ok text ∧ (g.script (some s')).outcome = .ok text ∧
        s.usedSpace b = s'.usedSpace b ∧ s.keptComments b = s'.keptComments b := by
  intro column s s' b g
  have hr : Registry.standard.Marking := by
    intro d g h
    cases d <;> cases h <;> rfl
  have hg : g.Reachable .standard := ⟨.dialect .mysql, .kept none, g, [], rfl, rfl⟩
  have hs : s.SelfContained := by
    intro c hc
    cases List.mem_singleton.1 hc
    exact ⟨by decide, by rintro v ⟨⟩⟩
  have hs' : s'.SelfContained := by
    intro c hc
    cases List.mem_singleton.1 hc
    exact ⟨by decide, by rintro v ⟨⟩⟩
  have hd : g.dialect ≠ .firebird := by decide
  obtain ⟨hspace, _, _, _, hcomments⟩ := table_eq_of_script_eq hr hg hd rfl hs hs' rfl rfl
  exact ⟨hr, hg, hs, hs', _, rfl, rfl, hspace, hcomments⟩

end Generator

end TableScript
