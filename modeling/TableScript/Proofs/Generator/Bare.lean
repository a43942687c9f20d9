import TableScript.Proofs.Generator.Joined
import TableScript.Proofs.Sql.Name

/-!
# Tables with bare names

Firebird's names stand in a script as they are. If the names of a table are bare, its types and
default values balanced and its comments without backslashes, every statement of the table is a
passage, so it can be told from the next.
-/

namespace TableScript

open Sql

namespace Sql

/-- A bare name and balanced text after it. -/
theorem BareName.passage_balanced {w cs : List Char} (hw : BareName w) (hcs : Balanced cs) :
    Passage (w ++ ' ' :: cs) 0 := by
  have hlevel : parens (' ' :: cs) = 0 := by
    rw [← List.singleton_append, parens_append, hcs.2]
    rfl
  have := hw.passage hcs.1.space (by rintro c ⟨⟩; decide +kernel)
  rwa [hlevel] at this

theorem BareName.passage_alone {w : List Char} (hw : BareName w) : Passage w 0 := by
  have := hw.passage Calm.nil (by simp)
  rwa [List.append_nil] at this

end Sql

namespace Outline

/-- A table in a namespace, with bare names, definitions that are balanced after a space, and
comments without backslashes. -/
structure Bare (o : Outline) : Prop where
  space : ∃ space, o.space = some space ∧ BareName space
  name : BareName o.name
  columns : ∀ c ∈ o.columns, BareName c.name ∧
    (∃ cs, c.definition = ' ' :: cs ∧ Sql.Balanced cs) ∧ ∀ cs ∈ c.comment, '\\' ∉ cs
  key : ∀ cs ∈ o.key, BareName cs

namespace Bare

variable {o : Outline} (h : o.Bare)

include h

theorem tableChars_eq :
    ∃ space, BareName space ∧ o.tableChars .firebird = space ++ '.' :: o.name := by
  obtain ⟨space, hspace, hbare⟩ := h.space
  refine ⟨space, hbare, ?_⟩
  simp only [tableChars, hspace]
  rfl

theorem passage_column {c : OutlineColumn} (hc : c ∈ o.columns) :
    Passage (Grammar.firebird.columnChars c) 0 := by
  obtain ⟨hname, ⟨cs, hdefinition, hcs⟩, -⟩ := h.columns c hc
  have hinline : Grammar.firebird.inlineComment c.comment = [] := by
    cases c.comment <;> rfl
  have hchars : Grammar.firebird.columnChars c = c.name ++ ' ' :: cs := by
    rw [Grammar.columnChars, hinline, hdefinition, List.append_nil]
    rfl
  rw [hchars]
  exact hname.passage_balanced hcs

/-- The name of the constraint is none of the words for blocks. -/
theorem bareName_constraint : BareName (o.name ++ "_pkey".toList) := by
  refine ⟨isRegular_append h.name.regular (by decide), fun hturning => ?_⟩
  have hmem : '_' ∈ o.name ++ "_pkey".toList := List.mem_append_right _ (by decide)
  rcases hturning with hword | hbatch
  · have hcapitals : ∀ c, (c == '_') = true → capitals c = [c] := by
      intro c hc
      rw [beq_iff_eq.1 hc]
      decide
    exact absurd (Token.eq_false_of_upper hcapitals (by decide) hword _ hmem) (by decide)
  · rw [hbatch] at hmem
    exact absurd hmem (by decide)

theorem passage_key : Passage (o.keyChars .firebird) 0 := by
  have hnames : Passage ([',', ' '].intercalate o.key) 0 :=
    .intercalate fun w hw => (h.key w hw).passage_alone
  have hclosing : Passage [')'] (-1) := Passage.separator (by decide) .nil
  have hlist := hnames.append hclosing (fenced_cons (by decide) _)
  have hopening : Passage ('(' :: ([',', ' '].intercalate o.key ++ [')'])) 0 :=
    Passage.separator (by decide) hlist
  have hwords : Sql.Balanced "primary key ".toList := by decide
  have hname := h.bareName_constraint.passage_balanced hwords
  have hwhole := leads_constraint.passage (hname.append hopening (fenced_cons (by decide) _))
  have hnameChars : ∀ cs, Grammar.firebird.nameChars cs = cs := fun _ => rfl
  have hmap : o.key.map Grammar.firebird.nameChars = o.key := List.map_id _
  have hchars : o.keyChars .firebird = "constraint ".toList ++
      (o.name ++ "_pkey".toList ++ ' ' :: "primary key ".toList ++
        '(' :: ([',', ' '].intercalate o.key ++ [')'])) := by
    have hopens : "primary key (".toList = "primary key ".toList ++ ['('] := rfl
    unfold keyChars
    rw [hmap]
    simp only [keyOpening, show Grammar.firebird.namesPrimaryKey = true from rfl, if_true, hopens,
      hnameChars, List.append_assoc, List.cons_append, List.nil_append]
    rfl
  rw [hchars]
  exact hwhole

theorem standing_table : Standing (o.tableStatement .firebird) := by
  obtain ⟨space, hspace, htable⟩ := h.tableChars_eq
  have hdefinition : Passage (' ' :: '(' ::
      ([',', ' '].intercalate (o.body .firebird) ++ [')'])) 0 :=
    passage_body (fun c hc => h.passage_column hc) h.passage_key
  have hnames : ∀ w ∈ [space, o.name], BareName w :=
    List.forall_mem_cons.2 ⟨hspace, List.forall_mem_singleton.2 h.name⟩
  have hblank : Text.isWord ' ' = false := by decide +kernel
  have hwhole := leads_createTable.passage (.dotted hnames hblank hdefinition)
  refine ⟨?_, ⟨'c', rfl, by decide⟩, ⟨')', getLast?_tableStatement .firebird o, by decide⟩⟩
  unfold tableStatement
  rw [htable]
  simpa only [dotted_cons_cons, dotted_singleton, List.append_assoc,
    List.cons_append] using hwhole

theorem standing_comment {p : List Char × List Char} (hp : p ∈ o.commented) :
    Standing (o.commentStatement .firebird p) := by
  obtain ⟨c, hc, hcomment⟩ := List.mem_filterMap.1 hp
  obtain ⟨text, htext, rfl⟩ := Option.map_eq_some_iff.1 hcomment
  obtain ⟨hname, -, hcomments⟩ := h.columns c hc
  obtain ⟨space, hspace, htable⟩ := h.tableChars_eq
  have hnames : ∀ w ∈ [space, o.name, c.name], BareName w :=
    List.forall_mem_cons.2 ⟨hspace, List.forall_mem_cons.2
      ⟨h.name, List.forall_mem_singleton.2 hname⟩⟩
  have hblank : Text.isWord ' ' = false := by decide +kernel
  have hwhole := leads_commentOnColumn.passage
    (.dotted hnames hblank (Passage.attached (hcomments text htext)))
  have hchars : o.commentStatement .firebird (c.name, text) = "comment on column ".toList ++
      (space ++ '.' :: (o.name ++ '.' :: (c.name ++
        ' ' :: ("is ".toList ++ encloseName '\x27' '\x27' text)))) := by
    unfold commentStatement statementOpening
    rw [htable]
    simp only [List.append_assoc, List.cons_append, List.nil_append]
    rfl
  refine ⟨?_, ⟨'c', rfl, by decide⟩, ⟨'\x27', ?_, by decide⟩⟩
  · rw [hchars]
    simpa only [dotted_cons_cons, dotted_singleton, List.append_assoc,
      List.cons_append] using hwhole
  · exact getLast?_commentStatement (fun _ => rfl) o _

/-- Every statement of the table can be told from the next. -/
theorem standing : ∀ cs ∈ o.statements .firebird, Standing cs := by
  refine List.forall_mem_cons.2 ⟨h.standing_table, fun cs hcs => ?_⟩
  obtain ⟨p, hp, rfl⟩ := List.mem_map.1 hcs
  exact h.standing_comment hp

end Bare

end Outline

/-! ## Schemas -/

namespace Schema

/-- Bare names, balanced types and default values, and comments without backslashes. -/
structure Bare (s : Schema) : Prop where
  name : BareName s.name.chars
  columns : ∀ c ∈ s.columns, BareName c.name.chars ∧ Sql.Balanced c.type.chars ∧
    (∀ v ∈ c.default.ifTruthy, Sql.Balanced v.chars) ∧ ∀ v ∈ c.comment.ifTruthy, '\\' ∉ v.chars

theorem Bare.outline {b : Builder} {s : Schema} (hs : s.Bare) {space database : Value}
    (hspace : (s.toTable b space).space = some database) (hdatabase : BareName database.chars) :
    (Grammar.firebird.outline (s.toTable b space)).Bare where
  space := ⟨database.chars, congrArg (Option.map Value.chars) hspace, hdatabase⟩
  name := hs.name
  columns := by
    intro o ho
    obtain ⟨_, hcolumn, rfl⟩ := List.mem_map.1 ho
    obtain ⟨c, hc, rfl⟩ := List.mem_map.1 hcolumn
    obtain ⟨hname, htype, hdefault, hcomment⟩ := hs.columns c hc
    refine ⟨hname, balanced_outlineColumn List.mem_cons_self _ htype hdefault, fun cs hcs => ?_⟩
    obtain ⟨v, hv, rfl⟩ := Option.map_eq_some_iff.1 hcs
    exact hcomment v hv
  key := by
    intro cs hcs
    obtain ⟨v, hv, rfl⟩ := List.mem_map.1 hcs
    obtain ⟨c, hc, rfl⟩ := List.mem_map.1 hv
    exact (hs.columns c (List.mem_of_mem_filter (List.mem_of_mem_filter hc))).1

end Schema

end TableScript
