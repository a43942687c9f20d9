import TableScript.Proofs.Outcome
import TableScript.Proofs.Sql.Cutting
import TableScript.Proofs.Sql.Match
import TableScript.Proofs.Text.CaseFold
import TableScript.Sql.Qualifier

/-!
# Where a qualifier is removed

The qualifier is removed from a statement at one place at most: right after a blank, where the text
reads like the qualifier and its point. `strikes` are these places, counted from the beginning of
the script. Removing the qualifier gives the text that is meant exactly if it strikes the places
that are meant.
-/

namespace TableScript.Sql

open TableScript.Text

theorem endsBlank_take {cs : List Char} {n : Nat} (h : 0 < n) (hn : n ≤ spanLength isBlank cs) :
    EndsBlank (cs.take n) := by
  have hle := spanLength_le isBlank cs
  have hne : cs.take n ≠ [] := by
    intro hnil
    have := congrArg List.length hnil
    rw [List.length_take, List.length_nil] at this
    omega
  refine ⟨(cs.take n).dropLast, (cs.take n).getLast hne, ?_, ?_⟩
  · rw [List.dropLast_append_getLast]
  · exact forall_mem_take_spanLength hn _ (List.getLast_mem hne)

theorem length_le_of_beginsWith {name cs : List Char} (h : beginsWith name cs = true) :
    name.length ≤ cs.length := by
  induction name generalizing cs with
  | nil => exact Nat.zero_le _
  | cons a name ih =>
      cases cs with
      | nil => cases h
      | cons c cs =>
          rw [beginsWith, Bool.and_eq_true] at h
          exact Nat.succ_le_succ (ih h.2)

theorem solid_of_beginsWith {name cs : List Char} (hname : Solid name)
    (h : beginsWith name cs = true) : Solid (cs.take name.length) := by
  induction name generalizing cs with
  | nil => simp [Solid]
  | cons a name ih =>
      cases cs with
      | nil => cases h
      | cons c cs =>
          rw [beginsWith, Bool.and_eq_true] at h
          obtain ⟨ha, hsolid⟩ := List.forall_mem_cons.1 hname
          rw [List.length_cons, List.take_succ_cons]
          refine List.forall_mem_cons.2 ⟨?_, ih hsolid h.2⟩
          by_contra hc
          rw [isBlank_of_sameLetter h.1 (by simpa using hc)] at ha
          cases ha

theorem longestGap?_eq_some {name cs : List Char} {bound n : Nat}
    (h : longestGap? name cs bound = some n) :
    0 < n ∧ n ≤ bound ∧ beginsWith name (cs.drop n) = true := by
  induction bound with
  | zero => cases h
  | succ bound ih =>
      unfold longestGap? at h
      split at h
      · rename_i hbegins
        cases h
        exact ⟨Nat.succ_pos _, Nat.le_refl _, hbegins⟩
      · obtain ⟨hpos, hle, hbegins⟩ := ih h
        exact ⟨hpos, by omega, hbegins⟩

/-- The qualifier of a statement stands right after a blank. -/
theorem qualifierPlace?_eq_some {name cs : List Char} {p : Nat}
    (h : qualifierPlace? name cs = some p) :
    EndsBlank (cs.take p) ∧ beginsWith name (cs.drop p) = true := by
  unfold qualifierPlace? at h
  split at h
  · cases h
  · rename_i n _
    obtain ⟨gap, hgap, rfl⟩ := Option.map_eq_some_iff.1 h
    obtain ⟨hpos, hle, hbegins⟩ := longestGap?_eq_some hgap
    rw [List.drop_drop] at hbegins
    refine ⟨?_, hbegins⟩
    rw [List.take_add]
    exact (endsBlank_take hpos hle).append _

theorem solid_concat_point {cs : List Char} (h : Solid cs) : Solid (cs ++ ['.']) := by
  intro c hc
  rcases List.mem_append.1 hc with hc | hc
  · exact h c hc
  · rw [List.mem_singleton.1 hc]
    decide

/-- A statement, with the place of its qualifier. -/
def strikeChunk (qualifier : List Char) (s : Statement) : Chunk :=
  ⟨s.chars, qualifierPlace? (qualifier ++ ['.']) s.chars⟩

/-- The places of a script where the qualifier is removed. -/
def strikes (qualifier cs : List Char) : List Nat :=
  match split false cs with
  | .ok ss => Chunk.places 0 (ss.map (strikeChunk qualifier))
  | .error _ => []

theorem unqualify_eq (qualifier : List Char) (s : Statement) :
    unqualify qualifier s.chars = (strikeChunk qualifier s).kept (qualifier.length + 1) := by
  unfold unqualify Chunk.kept strikeChunk
  cases hp : qualifierPlace? (qualifier ++ ['.']) s.chars <;> simp [hp]

theorem clean_strikeChunk {qualifier : List Char} (hsolid : Solid qualifier) (s : Statement) :
    (strikeChunk qualifier s).Clean (qualifier.length + 1) := by
  intro p hp
  obtain ⟨hblank, hbegins⟩ := qualifierPlace?_eq_some hp
  have hlength : (qualifier ++ ['.']).length = qualifier.length + 1 := List.length_append
  have hle := length_le_of_beginsWith hbegins
  have hblock := solid_of_beginsWith (solid_concat_point hsolid) hbegins
  rw [hlength] at hle hblock
  rw [List.length_drop] at hle
  exact ⟨by change p + _ ≤ s.chars.length; omega, hblank, hblock⟩

theorem removeQualifier_eq_ok {qualifier script text : String}
    (h : (removeQualifier qualifier script).outcome = .ok text) :
    ∃ ss, split false script.toList = .ok ss ∧ Statement.concat ss = script.toList ∧
      text.toList = ss.flatMap fun s => unqualify qualifier.toList s.chars := by
  unfold removeQualifier at h
  cases hsplit : split false script.toList with
  | error limit =>
      rw [hsplit] at h
      obtain ⟨_, _, h⟩ := Logged.outcome_bind_eq_ok.1 h
      cases h
  | ok ss =>
      rw [hsplit] at h
      simp only at h
      split at h
      · rename_i hconcat
        cases h
        exact ⟨ss, rfl, hconcat, String.toList_ofList⟩
      · obtain ⟨_, _, h⟩ := Logged.outcome_bind_eq_ok.1 h
        cases h

/-- Removing a qualifier keeps what other blocks of its length leave exactly if it strikes their
places. -/
theorem removeQualifier_eq_iff {qualifier script text : String} (hsolid : Solid qualifier.toList)
    (h : (removeQualifier qualifier script).outcome = .ok text) {ks : List Chunk}
    (hk : ∀ k ∈ ks, k.Clean (qualifier.toList.length + 1))
    (hchars : ks.flatMap (·.chars) = script.toList) :
    text.toList = ks.flatMap (Chunk.kept (qualifier.toList.length + 1)) ↔
      strikes qualifier.toList script.toList = Chunk.places 0 ks := by
  obtain ⟨ss, hsplit, hconcat, htext⟩ := removeQualifier_eq_ok h
  have hclean : ∀ k ∈ ss.map (strikeChunk qualifier.toList),
      k.Clean (qualifier.toList.length + 1) := by
    intro k hk
    obtain ⟨s, _, rfl⟩ := List.mem_map.1 hk
    exact clean_strikeChunk hsolid s
  have hwhole : (ss.map (strikeChunk qualifier.toList)).flatMap (·.chars) =
      ks.flatMap (·.chars) := by
    rw [hchars, ← hconcat, List.flatMap_map]
    rfl
  have hkept : text.toList =
      (ss.map (strikeChunk qualifier.toList)).flatMap
        (Chunk.kept (qualifier.toList.length + 1)) := by
    rw [htext, List.flatMap_map]
    simp only [unqualify_eq]
  rw [hkept, strikes, hsplit]
  exact Chunk.kept_eq_iff_places_eq (Nat.succ_pos _) hclean hk hwhole

end TableScript.Sql
