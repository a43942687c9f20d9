import Mathlib.Data.List.Forall2
import TableScript.Proofs.Client
import TableScript.Proofs.Text.Margins

/-!
# Contact points

A host names contact points, one between any two commas. The parts that are not blank become contact
points, each without the blanks around it. A host of commas and blanks names none, and is accepted
unless it is blank altogether.
-/

namespace TableScript

namespace Text

/-- What is left of a text that is not blank, without the blanks at its ends. -/
structure Trimmed (cs kept : List Char) : Prop where
  between : ∃ front back, cs = front ++ (kept ++ back) ∧ ∀ c ∈ front ++ back, isBlank c = true
  head : ∃ c ∈ kept.head?, isBlank c = false
  last : ∃ c ∈ kept.getLast?, isBlank c = false

variable {mark : Char} {cs kept : List Char}

/-! ## Parts -/

theorem split_eq_splitOn (mark : Char) (cs : List Char) : split mark cs = cs.splitOn mark := by
  induction cs with
  | nil => rfl
  | cons c rest ih =>
      have hcons := List.splitOnP_cons_eq_if_modifyHead (p := (· == mark)) c rest
      rw [split, ih]
      unfold List.splitOn
      rw [hcons]
      by_cases h : c = mark
      · rw [if_pos h, if_pos (by simpa using h)]
      · rw [if_neg h, if_neg (by simpa using h)]
        cases hpieces : rest.splitOnP (· == mark) with
        | nil => exact absurd hpieces (List.splitOnP_ne_nil _ rest)
        | cons piece pieces => rfl

theorem intercalate_split (mark : Char) (cs : List Char) :
    [mark].intercalate (split mark cs) = cs := by
  rw [split_eq_splitOn, List.intercalate_splitOn]

/-- The parts hold every character but the marks. -/
theorem flatten_split (mark : Char) (cs : List Char) :
    (split mark cs).flatten = cs.filter (· ≠ mark) := by
  induction cs with
  | nil => rfl
  | cons c rest ih =>
      rw [split, List.filter_cons, ← ih]
      by_cases h : c = mark
      · simp [h]
      · cases hpieces : split mark rest with
        | nil => exact absurd hpieces (split_ne_nil mark rest)
        | cons piece pieces => simp [h]

theorem exists_mem_split_iff {c : Char} :
    (∃ piece ∈ split mark cs, c ∈ piece) ↔ c ∈ cs ∧ c ≠ mark := by
  rw [← List.mem_flatten, flatten_split, List.mem_filter, decide_eq_true_iff]

theorem not_mem_of_mem_split {piece : List Char} (h : piece ∈ split mark cs) : mark ∉ piece :=
  fun hmark => (exists_mem_split_iff.1 ⟨piece, h, hmark⟩).2 rfl

/-! ## Trimmed parts -/

theorem trimmed_trimList (h : trimList cs ≠ []) : Trimmed cs (trimList cs) := by
  obtain ⟨back, hcs, hback⟩ := exists_margin isBlank cs
  refine ⟨⟨cs.takeWhile isBlank, back, hcs, ?_⟩, head?_strip h, getLast?_strip h⟩
  intro c hc
  rcases List.mem_append.1 hc with hc | hc
  · exact List.mem_takeWhile_imp hc
  · exact hback c hc

theorem Trimmed.subset (h : Trimmed cs kept) : kept ⊆ cs := by
  obtain ⟨front, back, rfl, -⟩ := h.between
  exact fun c hc => by simp [hc]

theorem trimList_eq_nil_iff : trimList cs = [] ↔ ∀ c ∈ cs, isBlank c = true := strip_eq_nil_iff

/-- The parts that are not blank, trimmed. -/
theorem forall₂_trimmed (parts : List (List Char)) :
    List.Forall₂ Trimmed (parts.filter fun part => !part.all isBlank)
      ((parts.map trimList).filter (!·.isEmpty)) := by
  induction parts with
  | nil => exact .nil
  | cons part parts ih =>
      by_cases h : trimList part = []
      · have hblank : part.all isBlank = true := List.all_eq_true.2 (trimList_eq_nil_iff.1 h)
        simpa [h, hblank] using ih
      · have hsolid : part.all isBlank = false := by
          rw [← Bool.not_eq_true, List.all_eq_true]
          exact fun hblank => h (trimList_eq_nil_iff.2 hblank)
        simpa [h, hsolid] using List.Forall₂.cons (trimmed_trimList h) ih

end Text

namespace Client

theorem toList_hosts (s : String) :
    (hosts s).map String.toList =
      ((Text.split ',' s.toList).map Text.trimList).filter (!·.isEmpty) := by
  simp [hosts, List.map_map, Function.comp_def]

theorem mem_hosts {s point : String} :
    point ∈ hosts s ↔
      ∃ part ∈ Text.split ',' s.toList, Text.trimList part ≠ [] ∧
        point.toList = Text.trimList part := by
  have hmem : point ∈ hosts s ↔ point.toList ∈ (hosts s).map String.toList :=
    (List.mem_map_of_injective fun _ _ => String.toList_injective).symm
  rw [hmem, toList_hosts, List.mem_filter, List.mem_map]
  constructor
  · rintro ⟨⟨part, hpart, heq⟩, hne⟩
    exact ⟨part, hpart, by simpa [heq] using hne, heq.symm⟩
  · rintro ⟨part, hpart, hne, heq⟩
    exact ⟨⟨part, hpart, heq.symm⟩, by simpa [heq] using hne⟩

/-- A host names a contact point unless it is made of commas and blanks. -/
theorem hosts_ne_nil_iff {s : String} :
    hosts s ≠ [] ↔ ∃ ch ∈ s.toList, ch ≠ ',' ∧ Text.isBlank ch = false := by
  constructor
  · intro h
    obtain ⟨point, hpoint⟩ := List.exists_mem_of_ne_nil _ h
    obtain ⟨part, hpart, hne, -⟩ := mem_hosts.1 hpoint
    obtain ⟨ch, hch, hsolid⟩ : ∃ ch ∈ part, Text.isBlank ch = false := by
      simpa [Text.trimList_eq_nil_iff] using hne
    obtain ⟨hmem, hcomma⟩ := Text.exists_mem_split_iff.1 ⟨part, hpart, hch⟩
    exact ⟨ch, hmem, hcomma, hsolid⟩
  · rintro ⟨ch, hmem, hcomma, hsolid⟩
    obtain ⟨part, hpart, hch⟩ := Text.exists_mem_split_iff.2 ⟨hmem, hcomma⟩
    have hne : Text.trimList part ≠ [] := by
      intro hnil
      rw [Text.trimList_eq_nil_iff.1 hnil ch hch] at hsolid
      cases hsolid
    have hpoint : String.ofList (Text.trimList part) ∈ hosts s :=
      mem_hosts.2 ⟨part, hpart, hne, String.toList_ofList⟩
    exact List.ne_nil_of_mem hpoint

/-- The contact points are those parts of the host that are not blank, in order and trimmed. There
are some unless the host is made of commas and blanks. -/
theorem contactPoints_of_readCassandra {c : Connection} {s : String} {config : CassandraConfig}
    (hhost : c.get "host" = .text s) (h : readCassandra c = .ok config) :
    (config.contactPoints ≠ [] ↔ ∃ ch ∈ s.toList, ch ≠ ',' ∧ Text.isBlank ch = false) ∧
      (∀ point ∈ config.contactPoints, ',' ∉ point.toList ∧
        (∃ ch ∈ point.toList.head?, Text.isBlank ch = false) ∧
        ∃ ch ∈ point.toList.getLast?, Text.isBlank ch = false) ∧
      ∃ parts, parts ≠ [] ∧ s.toList = [','].intercalate parts ∧ (∀ part ∈ parts, ',' ∉ part) ∧
        List.Forall₂ (fun part point => Text.Trimmed part point.toList)
          (parts.filter fun part => !part.all Text.isBlank) config.contactPoints := by
  have hpoints : config.contactPoints = hosts s := by
    have hwritten := congrArg CassandraConfig.contactPoints (config_of_readCassandra h)
    rwa [hhost, Value.written_text] at hwritten
  rw [hpoints]
  refine ⟨hosts_ne_nil_iff, fun point hpoint => ?_, Text.split ',' s.toList,
    Text.split_ne_nil ',' _, (Text.intercalate_split ',' _).symm,
    fun part => Text.not_mem_of_mem_split, ?_⟩
  · obtain ⟨part, hpart, hne, heq⟩ := mem_hosts.1 hpoint
    have htrimmed := Text.trimmed_trimList hne
    rw [heq]
    exact ⟨fun hcomma => Text.not_mem_of_mem_split hpart (htrimmed.subset hcomma),
      htrimmed.head, htrimmed.last⟩
  · have hparts := Text.forall₂_trimmed (Text.split ',' s.toList)
    rw [← toList_hosts] at hparts
    exact List.forall₂_map_right_iff.1 hparts

/-- Blanks around a contact point are no part of it, and parts of blanks are none. -/
theorem contactPoints_of_readCassandra_spaced :
    let c : Connection := ⟨.null, [(.text "host", .text " a b ,, c")]⟩
    let config : CassandraConfig := ⟨["a b", "c"], 9042, .null, .null, .null⟩
    c.get "host" = .text " a b ,, c" ∧ readCassandra c = .ok config ∧
      ∀ point ∈ config.contactPoints, ',' ∉ point.toList := by
  intro c config
  have hhost : c.get "host" = .text " a b ,, c" := rfl
  have hhosts : hosts " a b ,, c" = ["a b", "c"] := by decide +kernel
  have hread : readCassandra c = .ok config := by
    have hconfig : readCassandra c = .ok ⟨hosts " a b ,, c", 9042, .null, .null, .null⟩ := rfl
    rw [hconfig, hhosts]
  obtain ⟨-, hpoints, -⟩ := contactPoints_of_readCassandra hhost hread
  exact ⟨hhost, hread, fun point hpoint => (hpoints point hpoint).1⟩

/-- A host of commas and blanks is accepted, without a contact point. -/
theorem commas_as_host_accepted :
    let c : Connection := ⟨.text "ks", [(.text "host", .text " , ")]⟩
    ∃ config, readCassandra c = .ok config ∧ config.contactPoints = [] := by
  intro c
  have hhosts : hosts " , " = [] := by decide +kernel
  have hread : readCassandra c = .ok ⟨hosts " , ", 9042, .text "ks", .null, .null⟩ := rfl
  exact ⟨_, hread, hhosts⟩

end Client

end TableScript
