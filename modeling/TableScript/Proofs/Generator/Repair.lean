import TableScript.Proofs.Generator.Bare
import TableScript.Proofs.Sql.Qualifier
import TableScript.Proofs.Sql.Reference

/-!
# What mending a Firebird script does

Firebird's statements are written with the name of the database in front of the table, and the name
of the database is removed afterwards. This gives the script of the same table without a namespace
exactly when the qualifier is removed after the opening words of every statement and nowhere else.
It is so for every table with bare names, balanced types and default values, and comments without
backslashes.
-/

namespace TableScript

open Sql Logged Outcome

def commentWords : String := "comment on column "

def tableWords : String := "create table "

theorem endsBlank_commentWords : EndsBlank commentWords.toList :=
  ⟨"comment on column".toList, ' ', by decide, by decide⟩

theorem endsBlank_tableWords : EndsBlank tableWords.toList :=
  ⟨"create table".toList, ' ', by decide, by decide⟩

/-- The namespace of a table as it stands before the name. -/
def spacePrefix : Option Value → String
  | some space => space.written ++ "."
  | none => ""

/-- A statement: its opening words, and what follows after the namespace. -/
abbrev Part := String × String

/-- The parts of a statement with a qualifier between them. -/
def Part.qualified (qualifier : String) (p : Part) : String := p.1 ++ (qualifier ++ p.2)

namespace Grammar

/-- Firebird's tables stand as they are written, after a namespace that can be written. -/
theorem quoteTable_firebird (name : Value) {space : Option Value}
    (hspace : ∀ v ∈ space, v.isWritable = true) :
    firebird.quoteTable name space =
      (firebird.quoteIdentifier name).map (spacePrefix space ++ ·) := by
  cases space with
  | none =>
      rw [quoteTable, spacePrefix]
      cases firebird.quoteIdentifier name with
      | error e => rfl
      | ok table => exact congrArg Except.ok String.empty_append.symm
  | some v =>
      have hv : firebird.quoteIdentifier v = .ok v.written :=
        quoteIdentifier_firebird_eq_ok.2 ⟨hspace v rfl, rfl⟩
      rw [quoteTable, hv]
      cases firebird.quoteIdentifier name <;> rfl

theorem isWritable_of_quoteTable {name : Value} {space : Option Value} {s : String}
    (h : firebird.quoteTable name space = .ok s) : ∀ v ∈ space, v.isWritable = true := by
  rintro v rfl
  obtain ⟨first, hfirst, _⟩ := bind_eq_ok.1 h
  exact (quoteIdentifier_firebird_eq_ok.1 hfirst).1

/-- What follows the namespace in the comment statements of a table. -/
def commentRests (t : Table) : Except Failure (List String) := do
  let table ← firebird.quoteIdentifier t.name
  (commented t).mapM fun p => do
    let name ← firebird.quoteIdentifier p.1.name
    let text ← firebird.quoteString p.2
    return table ++ "." ++ name ++ " is " ++ text

theorem commentStatements_firebird {t : Table} (hspace : ∀ v ∈ t.space, v.isWritable = true) :
    firebird.commentStatements t =
      (commentRests t).map (List.map fun rest => commentWords ++ (spacePrefix t.space ++ rest)) := by
  unfold commentStatements commentRests
  rw [quoteTable_firebird t.name hspace]
  cases firebird.quoteIdentifier t.name with
  | error e => rfl
  | ok table =>
      refine Eq.trans ?_ (mapM_map _ _ _)
      change (commented t).mapM _ = _
      congr 1
      funext ⟨c, comment⟩
      dsimp only
      cases firebird.quoteIdentifier c.name with
      | error e => rfl
      | ok name =>
          cases firebird.quoteString comment with
          | error e => rfl
          | ok text =>
              simp only [bind, Except.bind, pure, Except.pure, Except.map, commentWords,
                String.append_assoc]

def parts (t : Table) : Except Failure (List Part) := do
  let columns ← (forEach (firebird.layOutColumn t) t.columns).outcome
  let key ← (firebird.layOutKey? t).outcome
  let table ← firebird.quoteIdentifier t.name
  let rests ← commentRests t
  let body := Layout.body ⟨columns, key, "", []⟩
  return (tableWords, table ++ " (" ++ String.intercalate ", " body ++ ")") ::
    rests.map fun rest => (commentWords, rest)

theorem statements_eq_map_qualified (front name : String) (body rests : List String) :
    ("create table" ++ " " ++ (front ++ name) ++ " (" ++ String.intercalate ", " body ++ ")") ::
        rests.map (fun rest => commentWords ++ (front ++ rest)) =
      List.map (Part.qualified front)
        ((tableWords, name ++ " (" ++ String.intercalate ", " body ++ ")") ::
          rests.map fun rest => (commentWords, rest)) := by
  have hopening : "create table" ++ " " = tableWords := rfl
  rw [List.map_cons, List.map_map, hopening]
  simp only [Part.qualified, String.append_assoc]
  rfl

/-- The statements of a table are their parts with its namespace between them. -/
theorem createTable_firebird {t : Table} (hspace : ∀ v ∈ t.space, v.isWritable = true) :
    (firebird.createTable t).outcome =
      (parts t).map (List.map (Part.qualified (spacePrefix t.space))) := by
  have hcomments : firebird.trailingStatements t = lift (firebird.commentStatements t) := rfl
  unfold createTable parts
  rw [layOut_eq, hcomments, commentStatements_firebird hspace, quoteTable_firebird t.name hspace]
  simp only [outcome_bind, outcome_lift]
  cases (forEach (firebird.layOutColumn t) t.columns).outcome with
  | error e => rfl
  | ok columns =>
      cases (firebird.layOutKey? t).outcome with
      | error e => rfl
      | ok key =>
          cases firebird.quoteIdentifier t.name with
          | error e => rfl
          | ok table =>
              cases commentRests t with
              | error e => rfl
              | ok rests => exact congrArg Except.ok (statements_eq_map_qualified _ _ _ _)

theorem isWritable_of_createTable {t : Table} {statements : List String}
    (h : (firebird.createTable t).outcome = .ok statements) :
    ∀ v ∈ t.space, v.isWritable = true := by
  rw [createTable_outcome] at h
  obtain ⟨l, hl, _⟩ := map_eq_ok.1 h
  exact isWritable_of_quoteTable (layOut_eq_ok hl).2.2.1

theorem parts_eq_ok {t : Table} {ps : List Part} (h : parts t = .ok ps) :
    ∃ (first : String) (rests : List String),
      ps = (tableWords, first) :: rests.map fun rest => (commentWords, rest) := by
  obtain ⟨columns, _, h⟩ := bind_eq_ok.1 h
  obtain ⟨key, _, h⟩ := bind_eq_ok.1 h
  obtain ⟨table, _, h⟩ := bind_eq_ok.1 h
  obtain ⟨rests, _, h⟩ := bind_eq_ok.1 h
  cases h
  exact ⟨_, rests, rfl⟩

end Grammar

/-! ## The places of the namespace -/

/-- Where the tables of comment statements are named, if the first of the statements begins at the
given place and a separator stands between two. -/
def commentPlaces (start : Nat) : List String → List Nat
  | [] => []
  | s :: rest =>
      (start + commentWords.length) ::
        commentPlaces (start + s.length + statementSeparator.length) rest

/-- Where the statements of a script name their tables: right after their opening words. -/
def tablePlaces : List String → List Nat
  | [] => []
  | s :: rest =>
      tableWords.length :: commentPlaces (s.length + statementSeparator.length) rest

namespace Part

/-- A statement after some text, with its qualifier marked. -/
def chunk (qualifier : String) (front : List Char) (p : Part) : Chunk :=
  ⟨front ++ (p.1.toList ++ (qualifier.toList ++ p.2.toList)), some (front.length + p.1.length)⟩

theorem length_opening (front : List Char) (p : Part) :
    front.length + p.1.length = (front ++ p.1.toList).length := by
  rw [List.length_append, String.length_toList]

theorem kept_chunk (qualifier : String) (front : List Char) (p : Part) :
    (p.chunk qualifier front).kept qualifier.toList.length =
      front ++ (p.qualified "").toList := by
  unfold Chunk.kept chunk
  simp only [← List.append_assoc front, length_opening, List.take_left, ← List.drop_drop, List.drop_left]
  simp [Part.qualified]

theorem clean_chunk {qualifier : String} (hsolid : Solid qualifier.toList) (front : List Char)
    {p : Part} (hp : EndsBlank p.1.toList) :
    (p.chunk qualifier front).Clean qualifier.toList.length := by
  intro n hn
  cases hn
  unfold chunk
  simp only [← List.append_assoc front, length_opening, List.take_left, List.drop_left]
  refine ⟨?_, hp.append front, hsolid⟩
  simp only [List.length_append]
  omega

/-- The statements of a script, each but the first after a separator. -/
def chunks (qualifier : String) : List Part → List Chunk
  | [] => []
  | p :: ps => p.chunk qualifier [] :: ps.map (chunk qualifier statementSeparator.toList)

theorem chars_chunks (qualifier : String) (ps : List Part) :
    (chunks qualifier ps).flatMap (·.chars) =
      (String.intercalate statementSeparator (ps.map (Part.qualified qualifier))).toList := by
  have hchars : ∀ front p, (chunk qualifier front p).chars =
      front ++ (p.qualified qualifier).toList := by
    intro front p
    simp [chunk, Part.qualified]
  cases ps with
  | nil => rfl
  | cons p ps =>
      rw [chunks, String.toList_intercalate, List.map_cons, List.map_cons, intercalate_cons]
      simp only [List.flatMap_cons, List.flatMap_map, hchars, List.nil_append]

theorem kept_chunks (qualifier : String) (ps : List Part) :
    (chunks qualifier ps).flatMap (Chunk.kept qualifier.toList.length) =
      (String.intercalate statementSeparator (ps.map (Part.qualified ""))).toList := by
  cases ps with
  | nil => rfl
  | cons p ps =>
      rw [chunks, String.toList_intercalate, List.map_cons, List.map_cons, intercalate_cons]
      simp only [List.flatMap_cons, List.flatMap_map, kept_chunk, List.nil_append]

theorem clean_chunks {qualifier : String} (hsolid : Solid qualifier.toList) {ps : List Part}
    (hp : ∀ p ∈ ps, EndsBlank p.1.toList) :
    ∀ k ∈ chunks qualifier ps, k.Clean qualifier.toList.length := by
  cases ps with
  | nil => simp [chunks]
  | cons p ps =>
      obtain ⟨hfirst, hrest⟩ := List.forall_mem_cons.1 hp
      refine List.forall_mem_cons.2 ⟨clean_chunk hsolid [] hfirst, ?_⟩
      intro k hk
      obtain ⟨q, hq, rfl⟩ := List.mem_map.1 hk
      exact clean_chunk hsolid _ (hrest q hq)

theorem places_commentChunks (qualifier : String) (rests : List String) (start : Nat) :
    Chunk.places start (rests.map fun rest =>
        chunk qualifier statementSeparator.toList (commentWords, rest)) =
      commentPlaces (start + statementSeparator.length)
        (rests.map fun rest => Part.qualified qualifier (commentWords, rest)) := by
  induction rests generalizing start with
  | nil => rfl
  | cons rest rests ih =>
      have hend : start + (chunk qualifier statementSeparator.toList (commentWords, rest)).chars.length
          + statementSeparator.length = start + statementSeparator.length +
            (Part.qualified qualifier (commentWords, rest)).length +
            statementSeparator.length := by
        simp only [chunk, Part.qualified, List.length_append, String.length_toList,
          String.length_append]
        omega
      rw [List.map_cons, List.map_cons, Chunk.places, ih, hend, commentPlaces]
      simp [chunk, Nat.add_assoc, String.length_toList]

theorem places_chunks (qualifier first : String) (rests : List String) :
    Chunk.places 0 (chunks qualifier
        ((tableWords, first) :: rests.map fun rest => (commentWords, rest))) =
      tablePlaces (((tableWords, first) :: rests.map fun rest => (commentWords, rest)).map
        (Part.qualified qualifier)) := by
  have hend : 0 + (chunk qualifier [] (tableWords, first)).chars.length +
      statementSeparator.length =
      (Part.qualified qualifier (tableWords, first)).length + statementSeparator.length := by
    simp only [chunk, Part.qualified, List.length_append, String.length_toList,
      String.length_append, List.length_nil]
    omega
  have hplace : ((chunk qualifier [] (tableWords, first)).place.map (0 + ·)).toList =
      [tableWords.length] := by
    simp [chunk]
  have hrests := places_commentChunks qualifier rests
    (0 + (chunk qualifier [] (tableWords, first)).chars.length)
  rw [hend] at hrests
  rw [chunks, List.map_map, List.map_cons, List.map_map, tablePlaces, Chunk.places, hplace]
  exact congrArg (tableWords.length :: ·) hrests

theorem exists_words {opening : String} (h : opening = tableWords ∨ opening = commentWords) :
    ∃ words, opening.toList = words ++ [' '] ∧
      (Words ["CREATE", "TABLE"] words ∨ Words ["COMMENT", "ON", "COLUMN"] words) := by
  have hword : ∀ {w : String} {ws : List String} {cs rest : List Char},
      cs.map Char.toUpper = w.toList → Words ws rest → Words (w :: ws) (cs ++ [' '] ++ rest) :=
    fun hw hrest => .cons hw (by simp) (by decide) hrest
  rcases h with rfl | rfl
  · exact ⟨"create".toList ++ [' '] ++ "table".toList, rfl, Or.inl (hword rfl (.single rfl))⟩
  · exact ⟨"comment".toList ++ [' '] ++ ("on".toList ++ [' '] ++ "column".toList), rfl,
      Or.inr (hword rfl (hword rfl (.single rfl)))⟩

theorem unqualify_chunk {qualifier : String} (hsolid : Solid qualifier.toList) {p : Part}
    (hp : p.1 = tableWords ∨ p.1 = commentWords) {margin : List Char}
    (hmargin : ∀ c ∈ margin, Text.isBlank c = true) :
    unqualify qualifier.toList (p.chunk (qualifier ++ ".") margin).chars =
      margin ++ (p.qualified "").toList := by
  have hplace : qualifierPlace? (qualifier.toList ++ ['.']) (p.chunk (qualifier ++ ".") margin).chars =
      (p.chunk (qualifier ++ ".") margin).place := by
    obtain ⟨words, hopening, hwords⟩ := exists_words hp
    have hchars : (p.chunk (qualifier ++ ".") margin).chars =
        margin ++ words ++ ' ' :: (qualifier.toList ++ '.' :: p.2.toList) := by
      simp [chunk, hopening]
    rw [hchars, qualifierPlace?_opening hsolid hmargin hwords, chunk, length_opening, hopening]
    simp [Nat.add_assoc]
  have hlength : (qualifier ++ ".").toList.length = qualifier.toList.length + 1 := by simp
  have hkept := kept_chunk (qualifier ++ ".") margin p
  rw [hlength] at hkept
  refine (unqualify_eq qualifier.toList ⟨(p.chunk (qualifier ++ ".") margin).chars, 0, 0, ""⟩).trans ?_
  rw [strikeChunk, hplace]
  exact hkept

/-- Where the statements stand on lines of their own, the qualifier is removed from each. -/
theorem flatMap_unqualify {qualifier : String} (hsolid : Solid qualifier.toList) {ps : List Part}
    (hps : ∀ p ∈ ps, p.1 = tableWords ∨ p.1 = commentWords) (hne : ps ≠ []) {margin : List Char}
    (hmargin : ∀ c ∈ margin, Text.isBlank c = true) :
    (indented margin (terminated [';']
        (ps.map fun p => (p.qualified (qualifier ++ ".")).toList))).flatMap
      (unqualify qualifier.toList) =
      margin ++ [';', '\n'].intercalate (ps.map fun p => (p.qualified "").toList) := by
  induction ps generalizing margin with
  | nil => exact absurd rfl hne
  | cons p rest ih =>
      obtain ⟨hp, hrest⟩ := List.forall_mem_cons.1 hps
      have hpiece : ∀ ending : String,
          unqualify qualifier.toList
            (margin ++ ((p.qualified (qualifier ++ ".")).toList ++ ending.toList)) =
          margin ++ ((p.qualified "").toList ++ ending.toList) := by
        intro ending
        have := unqualify_chunk (p := (p.1, p.2 ++ ending)) hsolid hp hmargin
        simpa [chunk, Part.qualified] using this
      cases rest with
      | nil =>
          have := hpiece ""
          simpa [terminated, indented] using this
      | cons q rest =>
          have hnewline : ∀ c ∈ ['\n'], Text.isBlank c = true := by decide
          have hlater := ih hrest (List.cons_ne_nil q rest) hnewline
          have hsemicolon : ";".toList = [';'] := rfl
          have hfirst := hpiece ";"
          rw [hsemicolon] at hfirst
          rw [indented_newline, List.map_cons] at hlater
          rw [List.map_cons, List.map_cons, terminated, indented, List.flatMap_cons, hfirst, hlater]
          simp only [List.map_cons, intercalate_cons_cons]
          simp

end Part

namespace Grammar

/-- Of a table with bare names, the name of the namespace is removed from every statement. -/
theorem removeQualifier_bare {t : Table} {space : Value} (ht : t.space = some space)
    (hbare : (firebird.outline t).Bare) {statements : List String}
    (hstatements : (firebird.createTable t).outcome = .ok statements) {text : String}
    (h : (removeQualifier space.written
      (String.intercalate statementSeparator statements)).outcome = .ok text)
    {plain : List String}
    (hplain : (firebird.createTable { t with space := none }).outcome = .ok plain) :
    text = String.intercalate statementSeparator plain := by
  have hspace : ∀ v ∈ t.space, v.isWritable = true := isWritable_of_createTable hstatements
  have hsolid : Solid space.written.toList := by
    obtain ⟨name, hname, hregular⟩ := hbare.space
    have hchars : name = space.chars := by
      rw [outline, ht] at hname
      exact (Option.some.inj hname).symm
    rw [hchars] at hregular
    exact fun c hc => isBlank_of_isWord (hregular.isWord_of_mem c hc)
  have hstanding : ∀ cs ∈ statements.map String.toList, Standing cs := by
    rw [createTable_outcome] at hstatements
    obtain ⟨l, hl, rfl⟩ := map_eq_ok.1 hstatements
    rw [(map_toList_statements hl).2]
    exact hbare.standing
  rw [createTable_firebird (by simp)] at hplain
  obtain ⟨ps, hps, rfl⟩ := map_eq_ok.1 hplain
  rw [createTable_firebird hspace, show parts t = .ok ps from hps, ht] at hstatements
  cases hstatements
  obtain ⟨first, rests, hparts⟩ := parts_eq_ok hps
  have hne : ps ≠ [] := by simp [hparts]
  have hopenings : ∀ p ∈ ps, p.1 = tableWords ∨ p.1 = commentWords := by
    rw [hparts]
    refine List.forall_mem_cons.2 ⟨Or.inl rfl, fun p hp => ?_⟩
    obtain ⟨rest, _, rfl⟩ := List.mem_map.1 hp
    exact Or.inr rfl
  obtain ⟨ss, hsplit, _, htext⟩ := removeQualifier_eq_ok h
  rw [String.toList_intercalate] at hsplit
  have hpieces := split_intercalate_whole (by simpa using hne) hstanding hsplit
  have hjoined := Part.flatMap_unqualify hsolid hopenings hne (List.forall_mem_nil _)
  have hstruck : text.toList = (ss.map (·.chars)).flatMap (unqualify space.written.toList) := by
    rw [htext, List.flatMap_map]
  rw [← String.toList_inj, hstruck, hpieces, String.toList_intercalate, List.map_map, List.map_map]
  exact hjoined

/-- The name of a table's namespace is removed from the statements of the table, and from nothing
else, exactly if it is removed where the statements name the table. -/
theorem removeQualifier_eq_iff {t : Table} {space : Value} (ht : t.space = some space)
    (hsolid : Solid space.written.toList) {statements : List String}
    (hstatements : (firebird.createTable t).outcome = .ok statements) {text : String}
    (h : (removeQualifier space.written
      (String.intercalate statementSeparator statements)).outcome = .ok text) :
    ∃ plain, (firebird.createTable { t with space := none }).outcome = .ok plain ∧
      (text = String.intercalate statementSeparator plain ↔
        strikes space.written.toList (String.intercalate statementSeparator statements).toList =
          tablePlaces statements) := by
  have hspace : ∀ v ∈ t.space, v.isWritable = true := isWritable_of_createTable hstatements
  have hplain := @createTable_firebird { t with space := none } (by simp)
  rw [createTable_firebird hspace, ht] at hstatements
  obtain ⟨ps, hps, rfl⟩ := map_eq_ok.1 hstatements
  have hparts : parts { t with space := none } = .ok ps := hps
  rw [hparts] at hplain
  refine ⟨_, hplain, ?_⟩
  obtain ⟨first, rests, rfl⟩ := parts_eq_ok hps
  -- The block that is taken out is the name of the namespace with its point.
  have hqualifier : (space.written ++ ".").toList = space.written.toList ++ ['.'] :=
    String.toList_append
  have hlength : (space.written ++ ".").toList.length = space.written.toList.length + 1 := by
    rw [hqualifier, List.length_append]
    rfl
  have hpoint : Solid (space.written ++ ".").toList := by
    rw [hqualifier]
    exact solid_concat_point hsolid
  have hopenings : ∀ p ∈ (tableWords, first) :: rests.map fun rest => (commentWords, rest),
      EndsBlank p.1.toList := by
    refine List.forall_mem_cons.2 ⟨endsBlank_tableWords, ?_⟩
    intro p hp
    obtain ⟨rest, _, rfl⟩ := List.mem_map.1 hp
    exact endsBlank_commentWords
  have hclean := Part.clean_chunks hpoint hopenings
  rw [hlength] at hclean
  have hiff := Sql.removeQualifier_eq_iff hsolid h hclean (Part.chars_chunks _ _)
  rw [← hlength, Part.kept_chunks, Part.places_chunks, String.toList_inj] at hiff
  exact hiff

end Grammar

namespace Generator

/-- A Firebird generator whose database has no blank in its name writes a schema without a namespace
as a draft that names the database, and removes the name. What it answers is the script of the same
table without a namespace exactly if the name is removed where the statements of the draft name
their table, and nowhere else. So it is whenever no name is a word for a block, no comment has a
backslash, and types and default values are balanced. -/
theorem script_eq_unqualified_iff {g : Generator} {config : FirebirdConfig}
    (hb : g.builder = some (.specialized (.firebird config)))
    (hdatabase : Solid config.database.written.toList) {s : Schema}
    (hs : s.space.truthy = false) {text : String} (h : (g.script (some s)).outcome = .ok text) :
    let table := s.toTable (.specialized (.firebird config)) config.database
    ∃ statements plain, (Grammar.firebird.createTable table).outcome = .ok statements ∧
      (Grammar.firebird.createTable { table with space := none }).outcome = .ok plain ∧
      (text = String.intercalate statementSeparator plain ↔
        strikes config.database.written.toList
            (String.intercalate statementSeparator statements).toList =
          tablePlaces statements) ∧
      (BareName config.database.chars → s.Bare →
        text = String.intercalate statementSeparator plain) := by
  intro table
  unfold script at h
  simp only [hb] at h
  obtain ⟨draft, hdraft, h⟩ := outcome_bind_eq_ok.1 h
  obtain ⟨l, hl, rfl⟩ := Builder.draft_eq_ok.1 hdraft
  obtain ⟨_, space, hspace, hl⟩ := Builder.layOut_eq_ok.1 hl
  obtain ⟨rfl, hspace⟩ := Schema.spaceFor_undeclared hs hspace
  have hstatements : (Grammar.firebird.createTable table).outcome =
      .ok (l.statements .firebird) := by
    rw [Grammar.createTable_outcome]
    exact map_eq_ok.2 ⟨l, hl, rfl⟩
  obtain ⟨plain, hplain, hiff⟩ :=
    Grammar.removeQualifier_eq_iff hspace hdatabase hstatements h
  refine ⟨_, plain, hstatements, hplain, hiff, fun hname hbare => ?_⟩
  exact Grammar.removeQualifier_bare hspace (hbare.outline hspace hname) hstatements h hplain

/-- A comment that holds the name of the database, a separator and an apostrophe does no harm: the
name is removed twice, where the two statements name their table. -/
theorem script_eq_unqualified_literal :
    let column : SchemaColumn :=
      ⟨.text "a_1", .text "decimal(9, 2)", false, true, false, .text "0",
        .text "it's DB.t; create table DB.t"⟩
    let s : Schema := ⟨.text "t", .null, [column]⟩
    let config : FirebirdConfig := ⟨.text "h", .text "DB", 3050, .null, .null, true⟩
    let b : Builder := .specialized (.firebird config)
    let g : Generator := ⟨.firebird, some ⟨.text "DB", [(.text "host", .text "h")]⟩, some b⟩
    Solid config.database.written.toList ∧ s.space.truthy = false ∧
      BareName config.database.chars ∧ s.Bare ∧
      ∃ text statements plain, (g.script (some s)).outcome = .ok text ∧
        (Grammar.firebird.createTable (s.toTable b config.database)).outcome = .ok statements ∧
        (Grammar.firebird.createTable
          { s.toTable b config.database with space := none }).outcome = .ok plain ∧
        text = String.intercalate statementSeparator plain ∧
        strikes config.database.written.toList
            (String.intercalate statementSeparator statements).toList =
          tablePlaces statements := by
  intro column s config b g
  have hdatabase : Solid config.database.written.toList := by decide +kernel
  have hs : s.space.truthy = false := rfl
  have hname : BareName config.database.chars := by decide +kernel
  have hbare : s.Bare := by
    refine ⟨by decide +kernel, fun c hc => ?_⟩
    cases List.mem_singleton.1 hc
    refine ⟨by decide +kernel, by decide +kernel, ?_, ?_⟩
    · rintro v ⟨⟩
      decide +kernel
    · rintro v ⟨⟩
      decide +kernel
  have h : (g.script (some s)).outcome = .ok
      "create table t (a_1 decimal(9, 2) default 0 not null, constraint t_pkey primary key (a_1));\ncomment on column t.a_1 is 'it''s DB.t; create table DB.t'" :=
    eq_ok_of_toOption (by decide +kernel)
  obtain ⟨statements, plain, hstatements, hplain, hiff, hunqualified⟩ :=
    script_eq_unqualified_iff rfl hdatabase hs h
  have htext := hunqualified hname hbare
  exact ⟨hdatabase, hs, hname, hbare, _, statements, plain, h, hstatements, hplain, htext,
    hiff.1 htext⟩

/-- A comment that ends with a backslash runs into the next statement, which keeps the name of the
database. -/
theorem script_ne_unqualified_backslash :
    let column (name comment : String) : SchemaColumn :=
      ⟨.text name, .text "int", false, false, false, .null, .text comment⟩
    let s : Schema := ⟨.text "t", .null, [column "a" "x\\", column "b" "y"]⟩
    let c : Connection := ⟨.text "DB", [(.text "host", .text "h")]⟩
    let config : FirebirdConfig := ⟨.text "h", .text "DB", 3050, .null, .null, true⟩
    let b : Builder := .specialized (.firebird config)
    let g : Generator := ⟨.firebird, some c, some b⟩
    (create .standard (.dialect .firebird) (.kept (some c))).outcome = .ok g ∧
      ∃ text plain, (g.script (some s)).outcome = .ok text ∧
        (Grammar.firebird.createTable
          { s.toTable b config.database with space := none }).outcome = .ok plain ∧
        text = "create table t (a int not null, b int not null);\ncomment on column t.a is 'x\\';\ncomment on column DB.t.b is 'y'" ∧
        text ≠ String.intercalate statementSeparator plain := by
  intro column s c config b g
  have hcreate : (create .standard (.dialect .firebird) (.kept (some c))).outcome = .ok g := by
    simp only [c, g, b, config]
    rfl
  exact ⟨hcreate, _, _, eq_ok_of_toOption (by decide +kernel), rfl, rfl, by decide +kernel⟩

end Generator

end TableScript
