import Mathlib.Data.List.Infix
import TableScript.Grammar
import TableScript.Proofs.Sql.Quoting

/-!
# Names and literals of a grammar

A database reads a name between the marks of its grammar and a literal by a rule of its own.
`Grammar.readIdentifier?` and `Grammar.readString?` read the name or the literal that begins a text.
They give back what the grammar quotes, whatever it holds, exactly if the text does not go on with
one more closing mark; where only a backslash escapes, a literal may be followed by anything.
-/

namespace TableScript

open Sql

namespace Grammar

/-! ## What is written -/

def nameChars (g : Grammar) (cs : List Char) : List Char :=
  match g.marks with
  | some (opening, closing) => encloseName opening closing cs
  | none => cs

def textChars (g : Grammar) (cs : List Char) : List Char := g.literalStyle.enclose cs

theorem toList_quoteName (g : Grammar) (s : String) :
    (g.quoteName s).toList = g.nameChars s.toList := by
  unfold quoteName nameChars
  cases g.marks with
  | none => rfl
  | some m => exact String.toList_ofList

theorem toList_quoteText (g : Grammar) (s : String) :
    (g.quoteText s).toList = g.textChars s.toList := String.toList_ofList

/-- Only Firebird leaves names without marks. -/
theorem exists_marks {g : Grammar} (hg : g ≠ .firebird) :
    ∃ opening closing, g.marks = some (opening, closing) ∧ opening ∉ ['p', 'c'] ∧
      closing ∉ ['.', ' ', ',', ')', ';'] := by
  cases g with
  | firebird => exact absurd rfl hg
  | sqlserver => exact ⟨'[', ']', rfl, by decide, by decide⟩
  | mysql | sqlite | bigquery => exact ⟨'\x60', '\x60', rfl, by decide, by decide⟩
  | postgresql | redshift | oracle | cassandra => exact ⟨'"', '"', rfl, by decide, by decide⟩

theorem toList_closingMark {g : Grammar} {opening closing : Char}
    (h : g.marks = some (opening, closing)) : g.closingMark.toList = [closing] := by
  simp [closingMark, h]

/-! ## What is read -/

def literalOpening : Grammar → List Char
  | sqlserver => ['N', '\x27']
  | _ => ['\x27']

/-- Reads the inside of a literal and the apostrophe that ends it. An apostrophe that is written
twice stands for one. MySQL also takes a backslash for an escape of the next character, and BigQuery
knows this escape only. -/
def readInside : Grammar → List Char → Option (List Char × List Char)
  | mysql => readEscaped true
  | bigquery => readEscaped false
  | _ => readToMark '\x27'

def readLiteral (g : Grammar) (cs : List Char) : Option (List Char × List Char) :=
  (cs.dropPrefix? g.literalOpening).bind g.readInside

/-- The name that begins a text, and what follows it. -/
def readIdentifier? (g : Grammar) (text : String) : Option (String × String) :=
  (g.marks.bind fun m => readName m.1 m.2 text.toList).map (Prod.map String.ofList String.ofList)

/-- The literal that begins a text, and what follows it. -/
def readString? (g : Grammar) (text : String) : Option (String × String) :=
  (g.readLiteral text.toList).map (Prod.map String.ofList String.ofList)

theorem map_ofList_eq_some {r : Option (List Char × List Char)} {s rest : String} :
    r.map (Prod.map String.ofList String.ofList) = some (s, rest) ↔
      r = some (s.toList, rest.toList) := by
  constructor
  · intro h
    obtain ⟨r, rfl, hr⟩ := Option.map_eq_some_iff.1 h
    cases hr
    simp
  · rintro rfl
    simp

theorem textChars_append (g : Grammar) (cs rest : List Char) :
    g.textChars cs ++ rest =
      g.literalOpening ++ (g.literalStyle.inside cs ++ '\x27' :: rest) := by
  cases g <;> simp [textChars, literalStyle, LiteralStyle.enclose, literalOpening]

/-- What a grammar writes inside a literal is what its database reads there. -/
theorem readInside_iff {g : Grammar} {cs rest : List Char} :
    g.readInside (g.literalStyle.inside cs ++ '\x27' :: rest) = some (cs, rest) ↔
      g = .bigquery ∨ rest.head? ≠ some '\x27' := by
  cases g with
  | mysql =>
      rw [or_iff_right (by decide)]
      exact readEscaped_double_iff
  | bigquery =>
      rw [iff_true_right (.inl rfl)]
      exact readEscaped_escaped cs rest
  | postgresql | redshift | sqlite | sqlserver | oracle | cassandra | firebird =>
      rw [or_iff_right (by decide)]
      exact readToMark_double_iff

theorem readIdentifier?_quoteName_iff {g : Grammar} (hg : g ≠ .firebird) {s rest : String} :
    g.readIdentifier? (g.quoteName s ++ rest) = some (s, rest) ↔
      ¬ g.closingMark.toList <+: rest.toList := by
  obtain ⟨opening, closing, hm, _⟩ := exists_marks hg
  rw [readIdentifier?, map_ofList_eq_some, hm, String.toList_append, toList_quoteName,
    toList_closingMark hm, List.singleton_prefix_iff_head?_eq_some]
  simp only [nameChars, hm]
  exact readName_encloseName_iff

theorem readLiteral_textChars_iff {g : Grammar} {cs rest : List Char} :
    g.readLiteral (g.textChars cs ++ rest) = some (cs, rest) ↔
      g = .bigquery ∨ rest.head? ≠ some '\x27' := by
  rw [readLiteral, textChars_append, List.dropPrefix?_append_of_beq _ (beq_self_eq_true _)]
  exact readInside_iff

theorem readString?_quoteText_iff {g : Grammar} {s rest : String} :
    g.readString? (g.quoteText s ++ rest) = some (s, rest) ↔
      g = .bigquery ∨ ¬ ['\x27'] <+: rest.toList := by
  rw [readString?, map_ofList_eq_some, String.toList_append, toList_quoteText,
    List.singleton_prefix_iff_head?_eq_some]
  exact readLiteral_textChars_iff

/-- Whatever a text holds, it is read back from its quoted name and from its quoted literal, and what
follows is left, exactly if that does not begin with the mark that closed them. BigQuery's literals
do without the condition, since there two apostrophes never stand for one. -/
theorem read_quoted_iff (g : Grammar) (s : String) :
    (g ≠ .firebird → ∃ name, g.quoteIdentifier (.text s) = .ok name ∧
      ∀ rest, g.readIdentifier? (name ++ rest) = some (s, rest) ↔
        ¬ g.closingMark.toList <+: rest.toList) ∧
    ∃ literal, g.quoteString (.text s) = .ok literal ∧
      ∀ rest, g.readString? (literal ++ rest) = some (s, rest) ↔
        g = .bigquery ∨ ¬ ['\x27'] <+: rest.toList := by
  refine ⟨fun hg => ?_, ?_⟩
  · exact ⟨g.quoteName s, quoteIdentifier_text g s, fun rest => readIdentifier?_quoteName_iff hg⟩
  · exact ⟨g.quoteText s, quoteString_text g s, fun rest => readString?_quoteText_iff⟩

/-- A backslash before a doubled apostrophe, and a mark before the closing one. -/
theorem read_quoted_mysql :
    let s := "it\\'s\x60"
    mysql ≠ .firebird ∧ mysql.quoteIdentifier (.text s) = .ok "\x60it\\'s\x60\x60\x60" ∧
      mysql.readIdentifier? ("\x60it\\'s\x60\x60\x60" ++ " int") = some (s, " int") ∧
      mysql.quoteString (.text s) = .ok "'it\\\\''s\x60'" ∧
      mysql.readString? ("'it\\\\''s\x60'" ++ ", ") = some (s, ", ") := by
  intro s
  have hname : mysql.quoteIdentifier (.text s) = .ok "\x60it\\'s\x60\x60\x60" :=
    congrArg Except.ok (by decide +kernel)
  have hliteral : mysql.quoteString (.text s) = .ok "'it\\\\''s\x60'" :=
    congrArg Except.ok (by decide +kernel)
  obtain ⟨hnames, literal, hwritten, hstring⟩ := read_quoted_iff mysql s
  obtain ⟨name, hquoted, hidentifier⟩ := hnames (by decide)
  cases hname.symm.trans hquoted
  cases hliteral.symm.trans hwritten
  exact ⟨by decide, hname, (hidentifier " int").2 (by decide), hliteral,
    (hstring ", ").2 (.inr (by decide))⟩

end Grammar

end TableScript
