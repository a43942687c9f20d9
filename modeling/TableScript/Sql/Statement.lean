import TableScript.Sql.Piece

/-!
# Statements of a script

Splitting gives each statement with the lines it stands on and its type. Stripped statements are
trimmed; unstripped ones keep every character, and the blanks at the end of the script go to the
last one.
-/

namespace TableScript.Sql

structure Statement where
  chars : List Char
  lineStart : Nat
  lineEnd : Nat
  type : String

def lineBreaks (cs : List Char) : Nat := cs.count '\n'

namespace Statement

def text (s : Statement) : String := String.ofList s.chars

def concat (ss : List Statement) : List Char := ss.flatMap (·.chars)

def extend (s : Statement) (cs : List Char) : Statement :=
  { s with chars := s.chars ++ cs, lineEnd := s.lineEnd + lineBreaks cs }

end Statement

/-- A statement as it stands, from the given line on. -/
def whole (line : Nat) (ts : List Token) : Statement :=
  let cs := Token.concat ts
  ⟨cs, line, line + lineBreaks cs, statementType ts⟩

/-- A trimmed statement, from the given line on; nothing if it is blank. -/
def trimmed? (line : Nat) (ts : List Token) : Option Statement :=
  let cs := Token.concat ts
  let start := line + lineBreaks (cs.takeWhile Text.isBlank)
  match Text.trimList cs with
  | [] => none
  | c :: rest => some ⟨c :: rest, start, start + lineBreaks (c :: rest), statementType ts⟩

def wholeFrom (line : Nat) : List (List Token) → List Statement
  | [] => []
  | ts :: rest => whole line ts :: wholeFrom (line + lineBreaks (Token.concat ts)) rest

def trimmedFrom (line : Nat) : List (List Token) → List Statement
  | [] => []
  | ts :: rest =>
    (trimmed? line ts).toList ++ trimmedFrom (line + lineBreaks (Token.concat ts)) rest

def extendLast (cs : List Char) : List Statement → List Statement
  | [] => []
  | [s] => [s.extend cs]
  | s :: rest => s :: extendLast cs rest

/-- Gives the blanks after the statements to the last one. -/
def attachTail (cs : List Char) (ss : List Statement) : List Statement :=
  let tail := cs.drop (Statement.concat ss).length
  if tail.all Text.isBlank then extendLast tail ss else ss

/-- The statements of a script; fails at the first that is not grouped. -/
def split (strip : Bool) (cs : List Char) : Except GroupingLimit (List Statement) :=
  let ps := pieces cs
  match ps.findSome? Token.exceeds? with
  | some limit => .error limit
  | none => .ok (if strip then trimmedFrom 1 ps else attachTail cs (wholeFrom 1 ps))

end TableScript.Sql
