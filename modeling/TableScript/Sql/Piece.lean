import TableScript.Sql.Lexer
import TableScript.Sql.Nesting

/-!
# Cutting tokens into statements

A statement ends at a semicolon outside parentheses and blocks, or at the word `GO`. The blanks
and line comments that follow stay with it. Blocks are tracked by a stack; a block word counts
only where it can open or close something, so that `if` outside a body is an ordinary word.
-/

namespace TableScript.Sql

inductive Block where
  | declaration
  | body
  | forLoop
  | whileLoop
  | plainLoop
  | condition
  | choice
deriving DecidableEq

/-- The tokens that matter for the structure of a script. -/
inductive Mark where
  | terminator
  | opening
  | closing
  | createWord
  | declareWord
  | beginWord
  | qualifier
  | forWord
  | whileWord
  | loopWord
  | doWord
  | ifWord
  | caseWord
  | endIf
  | endFor
  | endWhile
  | endCase
  | endLoop
  | endWord
deriving DecidableEq

namespace Mark

def words : List (String × Mark) :=
  [("DECLARE", declareWord), ("BEGIN", beginWord), ("TRANSACTION", qualifier), ("WORK", qualifier),
   ("DEFERRED", qualifier), ("IMMEDIATE", qualifier), ("EXCLUSIVE", qualifier),
   ("FOR", forWord), ("WHILE", whileWord), ("LOOP", loopWord), ("DO", doWord), ("IF", ifWord),
   ("CASE", caseWord),
   ("END IF", endIf), ("END FOR", endFor), ("END WHILE", endWhile), ("END CASE", endCase),
   ("END LOOP", endLoop), ("END", endWord)]

def ofToken? (t : Token) : Option Mark :=
  if t.isMark ';' then some terminator
  else if t.isMark '(' then some opening
  else if t.isMark ')' then some closing
  else if t.kind = .definition then
    if "CREATE".toList.isPrefixOf (upper t.chars) then some createWord else none
  else if t.kind.isKeyword then words.lookup (String.ofList (upper t.chars))
  else none

end Mark

/-- Where the cutting of a script stands. -/
structure Cursor where
  level : Int := 0
  stack : List Block := []
  /-- A loop whose body has not begun. -/
  pending : Option Block := none
  creating : Bool := false
  opened : Bool := false
  /-- Whether the statement has ended, so that only blanks and line comments still belong to it. -/
  ended : Bool := false
deriving DecidableEq

namespace Cursor

def start : Cursor := {}

def push (s : Cursor) (b : Block) : Cursor :=
  { s with stack := b :: s.stack, level := s.level + 1 }

/-- Closes the innermost block if it is one of the given kinds. -/
def close (s : Cursor) (bs : List Block) : Cursor :=
  match s.stack with
  | b :: rest => if b ∈ bs then { s with stack := rest, level := s.level - 1 } else s
  | [] => s

def inBody (s : Cursor) : Bool := s.stack.contains .body

/-- A body that has just been opened turns out to be a transaction. -/
def unopen (s : Cursor) : Cursor :=
  if s.opened then { s.close [.body] with opened := false } else s

def openPending (s : Cursor) (b : Block) : Cursor := { s.push b with pending := none }

/-- How a mark changes the nesting. -/
def advance (s : Cursor) : Mark → Cursor
  | .terminator => { s.unopen with pending := none }
  | .opening => { s with level := s.level + 1 }
  | .closing => { s with level := s.level - 1 }
  | .createWord => { s with creating := true }
  | .declareWord => if s.creating && s.stack.isEmpty then s.push .declaration else s
  | .beginWord =>
    match s.stack with
    | .declaration :: rest => { s with stack := .body :: rest, opened := true }
    | _ => { s.push .body with opened := true }
  | .qualifier => s.unopen
  | .forWord => if s.inBody then { s with pending := some .forLoop } else s
  | .whileWord => if s.inBody then { s with pending := some .whileLoop } else s
  | .loopWord => if s.inBody then s.openPending (s.pending.getD .plainLoop) else s
  | .doWord =>
    match s.pending with
    | some b => if s.inBody then s.openPending b else s
    | none => s
  | .ifWord => if s.inBody then s.push .condition else s
  | .caseWord => if s.inBody then s.push .choice else s
  | .endIf => s.close [.condition]
  | .endFor => s.close [.forLoop]
  | .endWhile => s.close [.whileLoop]
  | .endCase => s.close [.choice]
  | .endLoop => s.close [.plainLoop, .forLoop, .whileLoop]
  | .endWord => { s with stack := s.stack.tail, level := s.level - 1 }

/-- Whether a token is the batch end `GO`, which has to be written in capitals. -/
def endsBatch (t : Token) : Bool :=
  t.kind = .keyword && t.chars.takeWhile (!Text.isBlank ·) == ['G', 'O']

/-- Whether a token leaves open what a body that has just been opened is. -/
def isTransparent (t : Token) : Bool :=
  t.kind = .blank || t.kind = .newline || t.kind = .lineComment || t.kind = .blockComment ||
    Mark.ofToken? t == some .beginWord

/-- What a token means for the end of the statement, after it has changed the nesting. -/
def settle (s : Cursor) (t : Token) : Cursor :=
  if t.isMark ';' then
    { s with opened := false, ended := decide (s.level ≤ 0) && !s.inBody }
  else if endsBatch t then { s with ended := true }
  else if isTransparent t then s
  else { s with opened := false }

def accept (s : Cursor) (t : Token) : Cursor :=
  (match Mark.ofToken? t with
    | some m => s.advance m
    | none => s).settle t

def lingers (t : Token) : Bool := t.kind = .blank || t.kind = .lineComment

end Cursor

/-- Cuts tokens into statements; `taken` are the tokens of the present one, the last first. A rest
of blanks is dropped. -/
def cutFrom (s : Cursor) (taken : List Token) : List Token → List (List Token)
  | [] => if taken.all (·.kind.isWhitespace) then [] else [taken.reverse]
  | t :: rest =>
    if s.ended && !Cursor.lingers t then
      taken.reverse :: cutFrom (Cursor.start.accept t) [t] rest
    else cutFrom (s.accept t) (t :: taken) rest

def cut (ts : List Token) : List (List Token) := cutFrom .start [] ts

def pieces (cs : List Char) : List (List Token) := cut (tokens cs)

/-- Whether a token says nothing about a statement. -/
def isFiller (t : Token) : Bool := t.kind.isWhitespace || t.kind.isComment

/-- The first word for work on rows that stands right after a group and in none. -/
def mainManipulation? (afterGroup : Bool) : List Token → Option Token
  | [] => none
  | t :: rest =>
    if t.isOpening then
      match _h : Token.afterGroup? 0 rest with
      | some r => mainManipulation? true r
      | none => mainManipulation? false rest
    else if isFiller t then mainManipulation? afterGroup rest
    else if t.kind = .manipulation && afterGroup then some t
    else mainManipulation? false rest
termination_by ts => ts.length
decreasing_by
  all_goals simp_wf
  have := Token.length_of_afterGroup? _h
  omega

/-- The type of statements that open with no known word. -/
def unknownType : String := "UNKNOWN"

/-- The word that a statement opens with, in capitals. After common table expressions it is the word
that follows them. -/
def statementType (ts : List Token) : String :=
  match ts.dropWhile isFiller with
  | [] => unknownType
  | t :: rest =>
    match t.kind with
    | .definition | .manipulation => String.ofList (upper t.chars)
    | .commonTable =>
      match mainManipulation? false rest with
      | some m => String.ofList (upper m.chars)
      | none => unknownType
    | _ => unknownType

end TableScript.Sql
