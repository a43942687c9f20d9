import TableScript.Sql.Word

/-!
# Rules for tokens

A rule looks at one place of a script. It sees the character before the place and the rest of the
script, and gives the kind and the length of the token that begins there, or nothing.
-/

namespace TableScript.Sql

open TableScript.Text

/-- A rule: from the character before and the rest of the script to the kind and length of a
token. -/
abbrev Rule := Option Char → List Char → Option (TokenKind × Nat)

namespace Rule

/-- A rule that always gives the same kind, from one that gives the length. -/
def ofLength (kind : TokenKind) (length? : List Char → Option Nat) : Rule :=
  fun _ cs => (length? cs).map fun n => (kind, n)

/-- A run of characters of one class. -/
def run (kind : TokenKind) (p : Char → Bool) : Rule :=
  ofLength kind fun cs =>
    let n := spanLength p cs
    if n = 0 then none else some n

def newline : Rule := fun _ cs =>
  match cs with
  | '\r' :: '\n' :: _ => some (.newline, 2)
  | '\r' :: _ => some (.newline, 1)
  | '\n' :: _ => some (.newline, 1)
  | _ => none

def blank : Rule := fun _ cs =>
  match cs with
  | c :: _ => if isBlank c then some (.blank, 1) else none
  | [] => none

/-- Assignments, casts and wildcards. -/
def shortMark : Rule := fun _ cs =>
  match cs with
  | ':' :: '=' :: _ => some (.assignment, 2)
  | ':' :: ':' :: _ => some (.punctuation, 2)
  | '*' :: _ => some (.wildcard, 1)
  | _ => none

def word : Rule := fun _ cs =>
  match cs with
  | c :: rest =>
    if isWord c then
      let n := spanLength (fun d => isWord d || d == '$' || d == '#') rest
      some (wordKind (cs.take (n + 1)), n + 1)
    else none
  | [] => none

def isPunctuation (c : Char) : Bool :=
  c == ';' || c == ':' || c == '(' || c == ')' || c == '[' || c == ']' || c == ',' || c == '.'

def punctuation : Rule := fun _ cs =>
  match cs with
  | c :: _ => if isPunctuation c then some (.punctuation, 1) else none
  | [] => none

/-- Operators on documents, and the minus sign. -/
def documentOperator : Rule :=
  ofLength .operator fun cs =>
    match cs with
    | '-' :: '>' :: '>' :: _ => some 3
    | '-' :: '>' :: _ => some 2
    | '#' :: '>' :: '>' :: _ => some 3
    | '#' :: '>' :: _ => some 2
    | '@' :: '>' :: _ => some 2
    | '<' :: '@' :: _ => some 2
    | '-' :: _ => some 1
    | '#' :: '-' :: _ => some 2
    | _ => none

def isComparison (c : Char) : Bool := c == '<' || c == '>' || c == '=' || c == '~' || c == '!'

def isArithmetic (c : Char) : Bool :=
  c == '+' || c == '/' || c == '@' || c == '#' || c == '%' || c == '^' || c == '&' || c == '|' ||
    c == '-'

end Rule

end TableScript.Sql
