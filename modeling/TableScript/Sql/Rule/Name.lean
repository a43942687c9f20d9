import TableScript.Sql.Rule.Basic

/-!
# Names and places for parameters

A word is a name where its neighbours say so: before or after a point, before a parenthesis, or
after a sigil. After a dollar sign or a colon it is a place for a parameter.
-/

namespace TableScript.Sql

open TableScript.Text

namespace Rule

def parenthesizedWord? : List Char → Option Nat
  | '(' :: rest =>
    let n := spanLength isWord rest
    match rest.drop n with
    | ')' :: _ => if n = 0 then none else some (n + 2)
    | _ => none
  | _ => none

/-- A question mark, or a percent sign with an S and perhaps a word in parentheses between them. -/
def placeholder : Rule := fun _ cs =>
  match cs with
  | '?' :: _ => some (.placeholder, 1)
  | '%' :: rest =>
    let n := (parenthesizedWord? rest).getD 0
    (keywordLength? ['S'] (rest.drop n)).map fun _ => (.placeholder, n + 2)
  | _ => none

/-- A word after a dollar sign or a colon that no word precedes. -/
def markedWord : Rule := fun before cs =>
  match cs with
  | c :: rest =>
    if (c = '$' ∨ c = ':') ∧ !afterWord before then
      let n := spanLength isWord rest
      if n = 0 then none else some (.placeholder, n + 1)
    else none
  | [] => none

/-- A word after a backslash. -/
def command : Rule := fun _ cs =>
  match cs with
  | '\\' :: rest =>
    let n := spanLength isWord rest
    if n = 0 then none else some (.command, n + 1)
  | _ => none

/-- The length of a name: a letter and the word characters after it. -/
def nameLength? : List Char → Option Nat
  | c :: rest => if isLetter c then some (spanLength isWord rest + 1) else none
  | [] => none

/-- A name of two characters or more after `@`, `#` or `##`. -/
def sigilName : Rule := fun _ cs =>
  let tail (opening : Nat) : Option (TokenKind × Nat) :=
    match nameLength? (cs.drop opening) with
    | some n => if n < 2 then none else some (.name, opening + n)
    | none => none
  match cs with
  | '@' :: _ => tail 1
  | '#' :: '#' :: _ => tail 2
  | '#' :: _ => tail 1
  | _ => none

/-- Whether a point follows, perhaps after blanks, that no digit follows. -/
def beforePoint (cs : List Char) : Bool :=
  match cs.dropWhile isBlank with
  | '.' :: c :: _ => !isDigit c
  | ['.'] => true
  | _ => false

/-- A name before a point. -/
def qualifyingName : Rule :=
  ofLength .name fun cs =>
    match nameLength? cs with
    | some n => if beforePoint (cs.drop n) then some n else none
    | none => none

/-- A name right after a point. -/
def qualifiedName : Rule := fun before cs =>
  if before == some '.' then (nameLength? cs).map fun n => (.name, n) else none

/-- A name right before an opening parenthesis. -/
def calledName : Rule :=
  ofLength .name fun cs =>
    match nameLength? cs with
    | some n => if (cs.drop n).head? == some '(' then some n else none
    | none => none

end Rule

end TableScript.Sql
