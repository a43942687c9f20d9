import TableScript.Sql.Rule.Basic

/-!
# Comments and quoted texts

Tokens that run up to a closing mark: comments, texts between dollar marks, texts and names between
quotation marks. A text that is never closed is no such token.
-/

namespace TableScript.Sql

open TableScript.Text

namespace Rule

def indexOf? (part : List Char) : List Char → Option Nat
  | [] => if part.isEmpty then some 0 else none
  | c :: rest =>
    if part.isPrefixOf (c :: rest) then some 0 else (indexOf? part rest).map (· + 1)

/-- The length of a dollar mark: two dollar signs, perhaps with a name between them. -/
def dollarMark? : List Char → Option Nat
  | '$' :: '$' :: _ => some 2
  | '$' :: c :: rest =>
    if isNameStart c then
      let n := spanLength isWord rest
      match rest.drop n with
      | '$' :: _ => some (n + 3)
      | _ => none
    else none
  | _ => none

/-- A text between two equal dollar marks. -/
def dollarString : Rule := fun before cs =>
  match dollarMark? cs with
  | none => none
  | some n =>
    if afterWord before || before == some '"' || before == some '$' then none
    else (indexOf? (cs.take n) (cs.drop n)).map fun k => (.dollarString, n + k + n)

def blockComment : Rule := fun _ cs =>
  match cs with
  | '/' :: '*' :: rest =>
    (indexOf? ['*', '/'] rest).map fun k =>
      (if rest.head? = some '+' then .blockHint else .blockComment, k + 4)
  | _ => none

/-- The length of the rest of a line, with its end. -/
def lineLength : List Char → Nat
  | [] => 0
  | ['\r'] => 1
  | '\r' :: c :: _ => if c = '\n' then 2 else 1
  | c :: rest => if c = '\n' then 1 else lineLength rest + 1

/-- A comment up to the end of the line, after two dashes or a number sign and a space. -/
def lineComment : Rule := fun _ cs =>
  match cs with
  | '-' :: '-' :: rest =>
    some (if rest.head? = some '+' then .lineHint else .lineComment, lineLength rest + 2)
  | '#' :: ' ' :: rest =>
    some (if rest.head? = some '+' then .lineHint else .lineComment, lineLength rest + 2)
  | _ => none

/-- The length up to the closing mark of a quoted text, without the opening one. The mark inside is
written twice; if nothing closes the text then, the last pair does. -/
def pairedLength? (mark : Char) : List Char → Option Nat
  | [] => none
  | [c] => if c = mark then some 1 else none
  | c :: d :: rest =>
    if c = mark then
      if d = mark then ((pairedLength? mark rest).map (· + 2)).or (some 1) else some 1
    else (pairedLength? mark (d :: rest)).map (· + 1)

/-- As `pairedLength?`, where a backslash before the mark also keeps it inside. -/
def escapedLength? (mark : Char) : List Char → Option Nat
  | [] => none
  | [c] => if c = mark then some 1 else none
  | c :: d :: rest =>
    if c = mark then
      if d = mark then ((escapedLength? mark rest).map (· + 2)).or (some 1) else some 1
    else if c = '\\' ∧ d = mark then
      ((escapedLength? mark rest).map (· + 2)).or (some 2)
    else (escapedLength? mark (d :: rest)).map (· + 1)

/-- A name between marks. -/
def markedName (mark : Char) : Rule := fun _ cs =>
  match cs with
  | c :: rest => if c = mark then (pairedLength? mark rest).map fun n => (.name, n + 1) else none
  | [] => none

/-- A text between apostrophes or double quotes. -/
def quotedString (mark : Char) : Rule := fun _ cs =>
  match cs with
  | c :: rest =>
    if c = mark then (escapedLength? mark rest).map fun n => (.string, n + 1) else none
  | [] => none

/-- A name in brackets, which nothing may precede that could be indexed. -/
def bracketedName : Rule := fun before cs =>
  match cs with
  | '[' :: rest =>
    if afterWord before || before == some ']' || before == some ')' then none
    else
      let n := spanLength (fun c => c != '[' && c != ']') rest
      match rest.drop n with
      | ']' :: _ => if n = 0 then none else some (.name, n + 2)
      | _ => none
  | _ => none

end Rule

end TableScript.Sql
