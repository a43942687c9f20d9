import TableScript.Logged
import TableScript.Sql.Statement
import TableScript.Text.CaseFold

/-!
# Removing a qualifier

A statement that creates a table or comments on a column names a table right after its opening
words. If that name begins with the qualifier and a point, in any letter case, both are removed.
Nothing else of the script changes.
-/

namespace TableScript.Sql

open TableScript.Text

def openings : List (List (List Char)) :=
  readPhrases [["CREATE", "TABLE"], ["COMMENT", "ON", "COLUMN"]]

/-- The length of the opening words and of the blanks before them. -/
def openingLength? (cs : List Char) : Option Nat :=
  let margin := spanLength isBlank cs
  (openings.findSome? fun ks => keywordsLength? ks (cs.drop margin)).map (margin + ·)

/-- Whether a text begins with another one, ignoring letter case. -/
def beginsWith : List Char → List Char → Bool
  | [], _ => true
  | _ :: _, [] => false
  | a :: as, c :: cs => sameLetter a c && beginsWith as cs

/-- The longest run of `gap` blanks or fewer, but one at least, after which the text begins with the
given one. -/
def longestGap? (name cs : List Char) : Nat → Option Nat
  | 0 => none
  | gap + 1 =>
    if beginsWith name (cs.drop (gap + 1)) then some (gap + 1) else longestGap? name cs gap

/-- The place of the qualifier in a statement. -/
def qualifierPlace? (name cs : List Char) : Option Nat :=
  match openingLength? cs with
  | none => none
  | some n =>
    let rest := cs.drop n
    (longestGap? name rest (spanLength isBlank rest)).map (n + ·)

/-- Removes the qualifier and its point from a statement. -/
def unqualify (qualifier cs : List Char) : List Char :=
  let name := qualifier ++ ['.']
  match qualifierPlace? name cs with
  | some n => cs.take n ++ cs.drop (n + name.length)
  | none => cs

def removeQualifier (qualifier : String) (script : String) : Logged String :=
  match split false script.toList with
  | .error limit => do
    Logged.note (.ungrouped limit)
    Logged.fail (.render (.ungrouped limit))
  | .ok ss =>
    if Statement.concat ss = script.toList then
      Logged.answer (String.ofList (ss.flatMap fun s => unqualify qualifier.toList s.chars))
    else do
      Logged.note .uncovered
      Logged.fail (.render .uncovered)

end TableScript.Sql
