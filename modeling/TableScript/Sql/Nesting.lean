import TableScript.Decimal.Notation
import TableScript.Sql.Token

/-!
# Nesting of parentheses

An opening parenthesis is matched when a closing one brings the count back to where it was. The
depth of a list of tokens is the deepest nesting of matched parentheses. A statement is grouped
only if it has few enough tokens and is not nested too deeply.
-/

namespace TableScript.Sql

inductive GroupingLimit where
  | tooManyTokens
  | tooDeep
deriving DecidableEq

def tokenLimit : Nat := 10000

/-- The deepest nesting of parentheses in a statement. -/
def depthLimit : Nat := 100

def GroupingLimit.message : GroupingLimit → String
  | tooManyTokens =>
    "Maximum number of tokens exceeded (" ++ Decimal.naturalText tokenLimit ++ ")."
  | tooDeep => "Maximum grouping depth exceeded (" ++ Decimal.naturalText depthLimit ++ ")."

namespace Token

def isOpening (t : Token) : Bool := t.isMark '('

def isClosing (t : Token) : Bool := t.isMark ')'

/-- The depth of the tokens, given the heights of what lies inside the parentheses that are open,
the innermost first, and the greatest height so far. -/
def depthFrom : List Nat → Nat → List Token → Nat
  | _, best, [] => best
  | inner, best, t :: rest =>
    if t.isOpening then depthFrom (0 :: inner) best rest
    else if t.isClosing then
      match inner with
      | [] => depthFrom [] best rest
      | [h] => depthFrom [] (max best (h + 1)) rest
      | h :: outer :: others => depthFrom (max outer (h + 1) :: others) (max best (h + 1)) rest
    else depthFrom inner best rest

/-- The deepest nesting of matched parentheses. -/
def depth (ts : List Token) : Nat := depthFrom [] 0 ts

/-- Which limit a statement exceeds, if any. -/
def exceeds? (ts : List Token) : Option GroupingLimit :=
  if tokenLimit < ts.length then some .tooManyTokens
  else if depthLimit < depth ts then some .tooDeep
  else none

/-- What follows the closing parenthesis that matches the one before, `open` levels further out. -/
def afterGroup? : Nat → List Token → Option (List Token)
  | _, [] => none
  | level, t :: rest =>
    if t.isOpening then afterGroup? (level + 1) rest
    else if t.isClosing then
      match level with
      | 0 => some rest
      | n + 1 => afterGroup? n rest
    else afterGroup? level rest

theorem length_of_afterGroup? {level : Nat} {ts rest : List Token}
    (h : afterGroup? level ts = some rest) : rest.length < ts.length := by
  induction ts generalizing level with
  | nil => simp [afterGroup?] at h
  | cons t us ih =>
    simp only [afterGroup?] at h
    split at h
    · exact Nat.lt_succ_of_lt (ih h)
    · split at h
      · split at h
        · simp only [Option.some.injEq] at h
          subst h
          simp
        · exact Nat.lt_succ_of_lt (ih h)
      · exact Nat.lt_succ_of_lt (ih h)

end Token

end TableScript.Sql
