/-!
# Tokens of a script

A script is cut into tokens, and nothing of it is lost: the tokens' characters, put together again,
are the script. The kinds are as fine as the cutting into statements needs.
-/

namespace TableScript.Sql

inductive TokenKind where
  | blank
  | newline
  | lineComment
  | lineHint
  | blockComment
  | blockHint
  | keyword
  | manipulation
  | definition
  | commonTable
  | order
  | timeZone
  | punctuation
  | name
  | placeholder
  | command
  | number
  | string
  | dollarString
  | operator
  | assignment
  | wildcard
  | unknown
deriving DecidableEq

namespace TokenKind

def isKeyword : TokenKind → Bool
  | keyword | manipulation | definition | commonTable | order | timeZone => true
  | _ => false

def isWhitespace : TokenKind → Bool
  | blank | newline => true
  | _ => false

def isComment : TokenKind → Bool
  | lineComment | lineHint | blockComment | blockHint => true
  | _ => false

end TokenKind

structure Token where
  kind : TokenKind
  chars : List Char
deriving DecidableEq

namespace Token

def isMark (t : Token) (c : Char) : Bool := t.kind == .punctuation && t.chars == [c]

def concat (ts : List Token) : List Char := ts.flatMap (·.chars)

@[simp] theorem concat_nil : concat [] = [] := rfl

@[simp] theorem concat_cons (t : Token) (ts : List Token) :
    concat (t :: ts) = t.chars ++ concat ts := rfl

@[simp] theorem concat_append (ts us : List Token) :
    concat (ts ++ us) = concat ts ++ concat us := by simp [concat]

end Token

end TableScript.Sql
