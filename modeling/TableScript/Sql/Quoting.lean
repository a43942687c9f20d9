/-!
# Quoted names and literals

A quoted name ends at its closing mark, and a closing mark inside the name is written twice. A
literal ends at an apostrophe; inside, an apostrophe is written twice or after a backslash, and
some databases read a backslash as an escape. Beside the ways of writing stand the rules by which a
name, and the inside of a literal, are read.
-/

namespace TableScript.Sql

/-- How a database writes the inside of a literal. -/
inductive LiteralStyle where
  /-- An apostrophe is written twice. -/
  | doubled
  /-- As `doubled`, after a leading `N`. -/
  | national
  /-- An apostrophe and a backslash are written twice. -/
  | doubledEscape
  /-- An apostrophe and a backslash are written after a backslash. -/
  | escaped
deriving DecidableEq

/-- Writes a mark twice wherever it occurs. -/
def double (mark : Char) : List Char → List Char
  | [] => []
  | c :: rest => if c = mark then mark :: mark :: double mark rest else c :: double mark rest

def LiteralStyle.inside : LiteralStyle → List Char → List Char
  | .doubled, cs => double '\x27' cs
  | .national, cs => double '\x27' cs
  | .doubledEscape, cs => double '\x27' (double '\\' cs)
  | .escaped, cs => cs.flatMap fun c => if c = '\\' ∨ c = '\x27' then ['\\', c] else [c]

def LiteralStyle.enclose (style : LiteralStyle) (cs : List Char) : List Char :=
  let literal := '\x27' :: style.inside cs ++ ['\x27']
  if style = .national then 'N' :: literal else literal

def encloseName (opening closing : Char) (cs : List Char) : List Char :=
  opening :: double closing cs ++ [closing]

/-- Reads up to the first closing mark that is not written twice. -/
def readToMark (mark : Char) : List Char → Option (List Char × List Char)
  | [] => none
  | [c] => if c = mark then some ([], []) else none
  | c :: d :: rest =>
    if c = mark then
      if d = mark then (readToMark mark rest).map fun r => (mark :: r.1, r.2)
      else some ([], d :: rest)
    else (readToMark mark (d :: rest)).map fun r => (c :: r.1, r.2)

/-- Reads the inside of a literal in which a backslash escapes the next character. With `pairs`, an
apostrophe that is written twice stands for one. -/
def readEscaped (pairs : Bool) : List Char → Option (List Char × List Char)
  | [] => none
  | '\\' :: c :: rest => (readEscaped pairs rest).map fun r => (c :: r.1, r.2)
  | '\x27' :: '\x27' :: rest =>
    if pairs then (readEscaped pairs rest).map fun r => ('\x27' :: r.1, r.2)
    else some ([], '\x27' :: rest)
  | c :: rest =>
    if c = '\x27' then some ([], rest)
    else if c = '\\' then none
    else (readEscaped pairs rest).map fun r => (c :: r.1, r.2)

def readName (opening closing : Char) : List Char → Option (List Char × List Char)
  | [] => none
  | c :: rest => if c = opening then readToMark closing rest else none

end TableScript.Sql
