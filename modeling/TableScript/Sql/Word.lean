import TableScript.Sql.Token
import TableScript.Text.Blank
import TableScript.Text.Digit
import TableScript.Text.Word

/-!
# Words and keywords

Keywords are recognised in any letter case. Some characters beyond ASCII count as one of their
letters: the dotless i and the dotted capital I as I, the long s as S, and the kelvin sign as K.
-/

namespace TableScript.Sql

open TableScript.Text

/-- A letter that may begin a name: Latin, with the accents of Western Europe. -/
def isLetter (c : Char) : Bool :=
  let n := c.toNat
  (65 ≤ n && n ≤ 90) || (97 ≤ n && n ≤ 122) || (0xc0 ≤ n && n ≤ 0xdc) ||
    (0xe0 ≤ n && n ≤ 0xf6) || (0xf8 ≤ n && n ≤ 0xfc) || n == 0x130 || n == 0x131 || n == 0x17f ||
    n == 0x212a || n == 0x212b

def isNameStart (c : Char) : Bool := c == '_' || isLetter c

/-- The capital that a character counts as when it is compared with a keyword. -/
def capital (c : Char) : Char :=
  let n := c.toNat
  if 97 ≤ n && n ≤ 122 then Char.ofNat (n - 32)
  else if n == 0x130 || n == 0x131 then 'I'
  else if n == 0x17f then 'S'
  else if n == 0x212a then 'K'
  else c

/-- The capitals that a character is written with. The kelvin sign and the dotted capital I are
capitals already; the sharp s and the ligatures have several. -/
def capitals (c : Char) : List Char :=
  let n := c.toNat
  if 97 ≤ n && n ≤ 122 then [Char.ofNat (n - 32)]
  else if n == 0x131 then ['I']
  else if n == 0x17f then ['S']
  else if n == 0xdf then ['S', 'S']
  else if n == 0xfb00 then ['F', 'F']
  else if n == 0xfb01 then ['F', 'I']
  else if n == 0xfb02 then ['F', 'L']
  else if n == 0xfb03 then ['F', 'F', 'I']
  else if n == 0xfb04 then ['F', 'F', 'L']
  else if n == 0xfb05 || n == 0xfb06 then ['S', 'T']
  else [c]

def upper (cs : List Char) : List Char := cs.flatMap capitals

/-- The number of characters at the front that satisfy `p`. -/
def spanLength (p : Char → Bool) : List Char → Nat
  | [] => 0
  | c :: rest => if p c then spanLength p rest + 1 else 0

/-- Whether a word ends here: no word character follows. -/
def atWordEnd : List Char → Bool
  | [] => true
  | c :: _ => !isWord c

def afterWord : Option Char → Bool
  | none => false
  | some c => isWord c

/-- The length of a keyword at the front. -/
def keywordLength? : List Char → List Char → Option Nat
  | [], _ => some 0
  | _ :: _, [] => none
  | k :: ks, c :: rest => if capital c = k then (keywordLength? ks rest).map (· + 1) else none

/-- The length of several keywords at the front, with blanks between them. -/
def keywordsLength? : List (List Char) → List Char → Option Nat
  | [], _ => some 0
  | [k], cs => keywordLength? k cs
  | k :: ks, cs =>
    match keywordLength? k cs with
    | none => none
    | some n =>
      let gap := spanLength isBlank (cs.drop n)
      if gap = 0 then none
      else (keywordsLength? ks (cs.drop (n + gap))).map (n + gap + ·)

/-- The length of several keywords at the front, the last of which is a whole word. -/
def phraseLength? (ks : List (List Char)) (cs : List Char) : Option Nat :=
  match keywordsLength? ks cs with
  | none => none
  | some n => if atWordEnd (cs.drop n) then some n else none

def manipulationWords : List String :=
  ["COMMIT", "DELETE", "INSERT", "MERGE", "REPLACE", "ROLLBACK", "SELECT", "START", "UPDATE",
   "UPSERT"]

def definitionWords : List String := ["ALTER", "CREATE", "DROP", "TRUNCATE"]

def blockWords : List String :=
  ["BEGIN", "DECLARE", "FOR", "WHILE", "LOOP", "DO", "IF", "CASE", "END", "GO", "TRANSACTION",
   "WORK", "DEFERRED", "IMMEDIATE", "EXCLUSIVE"]

/-- The kind of a word. Words without a meaning for the structure of a script are names. -/
def wordKind (cs : List Char) : TokenKind :=
  let word := String.ofList (upper cs)
  if manipulationWords.contains word then .manipulation
  else if definitionWords.contains word then .definition
  else if word == "WITH" then .commonTable
  else if blockWords.contains word then .keyword
  else .name

end TableScript.Sql
