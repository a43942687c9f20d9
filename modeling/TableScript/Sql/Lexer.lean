import TableScript.Sql.Rule.Name
import TableScript.Sql.Rule.Number
import TableScript.Sql.Rule.Phrase
import TableScript.Sql.Rule.Quoted

/-!
# Cutting a script into tokens

At each place the first rule that matches decides about the next token; where none matches, one
character is a token by itself. Nothing of a script is lost.
-/

namespace TableScript.Sql

def rules : List Rule :=
  [.dollarString, .blockComment, .lineComment, .newline, .blank, .shortMark, .markedName '\x60',
   .markedName '\u00b4', .placeholder, .markedWord, .command, .phrases .keyword plainKeywords,
   .sigilName, .qualifyingName, .qualifiedName, .calledName, .hexNumber, .exponentNumber,
   .pointNumber, .wholeNumber, .quotedString '\x27', .quotedString '"', .bracketedName,
   .phrases .keyword joinPhrases, .phrases .keyword endPhrases,
   .phrases .keyword conditionPhrases, .phrases .order orderPhrases,
   .phrases .keyword (readPhrases [["UNION", "ALL"]]), .phrases .definition createPhrases,
   .phrases .name (readPhrases [["DOUBLE", "PRECISION"]]), .phrases .keyword clausePhrases,
   .repeatedBatch, .phrases .keyword lateralPhrases, .timeZone, .phrases .operator likePhrases,
   .word, .punctuation, .documentOperator, .run .operator Rule.isComparison,
   .run .operator Rule.isArithmetic]

/-- The kind and length of the token at the front. -/
def firstMatch (before : Option Char) (cs : List Char) : TokenKind × Nat :=
  (rules.findSome? fun rule => rule before cs).getD (.unknown, 1)

/-- The tokens of the rest of a script, given the character before. -/
def tokensFrom (before : Option Char) : List Char → List Token
  | [] => []
  | c :: rest =>
    let (kind, n) := firstMatch before (c :: rest)
    let taken := c :: rest.take (n - 1)
    ⟨kind, taken⟩ :: tokensFrom taken.getLast? (rest.drop (n - 1))
termination_by cs => cs.length
decreasing_by
  simp only [List.length_drop, List.length_cons]
  omega

def tokens (cs : List Char) : List Token := tokensFrom none cs

theorem concat_tokensFrom (before : Option Char) (cs : List Char) :
    Token.concat (tokensFrom before cs) = cs := by
  induction h : cs.length using Nat.strongRecOn generalizing before cs with
  | _ n ih =>
    cases cs with
    | nil => simp [tokensFrom]
    | cons c rest =>
      rw [tokensFrom]
      simp only [Token.concat_cons, List.cons_append]
      rw [ih (rest.drop _).length _ _ _ rfl, List.take_append_drop]
      simp only [List.length_drop, ← h, List.length_cons]
      omega

/-- Nothing of a script is lost. -/
theorem concat_tokens (cs : List Char) : Token.concat (tokens cs) = cs :=
  concat_tokensFrom none cs

end TableScript.Sql
