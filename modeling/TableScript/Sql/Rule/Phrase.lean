import TableScript.Sql.Rule.Basic

/-!
# Phrases

Several words that are one token. The words of a phrase are separated by blanks, and a phrase ends
where its last word ends. The longer of two phrases stands first.
-/

namespace TableScript.Sql

open TableScript.Text

namespace Rule

/-- The first of several phrases. -/
def phrases (kind : TokenKind) (ps : List (List (List Char))) : Rule :=
  ofLength kind fun cs => ps.findSome? fun ks => phraseLength? ks cs

/-- A batch end with a repeat count. -/
def repeatedBatch : Rule :=
  ofLength .keyword fun cs =>
    match keywordLength? ['G', 'O'] cs with
    | none => none
    | some n =>
      match cs.drop n with
      | c :: rest =>
        let k := spanLength isDigit rest
        if isBlank c && k != 0 && atWordEnd (rest.drop k) then some (n + 1 + k) else none
      | [] => none

/-- A conversion to a time zone that is given as a text. -/
def timeZone : Rule :=
  ofLength .timeZone fun cs =>
    let opening :=
      (keywordsLength? [['A', 'T'], ['T', 'I', 'M', 'E'], ['Z', 'O', 'N', 'E']] cs).or
        (keywordsLength?
          [['W', 'I', 'T', 'H', '\x27'], ['T', 'I', 'M', 'E'], ['Z', 'O', 'N', 'E']] cs)
    match opening with
    | none => none
    | some n =>
      let gap := spanLength isBlank (cs.drop n)
      match cs.drop (n + gap) with
      | '\x27' :: rest =>
        let k := spanLength (· != '\x27') rest
        match rest.drop k with
        | '\x27' :: _ => if gap = 0 ∨ k = 0 then none else some (n + gap + k + 2)
        | _ => none
      | _ => none

end Rule

def readPhrases (ps : List (List String)) : List (List (List Char)) := ps.map (·.map String.toList)

/-- Words that are keywords wherever they stand. -/
def plainKeywords : List (List (List Char)) :=
  readPhrases [["CASE"], ["IN"], ["VALUES"], ["USING"], ["FROM"], ["AS"]]

def joinPhrases : List (List (List Char)) :=
  readPhrases
    [["LEFT", "INNER", "JOIN"], ["LEFT", "OUTER", "JOIN"], ["LEFT", "STRAIGHT", "JOIN"],
     ["LEFT", "JOIN"], ["RIGHT", "INNER", "JOIN"], ["RIGHT", "OUTER", "JOIN"],
     ["RIGHT", "STRAIGHT", "JOIN"], ["RIGHT", "JOIN"], ["FULL", "INNER", "JOIN"],
     ["FULL", "OUTER", "JOIN"], ["FULL", "STRAIGHT", "JOIN"], ["FULL", "JOIN"],
     ["INNER", "JOIN"], ["OUTER", "JOIN"], ["STRAIGHT", "JOIN"], ["CROSS", "JOIN"],
     ["NATURAL", "JOIN"], ["JOIN"]]

def endPhrases : List (List (List Char)) :=
  readPhrases
    [["END", "IF"], ["END", "LOOP"], ["END", "WHILE"], ["END", "FOR"], ["END", "CASE"], ["END"]]

def conditionPhrases : List (List (List Char)) :=
  readPhrases [["IF", "NOT", "EXISTS"], ["IF", "EXISTS"], ["NOT", "NULL"]]

def orderPhrases : List (List (List Char)) :=
  readPhrases
    [["ASC", "NULLS", "FIRST"], ["ASC", "NULLS", "LAST"], ["ASC"], ["DESC", "NULLS", "FIRST"],
     ["DESC", "NULLS", "LAST"], ["DESC"], ["NULLS", "FIRST"], ["NULLS", "LAST"]]

def createPhrases : List (List (List Char)) :=
  readPhrases [["CREATE", "OR", "REPLACE"], ["CREATE"]]

def clausePhrases : List (List (List Char)) :=
  readPhrases [["GROUP", "BY"], ["ORDER", "BY"], ["PRIMARY", "KEY"], ["HANDLER", "FOR"]]

def lateralPhrases : List (List (List Char)) :=
  readPhrases
    [["LATERAL", "VIEW", "EXPLODE"], ["LATERAL", "VIEW", "INLINE"],
     ["LATERAL", "VIEW", "PARSE_URL_TUPLE"], ["LATERAL", "VIEW", "POSEXPLODE"],
     ["LATERAL", "VIEW", "STACK"]]

def likePhrases : List (List (List Char)) :=
  readPhrases
    [["NOT", "LIKE"], ["NOT", "ILIKE"], ["NOT", "RLIKE"], ["LIKE"], ["ILIKE"], ["RLIKE"],
     ["NOT", "REGEXP", "BINARY"], ["NOT", "REGEXP"], ["REGEXP", "BINARY"], ["REGEXP"]]

end TableScript.Sql
