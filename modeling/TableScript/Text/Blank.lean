/-!
# Blank characters and trimming

The blanks are the white-space characters of Unicode together with the four information separators.
Zero-width characters are not blank.
-/

namespace TableScript.Text

/-- White space of every script, and the information separators. -/
def isBlank (c : Char) : Bool :=
  let n := c.toNat
  (9 ≤ n && n ≤ 13) || (28 ≤ n && n ≤ 32) || n == 0x85 || n == 0xa0 || n == 0x1680 ||
    (0x2000 ≤ n && n ≤ 0x200a) || n == 0x2028 || n == 0x2029 || n == 0x202f || n == 0x205f ||
    n == 0x3000

def trimLeft (cs : List Char) : List Char := cs.dropWhile isBlank

def trimRight (cs : List Char) : List Char := (cs.reverse.dropWhile isBlank).reverse

def trimList (cs : List Char) : List Char := trimRight (trimLeft cs)

def trim (s : String) : String := String.ofList (trimList s.toList)

/-- Whether a text is empty or holds nothing but blanks. -/
def isBlankText (s : String) : Bool := s.toList.all isBlank

end TableScript.Text
