/-!
# Blank characters

The characters with the Unicode property White_Space, and the trimming that goes with them.
Operands, paths and error texts are trimmed by this class, which is wider than the blanks of ASCII.

Models the trimming in `parse_int` and `sanitize_error`.
-/

namespace IndexAdvisor

/-- Whether a character has the property White_Space. -/
def isBlank (c : Char) : Bool :=
  let n := c.toNat
  (0x09 ≤ n && n ≤ 0x0D) || n == 0x20 || n == 0x85 || n == 0xA0 || n == 0x1680 ||
    (0x2000 ≤ n && n ≤ 0x200A) || n == 0x2028 || n == 0x2029 || n == 0x202F || n == 0x205F ||
    n == 0x3000

/-- A list without the blanks at its front. -/
def dropBlanks (cs : List Char) : List Char := cs.dropWhile isBlank

/-- A list without the blanks at its end. -/
def dropBlanksEnd (cs : List Char) : List Char := (dropBlanks cs.reverse).reverse

/-- A list without the blanks at both ends. -/
def trimBlanks (cs : List Char) : List Char := dropBlanksEnd (dropBlanks cs)

/-- A text without the blanks at both ends. -/
def trim (s : String) : String := String.ofList (trimBlanks s.toList)

/-- Whether a text holds nothing but blanks. -/
def allBlank (s : String) : Bool := s.toList.all isBlank

end IndexAdvisor
