import IndexAdvisor.Json.Basic
import IndexAdvisor.Json.Text
import IndexAdvisor.Text.Numeral

/-!
# The tokens of a JSON document

Both directions between a value and its document go through tokens: `Json.tokens` lists those of a
value and `Token.text` spells them, which is the printer; `tokenize?` reads them back from a
document, which is the first half of the reader. Blanks between tokens are dropped.

Models how the JSON library prints a document and takes it apart.
-/

namespace IndexAdvisor.Json

/-- A mark, a string or another value without parts. -/
inductive Token where
  | openArray
  | closeArray
  | openObject
  | closeObject
  | comma
  | colon
  /-- A string, and what it says if it has a text. -/
  | text (s : Option String)
  /-- A value without parts that is no string. -/
  | leaf (v : Json)

mutual

/-- The tokens of a value, in order. -/
def tokens : Json → List Token
  | .string s => [.text (some s)]
  | .array [] => [.openArray, .closeArray]
  | .array (v :: vs) => .openArray :: (tokens v ++ moreItems vs)
  | .object [] => [.openObject, .closeObject]
  | .object ((k, v) :: fs) => .openObject :: .text (some k) :: .colon :: (tokens v ++ moreFields fs)
  | .null => [.leaf .null]
  | .bool b => [.leaf (.bool b)]
  | .number n => [.leaf (.number n)]
  | .foreign text => [.leaf (.foreign text)]

/-- The tokens of the items after the first, up to the end of the array. -/
def moreItems : List Json → List Token
  | [] => [.closeArray]
  | v :: vs => .comma :: (tokens v ++ moreItems vs)

/-- The tokens of the fields after the first, up to the end of the object. -/
def moreFields : List (String × Json) → List Token
  | [] => [.closeObject]
  | (k, v) :: fs => .comma :: .text (some k) :: .colon :: (tokens v ++ moreFields fs)

end

/-- An integer in decimal. -/
def decimal : Int → List Char
  | .ofNat n => Nat.toDigits 10 n
  | .negSucc n => '-' :: Nat.toDigits 10 (n + 1)

/-- A value without parts as it is written. -/
def leafChars : Json → List Char
  | .bool true => ['t', 'r', 'u', 'e']
  | .bool false => ['f', 'a', 'l', 's', 'e']
  | .number n => decimal n
  | .foreign text => text.toList
  | _ => ['n', 'u', 'l', 'l']

/-- How a string without a text is written: as half a surrogate pair. -/
def noText : List Char := ['"', '\\', 'u', 'd', '8', '0', '0', '"']

/-- A token as it is written. -/
def Token.chars : Token → List Char
  | .openArray => ['[']
  | .closeArray => [']']
  | .openObject => ['{']
  | .closeObject => ['}']
  | .comma => [',']
  | .colon => [':']
  | .text (some s) => '"' :: (escaped s ++ ['"'])
  | .text none => noText
  | .leaf v => leafChars v

/-- The document of a value. -/
def render (v : Json) : String := String.ofList (v.tokens.flatMap Token.chars)

namespace Lexer

/-- Blanks between tokens. -/
def isSpace (c : Char) : Bool := c == ' ' || c == '\n' || c == '\t' || c == '\r'

/-- The fraction at the front of a text, which may be empty. A point needs a digit after it. -/
def fraction : List Char → Option (List Char × List Char)
  | '.' :: cs =>
    let digits := cs.takeWhile Char.isDigit
    if digits.isEmpty then none else some ('.' :: digits, cs.dropWhile Char.isDigit)
  | cs => some ([], cs)

/-- The sign at the front of a text, if it begins with one, and the text after it. -/
def splitSign : List Char → List Char × List Char
  | '+' :: cs => (['+'], cs)
  | '-' :: cs => (['-'], cs)
  | cs => ([], cs)

/-- The exponent at the front of a text, which may be empty. The mark needs a digit after it. -/
def exponent : List Char → Option (List Char × List Char)
  | [] => some ([], [])
  | c :: cs =>
    if c = 'e' ∨ c = 'E' then
      let digits := (splitSign cs).2.takeWhile Char.isDigit
      if digits.isEmpty then none
      else some (c :: ((splitSign cs).1 ++ digits), (splitSign cs).2.dropWhile Char.isDigit)
    else some ([], c :: cs)

/-- The fraction and the exponent at the front of a text, which may both be empty. -/
def afterDigits (cs : List Char) : Option (List Char × List Char) :=
  (fraction cs).bind fun (places, rest) =>
    (exponent rest).map fun (scale, rest) => (places ++ scale, rest)

/-- Whether digits may begin a number: there is one, and only 0 itself begins with the digit 0. -/
def beginsNumber (digits : List Char) : Bool :=
  !digits.isEmpty && (digits.head? != some '0' || digits.length == 1)

/-- The value of a number of the given sign and digits, and what follows the digits. -/
def numberValue (negative : Bool) (digits tail : List Char) : Json :=
  let n := digitsValue digits
  if !tail.isEmpty || (negative && n == 0) then
    .foreign (String.ofList ((if negative then ['-'] else []) ++ digits ++ tail))
  else .number (if negative then -(n : Int) else n)

/-- A number whose sign has been read. -/
def unsigned (negative : Bool) (cs : List Char) : Option (Json × List Char) :=
  if beginsNumber (cs.takeWhile Char.isDigit) then
    (afterDigits (cs.dropWhile Char.isDigit)).map fun (tail, rest) =>
      (numberValue negative (cs.takeWhile Char.isDigit) tail, rest)
  else none

/-- The token at the front of a text that begins with the character `c`, if any, and what
follows. -/
def scan (c : Char) (cs : List Char) : Option (Token × List Char) :=
  match c with
  | '[' => some (.openArray, cs)
  | ']' => some (.closeArray, cs)
  | '{' => some (.openObject, cs)
  | '}' => some (.closeObject, cs)
  | ',' => some (.comma, cs)
  | ':' => some (.colon, cs)
  | '"' => (readString? cs).map fun read => (.text read.1, read.2)
  | 'n' => if cs.take 3 = ['u', 'l', 'l'] then some (.leaf .null, cs.drop 3) else none
  | 't' => if cs.take 3 = ['r', 'u', 'e'] then some (.leaf (.bool true), cs.drop 3) else none
  | 'f' => if cs.take 4 = ['a', 'l', 's', 'e'] then some (.leaf (.bool false), cs.drop 4) else none
  | '-' => (unsigned true cs).map fun read => (.leaf read.1, read.2)
  | c =>
    if c.isDigit then (unsigned false (c :: cs)).map fun read => (.leaf read.1, read.2) else none

theorem fraction_suffix {cs places rest : List Char} (h : fraction cs = some (places, rest)) :
    rest <:+ cs := by
  unfold fraction at h
  split at h
  · dsimp only at h
    split at h
    · simp at h
    · simp only [Option.some.injEq, Prod.mk.injEq] at h
      exact h.2 ▸ (List.dropWhile_suffix _).trans (List.suffix_cons _ _)
  · simp only [Option.some.injEq, Prod.mk.injEq] at h
    exact h.2 ▸ List.suffix_refl _

theorem splitSign_suffix (cs : List Char) : (splitSign cs).2 <:+ cs := by
  unfold splitSign
  split
  · exact List.suffix_cons _ _
  · exact List.suffix_cons _ _
  · exact List.suffix_refl _

theorem exponent_suffix {cs scale rest : List Char} (h : exponent cs = some (scale, rest)) :
    rest <:+ cs := by
  unfold exponent at h
  split at h
  · simp only [Option.some.injEq, Prod.mk.injEq] at h
    exact h.2 ▸ List.suffix_refl _
  · split at h
    · dsimp only at h
      split at h
      · simp at h
      · simp only [Option.some.injEq, Prod.mk.injEq] at h
        exact h.2 ▸ ((List.dropWhile_suffix _).trans (splitSign_suffix _)).trans
          (List.suffix_cons _ _)
    · simp only [Option.some.injEq, Prod.mk.injEq] at h
      exact h.2 ▸ List.suffix_refl _

theorem unsigned_suffix {negative : Bool} {cs rest : List Char} {v : Json}
    (h : unsigned negative cs = some (v, rest)) : rest <:+ cs.dropWhile Char.isDigit := by
  unfold unsigned afterDigits at h
  split at h
  · simp only [Option.map_eq_some_iff, Option.bind_eq_some_iff, Prod.mk.injEq] at h
    obtain ⟨⟨_, _⟩, ⟨⟨_, _⟩, hf, ⟨_, _⟩, he, _, rfl⟩, _, rfl⟩ := h
    exact (exponent_suffix he).trans (fraction_suffix hf)
  · simp at h

theorem scan_suffix {c : Char} {cs rest : List Char} {t : Token} (h : scan c cs = some (t, rest)) :
    rest <:+ cs := by
  unfold scan at h
  split at h
  case h_7 =>
    simp only [Option.map_eq_some_iff, Prod.mk.injEq] at h
    obtain ⟨⟨_, _⟩, hr, _, rfl⟩ := h
    exact readString?_suffix hr
  case h_11 =>
    simp only [Option.map_eq_some_iff, Prod.mk.injEq] at h
    obtain ⟨⟨_, _⟩, hr, _, rfl⟩ := h
    exact (unsigned_suffix hr).trans (List.dropWhile_suffix _)
  case h_12 =>
    split at h
    · next hd =>
      simp only [Option.map_eq_some_iff, Prod.mk.injEq] at h
      obtain ⟨⟨_, _⟩, hr, _, rfl⟩ := h
      have := unsigned_suffix hr
      rw [List.dropWhile_cons_of_pos hd] at this
      exact this.trans (List.dropWhile_suffix _)
    · simp at h
  all_goals
    first
    | (simp only [Option.some.injEq, Prod.mk.injEq] at h
       exact h.2 ▸ List.suffix_refl _)
    | (split at h
       · simp only [Option.some.injEq, Prod.mk.injEq] at h
         exact h.2 ▸ List.drop_suffix _ _
       · simp at h)

end Lexer

/-- Reads all tokens of a text; those already read are held in `done`, last first. -/
def tokensFrom (done : List Token) : List Char → Option (List Token)
  | [] => some done.reverse
  | c :: cs =>
    if Lexer.isSpace c then tokensFrom done cs
    else match _h : Lexer.scan c cs with
      | some (t, rest) => tokensFrom (t :: done) rest
      | none => none
termination_by cs => cs.length
decreasing_by
  · simp
  · have := (Lexer.scan_suffix _h).length_le
    simp only [List.length_cons]
    omega

/-- The tokens of a document, unless some text in it is no token. -/
def tokenize? (document : String) : Option (List Token) := tokensFrom [] document.toList

end IndexAdvisor.Json
