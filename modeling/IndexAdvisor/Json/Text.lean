/-!
# The text of a JSON string

Between its quotes a string holds characters and escapes. `escaped` writes a text so that no quote,
backslash or control stands for itself. Reading goes the other way in three steps: `splitBody` finds
the closing quote, `units?` resolves the escapes to code units, and `joinUnits?` joins surrogate
pairs. A body whose escapes are malformed is an error; one that is well formed but holds half a pair
has no text.

Models how the JSON library reads and prints strings.
-/

namespace IndexAdvisor.Json

/-- The controls, quote and backslash that have a letter of their own after a backslash. -/
def shortEscapes : List (Char × Char) := [
  ('"', '"'), ('\\', '\\'), (Char.ofNat 8, 'b'), (Char.ofNat 9, 't'), (Char.ofNat 10, 'n'),
  (Char.ofNat 12, 'f'), (Char.ofNat 13, 'r')]

/-- One character of a text as it stands in a string. -/
def escapedChar (c : Char) : List Char :=
  match shortEscapes.lookup c with
  | some letter => ['\\', letter]
  | none =>
    if c.toNat < 0x20 then
      ['\\', 'u', '0', '0', Nat.digitChar (c.toNat / 16), Nat.digitChar (c.toNat % 16)]
    else [c]

/-- A text as it stands between the quotes of a string. -/
def escaped (s : String) : List Char := s.toList.flatMap escapedChar

/-- The body of a string up to its closing quote, and the text after that. Escapes are kept; what
precedes the text is held in `done`, last first. -/
def splitBody (done : List Char) : List Char → Option (List Char × List Char)
  | [] => none
  | '"' :: cs => some (done.reverse, cs)
  | '\\' :: c :: cs => splitBody (c :: '\\' :: done) cs
  | c :: cs => if c.toNat < 0x20 then none else splitBody (c :: done) cs

/-- The value of a hexadecimal digit. -/
def hexValue? (c : Char) : Option Nat :=
  if c.isDigit then some (c.toNat - 48)
  else if 'a' ≤ c ∧ c ≤ 'f' then some (c.toNat - 87)
  else if 'A' ≤ c ∧ c ≤ 'F' then some (c.toNat - 55)
  else none

/-- The value of four hexadecimal digits. -/
def hexUnit? (a b c d : Char) : Option Nat := do
  some (4096 * (← hexValue? a) + 256 * (← hexValue? b) + 16 * (← hexValue? c) + (← hexValue? d))

/-- The code of the character that a letter after a backslash stands for. -/
def shortEscape? (letter : Char) : Option Nat :=
  if letter = '/' then some letter.toNat
  else (shortEscapes.find? (·.2 == letter)).map (·.1.toNat)

/-- The code units of a body: one for each escape, the code point for each other character. -/
def units? (done : List Nat) : List Char → Option (List Nat)
  | [] => some done.reverse
  | '\\' :: 'u' :: a :: b :: c :: d :: cs =>
    match hexUnit? a b c d with
    | some u => units? (u :: done) cs
    | none => none
  | '\\' :: c :: cs =>
    match shortEscape? c with
    | some u => units? (u :: done) cs
    | none => none
  | c :: cs => units? (c.toNat :: done) cs

/-- Whether a code unit is the first of a surrogate pair. -/
def isHighUnit (u : Nat) : Bool := 0xD800 ≤ u && u ≤ 0xDBFF

/-- Whether a code unit is the second of a surrogate pair. -/
def isLowUnit (u : Nat) : Bool := 0xDC00 ≤ u && u ≤ 0xDFFF

/-- The characters of code units, unless half a surrogate pair is among them. -/
def joinUnits? (done : List Char) : List Nat → Option String
  | [] => some (String.ofList done.reverse)
  | [u] => if isHighUnit u || isLowUnit u then none
    else some (String.ofList (Char.ofNat u :: done).reverse)
  | u :: v :: us =>
    if isHighUnit u then
      if isLowUnit v then
        joinUnits? (Char.ofNat (0x10000 + 0x400 * (u - 0xD800) + (v - 0xDC00)) :: done) us
      else none
    else if isLowUnit u then none
    else joinUnits? (Char.ofNat u :: done) (v :: us)

/-- The text after an opening quote: what the string says, if it has a text, and what follows it. -/
def readString? (cs : List Char) : Option (Option String × List Char) := do
  let (body, rest) ← splitBody [] cs
  some (joinUnits? [] (← units? [] body), rest)

theorem splitBody_suffix {done cs body rest : List Char}
    (h : splitBody done cs = some (body, rest)) :
    rest <:+ cs := by
  fun_induction splitBody done cs with
  | case1 => simp at h
  | case2 => simp only [Option.some.injEq, Prod.mk.injEq] at h; exact h.2 ▸ List.suffix_cons _ _
  | case3 _ _ _ ih => exact (ih h).trans ((List.suffix_cons _ _).trans (List.suffix_cons _ _))
  | case4 => simp at h
  | case5 _ _ _ _ _ _ ih => exact (ih h).trans (List.suffix_cons _ _)

theorem readString?_suffix {cs rest : List Char} {text : Option String}
    (h : readString? cs = some (text, rest)) : rest <:+ cs := by
  simp only [readString?, Option.bind_eq_bind, Option.bind_eq_some_iff, Option.some.injEq,
    Prod.mk.injEq] at h
  obtain ⟨⟨body, tail⟩, hsplit, _, _, _, rfl⟩ := h
  exact splitBody_suffix hsplit

end IndexAdvisor.Json
