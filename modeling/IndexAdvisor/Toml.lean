import IndexAdvisor.Json.Basic
import IndexAdvisor.Json.Text
import IndexAdvisor.Text.Lines
import IndexAdvisor.Text.Numeral

/-!
# Plain TOML documents

A plain document has entries `key = value` line by line, and headers `[name]` that put the entries
after them into a table of their own. Values are strings on one line, integers that fit 64 bits,
other numbers and booleans. It says the same as a JSON object, and that is what it is read as; a
number that is no integer is foreign there, because no setting can take it. Names must not be
repeated.

Models the documents that `load_toml_config` reads.
-/

namespace IndexAdvisor.Toml

/-- What one line says. -/
inductive Line where
  | blank
  | header (name : String)
  | entry (key : String) (value : Json)

/-- Blanks inside a line. -/
def isSpace (c : Char) : Bool := c == ' ' || c == '\t'

/-- Characters that must not stand in a line. -/
def isControl (c : Char) : Bool := (c.toNat < 0x20 && c != '\t') || c.toNat == 0x7F

/-- The characters of a name without quotes. -/
def isNameChar (c : Char) : Bool := c.isAlphanum || c == '_' || c == '-'

/-- Whether nothing but blanks and a comment is left of a line. -/
def isEnd (cs : List Char) : Bool :=
  match cs.dropWhile isSpace with
  | [] => true
  | '#' :: comment => !comment.any isControl
  | _ => false

/-- The character of a code given by hexadecimal digits. -/
def charOfHex? (digits : List Char) : Option Char := do
  let values ← digits.mapM Json.hexValue?
  let code := values.foldl (fun n d => 16 * n + d) 0
  if h : code.isValidChar then some (Char.ofNatAux code h) else none

/-- The character that a letter after a backslash stands for. -/
def escape? (letter : Char) : Option Char :=
  match letter with
  | 'b' => some (Char.ofNat 8)
  | 't' => some '\t'
  | 'n' => some '\n'
  | 'f' => some (Char.ofNat 12)
  | 'r' => some '\r'
  | '"' => some '"'
  | '\\' => some '\\'
  | _ => none

/-- The text after a double quote: what stands before the closing one, and the rest of the line.
What has been read stands in `done`, last first. -/
def basicString (done : List Char) : List Char → Option (String × List Char)
  | [] => none
  | '"' :: cs => some (String.ofList done.reverse, cs)
  | '\\' :: 'u' :: a :: b :: c :: d :: cs =>
    match charOfHex? [a, b, c, d] with
    | some x => basicString (x :: done) cs
    | none => none
  | '\\' :: 'U' :: a :: b :: c :: d :: e :: f :: g :: h :: cs =>
    match charOfHex? [a, b, c, d, e, f, g, h] with
    | some x => basicString (x :: done) cs
    | none => none
  | '\\' :: c :: cs =>
    match escape? c with
    | some x => basicString (x :: done) cs
    | none => none
  | c :: cs => if isControl c then none else basicString (c :: done) cs

/-- The text after a single quote, where nothing is escaped. -/
def literalString (cs : List Char) : Option (String × List Char) :=
  let body := cs.takeWhile (· != '\'')
  match cs.dropWhile (· != '\'') with
  | '\'' :: rest => if body.any isControl then none else some (String.ofList body, rest)
  | _ => none

/-- A name, with or without quotes. -/
def name? : List Char → Option (String × List Char)
  | '"' :: cs => basicString [] cs
  | '\'' :: cs => literalString cs
  | cs =>
    let name := cs.takeWhile isNameChar
    if name.isEmpty then none else some (String.ofList name, cs.dropWhile isNameChar)

/-- Digits without the underscores that may stand between two of them. -/
def digits? (isDigit : Char → Bool) : List Char → Option (List Char)
  | [] => none
  | [c] => if isDigit c then some [c] else none
  | c :: '_' :: cs => if isDigit c then (digits? isDigit cs).map (c :: ·) else none
  | c :: cs => if isDigit c then (digits? isDigit cs).map (c :: ·) else none

/-- The digits of a decimal whole number. Only 0 itself begins with the digit 0. -/
def whole? (cs : List Char) : Option (List Char) :=
  (digits? Char.isDigit cs).filter fun digits => digits.head? != some '0' || digits.length == 1

/-- Whether a text is an exponent with its mark. -/
def isExponent : List Char → Bool
  | c :: '+' :: cs => (c == 'e' || c == 'E') && (digits? Char.isDigit cs).isSome
  | c :: '-' :: cs => (c == 'e' || c == 'E') && (digits? Char.isDigit cs).isSome
  | c :: cs => (c == 'e' || c == 'E') && (digits? Char.isDigit cs).isSome
  | [] => false

/-- Whether an unsigned text is a number that is no integer. -/
def isReal (cs : List Char) : Bool :=
  let isPart (c : Char) : Bool := c.isDigit || c == '_'
  cs == "inf".toList || cs == "nan".toList ||
    ((whole? (cs.takeWhile isPart)).isSome &&
      match cs.dropWhile isPart with
      | '.' :: rest =>
        let tail := rest.dropWhile isPart
        (digits? Char.isDigit (rest.takeWhile isPart)).isSome && (tail.isEmpty || isExponent tail)
      | rest => isExponent rest)

/-- The value of an unsigned number with a base mark. -/
def based? : List Char → Option Nat
  | '0' :: 'x' :: cs => value? 16 (fun c => (Json.hexValue? c).isSome) cs
  | '0' :: 'o' :: cs => value? 8 (fun c => '0' ≤ c ∧ c ≤ '7') cs
  | '0' :: 'b' :: cs => value? 2 (fun c => c == '0' || c == '1') cs
  | _ => none
where
  /-- The value of digits of a base. -/
  value? (base : Nat) (isDigit : Char → Bool) (cs : List Char) : Option Nat := do
    let values ← (← digits? isDigit cs).mapM Json.hexValue?
    some (values.foldl (fun n d => base * n + d) 0)

/-- The value of a number. -/
def number? (cs : List Char) : Option Json :=
  let unsigned := match cs with
    | '+' :: rest => rest
    | '-' :: rest => rest
    | _ => cs
  let negative := cs.head? == some '-'
  match (whole? unsigned).map digitsValue with
  | some n =>
    let value : Int := if negative then -(n : Int) else n
    if fitsInt64 value then some (.number value) else none
  | none =>
    if isReal unsigned then some (.foreign (String.ofList unsigned))
    else (based? cs).bind fun n => if fitsInt64 n then some (.number n) else none

/-- Whether a character can belong to a value without quotes. -/
def isValueChar (c : Char) : Bool := c.isAlphanum || c == '_' || c == '+' || c == '-' || c == '.'

/-- A value, and the rest of its line. -/
def value? : List Char → Option (Json × List Char)
  | '"' :: cs => (basicString [] cs).map fun read => (.string read.1, read.2)
  | '\'' :: cs => (literalString cs).map fun read => (.string read.1, read.2)
  | cs =>
    let word := cs.takeWhile isValueChar
    let value :=
      if word == "true".toList then some (Json.bool true)
      else if word == "false".toList then some (.bool false)
      else number? word
    value.map (·, cs.dropWhile isValueChar)

/-- Reads one line. -/
def line? (cs : List Char) : Option Line :=
  if isEnd cs then some .blank
  else match cs.dropWhile isSpace with
    | '[' :: cs => do
      let (name, rest) ← name? (cs.dropWhile isSpace)
      match rest.dropWhile isSpace with
      | ']' :: rest => if isEnd rest then some (.header name) else none
      | _ => none
    | cs => do
      let (key, rest) ← name? cs
      match rest.dropWhile isSpace with
      | '=' :: rest =>
        let (value, rest) ← value? (rest.dropWhile isSpace)
        if isEnd rest then some (.entry key value) else none
      | _ => none

/-- Fields with one more at the end, unless its name is taken. -/
def addField? (fields : List (String × Json)) (name : String) (value : Json) :
    Option (List (String × Json)) :=
  if fields.any (·.1 == name) then none else some (fields ++ [(name, value)])

/-- What has been read of a document: its own fields, and the table that entries go to at the
moment. -/
structure Reading where
  fields : List (String × Json) := []
  table : Option (String × List (String × Json)) := none

namespace Reading

/-- All fields, with the table at hand as the last of them. -/
def close? (r : Reading) : Option (List (String × Json)) :=
  match r.table with
  | none => some r.fields
  | some (name, entries) => addField? r.fields name (.object entries)

/-- Takes one line. -/
def step? (r : Reading) : Line → Option Reading
  | .blank => some r
  | .header name => do
    let fields ← r.close?
    if fields.any (·.1 == name) then none else some ⟨fields, some (name, [])⟩
  | .entry key value =>
    match r.table with
    | none => do return { r with fields := ← addField? r.fields key value }
    | some (name, entries) => do
      return { r with table := some (name, ← addField? entries key value) }

end Reading

/-- The lines of a text, without the marks that end them. -/
def lines (text : String) : List (List Char) :=
  (splitLines text.toList).map fun line =>
    if line.getLast? == some '\r' then line.dropLast else line

/-- The object that a document stands for. -/
def parse? (text : String) : Option Json := do
  let reading ← (← (lines text).mapM line?).foldlM Reading.step? {}
  return .object (← reading.close?)

end IndexAdvisor.Toml
