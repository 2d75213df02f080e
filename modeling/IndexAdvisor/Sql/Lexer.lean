import IndexAdvisor.Sql.Token
import IndexAdvisor.Text.Letter

/-!
# Reading tokens from text

`scan` takes one token, blank or comment off the front of a text. Of the operators the longest wins,
and a numeral is as long as it can be. Text with an unclosed quote or comment has no tokens at all:
`tokenize?` is then `none`, and `tokens`, which the advisor uses throughout, is empty.

A step always consumes at least one character (`scan_length_le`), which is why reading ends.

Models `tokenize`, and the reader of tokens that it calls.
-/

namespace IndexAdvisor.Sql

/-- What stands at the front of a text. -/
inductive Scan where
  | token (t : Token) (rest : List Char)
  | blank (rest : List Char)
  /-- A quote or a comment that is not closed. -/
  | unclosed

/-- The text after what stands at the front; nothing is left after what is not closed. -/
def Scan.rest : Scan → List Char
  | .token _ rest => rest
  | .blank rest => rest
  | .unclosed => []

namespace Lexer

/-- Blanks between tokens. Characters from U+007F on count as letters, other blanks among them. -/
def isSpace (c : Char) : Bool :=
  c == ' ' || c == '\t' || c == '\n' || c == '\r' || c == '\x0b' || c == '\x0c'

/-- The characters a word may begin with. -/
def isWordStart (c : Char) : Bool :=
  c.isAlpha || c == '_' || (0x7F ≤ c.toNat && c.toNat ≤ 0xFFFF)

/-- The characters a word may go on with. -/
def isWordPart (c : Char) : Bool := isWordStart c || c.isDigit

/-- The digits of a hexadecimal numeral. -/
def isHexDigit (c : Char) : Bool :=
  c.isDigit || ('a' ≤ c && c ≤ 'f') || ('A' ≤ c && c ≤ 'F')

/-- The body of a quoted token up to its closing character, which is doubled where it stands inside.
The body keeps both characters of the pair. What is before the text is held in `done`, last
first. -/
def quotedFrom (closing : Char) (done : List Char) : List Char → Option (List Char × List Char)
  | [] => none
  | c :: cs =>
    if c ≠ closing then quotedFrom closing (c :: done) cs
    else match cs with
      | d :: ds =>
        if d = closing then quotedFrom closing (d :: c :: done) ds else some (done.reverse, d :: ds)
      | [] => some (done.reverse, [])

/-- The body of a quoted token and the text after its closing character. -/
def quotedBody (closing : Char) (cs : List Char) : Option (List Char × List Char) :=
  quotedFrom closing [] cs

/-- The body of a hexadecimal string, in which a backslash takes the next character with it. -/
def hexFrom (done : List Char) : List Char → Option (List Char × List Char)
  | [] => none
  | '\\' :: cs =>
    match cs with
    | [] => none
    | d :: ds => hexFrom (d :: '\\' :: done) ds
  | '\'' :: '\'' :: cs => hexFrom ('\'' :: '\'' :: done) cs
  | '\'' :: cs => some (done.reverse, cs)
  | c :: cs => hexFrom (c :: done) cs

/-- The body of a hexadecimal string and the text after its closing quote. -/
def hexBody (cs : List Char) : Option (List Char × List Char) := hexFrom [] cs

/-- The text after the end of a comment that is open. -/
def afterComment : List Char → Option (List Char)
  | [] => none
  | '*' :: '/' :: cs => some cs
  | _ :: cs => afterComment cs

/-- The text after the end of the line. -/
def afterLine (cs : List Char) : List Char := (cs.dropWhile (· ≠ '\n')).drop 1

/-- The exponent at the front of a text, if it has at least one digit. -/
def exponent (cs : List Char) : List Char × List Char :=
  let digits (mark cs : List Char) : Option (List Char × List Char) :=
    let ds := cs.takeWhile Char.isDigit
    if ds.isEmpty then none else some (mark ++ ds, cs.dropWhile Char.isDigit)
  let found := match cs with
    | e :: s :: rest =>
      if e = 'e' || e = 'E' then
        if s = '+' || s = '-' then digits [e, s] rest else digits [e] (s :: rest)
      else none
    | _ => none
  found.getD ([], cs)

/-- The digits, the point and the digits after it at the front of a text; each may be missing. -/
def mantissa (cs : List Char) : List Char × List Char :=
  let whole := cs.takeWhile Char.isDigit
  match cs.dropWhile Char.isDigit with
  | '.' :: rest => (whole ++ '.' :: rest.takeWhile Char.isDigit, rest.dropWhile Char.isDigit)
  | rest => (whole, rest)

/-- What follows the mantissa of a numeral: an exponent and the letter `L`, each of them
optional. -/
def numeralTail (digits rest : List Char) : Token × List Char :=
  let power := exponent rest
  let text := String.ofList (digits ++ power.1)
  match power.2 with
  | 'L' :: rest => (.number text true, rest)
  | rest => (.number text false, rest)

/-- A period, or a numeral. A zero and an `x` begin a hexadecimal numeral, which counts as a
hexadecimal string. -/
def numeral (cs : List Char) : Token × List Char :=
  match cs.takeWhile Char.isDigit, cs.dropWhile Char.isDigit with
  | ['0'], 'x' :: hex =>
    (.hexString (String.ofList (hex.takeWhile isHexDigit)), hex.dropWhile isHexDigit)
  | _, _ =>
    let read := mantissa cs
    if read.1 = ['.'] then (.period, read.2) else numeralTail read.1 read.2

/-- The operators, each longer one before the ones it begins with. `!=` is read as `<>`. -/
def operators : List (String × Token) := [
  ("!~~*", .symbol "!~~*"), ("||/", .symbol "||/"), ("->>", .symbol "->>"), ("<=>", .symbol "<=>"),
  ("!~~", .symbol "!~~"), ("!~*", .symbol "!~*"), ("~~*", .symbol "~~*"), ("#>>", .symbol "#>>"),
  ("->", .symbol "->"), ("||", .symbol "||"), ("|/", .symbol "|/"), ("==", .symbol "=="),
  ("=>", .symbol "=>"), ("!!", .symbol "!!"), ("!=", .symbol "<>"), ("!~", .symbol "!~"),
  ("<=", .symbol "<="), ("<>", .symbol "<>"), ("<<", .symbol "<<"), ("<@", .symbol "<@"),
  (">=", .symbol ">="), (">>", .symbol ">>"), ("::", .symbol "::"), (":=", .symbol ":="),
  ("&&", .symbol "&&"), ("^@", .symbol "^@"), ("~*", .symbol "~*"), ("~~", .symbol "~~"),
  ("#-", .symbol "#-"), ("#>", .symbol "#>"), ("@>", .symbol "@>"), ("@?", .symbol "@?"),
  ("@@", .symbol "@@"),
  ("(", .openParen), (")", .closeParen), (",", .comma), (";", .semicolon)]

/-- The operators by their characters. -/
def operatorChars : List (List Char × Token) := operators.map fun op => (op.1.toList, op.2)

/-- An operator at the front of a text; any character that begins none is a token of its own. -/
def operator (c : Char) (cs : List Char) : Token × List Char :=
  match operatorChars.find? fun op => op.1.isPrefixOf (c :: cs) with
  | some (spelling, t) => (t, cs.drop (spelling.length - 1))
  | none => (.symbol c.toString, cs)

/-- A quoted token whose body ends where `body` says. -/
def quotedToken (make : String → Token) (body : Option (List Char × List Char)) : Scan :=
  match body with
  | some (text, rest) => .token (make (String.ofList text)) rest
  | none => .unclosed

/-- A token that is as long a row of some characters as there is. -/
def rowToken (make : String → Token) (start : List Char) (part : Char → Bool) (cs : List Char) :
    Scan :=
  .token (make (String.ofList (start ++ cs.takeWhile part))) (cs.dropWhile part)

/-- What a text that begins with the character `c` has at its front. -/
def scan (c : Char) (cs : List Char) : Scan :=
  if isSpace c then .blank (cs.dropWhile isSpace)
  else if (c = 'N' || c = 'n') && cs.head? == some '\'' then
    quotedToken .nationalString (quotedBody '\'' (cs.drop 1))
  else if (c = 'X' || c = 'x') && cs.head? == some '\'' then
    quotedToken .hexString (hexBody (cs.drop 1))
  else if isWordStart c then rowToken (.word none) [c] isWordPart cs
  else if c = '\'' then quotedToken .string (quotedBody '\'' cs)
  else if c = '"' then quotedToken (.word (some .double)) (quotedBody '"' cs)
  else if c = Char.ofNat 0x60 then
    quotedToken (.word (some .backtick)) (quotedBody (Char.ofNat 0x60) cs)
  else if c = '[' then quotedToken (.word (some .bracket)) (quotedBody ']' cs)
  else if c.isDigit || c = '.' then
    let read := numeral (c :: cs)
    .token read.1 read.2
  else if c = '-' && cs.head? == some '-' then .blank (afterLine (cs.drop 1))
  else if c = '/' && cs.head? == some '*' then
    match afterComment (cs.drop 1) with
    | some rest => .blank rest
    | none => .unclosed
  else if c = '?' then rowToken .placeholder ['?'] isNumber cs
  else if c = '$' then
    rowToken .placeholder ['$'] (fun d => isLetterOrNumber d || d = '_' || d = '$') cs
  else
    let read := operator c cs
    .token read.1 read.2

/-! ## A step consumes its first character -/

theorem quotedFrom_length_le {closing : Char} {done cs body rest : List Char}
    (h : quotedFrom closing done cs = some (body, rest)) : rest.length ≤ cs.length := by
  fun_induction quotedFrom closing done cs with
  | case1 => simp at h
  | case2 done c cs hc ih => have := ih h; simp only [List.length_cons]; omega
  | case3 done c hc d ih => have := ih h; simp only [List.length_cons]; omega
  | case4 done c hc d ds hd => cases h; simp
  | case5 done c hc => cases h; simp

theorem hexFrom_length_le {done cs body rest : List Char}
    (h : hexFrom done cs = some (body, rest)) :
    rest.length ≤ cs.length := by
  fun_induction hexFrom done cs with
  | case1 => simp at h
  | case2 => simp at h
  | case3 done d ds ih | case4 done cs ih | case6 done c cs _ _ _ ih =>
    have := ih h; simp only [List.length_cons]; omega
  | case5 done cs => cases h; simp

theorem afterComment_length_le {cs rest : List Char} (h : afterComment cs = some rest) :
    rest.length ≤ cs.length := by
  fun_induction afterComment cs with
  | case1 => simp at h
  | case2 cs => cases h; simp only [List.length_cons]; omega
  | case3 c cs _ ih => have := ih h; simp only [List.length_cons]; omega

theorem length_dropWhile_le (p : Char → Bool) (cs : List Char) :
    (cs.dropWhile p).length ≤ cs.length :=
  (List.dropWhile_suffix p).length_le

theorem exponent_length_le (cs : List Char) : (exponent cs).2.length ≤ cs.length := by
  unfold exponent
  dsimp only
  split
  · next e s rest =>
    have h := length_dropWhile_le Char.isDigit rest
    have h' := length_dropWhile_le Char.isDigit (s :: rest)
    simp only [List.length_cons] at h'
    split
    · split <;> split <;> simp only [Option.getD_none, Option.getD_some, List.length_cons] <;> omega
    · simp
  · simp

theorem length_dropWhile_digits_le {c : Char} {cs : List Char} (h : c.isDigit = true) :
    ((c :: cs).dropWhile Char.isDigit).length ≤ cs.length := by
  rw [List.dropWhile_cons_of_pos h]; exact length_dropWhile_le _ _

theorem mantissa_length_le {c : Char} {cs : List Char} (h : c.isDigit = true ∨ c = '.') :
    (mantissa (c :: cs)).2.length ≤ cs.length := by
  have hd : ((c :: cs).dropWhile Char.isDigit).length ≤ cs.length ∨
      (c :: cs).dropWhile Char.isDigit = '.' :: cs := by
    rcases h with h | rfl
    · exact .inl (length_dropWhile_digits_le h)
    · exact .inr (by simp)
  unfold mantissa
  dsimp only
  split
  · next rest hr =>
    have := length_dropWhile_le Char.isDigit rest
    rcases hd with hd | hd
    · rw [hr, List.length_cons] at hd; dsimp only; omega
    · rw [hr] at hd; cases hd; exact this
  · next hr =>
    rcases hd with hd | hd
    · exact hd
    · exact absurd hd (hr cs)

theorem numeralTail_length_le (digits rest : List Char) :
    (numeralTail digits rest).2.length ≤ rest.length := by
  have h := exponent_length_le rest
  unfold numeralTail
  dsimp only
  split
  · next r hr => rw [hr, List.length_cons] at h; dsimp only; omega
  · exact h

/-- What follows a numeral is no longer than what follows its first character. -/
theorem numeral_length_le {c : Char} {cs : List Char} (h : c.isDigit = true ∨ c = '.') :
    (numeral (c :: cs)).2.length ≤ cs.length := by
  unfold numeral
  split
  · next hex ht hd =>
    have hc : c.isDigit = true := by
      rcases h with h | rfl
      · exact h
      · simp at ht
    have h' := @length_dropWhile_digits_le _ cs hc
    have := length_dropWhile_le isHexDigit hex
    rw [hd, List.length_cons] at h'
    dsimp only; omega
  · have h' := @mantissa_length_le _ cs h
    dsimp only
    split
    · exact h'
    · exact Nat.le_trans (numeralTail_length_le _ _) h'

theorem operator_length_le (c : Char) (cs : List Char) : (operator c cs).2.length ≤ cs.length := by
  unfold operator
  split
  · rw [List.length_drop]; exact Nat.sub_le _ _
  · exact Nat.le_refl _

theorem quotedToken_rest_length_le {make : String → Token} {body : Option (List Char × List Char)}
    {n : Nat} (h : ∀ b r, body = some (b, r) → r.length ≤ n) :
    (quotedToken make body).rest.length ≤ n := by
  unfold quotedToken
  split
  · exact h _ _ rfl
  · exact Nat.zero_le _

theorem ite_rest_length_le {p : Prop} [Decidable p] {x y : Scan} {n : Nat}
    (hx : p → x.rest.length ≤ n) (hy : y.rest.length ≤ n) :
    (if p then x else y).rest.length ≤ n := by
  split
  · next h => exact hx h
  · exact hy

/-- Whatever stands at the front of a text takes at least its first character. -/
theorem scan_rest_length_le (c : Char) (cs : List Char) : (scan c cs).rest.length ≤ cs.length := by
  have hdrop : (cs.drop 1).length ≤ cs.length := by rw [List.length_drop]; exact Nat.sub_le _ _
  have hquoted (make : String → Token) (closing : Char) :
      (quotedToken make (quotedBody closing cs)).rest.length ≤ cs.length :=
    quotedToken_rest_length_le fun _ _ e => quotedFrom_length_le e
  have hrow (make : String → Token) (start : List Char) (part : Char → Bool) :
      (rowToken make start part cs).rest.length ≤ cs.length := length_dropWhile_le _ _
  unfold scan
  refine ite_rest_length_le (fun _ => length_dropWhile_le _ _) ?_
  refine ite_rest_length_le (fun _ => quotedToken_rest_length_le fun _ _ e =>
    Nat.le_trans (quotedFrom_length_le e) hdrop) ?_
  refine ite_rest_length_le (fun _ => quotedToken_rest_length_le fun _ _ e =>
    Nat.le_trans (hexFrom_length_le e) hdrop) ?_
  refine ite_rest_length_le (fun _ => hrow _ _ _) ?_
  refine ite_rest_length_le (fun _ => hquoted _ _) ?_
  refine ite_rest_length_le (fun _ => hquoted _ _) ?_
  refine ite_rest_length_le (fun _ => hquoted _ _) ?_
  refine ite_rest_length_le (fun _ => hquoted _ _) ?_
  refine ite_rest_length_le (fun h => numeral_length_le (by simpa using h)) ?_
  refine ite_rest_length_le (fun _ => Nat.le_trans ?_ hdrop) ?_
  · simp only [Scan.rest, afterLine, List.length_drop]
    exact Nat.le_trans (Nat.sub_le _ _) (Nat.le_trans (length_dropWhile_le _ _) (by simp))
  refine ite_rest_length_le (fun _ => ?_) ?_
  · split
    · next hc => exact Nat.le_trans (afterComment_length_le hc) hdrop
    · exact Nat.zero_le _
  refine ite_rest_length_le (fun _ => hrow _ _ _) ?_
  refine ite_rest_length_le (fun _ => hrow _ _ _) ?_
  exact operator_length_le _ _

end Lexer

/-- Reads all tokens of a text; those already read are held in `done`, last first. -/
def tokensFrom (done : List Token) : List Char → Option (List Token)
  | [] => some done.reverse
  | c :: cs =>
    match _h : Lexer.scan c cs with
    | .token t rest => tokensFrom (t :: done) rest
    | .blank rest => tokensFrom done rest
    | .unclosed => none
termination_by cs => cs.length
decreasing_by
  all_goals
    have := Lexer.scan_rest_length_le c cs
    rw [_h] at this
    simp only [Scan.rest] at this
    simp only [List.length_cons]
    omega

/-- The tokens of a text, unless a quote or a comment in it is not closed. -/
def tokenize? (sql : String) : Option (List Token) := tokensFrom [] sql.toList

/-- The tokens of a text; none if a quote or a comment in it is not closed. -/
def tokens (sql : String) : List Token := (tokenize? sql).getD []

/-- The one spelling of a statement: its tokens with one space between them. -/
def normalize (sql : String) : String := render (tokens sql)

end IndexAdvisor.Sql
