import IndexAdvisor.Text.Ascii
import IndexAdvisor.Text.Quoted

/-!
# Tokens of SQL text

The significant tokens of a statement: blanks and comments are not among them. A token keeps the
text between its quotes as it was written, doubled quotes included, so that `render` writes every
token in a form that reads back as the same token.

Models `Token`, `render`, `normalize`, `is_keyword`, `is_reserved` and `identifier`.
-/

namespace IndexAdvisor.Sql

/-- How a quoted word is quoted. -/
inductive Quote where
  | double | backtick | bracket
  deriving DecidableEq, Repr

/-- The character that opens a quoted word. -/
def Quote.opening : Quote → Char
  | .double => '"' | .backtick => Char.ofNat 0x60 | .bracket => '['

/-- The character that closes a quoted word. -/
def Quote.closing : Quote → Char
  | .double => '"' | .backtick => Char.ofNat 0x60 | .bracket => ']'

/-- One significant token. -/
inductive Token where
  /-- A name or a keyword; only an unquoted word can be a keyword. -/
  | word (quote : Option Quote) (text : String)
  /-- A numeral, and whether the letter `L` follows it. -/
  | number (text : String) (long : Bool)
  | string (body : String)
  | nationalString (body : String)
  | hexString (body : String)
  | placeholder (text : String)
  | openParen
  | closeParen
  | comma
  | period
  | semicolon
  /-- An operator, or a single character that belongs to no other token. -/
  | symbol (text : String)
  deriving DecidableEq, Repr

namespace Token

/-- The text of a token. -/
def render : Token → String
  | word none text => text
  | word (some q) text => q.opening.toString ++ text ++ q.closing.toString
  | number text long => if long then text ++ "L" else text
  | string body => "'" ++ body ++ "'"
  | nationalString body => "N'" ++ body ++ "'"
  | hexString body => "X'" ++ body ++ "'"
  | placeholder text => text
  | openParen => "("
  | closeParen => ")"
  | comma => ","
  | period => "."
  | semicolon => ";"
  | symbol text => text

/-- Whether the token is the unquoted word `keyword`, in any case. -/
def isKeyword (t : Token) (keyword : String) : Bool :=
  match t with
  | word none text => sameName text keyword
  | _ => false

/-- Whether the token is one of some unquoted words, in any case. -/
def isOneOf (t : Token) (keywords : List String) : Bool := keywords.any t.isKeyword

/-- The words that never name a table, an alias or a column unless they are quoted. -/
def reserved : List String := [
  "WHERE", "JOIN", "ON", "USING", "INNER", "LEFT", "RIGHT", "FULL", "OUTER", "CROSS", "NATURAL",
  "ORDER", "GROUP", "BY", "HAVING", "LIMIT", "OFFSET", "UNION", "EXCEPT", "INTERSECT", "WINDOW",
  "INDEXED", "FROM", "AS", "SELECT", "VALUES", "AND", "OR", "NOT", "IS", "ISNULL", "NOTNULL",
  "NULL", "IN", "LIKE", "GLOB", "BETWEEN", "EXISTS", "CASE", "WHEN", "THEN", "ELSE", "END", "ASC",
  "DESC", "COLLATE", "NULLS"]

/-- The name a token stands for: any quoted word, or an unquoted one that is not reserved. -/
def name? (t : Token) : Option String :=
  match t with
  | word (some _) text => some text
  | word none text => if t.isOneOf reserved then none else some text
  | _ => none

/-- The depth of parentheses after a token that stands at depth `d`; it never falls below zero. -/
def depthAfter (t : Token) (d : Nat) : Nat :=
  match t with
  | openParen => d + 1
  | closeParen => d - 1
  | _ => d

end Token

/-- Tokens written with one space between them. -/
def render (ts : List Token) : String := String.intercalate " " (ts.map Token.render)

end IndexAdvisor.Sql
