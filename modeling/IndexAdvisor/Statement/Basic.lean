import IndexAdvisor.Sql.Lexer
import IndexAdvisor.Statement.Grammar.Basic
import IndexAdvisor.Text.Quoted

/-!
# What a statement does

A text should hold one statement, and what matters of it is what it does: only queries are analysed.
A text in which all statements are recognized is judged by their number and by how the one statement
begins. The engine knows statements that the grammar does not, so any other text is judged by its
first word, quoted or not, and then its number of statements is not looked at.

Models `StatementType`, `parse_sql`, `classify_statement`, `leading_keyword` and `type_of_keyword`.
-/

namespace IndexAdvisor

/-- What a statement does. -/
inductive StatementKind where
  | select
  | insert
  | update
  | delete
  | create
  | alter
  | drop
  | pragma
  | explain
  /-- Anything else, by the word that says it. -/
  | other (word : String)
  deriving DecidableEq, Repr

/-- Why a text is no single statement. -/
inductive StatementError where
  | empty
  | several
  deriving DecidableEq, Repr

/-- The message that goes with an error. -/
def StatementError.message : StatementError → String
  | empty => "Empty SQL statement"
  | several => "Multi-statement SQL is not supported. Send one statement at a time."

namespace StatementKind

/-- The name of what a statement does. -/
def name : StatementKind → String
  | select => "SELECT"
  | insert => "INSERT"
  | update => "UPDATE"
  | delete => "DELETE"
  | create => "CREATE"
  | alter => "ALTER"
  | drop => "DROP"
  | pragma => "PRAGMA"
  | explain => "EXPLAIN"
  | other word => word

/-- Whether the statement only reads. -/
def isReadOnly (kind : StatementKind) : Bool := kind == select

/-- What a statement does that begins with a given word in capitals. -/
def ofWord (word : String) : StatementKind :=
  match word with
  | "SELECT" | "WITH" | "VALUES" => select
  | "INSERT" | "REPLACE" => insert
  | "UPDATE" => update
  | "DELETE" => delete
  | "CREATE" => create
  | "ALTER" => alter
  | "DROP" => drop
  | "PRAGMA" => pragma
  | "EXPLAIN" => explain
  | word => other word

open Statement in
/-- What a recognized statement does, by how it begins. Some objects that are created, altered and
dropped are none of those that the library knows. -/
def ofPieces : List Piece → StatementKind
  | .mark "(" :: _ => select
  | .word "DESC" :: _ | .word "DESCRIBE" :: _ => explain
  | .word "CREATE" :: ts =>
    let ts := if Recognizer.nextIn ["TEMP", "TEMPORARY"] ts then ts.drop 1 else ts
    if Recognizer.nextIn ["SCHEMA", "SEQUENCE", "DATABASE", "ROLE"] ts then other "CREATE"
      else create
  | .word "ALTER" :: ts => if Recognizer.nextIn ["VIEW", "INDEX"] ts then other "ALTER" else alter
  | .word "DROP" :: ts => if Recognizer.nextIn ["FUNCTION"] ts then other "DROP" else drop
  | .word word :: _ => ofWord word
  | _ => other ""

/-- The first word among tokens, in capitals and without quotes. -/
def firstWord? (ts : List Sql.Token) : Option String :=
  ts.findSome? fun t => match t with
    | .word none text => some (upperCase text)
    | .word (some quote) text => some (upperCase (String.ofList (halved quote.closing text.toList)))
    | _ => none

/-- What the one statement of a row of tokens does. -/
def ofTokens (ts : List Sql.Token) : Except StatementError StatementKind :=
  match Statement.divide? (ts.map Statement.Piece.ofToken) with
  | some [] => .error .empty
  | some [statement] => .ok (ofPieces statement)
  | some _ => .error .several
  | none =>
    match firstWord? ts with
    | some word => .ok (ofWord word)
    | none => .error .empty

/-- What the one statement of a text does. A text in which a quote is not closed counts as empty. -/
def ofText (sql : String) : Except StatementError StatementKind :=
  match Sql.tokenize? sql with
  | some ts => ofTokens ts
  | none => .error .empty

end StatementKind

end IndexAdvisor
