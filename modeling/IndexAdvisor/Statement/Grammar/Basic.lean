import IndexAdvisor.Statement.Grammar.Change
import IndexAdvisor.Statement.Grammar.Definition

/-!
# Statements

All statements the grammar knows, and how a text is divided into them. Phrases may be nested fifty
levels deep. Semicolons separate statements, any number of them; after a statement without a
semicolon the text must end, or the word `END` must come, after which the text is not looked at any
more.

The statements are those of SQLite and a few more (`statements`). The parser behind `parse_sql`,
which this stands for, recognizes others as well: `SET`, `SHOW`, `USE`, `GRANT`, `REVOKE`, `CALL`,
`MERGE`, `DECLARE`, `PREPARE`, `EXECUTE`, `COMMENT` and some that other engines have. They are not
in this grammar. A text with one of them is not recognized here, so it is judged by its first word:
where the parser finds two statements in `SELECT 1; SET x = 1`, the text passes for one query.
-/

namespace IndexAdvisor.Statement

open Recognizer

/-- A setting of the engine, after its first word. -/
def pragma : Recognizer :=
  path >> choose (nextMark "(") (inParens setting) (givenMark "=" setting)
where
  /-- What a setting may be set to. -/
  setting : Recognizer :=
    choose (fun ts => nextMark ":" ts || nextMark "@" ts) placeholder
      (one fun t => t == .number || t == .string || t == .placeholder || t == .quoted true)

/-- What follows a word that asks for an explanation: a statement that does not ask for one itself,
or the name of a table. -/
def explanation (g : Level) : Recognizer :=
  cases [(["QUERY", "PLAN"], nothing), (["ESTIMATE"], nothing)]
      (maybe ["ANALYZE"] >> maybe ["VERBOSE"] >> given ["FORMAT"] name) >>
    choose (nextIn ["EXPLAIN", "DESCRIBE", "DESC"]) path (g.statement <|> path)

/-- The modes of a transaction, which may be left out. -/
def modes : Recognizer :=
  choose (nextIn ["ISOLATION", "READ"]) (commas (mode >> loop fun t ts =>
    if t == .word "READ" && nextIn ["ONLY", "WRITE"] ts then some (oneOf ["ONLY", "WRITE"])
    else if t == .word "ISOLATION" then some isolation else none)) nothing
where
  /-- A level of isolation, after its first word. -/
  isolation : Recognizer :=
    word "LEVEL" >> cases [
      (["READ", "UNCOMMITTED"], nothing), (["READ", "COMMITTED"], nothing),
      (["REPEATABLE", "READ"], nothing), (["SERIALIZABLE"], nothing)] (word "SNAPSHOT")
  /-- One mode. -/
  mode : Recognizer := givenElse ["ISOLATION"] isolation (word "READ" >> oneOf ["ONLY", "WRITE"])

/-- What may follow the word that ends a transaction. -/
def chain : Recognizer :=
  maybeOne ["TRANSACTION", "WORK"] >> given ["AND"] (maybe ["NO"] >> word "CHAIN")

/-- The statements by their first words, with what follows these. -/
def statements (g : Level) : List (List String × Recognizer) := [
  (["INSERT"], insert g), (["REPLACE"], insert g), (["UPDATE"], update g),
  (["DELETE"], delete g), (["CREATE"], create g), (["ALTER"], alter g), (["DROP"], drop),
  (["PRAGMA"], pragma), (["EXPLAIN"], explanation g), (["DESCRIBE"], explanation g),
  (["DESC"], explanation g), (["ANALYZE"], maybe ["TABLE"] >> path),
  (["ATTACH"], maybe ["DATABASE"] >> g.expr 0 >> word "AS" >> name),
  (["BEGIN"], maybeOne ["DEFERRED", "IMMEDIATE", "EXCLUSIVE"] >> maybeOne ["TRANSACTION", "WORK"] >>
    modes),
  (["START", "TRANSACTION"], modes), (["END"], chain), (["COMMIT"], chain),
  (["ROLLBACK"], chain >> given ["TO"] (maybe ["SAVEPOINT"] >> name)),
  (["SAVEPOINT"], name), (["RELEASE"], maybe ["SAVEPOINT"] >> name),
  (["TRUNCATE"], maybe ["TABLE"] >> maybe ["ONLY"] >> commas path),
  (["KILL"], maybeOne ["CONNECTION", "QUERY"] >> one (· == .number))]

/-- One statement. -/
def statement (g : Level) : Recognizer :=
  choose (fun ts => nextIn ["SELECT", "WITH", "VALUES"] ts || nextMark "(" ts) g.query
    (cases (statements g) (refuse .mismatch))

/-- The phrases of a level whose nested phrases are those of a given level. -/
def levelAbove (g : Level) : Level where
  statement := delay fun _ => statement g
  query := delay fun _ => query g (insert g) (update g)
  tables := delay fun _ => group g
  expr least := delay fun _ => expr g least

/-- The phrases when so many levels are left. -/
def level : Nat → Level
  | 0 => ⟨refuse .tooDeep, refuse .tooDeep, refuse .tooDeep, fun _ => refuse .tooDeep⟩
  | depth + 1 => levelAbove (level depth)

/-- How many levels phrases may be nested. -/
def maxDepth : Nat := 50

/-- One statement at the top. -/
def topStatement : Recognizer := (level maxDepth).statement

/-- The statements of a row of pieces, each with all that follows it; none if some statement is not
recognized. `separated` says whether a statement may begin here; those found so far stand last
first. -/
def divideFrom (separated : Bool) (found : List (List Piece)) :
    List Piece → Option (List (List Piece))
  | [] => some found.reverse
  | t :: ts =>
    if t == .mark ";" then divideFrom true found ts
    else if !separated then if t == .word "END" then some found.reverse else none
    else match _h : topStatement.run (t :: ts) with
      | .ok rest => divideFrom false ((t :: ts) :: found) rest
      | .error _ => none
termination_by ts => 2 * ts.length + separated.toNat
decreasing_by
  · simp only [List.length_cons, Bool.toNat_true]; omega
  · have := topStatement.length_le _h
    have : separated = true := by simp_all
    simp only [List.length_cons, this, Bool.toNat_false, Bool.toNat_true] at *
    omega

/-- The statements of a row of pieces, each with all that follows it, if every one is recognized. -/
def divide? (ts : List Piece) : Option (List (List Piece)) := divideFrom true [] ts

end IndexAdvisor.Statement
