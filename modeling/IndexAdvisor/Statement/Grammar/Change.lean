import IndexAdvisor.Statement.Grammar.Query

/-!
# Changes of rows

Statements that insert, update and delete rows, after the word they begin with.

Models the part of the parser behind `parse_sql` that reads these.
-/

namespace IndexAdvisor.Statement

open Recognizer

/-- What to do about a conflict, which may be left out. -/
def onConflict : Recognizer :=
  cases [
    (["OR", "REPLACE"], nothing), (["OR", "ROLLBACK"], nothing), (["OR", "ABORT"], nothing),
    (["OR", "FAIL"], nothing), (["OR", "IGNORE"], nothing), (["REPLACE"], nothing)] nothing

/-- New values for columns. -/
def assignments (g : Level) : Recognizer :=
  commas (choose (nextMark "(") (list path) path >> mark "=" >> g.expr 0)

/-- What a change answers, which may be left out. -/
def returning (g : Level) : Recognizer := given ["RETURNING"] (selectItems g)

/-- What an insertion does about rows that are there already, which may be left out. -/
def upsert (g : Level) : Recognizer :=
  given ["ON"] (givenElse ["CONFLICT"]
    (givenElse ["ON", "CONSTRAINT"] path (choose (nextMark "(") names nothing) >> word "DO" >>
      givenElse ["NOTHING"] nothing (words ["UPDATE", "SET"] >> assignments g >> condition g))
    (words ["DUPLICATE", "KEY", "UPDATE"] >> assignments g))

/-- An insertion. -/
def insert (g : Level) : Recognizer :=
  onConflict >> maybe ["OVERWRITE"] >> maybe ["INTO"] >> maybe ["TABLE"] >> path >>
    givenElse ["DEFAULT", "VALUES"] nothing
      (choose columnsNext names nothing >> g.query) >>
    upsert g >> returning g
where
  /-- Whether a list of columns comes next, and not a query in parentheses. -/
  columnsNext : List Piece → Bool
    | .mark "(" :: ts => !nextIn ["SELECT"] ts
    | _ => false

/-- An update. -/
def update (g : Level) : Recognizer :=
  onConflict >> joined g >> source g >> word "SET" >> assignments g >> source g >> condition g >>
    returning g

/-- A deletion. -/
def delete (g : Level) : Recognizer :=
  givenElse ["FROM"] nothing (commas path >> word "FROM") >> tables g >>
    given ["USING"] (tables g) >> condition g >> returning g >> ordering g >>
    given ["LIMIT"] (givenElse ["ALL"] nothing (g.expr 0))

end IndexAdvisor.Statement
