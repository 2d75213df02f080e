import IndexAdvisor.Statement.Grammar.Expr

/-!
# Queries

A query is a row of selects with set operators between them, an ordering and a limit, and it may
begin with queries of its own under names. What may stand for an alias depends on the place: a word
that could also go on with the query is no alias.

Models the part of the parser behind `parse_sql` that reads queries.
-/

namespace IndexAdvisor.Statement

open Recognizer

/-- Words that are no alias of a table or a column. -/
def noAlias : List String := [
  "WITH", "EXPLAIN", "ANALYZE", "SELECT", "WHERE", "GROUP", "SORT", "HAVING", "ORDER", "TOP",
  "LATERAL", "VIEW", "LIMIT", "OFFSET", "FETCH", "UNION", "EXCEPT", "INTERSECT", "MINUS", "CLUSTER",
  "DISTRIBUTE", "RETURNING", "END", "FROM"]

/-- Words that are no alias of a column. -/
def noColumnAlias : List String := "INTO" :: noAlias

/-- Words that are no alias of a table. -/
def noTableAlias : List String := noAlias ++ [
  "PIVOT", "UNPIVOT", "ON", "JOIN", "INNER", "CROSS", "FULL", "LEFT", "RIGHT", "NATURAL", "USING",
  "GLOBAL", "ANTI", "SEMI", "ASOF", "MATCH_CONDITION", "OUTER", "SET", "QUALIFY", "WINDOW", "FOR",
  "PARTITION", "PREWHERE", "SETTINGS", "FORMAT", "START", "CONNECT", "MATCH_RECOGNIZE", "SAMPLE",
  "TABLESAMPLE", "OPEN"]

/-- An alias and what follows it, which both may be left out. After `AS` any name will do. -/
def aliasName (no : List String) (following : Recognizer) : Recognizer :=
  givenElse ["AS"] (name >> following) (choose nextAlias (skip 1 following) nothing)
where
  /-- Whether an alias comes next. -/
  nextAlias : List Piece → Bool
    | .word w :: _ => !no.contains w
    | .quoted _ :: _ | .string :: _ => true
    | _ => false

/-- Columns with or without types, which may be left out. -/
def columnNames : Recognizer := maybeList (name >> (typeName <|> nothing))

/-- The alias of a table, which may be left out, and then the names of its columns. -/
def tableAlias : Recognizer := aliasName noTableAlias columnNames

/-- An item of a select list. The word `FROM` alone is none. -/
def selectItem (g : Level) : Recognizer := starOr (choose loneFrom (refuse .mismatch) item)
where
  /-- An expression and its alias. -/
  item : Recognizer := g.expr 0 >> aliasName noColumnAlias nothing
  /-- Whether the word `FROM` comes next and nothing goes on with it. -/
  loneFrom : List Piece → Bool
    | [.word "FROM"] => true
    | .word "FROM" :: t :: ts =>
      power t ts == 0 && !([".", "("].any (t == .mark ·)) && t != .word "COLLATE"
    | _ => false

/-- One or more items of a select list. -/
def selectItems (g : Level) : Recognizer := commas (selectItem g)

/-- A table, a query in parentheses or joined tables in parentheses. -/
def table (g : Level) : Recognizer :=
  choose (nextMark "(")
    ((inParens g.query <|> inParens g.tables) >> tableAlias)
    (path >> choose (nextMark "(") arguments nothing >> tableAlias)
where
  /-- The arguments of a function that stands for a table. -/
  arguments : Recognizer :=
    inParens (choose (nextMark ")") nothing (commas (starOr (g.expr 0))))

/-- What a join is on. -/
def joinCondition (g : Level) : Recognizer :=
  cases [(["ON"], g.expr 0), (["USING"], list path)] nothing

/-- The words between two joined tables, if they come next: how many there are, and whether the join
is one that takes no condition. -/
def joinWords? : List Piece → Option (Nat × Bool)
  | .word "JOIN" :: _ => some (1, false)
  | .word "INNER" :: .word "JOIN" :: _ => some (2, false)
  | .word "CROSS" :: .word "JOIN" :: _ => some (2, true)
  | .word "FULL" :: .word "OUTER" :: .word "JOIN" :: _ => some (3, false)
  | .word "FULL" :: .word "JOIN" :: _ => some (2, false)
  | .word side :: .word "JOIN" :: _ =>
    if ["LEFT", "RIGHT", "SEMI", "ANTI"].contains side then some (2, false) else none
  | .word side :: .word kind :: .word "JOIN" :: _ =>
    if ["LEFT", "RIGHT"].contains side && ["OUTER", "SEMI",
      "ANTI"].contains kind then some (3, false)
    else none
  | _ => none

/-- Words that can only begin a join. -/
def joinStarts : List String := [
  "JOIN", "INNER", "CROSS", "FULL", "LEFT", "RIGHT", "SEMI", "ANTI", "NATURAL",
  "OUTER", "GLOBAL", "ASOF"]

/-- A table and what is joined to it. -/
def joined (g : Level) : Recognizer := table g >> loop join
where
  /-- A join, after its first word. -/
  join (t : Piece) (ts : List Piece) : Option Recognizer :=
    match joinWords? (t :: ts) with
    | some (n, bare) =>
      some (skip (n - 1) (table g >> if bare then nothing else joinCondition g))
    | none =>
      match t, joinWords? ts with
      | .word "NATURAL", some (n, false) => some (skip n (table g))
      | .word w, _ => if joinStarts.contains w then some (refuse .mismatch) else none
      | _, _ => none

/-- Joined tables between parentheses: more than one, or one that is such a group itself. -/
def group (g : Level) : Recognizer :=
  choose (nextMark "(") ((inParens g.query >> tableAlias >> more) <|>
    (inParens g.tables >> tableAlias))
    (table g >> more) >> loop (joined.join g)
where
  /-- What makes sure that another table follows. -/
  more : Recognizer := choose (nextIn joinStarts) nothing (refuse .mismatch)

/-- Tables with commas between them. -/
def tables (g : Level) : Recognizer := commas (joined g)

/-- The tables of a statement, which may be left out. -/
def source (g : Level) : Recognizer := given ["FROM"] (tables g)

/-- The condition of a statement, which may be left out. -/
def condition (g : Level) : Recognizer := given ["WHERE"] (g.expr 0)

/-- Names of windows with what they stand for. -/
def windows (g : Level) : Recognizer := given ["WINDOW"] (commas (name >> word "AS" >> window g))

/-- A filter on windows, which is not allowed everywhere but recognized. -/
def qualification (g : Level) : Recognizer := given ["QUALIFY"] (g.expr 0)

/-- A select, after its first word. -/
def select (g : Level) : Recognizer :=
  quantifier >> top >> selectItems g >> target >> source g >> condition g >>
    given ["GROUP", "BY"] (givenElse ["ALL"] nothing (exprs g)) >>
    given ["HAVING"] (g.expr 0) >>
    choose (nextIn ["QUALIFY"]) (qualification g >> windows g) (windows g >> qualification g)
where
  /-- Whether repeated rows count. -/
  quantifier : Recognizer :=
    cases [
      (["ALL", "DISTINCT"], refuse .mismatch), (["ALL"], nothing),
      (["DISTINCT", "ON"], inParens (choose (nextMark ")") nothing (exprs g))),
      (["DISTINCT"], nothing)]
      nothing
  /-- A number of rows at the front. -/
  top : Recognizer :=
    given ["TOP"] (choose (nextMark "(") (inParens (g.expr 0)) (one (· == .number)) >>
      maybe ["PERCENT"] >> maybe ["WITH", "TIES"])
  /-- A table that takes the rows. -/
  target : Recognizer :=
    given ["INTO"] (maybeOne ["TEMPORARY", "TEMP"] >> maybe ["UNLOGGED"] >> maybe ["TABLE"] >> path)

/-- Rows of values, after their first word. -/
def rows (g : Level) : Recognizer := commas (maybe ["ROW"] >> inParens (exprs g))

/-- One part of a query between set operators. -/
def queryPart (g : Level) : Recognizer :=
  choose (nextMark "(") (inParens g.query)
    (cases [(["SELECT"], select g), (["VALUES"], rows g),
      (["TABLE"], name >> givenMark "." name)] (refuse .mismatch))

/-- The parts of a query with set operators between them. -/
def queryBody (g : Level) : Recognizer := queryPart g >> loop operator
where
  /-- A set operator and the part after it. -/
  operator (t : Piece) (_ : List Piece) : Option Recognizer :=
    match t with
    | .word w =>
      if ["UNION", "EXCEPT", "INTERSECT", "MINUS"].contains w then
        some (cases [(["ALL"], nothing), (["DISTINCT"], nothing)] nothing >> queryPart g)
      else none
    | _ => none

/-- The limit of a query and where it begins. -/
def limits (g : Level) : Recognizer :=
  cases [
    (["LIMIT", "ALL"], given ["OFFSET"] offset),
    (["LIMIT"], g.expr 0 >> givenElse ["OFFSET"] offset (givenMark "," (g.expr 0))),
    (["OFFSET"], offset >> given ["LIMIT"] (givenElse ["ALL"] nothing (g.expr 0)))] nothing
where
  /-- A number of rows that are left out. -/
  offset : Recognizer := g.expr 0 >> maybeOne ["ROW", "ROWS"]

/-- Row locks at the end of a query. -/
def locks : Recognizer :=
  loop fun t _ =>
    if t == .word "FOR" then
      some (oneOf ["UPDATE", "SHARE"] >> given ["OF"] path >>
        cases [(["NOWAIT"], nothing), (["SKIP", "LOCKED"], nothing)] nothing)
    else none

/-- A query under a name. -/
def namedQuery (g : Level) : Recognizer :=
  name >> choose (nextIn ["AS"]) nothing columnNames >> word "AS" >> inParens g.query >>
    given ["FROM"] name

/-- A query. After named queries a change of a table may stand in its place; `insert` and `update`
are such changes, after their first word. -/
def query (g : Level) (insert update : Recognizer) : Recognizer :=
  given ["WITH"] (maybe ["RECURSIVE"] >> commas (namedQuery g)) >>
    cases [(["INSERT"], insert), (["UPDATE"], update)]
      (queryBody g >> ordering g >> limits g >> locks)

end IndexAdvisor.Statement
