import IndexAdvisor.Analysis
import IndexAdvisor.Engine.Outline
import IndexAdvisor.Text.Quoted

/-!
# An engine without tables

This is no part of the advisor, and nothing in the library rests on it. The tools of the advisor ask
an engine for programs, and here is the least of all engines for trying them out: it stands in for
SQLite over a database that has no tables, and follows the way in which SQLite looks names up.

In a database without tables a query compiles only if it names none, and then its program opens
nothing. So what an engine has to say about a query is known from the text alone: the first table
that the engine looks for and does not find, or an empty program.

The engine opens the sources of a select before it looks into its terms, both from left to right,
and of a compound query it takes the last select first. Names bound by `WITH` are no tables; what
stands behind such a name is looked into where the name is used, and a query may use its own name.
-/

namespace IndexAdvisor.EmptyDatabase

open Sql

/-- The schema of a database without tables. -/
def schema : Schema := {}

/-- The tables an engine brings along. -/
def engineTables : List String :=
  ["sqlite_master", "sqlite_schema", "sqlite_temp_master", "sqlite_temp_schema"]

/-- The words a query begins with. -/
def isQuery (ps : List Phrase) : Bool := ps.head?.any (·.isOneOf ["SELECT", "VALUES", "WITH"])

/-- The parts of a list between the phrases that satisfy a test; never none. -/
def parts (mark : Phrase → Bool) : List Phrase → List (List Phrase)
  | [] => [[]]
  | p :: ps =>
    match mark p, parts mark ps with
    | true, rest => [] :: rest
    | false, part :: rest => (p :: part) :: rest
    | false, [] => [[p]]

/-- The text of a name without its quotes. -/
def nameText? : Token → Option String
  | .word none text => some text
  | .word (some quote) text => some (String.ofList (halved quote.closing text.toList))
  | .string body => some (String.ofList (halved '\'' body.toList))
  | _ => none

/-- The names bound so far, each with the table that is missing behind it, if one is. -/
abbrev Scope := List (String × Option String)

/-- The table at the front of a source that is missing. Only a name without a qualifier can be
bound. -/
def missingName? (scope : Scope) : List Phrase → Option String
  | .token t :: .token .period :: .token u :: _ => do
    let qualifier ← nameText? t
    let name ← nameText? u
    if engineTables.any (sameName name) then none else some (qualifier ++ "." ++ name)
  | .token t :: _ => do
    let name ← nameText? t
    match scope.find? fun bound => sameName bound.1 name with
    | some bound => bound.2
    | none => if engineTables.any (sameName name) then none else some name
  | _ => none

/-- The names that `WITH` binds, each with the query behind it, and what follows them. `name` is the
name whose query has not come yet. -/
def bindings (name : Option String) : List Phrase → List (String × List Phrase) × List Phrase
  | [] => ([], [])
  | .group inside :: .token .comma :: rest =>
    if isQuery inside then
      let (bound, rest) := bindings none rest
      ((name.getD "", inside) :: bound, rest)
    else bindings name rest
  | .group inside :: rest =>
    if isQuery inside then ([(name.getD "", inside)], rest) else bindings name rest
  | .token t :: rest => bindings (name.or (nameText? t)) rest

/-- The names bound at the front of a query, each with the query behind it, and the rest. -/
def splitWith (ps : List Phrase) : List (String × List Phrase) × List Phrase :=
  match ps with
  | p :: rest =>
    if p.isOneOf ["WITH"] then
      bindings none (if rest.head?.any (·.isOneOf ["RECURSIVE"]) then rest.drop 1 else rest)
    else ([], ps)
  | [] => ([], [])

/-- What comes before the sources of a select, and what comes after the word that opens them. The
word `FROM` after `DISTINCT` belongs to a comparison. -/
def splitSources : List Phrase → List Phrase × List Phrase
  | [] => ([], [])
  | p :: q :: rest =>
    if p.isOneOf ["DISTINCT"] && q.isOneOf ["FROM"] then
      let (before, sources) := splitSources rest
      (p :: q :: before, sources)
    else if p.isOneOf ["FROM", "INTO", "UPDATE"] then ([], q :: rest)
    else
      let (before, sources) := splitSources (q :: rest)
      (p :: before, sources)
  | [p] => if p.isOneOf ["FROM", "INTO", "UPDATE"] then ([], []) else ([p], [])

/-- Whether a phrase is a word that ends the sources of a select. -/
def endsSources (p : Phrase) : Bool := p.isOneOf [
  "WHERE", "GROUP", "HAVING", "WINDOW", "ORDER", "LIMIT", "SET", "DEFAULT", "SELECT", "VALUES",
  "RETURNING"]

/-- Whether a phrase stands between two sources. -/
def separates (p : Phrase) : Bool := p.isOneOf ["JOIN"] || p.isToken (· == .comma)

/-- Whether a phrase stands between the selects of a compound query. -/
def compounds (p : Phrase) : Bool := p.isOneOf ["UNION", "INTERSECT", "EXCEPT"]

/-- What some phrases are to a query. -/
inductive Role where
  | query | sources | terms

/-- The first table that is missing from some phrases, looked for down to a depth of parentheses. -/
def missing? : (depth : Nat) → Scope → Role → List Phrase → Option String
  | 0, _, _, _ => none
  | depth + 1, scope, .query, ps =>
    let (bound, body) := splitWith ps
    let scope := bound.foldl (fun scope (name, query) =>
      (name, missing? depth scope .query query) :: scope) (bound.map (·.1, none) ++ scope)
    (parts compounds body).reverse.findSome? fun select =>
      let (before, rest) := splitSources select
      (missing? depth scope .sources (rest.takeWhile (!endsSources ·))).or
        (missing? depth scope .terms (before ++ rest.dropWhile (!endsSources ·)))
  | depth + 1, scope, .sources, ps =>
    let sources := parts separates ps
    (sources.findSome? fun source => match source with
      | .group inside :: _ =>
        missing? depth scope (if isQuery inside then .query else .sources) inside
      | _ => missingName? scope source).or
        (missing? depth scope .terms (sources.flatMap (·.drop 1)))
  | depth + 1, scope, .terms, ps =>
    ps.findSome? fun p => match p with
      | .group inside => missing? depth scope (if isQuery inside then .query else .terms) inside
      | .token _ => none

/-- How deep the parentheses of a statement are looked into. -/
def maxDepth : Nat := 3000

/-- The first table of a statement that the engine does not find. -/
def missingTable? (sql : String) : Option String :=
  missing? maxDepth [] .query (Outline.ofTokens ((tokens sql).filter (· != .semicolon)))

/-- What the engine says of a table that it does not find. -/
def noTable (name : String) : Causes :=
  let message := "(code: 1) no such table: " ++ name
  ["EXPLAIN failed", "error returned from database: " ++ message, message]

/-- The program of a statement in a database without tables. It opens nothing, and only what is
opened counts, so it is given as empty. -/
def explain : Explain := fun sql =>
  match missingTable? sql with
  | some name => .error (noTable name)
  | none => .ok []

end IndexAdvisor.EmptyDatabase
