import IndexAdvisor.Statement.Grammar.Query

/-!
# Definitions

Statements that create, alter and drop the objects of a database, after the word they begin with.

Models the part of the parser behind `parse_sql` that reads these.
-/

namespace IndexAdvisor.Statement

open Recognizer

/-- When a constraint is checked, which may be left out. -/
def checkTime : Recognizer :=
  loop fun t ts => match t with
    | .word "DEFERRABLE" => some nothing
    | .word "NOT" => if begins ["DEFERRABLE"] ts then some (word "DEFERRABLE") else none
    | .word "INITIALLY" => some (oneOf ["DEFERRED", "IMMEDIATE"])
    | .word "ENFORCED" => some nothing
    | _ => none

/-- What is referred to by a foreign key, and what happens when it changes. -/
def reference : Recognizer :=
  path >> choose (nextMark "(") names nothing >> loop action >> checkTime
where
  /-- What happens on one kind of change. -/
  action (t : Piece) (ts : List Piece) : Option Recognizer :=
    if t == .word "ON" && nextIn ["DELETE", "UPDATE"] ts then
      some (skip 1 (cases [
        (["RESTRICT"], nothing), (["CASCADE"], nothing), (["SET", "NULL"], nothing),
        (["NO", "ACTION"], nothing)] (words ["SET", "DEFAULT"])))
    else none

/-- An expression that is stored or computed. -/
def generated (g : Level) : Recognizer := inParens (g.expr 0) >> maybeOne ["STORED", "VIRTUAL"]

/-- A property of a column, after its first word, if the words at the front begin one. -/
def columnProperty (g : Level) (t : Piece) (ts : List Piece) : Option Recognizer :=
  match t with
  | .word "NOT" => if begins ["NULL"] ts then some (word "NULL") else none
  | .word "NULL" | .word "AUTOINCREMENT" | .word "ASC" | .word "DESC" => some nothing
  | .word "DEFAULT" => some (g.expr 0)
  | .word "COLLATE" => some path
  | .word "PRIMARY" => some (word "KEY" >> checkTime)
  | .word "UNIQUE" => some checkTime
  | .word "REFERENCES" => some reference
  | .word "CHECK" => some (inParens (g.expr 0))
  | .word "GENERATED" => some (words ["ALWAYS", "AS"] >> generated g)
  | .word "AS" => some (generated g)
  | .word "ON" =>
    if begins ["CONFLICT"] ts then
      some (word "CONFLICT" >> oneOf ["ROLLBACK", "ABORT", "FAIL", "IGNORE", "REPLACE"])
    else none
  | _ => none

/-- A column: its name, its type, which may be left out, and its properties. -/
def column (g : Level) : Recognizer :=
  name >> choose untyped nothing typeName >> loop property
where
  /-- Whether no type comes next. -/
  untyped : List Piece → Bool
    | .word w :: _ => [
        "CONSTRAINT", "PRIMARY", "NOT", "UNIQUE", "CHECK", "DEFAULT", "COLLATE", "REFERENCES",
        "GENERATED", "AS"].contains w
    | .quoted _ :: _ => false
    | _ => true
  /-- A property, which may have a name. -/
  property (t : Piece) (ts : List Piece) : Option Recognizer :=
    match t, ts with
    | .word "CONSTRAINT", _ :: p :: rest =>
      match columnProperty g p rest with
      | some following => some (name >> skip 1 following)
      | none => some (refuse .mismatch)
    | .word "CONSTRAINT", _ => some (refuse .mismatch)
    | t, ts => columnProperty g t ts

/-- Whether a constraint of a table comes next. -/
def nextConstraint : List Piece → Bool :=
  nextIn ["CONSTRAINT", "PRIMARY", "UNIQUE", "FOREIGN", "CHECK"]

/-- A constraint of a table. -/
def constraint (g : Level) : Recognizer :=
  given ["CONSTRAINT"] name >> cases [
    (["PRIMARY"], word "KEY" >> names >> checkTime),
    (["UNIQUE"], choose nextName name nothing >> names >> checkTime),
    (["FOREIGN"], word "KEY" >> names >> word "REFERENCES" >> reference),
    (["CHECK"], inParens (g.expr 0))] (refuse .mismatch)

/-- The columns and constraints of a table, which may be left out. -/
def tableParts (g : Level) : Recognizer :=
  choose (nextMark "(")
    (inParens (choose (nextMark ")") nothing
      (commas (choose nextConstraint (constraint g) (column g)))))
    nothing

/-- A new table. -/
def newTable (g : Level) : Recognizer :=
  ifNotExists >> path >> given ["LIKE"] path >> tableParts g >> maybe ["WITHOUT", "ROWID"] >>
    maybe ["STRICT"] >> given ["AS"] g.query

/-- A new view. -/
def newView (g : Level) : Recognizer :=
  ifNotExists >> path >> columnNames >> word "AS" >> g.query

/-- A new index. -/
def newIndex (g : Level) : Recognizer :=
  givenElse ["IF", "NOT", "EXISTS"] named (givenElse ["ON"] nothing named) >> path >>
    given ["USING"] name >> list (orderTerm g) >> given ["INCLUDE"] names >> condition g
where
  /-- The name of the index, up to the word before the table. -/
  named : Recognizer := path >> given ["USING"] name >> word "ON"

/-- A new sequence. -/
def newSequence : Recognizer :=
  ifNotExists >> path >> given ["AS"] typeName >>
    (loop fun t ts => match t with
      | .word "INCREMENT" => some (maybe ["BY"] >> signed)
      | .word "MINVALUE" | .word "MAXVALUE" | .word "CACHE" => some signed
      | .word "START" => some (maybe ["WITH"] >> signed)
      | .word "NO" => if nextIn ["MINVALUE", "MAXVALUE", "CYCLE"] ts then some (one fun _ => true)
        else none
      | .word "CYCLE" => some nothing
      | _ => none) >>
    given ["OWNED", "BY"] path
where
  /-- A number that may have a sign. -/
  signed : Recognizer := choose (nextMark "-") (skip 1 nothing) nothing >> one (· == .number)

/-- What a creation makes, and the phrase after the words that say so. -/
def creations (g : Level) : List (List String × Recognizer) := [
  (["TABLE"], newTable g), (["VIEW"], newView g), (["MATERIALIZED", "VIEW"], newView g),
  (["INDEX"], newIndex g), (["UNIQUE", "INDEX"], newIndex g),
  (["VIRTUAL", "TABLE"], ifNotExists >> path >> word "USING" >> name >>
    choose (nextMark "(") names nothing),
  (["SCHEMA"], ifNotExists >> givenElse ["AUTHORIZATION"] name
    (path >> given ["AUTHORIZATION"] name)),
  (["DATABASE"], ifNotExists >> path), (["ROLE"], ifNotExists >> commas path >> maybe ["WITH"]),
  (["SEQUENCE"], newSequence)]

/-- A creation. -/
def create (g : Level) : Recognizer :=
  givenElse ["OR", "REPLACE"]
    (maybeOne ["TEMP", "TEMPORARY"] >> cases ((creations g).take 3) (refuse .mismatch))
    (maybeOne ["TEMP", "TEMPORARY"] >> cases (creations g) (refuse .mismatch))

/-- One alteration of a table. -/
def tableAlteration (g : Level) : Recognizer :=
  cases [
    (["RENAME", "TO"], path),
    (["RENAME"], maybe ["COLUMN"] >> name >> word "TO" >> name),
    (["ADD"], choose nextConstraint (constraint g) (maybe ["COLUMN"] >> ifNotExists >> column g)),
    (["DROP", "CONSTRAINT"], ifExists >> name >> maybeOne ["CASCADE", "RESTRICT"]),
    (["DROP"], maybe ["COLUMN"] >> ifExists >> name >> maybeOne ["CASCADE", "RESTRICT"])]
    (refuse .mismatch)

/-- An alteration. -/
def alter (g : Level) : Recognizer :=
  cases [
    (["TABLE"], ifExists >> maybe ["ONLY"] >> path >> commas (tableAlteration g)),
    (["VIEW"], path >> choose (nextMark "(") names nothing >> word "AS" >> g.query),
    (["INDEX"], path >> words ["RENAME", "TO"] >> path)] (refuse .mismatch)

/-- The kinds of object that are dropped by name. -/
def droppable : List String := ["TABLE", "VIEW", "INDEX", "ROLE", "SCHEMA", "DATABASE",
    "SEQUENCE", "TYPE"]

/-- A removal. -/
def drop : Recognizer :=
  givenElse ["FUNCTION"]
    (ifExists >> commas (path >> choose (nextMark "(") (inParens arguments) nothing) >>
      maybeOne ["CASCADE", "RESTRICT"])
    (oneOf droppable >> ifExists >> commas path >>
      maybeOne ["CASCADE", "RESTRICT"] >> maybe ["PURGE"])
where
  /-- The types of the arguments of a function. -/
  arguments : Recognizer := choose (nextMark ")") nothing (commas typeName)

end IndexAdvisor.Statement
