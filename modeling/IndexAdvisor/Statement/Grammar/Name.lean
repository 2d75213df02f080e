import IndexAdvisor.Statement.Recognizer

/-!
# Names, types and values in statements

The phrases without parts of their own that the rest of the grammar is built from. Where a name is
wanted any word will do, a keyword too.

Models the part of the parser behind `parse_sql` that reads names, types and values.
-/

namespace IndexAdvisor.Statement

open Recognizer

/-- What may stand for a name. -/
def isName : Piece → Bool
  | .word _ | .quoted _ | .string => true
  | _ => false

/-- A name. -/
def name : Recognizer := one isName

/-- Whether a name comes next. -/
def nextName : List Piece → Bool
  | t :: _ => isName t
  | [] => false

/-- Names with points between them. -/
def path : Recognizer := name >> loop fun t _ => if t == .mark "." then some name else none

/-- A list of names. -/
def names : Recognizer := list name

/-- The words that may follow an opening phrase in any case: `IF EXISTS`. -/
def ifExists : Recognizer := maybe ["IF", "EXISTS"]

/-- The words `IF NOT EXISTS`, which may be left out. -/
def ifNotExists : Recognizer := maybe ["IF", "NOT", "EXISTS"]

/-- The arguments of a type. -/
def typeArguments : Recognizer :=
  choose (nextMark "(") (skip 1 (loop argument >> mark ")")) nothing
where
  /-- Words, numbers and strings, with or without commas. -/
  argument (t : Piece) (_ : List Piece) : Option Recognizer :=
    match t with
    | .word _ | .quoted _ | .number | .string => some nothing
    | .mark "," => some nothing
    | _ => none

/-- The names of integer types. -/
def integerTypes : List String := [
  "INT", "INTEGER", "TINYINT", "SMALLINT", "MEDIUMINT", "BIGINT", "INT2", "INT4", "INT8"]

/-- The type of a column or of a cast. -/
def typeName : Recognizer :=
  choose (nextIn integerTypes) (skip 1 (typeArguments >> maybe ["UNSIGNED"]))
    (cases [
      (["DOUBLE"], maybe ["PRECISION"] >> typeArguments),
      (["CHARACTER"], longer), (["CHAR"], longer), (["TIMESTAMP"], zoned), (["TIME"], zoned)]
      (choose nextString (refuse .mismatch) (path >> typeArguments)))
where
  /-- What may follow the name of a type of characters. -/
  longer : Recognizer :=
    cases [(["VARYING"], nothing), (["LARGE", "OBJECT"], nothing)] nothing >> typeArguments
  /-- What may follow the name of a type of points in time. -/
  zoned : Recognizer :=
    typeArguments >> cases [(["WITH", "TIME", "ZONE"], nothing),
      (["WITHOUT", "TIME", "ZONE"], nothing)]
      nothing
  /-- Whether a string comes next. -/
  nextString : List Piece → Bool
    | .string :: _ => true
    | _ => false

/-- A bound value. -/
def placeholder : Recognizer :=
  one (fun t => t == .mark ":" || t == .mark "@") >> one fun t => match t with
    | .word _ | .quoted _ | .number => true
    | _ => false

/-- A value without parts: a literal or a bound value. -/
def value : Recognizer :=
  choose (fun ts => nextMark ":" ts || nextMark "@" ts) placeholder
    (one fun t => match t with
      | .number | .string | .literal | .placeholder | .quoted true => true
      | .word w => ["TRUE", "FALSE", "NULL"].contains w
      | _ => false)

/-- The types that a value may be marked with by putting the name of the type before it. -/
def markingTypes : List String :=
  integerTypes ++ ["BOOLEAN", "BOOL", "REAL", "FLOAT", "DOUBLE", "NUMERIC", "DECIMAL", "DEC",
    "VARCHAR", "NVARCHAR", "CHAR", "CHARACTER", "CLOB", "TEXT", "BLOB", "BINARY", "VARBINARY",
    "DATE", "TIME", "DATETIME", "TIMESTAMP", "JSON", "UUID"]

end IndexAdvisor.Statement
