import IndexAdvisor.Sql.Token

/-!
# References to columns and tables

A column is referred to by its name, or by a qualifier, a period and its name. A qualifier is an
alias or a table name; an alias hides a table of the same name.

Models `ColumnRef`, `TableRef`, `column_ref` and `resolve_qualifier`.
-/

namespace IndexAdvisor.Sql

/-- A column, with the alias or table it is qualified by. -/
structure ColumnRef where
  qualifier : Option String := none
  column : String
  deriving DecidableEq, Repr

/-- A table named in a statement, with its alias. -/
structure TableRef where
  name : String
  aliasName : Option String := none
  deriving DecidableEq, Repr

/-- Reads tokens that are exactly one reference to a column. -/
def ColumnRef.ofTokens? : List Token → Option ColumnRef
  | [c] => c.name?.map fun column => { column }
  | [q, .period, c] => do return { qualifier := some (← q.name?), column := ← c.name? }
  | _ => none

/-- The table that a qualifier means: an alias first, then the name of a table. -/
def resolveQualifier? (refs : List TableRef) (qualifier : String) : Option String :=
  let aliased := refs.find? fun r => r.aliasName.any (sameName · qualifier)
  (aliased.or (refs.find? fun r => sameName r.name qualifier)).map TableRef.name

end IndexAdvisor.Sql
