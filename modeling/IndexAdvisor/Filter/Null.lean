import IndexAdvisor.Scene
import IndexAdvisor.Sql.NullTest
import IndexAdvisor.Sql.Source

/-!
# Tests for NULL, attributed

A test for NULL that is read from the text belongs to the table its qualifier means, if that table
was opened; an unqualified one to the only table opened that has such a column. A test that fits no
table, or more than one, is dropped. The column is recorded as the schema spells it.

Models `null_tests` and `table_column` of the filters.
-/

namespace IndexAdvisor.Filter

/-- A column as the table at a place of the ledger spells it. -/
def tableColumn? (s : Scene) (l : Ledger) (id : Nat) (column : String) : Option String :=
  (l.usage? id).bind fun u => declared? (s.schema.columnsOfTable u.name) column

/-- The tables of the ledger that have a column, with its spelling. -/
def tablesWith (s : Scene) (l : Ledger) (column : String) : List (Nat × String) :=
  (List.range l.size).filterMap fun id =>
    if (l.usage? id).any Usage.isIndex then none
    else (tableColumn? s l id column).map (id, ·)

/-- The entry and the column that a test is about. -/
def nullTarget? (s : Scene) (l : Ledger) (refs : List Sql.TableRef) (ref : Sql.ColumnRef) :
    Option (Nat × String) :=
  match ref.qualifier with
  | some qualifier => do
    let table ← Sql.resolveQualifier? refs qualifier
    let id ← l.find? table .table
    return (id, ← tableColumn? s l id ref.column)
  | none =>
    match tablesWith s l ref.column with
    | [only] => some only
    | _ => none

/-- A test for NULL, as it is reported. -/
def nullTestText (column : String) (negated : Bool) : String :=
  quoteName column ++ " " ++ if negated then "IS NOT NULL" else "IS NULL"

/-- Records the tests for NULL in the text of the statement. -/
def recordNullTests (s : Scene) (l : Ledger) : Ledger :=
  let refs := Sql.tableRefs s.tokens
  (Sql.nullTests s.tokens).foldl (fun l test =>
    match nullTarget? s l refs test.column with
    | some (id, column) =>
      (l.record id .filter column).recordFilter id (nullTestText column test.negated)
    | none => l) l

end IndexAdvisor.Filter
