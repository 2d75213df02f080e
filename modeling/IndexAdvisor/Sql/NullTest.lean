import IndexAdvisor.Sql.Reference

/-!
# Tests for NULL

The program of a statement does not tell which column a test for NULL is about, so these tests are
read from the text: a column followed by `IS NULL`, `IS NOT NULL`, `NOT NULL`, `ISNULL` or
`NOTNULL`.

Models `null_tests` of the text and `null_test_suffix`.
-/

namespace IndexAdvisor.Sql

/-- A test of one column for NULL, or for anything but NULL. -/
structure NullTest where
  column : ColumnRef
  negated : Bool
  deriving DecidableEq, Repr

/-- Whether some tokens begin with a test for NULL, and whether it is negated. -/
def nullTestAt? : List Token → Option Bool
  | [] => none
  | t :: ts =>
    let isNext (keyword : String) (ts : List Token) : Bool := ts.head?.any (·.isKeyword keyword)
    if t.isKeyword "ISNULL" then some false
    else if t.isKeyword "NOTNULL" then some true
    else if t.isKeyword "IS" then
      if isNext "NULL" ts then some false
      else if isNext "NOT" ts && isNext "NULL" ts.tail then some true
      else none
    else if t.isKeyword "NOT" && isNext "NULL" ts then some true
    else none

/-- The column that ends directly before a place; the tokens before it are given last first. A
qualified reference is preferred to its last part. -/
def columnBefore? : List Token → Option ColumnRef
  | c :: m :: q :: _ => (ColumnRef.ofTokens? [q, m, c]).or (ColumnRef.ofTokens? [c])
  | c :: _ => ColumnRef.ofTokens? [c]
  | [] => none

/-- The tests in some tokens, where `before` holds the tokens already passed, last first, and
`found` the tests found in them. A test that is repeated counts once. -/
def nullTestsFrom (before : List Token) (found : List NullTest) : List Token → List NullTest
  | [] => found
  | t :: ts =>
    let found := match nullTestAt? (t :: ts), columnBefore? before with
      | some negated, some column =>
        if found.contains ⟨column, negated⟩ then found else found ++ [⟨column, negated⟩]
      | _, _ => found
    nullTestsFrom (t :: before) found ts

/-- The tests for NULL in some tokens, in order. -/
def nullTests (ts : List Token) : List NullTest := nullTestsFrom [] [] ts

end IndexAdvisor.Sql
