import IndexAdvisor.Sql.Nesting
import IndexAdvisor.Sql.Reference

/-!
# The select list

The items of the outermost `SELECT` of a statement, up to its `FROM`. What matters of an item is the
column it reads, if it reads just one, and its alias: a name after `AS`, or a name directly after a
column.

Models `SelectItem` and `select_items`.
-/

namespace IndexAdvisor.Sql

/-- One item of a select list. -/
structure SelectItem where
  /-- The column, when the item is nothing but a reference to one. -/
  column : Option ColumnRef := none
  aliasName : Option String := none
  deriving DecidableEq, Repr

/-- Reads one item. -/
def SelectItem.ofTokens (ts : List Token) : SelectItem :=
  match ts.reverse with
  | last :: word :: front =>
    if word.isKeyword "AS" then
      { column := ColumnRef.ofTokens? front.reverse, aliasName := last.name? }
    else
      match ColumnRef.ofTokens? (word :: front).reverse, last.name? with
      | some column, some aliasName => { column := some column, aliasName := some aliasName }
      | _, _ => { column := ColumnRef.ofTokens? ts }
  | _ => { column := ColumnRef.ofTokens? ts }

/-- Tokens without a `DISTINCT` or an `ALL` at their front. -/
def dropQuantifier : List Token → List Token
  | t :: ts => if t.isKeyword "DISTINCT" || t.isKeyword "ALL" then ts else t :: ts
  | [] => []

/-- The items of the outermost select list; none where no `SELECT` stands outside parentheses. -/
def selectItems (ts : List Token) : List SelectItem :=
  match afterOutside? (·.isKeyword "SELECT") 0 ts with
  | none => []
  | some rest =>
    (splitCommas (takeOutside (·.isKeyword "FROM") 0 (dropQuantifier rest))).map SelectItem.ofTokens

end IndexAdvisor.Sql
