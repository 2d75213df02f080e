import IndexAdvisor.Sql.SelectList
import IndexAdvisor.Text.Numeral

/-!
# The terms of ORDER BY

The terms of the last `ORDER BY` outside all parentheses, each resolved to the column it sorts by. A
term that is a number means the select item at that place, and a name that is an alias means the
item with that alias. A term that is no column is an expression: it has no column but keeps its
place.

Models `order_by_columns`, `strip_sort_modifiers` and `resolve_order_term`.
-/

namespace IndexAdvisor.Sql

/-- A term of an `ORDER BY`: the column it sorts by, or `none` for an expression. -/
abbrev SortTerm := Option ColumnRef

/-- The tokens after the last `ORDER BY` outside all parentheses. -/
def afterOrderBy? : (d : Nat) → List Token → Option (List Token)
  | _, [] => none
  | d, t :: ts =>
    (afterOrderBy? (t.depthAfter d) ts).or
      (if d = 0 && t.isKeyword "ORDER" && ts.head?.any (·.isKeyword "BY") then some ts.tail
        else none)

/-- Whether a token outside all parentheses ends the list of terms. -/
def endsTerms (t : Token) : Bool := t.isKeyword "LIMIT" || t == .semicolon || t == .closeParen

/-- The tokens of a term, last first, without the words about direction, nulls and collation that
follow its expression. -/
def dropModifiers : List Token → List Token
  | [] => []
  | [t] => if t.isKeyword "ASC" || t.isKeyword "DESC" then [] else [t]
  | t :: u :: ts =>
    if u.isKeyword "NULLS" && (t.isKeyword "FIRST" || t.isKeyword "LAST") then dropModifiers ts
    else if t.isKeyword "ASC" || t.isKeyword "DESC" then dropModifiers (u :: ts)
    else if u.isKeyword "COLLATE" then dropModifiers ts
    else t :: u :: ts

/-- The column of the select item at a place, counted from one. -/
def itemColumn? (items : List SelectItem) (place : Nat) : SortTerm :=
  if place = 0 then none else items[place - 1]?.bind SelectItem.column

/-- The column that a term sorts by. -/
def resolveTerm (items : List SelectItem) (term : List Token) : SortTerm :=
  match term with
  | [.number text _] => (parseNat? maxWord64 text).bind (itemColumn? items)
  | _ =>
    match ColumnRef.ofTokens? term with
    | none => none
    | some ref =>
      if ref.qualifier.isSome then some ref
      else
        match items.find? fun item => item.aliasName.any (sameName · ref.column) with
        | some item => item.column
        | none => some ref

/-- The terms of the outermost `ORDER BY`, in order. -/
def sortTerms (ts : List Token) : List SortTerm :=
  match afterOrderBy? 0 ts with
  | none => []
  | some rest =>
    (splitCommas (takeOutside endsTerms 0 rest)).map fun term =>
      resolveTerm (selectItems ts) (dropModifiers term.reverse).reverse

end IndexAdvisor.Sql
