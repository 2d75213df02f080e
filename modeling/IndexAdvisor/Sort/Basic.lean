import IndexAdvisor.Sort.Idiom
import IndexAdvisor.Sort.Walk

/-!
# Columns a statement is sorted by

Sort steps are read first; what comes in stored order is added from the `ORDER BY` of the text. A
statement whose text can be read and has no `ORDER BY` is sorted by nothing.

Models `extract_order`.
-/

namespace IndexAdvisor.Sort

/-- Records all columns that the statement is sorted by. -/
def record (s : Scene) (l : Ledger) : Ledger :=
  let terms := Sql.sortTerms s.tokens
  if terms.isEmpty && !s.tokens.isEmpty then l
  else
    let (l, sorted) := recordSteps s l terms
    recordWalks s l terms (!sorted)

end IndexAdvisor.Sort
