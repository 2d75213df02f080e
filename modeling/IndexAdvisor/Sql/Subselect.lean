import IndexAdvisor.Sql.Lexer
import IndexAdvisor.Sql.Nesting

/-!
# Sub-selects

The parentheses of a statement that begin with `SELECT`, outermost ones only: those inside another
one are found when that one is looked at by itself. A parenthesis around the whole statement is no
sub-select. A parenthesis that is not closed ends the search.

Models `subselect_spans` and `trailing_is_end`.
-/

namespace IndexAdvisor.Sql

/-- The sub-selects of some tokens, each as the tokens inside its parentheses. `whole` says that the
tokens are a whole statement, not the rest of one. -/
def subselectsFrom (whole : Bool) : List Token → List (List Token)
  | [] => []
  | .openParen :: inner =>
    match _h : enclosed? inner with
    | none => []
    | some (inside, after) =>
      if inside.head?.any (·.isKeyword "SELECT") && !(whole && after.all (· == .semicolon)) then
        inside :: subselectsFrom false after
      else subselectsFrom false inner
  | _ :: rest => subselectsFrom false rest
termination_by ts => ts.length
decreasing_by
  · have := splitClose_length_lt _h
    simp only [List.length_cons]; omega
  · simp
  · simp

/-- The texts of the sub-selects of a statement, in order. -/
def subselects (sql : String) : List String := (subselectsFrom true (tokens sql)).map render

end IndexAdvisor.Sql
