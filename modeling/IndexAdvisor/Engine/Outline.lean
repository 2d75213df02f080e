import IndexAdvisor.Sql.Token

/-!
# Outlines

How the engine without tables sees a statement; the advisor itself reads tokens (`Sql/Nesting`).

The outline of a statement takes together what stands in one pair of parentheses, so that clauses
can be looked for at one level without counting. A parenthesis that is not closed ends with the
statement, and one that closes nothing is left out.
-/

namespace IndexAdvisor.Sql

/-- A token, or what stands in a pair of parentheses. -/
inductive Phrase where
  | token (t : Token)
  | group (inside : List Phrase)

namespace Phrase

/-- Whether a phrase is a token that satisfies a test. -/
def isToken (test : Token → Bool) : Phrase → Bool
  | token t => test t
  | group _ => false

/-- Whether a phrase is one of some unquoted words, in any case. -/
def isOneOf (keywords : List String) (p : Phrase) : Bool := p.isToken (·.isOneOf keywords)

end Phrase

namespace Outline

/-- An outline part way through: the groups that are open, the innermost first, each with what it
has so far, last first; and what is read at the innermost level, last first. -/
structure Reading where
  outer : List (List Phrase) := []
  level : List Phrase := []

/-- Closes the innermost group that is open. -/
def Reading.close (r : Reading) : Reading :=
  match r.outer with
  | [] => r
  | level :: outer => ⟨outer, .group r.level.reverse :: level⟩

/-- Takes one token more. -/
def Reading.step (r : Reading) (t : Token) : Reading :=
  match t with
  | .openParen => ⟨r.level :: r.outer, []⟩
  | .closeParen => r.close
  | t => { r with level := .token t :: r.level }

/-- The phrases that have been read, with everything closed. -/
def Reading.phrases (r : Reading) : List Phrase :=
  (r.outer.foldl (fun inside level => .group inside.reverse :: level) r.level).reverse

/-- The outline of some tokens. -/
def ofTokens (ts : List Token) : List Phrase := (ts.foldl Reading.step {}).phrases

end Outline

end IndexAdvisor.Sql
