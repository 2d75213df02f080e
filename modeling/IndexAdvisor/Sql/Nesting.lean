import IndexAdvisor.Sql.Token

/-!
# Parentheses, commas and clauses

Tokens are cut at commas and keywords that stand outside all parentheses. Depth is counted from the
start of the tokens given; a closing parenthesis too many leaves it at zero.

Models `matching_paren`, `depths` and `split_top_level`.
-/

namespace IndexAdvisor.Sql

/-- The tokens before the parenthesis that closes the `d`-th open one, and the tokens after it. -/
def splitClose : (d : Nat) → List Token → Option (List Token × List Token)
  | _, [] => none
  | 0, .closeParen :: ts => some ([], ts)
  | d, t :: ts => (splitClose (t.depthAfter d) ts).map fun r => (t :: r.1, r.2)

/-- Tokens cut at the first parenthesis that closes more than was opened: what stands inside an open
parenthesis, and what stands behind it. -/
def enclosed? (ts : List Token) : Option (List Token × List Token) := splitClose 0 ts

/-- The tokens before the first one outside all parentheses that satisfies `stop`. -/
def takeOutside (stop : Token → Bool) : (d : Nat) → List Token → List Token
  | _, [] => []
  | d, t :: ts => if d = 0 && stop t then [] else t :: takeOutside stop (t.depthAfter d) ts

/-- The tokens after the first one outside all parentheses that satisfies `start`. -/
def afterOutside? (start : Token → Bool) : (d : Nat) → List Token → Option (List Token)
  | _, [] => none
  | d, t :: ts => if d = 0 && start t then some ts else afterOutside? start (t.depthAfter d) ts

/-- The parts between the commas outside all parentheses; `part` holds what the current part has so
far, last first. No part follows a comma at the end. -/
def splitCommasFrom (part : List Token) : (d : Nat) → List Token → List (List Token)
  | _, [] => if part.isEmpty then [] else [part.reverse]
  | 0, .comma :: ts => part.reverse :: splitCommasFrom [] 0 ts
  | d, t :: ts => splitCommasFrom (t :: part) (t.depthAfter d) ts

/-- The parts of a list between the commas outside all parentheses. -/
def splitCommas (ts : List Token) : List (List Token) := splitCommasFrom [] 0 ts

theorem splitClose_length_lt {d : Nat} {ts inside after : List Token}
    (h : splitClose d ts = some (inside, after)) :
    inside.length < ts.length ∧ after.length < ts.length := by
  fun_induction splitClose d ts generalizing inside after with
  | case1 => simp at h
  | case2 ts => cases h; simp
  | case3 d t ts _ ih =>
    obtain ⟨r, hr, e⟩ := Option.map_eq_some_iff.1 h
    cases e
    have := ih hr
    simp only [List.length_cons]
    omega

end IndexAdvisor.Sql
