import IndexAdvisor.Sql.Nesting
import IndexAdvisor.Sql.Reference

/-!
# The tables of a statement

Tables are named after `FROM` and `JOIN`, at any depth of parentheses. After such a word comes a
list of sources separated by commas: a name, possibly qualified, or a parenthesis that may itself
hold such words. Each source may have an alias, with or without `AS`. The alias of a parenthesis
names no table.

Models `table_refs`, `read_table_ref`, `read_alias` and `skip_alias`.
-/

namespace IndexAdvisor.Sql

/-- The rest of a qualified name, of which `name` has been read: the last part counts, and a period
that no name follows is left. -/
def qualifiedName (name : String) : List Token → String × List Token
  | .period :: t :: ts =>
    match t.name? with
    | some part => qualifiedName part ts
    | none => (name, .period :: t :: ts)
  | ts => (name, ts)

/-- The name of a table at the front of some tokens. -/
def tableName? : List Token → Option (String × List Token)
  | [] => none
  | t :: ts => t.name?.map fun name => qualifiedName name ts

/-- Tokens without the word `AS` at their front. -/
def dropAs : List Token → List Token
  | [] => []
  | t :: ts => if t.isKeyword "AS" then ts else t :: ts

/-- The alias at the front of some tokens. The word `AS` is taken even if no alias follows it. -/
def readAlias (ts : List Token) : Option String × List Token :=
  match dropAs ts with
  | [] => (none, [])
  | t :: rest => if t.name?.isSome then (t.name?, rest) else (none, t :: rest)

theorem qualifiedName_length_le (name : String) (ts : List Token) :
    (qualifiedName name ts).2.length ≤ ts.length := by
  fun_induction qualifiedName name ts with
  | case1 name t ts part _ ih => simp only [List.length_cons]; omega
  | case2 => simp
  | case3 => simp

theorem tableName?_length_lt {ts rest : List Token} {name : String}
    (h : tableName? ts = some (name, rest)) : rest.length < ts.length := by
  unfold tableName? at h
  split at h
  · simp at h
  · next t ts =>
    obtain ⟨n, _, e⟩ := Option.map_eq_some_iff.1 h
    have := qualifiedName_length_le n ts
    rw [e] at this
    exact Nat.lt_succ_of_le this

theorem dropAs_length_le (ts : List Token) : (dropAs ts).length ≤ ts.length := by
  unfold dropAs
  split
  · exact Nat.le_refl _
  · split <;> simp

theorem readAlias_length_le (ts : List Token) : (readAlias ts).2.length ≤ ts.length := by
  have h := dropAs_length_le ts
  unfold readAlias
  split
  · exact Nat.zero_le _
  · next t rest e =>
    rw [e] at h
    split
    · exact Nat.le_of_succ_le h
    · exact h

mutual

/-- The tables named after every `FROM` and `JOIN` of some tokens, in order. -/
def tableRefs : List Token → List TableRef
  | [] => []
  | t :: ts => if t.isKeyword "FROM" || t.isKeyword "JOIN" then sourceRefs ts else tableRefs ts
termination_by ts => 3 * ts.length

/-- The tables of a list of sources, and of all that comes after the list. Sources end for good at a
parenthesis that is not closed. -/
def sourceRefs : List Token → List TableRef
  | .openParen :: inner =>
    match _h : enclosed? inner with
    | none => []
    | some (inside, after) => tableRefs inside ++ moreSources (readAlias after).2
  | ts =>
    match _h : tableName? ts with
    | none => moreSources ts
    | some (name, rest) => ⟨name, (readAlias rest).1⟩ :: moreSources (readAlias rest).2
termination_by ts => 3 * ts.length + 2
decreasing_by
  · have := splitClose_length_lt _h
    simp only [List.length_cons]; omega
  · have := splitClose_length_lt _h
    have := readAlias_length_le after
    simp only [List.length_cons]; omega
  · omega
  · have := tableName?_length_lt _h
    have := readAlias_length_le rest
    omega

/-- The tables of the sources after a comma, or of what follows the list of sources. -/
def moreSources : List Token → List TableRef
  | .comma :: ts => sourceRefs ts
  | ts => tableRefs ts
termination_by ts => 3 * ts.length + 1

end

end IndexAdvisor.Sql
