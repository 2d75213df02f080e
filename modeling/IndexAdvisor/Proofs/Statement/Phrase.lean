import IndexAdvisor.Proofs.Statement.Reach
import IndexAdvisor.Statement.Grammar.Basic

/-!
# The phrases of a query

The grammar of queries, phrase by phrase: none has a semicolon in it. Most phrases are put together
from others, and then there is nothing to say but that; something is to be shown where a phrase
looks ahead and skips what it has seen (`call`, `window`, `aliasName`), where it takes pieces off by
itself (`starOr`), and where a loop goes on with what follows a piece (`expr`, `joined`,
`queryBody`).

> `avoids_level`: however deep phrases may be nested, no query runs over a semicolon.

Phrases below belong to the next level, of which the same is known (`Level.Avoids`); a query is a
phrase of the level above it, so the levels are gone through from the last one up.
-/

namespace IndexAdvisor.Statement

open Recognizer

/-! ## Names, types and values -/

instance avoids_name : Avoids name := avoids_one rfl

instance avoids_path : Avoids path := by
  have := avoids_loop_after (p := name) (.mark ".") (by decide)
  unfold path
  infer_instance

instance avoids_names : Avoids names := by
  unfold names
  infer_instance

instance avoids_typeArguments : Avoids typeArguments := by
  have : Avoids (loop typeArguments.argument) := by
    apply avoids_loop
    intro t ts p h
    unfold typeArguments.argument at h
    split at h <;> cases h
    all_goals exact ⟨nofun, avoids_nothing⟩
  exact avoids_choose_skip fun _ => not_mem_take_of_nextMark rfl

instance avoids_typeName : Avoids typeName := by
  unfold typeName typeName.longer typeName.zoned
  infer_instance

instance avoids_placeholder : Avoids placeholder := by
  have hmark : Avoids (one fun t => t == .mark ":" || t == .mark "@") := avoids_one (by decide)
  have hname : Avoids (one fun t => match t with
    | .word _ | .quoted _ | .number => true
    | _ => false) := avoids_one rfl
  exact @avoids_seq _ _ hmark hname

instance avoids_value : Avoids value := by
  have : Avoids (one fun t => match t with
      | .number | .string | .literal | .placeholder | .quoted true => true
      | .word w => ["TRUE", "FALSE", "NULL"].contains w
      | _ => false) := avoids_one rfl
  unfold value
  infer_instance

/-! ## Expressions -/

/-- A level none of whose phrases has a semicolon in it, apart from whole statements. -/
class Level.Avoids (g : Level) : Prop where
  query : g.query.Avoids
  tables : g.tables.Avoids
  expr : ∀ least, (g.expr least).Avoids

variable {g : Level} [hg : g.Avoids]

instance avoids_level_query : Avoids g.query := hg.query

instance avoids_level_tables : Avoids g.tables := hg.tables

instance avoids_level_expr (least : Nat) : Avoids (g.expr least) := hg.expr least

instance avoids_exprs : Avoids (exprs g) := by
  unfold exprs
  infer_instance

instance avoids_orInstead {p q : Recognizer} [hp : Avoids p] [hq : Avoids q] :
    Avoids (orInstead p q) where
  reaches {ts rest} h := by
    simp only [orInstead] at h
    split at h
    · next hrun =>
      cases h
      exact hp.reaches hrun
    · split at h
      · next hrun =>
        cases h
        exact hq.reaches hrun
      · cases h

theorem afterStar?_reaches {ts rest : List Piece} (h : afterStar? ts = .ok (some rest)) :
    Reaches ts rest := by
  fun_induction afterStar? ts with
  | case1 rest' =>
    cases h
    exact ((Reaches.refl _).cons (by decide)).cons (by decide)
  | case2 t rest' _ hname ih =>
    have ht : t ≠ .mark ";" := by
      rintro rfl
      cases hname
    exact ((ih h).cons ht).cons (by decide)
  | case3 | case4 | case5 => cases h

theorem star?_reaches {ts rest : List Piece} (h : star? ts = .ok (some rest)) :
    Reaches ts rest := by
  unfold star? at h
  split at h
  · cases h
    exact (Reaches.refl _).cons (by decide)
  · exact (afterStar?_reaches h).cons nofun
  · exact (afterStar?_reaches h).cons nofun
  · exact (afterStar?_reaches h).cons nofun
  · cases h

instance avoids_starOr {q : Recognizer} [hq : Avoids q] : Avoids (starOr q) where
  reaches {ts rest} h := by
    simp only [starOr] at h
    split at h
    · next hstar =>
      cases h
      exact star?_reaches hstar
    · exact hq.reaches h
    · cases h

instance avoids_orderTerm : Avoids (orderTerm g) := by
  unfold orderTerm
  infer_instance

instance avoids_ordering : Avoids (ordering g) := by
  unfold ordering
  infer_instance

instance avoids_frameBound : Avoids (frameBound g) := by
  unfold frameBound
  infer_instance

instance avoids_window : Avoids (window g) := by
  have : Avoids window.base := by
    refine avoids_choose_skip fun ts h => ?_
    unfold window.nextBase at h
    split at h
    · simp
    · simp
    · cases h
  unfold window window.frame
  infer_instance

instance avoids_call : Avoids (call g) := by
  have hargument : Avoids (call.argument g) := by
    refine avoids_choose_skip fun ts h => ?_
    unfold call.named at h
    split at h
    · next t _ =>
      have ht : t ≠ .mark ";" := by
        rintro rfl
        cases h
      simp [Ne.symm ht]
    · cases h
  have hfilter : Avoids (givenMark "(" (given ["WHERE"] (g.expr 0 >> mark ")"))) :=
    avoids_givenMark rfl
  unfold call call.arguments
  infer_instance

instance avoids_afterName : Avoids (afterName g) := by
  unfold afterName
  infer_instance

instance avoids_caseExpr : Avoids (caseExpr g) := by
  have : Avoids (caseExpr.branch g) := by
    unfold caseExpr.branch
    infer_instance
  have := avoids_loop_after (p := caseExpr.branch g) (.word "WHEN") nofun
  unfold caseExpr
  infer_instance

instance avoids_substring : Avoids (substring g) := by
  have : Avoids (givenMark "," (g.expr 0)) := avoids_givenMark rfl
  unfold substring substring.part
  infer_instance

instance avoids_wordExpr : Avoids (wordExpr g) := by
  unfold wordExpr wordExpr.mayName wordExpr.cast
  infer_instance

instance avoids_operand : Avoids (operand g) := by
  have hsign : Avoids (choose (fun ts => nextMark "+" ts || nextMark "-" ts)
      (skip 1 (g.expr 40)) value) := by
    refine avoids_choose_skip fun ts h => ?_
    rcases Bool.or_eq_true_iff.1 h with h | h
    · exact not_mem_take_of_nextMark rfl h
    · exact not_mem_take_of_nextMark rfl h
  unfold operand
  infer_instance

instance avoids_membership : Avoids (membership g) := by
  unfold membership
  infer_instance

instance avoids_range : Avoids (range g) := by
  unfold range
  infer_instance

theorem avoids_string : Avoids (one (· == .string)) := avoids_one rfl

instance avoids_likeness : Avoids (likeness g) := by
  have := avoids_string
  unfold likeness
  infer_instance

instance avoids_similarity : Avoids (similarity g) := by
  have := avoids_string
  unfold similarity
  infer_instance

instance avoids_test : Avoids (test g) := by
  unfold test
  infer_instance

instance avoids_rightSide (p : Nat) : Avoids (rightSide g p) := by
  unfold rightSide
  infer_instance

instance avoids_afterOperator (t : Piece) (p : Nat) : Avoids (afterOperator g t p) := by
  unfold afterOperator
  split <;> infer_instance

instance avoids_expr (least : Nat) : Avoids (expr g least) := by
  have hfield : Avoids (loop (expr.field g)) := by
    apply avoids_loop
    intro t ts p h
    unfold expr.field at h
    split at h
    · next ht =>
      cases h
      have := avoids_string
      rw [Bool.and_eq_true, beq_iff_eq] at ht
      exact ⟨ht.1 ▸ nofun, inferInstance⟩
    · cases h
  have hoperator : Avoids (loop (expr.operator g least)) := by
    apply avoids_loop
    intro t ts p h
    unfold expr.operator at h
    dsimp only at h
    split at h
    · next hpower =>
      cases h
      refine ⟨?_, inferInstance⟩
      -- a semicolon is no operator, so nothing binds less tightly
      rintro rfl
      exact absurd hpower (Nat.not_lt_zero _)
    · cases h
  unfold expr
  infer_instance

/-! ## Queries -/

instance avoids_aliasName {no : List String} {following : Recognizer} [Avoids following] :
    Avoids (aliasName no following) := by
  have : Avoids (choose (aliasName.nextAlias no) (skip 1 following) nothing) := by
    refine avoids_choose_skip fun ts h => ?_
    unfold aliasName.nextAlias at h
    split at h
    · simp
    · simp
    · simp
    · cases h
  unfold aliasName
  infer_instance

instance avoids_columnNames : Avoids columnNames := by
  unfold columnNames
  infer_instance

instance avoids_tableAlias : Avoids tableAlias := by
  unfold tableAlias
  infer_instance

instance avoids_selectItem : Avoids (selectItem g) := by
  unfold selectItem selectItem.item
  infer_instance

instance avoids_selectItems : Avoids (selectItems g) := by
  unfold selectItems
  infer_instance

instance avoids_table : Avoids (table g) := by
  unfold table table.arguments
  infer_instance

instance avoids_joinCondition : Avoids (joinCondition g) := by
  unfold joinCondition
  infer_instance

theorem joinWords?_words {ts : List Piece} {n : Nat} {bare : Bool}
    (h : joinWords? ts = some (n, bare)) :
    ∃ m, n = m + 1 ∧ .mark ";" ∉ ts.take n := by
  unfold joinWords? at h
  split at h
  any_goals split at h
  all_goals cases h
  all_goals exact ⟨_, rfl, by simp⟩

theorem join_reaches {t : Piece} {ts : List Piece} {p : Recognizer}
    (h : joined.join g t ts = some p) :
    t ≠ .mark ";" ∧ ∀ rest, p.run ts = .ok rest → Reaches ts rest := by
  unfold joined.join at h
  split at h
  · next n bare hwords =>
    cases h
    obtain ⟨m, rfl, hnone⟩ := joinWords?_words hwords
    rw [List.take_succ_cons, List.mem_cons, not_or] at hnone
    exact ⟨Ne.symm hnone.1, fun rest hrun => skip_reaches (n := m + 1 - 1) hnone.2 hrun⟩
  · split at h
    · next n hwords _ =>
      cases h
      obtain ⟨-, -, hnone⟩ := joinWords?_words hwords
      exact ⟨nofun, fun rest hrun => skip_reaches hnone hrun⟩
    · split at h
      · cases h
        exact ⟨nofun, fun rest hrun => Avoids.reaches hrun⟩
      · cases h
    · cases h

instance avoids_joins : Avoids (loop (joined.join g)) := avoids_loop_at fun _ _ _ => join_reaches

instance avoids_joined : Avoids (joined g) := by
  unfold joined
  infer_instance

instance avoids_group : Avoids (group g) := by
  unfold group group.more
  infer_instance

instance avoids_tables : Avoids (tables g) := by
  unfold tables
  infer_instance

instance avoids_source : Avoids (source g) := by
  unfold source
  infer_instance

instance avoids_condition : Avoids (condition g) := by
  unfold condition
  infer_instance

instance avoids_windows : Avoids (windows g) := by
  unfold windows
  infer_instance

instance avoids_qualification : Avoids (qualification g) := by
  unfold qualification
  infer_instance

instance avoids_select : Avoids (select g) := by
  have : Avoids (one (· == .number)) := avoids_one rfl
  unfold select select.quantifier select.top select.target
  infer_instance

instance avoids_rows : Avoids (rows g) := by
  unfold rows
  infer_instance

instance avoids_queryPart : Avoids (queryPart g) := by
  have : Avoids (givenMark "." name) := avoids_givenMark rfl
  unfold queryPart
  infer_instance

instance avoids_queryBody : Avoids (queryBody g) := by
  have : Avoids (loop (queryBody.operator g)) := by
    apply avoids_loop
    intro t ts p h
    unfold queryBody.operator at h
    split at h
    · split at h
      · cases h
        exact ⟨nofun, inferInstance⟩
      · cases h
    · cases h
  unfold queryBody
  infer_instance

instance avoids_limits : Avoids (limits g) := by
  have : Avoids (givenMark "," (g.expr 0)) := avoids_givenMark rfl
  unfold limits limits.offset
  infer_instance

instance avoids_locks : Avoids locks := avoids_loop_after (.word "FOR") nofun

instance avoids_namedQuery : Avoids (namedQuery g) := by
  unfold namedQuery
  infer_instance

instance avoids_query {insert update : Recognizer} [Avoids insert] [Avoids update] :
    Avoids (query g insert update) := by
  unfold query
  infer_instance

/-! ## Changes of rows -/

instance avoids_onConflict : Avoids onConflict := by
  unfold onConflict
  infer_instance

instance avoids_assignments : Avoids (assignments g) := by
  have : Avoids (mark "=") := avoids_mark rfl
  unfold assignments
  infer_instance

instance avoids_returning : Avoids (returning g) := by
  unfold returning
  infer_instance

instance avoids_upsert : Avoids (upsert g) := by
  unfold upsert
  infer_instance

instance avoids_insert : Avoids (insert g) := by
  unfold insert
  infer_instance

instance avoids_update : Avoids (update g) := by
  unfold update
  infer_instance

/-! ## Levels -/

instance avoids_levelAbove : (levelAbove g).Avoids where
  query := avoids_delay (p := fun _ => query g (insert g) (update g))
  tables := avoids_delay (p := fun _ => group g)
  expr least := avoids_delay (p := fun _ => expr g least)

omit hg in
/-- However many levels are left, no phrase but a whole statement runs over a semicolon. -/
theorem avoids_level (depth : Nat) : (level depth).Avoids := by
  induction depth with
  | zero => exact ⟨avoids_refuse _, avoids_refuse _, fun _ => avoids_refuse _⟩
  | succ depth ih => exact avoids_levelAbove

end IndexAdvisor.Statement
