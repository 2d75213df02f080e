import IndexAdvisor.Analysis
import IndexAdvisor.Proofs.Sql.Subselect
import Mathlib.Data.List.Basic

/-!
# What the engine is asked about

The analysis goes into sub-selects, and each of them is rendered and read as a statement of its own.
That it ends is due to the tokens: a sub-select has fewer than what encloses it
(`length_tokens_lt`), so the depth that `readAll` starts from is never used up, and `readAll` is the
one function that goes on with itself (`readAll_eq`, `eq_readAll`).

> `AsksEachOnce`: the engine is asked about the statement and then, once for each parenthesis that
> opens before `SELECT` and in their order, about what it encloses, unless something around it has
> no answer.
-/

namespace IndexAdvisor.Analysis

/-! ## The recursion ends -/

/-- One level of the analysis: a program is read, and what `recurse` tells of the sub-selects that
have an answer is merged in. -/
def readStep (schema : Schema) (explain : Explain)
    (recurse : String → List Instr → Ledger × List String) (sql : String) (instrs : List Instr) :
    Ledger × List String :=
  let parts :=
    (Sql.subselects sql).map fun part => (part, (explain part).toOption.map (recurse part))
  (parts.foldl (fun l part => (part.2.map Prod.fst).elim l l.merge) (read schema sql instrs),
    parts.flatMap fun part => part.1 :: (part.2.map Prod.snd).getD [])

variable {schema : Schema} {explain : Explain}

theorem readWithin_succ (depth : Nat) (sql : String) (instrs : List Instr) :
    readWithin schema explain (depth + 1) sql instrs =
      readStep schema explain (readWithin schema explain depth) sql instrs := rfl

theorem readStep_congr {f g : String → List Instr → Ledger × List String} {sql : String}
    (h : ∀ part ∈ Sql.subselects sql, f part = g part) (instrs : List Instr) :
    readStep schema explain f sql instrs = readStep schema explain g sql instrs := by
  have hparts :
      (Sql.subselects sql).map (fun part => (part, (explain part).toOption.map (f part))) =
        (Sql.subselects sql).map (fun part => (part, (explain part).toOption.map (g part))) := by
    apply List.map_congr_left
    intro part hpart
    rw [h part hpart]
  unfold readStep
  rw [hparts]

/-- A sub-select has fewer tokens than what encloses it. -/
theorem length_tokens_lt {sql part : String} (h : part ∈ Sql.subselects sql) :
    (Sql.tokens part).length < (Sql.tokens sql).length := by
  obtain ⟨body, hbody, rfl⟩ := List.mem_map.1 h
  rw [Sql.tokens_render_of_mem hbody]
  exact (Sql.mem_subselectsFrom hbody).2.2

/-- What holds of a statement when it holds of its sub-selects holds of every statement. -/
theorem subselect_induction {P : String → Prop}
    (h : ∀ sql, (∀ part ∈ Sql.subselects sql, P part) → P sql) (sql : String) : P sql := by
  suffices hlength : ∀ n sql, (Sql.tokens sql).length < n → P sql from
    hlength _ sql (Nat.lt_succ_self _)
  intro n
  induction n with
  | zero => exact fun sql hn => absurd hn (Nat.not_lt_zero _)
  | succ n ih =>
    intro sql hn
    apply h
    intro part hpart
    have hlt := length_tokens_lt hpart
    exact ih part (by omega)

theorem readWithin_of_none {sql : String} (h : Sql.subselects sql = []) (depth : Nat)
    (instrs : List Instr) :
    readWithin schema explain depth sql instrs = (read schema sql instrs, []) := by
  cases depth with
  | zero => rfl
  | succ depth =>
    rw [readWithin_succ, readStep, h]
    rfl

/-- From the number of tokens on, the depth makes no difference. -/
theorem readWithin_stable (sql : String) {m n : Nat} (hm : (Sql.tokens sql).length ≤ m)
    (hn : (Sql.tokens sql).length ≤ n) :
    readWithin schema explain m sql = readWithin schema explain n sql := by
  induction sql using subselect_induction generalizing m n with
  | h sql ih =>
    funext instrs
    by_cases hnone : Sql.subselects sql = []
    · rw [readWithin_of_none hnone, readWithin_of_none hnone]
    · -- there is a part, so there are tokens and at least one level
      obtain ⟨part, hpart⟩ := List.exists_mem_of_ne_nil _ hnone
      have hpos := length_tokens_lt hpart
      obtain ⟨m, rfl⟩ := Nat.exists_eq_succ_of_ne_zero (show m ≠ 0 by omega)
      obtain ⟨n, rfl⟩ := Nat.exists_eq_succ_of_ne_zero (show n ≠ 0 by omega)
      rw [readWithin_succ, readWithin_succ]
      apply readStep_congr
      intro part hpart
      have hlt := length_tokens_lt hpart
      exact ih part hpart (by omega) (by omega)

/-- Reading at every depth goes on with itself in the sub-selects. -/
theorem readAll_eq (sql : String) (instrs : List Instr) :
    readAll schema explain sql instrs =
      readStep schema explain (readAll schema explain) sql instrs := by
  rw [readAll, readWithin_stable sql (Nat.le_refl _) (Nat.le_succ _), readWithin_succ]
  apply readStep_congr
  intro part hpart
  exact readWithin_stable part (Nat.le_of_lt (length_tokens_lt hpart)) (Nat.le_refl _)

/-- Nothing else goes on with itself in the sub-selects. -/
theorem eq_readAll {f : String → List Instr → Ledger × List String}
    (hf : ∀ sql instrs, f sql instrs = readStep schema explain f sql instrs) :
    f = readAll schema explain := by
  funext sql
  induction sql using subselect_induction with
  | h sql ih =>
    funext instrs
    rw [hf, readAll_eq]
    exact readStep_congr ih instrs

/-! ## The statements that are asked about -/

/-- Whether the engine has an answer for some tokens. -/
def answered (explain : Explain) (body : List Sql.Token) : Bool := (explain (Sql.render body)).isOk

theorem readAll_asked (sql : String) (instrs : List Instr) :
    (readAll schema explain sql instrs).2 = (Sql.subselects sql).flatMap fun part =>
      part :: ((explain part).toOption.map fun answer =>
        (readAll schema explain part answer).2).getD [] := by
  rw [readAll_eq, readStep]
  simp only [List.flatMap_map, Option.map_map]
  rfl

theorem length_asked_le (sql : String) (instrs : List Instr) :
    (readAll schema explain sql instrs).2.length ≤ (Sql.selectPlaces (Sql.tokens sql)).length := by
  induction sql using subselect_induction generalizing instrs with
  | h sql ih =>
    rw [readAll_asked, Sql.subselects, List.flatMap_map]
    apply Sql.length_flatMap_subselectsFrom_le
    intro body hbody
    cases explain (Sql.render body) with
    | error causes => exact Nat.zero_le _
    | ok answer =>
      have hbound := ih (Sql.render body) (List.mem_map_of_mem hbody) answer
      rw [Sql.tokens_render_of_mem hbody] at hbound
      exact hbound

theorem asked_eq {sql : String} (hbalanced : Sql.Balanced (Sql.tokens sql))
    (hhead : (Sql.tokens sql).head? ≠ some .openParen) (instrs : List Instr) :
    (readAll schema explain sql instrs).2 =
      (Sql.reachedInsides (answered explain) (Sql.tokens sql)).map Sql.render := by
  induction sql using subselect_induction generalizing instrs with
  | h sql ih =>
    rw [readAll_asked, Sql.subselects, List.flatMap_map, Sql.subselectsFrom_of_head true hhead,
      ← Sql.flatMap_reachedInsides hbalanced, List.map_flatMap]
    apply List.flatMap_congr
    intro body hbody
    have hpart : Sql.render body ∈ Sql.subselects sql := by
      rw [Sql.subselects, Sql.subselectsFrom_of_head true hhead]
      exact List.mem_map_of_mem hbody
    have htokens := Sql.tokens_render_of_mem hbody
    -- the part begins with `SELECT`, so it is no statement in parentheses
    have hselect : body.head? ≠ some .openParen := by
      have hselect := (Sql.mem_subselectsFrom hbody).1
      intro hopen
      rw [Sql.isSelect, hopen] at hselect
      cases hselect
    have hinner := ih _ hpart
    rw [htokens] at hinner
    cases hanswer : explain (Sql.render body) with
    | error causes => simp [answered, hanswer, Except.toOption, Except.isOk, Except.toBool]
    | ok answer =>
      have hreached := hinner (Sql.balanced_of_mem_subselectsFrom hbalanced hbody) hselect answer
      simp [answered, hanswer, Except.toOption, Except.isOk, Except.toBool, hreached]

/-- What the engine is asked about, if `asked` is that: the statement first, and if that has an
answer, what stands in each parenthesis that opens before `SELECT`, in the order of the openings,
unless a sub-select around it has no answer. -/
def AskedInOrder (explain : Explain) (sql : String) (asked : List String) : Prop :=
  (∀ k ∈ Sql.selectPlaces (Sql.tokens sql), ∃ rest,
    (Sql.tokens sql).drop k = .openParen :: (Sql.inside (Sql.tokens sql) k ++ .closeParen :: rest) ∧
      Sql.Balanced (Sql.inside (Sql.tokens sql) k)) ∧
  asked = sql :: if (explain sql).isOk then
    (Sql.reachedInsides (answered explain) (Sql.tokens sql)).map Sql.render else []

theorem ofStatement_asked (sql : String) :
    (ofStatement schema explain true sql).2 =
      sql :: ((explain sql).toOption.map fun instrs =>
        (readAll schema explain sql instrs).2).getD [] := by
  unfold ofStatement
  cases explain sql <;> rfl

/-- Only a statement without an answer has no analysis. -/
theorem ofStatement_eq_error_iff (sql : String) {e : AnalysisError} :
    (ofStatement schema explain true sql).1 = .error e ↔
      ∃ causes, explain sql = .error causes ∧ e = .unexplained sql causes := by
  unfold ofStatement
  cases explain sql with
  | error causes =>
    constructor
    · intro h
      cases h
      exact ⟨causes, rfl, rfl⟩
    · rintro ⟨_, h, rfl⟩
      cases h
      rfl
  | ok instrs =>
    constructor
    · intro h
      cases h
    · rintro ⟨_, h, -⟩
      cases h

theorem ofStatement_askedInOrder {sql : String} (hbalanced : Sql.Balanced (Sql.tokens sql))
    (hhead : (Sql.tokens sql).head? ≠ some .openParen) :
    AskedInOrder explain sql (ofStatement schema explain true sql).2 := by
  refine ⟨fun k hk => ?_, ?_⟩
  · obtain ⟨tail, hdrop⟩ := Sql.drop_of_mem_selectPlaces hk
    exact hbalanced.drop_eq hdrop
  · rw [ofStatement_asked]
    cases explain sql with
    | error causes => rfl
    | ok instrs =>
      show _ :: (readAll schema explain sql instrs).2 = _
      rw [asked_eq hbalanced hhead]
      rfl

/-- Sub-selects are gone into until there are none, each is asked about once, and only a statement
without an answer has no analysis. -/
theorem subselects_asked_once (schema : Schema) (explain : Explain) (sql : String) :
    (∀ part ∈ Sql.subselects sql, (Sql.tokens part).length < (Sql.tokens sql).length) ∧
      (∀ f, (∀ sql instrs, f sql instrs = readStep schema explain f sql instrs) ↔
        f = readAll schema explain) ∧
      (ofStatement schema explain true sql).2.length ≤
        1 + (Sql.selectPlaces (Sql.tokens sql)).length ∧
      (∀ e, (ofStatement schema explain true sql).1 = .error e ↔
        ∃ causes, explain sql = .error causes ∧ e = .unexplained sql causes) ∧
      (Sql.Balanced (Sql.tokens sql) → (Sql.tokens sql).head? ≠ some .openParen →
        AskedInOrder explain sql (ofStatement schema explain true sql).2) := by
  refine ⟨fun _ => length_tokens_lt, fun f => ⟨eq_readAll, ?_⟩, ?_,
    fun e => ofStatement_eq_error_iff sql, ofStatement_askedInOrder⟩
  · rintro rfl
    exact readAll_eq
  · rw [ofStatement_asked, List.length_cons, Nat.add_comm]
    apply Nat.add_le_add_left
    cases explain sql with
    | error causes => exact Nat.zero_le _
    | ok instrs => exact length_asked_le sql instrs

/-- The case of a sub-select without an answer: what stands in it is not asked about, what follows
it is. -/
theorem subselect_unanswered_asked :
    let sql := "SELECT a FROM t WHERE b IN (SELECT c FROM u WHERE d = (SELECT 1)) OR e = (SELECT 2)"
    let unanswered := "SELECT c FROM u WHERE d = ( SELECT 1 )"
    let explain : Explain := fun s => if s = unanswered then .error [] else .ok []
    let asked := (ofStatement {} explain true sql).2
    Sql.Balanced (Sql.tokens sql) ∧ (Sql.tokens sql).head? ≠ some .openParen ∧
      AskedInOrder explain sql asked ∧ asked = [sql, unanswered, "SELECT 2"] := by
  intro sql unanswered explain asked
  open Sql.Token in
  have htokens : Sql.tokens sql =
      [word none "SELECT", word none "a", word none "FROM", word none "t", word none "WHERE",
        word none "b", word none "IN"] ++
      openParen :: (([word none "SELECT", word none "c", word none "FROM", word none "u",
        word none "WHERE",
          word none "d", symbol "="] ++
          openParen :: ([word none "SELECT", number "1" false] ++ closeParen :: [])) ++
        closeParen :: ([word none "OR", word none "e", symbol "="] ++
          openParen :: ([word none "SELECT", number "2" false] ++ closeParen :: []))) := by
    decide +kernel
  have hbalanced : Sql.Balanced (Sql.tokens sql) := by
    rw [htokens]
    apply Sql.Balanced.append
    · apply Sql.Balanced.of_plain
      simp
    apply Sql.Balanced.parens
    · apply Sql.Balanced.append
      · apply Sql.Balanced.of_plain
        simp
      · exact .parens (.of_plain (by simp)) .nil
    · apply Sql.Balanced.append
      · apply Sql.Balanced.of_plain
        simp
      · exact .parens (.of_plain (by simp)) .nil
  have hhead : (Sql.tokens sql).head? ≠ some .openParen := by
    rw [htokens]
    decide
  exact ⟨hbalanced, hhead, (subselects_asked_once {} explain sql).2.2.2.2 hbalanced hhead,
    by decide +kernel⟩

end IndexAdvisor.Analysis
