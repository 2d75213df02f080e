import IndexAdvisor.Proofs.Sql.Case
import IndexAdvisor.Proofs.Sql.Reference
import IndexAdvisor.Sql.Lexer
import Mathlib.Data.List.Nodup

/-!
# Which columns are tested for NULL

The tests that are read from a statement are the places where the operator of a test follows a
reference to a column (`TestedAt`), each test once: `mem_nullTests_iff` and `nullTests_nodup`.

What stands before the reference is not looked at. An operator there that binds tighter than the
test makes the reference a part of the operand, and the test is one of an expression.

> `nullTests_whole_iff`: every test that is read has a reference that is a whole operand exactly if
> each reference that is a part of one is tested elsewhere as a whole.

So a sum of two columns is read as its second summand (`part_tested`).
-/

namespace IndexAdvisor.Sql

variable {ts before passed front : List Token} {test : NullTest} {negated : Bool} {ref : ColumnRef}

/-! ## The operator -/

/-- The ways to write the operator of a test, and whether each is negated. -/
inductive NullOperator : List Token → Bool → Prop where
  | isNull {i n : Token} (hi : i.isKeyword "IS" = true)
    (hn : n.isKeyword "NULL" = true) : NullOperator [i, n] false
  | isNotNull {i no n : Token} (hi : i.isKeyword "IS" = true) (hno : no.isKeyword "NOT" = true)
      (hn : n.isKeyword "NULL" = true) : NullOperator [i, no, n] true
  | notNull {no n : Token} (hno : no.isKeyword "NOT" = true) (hn : n.isKeyword "NULL" = true) :
      NullOperator [no, n] true
  | joinedNull {i : Token} (hi : i.isKeyword "ISNULL" = true) : NullOperator [i] false
  | joinedNotNull {n : Token} (hn : n.isKeyword "NOTNULL" = true) : NullOperator [n] true

theorem NullOperator.nullTestAt? {operator : List Token} (h : NullOperator operator negated)
    (after : List Token) :
    nullTestAt? (operator ++ after) = some negated := by
  cases h with
  | isNull hi hn =>
    have hother := Token.isKeyword_eq hi
    simp [Sql.nullTestAt?, hother, hn, show sameName "IS" "ISNULL" = false from rfl,
      show sameName "IS" "NOTNULL" = false from rfl]
  | isNotNull hi hno hn =>
    have hother := Token.isKeyword_eq hi
    have hnot := Token.isKeyword_eq hno
    simp [Sql.nullTestAt?, hother, hnot, hn, show sameName "IS" "ISNULL" = false from rfl,
      show sameName "IS" "NOTNULL" = false from rfl, show sameName "NOT" "NULL" = false from rfl]
  | notNull hno hn =>
    have hnot := Token.isKeyword_eq hno
    simp [Sql.nullTestAt?, hnot, hn, show sameName "NOT" "ISNULL" = false from rfl,
      show sameName "NOT" "NOTNULL" = false from rfl, show sameName "NOT" "IS" = false from rfl]
  | joinedNull hi => simp [Sql.nullTestAt?, hi]
  | joinedNotNull hn =>
    have hother := Token.isKeyword_eq hn
    simp [Sql.nullTestAt?, hn, hother, show sameName "NOTNULL" "ISNULL" = false from rfl]

/-- The first token of the rest is a keyword. -/
theorem exists_of_head?_any {keyword : String}
    (h : (ts.head?.any fun t => t.isKeyword keyword) = true) :
    ∃ t rest, ts = t :: rest ∧ t.isKeyword keyword = true := by
  cases ts with
  | nil => cases h
  | cons t rest => exact ⟨t, rest, rfl, h⟩

theorem nullTestAt?_eq_some_iff :
    nullTestAt? ts = some negated ↔ ∃ operator after, ts = operator ++ after ∧
      NullOperator operator negated := by
  constructor
  · intro h
    rcases ts with _ | ⟨t, rest⟩
    · cases h
    rw [nullTestAt?] at h
    dsimp only at h
    split at h
    · next hi =>
      cases h
      exact ⟨[t], rest, rfl, .joinedNull hi⟩
    split at h
    · next hn =>
      cases h
      exact ⟨[t], rest, rfl, .joinedNotNull hn⟩
    split at h
    · next hi =>
      split at h
      · next hn =>
        cases h
        obtain ⟨n, after, rfl, hn⟩ := exists_of_head?_any hn
        exact ⟨[t, n], after, rfl, .isNull hi hn⟩
      · split at h
        · next hboth =>
          cases h
          obtain ⟨hno, hn⟩ := (Bool.and_eq_true ..).mp hboth
          obtain ⟨no, rest, rfl, hno⟩ := exists_of_head?_any hno
          obtain ⟨n, after, rfl, hn⟩ := exists_of_head?_any hn
          exact ⟨[t, no, n], after, rfl, .isNotNull hi hno hn⟩
        · cases h
    · split at h
      · next hboth =>
        cases h
        obtain ⟨hno, hn⟩ := (Bool.and_eq_true ..).mp hboth
        obtain ⟨n, after, rfl, hn⟩ := exists_of_head?_any hn
        exact ⟨[t, n], after, rfl, .notNull hno hn⟩
      · cases h
  · rintro ⟨operator, after, rfl, hoperator⟩
    exact hoperator.nullTestAt? after

/-! ## The column before it -/

/-- Some tokens end in a reference to a column, which begins behind `front`; no longer reference
ends there. -/
def EndsIn (passed front : List Token) (ref : ColumnRef) : Prop :=
  ∃ reference, passed = front ++ reference ∧ ColumnRef.ofTokens? reference = some ref ∧
    ∀ longer, longer <:+ passed → (ColumnRef.ofTokens? longer).isSome = true →
      longer.length ≤ reference.length

/-- What is found is the longest reference: of the two that may end at one place, the qualified
one. -/
theorem endsIn_of_columnBefore? (h : columnBefore? passed.reverse = some ref) :
    ∃ front, EndsIn passed front ref := by
  -- the tokens are taken apart from their end
  obtain ⟨ends, rfl⟩ : ∃ ends : List Token, passed = ends.reverse :=
    ⟨passed.reverse, passed.reverse_reverse.symm⟩
  rw [List.reverse_reverse] at h
  rcases ends with _ | ⟨c, _ | ⟨m, _ | ⟨q, rest⟩⟩⟩
  · cases h
  · refine ⟨[], [c], rfl, h, fun longer hsuffix _ => ?_⟩
    exact hsuffix.length_le
  · refine ⟨[m], [c], rfl, h, fun longer hsuffix hsome => ?_⟩
    have hlength : longer.length ≤ 2 := hsuffix.length_le
    rcases ColumnRef.length_of_ofTokens? hsome with hone | hthree
    · exact Nat.le_of_eq hone
    · omega
  · have hpassed : (c :: m :: q :: rest).reverse = rest.reverse ++ [q, m, c] := by simp
    rw [hpassed]
    rcases Option.or_eq_some_iff.1 h with hlong | ⟨hnone, hshort⟩
    · refine ⟨rest.reverse, [q, m, c], rfl, hlong, fun longer _ hsome => ?_⟩
      rcases ColumnRef.length_of_ofTokens? hsome with hone | hthree
      · rw [hone]
        exact Nat.le_add_left 1 2
      · exact Nat.le_of_eq hthree
    · refine ⟨rest.reverse ++ [q, m], [c], by simp, hshort, fun longer hsuffix hsome => ?_⟩
      rcases ColumnRef.length_of_ofTokens? hsome with hone | hthree
      · exact Nat.le_of_eq hone
      · have hsame : longer = [q, m, c] :=
          (List.suffix_of_suffix_length_le hsuffix (List.suffix_append _ _)
            (Nat.le_of_eq hthree)).eq_of_length hthree
        rw [hsame, hnone] at hsome
        cases hsome

theorem EndsIn.columnBefore? (h : EndsIn passed front ref) :
    columnBefore? passed.reverse = some ref := by
  obtain ⟨reference, rfl, href, hlongest⟩ := h
  rcases ColumnRef.ofTokens?_eq_some_iff.1 href with ⟨c, rfl, -, -⟩ | ⟨q, c, rfl, -, -, -⟩
  · obtain ⟨ends, rfl⟩ : ∃ ends : List Token, front = ends.reverse :=
      ⟨front.reverse, front.reverse_reverse.symm⟩
    rcases ends with _ | ⟨m, _ | ⟨q, rest⟩⟩
    · exact href
    · exact href
    · have hnone : ColumnRef.ofTokens? [q, m, c] = none := by
        rw [← Option.not_isSome_iff_eq_none]
        intro hsome
        have hsuffix : [q, m, c] <:+ (m :: q :: rest).reverse ++ [c] := ⟨rest.reverse, by simp⟩
        exact absurd (hlongest _ hsuffix hsome) (by simp)
      rw [List.reverse_append, List.reverse_reverse]
      show (ColumnRef.ofTokens? [q, m, c]).or (ColumnRef.ofTokens? [c]) = some ref
      rw [hnone, href, Option.none_or]
  · rw [List.reverse_append]
    show (ColumnRef.ofTokens? [q, .period, c]).or (ColumnRef.ofTokens? [c]) = some ref
    rw [href, Option.some_or]

theorem columnBefore?_eq_some_iff : columnBefore? passed.reverse = some ref ↔
    ∃ front, EndsIn passed front ref :=
  ⟨endsIn_of_columnBefore?, fun ⟨_, h⟩ => h.columnBefore?⟩

/-! ## The tests of a statement -/

/-- A test stands in some tokens, with its column behind `front`. -/
def TestedAt (ts front : List Token) (test : NullTest) : Prop :=
  ∃ passed operator after, ts = passed ++ operator ++ after ∧ EndsIn passed front test.column ∧
    NullOperator operator test.negated

theorem mem_nullTestsFrom_iff {found : List NullTest} :
    test ∈ nullTestsFrom before found ts ↔ test ∈ found ∨ test ∈ allNullTestsFrom before ts := by
  induction ts generalizing before found with
  | nil => simp [nullTestsFrom, allNullTestsFrom]
  | cons t ts ih =>
    rw [nullTestsFrom_cons, allNullTestsFrom, ih, List.mem_append, ← or_assoc]
    rcases nullTestBehind? before (t :: ts) with _ | other
    · simp
    · rw [Option.elim_some]
      split
      · next hcontains =>
        have hmem := List.contains_iff_mem.1 hcontains
        simp only [Option.toList_some, List.mem_singleton]
        constructor
        · rintro (h | h)
          · exact .inl (.inl h)
          · exact .inr h
        · rintro ((h | rfl) | h)
          · exact .inl h
          · exact .inl hmem
          · exact .inr h
      · simp [List.mem_append]

theorem nullTestsFrom_nodup {found : List NullTest} (h : found.Nodup) :
    (nullTestsFrom before found ts).Nodup := by
  induction ts generalizing before found with
  | nil => exact h
  | cons t ts ih =>
    rw [nullTestsFrom_cons]
    apply ih
    rcases nullTestBehind? before (t :: ts) with _ | other
    · exact h
    · rw [Option.elim_some]
      split
      · exact h
      · next hcontains =>
        have hnew : other ∉ found := fun hmem => hcontains (List.contains_iff_mem.2 hmem)
        rw [← List.concat_eq_append]
        exact h.concat hnew

theorem mem_allNullTestsFrom_iff : test ∈ allNullTestsFrom before ts ↔
    ∃ passed rest, ts = passed ++ rest ∧
      nullTestBehind? (passed.reverse ++ before) rest = some test := by
  induction ts generalizing before with
  | nil =>
    constructor
    · intro h
      cases h
    · rintro ⟨passed, rest, hsplit, h⟩
      obtain ⟨rfl, rfl⟩ := List.append_eq_nil_iff.1 hsplit.symm
      cases h
  | cons t ts ih =>
    rw [allNullTestsFrom, List.mem_append, Option.mem_toList, ih]
    constructor
    · rintro (h | ⟨passed, rest, rfl, h⟩)
      · exact ⟨[], t :: ts, rfl, h⟩
      · refine ⟨t :: passed, rest, rfl, ?_⟩
        rw [List.reverse_cons, List.append_assoc]
        exact h
    · rintro ⟨passed, rest, hsplit, h⟩
      rcases passed with _ | ⟨u, passed⟩
      · exact .inl (hsplit ▸ h)
      · obtain ⟨rfl, rfl⟩ := List.cons.inj hsplit
        rw [List.reverse_cons, List.append_assoc] at h
        exact .inr ⟨passed, rest, rfl, h⟩

theorem nullTests_nodup (ts : List Token) : (nullTests ts).Nodup :=
  nullTestsFrom_nodup List.nodup_nil

/-- The tests that are read are those that stand in the statement. -/
theorem mem_nullTests_iff : test ∈ nullTests ts ↔ ∃ front, TestedAt ts front test := by
  rw [nullTests, mem_nullTestsFrom_iff, mem_allNullTestsFrom_iff]
  simp only [List.append_nil, nullTestBehind?, Option.bind_eq_some_iff, Option.map_eq_some_iff,
    nullTestAt?_eq_some_iff, columnBefore?_eq_some_iff]
  constructor
  · rintro (h | ⟨passed, rest, rfl, negated, ⟨operator, after, rfl, hoperator⟩, ref,
      ⟨front, hends⟩, rfl⟩)
    · cases h
    · exact ⟨front, passed, operator, after, (List.append_assoc ..).symm, hends, hoperator⟩
  · rintro ⟨front, passed, operator, after, rfl, hends, hoperator⟩
    exact .inr ⟨passed, operator ++ after, List.append_assoc .., test.negated,
      ⟨operator, after, rfl, hoperator⟩, test.column, ⟨front, hends⟩, rfl⟩

/-! ## Whole operands -/

/-- The operators that bind tighter than a test for NULL: of arithmetic, on bits, of concatenation
and extraction, and of order. -/
def tighterOperators : List String :=
  ["+", "-", "*", "/", "%", "&", "|", "<<", ">>", "~", "||", "->", "->>", "<", "<=", ">", ">="]

/-- Whether a token is an operator that binds tighter than a test for NULL. -/
def Token.bindsTighter : Token → Bool
  | symbol text => tighterOperators.contains text
  | _ => false

/-- No operator before a reference makes it a part of what is tested. -/
def Whole (front : List Token) : Prop := ∀ t ∈ front.getLast?, t.bindsTighter = false

/-- Each test that stands in a statement is read, once. All tests that are read are about a whole
operand exactly if each column that is a part of an operand is tested elsewhere, in the same way, as
a whole one. -/
theorem nullTests_whole_iff (ts : List Token) :
    (nullTests ts).Nodup ∧ (∀ test, test ∈ nullTests ts ↔ ∃ front, TestedAt ts front test) ∧
    ((∀ test ∈ nullTests ts, ∃ front, TestedAt ts front test ∧ Whole front) ↔
      ∀ front test, TestedAt ts front test → ¬Whole front →
        ∃ other, TestedAt ts other test ∧ Whole other) := by
  refine ⟨nullTests_nodup ts, fun test => mem_nullTests_iff, ?_, ?_⟩
  · intro h front test htested _
    exact h test (mem_nullTests_iff.2 ⟨front, htested⟩)
  · intro h test hmem
    obtain ⟨front, htested⟩ := mem_nullTests_iff.1 hmem
    by_cases hwhole : Whole front
    · exact ⟨front, htested, hwhole⟩
    · exact h front test htested hwhole

/-- The tokens of a statement that tests a sum. -/
def sumTested : List Token := tokens "SELECT a FROM t WHERE a + b IS NULL"

/-- A test of a sum is read as one of its second summand, though no whole operand is tested. -/
theorem part_tested : nullTests sumTested = [⟨{ column := "b" }, false⟩] ∧
    ¬∃ front, TestedAt sumTested front ⟨{ column := "b" }, false⟩ ∧ Whole front := by
  refine ⟨by decide +kernel, ?_⟩
  rintro ⟨front, ⟨passed, operator, after, hts, ⟨reference, rfl, href, -⟩, -⟩, hwhole⟩
  rcases ColumnRef.ofTokens?_eq_some_iff.1 href with ⟨c, rfl, hc, -⟩ | ⟨q, c, -, hq, -, hqualifier⟩
  · -- the column stands at one place only
    have hplace : sumTested[front.length]? = some c := by
      rw [hts]
      simp
    have hlength : sumTested.length = 10 := by decide +kernel
    have hlt : front.length < 10 := hlength ▸ (List.getElem?_eq_some_iff.1 hplace).1
    have honly : ∀ k < 10, (sumTested[k]?.bind Token.name?) = some "b" → k = 7 := by decide +kernel
    have hseven := honly front.length hlt (by rw [hplace]; exact hc)
    have hfront : front = sumTested.take 7 := by
      rw [hts, ← hseven, List.append_assoc, List.append_assoc, List.take_left]
    rw [hfront] at hwhole
    exact absurd (hwhole (.symbol "+") (by decide +kernel)) (by decide +kernel)
  · rw [← hqualifier] at hq
    cases hq

end IndexAdvisor.Sql
