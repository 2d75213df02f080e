import IndexAdvisor.Statement.Basic

/-!
# One statement, and whether it is a query

A row of pieces counts as one statement by what its first statement leaves behind
(`divide?_eq_one_iff`), and what that statement does is told by how it begins: a query begins with a
parenthesis or with one of the words `SELECT`, `WITH` and `VALUES` (`ofPieces_isReadOnly`), which
also tell it where only the first word is looked at (`ofWord_isReadOnly`).
-/

namespace IndexAdvisor.Statement

open Recognizer

/-! ## Counting statements -/

theorem divideFrom_keeps {separated : Bool} {found out : List (List Piece)} {ts : List Piece}
    (h : divideFrom separated found ts = some out) : found.reverse <+: out := by
  fun_induction divideFrom separated found ts with
  | case1 => cases h; exact List.prefix_refl _
  | case2 separated found t ts ht ih => exact ih h
  | case3 => cases h; exact List.prefix_refl _
  | case4 => cases h
  | case5 separated found t ts _ _ rest hrun ih =>
    refine List.IsPrefix.trans ?_ (ih h)
    rw [List.reverse_cons]
    exact List.prefix_append ..
  | case6 => cases h

theorem divideFrom_true_iff {s ts : List Piece} :
    divideFrom true [s] ts = some [s] ↔ ∀ t ∈ ts, t = .mark ";" := by
  induction ts with
  | nil => simp [divideFrom]
  | cons t ts ih =>
    rw [divideFrom.eq_def]
    by_cases ht : t = .mark ";"
    · simp [ht, ih]
    · rw [List.forall_mem_cons]
      simp only [beq_iff_eq, ht, Bool.not_true, Bool.false_eq_true, if_false, false_and, iff_false]
      split
      · intro h
        -- a second statement has been found, and it is never forgotten
        have hlength := (divideFrom_keeps h).length_le
        simp at hlength
      · intro h
        cases h

theorem divideFrom_false_iff {s ts : List Piece} :
    divideFrom false [s] ts = some [s] ↔ (∀ t ∈ ts, t = .mark ";") ∨
      ∃ tail, ts = .word "END" :: tail := by
  rcases ts with _ | ⟨t, ts⟩
  · simp [divideFrom]
  · rw [divideFrom.eq_def]
    by_cases ht : t = .mark ";"
    · simp [ht, divideFrom_true_iff]
    · by_cases hend : t = .word "END"
      · simp [hend]
      · simp [ht, hend]

theorem divideFrom_dropWhile (ts : List Piece) :
    divideFrom true [] ts = divideFrom true [] (ts.dropWhile (· == .mark ";")) := by
  induction ts with
  | nil => rfl
  | cons t ts ih =>
    by_cases ht : t = .mark ";"
    · rw [divideFrom.eq_def, List.dropWhile_cons_of_pos (by simp [ht]), ← ih]
      simp [ht]
    · rw [List.dropWhile_cons_of_neg (by simp [ht])]

/-- A row counts as one statement if nothing but semicolons follows what is recognized of it, or if
the word `END` comes then. -/
theorem divide?_eq_one_iff {ts s : List Piece} :
    divide? ts = some [s] ↔ ts.dropWhile (· == .mark ";") = s ∧ s ≠ [] ∧
      ∃ rest, topStatement.run s = .ok rest ∧
        ((∀ t ∈ rest, t = .mark ";") ∨ ∃ tail, rest = .word "END" :: tail) := by
  rw [divide?, divideFrom_dropWhile]
  have hhead := List.head?_dropWhile_not (· == Piece.mark ";") ts
  generalize ts.dropWhile (· == .mark ";") = row at hhead
  rcases row with _ | ⟨t, row⟩
  · rw [divideFrom]
    constructor
    · intro h
      cases h
    · rintro ⟨rfl, hne, -⟩
      exact absurd rfl hne
  · have ht : t ≠ .mark ";" := by simpa using hhead
    rw [divideFrom.eq_def]
    simp only [beq_iff_eq, if_neg ht, Bool.not_true, Bool.false_eq_true, if_false]
    split
    · next rest hrun =>
      constructor
      · intro h
        obtain rfl : t :: row = s := by simpa using (divideFrom_keeps h)
        exact ⟨rfl, List.cons_ne_nil t row, rest, hrun, divideFrom_false_iff.1 h⟩
      · rintro ⟨rfl, -, rest', hrun', hrest⟩
        rw [hrun] at hrun'
        cases hrun'
        exact divideFrom_false_iff.2 hrest
    · next hrun =>
      constructor
      · intro h
        cases h
      · rintro ⟨rfl, -, rest, hrun', -⟩
        rw [hrun] at hrun'
        cases hrun'

/-! ## Queries -/

/-- The words that begin a query. -/
def queryWords : List String := ["SELECT", "WITH", "VALUES"]

/-- Whether a row begins like a query. -/
def opensQuery (ts : List Piece) : Bool := nextIn queryWords ts || nextMark "(" ts

theorem ofWord_isReadOnly (w : String) :
    (StatementKind.ofWord w).isReadOnly = queryWords.contains w := by
  unfold StatementKind.ofWord
  split <;> simp_all [StatementKind.isReadOnly, queryWords]

theorem ofPieces_isReadOnly (ts : List Piece) :
    (StatementKind.ofPieces ts).isReadOnly = opensQuery ts := by
  unfold StatementKind.ofPieces
  split
  · rfl
  · rfl
  · rfl
  · dsimp only
    split <;> split <;> rfl
  · split <;> rfl
  · split <;> rfl
  · rw [ofWord_isReadOnly]
    simp [opensQuery, nextIn, nextMark]
  · next hparen _ _ _ _ _ hword =>
    rcases ts with _ | ⟨t, ts⟩
    · rfl
    · cases t with
      | word w => exact absurd rfl (hword w ts)
      | mark m =>
        have hm : m ≠ "(" := by
          rintro rfl
          exact hparen ts rfl
        show false = (m == "(")
        exact (beq_eq_false_iff_ne.2 hm).symm
      | _ => rfl

end IndexAdvisor.Statement
