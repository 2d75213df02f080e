import IndexAdvisor.Proofs.Sort.Complete
import IndexAdvisor.Sort.Basic
import IndexAdvisor.Sql.Lexer

/-!
# Columns behind the key

A sort record begins with the key, and the columns that are only carried along stand behind it. The
sorter declares how many fields the key has; the text of the statement tells how many terms the
`ORDER BY` has. The two differ if an index delivers the first terms in order already and only the
rest is sorted.

> `stepKeys?_within_iff`: with a declared width, the columns that a sort step is ordered by are
> loaded into the declared key exactly if no field behind it, as far as there are terms, is loaded
> from another column.

So they are if the text cannot be read and the declared width counts, and if the `ORDER BY` has no
more terms than the key has fields. Otherwise a column that is carried along can pass for a sort
key: `sorted_by_carried`.
-/

namespace IndexAdvisor.Sort

variable (step : Step) (s : Scene) (l : Ledger) (terms : List Sql.SortTerm) (n : Nat)

/-- The entry and the column that a field of the record is loaded from. -/
def Step.loaded? (field : Nat) : Option (Nat × String) :=
  (source? s.program sourceReach step.recordPos (registerAfter step.first field)).bind
    (s.columnRead? l)

/-- A column is loaded into one of the first `n` fields of the record. -/
def Step.LoadedWithin (key : Nat × String) : Prop :=
  ∃ field < n, field < step.count ∧ step.loaded? s l field = some key

instance (key : Nat × String) : Decidable (step.LoadedWithin s l n key) := by
  unfold Step.LoadedWithin
  infer_instance

variable {step s l terms n}

theorem Step.mem_keys_iff {key : Nat × String} : key ∈ step.keys s l terms ↔
    ∃ field < step.width terms, terms[field]? ≠ some none ∧ step.loaded? s l field = some key := by
  rw [Step.keys, List.mem_filterMap]
  apply exists_congr
  intro field
  rw [List.mem_range, Step.loaded?]
  by_cases hterm : terms[field]? = some none
  · simp [hterm]
  · simp [hterm]

theorem Step.width_le_count : step.width terms ≤ step.count := Nat.min_le_right _ _

/-- Without terms the declared width counts. -/
theorem Step.width_nil (hdeclared : declaredWidth? step.opening.p4 = some n) :
    step.width [] = min n step.count := by
  rw [Step.width, List.isEmpty_nil, if_pos rfl, hdeclared]
  rfl

/-- With terms the declared width does not count. -/
theorem Step.width_of_ne_nil (h : terms ≠ []) : step.width terms = min terms.length step.count := by
  rw [Step.width, if_neg]
  rwa [List.isEmpty_iff]

/-- The keys of a complete sort step are loaded into the fields that the sorter declares for the key
exactly if the fields behind them, as far as there are terms and a term is a column, are loaded from
no other column. This is void if there are no terms, no more terms than the declared fields, or no
more fields in the record than the declared ones. -/
theorem stepKeys?_within_iff {pos : Nat} {insert : Instr} {idiom : Idiom}
    (h : Complete s.program pos insert idiom step)
    (hdeclared : declaredWidth? step.opening.p4 = some n) (l : Ledger) (terms : List Sql.SortTerm) :
    ∃ keys, stepKeys? s l terms pos insert = some keys ∧
      ((∀ key ∈ keys, step.LoadedWithin s l n key) ↔
        ∀ field key, n ≤ field → field < terms.length → field < step.count →
          terms[field]? ≠ some none →
          step.loaded? s l field = some key → step.LoadedWithin s l n key) ∧
      (terms = [] ∨ terms.length ≤ n ∨ step.count ≤ n → ∀ key ∈ keys,
        step.LoadedWithin s l n key) := by
  refine ⟨step.keys s l terms, stepKeys?_of_complete h rfl l terms, ?_⟩
  have hiff : (∀ key ∈ step.keys s l terms, step.LoadedWithin s l n key) ↔
      ∀ field key, n ≤ field → field < terms.length → field < step.count →
        terms[field]? ≠ some none →
        step.loaded? s l field = some key → step.LoadedWithin s l n key := by
    constructor
    · intro hkeys field key _ hlt hcount hterm hloaded
      have hne : terms ≠ [] := List.ne_nil_of_length_pos (Nat.zero_lt_of_lt hlt)
      have hwidth : field < step.width terms := by
        rw [Step.width_of_ne_nil hne]
        exact Nat.lt_min.2 ⟨hlt, hcount⟩
      exact hkeys key (Step.mem_keys_iff.2 ⟨field, hwidth, hterm, hloaded⟩)
    · intro hbehind key hkey
      obtain ⟨field, hwidth, hterm, hloaded⟩ := Step.mem_keys_iff.1 hkey
      have hcount := Nat.lt_of_lt_of_le hwidth Step.width_le_count
      -- a field of the declared key is where the column is loaded; one behind it is among the terms
      by_cases hn : field < n
      · exact ⟨field, hn, hcount, hloaded⟩
      · by_cases hnil : terms = []
        · rw [hnil, Step.width_nil hdeclared] at hwidth
          exact absurd (Nat.lt_of_lt_of_le hwidth (Nat.min_le_left _ _)) hn
        · rw [Step.width_of_ne_nil hnil] at hwidth
          exact hbehind field key (Nat.not_lt.1 hn) (Nat.lt_min.1 hwidth).1 hcount hterm hloaded
  refine ⟨hiff, fun hvoid => hiff.2 fun field key hn hlt hcount _ _ => ?_⟩
  obtain rfl | hterms | hfields := hvoid
  · cases hlt
  · exact absurd (Nat.lt_of_lt_of_le hlt hterms) (Nat.not_lt.2 hn)
  · exact absurd (Nat.lt_of_lt_of_le hcount hfields) (Nat.not_lt.2 hn)

/-! ## A column that is carried along -/

/-- The program of `SELECT c FROM t ORDER BY a, b` if there is an index on `a`: the rows come in the
order of `a`, those with one and the same `a` are sorted by `b`, and the record carries `c` behind
`b`. -/
def partlySorted : Program := ⟨[
  { address := 0, name := "Init", p1 := some "0", p2 := some "29", p3 := some "0" },
  { address := 1, name := "SorterOpen", p1 := some "1", p2 := some "2", p3 := some "0",
    p4 := some "k(1,B)" },
  { address := 2, name := "OpenRead", p1 := some "0", p2 := some "2", p3 := some "0",
    p4 := some "3" },
  { address := 3, name := "OpenRead", p1 := some "2", p2 := some "3", p3 := some "0",
    p4 := some "k(2,,)" },
  { address := 4, name := "Rewind", p1 := some "2", p2 := some "18", p3 := some "1",
    p4 := some "0" },
  { address := 5, name := "DeferredSeek", p1 := some "2", p2 := some "0", p3 := some "0" },
  { address := 6, name := "Column", p1 := some "0", p2 := some "2", p3 := some "3" },
  { address := 7, name := "Column", p1 := some "2", p2 := some "0", p3 := some "1" },
  { address := 8, name := "Column", p1 := some "0", p2 := some "1", p3 := some "2" },
  { address := 9, name := "MakeRecord", p1 := some "2", p2 := some "2", p3 := some "4" },
  { address := 10, name := "SequenceTest", p1 := some "1", p2 := some "15", p3 := some "0" },
  { address := 11, name := "Compare", p1 := some "5", p2 := some "1", p3 := some "1",
    p4 := some "k(2,B,B)" },
  { address := 12, name := "Jump", p1 := some "13", p2 := some "16", p3 := some "13" },
  { address := 13, name := "Gosub", p1 := some "6", p2 := some "20", p3 := some "0" },
  { address := 14, name := "ResetSorter", p1 := some "1", p2 := some "0", p3 := some "0" },
  { address := 15, name := "Move", p1 := some "1", p2 := some "5", p3 := some "1" },
  { address := 16, name := "SorterInsert", p1 := some "1", p2 := some "4", p3 := some "2",
    p4 := some "2" },
  { address := 17, name := "Next", p1 := some "2", p2 := some "5", p3 := some "0" },
  { address := 18, name := "Gosub", p1 := some "6", p2 := some "20", p3 := some "0" },
  { address := 19, name := "Goto", p1 := some "0", p2 := some "28", p3 := some "0" },
  { address := 20, name := "Once", p1 := some "0", p2 := some "22", p3 := some "0" },
  { address := 21, name := "OpenPseudo", p1 := some "3", p2 := some "7", p3 := some "3" },
  { address := 22, name := "SorterSort", p1 := some "1", p2 := some "28", p3 := some "0" },
  { address := 23, name := "SorterData", p1 := some "1", p2 := some "7", p3 := some "3" },
  { address := 24, name := "Column", p1 := some "3", p2 := some "1", p3 := some "3" },
  { address := 25, name := "ResultRow", p1 := some "3", p2 := some "1", p3 := some "0" },
  { address := 26, name := "SorterNext", p1 := some "1", p2 := some "23", p3 := some "0" },
  { address := 27, name := "Return", p1 := some "6", p2 := some "0", p3 := some "0" },
  { address := 28, name := "Halt", p1 := some "0", p2 := some "0", p3 := some "0" },
  { address := 29, name := "Transaction", p1 := some "0", p2 := some "0", p3 := some "2",
    p4 := some "0" },
  { address := 30, name := "Goto", p1 := some "0", p2 := some "1", p3 := some "0" }]⟩

/-- The insert of that program. -/
def partlySortedInsert : Instr :=
  { address := 16, name := "SorterInsert", p1 := some "1", p2 := some "4",
    p3 := some "2", p4 := some "2" }

/-- The sort step of that program. -/
def partlySortedStep : Step where
  opening :=
    { address := 1, name := "SorterOpen", p1 := some "1", p2 := some "2", p3 := some "0",
      p4 := some "k(1,B)" }
  recordPos := 9
  first := 2
  count := 2

/-- A table and an index on its first column. -/
def partlySortedSchema : Schema where
  tables := [{ name := "t", rootPage := 2, columns := ["a", "b", "c"] }]
  indexes := [{ name := "t_a", rootPage := 3, table := "t", columns := ["a"] }]

theorem partlySorted_complete :
    Complete partlySorted 16 partlySortedInsert sorter partlySortedStep :=
  (of?_eq_some_iff (by decide +kernel)).1 (by decide +kernel)

/-- Where the text cannot be read, the declared width counts, and the columns are those of the
declared key. -/
theorem stepKeys?_within_unread :
    let scan := Openings.scan .empty partlySortedSchema partlySorted
    let scene : Scene := ⟨partlySorted, partlySortedSchema, scan.2, Sql.tokens "SELECT 'broken"⟩
    declaredWidth? partlySortedStep.opening.p4 = some 1 ∧ Sql.sortTerms scene.tokens = [] ∧
      ∃ keys, stepKeys? scene scan.1 [] 16 partlySortedInsert = some keys ∧
        ∀ key ∈ keys, partlySortedStep.LoadedWithin scene scan.1 1 key := by
  intro scan scene
  have hdeclared : declaredWidth? partlySortedStep.opening.p4 = some 1 := by decide +kernel
  obtain ⟨keys, hkeys, -, hvoid⟩ :=
    stepKeys?_within_iff (s := scene) partlySorted_complete hdeclared scan.1 []
  exact ⟨hdeclared, by decide +kernel, keys, hkeys, hvoid (.inl rfl)⟩

/-- The statement is recorded to be sorted by `c` as well, which is in no field of the declared
key. -/
theorem sorted_by_carried :
    let scan := Openings.scan .empty partlySortedSchema partlySorted
    let scene : Scene :=
      ⟨partlySorted, partlySortedSchema, scan.2, Sql.tokens "SELECT c FROM t ORDER BY a, b"⟩
    Complete partlySorted 16 partlySortedInsert sorter partlySortedStep ∧
      declaredWidth? partlySortedStep.opening.p4 = some 1 ∧
      stepKeys? scene scan.1 (Sql.sortTerms scene.tokens) 16 partlySortedInsert =
        some [(0, "b"), (0, "c")] ∧
      ((record scene scan.1).usage? 0).map (·.sortColumns.toList) = some ["b", "c"] ∧
      ¬partlySortedStep.LoadedWithin scene scan.1 1 (0, "c") := by
  intro scan scene
  exact ⟨partlySorted_complete, by decide +kernel, by decide +kernel, by decide +kernel,
    by decide +kernel⟩

end IndexAdvisor.Sort
