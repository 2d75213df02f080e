import IndexAdvisor.Proofs.Ledger.Note

/-!
# Columns in the order of their notes

A verdict looks at the columns of a table in order, so it is not enough to know which columns are
found. The notes tell the order too.

> `columns?_enterAll`: entering notes inserts the columns they name for an entry, from first to
> last.

The order is that of the notes for the entry itself and for the indexes it owns, taken together.
-/

namespace IndexAdvisor

/-- The columns that a usage has in a clause. -/
def Usage.columnsOf (u : Usage) : Clause → OrderedSet String
  | .filter => u.filterColumns
  | .sort => u.sortColumns

theorem Usage.columnsOf_addColumn (u : Usage) (clause other : Clause) (column : String)
    (through : Option Int) :
    (u.addColumn other column through).columnsOf clause =
      if other = clause then (u.columnsOf clause).insert column else u.columnsOf clause := by
  cases clause <;> cases other <;> rfl

theorem Usage.columnsOf_addFilter (u : Usage) (clause : Clause) (text : String) :
    (u.addFilter text).columnsOf clause = u.columnsOf clause := by
  cases clause <;> rfl

namespace Ledger

variable (l : Ledger) (clause other : Clause) (id j : Nat) (column text : String)

/-- The columns that an entry has in a clause. -/
def columns? : Option (OrderedSet String) := (l.usage? j).map (·.columnsOf clause)

instance : Decidable (l.Reaches id j) := inferInstanceAs (Decidable (_ ∨ _))

/-- The column that a note names for an entry in a clause. -/
def columnFor? : Note → Option String
  | .column id other name => if other = clause ∧ l.Reaches id j then some name else none
  | .filter _ _ => none

/-! ## One note -/

theorem columns?_addColumn (through : Option Int) :
    (l.modify id (·.addColumn other column through)).columns? clause j =
      if other = clause ∧ j = id then (l.columns? clause j).map (·.insert column)
        else l.columns? clause j := by
  rw [columns?, columns?, usage?_modify]
  by_cases hj : j = id
  · rcases l.usage? j with _ | u
    · simp
    · by_cases hother : other = clause <;> simp [hj, hother, Usage.columnsOf_addColumn]
  · simp [hj]

theorem columns?_addFilter :
    (l.modify id (·.addFilter text)).columns? clause j = l.columns? clause j := by
  rw [columns?, columns?, usage?_modify]
  split
  · rcases l.usage? j with _ | u
    · rfl
    · exact congrArg some (u.columnsOf_addFilter clause text)
  · rfl

/-- A column goes to the entry it is recorded for and to the owner of that entry. -/
theorem columns?_record : (l.record id other column).columns? clause j =
    if other = clause ∧ l.Reaches id j then (l.columns? clause j).map (·.insert column)
      else l.columns? clause j := by
  rw [record]
  rcases hu : l.usage? id with _ | u
  · -- there is no entry, hence no owner
    have howner : l.ownerOfIndex? id = none := by rw [ownerOfIndex?, hu]
    simp only [Reaches, howner, reduceCtorEq, or_false]
    split
    · next h => rw [columns?, h.2, hu]; rfl
    · rfl
  · dsimp only
    rcases howner : l.ownerOfIndex? id with _ | t
    · simp only [columns?_addColumn, Reaches, howner, reduceCtorEq, or_false]
    · simp only [columns?_addColumn, Reaches, howner, Option.some.injEq, eq_comm (a := t)]
      by_cases hother : other = clause
      · simp only [hother, true_and]
        by_cases ht : j = t
        · by_cases hid : j = id
          · -- an entry that owned itself would get the column twice, which is no more than once
            rw [if_pos ht, if_pos hid, if_pos (Or.inl hid), Option.map_map]
            congr 1
            funext s
            exact OrderedSet.insert_of_mem (OrderedSet.mem_insert.2 (.inr rfl))
          · rw [if_pos ht, if_neg hid, if_pos (Or.inr ht)]
        · simp only [ht, or_false, if_false]
      · simp only [hother, false_and, if_false]

theorem columns?_recordFilter :
    (l.recordFilter id text).columns? clause j = l.columns? clause j := by
  rw [recordFilter]
  rcases l.ownerOfIndex? id with _ | t
  · exact columns?_addFilter ..
  · exact (columns?_addFilter ..).trans (columns?_addFilter ..)

/-! ## All notes -/

variable {l clause j} {k : Ledger}

theorem columnFor?_of_skeleton_eq (h : k.skeleton = l.skeleton) :
    k.columnFor? clause j = l.columnFor? clause j := by
  funext n
  cases n with
  | column id other name =>
    have hreaches : k.Reaches id j ↔ l.Reaches id j := by
      rw [Reaches, Reaches, eq_of_skeleton_eq (g := (ownerOfIndex? · id))
        (ownerOfIndex?_skeleton · id) h]
    simp only [columnFor?, hreaches]
  | filter id text => rfl

theorem columns?_enter (n : Note) :
    (l.enter n).columns? clause j = (l.columns? clause j).map
    (·.insertAll (l.columnFor? clause j n).toList) := by
  cases n with
  | column id other name =>
    rw [enter, columns?_record, columnFor?]
    split
    · rfl
    · exact Option.map_id'.symm
  | filter id text =>
    rw [enter, columns?_recordFilter]
    exact Option.map_id'.symm

/-- The columns of an entry when some notes are entered: what it had, and what the notes name for
it, in order. -/
theorem columns?_enterAll (notes : List Note) : (l.enterAll notes).columns? clause j =
    (l.columns? clause j).map (·.insertAll (notes.filterMap (l.columnFor? clause j))) := by
  induction notes generalizing l with
  | nil => exact Option.map_id'.symm
  | cons n notes ih =>
    have hadd (s : OrderedSet String) :
        (s.insertAll (l.columnFor? clause j n).toList).insertAll
        (notes.filterMap (l.columnFor? clause j)) =
          s.insertAll ((n :: notes).filterMap (l.columnFor? clause j)) := by
      rw [List.filterMap_cons]
      rcases l.columnFor? clause j n with _ | column
      · rfl
      · rfl
    rw [enterAll_cons, ih, columns?_enter,
      columnFor?_of_skeleton_eq (skeleton_enter l n), Option.map_map]
    congr 1
    funext s
    exact hadd s

end Ledger

end IndexAdvisor
