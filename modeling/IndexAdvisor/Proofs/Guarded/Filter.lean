import IndexAdvisor.Proofs.Guarded.Range

/-!
# Guarded filters

Every instruction records what it says about the conditions of the statement: it addresses entries
of the ledger, the registers it compares are operands of its own, and the tests for NULL name tables
that have an entry. Recording leaves the skeleton of the ledger as it is, so nothing else has to be
carried from one instruction to the next (`filters_eq`).
-/

namespace IndexAdvisor.Guarded

variable {s : Scene} {l : Ledger} {pos id : Nat} {i : Instr}

/-! ## Comparisons -/

/-- Records the comparison of a column with the constant in a register. -/
def reconstruct (s : Scene) (pos : Nat) (seen : Ledger) (id : Nat) (column : String)
    (relation : Relation) (constant : Int) : Guarded Ledger := do
  let some text ← recover s.program pos constant | return seen
  let target ← jumpTarget s.program pos
  recordFilter seen id (comparisonText column
    (if Filter.skipsRow target then relation.negate else relation).sql text)

/-- Records what a comparison of two registers says. -/
def recordComparison (s : Scene) (l : Ledger) (pos : Nat) (relation : Relation) :
    Guarded Ledger := do
  let i ← instrAt s.program pos
  let some right := i.n1 | return l
  let some left := i.n3 | return l
  let rightRead ← columnIn s l pos right
  let leftRead ← columnIn s l pos left
  let seen ← (rightRead.toList ++ leftRead.toList).foldlM (fun l r => record l r.1 .filter r.2) l
  match rightRead, leftRead with
  | none, some (id, column) => reconstruct s pos seen id column relation right
  | some (id, column), none => reconstruct s pos seen id column relation.flip left
  | _, _ => return seen

theorem reconstruct_eq (hp : s.program.Narrow) (hi : s.program.at? pos = some i) {seen : Ledger}
    (h : seen.Bounded s.openings) (hid : id < seen.size) {constant : Int}
    (hconstant : fitsInt32 constant = true) (column : String) (relation : Relation) :
    reconstruct s pos seen id column relation constant =
      pure (Filter.reconstructed s pos seen id column relation constant) := by
  rw [reconstruct, recover_eq hp (spacious_of_fitsInt32 hconstant), pure_bind,
    Filter.reconstructed, Scene.valueIn?]
  rcases s.program.valueAt? pos constant with _ | text
  · rfl
  · dsimp only
    rw [jumpTarget_eq hi, pure_bind, recordFilter_eq h hid]

theorem recordComparison_eq (hp : s.program.Narrow) (h : l.Bounded s.openings)
    (hi : s.program.at? pos = some i) (relation : Relation) :
    recordComparison s l pos relation = pure (Filter.recordComparison s l pos i relation) := by
  rw [recordComparison, instrAt_eq hi, pure_bind, Filter.recordComparison]
  rcases hright : i.n1 with _ | right
  · rfl
  rcases hleft : i.n3 with _ | left
  · rfl
  dsimp only
  rw [columnIn_eq h, pure_bind, columnIn_eq h, pure_bind]
  have hreads : ∀ r ∈ (s.columnIn? l pos right).toList ++ (s.columnIn? l pos left).toList,
      r.1 < l.size := by
    intro r hr
    rcases List.mem_append.1 hr with hr | hr
    · exact lt_size_of_columnIn? h (Option.mem_toList.1 hr)
    · exact lt_size_of_columnIn? h (Option.mem_toList.1 hr)
  obtain ⟨hrecorded, hkept⟩ := foldlM_record_eq h hreads .filter
  rw [hrecorded, pure_bind]
  -- what is recorded on both sides leaves the places as they are, and no more is needed of it
  generalize List.foldl (fun (l : Ledger) (r : Nat × String) => l.record r.1 .filter r.2) l
      _ = seen at hkept ⊢
  have hseen := h.of_skeleton_eq hkept
  have hside {r : Nat × String} {register : Int} (hr : s.columnIn? l pos register = some r) :
      r.1 < seen.size :=
    Ledger.lt_size_of_skeleton_eq hkept (lt_size_of_columnIn? h hr)
  rcases hrightRead : s.columnIn? l pos right with _ | ⟨id, column⟩
  · rcases hleftRead : s.columnIn? l pos left with _ | ⟨id, column⟩
    · rfl
    · exact reconstruct_eq hp hi hseen (hside hleftRead) (hp.n1 hi hright) column relation
  · rcases hleftRead : s.columnIn? l pos left with _ | ⟨id', column'⟩
    · exact reconstruct_eq hp hi hseen (hside hrightRead) (hp.n3 hi hleft) column relation.flip
    · rfl

/-! ## Row numbers and single columns -/

/-- A ledger with the key that an entry is looked up by, and what it is compared with, if that is
known. -/
def keyed (s : Scene) (pos : Nat) (i : Instr) (id : Nat) (l : Ledger) (key : String) :
    Guarded Ledger := do
  let own ← record l id .filter key
  let some register := i.n3 | return own
  let some constant ← recover s.program pos register | return own
  recordFilter own id (comparisonText key "=" constant)

/-- The column that was read into the register of the key. -/
def fedBy (s : Scene) (pos : Nat) (i : Instr) (l : Ledger) : Guarded (Option (Nat × String)) := do
  let some register := i.n3 | return none
  let some writer ← lastWriter s.program pos register | return none
  let j ← instrAt s.program writer
  if j.opcode = .column then columnRead s l writer else return none

/-- Records a lookup by row number. -/
def recordLookup (s : Scene) (l : Ledger) (pos : Nat) : Guarded Ledger := do
  let some id ← entryAddressed s pos | return l
  let i ← instrAt s.program pos
  let own ← match ← rowidColumn s l id with
    | none => pure l
    | some key => keyed s pos i id l key
  let some (source, column) ← fedBy s pos i own | return own
  record own source .filter column

/-- Records a column that is read for a test. -/
def recordColumn (s : Scene) (l : Ledger) (pos : Nat) : Guarded Ledger := do
  if s.program.size ≤ pos + 1 then return l
  let following ← instrAt s.program (pos + 1)
  if Filter.consumesColumn following.opcode then return l
  let some (id, column) ← columnRead s l pos | return l
  record l id .filter column

theorem keyed_eq (hp : s.program.Narrow) (h : l.Bounded s.openings)
    (hi : s.program.at? pos = some i) (hid : id < l.size) (key : String) :
    keyed s pos i id l key = pure (Filter.keyed s pos i id l key) := by
  rw [keyed, record_eq h hid, pure_bind, Filter.keyed]
  rcases hn3 : i.n3 with _ | register
  · rfl
  · dsimp only
    rw [recover_eq hp (spacious_of_fitsInt32 (hp.n3 hi hn3)), pure_bind,
      Option.bind_some, Scene.valueIn?]
    rcases s.program.valueAt? pos register with _ | constant
    · rfl
    · exact recordFilter_record_eq h hid .filter key _

theorem skeleton_keyed (s : Scene) (pos : Nat) (i : Instr) (id : Nat) (l : Ledger) (key : String) :
    (Filter.keyed s pos i id l key).skeleton = l.skeleton := by
  rw [Filter.keyed]
  split
  · exact (Ledger.skeleton_recordFilter ..).trans (Ledger.skeleton_record ..)
  · exact Ledger.skeleton_record ..

theorem fedBy_eq (h : l.Bounded s.openings) (pos : Nat) (i : Instr) :
    fedBy s pos i l = pure (Filter.fedBy? s pos i l) := by
  rw [fedBy, Filter.fedBy?]
  rcases i.n3 with _ | register
  · rfl
  · dsimp only [Option.bind_eq_bind]
    rw [lastWriter_eq, pure_bind, Option.bind_some]
    rcases hwriter : s.program.lastWriter pos register with _ | writer
    · rfl
    · obtain ⟨j, hj⟩ := at?_of_searchBack hwriter
      dsimp only
      rw [instrAt_eq hj, pure_bind, Option.bind_some, Program.opcodeAt?, hj, Option.map_some]
      by_cases hcolumn : j.opcode = .column
      · rw [if_pos hcolumn, hcolumn, columnRead_eq h hj]
        rfl
      · rw [if_neg hcolumn, if_neg (by simpa using hcolumn)]

theorem lt_size_of_fedBy? (h : l.Bounded s.openings) {r : Nat × String}
    (hr : Filter.fedBy? s pos i l = some r) :
    r.1 < l.size := by
  rw [Filter.fedBy?_eq] at hr
  obtain ⟨writer, -, hr⟩ := Option.bind_eq_some_iff.1 hr
  exact lt_size_of_columnRead? h hr

theorem recordLookup_eq (hp : s.program.Narrow) (h : l.Bounded s.openings)
    (hi : s.program.at? pos = some i) :
    recordLookup s l pos = pure (Filter.recordLookup s l pos i) := by
  rw [recordLookup, entryAddressed_eq hi, pure_bind, Filter.recordLookup_eq]
  rcases hid : s.openings.of? i pos with _ | id
  · rfl
  obtain ⟨u, hu⟩ := h.of? hid
  dsimp only [Option.elim_some]
  rw [instrAt_eq hi, pure_bind, rowidColumn_eq hu, pure_bind, hu, Option.bind_some]
  -- the column that feeds the lookup is read from the ledger that has the key
  have hfed {own : Ledger} (hown : own.Bounded s.openings) : (do
      let some (source, column) ← fedBy s pos i own | return own
      record own source .filter column) =
        (pure ((Filter.fedBy? s pos i own).elim own fun r =>
          own.record r.1 .filter r.2) : Guarded Ledger) := by
    rw [fedBy_eq hown, pure_bind]
    rcases hr : Filter.fedBy? s pos i own with _ | ⟨source, column⟩
    · rfl
    · exact record_eq hown (lt_size_of_fedBy? hown hr) .filter column
  rcases u.rowidColumn? s.schema with _ | key
  · exact hfed h
  · dsimp only [Option.elim_some]
    rw [keyed_eq hp h hi (Ledger.lt_size_of_usage? hu), pure_bind]
    exact hfed (h.of_skeleton_eq (skeleton_keyed ..))

theorem recordColumn_eq (h : l.Bounded s.openings) (hi : s.program.at? pos = some i) :
    recordColumn s l pos = pure (Filter.recordColumn s l pos i) := by
  rw [recordColumn, Filter.recordColumn, Program.opcodeAt?]
  by_cases hend : s.program.size ≤ pos + 1
  · have hnone : s.program.at? (pos + 1) = none := List.getElem?_eq_none hend
    rw [if_pos hend, hnone]
    rfl
  · obtain ⟨following, hfollowing⟩ := Program.exists_at? (Nat.lt_of_not_le hend)
    rw [if_neg hend, instrAt_eq hfollowing, pure_bind, hfollowing, Option.map_some]
    dsimp only
    split
    · rfl
    · rw [columnRead_eq h hi, pure_bind]
      have hread : s.columnReadBy? l i pos = s.columnRead? l pos := by
        rw [Scene.columnRead?, hi, Option.bind_some]
      rw [hread]
      rcases hr : s.columnRead? l pos with _ | ⟨id, column⟩
      · rfl
      · exact record_eq h (lt_size_of_columnRead? h hr) .filter column

/-! ## Tests for NULL -/

/-- A column as the table at a place of the ledger spells it. -/
def tableColumn (s : Scene) (l : Ledger) (id : Nat) (column : String) :
    Guarded (Option String) := do
  let u ← usageAt l id
  return declared? (s.schema.columnsOfTable u.name) column

/-- The tables of the ledger that have a column, with its spelling. -/
def tablesWith (s : Scene) (l : Ledger) (column : String) : Guarded (List (Nat × String)) :=
  collect (fun id => do
    let u ← usageAt l id
    if u.isIndex then return none
    let found ← tableColumn s l id column
    return found.map (id, ·)) (List.range l.size)

/-- The entry and the column that a test is about. -/
def nullTarget (s : Scene) (l : Ledger) (refs : List Sql.TableRef) (ref : Sql.ColumnRef) :
    Guarded (Option (Nat × String)) := do
  match ref.qualifier with
  | some qualifier =>
    let some table := Sql.resolveQualifier? refs qualifier | return none
    let some id := l.find? table .table | return none
    let found ← tableColumn s l id ref.column
    return found.map (id, ·)
  | none =>
    match ← tablesWith s l ref.column with
    | [only] => return some only
    | _ => return none

/-- Records the tests for NULL in the text of the statement. -/
def recordNullTests (s : Scene) (l : Ledger) : Guarded Ledger :=
  (Sql.nullTests s.tokens).foldlM (fun l test => do
    let some (id, column) ← nullTarget s l (Sql.tableRefs s.tokens) test.column | return l
    let own ← record l id .filter column
    recordFilter own id (Filter.nullTestText column test.negated)) l

theorem tableColumn_eq (hid : id < l.size) (column : String) :
    tableColumn s l id column = pure (Filter.tableColumn? s l id column) := by
  obtain ⟨u, hu⟩ := Ledger.exists_usage? hid
  rw [tableColumn, usageAt_eq hu, pure_bind, Filter.tableColumn?, hu, Option.bind_some]

theorem tablesWith_eq (s : Scene) (l : Ledger) (column : String) :
    tablesWith s l column = pure (Filter.tablesWith s l column) := by
  apply collect_eq
  intro id hid
  have hlt := List.mem_range.1 hid
  obtain ⟨u, hu⟩ := Ledger.exists_usage? hlt
  rw [usageAt_eq hu, pure_bind, hu, Option.any_some]
  split
  · rfl
  · rw [tableColumn_eq hlt, pure_bind]

theorem nullTarget_eq (s : Scene) (l : Ledger) (refs : List Sql.TableRef) (ref : Sql.ColumnRef) :
    nullTarget s l refs ref = pure (Filter.nullTarget? s l refs ref) := by
  rw [nullTarget, Filter.nullTarget?]
  rcases ref.qualifier with _ | qualifier
  · dsimp only
    rw [tablesWith_eq, pure_bind]
    rcases Filter.tablesWith s l ref.column with _ | ⟨only, _ | ⟨_, _⟩⟩ <;> rfl
  · dsimp only [Option.bind_eq_bind]
    rcases Sql.resolveQualifier? refs qualifier with _ | table
    · rfl
    · dsimp only
      rw [Option.bind_some]
      rcases hid : l.find? table .table with _ | id
      · rfl
      · obtain ⟨u, hu, -⟩ := Ledger.find?_eq_some hid
        dsimp only
        rw [tableColumn_eq (Ledger.lt_size_of_usage? hu), pure_bind, Option.bind_some]
        rcases Filter.tableColumn? s l id ref.column with _ | column <;> rfl

theorem lt_size_of_nullTarget? {refs : List Sql.TableRef} {ref : Sql.ColumnRef} {column : String}
    (h : Filter.nullTarget? s l refs ref = some (id, column)) : id < l.size := by
  obtain ⟨hcolumn, -⟩ := Filter.nullTarget?_table s l h
  obtain ⟨u, hu, -⟩ := Option.bind_eq_some_iff.1 hcolumn
  exact Ledger.lt_size_of_usage? hu

theorem recordNullTests_eq (h : l.Bounded s.openings) :
    recordNullTests s l = pure (Filter.recordNullTests s l) := by
  refine (foldlM_eq_foldl (P := fun k => k.skeleton = l.skeleton) rfl fun k test _ hk => ?_).1
  have hbounded := h.of_skeleton_eq hk
  rw [nullTarget_eq, pure_bind]
  rcases htarget : Filter.nullTarget? s k (Sql.tableRefs s.tokens) test.column with _ | ⟨id, column⟩
  · exact ⟨rfl, hk⟩
  · have hid := lt_size_of_nullTarget? htarget
    have hkept : (k.record id .filter column).skeleton = k.skeleton := Ledger.skeleton_record ..
    dsimp only
    rw [record_eq hbounded hid, pure_bind]
    constructor
    · exact recordFilter_record_eq hbounded hid .filter column _
    · exact (Ledger.skeleton_recordFilter ..).trans (hkept.trans hk)

/-! ## Instructions -/

/-- Records what one instruction says about the conditions of the statement. -/
def filterInstr (s : Scene) (l : Ledger) (pos : Nat) (i : Instr) : Guarded Ledger :=
  match i.opcode with
  | .seek _ => recordRange s l pos .entry
  | .bound _ => recordRange s l pos .exit
  | .compare relation => recordComparison s l pos relation
  | .rowidLookup => recordLookup s l pos
  | .column => recordColumn s l pos
  | .truth _ => if s.program.instrs.findIdx? Filter.isTruth == some pos then recordNullTests s l
    else pure l
  | _ => pure l

/-- Records all columns that the statement is filtered by. -/
def filters (s : Scene) (l : Ledger) : Guarded Ledger := visit s.program l (filterInstr s)

theorem filterInstr_eq (hp : s.program.Narrow) (hs : s.schema.Stored) (h : l.Bounded s.openings)
    (hi : s.program.at? pos = some i) :
    filterInstr s l pos i = pure (Filter.recordInstr s l pos i) := by
  rw [filterInstr, Filter.recordInstr]
  cases i.opcode with
  | seek edge => exact recordRange_eq hp hs h hi .entry
  | bound edge => exact recordRange_eq hp hs h hi .exit
  | compare relation => exact recordComparison_eq hp h hi relation
  | rowidLookup => exact recordLookup_eq hp h hi
  | column => exact recordColumn_eq h hi
  | truth test =>
    dsimp only
    split
    · exact recordNullTests_eq h
    · rfl
  | _ => rfl

/-- The filters are recorded, whatever the ledger holds already. -/
theorem filters_eq (hp : s.program.Narrow) (hs : s.schema.Stored) (h : l.Bounded s.openings) :
    filters s l = pure (Filter.record s l) := by
  refine (visit_eq (P := fun k => k.skeleton = l.skeleton) rfl fun k pos i hi hk => ⟨?_, ?_⟩).1
  · exact filterInstr_eq hp hs (h.of_skeleton_eq hk) hi
  · exact (Filter.recordInstr_sees s k hi).sighted.skeleton_eq.trans hk

end IndexAdvisor.Guarded
