import IndexAdvisor.Filter.Basic
import IndexAdvisor.Proofs.Filter.Range
import IndexAdvisor.Proofs.Ledger.Sighting

/-!
# What the search for filters records

Each kind of instruction is looked at by itself, and whatever it says is recorded as notes that the
skeleton of the ledger decides (`recordInstr_sees`), each about a column that its entry has. A
program says what its instructions say: `Filter.record_sees`, and so `Filter.record_records`.

The notes are kept with the row they stem from. A comparison and a lookup by a row number of another
cursor stem from the rows that read the columns, and everything else from the row of the instruction
itself.
-/

namespace IndexAdvisor

open Ledger (Records)

/-! ## Columns that an instruction reads -/

namespace Scene

variable (s : Scene) (base l : Ledger)

theorem columnReadBy?_skeleton (i : Instr) (pos : Nat) :
    s.columnReadBy? l.skeleton i pos = s.columnReadBy? l i pos := by
  unfold columnReadBy?
  rcases s.openings.of? i pos with _ | id
  · rfl
  · rw [Option.bind_eq_bind, Option.bind_some, Option.bind_eq_bind, Option.bind_some,
      Ledger.usage?_skeleton]
    rcases l.usage? id with _ | u
    · rfl
    · rfl

variable {s base l}

theorem columnReadBy?_of_skeleton_eq (h : l.skeleton = base.skeleton) (i : Instr) (pos : Nat) :
    s.columnReadBy? l i pos = s.columnReadBy? base i pos :=
  Ledger.eq_of_skeleton_eq (g := (s.columnReadBy? · i pos)) (columnReadBy?_skeleton s · i pos) h

theorem columnRead?_of_skeleton_eq (h : l.skeleton = base.skeleton) :
    s.columnRead? l = s.columnRead? base := by
  funext pos
  unfold columnRead?
  rcases s.program.at? pos with _ | i
  · rfl
  · exact columnReadBy?_of_skeleton_eq h i pos

theorem columnIn?_of_skeleton_eq (h : l.skeleton = base.skeleton) (pos : Nat) (register : Int) :
    s.columnIn? l pos register = s.columnIn? base pos register := by
  rw [columnIn?, columnIn?, columnRead?_of_skeleton_eq h]

theorem columnReadBy?_fits {i : Instr} {pos id : Nat} {column : String}
    (h : s.columnReadBy? base i pos = some (id, column)) (clause : Clause) :
    (Note.column id clause column).Fits s.schema base := by
  unfold columnReadBy? at h
  obtain ⟨id', -, h⟩ := Option.bind_eq_some_iff.1 h
  obtain ⟨u, hu, h⟩ := Option.bind_eq_some_iff.1 h
  intro v hv
  split at h
  · obtain ⟨position, -, h⟩ := Option.bind_eq_some_iff.1 h
    obtain ⟨name, hname, h⟩ := Option.bind_eq_some_iff.1 h
    obtain ⟨rfl, rfl⟩ := Prod.mk.inj (Option.some.inj h)
    obtain rfl := Option.some.inj (hu.symm.trans hv)
    exact Usage.mem_entryColumns_of_columnAt? hname
  · obtain ⟨name, hname, h⟩ := Option.bind_eq_some_iff.1 h
    obtain ⟨rfl, rfl⟩ := Prod.mk.inj (Option.some.inj h)
    obtain rfl := Option.some.inj (hu.symm.trans hv)
    exact Usage.mem_entryColumns_of_rowidColumn? hname
  · cases h

theorem columnRead?_fits {pos id : Nat} {column : String}
    (h : s.columnRead? base pos = some (id, column)) (clause : Clause) :
    (Note.column id clause column).Fits s.schema base := by
  obtain ⟨i, -, h⟩ := Option.bind_eq_some_iff.1 h
  exact columnReadBy?_fits h clause

/-- What is read is read from the entry that the row addresses. -/
theorem of?_of_columnReadBy? {i : Instr} {pos id : Nat} {column : String}
    (h : s.columnReadBy? base i pos = some (id, column)) : s.openings.of? i pos = some id := by
  unfold columnReadBy? at h
  obtain ⟨id', hid, h⟩ := Option.bind_eq_some_iff.1 h
  obtain ⟨u, -, h⟩ := Option.bind_eq_some_iff.1 h
  split at h
  · obtain ⟨position, -, h⟩ := Option.bind_eq_some_iff.1 h
    obtain ⟨name, -, h⟩ := Option.bind_eq_some_iff.1 h
    obtain ⟨rfl, -⟩ := Prod.mk.inj (Option.some.inj h)
    exact hid
  · obtain ⟨name, -, h⟩ := Option.bind_eq_some_iff.1 h
    obtain ⟨rfl, -⟩ := Prod.mk.inj (Option.some.inj h)
    exact hid
  · cases h

theorem columnIn?_fits {pos id : Nat} {register : Int} {column : String}
    (h : s.columnIn? base pos register = some (id, column)) (clause : Clause) :
    (Note.column id clause column).Fits s.schema base := by
  obtain ⟨writer, -, h⟩ := Option.bind_eq_some_iff.1 h
  exact columnRead?_fits h clause

theorem entryAt?_of_columnRead? {pos id : Nat} {column : String}
    (h : s.columnRead? base pos = some (id, column)) :
    s.entryAt? pos = some id := by
  obtain ⟨i, hi, h⟩ := Option.bind_eq_some_iff.1 h
  rw [entryAt?, hi, Option.bind_some]
  exact of?_of_columnReadBy? h

/-- A read of a column, as a sighting for a clause. -/
def readSeen? (s : Scene) (l : Ledger) (clause : Clause) (pos : Nat) : Option Sighting :=
  (s.columnRead? l pos).map fun r => ⟨pos, .column r.1 clause r.2⟩

theorem sees_read (s : Scene) (base : Ledger) (clause : Clause) (pos : Nat) :
    Sees s base (s.readSeen? base clause pos).toList fun l =>
      (s.columnRead? base pos).elim l fun r => l.record r.1 clause r.2 := by
  unfold readSeen?
  rcases hr : s.columnRead? base pos with _ | r
  · exact sees_id s base
  · exact sees_record (columnRead?_fits hr clause) fun _ _ _ => entryAt?_of_columnRead? hr

end Scene

/-! ## Instructions -/

namespace Filter

variable (s : Scene) (base : Ledger) (pos : Nat) (i : Instr)

theorem mem_entryColumns_of_keyColumns {u : Usage} {key : KeyRun} {column : String}
    (h : column ∈ keyColumns u s.schema key) : column ∈ u.entryColumns s.schema := by
  rw [keyColumns] at h
  split at h
  · exact List.mem_of_mem_take h
  · exact Usage.mem_entryColumns_of_rowidColumn? (Option.mem_toList.1 h)

theorem comparisonText_eq (column relation constant : String) :
    comparisonText column relation constant = quoteName column ++ (relation ++ constant) :=
  String.append_assoc ..

/-- What is found about a key, with the comparison if the register holds a constant. -/
def findingSeen (pos id : Nat) (f : KeyFinding) : List Sighting :=
  ⟨pos, .column id .filter f.column⟩ ::
    (f.constant.map fun c => ⟨pos, .filter id (comparisonText f.column f.relation.sql c)⟩).toList

theorem recordFinding_sees {id : Nat} {f : KeyFinding}
    (hfits : (Note.column id .filter f.column).Fits s.schema base)
    (hthrough : s.entryAt? pos = some id) :
    Sees s base (findingSeen pos id f) fun l => recordFinding id l f := by
  unfold findingSeen recordFinding
  have hcolumn := sees_record hfits fun _ _ _ => hthrough
  rcases f.constant with _ | constant
  · exact hcolumn
  · exact hcolumn.then (sees_recordFilter hfits (comparisonText_eq ..))

theorem rangeFindings_skeleton (l : Ledger) (which : RangeEnd) :
    rangeFindings s l.skeleton pos i which = rangeFindings s l pos i which := by
  unfold rangeFindings
  rcases s.openings.of? i pos with _ | id
  · rfl
  rcases rangeEdge? which i with _ | ⟨edge, key⟩
  · rfl
  dsimp only
  rw [Ledger.usage?_skeleton]
  rcases l.usage? id with _ | u
  · rfl
  · rfl

theorem rangeFindings_fits {which : RangeEnd} {id : Nat} (hid : s.openings.of? i pos = some id)
    {f : KeyFinding} (hf : f ∈ rangeFindings s base pos i which) :
    (Note.column id .filter f.column).Fits s.schema base := by
  intro u hu
  unfold rangeFindings at hf
  split at hf
  · next hid' _ =>
    obtain rfl := Option.some.inj (hid.symm.trans hid')
    rw [hu] at hf
    obtain ⟨c, hc, rfl⟩ := List.mem_map.1 hf
    exact mem_entryColumns_of_keyColumns s (List.fst_mem_of_mem_zipIdx hc)
  · cases hf

/-- What an end of a range says about the columns of its key. -/
def rangeSeen (s : Scene) (l : Ledger) (pos : Nat) (i : Instr) (which : RangeEnd) : List Sighting :=
  (s.openings.of? i pos).elim [] fun id => (rangeFindings s l pos i which).flatMap
    (findingSeen pos id)

variable {s base pos i}

theorem recordRange_sees (hi : s.program.at? pos = some i) (which : RangeEnd) :
    Sees s base (rangeSeen s base pos i which) fun l => recordRange s l pos i which := by
  simp only [recordRange_eq]
  unfold rangeSeen
  rcases hid : s.openings.of? i pos with _ | id
  · exact sees_id s base
  have hthrough : s.entryAt? pos = some id := by rw [Scene.entryAt?, hi, Option.bind_some, hid]
  have hfound := sees_foldl (rangeFindings s base pos i which) fun f hf =>
    recordFinding_sees s base pos (rangeFindings_fits s base pos i hid hf) hthrough
  apply hfound.congr
  intro l hl
  rw [Ledger.eq_of_skeleton_eq (g := (rangeFindings s · pos i which))
    (rangeFindings_skeleton s pos i · which) hl]

/-- A ledger with the comparison of a column to a constant, if the register holds one. -/
def reconstructed (s : Scene) (pos : Nat) (seen : Ledger) (id : Nat) (column : String)
    (relation : Relation) (constant : Int) : Ledger :=
  match s.valueIn? pos constant with
  | none => seen
  | some text =>
    seen.recordFilter id (comparisonText column
      (if skipsRow (s.program.jumpTarget? pos) then relation.negate else relation).sql text)

/-- The comparison of a column to a constant, if the register holds one. -/
def reconstruction? (s : Scene) (pos id : Nat) (column : String) (relation : Relation)
    (constant : Int) :
    Option Sighting :=
  (s.valueIn? pos constant).map fun text =>
    ⟨pos, .filter id (comparisonText column
      (if skipsRow (s.program.jumpTarget? pos) then relation.negate else relation).sql text)⟩

theorem reconstructed_sees {seen : List Sighting} {f : Ledger → Ledger} (h : Sees s base seen f)
    {id : Nat} {column : String} (hfits : (Note.column id .filter column).Fits s.schema base)
    (pos : Nat) (relation : Relation) (constant : Int) :
    Sees s base (seen ++ (reconstruction? s pos id column relation constant).toList) fun l =>
      reconstructed s pos (f l) id column relation constant := by
  unfold reconstruction? reconstructed
  rcases s.valueIn? pos constant with _ | text
  · exact h.then (sees_id s base)
  · exact h.then (sees_recordFilter hfits (comparisonText_eq ..))

/-- The read of the column whose value a register holds. -/
def columnInSeen? (s : Scene) (l : Ledger) (pos : Nat) (register : Int) : Option Sighting :=
  (s.program.lastWriter pos register).bind (s.readSeen? l .filter)

theorem columnIn_sees (s : Scene) (base : Ledger) (pos : Nat) (register : Int) :
    Sees s base (columnInSeen? s base pos register).toList fun l =>
      (s.columnIn? base pos register).toList.foldl (fun l r => l.record r.1 .filter r.2) l := by
  unfold columnInSeen? Scene.columnIn?
  rcases s.program.lastWriter pos register with _ | writer
  · exact sees_id s base
  · apply (s.sees_read base .filter writer).congr
    intro l _
    rw [Option.bind_some]
    rcases s.columnRead? base writer with _ | r
    · rfl
    · rfl

/-- What a comparison says: the columns on both sides, and the comparison itself if one side is a
constant. -/
def comparisonSeen (s : Scene) (l : Ledger) (pos : Nat) (i : Instr) (relation : Relation) :
    List Sighting :=
  match i.n1, i.n3 with
  | some right, some left =>
    let columns := (columnInSeen? s l pos right).toList ++ (columnInSeen? s l pos left).toList
    match s.columnIn? l pos right, s.columnIn? l pos left with
    | none, some (id, column) => columns ++ (reconstruction? s pos id column relation right).toList
    | some (id, column), none =>
      columns ++ (reconstruction? s pos id column relation.flip left).toList
    | _, _ => columns
  | _, _ => []

theorem recordComparison_sees (relation : Relation) :
    Sees s base (comparisonSeen s base pos i relation) fun l =>
      recordComparison s l pos i relation := by
  unfold comparisonSeen recordComparison
  rcases i.n1 with _ | right
  · exact sees_id s base
  rcases i.n3 with _ | left
  · exact sees_id s base
  dsimp only
  -- the columns on both sides come first, whatever is reconstructed afterwards
  have hseen := (columnIn_sees s base pos right).then (columnIn_sees s base pos left)
  simp only [← List.foldl_append] at hseen
  have hread {l : Ledger} (hl : l.skeleton = base.skeleton) :
      s.columnIn? l pos right = s.columnIn? base pos right ∧
        s.columnIn? l pos left = s.columnIn? base pos left :=
    ⟨Scene.columnIn?_of_skeleton_eq hl pos right, Scene.columnIn?_of_skeleton_eq hl pos left⟩
  have hfits {register : Int} {r : Nat × String} (h : s.columnIn? base pos register = some r) :
      (Note.column r.1 .filter r.2).Fits s.schema base := Scene.columnIn?_fits h .filter
  rcases hright : s.columnIn? base pos right with _ | ⟨id, column⟩
  all_goals rw [hright] at hseen hread
  · rcases hleft : s.columnIn? base pos left with _ | ⟨id, column⟩
    all_goals rw [hleft] at hseen hread
    · apply hseen.congr
      intro l hl
      rw [(hread hl).1, (hread hl).2]
    · apply (reconstructed_sees hseen (hfits hleft) pos relation right).congr
      intro l hl
      rw [(hread hl).1, (hread hl).2]
      rfl
  · rcases hleft : s.columnIn? base pos left with _ | _
    all_goals rw [hleft] at hseen hread
    · apply (reconstructed_sees hseen (hfits hright) pos relation.flip left).congr
      intro l hl
      rw [(hread hl).1, (hread hl).2]
      rfl
    · apply hseen.congr
      intro l hl
      rw [(hread hl).1, (hread hl).2]

/-- A ledger with the key that an entry is looked up by, and what it is compared with, if that is
known. -/
def keyed (s : Scene) (pos : Nat) (i : Instr) (id : Nat) (l : Ledger) (key : String) : Ledger :=
  match i.n3.bind (s.valueIn? pos) with
  | some constant => (l.record id .filter key).recordFilter id (comparisonText key "=" constant)
  | none => l.record id .filter key

/-- The column that was read into the register of the key, where another entry is looked up by
it. -/
def fedBy? (s : Scene) (pos : Nat) (i : Instr) (l : Ledger) : Option (Nat × String) := do
  let writer ← s.program.lastWriter pos (← i.n3)
  if (s.program.opcodeAt? writer) == some .column then s.columnRead? l writer else none

/-- The key comes first, and what the entry is fed by is read from a ledger that holds the key. -/
theorem recordLookup_eq (l : Ledger) :
    recordLookup s l pos i = (s.openings.of? i pos).elim l fun id =>
    let own := ((l.usage? id).bind (·.rowidColumn? s.schema)).elim l (keyed s pos i id l)
    (fedBy? s pos i own).elim own fun r => own.record r.1 .filter r.2 := by
  rw [recordLookup]
  rcases s.openings.of? i pos with _ | id
  · rfl
  dsimp only [Option.elim_some]
  rcases (l.usage? id).bind (·.rowidColumn? s.schema) with _ | key
  · dsimp only [Option.elim_none]
    rw [fedBy?]
    split
    · next hr => rw [hr, Option.elim_some]
    · next hr => rw [hr, Option.elim_none]
  · dsimp only [Option.elim_some]
    rw [keyed]
    rcases i.n3.bind (s.valueIn? pos) with _ | constant
    all_goals
      dsimp only
      rw [fedBy?]
      split
      · next hr => rw [hr, Option.elim_some]
      · next hr => rw [hr, Option.elim_none]

/-- The key that an entry is looked up by, with the comparison if it is a constant. -/
def keySeen (s : Scene) (pos : Nat) (i : Instr) (id : Nat) (key : String) : List Sighting :=
  ⟨pos, .column id .filter key⟩ ::
    ((i.n3.bind (s.valueIn? pos)).map fun c => ⟨pos, .filter id (comparisonText key "=" c)⟩).toList

/-- The row that reads the column which an entry is looked up by. -/
def feeder? (s : Scene) (pos : Nat) (i : Instr) : Option Nat :=
  i.n3.bind fun register => (s.program.lastWriter pos register).bind fun writer =>
    if s.program.opcodeAt? writer == some .column then some writer else none

theorem fedBy?_eq (s : Scene) (pos : Nat) (i : Instr) (l : Ledger) :
    fedBy? s pos i l = (feeder? s pos i).bind (s.columnRead? l) := by
  rw [fedBy?, feeder?]
  simp only [Option.bind_eq_bind, Option.bind_assoc]
  congr 1
  funext register
  congr 1
  funext writer
  split
  · rfl
  · rfl

/-- What a lookup by row number says: the key, and the column it is fed by. -/
def lookupSeen (s : Scene) (l : Ledger) (pos : Nat) (i : Instr) : List Sighting :=
  (s.openings.of? i pos).elim [] fun id =>
    ((l.usage? id).bind (·.rowidColumn? s.schema)).elim [] (keySeen s pos i id) ++
      ((feeder? s pos i).bind (s.readSeen? l .filter)).toList

theorem recordLookup_sees (hi : s.program.at? pos = some i) :
    Sees s base (lookupSeen s base pos i) fun l => recordLookup s l pos i := by
  simp only [recordLookup_eq]
  unfold lookupSeen
  rcases hid : s.openings.of? i pos with _ | id
  · exact sees_id s base
  have hthrough : s.entryAt? pos = some id := by rw [Scene.entryAt?, hi, Option.bind_some, hid]
  have hkey : Sees s base (((base.usage? id).bind (·.rowidColumn? s.schema)).elim []
      (keySeen s pos i id)) fun l =>
      ((l.usage? id).bind (·.rowidColumn? s.schema)).elim l (keyed s pos i id l) := by
    refine sees_found (fun l => (l.usage? id).bind (·.rowidColumn? s.schema))
      (keyed s pos i id) ?_ ?_
    · intro l
      exact Ledger.bind_usage?_of_skeleton_eq (fun _ => rfl) (Ledger.skeleton_skeleton l) id
    · intro key hkey
      have hfits : (Note.column id .filter key).Fits s.schema base := by
        intro u hu
        rw [hu] at hkey
        exact Usage.mem_entryColumns_of_rowidColumn? hkey
      have hcolumn := sees_record hfits fun _ _ _ => hthrough
      unfold keySeen keyed
      rcases i.n3.bind (s.valueIn? pos) with _ | constant
      · exact hcolumn
      · exact hcolumn.then (sees_recordFilter hfits (comparisonText_eq ..))
  have hsource : Sees s base ((feeder? s pos i).bind (s.readSeen? base .filter)).toList fun l =>
      (fedBy? s pos i l).elim l fun r => l.record r.1 .filter r.2 := by
    simp only [fedBy?_eq]
    rcases feeder? s pos i with _ | writer
    · exact sees_id s base
    · apply (s.sees_read base .filter writer).congr
      intro l hl
      rw [Option.bind_some, Scene.columnRead?_of_skeleton_eq hl]
  exact hkey.then hsource

/-- What a read of a column says if it is read for a test. -/
def columnSeen (s : Scene) (l : Ledger) (pos : Nat) (i : Instr) : List Sighting :=
  (s.program.opcodeAt? (pos + 1)).elim [] fun following =>
    if consumesColumn following then []
    else (s.columnReadBy? l i pos).elim [] fun r => [⟨pos, .column r.1 .filter r.2⟩]

theorem recordColumn_sees (hi : s.program.at? pos = some i) :
    Sees s base (columnSeen s base pos i) fun l => recordColumn s l pos i := by
  unfold columnSeen recordColumn
  rcases s.program.opcodeAt? (pos + 1) with _ | following
  · exact sees_id s base
  rw [Option.elim_some]
  dsimp only
  rcases consumesColumn following with _ | _
  · have hread (r : Nat × String) (hr : s.columnReadBy? base i pos = some r) :
        Sees s base [⟨pos, .column r.1 .filter r.2⟩] fun l => l.record r.1 .filter r.2 := by
      refine sees_record (Scene.columnReadBy?_fits hr .filter) fun _ _ _ => ?_
      rw [Scene.entryAt?, hi, Option.bind_some]
      exact Scene.of?_of_columnReadBy? hr
    apply (sees_found (s.columnReadBy? · i pos) (fun l r => l.record r.1 .filter r.2)
      (s.columnReadBy?_skeleton · i pos) hread).congr
    intro l _
    rcases s.columnReadBy? l i pos with _ | r
    · rfl
    · rfl
  · exact sees_id s base

variable (s base)

theorem nullTarget?_skeleton (l : Ledger) (refs : List Sql.TableRef) (ref : Sql.ColumnRef) :
    nullTarget? s l.skeleton refs ref = nullTarget? s l refs ref := by
  have hcolumn : tableColumn? s l.skeleton = tableColumn? s l := by
    funext id column
    unfold tableColumn?
    exact Ledger.bind_usage?_of_skeleton_eq (fun _ => rfl) (Ledger.skeleton_skeleton l) id
  have hindex (id : Nat) : (l.skeleton.usage? id).any Usage.isIndex =
      (l.usage? id).any Usage.isIndex := by
    rw [Ledger.usage?_skeleton]
    rcases l.usage? id with _ | u
    · rfl
    · rfl
  unfold nullTarget? tablesWith
  simp only [hcolumn, hindex, Ledger.find?_skeleton, Ledger.size_skeleton]

/-- A test for NULL is about a column of a table. -/
theorem nullTarget?_table {refs : List Sql.TableRef} {ref : Sql.ColumnRef} {id : Nat}
    {column : String} (h : nullTarget? s base refs ref = some (id, column)) :
    tableColumn? s base id ref.column = some column ∧ ∀ u, base.usage? id = some u →
      u.isIndex = false := by
  unfold nullTarget? at h
  split at h
  · obtain ⟨table, -, h⟩ := Option.bind_eq_some_iff.1 h
    obtain ⟨id', hid, h⟩ := Option.bind_eq_some_iff.1 h
    obtain ⟨column', hcolumn, h⟩ := Option.bind_eq_some_iff.1 h
    obtain ⟨rfl, rfl⟩ := Prod.mk.inj (Option.some.inj h)
    refine ⟨hcolumn, fun u hu => ?_⟩
    obtain ⟨v, hv, hof⟩ := Ledger.find?_eq_some hid
    obtain rfl := Option.some.inj (hv.symm.trans hu)
    exact Usage.isIndex_of_isOf_table hof
  · split at h
    · next only honly =>
      obtain rfl := Option.some.inj h
      have hmem : (id, column) ∈ tablesWith s base ref.column := by
        rw [honly]
        exact List.mem_singleton.2 rfl
      obtain ⟨id', -, htarget⟩ := List.mem_filterMap.1 hmem
      split at htarget
      · cases htarget
      · next htable =>
        obtain ⟨column', hcolumn, htarget⟩ := Option.map_eq_some_iff.1 htarget
        obtain ⟨rfl, rfl⟩ := Prod.mk.inj htarget
        refine ⟨hcolumn, fun u hu => ?_⟩
        rw [hu, Option.any_some] at htable
        exact Bool.eq_false_iff.2 htable
    · cases h

theorem nullTarget?_fits {refs : List Sql.TableRef} {ref : Sql.ColumnRef} {id : Nat}
    {column : String} (h : nullTarget? s base refs ref = some (id, column)) :
    (Note.column id .filter column).Fits s.schema base := by
  obtain ⟨hcolumn, htable⟩ := nullTarget?_table s base h
  intro u hu
  rw [tableColumn?, hu] at hcolumn
  rw [Usage.entryColumns, htable u hu]
  exact List.mem_of_find?_eq_some hcolumn

/-- The column of a test for NULL, and the test. -/
def nullTestSeen (pos : Nat) (negated : Bool) (r : Nat × String) : List Sighting :=
  [⟨pos, .column r.1 .filter r.2⟩, ⟨pos, .filter r.1 (nullTestText r.2 negated)⟩]

/-- What the tests for NULL in the text say. -/
def nullTestsSeen (s : Scene) (l : Ledger) (pos : Nat) : List Sighting :=
  (Sql.nullTests s.tokens).flatMap fun test =>
    (nullTarget? s l (Sql.tableRefs s.tokens) test.column).elim [] (nullTestSeen pos test.negated)

theorem recordNullTests_sees (pos : Nat) :
    Sees s base (nullTestsSeen s base pos) fun l => recordNullTests s l := by
  unfold nullTestsSeen recordNullTests
  apply sees_foldl
  intro test _
  have htest (r : Nat × String) (hr : nullTarget? s base (Sql.tableRefs s.tokens)
      test.column = some r) :
      Sees s base (nullTestSeen pos test.negated r) fun l =>
        (l.record r.1 .filter r.2).recordFilter r.1 (nullTestText r.2 test.negated) := by
    have hfits := nullTarget?_fits s base hr
    refine (sees_record hfits fun u hu hindex => ?_).then
      (sees_recordFilter hfits (String.append_assoc ..))
    rw [(nullTarget?_table s base hr).2 u hu] at hindex
    cases hindex
  apply (sees_found (fun l => nullTarget? s l (Sql.tableRefs s.tokens) test.column)
    (fun l r => (l.record r.1 .filter r.2).recordFilter r.1 (nullTestText r.2 test.negated))
    (fun l => nullTarget?_skeleton s l _ _) htest).congr
  intro l _
  rcases nullTarget? s l (Sql.tableRefs s.tokens) test.column with _ | r
  · rfl
  · rfl

/-- What one instruction says about the conditions of the statement. -/
def instrSeen (s : Scene) (l : Ledger) (pos : Nat) (i : Instr) : List Sighting :=
  match i.opcode with
  | .seek _ => rangeSeen s l pos i .entry
  | .bound _ => rangeSeen s l pos i .exit
  | .compare relation => comparisonSeen s l pos i relation
  | .rowidLookup => lookupSeen s l pos i
  | .column => columnSeen s l pos i
  | .truth _ => if s.program.instrs.findIdx? isTruth == some pos then nullTestsSeen s l pos else []
  | _ => []

theorem recordInstr_sees (hi : s.program.at? pos = some i) :
    Sees s base (instrSeen s base pos i) fun l => recordInstr s l pos i := by
  unfold instrSeen recordInstr
  generalize i.opcode = opcode
  cases opcode with
  | seek edge => exact recordRange_sees hi .entry
  | bound edge => exact recordRange_sees hi .exit
  | compare relation => exact recordComparison_sees relation
  | rowidLookup => exact recordLookup_sees hi
  | column => exact recordColumn_sees hi
  | truth test =>
    rcases s.program.instrs.findIdx? isTruth == some pos with _ | _
    · exact sees_id s base
    · exact recordNullTests_sees s base pos
  | _ => exact sees_id s base

/-- All that is seen about the conditions of the statement. -/
def sightings (s : Scene) (l : Ledger) : List Sighting :=
  s.program.instrs.zipIdx.flatMap fun entry => instrSeen s l entry.2 entry.1

theorem record_sees : Sees s base (sightings s base) fun l => record s l := by
  unfold sightings record Program.visit
  apply sees_foldl
  intro entry hentry
  exact recordInstr_sees s base (List.mem_zipIdx_iff_getElem?.1 hentry)

/-- The search for filters enters notes that the skeleton decides. -/
theorem record_records : Records s.schema base fun l => record s l := (record_sees s base).records

end Filter

end IndexAdvisor
