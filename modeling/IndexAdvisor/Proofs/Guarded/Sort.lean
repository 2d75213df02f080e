import IndexAdvisor.Proofs.Guarded.Filter
import IndexAdvisor.Proofs.Sort.Sighted
import IndexAdvisor.Proofs.Sort.Width

/-!
# Guarded orders

A key of a sort step is followed from register to register, through copies and through the sorters
of earlier steps, by two searches that call each other. What a pseudo cursor reads is the field of a
record, which adds an operand to a register. Both searches count the registers they have come
through, and the count ends every walk, also where pseudo cursors read each other's records: they
nest no more calls than they may (`keySource_eq`).

The registers of a record lie after an operand, no further than another operand counts, however many
keys the sorter declares. The entries that are walked in stored order are those that the rows
address, and what has been sorted by already leaves the skeleton as it is (`orders_eq`).
-/

namespace IndexAdvisor.Guarded

variable {s : Scene} {l : Ledger} {p : Program} {pos id depth : Nat} {i : Instr}
  {terms : List Sql.SortTerm}

/-! ## Where a key comes from -/

/-- The record that the insert at a position stores. -/
def recordOf (p : Program) (insertPos : Nat) : Guarded (Option Nat) := do
  let insert ← instrAt p insertPos
  let some register := insert.n2 | return none
  let some pos ← lastWriter p insertPos register | return none
  let i ← instrAt p pos
  return if i.opcode = .makeRecord then some pos else none

/-- Whether the instruction at a position reads through a pseudo cursor. -/
def readsPseudo (p : Program) (pos : Nat) : Guarded Bool := test p (Sort.readsPseudo p) pos

mutual

/-- The position of the instruction that read the column in a register of the record built at a
position, after some copies and sorters. -/
def keySource (p : Program) : (calls pos : Nat) → (register : Int) → (depth : Nat) →
    Guarded (Option Nat)
  | 0, _, _, _ => throw .unended
  | calls + 1, pos, register, depth => do
    if depth > 4 then return none
    let some writer ← searchBack p pos (test p (·.writes register))
        (test p Sort.startsLoop) | return none
    let i ← instrAt p writer
    match i.opcode with
    | .column =>
      if ← readsPseudo p writer then throughSorter p calls writer (depth + 1)
        else return some writer
    | .rowid => return some writer
    | .copy =>
      let some source := i.n1 | return none
      keySource p calls writer source (depth + 1)
    | _ => return none

/-- The same for the register that a read through a pseudo cursor goes back to. -/
def throughSorter (p : Program) : (calls pos depth : Nat) → Guarded (Option Nat)
  | 0, _, _ => throw .unended
  | calls + 1, pos, depth => do
    let read ← instrAt p pos
    let some pseudo := read.n1 | return none
    let some field := read.n2 | return none
    let some dataPos ← searchBack p pos (test p fun i => i.opcode == .sorterData && i.n3 ==
        some pseudo) never
      | return none
    let data ← instrAt p dataPos
    let some sorter := data.n1 | return none
    let some insertPos ← searchBack p dataPos (test p (·.isOn .sorterInsert sorter))
        never | return none
    let some recordPos ← recordOf p insertPos | return none
    let record ← instrAt p recordPos
    let some first := record.n1 | return none
    let register ← word (first + field)
    keySource p calls recordPos register depth

end

theorem recordOf_eq (hi : p.at? pos = some i) : recordOf p pos = pure (Sort.recordOf? p pos i) := by
  rw [recordOf, instrAt_eq hi, pure_bind, Sort.recordOf?]
  rcases i.n2 with _ | register
  · rfl
  · dsimp only [Option.bind_eq_bind]
    rw [lastWriter_eq, pure_bind, Option.bind_some]
    rcases hwriter : p.lastWriter pos register with _ | writer
    · rfl
    · obtain ⟨j, hj⟩ := at?_of_searchBack hwriter
      dsimp only
      rw [instrAt_eq hj, pure_bind, Option.bind_some, Program.opcodeAt?, hj, Option.map_some]
      by_cases hrecord : j.opcode = .makeRecord
      · rw [if_pos hrecord, hrecord]
        rfl
      · rw [if_neg hrecord, if_neg (by simpa using hrecord)]

theorem at?_of_recordOf? {q : Nat} (h : Sort.recordOf? p pos i = some q) :
    ∃ j, p.at? q = some j := by
  obtain ⟨register, record, -, hrecord, -⟩ := Sort.recordOf?_eq_some_iff.1 h
  exact ⟨record, hrecord.here⟩

/-- A read through a pseudo cursor is followed as far as keys are with one call less. -/
theorem throughSorter_of_keySource (hp : p.Narrow) {calls reach : Nat}
    (hkey : ∀ pos register, keySource p calls pos register depth =
      pure (Sort.source? p reach pos register))
    (hi : p.at? pos = some i) : throughSorter p (calls + 1) pos depth =
      pure ((Sort.sorterField? p pos i).bind fun field =>
        Sort.source? p reach field.1 field.2) := by
  rw [throughSorter, instrAt_eq hi, pure_bind, Sort.sorterField?]
  rcases i.n1 with _ | pseudo
  · rfl
  rcases hfield : i.n2 with _ | field
  · rfl
  dsimp only [Option.bind_eq_bind]
  rw [searchBack_never, pure_bind, Option.bind_some, Option.bind_some]
  rcases hdata : p.searchBack pos (fun i => i.opcode == .sorterData && i.n3 == some pseudo)
    Program.noEdge with
    _ | dataPos
  · rfl
  obtain ⟨data, hat⟩ := at?_of_searchBack hdata
  dsimp only
  rw [instrAt_eq hat, pure_bind, Option.bind_some, hat, Option.bind_some]
  rcases data.n1 with _ | sorter
  · rfl
  dsimp only
  rw [searchBack_never, pure_bind, Option.bind_some]
  rcases hinsert : p.searchBack dataPos (·.isOn .sorterInsert sorter) Program.noEdge
    with _ | insertPos
  · rfl
  obtain ⟨insert, hat⟩ := at?_of_searchBack hinsert
  dsimp only
  rw [recordOf_eq hat, pure_bind, Option.bind_some, hat, Option.bind_some]
  rcases hrecord : Sort.recordOf? p insertPos insert with _ | recordPos
  · rfl
  obtain ⟨record, hat⟩ := at?_of_recordOf? hrecord
  dsimp only
  rw [instrAt_eq hat, pure_bind, Option.bind_some, hat, Option.bind_some]
  rcases hfirst : record.n1 with _ | first
  · rfl
  -- the field is an operand as well, so it leaves room
  have hrange := fitsInt32_iff.1 (hp.n2 hi hfield)
  obtain ⟨hregister, -⟩ := word_registerAfter (hp.n1 hat hfirst) field hrange.1 (by omega)
  dsimp only
  rw [hregister, pure_bind]
  exact hkey ..

/-- The search for the source of a key nests no more calls than two for each register that is left
to look at, and one that looks at none; in a circle of copies as well, and between pseudo cursors
that read each other. -/
theorem keySource_eq (hp : p.Narrow) {calls : Nat} (hcalls : 2 * (Sort.sourceReach - depth) < calls)
    (pos : Nat) (register : Int) : keySource p calls pos register depth =
      pure (Sort.source? p (Sort.sourceReach - depth) pos register) := by
  have hsteps : Sort.sourceReach = 5 := rfl
  generalize hreach : Sort.sourceReach - depth = reach at hcalls
  -- the induction is on the registers that are left; a sorter takes one, as a copy does, but two
  -- calls
  induction reach generalizing calls pos register depth with
  | zero =>
    have hdeep : depth > 4 := by omega
    obtain ⟨calls, rfl⟩ := Nat.exists_eq_succ_of_ne_zero (Nat.ne_of_gt hcalls)
    rw [keySource, if_pos hdeep]
    rfl
  | succ reach ih =>
    have hdepth : ¬depth > 4 := by omega
    obtain ⟨calls, rfl⟩ : ∃ n, calls = n + 2 := ⟨calls - 2, by omega⟩
    have hnext : Sort.sourceReach - (depth + 1) = reach := by omega
    rw [keySource, if_neg hdepth, searchBack_test, pure_bind, Sort.source?]
    rcases hwriter : p.searchBack pos (·.writes register) Sort.startsLoop with _ | writer
    · rfl
    · obtain ⟨i, hi⟩ := at?_of_searchBack hwriter
      dsimp only [Option.bind_eq_bind]
      rw [instrAt_eq hi, pure_bind, Option.bind_some, hi, Option.bind_some]
      cases i.opcode with
      | column =>
        dsimp only
        rw [readsPseudo, test_eq _ hi, pure_bind]
        by_cases hpseudo : Sort.readsPseudo p i = true
        · rw [if_pos hpseudo, if_pos hpseudo]
          exact throughSorter_of_keySource hp (fun pos register =>
            ih pos register hnext (by omega)) hi
        · rw [if_neg hpseudo, if_neg hpseudo]
      | copy =>
        rcases i.n1 with _ | source
        · rfl
        · exact ih writer source hnext (by omega)
      | _ => rfl

/-- What a key comes from is an instruction of the program. -/
theorem at?_of_source? {reach writer : Nat} {register : Int}
    (h : Sort.source? p reach pos register = some writer) :
    ∃ i, p.at? writer = some i := by
  induction reach generalizing pos register with
  | zero => cases h
  | succ reach ih =>
    rw [Sort.source?] at h
    obtain ⟨w, -, h⟩ := Option.bind_eq_some_iff.1 h
    obtain ⟨i, hi, h⟩ := Option.bind_eq_some_iff.1 h
    split at h
    · split at h
      · obtain ⟨field, -, h⟩ := Option.bind_eq_some_iff.1 h
        exact ih h
      · obtain rfl := Option.some.inj h
        exact ⟨i, hi⟩
    · obtain rfl := Option.some.inj h
      exact ⟨i, hi⟩
    · obtain ⟨source, -, h⟩ := Option.bind_eq_some_iff.1 h
      exact ih h
    · cases h

/-! ## Sort steps -/

/-- Whether the sorter opened under a cursor is read back by a loop that compares keys or
aggregates. -/
def groups (p : Program) (cursor : Int) (sortPos : Nat) : Guarded Bool := do
  let some dataPos ← searchForward p sortPos (test p (·.isOn .sorterData cursor))
      never | return false
  let found ← searchForward p dataPos (test p fun i => i.opcode == .compareKeys ||
      i.opcode == .aggregateStep)
    (test p (·.isOn .next cursor))
  return found.isSome

/-- The sort step that the insert at a position belongs to. -/
def stepOf (p : Program) (pos : Nat) (idiom : Sort.Idiom) : Guarded (Option Sort.Step) := do
  let insert ← instrAt p pos
  let some cursor := insert.n1 | return none
  let some openPos ← searchBack p pos (test p (·.isOn idiom.opening cursor)) never | return none
  let some sortPos ← searchForward p pos (test p (·.isOn idiom.sort cursor)) never | return none
  if ← groups p cursor sortPos then return none
  let some recordPos ← recordOf p pos | return none
  let record ← instrAt p recordPos
  let some first := record.n1 | return none
  let some count := record.n2 | return none
  if count < 0 then return none
  let opening ← instrAt p openPos
  return some { opening, recordPos, first, count := count.toNat }

/-- The entries and columns that a sort step is ordered by, in order. -/
def stepKeys (s : Scene) (l : Ledger) (step : Sort.Step) (terms : List Sql.SortTerm) :
    Guarded (List (Nat × String)) :=
  collect (fun (field : Nat) => do
    if terms[field]? == some none then return none
    let register ← word (step.first + (← word field))
    let some writer ← keySource s.program nesting step.recordPos register 0 | return none
    columnRead s l writer) (List.range (step.width terms))

/-- Records the keys of all sort steps, and tells whether there was any. -/
def recordSteps (s : Scene) (l : Ledger) (terms : List Sql.SortTerm) : Guarded (Ledger × Bool) :=
  visit s.program (l, false) fun (l, found) pos i => do
    let some idiom := Sort.idiom? i.opcode | return (l, found)
    let some step ← stepOf s.program pos idiom | return (l, found)
    let keys ← stepKeys s l step terms
    let recorded ← keys.foldlM (fun l r => record l r.1 .sort r.2) l
    return (recorded, true)

theorem groups_eq (p : Program) (cursor : Int) (sortPos : Nat) :
    groups p cursor sortPos = pure (Sort.groups p cursor sortPos) := by
  rw [groups, searchForward_never, pure_bind, Sort.groups]
  rcases p.searchForward sortPos (·.isOn .sorterData cursor) Program.noEdge with _ | dataPos
  · rfl
  · dsimp only
    rw [searchForward_test, pure_bind]

theorem stepOf_eq (hi : p.at? pos = some i) (idiom : Sort.Idiom) :
    stepOf p pos idiom = pure (Sort.Step.of? p pos i idiom) := by
  rw [stepOf, instrAt_eq hi, pure_bind, Sort.Step.of?]
  rcases i.n1 with _ | cursor
  · rfl
  dsimp only [Option.bind_eq_bind]
  rw [searchBack_never, pure_bind, Option.bind_some]
  rcases hopen : p.searchBack pos (·.isOn idiom.opening cursor) Program.noEdge with _ | openPos
  · rfl
  obtain ⟨opening, hopening⟩ := at?_of_searchBack hopen
  dsimp only
  rw [searchForward_never, pure_bind, Option.bind_some]
  rcases p.searchForward pos (·.isOn idiom.sort cursor) Program.noEdge with _ | sortPos
  · rfl
  dsimp only
  rw [groups_eq, pure_bind, Option.bind_some]
  by_cases hgroups : Sort.groups p cursor sortPos = true
  · rw [if_pos hgroups, if_pos hgroups]
    rfl
  rw [if_neg hgroups, if_neg hgroups, recordOf_eq hi, pure_bind]
  rcases hrecord : Sort.recordOf? p pos i with _ | recordPos
  · rfl
  obtain ⟨record, hat⟩ := at?_of_recordOf? hrecord
  dsimp only
  rw [instrAt_eq hat, pure_bind, Option.bind_some, hat, Option.bind_some]
  rcases record.n1 with _ | first
  · rfl
  rcases record.n2 with _ | count
  · rfl
  dsimp only
  rw [Option.bind_some, Option.bind_some]
  by_cases hcount : count < 0
  · rw [if_pos hcount, if_pos hcount]
    rfl
  · rw [if_neg hcount, if_neg hcount, instrAt_eq hopening, pure_bind, hopening, Option.bind_some]
    rfl

/-- The registers of a record are counted by an operand. -/
theorem narrow_of_step? (hp : p.Narrow) {idiom : Sort.Idiom} {step : Sort.Step}
    (hidiom : Sort.idiom? i.opcode = some idiom) (hstep : Sort.Step.of? p pos i idiom = some step) :
    fitsInt32 step.first = true ∧ step.count < 0x80000000 := by
  obtain ⟨-, -, register, record, -, hrecord, -, hfirst, hcount⟩ :=
    (Sort.of?_eq_some_iff hidiom).1 hstep
  have hrange := fitsInt32_iff.1 (hp.n2 hrecord.here hcount)
  exact ⟨hp.n1 hrecord.here hfirst, by omega⟩

theorem stepKeys_eq (hp : s.program.Narrow) (h : l.Bounded s.openings) {step : Sort.Step}
    (hfirst : fitsInt32 step.first = true) (hcount : step.count < 0x80000000) :
    stepKeys s l step terms = pure (step.keys s l terms) := by
  apply collect_eq
  intro field hfield
  have hwidth : step.width terms ≤ step.count := Sort.Step.width_le_count
  have hlt := List.mem_range.1 hfield
  have hword : fitsInt64 field = true := Program.fitsInt64_iff.2 (by omega)
  obtain ⟨hregister, -⟩ := word_registerAfter hfirst field (by omega) (by omega)
  split
  · rfl
  · rw [word_eq hword, pure_bind, hregister, pure_bind, keySource_eq hp (by decide),
      pure_bind, Nat.sub_zero]
    rcases hsource : Sort.source? s.program Sort.sourceReach step.recordPos
      (registerAfter step.first field) with
      _ | writer
    · rfl
    · obtain ⟨j, hj⟩ := at?_of_source? hsource
      exact columnRead_eq h hj

theorem lt_size_of_mem_keys (h : l.Bounded s.openings) {step : Sort.Step} {r : Nat × String}
    (hr : r ∈ step.keys s l terms) : r.1 < l.size := by
  rw [Sort.Step.keys_eq] at hr
  obtain ⟨row, -, hrow⟩ := List.mem_filterMap.1 hr
  exact lt_size_of_columnRead? h hrow

theorem recordSteps_eq (hp : s.program.Narrow) (h : l.Bounded s.openings) :
    recordSteps s l terms = pure (Sort.recordSteps s l terms) := by
  refine (visit_eq (P := fun found => found.1.skeleton = l.skeleton) rfl ?_).1
  rintro ⟨k, found⟩ pos i hi hk
  have hbounded := h.of_skeleton_eq hk
  dsimp only at hk ⊢
  rw [Sort.stepKeys?]
  rcases hidiom : Sort.idiom? i.opcode with _ | idiom
  · exact ⟨rfl, hk⟩
  dsimp only [Option.bind_eq_bind]
  rw [stepOf_eq hi, pure_bind, Option.bind_some]
  rcases hstep : Sort.Step.of? s.program pos i idiom with _ | step
  · exact ⟨rfl, hk⟩
  obtain ⟨hfirst, hcount⟩ := narrow_of_step? hp hidiom hstep
  have hkeys : ∀ r ∈ step.keys s k terms, r.1 < k.size :=
    fun r hr => lt_size_of_mem_keys hbounded hr
  obtain ⟨hrecorded, hkept⟩ := foldlM_record_eq hbounded hkeys .sort
  dsimp only
  rw [stepKeys_eq hp hbounded hfirst hcount, pure_bind, hrecorded, pure_bind]
  exact ⟨rfl, hkept.trans hk⟩

/-! ## Walks -/

/-- The entry whose stored order an instruction follows. -/
def walkedEntry (s : Scene) (forward : Bool) (pos : Nat) (i : Instr) : Guarded (Option Nat) := do
  if i.opcode == .prev || (i.opcode == .next && forward) then
    let some cursor := i.n1 | return none
    let some start ← searchBack s.program pos
        (test s.program (Sort.startsWalk forward i.opcode cursor)) never
      | return none
    entryAddressed s start
  else return none

/-- The entries that are walked in stored order, each at its first walk. -/
def walks (s : Scene) (forward : Bool) : Guarded (List Nat) :=
  visit s.program [] fun found pos i => do
    let some id ← walkedEntry s forward pos i | return found
    return if found.contains id then found else found ++ [id]

/-- Records the order of one entry that is walked in stored order, unless it is sorted by something
already. -/
def recordWalk (s : Scene) (terms : List Sql.SortTerm) (l : Ledger) (id : Nat) :
    Guarded Ledger := do
  let u ← usageAt l id
  if u.sortColumns.isEmpty then
    (Sort.orderedBy s.schema (Sql.tableRefs s.tokens) u terms).foldlM
      (fun l column => record l id .sort column) l
  else return l

/-- Records the order of the entries that are walked in stored order. -/
def recordWalks (s : Scene) (l : Ledger) (terms : List Sql.SortTerm) (forward : Bool) :
    Guarded Ledger := do
  if terms.all Option.isNone then return l
  let ids ← walks s forward
  ids.foldlM (recordWalk s terms) l

/-- Records all columns that the statement is sorted by. -/
def orders (s : Scene) (l : Ledger) : Guarded Ledger := do
  let terms := Sql.sortTerms s.tokens
  if terms.isEmpty && !s.tokens.isEmpty then return l
  let (recorded, sorted) ← recordSteps s l terms
  recordWalks s recorded terms (!sorted)

theorem walkedEntry_eq (s : Scene) (forward : Bool) (pos : Nat) (i : Instr) :
    walkedEntry s forward pos i = pure (Sort.walkedEntry? s forward pos i) := by
  rw [walkedEntry, Sort.walkedEntry?]
  split
  · rcases i.n1 with _ | cursor
    · rfl
    · dsimp only [Option.bind_eq_bind]
      rw [searchBack_never, pure_bind, Option.bind_some]
      rcases hstart : s.program.searchBack pos (Sort.startsWalk forward i.opcode cursor)
        Program.noEdge with _ | start
      · rfl
      · obtain ⟨j, hj⟩ := at?_of_searchBack hstart
        dsimp only
        rw [entryAddressed_eq hj, Option.bind_some, Scene.entryAt?, hj, Option.bind_some]
  · rfl

theorem walks_eq (s : Scene) (forward : Bool) : walks s forward = pure (Sort.walks s forward) := by
  refine (visit_eq (P := fun _ => True) trivial fun found pos i _ _ => ⟨?_, trivial⟩).1
  rw [walkedEntry_eq, pure_bind]
  rcases Sort.walkedEntry? s forward pos i with _ | id <;> rfl

/-- A walk is that of an entry. -/
theorem lt_size_of_mem_walks (h : l.Bounded s.openings) {forward : Bool}
    (hid : id ∈ Sort.walks s forward) :
    id < l.size := by
  rw [← Sort.map_walkRows] at hid
  obtain ⟨walk, hwalk, rfl⟩ := List.mem_map.1 hid
  obtain ⟨i, -, hof⟩ := Option.bind_eq_some_iff.1 (Sort.entryAt?_of_mem_walkRows s forward hwalk)
  obtain ⟨u, hu⟩ := h.of? hof
  exact Ledger.lt_size_of_usage? hu

theorem recordWalk_eq (h : l.Bounded s.openings) (hid : id < l.size) :
    recordWalk s terms l id = pure (Sort.recordWalk s terms l id) := by
  obtain ⟨u, hu⟩ := Ledger.exists_usage? hid
  rw [recordWalk, usageAt_eq hu, pure_bind, Sort.recordWalk, hu]
  dsimp only
  split
  · refine (foldlM_eq_foldl (P := fun k => k.skeleton = l.skeleton) rfl
      fun k column _ hk => ⟨?_, ?_⟩).1
    · exact record_eq (h.of_skeleton_eq hk) (Ledger.lt_size_of_skeleton_eq hk hid) .sort column
    · exact (Ledger.skeleton_record ..).trans hk
  · rfl

theorem recordWalks_eq (h : l.Bounded s.openings) (forward : Bool) :
    recordWalks s l terms forward = pure (Sort.recordWalks s l terms forward) := by
  rw [recordWalks, Sort.recordWalks_eq]
  split
  · rfl
  · rw [walks_eq, pure_bind]
    refine (foldlM_eq_foldl (P := fun k => k.skeleton = l.skeleton) rfl
      fun k id hid hk => ⟨?_, ?_⟩).1
    · exact recordWalk_eq (h.of_skeleton_eq hk) (lt_size_of_mem_walks (h.of_skeleton_eq hk) hid)
    · exact (Sort.recordWalk_enters id).skeleton_eq.trans hk

/-- The orders are recorded, whatever the ledger holds already. -/
theorem orders_eq (hp : s.program.Narrow) (h : l.Bounded s.openings) :
    orders s l = pure (Sort.record s l) := by
  rw [orders, Sort.record]
  dsimp only
  split
  · rfl
  · have hkept := (Sort.recordSteps_sees s l (Sql.sortTerms s.tokens)).sighted.skeleton_eq
    rw [recordSteps_eq hp h, pure_bind]
    exact recordWalks_eq (h.of_skeleton_eq hkept) _

end IndexAdvisor.Guarded
