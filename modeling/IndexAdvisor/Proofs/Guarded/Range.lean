import IndexAdvisor.Proofs.Filter.Recorded
import IndexAdvisor.Proofs.Guarded.Ledger

/-!
# Guarded reads of columns, and key ranges

What an instruction reads is a column of an entry, and the entry is one of the ledger
(`columnRead_eq`).

A seek or a bound looks for constants in the registers of its key. These lie after its third
operand, one for each column of the key. How many columns that is cannot be left to the operand that
counts them, which may be any number: the columns of the index end first (`columnsFrom_eq`). An
index that can be stored has far fewer columns than there are words (`Schema.Stored`), so no
register is out of range (`recordRange_eq`).
-/

namespace IndexAdvisor

/-- The columns of every index can be stored: a list keeps three words of eight bytes for each text,
and no list takes 2^63 bytes or more. -/
def Schema.Stored (schema : Schema) : Prop :=
  ∀ index ∈ schema.indexes, 24 * index.columns.length < 0x8000000000000000

/-- An entry has no more columns than fit a word, the row number included. -/
theorem Schema.Stored.length_entryColumns {schema : Schema} (h : schema.Stored) {u : Usage}
    (hindex : u.isIndex = true) : (u.entryColumns schema).length < 0x1000000000000000 := by
  have hkey : (schema.primaryKeyOf? u.table).toList.length ≤ 1 := Option.length_toList_le
  have hcolumns : 24 * (schema.columnsOfIndex u.name).length < 0x8000000000000000 := by
    rw [Schema.columnsOfIndex]
    rcases hfound : schema.index? u.name with _ | index
    · show 24 * 0 < 0x8000000000000000
      omega
    · exact h index (List.mem_of_find?_eq_some hfound)
  rw [Usage.entryColumns, if_pos hindex, List.length_append]
  omega

namespace Guarded

variable {s : Scene} {l base : Ledger} {pos id place count : Nat} {i : Instr} {u : Usage}
  {register : Int}

/-! ## Columns -/

/-- The entry that the instruction at a position addresses through its first operand. -/
def entryAddressed (s : Scene) (pos : Nat) : Guarded (Option Nat) := do
  let i ← instrAt s.program pos
  return s.openings.of? i pos

/-- The column at a place of a stored entry. The row number follows the columns of an index. -/
def columnName (s : Scene) (l : Ledger) (id : Nat) (place : Int) : Guarded (Option String) := do
  if place < 0 then return none
  let u ← usageAt l id
  if u.isIndex then
    let columns := s.schema.columnsOfIndex u.name
    if place.toNat = columns.length then return s.schema.primaryKeyOf? u.table
    else return columns[place.toNat]?
  else return (s.schema.columnsOfTable u.name)[place.toNat]?

/-- The column that holds the row number of an entry. -/
def rowidColumn (s : Scene) (l : Ledger) (id : Nat) : Guarded (Option String) := do
  let u ← usageAt l id
  return u.rowidColumn? s.schema

/-- The entry and the column that the instruction at a position reads. -/
def columnRead (s : Scene) (l : Ledger) (pos : Nat) : Guarded (Option (Nat × String)) := do
  let some id ← entryAddressed s pos | return none
  let i ← instrAt s.program pos
  match i.opcode with
  | .column =>
    let some place := i.n2 | return none
    let column ← columnName s l id place
    return column.map (id, ·)
  | .rowid =>
    let column ← rowidColumn s l id
    return column.map (id, ·)
  | _ => return none

/-- The entry and the column whose value a register holds at a position. -/
def columnIn (s : Scene) (l : Ledger) (pos : Nat) (register : Int) :
    Guarded (Option (Nat × String)) := do
  let some writer ← lastWriter s.program pos register | return none
  let i ← instrAt s.program writer
  if i.opcode = .column ∨ i.opcode = .rowid then columnRead s l writer else return none

theorem entryAddressed_eq (hi : s.program.at? pos = some i) :
    entryAddressed s pos = pure (s.openings.of? i pos) := by
  rw [entryAddressed, instrAt_eq hi, pure_bind]

theorem columnName_eq (hu : l.usage? id = some u) (place : Int) :
    columnName s l id place = pure (u.columnAt? s.schema place) := by
  rw [columnName, Usage.columnAt?, usageAt_eq hu, pure_bind, Usage.entryColumns]
  by_cases hplace : place < 0
  · rw [if_pos hplace, if_pos hplace]
  · rw [if_neg hplace, if_neg hplace]
    generalize place.toNat = place
    by_cases hindex : u.isIndex = true
    · rw [if_pos hindex, if_pos hindex]
      dsimp only
      rcases Nat.lt_trichotomy place (s.schema.columnsOfIndex u.name).length with hlt | rfl | hgt
      · rw [if_neg (Nat.ne_of_lt hlt), List.getElem?_append_left hlt]
      · rw [if_pos rfl, List.getElem?_append_right (Nat.le_refl _), Nat.sub_self]
        rcases s.schema.primaryKeyOf? u.table with _ | key <;> rfl
      · -- one row number at most follows the columns
        have hkey : (s.schema.primaryKeyOf? u.table).toList.length ≤ 1 := Option.length_toList_le
        rw [if_neg (Nat.ne_of_gt hgt), List.getElem?_append_right (Nat.le_of_lt hgt),
          List.getElem?_eq_none (Nat.le_of_lt hgt), List.getElem?_eq_none (by omega)]
    · rw [if_neg hindex, if_neg hindex]

theorem rowidColumn_eq (hu : l.usage? id = some u) :
    rowidColumn s l id = pure (u.rowidColumn? s.schema) := by
  rw [rowidColumn, usageAt_eq hu, pure_bind]

theorem columnRead_eq (h : l.Bounded s.openings) (hi : s.program.at? pos = some i) :
    columnRead s l pos = pure (s.columnRead? l pos) := by
  rw [columnRead, entryAddressed_eq hi, pure_bind, Scene.columnRead?, hi, Option.bind_some,
    Scene.columnReadBy?]
  rcases hid : s.openings.of? i pos with _ | id
  · rfl
  · obtain ⟨u, hu⟩ := h.of? hid
    dsimp only [Option.bind_eq_bind]
    rw [instrAt_eq hi, pure_bind, Option.bind_some, hu, Option.bind_some]
    cases i.opcode with
    | column =>
      rcases i.n2 with _ | place
      · rfl
      · dsimp only
        rw [columnName_eq hu, pure_bind, Option.bind_some]
        rcases u.columnAt? s.schema place with _ | column <;> rfl
    | rowid =>
      dsimp only
      rw [rowidColumn_eq hu, pure_bind]
      rcases u.rowidColumn? s.schema with _ | column <;> rfl
    | _ => rfl

theorem columnIn_eq (h : l.Bounded s.openings) (pos : Nat) (register : Int) :
    columnIn s l pos register = pure (s.columnIn? l pos register) := by
  rw [columnIn, lastWriter_eq, pure_bind, Scene.columnIn?]
  rcases hwriter : s.program.lastWriter pos register with _ | writer
  · rfl
  · obtain ⟨i, hi⟩ := at?_of_searchBack hwriter
    dsimp only
    rw [instrAt_eq hi, pure_bind, Option.bind_some]
    split
    · exact columnRead_eq h hi
    · next hother =>
      have hnone : s.columnRead? l writer = none := by
        rw [Scene.columnRead?, hi, Option.bind_some, Scene.columnReadBy?]
        rcases s.openings.of? i writer with _ | id
        · rfl
        · rw [Option.bind_eq_bind, Option.bind_some]
          rcases l.usage? id with _ | u
          · rfl
          · rw [Option.bind_eq_bind, Option.bind_some]
            split
            · next hcolumn => exact absurd (.inl hcolumn) hother
            · next hrowid => exact absurd (.inr hrowid) hother
            · rfl
      rw [hnone]

/-- What is read is read from an entry. -/
theorem lt_size_of_columnRead? (h : l.Bounded s.openings) {r : Nat × String}
    (hr : s.columnRead? l pos = some r) :
    r.1 < l.size := by
  obtain ⟨i, -, hr⟩ := Option.bind_eq_some_iff.1 hr
  obtain ⟨u, hu⟩ := h.of? (Scene.of?_of_columnReadBy? hr)
  exact Ledger.lt_size_of_usage? hu

theorem lt_size_of_columnIn? (h : l.Bounded s.openings) {r : Nat × String}
    (hr : s.columnIn? l pos register = some r) : r.1 < l.size := by
  obtain ⟨writer, -, hr⟩ := Option.bind_eq_some_iff.1 hr
  exact lt_size_of_columnRead? h hr

/-- Columns of entries are recorded one after the other, which leaves the skeleton as it is. -/
theorem foldlM_record_eq (h : l.Bounded s.openings) {reads : List (Nat × String)}
    (hreads : ∀ r ∈ reads, r.1 < l.size) (clause : Clause) :
    reads.foldlM (fun l r => record l r.1 clause r.2) l =
        pure (reads.foldl (fun l r => l.record r.1 clause r.2) l) ∧
      (reads.foldl (fun l r => l.record r.1 clause r.2) l).skeleton = l.skeleton := by
  refine foldlM_eq_foldl (P := fun k : Ledger => k.skeleton = l.skeleton) rfl
    fun k r hr hk => ⟨?_, ?_⟩
  · exact record_eq (h.of_skeleton_eq hk)
      (Ledger.lt_size_of_skeleton_eq hk (hreads r hr)) clause r.2
  · exact (Ledger.skeleton_record ..).trans hk

/-! ## Key ranges -/

/-- The columns of an index entry from a place on, `count` of them at most. -/
def columnsFrom (s : Scene) (l : Ledger) (id : Nat) : (count place : Nat) → Guarded (List String)
  | 0, _ => pure []
  | count + 1, place => do
    let some column ← columnName s l id (← word place) | return []
    let rest ← columnsFrom s l id count (place + 1)
    return column :: rest

/-- The columns that the registers of a key are compared with. -/
def keyColumns (s : Scene) (l : Ledger) (id : Nat) (key : KeyRun) : Guarded (List String) := do
  let u ← usageAt l id
  if u.isIndex then columnsFrom s l id key.count 0
  else
    let column ← rowidColumn s l id
    return column.toList

/-- The other end of the range that an instruction marks one end of. -/
def partner (p : Program) (pos : Nat) (key : KeyRun) :
    Filter.RangeEnd → Guarded (Option (Edge × KeyRun))
  | .entry => do
    let some found ← searchForward p pos (test p (Filter.isPartner .exit key))
        (test p (Filter.turnsLoop key.cursor))
      | return none
    let i ← instrAt p found
    return Filter.rangeEdge? .exit i
  | .exit => do
    let some found ← searchBack p pos (test p (Filter.isPartner .entry key))
        (test p (Filter.turnsLoop key.cursor))
      | return none
    let i ← instrAt p found
    return Filter.rangeEdge? .entry i

/-- How the last column of a key is compared, given the other end of its range. -/
def relationBeside (edge : Edge) (key : KeyRun) (which : Filter.RangeEnd) :
    Option (Edge × KeyRun) → Relation
  | none => Filter.loneRelation edge which
  | some (otherEdge, otherKey) =>
    let pinned := key.count == otherKey.count && match which with
      | .entry => Filter.pinsKey edge otherEdge
      | .exit => Filter.pinsKey otherEdge edge
    if pinned || (which == .exit && key.count < otherKey.count) then .eq
      else Filter.loneRelation edge which

/-- Records one column of a key, and the comparison with the constant in its register. -/
def recordKeyColumn (s : Scene) (pos id : Nat) (key : KeyRun) (relation : Relation) (l : Ledger)
    (column : String) (place : Nat) : Guarded Ledger := do
  let own ← record l id .filter column
  let some first := key.first | return own
  let register ← word (first + (← word place))
  let some constant ← recover s.program pos register | return own
  recordFilter own id (comparisonText column relation.sql constant)

/-- Records what a seek or a bound says. -/
def recordRange (s : Scene) (l : Ledger) (pos : Nat) (which : Filter.RangeEnd) :
    Guarded Ledger := do
  let some id ← entryAddressed s pos | return l
  let i ← instrAt s.program pos
  let some (edge, key) := Filter.rangeEdge? which i | return l
  let columns ← keyColumns s l id key
  if columns.isEmpty then return l
  let other ← partner s.program pos key which
  let last := relationBeside edge key which other
  columns.zipIdx.foldlM (fun l c =>
    recordKeyColumn s pos id key (if c.2 + 1 == columns.length then last else .eq) l c.1 c.2) l

/-- The columns end before the places leave the words, however many are asked for. -/
theorem columnsFrom_eq (hs : s.schema.Stored) (hu : l.usage? id = some u)
    (hindex : u.isIndex = true) (hplace : place ≤ (u.entryColumns s.schema).length) :
    columnsFrom s l id count place = pure (((u.entryColumns s.schema).drop place).take count) := by
  induction count generalizing place with
  | zero => rfl
  | succ count ih =>
    have hlength := hs.length_entryColumns hindex
    have hword : fitsInt64 place = true := Program.fitsInt64_iff.2 (by omega)
    have hcolumn : u.columnAt? s.schema place = (u.entryColumns s.schema)[place]? := by
      rw [Usage.columnAt?, if_neg (by omega), Int.toNat_natCast]
    rw [columnsFrom, word_eq hword, pure_bind, columnName_eq hu, pure_bind, hcolumn]
    rcases Nat.lt_or_ge place (u.entryColumns s.schema).length with hlt | hge
    · rw [List.getElem?_eq_getElem hlt, List.drop_eq_getElem_cons hlt, List.take_succ_cons]
      dsimp only
      rw [ih hlt, pure_bind]
    · rw [List.getElem?_eq_none hge, List.drop_eq_nil_of_le hge]
      rfl

theorem keyColumns_eq (hs : s.schema.Stored) (hu : l.usage? id = some u) (key : KeyRun) :
    keyColumns s l id key = pure (Filter.keyColumns u s.schema key) := by
  rw [keyColumns, usageAt_eq hu, pure_bind, Filter.keyColumns]
  by_cases hindex : u.isIndex = true
  · rw [if_pos hindex, if_pos hindex, columnsFrom_eq hs hu hindex (Nat.zero_le _), List.drop_zero]
  · rw [if_neg hindex, if_neg hindex, rowidColumn_eq hu, pure_bind]

theorem length_keyColumns (hs : s.schema.Stored) (u : Usage) (key : KeyRun) :
    (Filter.keyColumns u s.schema key).length < 0x1000000000000000 := by
  rw [Filter.keyColumns]
  split
  · next hindex =>
      exact Nat.lt_of_le_of_lt (List.length_take_le' ..) (hs.length_entryColumns hindex)
  · have hkey : (u.rowidColumn? s.schema).toList.length ≤ 1 := Option.length_toList_le
    omega

theorem partner_eq (p : Program) (pos : Nat) (key : KeyRun) (which : Filter.RangeEnd) :
    partner p pos key which = pure (Filter.partner? p pos key which) := by
  cases which with
  | entry =>
    rw [partner, searchForward_test, pure_bind, Filter.partner?]
    rcases hfound : p.searchForward pos (Filter.isPartner .exit key)
      (Filter.turnsLoop key.cursor) with _ | found
    · rfl
    · obtain ⟨i, hi⟩ := at?_of_searchForward hfound
      dsimp only
      rw [instrAt_eq hi, pure_bind, Option.bind_some, hi, Option.bind_some]
  | exit =>
    rw [partner, searchBack_test, pure_bind, Filter.partner?]
    rcases hfound : p.searchBack pos (Filter.isPartner .entry key)
      (Filter.turnsLoop key.cursor) with _ | found
    · rfl
    · obtain ⟨i, hi⟩ := at?_of_searchBack hfound
      dsimp only
      rw [instrAt_eq hi, pure_bind, Option.bind_some, hi, Option.bind_some]

theorem relationBeside_partner (p : Program) (pos : Nat) (edge : Edge) (key : KeyRun)
    (which : Filter.RangeEnd) :
    relationBeside edge key which (Filter.partner? p pos key which) =
      Filter.lastRelation p pos edge key which := by
  rw [Filter.lastRelation]
  rcases Filter.partner? p pos key which with _ | ⟨otherEdge, otherKey⟩ <;> rfl

/-- A register of a key lies after an operand, no further than the columns reach. -/
theorem recordKeyColumn_eq (hp : s.program.Narrow) (h : l.Bounded s.openings) (hid : id < l.size)
    {key : KeyRun} (hfirst : ∀ first, key.first = some first → fitsInt32 first = true)
    (hplace : place < 0x1000000000000000) (relation : Relation) (column : String) :
    recordKeyColumn s pos id key relation l column place =
      pure (Filter.recordKeyColumn s pos id key relation l column place) := by
  rw [recordKeyColumn, record_eq h hid, pure_bind, Filter.recordKeyColumn]
  rcases hkey : key.first with _ | first
  · rfl
  · obtain ⟨hregister, hspacious⟩ :=
      word_registerAfter (hfirst first hkey) place (by omega) (by omega)
    have hword : fitsInt64 place = true := Program.fitsInt64_iff.2 (by omega)
    dsimp only
    rw [word_eq hword, pure_bind, hregister, pure_bind, recover_eq hp hspacious, pure_bind,
      Option.bind_some, Scene.valueIn?]
    rcases s.program.valueAt? pos (registerAfter first place) with _ | constant
    · rfl
    · exact recordFilter_record_eq h hid .filter column _

theorem skeleton_recordKeyColumn (s : Scene) (pos id : Nat) (key : KeyRun) (relation : Relation)
    (l : Ledger) (column : String) (place : Nat) :
    (Filter.recordKeyColumn s pos id key relation l column place).skeleton = l.skeleton := by
  rw [Filter.recordKeyColumn]
  split
  · exact (Ledger.skeleton_recordFilter ..).trans (Ledger.skeleton_record ..)
  · exact Ledger.skeleton_record ..

/-- The key of an instruction begins at its third operand. -/
theorem first_of_rangeEdge? {which : Filter.RangeEnd} {edge : Edge} {key : KeyRun}
    (h : Filter.rangeEdge? which i = some (edge, key)) : key.first = i.n3 := by
  unfold Filter.rangeEdge? at h
  split at h
  · obtain ⟨k, hk, hpair⟩ := Option.map_eq_some_iff.1 h
    obtain ⟨-, rfl⟩ := Prod.mk.inj hpair
    obtain ⟨cursor, -, rfl⟩ := Option.map_eq_some_iff.1 hk
    rfl
  · obtain ⟨k, hk, hpair⟩ := Option.map_eq_some_iff.1 h
    obtain ⟨-, rfl⟩ := Prod.mk.inj hpair
    obtain ⟨cursor, -, rfl⟩ := Option.map_eq_some_iff.1 hk
    rfl
  · cases h

theorem recordRange_eq (hp : s.program.Narrow) (hs : s.schema.Stored) (h : l.Bounded s.openings)
    (hi : s.program.at? pos = some i) (which : Filter.RangeEnd) :
    recordRange s l pos which = pure (Filter.recordRange s l pos i which) := by
  rw [recordRange, entryAddressed_eq hi, pure_bind, Filter.recordRange]
  rcases hid : s.openings.of? i pos with _ | id
  · rfl
  · obtain ⟨u, hu⟩ := h.of? hid
    have hlt := Ledger.lt_size_of_usage? hu
    dsimp only
    rw [instrAt_eq hi, pure_bind]
    rcases hedge : Filter.rangeEdge? which i with _ | ⟨edge, key⟩
    · rfl
    · have hlength := length_keyColumns hs u key
      dsimp only
      rw [hu, keyColumns_eq hs hu, pure_bind]
      dsimp only
      generalize Filter.keyColumns u s.schema key = columns at hlength
      by_cases hempty : columns.isEmpty = true
      · rw [if_pos hempty, List.isEmpty_iff.1 hempty]
        rfl
      · rw [if_neg hempty, partner_eq, pure_bind, relationBeside_partner]
        refine (foldlM_eq_foldl (P := fun k => k.skeleton = l.skeleton) rfl
          fun k c hc hk => ⟨?_, ?_⟩).1
        · have hplace : c.2 < columns.length := List.snd_lt_of_mem_zipIdx hc
          apply recordKeyColumn_eq hp (h.of_skeleton_eq hk)
          · exact Ledger.lt_size_of_skeleton_eq hk hlt
          · intro first hfirst
            rw [first_of_rangeEdge? hedge] at hfirst
            exact hp.n3 hi hfirst
          · omega
        · exact (skeleton_recordKeyColumn ..).trans hk

end Guarded

end IndexAdvisor
