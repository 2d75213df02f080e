import IndexAdvisor.Proofs.Analysis.Cursors
import IndexAdvisor.Proofs.Guarded.Program

/-!
# Guarded ledgers

An entry is named by its place, and places are kept: in the openings of a program, and as owners of
entries. All of them have entries (`Ledger.Bounded`) once the program is scanned, and recording
keeps that, since it leaves the skeleton as it is. So whatever is recorded, no place is missed
(`record_eq`, `recordFilter_eq`).

Scanning itself needs no such assumption: it only uses places that it has just looked up or added.
It negates the cursor of an index whose table is not opened yet, which is the cursor of the
instruction at hand (`scan_eq`).
-/

namespace IndexAdvisor

/-- Every place that an opening or an owner names has an entry. -/
structure Ledger.Bounded (openings : Openings) (l : Ledger) : Prop where
  opened : ∀ o ∈ openings, o.id < l.size
  owned : ∀ id owner, l.owner? id = some owner → owner < l.size

section

variable {openings : Openings} {l k : Ledger} {i : Instr} {pos id : Nat}

theorem Ledger.lt_size_of_skeleton_eq (h : k.skeleton = l.skeleton) (hid : id < l.size) :
    id < k.size := by
  rw [← size_skeleton, h, size_skeleton]
  exact hid

theorem Ledger.Bounded.of_skeleton_eq (h : l.Bounded openings) (hk : k.skeleton = l.skeleton) :
    k.Bounded openings := by
  constructor
  · intro o ho
    exact lt_size_of_skeleton_eq hk (h.opened o ho)
  · intro id owner ho
    rw [owner?_of_skeleton_eq hk] at ho
    exact lt_size_of_skeleton_eq hk (h.owned id owner ho)

theorem Openings.mem_of_at? {cursor : Int} (h : openings.at? cursor pos = some id) :
    ∃ o ∈ openings, o.id = id := by
  obtain ⟨o, ho, rfl⟩ := Option.map_eq_some_iff.1 h
  refine ⟨o, ?_, rfl⟩
  rcases Option.or_eq_some_iff.1 ho with ho | ⟨-, ho⟩
  · exact List.mem_of_mem_filter (List.mem_reverse.1 (List.mem_of_find?_eq_some ho))
  · exact List.mem_of_mem_filter (List.mem_of_head? ho)

/-- What a cursor means has an entry. -/
theorem Ledger.Bounded.of? (h : l.Bounded openings) (hid : openings.of? i pos = some id) :
    ∃ u, l.usage? id = some u := by
  obtain ⟨cursor, -, hat⟩ := Option.bind_eq_some_iff.1 hid
  obtain ⟨o, ho, rfl⟩ := Openings.mem_of_at? hat
  exact Ledger.exists_usage? (h.opened o ho)

/-- A scanned ledger has an entry for whatever is opened or owns. -/
theorem Openings.scan_bounded (schema : Schema) (program : Program) :
    (scan .empty schema program).1.Bounded (scan .empty schema program).2 := by
  constructor
  · intro o ho
    rw [(scan_granted schema program).openings] at ho
    obtain ⟨r, -, hr⟩ := List.mem_filterMap.1 ho
    obtain ⟨id, hid, rfl⟩ := Option.map_eq_some_iff.1 hr
    obtain ⟨u, hu, -⟩ := Ledger.find?_eq_some hid
    exact Ledger.lt_size_of_usage? hu
  · intro id owner ho
    obtain ⟨v, hv, -⟩ := Ledger.scan_ownersAreTables schema program id owner ho
    exact Ledger.lt_size_of_usage? hv

end

namespace Guarded

variable {openings : Openings} {l : Ledger} {schema : Schema} {id table : Nat} {u : Usage}
  {clause : Clause} {column text : String}

/-! ## Places -/

/-- The entry at a place. -/
def entryAt (l : Ledger) (id : Nat) : Guarded Entry :=
  match l.entries[id]? with
  | some entry => pure entry
  | none => throw (.noEntry id)

/-- The usage at a place. -/
def usageAt (l : Ledger) (id : Nat) : Guarded Usage := do
  let entry ← entryAt l id
  return entry.usage

/-- The owner of the entry at a place, if it is that of an index. -/
def ownerOfIndex (l : Ledger) (id : Nat) : Guarded (Option Nat) := do
  let entry ← entryAt l id
  return if entry.usage.isIndex then entry.owner else none

/-- Changes the usage at a place. -/
def modify (l : Ledger) (id : Nat) (change : Usage → Usage) : Guarded Ledger := do
  let _ ← entryAt l id
  return l.modify id change

/-- Makes the entry at `table` the owner of the entry at `index`. -/
def setOwner (l : Ledger) (index table : Nat) : Guarded Ledger := do
  let _ ← entryAt l index
  return l.setOwner index table

theorem entryAt_eq (hid : id < l.size) :
    ∃ entry, l.entries[id]? = some entry ∧ entryAt l id = pure entry := by
  have hentry : l.entries[id]? = some l.entries[id] := List.getElem?_eq_getElem hid
  exact ⟨l.entries[id], hentry, by rw [entryAt, hentry]⟩

theorem usageAt_eq (hu : l.usage? id = some u) : usageAt l id = pure u := by
  obtain ⟨entry, hentry, hat⟩ := entryAt_eq (Ledger.lt_size_of_usage? hu)
  rw [Ledger.usage?, hentry] at hu
  rw [usageAt, hat, pure_bind, Option.some.inj hu]

theorem ownerOfIndex_eq (hid : id < l.size) : ownerOfIndex l id = pure (l.ownerOfIndex? id) := by
  obtain ⟨entry, hentry, hat⟩ := entryAt_eq hid
  rw [ownerOfIndex, hat, pure_bind, Ledger.ownerOfIndex?, Ledger.usage?, Ledger.owner?, hentry]
  rfl

theorem modify_eq (hid : id < l.size) (change : Usage → Usage) :
    modify l id change = pure (l.modify id change) := by
  obtain ⟨entry, -, hat⟩ := entryAt_eq hid
  rw [modify, hat, pure_bind]

theorem setOwner_eq (hid : id < l.size) (table : Nat) :
    setOwner l id table = pure (l.setOwner id table) := by
  obtain ⟨entry, -, hat⟩ := entryAt_eq hid
  rw [setOwner, hat, pure_bind]

/-! ## Recording -/

/-- Records a column for a clause, for an index also for its owner. -/
def record (l : Ledger) (id : Nat) (clause : Clause) (column : String) : Guarded Ledger := do
  let u ← usageAt l id
  let through := if u.isIndex then some u.cursor else none
  let owner ← ownerOfIndex l id
  let own ← modify l id (·.addColumn clause column through)
  match owner with
  | none => return own
  | some owner => modify own owner (·.addColumn clause column through)

/-- Records a reconstructed comparison, for an index also for its owner. -/
def recordFilter (l : Ledger) (id : Nat) (text : String) : Guarded Ledger := do
  let shared ← match ← ownerOfIndex l id with
    | none => pure l
    | some owner => modify l owner (·.addFilter text)
  modify shared id (·.addFilter text)

theorem owner_lt_size (h : l.Bounded openings) {owner : Nat}
    (ho : l.ownerOfIndex? id = some owner) :
    owner < l.size := by
  obtain ⟨-, -, -, hown⟩ := Ledger.ownerOfIndex?_eq_some ho
  exact h.owned id owner hown

theorem record_eq (h : l.Bounded openings) (hid : id < l.size) (clause : Clause) (column : String) :
    record l id clause column = pure (l.record id clause column) := by
  obtain ⟨u, hu⟩ := Ledger.exists_usage? hid
  rw [record, usageAt_eq hu, pure_bind, ownerOfIndex_eq hid, pure_bind, modify_eq hid, pure_bind,
    Ledger.record, hu]
  rcases ho : l.ownerOfIndex? id with _ | owner
  · rfl
  · apply modify_eq
    rw [Ledger.size_modify]
    exact owner_lt_size h ho

theorem recordFilter_eq (h : l.Bounded openings) (hid : id < l.size) (text : String) :
    recordFilter l id text = pure (l.recordFilter id text) := by
  rw [recordFilter, ownerOfIndex_eq hid, pure_bind, Ledger.recordFilter]
  rcases ho : l.ownerOfIndex? id with _ | owner
  · exact modify_eq hid _
  · dsimp only
    rw [modify_eq (owner_lt_size h ho), pure_bind]
    apply modify_eq
    rw [Ledger.size_modify]
    exact hid

/-- A comparison is recorded with its column. -/
theorem recordFilter_record_eq (h : l.Bounded openings) (hid : id < l.size) (clause : Clause)
    (column text : String) :
    recordFilter (l.record id clause column) id text =
      pure ((l.record id clause column).recordFilter id text) := by
  have hkept : (l.record id clause column).skeleton = l.skeleton := Ledger.skeleton_record ..
  exact recordFilter_eq (h.of_skeleton_eq hkept) (Ledger.lt_size_of_skeleton_eq hkept hid) text

/-! ## Opening -/

/-- Makes a table the owner of an index and notes the index as used. -/
def attach (l : Ledger) (id table : Nat) (use : IndexUse) : Guarded Ledger := do
  let owned ← setOwner l id table
  modify owned table (·.addIndex use)

/-- Makes sure that the table of the index at a place has an entry, and attaches the index to it. -/
def link (l : Ledger) (schema : Schema) (id : Nat) : Guarded (Ledger × Option Nat) := do
  let u ← usageAt l id
  match l.find? u.table .table with
  | some table =>
    let linked ← attach l id table ⟨u.cursor, u.name⟩
    return (linked, some table)
  | none =>
    let some rootPage := schema.rootPageOf? u.table | return (l, none)
    let cursor ← word (-u.cursor)
    let linked ← attach
      (l.add { cursor, rootPage, kind := .table, name := u.table, table := "" }) id l.size
      ⟨u.cursor, u.name⟩
    return (linked, some l.size)

/-- The entry of an object, moved to a cursor, or a new one. -/
def entryOf (l : Ledger) (object : SchemaObject) (cursor : Int) : Guarded (Ledger × Nat) := do
  match l.find? object.name object.kind with
  | some id =>
    let moved ← modify l id fun u => { u with cursor }
    return (moved, id)
  | none =>
    return (l.add { cursor, rootPage := object.rootPage, kind := object.kind, name := object.name,
                    table := object.table }, l.size)

/-- Puts an object that is opened under a cursor into the ledger, and links an index to its
table. -/
def place (l : Ledger) (schema : Schema) (object : SchemaObject) (cursor : Int) :
    Guarded (Ledger × Nat) := do
  let placed ← entryOf l object cursor
  match object.kind with
  | .table => return placed
  | .index =>
    let linked ← link placed.1 schema placed.2
    return (linked.1, placed.2)

/-- Follows an instruction that opens a root page. -/
def openObject (l : Ledger) (schema : Schema) (i : Instr) : Guarded (Ledger × Option Nat) := do
  let some (object, cursor) := Ledger.opened? schema i | return (l, none)
  let placed ← place l schema object cursor
  return (placed.1, some placed.2)

/-- Enters everything a program opens into the ledger, and notes under which cursors. -/
def scan (l : Ledger) (schema : Schema) (program : Program) : Guarded (Ledger × Openings) :=
  visit program (l, []) fun (l, openings) pos i => do
    if i.opcode == .openObject then
      match ← openObject l schema i, i.n1 with
      | (l, some id), some cursor => return (l, openings ++ [⟨cursor, pos, id⟩])
      | (l, _), _ => return (l, openings)
    else return (l, openings)

theorem attach_eq (hid : id < l.size) (htable : table < l.size) (use : IndexUse) :
    attach l id table use = pure ((l.setOwner id table).modify table (·.addIndex use)) := by
  rw [attach, setOwner_eq hid, pure_bind]
  apply modify_eq
  rw [Ledger.size_setOwner]
  exact htable

/-- An index under a cursor of 32 bits is linked; its table may have to stand under the negated
cursor. -/
theorem link_eq (hu : l.usage? id = some u) (hcursor : fitsInt32 u.cursor = true)
    (schema : Schema) :
    link l schema id = pure (l.link schema id) := by
  have hid := Ledger.lt_size_of_usage? hu
  rw [link, usageAt_eq hu, pure_bind, Ledger.link, hu]
  dsimp only
  rcases htable : l.find? u.table .table with _ | table
  · rcases schema.rootPageOf? u.table with _ | page
    · rfl
    · dsimp only
      rw [word_neg hcursor, pure_bind, attach_eq, pure_bind]
      · rw [Ledger.size_add]
        exact Nat.lt_succ_of_lt hid
      · rw [Ledger.size_add]
        exact Nat.lt_succ_self _
  · obtain ⟨v, hv, -⟩ := Ledger.find?_eq_some htable
    dsimp only
    rw [attach_eq hid (Ledger.lt_size_of_usage? hv), pure_bind]

/-- An object that is placed stands under the cursor at hand, so that is the cursor its table may
need negated. -/
theorem place_eq {cursor : Int} (hcursor : fitsInt32 cursor = true) (l : Ledger) (schema : Schema)
    (object : SchemaObject) :
    place l schema object cursor = pure (l.place schema object cursor) := by
  rw [place, entryOf, Ledger.place]
  rcases hfind : l.find? object.name object.kind with _ | id
  · rw [pure_bind]
    dsimp only
    cases object.kind with
    | table => rfl
    | index =>
      have hplaced := Ledger.usage?_add l
        { cursor, rootPage := object.rootPage, kind := .index, name := object.name,
          table := object.table } l.size
      rw [if_pos rfl] at hplaced
      dsimp only
      rw [link_eq hplaced hcursor, pure_bind]
  · obtain ⟨u, hu, -⟩ := Ledger.find?_eq_some hfind
    dsimp only
    rw [modify_eq (Ledger.lt_size_of_usage? hu), pure_bind, pure_bind]
    cases object.kind with
    | table => rfl
    | index =>
      have hplaced := Ledger.usage?_modify l id (fun u => { u with cursor }) id
      rw [if_pos rfl, hu, Option.map_some] at hplaced
      dsimp only
      rw [link_eq hplaced hcursor, pure_bind]

theorem openObject_eq {i : Instr} (hn1 : ∀ cursor, i.n1 = some cursor → fitsInt32 cursor = true)
    (l : Ledger) (schema : Schema) : openObject l schema i = pure (l.openObject schema i) := by
  rw [openObject, Ledger.openObject]
  rcases hopened : Ledger.opened? schema i with _ | ⟨object, cursor⟩
  · rfl
  · obtain ⟨hcursor, -⟩ := Ledger.of_opened? hopened
    dsimp only
    rw [place_eq (hn1 cursor hcursor), pure_bind]

/-- A program whose operands have 32 bits is scanned. -/
theorem scan_eq {program : Program} (hp : program.Narrow) (l : Ledger) (schema : Schema) :
    scan l schema program = pure (Openings.scan l schema program) := by
  refine (visit_eq (P := fun _ => True) trivial ?_).1
  rintro ⟨k, openings⟩ pos i hi -
  refine ⟨?_, trivial⟩
  dsimp only
  split
  · rw [openObject_eq (fun cursor => hp.n1 hi), pure_bind]
    rcases k.openObject schema i with ⟨m, _ | id⟩ <;> rcases i.n1 with _ | cursor <;> rfl
  · rfl

end Guarded

end IndexAdvisor
