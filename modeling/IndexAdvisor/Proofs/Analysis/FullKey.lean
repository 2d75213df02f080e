import IndexAdvisor.Proofs.Analysis.Cursors
import IndexAdvisor.Proofs.Analysis.Verdict
import IndexAdvisor.Proofs.Ledger.Columns
import IndexAdvisor.Proofs.Ledger.InUse
import Mathlib.Data.List.MinMax

/-!
# Indexes that are sought by their whole key

A program that seeks one index is filtered by the columns of its keys. A key of `n` registers is
compared with the first `n` columns of the index, so each seek inserts a prefix of the columns of
the index, and prefixes make the longest of them, in whatever order they come
(`OrderedSet.toList_insertAll_flatMap_take`).

> `sought_index_covers`: if one key has all columns, then the index and its table are filtered by
> the columns of the index, in the order of the index, and the table is covered by an opened index
> with these columns.

The order matters, as an index covers just the columns in its own order. The covering index need not
be the one that is sought: of two opened indexes with the same columns it is the one opened first
(`sought_index_covers_opened_first`).
-/

namespace IndexAdvisor

namespace OrderedSet

variable {α : Type} [DecidableEq α] {columns : List α} {s : OrderedSet α} {m : Nat}

/-- A prefix that is inserted into another one leaves the longer of the two. -/
theorem toList_insertAll_take (h : columns.Nodup) (hs : s.toList = columns.take m) (n : Nat) :
    (s.insertAll (columns.take n)).toList = columns.take (max m n) := by
  rcases Nat.le_total n m with hle | hle
  · rw [Nat.max_eq_left hle, insertAll_of_subset, hs]
    intro a ha
    rw [hs]
    exact List.take_subset_take_left columns hle ha
  · obtain ⟨k, rfl⟩ := Nat.exists_eq_add_of_le hle
    have hnodup : (columns.take (m + k)).Nodup := h.sublist (List.take_sublist _ columns)
    rw [Nat.max_eq_right hle, toList_insertAll_of_nodup s hnodup, hs]
    rw [List.take_add] at hnodup ⊢
    have hdisjoint := List.disjoint_of_nodup_append hnodup
    -- the columns of the shorter prefix are there already, and no other one is
    rw [List.filter_append, List.filter_eq_nil_iff.2, List.nil_append, List.filter_eq_self.2]
    · intro a ha
      exact decide_eq_true fun ha' => hdisjoint ha' ha
    · intro a ha
      simpa using ha

/-- Prefixes of one list make the longest of them, whatever their order. -/
theorem toList_insertAll_flatMap_take (h : columns.Nodup) (hs : s.toList = columns.take m)
    (ns : List Nat) :
    (s.insertAll (ns.flatMap (columns.take ·))).toList = columns.take (ns.foldr max m) := by
  induction ns generalizing s m with
  | nil => exact hs
  | cons n ns ih =>
    have happend : s.insertAll ((n :: ns).flatMap (columns.take ·)) =
        (s.insertAll (columns.take n)).insertAll (ns.flatMap (columns.take ·)) := by
      rw [List.flatMap_cons]
      exact List.foldl_append
    rw [happend, ih (toList_insertAll_take h hs n), List.foldr_assoc, List.foldr_cons, Nat.max_comm]

end OrderedSet

/-! ## What the rows say -/

/-- Whether instructions of a kind may say which columns a statement is filtered or sorted by. -/
def Opcode.tells : Opcode → Bool
  | .seek _ | .bound _ | .compare _ | .rowidLookup | .column | .truth _ | .indexInsert
  | .sorterInsert => true
  | _ => false

/-- The number of registers in the key of a seek or a bound. -/
def Instr.keyCount? (i : Instr) : Option Nat :=
  if i.opcode.isSeek || i.opcode.isBound then (KeyRun.of? i).map KeyRun.count else none

/-- Whether the cursor of an instruction stands for the index of a name. -/
def Program.meansIndex (schema : Schema) (program : Program) (pos : Nat) (i : Instr)
    (name : String) : Bool :=
  ((Openings.scan .empty schema program).2.of? i pos).any fun id =>
    ((Openings.scan .empty schema program).1.usage? id).any (·.isOf name .index)

theorem Program.meansIndex_iff {schema : Schema} {program : Program} {pos : Nat} {i : Instr}
    {name : String} :
    program.meansIndex schema pos i name = true ↔
      ∃ id u, (Openings.scan .empty schema program).2.of? i pos = some id ∧
      (Openings.scan .empty schema program).1.usage? id = some u ∧ u.isOf name .index = true := by
  simp only [meansIndex, Option.any_eq_true, exists_and_left]

/-- A program that seeks one index and looks at nothing else: each row that may say something about
columns is a seek or a bound on the index, by as many columns as the index has at most, and by all
of them at least once. -/
structure SeeksOnly (schema : Schema) (program : Program) (x : Index) : Prop where
  only : ∀ pos i, program.at? pos = some i → i.opcode.tells = true →
    ∃ n, i.keyCount? = some n ∧ n ≤ x.columns.length ∧ program.meansIndex schema pos i x.name = true
  full : ∃ pos i, program.at? pos = some i ∧ i.keyCount? = some x.columns.length

/-- The index that is opened under a name is the index of the schema that has the name. -/
theorem Instr.OpensIndex.of_sameName {schema : Schema} {name : String} {i : Instr}
    (h : i.OpensIndex schema name) (hs : schema.Distinct) {x : Index} (hx : x ∈ schema.indexes)
    (hname : sameName x.name name = true) :
    i.OpensIndex schema x.name := by
  obtain ⟨hopcode, object, cursor, hopened, hkind, rfl⟩ := h
  obtain ⟨-, page, hobject⟩ := Ledger.of_opened? hopened
  refine ⟨hopcode, object, cursor, hopened, hkind, ?_⟩
  rcases Schema.objectAt?_cases hobject with ⟨t, -, -, rfl⟩ | ⟨-, y, hy, -, rfl⟩
  · cases hkind
  · rw [eq_of_sameName hs.indexes hx hy hname]

namespace Filter

variable {s : Scene} {l : Ledger} {pos id j : Nat} {i : Instr} {which : RangeEnd} {u : Usage}

theorem columns_findingSeen (hj : l.Reaches id j) (clause : Clause) (f : KeyFinding) :
    (findingSeen pos id f).filterMap (fun seen => l.columnFor? clause j seen.note) =
      if clause = .filter then [f.column] else [] := by
  rcases hc : f.constant with _ | constant <;> cases clause <;>
    simp [findingSeen, hc, Ledger.columnFor?, hj]

/-- An end of a range says that the columns of its key are filtered by, in order. -/
theorem columns_rangeSeen (hid : s.openings.of? i pos = some id) (hu : l.usage? id = some u)
    {edge : Edge} {key : KeyRun} (hedge : rangeEdge? which i = some (edge, key))
    (hj : l.Reaches id j) (clause : Clause) :
    (rangeSeen s l pos i which).filterMap (fun seen => l.columnFor? clause j seen.note) =
      if clause = .filter then keyColumns u s.schema key else [] := by
  have hcolumns : (rangeFindings s l pos i which).map KeyFinding.column =
      keyColumns u s.schema key := by
    rw [rangeFindings, hid, hedge]
    dsimp only
    rw [hu]
    dsimp only
    rw [List.map_map]
    exact List.zipIdx_map_fst 0 _
  rw [rangeSeen, hid, Option.elim_some, List.filterMap_flatMap]
  simp only [columns_findingSeen hj]
  split
  · rw [← hcolumns, List.map_eq_flatMap]
  · simp

end Filter

/-- A statement without `ORDER BY` whose program inserts nothing is sorted by nothing. -/
theorem Sort.record_eq_self {s : Scene} (hterms : Sql.sortTerms s.tokens = [])
    (hinserts : ∀ pos i, s.program.at? pos = some i → Sort.idiom? i.opcode = none) (l : Ledger) :
    Sort.record s l = l := by
  have hsteps : (Sort.recordSteps s l []).1 = l := by
    rw [Sort.recordSteps]
    refine s.program.visit_induction (P := fun found : Ledger × Bool => found.1 = l) rfl ?_
    rintro ⟨k, found⟩ pos i hi hk
    have hnone : Sort.stepKeys? s k [] pos i = none := by
      rw [Sort.stepKeys?, hinserts pos i hi]
      rfl
    dsimp only
    rw [hnone]
    exact hk
  rw [Sort.record, hterms]
  dsimp only
  split
  · rfl
  · rw [Sort.recordWalks]
    exact hsteps

namespace Analysis

open Ledger

variable {schema : Schema} {tokens : List Sql.Token} {program : Program} {x : Index}
  {pos id j : Nat} {i : Instr} {u : Usage}

/-- The entry of an index of the schema is found under the spelling that the schema has. -/
theorem index_eq_of_isOf (hs : schema.Distinct) (hx : x ∈ schema.indexes) (hknown : u.Known schema)
    (hof : u.isOf x.name .index = true) : u.name = x.name ∧ u.table = x.table := by
  obtain ⟨hkind, hname⟩ := Usage.isOf_iff.1 hof
  obtain ⟨-, y, hy, -, hyname, hytable⟩ := hknown.index hkind
  obtain rfl := eq_of_sameName hs.indexes hy hx (by rw [hyname]; exact hname)
  exact ⟨hyname.symm, hytable.symm⟩

/-- A key of an index compares as many of its columns as it has registers, up to all of them. -/
theorem keyColumns_index (hs : schema.Distinct) (hx : x ∈ schema.indexes) (hknown : u.Known schema)
    (hof : u.isOf x.name .index = true) {key : KeyRun} (hcount : key.count ≤ x.columns.length) :
    Filter.keyColumns u schema key = x.columns.take key.count := by
  have hindex : u.isIndex = true := Usage.isIndex_iff.2 (Usage.isOf_iff.1 hof).1
  have hcolumns : schema.columnsOfIndex u.name = x.columns := by
    rw [Schema.columnsOfIndex, (index_eq_of_isOf hs hx hknown hof).1,
      Schema.index?_of_mem hs.indexes hx]
    rfl
  rw [Filter.keyColumns, if_pos hindex, Usage.entryColumns, if_pos hindex, hcolumns,
    List.take_append_of_le_length hcount]

/-- A seek or a bound has a key and stands at one end of a range. -/
theorem keyCount?_eq_some {n : Nat} (h : i.keyCount? = some n) :
    ∃ key, key.count = n ∧
      ((∃ edge, i.opcode = .seek edge ∧ Filter.rangeEdge? .entry i = some (edge, key)) ∨
      ∃ edge, i.opcode = .bound edge ∧ Filter.rangeEdge? .exit i = some (edge, key)) := by
  rw [Instr.keyCount?] at h
  split at h
  · next hends =>
    obtain ⟨key, hkey, rfl⟩ := Option.map_eq_some_iff.1 h
    refine ⟨key, rfl, ?_⟩
    unfold Filter.rangeEdge?
    rcases hopcode : i.opcode <;> rw [hopcode] at hends <;> cases hends <;> simp [hkey]
  · cases h

theorem tells_of_keyCount? {n : Nat} (h : i.keyCount? = some n) : i.opcode.tells = true := by
  obtain ⟨-, -, ⟨edge, hopcode, -⟩ | ⟨edge, hopcode, -⟩⟩ := keyCount?_eq_some h
  · rw [hopcode]
    rfl
  · rw [hopcode]
    rfl

section Rows

variable (hs : schema.Distinct) (hx : x ∈ schema.indexes) (hseeks : SeeksOnly schema program x)
  (hu : (Openings.scan .empty schema program).1.usage? id = some u)
  (hof : u.isOf x.name .index = true) (hj : (Openings.scan .empty schema program).1.Reaches id j)
include hs hx hseeks hu hof hj

/-- What one row says about an entry that what is found for the index goes to. -/
theorem columns_instrSeen (hi : program.at? pos = some i) (clause : Clause) :
    (Filter.instrSeen (scene schema tokens program)
      (Openings.scan .empty schema program).1 pos i).filterMap
        (fun seen => (Openings.scan .empty schema program).1.columnFor? clause j seen.note) =
      if clause = .filter then i.keyCount?.toList.flatMap (x.columns.take ·) else [] := by
  have hlinked := scan_linked hs (empty_linked schema) program
  by_cases htells : i.opcode.tells = true
  · obtain ⟨n, hn, hle, hmeans⟩ := hseeks.only pos i hi htells
    obtain ⟨id', u', hid', hu', hof'⟩ := Program.meansIndex_iff.1 hmeans
    -- the index has one entry, so this row is about the entry at hand
    obtain ⟨hkind, hname⟩ := Usage.isOf_iff.1 hof
    obtain ⟨hkind', hname'⟩ := Usage.isOf_iff.1 hof'
    obtain rfl :=
      hlinked.unique hu hu' (hkind.trans hkind'.symm) (sameName_trans hname (sameName_symm hname'))
    obtain ⟨key, rfl, hend⟩ := keyCount?_eq_some hn
    have hcolumns := keyColumns_index hs hx (hlinked.known hu) hof hle
    have hkey : i.keyCount?.toList.flatMap (x.columns.take ·) = Filter.keyColumns u schema key := by
      rw [hn, hcolumns]
      exact List.flatMap_singleton ..
    rw [hkey]
    rcases hend with ⟨edge, hopcode, hedge⟩ | ⟨edge, hopcode, hedge⟩
    · rw [Filter.instrSeen, hopcode]
      exact Filter.columns_rangeSeen hid' hu hedge hj clause
    · rw [Filter.instrSeen, hopcode]
      exact Filter.columns_rangeSeen hid' hu hedge hj clause
  · have hnothing : Filter.instrSeen (scene schema tokens program)
        (Openings.scan .empty schema program).1 pos i = [] ∧ i.keyCount? = none := by
      rw [Filter.instrSeen, Instr.keyCount?]
      rcases hopcode : i.opcode <;> rw [hopcode] at htells <;>
        first | exact ⟨rfl, rfl⟩ | exact absurd rfl htells
    rw [hnothing.1, hnothing.2]
    cases clause <;> rfl

/-- What all rows say about such an entry. -/
theorem columns_sightings (clause : Clause) :
    (Filter.sightings (scene schema tokens program)
      (Openings.scan .empty schema program).1).filterMap
        (fun seen => (Openings.scan .empty schema program).1.columnFor? clause j seen.note) =
      if clause = .filter then (program.instrs.flatMap (·.keyCount?.toList)).flatMap
      (x.columns.take ·) else [] := by
  have hrows : ∀ entry ∈ program.instrs.zipIdx,
      (Filter.instrSeen (scene schema tokens program) (Openings.scan .empty schema program).1
        entry.2 entry.1).filterMap
          (fun seen => (Openings.scan .empty schema program).1.columnFor? clause j seen.note) =
        if clause = .filter then entry.1.keyCount?.toList.flatMap (x.columns.take ·) else [] := by
    intro entry hentry
    exact columns_instrSeen hs hx hseeks hu hof hj (List.mk_mem_zipIdx_iff_getElem?.1 hentry) clause
  rw [Filter.sightings, List.filterMap_flatMap]
  show program.instrs.zipIdx.flatMap _ = _
  rw [List.flatMap_congr hrows]
  split
  · have hfirst :=
      List.flatMap_map Prod.fst (fun i : Instr => i.keyCount?.toList.flatMap (x.columns.take ·))
      program.instrs.zipIdx
    rw [List.zipIdx_map_fst] at hfirst
    rw [List.flatMap_assoc, hfirst]
  · simp

end Rows

/-- An index that is sought by all its columns has an entry, which the entry of its table owns. -/
theorem exists_sought (hs : schema.Distinct) (hx : x ∈ schema.indexes)
    (htable : (schema.table? x.table).isSome = true) (hseeks : SeeksOnly schema program x) :
    ∃ id u, (Openings.scan .empty schema program).1.usage? id = some u ∧
      u.isOf x.name .index = true ∧
      ∃ t, (Openings.scan .empty schema program).1.owner? id = some t ∧
        ∃ v, (Openings.scan .empty schema program).1.usage? t = some v ∧
          v.isOf x.table .table = true := by
  obtain ⟨pos, i, hi, hn⟩ := hseeks.full
  obtain ⟨n, -, -, hmeans⟩ := hseeks.only pos i hi (tells_of_keyCount? hn)
  obtain ⟨id, u, -, hu, hof⟩ := Program.meansIndex_iff.1 hmeans
  have hlinked := scan_linked hs (empty_linked schema) program
  have hutable := (index_eq_of_isOf hs hx (hlinked.known hu) hof).2
  -- the schema knows the table, so the index has an owner
  obtain ⟨t, ho⟩ : ∃ t, (Openings.scan .empty schema program).1.owner? id = some t := by
    rcases hlinked.owned hu (Usage.isIndex_iff.2 (Usage.isOf_iff.1 hof).1)
      (hutable ▸ htable) with ho | ⟨hno, -⟩
    · exact Option.isSome_iff_exists.1 ho
    · exact hno.elim
  obtain ⟨-, v, hv, hvof, -⟩ := hlinked.owner hu ho
  exact ⟨id, u, hu, hof, t, ho, v, hv, hutable ▸ hvof⟩

/-- When everything is opened, no columns are found yet. -/
theorem columns?_opened (hu : (Openings.scan .empty schema program).1.usage? j = some u)
    (clause : Clause) :
    (Openings.scan .empty schema program).1.columns? clause j = some .empty := by
  have hunnoted := scan_unnoted schema program j u hu
  have hnothing (column : String) : ¬u.Has (.column clause column) := by
    intro hhas
    obtain ⟨use, huse⟩ := hunnoted _ hhas
    cases huse
  have hempty : u.columnsOf clause = .empty := by
    apply OrderedSet.ext
    apply List.eq_nil_iff_forall_not_mem.2
    intro column hcolumn
    apply hnothing column
    cases clause <;> exact hcolumn
  rw [columns?, hu, Option.map_some, hempty]

/-- A program that seeks one index filters by the columns of the index, in their order, and sorts by
nothing. -/
theorem columns?_readInto (hs : schema.Distinct) (hx : x ∈ schema.indexes)
    (hnodup : x.columns.Nodup) (hseeks : SeeksOnly schema program x)
    (hterms : Sql.sortTerms tokens = [])
    (hu : (Openings.scan .empty schema program).1.usage? id = some u)
    (hof : u.isOf x.name .index = true) (hj : (Openings.scan .empty schema program).1.Reaches id j)
    {v : Usage} (hv : (Openings.scan .empty schema program).1.usage? j = some v) (clause : Clause) :
    ∃ s, (readInto .empty schema tokens program).columns? clause j = some s ∧
      s.toList = if clause = .filter then x.columns else [] := by
  have hinserts : ∀ pos i, program.at? pos = some i → Sort.idiom? i.opcode = none := by
    intro pos i hi
    by_cases htells : i.opcode.tells = true
    · obtain ⟨n, hn, -⟩ := hseeks.only pos i hi htells
      obtain ⟨-, -, ⟨edge, hopcode, -⟩ | ⟨edge, hopcode, -⟩⟩ := keyCount?_eq_some hn
      · rw [hopcode]
        rfl
      · rw [hopcode]
        rfl
    · rcases hopcode : i.opcode <;> rw [hopcode] at htells <;> first | rfl | exact absurd rfl htells
  have hsorted : readInto .empty schema tokens program =
      Filter.record (scene schema tokens program) (Openings.scan .empty schema program).1 :=
    Sort.record_eq_self (s := scene schema tokens program) hterms hinserts _
  have hsighted :=
    (Filter.record_sees (scene schema tokens program)
      (Openings.scan .empty schema program).1).sighted.eq
  rw [hsorted, hsighted, columns?_enterAll, columns?_opened hv, Option.map_some, List.filterMap_map,
    Function.comp_def, columns_sightings hs hx hseeks hu hof hj clause]
  refine ⟨_, rfl, ?_⟩
  cases clause with
  | filter =>
    rw [if_pos rfl, if_pos rfl, OrderedSet.toList_insertAll_flatMap_take hnodup (m := 0) rfl]
    -- one of the keys has all columns
    obtain ⟨pos, i, hi, hn⟩ := hseeks.full
    have hmem : x.columns.length ∈ program.instrs.flatMap (·.keyCount?.toList) :=
      List.mem_flatMap.2 ⟨i, List.mem_of_getElem? hi, Option.mem_toList.2 hn⟩
    exact List.take_of_length_le (List.le_max_of_le' 0 hmem (Nat.le_refl _))
  | sort => rfl

/-! ## The verdict -/

/-- Reading a program notes no index that was not opened. -/
theorem namesOpened_read {sql : String} {instrs : List Instr}
    (hu : (read schema sql instrs).usage? id = some u) {use : IndexUse}
    (huse : use ∈ u.indexes.toList) : ∃ i ∈ instrs, i.OpensIndex schema use.index := by
  obtain ⟨notes, -, henters⟩ := readInto_enters .empty schema (Sql.tokens sql) ⟨instrs⟩
  rw [read, henters] at hu
  obtain ⟨v, hv, hhas⟩ := has_enterAll hu
  rcases (hhas (.index use)).1 huse with huse | ⟨n, -, hgives⟩
  · exact (everywhere_scan_names schema ⟨instrs⟩ id v hv).uses use huse
  · cases hgives

variable {sql : String} {instrs : List Instr} {w : Usage}

/-- An entry that the findings of the sought index go to ends up with the columns of the index. -/
theorem usage?_read (hs : schema.Distinct) (hx : x ∈ schema.indexes) (hnodup : x.columns.Nodup)
    (hseeks : SeeksOnly schema ⟨instrs⟩ x) (hterms : Sql.sortTerms (Sql.tokens sql) = [])
    (hu : (Openings.scan .empty schema ⟨instrs⟩).1.usage? id = some u)
    (hof : u.isOf x.name .index = true) (hj : (Openings.scan .empty schema ⟨instrs⟩).1.Reaches id j)
    {v : Usage} (hv : (Openings.scan .empty schema ⟨instrs⟩).1.usage? j = some v) :
    ∃ w, (read schema sql instrs).usage? j = some w ∧ w.bare = v.bare ∧
      w.filterColumns.toList = x.columns ∧
      w.sortColumns.toList = [] := by
  have hskeleton : (read schema sql instrs).skeleton =
      (Openings.scan .empty schema ⟨instrs⟩).1.skeleton :=
    skeleton_readInto
  obtain ⟨w, hw, hbare⟩ := usage?_of_skeleton_eq hskeleton.symm hv
  have hcolumns (clause : Clause) : (w.columnsOf clause).toList = if clause = .filter then x.columns
      else [] := by
    obtain ⟨s, hread, hlist⟩ := columns?_readInto hs hx hnodup hseeks hterms hu hof hj hv clause
    rw [← read, columns?, hw] at hread
    rw [← hlist, ← Option.some.inj hread]
  exact ⟨w, hw, hbare, hcolumns .filter, hcolumns .sort⟩

/-- An object that has an entry is returned, and once only. -/
theorem ofProgram_of_isOf (hs : schema.Distinct) {name : String} {kind : ObjectKind}
    (hw : (read schema sql instrs).usage? j = some w) (hof : w.isOf name kind = true) :
    Covering.judge schema w ∈ ofProgram schema sql instrs ∧
      ∀ v ∈ ofProgram schema sql instrs, v.isOf name kind = true → v = Covering.judge schema w := by
  constructor
  · refine mem_usages.2 ⟨j, ?_⟩
    rw [judge, usage?_mapUsages, hw, Option.map_some]
  · intro v hv hvof
    obtain ⟨id, v, hid, rfl⟩ := mem_usages_judge hv
    rw [Usage.isOf_of_bare_eq (Covering.bare_judge schema v)] at hvof
    obtain ⟨hkind, hname⟩ := Usage.isOf_iff.1 hof
    obtain ⟨hkind', hname'⟩ := Usage.isOf_iff.1 hvof
    obtain rfl := (read_linked hs sql instrs).unique hid hw (hkind'.trans hkind.symm)
      (sameName_trans hname' (sameName_symm hname))
    rw [Option.some.inj (hid.symm.trans hw)]

/-- A table that is filtered by the columns of one of its indexes in use is covered, by this index
or by another one in use with the same columns. -/
theorem covered_by_used (hs : schema.Distinct) (hnonempty : ∀ y ∈ schema.indexes, y.name ≠ "")
    (hx : x ∈ schema.indexes) (hcolumns : x.columns ≠ [])
    (hw : (read schema sql instrs).usage? j = some w) (hof : w.isOf x.table .table = true)
    (hfilter : w.filterColumns.toList = x.columns) (hsort : w.sortColumns.toList = [])
    (huse : ∃ use ∈ w.indexes.toList, use.index = x.name) :
    ∃ y ∈ schema.indexes, (Covering.judge schema w).coveringIndex = y.name ∧
      sameName y.table x.table = true ∧
      List.Forall₂ (fun a b => sameName a b = true) x.columns y.columns ∧
      ∃ i ∈ instrs, i.OpensIndex schema y.name := by
  have hmem := (ofProgram_of_isOf hs hw hof).1
  have hverdict := (usages_verdict hs.indexes hnonempty (fun _ => .ok []) false sql instrs).2 _ hmem
  have hbare := Covering.bare_judge schema w
  have htable : (Covering.judge schema w).isIndex = false := by
    rw [Usage.isIndex_of_bare_eq hbare]
    exact Usage.isIndex_of_isOf_table hof
  obtain ⟨-, -, -, hname, -⟩ := Usage.bare_eq_iff.1 hbare
  have hwanted : (Covering.judge schema w).columns.toList = x.columns := by
    rw [Covering.columns_judge, Covering.toList_joinColumns, hfilter, hsort,
      List.filter_nil, List.append_nil]
  have hqualifies : Covering.Qualifies (Covering.judge schema w).name
      (Covering.judge schema w).columns.toList x := by
    rw [hwanted, hname]
    exact ⟨sameName_symm (Usage.isOf_iff.1 hof).2, hcolumns,
      List.forall₂_same.2 fun c _ => sameName_refl c⟩
  obtain ⟨y, hy, hchoice, hcovering, -⟩ := hverdict.covered htable ⟨x, hx, hqualifies⟩
  rw [Covering.indexes_judge] at hchoice
  rcases hchoice with ⟨before, use, after, hsplit, -, hyname, hyqualifies, -⟩ | ⟨hnone, -⟩
  · rw [hwanted, hname] at hyqualifies
    refine ⟨y, hy, hcovering, ?_, hyqualifies.2.2, ?_⟩
    · exact sameName_trans hyqualifies.1 (Usage.isOf_iff.1 hof).2
    · have hmem : use ∈ w.indexes.toList := by
        rw [hsplit]
        exact List.mem_append_right before (List.mem_cons_self ..)
      obtain ⟨i, hi, hopens⟩ := namesOpened_read hw hmem
      exact ⟨i, hi, hopens.of_sameName hs hy hyname⟩
  · -- the index itself is in use
    obtain ⟨use, huse, hx'⟩ := huse
    refine absurd hqualifies (hnone use huse x hx ?_)
    rw [hx']
    exact sameName_refl _

/-- An index that is sought by all its columns at least once, while a program does nothing else that
could say something about columns, is found with its columns in their order, whatever the order of
the seeks and the lengths of their keys. So is its table, and the table is covered: by this index,
or by another one that was opened and has the same columns. -/
theorem sought_index_covers (hs : schema.Distinct) (hnonempty : ∀ y ∈ schema.indexes, y.name ≠ "")
    (hx : x ∈ schema.indexes) (hcolumns : x.columns ≠ []) (hnodup : x.columns.Nodup)
    (htable : (schema.table? x.table).isSome = true) (hseeks : SeeksOnly schema ⟨instrs⟩ x)
    (hterms : Sql.sortTerms (Sql.tokens sql) = []) :
    let us := ofProgram schema sql instrs
    (∃ u ∈ us, u.isOf x.name .index = true) ∧ (∃ t ∈ us, t.isOf x.table .table = true) ∧
      (∀ u ∈ us, u.isOf x.name .index = true → u.filterColumns.toList = x.columns) ∧
      ∀ t ∈ us, t.isOf x.table .table = true → t.filterColumns.toList = x.columns ∧
        ∃ y ∈ schema.indexes, t.coveringIndex = y.name ∧ sameName y.table x.table = true ∧
          List.Forall₂ (fun a b => sameName a b = true) x.columns y.columns ∧
          ∃ i ∈ instrs, i.OpensIndex schema y.name := by
  intro us
  obtain ⟨id, u, hu, hof, t, ho, v, hv, hvof⟩ := exists_sought hs hx htable hseeks
  have hname :=
    (index_eq_of_isOf hs hx ((scan_linked hs (empty_linked schema) ⟨instrs⟩).known hu) hof).1
  have hindex : u.isIndex = true := Usage.isIndex_iff.2 (Usage.isOf_iff.1 hof).1
  have hreaches : (Openings.scan .empty schema ⟨instrs⟩).1.Reaches id t :=
    .inr ((ownerOfIndex?_of_owner? hu hindex).trans ho)
  obtain ⟨uread, huread, hubare, hufilter, -⟩ :=
    usage?_read hs hx hnodup hseeks hterms hu hof (.inl rfl) hu
  obtain ⟨vread, hvread, hvbare, hvfilter, hvsort⟩ :=
    usage?_read hs hx hnodup hseeks hterms hu hof hreaches hv
  rw [← Usage.isOf_of_bare_eq hubare] at hof
  rw [← Usage.isOf_of_bare_eq hvbare] at hvof
  obtain ⟨humem, huonly⟩ := ofProgram_of_isOf hs huread hof
  obtain ⟨hvmem, hvonly⟩ := ofProgram_of_isOf hs hvread hvof
  refine ⟨⟨_, humem, ?_⟩, ⟨_, hvmem, ?_⟩, fun w hw hwof => ?_, fun w hw hwof => ?_⟩
  · rw [Usage.isOf_of_bare_eq (Covering.bare_judge ..)]
    exact hof
  · rw [Usage.isOf_of_bare_eq (Covering.bare_judge ..)]
    exact hvof
  · rw [huonly w hw hwof, Covering.filterColumns_judge]
    exact hufilter
  · rw [hvonly w hw hwof]
    refine ⟨?_, ?_⟩
    · rw [Covering.filterColumns_judge]
      exact hvfilter
    · apply covered_by_used hs hnonempty hx hcolumns hvread hvof hvfilter hvsort
      -- the table has taken note of the index as its owner
      have howner : (read schema sql instrs).owner? id = some t := by
        rw [owner?_of_skeleton_eq (k := read schema sql instrs) skeleton_readInto]
        exact ho
      obtain ⟨-, v', hv', -, -, hnoted⟩ := (read_linked hs sql instrs).owner huread howner
      obtain rfl := Option.some.inj (hvread.symm.trans hv')
      obtain ⟨-, -, -, hsame, -⟩ := Usage.bare_eq_iff.1 hubare
      exact ⟨_, hnoted not_false, hsame.trans hname⟩

/-! ## Keys of different lengths -/

/-- A table of people with two indexes on the same columns, which the second one spells
differently. -/
def people : Schema where
  tables :=
    [{ name := "people", rootPage := 2, columns := ["id", "name", "age"], primaryKey := some "id" }]
  indexes :=
    [{ name := "by_name_age", table := "People", rootPage := 3, columns := ["name", "age"] },
    { name := "again", table := "people", rootPage := 4, columns := ["Name", "AGE"] }]

/-- A program that opens both indexes and seeks the first one, by one column and then by both. -/
def seekTwice : List Instr := [
  { address := 0, name := "OpenRead", p1 := some "0", p2 := some "4" },
  { address := 1, name := "OpenRead", p1 := some "1", p2 := some "3" },
  { address := 2, name := "String8", p2 := some "1", p4 := some "ann" },
  { address := 3, name := "SeekGE", p1 := some "1", p3 := some "1", p4 := some "1" },
  { address := 4, name := "Integer", p1 := some "30", p2 := some "2" },
  { address := 5, name := "SeekGE", p1 := some "1", p3 := some "1", p4 := some "2" },
  { address := 6, name := "IdxGT", p1 := some "1", p3 := some "1", p4 := some "1" },
  { address := 7, name := "ResultRow", p1 := some "1", p2 := some "2" },
  { address := 8, name := "Next", p1 := some "1", p2 := some "6" }]

/-- Both are filtered by the two columns in the order of the index that is sought, and the index
that was opened first is named. -/
theorem sought_index_covers_opened_first :
    let sql := "SELECT name, age FROM people WHERE name = 'ann' AND age >= 30"
    let us := ofProgram people sql seekTwice
    us.map (fun u => (u.name, u.filterColumns.toList, u.coveringIndex)) =
        [("again", [], ""), ("people", ["name", "age"], "again"),
          ("by_name_age", ["name", "age"], "")] ∧
      ∀ t ∈ us, t.isOf "People" .table = true → t.filterColumns.toList = ["name", "age"] ∧
        ∃ y ∈ people.indexes, t.coveringIndex = y.name ∧ sameName y.table "People" = true ∧
          List.Forall₂ (fun a b => sameName a b = true) ["name", "age"] y.columns ∧
          ∃ i ∈ seekTwice, i.OpensIndex people y.name := by
  intro sql us
  let x : Index :=
    { name := "by_name_age", table := "People", rootPage := 3, columns := ["name", "age"] }
  have hs : people.Distinct := ⟨by decide +kernel, by decide +kernel⟩
  have hseeks : SeeksOnly people ⟨seekTwice⟩ x := by
    constructor
    · intro pos i hi htells
      have hrows : ∀ pos < seekTwice.length, ((Program.at? ⟨seekTwice⟩ pos).all fun i =>
          !i.opcode.tells ||
          i.keyCount?.any fun n => decide (n ≤ 2) && Program.meansIndex people ⟨seekTwice⟩ pos i
            x.name) = true := by
        decide +kernel
      have hrow := hrows pos (Program.lt_size_of_at? hi)
      rw [hi, Option.all_some, htells, Bool.not_true, Bool.false_or, Option.any_eq_true] at hrow
      obtain ⟨n, hn, hrow⟩ := hrow
      rw [Bool.and_eq_true, decide_eq_true_eq] at hrow
      exact ⟨n, hn, hrow⟩
    · exact ⟨5, _, rfl, by decide +kernel⟩
  have hx : x ∈ people.indexes := List.mem_cons_self ..
  have hterms : Sql.sortTerms (Sql.tokens sql) = [] := by decide +kernel
  have hcovers :=
    sought_index_covers hs (by decide +kernel) hx (by decide) (by decide)
      (by decide +kernel) hseeks hterms
  exact ⟨by decide +kernel, hcovers.2.2.2⟩

end Analysis

end IndexAdvisor
