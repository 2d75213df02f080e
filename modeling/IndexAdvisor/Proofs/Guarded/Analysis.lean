import IndexAdvisor.Analysis
import IndexAdvisor.Proofs.Guarded.Sort

/-!
# The guarded analysis

The parts put together: a program is scanned, its filters and then its orders are recorded, and
every usage that is found is judged.

> `analysis_in_range`: if the first three operands of all instructions have 32 bits and the schema
> can be stored, the guarded analysis ends, without a fault, with the result of the analysis; and
> each of its searches ends from wherever it begins.

Nothing is assumed of the fourth operands: a key may count any number of registers, an affinity may
have any number of codes and a sorter may declare any width (`analysis_in_range_entangled`).
-/

namespace IndexAdvisor

/-! ## Changes of all usages -/

namespace Ledger

/-- Changing one usage after the other changes all of them. -/
theorem foldl_modify_eq (l : Ledger) (change : Usage → Usage) :
    (List.range l.size).foldl (fun k id => k.modify id change) l = l.mapUsages change := by
  have hfirst (n : Nat) : (∀ id,
      ((List.range n).foldl (fun k id => k.modify id change) l).usage? id =
        (l.usage? id).map fun u => if id < n then change u else u) ∧
      ∀ id, ((List.range n).foldl (fun k id => k.modify id change) l).owner? id = l.owner? id := by
    induction n with
    | zero =>
      refine ⟨fun id => ?_, fun _ => rfl⟩
      rcases hu : l.usage? id with _ | u <;> simp [hu]
    | succ n ih =>
      rw [List.range_succ, List.foldl_append, List.foldl_cons, List.foldl_nil]
      refine ⟨fun id => ?_, fun id => ?_⟩
      · rw [usage?_modify, ih.1]
        rcases l.usage? id with _ | u
        · simp
        · rcases Nat.lt_trichotomy id n with hlt | rfl | hgt
          · simp [Nat.ne_of_lt hlt, hlt, Nat.lt_succ_of_lt hlt]
          · simp
          · have hout : ¬id < n + 1 := by omega
            simp [Nat.ne_of_gt hgt, Nat.not_lt_of_gt hgt, hout]
      · rw [owner?_modify, ih.2]
  apply ext_entries
  · intro id
    rw [(hfirst l.size).1, usage?_mapUsages]
    rcases hu : l.usage? id with _ | u
    · rfl
    · rw [Option.map_some, Option.map_some, if_pos (lt_size_of_usage? hu)]
  · intro id
    rw [(hfirst l.size).2, owner?_mapUsages]

end Ledger

namespace Guarded

variable {schema : Schema} {l : Ledger} {id : Nat}

/-! ## Judging -/

/-- Joins the columns of the usage at a place and, for a table, notes the index that covers them. -/
def judgeAt (schema : Schema) (l : Ledger) (id : Nat) : Guarded Ledger := do
  let joined ← modify l id Usage.joinColumns
  let u ← usageAt joined id
  if u.isIndex then return joined
  let some shape := Covering.covering? u (Covering.shapesOf schema u.name) | return joined
  modify joined id fun u => { u with
    coveringIndex := shape.name
    coveringColumns :=
      OrderedSet.ofList (shape.columns.map (⟨Covering.cursorFor u shape.name, ·⟩)) }

/-- Judges every usage of the ledger. -/
def judge (l : Ledger) (schema : Schema) : Guarded Ledger :=
  (List.range l.size).foldlM (judgeAt schema) l

theorem judgeAt_eq (schema : Schema) (hid : id < l.size) :
    judgeAt schema l id = pure (l.modify id (Covering.judge schema)) := by
  obtain ⟨u, hu⟩ := Ledger.exists_usage? hid
  have hjoined : (l.modify id Usage.joinColumns).usage? id = some u.joinColumns := by
    rw [Ledger.usage?_modify, if_pos rfl, hu, Option.map_some]
  -- what is left at the place decides, the other places are as they were
  have hsame {k : Ledger} (hat : k.usage? id = some (Covering.judge schema u))
      (helse : ∀ j, j ≠ id → k.usage? j = l.usage? j) (howner : ∀ j, k.owner? j = l.owner? j) :
      k = l.modify id (Covering.judge schema) := by
    apply Ledger.ext_entries
    · intro j
      rw [Ledger.usage?_modify]
      by_cases hj : j = id
      · rw [if_pos hj, hj, hat, hu, Option.map_some]
      · rw [if_neg hj, helse j hj]
    · intro j
      rw [howner j, Ledger.owner?_modify]
  have hothers (change : Usage → Usage) (k : Ledger) (j : Nat) (hj : j ≠ id) :
      (k.modify id change).usage? j = k.usage? j := by
    rw [Ledger.usage?_modify, if_neg hj]
  rw [judgeAt, modify_eq hid, pure_bind, usageAt_eq hjoined, pure_bind]
  by_cases hindex : u.joinColumns.isIndex = true
  · rw [if_pos hindex, ← hsame]
    · rw [hjoined, Covering.judge, if_pos hindex]
    · exact hothers _ l
    · exact Ledger.owner?_modify l id _
  · rw [if_neg hindex]
    rcases hcovering : Covering.covering? u.joinColumns
      (Covering.shapesOf schema u.joinColumns.name) with _ | shape
    · rw [← hsame]
      · rw [hjoined, Covering.judge, if_neg hindex, hcovering]
      · exact hothers _ l
      · exact Ledger.owner?_modify l id _
    · dsimp only
      rw [modify_eq (by rw [Ledger.size_modify]; exact hid), ← hsame]
      · rw [Ledger.usage?_modify, if_pos rfl, hjoined, Option.map_some, Covering.judge,
          if_neg hindex, hcovering]
      · intro j hj
        rw [hothers _ _ j hj, hothers _ _ j hj]
      · intro j
        rw [Ledger.owner?_modify, Ledger.owner?_modify]

theorem judge_eq (l : Ledger) (schema : Schema) : judge l schema = pure (l.judge schema) := by
  have hrun : judge l schema =
      pure ((List.range l.size).foldl (fun k id => k.modify id (Covering.judge schema)) l) := by
    refine (foldlM_eq_foldl (P := fun k => k.size = l.size) rfl fun k id hid hk => ⟨?_, ?_⟩).1
    · apply judgeAt_eq
      rw [hk]
      exact List.mem_range.1 hid
    · rw [Ledger.size_modify, hk]
  rw [hrun, Ledger.foldl_modify_eq]
  rfl

/-! ## The analysis -/

/-- The findings in the program of one statement. -/
def read (schema : Schema) (sql : String) (instrs : List Instr) : Guarded Ledger := do
  let program : Program := ⟨instrs⟩
  let (opened, openings) ← scan .empty schema program
  let s : Scene := { program, schema, openings, tokens := Sql.tokens sql }
  let filtered ← filters s opened
  orders s filtered

/-- The usages found in one program, judged. -/
def ofProgram (schema : Schema) (sql : String) (instrs : List Instr) : Guarded (List Usage) := do
  let found ← read schema sql instrs
  let judged ← judge found schema
  return judged.usages

variable {instrs : List Instr}

theorem read_eq (hp : Program.Narrow ⟨instrs⟩) (hs : schema.Stored) (sql : String) :
    read schema sql instrs = pure (Analysis.read schema sql instrs) := by
  have hbounded := Openings.scan_bounded schema ⟨instrs⟩
  rw [read, Analysis.read, Analysis.readInto]
  dsimp only
  rw [scan_eq hp, pure_bind]
  rcases hscan : Openings.scan .empty schema ⟨instrs⟩ with ⟨opened, openings⟩
  rw [hscan] at hbounded
  let s : Scene := { program := ⟨instrs⟩, schema, openings, tokens := Sql.tokens sql }
  have hfiltered : filters s opened = pure (Filter.record s opened) := filters_eq hp hs hbounded
  have hkept : (Filter.record s opened).skeleton = opened.skeleton :=
    (Filter.record_sees s opened).sighted.skeleton_eq
  dsimp only
  rw [hfiltered, pure_bind]
  exact orders_eq hp (hbounded.of_skeleton_eq hkept)

theorem ofProgram_eq (hp : Program.Narrow ⟨instrs⟩) (hs : schema.Stored) (sql : String) :
    ofProgram schema sql instrs = pure (Analysis.ofProgram schema sql instrs) := by
  rw [ofProgram, read_eq hp hs, pure_bind, judge_eq, pure_bind]
  rfl

/-- With every sum checked to be a word, every position and place to exist and every search to end,
the analysis of a program whose first three operands have 32 bits gives its findings; and any ledger
is judged. The searches for constants and for the sources of keys end from every position, for every
register and at every depth, and nest no more than so many calls even if they may nest more. Only
the search for the constant of a register near the edge of the words may leave their range, and the
analysis asks for none. -/
theorem analysis_in_range (hp : Program.Narrow ⟨instrs⟩) (hs : schema.Stored) (sql : String) :
    read schema sql instrs = .ok (Analysis.read schema sql instrs) ∧
      ofProgram schema sql instrs = .ok (Analysis.ofProgram schema sql instrs) ∧
      (∀ l, judge l schema = .ok (l.judge schema)) ∧
      (∀ pos register, (recover ⟨instrs⟩ pos register).Ends ∧
        (Spacious register → recover ⟨instrs⟩ pos register =
          .ok (Program.valueAt? ⟨instrs⟩ pos register))) ∧
      ∀ calls ≥ nesting, ∀ depth,
        (∀ pos register, recoverAtDepth ⟨instrs⟩ calls pos register depth =
          .ok (Program.constantWithin ⟨instrs⟩ (Program.copyReach - depth) pos register)) ∧
        (∀ pos register, keySource ⟨instrs⟩ calls pos register depth =
          .ok (Sort.source? ⟨instrs⟩ (Sort.sourceReach - depth) pos register)) ∧
        ∀ pos i, instrs[pos]? = some i → throughSorter ⟨instrs⟩ (calls + 1) pos depth =
          .ok ((Sort.sorterField? ⟨instrs⟩ pos i).bind fun field =>
            Sort.source? ⟨instrs⟩ (Sort.sourceReach - depth) field.1 field.2) := by
  refine ⟨read_eq hp hs sql, ofProgram_eq hp hs sql, fun l => judge_eq l schema,
    fun pos register => ?_, fun calls hcalls depth => ?_⟩
  · exact ⟨recover_ends _ pos register, fun hregister => recover_eq hp hregister pos⟩
  · have hnesting : 11 ≤ calls := hcalls
    have hcopies : Program.copyReach - depth < calls := by
      have hreach : Program.copyReach = 5 := rfl
      omega
    have hsteps : 2 * (Sort.sourceReach - depth) < calls := by
      have hreach : Sort.sourceReach = 5 := rfl
      omega
    have hkey (pos : Nat) (register : Int) := keySource_eq hp hsteps pos register
    exact ⟨recoverAtDepth_eq _ hcopies, hkey, fun pos i hi => throughSorter_of_keySource hp hkey hi⟩

/-- A program with all that might lead astray: an index under the least cursor, whose table is never
opened; registers that are copied from each other, before a key that counts as many of them as a
word can; an affinity that begins at the least register, before a constant in one of the greatest;
pseudo cursors that read each other's records, and a sorter of more keys than it has fields. -/
def entangled : List Instr := [
  { address := 0, name := "OpenRead", p1 := some "-2147483648", p2 := some "3" },
  { address := 1, name := "SorterOpen", p1 := some "2", p4 := some "k(18446744073709551615,B)" },
  { address := 2, name := "SorterOpen", p1 := some "3" },
  { address := 3, name := "OpenPseudo", p1 := some "4" },
  { address := 4, name := "OpenPseudo", p1 := some "5" },
  { address := 5, name := "SCopy", p1 := some "2147483647", p2 := some "-2147483648" },
  { address := 6, name := "SCopy", p1 := some "-2147483648", p2 := some "2147483647" },
  { address := 7, name := "SeekGE", p1 := some "-2147483648", p3 := some "2147483647",
    p4 := some "9223372036854775807" },
  { address := 8, name := "String8", p2 := some "2147483646", p4 := some "ann" },
  { address := 9, name := "Affinity", p1 := some "-2147483648", p2 := some "2147483647",
    p4 := some "BBAB" },
  { address := 10, name := "IdxGT", p1 := some "-2147483648", p3 := some "2147483646",
    p4 := some "1" },
  { address := 11, name := "Column", p1 := some "4", p2 := some "0", p3 := some "20" },
  { address := 12, name := "MakeRecord", p1 := some "20", p2 := some "1", p3 := some "21" },
  { address := 13, name := "SorterInsert", p1 := some "2", p2 := some "21" },
  { address := 14, name := "SorterData", p1 := some "2", p2 := some "22", p3 := some "5" },
  { address := 15, name := "Column", p1 := some "5", p2 := some "0", p3 := some "23" },
  { address := 16, name := "MakeRecord", p1 := some "23", p2 := some "1", p3 := some "24" },
  { address := 17, name := "SorterInsert", p1 := some "3", p2 := some "24" },
  { address := 18, name := "SorterData", p1 := some "3", p2 := some "25", p3 := some "4" },
  { address := 19, name := "Column", p1 := some "4", p2 := some "0", p3 := some "26" },
  { address := 20, name := "MakeRecord", p1 := some "26", p2 := some "1", p3 := some "27" },
  { address := 21, name := "SorterInsert", p1 := some "2", p2 := some "27" },
  { address := 22, name := "SorterSort", p1 := some "2", p2 := some "23" }]

/-- The table stands under the negated cursor, the key ends with the columns of the index, and
neither the copies nor the pseudo cursors lead anywhere. -/
theorem analysis_in_range_entangled : Program.Narrow ⟨entangled⟩ ∧ Analysis.usersByName.Stored ∧
    ofProgram Analysis.usersByName "SELECT 'broken" entangled =
      .ok (Analysis.ofProgram Analysis.usersByName "SELECT 'broken" entangled) ∧
    (Analysis.ofProgram Analysis.usersByName "SELECT 'broken" entangled).map
        (fun u => (u.cursor, u.name, u.columns.toList, u.filters.toList)) =
      [(-2147483648, "users_name", ["name", "id"], ["\"name\"<='ann'"]),
        (2147483648, "users", ["name", "id"], ["\"name\"<='ann'"])] ∧
    recover ⟨entangled⟩ 7 2147483647 = .ok none ∧
      keySource ⟨entangled⟩ nesting 20 26 0 = .ok none := by
  have hp : Program.Narrow ⟨entangled⟩ := by
    show ∀ i ∈ entangled, i.isNarrow = true
    decide +kernel
  have hs : Analysis.usersByName.Stored := by
    show ∀ index ∈ Analysis.usersByName.indexes, 24 * index.columns.length < 0x8000000000000000
    decide
  obtain ⟨-, hanalysis, -, hconstants, hsearches⟩ := analysis_in_range hp hs "SELECT 'broken"
  have hregister : Spacious 2147483647 := by
    show (-0x7fffffff80000000 : Int) ≤ 2147483647 ∧ (2147483647 : Int) < 0x7fffffff80000000
    omega
  refine ⟨hp, hs, hanalysis, by decide +kernel, ?_, ?_⟩
  · rw [(hconstants 7 2147483647).2 hregister]
    decide +kernel
  · obtain ⟨-, hkey, -⟩ := hsearches nesting (Nat.le_refl nesting) 0
    rw [hkey 20 26]
    decide +kernel

end Guarded

end IndexAdvisor
