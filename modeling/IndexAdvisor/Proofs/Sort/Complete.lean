import IndexAdvisor.Proofs.Program.Search
import IndexAdvisor.Sort.Idiom

/-!
# Complete sort steps

An insert belongs to a sort step if its cursor is opened before it and sorted behind it, in the way
of one of the two kinds of sort steps, if the sorted rows are not read back to be grouped, and if
what it inserts is a record. `Complete` says this of the instructions around the insert.

> `of?_eq_some_iff`: the search for the parts of a sort step finds them exactly if the step is
> complete.

The key is then made of the columns that are loaded into the first registers of the record
(`stepKeys?_of_complete`).
-/

namespace IndexAdvisor.Program

/-- The instruction at `q` is the last one before a position that is wanted. -/
structure LastBefore (p : Program) (want : Instr → Bool) (pos q : Nat) (i : Instr) : Prop where
  lt : q < pos
  here : p.at? q = some i
  wanted : want i = true
  between : ∀ k j, q < k → k < pos → p.at? k = some j → want j = false

/-- The instruction at `q` is the first one behind a position that is wanted. -/
structure FirstBehind (p : Program) (want : Instr → Bool) (pos q : Nat) (i : Instr) : Prop where
  lt : pos < q
  here : p.at? q = some i
  wanted : want i = true
  between : ∀ k j, pos < k → k < q → p.at? k = some j → want j = false

variable {p : Program} {want : Instr → Bool} {pos q : Nat}

theorem searchBack_noEdge_iff : p.searchBack pos want noEdge = some q ↔
    ∃ i, p.LastBefore want pos q i := by
  rw [searchBack_eq_some_iff]
  constructor
  · intro h
    obtain ⟨hlt, ⟨i, hi, hwant⟩, hclear⟩ := h
    exact ⟨i, hlt, hi, hwant, fun k j hqk hk hj => (hclear k j hqk hk hj).1⟩
  · intro h
    obtain ⟨i, hlt, hi, hwant, hbetween⟩ := h
    exact ⟨hlt, ⟨i, hi, hwant⟩, fun k j hqk hk hj => ⟨hbetween k j hqk hk hj, rfl⟩⟩

theorem searchForward_noEdge_iff : p.searchForward pos want noEdge = some q ↔
    ∃ i, p.FirstBehind want pos q i := by
  rw [searchForward_eq_some_iff]
  constructor
  · intro h
    obtain ⟨hlt, ⟨i, hi, hwant⟩, hclear⟩ := h
    exact ⟨i, hlt, hi, hwant, fun k j hk hkq hj => (hclear k j hk hkq hj).1⟩
  · intro h
    obtain ⟨i, hlt, hi, hwant, hbetween⟩ := h
    exact ⟨hlt, ⟨i, hi, hwant⟩, fun k j hk hkq hj => ⟨hbetween k j hk hkq hj, rfl⟩⟩

end IndexAdvisor.Program

namespace IndexAdvisor.Sort

deriving instance DecidableEq for Step

/-- The loop that reads a sorter back after it is sorted compares keys or aggregates before it moves
on. -/
def Grouped (p : Program) (cursor : Int) (sortPos : Nat) : Prop :=
  ∃ dataPos data, p.FirstBehind (·.isOn .sorterData cursor) sortPos dataPos data ∧
    ∃ q i, dataPos < q ∧ p.at? q = some i ∧ (i.opcode = .compareKeys ∨ i.opcode = .aggregateStep) ∧
      ∀ k j, dataPos < k → k < q → p.at? k = some j → j.isOn .next cursor = false

/-- The insert at a position belongs to a sort step that has all its parts and does not serve
grouping. -/
structure Complete (p : Program) (pos : Nat) (insert : Instr) (idiom : Idiom) (step : Step) :
    Prop where
  kind : idiom ∈ [sorter, ephemeral] ∧ insert.opcode = idiom.insert
  cursor : ∃ cursor openPos sortPos sorting, insert.n1 = some cursor ∧
    p.LastBefore (·.isOn idiom.opening cursor) pos openPos step.opening ∧
    p.FirstBehind (·.isOn idiom.sort cursor) pos sortPos sorting ∧ ¬Grouped p cursor sortPos
  record : ∃ register record, insert.n2 = some register ∧
    p.LastBefore (·.writes register) pos step.recordPos record ∧ record.opcode = .makeRecord ∧
    record.n1 = some step.first ∧ record.n2 = some (step.count : Int)

variable {p : Program} {pos q : Nat} {insert : Instr} {idiom : Idiom} {step : Step}

theorem groups_iff {cursor : Int} {sortPos : Nat} : groups p cursor sortPos = true ↔
    Grouped p cursor sortPos := by
  unfold groups
  split
  · next hnone =>
    refine iff_of_false Bool.false_ne_true ?_
    intro h
    obtain ⟨dataPos, data, hdata, -⟩ := h
    rw [Program.searchForward_noEdge_iff.2 ⟨data, hdata⟩] at hnone
    cases hnone
  · next dataPos hsome =>
    obtain ⟨data, hdata⟩ := Program.searchForward_noEdge_iff.1 hsome
    rw [Program.searchForward_isSome_iff]
    simp only [Bool.or_eq_true, beq_iff_eq]
    constructor
    · intro h
      exact ⟨dataPos, data, hdata, h⟩
    · intro h
      obtain ⟨dataPos', data', hdata', h⟩ := h
      have hsame := Program.searchForward_noEdge_iff.2 ⟨data', hdata'⟩
      obtain rfl := Option.some.inj (hsome.symm.trans hsame)
      exact h

theorem recordOf?_eq_some_iff : recordOf? p pos insert = some q ↔
    ∃ register record, insert.n2 = some register ∧
    p.LastBefore (·.writes register) pos q record ∧ record.opcode = .makeRecord := by
  unfold recordOf? Program.lastWriter
  simp only [Option.bind_eq_bind, Option.bind_eq_some_iff, Program.searchBack_noEdge_iff]
  constructor
  · intro h
    obtain ⟨register, hregister, writer, ⟨record, hrecord⟩, h⟩ := h
    split at h
    · next hopcode =>
      obtain rfl := Option.some.inj h
      rw [Program.opcodeAt?, hrecord.here, Option.map_some, beq_iff_eq, Option.some_inj] at hopcode
      exact ⟨register, record, hregister, hrecord, hopcode⟩
    · cases h
  · intro h
    obtain ⟨register, record, hregister, hrecord, hopcode⟩ := h
    refine ⟨register, hregister, q, ⟨record, hrecord⟩, ?_⟩
    rw [Program.opcodeAt?, hrecord.here, Option.map_some, hopcode, beq_self_eq_true, if_pos rfl]

theorem idiom?_eq_some_iff {opcode : Opcode} :
    idiom? opcode = some idiom ↔ idiom ∈ [sorter, ephemeral] ∧ opcode = idiom.insert := by
  unfold idiom?
  constructor
  · intro h
    refine ⟨List.mem_of_find?_eq_some h, ?_⟩
    have hinsert := List.find?_some h
    exact (beq_iff_eq.1 hinsert).symm
  · intro h
    obtain ⟨hidiom, rfl⟩ := h
    revert idiom
    decide

/-- The search for the parts of a sort step finds them exactly if the step is complete. -/
theorem of?_eq_some_iff (hidiom : idiom? insert.opcode = some idiom) :
    Step.of? p pos insert idiom = some step ↔ Complete p pos insert idiom step := by
  unfold Step.of?
  simp only [Option.bind_eq_bind, Option.bind_eq_some_iff, Program.searchBack_noEdge_iff,
    Program.searchForward_noEdge_iff]
  constructor
  · intro h
    obtain ⟨cursor, hcursor, openPos, ⟨opening, hopening⟩, sortPos, ⟨sorting, hsorting⟩, h⟩ := h
    split at h
    · cases h
    · next hgroups =>
      simp only [Option.bind_eq_some_iff] at h
      obtain ⟨recordPos, hrecordOf, record', hrecord', first, hfirst, count, hcount, h⟩ := h
      split at h
      · cases h
      · next hnegative =>
        rw [hopening.here, Option.bind_some] at h
        obtain rfl := Option.some.inj h
        obtain ⟨register, record, hregister, hrecord, hopcode⟩ := recordOf?_eq_some_iff.1 hrecordOf
        obtain rfl := Option.some.inj (hrecord.here.symm.trans hrecord')
        refine ⟨idiom?_eq_some_iff.1 hidiom,
          ⟨cursor, openPos, sortPos, sorting, hcursor, hopening, hsorting, ?_⟩, register, record,
          hregister, hrecord, hopcode, hfirst, ?_⟩
        · rw [← groups_iff]
          exact hgroups
        · rw [hcount]
          exact congrArg some (Int.toNat_of_nonneg (Int.not_lt.1 hnegative)).symm
  · intro h
    obtain ⟨-, ⟨cursor, openPos, sortPos, sorting, hcursor, hopening, hsorting, hgrouped⟩,
      register, record, hregister, hrecord, hopcode, hfirst, hcount⟩ := h
    refine ⟨cursor, hcursor, openPos, ⟨_, hopening⟩, sortPos, ⟨sorting, hsorting⟩, ?_⟩
    rw [← groups_iff] at hgrouped
    have hnegative : ¬(step.count : Int) < 0 := Int.not_lt.2 (Int.natCast_nonneg _)
    rw [if_neg hgrouped, recordOf?_eq_some_iff.2 ⟨register, record, hregister, hrecord, hopcode⟩,
      Option.bind_some, hrecord.here, Option.bind_some, hfirst, Option.bind_some, hcount,
      Option.bind_some, if_neg hnegative, hopening.here, Option.bind_some]
    rfl

/-- The keys of a complete sort step. -/
theorem stepKeys?_of_complete (h : Complete p pos insert idiom step) {s : Scene}
    (hs : s.program = p) (l : Ledger) (terms : List Sql.SortTerm) :
    stepKeys? s l terms pos insert = some (step.keys s l terms) := by
  subst hs
  have hidiom := idiom?_eq_some_iff.2 h.kind
  rw [stepKeys?, hidiom, Option.bind_eq_bind, Option.bind_some, (of?_eq_some_iff hidiom).2 h]
  rfl

end IndexAdvisor.Sort
