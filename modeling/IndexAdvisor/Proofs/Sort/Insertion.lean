import IndexAdvisor.Proofs.Filter.Insertion
import IndexAdvisor.Sort.Basic

/-!
# Orders and idle instructions

A sort step is made of instructions that are found by searching, so its parts are found at their new
places (`stepOf?_shift`), and its keys are traced back to the new places of the reads they come from
(`source?_shift`). A walk in stored order begins where it began.

> `sort_record_move`: the orders of the padded program are those of the plain one.
-/

namespace IndexAdvisor

namespace Insertion

variable (x : Insertion)

/-! ## Sort steps -/

@[simp]
theorem recordOf?_shift (pos : Nat) (insert : Instr) :
    Sort.recordOf? x.padded (x.shift pos) insert =
      (Sort.recordOf? x.plain pos insert).map x.shift := by
  unfold Sort.recordOf?
  rcases insert.n2 with _ | register
  · rfl
  · rcases hwriter : x.plain.lastWriter pos register with _ | writer
    · simp [hwriter]
    · simp only [Option.bind_eq_bind, Option.bind_some, lastWriter_shift, hwriter,
        Option.map_some, opcodeAt?_shift]
      split <;> rfl

@[simp]
theorem groups_shift (cursor : Int) (pos : Nat) :
    Sort.groups x.padded cursor (x.shift pos) = Sort.groups x.plain cursor pos := by
  rw [Sort.groups, x.searchForward_isOn_shift (by decide), Sort.groups]
  rcases x.plain.searchForward pos (·.isOn .sorterData cursor) Program.noEdge with _ | dataPos
  · rfl
  · have hnext : x.idle.isOn .next cursor = false := x.isOn_idle (by decide) cursor
    rw [Option.map_some]
    dsimp only
    rw [x.searchForward_shift (by simp) hnext, Option.isSome_map]

/-- The instructions of a sort step are known ones. -/
theorem idiom?_known {opcode : Opcode} {idiom : Sort.Idiom} (h : Sort.idiom? opcode = some idiom) :
    idiom.opening ≠ .other ∧ idiom.sort ≠ .other := by
  have hall : ∀ idiom ∈ [Sort.sorter, Sort.ephemeral], idiom.opening ≠ .other ∧
      idiom.sort ≠ .other := by decide
  exact hall idiom (List.mem_of_find?_eq_some h)

/-- A sort step whose record is moved. -/
def moveStep (step : Sort.Step) : Sort.Step := { step with recordPos := x.shift step.recordPos }

theorem stepOf?_shift (pos : Nat) (insert : Instr) {idiom : Sort.Idiom}
    (hopening : idiom.opening ≠ .other) (hsort : idiom.sort ≠ .other) :
    Sort.Step.of? x.padded (x.shift pos) insert idiom =
      (Sort.Step.of? x.plain pos insert idiom).map x.moveStep := by
  simp only [Sort.Step.of?, Option.bind_eq_bind, x.searchBack_isOn_shift hopening,
    x.searchForward_isOn_shift hsort, Option.bind_map, Option.map_bind, Function.comp_def,
    groups_shift, recordOf?_shift, at?_shift, apply_ite (Option.map x.moveStep)]
  rfl

@[simp]
theorem readsPseudo_padded (i : Instr) :
    Sort.readsPseudo x.padded i = Sort.readsPseudo x.plain i := by
  have hany (cursor : Int) : x.padded.instrs.any (·.isOn .openPseudo cursor) =
      x.plain.instrs.any (·.isOn .openPseudo cursor) := by
    simp [padded, plain, x.isOn_idle]
  rw [Sort.readsPseudo, Sort.readsPseudo]
  simp only [hany]

theorem sorterField?_shift (pos : Nat) (read : Instr) :
    Sort.sorterField? x.padded (x.shift pos) read =
      (Sort.sorterField? x.plain pos read).map fun field => (x.shift field.1, field.2) := by
  have hdata (pseudo : Int) : x.padded.searchBack (x.shift pos)
      (fun i => i.opcode == .sorterData && i.n3 == some pseudo) Program.noEdge =
      (x.plain.searchBack pos (fun i => i.opcode == .sorterData && i.n3 == some pseudo)
        Program.noEdge).map x.shift :=
    x.searchBack_shift (by simp) rfl pos
  have hinsert : Opcode.sorterInsert ≠ .other := by decide
  simp only [Sort.sorterField?, Option.bind_eq_bind, hdata, x.searchBack_isOn_shift hinsert,
    Option.bind_map, Option.map_bind, Function.comp_def, recordOf?_shift, at?_shift]
  rfl

theorem source?_shift (reach pos : Nat) (register : Int) :
    Sort.source? x.padded reach (x.shift pos) register =
      (Sort.source? x.plain reach pos register).map x.shift := by
  induction reach generalizing pos register with
  | zero => rfl
  | succ reach ih =>
    have hedge : Sort.startsLoop x.idle = false := by simp [Sort.startsLoop]
    rw [Sort.source?, x.searchBack_shift (x.writes_idle register) hedge, Sort.source?]
    rcases x.plain.searchBack pos (·.writes register) Sort.startsLoop with _ | writer
    · rfl
    · simp only [Option.bind_eq_bind, Option.map_some, Option.bind_some, at?_shift]
      rcases x.plain.at? writer with _ | i
      · rfl
      · simp only [Option.bind_some]
        split
        · simp only [readsPseudo_padded]
          split
          · rw [sorterField?_shift, Option.bind_map, Option.map_bind]
            simp only [Function.comp_def, ih]
          · rfl
        · rfl
        · rcases i.n1 with _ | source
          · rfl
          · exact ih writer source
        · rfl

section Scenes

variable {s : Scene} (hs : s.program = x.plain) (l : Ledger) (terms : List Sql.SortTerm)

include hs

theorem keys_move (step : Sort.Step) :
    (x.moveStep step).keys (x.move s) l terms = step.keys s l terms := by
  unfold Sort.Step.keys
  have hsource (register : Int) :
      (Sort.source? (x.move s).program Sort.sourceReach (x.moveStep step).recordPos
      register).bind ((x.move s).columnRead? l) =
      (Sort.source? s.program Sort.sourceReach step.recordPos register).bind (s.columnRead? l) := by
    have hshift : Sort.source? (x.move s).program Sort.sourceReach
        (x.moveStep step).recordPos register =
        (Sort.source? s.program Sort.sourceReach step.recordPos register).map x.shift := by
      rw [hs]
      exact x.source?_shift Sort.sourceReach step.recordPos register
    rw [hshift, Option.bind_map]
    congr 1
    funext pos
    exact x.columnRead?_move hs l pos
  simp only [hsource]
  rfl

theorem stepKeys?_move (pos : Nat) (i : Instr) :
    Sort.stepKeys? (x.move s) l terms (x.shift pos) i = Sort.stepKeys? s l terms pos i := by
  unfold Sort.stepKeys?
  rcases hidiom : Sort.idiom? i.opcode with _ | idiom
  · rfl
  · obtain ⟨hopening, hsort⟩ := idiom?_known hidiom
    have hstep : Sort.Step.of? (x.move s).program (x.shift pos) i idiom =
        (Sort.Step.of? s.program pos i idiom).map x.moveStep := by
      rw [hs]
      exact x.stepOf?_shift pos i hopening hsort
    simp only [Option.bind_eq_bind, Option.bind_some, hstep, Option.bind_map,
      Function.comp_def, x.keys_move hs]

theorem recordSteps_move : Sort.recordSteps (x.move s) l terms = Sort.recordSteps s l terms := by
  rw [Sort.recordSteps, Sort.recordSteps, hs]
  symm
  apply x.visit_padded rfl
  · rintro ⟨k, found⟩ _ pos i - rfl
    simp only [x.stepKeys?_move hs]
  · rintro found _ rfl
    simp [Sort.stepKeys?, Sort.idiom?, Sort.sorter, Sort.ephemeral]

/-! ## Walks -/

theorem walkedEntry?_move (forward : Bool) (pos : Nat) (i : Instr) :
    Sort.walkedEntry? (x.move s) forward (x.shift pos) i = Sort.walkedEntry? s forward pos i := by
  have hstart (advance : Opcode) (cursor : Int) :
      (x.move s).program.searchBack (x.shift pos)
      (Sort.startsWalk forward advance cursor) Program.noEdge =
      (s.program.searchBack pos (Sort.startsWalk forward advance cursor) Program.noEdge).map
      x.shift := by
    have hidle : Sort.startsWalk forward advance cursor x.idle = false := by
      unfold Sort.startsWalk
      split <;> simp [Opcode.isSeek]
    rw [hs]
    exact x.searchBack_shift hidle rfl pos
  have hentry (pos : Nat) : (x.move s).entryAt? (x.shift pos) = s.entryAt? pos := by
    simp only [Scene.entryAt?, x.at?_move hs, x.of?_move]
  simp only [Sort.walkedEntry?, hstart, Option.bind_eq_bind, Option.bind_map,
    Function.comp_def, hentry]

theorem walks_move (forward : Bool) : Sort.walks (x.move s) forward = Sort.walks s forward := by
  rw [Sort.walks, Sort.walks, hs]
  symm
  apply x.visit_padded rfl
  · rintro found _ pos i - rfl
    rw [x.walkedEntry?_move hs]
  · rintro found _ rfl
    simp [Sort.walkedEntry?]

/-- The orders of the padded program are those of the plain one. -/
theorem sort_record_move : Sort.record (x.move s) l = Sort.record s l := by
  unfold Sort.record Sort.recordWalks
  simp only [x.recordSteps_move hs, x.walks_move hs]
  rfl

end Scenes

end Insertion

end IndexAdvisor
