import IndexAdvisor.Program.Value
import IndexAdvisor.Proofs.Program.Search

/-!
# Programs with an idle instruction

An instruction of a name that is not known carries no information: it writes no register, and no
search wants it or stops at it. Put into a program, it moves what stands behind it by one place, and
what is found around a position is found around its new place again.

> `searchBack_shift`, `searchForward_shift`: a search from the new place of a position finds the new
> place of what it found.

So registers are written at the new places of where they were written, and hold the same constants
(`valueAt?_shift`); and a visit makes the same steps (`visit_padded`). Only addresses are not moved:
a jump that goes to the address of the idle instruction meets it (`jumpTarget?_shift`).
-/

namespace IndexAdvisor

/-- A program in two parts, and an instruction between them that carries no information. -/
structure Insertion where
  before : List Instr
  idle : Instr
  after : List Instr
  opcode_idle : idle.opcode = .other

namespace Insertion

variable (x : Insertion)

/-- The program without the idle instruction. -/
def plain : Program := ⟨x.before ++ x.after⟩

/-- The program with the idle instruction. -/
def padded : Program := ⟨x.before ++ x.idle :: x.after⟩

/-- The place in the padded program of what stands at a position of the plain one. -/
def shift (pos : Nat) : Nat := if pos < x.before.length then pos else pos + 1

attribute [simp] opcode_idle

theorem shift_of_lt {pos : Nat} (h : pos < x.before.length) : x.shift pos = pos := if_pos h

theorem shift_of_le {pos : Nat} (h : x.before.length ≤ pos) : x.shift pos = pos + 1 :=
  if_neg (Nat.not_lt.2 h)

theorem shift_succ {pos : Nat} (h : pos + 1 ≠ x.before.length) :
    x.shift (pos + 1) = x.shift pos + 1 := by
  unfold shift
  split <;> split <;> omega

@[simp]
theorem shift_le_shift {pos q : Nat} : x.shift pos ≤ x.shift q ↔ pos ≤ q := by
  unfold shift
  split <;> split <;> omega

@[simp]
theorem shift_inj {pos q : Nat} : x.shift pos = x.shift q ↔ pos = q := by
  rw [Nat.le_antisymm_iff, shift_le_shift, shift_le_shift, ← Nat.le_antisymm_iff]

/-! ## What stands where -/

theorem at?_idle : x.padded.at? x.before.length = some x.idle := by
  simp [Program.at?, padded]

@[simp]
theorem at?_shift (pos : Nat) : x.padded.at? (x.shift pos) = x.plain.at? pos := by
  unfold Program.at? padded plain
  by_cases h : pos < x.before.length
  · rw [x.shift_of_lt h, List.getElem?_append_left h, List.getElem?_append_left h]
  · have hle := Nat.not_lt.1 h
    rw [x.shift_of_le hle, List.getElem?_append_right hle, List.getElem?_append_right (by omega),
      Nat.succ_sub hle, List.getElem?_cons_succ]

@[simp]
theorem opcodeAt?_shift (pos : Nat) : x.padded.opcodeAt? (x.shift pos) = x.plain.opcodeAt? pos := by
  rw [Program.opcodeAt?, at?_shift, Program.opcodeAt?]

theorem size_padded : x.padded.size = x.shift x.plain.size := by
  have hle : x.before.length ≤ x.plain.size := by simp [Program.size, plain]
  rw [x.shift_of_le hle]
  simp [Program.size, padded, plain]
  omega

@[simp]
theorem target_idle : x.idle.target = none := by simp [Instr.target]

@[simp]
theorem writes_idle (register : Int) : x.idle.writes register = false := by simp [Instr.writes]

theorem isOn_idle {opcode : Opcode} (h : opcode ≠ .other) (cursor : Int) :
    x.idle.isOn opcode cursor = false := by
  simp [Instr.isOn, h.symm]

/-! ## Searches -/

section Searches

variable {want edge : Instr → Bool} (hwant : want x.idle = false) (hedge : edge x.idle = false)

include hwant hedge

/-- A search downwards passes over the idle instruction. -/
theorem searchBelow_idle : x.padded.searchBelow want edge (x.before.length + 1) =
    x.padded.searchBelow want edge x.before.length := by
  rw [Program.searchBelow, at?_idle]
  simp [hwant, hedge]

theorem searchBelow_shift (pos : Nat) :
    x.padded.searchBelow want edge (x.shift pos) =
      (x.plain.searchBelow want edge pos).map x.shift := by
  induction pos with
  | zero =>
    by_cases h : 0 < x.before.length
    · rw [x.shift_of_lt h]
      rfl
    · have hnil : x.before.length = 0 := by omega
      rw [x.shift_of_le (Nat.le_of_eq hnil), ← hnil, x.searchBelow_idle hwant hedge, hnil]
      rfl
  | succ pos ih =>
    -- behind the idle instruction the search comes to it, and then to the place of the position
    -- before
    have hskip : x.padded.searchBelow want edge (x.shift (pos + 1)) =
        x.padded.searchBelow want edge (x.shift pos + 1) := by
      by_cases hlast : pos + 1 = x.before.length
      · rw [x.shift_of_le (Nat.le_of_eq hlast.symm), x.shift_of_lt (by omega), hlast,
          x.searchBelow_idle hwant hedge]
      · rw [x.shift_succ hlast]
    rw [hskip, Program.searchBelow, at?_shift, ih, Program.searchBelow]
    rcases x.plain.at? pos with _ | i
    · rfl
    · dsimp only
      by_cases hi : want i = true
      · rw [if_pos hi, if_pos hi, Option.map_some]
      · by_cases he : edge i = true
        · rw [if_neg hi, if_neg hi, if_pos he, if_pos he, Option.map_none]
        · rw [if_neg hi, if_neg hi, if_neg he, if_neg he]

theorem searchBack_shift (start : Nat) :
    x.padded.searchBack (x.shift start) want edge =
      (x.plain.searchBack start want edge).map x.shift := by
  rw [Program.searchBack_eq_searchBelow, x.searchBelow_shift hwant hedge,
    Program.searchBack_eq_searchBelow]

omit hwant hedge in
theorem searchList_succ (instrs : List Instr) (k : Nat) :
    Program.searchList want edge (k + 1) instrs =
      (Program.searchList want edge k instrs).map (· + 1) := by
  induction instrs generalizing k with
  | nil => rfl
  | cons i rest ih =>
    rw [Program.searchList, Program.searchList]
    by_cases hi : want i = true
    · rw [if_pos hi, if_pos hi, Option.map_some]
    · by_cases he : edge i = true
      · rw [if_neg hi, if_neg hi, if_pos he, if_pos he, Option.map_none]
      · rw [if_neg hi, if_neg hi, if_neg he, if_neg he, ih]

theorem searchList_insert (front : List Instr) {k : Nat} (hk : k + front.length = x.before.length) :
    Program.searchList want edge k (front ++ x.idle :: x.after) =
      (Program.searchList want edge k (front ++ x.after)).map x.shift := by
  induction front generalizing k with
  | nil =>
    rw [List.nil_append, List.nil_append, Program.searchList, if_neg (by simp [hwant]),
      if_neg (by simp [hedge]), searchList_succ]
    apply Option.map_congr
    intro q hq
    obtain ⟨n, i, rfl, -⟩ := Program.searchList_eq_some_iff.1 hq
    rw [List.length_nil] at hk
    rw [x.shift_of_le (by omega)]
  | cons i front ih =>
    rw [List.length_cons] at hk
    rw [List.cons_append, List.cons_append, Program.searchList, Program.searchList, ih (by omega)]
    by_cases hi : want i = true
    · rw [if_pos hi, if_pos hi, Option.map_some, x.shift_of_lt (by omega)]
    · by_cases he : edge i = true
      · rw [if_neg hi, if_neg hi, if_pos he, if_pos he, Option.map_none]
      · rw [if_neg hi, if_neg hi, if_neg he, if_neg he]

theorem searchForward_shift (start : Nat) :
    x.padded.searchForward (x.shift start) want edge =
      (x.plain.searchForward start want edge).map x.shift := by
  unfold Program.searchForward padded plain
  by_cases h : start < x.before.length
  · rw [x.shift_of_lt h, List.drop_append_of_le_length h, List.drop_append_of_le_length h]
    apply x.searchList_insert hwant hedge
    rw [List.length_drop]
    omega
  · -- the idle instruction stands before the start, so only the positions differ
    have hle := Nat.not_lt.1 h
    have hfront : x.before.drop (start + 1) = [] := List.drop_eq_nil_of_le (by omega)
    have hfront' : x.before.drop (start + 1 + 1) = [] := List.drop_eq_nil_of_le (by omega)
    have hdrop : (x.before ++ x.idle :: x.after).drop (start + 1 + 1) =
        (x.before ++ x.after).drop (start + 1) := by
      rw [List.drop_append, List.drop_append, hfront, hfront', Nat.succ_sub (by omega),
        List.drop_succ_cons]
    rw [x.shift_of_le hle, hdrop, searchList_succ]
    apply Option.map_congr
    intro q hq
    obtain ⟨n, i, rfl, -⟩ := Program.searchList_eq_some_iff.1 hq
    rw [x.shift_of_le (by omega)]

end Searches

@[simp]
theorem lastWriter_shift (pos : Nat) (register : Int) :
    x.padded.lastWriter (x.shift pos) register = (x.plain.lastWriter pos register).map x.shift :=
  x.searchBack_shift (x.writes_idle register) rfl pos

@[simp]
theorem nextWriter_shift (pos : Nat) (register : Int) :
    x.padded.nextWriter (x.shift pos) register = (x.plain.nextWriter pos register).map x.shift :=
  x.searchForward_shift (x.writes_idle register) rfl pos

theorem searchBack_isOn_shift {opcode : Opcode} (h : opcode ≠ .other) (pos : Nat) (cursor : Int) :
    x.padded.searchBack (x.shift pos) (·.isOn opcode cursor) Program.noEdge =
      (x.plain.searchBack pos (·.isOn opcode cursor) Program.noEdge).map x.shift :=
  x.searchBack_shift (x.isOn_idle h cursor) rfl pos

theorem searchForward_isOn_shift {opcode : Opcode} (h : opcode ≠ .other) (pos : Nat)
    (cursor : Int) :
    x.padded.searchForward (x.shift pos) (·.isOn opcode cursor) Program.noEdge =
      (x.plain.searchForward pos (·.isOn opcode cursor) Program.noEdge).map x.shift :=
  x.searchForward_shift (x.isOn_idle h cursor) rfl pos

/-! ## Jumps -/

theorem positionOf?_padded {address : Int} (h : address ≠ x.idle.address) :
    x.padded.positionOf? address = (x.plain.positionOf? address).map x.shift := by
  have hwant : (x.idle.address == address) = false := beq_false_of_ne h.symm
  rw [Program.positionOf?, size_padded]
  exact x.searchBelow_shift hwant rfl x.plain.size

theorem jumpTarget?_shift {pos : Nat}
    (h : ∀ i, x.plain.at? pos = some i → i.n2 ≠ some x.idle.address) :
    x.padded.jumpTarget? (x.shift pos) = x.plain.jumpTarget? pos := by
  rw [Program.jumpTarget?, at?_shift, Program.jumpTarget?]
  rcases hi : x.plain.at? pos with _ | i
  · rfl
  · rcases haddress : i.n2 with _ | address
    · simp [haddress]
    · have hne : address ≠ x.idle.address := by
        rintro rfl
        exact h i hi haddress
      simp only [Option.bind_some, haddress, x.positionOf?_padded hne]
      rcases x.plain.positionOf? address with _ | q
      · rfl
      · exact x.opcodeAt?_shift q

/-! ## Visits -/

/-- Two visits that go side by side, if the padded one stays where it is at the idle instruction. -/
theorem visit_padded {σ τ : Type} {R : σ → τ → Prop} {step : σ → Nat → Instr → σ}
    {step' : τ → Nat → Instr → τ} {start : σ} {start' : τ} (h0 : R start start')
    (hstep : ∀ s s' pos i, x.plain.at? pos = some i → R s s' →
      R (step s pos i) (step' s' (x.shift pos) i))
    (hidle : ∀ s s', R s s' → R s (step' s' x.before.length x.idle)) :
    R (x.plain.visit start step) (x.padded.visit start' step') := by
  have hbefore : R ((x.before.zipIdx 0).foldl (fun s entry => step s entry.2 entry.1) start)
      ((x.before.zipIdx 0).foldl (fun s entry => step' s entry.2 entry.1) start') := by
    apply Program.foldl_zipIdx_rel x.before 0 0 h0
    intro s s' n i hi hs
    have hn : n < x.before.length := (List.getElem?_eq_some_iff.1 hi).1
    have hat : x.plain.at? n = some i := by
      rw [Program.at?, plain, List.getElem?_append_left hn, hi]
    have hnext := hstep s s' n i hat hs
    rw [x.shift_of_lt hn] at hnext
    rwa [Nat.zero_add]
  have hafter := hidle _ _ hbefore
  unfold Program.visit plain padded
  rw [List.zipIdx_append, List.foldl_append, List.zipIdx_append, List.foldl_append,
    List.zipIdx_cons, List.foldl_cons, Nat.zero_add]
  apply Program.foldl_zipIdx_rel x.after x.before.length (x.before.length + 1) hafter
  intro s s' n i hi hs
  have hat : x.plain.at? (x.before.length + n) = some i := by
    rw [Program.at?, plain, List.getElem?_append_right (Nat.le_add_right ..),
      Nat.add_sub_cancel_left, hi]
  have hnext := hstep s s' _ i hat hs
  rw [x.shift_of_le (Nat.le_add_right ..)] at hnext
  rwa [Nat.add_right_comm]

/-! ## Constants -/

@[simp]
theorem writerFor_shift (pos : Nat) (register : Int) :
    x.padded.writerFor (x.shift pos) register = (x.plain.writerFor pos register).map x.shift := by
  rw [Program.writerFor, lastWriter_shift, nextWriter_shift, Program.writerFor]
  rcases x.plain.lastWriter pos register with _ | q
  · rfl
  · rfl

theorem constantWithin_shift (reach pos : Nat) (register : Int) :
    x.padded.constantWithin reach (x.shift pos) register =
      x.plain.constantWithin reach pos register := by
  induction reach generalizing pos register with
  | zero => rfl
  | succ reach ih =>
    rw [Program.constantWithin, writerFor_shift, Program.constantWithin]
    rcases x.plain.writerFor pos register with _ | writer
    · rfl
    · simp [ih]

theorem isBlobAt_shift (pos : Nat) (register : Int) :
    x.padded.isBlobAt (x.shift pos) register = x.plain.isBlobAt pos register := by
  have hwant : Program.makesBlob x.idle register = false := by simp [Program.makesBlob]
  rw [Program.isBlobAt, x.searchBack_shift hwant (x.writes_idle register),
    Option.isSome_map, Program.isBlobAt]

@[simp]
theorem valueAt?_shift (pos : Nat) (register : Int) :
    x.padded.valueAt? (x.shift pos) register = x.plain.valueAt? pos register := by
  rw [Program.valueAt?, constantWithin_shift, isBlobAt_shift, Program.valueAt?]

end Insertion

end IndexAdvisor
