import IndexAdvisor.Proofs.Filter.Recorded
import IndexAdvisor.Proofs.Program.Insertion

/-!
# Filters and idle instructions

The surroundings of a program are moved with it: an opening moves to the new place of its
instruction, and everything else stays (`Insertion.move`). Then a cursor means the same and a
register holds the same column or constant at the new place of a position, and each instruction
records there what it recorded before.

> `filter_record_move`: the filters of the padded program are those of the plain one, if the idle
> instruction is not seen.

It is seen in two places only (`Unseen`): behind a read of a column, where the next instruction
tells whether the column is tested, and at the address that a comparison jumps to.
-/

namespace IndexAdvisor

namespace Insertion

variable (x : Insertion)

/-- An opening at the new place of its instruction. -/
def moveOpening (o : Opening) : Opening := { o with position := x.shift o.position }

/-- The surroundings of the plain program, moved to the padded one. -/
def move (s : Scene) : Scene :=
  { s with program := x.padded, openings := s.openings.map x.moveOpening }

/-- Whether nothing looks at the idle instruction. -/
structure Unseen : Prop where
  not_behind_column : ∀ i ∈ x.before.getLast?, i.opcode ≠ .column
  not_aimed_at : ∀ i ∈ x.before ++ x.after, ∀ relation, i.opcode = .compare relation →
    i.n2 ≠ some x.idle.address

/-! ## Cursors and registers -/

@[simp]
theorem openings_at?_move (openings : Openings) (cursor : Int) (pos : Nat) :
    Openings.at? (openings.map x.moveOpening) cursor (x.shift pos) = openings.at? cursor pos := by
  have hown : (openings.map x.moveOpening).filter (·.cursor == cursor) =
      (openings.filter (·.cursor == cursor)).map x.moveOpening := by
    rw [List.filter_map]
    rfl
  have hfind : ((openings.filter (·.cursor == cursor)).reverse.map x.moveOpening).find?
      (·.position ≤ x.shift pos) =
      ((openings.filter (·.cursor == cursor)).reverse.find? (·.position ≤ pos)).map
      x.moveOpening := by
    rw [List.find?_map]
    congr 2
    funext o
    simp [moveOpening]
  rw [Openings.at?, hown, ← List.map_reverse, hfind, List.head?_map,
    ← Option.map_or, Option.map_map]
  rfl

section Scenes

variable {s : Scene} (hs : s.program = x.plain)

@[simp]
theorem of?_move (i : Instr) (pos : Nat) :
    (x.move s).openings.of? i (x.shift pos) = s.openings.of? i pos := by
  simp [Openings.of?, move]

theorem columnReadBy?_move (l : Ledger) (i : Instr) (pos : Nat) :
    (x.move s).columnReadBy? l i (x.shift pos) = s.columnReadBy? l i pos := by
  rw [Scene.columnReadBy?, of?_move]
  rfl

include hs

theorem at?_move (pos : Nat) : (x.move s).program.at? (x.shift pos) = s.program.at? pos := by
  rw [hs]
  exact x.at?_shift pos

theorem columnRead?_move (l : Ledger) (pos : Nat) :
    (x.move s).columnRead? l (x.shift pos) = s.columnRead? l pos := by
  simp only [Scene.columnRead?, x.at?_move hs, x.columnReadBy?_move]

theorem lastWriter_move (pos : Nat) (register : Int) :
    (x.move s).program.lastWriter (x.shift pos) register =
      (s.program.lastWriter pos register).map x.shift := by
  rw [hs]
  exact x.lastWriter_shift pos register

theorem columnIn?_move (l : Ledger) (pos : Nat) (register : Int) :
    (x.move s).columnIn? l (x.shift pos) register = s.columnIn? l pos register := by
  rw [Scene.columnIn?, x.lastWriter_move hs, Option.bind_map, Scene.columnIn?]
  congr 1
  funext writer
  exact x.columnRead?_move hs l writer

theorem valueIn?_move (pos : Nat) (register : Int) :
    (x.move s).valueIn? (x.shift pos) register = s.valueIn? pos register := by
  rw [Scene.valueIn?, Scene.valueIn?, hs]
  exact x.valueAt?_shift pos register

end Scenes

/-! ## Ends of ranges -/

theorem isPartner_idle (which : Filter.RangeEnd) (key : KeyRun) :
    Filter.isPartner which key x.idle = false := by
  cases which <;> simp [Filter.isPartner, Filter.rangeEdge?]

theorem turnsLoop_idle (cursor : Int) : Filter.turnsLoop cursor x.idle = false := by
  simp [Filter.turnsLoop, isOn_idle]

@[simp]
theorem partner?_shift (pos : Nat) (key : KeyRun) (which : Filter.RangeEnd) :
    Filter.partner? x.padded (x.shift pos) key which = Filter.partner? x.plain pos key which := by
  cases which with
  | entry =>
    rw [Filter.partner?, x.searchForward_shift (x.isPartner_idle ..) (x.turnsLoop_idle _),
      Option.bind_map, Filter.partner?]
    simp only [Function.comp_def, at?_shift]
  | exit =>
    rw [Filter.partner?, x.searchBack_shift (x.isPartner_idle ..) (x.turnsLoop_idle _),
      Option.bind_map, Filter.partner?]
    simp only [Function.comp_def, at?_shift]

@[simp]
theorem lastRelation_shift (pos : Nat) (edge : Edge) (key : KeyRun) (which : Filter.RangeEnd) :
    Filter.lastRelation x.padded (x.shift pos) edge key which =
      Filter.lastRelation x.plain pos edge key which := by
  rw [Filter.lastRelation, partner?_shift, Filter.lastRelation]

/-! ## Instructions -/

section Instructions

variable {s : Scene} (hs : s.program = x.plain) (l : Ledger) (pos : Nat) (i : Instr)

include hs

theorem recordRange_move (which : Filter.RangeEnd) :
    Filter.recordRange (x.move s) l (x.shift pos) i which = Filter.recordRange s l pos i which := by
  have hcolumn : Filter.recordKeyColumn (x.move s) (x.shift pos) =
      Filter.recordKeyColumn s pos := by
    funext id key relation l column place
    simp only [Filter.recordKeyColumn, x.valueIn?_move hs]
  have hlast : Filter.lastRelation (x.move s).program (x.shift pos) =
      Filter.lastRelation s.program pos := by
    funext edge key which
    rw [hs]
    exact x.lastRelation_shift pos edge key which
  rw [Filter.recordRange, of?_move, hcolumn, hlast]
  rfl

theorem recordComparison_move (relation : Relation)
    (h : ∀ i, x.plain.at? pos = some i → i.n2 ≠ some x.idle.address) :
    Filter.recordComparison (x.move s) l (x.shift pos) i relation =
      Filter.recordComparison s l pos i relation := by
  have hjump : (x.move s).program.jumpTarget? (x.shift pos) = s.program.jumpTarget? pos := by
    rw [hs]
    exact x.jumpTarget?_shift h
  simp only [Filter.recordComparison, x.columnIn?_move hs, x.valueIn?_move hs, hjump]

theorem recordLookup_move :
    Filter.recordLookup (x.move s) l (x.shift pos) i = Filter.recordLookup s l pos i := by
  have hkeyed : Filter.keyed (x.move s) (x.shift pos) i = Filter.keyed s pos i := by
    funext id l key
    have hvalue : (x.move s).valueIn? (x.shift pos) = s.valueIn? pos :=
      funext (x.valueIn?_move hs pos)
    rw [Filter.keyed, hvalue, Filter.keyed]
  have hfed : Filter.fedBy? (x.move s) (x.shift pos) i = Filter.fedBy? s pos i := by
    funext l
    have hopcode (writer : Nat) : (x.move s).program.opcodeAt? (x.shift writer) =
        s.program.opcodeAt? writer := by
      rw [hs]
      exact x.opcodeAt?_shift writer
    simp only [Filter.fedBy?, Option.bind_eq_bind, x.lastWriter_move hs, Option.bind_map,
      Function.comp_def, hopcode, x.columnRead?_move hs]
  rw [Filter.recordLookup_eq, Filter.recordLookup_eq, of?_move, hkeyed, hfed]
  rfl

theorem recordColumn_move (h : pos + 1 ≠ x.before.length) :
    Filter.recordColumn (x.move s) l (x.shift pos) i = Filter.recordColumn s l pos i := by
  have hnext : (x.move s).program.opcodeAt? (x.shift pos + 1) = s.program.opcodeAt? (pos + 1) := by
    rw [← x.shift_succ h, hs]
    exact x.opcodeAt?_shift (pos + 1)
  simp only [Filter.recordColumn, hnext, x.columnReadBy?_move]

end Instructions

/-! ## All filters -/

/-- The first test of truth moves like any other instruction. -/
theorem findIdx?_isTruth_padded :
    x.padded.instrs.findIdx? Filter.isTruth =
      (x.plain.instrs.findIdx? Filter.isTruth).map x.shift := by
  have hidle : Filter.isTruth x.idle = false := by simp [Filter.isTruth]
  rw [padded, plain, List.findIdx?_append, List.findIdx?_append, List.findIdx?_cons,
    if_neg (by simp [hidle])]
  rcases hfirst : x.before.findIdx? Filter.isTruth with _ | n
  · rcases x.after.findIdx? Filter.isTruth with _ | n
    · rfl
    · simp [x.shift_of_le (Nat.le_add_left ..), Nat.add_right_comm]
  · have hn := (List.findIdx?_eq_some_iff_findIdx_eq.1 hfirst).1
    simp [x.shift_of_lt hn]

section Unseen

variable {s : Scene} (hs : s.program = x.plain) (hunseen : x.Unseen)

include hs hunseen

theorem recordInstr_move (l : Ledger) {pos : Nat} {i : Instr} (hi : x.plain.at? pos = some i) :
    Filter.recordInstr (x.move s) l (x.shift pos) i = Filter.recordInstr s l pos i := by
  unfold Filter.recordInstr
  split
  · exact x.recordRange_move hs l pos i .entry
  · exact x.recordRange_move hs l pos i .exit
  · next relation hcompare =>
    apply x.recordComparison_move hs
    intro j hj
    obtain rfl := Option.some.inj (hi.symm.trans hj)
    exact hunseen.not_aimed_at i (List.mem_of_getElem? hi) relation hcompare
  · exact x.recordLookup_move hs l pos i
  · next hcolumn =>
    apply x.recordColumn_move hs
    intro hlast
    apply hunseen.not_behind_column i _ hcolumn
    rw [Program.at?, plain, List.getElem?_append_left (by omega)] at hi
    rw [List.getLast?_eq_getElem?, ← hlast, Nat.add_sub_cancel, hi]
    rfl
  · have hfirst : ((x.move s).program.instrs.findIdx? Filter.isTruth == some (x.shift pos)) =
        (s.program.instrs.findIdx? Filter.isTruth == some pos) := by
      rw [hs, move, findIdx?_isTruth_padded]
      rcases x.plain.instrs.findIdx? Filter.isTruth with _ | n
      · rfl
      · simp
    rw [hfirst]
    rfl
  · rfl

/-- The filters of the padded program are those of the plain one. -/
theorem filter_record_move (l : Ledger) : Filter.record (x.move s) l = Filter.record s l := by
  rw [Filter.record, Filter.record, hs]
  symm
  apply x.visit_padded rfl
  · rintro l _ pos i hi rfl
    exact (x.recordInstr_move hs hunseen l hi).symm
  · rintro l _ rfl
    simp [Filter.recordInstr]

end Unseen

end Insertion

end IndexAdvisor
