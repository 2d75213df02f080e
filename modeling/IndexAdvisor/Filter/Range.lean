import IndexAdvisor.Scene

/-!
# Key ranges

A range of an index is entered by a seek and left at a bound. Both name a run of registers that hold
the key. All columns of the key but the last are compared for equality. The last one is compared as
the instruction says, unless the seek and the bound of one range together pin it to a single value.

A seek on a table, which has no key columns, positions by row number.

Models `SeekKey`, `paired_row`, `is_equality_pair`, `last_column_op` and `seek`.
-/

namespace IndexAdvisor

/-- The registers that hold the key of a seek or a bound, and the cursor it is for. -/
structure KeyRun where
  cursor : Int
  first : Option Int
  count : Nat
  deriving DecidableEq, Repr

namespace KeyRun

/-- The key of a seek or a bound. A count that is missing or negative stands for one register. -/
def of? (i : Instr) : Option KeyRun :=
  i.n1.map fun cursor =>
    { cursor, first := i.n3, count := match i.n4 with
        | some n => if n < 0 then 1 else n.toNat
        | none => 1 }

/-- Whether two keys are for one cursor and begin at one register. -/
def meets (a b : KeyRun) : Bool := a.cursor == b.cursor && a.first == b.first

end KeyRun

namespace Filter

/-- Which end of a range an instruction marks. -/
inductive RangeEnd where
  | entry | exit
  deriving DecidableEq, Repr

/-- The edge and the key of an instruction that marks an end of a range. -/
def rangeEdge? (which : RangeEnd) (i : Instr) : Option (Edge × KeyRun) :=
  match which, i.opcode with
  | .entry, .seek edge => (KeyRun.of? i).map (edge, ·)
  | .exit, .bound edge => (KeyRun.of? i).map (edge, ·)
  | _, _ => none

/-- Whether an instruction moves a cursor round its loop, so that a range does not go on across
it. -/
def turnsLoop (cursor : Int) (i : Instr) : Bool :=
  i.isOn .next cursor || i.isOn .prev cursor || i.isOn .rewind cursor

/-- Whether an instruction marks an end of a range with a key that meets the given one. -/
def isPartner (which : RangeEnd) (key : KeyRun) (i : Instr) : Bool :=
  (rangeEdge? which i).any (·.2.meets key)

/-- The other end of the range that an instruction marks one end of, within the loop of its cursor:
the entry is looked for backwards, the exit forwards. -/
def partner? (p : Program) (pos : Nat) (key : KeyRun) : RangeEnd → Option (Edge × KeyRun)
  | .entry => (p.searchForward pos (isPartner .exit key) (turnsLoop key.cursor)).bind fun q =>
      (p.at? q).bind (rangeEdge? .exit)
  | .exit => (p.searchBack pos (isPartner .entry key) (turnsLoop key.cursor)).bind fun q =>
      (p.at? q).bind (rangeEdge? .entry)

/-- Whether a range that is entered and left at these edges of one key holds only entries equal to
it. -/
def pinsKey (entry exit : Edge) : Bool :=
  (entry == .ge && exit == .gt) || (entry == .le && exit == .lt)

/-- What an end of a range says about the last column of its key when it is looked at alone: an
entry satisfies it, and an exit is passed over by those that do not. -/
def loneRelation (edge : Edge) : RangeEnd → Relation
  | .entry => edge.relation
  | .exit => edge.relation.negate

/-- How the last column of a key is compared. -/
def lastRelation (p : Program) (pos : Nat) (edge : Edge) (key : KeyRun) (which : RangeEnd) :
    Relation :=
  match partner? p pos key which with
  | none => loneRelation edge which
  | some (otherEdge, otherKey) =>
    let pinned := key.count == otherKey.count && match which with
      | .entry => pinsKey edge otherEdge
      | .exit => pinsKey otherEdge edge
    if pinned || (which == .exit && key.count < otherKey.count) then .eq
    else loneRelation edge which

/-- The columns that the registers of a key are compared with. -/
def keyColumns (u : Usage) (schema : Schema) (key : KeyRun) : List String :=
  if u.isIndex then (u.entryColumns schema).take key.count else (u.rowidColumn? schema).toList

/-- Records one column of a key, and the comparison with the constant in its register. -/
def recordKeyColumn (s : Scene) (pos : Nat) (id : Nat) (key : KeyRun) (relation : Relation)
    (l : Ledger) (column : String) (place : Nat) : Ledger :=
  let l := l.record id .filter column
  match key.first.bind fun first => s.valueIn? pos (registerAfter first place) with
  | some constant => l.recordFilter id (comparisonText column relation.sql constant)
  | none => l

/-- Records what a seek or a bound says. -/
def recordRange (s : Scene) (l : Ledger) (pos : Nat) (i : Instr) (which : RangeEnd) : Ledger :=
  match s.openings.of? i pos, rangeEdge? which i with
  | some id, some (edge, key) =>
    match l.usage? id with
    | none => l
    | some u =>
      let columns := keyColumns u s.schema key
      let last := lastRelation s.program pos edge key which
      columns.zipIdx.foldl (fun l c =>
        recordKeyColumn s pos id key (if c.2 + 1 == columns.length then last else .eq) l c.1 c.2) l
  | _, _ => l

end Filter

end IndexAdvisor
