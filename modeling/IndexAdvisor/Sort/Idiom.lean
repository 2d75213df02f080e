import IndexAdvisor.Scene
import IndexAdvisor.Sort.Source
import IndexAdvisor.Sql.OrderBy

/-!
# Sort steps

A statement that sorts stores a record per row in a sorter or in an ephemeral table, sorts it and
reads it back. The key is the first fields of the record: as many as the `ORDER BY` has terms, or,
where the text of the statement could not be read, as many as the sorter declares. A field whose
term is an expression is computed and comes from no column.

A sorter whose rows are compared or aggregated as they are read back serves a `GROUP BY` and says
nothing about the order of the result.

Models `SortIdiom`, `key_info_width`, `sort_idioms`, `sort_keys` and `is_grouping_sorter`.
-/

namespace IndexAdvisor.Sort

/-- The instructions that open, fill and sort one kind of sort step. -/
structure Idiom where
  opening : Opcode
  insert : Opcode
  sort : Opcode
  deriving DecidableEq, Repr

/-- Sorting with a sorter. -/
def sorter : Idiom := ⟨.openSorter, .sorterInsert, .sorterSort⟩

/-- Sorting with an ephemeral table. -/
def ephemeral : Idiom := ⟨.openEphemeral, .indexInsert, .sort⟩

/-- The sort step that an instruction may insert for. -/
def idiom? (opcode : Opcode) : Option Idiom := [sorter, ephemeral].find? (·.insert == opcode)

/-- The number of key fields that the description of a key declares, as in `k(2,B,-B)`. -/
def declaredWidth? (description : Option String) : Option Nat := do
  match (trim (← description)).toList with
  | 'k' :: '(' :: inner =>
    let (count, rest) := inner.span fun c => c ≠ ',' && c ≠ ')'
    if rest.isEmpty then none else parseNat? maxWord64 (trim (String.ofList count))
  | _ => none

/-- Whether the sorter opened under a cursor is read back, after it is sorted, by a loop that
compares keys or aggregates. -/
def groups (p : Program) (cursor : Int) (sortPos : Nat) : Bool :=
  match p.searchForward sortPos (·.isOn .sorterData cursor) Program.noEdge with
  | none => false
  | some dataPos =>
    (p.searchForward dataPos (fun i => i.opcode == .compareKeys || i.opcode == .aggregateStep)
      (·.isOn .next cursor)).isSome

/-- A complete sort step: where it is opened, and the record of one of its inserts. -/
structure Step where
  opening : Instr
  recordPos : Nat
  /-- The first register of the record. -/
  first : Int
  /-- The number of registers of the record. -/
  count : Nat

/-- The sort step that an insert at a position belongs to, if it has all its parts and does not
serve grouping. -/
def Step.of? (p : Program) (pos : Nat) (insert : Instr) (idiom : Idiom) : Option Step := do
  let cursor ← insert.n1
  let openPos ← p.searchBack pos (·.isOn idiom.opening cursor) Program.noEdge
  let sortPos ← p.searchForward pos (·.isOn idiom.sort cursor) Program.noEdge
  if groups p cursor sortPos then none
  let recordPos ← recordOf? p pos insert
  let record ← p.at? recordPos
  let first ← record.n1
  let count ← record.n2
  if count < 0 then none
  return { opening := ← p.at? openPos, recordPos, first, count := count.toNat }

/-- The number of fields that a sort step is ordered by. -/
def Step.width (step : Step) (terms : List Sql.SortTerm) : Nat :=
  let declared :=
    if terms.isEmpty then (declaredWidth? step.opening.p4).getD step.count else terms.length
  min declared step.count

/-- The entries and columns that a sort step is ordered by, in order. -/
def Step.keys (step : Step) (s : Scene) (l : Ledger) (terms : List Sql.SortTerm) :
    List (Nat × String) :=
  (List.range (step.width terms)).filterMap fun (field : Nat) =>
    if terms[field]? == some none then none
    else
      (source? s.program sourceReach step.recordPos (registerAfter step.first field)).bind
        (s.columnRead? l)

/-- The keys of the sort step that an instruction inserts for. -/
def stepKeys? (s : Scene) (l : Ledger) (terms : List Sql.SortTerm) (pos : Nat) (i : Instr) :
    Option (List (Nat × String)) := do
  let idiom ← idiom? i.opcode
  let step ← Step.of? s.program pos i idiom
  return step.keys s l terms

/-- Records the keys of all sort steps, and tells whether there was any. -/
def recordSteps (s : Scene) (l : Ledger) (terms : List Sql.SortTerm) : Ledger × Bool :=
  s.program.visit (l, false) fun (l, found) pos i =>
    match stepKeys? s l terms pos i with
    | none => (l, found)
    | some keys => (keys.foldl (fun l k => l.record k.1 .sort k.2) l, true)

end IndexAdvisor.Sort
