import IndexAdvisor.Usage.Basic

/-!
# The ledger of findings

The ledger holds one usage per table or index of a statement, in the order in which they were met.
An entry is named by its place. The entry of an index may point to the entry of its table, its
owner: then whatever is recorded for the index is recorded for the table as well.

Models `UnitArena` with `insert`, `find`, `owner`, `set_owner`, `record_column` and
`record_expression`.
-/

namespace IndexAdvisor

/-- A usage, and the place of the owning table's entry if this is an index that has been linked. -/
structure Entry where
  usage : Usage
  owner : Option Nat := none
  deriving DecidableEq

/-- The usages of a statement in order of discovery. -/
structure Ledger where
  entries : List Entry
  deriving DecidableEq

namespace Ledger

/-- The ledger without entries. -/
def empty : Ledger := ⟨[]⟩

/-- The number of entries. -/
def size (l : Ledger) : Nat := l.entries.length

/-- The usages, in order. -/
def usages (l : Ledger) : List Usage := l.entries.map Entry.usage

/-- The usage at a place. -/
def usage? (l : Ledger) (id : Nat) : Option Usage := l.entries[id]?.map Entry.usage

/-- The place of the table that owns the index at a place. -/
def owner? (l : Ledger) (id : Nat) : Option Nat := l.entries[id]?.bind Entry.owner

/-- Adds a usage at the end, without owner. -/
def add (l : Ledger) (u : Usage) : Ledger := ⟨l.entries ++ [{ usage := u }]⟩

/-- Changes the usage at a place. -/
def modify (l : Ledger) (id : Nat) (change : Usage → Usage) : Ledger :=
  ⟨l.entries.modify id fun e => { e with usage := change e.usage }⟩

/-- Makes the entry at `table` the owner of the entry at `index`. -/
def setOwner (l : Ledger) (index table : Nat) : Ledger :=
  ⟨l.entries.modify index fun e => { e with owner := some table }⟩

/-- Changes every usage. -/
def mapUsages (l : Ledger) (change : Usage → Usage) : Ledger :=
  ⟨l.entries.map fun e => { e with usage := change e.usage }⟩

/-- The place of the object with a name and a kind. -/
def find? (l : Ledger) (name : String) (kind : ObjectKind) : Option Nat :=
  l.entries.findIdx? (·.usage.isOf name kind)

/-- The place of the object with a name and a root page. -/
def findAt? (l : Ledger) (name : String) (rootPage : Nat) : Option Nat :=
  l.entries.findIdx? fun e => e.usage.rootPage == rootPage && sameName e.usage.name name

/-- The owner of an entry, if the entry is that of an index. -/
def ownerOfIndex? (l : Ledger) (id : Nat) : Option Nat :=
  match l.usage? id with
  | some u => if u.isIndex then l.owner? id else none
  | none => none

/-- Records a column for a clause. What is recorded for an index carries the cursor of the index and
is recorded for its owner too. -/
def record (l : Ledger) (id : Nat) (clause : Clause) (column : String) : Ledger :=
  match l.usage? id with
  | none => l
  | some u =>
    let through := if u.isIndex then some u.cursor else none
    let own := l.modify id (·.addColumn clause column through)
    match l.ownerOfIndex? id with
    | none => own
    | some owner => own.modify owner (·.addColumn clause column through)

/-- Records a reconstructed comparison, for an index also for its owner. -/
def recordFilter (l : Ledger) (id : Nat) (text : String) : Ledger :=
  let shared := match l.ownerOfIndex? id with
    | none => l
    | some owner => l.modify owner (·.addFilter text)
  shared.modify id (·.addFilter text)

end Ledger

end IndexAdvisor
