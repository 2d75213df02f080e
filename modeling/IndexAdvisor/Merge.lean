import IndexAdvisor.Ledger.Basic

/-!
# Merging the findings of a sub-select

A sub-select is compiled on its own, so its findings stand in a ledger of their own, which is merged
into that of the enclosing statement. Entries are matched by name and root page; entries without a
match are appended. Every finding of the sub-select is then added to the entry it is matched with,
after what is there already.

Cursor numbers mean nothing outside their own program. The cursor of an index is therefore replaced:
by the cursor under which the enclosing statement knows the index of the same name.

Models `merge`, `sub_index_names`, `translate_columns` and `find_by_root`.
-/

namespace IndexAdvisor

namespace Merge

/-- Matches one usage of a sub-select: the place of its entry is added to the list of places. -/
def matchUsage (acc : Ledger × List Nat) (u : Usage) : Ledger × List Nat :=
  match acc.1.findAt? u.name u.rootPage with
  | some id => (acc.1, acc.2 ++ [id])
  | none => (acc.1.add u.bare, acc.2 ++ [acc.1.size])

/-- The enclosing ledger with an entry for every usage of a sub-select, and the places of these
entries in the order of the usages. -/
def matchAll (parent sub : Ledger) : Ledger × List Nat := sub.usages.foldl matchUsage (parent, [])

/-- Gives an entry that has no owner the one that its counterpart in the sub-select has. -/
def adoptOwner (sub : Ledger) (places : List Nat) (parent : Ledger) (subId : Nat) : Ledger :=
  match places[subId]?, (sub.owner? subId).bind (places[·]?) with
  | some place, some owner => if (parent.owner? place).isNone then parent.setOwner place owner
    else parent
  | _, _ => parent

/-- Gives owners to all entries of a sub-select that have none. -/
def adoptOwners (parent sub : Ledger) (places : List Nat) : Ledger :=
  (List.range sub.size).foldl (adoptOwner sub places) parent

/-- The names of indexes by cursor, as the program of a sub-select sees them. A later pair of one
cursor hides an earlier one, and the indexes themselves hide what is noted at their tables. -/
def cursorNames (sub : Ledger) : List (Int × String) :=
  (sub.usages.flatMap fun u => u.indexes.toList.map fun use => (use.cursor, use.index)) ++
    (sub.usages.filter Usage.isIndex).map fun u => (u.cursor, u.name)

/-- The name of the index that a cursor of a sub-select is for. -/
def nameOf? (names : List (Int × String)) (cursor : Int) : Option String :=
  names.reverse.lookup cursor

/-- The cursor under which a ledger knows an index. -/
def cursorOf? (l : Ledger) (index : String) : Option Int :=
  ((l.find? index .index).bind l.usage?).map Usage.cursor

/-- A cursor of a sub-select in terms of the enclosing statement. -/
def parentCursor (parent : Ledger) (names : List (Int × String)) (cursor : Int) : Int :=
  ((nameOf? names cursor).bind (cursorOf? parent)).getD cursor

/-- A used index of a sub-select in terms of the enclosing statement. -/
def parentUse (parent : Ledger) (use : IndexUse) : IndexUse :=
  { use with cursor := (cursorOf? parent use.index).getD use.cursor }

/-- A column found through an index of a sub-select, in terms of the enclosing statement. -/
def parentColumn (parent : Ledger) (names : List (Int × String)) (c : IndexColumn) : IndexColumn :=
  { c with cursor := parentCursor parent names c.cursor }

/-- A usage with the findings of a usage of a sub-select added to its own. -/
def addFindings (parent : Ledger) (names : List (Int × String)) (found own : Usage) : Usage :=
  let columns (s : OrderedSet IndexColumn) := s.toList.map (parentColumn parent names)
  { own with
    indexes := own.indexes.insertAll (found.indexes.toList.map (parentUse parent))
    filterColumns := own.filterColumns.insertAll found.filterColumns.toList
    sortColumns := own.sortColumns.insertAll found.sortColumns.toList
    filters := own.filters.insertAll found.filters.toList
    filterIndexColumns := own.filterIndexColumns.insertAll (columns found.filterIndexColumns)
    sortIndexColumns := own.sortIndexColumns.insertAll (columns found.sortIndexColumns) }

end Merge

namespace Ledger

/-- The ledger of a statement with the findings of one of its sub-selects. -/
def merge (parent sub : Ledger) : Ledger :=
  let (matched, places) := Merge.matchAll parent sub
  let owned := Merge.adoptOwners matched sub places
  let names := Merge.cursorNames sub
  (sub.usages.zip places).foldl (fun l found =>
    l.modify found.2 (Merge.addFindings l names found.1)) owned

end Ledger

end IndexAdvisor
