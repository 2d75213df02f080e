import IndexAdvisor.Proofs.Sort.Recorded

/-!
# Where an order is seen

The keys of a sort step are seen where their columns are read. The order of an entry that is walked
in stored order is seen where its first walk starts. An entry that is sorted by something already is
passed over, and an index that is walked also sorts its table, so what is seen of the walks depends
on those before (`walksSeen`).

> `record_sighted`: the search for orders enters what is seen of them.
-/

namespace IndexAdvisor.Sort

variable (s : Scene) (l k : Ledger) (terms : List Sql.SortTerm) (forward : Bool)

/-! ## Walks and their starts -/

/-- The row that starts the walk which an instruction advances. -/
def walkStart? (pos : Nat) (i : Instr) : Option Nat :=
  if i.opcode == .prev || (i.opcode == .next && forward) then do
    let cursor ← i.n1
    s.program.searchBack pos (startsWalk forward i.opcode cursor) Program.noEdge
  else none

theorem walkedEntry?_eq (pos : Nat) (i : Instr) :
    walkedEntry? s forward pos i = (walkStart? s forward pos i).bind s.entryAt? := by
  unfold walkedEntry? walkStart?
  split
  · simp only [Option.bind_eq_bind, Option.bind_assoc]
  · rfl

/-- Adds a walk of an entry that was not walked before. -/
def addWalk (found : List (Nat × Nat)) (start : Nat) : List (Nat × Nat) :=
  match s.entryAt? start with
  | some id => if (found.map Prod.snd).contains id then found else found ++ [(start, id)]
  | none => found

/-- The entries that are walked in stored order, each with the start of its first walk. -/
def walkRows : List (Nat × Nat) :=
  s.program.visit [] fun found pos i => (walkStart? s forward pos i).elim found (addWalk s found)

theorem map_walkRows : (walkRows s forward).map Prod.snd = walks s forward := by
  rw [walkRows, walks, Program.visit, Program.visit]
  refine (List.foldl_hom (List.map Prod.snd) fun found entry => ?_).symm
  rw [walkedEntry?_eq]
  rcases walkStart? s forward entry.2 entry.1 with _ | start
  · rfl
  · rw [Option.bind_some, Option.elim_some, addWalk]
    rcases s.entryAt? start with _ | id
    · rfl
    · dsimp only
      rcases hmem : (found.map Prod.snd).contains id with _ | _
      · simp
      · simp

/-- An entry is walked from a row that addresses it. -/
theorem entryAt?_of_mem_walkRows {walk : Nat × Nat} (h : walk ∈ walkRows s forward) :
    s.entryAt? walk.1 = some walk.2 := by
  revert walk
  refine s.program.visit_induction (P := fun found : List (Nat × Nat) =>
    ∀ {walk}, walk ∈ found → s.entryAt? walk.1 = some walk.2)
      (fun h => absurd h List.not_mem_nil) ?_
  intro found pos i _ hfound walk hwalk
  generalize walkStart? s forward pos i = start? at hwalk
  rcases start? with _ | start
  · exact hfound hwalk
  · rw [Option.elim_some, addWalk] at hwalk
    split at hwalk
    · next id hid =>
      split at hwalk
      · exact hfound hwalk
      · rcases List.mem_append.1 hwalk with hwalk | hwalk
        · exact hfound hwalk
        · obtain rfl := List.mem_singleton.1 hwalk
          exact hid
    · exact hfound hwalk

/-! ## What is seen of walks -/

/-- The order of an entry that is walked from a row, unless it is sorted by something already. -/
def walkSeen (walk : Nat × Nat) : List Sighting :=
  match l.usage? walk.2 with
  | none => []
  | some u =>
    if u.sortColumns.isEmpty then
      (orderedBy s.schema (Sql.tableRefs s.tokens) u terms).map fun column => ⟨walk.1,
        .column walk.2 .sort column⟩
    else []

/-- The orders of entries that are walked one after another. -/
def walksSeen : Ledger → List (Nat × Nat) → List Sighting
  | _, [] => []
  | l, walk :: walks => walkSeen s l terms walk ++ walksSeen (recordWalk s terms l walk.2) walks

variable {s l terms}

theorem recordWalk_sighted {walk : Nat × Nat} (hwalk : s.entryAt? walk.1 = some walk.2) :
    Sighted s l (walkSeen s l terms walk) (recordWalk s terms l walk.2) := by
  unfold walkSeen recordWalk
  rcases hu : l.usage? walk.2 with _ | u
  · exact sighted_nil s l
  dsimp only
  split
  · refine ⟨?_, ?_, ?_, ?_⟩
    · rw [foldl_record_eq, List.map_map]
      rfl
    · intro x hx
      obtain ⟨column, hcolumn, rfl⟩ := List.mem_map.1 hx
      intro v hv
      obtain rfl := Option.some.inj (hu.symm.trans hv)
      exact mem_entryColumns_of_orderedBy hcolumn
    · intro x hx
      obtain ⟨column, -, rfl⟩ := List.mem_map.1 hx
      rintro _ _ _ _ ⟨⟩ _ _
      exact hwalk
    · intro x hx
      obtain ⟨column, -, rfl⟩ := List.mem_map.1 hx
      rintro _ _ _ ⟨⟩
  · exact sighted_nil s l

theorem foldl_recordWalk_sighted {walks : List (Nat × Nat)}
    (hwalks : ∀ walk ∈ walks, s.entryAt? walk.1 = some walk.2) (l : Ledger) :
    Sighted s l (walksSeen s terms l walks)
    ((walks.map Prod.snd).foldl (recordWalk s terms) l) := by
  induction walks generalizing l with
  | nil => exact sighted_nil s l
  | cons walk walks ih =>
    have hfirst : Sighted s l (walkSeen s l terms walk) (recordWalk s terms l walk.2) :=
      recordWalk_sighted (hwalks walk (List.mem_cons_self ..))
    exact hfirst.append (ih (fun w hw => hwalks w (List.mem_cons_of_mem walk hw)) _)

variable (s l)

/-- All that is seen about the order of the statement. -/
def sightings : List Sighting :=
  let terms := Sql.sortTerms s.tokens
  if terms.isEmpty && !s.tokens.isEmpty then []
  else
    let steps := recordSteps s l terms
    stepsSeen s l terms ++ if terms.all Option.isNone then []
      else walksSeen s terms steps.1 (walkRows s (!steps.2))

/-- The search for orders enters what is seen of them. -/
theorem record_sighted : Sighted s l (sightings s l) (record s l) := by
  unfold sightings record
  dsimp only
  split
  · exact sighted_nil s l
  · apply (recordSteps_sees s l _).sighted.append
    rw [recordWalks_eq]
    split
    · exact sighted_nil ..
    · rw [← map_walkRows]
      exact foldl_recordWalk_sighted (fun _ hwalk => entryAt?_of_mem_walkRows s _ hwalk) _

end IndexAdvisor.Sort
