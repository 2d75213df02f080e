import IndexAdvisor.Proofs.Filter.Recorded
import IndexAdvisor.Sort.Basic

/-!
# What the search for orders records

The sort steps record notes that the skeleton decides (`recordSteps_records`), and it decides
whether there is any sort step (`recordSteps_skeleton`).

The walks in stored order are not of this kind: a walk is passed over when its entry is sorted by
something already. Still they only enter fitting notes (`recordWalks_enters`), and a walk that was
recorded is not recorded anew (`recordWalk_eq_of_within`), so neither is the whole order:
`Sort.record_eq_of_within`.
-/

namespace IndexAdvisor.Sort

open Ledger (Records Enters Within)

variable (s : Scene) (base l k : Ledger) (terms : List Sql.SortTerm)

theorem stepKeys?_skeleton (pos : Nat) (i : Instr) :
    stepKeys? s l.skeleton terms pos i = stepKeys? s l terms pos i := by
  unfold stepKeys? Step.keys
  rw [Scene.columnRead?_of_skeleton_eq (Ledger.skeleton_skeleton l)]

/-- The rows that read the columns a sort step is ordered by, in order. -/
def Step.rows (step : Step) (s : Scene) (terms : List Sql.SortTerm) : List Nat :=
  (List.range (step.width terms)).filterMap fun (field : Nat) =>
    if terms[field]? == some none then none
    else source? s.program sourceReach step.recordPos (registerAfter step.first field)

/-- The rows behind the keys of the sort step that an instruction inserts for. -/
def stepRows? (s : Scene) (terms : List Sql.SortTerm) (pos : Nat) (i : Instr) :
    Option (List Nat) := do
  let idiom ← idiom? i.opcode
  let step ← Step.of? s.program pos i idiom
  return step.rows s terms

theorem Step.keys_eq (step : Step) :
    step.keys s l terms = (step.rows s terms).filterMap (s.columnRead? l) := by
  rw [Step.keys, Step.rows, List.filterMap_filterMap]
  congr 1
  funext field
  split
  · rfl
  · rfl

theorem stepKeys?_eq (pos : Nat) (i : Instr) :
    stepKeys? s l terms pos i = (stepRows? s terms pos i).map (·.filterMap (s.columnRead? l)) := by
  unfold stepKeys? stepRows?
  simp only [Step.keys_eq, Option.bind_eq_bind, Option.map_bind, Option.pure_def, Function.comp_def,
    Option.map_some]

/-- Records the keys of the sort step that an instruction inserts for. -/
def recordStep (l : Ledger) (entry : Instr × Nat) : Ledger :=
  (stepKeys? s l terms entry.2 entry.1).elim l fun keys =>
    keys.foldl (fun l k => l.record k.1 .sort k.2) l

/-- The keys of the sort step that an instruction inserts for, each seen where it is read. -/
def stepSeen (entry : Instr × Nat) : List Sighting :=
  (stepRows? s terms entry.2 entry.1).elim [] (·.flatMap fun row =>
    (s.readSeen? l .sort row).toList)

theorem recordStep_sees (entry : Instr × Nat) :
    Sees s base (stepSeen s base terms entry) fun l => recordStep s terms l entry := by
  simp only [recordStep, stepSeen, stepKeys?_eq]
  rcases stepRows? s terms entry.2 entry.1 with _ | rows
  · exact sees_id s base
  · have hrows := sees_foldl rows fun row _ => s.sees_read base .sort row
    apply hrows.congr
    intro l hl
    rw [Option.map_some, Option.elim_some, List.foldl_filterMap,
      Scene.columnRead?_of_skeleton_eq hl]
    congr 1
    funext k row
    rcases s.columnRead? base row with _ | r
    · rfl
    · rfl

/-- What is recorded and what is found go side by side. -/
theorem recordSteps_eq_foldl :
    recordSteps s l terms = s.program.instrs.zipIdx.foldl
      (fun found entry => (recordStep s terms found.1 entry,
        found.2 || (stepKeys? s found.1 terms entry.2 entry.1).isSome)) (l, false) := by
  rw [recordSteps, Program.visit]
  congr 1
  funext ⟨l, found⟩ entry
  dsimp only
  rw [recordStep]
  rcases stepKeys? s l terms entry.2 entry.1 with _ | keys
  · rw [Option.isSome_none, Bool.or_false, Option.elim_none]
  · rw [Option.isSome_some, Bool.or_true, Option.elim_some]

/-- The steps one by one, and whether there are any. -/
theorem recordSteps_eq : recordSteps s l terms =
    (s.program.instrs.zipIdx.foldl (recordStep s terms) l,
      s.program.instrs.zipIdx.any fun entry => (stepKeys? s l terms entry.2 entry.1).isSome) := by
  have hrun (entries : List (Instr × Nat)) (k : Ledger)
      (hk : k.skeleton = l.skeleton) (found : Bool) :
      entries.foldl (fun (found : Ledger × Bool) entry => (recordStep s terms found.1 entry,
          found.2 || (stepKeys? s found.1 terms entry.2 entry.1).isSome)) (k, found) =
        (entries.foldl (recordStep s terms) k,
          found || entries.any fun entry => (stepKeys? s l terms entry.2 entry.1).isSome) := by
    induction entries generalizing k found with
    | nil => simp
    | cons entry entries ih =>
      have hkeys : stepKeys? s k terms entry.2 entry.1 = stepKeys? s l terms entry.2 entry.1 :=
        Ledger.eq_of_skeleton_eq (g := (stepKeys? s · terms entry.2 entry.1))
          (fun l => stepKeys?_skeleton s l terms entry.2 entry.1) hk
      have hskeleton := (recordStep_sees s l terms entry k hk).skeleton_eq.trans hk
      rw [List.foldl_cons, List.foldl_cons, List.any_cons, hkeys, ih _ hskeleton, Bool.or_assoc]
  rw [recordSteps_eq_foldl, hrun _ l rfl, Bool.false_or]

/-- All keys of sort steps. -/
def stepsSeen : List Sighting := s.program.instrs.zipIdx.flatMap (stepSeen s l terms)

theorem recordSteps_sees :
    Sees s base (stepsSeen s base terms) fun l => (recordSteps s l terms).1 := by
  simp only [recordSteps_eq]
  exact sees_foldl _ fun entry _ => recordStep_sees s base terms entry

theorem recordSteps_records : Records s.schema base fun l => (recordSteps s l terms).1 :=
  (recordSteps_sees s base terms).records

theorem recordSteps_skeleton : (recordSteps s l.skeleton terms).2 = (recordSteps s l terms).2 := by
  simp only [recordSteps_eq, stepKeys?_skeleton]

/-! ## Walks -/

theorem mem_entryColumns_of_orderedBy {schema : Schema} {refs : List Sql.TableRef} {u : Usage}
    {terms : List Sql.SortTerm} {column : String} (h : column ∈ orderedBy schema refs u terms) :
    column ∈ u.entryColumns schema := by
  obtain ⟨term, -, h⟩ := List.mem_filterMap.1 h
  obtain ⟨ref, -, h⟩ := Option.bind_eq_some_iff.1 h
  split at h
  · exact Usage.mem_entryColumns_of_orderedColumns (List.mem_of_find?_eq_some h)
  · cases h

theorem orderedBy_of_bare_eq {u v : Usage} (h : v.bare = u.bare) (schema : Schema)
    (refs : List Sql.TableRef) (terms : List Sql.SortTerm) :
    orderedBy schema refs v terms = orderedBy schema refs u terms := by
  have hordered := congrArg (orderedBy schema refs · terms) h
  exact hordered

/-- Records the order of one entry that is walked in stored order, unless it is sorted by something
already. -/
def recordWalk (l : Ledger) (id : Nat) : Ledger :=
  match l.usage? id with
  | none => l
  | some u =>
    if u.sortColumns.isEmpty then
      (orderedBy s.schema (Sql.tableRefs s.tokens) u terms).foldl
        (fun l column => l.record id .sort column) l
    else l

variable {s base l k terms}

/-- The order of an entry as notes. -/
theorem foldl_record_eq (id : Nat) (columns : List String) (l : Ledger) :
    columns.foldl (fun l column => l.record id .sort column) l =
      l.enterAll (columns.map (Note.column id .sort)) := by
  rw [Ledger.enterAll, List.foldl_map]
  rfl

theorem recordWalk_enters (id : Nat) : Enters s.schema l (recordWalk s terms l id) := by
  unfold recordWalk
  split
  · exact .refl ..
  · next u hu =>
    split
    · refine ⟨_, ?_, foldl_record_eq id _ l⟩
      intro n hn
      obtain ⟨column, hcolumn, rfl⟩ := List.mem_map.1 hn
      intro v hv
      obtain rfl := Option.some.inj (hu.symm.trans hv)
      exact mem_entryColumns_of_orderedBy hcolumn
    · exact .refl ..

/-- A walk that was recorded is not recorded anew: its entry is sorted by something now, or the
terms sort by none of its columns. -/
theorem recordWalk_eq_of_within {id : Nat} (h : (recordWalk s terms l id).Within k) :
    recordWalk s terms k id = k := by
  have hlk : l.Within k := (recordWalk_enters id).within.trans h
  rw [recordWalk]
  split
  · rfl
  · next v hv =>
    split
    · next hempty =>
      obtain ⟨u, hu, hbare⟩ := Ledger.usage?_of_skeleton_eq hlk.skeleton_eq hv
      have hnone : ∀ column, column ∉ v.sortColumns.toList := by
        intro column hcolumn
        rw [OrderedSet.isEmpty, List.isEmpty_iff] at hempty
        rw [hempty] at hcolumn
        cases hcolumn
      -- the entry was sorted by nothing before, so its order was recorded then
      have huempty : u.sortColumns.isEmpty = true := by
        rw [OrderedSet.isEmpty, List.isEmpty_iff, List.eq_nil_iff_forall_not_mem]
        intro column hcolumn
        exact hnone column (hlk.has (f := .column .sort column) hu hv hcolumn)
      have hordered : orderedBy s.schema (Sql.tableRefs s.tokens) u terms =
          orderedBy s.schema (Sql.tableRefs s.tokens) v terms :=
        orderedBy_of_bare_eq hbare ..
      rw [recordWalk, hu] at h
      dsimp only at h
      rw [if_pos huempty, foldl_record_eq, hordered] at h
      rw [foldl_record_eq]
      apply Ledger.enterAll_eq_of_holds
      intro n hn
      exact (Ledger.holds_enterAll hn).within h
    · rfl

theorem foldl_recordWalk_enters (ids : List Nat) (l : Ledger) :
    Enters s.schema l (ids.foldl (recordWalk s terms) l) := by
  induction ids generalizing l with
  | nil => exact .refl ..
  | cons id ids ih => exact (recordWalk_enters id).trans (ih _)

theorem foldl_recordWalk_eq_of_within {ids : List Nat}
    (h : (ids.foldl (recordWalk s terms) l).Within k) :
    ids.foldl (recordWalk s terms) k = k := by
  induction ids generalizing l with
  | nil => rfl
  | cons id ids ih =>
    have hfirst := (foldl_recordWalk_enters ids (recordWalk s terms l id)).within.trans h
    rw [List.foldl_cons, recordWalk_eq_of_within hfirst]
    exact ih h

theorem recordWalks_eq (s : Scene) (l : Ledger) (terms : List Sql.SortTerm) (forward : Bool) :
    recordWalks s l terms forward =
      if terms.all Option.isNone then l else (walks s forward).foldl (recordWalk s terms) l := rfl

theorem recordWalks_enters (forward : Bool) :
    Enters s.schema l (recordWalks s l terms forward) := by
  rw [recordWalks_eq]
  split
  · exact .refl ..
  · exact foldl_recordWalk_enters ..

theorem recordWalks_eq_of_within {forward : Bool} (h : (recordWalks s l terms forward).Within k) :
    recordWalks s k terms forward = k := by
  rw [recordWalks_eq] at h ⊢
  split
  · rfl
  · next hterms =>
    rw [if_neg hterms] at h
    exact foldl_recordWalk_eq_of_within h

/-- The search for orders only enters fitting notes. -/
theorem record_enters : Enters s.schema l (record s l) := by
  unfold record
  dsimp only
  split
  · exact .refl ..
  · exact (recordSteps_records s l _).enters.trans (recordWalks_enters _)

/-- The orders that were recorded are not recorded anew. -/
theorem record_eq_of_within (h : (record s l).Within k) : record s k = k := by
  unfold record at h ⊢
  dsimp only at h ⊢
  split
  · rfl
  · next hterms =>
    rw [if_neg hterms] at h
    have hsteps : (recordSteps s l (Sql.sortTerms s.tokens)).1.Within k :=
      (recordWalks_enters _).within.trans h
    have hledger := (recordSteps_records s l (Sql.sortTerms s.tokens)).eq_of_within hsteps
    have hsorted : (recordSteps s k (Sql.sortTerms s.tokens)).2 =
        (recordSteps s l (Sql.sortTerms s.tokens)).2 := by
      have hskeleton := hsteps.skeleton_eq.trans (recordSteps_records s l _).enters.skeleton_eq
      exact Ledger.eq_of_skeleton_eq (g := fun l => (recordSteps s l (Sql.sortTerms s.tokens)).2)
        (fun l => recordSteps_skeleton s l _) hskeleton
    rw [hledger, hsorted]
    exact recordWalks_eq_of_within h

end IndexAdvisor.Sort
