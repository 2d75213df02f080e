import IndexAdvisor.Ledger.Basic
import IndexAdvisor.Proofs.Usage.Findings

/-!
# A ledger seen entry by entry

What each operation on a ledger does to the usage and to the owner at a place. These are the only
facts about the list of entries that later proofs use: a ledger is its size together with
`usage?` and `owner?`.

`skeleton` forgets all findings and keeps who is in the ledger and who owns whom. Recording a
finding never changes it, so whatever depends on the skeleton alone survives every recording.
-/

namespace IndexAdvisor

namespace Ledger

variable {l : Ledger} {id j t : Nat} {u : Usage}

/-! ## Places -/

theorem usage?_eq_none_iff : l.usage? id = none ↔ l.size ≤ id := by
  simp [usage?, size]

theorem lt_size_of_usage? (h : l.usage? id = some u) : id < l.size := by
  refine Nat.lt_of_not_le fun hge => ?_
  rw [usage?_eq_none_iff.2 hge] at h
  cases h

theorem exists_usage? (h : id < l.size) : ∃ u, l.usage? id = some u := by
  rcases hu : l.usage? id with _ | u
  · rw [usage?_eq_none_iff] at hu; omega
  · exact ⟨u, rfl⟩

theorem owner?_of_size_le (h : l.size ≤ id) : l.owner? id = none := by
  simp only [size] at h
  simp [owner?, h]

theorem usages_getElem? (l : Ledger) (id : Nat) : l.usages[id]? = l.usage? id := by
  simp [usages, usage?]

theorem mem_usages : u ∈ l.usages ↔ ∃ id, l.usage? id = some u := by
  simp only [List.mem_iff_getElem?, usages_getElem?]

@[simp] theorem length_usages (l : Ledger) : l.usages.length = l.size := by
  simp [usages, size]

/-! ## What the operations do -/

@[simp] theorem usage?_empty (id : Nat) : empty.usage? id = none := by simp [usage?, empty]

@[simp] theorem size_add (l : Ledger) (u : Usage) : (l.add u).size = l.size + 1 := by
  simp [size, add]

theorem usage?_add (l : Ledger) (u : Usage) (j : Nat) :
    (l.add u).usage? j = if j = l.size then some u else l.usage? j := by
  have hsize : l.size = l.entries.length := rfl
  rw [hsize]
  simp only [usage?, add]
  rcases Nat.lt_trichotomy j l.entries.length with hlt | rfl | hgt
  · rw [List.getElem?_append_left hlt, if_neg (Nat.ne_of_lt hlt)]
  · rw [List.getElem?_concat_length, if_pos rfl]; rfl
  · rw [List.getElem?_eq_none (by simp; omega), List.getElem?_eq_none (by omega),
      if_neg (by omega)]

theorem owner?_add (l : Ledger) (u : Usage) (j : Nat) : (l.add u).owner? j = l.owner? j := by
  simp only [owner?, add, List.getElem?_append]
  by_cases hlt : j < l.entries.length
  · rw [if_pos hlt]
  · rw [if_neg hlt, List.getElem?_eq_none (Nat.le_of_not_lt hlt)]
    rcases hj : j - l.entries.length with _ | k <;> simp

@[simp] theorem size_modify (l : Ledger) (id : Nat) (change : Usage → Usage) :
    (l.modify id change).size = l.size := by
  simp [size, modify]

theorem usage?_modify (l : Ledger) (id : Nat) (change : Usage → Usage) (j : Nat) :
    (l.modify id change).usage? j = if j = id then (l.usage? j).map change else l.usage? j := by
  simp only [usage?, modify, List.getElem?_modify]
  rcases l.entries[j]? with _ | e
  · simp
  · by_cases h : id = j
    · simp [h]
    · simp [h, Ne.symm h]

/-- The same change at two places. -/
theorem usage?_modify_modify (l : Ledger) {i j : Nat} (hne : i ≠ j) (change : Usage → Usage)
    (k : Nat) :
    ((l.modify i change).modify j change).usage? k =
      (l.usage? k).map fun u => if k = i ∨ k = j then change u else u := by
  rw [usage?_modify, usage?_modify]
  rcases l.usage? k with _ | u
  · simp
  · by_cases hi : k = i
    · simp [hi, hne]
    · by_cases hj : k = j
      · simp [hj, hne.symm]
      · simp [hi, hj]

@[simp] theorem owner?_modify (l : Ledger) (id : Nat) (change : Usage → Usage) (j : Nat) :
    (l.modify id change).owner? j = l.owner? j := by
  simp only [owner?, modify, List.getElem?_modify]
  rcases l.entries[j]? with _ | e
  · rfl
  · by_cases h : id = j <;> simp [h]

@[simp] theorem size_setOwner (l : Ledger) (index table : Nat) :
    (l.setOwner index table).size = l.size := by
  simp [size, setOwner]

@[simp] theorem usage?_setOwner (l : Ledger) (index table j : Nat) :
    (l.setOwner index table).usage? j = l.usage? j := by
  simp only [usage?, setOwner, List.getElem?_modify]
  rcases l.entries[j]? with _ | e
  · rfl
  · by_cases h : index = j <;> simp [h]

theorem owner?_setOwner (l : Ledger) (index table j : Nat) :
    (l.setOwner index table).owner? j =
      if j = index ∧ j < l.size then some table else l.owner? j := by
  simp only [owner?, setOwner, size, List.getElem?_modify]
  by_cases hlt : j < l.entries.length
  · rw [List.getElem?_eq_getElem hlt]
    by_cases h : index = j
    · simp [h, hlt]
    · simp [h, Ne.symm h]
  · rw [List.getElem?_eq_none (Nat.le_of_not_lt hlt)]
    simp [hlt]

@[simp] theorem size_mapUsages (l : Ledger) (change : Usage → Usage) :
    (l.mapUsages change).size = l.size := by
  simp [size, mapUsages]

@[simp] theorem usage?_mapUsages (l : Ledger) (change : Usage → Usage) (j : Nat) :
    (l.mapUsages change).usage? j = (l.usage? j).map change := by
  simp [usage?, mapUsages, Function.comp_def]

@[simp] theorem owner?_mapUsages (l : Ledger) (change : Usage → Usage) (j : Nat) :
    (l.mapUsages change).owner? j = l.owner? j := by
  simp only [owner?, mapUsages, List.getElem?_map]
  rcases l.entries[j]? with _ | e <;> rfl

/-! ## Searches -/

theorem find?_eq_some {name : String} {kind : ObjectKind} (h : l.find? name kind = some id) :
    ∃ u, l.usage? id = some u ∧ u.isOf name kind = true := by
  obtain ⟨hlt, hof, -⟩ := List.findIdx?_eq_some_iff_getElem.1 h
  exact ⟨_, by simp [usage?, List.getElem?_eq_getElem hlt], hof⟩

theorem find?_eq_none {name : String} {kind : ObjectKind} (h : l.find? name kind = none)
    (hu : l.usage? id = some u) : u.isOf name kind = false := by
  obtain ⟨e, he, rfl⟩ := Option.map_eq_some_iff.1 hu
  exact List.findIdx?_eq_none_iff.1 h e (List.mem_of_getElem? he)

theorem findAt?_eq_some {name : String} {page : Nat} (h : l.findAt? name page = some id) :
    ∃ u, l.usage? id = some u ∧ u.rootPage = page ∧ sameName u.name name = true := by
  obtain ⟨hlt, hof, -⟩ := List.findIdx?_eq_some_iff_getElem.1 h
  rw [Bool.and_eq_true, beq_iff_eq] at hof
  exact ⟨_, by simp [usage?, List.getElem?_eq_getElem hlt], hof⟩

theorem findAt?_eq_none {name : String} {page : Nat} (h : l.findAt? name page = none)
    (hu : l.usage? id = some u) (hpage : u.rootPage = page) : sameName u.name name = false := by
  obtain ⟨e, he, rfl⟩ := Option.map_eq_some_iff.1 hu
  have hno := List.findIdx?_eq_none_iff.1 h e (List.mem_of_getElem? he)
  simpa [hpage] using hno

/-! ## The skeleton -/

/-- Who is in a ledger and who owns whom, without any findings. -/
def skeleton (l : Ledger) : Ledger := l.mapUsages Usage.bare

theorem skeleton_modify {change : Usage → Usage} (l : Ledger) (id : Nat)
    (h : ∀ u, (change u).bare = u.bare) : (l.modify id change).skeleton = l.skeleton := by
  simp only [skeleton, mapUsages, modify, mk.injEq]
  refine List.ext_getElem? fun j => ?_
  rw [List.getElem?_map, List.getElem?_map, List.getElem?_modify]
  rcases l.entries[j]? with _ | e
  · rfl
  · by_cases hj : id = j <;> simp [hj, h]

/-- Two ledgers of one skeleton have the same entries up to findings. -/
theorem usage?_of_skeleton_eq {k : Ledger} (h : k.skeleton = l.skeleton)
    (hu : k.usage? id = some u) :
    ∃ v, l.usage? id = some v ∧ v.bare = u.bare := by
  have hbare := congrArg (usage? · id) h
  simp only [skeleton, usage?_mapUsages, hu, Option.map_some] at hbare
  exact Option.map_eq_some_iff.1 hbare.symm

theorem owner?_of_skeleton_eq {k : Ledger} (h : k.skeleton = l.skeleton) (id : Nat) :
    k.owner? id = l.owner? id := by
  have howner := congrArg (owner? · id) h
  simpa only [skeleton, owner?_mapUsages] using howner

theorem skeleton_record (l : Ledger) (id : Nat) (clause : Clause) (column : String) :
    (l.record id clause column).skeleton = l.skeleton := by
  unfold record
  split
  · rfl
  · extract_lets through own
    have hadds := Usage.adds_addColumn clause column through
    have hown : own.skeleton = l.skeleton := skeleton_modify l id hadds.bare
    split
    · exact hown
    · exact (skeleton_modify own _ hadds.bare).trans hown

theorem skeleton_recordFilter (l : Ledger) (id : Nat) (text : String) :
    (l.recordFilter id text).skeleton = l.skeleton := by
  have hadds := Usage.adds_addFilter text
  unfold recordFilter
  extract_lets shared
  have hshared : shared.skeleton = l.skeleton := by
    unfold shared
    split
    · rfl
    · exact skeleton_modify l _ hadds.bare
  exact (skeleton_modify shared id hadds.bare).trans hshared

/-! ## What the skeleton decides -/

variable {k : Ledger}

@[simp] theorem usage?_skeleton (l : Ledger) (id : Nat) :
    l.skeleton.usage? id = (l.usage? id).map Usage.bare := by
  rw [skeleton, usage?_mapUsages]

@[simp] theorem size_skeleton (l : Ledger) : l.skeleton.size = l.size := by
  rw [skeleton, size_mapUsages]

theorem skeleton_skeleton (l : Ledger) : l.skeleton.skeleton = l.skeleton := by
  simp only [skeleton, mapUsages, List.map_map]
  rfl

theorem find?_skeleton (l : Ledger) (name : String) (kind : ObjectKind) :
    l.skeleton.find? name kind = l.find? name kind := by
  simp only [find?, skeleton, mapUsages, List.findIdx?_map]
  rfl

theorem ownerOfIndex?_skeleton (l : Ledger) (id : Nat) :
    l.skeleton.ownerOfIndex? id = l.ownerOfIndex? id := by
  rw [ownerOfIndex?, ownerOfIndex?, usage?_skeleton, skeleton, owner?_mapUsages]
  rcases l.usage? id with _ | u
  · rfl
  · rfl

/-- What is read off the skeleton is the same for all ledgers of one skeleton. -/
theorem eq_of_skeleton_eq {β : Type} {g : Ledger → β} (hg : ∀ l, g l.skeleton = g l)
    (h : k.skeleton = l.skeleton) : g k = g l := by
  rw [← hg k, h, hg l]

/-- What is read off the identity of an entry is the same for all ledgers of one skeleton. -/
theorem bind_usage?_of_skeleton_eq {β : Type} {g : Usage → Option β} (hg : ∀ u, g u.bare = g u)
    (h : k.skeleton = l.skeleton) (id : Nat) : (k.usage? id).bind g = (l.usage? id).bind g := by
  apply eq_of_skeleton_eq (g := fun l => (l.usage? id).bind g) _ h
  intro l
  rw [usage?_skeleton]
  rcases l.usage? id with _ | u
  · rfl
  · exact hg u

end Ledger

end IndexAdvisor
