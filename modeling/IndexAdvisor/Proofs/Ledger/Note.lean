import IndexAdvisor.Proofs.Ledger.Linked

/-!
# Notes

All that a search for findings does to a ledger is to enter notes: a column for a clause, or the
text of a comparison, each for one entry. `Gives` tells what a note gives to whom, namely to the
entry it is for and to the owner of that entry; `has_enter` says that an entry has just what it had
and what it is given.

A ledger holds a note when nothing the note gives is missing. Entering a note that is held changes
nothing (`Holds.enter_eq`), a note that was entered is held (`holds_enter`), and it stays held
(`Holds.within`). So notes that are entered again change nothing: `enterAll_eq_of_holds`.
-/

namespace IndexAdvisor

/-- Something to be entered for the entry at a place: a column of a clause, or a comparison. -/
inductive Note where
  | column (id : Nat) (clause : Clause) (name : String)
  | filter (id : Nat) (text : String)
  deriving DecidableEq

namespace Usage

variable {u : Usage}

/-! ## Findings that are there already -/

theorem addColumn_eq_self {clause : Clause} {column : String} {through : Option Int}
    (hcolumn : u.Has (.column clause column))
    (hthrough : ∀ cursor, through = some cursor → u.Has (.indexColumn clause ⟨cursor, column⟩)) :
    u.addColumn clause column through = u := by
  cases clause with
  | filter =>
    cases through with
    | none => rw [addColumn, OrderedSet.insert_of_mem hcolumn]
    | some cursor =>
      have hindex : (⟨cursor, column⟩ : IndexColumn) ∈ u.filterIndexColumns.toList :=
        hthrough cursor rfl
      rw [addColumn, OrderedSet.insert_of_mem hcolumn, OrderedSet.insert_of_mem hindex]
  | sort =>
    cases through with
    | none => rw [addColumn, OrderedSet.insert_of_mem hcolumn]
    | some cursor =>
      have hindex : (⟨cursor, column⟩ : IndexColumn) ∈ u.sortIndexColumns.toList :=
        hthrough cursor rfl
      rw [addColumn, OrderedSet.insert_of_mem hcolumn, OrderedSet.insert_of_mem hindex]

theorem addFilter_eq_self {text : String} (h : u.Has (.filter text)) : u.addFilter text = u := by
  rw [addFilter, OrderedSet.insert_of_mem h]

theorem addIndex_eq_self {use : IndexUse} (h : u.Has (.index use)) : u.addIndex use = u := by
  rw [addIndex, OrderedSet.insert_of_mem h]

end Usage

namespace Ledger

variable {schema : Schema} {base l k m : Ledger} {n : Note} {notes : List Note} {id j t : Nat}
  {u v w : Usage} {f : Finding}

/-! ## What a note gives -/

/-- Enters a note. -/
def enter (l : Ledger) : Note → Ledger
  | .column id clause name => l.record id clause name
  | .filter id text => l.recordFilter id text

/-- Enters notes from left to right. -/
def enterAll (l : Ledger) (notes : List Note) : Ledger := notes.foldl enter l

@[simp] theorem enterAll_cons (l : Ledger) (n : Note) (notes : List Note) :
    l.enterAll (n :: notes) = (l.enter n).enterAll notes := rfl

theorem enterAll_append (l : Ledger) (notes more : List Note) :
    l.enterAll (notes ++ more) = (l.enterAll notes).enterAll more :=
  List.foldl_append

/-- What a note for an entry is entered for: the entry itself, and its owner. -/
def Reaches (l : Ledger) (id j : Nat) : Prop := j = id ∨ l.ownerOfIndex? id = some j

/-- What a note gives to the entry at a place. -/
inductive Gives (l : Ledger) : Note → Nat → Finding → Prop
  | column {id j clause name} (h : l.Reaches id j) :
      Gives l (.column id clause name) j (.column clause name)
  | indexColumn {id j clause name u} (h : l.Reaches id j) (hu : l.usage? id = some u)
      (hindex : u.isIndex = true) :
      Gives l (.column id clause name) j (.indexColumn clause ⟨u.cursor, name⟩)
  | filter {id j text} (h : l.Reaches id j) : Gives l (.filter id text) j (.filter text)

theorem Gives.of_skeleton_eq (hk : k.skeleton = l.skeleton) (h : k.Gives n j f) :
    l.Gives n j f := by
  have hreaches {id j : Nat} (h : k.Reaches id j) : l.Reaches id j := by
    have howner :=
      eq_of_skeleton_eq (g := (ownerOfIndex? · id)) (fun l => ownerOfIndex?_skeleton l id) hk
    rw [Reaches, howner] at h
    exact h
  cases h with
  | column h => exact .column (hreaches h)
  | filter h => exact .filter (hreaches h)
  | indexColumn h hu hindex =>
    obtain ⟨v, hv, hbare⟩ := usage?_of_skeleton_eq hk hu
    rw [← Usage.isIndex_of_bare_eq hbare] at hindex
    rw [← (Usage.bare_eq_iff.1 hbare).1]
    exact .indexColumn (hreaches h) hv hindex

theorem skeleton_enter (l : Ledger) (n : Note) : (l.enter n).skeleton = l.skeleton := by
  cases n with
  | column id clause name => exact skeleton_record l id clause name
  | filter id text => exact skeleton_recordFilter l id text

theorem skeleton_enterAll (l : Ledger) (notes : List Note) :
    (l.enterAll notes).skeleton = l.skeleton := by
  induction notes generalizing l with
  | nil => rfl
  | cons n notes ih => rw [enterAll_cons, ih, skeleton_enter]

/-- An addition at one place. -/
theorem has_modify {change : Usage → Usage} {added : Finding → Prop} (hc : Usage.Adds change added)
    (hw : (l.modify id change).usage? j = some w) :
    ∃ v, l.usage? j = some v ∧ ∀ f, w.Has f ↔ v.Has f ∨ j = id ∧ added f := by
  rw [usage?_modify] at hw
  by_cases hid : j = id
  · rw [if_pos hid] at hw
    obtain ⟨v, hv, rfl⟩ := Option.map_eq_some_iff.1 hw
    refine ⟨v, hv, fun f => ?_⟩
    rw [hc.has]
    simp only [hid, true_and]
  · rw [if_neg hid] at hw
    refine ⟨w, hw, fun f => ?_⟩
    simp only [hid, false_and, or_false]

/-- The same addition at two places, which may be one. -/
theorem has_modify_modify {change : Usage → Usage} {added : Finding → Prop}
    (hc : Usage.Adds change added) {i : Nat}
    (hw : ((l.modify id change).modify i change).usage? j = some w) :
    ∃ v, l.usage? j = some v ∧ ∀ f, w.Has f ↔ v.Has f ∨ (j = id ∨ j = i) ∧ added f := by
  obtain ⟨u, hu, hwu⟩ := has_modify hc hw
  obtain ⟨v, hv, huv⟩ := has_modify hc hu
  refine ⟨v, hv, fun f => ?_⟩
  rw [hwu, huv, or_assoc, or_and_right]

/-- An entry has what it had before a note was entered, and what the note gives to it. -/
theorem has_enter (hw : (l.enter n).usage? j = some w) :
    ∃ v, l.usage? j = some v ∧ ∀ f, w.Has f ↔ v.Has f ∨ l.Gives n j f := by
  cases n with
  | column id clause name =>
    rw [enter, record] at hw
    rcases hu : l.usage? id with _ | u
    · -- there is no entry, hence none that the note could reach
      rw [hu] at hw
      refine ⟨w, hw, fun f => ⟨.inl, ?_⟩⟩
      have hreaches : ¬l.Reaches id j := by
        rintro (rfl | ho)
        · rw [hu] at hw
          cases hw
        · obtain ⟨v, hv, -⟩ := ownerOfIndex?_eq_some ho
          rw [hu] at hv
          cases hv
      intro hf
      rcases hf with hf | hf
      · exact hf
      · cases hf with
        | column h => exact absurd h hreaches
        | indexColumn h => exact absurd h hreaches
    · rw [hu] at hw
      dsimp only at hw
      have hc := Usage.adds_addColumn clause name (if u.isIndex = true then some u.cursor else none)
      -- the addition is the same at the entry and at its owner
      have hgives (f : Finding) : l.Gives (.column id clause name) j f ↔ l.Reaches id j ∧
          (f = .column clause name ∨ ∃ cursor,
            (if u.isIndex = true then some u.cursor else none) = some cursor ∧
            f = .indexColumn clause ⟨cursor, name⟩) := by
        constructor
        · intro hf
          cases hf with
          | column h => exact ⟨h, .inl rfl⟩
          | indexColumn h hv hindex =>
            obtain rfl := Option.some.inj (hu.symm.trans hv)
            exact ⟨h, .inr ⟨u.cursor, if_pos hindex, rfl⟩⟩
        · rintro ⟨h, rfl | ⟨cursor, hcursor, rfl⟩⟩
          · exact .column h
          · split at hcursor
            · next hindex =>
              obtain rfl := Option.some.inj hcursor
              exact .indexColumn h hu hindex
            · cases hcursor
      simp only [hgives, Reaches]
      rcases ho : l.ownerOfIndex? id with _ | t
      · rw [ho] at hw
        obtain ⟨v, hv, hhas⟩ := has_modify hc hw
        refine ⟨v, hv, fun f => ?_⟩
        rw [hhas]
        simp only [reduceCtorEq, or_false]
      · rw [ho] at hw
        obtain ⟨v, hv, hhas⟩ := has_modify_modify hc hw
        refine ⟨v, hv, fun f => ?_⟩
        rw [hhas]
        simp only [Option.some.injEq, eq_comm]
  | filter id text =>
    have hc := Usage.adds_addFilter text
    have hgives (f : Finding) : l.Gives (.filter id text) j f ↔
        l.Reaches id j ∧ f = .filter text := by
      constructor
      · intro hf
        cases hf with
        | filter h => exact ⟨h, rfl⟩
      · rintro ⟨h, rfl⟩
        exact .filter h
    rw [enter, recordFilter] at hw
    simp only [hgives, Reaches]
    rcases ho : l.ownerOfIndex? id with _ | t
    · rw [ho] at hw
      obtain ⟨v, hv, hhas⟩ := has_modify hc hw
      refine ⟨v, hv, fun f => ?_⟩
      rw [hhas]
      simp only [reduceCtorEq, or_false]
    · rw [ho] at hw
      obtain ⟨v, hv, hhas⟩ := has_modify_modify hc hw
      refine ⟨v, hv, fun f => ?_⟩
      rw [hhas]
      simp only [Option.some.injEq, eq_comm, or_comm]

/-- The entry was there before the note, with the same identity. -/
theorem usage?_enter (hw : (l.enter n).usage? j = some w) :
    ∃ v, l.usage? j = some v ∧ w.bare = v.bare ∧ ∀ f, w.Has f ↔ v.Has f ∨ l.Gives n j f := by
  obtain ⟨v, hv, hhas⟩ := has_enter hw
  obtain ⟨v', hv', hbare⟩ := usage?_of_skeleton_eq (skeleton_enter l n) hw
  obtain rfl := Option.some.inj (hv.symm.trans hv')
  exact ⟨v, hv, hbare.symm, hhas⟩

/-- An entry has what it had before some notes were entered, and what one of them gives to it. -/
theorem has_enterAll (hw : (l.enterAll notes).usage? j = some w) :
    ∃ v, l.usage? j = some v ∧ ∀ f, w.Has f ↔ v.Has f ∨ ∃ n ∈ notes, l.Gives n j f := by
  induction notes generalizing l with
  | nil => exact ⟨w, hw, fun f => by simp⟩
  | cons n notes ih =>
    obtain ⟨u, hu, hwu⟩ := ih hw
    obtain ⟨v, hv, huv⟩ := has_enter hu
    refine ⟨v, hv, fun f => ?_⟩
    have hgives (m : Note) : (l.enter n).Gives m j f ↔ l.Gives m j f :=
      ⟨fun h => h.of_skeleton_eq (skeleton_enter l n),
        fun h => h.of_skeleton_eq (skeleton_enter l n).symm⟩
    rw [hwu, huv, or_assoc]
    simp only [hgives, List.mem_cons, or_and_right, exists_or, exists_eq_left]

/-! ## Ledgers that have more -/

/-- The second ledger has the entries of the first one and at least its findings. -/
structure Within (l k : Ledger) : Prop where
  skeleton_eq : k.skeleton = l.skeleton
  has : ∀ {id u v f}, l.usage? id = some u → k.usage? id = some v → u.Has f → v.Has f

theorem Within.refl (l : Ledger) : l.Within l where
  skeleton_eq := rfl
  has hu hv hf := by
    obtain rfl := Option.some.inj (hu.symm.trans hv)
    exact hf

theorem Within.trans (hlk : l.Within k) (hkm : k.Within m) : l.Within m where
  skeleton_eq := hkm.skeleton_eq.trans hlk.skeleton_eq
  has hu hw hf := by
    obtain ⟨v, hv, -⟩ := usage?_of_skeleton_eq hkm.skeleton_eq hw
    exact hkm.has hv hw (hlk.has hu hv hf)

theorem within_enter (l : Ledger) (n : Note) : l.Within (l.enter n) where
  skeleton_eq := skeleton_enter l n
  has hu hw hf := by
    obtain ⟨v, hv, hhas⟩ := has_enter hw
    obtain rfl := Option.some.inj (hu.symm.trans hv)
    exact (hhas _).2 (.inl hf)

theorem within_enterAll (l : Ledger) (notes : List Note) : l.Within (l.enterAll notes) := by
  induction notes generalizing l with
  | nil => exact .refl l
  | cons n notes ih => exact (within_enter l n).trans (ih (l.enter n))

/-! ## Notes that are held -/

/-- Nothing that the note gives is missing. -/
def Holds (l : Ledger) (n : Note) : Prop := ∀ j v f, l.usage? j = some v → l.Gives n j f → v.Has f

theorem holds_enter (l : Ledger) (n : Note) : (l.enter n).Holds n := by
  intro j w f hw hf
  obtain ⟨v, hv, hhas⟩ := has_enter hw
  exact (hhas f).2 (.inr (hf.of_skeleton_eq (skeleton_enter l n)))

theorem Holds.within (h : l.Holds n) (hk : l.Within k) : k.Holds n := by
  intro j w f hw hf
  obtain ⟨v, hv, -⟩ := usage?_of_skeleton_eq hk.skeleton_eq hw
  exact hk.has hv hw (h j v f hv (hf.of_skeleton_eq hk.skeleton_eq))

theorem holds_enterAll (h : n ∈ notes) : (l.enterAll notes).Holds n := by
  induction notes generalizing l with
  | nil => cases h
  | cons m notes ih =>
    rw [enterAll_cons]
    rcases List.mem_cons.1 h with rfl | h
    · exact (holds_enter l n).within (within_enterAll _ notes)
    · exact ih h

theorem modify_eq_self {change : Usage → Usage} (h : ∀ u, l.usage? id = some u → change u = u) :
    l.modify id change = l := by
  have hentries : l.entries.modify id (fun e => { e with usage := change e.usage }) =
      l.entries := by
    apply List.ext_getElem?
    intro j
    rw [List.getElem?_modify]
    rcases he : l.entries[j]? with _ | e
    · rfl
    · by_cases hj : id = j
      · have hchange := h e.usage (by rw [usage?, hj, he]; rfl)
        simp only [if_pos hj, Option.map_eq_map, Option.map_some, hchange]
      · simp only [if_neg hj, Option.map_eq_map, Option.map_some]
  rw [modify, hentries]

/-- Entering a note that is held changes nothing. -/
theorem Holds.enter_eq (h : l.Holds n) : l.enter n = l := by
  cases n with
  | column id clause name =>
    rw [enter, record]
    rcases hu : l.usage? id with _ | u
    · rfl
    · dsimp only
      have hself {j : Nat} (hj : l.Reaches id j) :
          l.modify j (·.addColumn clause name (if u.isIndex = true then some u.cursor else none)) =
            l := by
        apply modify_eq_self
        intro v hv
        apply Usage.addColumn_eq_self (h j v _ hv (.column hj))
        intro cursor hcursor
        split at hcursor
        · next hindex =>
          obtain rfl := Option.some.inj hcursor
          exact h j v _ hv (.indexColumn hj hu hindex)
        · cases hcursor
      rw [hself (.inl rfl)]
      rcases ho : l.ownerOfIndex? id with _ | t
      · rfl
      · exact hself (.inr ho)
  | filter id text =>
    have hself {j : Nat} (hj : l.Reaches id j) : l.modify j (·.addFilter text) = l := by
      apply modify_eq_self
      intro v hv
      exact Usage.addFilter_eq_self (h j v _ hv (.filter hj))
    rw [enter, recordFilter]
    rcases ho : l.ownerOfIndex? id with _ | t
    · exact hself (.inl rfl)
    · dsimp only
      rw [hself (.inr ho)]
      exact hself (.inl rfl)

theorem enterAll_eq_of_holds (h : ∀ n ∈ notes, l.Holds n) : l.enterAll notes = l := by
  induction notes with
  | nil => rfl
  | cons n notes ih =>
    rw [enterAll_cons, (h n (List.mem_cons_self ..)).enter_eq]
    exact ih fun m hm => h m (List.mem_cons_of_mem _ hm)

/-! ## The links -/

theorem enter_linked (h : Linked schema l) (n : Note) : Linked schema (l.enter n) := by
  cases n with
  | column id clause name => exact record_linked h id clause name
  | filter id text => exact recordFilter_linked h id text

end Ledger

end IndexAdvisor
