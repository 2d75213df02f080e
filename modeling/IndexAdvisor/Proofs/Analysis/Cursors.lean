import IndexAdvisor.Proofs.Analysis.Recorded
import IndexAdvisor.Proofs.Ledger.Everywhere
import IndexAdvisor.Proofs.Sort.Sighted

/-!
# The cursors of findings

A column that is found through an index is kept with a cursor, and this ought to be the cursor of
the row where it was seen (`CarriesCursors`). But the cursor is taken from the entry of the index,
and an entry that is opened again stands under the new cursor before anything is recorded.

> `carries_cursors_iff`: findings carry the cursors they were seen through just if every sighting of
> an index is at a row of the cursor under which the index was opened last.

So where a program opens an index twice, as for a self-join, what is seen through the first cursor
is kept under the second (`carries_cursors_reopened`).
-/

namespace IndexAdvisor

/-! ## Owners -/

namespace Ledger

variable {schema : Schema} {l : Ledger} {id t : Nat} {u : Usage} {change : Usage → Usage}

/-- Every owner is a table. -/
def OwnersAreTables (l : Ledger) : Prop :=
  ∀ id t, l.owner? id = some t → ∃ v, l.usage? t = some v ∧ v.isIndex = false

theorem OwnersAreTables.add (h : OwnersAreTables l) (u : Usage) : OwnersAreTables (l.add u) := by
  intro id t ho
  rw [owner?_add] at ho
  obtain ⟨v, hv, htable⟩ := h id t ho
  exact ⟨v, by rw [usage?_add, if_neg (Nat.ne_of_lt (lt_size_of_usage? hv)), hv], htable⟩

theorem OwnersAreTables.modify (h : OwnersAreTables l) (id : Nat)
    (hchange : ∀ u, (change u).kind = u.kind) :
    OwnersAreTables (l.modify id change) := by
  intro j t ho
  rw [owner?_modify] at ho
  obtain ⟨v, hv, htable⟩ := h j t ho
  rw [usage?_modify, hv]
  split
  · refine ⟨change v, rfl, ?_⟩
    rw [Usage.isIndex, hchange]
    exact htable
  · exact ⟨v, rfl, htable⟩

theorem OwnersAreTables.attach (h : OwnersAreTables l) {use : IndexUse} (hu : l.usage? t = some u)
    (htable : u.isIndex = false) :
    OwnersAreTables ((l.setOwner id t).modify t (·.addIndex use)) := by
  have howner : OwnersAreTables (l.setOwner id t) := by
    intro j s ho
    rw [owner?_setOwner] at ho
    rw [usage?_setOwner]
    split at ho
    · obtain rfl := Option.some.inj ho
      exact ⟨u, hu, htable⟩
    · exact h j s ho
  exact howner.modify t fun _ => rfl

theorem OwnersAreTables.link (h : OwnersAreTables l) (schema : Schema) (id : Nat) :
    OwnersAreTables (l.link schema id).1 := by
  unfold Ledger.link
  split
  · exact h
  · dsimp only
    split
    · next t ht =>
      obtain ⟨v, hv, hof⟩ := find?_eq_some ht
      exact h.attach hv (Usage.isIndex_of_isOf_table hof)
    · split
      · exact h
      · apply (h.add _).attach
        · rw [usage?_add, if_pos rfl]
        · rfl

theorem OwnersAreTables.place (h : OwnersAreTables l) (schema : Schema) (object : SchemaObject)
    (cursor : Int) :
    OwnersAreTables (l.place schema object cursor).1 := by
  unfold Ledger.place
  extract_lets placed
  have hplaced : OwnersAreTables placed.1 := by
    unfold placed
    split
    · exact h.modify _ fun _ => rfl
    · exact h.add _
  split
  · exact hplaced
  · exact hplaced.link schema placed.2

theorem scan_ownersAreTables (schema : Schema) (program : Program) :
    OwnersAreTables (Openings.scan .empty schema program).1 :=
  Openings.scan_induction nofun fun r _ _ hk => hk.place schema r.object r.cursor

end Ledger

/-! ## Cursors that are opened last -/

namespace Openings

variable {openings : Openings} {schema : Schema} {program : Program} {cursor : Int} {pos id : Nat}
  {u : Usage}

theorem lastCursor?_isSome {o : Opening} (ho : o ∈ openings) :
    (lastCursor? openings o.id).isSome = true := by
  induction openings using List.reverseRecOn with
  | nil => cases ho
  | append_singleton openings q ih =>
    rw [lastCursor?_concat]
    split
    · rfl
    · next hne =>
      rcases List.mem_append.1 ho with ho | ho
      · exact ih ho
      · obtain rfl := List.mem_singleton.1 ho
        exact absurd rfl hne

theorem lastCursor?_of_at? (h : openings.at? cursor pos = some id) :
    (lastCursor? openings id).isSome = true := by
  rw [at?] at h
  obtain ⟨o, ho, rfl⟩ := Option.map_eq_some_iff.1 h
  apply lastCursor?_isSome
  rcases Option.or_eq_some_iff.1 ho with ho | ⟨-, ho⟩
  · exact List.mem_of_mem_filter (List.mem_reverse.1 (List.mem_of_find?_eq_some ho))
  · exact List.mem_of_mem_filter (List.mem_of_head? ho)

/-- An entry that a cursor means stands under the cursor it was opened under last. -/
theorem lastCursor?_scan (h : (scan .empty schema program).2.at? cursor pos = some id)
    (hu : (scan .empty schema program).1.usage? id = some u) :
    lastCursor? (scan .empty schema program).2 id = some u.cursor := by
  obtain ⟨last, hlast⟩ := Option.isSome_iff_exists.1 (lastCursor?_of_at? h)
  obtain ⟨v, hv, rfl⟩ := (scan_granted schema program).cursors hlast
  obtain rfl := Option.some.inj (hu.symm.trans hv)
  exact hlast

end Openings

/-! ## Findings and sightings -/

/-- The cursor of the row where something is seen. -/
def Sighting.cursor? (s : Scene) (x : Sighting) : Option Int :=
  (s.program.at? x.position).bind Instr.n1

/-- A column is seen of the index at a place of a ledger. -/
def Sighting.OfIndex (x : Sighting) (l : Ledger) (id : Nat) (clause : Clause) (column : String) :
    Prop :=
  x.note = .column id clause column ∧ ∃ u, l.usage? id = some u ∧ u.isIndex = true

/-- Columns of indexes are found under the cursors they are seen through, at the index and at its
table, and under no other ones. -/
structure CarriesCursors (s : Scene) (seen : List Sighting) (k : Ledger) : Prop where
  found : ∀ x ∈ seen, ∀ id clause column cursor, x.OfIndex k id clause column →
    x.cursor? s = some cursor →
    ∀ j, k.Reaches id j → ∃ w, k.usage? j = some w ∧ w.Has (.indexColumn clause ⟨cursor, column⟩)
  seen : ∀ j w clause cursor column, k.usage? j = some w →
    w.Has (.indexColumn clause ⟨cursor, column⟩) →
    ∃ x ∈ seen, ∃ id, x.OfIndex k id clause column ∧ k.Reaches id j ∧ x.cursor? s = some cursor

namespace Analysis

variable (schema : Schema) (tokens : List Sql.Token) (program : Program)

/-- A program with its openings. -/
def scene : Scene :=
  { program, schema, openings := (Openings.scan .empty schema program).2, tokens }

/-- All that is seen in a program. -/
def sightings : List Sighting :=
  let s := scene schema tokens program
  let opened := (Openings.scan .empty schema program).1
  Filter.sightings s opened ++ Sort.sightings s (Filter.record s opened)

/-- Reading a program enters what is seen in it. -/
theorem readInto_sighted :
    Sighted (scene schema tokens program) (Openings.scan .empty schema program).1
    (sightings schema tokens program) (readInto .empty schema tokens program) :=
  (Filter.record_sees (scene schema tokens program) _).sighted.append (Sort.record_sighted ..)

variable {schema tokens program} {x : Sighting} {id j : Nat} {clause : Clause} {column : String}
  {cursor : Int}

theorem skeleton_readInto : (readInto .empty schema tokens program).skeleton =
    (Openings.scan .empty schema program).1.skeleton :=
  (readInto_sighted schema tokens program).skeleton_eq

theorem reaches_readInto_iff : (readInto .empty schema tokens program).Reaches id j ↔
    (Openings.scan .empty schema program).1.Reaches id j := by
  rw [Ledger.Reaches, Ledger.Reaches,
    Ledger.eq_of_skeleton_eq (g := (Ledger.ownerOfIndex? · id)) (Ledger.ownerOfIndex?_skeleton · id)
    skeleton_readInto]

/-- A column of an index is seen through a cursor that means the index, and the index is left under
the cursor it was opened under last. -/
theorem ofIndex_readInto_iff (hx : x ∈ sightings schema tokens program) :
    x.OfIndex (readInto .empty schema tokens program) id clause column ↔
      x.note = .column id clause column ∧
      ∃ u, (Openings.scan .empty schema program).1.usage? id = some u ∧ u.isIndex = true ∧
        Openings.lastCursor? (scene schema tokens program).openings id = some u.cursor ∧
        ∃ cursor, x.cursor? (scene schema tokens program) = some cursor ∧
          (scene schema tokens program).openings.at? cursor x.position = some id := by
  constructor
  · rintro ⟨hnote, w, hw, hindex⟩
    obtain ⟨u, hu, hbare⟩ := Ledger.usage?_of_skeleton_eq skeleton_readInto hw
    rw [← Usage.isIndex_of_bare_eq hbare] at hindex
    have hentry :=
      (readInto_sighted schema tokens program).through x hx id clause column u hnote hu hindex
    obtain ⟨i, hi, hof⟩ := Option.bind_eq_some_iff.1 hentry
    obtain ⟨cursor, hcursor, hat⟩ := Option.bind_eq_some_iff.1 hof
    refine ⟨hnote, u, hu, hindex, Openings.lastCursor?_scan hat hu, cursor, ?_, hat⟩
    rw [Sighting.cursor?, hi, Option.bind_some, hcursor]
  · rintro ⟨hnote, u, hu, hindex, -, -⟩
    obtain ⟨w, hw, hbare⟩ := Ledger.usage?_of_skeleton_eq skeleton_readInto.symm hu
    refine ⟨hnote, w, hw, ?_⟩
    rw [Usage.isIndex_of_bare_eq hbare]
    exact hindex

/-- What a program leads to are the columns that were seen of indexes, each under the cursor its
index was opened under last. -/
theorem has_indexColumn_readInto_iff {w : Usage}
    (hw : (readInto .empty schema tokens program).usage? j = some w) :
    w.Has (.indexColumn clause ⟨cursor, column⟩) ↔ ∃ x ∈ sightings schema tokens program, ∃ id,
      x.OfIndex (readInto .empty schema tokens program) id clause column ∧
        (readInto .empty schema tokens program).Reaches id j ∧
        Openings.lastCursor? (scene schema tokens program).openings id = some cursor := by
  rw [(readInto_sighted schema tokens program).eq] at hw
  obtain ⟨v, hv, hhas⟩ := Ledger.has_enterAll hw
  rw [hhas]
  constructor
  · rintro (hf | ⟨n, hn, hgives⟩)
    · -- openings find no columns
      obtain ⟨use, huse⟩ := Ledger.scan_unnoted schema program j v hv _ hf
      cases huse
    · obtain ⟨x, hx, rfl⟩ := List.mem_map.1 hn
      generalize hnote : x.note = n at hgives
      cases hgives with
      | @indexColumn id _ _ _ u hreaches hu hindex =>
        obtain ⟨w', hw', hbare⟩ := Ledger.usage?_of_skeleton_eq skeleton_readInto.symm hu
        rw [← Usage.isIndex_of_bare_eq hbare] at hindex
        have hof : x.OfIndex (readInto .empty schema tokens program) id clause column :=
          ⟨hnote, w', hw', hindex⟩
        obtain ⟨-, u', hu', -, hlast, -⟩ := (ofIndex_readInto_iff hx).1 hof
        obtain rfl := Option.some.inj (hu.symm.trans hu')
        exact ⟨x, hx, id, hof, reaches_readInto_iff.2 hreaches, hlast⟩
  · rintro ⟨x, hx, id, hof, hreaches, hlast⟩
    obtain ⟨hnote, u, hu, hindex, hlast', -⟩ := (ofIndex_readInto_iff hx).1 hof
    obtain rfl := Option.some.inj (hlast'.symm.trans hlast)
    refine .inr ⟨x.note, List.mem_map_of_mem hx, ?_⟩
    rw [hnote]
    exact .indexColumn (reaches_readInto_iff.1 hreaches) hu hindex

/-- Whatever a note for an entry is entered for has an entry too. -/
theorem usage?_of_reaches {u : Usage}
    (hu : (readInto .empty schema tokens program).usage? id = some u)
    (h : (readInto .empty schema tokens program).Reaches id j) :
    ∃ w, (readInto .empty schema tokens program).usage? j = some w ∧
      (w.isIndex = true → j = id) := by
  rcases reaches_readInto_iff.1 h with rfl | ho
  · exact ⟨u, hu, fun _ => rfl⟩
  · obtain ⟨-, -, -, ho⟩ := Ledger.ownerOfIndex?_eq_some ho
    obtain ⟨v, hv, htable⟩ := Ledger.scan_ownersAreTables schema program id j ho
    obtain ⟨w, hw, hbare⟩ := Ledger.usage?_of_skeleton_eq skeleton_readInto.symm hv
    refine ⟨w, hw, fun hindex => ?_⟩
    rw [Usage.isIndex_of_bare_eq hbare, htable] at hindex
    cases hindex

variable (schema tokens program)

/-- Reading a program finds what is seen in it, and each column of an index is seen at a row whose
cursor means the index. The findings carry these cursors exactly if every one of them is the cursor
its index was opened under last. -/
theorem carries_cursors_iff :
    Sighted (scene schema tokens program) (Openings.scan .empty schema program).1
    (sightings schema tokens program)
        (readInto .empty schema tokens program) ∧
      (∀ x ∈ sightings schema tokens program, ∀ id clause column,
        x.OfIndex (readInto .empty schema tokens program) id clause column →
          ∃ cursor, x.cursor? (scene schema tokens program) = some cursor ∧
            (scene schema tokens program).openings.at? cursor x.position = some id) ∧
      (CarriesCursors (scene schema tokens program) (sightings schema tokens program)
          (readInto .empty schema tokens program) ↔
        ∀ x ∈ sightings schema tokens program, ∀ id clause column,
          x.OfIndex (readInto .empty schema tokens program) id clause column →
            x.cursor? (scene schema tokens program) =
              Openings.lastCursor? (scene schema tokens program).openings id) := by
  refine ⟨readInto_sighted schema tokens program, fun x hx id clause column hof => ?_,
    fun h => ?_, fun h => ?_⟩
  · obtain ⟨-, -, -, -, -, hcursor⟩ := (ofIndex_readInto_iff hx).1 hof
    exact hcursor
  · intro x hx id clause column hof
    obtain ⟨-, -, -, -, -, cursor, hcursor, -⟩ := (ofIndex_readInto_iff hx).1 hof
    obtain ⟨w, hw, hhas⟩ := h.found x hx id clause column cursor hof hcursor id (.inl rfl)
    obtain ⟨_, -, id', hof', hreaches, hlast⟩ := (has_indexColumn_readInto_iff hw).1 hhas
    -- only the index itself gives to an index
    obtain ⟨u, hu, hindex⟩ := hof.2
    obtain ⟨u', hu', -⟩ := hof'.2
    obtain rfl := Option.some.inj (hu.symm.trans hw)
    obtain ⟨w', hw', hself⟩ := usage?_of_reaches hu' hreaches
    obtain rfl := Option.some.inj (hw'.symm.trans hw)
    rw [hself hindex, hcursor, hlast]
  · constructor
    · intro x hx id clause column cursor hof hcursor j hreaches
      obtain ⟨u, hu, -⟩ := hof.2
      obtain ⟨w, hw, -⟩ := usage?_of_reaches hu hreaches
      refine ⟨w, hw, (has_indexColumn_readInto_iff hw).2 ⟨x, hx, id, hof, hreaches, ?_⟩⟩
      rw [← h x hx id clause column hof, hcursor]
    · intro j w clause cursor column hw hhas
      obtain ⟨x, hx, id, hof, hreaches, hlast⟩ := (has_indexColumn_readInto_iff hw).1 hhas
      exact ⟨x, hx, id, hof, hreaches, (h x hx id clause column hof).trans hlast⟩

/-! ## An index that is opened twice -/

/-- A self-join that looks up one name through each of two cursors of an index on names. -/
def selfJoin : Program := ⟨[
  { address := 0, name := "OpenRead", p1 := some "1", p2 := some "3" },
  { address := 1, name := "OpenRead", p1 := some "2", p2 := some "3" },
  { address := 2, name := "String8", p2 := some "1", p4 := some "ann" },
  { address := 3, name := "SeekGE", p1 := some "1", p3 := some "1", p4 := some "1" },
  { address := 4, name := "IdxGT", p1 := some "1", p3 := some "1", p4 := some "1" },
  { address := 5, name := "String8", p2 := some "2", p4 := some "bob" },
  { address := 6, name := "SeekGE", p1 := some "2", p3 := some "2", p4 := some "1" },
  { address := 7, name := "IdxGT", p1 := some "2", p3 := some "2", p4 := some "1" },
  { address := 8, name := "Next", p1 := some "2", p2 := some "7" },
  { address := 9, name := "Next", p1 := some "1", p2 := some "4" }]⟩

/-- A table of users with an index on their names. -/
def usersByName : Schema where
  tables := [{ name := "users", rootPage := 2, columns := ["id", "name"], primaryKey := some "id" }]
  indexes := [{ name := "users_name", table := "users", rootPage := 3, columns := ["name"] }]

/-- What the self-join sees through the first cursor is found under the second one. -/
theorem carries_cursors_reopened :
    (⟨3, .column 0 .filter "name"⟩ : Sighting) ∈ sightings usersByName [] selfJoin ∧
      ((readInto .empty usersByName [] selfJoin).usage? 0).map (·.filterIndexColumns.toList) =
        some [⟨2, "name"⟩] ∧
      ¬CarriesCursors (scene usersByName [] selfJoin) (sightings usersByName [] selfJoin)
        (readInto .empty usersByName [] selfJoin) := by
  have hseen : (⟨3, .column 0 .filter "name"⟩ : Sighting) ∈ sightings usersByName [] selfJoin := by
    decide +kernel
  have hkept : ((readInto .empty usersByName [] selfJoin).usage? 0).map
      (·.filterIndexColumns.toList) =
      some [⟨2, "name"⟩] := by decide +kernel
  have hindex : ((readInto .empty usersByName [] selfJoin).usage? 0).any Usage.isIndex = true := by
    decide +kernel
  refine ⟨hseen, hkept, fun h => ?_⟩
  rcases hu : (readInto .empty usersByName [] selfJoin).usage? 0 with _ | u
  · rw [hu] at hkept
    cases hkept
  · rw [hu] at hkept hindex
    obtain ⟨w, hw, hhas⟩ :=
      h.found _ hseen 0 .filter "name" 1 ⟨rfl, u, hu, hindex⟩ (by decide +kernel) 0 (.inl rfl)
    obtain rfl := Option.some.inj (hu.symm.trans hw)
    have hlist : u.filterIndexColumns.toList = [⟨2, "name"⟩] := Option.some.inj hkept
    have hmem : (⟨1, "name"⟩ : IndexColumn) ∈ u.filterIndexColumns.toList := hhas
    rw [hlist] at hmem
    exact absurd hmem (by decide)

end Analysis

end IndexAdvisor
