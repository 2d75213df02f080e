import IndexAdvisor.Proofs.Analysis.Reached
import IndexAdvisor.Proofs.Ledger.Everywhere

/-!
# Which cursor a merged column carries

A column found through an index carries the cursor of the index. When a sub-select is merged, the
cursor is replaced by the one under which the enclosing statement knows the index, and it ought to
be replaced index by index: `Translates`. But the index is looked up by the cursor number, and two
indexes of a sub-select may stand under one number, as when a cursor is opened again on another
index. Then the one that stands last answers for both (`nameOf?_cursorNames`).

In all ledgers that an analysis comes to, the cursor of such a column is that of some index
(`Reached.anchored`), so it lands at just one cursor of the enclosing statement. The columns of an
index are translated rightly if they land at the cursor of the index itself, and only then, unless
what goes wrong was there before: `merge_translates_iff`.
-/

namespace IndexAdvisor

namespace Merge

open Ledger

variable {schema : Schema} {parent sub l k : Ledger} {id : Nat} {u v w p : Usage}
  {cursor target : Int} {clause : Clause} {c : IndexColumn}

/-! ## The index behind a cursor number -/

/-- The index of a sub-select that stands last under a cursor number. -/
def lastUnder? (sub : Ledger) (cursor : Int) : Option Usage :=
  (sub.usages.filter Usage.isIndex).reverse.find? (·.cursor == cursor)

theorem lookup_cursors (us : List Usage) (cursor : Int) :
    (us.map fun u => (u.cursor, u.name)).lookup cursor =
      (us.find? (·.cursor == cursor)).map Usage.name := by
  induction us with
  | nil => rfl
  | cons u us ih =>
    rw [List.map_cons, List.find?_cons]
    by_cases hu : u.cursor = cursor
    · rw [List.lookup_cons, hu, beq_self_eq_true]
      rfl
    · rw [List.lookup_cons, beq_eq_false_iff_ne.2 (Ne.symm hu), beq_eq_false_iff_ne.2 hu]
      exact ih

/-- Of the indexes under one cursor number the last one gives its name to it. -/
theorem nameOf?_cursorNames (h : lastUnder? sub cursor = some w) :
    nameOf? (cursorNames sub) cursor = some w.name := by
  rw [nameOf?, cursorNames, List.reverse_append, List.lookup_append, ← List.map_reverse,
    lookup_cursors, ← lastUnder?, h]
  rfl

/-- A cursor number of the sub-select stands for a cursor of the enclosing statement: the one under
which that knows the index that stands last under the number. -/
def LandsAt (parent sub : Ledger) (cursor target : Int) : Prop :=
  ∃ w, lastUnder? sub cursor = some w ∧ cursorOf? (parent.merge sub) w.name = some target

theorem LandsAt.unique {other : Int} (h : LandsAt parent sub cursor target)
    (h' : LandsAt parent sub cursor other) : target = other := by
  obtain ⟨w, hw, htarget⟩ := h
  obtain ⟨w', hw', hother⟩ := h'
  obtain rfl := Option.some.inj (hw.symm.trans hw')
  exact Option.some.inj (htarget.symm.trans hother)

theorem parentColumn_of_landsAt (h : LandsAt parent sub c.cursor target) :
    parentColumn (parent.merge sub) (cursorNames sub) c = ⟨target, c.column⟩ := by
  obtain ⟨w, hw, htarget⟩ := h
  rw [parentColumn, parentCursor, nameOf?_cursorNames hw, Option.bind_some,
    htarget, Option.getD_some]

/-! ## Columns and the indexes they were found through -/

/-- Every column found through an index carries the cursor of an index of the ledger. -/
def Anchored (l : Ledger) : Prop :=
  ∀ id u clause c, l.usage? id = some u → u.Has (.indexColumn clause c) →
    ∃ w ∈ l.usages, w.isIndex = true ∧ w.cursor = c.cursor

theorem anchored_of_unnoted (h : Everywhere Unnoted l) : Anchored l := by
  intro id u clause c hu hc
  obtain ⟨use, huse⟩ := h id u hu _ hc
  cases huse

theorem Anchored.enter (h : Anchored l) (n : Note) : Anchored (l.enter n) := by
  have hskeleton := skeleton_enter l n
  -- the indexes stay where they are, under their cursors
  have hkeep {w : Usage} (hw : w ∈ l.usages) (hindex : w.isIndex = true) :
      ∃ x ∈ (l.enter n).usages, x.isIndex = true ∧ x.cursor = w.cursor := by
    obtain ⟨j, hw⟩ := mem_usages.1 hw
    obtain ⟨x, hx, hbare⟩ := usage?_of_skeleton_eq hskeleton.symm hw
    refine ⟨x, mem_usages.2 ⟨j, hx⟩, ?_, (Usage.bare_eq_iff.1 hbare).1⟩
    rw [Usage.isIndex_of_bare_eq hbare]
    exact hindex
  intro id u clause c hu hc
  obtain ⟨v, hv, hhas⟩ := has_enter hu
  rcases (hhas _).1 hc with hc | hgives
  · obtain ⟨w, hw, hindex, hcursor⟩ := h id v clause c hv hc
    obtain ⟨x, hx, hxindex, hxcursor⟩ := hkeep hw hindex
    exact ⟨x, hx, hxindex, hxcursor.trans hcursor⟩
  · cases hgives with
    | indexColumn _ hw hindex => exact hkeep (mem_usages.2 ⟨_, hw⟩) hindex

/-- A cursor under which an index is known is that of an index. -/
theorem cursorOf?_eq_some {index : String} (h : cursorOf? l index = some cursor) :
    ∃ u ∈ l.usages, u.isIndex = true ∧ u.cursor = cursor := by
  obtain ⟨u, hu, hcursor⟩ := Option.map_eq_some_iff.1 h
  obtain ⟨id, hid, hu⟩ := Option.bind_eq_some_iff.1 hu
  obtain ⟨v, hv, hof⟩ := find?_eq_some hid
  obtain rfl := Option.some.inj (hu.symm.trans hv)
  exact ⟨u, mem_usages.2 ⟨id, hu⟩, Usage.isIndex_iff.2 (Usage.isOf_iff.1 hof).1, hcursor⟩

/-- An index of the sub-select is known to the enclosing statement after the merge. -/
theorem cursorOf?_merge (hs : schema.Distinct) (hparent : Linked schema parent)
    (hsub : Linked schema sub) (hw : w ∈ sub.usages) (hindex : w.isIndex = true) :
    ∃ id p, (parent.merge sub).usage? id = some p ∧ Matches p w ∧ p.isIndex = true ∧
      cursorOf? (parent.merge sub) w.name = some p.cursor := by
  have hlinked := merge_linked hs hparent hsub
  obtain ⟨id, p, hp, hmatch⟩ := merge_covers hs hparent hsub hw
  obtain ⟨j, hj⟩ := mem_usages.1 hw
  have hpindex : p.isIndex = true := by
    rw [Usage.isIndex_iff, hmatch.kind_eq (hlinked.known hp) (hsub.known hj)]
    exact Usage.isIndex_iff.1 hindex
  have hname := (hmatch.index_eq (hsub.known hj) (hlinked.known hp) hpindex).2.1
  refine ⟨id, p, hp, hmatch, hpindex, ?_⟩
  rw [← hname]
  exact cursorOf?_eq hlinked hp hpindex

/-- What is anchored lands somewhere. -/
theorem Anchored.landsAt (hs : schema.Distinct) (hparent : Linked schema parent)
    (hsub : Linked schema sub) (h : Anchored sub) (hu : u ∈ sub.usages)
    (hc : u.Has (.indexColumn clause c)) :
    ∃ target, LandsAt parent sub c.cursor target := by
  obtain ⟨j, hj⟩ := mem_usages.1 hu
  obtain ⟨x, hx, hxindex, hxcursor⟩ := h j u clause c hj hc
  -- some index stands under the number, so one stands last
  have hsome : (lastUnder? sub c.cursor).isSome = true := by
    rw [lastUnder?, List.find?_isSome]
    refine ⟨x, List.mem_reverse.2 (List.mem_filter.2 ⟨hx, hxindex⟩), ?_⟩
    rw [hxcursor, beq_self_eq_true]
  obtain ⟨w, hw⟩ := Option.isSome_iff_exists.1 hsome
  have hmem := List.mem_filter.1 (List.mem_reverse.1 (List.mem_of_find?_eq_some hw))
  obtain ⟨id, p, hp, -, hpindex, hcursor⟩ := cursorOf?_merge hs hparent hsub hmem.1 hmem.2
  exact ⟨p.cursor, w, hw, hcursor⟩

/-- The columns at an entry that were found through an index are those it had, and those that the
sub-select found for the same object, where they land. -/
theorem merge_has_indexColumn (hs : schema.Distinct) (hparent : Linked schema parent)
    (hsub : Linked schema sub) (h : Anchored sub) (hp : (parent.merge sub).usage? id = some p) :
    p.Has (.indexColumn clause c) ↔
      (∃ v, parent.usage? id = some v ∧ v.Has (.indexColumn clause c)) ∨
      ∃ u ∈ sub.usages, Matches p u ∧ ∃ d, u.Has (.indexColumn clause d) ∧
        LandsAt parent sub d.cursor c.cursor ∧ d.column = c.column := by
  rw [merge_has hs hparent hsub hp]
  apply or_congr_right
  constructor
  · rintro ⟨u, hu, hmatch, g, hg, heq⟩
    cases g with
    | indexColumn clause' d =>
      rw [Finding.inParent, Finding.indexColumn.injEq] at heq
      obtain ⟨rfl, rfl⟩ := heq
      obtain ⟨target, hlands⟩ := h.landsAt hs hparent hsub hu hg
      rw [parentColumn_of_landsAt hlands]
      exact ⟨u, hu, hmatch, d, hg, hlands, rfl⟩
    | column => cases heq
    | filter => cases heq
    | index => cases heq
  · rintro ⟨u, hu, hmatch, d, hd, hlands, hcolumn⟩
    refine ⟨u, hu, hmatch, .indexColumn clause d, hd, ?_⟩
    rw [Finding.inParent, parentColumn_of_landsAt hlands, hcolumn]

theorem Anchored.merge (hs : schema.Distinct) (hparent : Linked schema parent)
    (hsub : Linked schema sub) (h : Anchored parent) (hsubanchored : Anchored sub) :
    Anchored (parent.merge sub) := by
  intro id p clause c hp hc
  rcases (merge_has_indexColumn hs hparent hsub hsubanchored hp).1 hc
    with ⟨v, hv, hc⟩ | ⟨u, -, -, d, -, hlands, -⟩
  · obtain ⟨w, hw, hindex, hcursor⟩ := h id v clause c hv hc
    obtain ⟨j, hw⟩ := mem_usages.1 hw
    obtain ⟨x, hx, hbare⟩ := merge_kept hs hparent hsub hw
    refine ⟨x, mem_usages.2 ⟨j, hx⟩, ?_, (Usage.bare_eq_iff.1 hbare).1.trans hcursor⟩
    rw [Usage.isIndex_of_bare_eq hbare]
    exact hindex
  · obtain ⟨w, -, hcursor⟩ := hlands
    exact cursorOf?_eq_some hcursor

end Merge

namespace Analysis

open Ledger Merge

variable {schema : Schema} {parent sub : Ledger} {id : Nat} {u v p : Usage}

/-- In every ledger an analysis comes to, columns found through an index carry the cursor of an
index. -/
theorem Reached.anchored (hs : schema.Distinct) {l : Ledger} (h : Reached schema l) :
    Anchored l := by
  induction h with
  | read sql instrs =>
    have hopened := scan_unnoted schema ⟨instrs⟩
    exact (readInto_enters ..).induction (anchored_of_unnoted hopened) fun _ n _ hl => hl.enter n
  | merge hparent hsub ihparent ihsub =>
    exact ihparent.merge hs (hparent.linked hs) (hsub.linked hs) ihsub

/-! ## Translation index by index -/

/-- The columns found through an index `u` of a sub-select, in the entry `p` of the same index at a
place of the enclosing statement: each is there under the cursor of `p`, and at the table of the
index too, and whatever the merge has added to `p` carries this cursor. -/
structure Translates (schema : Schema) (parent sub : Ledger) (u : Usage) (id : Nat) (p : Usage) :
    Prop where
  kept : ∀ clause c, u.Has (.indexColumn clause c) →
    p.Has (.indexColumn clause ⟨p.cursor, c.column⟩)
  table : (schema.table? u.table).isSome = true → ∃ t ∈ (parent.merge sub).usages,
    t.isOf u.table .table = true ∧
      ∀ clause c, u.Has (.indexColumn clause c) → t.Has (.indexColumn clause ⟨p.cursor, c.column⟩)
  added : ∀ clause c, p.Has (.indexColumn clause c) →
    c.cursor = p.cursor ∨ ∃ v, parent.usage? id = some v ∧ v.Has (.indexColumn clause c)

/-- The columns at the entry of an index are those it had, and those of the index of the sub-select
where they land. -/
theorem has_indexColumn_iff (hs : schema.Distinct) (hparent : Reached schema parent)
    (hsub : Reached schema sub) (hu : u ∈ sub.usages) (hp : (parent.merge sub).usage? id = some p)
    (hmatch : Matches p u) (clause : Clause) (e : IndexColumn) :
    p.Has (.indexColumn clause e) ↔
      (∃ v, parent.usage? id = some v ∧ v.Has (.indexColumn clause e)) ∨
      ∃ c, u.Has (.indexColumn clause c) ∧ LandsAt parent sub c.cursor e.cursor ∧
        c.column = e.column := by
  rw [merge_has_indexColumn hs (hparent.linked hs) (hsub.linked hs) (hsub.anchored hs) hp]
  apply or_congr_right
  constructor
  · rintro ⟨w, hw, hpw, hc⟩
    -- no other usage of the sub-select stands for this index
    obtain ⟨i, hi⟩ := mem_usages.1 hu
    obtain ⟨j, hj⟩ := mem_usages.1 hw
    obtain rfl := (hsub.linked hs).eq_of_matches hi hj (hmatch.symm_trans hpw)
    obtain rfl := Option.some.inj (hi.symm.trans hj)
    exact hc
  · intro hc
    exact ⟨u, hu, hmatch, hc⟩

/-! ## The merge of a sub-select -/

/-- A merge translates the columns of an index rightly exactly if each of them lands at the cursor
of the index itself; or if the entry had before what it lands at, and has it under its own cursor
all the same, from before or from another column that lands there. -/
theorem merge_translates_iff (hs : schema.Distinct) (hparent : Reached schema parent)
    (hsub : Reached schema sub) (hu : u ∈ sub.usages) (hindex : u.isIndex = true) :
    ∃ id p, (parent.merge sub).usage? id = some p ∧ p.isOf u.name .index = true ∧
      (Translates schema parent sub u id p ↔ ∀ clause c, u.Has (.indexColumn clause c) →
        LandsAt parent sub c.cursor p.cursor ∨
        (∃ target v, LandsAt parent sub c.cursor target ∧ parent.usage? id = some v ∧
          v.Has (.indexColumn clause ⟨target, c.column⟩)) ∧
        ((∃ v, parent.usage? id = some v ∧ v.Has (.indexColumn clause ⟨p.cursor, c.column⟩)) ∨
          ∃ d, u.Has (.indexColumn clause d) ∧ LandsAt parent sub d.cursor p.cursor ∧
            d.column = c.column)) := by
  have hparentlinked := hparent.linked hs
  have hsublinked := hsub.linked hs
  have hlinked := merge_linked hs hparentlinked hsublinked
  obtain ⟨id, p, hp, hmatch, hpindex, -⟩ := cursorOf?_merge hs hparentlinked hsublinked hu hindex
  have hhas := has_indexColumn_iff hs hparent hsub hu hp hmatch
  refine ⟨id, p, hp, Usage.isOf_iff.2 ⟨Usage.isIndex_iff.1 hpindex, hmatch.name⟩, ?_, ?_⟩
  · intro h clause c hc
    obtain ⟨j, hj⟩ := mem_usages.1 hu
    obtain ⟨target, hlands⟩ := (hsub.anchored hs).landsAt hs hparentlinked hsublinked hu hc
    by_cases htarget : target = p.cursor
    · rw [htarget] at hlands
      exact .inl hlands
    · refine .inr ⟨?_, ?_⟩
      · -- what lands elsewhere may not be new
        have hwrong : p.Has (.indexColumn clause ⟨target, c.column⟩) :=
          (hhas ..).2 (.inr ⟨c, hc, hlands, rfl⟩)
        rcases h.added clause _ hwrong with hcursor | ⟨v, hv, hold⟩
        · exact absurd hcursor htarget
        · exact ⟨target, v, hlands, hv, hold⟩
      · exact (hhas clause ⟨p.cursor, c.column⟩).1 (h.kept clause c hc)
  · intro h
    have hkept : ∀ clause c, u.Has (.indexColumn clause c) →
        p.Has (.indexColumn clause ⟨p.cursor, c.column⟩) := by
      intro clause c hc
      rw [hhas]
      rcases h clause c hc with hlands | ⟨-, hkept⟩
      · exact .inr ⟨c, hc, hlands, rfl⟩
      · exact hkept
    refine ⟨hkept, ?_, ?_⟩
    · intro hknown
      obtain ⟨j, hj⟩ := mem_usages.1 hu
      have htable := (hmatch.index_eq (hsublinked.known hj) (hlinked.known hp) hpindex).2.2
      rw [← htable] at hknown ⊢
      obtain ⟨t, ho⟩ :=
        Option.isSome_iff_exists.1 ((hlinked.owned hp hpindex hknown).resolve_right (·.1.elim))
      obtain ⟨-, w, hw, hof, hreflects, -⟩ := hlinked.owner hp ho
      refine ⟨w, mem_usages.2 ⟨t, hw⟩, hof, fun clause c hc => ?_⟩
      exact hreflects _ nofun (hkept clause c hc)
    · intro clause e he
      rcases (hhas clause e).1 he with hold | ⟨c, hc, hlands, hcolumn⟩
      · exact .inr hold
      · rcases h clause c hc with hright | ⟨⟨target, v, hlands', hv, hold⟩, -⟩
        · exact .inl (hlands.unique hright)
        · rw [← hlands.unique hlands', hcolumn] at hold
          exact .inr ⟨v, hv, hold⟩

/-- A sub-select that searches two indexes under one cursor number. The index that stands last under
the number is translated rightly. -/
theorem merge_translates_last :
    let t : Table := { name := "t", rootPage := 2, columns := ["a", "b"] }
    let byA : Index := { name := "idx_a", table := "t", rootPage := 3, columns := ["a"] }
    let byB : Index := { name := "idx_b", table := "t", rootPage := 4, columns := ["b"] }
    let schema : Schema := { tables := [t], indexes := [byA, byB] }
    let parent :=
      read schema "SELECT 1 FROM t WHERE EXISTS (SELECT 1 FROM t WHERE a = 7 OR b = 8)" [
        { address := 0, name := "OpenRead", p1 := some "5", p2 := some "3" },
        { address := 1, name := "OpenRead", p1 := some "6", p2 := some "4" }]
    let sub := read schema "SELECT 1 FROM t WHERE a = 7 OR b = 8" [
      { address := 0, name := "ReopenIdx", p1 := some "1", p2 := some "3" },
      { address := 1, name := "Integer", p1 := some "7", p2 := some "1" },
      { address := 2, name := "SeekGE", p1 := some "1", p3 := some "1", p4 := some "1" },
      { address := 3, name := "ReopenIdx", p1 := some "1", p2 := some "4" },
      { address := 4, name := "Integer", p1 := some "8", p2 := some "2" },
      { address := 5, name := "SeekGE", p1 := some "1", p3 := some "2", p4 := some "1" }]
    schema.Distinct ∧ Reached schema parent ∧ Reached schema sub ∧
      ∃ u ∈ sub.usages, u.isIndex = true ∧ u.Has (.indexColumn .filter ⟨1, "b"⟩) ∧
        ∃ id p, (parent.merge sub).usage? id = some p ∧ p.isOf u.name .index = true ∧
          Translates schema parent sub u id p := by
  intro t byA byB schema parent sub
  have hs : schema.Distinct := ⟨List.nodup_singleton _, by decide +kernel⟩
  have hu : ∃ u ∈ sub.usages, u.isIndex = true ∧ u.name = "idx_b" ∧
      u.filterIndexColumns.toList = [⟨1, "b"⟩] ∧ u.sortIndexColumns.toList = [] := by
    decide +kernel
  have hcursor : ∀ p ∈ (parent.merge sub).usages, p.isOf "idx_b" .index = true → p.cursor = 6 := by
    decide +kernel
  have hlands : (lastUnder? sub 1).bind (fun w => cursorOf? (parent.merge sub) w.name) =
      some 6 := by
    decide +kernel
  obtain ⟨u, hu, hindex, hname, hfilter, hsort⟩ := hu
  obtain ⟨id, p, hp, hof, hiff⟩ := merge_translates_iff hs (.read _ _) (.read _ _) hu hindex
  refine ⟨hs, .read _ _, .read _ _, u, hu, hindex, ?_, id, p, hp, hof,
    hiff.2 fun clause c hc => .inl ?_⟩
  · show _ ∈ u.filterIndexColumns.toList
    rw [hfilter]
    exact List.mem_singleton.2 rfl
  · rw [hname] at hof
    rw [hcursor p (mem_usages.2 ⟨id, hp⟩) hof]
    cases clause with
    | filter =>
      obtain rfl : c = ⟨1, "b"⟩ := List.mem_singleton.1 (hfilter ▸ hc)
      exact Option.bind_eq_some_iff.1 hlands
    | sort =>
      have hnone : c ∈ u.sortIndexColumns.toList := hc
      rw [hsort] at hnone
      cases hnone

/-- The other index is taken for the last one: its column is found under a cursor that is not its
own. -/
theorem merge_mistranslates_first :
    let t : Table := { name := "t", rootPage := 2, columns := ["a", "b"] }
    let byA : Index := { name := "idx_a", table := "t", rootPage := 3, columns := ["a"] }
    let byB : Index := { name := "idx_b", table := "t", rootPage := 4, columns := ["b"] }
    let schema : Schema := { tables := [t], indexes := [byA, byB] }
    let parent :=
      read schema "SELECT 1 FROM t WHERE EXISTS (SELECT 1 FROM t WHERE a = 7 OR b = 8)" [
        { address := 0, name := "OpenRead", p1 := some "5", p2 := some "3" },
        { address := 1, name := "OpenRead", p1 := some "6", p2 := some "4" }]
    let sub := read schema "SELECT 1 FROM t WHERE a = 7 OR b = 8" [
      { address := 0, name := "ReopenIdx", p1 := some "1", p2 := some "3" },
      { address := 1, name := "Integer", p1 := some "7", p2 := some "1" },
      { address := 2, name := "SeekGE", p1 := some "1", p3 := some "1", p4 := some "1" },
      { address := 3, name := "ReopenIdx", p1 := some "1", p2 := some "4" },
      { address := 4, name := "Integer", p1 := some "8", p2 := some "2" },
      { address := 5, name := "SeekGE", p1 := some "1", p3 := some "2", p4 := some "1" }]
    schema.Distinct ∧ Reached schema parent ∧ Reached schema sub ∧
      ∃ u ∈ sub.usages, u.isIndex = true ∧ u.Has (.indexColumn .filter ⟨1, "a"⟩) ∧
        (∀ p ∈ (parent.merge sub).usages, p.isOf u.name .index = true →
          p.cursor = 5 ∧ p.filterIndexColumns.toList = [⟨6, "a"⟩]) ∧
        ∀ id p, (parent.merge sub).usage? id = some p → p.isOf u.name .index = true →
          ¬Translates schema parent sub u id p := by
  intro t byA byB schema parent sub
  have hu : ∃ u ∈ sub.usages, u.isIndex = true ∧ u.name = "idx_a" ∧
      u.filterIndexColumns.toList = [⟨1, "a"⟩] := by
    decide +kernel
  have hmerged : ∀ p ∈ (parent.merge sub).usages, p.isOf "idx_a" .index = true →
      p.cursor = 5 ∧ p.filterIndexColumns.toList = [⟨6, "a"⟩] := by
    decide +kernel
  obtain ⟨u, hu, hindex, hname, hfilter⟩ := hu
  have hhas : u.Has (.indexColumn .filter ⟨1, "a"⟩) := by
    show _ ∈ u.filterIndexColumns.toList
    rw [hfilter]
    exact List.mem_singleton.2 rfl
  rw [← hname] at hmerged
  refine ⟨⟨List.nodup_singleton _, by decide +kernel⟩, .read _ _, .read _ _, u, hu, hindex,
    hhas, hmerged, ?_⟩
  intro id p hp hof htranslates
  obtain ⟨hcursor, hcolumns⟩ := hmerged p (mem_usages.2 ⟨id, hp⟩) hof
  have hkept : ⟨p.cursor, "a"⟩ ∈ p.filterIndexColumns.toList := htranslates.kept .filter _ hhas
  rw [hcursor, hcolumns] at hkept
  cases List.mem_singleton.1 hkept

end Analysis

end IndexAdvisor
