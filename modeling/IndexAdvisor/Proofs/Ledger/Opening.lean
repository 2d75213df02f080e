import IndexAdvisor.Proofs.Ledger.Linked
import IndexAdvisor.Proofs.Program.Search

/-!
# Openings keep the links

Every opening of a program leaves the links of the ledger in order (`openObject_linked`), so they
are in order when the search for findings begins (`scan_linked`). An object that is met for the
first time is added, one that is met again is moved to the new cursor; either leaves an index
pending at most, and `attach` settles what is pending.
-/

namespace IndexAdvisor.Ledger

variable {schema : Schema} {pending : Nat → Prop} {l : Ledger} {id t : Nat} {u v : Usage}

/-- A new usage without findings may be added; an index waits for its owner then. -/
theorem LinkedExcept.add (h : LinkedExcept schema pending l) (hu : u.bare = u)
    (hknown : u.Known schema) (hfresh : ∀ {j v},
      l.usage? j = some v → v.kind = u.kind → sameName v.name u.name = false)
    (hpending : u.isIndex = true → pending l.size) : LinkedExcept schema pending (l.add u) where
  known {id w} hw := by
    rw [usage?_add] at hw
    split at hw
    · obtain rfl := Option.some.inj hw; exact hknown
    · exact h.known hw
  unique {i j w x} hw hx hkind hname := by
    rw [usage?_add] at hw hx
    split at hw <;> split at hx
    · next hi hj => rw [hi, hj]
    · obtain rfl := Option.some.inj hw
      rw [sameName_comm, hfresh hx hkind.symm] at hname
      cases hname
    · obtain rfl := Option.some.inj hx
      rw [hfresh hw hkind] at hname
      cases hname
    · exact h.unique hw hx hkind hname
  owner {id t w} hw ho := by
    rw [owner?_add] at ho
    rw [usage?_add] at hw
    split at hw
    · next hid =>
      rw [owner?_of_size_le (Nat.le_of_eq hid.symm)] at ho
      cases ho
    · obtain ⟨hindex, v, hv, hof, hreflects, hnoted⟩ := h.owner hw ho
      refine ⟨hindex, v, ?_, hof, hreflects, hnoted⟩
      rw [usage?_add, if_neg (Nat.ne_of_lt (lt_size_of_usage? hv)), hv]
  owned {id w} hw hindex ht := by
    rw [owner?_add]
    rw [usage?_add] at hw
    split at hw
    · next hid =>
      obtain rfl := Option.some.inj hw
      exact .inr ⟨hid ▸ hpending hindex, hu⟩
    · exact h.owned hw hindex ht

/-- The entry of an object that is opened again takes the new cursor. -/
theorem LinkedExcept.move (h : Linked schema l) (hu : l.usage? id = some u) (cursor : Int) :
    LinkedExcept schema (fun j => j = id ∧ u.isIndex = true)
      (l.modify id fun w => { w with cursor }) := by
  have hback {j : Nat} {w : Usage}
      (hw : (l.modify id fun w => { w with cursor }).usage? j = some w) :
      ∃ x c, l.usage? j = some x ∧ w = { x with cursor := c } ∧ (j ≠ id → c = x.cursor) := by
    rw [usage?_modify] at hw
    split at hw
    · next hj =>
      obtain ⟨x, hx, rfl⟩ := Option.map_eq_some_iff.1 hw
      exact ⟨x, cursor, hx, rfl, fun hne => absurd hj hne⟩
    · exact ⟨w, w.cursor, hw, rfl, fun _ => rfl⟩
  have hforth {j : Nat} {x : Usage} (hx : l.usage? j = some x) :
      ∃ c, (l.modify id fun w => { w with cursor }).usage? j = some { x with cursor := c } := by
    rw [usage?_modify]
    split
    · exact ⟨cursor, by rw [hx]; rfl⟩
    · exact ⟨x.cursor, hx⟩
  constructor
  · intro j w hw
    obtain ⟨x, c, hx, rfl, -⟩ := hback hw
    have hknown := h.known hx
    exact hknown
  · intro i j w y hw hy hkind hname
    obtain ⟨x, c, hx, rfl, -⟩ := hback hw
    obtain ⟨z, d, hz, rfl, -⟩ := hback hy
    exact h.unique hx hz hkind hname
  · intro j t w hw ho
    obtain ⟨x, c, hx, rfl, hc⟩ := hback hw
    rw [owner?_modify] at ho
    obtain ⟨hindex, v, hv, hof, hreflects, hnoted⟩ := h.owner hx ho
    obtain ⟨d, hv'⟩ := hforth hv
    refine ⟨hindex, _, hv', hof, fun f hf hx => hreflects f hf hx, ?_⟩
    intro hpending
    by_cases hj : j = id
    · subst hj
      obtain rfl := Option.some.inj (hx.symm.trans hu)
      exact absurd ⟨rfl, hindex⟩ hpending
    · rw [hc hj]
      exact hnoted not_false
  · intro j w hw hindex ht
    obtain ⟨x, c, hx, rfl, -⟩ := hback hw
    rw [owner?_modify]
    rcases h.owned hx hindex ht with ho | hp
    · exact .inl ho
    · exact hp.1.elim

/-- Two tables of one name are one entry. -/
theorem LinkedExcept.table_unique (h : LinkedExcept schema pending l) {name : String} {s : Nat}
    {w : Usage} (hv : l.usage? t = some v) (hvof : v.isOf name .table = true)
    (hw : l.usage? s = some w) (hwof : w.isOf name .table = true) : t = s := by
  obtain ⟨hvkind, hvname⟩ := Usage.isOf_iff.1 hvof
  obtain ⟨hwkind, hwname⟩ := Usage.isOf_iff.1 hwof
  exact h.unique hv hw (hvkind.trans hwkind.symm) (sameName_trans hvname (sameName_symm hwname))

/-- The table of an index reflects it: by the owner of the index, or because a pending index has no
findings yet. -/
theorem LinkedExcept.table_reflects (h : LinkedExcept schema pending l) (hu : l.usage? id = some u)
    (hindex : u.isIndex = true) (hv : l.usage? t = some v) (hof : v.isOf u.table .table = true) :
    v.Reflects u := by
  rcases ho : l.owner? id with _ | s
  · rcases h.owned hu hindex ((h.known hv).table?_isSome hof) with ho' | ⟨-, hbare⟩
    · rw [ho] at ho'; cases ho'
    · rw [← hbare]; exact Usage.reflects_bare v u
  · obtain ⟨-, w, hw, hwof, hreflects, -⟩ := h.owner hu ho
    obtain rfl := h.table_unique hw hwof hv hof
    obtain rfl := Option.some.inj (hw.symm.trans hv)
    exact hreflects

/-- Any pending index may be given the entry of its table as its owner. -/
theorem LinkedExcept.setOwner (h : LinkedExcept schema pending l) (hid : pending id)
    (hu : l.usage? id = some u) (hindex : u.isIndex = true) (hv : l.usage? t = some v)
    (hof : v.isOf u.table .table = true) : LinkedExcept schema pending (l.setOwner id t) where
  known hw := by rw [usage?_setOwner] at hw; exact h.known hw
  unique hw hx := by rw [usage?_setOwner] at hw hx; exact h.unique hw hx
  owner {j s w} hw ho := by
    rw [usage?_setOwner] at hw
    rw [owner?_setOwner] at ho
    split at ho
    · next hj =>
      obtain rfl := Option.some.inj ho
      obtain rfl := hj.1
      obtain rfl := Option.some.inj (hu.symm.trans hw)
      refine ⟨hindex, v, ?_, hof, h.table_reflects hu hindex hv hof, fun hn => absurd hid hn⟩
      rw [usage?_setOwner, hv]
    · simpa only [usage?_setOwner] using h.owner hw ho
  owned {j w} hw hwindex ht := by
    rw [usage?_setOwner] at hw
    rw [owner?_setOwner]
    split
    · exact .inl rfl
    · exact h.owned hw hwindex ht

/-- What is pending is settled by an owner that takes note of it. -/
theorem attach_linked (h : LinkedExcept schema (· = id) l) (hu : l.usage? id = some u)
    (hindex : u.isIndex = true) (hv : l.usage? t = some v) (hof : v.isOf u.table .table = true) :
    Linked schema ((l.setOwner id t).modify t (·.addIndex ⟨u.cursor, u.name⟩)) := by
  have ho : (l.setOwner id t).owner? id = some t := by
    rw [owner?_setOwner, if_pos ⟨rfl, lt_size_of_usage? hu⟩]
  replace h := h.setOwner rfl hu hindex hv hof
  rw [← usage?_setOwner l id t] at hu hv
  generalize l.setOwner id t = l at h ho hu hv
  have hadds := Usage.adds_addIndex ⟨u.cursor, u.name⟩
  apply h.of_skeleton_eq (skeleton_modify _ _ hadds.bare)
  · rintro j w - rfl - -
    rw [ho]; rfl
  · intro j s w x hw hs hx
    rw [owner?_modify] at hs
    have hw' : l.usage? j = some w := by
      rw [usage?_modify] at hw
      split at hw
      · next hj =>
        -- an index is not changed: the entry that is changed is that of a table
        obtain ⟨y, hy, rfl⟩ := Option.map_eq_some_iff.1 hw
        have hyindex := (h.owner hy hs).1
        subst hj
        obtain rfl := Option.some.inj (hy.symm.trans hv)
        rw [Usage.isIndex_of_isOf_table hof] at hyindex
        cases hyindex
      · exact hw
    obtain ⟨-, y, hy, -, hreflects, hnoted⟩ := h.owner hw' hs
    rw [usage?_modify] at hx
    by_cases hj : j = id
    · subst hj
      obtain rfl := Option.some.inj (ho.symm.trans hs)
      obtain rfl := Option.some.inj (hu.symm.trans hw')
      obtain rfl := Option.some.inj (hv.symm.trans hy)
      rw [if_pos rfl, hv] at hx
      obtain rfl := Option.some.inj hx
      exact ⟨(hadds.reflects v).trans hreflects, (hadds.has v _).2 (.inr rfl)⟩
    · rw [hy] at hx
      split at hx
      · obtain rfl := Option.some.inj hx
        exact ⟨(hadds.reflects y).trans hreflects, hadds.mono y (hnoted hj)⟩
      · obtain rfl := Option.some.inj hx
        exact ⟨hreflects, hnoted hj⟩

/-- A pending index of a table that the schema does not know needs no owner. -/
theorem LinkedExcept.settle_of_unknown (h : LinkedExcept schema (· = id) l)
    (hu : l.usage? id = some u) (hunknown : schema.rootPageOf? u.table = none) :
    Linked schema l := by
  have htable : schema.table? u.table = none := Option.map_eq_none_iff.1 hunknown
  apply h.of_skeleton_eq rfl
  · rintro j w hw rfl - ht
    obtain rfl := Option.some.inj (hu.symm.trans hw)
    rw [htable] at ht
    cases ht
  · intro j t w v hw ho hv
    obtain ⟨-, x, hx, -, hreflects, hnoted⟩ := h.owner hw ho
    obtain rfl := Option.some.inj (hv.symm.trans hx)
    refine ⟨hreflects, hnoted ?_⟩
    rintro rfl
    obtain rfl := Option.some.inj (hu.symm.trans hw)
    have hsome := h.table?_isSome hw ho
    rw [htable] at hsome
    cases hsome

/-- Linking an index settles it. -/
theorem link_linked (h : LinkedExcept schema (· = id) l) (hu : l.usage? id = some u)
    (hindex : u.isIndex = true) : Linked schema (l.link schema id).1 := by
  unfold link
  rw [hu]
  dsimp only
  split
  · next t ht =>
    obtain ⟨v, hv, hof⟩ := find?_eq_some ht
    exact attach_linked h hu hindex hv hof
  · next hnone =>
    split
    · next hunknown => exact h.settle_of_unknown hu hunknown
    · next page hpage =>
      have hadd :=
        h.add (u := ⟨wrap (-u.cursor), page, .table, u.table, "", .empty, .empty, .empty, .empty,
        .empty, .empty, .empty, "", .empty⟩) rfl hpage ?_ ?_
      · apply attach_linked hadd _ hindex
        · rw [usage?_add, if_pos rfl]
        · exact Usage.isOf_iff.2 ⟨rfl, sameName_refl _⟩
        · rw [usage?_add, if_neg (Nat.ne_of_lt (lt_size_of_usage? hu)), hu]
      · intro j w hw hkind
        have hno := find?_eq_none hnone hw
        rw [Usage.isOf, hkind] at hno
        exact hno
      · intro hno
        cases hno

/-! ## Openings -/

/-- A schema object as a usage without findings. -/
theorem known_of_objectAt? (hs : schema.Distinct) {page : Nat} {object : SchemaObject}
    (h : schema.objectAt? page = some object) (cursor : Int) :
    Usage.Known schema
      { cursor, rootPage := object.rootPage, kind := object.kind, name := object.name,
        table := object.table } := by
  rcases Schema.objectAt?_cases h with ⟨t, ht, htp, rfl⟩ | ⟨-, i, -, -, rfl⟩
  · show schema.rootPageOf? t.name = some page
    rw [Schema.rootPageOf?, Schema.table?_of_mem hs ht, Option.map_some, htp]
  · exact h

/-- Placing an object leaves nothing pending but the object itself, if it is an index, and an index
is linked at once. -/
theorem place_linked (hs : schema.Distinct) (h : Linked schema l) {page : Nat}
    {object : SchemaObject} (hobject : schema.objectAt? page = some object) (cursor : Int) :
    Linked schema (l.place schema object cursor).1 := by
  unfold place
  extract_lets placed
  have hplaced : LinkedExcept schema (fun j => j = placed.2 ∧ object.kind = .index) placed.1 ∧
      ∃ u, placed.1.usage? placed.2 = some u ∧ u.kind = object.kind := by
    unfold placed
    split
    · next id hid =>
      obtain ⟨u, hu, hof⟩ := find?_eq_some hid
      obtain ⟨hkind, -⟩ := Usage.isOf_iff.1 hof
      constructor
      · apply (LinkedExcept.move h hu cursor).mono
        rintro j ⟨hj, hindex⟩
        exact ⟨hj, by rw [← hkind]; exact Usage.isIndex_iff.1 hindex⟩
      · refine ⟨{ u with cursor }, ?_, hkind⟩
        rw [usage?_modify, if_pos rfl, hu]; rfl
    · next hnone =>
      constructor
      · refine (h.mono fun _ hp => hp.elim).add rfl (known_of_objectAt? hs hobject cursor) ?_ ?_
        · intro j v hv hkind
          have hno := find?_eq_none hnone hv
          rw [Usage.isOf, show v.kind = object.kind from hkind] at hno
          simpa using hno
        · intro hindex
          exact ⟨rfl, Usage.isIndex_iff.1 hindex⟩
      · rw [usage?_add, if_pos rfl]
        exact ⟨_, rfl, rfl⟩
  clear_value placed
  obtain ⟨hlinked, u, hu, hkind⟩ := hplaced
  split
  · next htable =>
    apply hlinked.mono
    rintro j ⟨-, hindex⟩
    rw [htable] at hindex
    cases hindex
  · next hindex =>
    apply link_linked (hlinked.mono fun _ hj => hj.1) hu
    rw [Usage.isIndex_iff, hkind, hindex]

/-- What an instruction opens stands in the schema, and its first operand is the cursor. -/
theorem of_opened? {i : Instr} {object : SchemaObject} {cursor : Int}
    (h : opened? schema i = some (object, cursor)) :
    i.n1 = some cursor ∧ ∃ page, schema.objectAt? page = some object := by
  unfold opened? at h
  obtain ⟨c, hcursor, h⟩ := Option.bind_eq_some_iff.1 h
  obtain ⟨page, -, h⟩ := Option.bind_eq_some_iff.1 h
  split at h
  · cases h
  · obtain ⟨o, ho, h⟩ := Option.bind_eq_some_iff.1 h
    obtain ⟨rfl, rfl⟩ := Prod.mk.inj (Option.some.inj h)
    exact ⟨hcursor, _, ho⟩

theorem openObject_linked (hs : schema.Distinct) (h : Linked schema l) (i : Instr) :
    Linked schema (l.openObject schema i).1 := by
  unfold openObject
  split
  · exact h
  · next object cursor hopened =>
    obtain ⟨-, page, hpage⟩ := of_opened? hopened
    exact place_linked hs h hpage cursor

/-- The links are in order when everything is opened. -/
theorem scan_linked (hs : schema.Distinct) (h : Linked schema l) (program : Program) :
    Linked schema (Openings.scan l schema program).1 := by
  unfold Openings.scan
  refine program.visit_induction (P := fun found : Ledger × Openings => Linked schema found.1) h ?_
  rintro ⟨k, openings⟩ pos i - hk
  dsimp only
  split
  · have hopen : Linked schema (k.openObject schema i).1 := openObject_linked hs hk i
    revert hopen
    rcases k.openObject schema i with ⟨m, _ | t⟩ <;> rcases i.n1 with _ | cursor <;> exact id
  · exact hk

end IndexAdvisor.Ledger
