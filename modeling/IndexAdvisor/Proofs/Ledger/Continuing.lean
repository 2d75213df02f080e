import IndexAdvisor.Proofs.Ledger.Note
import IndexAdvisor.Proofs.Ledger.Opening

/-!
# Ledgers that go on

A program enters what it opens into a ledger and moves entries from cursor to cursor, but the ledger
goes on from what it was (`Continues`): entries stay at their places with what was found, and an
owner is never replaced by anything but the table of that name.

That a ledger has followed an opening (`Followed`) is said by the names of objects alone: the object
that is opened has its entry, and if it is an index, this entry is attached to the one of its table.
A ledger that goes on from another one has followed all that the other has (`Followed.continues`).
-/

namespace IndexAdvisor

namespace Ledger

variable {schema : Schema} {l k m : Ledger} {i : Instr} {id t : Nat} {u v w : Usage} {cursor : Int}
  {name : String} {kind : ObjectKind} {object : SchemaObject}

/-! ## Searches -/

theorem find?_eq_some_iff : l.find? name kind = some id ↔
    (∃ u, l.usage? id = some u ∧ u.isOf name kind = true) ∧
      ∀ j v, j < id → l.usage? j = some v → v.isOf name kind = false := by
  constructor
  · intro h
    refine ⟨find?_eq_some h, fun j v hj hv => ?_⟩
    obtain ⟨hlt, -, hbefore⟩ := List.findIdx?_eq_some_iff_getElem.1 h
    have hno := hbefore j hj
    rw [usage?, List.getElem?_eq_getElem (Nat.lt_trans hj hlt)] at hv
    obtain rfl := Option.some.inj hv
    rw [Bool.not_eq_true] at hno
    exact hno
  · rintro ⟨⟨u, hu, hof⟩, hbefore⟩
    obtain ⟨e, he, rfl⟩ := Option.map_eq_some_iff.1 hu
    obtain ⟨hlt, rfl⟩ := List.getElem?_eq_some_iff.1 he
    refine List.findIdx?_eq_some_iff_getElem.2 ⟨hlt, hof, fun j hj => ?_⟩
    rw [Bool.not_eq_true]
    apply hbefore j _ hj
    rw [usage?, List.getElem?_eq_getElem (Nat.lt_trans hj hlt), Option.map_some]

/-- A ledger is what its entries are. -/
theorem ext_entries (husage : ∀ id, l.usage? id = k.usage? id)
    (howner : ∀ id, l.owner? id = k.owner? id) :
    l = k := by
  have hentries : l.entries = k.entries := by
    apply List.ext_getElem?
    intro id
    have husage := husage id
    have howner := howner id
    rw [usage?, usage?] at husage
    rw [owner?, owner?] at howner
    rcases hl : l.entries[id]? with _ | ⟨u, o⟩ <;> rcases hk : k.entries[id]? with _ | ⟨v, p⟩ <;>
      simp_all
  cases l
  cases k
  exact congrArg mk hentries

/-! ## Ledgers that continue -/

/-- The second ledger goes on from the first one: the entries stay, with their objects and all that
was found; an entry keeps its owner or gets the table of its name for one; and tables that come in
are known. -/
structure Continues (schema : Schema) (l k : Ledger) : Prop where
  kept : ∀ {id u}, l.usage? id = some u → ∃ v, k.usage? id = some v ∧
    v.kind = u.kind ∧ v.name = u.name ∧
    v.table = u.table ∧ ∀ f, u.Has f → v.Has f
  owner : ∀ {id u}, l.usage? id = some u → k.owner? id = l.owner? id ∨
    ∃ t, k.owner? id = some t ∧ k.find? u.table .table = some t
  known : ∀ {id v}, k.usage? id = some v → v.kind = .table →
    (∃ u, l.usage? id = some u) ∨ (schema.rootPageOf? v.name).isSome = true

theorem Continues.find? (h : Continues schema l k) (hid : l.find? name kind = some id) :
    k.find? name kind = some id := by
  rw [find?_eq_some_iff] at hid ⊢
  obtain ⟨⟨u, hu, hof⟩, hbefore⟩ := hid
  obtain ⟨v, hv, hkind, hname, -⟩ := h.kept hu
  refine ⟨⟨v, hv, by rw [Usage.isOf, hkind, hname]; exact hof⟩, fun j w hj hw => ?_⟩
  -- what stands before the entry stood there already, and was not what is searched
  obtain ⟨x, hx⟩ := exists_usage? (Nat.lt_trans hj (lt_size_of_usage? hu))
  obtain ⟨y, hy, hkind, hname, -⟩ := h.kept hx
  obtain rfl := Option.some.inj (hy.symm.trans hw)
  rw [Usage.isOf, hkind, hname]
  exact hbefore j x hj hx

theorem Continues.refl (schema : Schema) (l : Ledger) : Continues schema l l where
  kept hu := ⟨_, hu, rfl, rfl, rfl, fun _ hf => hf⟩
  owner _ := .inl rfl
  known hv _ := .inl ⟨_, hv⟩

theorem Continues.trans (hlk : Continues schema l k) (hkm : Continues schema k m) :
    Continues schema l m where
  kept hu := by
    obtain ⟨v, hv, hkind, hname, htable, hhas⟩ := hlk.kept hu
    obtain ⟨w, hw, hkind', hname', htable', hhas'⟩ := hkm.kept hv
    exact ⟨w, hw, hkind'.trans hkind, hname'.trans hname, htable'.trans htable,
      fun f hf => hhas' f (hhas f hf)⟩
  owner hu := by
    obtain ⟨v, hv, -, -, htable, -⟩ := hlk.kept hu
    rcases hkm.owner hv with ho | ⟨t, ho, ht⟩
    · rcases hlk.owner hu with ho' | ⟨t, ho', ht⟩
      · exact .inl (ho.trans ho')
      · exact .inr ⟨t, ho.trans ho', hkm.find? ht⟩
    · rw [htable] at ht
      exact .inr ⟨t, ho, ht⟩
  known hw hkind := by
    rcases hkm.known hw hkind with ⟨v, hv⟩ | hpage
    · obtain ⟨w', hw', hkind', hname, -⟩ := hkm.kept hv
      obtain rfl := Option.some.inj (hw.symm.trans hw')
      rw [hname]
      exact hlk.known hv (hkind'.symm.trans hkind)
    · exact .inr hpage

theorem Within.continues (h : l.Within k) (schema : Schema) : Continues schema l k where
  kept hu := by
    obtain ⟨v, hv, hbare⟩ := usage?_of_skeleton_eq h.skeleton_eq.symm hu
    obtain ⟨-, -, hkind, hname, htable⟩ := Usage.bare_eq_iff.1 hbare
    exact ⟨v, hv, hkind, hname, htable, fun f hf => h.has hu hv hf⟩
  owner _ := .inl (owner?_of_skeleton_eq h.skeleton_eq _)
  known hv _ := by
    obtain ⟨u, hu, -⟩ := usage?_of_skeleton_eq h.skeleton_eq hv
    exact .inl ⟨u, hu⟩

/-- A change of one entry that leaves its object and what was found. -/
theorem continues_modify {change : Usage → Usage} (schema : Schema) (l : Ledger) (id : Nat)
    (hobject : ∀ u, (change u).kind = u.kind ∧ (change u).name = u.name ∧
      (change u).table = u.table)
    (hhas : ∀ u f, u.Has f → (change u).Has f) : Continues schema l (l.modify id change) where
  kept {j u} hu := by
    rw [usage?_modify, hu]
    by_cases hj : j = id
    · rw [if_pos hj]
      exact ⟨_, rfl, (hobject u).1, (hobject u).2.1, (hobject u).2.2, hhas u⟩
    · rw [if_neg hj]
      exact ⟨u, rfl, rfl, rfl, rfl, fun _ hf => hf⟩
  owner _ := .inl (owner?_modify l id change _)
  known {j v} hv _ := by
    rw [usage?_modify] at hv
    split at hv
    · obtain ⟨u, hu, -⟩ := Option.map_eq_some_iff.1 hv
      exact .inl ⟨u, hu⟩
    · exact .inl ⟨v, hv⟩

theorem continues_add (l : Ledger)
    (hknown : u.kind = .table → (schema.rootPageOf? u.name).isSome = true) :
    Continues schema l (l.add u) where
  kept {j v} hv := by
    refine ⟨v, ?_, rfl, rfl, rfl, fun _ hf => hf⟩
    rw [usage?_add, if_neg (Nat.ne_of_lt (lt_size_of_usage? hv)), hv]
  owner _ := .inl (owner?_add l u _)
  known {j v} hv hkind := by
    rw [usage?_add] at hv
    split at hv
    · obtain rfl := Option.some.inj hv
      exact .inr (hknown hkind)
    · exact .inl ⟨v, hv⟩

theorem continues_setOwner (schema : Schema) (hu : l.usage? id = some u)
    (ht : l.find? u.table .table = some t) : Continues schema l (l.setOwner id t) where
  kept {j v} hv := ⟨v, by rw [usage?_setOwner, hv], rfl, rfl, rfl, fun _ hf => hf⟩
  owner {j v} hv := by
    rw [owner?_setOwner]
    split
    · next hj =>
      obtain rfl := hj.1
      obtain rfl := Option.some.inj (hu.symm.trans hv)
      refine .inr ⟨t, rfl, ?_⟩
      rw [find?_eq_some_iff] at ht ⊢
      simpa only [usage?_setOwner] using ht
    · exact .inl rfl
  known {j v} hv _ := by
    rw [usage?_setOwner] at hv
    exact .inl ⟨v, hv⟩

/-! ## Openings that were followed -/

/-- If the entry at a place is that of an index, the index is noted under a cursor at the entry of
its table, which is its owner; or the schema does not know its table. -/
structure Attached (schema : Schema) (l : Ledger) (id : Nat) (cursor : Int) : Prop where
  owner : ∀ {u t}, l.usage? id = some u → u.isIndex = true → l.find? u.table .table = some t →
    l.owner? id = some t ∧ ∃ v, l.usage? t = some v ∧ v.Has (.index ⟨cursor, u.name⟩)
  unknown : ∀ {u}, l.usage? id = some u → u.isIndex = true → l.find? u.table .table = none →
    schema.rootPageOf? u.table = none

theorem Attached.continues (h : Attached schema l id cursor) (hk : Continues schema l k)
    (hu : l.usage? id = some u) : Attached schema k id cursor := by
  obtain ⟨v, hv, hkind, hname, htable, -⟩ := hk.kept hu
  have hindex : v.isIndex = u.isIndex := by rw [Usage.isIndex, Usage.isIndex, hkind]
  constructor
  · intro w t hw hwindex ht
    obtain rfl := Option.some.inj (hv.symm.trans hw)
    rw [hindex] at hwindex
    rw [htable] at ht
    rw [hname]
    rcases hold : l.find? u.table .table with _ | s
    · -- a table that came in later is known to the schema
      have hunknown := h.unknown hu hwindex hold
      obtain ⟨x, hx, hof⟩ := find?_eq_some ht
      obtain ⟨hxkind, hxname⟩ := Usage.isOf_iff.1 hof
      rcases hk.known hx hxkind with ⟨y, hy⟩ | hknown
      · obtain ⟨x', hx', hykind, hyname, -⟩ := hk.kept hy
        obtain rfl := Option.some.inj (hx.symm.trans hx')
        have hno := find?_eq_none hold hy
        rw [Usage.isOf, ← hykind, ← hyname] at hno
        rw [Usage.isOf, hno] at hof
        cases hof
      · rw [Schema.rootPageOf?, Schema.table?_congr schema hxname, ← Schema.rootPageOf?,
          hunknown] at hknown
        cases hknown
    · obtain ⟨ho, x, hx, hnoted⟩ := h.owner hu hwindex hold
      obtain rfl : s = t := Option.some.inj ((hk.find? hold).symm.trans ht)
      obtain ⟨y, hy, -, -, -, hhas⟩ := hk.kept hx
      refine ⟨?_, y, hy, hhas _ hnoted⟩
      rcases hk.owner hu with ho' | ⟨s, ho', hs⟩
      · exact ho'.trans ho
      · rw [ho', ← hs, ht]
  · intro w hw hwindex hnone
    obtain rfl := Option.some.inj (hv.symm.trans hw)
    rw [hindex] at hwindex
    rw [htable] at hnone ⊢
    apply h.unknown hu hwindex
    rcases hold : l.find? u.table .table with _ | s
    · rfl
    · rw [hk.find? hold] at hnone
      cases hnone

/-- The ledger has an entry for an object, attached under a cursor. -/
def Followed (schema : Schema) (l : Ledger) (object : SchemaObject) (cursor : Int) : Prop :=
  ∃ id, l.find? object.name object.kind = some id ∧ Attached schema l id cursor

theorem Followed.continues (h : Followed schema l object cursor) (hk : Continues schema l k) :
    Followed schema k object cursor := by
  obtain ⟨id, hid, hattached⟩ := h
  obtain ⟨u, hu, -⟩ := find?_eq_some hid
  exact ⟨id, hk.find? hid, hattached.continues hk hu⟩

end Ledger

end IndexAdvisor
