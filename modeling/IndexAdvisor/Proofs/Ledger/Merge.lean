import IndexAdvisor.Merge
import IndexAdvisor.Proofs.Ledger.Opening
import Mathlib.Data.List.Forall2

/-!
# Merging keeps the links

The ledger of a sub-select is merged in three passes, and each has its invariant here.

Matching gives every usage of the sub-select a place in the enclosing ledger (`Matched`). A usage
and the one at its place agree on name and page, hence, both being known to the schema, on kind and
table too. Entries that are new wait for their owners: they are what is pending.

Adopting gives owners to pending entries (`Adopted`). An index of the sub-select whose table the
schema knows has an owner there, and the place of its owner is an entry of the same table here.

Adding the findings leaves the skeleton alone and is described by `foldl_addFindings`: an entry gets
exactly the findings of the usages that have their place there, each in terms of the enclosing
statement. As an index and its owner translate a finding alike, the owner reflects the index
afterwards.
-/

namespace IndexAdvisor

namespace Merge

open Ledger

variable {schema : Schema} {parent sub l : Ledger} {u v x y : Usage} {places : List Nat}

/-! ## Matching -/

/-- A usage and one of a sub-select that stand for the same object. -/
structure Matches (v u : Usage) : Prop where
  rootPage : v.rootPage = u.rootPage
  name : sameName v.name u.name = true

theorem Matches.refl_bare (u : Usage) : Matches u.bare u := ⟨rfl, sameName_refl u.name⟩

/-- A table and an index of it are matched by a table and an index of it. -/
theorem Matches.isOf_table (hvu : Matches v u) (hyx : Matches y x) (hu : u.Known schema)
    (hv : v.Known schema) (hx : x.Known schema) (hy : y.Known schema) (hindex : u.isIndex = true)
    (hof : x.isOf u.table .table = true) : v.isIndex = true ∧ y.isOf v.table .table = true := by
  obtain ⟨hkind, hname⟩ := Usage.isOf_iff.1 hof
  have huindex := Usage.isIndex_iff.1 hindex
  constructor
  · rw [Usage.isIndex_iff, hv.kind_eq hu hvu.rootPage, huindex]
  · rw [(hv.index_eq hu huindex hvu.rootPage).2]
    exact Usage.isOf_iff.2 ⟨(hy.kind_eq hx hyx.rootPage).trans hkind, sameName_trans hyx.name hname⟩

/-- An index is matched by the index of its name and table. -/
theorem Matches.index_eq (hvu : Matches v u) (hu : u.Known schema) (hv : v.Known schema)
    (hindex : v.isIndex = true) : u.isIndex = true ∧ v.name = u.name ∧ v.table = u.table := by
  have hkind : u.kind = .index := by
    rw [← hv.kind_eq hu hvu.rootPage]
    exact Usage.isIndex_iff.1 hindex
  exact ⟨Usage.isIndex_iff.2 hkind, hv.index_eq hu hkind hvu.rootPage⟩

/-- The matching when the usages `done` have their places. -/
structure Matched (schema : Schema) (parent : Ledger) (done : List Usage)
    (acc : Ledger × List Nat) :
    Prop where
  linked : LinkedExcept schema (parent.size ≤ ·) acc.1
  size : parent.size ≤ acc.1.size
  places : List.Forall₂ (fun u p => ∃ v, acc.1.usage? p = some v ∧ Matches v u) done acc.2
  covered : ∀ id, parent.size ≤ id → id < acc.1.size → id ∈ acc.2

theorem Matched.start (h : Linked schema parent) : Matched schema parent [] (parent, []) where
  linked := h.mono fun _ hp => hp.elim
  size := Nat.le_refl _
  places := .nil
  covered _ hge hlt := absurd hge (Nat.not_le_of_lt hlt)

theorem Matched.step (hs : schema.Distinct) {done : List Usage} {acc : Ledger × List Nat}
    (h : Matched schema parent done acc) (hu : u.Known schema) :
    Matched schema parent (done ++ [u]) (matchUsage acc u) := by
  unfold matchUsage
  split
  · next p hp =>
    obtain ⟨v, hv, hpage, hname⟩ := findAt?_eq_some hp
    refine ⟨h.linked, h.size, ?_, fun j hge hlt => List.mem_append_left _ (h.covered j hge hlt)⟩
    exact List.rel_append h.places (.cons ⟨v, hv, hpage, hname⟩ .nil)
  · next hnone =>
    refine ⟨?_, ?_, ?_, ?_⟩
    · refine h.linked.add (u := u.bare) rfl (hu.of_bare_eq rfl) ?_ ?_
      · intro j v hv hkind
        rcases hname : sameName v.name u.name with _ | _
        · exact hname
        · -- of one name and kind there is one page, so the search would have met `v`
          have hpage := (h.linked.known hv).rootPage_eq hs hu hkind hname
          rw [findAt?_eq_none hnone hv hpage] at hname
          cases hname
      · intro _
        exact h.size
    · rw [size_add]
      exact Nat.le_succ_of_le h.size
    · apply List.rel_append
      · refine h.places.imp fun w p hp => ?_
        obtain ⟨v, hv, hm⟩ := hp
        exact ⟨v, by rw [usage?_add, if_neg (Nat.ne_of_lt (lt_size_of_usage? hv)), hv], hm⟩
      · exact .cons ⟨u.bare, by rw [usage?_add, if_pos rfl], .refl_bare u⟩ .nil
    · intro j hge hlt
      rw [size_add] at hlt
      rcases Nat.lt_or_ge j acc.1.size with hj | hj
      · exact List.mem_append_left _ (h.covered j hge hj)
      · rw [Nat.le_antisymm (Nat.le_of_lt_succ hlt) hj]
        exact List.mem_append_right _ (List.mem_singleton.2 rfl)

theorem Matched.foldl (hs : schema.Distinct) {done : List Usage} {acc : Ledger × List Nat}
    (h : Matched schema parent done acc) (us : List Usage) (hus : ∀ u ∈ us, u.Known schema) :
    Matched schema parent (done ++ us) (us.foldl matchUsage acc) := by
  induction us generalizing done acc with
  | nil => simpa using h
  | cons u us ih =>
    have hstep := h.step hs (hus u (List.mem_cons_self ..))
    have hrest := ih hstep fun w hw => hus w (List.mem_cons_of_mem _ hw)
    rw [List.append_assoc] at hrest
    exact hrest

/-- Every usage of a sub-select gets its place. -/
theorem matchAll_matched (hs : schema.Distinct) (hparent : Linked schema parent)
    (hsub : Linked schema sub) : Matched schema parent sub.usages (matchAll parent sub) := by
  apply (Matched.start hparent).foldl hs
  intro u hu
  obtain ⟨i, hi⟩ := mem_usages.1 hu
  exact hsub.known hi

/-- The place of a usage. -/
theorem Matched.place {acc : Ledger × List Nat} (h : Matched schema parent sub.usages acc) {i : Nat}
    (hu : sub.usage? i = some u) :
    ∃ p v, acc.2[i]? = some p ∧ acc.1.usage? p = some v ∧ Matches v u := by
  have hlen : i < sub.usages.length := by rw [length_usages]; exact lt_size_of_usage? hu
  have hlen' : i < acc.2.length := h.places.length_eq ▸ hlen
  obtain ⟨v, hv, hm⟩ := h.places.get hlen hlen'
  rw [← usages_getElem?, List.getElem?_eq_getElem hlen] at hu
  rw [List.get_eq_getElem, Option.some.inj hu] at hm
  exact ⟨_, v, List.getElem?_eq_getElem hlen', hv, hm⟩

/-- The usage of a place. -/
theorem Matched.counterpart {acc : Ledger × List Nat} (h : Matched schema parent sub.usages acc)
    {i p : Nat} (hp : acc.2[i]? = some p) :
    ∃ u v, sub.usage? i = some u ∧ acc.1.usage? p = some v ∧ Matches v u := by
  obtain ⟨hlt, hget⟩ := List.getElem?_eq_some_iff.1 hp
  have hlt' : i < sub.usages.length := h.places.length_eq ▸ hlt
  rw [length_usages] at hlt'
  obtain ⟨u, hu⟩ := exists_usage? hlt'
  obtain ⟨q, v, hq, hv, hm⟩ := h.place hu
  obtain rfl := Option.some.inj (hp.symm.trans hq)
  exact ⟨u, v, hu, hv, hm⟩

/-! ## Adopting -/

/-- The ledger when the usages of a sub-select at the places `done` have got their owners. -/
structure Adopted (schema : Schema) (parent sub : Ledger) (acc : Ledger × List Nat)
    (done : List Nat) (l : Ledger) : Prop where
  linked : LinkedExcept schema (parent.size ≤ ·) l
  usage?_eq : ∀ id, l.usage? id = acc.1.usage? id
  adopted : ∀ i ∈ done, ∀ {p}, acc.2[i]? = some p → (sub.owner? i).isSome = true →
    (l.owner? p).isSome = true

theorem Adopted.step (hsub : Linked schema sub) {acc : Ledger × List Nat} {done : List Nat}
    (hm : Matched schema parent sub.usages acc) (h : Adopted schema parent sub acc done l)
    (i : Nat) :
    Adopted schema parent sub acc (done ++ [i]) (adoptOwner sub acc.2 l i) := by
  have hkeep (hi : ∀ {p}, acc.2[i]? = some p → (sub.owner? i).isSome = true →
      (l.owner? p).isSome = true) :
      Adopted schema parent sub acc (done ++ [i]) l := by
    refine ⟨h.linked, h.usage?_eq, fun j hj => ?_⟩
    rcases List.mem_append.1 hj with hj | hj
    · exact h.adopted j hj
    · obtain rfl := List.mem_singleton.1 hj
      exact hi
  unfold adoptOwner
  split
  · next p q hp hq =>
    obtain ⟨o, ho, hqo⟩ := Option.bind_eq_some_iff.1 hq
    split
    · next hnone =>
      -- the index at `p` and the table at `q` stand for the ones of the sub-select
      obtain ⟨u, v, hu, hv, huv⟩ := hm.counterpart hp
      obtain ⟨hindex, x, hx, hof, -⟩ := hsub.owner hu ho
      obtain ⟨x', y, hx', hy, hxy⟩ := hm.counterpart hqo
      obtain rfl := Option.some.inj (hx.symm.trans hx')
      obtain ⟨hvindex, hyof⟩ := huv.isOf_table hxy (hsub.known hu) (hm.linked.known hv)
        (hsub.known hx) (hm.linked.known hy) hindex hof
      rw [← h.usage?_eq] at hv hy
      -- an index of a known table without owner is pending
      have hknown := (h.linked.known hy).table?_isSome hyof
      have hpending : parent.size ≤ p := by
        rcases h.linked.owned hv hvindex hknown with hsome | hp
        · rw [Option.isNone_iff_eq_none.1 hnone] at hsome; cases hsome
        · exact hp.1
      refine ⟨h.linked.setOwner hpending hv hvindex hy hyof, fun id => ?_,
        fun j hj r hr hsome => ?_⟩
      · rw [usage?_setOwner, h.usage?_eq]
      · rw [owner?_setOwner]
        split
        · rfl
        · next hother =>
          rcases List.mem_append.1 hj with hj | hj
          · exact h.adopted j hj hr hsome
          · obtain rfl := List.mem_singleton.1 hj
            obtain rfl := Option.some.inj (hp.symm.trans hr)
            exact absurd ⟨rfl, lt_size_of_usage? hv⟩ hother
    · next hsome =>
      apply hkeep
      intro r hr _
      obtain rfl := Option.some.inj (hp.symm.trans hr)
      rw [Option.isNone_iff_eq_none, ← ne_eq, Option.ne_none_iff_isSome] at hsome
      exact hsome
  · next hno =>
    apply hkeep
    intro p hp hsome
    obtain ⟨o, ho⟩ := Option.isSome_iff_exists.1 hsome
    obtain ⟨u, -, hu, -⟩ := hm.counterpart hp
    obtain ⟨-, x, hx, -⟩ := hsub.owner hu ho
    obtain ⟨q, -, hq, -⟩ := hm.place hx
    exact (hno p q hp (by rw [ho]; exact hq)).elim

/-- Every index of a sub-select that has an owner there has one in the enclosing ledger. -/
theorem adoptOwners_adopted (hsub : Linked schema sub) {acc : Ledger × List Nat}
    (hm : Matched schema parent sub.usages acc) :
    Adopted schema parent sub acc (List.range sub.size) (adoptOwners acc.1 sub acc.2) := by
  have hrun (is : List Nat) {done : List Nat} {l : Ledger}
      (h : Adopted schema parent sub acc done l) :
      Adopted schema parent sub acc (done ++ is) (is.foldl (adoptOwner sub acc.2) l) := by
    induction is generalizing done l with
    | nil => simpa using h
    | cons i is ih =>
      have hrest := ih (h.step hsub hm i)
      rw [List.append_assoc] at hrest
      exact hrest
  have hstart : Adopted schema parent sub acc [] acc.1 :=
    ⟨hm.linked, fun _ => rfl, fun _ hi => absurd hi List.not_mem_nil⟩
  exact hrun _ hstart

/-- An owner of an entry is the place of the owner of any index that has its place at the entry. -/
theorem Adopted.counterpart (hsub : Linked schema sub) {acc : Ledger × List Nat} {done : List Nat}
    (hm : Matched schema parent sub.usages acc) (h : Adopted schema parent sub acc done l)
    {i id t : Nat} (hu : sub.usage? i = some u) (hid : acc.2[i]? = some id)
    (hv : l.usage? id = some v) (ht : l.owner? id = some t) :
    v.name = u.name ∧ ∃ o x, sub.usage? o = some x ∧ acc.2[o]? = some t ∧ x.Reflects u ∧
      x.Has (.index ⟨u.cursor, u.name⟩) := by
  obtain ⟨hvindex, y, hy, hyof, -⟩ := h.linked.owner hv ht
  obtain ⟨q, v', hq, hv', huv⟩ := hm.place hu
  obtain rfl := Option.some.inj (hid.symm.trans hq)
  rw [← h.usage?_eq, hv] at hv'
  obtain rfl := Option.some.inj hv'
  have hknownu := hsub.known hu
  have hknownv := h.linked.known hv
  obtain ⟨hindex, hname, htable⟩ := huv.index_eq hknownu hknownv hvindex
  rw [htable] at hyof
  rcases hsub.owned hu hindex ((h.linked.known hy).table?_isSome hyof) with ho | hno
  · obtain ⟨o, ho⟩ := Option.isSome_iff_exists.1 ho
    obtain ⟨-, x, hx, hof, hreflects, hnoted⟩ := hsub.owner hu ho
    obtain ⟨r, z, hr, hz, hxz⟩ := hm.place hx
    rw [← h.usage?_eq] at hz
    have hzof :=
      (huv.isOf_table hxz hknownu hknownv (hsub.known hx) (h.linked.known hz) hindex hof).2
    rw [htable] at hzof
    obtain rfl := h.linked.table_unique hz hzof hy hyof
    exact ⟨hname, o, x, hx, hr, hreflects, hnoted not_false⟩
  · exact hno.1.elim

/-- An entry that was added for an index of a known table has been given its owner. -/
theorem Adopted.owned (hsub : Linked schema sub) {acc : Ledger × List Nat}
    (hm : Matched schema parent sub.usages acc)
    (h : Adopted schema parent sub acc (List.range sub.size) l) {id : Nat}
    (hv : l.usage? id = some v) (hadded : parent.size ≤ id) (hindex : v.isIndex = true)
    (hknown : (schema.table? v.table).isSome = true) : (l.owner? id).isSome = true := by
  have hv' := hv
  rw [h.usage?_eq] at hv'
  obtain ⟨i, hid⟩ := List.mem_iff_getElem?.1 (hm.covered id hadded (lt_size_of_usage? hv'))
  obtain ⟨u, w, hu, hw, huv⟩ := hm.counterpart hid
  obtain rfl := Option.some.inj (hv'.symm.trans hw)
  obtain ⟨huindex, -, htable⟩ := huv.index_eq (hsub.known hu) (h.linked.known hv) hindex
  rw [htable] at hknown
  rcases hsub.owned hu huindex hknown with ho | hno
  · exact h.adopted i (List.mem_range.2 (lt_size_of_usage? hu)) hid ho
  · exact hno.1.elim

end Merge

/-! ## Adding findings -/

/-- A finding of a sub-select in terms of the enclosing statement. -/
def Finding.inParent (parent : Ledger) (names : List (Int × String)) : Finding → Finding
  | .column clause name => .column clause name
  | .indexColumn clause c => .indexColumn clause (Merge.parentColumn parent names c)
  | .filter text => .filter text
  | .index use => .index (Merge.parentUse parent use)

namespace Merge

open Ledger

variable {schema : Schema} {parent sub base l : Ledger} {u v : Usage} {names : List (Int × String)}

theorem adds_addFindings (base : Ledger) (names : List (Int × String)) (found : Usage) :
    Usage.Adds (addFindings base names found) fun f => ∃ g, found.Has g ∧
      f = g.inParent base names where
  bare _ := rfl
  has own f := by
    constructor
    · intro hf
      rcases f with ⟨_ | _, name⟩ | ⟨_ | _, column⟩ | text | use <;>
        rcases OrderedSet.mem_insertAll.1 hf with hf | hf
      all_goals first | exact .inl hf | skip
      · exact .inr ⟨.column .filter name, hf, rfl⟩
      · exact .inr ⟨.column .sort name, hf, rfl⟩
      · obtain ⟨c, hc, rfl⟩ := List.mem_map.1 hf
        exact .inr ⟨.indexColumn .filter c, hc, rfl⟩
      · obtain ⟨c, hc, rfl⟩ := List.mem_map.1 hf
        exact .inr ⟨.indexColumn .sort c, hc, rfl⟩
      · exact .inr ⟨.filter text, hf, rfl⟩
      · obtain ⟨c, hc, rfl⟩ := List.mem_map.1 hf
        exact .inr ⟨.index c, hc, rfl⟩
    · rintro (hf | ⟨g, hg, rfl⟩)
      · rcases f with ⟨_ | _, _⟩ | ⟨_ | _, _⟩ | _ | _ <;> exact OrderedSet.mem_insertAll.2 (.inl hf)
      · rcases g with ⟨_ | _, _⟩ | ⟨_ | _, c⟩ | _ | c
        · exact OrderedSet.mem_insertAll.2 (.inr hg)
        · exact OrderedSet.mem_insertAll.2 (.inr hg)
        · exact OrderedSet.mem_insertAll.2 (.inr (List.mem_map.2 ⟨c, hg, rfl⟩))
        · exact OrderedSet.mem_insertAll.2 (.inr (List.mem_map.2 ⟨c, hg, rfl⟩))
        · exact OrderedSet.mem_insertAll.2 (.inr hg)
        · exact OrderedSet.mem_insertAll.2 (.inr (List.mem_map.2 ⟨c, hg, rfl⟩))

/-- Where an index is known does not depend on what was found. -/
theorem cursorOf?_skeleton (l : Ledger) (index : String) :
    cursorOf? l.skeleton index = cursorOf? l index := by
  rw [cursorOf?, cursorOf?, find?_skeleton]
  rcases l.find? index .index with _ | id
  · rfl
  · rw [Option.bind_some, Option.bind_some, usage?_skeleton, Option.map_map]
    rfl

theorem cursorOf?_of_skeleton_eq (h : l.skeleton = base.skeleton) :
    cursorOf? l = cursorOf? base := by
  funext index
  exact eq_of_skeleton_eq (g := (cursorOf? · index)) (fun l => cursorOf?_skeleton l index) h

theorem parentColumn_of_skeleton_eq (h : l.skeleton = base.skeleton) :
    parentColumn l names = parentColumn base names := by
  funext c
  rw [parentColumn, parentColumn, parentCursor, parentCursor, cursorOf?_of_skeleton_eq h]

theorem parentUse_of_skeleton_eq (h : l.skeleton = base.skeleton) :
    parentUse l = parentUse base := by
  funext use
  rw [parentUse, parentUse, cursorOf?_of_skeleton_eq h]

theorem addFindings_congr (h : l.skeleton = base.skeleton) :
    addFindings l names = addFindings base names := by
  funext found own
  rw [addFindings, addFindings, parentUse_of_skeleton_eq h, parentColumn_of_skeleton_eq h]

theorem inParent_of_skeleton_eq (h : l.skeleton = base.skeleton) (f : Finding) :
    f.inParent l names = f.inParent base names := by
  cases f with
  | column clause name => rfl
  | indexColumn clause c => rw [Finding.inParent, Finding.inParent, parentColumn_of_skeleton_eq h]
  | filter text => rfl
  | index use => rw [Finding.inParent, Finding.inParent, parentUse_of_skeleton_eq h]

/-- An entry gets the findings of the usages that have their place there. -/
theorem foldl_addFindings (names : List (Int × String)) (pairs : List (Usage × Nat))
    (h : l.skeleton = base.skeleton) :
    (pairs.foldl (fun l found => l.modify found.2 (addFindings l names found.1)) l).skeleton
        = base.skeleton ∧
      ∀ {p w},
        (pairs.foldl (fun l found => l.modify found.2 (addFindings l names found.1)) l).usage? p
          = some w →
        ∃ v, l.usage? p = some v ∧ ∀ f, w.Has f ↔
          v.Has f ∨ ∃ u, (u, p) ∈ pairs ∧ ∃ g, u.Has g ∧ f = g.inParent base names := by
  induction pairs generalizing l with
  | nil => exact ⟨h, fun {p w} hw => ⟨w, hw, fun f => by simp⟩⟩
  | cons pair pairs ih =>
    obtain ⟨found, q⟩ := pair
    have hadds := adds_addFindings base names found
    rw [List.foldl_cons, addFindings_congr h]
    obtain ⟨hskeleton, hhas⟩ := ih ((skeleton_modify l q hadds.bare).trans h)
    refine ⟨hskeleton, fun {p w} hw => ?_⟩
    obtain ⟨v, hv, hwv⟩ := hhas hw
    rw [usage?_modify] at hv
    by_cases hpq : p = q
    · subst hpq
      rw [if_pos rfl] at hv
      obtain ⟨v', hv', rfl⟩ := Option.map_eq_some_iff.1 hv
      refine ⟨v', hv', fun f => ?_⟩
      rw [hwv, hadds.has, or_assoc]
      simp only [List.mem_cons, Prod.mk.injEq, and_true, or_and_right, exists_or, exists_eq_left]
    · rw [if_neg hpq] at hv
      refine ⟨v, hv, fun f => ?_⟩
      rw [hwv]
      simp only [List.mem_cons, Prod.mk.injEq, hpq, and_false, false_or]

/-- Where an index is known, if its entry is at hand. -/
theorem cursorOf?_eq {pending : Nat → Prop} (h : LinkedExcept schema pending l) {id : Nat}
    (hu : l.usage? id = some u) (hindex : u.isIndex = true) :
    cursorOf? l u.name = some u.cursor := by
  have hkind := Usage.isIndex_iff.1 hindex
  rcases hfind : l.find? u.name .index with _ | j
  · have hno := find?_eq_none hfind hu
    rw [Usage.isOf_iff.2 ⟨hkind, sameName_refl u.name⟩] at hno
    cases hno
  · obtain ⟨v, hv, hof⟩ := find?_eq_some hfind
    obtain ⟨hvkind, hvname⟩ := Usage.isOf_iff.1 hof
    obtain rfl := h.unique hv hu (hvkind.trans hkind.symm) hvname
    rw [cursorOf?, hfind, Option.bind_some, hu, Option.map_some]

end Merge

namespace Ledger

open Merge

/-- What the three passes leave: the matching, the owners, and the findings of the usages of the
sub-select at their places, in terms of the enclosing statement. -/
theorem merge_passes {schema : Schema} (hs : schema.Distinct) {parent sub : Ledger}
    (hparent : Linked schema parent) (hsub : Linked schema sub) :
    ∃ owned, Matched schema parent sub.usages (matchAll parent sub) ∧
      Adopted schema parent sub (matchAll parent sub) (List.range sub.size) owned ∧
      (parent.merge sub).skeleton = owned.skeleton ∧
      ∀ {p w}, (parent.merge sub).usage? p = some w → ∃ v, owned.usage? p = some v ∧ ∀ f, w.Has f ↔
        v.Has f ∨ ∃ i u, sub.usage? i = some u ∧ (matchAll parent sub).2[i]? = some p ∧
          ∃ g, u.Has g ∧ f = g.inParent owned (cursorNames sub) := by
  have hm := matchAll_matched hs hparent hsub
  refine ⟨_, hm, adoptOwners_adopted hsub hm, ?_⟩
  generalize howned : adoptOwners (matchAll parent sub).1 sub (matchAll parent sub).2 = owned
  have hmerge : parent.merge sub = (sub.usages.zip (matchAll parent sub).2).foldl (fun l found =>
      l.modify found.2 (addFindings l (cursorNames sub) found.1)) owned := by
    rw [← howned]
    rfl
  obtain ⟨hskeleton, hhas⟩ :=
    foldl_addFindings (cursorNames sub) (sub.usages.zip (matchAll parent sub).2)
    (rfl : owned.skeleton = _)
  rw [hmerge]
  refine ⟨hskeleton, fun {p w} hw => ?_⟩
  obtain ⟨v, hv, hwv⟩ := hhas hw
  refine ⟨v, hv, fun f => (hwv f).trans (or_congr_right ?_)⟩
  -- the pairs are the usages of the sub-select and their places
  constructor
  · rintro ⟨u, hpair, hg⟩
    obtain ⟨i, hi⟩ := List.mem_iff_getElem?.1 hpair
    rw [List.getElem?_zip_eq_some, usages_getElem?] at hi
    exact ⟨i, u, hi.1, hi.2, hg⟩
  · rintro ⟨i, u, hu, hp, hg⟩
    refine ⟨u, List.mem_iff_getElem?.2 ⟨i, ?_⟩, hg⟩
    rw [List.getElem?_zip_eq_some, usages_getElem?]
    exact ⟨hu, hp⟩

/-- The links of a statement are in order after a sub-select is merged, if they are on both
sides. -/
theorem merge_linked {schema : Schema} (hs : schema.Distinct) {parent sub : Ledger}
    (hparent : Linked schema parent) (hsub : Linked schema sub) :
    Linked schema (parent.merge sub) := by
  obtain ⟨owned, hm, ha, hskeleton, hhas⟩ := merge_passes hs hparent hsub
  generalize matchAll parent sub = acc at hm ha hhas
  apply ha.linked.of_skeleton_eq hskeleton
  · intro id v hv hadded hindex hknown
    exact ha.owned hsub hm hv hadded hindex hknown
  · intro id t v y hv ht hy
    rw [owner?_of_skeleton_eq hskeleton] at ht
    obtain ⟨v₀, hv₀, hbare⟩ := usage?_of_skeleton_eq hskeleton hv
    obtain ⟨v₁, hv₁, hvhas⟩ := hhas hv
    obtain ⟨y₀, hy₀, hyhas⟩ := hhas hy
    obtain rfl := Option.some.inj (hv₀.symm.trans hv₁)
    obtain ⟨hindex, y₁, hy₁, -, hreflects, hnoted⟩ := ha.linked.owner hv₀ ht
    obtain rfl := Option.some.inj (hy₀.symm.trans hy₁)
    obtain ⟨hcursor, -, -, hname, -⟩ := Usage.bare_eq_iff.1 hbare
    constructor
    · intro f hf hvf
      rw [hyhas]
      rcases (hvhas f).1 hvf with hvf | ⟨i, u, hu, hid, g, hg, rfl⟩
      · exact .inl (hreflects f hf hvf)
      · -- the index of the sub-select has an owner that reflects it, and its place is `t`
        obtain ⟨-, o, x, hx, hxt, hxu, -⟩ := ha.counterpart hsub hm hu hid hv₀ ht
        refine .inr ⟨o, x, hx, hxt, g, hxu g ?_ hg, rfl⟩
        rintro use rfl
        exact hf _ rfl
    · rw [hyhas, ← hcursor, ← hname]
      by_cases hadded : parent.size ≤ id
      · rw [ha.usage?_eq] at hv₁
        obtain ⟨i, hid⟩ := List.mem_iff_getElem?.1 (hm.covered id hadded (lt_size_of_usage? hv₁))
        obtain ⟨u, -, hu, -⟩ := hm.counterpart hid
        obtain ⟨hsame, o, x, hx, hxt, -, hxu⟩ := ha.counterpart hsub hm hu hid hv₀ ht
        refine .inr ⟨o, x, hx, hxt, .index ⟨u.cursor, u.name⟩, hxu, ?_⟩
        rw [Finding.inParent, parentUse, ← hsame,
          cursorOf?_eq ha.linked hv₀ hindex, Option.getD_some]
      · exact .inl (hnoted hadded)

end Ledger

end IndexAdvisor
