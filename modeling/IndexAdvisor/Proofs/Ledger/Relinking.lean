import IndexAdvisor.Proofs.Ledger.Continuing
import IndexAdvisor.Proofs.Ledger.Union

/-!
# Owners in any order

When a sub-select is merged, owners are given to the entries of its usages one by one, and each of
these steps looks at the ledger that the ones before it have left. Nothing says in which order the
usages are gone through. It does not matter: a step reads and writes the owner of one place only
(`owner?_adoptOwner`), so two steps can only get in each other's way if their usages have the same
place, and usages of different objects have different places.

> `mergeIn_eq`: where no two usages of the sub-select stand for one object (`Apart`), the merge is
> the same for every order of its usages.

A merge keeps such ledgers apart, so this goes on to any number of merges (`Apart.merge`).
-/

namespace IndexAdvisor

namespace Merge

open Ledger

variable {sub l : Ledger} {places : List Nat} {i j : Nat}

theorem size_adoptOwner (sub : Ledger) (places : List Nat) (l : Ledger) (i : Nat) :
    (adoptOwner sub places l i).size = l.size := by
  rw [adoptOwner]
  split
  · split
    · rw [size_setOwner]
    · rfl
  · rfl

/-- A usage of a sub-select gives an owner to the entry at its place, if that has none, and to no
other. -/
theorem owner?_adoptOwner (sub : Ledger) (places : List Nat) (l : Ledger) (i id : Nat) :
    (adoptOwner sub places l i).owner? id =
      if places[i]? = some id ∧ id < l.size then (l.owner? id).or ((sub.owner? i).bind (places[·]?))
      else l.owner? id := by
  rw [adoptOwner]
  split
  · next p q hp hq =>
    rw [hp, hq]
    split
    · next hnone =>
      rw [owner?_setOwner]
      by_cases hid : id = p ∧ id < l.size
      · have hplace : some p = some id ∧ id < l.size := ⟨congrArg some hid.1.symm, hid.2⟩
        rw [if_pos hid, if_pos hplace, hid.1, Option.isNone_iff_eq_none.1 hnone, Option.none_or]
      · have hother : ¬(some p = some id ∧ id < l.size) :=
          fun h => hid ⟨(Option.some.inj h.1).symm, h.2⟩
        rw [if_neg hid, if_neg hother]
    · next hsome =>
      split
      · next hplace =>
        obtain rfl := Option.some.inj hplace.1
        rcases ho : l.owner? p with _ | t
        · rw [ho] at hsome
          exact absurd rfl hsome
        · rfl
      · rfl
  · next hno =>
    split
    · next hplace =>
      -- the place is known, so there is no owner to be had
      rcases hq : (sub.owner? i).bind (places[·]?) with _ | q
      · rw [Option.or_none]
      · exact absurd hq (hno id q hplace.1)
    · rfl

/-- Usages at different places get their owners in either order. -/
theorem adoptOwner_comm (hplaces : places.Nodup) (l : Ledger) (i j : Nat) :
    adoptOwner sub places (adoptOwner sub places l i) j =
      adoptOwner sub places (adoptOwner sub places l j) i := by
  by_cases hij : i = j
  · rw [hij]
  · apply ext_entries
    · intro id
      rw [usage?_adoptOwner, usage?_adoptOwner, usage?_adoptOwner, usage?_adoptOwner]
    · intro id
      simp only [owner?_adoptOwner, size_adoptOwner]
      by_cases hi : places[i]? = some id ∧ id < l.size
      · have hj : ¬(places[j]? = some id ∧ id < l.size) := by
          intro hj
          have hlt : i < places.length := (List.getElem?_eq_some_iff.1 hi.1).1
          exact hij (List.getElem?_inj hlt hplaces |>.1 (hi.1.trans hj.1.symm))
        simp only [if_pos hi, if_neg hj]
      · simp only [if_neg hi]

/-- Owners may be adopted in any order. -/
theorem adoptOwners_of_perm (hplaces : places.Nodup) {order : List Nat}
    (horder : order.Perm (List.range sub.size)) (l : Ledger) :
    order.foldl (adoptOwner sub places) l = adoptOwners l sub places := by
  apply horder.foldl_eq'
  intro i _ j _ l
  exact adoptOwner_comm hplaces l i j

end Merge

namespace Ledger

open Merge

variable {parent sub l k : Ledger}

/-! ## Merges in any order -/

/-- The ledger of a statement with the findings of one of its sub-selects, where the owners of the
usages are given in some order. -/
def mergeIn (order : List Nat) (parent sub : Ledger) : Ledger :=
  addAll (cursorNames sub) (order.foldl (adoptOwner sub (matchAll parent sub).2)
    (matchAll parent sub).1)
    (sub.usages.zip (matchAll parent sub).2)

/-- A merge goes through the usages from the first to the last. -/
theorem merge_eq_mergeIn (parent sub : Ledger) :
    parent.merge sub = parent.mergeIn (List.range sub.size) sub := rfl

/-- No two usages of a ledger stand for one object: they differ in their names or in their pages. -/
def Apart (l : Ledger) : Prop := l.usages.Pairwise fun u v => ¬Matches u v

/-- Every usage of a sub-select has a place. -/
theorem length_places (parent sub : Ledger) : (matchAll parent sub).2.length = sub.size := by
  rw [← length_usages]
  exact (matchAll_places parent sub).2.length_eq.symm

/-- Different usages have different places. -/
theorem Apart.nodup_places (hsub : sub.Apart) (parent : Ledger) : (matchAll parent sub).2.Nodup :=
  (matchAll_places parent sub).2.nodup hsub

/-- The order in which owners are given does not show. -/
theorem mergeIn_eq (hsub : sub.Apart) {order : List Nat} (horder : order.Perm (List.range sub.size))
    (parent : Ledger) : parent.mergeIn order sub = parent.merge sub := by
  rw [mergeIn, adoptOwners_of_perm (hsub.nodup_places parent) horder]
  rfl

theorem matches_bare_iff {u v : Usage} : Matches u.bare v.bare ↔ Matches u v :=
  ⟨fun h => ⟨h.rootPage, h.name⟩, fun h => ⟨h.rootPage, h.name⟩⟩

theorem apart_iff_identities : l.Apart ↔ l.identities.Pairwise fun u v => ¬Matches u v := by
  simp only [Apart, identities, List.pairwise_map, matches_bare_iff]

theorem Apart.of_skeleton_eq (h : l.Apart) (hk : k.skeleton = l.skeleton) : k.Apart := by
  rw [apart_iff_identities, identities_of_skeleton_eq hk]
  exact apart_iff_identities.1 h

/-- A merge appends what is in neither of the entries it begins with, so it keeps them apart. -/
theorem Apart.merge (hparent : parent.Apart) (hsub : sub.Apart) : (parent.merge sub).Apart := by
  rw [apart_iff_identities, (merge_orderedUnion hsub).identities, List.pairwise_append]
  refine ⟨apart_iff_identities.1 hparent, ?_, ?_⟩
  · simp only [List.pairwise_map, matches_bare_iff]
    exact List.Pairwise.filter _ hsub
  · intro _ hold _ hadded
    obtain ⟨v, hv, rfl⟩ := List.mem_map.1 hold
    obtain ⟨u, hu, rfl⟩ := List.mem_map.1 hadded
    have hpasses := List.of_mem_filter hu
    have hnew : IsNew parent u := of_decide_eq_true hpasses
    exact fun hvu => hnew v hv (matches_bare_iff.1 hvu)

end Ledger

end IndexAdvisor
