import IndexAdvisor.Proofs.Ledger.Merged
import IndexAdvisor.Proofs.Ledger.Note
import Mathlib.Data.List.Pairwise

/-!
# A merge as an ordered union

What a merge does whatever the two ledgers are: nothing is asked of a schema, of names or of owners
here. Entries of the enclosing statement stay where they are and grow at the end of each set
(`merge_growsTo`). As long as no two usages of the sub-select match each other, those that have no
match are appended in their order (`usages_matchAll`), and each gives its findings to one entry
(`usage?_addAll_of_mem`), while no other entry gets any (`usage?_addAll_of_notMem`).

A merge that is repeated finds every place where the first one has put it, owners that have been
adopted, and findings that are there (`merge_merge`). All of this together is `merge_orderedUnion`.
-/

namespace IndexAdvisor

namespace Usage

variable {u v w : Usage}

/-- The second usage is the first one with more findings, which stand behind those of the first in
each set. -/
structure GrowsTo (u v : Usage) : Prop where
  bare : v.bare = u.bare
  indexes : u.indexes.toList <+: v.indexes.toList
  filterColumns : u.filterColumns.toList <+: v.filterColumns.toList
  sortColumns : u.sortColumns.toList <+: v.sortColumns.toList
  filterIndexColumns : u.filterIndexColumns.toList <+: v.filterIndexColumns.toList
  sortIndexColumns : u.sortIndexColumns.toList <+: v.sortIndexColumns.toList
  filters : u.filters.toList <+: v.filters.toList

theorem GrowsTo.refl (u : Usage) : u.GrowsTo u where
  bare := rfl
  indexes := List.prefix_refl _
  filterColumns := List.prefix_refl _
  sortColumns := List.prefix_refl _
  filterIndexColumns := List.prefix_refl _
  sortIndexColumns := List.prefix_refl _
  filters := List.prefix_refl _

theorem GrowsTo.trans (huv : u.GrowsTo v) (hvw : v.GrowsTo w) : u.GrowsTo w where
  bare := hvw.bare.trans huv.bare
  indexes := huv.indexes.trans hvw.indexes
  filterColumns := huv.filterColumns.trans hvw.filterColumns
  sortColumns := huv.sortColumns.trans hvw.sortColumns
  filterIndexColumns := huv.filterIndexColumns.trans hvw.filterIndexColumns
  sortIndexColumns := huv.sortIndexColumns.trans hvw.sortIndexColumns
  filters := huv.filters.trans hvw.filters

/-- The third usage is the first one with just those columns and comparisons of the second that it
lacks, in their order. -/
structure Gains (own found result : Usage) : Prop where
  filterColumns : result.filterColumns.toList =
    own.filterColumns.toList ++ found.filterColumns.toList.filter (· ∉ own.filterColumns.toList)
  sortColumns : result.sortColumns.toList =
    own.sortColumns.toList ++ found.sortColumns.toList.filter (· ∉ own.sortColumns.toList)
  filters : result.filters.toList =
    own.filters.toList ++ found.filters.toList.filter (· ∉ own.filters.toList)

end Usage

namespace Merge

variable {parent : Ledger} {names : List (Int × String)} {found own : Usage}

instance (v u : Usage) : Decidable (Matches v u) :=
  decidable_of_iff (v.rootPage = u.rootPage ∧ sameName v.name u.name = true)
    ⟨fun h => ⟨h.1, h.2⟩, fun h => ⟨h.rootPage, h.name⟩⟩

instance : Std.Symm fun u v : Usage => ¬Matches u v where
  symm _ _ huv hvu := huv ⟨hvu.rootPage.symm, sameName_symm hvu.name⟩

theorem growsTo_addFindings (parent : Ledger) (names : List (Int × String)) (found own : Usage) :
    own.GrowsTo (addFindings parent names found own) where
  bare := rfl
  indexes := OrderedSet.toList_prefix_insertAll _ _
  filterColumns := OrderedSet.toList_prefix_insertAll _ _
  sortColumns := OrderedSet.toList_prefix_insertAll _ _
  filterIndexColumns := OrderedSet.toList_prefix_insertAll _ _
  sortIndexColumns := OrderedSet.toList_prefix_insertAll _ _
  filters := OrderedSet.toList_prefix_insertAll _ _

theorem gains_addFindings (parent : Ledger) (names : List (Int × String)) (found own : Usage) :
    own.Gains found (addFindings parent names found own) where
  filterColumns := OrderedSet.toList_insertAll_of_nodup _ found.filterColumns.nodup
  sortColumns := OrderedSet.toList_insertAll_of_nodup _ found.sortColumns.nodup
  filters := OrderedSet.toList_insertAll_of_nodup _ found.filters.nodup

/-- Findings that are there already change nothing. -/
theorem addFindings_eq_self (h : ∀ f, found.Has f → own.Has (f.inParent parent names)) :
    addFindings parent names found own = own := by
  have hindexes : own.indexes.insertAll (found.indexes.toList.map (parentUse parent)) =
      own.indexes := by
    apply OrderedSet.insertAll_of_subset
    intro a ha
    obtain ⟨use, huse, rfl⟩ := List.mem_map.1 ha
    exact h (.index use) huse
  have hfilter : own.filterIndexColumns.insertAll
      (found.filterIndexColumns.toList.map (parentColumn parent names)) =
        own.filterIndexColumns := by
    apply OrderedSet.insertAll_of_subset
    intro a ha
    obtain ⟨c, hc, rfl⟩ := List.mem_map.1 ha
    exact h (.indexColumn .filter c) hc
  have hsort : own.sortIndexColumns.insertAll
      (found.sortIndexColumns.toList.map (parentColumn parent names)) = own.sortIndexColumns := by
    apply OrderedSet.insertAll_of_subset
    intro a ha
    obtain ⟨c, hc, rfl⟩ := List.mem_map.1 ha
    exact h (.indexColumn .sort c) hc
  rw [addFindings]
  dsimp only
  rw [hindexes, hfilter, hsort, OrderedSet.insertAll_of_subset fun c hc => h (.column .filter c) hc,
    OrderedSet.insertAll_of_subset fun c hc => h (.column .sort c) hc,
    OrderedSet.insertAll_of_subset fun e he => h (.filter e) he]

end Merge

namespace Ledger

variable {l k m parent sub : Ledger} {id j : Nat} {u v w : Usage} {name : String} {page : Nat}

/-! ## Who is in a ledger -/

/-- The entries without findings and owners, in their order. -/
def identities (l : Ledger) : List Usage := l.usages.map Usage.bare

theorem identities_congr (h : ∀ id, (k.usage? id).map Usage.bare = (l.usage? id).map Usage.bare) :
    k.identities = l.identities := by
  apply List.ext_getElem?
  intro id
  rw [identities, identities, List.getElem?_map, List.getElem?_map, usages_getElem?,
    usages_getElem?, h id]

theorem identities_of_skeleton_eq (h : k.skeleton = l.skeleton) : k.identities = l.identities := by
  apply identities_congr
  intro id
  rw [← usage?_skeleton, ← usage?_skeleton, h]

/-- A search by name and page looks at identities only. -/
theorem findAt?_eq (l : Ledger) (name : String) (page : Nat) : l.findAt? name page =
    l.identities.findIdx? fun u => u.rootPage == page && sameName u.name name := by
  rw [findAt?, identities, usages, List.map_map, List.findIdx?_map]
  rfl

theorem findAt?_congr (h : k.identities = l.identities) :
    k.findAt? name page = l.findAt? name page := by
  rw [findAt?_eq, findAt?_eq, h]

theorem size_of_identities_eq (h : k.identities = l.identities) : k.size = l.size := by
  have hlength := congrArg List.length h
  rwa [identities, identities, List.length_map, List.length_map, length_usages,
    length_usages] at hlength

/-! ## Ledgers that grow -/

/-- The second ledger is the first one with more entries at its end and more findings at the end of
each set. -/
structure GrowsTo (l k : Ledger) : Prop where
  usage : ∀ {id u}, l.usage? id = some u → ∃ v, k.usage? id = some v ∧ u.GrowsTo v
  owner : ∀ {id t}, l.owner? id = some t → k.owner? id = some t

theorem GrowsTo.refl (l : Ledger) : l.GrowsTo l where
  usage hu := ⟨_, hu, .refl _⟩
  owner ho := ho

theorem GrowsTo.trans (hlk : l.GrowsTo k) (hkm : k.GrowsTo m) : l.GrowsTo m where
  usage hu := by
    obtain ⟨v, hv, huv⟩ := hlk.usage hu
    obtain ⟨w, hw, hvw⟩ := hkm.usage hv
    exact ⟨w, hw, huv.trans hvw⟩
  owner ho := hkm.owner (hlk.owner ho)

/-- What grows at each step of a fold grows in the whole fold. -/
theorem growsTo_foldl {α : Type} {step : Ledger → α → Ledger}
    (h : ∀ (l : Ledger) (a : α), l.GrowsTo (step l a)) (as : List α) (l : Ledger) :
    l.GrowsTo (as.foldl step l) := by
  induction as generalizing l with
  | nil => exact .refl l
  | cons a as ih => exact (h l a).trans (ih (step l a))

theorem growsTo_add (l : Ledger) (u : Usage) : l.GrowsTo (l.add u) where
  usage {id v} hv := by
    refine ⟨v, ?_, .refl v⟩
    rw [usage?_add, if_neg (Nat.ne_of_lt (lt_size_of_usage? hv)), hv]
  owner ho := by rw [owner?_add, ho]

theorem growsTo_modify {change : Usage → Usage} (h : ∀ u : Usage, u.GrowsTo (change u)) (l : Ledger)
    (id : Nat) : l.GrowsTo (l.modify id change) where
  usage {j u} hu := by
    rw [usage?_modify, hu]
    by_cases hj : j = id
    · rw [if_pos hj]
      exact ⟨change u, rfl, h u⟩
    · rw [if_neg hj]
      exact ⟨u, rfl, .refl u⟩
  owner ho := by rw [owner?_modify, ho]

theorem growsTo_setOwner (hnone : l.owner? id = none) (t : Nat) : l.GrowsTo (l.setOwner id t) where
  usage hu := ⟨_, by rw [usage?_setOwner, hu], .refl _⟩
  owner {j s} ho := by
    rw [owner?_setOwner, if_neg, ho]
    rintro ⟨rfl, -⟩
    rw [hnone] at ho
    cases ho

/-- The entries of a ledger that has grown begin with those it had. -/
theorem GrowsTo.identities (h : l.GrowsTo k) : l.identities <+: k.identities := by
  rw [List.prefix_iff_getElem?]
  intro id hid
  rw [Ledger.identities, List.length_map, length_usages] at hid
  obtain ⟨u, hu⟩ := exists_usage? hid
  obtain ⟨v, hv, huv⟩ := h.usage hu
  rw [← List.getElem?_eq_getElem, Ledger.identities, Ledger.identities, List.getElem?_map,
    List.getElem?_map, usages_getElem?, usages_getElem?, hu, hv, Option.map_some,
    Option.map_some, huv.bare]

/-- What was found is found at the same place. -/
theorem GrowsTo.findAt? (h : l.GrowsTo k) (hid : l.findAt? name page = some id) :
    k.findAt? name page = some id := by
  obtain ⟨added, hadded⟩ := h.identities
  rw [findAt?_eq] at hid ⊢
  rw [← hadded, List.findIdx?_append, hid, Option.some_or]

/-- Of what a ledger finds among the entries it began with nothing is new. -/
theorem GrowsTo.findAt?_of_lt (h : l.GrowsTo k) (hid : k.findAt? name page = some id)
    (hlt : id < l.size) :
    l.findAt? name page = some id := by
  rcases hl : l.findAt? name page with _ | j
  · obtain ⟨added, hadded⟩ := h.identities
    rw [findAt?_eq] at hl hid
    rw [← hadded, List.findIdx?_append, hl, Option.none_or] at hid
    obtain ⟨j, -, hj⟩ := Option.map_eq_some_iff.1 hid
    rw [Ledger.identities, List.length_map, length_usages] at hj
    omega
  · rw [← h.findAt? hl, hid]

theorem findAt?_add (l : Ledger) (v : Usage) : (l.add v).findAt? u.name u.rootPage =
    (l.findAt? u.name u.rootPage).or (if Merge.Matches v u then some l.size else none) := by
  rw [findAt?, add, List.findIdx?_append, findAt?]
  congr 1
  by_cases hvu : Merge.Matches v u
  · rw [if_pos hvu, List.findIdx?_cons, hvu.rootPage, hvu.name, beq_self_eq_true]
    simp [size]
  · rw [if_neg hvu, List.findIdx?_cons, List.findIdx?_nil]
    by_cases hpage : v.rootPage = u.rootPage
    · have hname : sameName v.name u.name = false :=
        Bool.eq_false_iff.2 fun hname => hvu ⟨hpage, hname⟩
      simp [hname]
    · simp [hpage]

theorem findAt?_eq_none_iff : l.findAt? u.name u.rootPage = none ↔
    ∀ v ∈ l.usages, ¬Merge.Matches v u := by
  constructor
  · intro hnone v hv hvu
    obtain ⟨id, hid⟩ := mem_usages.1 hv
    have hname := findAt?_eq_none hnone hid hvu.rootPage
    rw [hvu.name] at hname
    cases hname
  · intro hno
    rcases hfind : l.findAt? u.name u.rootPage with _ | id
    · rfl
    · obtain ⟨v, hv, hpage, hname⟩ := findAt?_eq_some hfind
      exact absurd ⟨hpage, hname⟩ (hno v (mem_usages.2 ⟨id, hv⟩))

end Ledger

namespace Merge

open Ledger

variable {parent sub l k : Ledger} {acc : Ledger × List Nat} {us : List Usage} {places : List Nat}
  {pairs : List (Usage × Nat)} {names : List (Int × String)} {u v : Usage} {id p i : Nat}

/-! ## Places -/

/-- The places of usages: for each of them its entry, which is the first one of its name and
page. -/
def PlacedAt (l : Ledger) (us : List Usage) (places : List Nat) : Prop :=
  List.Forall₂ (fun u p => l.findAt? u.name u.rootPage = some p) us places

theorem PlacedAt.congr (h : PlacedAt l us places) (hk : k.identities = l.identities) :
    PlacedAt k us places :=
  List.Forall₂.imp (fun _ _ hp => by rw [findAt?_congr hk, hp]) h

theorem PlacedAt.exists_mem (h : PlacedAt l us places) (hp : p ∈ places) :
    ∃ u ∈ us, l.findAt? u.name u.rootPage = some p := by
  induction h with
  | nil => cases hp
  | cons hu _ ih =>
    rcases List.mem_cons.1 hp with rfl | hp
    · exact ⟨_, List.mem_cons_self .., hu⟩
    · obtain ⟨w, hw, hwp⟩ := ih hp
      exact ⟨w, List.mem_cons_of_mem _ hw, hwp⟩

theorem PlacedAt.exists_place (h : PlacedAt l us places) (hu : u ∈ us) :
    ∃ p, (u, p) ∈ us.zip places ∧ l.findAt? u.name u.rootPage = some p := by
  induction h with
  | nil => cases hu
  | cons hp _ ih =>
    rcases List.mem_cons.1 hu with rfl | hu
    · exact ⟨_, List.mem_cons_self .., hp⟩
    · obtain ⟨q, hq, huq⟩ := ih hu
      exact ⟨q, List.mem_cons_of_mem _ hq, huq⟩

theorem PlacedAt.lt_size (h : PlacedAt l us places) (hp : p ∈ places) : p < l.size := by
  obtain ⟨u, -, hu⟩ := h.exists_mem hp
  obtain ⟨v, hv, -⟩ := findAt?_eq_some hu
  exact lt_size_of_usage? hv

/-- Usages of different objects have different places. -/
theorem PlacedAt.nodup (h : PlacedAt l us places) (hus : us.Pairwise fun u v => ¬Matches u v) :
    places.Nodup := by
  induction h with
  | nil => exact List.nodup_nil
  | @cons u p us places hp hrest ih =>
    obtain ⟨hu, hus⟩ := List.pairwise_cons.1 hus
    refine List.nodup_cons.2 ⟨fun hmem => ?_, ih hus⟩
    obtain ⟨w, hw, hwp⟩ := PlacedAt.exists_mem hrest hmem
    obtain ⟨v, hv, hpage, hname⟩ := findAt?_eq_some hp
    obtain ⟨v', hv', hpage', hname'⟩ := findAt?_eq_some hwp
    obtain rfl := Option.some.inj (hv.symm.trans hv')
    exact hu w hw (Matches.symm_trans ⟨hpage, hname⟩ ⟨hpage', hname'⟩)

/-! ## Matching -/

theorem matchUsage_places (acc : Ledger × List Nat) (u : Usage) :
    acc.1.GrowsTo (matchUsage acc u).1 ∧
      ∃ p, (matchUsage acc u).2 = acc.2 ++ [p] ∧
        (matchUsage acc u).1.findAt? u.name u.rootPage = some p := by
  rcases hfind : acc.1.findAt? u.name u.rootPage with _ | p
  · rw [matchUsage, hfind]
    refine ⟨growsTo_add _ _, _, rfl, ?_⟩
    dsimp only
    rw [findAt?_add, hfind, Option.none_or, if_pos (Matches.refl_bare u)]
  · rw [matchUsage, hfind]
    exact ⟨.refl _, p, rfl, hfind⟩

/-- Matching adds entries until each usage has its place. -/
theorem foldl_matchUsage_places (us : List Usage) (acc : Ledger × List Nat) :
    acc.1.GrowsTo (us.foldl matchUsage acc).1 ∧
      ∃ places, (us.foldl matchUsage acc).2 = acc.2 ++ places ∧
        PlacedAt (us.foldl matchUsage acc).1 us places := by
  induction us generalizing acc with
  | nil => exact ⟨.refl _, [], (List.append_nil _).symm, .nil⟩
  | cons u us ih =>
    obtain ⟨hgrows, p, hp, hfind⟩ := matchUsage_places acc u
    obtain ⟨hrest, places, hplaces, hall⟩ := ih (matchUsage acc u)
    refine ⟨hgrows.trans hrest, p :: places, ?_, .cons (hrest.findAt? hfind) hall⟩
    rw [List.foldl_cons, hplaces, hp, List.append_assoc, List.singleton_append]

theorem matchAll_places (parent sub : Ledger) :
    parent.GrowsTo (matchAll parent sub).1 ∧
      PlacedAt (matchAll parent sub).1 sub.usages (matchAll parent sub).2 := by
  obtain ⟨hgrows, places, hplaces, hall⟩ := foldl_matchUsage_places sub.usages (parent, [])
  rw [List.nil_append] at hplaces
  rw [← hplaces] at hall
  exact ⟨hgrows, hall⟩

/-- Where all usages have their places nothing is added. -/
theorem foldl_matchUsage_of_places (h : PlacedAt l us places) (before : List Nat) :
    us.foldl matchUsage (l, before) = (l, before ++ places) := by
  induction h generalizing before with
  | nil => rw [List.foldl_nil, List.append_nil]
  | @cons u p us places hp _ ih =>
    have hstep : matchUsage (l, before) u = (l, before ++ [p]) := by rw [matchUsage, hp]
    rw [List.foldl_cons, hstep, ih, List.append_assoc, List.singleton_append]

/-- Whether a usage stands for an object that is not in a ledger. -/
def IsNew (l : Ledger) (u : Usage) : Prop := ∀ v ∈ l.usages, ¬Matches v u

instance (l : Ledger) (u : Usage) : Decidable (IsNew l u) :=
  inferInstanceAs (Decidable (∀ v ∈ l.usages, ¬Matches v u))

/-- Of usages of different objects just those that are new are added, in their order. -/
theorem usages_foldl_matchUsage (hus : us.Pairwise fun u v => ¬Matches u v)
    (acc : Ledger × List Nat) :
    (us.foldl matchUsage acc).1.usages = acc.1.usages ++
      (us.filter (IsNew acc.1)).map Usage.bare := by
  induction us generalizing acc with
  | nil => rw [List.foldl_nil, List.filter_nil, List.map_nil, List.append_nil]
  | cons u us ih =>
    obtain ⟨hu, hus⟩ := List.pairwise_cons.1 hus
    rw [List.foldl_cons, ih hus]
    by_cases hnew : IsNew acc.1 u
    · have hadd : (matchUsage acc u).1 = acc.1.add u.bare := by
        rw [matchUsage, findAt?_eq_none_iff.2 hnew]
      have hadded : (acc.1.add u.bare).usages = acc.1.usages ++ [u.bare] := by simp [usages, add]
      -- the entry that is added stands for none of the other usages
      have hsame : us.filter (IsNew (acc.1.add u.bare)) = us.filter (IsNew acc.1) := by
        apply List.filter_congr
        intro w hw
        have hno : ¬Matches u.bare w := fun h => hu w hw ⟨h.rootPage, h.name⟩
        have hiff : IsNew (acc.1.add u.bare) w ↔ IsNew acc.1 w := by
          simp [IsNew, hadded, or_imp, forall_and, hno]
        exact decide_eq_decide.2 hiff
      rw [hadd, hadded, hsame, List.filter_cons_of_pos (by simpa using hnew), List.map_cons,
        List.append_assoc, List.singleton_append]
    · have hsame : (matchUsage acc u).1 = acc.1 := by
        rcases hfind : acc.1.findAt? u.name u.rootPage with _ | p
        · exact absurd (findAt?_eq_none_iff.1 hfind) hnew
        · rw [matchUsage, hfind]
      rw [hsame, List.filter_cons_of_neg (by simpa using hnew)]

/-! ## Owners -/

@[simp] theorem usage?_adoptOwner (sub : Ledger) (places : List Nat) (l : Ledger) (i id : Nat) :
    (adoptOwner sub places l i).usage? id = l.usage? id := by
  rw [adoptOwner]
  split
  · split
    · rw [usage?_setOwner]
    · rfl
  · rfl

theorem growsTo_adoptOwner (sub : Ledger) (places : List Nat) (l : Ledger) (i : Nat) :
    l.GrowsTo (adoptOwner sub places l i) := by
  rw [adoptOwner]
  split
  · split
    · next hnone => exact growsTo_setOwner (Option.isNone_iff_eq_none.1 hnone) _
    · exact .refl l
  · exact .refl l

theorem usage?_adoptOwners (l sub : Ledger) (places : List Nat) (id : Nat) :
    (adoptOwners l sub places).usage? id = l.usage? id := by
  rw [adoptOwners]
  generalize List.range sub.size = is
  induction is generalizing l with
  | nil => rfl
  | cons i is ih => rw [List.foldl_cons, ih, usage?_adoptOwner]

theorem growsTo_adoptOwners (l sub : Ledger) (places : List Nat) :
    l.GrowsTo (adoptOwners l sub places) :=
  growsTo_foldl (growsTo_adoptOwner sub places) _ l

/-- Whether the entry of a usage has an owner, if the usage has one whose place is known. -/
def Settled (sub : Ledger) (places : List Nat) (l : Ledger) (i : Nat) : Prop :=
  ∀ p q, places[i]? = some p → (sub.owner? i).bind (places[·]?) = some q →
    (l.owner? p).isSome = true

theorem Settled.of_growsTo (h : Settled sub places l i) (hk : l.GrowsTo k) :
    Settled sub places k i := by
  intro p q hp hq
  obtain ⟨t, ht⟩ := Option.isSome_iff_exists.1 (h p q hp hq)
  rw [hk.owner ht]
  rfl

theorem Settled.adoptOwner_eq (h : Settled sub places l i) : adoptOwner sub places l i = l := by
  rw [adoptOwner]
  split
  · next p q hp hq =>
    rw [if_neg]
    rw [Option.isNone_iff_eq_none, ← ne_eq, Option.ne_none_iff_isSome]
    exact h p q hp hq
  · rfl

theorem settled_adoptOwner (hplaces : ∀ p ∈ places, p < l.size) (i : Nat) :
    Settled sub places (adoptOwner sub places l i) i := by
  intro p q hp hq
  rw [adoptOwner, hp, hq]
  dsimp only
  split
  · rw [owner?_setOwner, if_pos ⟨rfl, hplaces p (List.mem_of_getElem? hp)⟩]
    rfl
  · next hsome =>
    rw [Option.isNone_iff_eq_none, ← ne_eq, Option.ne_none_iff_isSome] at hsome
    exact hsome

theorem settled_adoptOwners (hplaces : ∀ p ∈ places, p < l.size) :
    ∀ i ∈ List.range sub.size, Settled sub places (adoptOwners l sub places) i := by
  rw [adoptOwners]
  generalize List.range sub.size = is
  induction is generalizing l with
  | nil => exact fun i hi => absurd hi List.not_mem_nil
  | cons j is ih =>
    have hsize : (adoptOwner sub places l j).size = l.size :=
      size_of_identities_eq (identities_congr fun id => by rw [usage?_adoptOwner])
    intro i hi
    rw [List.foldl_cons]
    rcases List.mem_cons.1 hi with rfl | hi
    · exact (settled_adoptOwner hplaces i).of_growsTo
        (growsTo_foldl (growsTo_adoptOwner sub places) is _)
    · exact ih (by rwa [hsize]) i hi

theorem adoptOwners_eq_self (h : ∀ i ∈ List.range sub.size, Settled sub places l i) :
    adoptOwners l sub places = l := by
  rw [adoptOwners]
  generalize List.range sub.size = is at h
  induction is with
  | nil => rfl
  | cons i is ih =>
    rw [List.foldl_cons, (h i (List.mem_cons_self ..)).adoptOwner_eq]
    exact ih fun j hj => h j (List.mem_cons_of_mem _ hj)

/-! ## Findings -/

/-- Adds the findings of usages at their places, from left to right. -/
def addAll (names : List (Int × String)) (l : Ledger) (pairs : List (Usage × Nat)) : Ledger :=
  pairs.foldl (fun l found => l.modify found.2 (addFindings l names found.1)) l

theorem growsTo_addAll (names : List (Int × String)) (l : Ledger) (pairs : List (Usage × Nat)) :
    l.GrowsTo (addAll names l pairs) := by
  apply growsTo_foldl
  intro l found
  exact growsTo_modify (growsTo_addFindings l names found.1) l found.2

theorem skeleton_addAll (names : List (Int × String)) (l : Ledger) (pairs : List (Usage × Nat)) :
    (addAll names l pairs).skeleton = l.skeleton :=
  (foldl_addFindings names pairs rfl).1

theorem usage?_addAll_of_notMem (h : p ∉ pairs.map Prod.snd) (l : Ledger) :
    (addAll names l pairs).usage? p = l.usage? p := by
  induction pairs generalizing l with
  | nil => rfl
  | cons pair pairs ih =>
    rw [List.map_cons, List.mem_cons, not_or] at h
    rw [addAll, List.foldl_cons]
    exact (ih h.2 _).trans (by rw [usage?_modify, if_neg h.1])

/-- At different places each entry gets the findings of one usage. -/
theorem usage?_addAll_of_mem {base : Ledger} (hbase : l.skeleton = base.skeleton)
    (hplaces : (pairs.map Prod.snd).Nodup) (hmem : (u, p) ∈ pairs) (hv : l.usage? p = some v) :
    (addAll names l pairs).usage? p = some (addFindings base names u v) := by
  induction pairs generalizing l with
  | nil => cases hmem
  | cons pair pairs ih =>
    obtain ⟨hnot, hplaces⟩ := List.nodup_cons.1 hplaces
    have hadds := adds_addFindings base names pair.1
    rw [addAll, List.foldl_cons, addFindings_congr hbase]
    rcases List.mem_cons.1 hmem with rfl | hmem
    · refine (usage?_addAll_of_notMem hnot _).trans ?_
      rw [usage?_modify, if_pos rfl, hv, Option.map_some]
    · have hne : p ≠ pair.2 := fun hp => hnot (hp ▸ List.mem_map_of_mem hmem)
      refine ih ((skeleton_modify l _ hadds.bare).trans hbase) hplaces hmem ?_
      rw [usage?_modify, if_neg hne, hv]

theorem addAll_eq_self (h : ∀ u p v, (u, p) ∈ pairs → l.usage? p = some v →
    ∀ f, u.Has f → v.Has (f.inParent l names)) : addAll names l pairs = l := by
  induction pairs with
  | nil => rfl
  | cons pair pairs ih =>
    have hsame : l.modify pair.2 (addFindings l names pair.1) = l := by
      apply modify_eq_self
      intro v hv
      exact addFindings_eq_self (h pair.1 pair.2 v (List.mem_cons_self ..) hv)
    rw [addAll, List.foldl_cons, hsame]
    exact ih fun u p v hmem => h u p v (List.mem_cons_of_mem _ hmem)

end Merge

namespace Ledger

open Merge

variable {parent sub : Ledger} {id : Nat} {u v : Usage}

/-! ## The whole merge -/

/-- The ledger of the enclosing statement after its entries have been matched and given owners. -/
def owned (parent sub : Ledger) : Ledger :=
  adoptOwners (matchAll parent sub).1 sub (matchAll parent sub).2

theorem merge_eq (parent sub : Ledger) : parent.merge sub =
    addAll (cursorNames sub) (owned parent sub) (sub.usages.zip (matchAll parent sub).2) := rfl

theorem usage?_owned (parent sub : Ledger) (id : Nat) :
    (owned parent sub).usage? id = (matchAll parent sub).1.usage? id :=
  usage?_adoptOwners _ _ _ _

theorem skeleton_merge (parent sub : Ledger) :
    (parent.merge sub).skeleton = (owned parent sub).skeleton :=
  skeleton_addAll _ _ _

theorem identities_merge_eq (parent sub : Ledger) :
    (parent.merge sub).identities = (matchAll parent sub).1.identities :=
  (identities_of_skeleton_eq (skeleton_merge parent sub)).trans
    (identities_congr fun id => by rw [usage?_owned])

/-- The enclosing statement keeps all it has. -/
theorem merge_growsTo (parent sub : Ledger) : parent.GrowsTo (parent.merge sub) :=
  ((matchAll_places parent sub).1.trans (growsTo_adoptOwners _ _ _)).trans (growsTo_addAll _ _ _)

/-- Where a merge has put the usages of the sub-select. -/
theorem merge_places (parent sub : Ledger) :
    PlacedAt (parent.merge sub) sub.usages (matchAll parent sub).2 :=
  (matchAll_places parent sub).2.congr (identities_merge_eq parent sub)

/-- A merge that is repeated changes nothing. -/
theorem merge_merge (parent sub : Ledger) : (parent.merge sub).merge sub = parent.merge sub := by
  have hmatch : matchAll (parent.merge sub) sub = (parent.merge sub, (matchAll parent sub).2) := by
    rw [matchAll, foldl_matchUsage_of_places (merge_places parent sub), List.nil_append]
  have howned : owned (parent.merge sub) sub = parent.merge sub := by
    rw [owned, hmatch]
    apply adoptOwners_eq_self
    intro i hi
    exact (settled_adoptOwners (fun p hp => (matchAll_places parent sub).2.lt_size hp) i
      hi).of_growsTo
      (growsTo_addAll _ _ _)
  rw [merge_eq (parent.merge sub) sub, howned, hmatch]
  apply addAll_eq_self
  intro u p w hmem hw f hf
  obtain ⟨-, hhas⟩ := foldl_addFindings (cursorNames sub) (sub.usages.zip (matchAll parent sub).2)
    (rfl : (owned parent sub).skeleton = (owned parent sub).skeleton)
  obtain ⟨v, -, hw⟩ := hhas hw
  refine (hw _).2 (.inr ⟨u, hmem, f, hf, ?_⟩)
  exact inParent_of_skeleton_eq (skeleton_merge parent sub) f

theorem usages_matchAll (hsub : sub.usages.Pairwise fun u v => ¬Matches u v) :
    (matchAll parent sub).1.usages = parent.usages ++
      (sub.usages.filter (IsNew parent)).map Usage.bare :=
  usages_foldl_matchUsage hsub (parent, [])

/-- Until findings are added, an entry is what it was, or is new and has nothing. -/
theorem usage?_matchAll (hsub : sub.usages.Pairwise fun u v => ¬Matches u v) (hu : u ∈ sub.usages)
    (hid : (matchAll parent sub).1.findAt? u.name u.rootPage = some id) :
    (matchAll parent sub).1.usage? id = some ((parent.usage? id).getD u.bare) := by
  obtain ⟨v, hv, hpage, hname⟩ := findAt?_eq_some hid
  rw [hv]
  rcases hparent : parent.usage? id with _ | w
  · have hge : parent.usages.length ≤ id := by rw [length_usages, ← usage?_eq_none_iff, hparent]
    rw [← usages_getElem?, usages_matchAll hsub, List.getElem?_append_right hge] at hv
    obtain ⟨w, hw, rfl⟩ := List.mem_map.1 (List.mem_of_getElem? hv)
    have hwu : Matches w u := ⟨hpage, hname⟩
    -- another usage would stand for another object
    by_cases hwu' : w = u
    · rw [hwu', Option.getD_none]
    · exact absurd hwu (List.Pairwise.forall hsub (List.mem_of_mem_filter hw) hu hwu')
  · have hlt : id < parent.usages.length := by rw [length_usages]; exact lt_size_of_usage? hparent
    rw [← usages_getElem?, usages_matchAll hsub, List.getElem?_append_left hlt,
      usages_getElem?, hparent] at hv
    rw [Option.getD_some, hv]

/-- What a merge makes of a ledger when no two usages of the sub-select stand for one object. -/
structure OrderedUnion (parent sub merged : Ledger) : Prop where
  /-- The enclosing statement keeps its entries, their owners, and the order of what they have. -/
  grows : parent.GrowsTo merged
  /-- What is new is appended in the order of the sub-select. -/
  identities : merged.identities = parent.identities ++
    (sub.usages.filter (IsNew parent)).map Usage.bare
  /-- Each usage of the sub-select has an entry that gains what it lacks, and nothing else. -/
  gains : ∀ u ∈ sub.usages, ∃ id v, merged.findAt? u.name u.rootPage = some id ∧
    merged.usage? id = some v ∧
    ((parent.usage? id).getD u.bare).Gains u v
  /-- An entry that is found for no usage of the sub-select stays as it is. -/
  untouched : ∀ {id v}, parent.usage? id = some v →
    (∀ u ∈ sub.usages, parent.findAt? u.name u.rootPage ≠ some id) → merged.usage? id = some v
  /-- To merge the sub-select again changes nothing. -/
  again : merged.merge sub = merged

theorem merge_orderedUnion (hsub : sub.usages.Pairwise fun u v => ¬Matches u v) :
    OrderedUnion parent sub (parent.merge sub) := by
  obtain ⟨hgrows, hplaces⟩ := matchAll_places parent sub
  have hsnd : (sub.usages.zip (matchAll parent sub).2).map Prod.snd = (matchAll parent sub).2 :=
    List.map_snd_zip (Nat.le_of_eq hplaces.length_eq.symm)
  refine ⟨merge_growsTo parent sub, ?_, fun u hu => ?_, fun {id v} hv hno => ?_,
    merge_merge parent sub⟩
  · rw [identities_merge_eq, Ledger.identities, usages_matchAll hsub, List.map_append, List.map_map]
    rfl
  · obtain ⟨id, hmem, hid⟩ := PlacedAt.exists_place hplaces hu
    have hnodup : ((sub.usages.zip (matchAll parent sub).2).map Prod.snd).Nodup := by
      rw [hsnd]
      exact PlacedAt.nodup hplaces hsub
    refine ⟨id, _, ?_, ?_, gains_addFindings (owned parent sub) (cursorNames sub) u _⟩
    · rw [findAt?_congr (identities_merge_eq parent sub), hid]
    · have hv := usage?_matchAll hsub hu hid
      rw [← usage?_owned] at hv
      exact usage?_addAll_of_mem rfl hnodup hmem hv
  · have hnot : id ∉ (sub.usages.zip (matchAll parent sub).2).map Prod.snd := by
      rw [hsnd]
      intro hmem
      obtain ⟨u, hu, hid⟩ := PlacedAt.exists_mem hplaces hmem
      exact hno u hu (hgrows.findAt?_of_lt hid (lt_size_of_usage? hv))
    rw [merge_eq, usage?_addAll_of_notMem hnot, usage?_owned]
    obtain ⟨w, hw, -⟩ := hgrows.usage hv
    rcases usage?_foldl_matchUsage sub.usages (parent, []) hw with hold | ⟨hge, -⟩
    · obtain rfl := Option.some.inj (hv.symm.trans hold)
      exact hw
    · exact absurd hge (Nat.not_le_of_lt (lt_size_of_usage? hv))

end Ledger

end IndexAdvisor
