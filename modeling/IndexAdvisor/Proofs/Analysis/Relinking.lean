import IndexAdvisor.Proofs.Analysis.Reached
import IndexAdvisor.Proofs.Ledger.Relinking

/-!
# No merge of an analysis depends on an order

The search that matches a usage with an entry looks at the name and the page and not at the kind.
What it takes for one object might be two, then: a table and an index that share their name, or two
tables of one name. Neither happens in what is read from a program, and this needs nothing from the
schema. A usage is one of a table just if a table stands on its page (`Usage.KindOfPage`), so usages
of one page are of one kind; and a program enters no two usages of one name and kind (`Singular`).
Hence readings are apart, merges keep them apart, and owners may be given in any order
(`merges_are_orderless`).

`ReachedInOrder` is what an analysis comes to if every merge on the way takes an order of its own.
-/

namespace IndexAdvisor

/-! ## One usage of a name and a kind -/

/-- A usage is one of a table just if a table of the schema stands on its page. -/
def Usage.KindOfPage (schema : Schema) (u : Usage) : Prop :=
  u.kind = .table ↔ ∃ t ∈ schema.tables, t.rootPage = u.rootPage

theorem Usage.KindOfPage.kind_eq {schema : Schema} {u v : Usage} (hu : u.KindOfPage schema)
    (hv : v.KindOfPage schema) (hpage : u.rootPage = v.rootPage) : u.kind = v.kind := by
  have htable : u.kind = .table ↔ v.kind = .table := by
    rw [Usage.KindOfPage] at hu hv
    rw [hu, hv, hpage]
  rcases hku : u.kind with _ | _
  · exact (htable.1 hku).symm
  · rcases hkv : v.kind with _ | _
    · rw [htable.2 hkv] at hku
      cases hku
    · rfl

namespace Ledger

variable {schema : Schema} {l : Ledger} {id t : Nat} {u : Usage} {object : SchemaObject}

/-- The kind of every usage is that of its page, and no two usages have one name and kind. -/
structure Singular (schema : Schema) (l : Ledger) : Prop where
  kind : Everywhere (Usage.KindOfPage schema) l
  unique : ∀ {i j u v}, l.usage? i = some u → l.usage? j = some v → u.kind = v.kind →
    sameName u.name v.name = true → i = j

theorem empty_singular (schema : Schema) : Singular schema empty := by
  refine ⟨everywhere_empty _, ?_⟩
  intro i j u v hu
  rw [usage?_empty] at hu
  cases hu

theorem Singular.add (h : Singular schema l) (hkind : u.KindOfPage schema)
    (hnone : l.find? u.name u.kind = none) :
    Singular schema (l.add u) where
  kind := h.kind.add hkind
  unique {i j v w} hv hw hsame hname := by
    have hfresh {k : Nat} {x : Usage} (hx : l.usage? k = some x) (hk : x.kind = u.kind) :
        sameName x.name u.name = false := by
      have hno := find?_eq_none hnone hx
      rw [Usage.isOf, hk] at hno
      simpa using hno
    rw [usage?_add] at hv hw
    split at hv <;> split at hw
    · next hi hj => rw [hi, hj]
    · obtain rfl := Option.some.inj hv
      rw [sameName_comm, hfresh hw hsame.symm] at hname
      cases hname
    · obtain rfl := Option.some.inj hw
      rw [hfresh hv hsame] at hname
      cases hname
    · exact h.unique hv hw hsame hname

/-- What leaves kinds, names and pages as they are may be changed. -/
theorem Singular.modify (h : Singular schema l) (id : Nat) {change : Usage → Usage}
    (hkind : ∀ u, (change u).kind = u.kind) (hname : ∀ u, (change u).name = u.name)
    (hpage : ∀ u, (change u).rootPage = u.rootPage) : Singular schema (l.modify id change) where
  kind := by
    apply h.kind.modify
    intro u hu
    rw [Usage.KindOfPage, hkind, hpage]
    exact hu
  unique {i j v w} hv hw hsame hsameName := by
    have hback {k : Nat} {x : Usage} (hx : (l.modify id change).usage? k = some x) :
        ∃ y, l.usage? k = some y ∧ x.kind = y.kind ∧ x.name = y.name := by
      rw [usage?_modify] at hx
      split at hx
      · obtain ⟨y, hy, rfl⟩ := Option.map_eq_some_iff.1 hx
        exact ⟨y, hy, hkind y, hname y⟩
      · exact ⟨x, hx, rfl, rfl⟩
    obtain ⟨v', hv', hkv, hnv⟩ := hback hv
    obtain ⟨w', hw', hkw, hnw⟩ := hback hw
    rw [hkv, hkw] at hsame
    rw [hnv, hnw] at hsameName
    exact h.unique hv' hw' hsame hsameName

theorem Singular.setOwner (h : Singular schema l) (id t : Nat) :
    Singular schema (l.setOwner id t) where
  kind := h.kind.setOwner id t
  unique hv hw := by
    rw [usage?_setOwner] at hv hw
    exact h.unique hv hw

theorem Singular.link (h : Singular schema l) (id : Nat) :
    Singular schema (l.link schema id).1 := by
  have hattach {k : Ledger} (hk : Singular schema k) (t : Nat) (use : IndexUse) :
      Singular schema ((k.setOwner id t).modify t (·.addIndex use)) :=
    (hk.setOwner id t).modify t (fun _ => rfl) (fun _ => rfl) fun _ => rfl
  unfold Ledger.link
  split
  · exact h
  · dsimp only
    split
    · exact hattach h _ _
    · next hnone =>
      split
      · exact h
      · next page hpage =>
        obtain ⟨t, ht, htpage⟩ := Option.map_eq_some_iff.1 hpage
        refine hattach (h.add ?_ hnone) _ _
        exact iff_of_true rfl ⟨t, List.mem_of_find?_eq_some ht, htpage⟩

/-- A page that leads to an object tells its kind. -/
theorem kindOfPage_of_objectAt? {page : Nat} (hobject : schema.objectAt? page = some object)
    (cursor : Int) :
    Usage.KindOfPage schema
      { cursor, rootPage := object.rootPage, kind := object.kind, name := object.name,
        table := object.table } := by
  rcases Schema.objectAt?_cases hobject with ⟨t, ht, htpage, rfl⟩ | ⟨hno, i, -, -, rfl⟩
  · exact iff_of_true rfl ⟨t, ht, htpage⟩
  · refine iff_of_false (fun hkind => nomatch hkind) ?_
    rintro ⟨t, ht, htpage⟩
    exact hno t ht htpage

theorem Singular.place (h : Singular schema l) {page : Nat}
    (hobject : schema.objectAt? page = some object) (cursor : Int) :
    Singular schema (l.place schema object cursor).1 := by
  unfold Ledger.place
  extract_lets placed
  have hmoved (id : Nat) : Singular schema (l.modify id fun u => { u with cursor }) :=
    h.modify id (fun _ => rfl) (fun _ => rfl) fun _ => rfl
  have hplaced : Singular schema placed.1 := by
    unfold placed
    split
    · exact hmoved _
    · next hnone => exact h.add (kindOfPage_of_objectAt? hobject cursor) hnone
  split
  · exact hplaced
  · exact hplaced.link placed.2

/-- A program enters no two usages of one name and kind, whatever the schema is. -/
theorem scan_singular (schema : Schema) (program : Program) :
    Singular schema (Openings.scan .empty schema program).1 := by
  refine Openings.scan_induction (empty_singular schema) ?_
  intro r hr k hk
  obtain ⟨entry, -, hr⟩ := List.mem_filterMap.1 hr
  rw [Openings.request?] at hr
  split at hr
  · obtain ⟨⟨object, cursor⟩, hopened, rfl⟩ := Option.map_eq_some_iff.1 hr
    obtain ⟨-, page, hobject⟩ := of_opened? hopened
    exact hk.place hobject cursor
  · cases hr

/-- Of usages that have one name and one page there is one only. -/
theorem Singular.apart (h : Singular schema l) : l.Apart := by
  rw [Apart, List.pairwise_iff_getElem]
  intro i j hi hj hij huv
  have hu := usages_getElem? l i
  have hv := usages_getElem? l j
  rw [List.getElem?_eq_getElem hi] at hu
  rw [List.getElem?_eq_getElem hj] at hv
  have hkind := (h.kind i _ hu.symm).kind_eq (h.kind j _ hv.symm) huv.rootPage
  exact Nat.ne_of_lt hij (h.unique hu.symm hv.symm hkind huv.name)

end Ledger

namespace Analysis

variable {schema : Schema} {l parent sub : Ledger}

theorem read_apart (schema : Schema) (sql : String) (instrs : List Instr) :
    (read schema sql instrs).Apart :=
  (Ledger.scan_singular schema ⟨instrs⟩).apart.of_skeleton_eq (readInto_enters ..).skeleton_eq

/-! ## Merges with orders of their own -/

/-- A ledger that is read from one program, or merged from two such ledgers with owners given in any
order. -/
inductive ReachedInOrder (schema : Schema) : Ledger → Prop where
  | read (sql : String) (instrs : List Instr) : ReachedInOrder schema
    (Analysis.read schema sql instrs)
  | merge {parent sub : Ledger} {order : List Nat} (hparent : ReachedInOrder schema parent)
      (hsub : ReachedInOrder schema sub) (horder : order.Perm (List.range sub.size)) :
      ReachedInOrder schema (parent.mergeIn order sub)

theorem ReachedInOrder.apart (h : ReachedInOrder schema l) : l.Apart := by
  induction h with
  | read sql instrs => exact read_apart schema sql instrs
  | merge _ _ horder ihparent ihsub =>
    rw [Ledger.mergeIn_eq ihsub horder]
    exact ihparent.merge ihsub

/-- The orders lead to nothing else. -/
theorem reachedInOrder_iff : ReachedInOrder schema l ↔ Reached schema l := by
  constructor
  · intro h
    induction h with
    | read sql instrs => exact .read sql instrs
    | merge _ hsub horder ihparent ihsub =>
      rw [Ledger.mergeIn_eq hsub.apart horder]
      exact ihparent.merge ihsub
  · intro h
    induction h with
    | read sql instrs => exact .read sql instrs
    | merge _ _ ihparent ihsub =>
      rw [Ledger.merge_eq_mergeIn]
      exact ihparent.merge ihsub (List.Perm.refl _)

/-- Whatever the schema is: all that an analysis comes to is reached by merges with orders of their
own. In each such merge, every usage of the sub-select has a place, different usages have different
places, and what comes out is the same for all orders in which the usages are gone through to give
owners. -/
theorem merges_are_orderless (schema : Schema) :
    (∀ (explain : Explain) (depth : Nat) (sql : String) (instrs : List Instr),
      ReachedInOrder schema (readWithin schema explain depth sql instrs).1) ∧
    ∀ parent sub, ReachedInOrder schema parent → ReachedInOrder schema sub →
      (∀ i, i < sub.size → ∃ p, (Merge.matchAll parent sub).2[i]? = some p) ∧
      (∀ i j p : Nat, (Merge.matchAll parent sub).2[i]? = some p →
        (Merge.matchAll parent sub).2[j]? = some p → i = j) ∧
      ∀ order : List Nat, order.Perm (List.range sub.size) →
        parent.mergeIn order sub = parent.merge sub := by
  constructor
  · intro explain depth sql instrs
    exact reachedInOrder_iff.2 (readWithin_reached schema explain depth sql instrs)
  · intro parent sub _ hsub
    have hlength := Ledger.length_places parent sub
    have hnodup := hsub.apart.nodup_places parent
    refine ⟨fun i hi => ?_, fun i j p hi hj => ?_,
      fun order horder => Ledger.mergeIn_eq hsub.apart horder parent⟩
    · rw [← hlength] at hi
      exact ⟨_, List.getElem?_eq_getElem hi⟩
    · have hlt : i < (Merge.matchAll parent sub).2.length := (List.getElem?_eq_some_iff.1 hi).1
      exact (List.getElem?_inj hlt hnodup).1 (hi.trans hj.symm)

/-- A table, an index that has its name, and another index of it. The statement opens a table of its
own; its sub-select opens the first index, and the sub-select of that the second. In the last merge
two entries are in want of an owner. -/
theorem merges_are_orderless_namesake :
    let items : Table := { name := "items", rootPage := 2, columns := ["a", "b"] }
    let others : Table := { name := "others", rootPage := 5, columns := ["c"] }
    let namesake : Index := { name := "Items", table := "ITEMS", rootPage := 3, columns := ["a"] }
    let byB : Index := { name := "by_b", table := "items", rootPage := 4, columns := ["b"] }
    let schema : Schema := { tables := [items, others], indexes := [namesake, byB] }
    let opening (page : String) : Instr :=
      { address := 0, name := "OpenRead", p1 := some "1", p2 := some page }
    let outer := read schema "" [opening "5"]
    let middle := read schema "" [opening "3"]
    let inner := read schema "" [opening "4"]
    let sub := middle.mergeIn [1, 0] inner
    let merged := outer.mergeIn [2, 0, 1] sub
    (ReachedInOrder schema outer ∧ ReachedInOrder schema sub) ∧
      sub.usages.map Usage.name = ["Items", "ITEMS", "by_b"] ∧
      (merged.usages.map Usage.name = ["others", "Items", "ITEMS", "by_b"] ∧
        merged.owner? 1 = some 2 ∧
        merged.owner? 3 = some 2) ∧
      outer.mergeIn [2, 0, 1] sub = outer.merge sub := by
  intro items others namesake byB schema opening outer middle inner sub merged
  have hinner : [1, 0].Perm (List.range inner.size) := by decide +kernel
  have hsub : ReachedInOrder schema sub := .merge (.read _ _) (.read _ _) hinner
  have hmerged := (merges_are_orderless schema).2 outer sub (.read _ _) hsub
  refine ⟨⟨.read _ _, hsub⟩, by decide +kernel, by decide +kernel, hmerged.2.2 _ ?_⟩
  decide +kernel

end Analysis

end IndexAdvisor
