import IndexAdvisor.Proofs.Ledger.Everywhere

/-!
# Indexes in use were opened

A usage names indexes in two ways: an index names itself, and a table names the indexes that are in
use on it. A scan takes these names from the objects that it opens and from nowhere else
(`everywhere_scan_names`), whatever the schema knows besides.
-/

namespace IndexAdvisor

/-- Whether an instruction opens the index of a name. -/
def Instr.OpensIndex (schema : Schema) (name : String) (i : Instr) : Prop :=
  i.opcode = .openObject ∧ ∃ object cursor, Ledger.opened? schema i = some (object, cursor) ∧
    object.kind = .index ∧ object.name = name

namespace Ledger

variable {schema : Schema} {Opened : String → Prop} {l : Ledger} {id : Nat} {u : Usage}
  {object : SchemaObject}

/-- All indexes that a usage names have been opened. -/
structure NamesOpened (Opened : String → Prop) (u : Usage) : Prop where
  self : u.isIndex = true → Opened u.name
  uses : ∀ use ∈ u.indexes.toList, Opened use.index

theorem NamesOpened.addIndex {use : IndexUse} (h : NamesOpened Opened u) (huse : Opened use.index) :
    NamesOpened Opened (u.addIndex use) where
  self := h.self
  uses other hother := by
    rcases OrderedSet.mem_insert.1 hother with hother | rfl
    · exact h.uses other hother
    · exact huse

/-- A usage that nothing is noted for names at most itself. -/
theorem namesOpened_of_bare (hu : u.bare = u) (hself : u.isIndex = true → Opened u.name) :
    NamesOpened Opened u where
  self := hself
  uses use huse := absurd huse (hu ▸ u.not_has_bare (.index use))

theorem link_namesOpened (h : Everywhere (NamesOpened Opened) l) (schema : Schema)
    (hu : l.usage? id = some u) (hindex : u.isIndex = true) :
    Everywhere (NamesOpened Opened) (l.link schema id).1 := by
  have hopened : Opened u.name := (h id u hu).self hindex
  have hattach {k : Ledger} (hk : Everywhere (NamesOpened Opened) k) (t : Nat) :
      Everywhere (NamesOpened Opened)
      ((k.setOwner id t).modify t (·.addIndex ⟨u.cursor, u.name⟩)) := by
    apply (hk.setOwner id t).modify
    intro v hv
    exact hv.addIndex hopened
  rw [link, hu]
  dsimp only
  split
  · exact hattach h _
  · split
    · exact h
    · apply hattach (h.add _)
      apply namesOpened_of_bare rfl
      intro hself
      cases hself

theorem place_namesOpened (h : Everywhere (NamesOpened Opened) l) (schema : Schema) (cursor : Int)
    (hobject : object.kind = .index → Opened object.name) :
    Everywhere (NamesOpened Opened) (l.place schema object cursor).1 := by
  unfold place
  extract_lets placed
  have hplaced : Everywhere (NamesOpened Opened) placed.1 ∧
      ∃ u, placed.1.usage? placed.2 = some u ∧ u.kind = object.kind := by
    unfold placed
    split
    · next id hid =>
      obtain ⟨u, hu, hof⟩ := find?_eq_some hid
      constructor
      · apply h.modify
        intro v hv
        exact ⟨hv.self, hv.uses⟩
      · refine ⟨{ u with cursor }, ?_, (Usage.isOf_iff.1 hof).1⟩
        rw [usage?_modify, if_pos rfl, hu, Option.map_some]
    · constructor
      · apply h.add
        apply namesOpened_of_bare rfl
        intro hindex
        exact hobject (Usage.isIndex_iff.1 hindex)
      · exact ⟨_, by rw [usage?_add, if_pos rfl], rfl⟩
  clear_value placed
  obtain ⟨hnames, u, hu, hkind⟩ := hplaced
  split
  · exact hnames
  · next hindex =>
      exact link_namesOpened hnames schema hu (Usage.isIndex_iff.2 (hkind.trans hindex))

/-- A scan names indexes that the program opens, and no others. -/
theorem everywhere_scan_names (schema : Schema) (program : Program) :
    Everywhere (NamesOpened fun name => ∃ i ∈ program.instrs, i.OpensIndex schema name)
      (Openings.scan .empty schema program).1 := by
  refine Openings.scan_induction (P := Everywhere _) (everywhere_empty _) ?_
  intro r hr k hk
  apply place_namesOpened hk
  intro hkind
  obtain ⟨entry, hentry, hr⟩ := List.mem_filterMap.1 hr
  rw [Openings.request?] at hr
  split at hr
  · next hopcode =>
    obtain ⟨⟨object, cursor⟩, hopened, rfl⟩ := Option.map_eq_some_iff.1 hr
    exact ⟨entry.1, List.fst_mem_of_mem_zipIdx hentry, beq_iff_eq.1 hopcode, object, cursor,
      hopened, hkind, rfl⟩
  · cases hr

end Ledger

end IndexAdvisor
