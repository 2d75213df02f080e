import IndexAdvisor.Proofs.Ledger.Continuing
import Mathlib.Data.List.Induction

/-!
# Opening everything again

Opening an object leads to a ledger that has followed the opening (`place_places`), and stays so
while more is opened. A program that is scanned once more finds all that it opens there and attached
already, so that all it does is to move entries (`place_of_followed`); and as each entry is moved
last to where the first scan has left it, a second scan changes nothing: `scan_scan`.
-/

namespace IndexAdvisor

namespace Ledger

variable {schema : Schema} {l k m : Ledger} {id t : Nat} {u : Usage} {cursor : Int} {name : String}
  {kind : ObjectKind} {object : SchemaObject}

/-! ## The first time -/

/-- Every entry stays under its cursor. -/
def KeepsCursors (l k : Ledger) : Prop :=
  ∀ j u, l.usage? j = some u → ∃ v, k.usage? j = some v ∧ v.cursor = u.cursor

theorem KeepsCursors.trans (hlk : l.KeepsCursors k) (hkm : k.KeepsCursors m) :
    l.KeepsCursors m := by
  intro j u hu
  obtain ⟨v, hv, hvu⟩ := hlk j u hu
  obtain ⟨w, hw, hwv⟩ := hkm j v hv
  exact ⟨w, hw, hwv.trans hvu⟩

theorem find?_add_self (hnone : l.find? name kind = none) (hof : u.isOf name kind = true) :
    (l.add u).find? name kind = some l.size := by
  rw [find?_eq_some_iff]
  refine ⟨⟨u, by rw [usage?_add, if_pos rfl], hof⟩, fun j v hj hv => ?_⟩
  rw [usage?_add, if_neg (Nat.ne_of_lt hj)] at hv
  exact find?_eq_none hnone hv

/-- The entry of a table takes note of an index as its owner. -/
theorem attach_attached (schema : Schema) (hu : l.usage? id = some u)
    (ht : l.find? u.table .table = some t) :
    Continues schema l ((l.setOwner id t).modify t (·.addIndex ⟨u.cursor, u.name⟩)) ∧
      l.KeepsCursors ((l.setOwner id t).modify t (·.addIndex ⟨u.cursor, u.name⟩)) ∧
      Attached schema ((l.setOwner id t).modify t (·.addIndex ⟨u.cursor, u.name⟩)) id u.cursor := by
  have hadds := Usage.adds_addIndex ⟨u.cursor, u.name⟩
  have hcontinues : Continues schema l
      ((l.setOwner id t).modify t (·.addIndex ⟨u.cursor, u.name⟩)) := by
    apply (continues_setOwner schema hu ht).trans
    apply continues_modify
    · intro v
      exact ⟨rfl, rfl, rfl⟩
    · intro v f hf
      exact hadds.mono v hf
  have husage (j : Nat) : ((l.setOwner id t).modify t (·.addIndex ⟨u.cursor, u.name⟩)).usage? j =
      if j = t then (l.usage? j).map (·.addIndex ⟨u.cursor, u.name⟩) else l.usage? j := by
    rw [usage?_modify, usage?_setOwner]
  -- the name and the table of the index are what they were, so the same table is found for it
  refine ⟨hcontinues, ?_, ?_, ?_⟩
  · intro j v hv
    rw [husage, hv]
    by_cases hj : j = t
    · rw [if_pos hj]
      exact ⟨_, rfl, rfl⟩
    · rw [if_neg hj]
      exact ⟨v, rfl, rfl⟩
  · intro w s hw _ hs
    obtain ⟨w', hw', -, hname, htable, -⟩ := hcontinues.kept hu
    obtain rfl := Option.some.inj (hw'.symm.trans hw)
    rw [htable, hcontinues.find? ht] at hs
    obtain rfl := Option.some.inj hs
    constructor
    · rw [owner?_modify, owner?_setOwner, if_pos ⟨rfl, lt_size_of_usage? hu⟩]
    · obtain ⟨v, hv, -⟩ := find?_eq_some ht
      refine ⟨v.addIndex ⟨u.cursor, u.name⟩, ?_, ?_⟩
      · rw [husage, if_pos rfl, hv, Option.map_some]
      · rw [hname]
        exact (hadds.has v _).2 (.inr rfl)
  · intro w hw _ hnone
    obtain ⟨w', hw', -, -, htable, -⟩ := hcontinues.kept hu
    obtain rfl := Option.some.inj (hw'.symm.trans hw)
    rw [htable, hcontinues.find? ht] at hnone
    cases hnone

/-- Linking attaches an index to its table, if the schema knows it. -/
theorem link_attached (schema : Schema) (hu : l.usage? id = some u) :
    Continues schema l (l.link schema id).1 ∧ l.KeepsCursors (l.link schema id).1 ∧
      Attached schema (l.link schema id).1 id u.cursor := by
  rw [link, hu]
  dsimp only
  rcases hfind : l.find? u.table .table with _ | t
  · rcases hpage : schema.rootPageOf? u.table with _ | page
    · refine ⟨.refl schema l, fun j v hv => ⟨v, hv, rfl⟩, ?_, ?_⟩
      · intro w s hw _ hs
        obtain rfl := Option.some.inj (hu.symm.trans hw)
        rw [hfind] at hs
        cases hs
      · intro w hw _ _
        obtain rfl := Option.some.inj (hu.symm.trans hw)
        exact hpage
    · -- the table comes in with the index
      dsimp only
      generalize htable : Usage.mk (wrap (-u.cursor)) page .table u.table "" .empty .empty
          .empty .empty .empty
        .empty .empty "" .empty = table
      have hadd : Continues schema l (l.add table) := by
        apply continues_add
        intro _
        rw [← htable]
        exact Option.isSome_of_eq_some hpage
      have hcursors : l.KeepsCursors (l.add table) := by
        intro j v hv
        exact ⟨v, by rw [usage?_add, if_neg (Nat.ne_of_lt (lt_size_of_usage? hv)), hv], rfl⟩
      have hself : (l.add table).usage? id = some u := by
        rw [usage?_add, if_neg (Nat.ne_of_lt (lt_size_of_usage? hu)), hu]
      have hfound : (l.add table).find? u.table .table = some l.size := by
        apply find?_add_self hfind
        rw [← htable]
        exact Usage.isOf_iff.2 ⟨rfl, sameName_refl _⟩
      obtain ⟨hattach, hkeeps, hattached⟩ := attach_attached schema hself hfound
      exact ⟨hadd.trans hattach, hcursors.trans hkeeps, hattached⟩
  · exact attach_attached schema hu hfind

/-- The object has its entry at a place and under a cursor, and the other entries have not moved. -/
structure Places (schema : Schema) (l : Ledger) (object : SchemaObject) (cursor : Int) (k : Ledger)
    (id : Nat) : Prop where
  continues : Continues schema l k
  found : k.find? object.name object.kind = some id
  here : ∃ u, k.usage? id = some u ∧ u.cursor = cursor
  others : ∀ {j u}, j ≠ id → l.usage? j = some u → ∃ v, k.usage? j = some v ∧ v.cursor = u.cursor

theorem Places.keeps (h : Places schema l object cursor k id) (hm : Continues schema k m)
    (hcursors : k.KeepsCursors m) : Places schema l object cursor m id where
  continues := h.continues.trans hm
  found := hm.find? h.found
  here := by
    obtain ⟨u, hu, hcursor⟩ := h.here
    obtain ⟨v, hv, hvu⟩ := hcursors id u hu
    exact ⟨v, hv, hvu.trans hcursor⟩
  others hj hu := by
    obtain ⟨v, hv, hvu⟩ := h.others hj hu
    obtain ⟨w, hw, hwv⟩ := hcursors _ v hv
    exact ⟨w, hw, hwv.trans hvu⟩

/-- Moves the entry at a place to a cursor. -/
def move (l : Ledger) (id : Nat) (cursor : Int) : Ledger := l.modify id fun u => { u with cursor }

theorem continues_move (schema : Schema) (l : Ledger) (id : Nat) (cursor : Int) :
    Continues schema l (l.move id cursor) := by
  apply continues_modify
  · intro u
    exact ⟨rfl, rfl, rfl⟩
  · intro u f hf
    cases f <;> exact hf

/-- Placing an object leads to a ledger that has followed the opening. -/
theorem place_places (l : Ledger) (cursor : Int)
    (hknown : object.kind = .table → (schema.rootPageOf? object.name).isSome = true) :
    Places schema l object cursor (l.place schema object cursor).1
    (l.place schema object cursor).2 ∧
      Attached schema (l.place schema object cursor).1 (l.place schema object cursor).2 cursor := by
  unfold place
  extract_lets placed
  have hplaced : Places schema l object cursor placed.1 placed.2 := by
    unfold placed
    split
    · next id hid =>
      have hmove := continues_move schema l id cursor
      refine ⟨hmove, hmove.find? hid, ?_, ?_⟩
      · obtain ⟨u, hu, -⟩ := find?_eq_some hid
        exact ⟨{ u with cursor }, by rw [usage?_modify, if_pos rfl, hu, Option.map_some], rfl⟩
      · intro j u hj hu
        exact ⟨u, by rw [usage?_modify, if_neg hj, hu], rfl⟩
    · next hnone =>
      refine ⟨continues_add l hknown, ?_, ?_, ?_⟩
      · apply find?_add_self hnone
        exact Usage.isOf_iff.2 ⟨rfl, sameName_refl _⟩
      · exact ⟨_, by rw [usage?_add, if_pos rfl], rfl⟩
      · intro j u hj hu
        exact ⟨u, by rw [usage?_add, if_neg hj, hu], rfl⟩
  clear_value placed
  obtain ⟨u, hu, hcursor⟩ := hplaced.here
  split
  · next htable =>
    -- nothing is asked of the entry of a table
    refine ⟨hplaced, ?_⟩
    obtain ⟨v, hv, hof⟩ := find?_eq_some hplaced.found
    rw [htable] at hof
    have hno := Usage.isIndex_of_isOf_table hof
    constructor
    · intro w t hw hindex _
      obtain rfl := Option.some.inj (hv.symm.trans hw)
      rw [hno] at hindex
      cases hindex
    · intro w hw hindex _
      obtain rfl := Option.some.inj (hv.symm.trans hw)
      rw [hno] at hindex
      cases hindex
  · obtain ⟨hcontinues, hkeeps, hattached⟩ := link_attached schema hu
    rw [hcursor] at hattached
    exact ⟨hplaced.keeps hcontinues hkeeps, hattached⟩

/-! ## The second time -/

theorem find?_move (l : Ledger) (id : Nat) (cursor : Int) (name : String) (kind : ObjectKind) :
    (l.move id cursor).find? name kind = l.find? name kind := by
  -- the search looks at kinds and names only, and a move leaves these
  have hnames (es : List Entry) : es.findIdx? (·.usage.isOf name kind) =
      (es.map (·.usage.isOf name kind)).findIdx? fun b => b := by
    rw [List.findIdx?_map]
    rfl
  rw [find?, find?, hnames, hnames]
  congr 1
  apply List.ext_getElem?
  intro j
  rw [List.getElem?_map, List.getElem?_map, move, modify, List.getElem?_modify]
  rcases l.entries[j]? with _ | e
  · rfl
  · by_cases hj : id = j
    · simp only [if_pos hj, Option.map_eq_map, Option.map_some]
      rfl
    · simp only [if_neg hj, Option.map_eq_map, Option.map_some]

theorem setOwner_eq_self (h : l.owner? id = some t) : l.setOwner id t = l := by
  apply ext_entries
  · exact usage?_setOwner l id t
  · intro j
    rw [owner?_setOwner]
    split
    · next hj => rw [hj.1, h]
    · rfl

/-- An object that was followed is moved, and nothing else. -/
theorem place_of_followed (hid : l.find? object.name object.kind = some id)
    (h : Attached schema l id cursor) : l.place schema object cursor = (l.move id cursor, id) := by
  unfold place
  rw [hid]
  dsimp only
  rw [← move]
  obtain ⟨u, hu, hof⟩ := find?_eq_some hid
  split
  · rfl
  · next hindex =>
    rw [hindex] at hof
    have huindex : u.isIndex = true := Usage.isIndex_iff.2 (Usage.isOf_iff.1 hof).1
    have hmoved : (l.move id cursor).usage? id = some { u with cursor } := by
      rw [move, usage?_modify, if_pos rfl, hu, Option.map_some]
    rw [link, hmoved]
    dsimp only
    rw [find?_move]
    rcases hfind : l.find? u.table .table with _ | t
    · -- a table without entry is unknown, so there is nothing to link
      dsimp only
      rw [h.unknown hu huindex hfind]
    · -- the owner is set to what it is, and notes what it has noted
      dsimp only
      obtain ⟨howner, -⟩ := h.owner hu huindex hfind
      have hstill := h.continues (continues_move schema l id cursor) hu
      obtain ⟨-, v, hv, hnoted⟩ := hstill.owner hmoved huindex ((find?_move ..).trans hfind)
      have hkeep : (l.move id cursor).owner? id = some t := by rw [move, owner?_modify, howner]
      rw [setOwner_eq_self hkeep, modify_eq_self]
      intro w hw
      obtain rfl := Option.some.inj (hv.symm.trans hw)
      exact Usage.addIndex_eq_self hnoted

end Ledger

namespace Openings

open Ledger

variable {schema : Schema} {l : Ledger} {id : Nat}

/-! ## Scans -/

/-- An object that a program asks to open, under which cursor and where. -/
structure Request where
  object : SchemaObject
  cursor : Int
  position : Nat

/-- What an instruction asks to open. -/
def request? (schema : Schema) (entry : Instr × Nat) : Option Request :=
  if entry.1.opcode == .openObject then
    (opened? schema entry.1).map fun opened => ⟨opened.1, opened.2, entry.2⟩
  else none

/-- All that a program asks to open. -/
def requests (schema : Schema) (program : Program) : List Request :=
  program.instrs.zipIdx.filterMap (request? schema)

/-- Follows a request. -/
def grant (schema : Schema) (found : Ledger × Openings) (r : Request) : Ledger × Openings :=
  let placed := found.1.place schema r.object r.cursor
  (placed.1, found.2 ++ [⟨r.cursor, r.position, placed.2⟩])

/-- A scan follows the requests in order. -/
theorem scan_eq (l : Ledger) (schema : Schema) (program : Program) :
    scan l schema program = (requests schema program).foldl (grant schema) (l, []) := by
  rw [scan, Program.visit, requests, List.foldl_filterMap]
  congr 1
  funext found entry
  obtain ⟨k, openings⟩ := found
  rw [request?]
  dsimp only
  by_cases hopcode : (entry.1.opcode == .openObject) = true
  · rw [if_pos hopcode, if_pos hopcode]
    unfold openObject
    rcases hopened : opened? schema entry.1 with _ | ⟨object, cursor⟩
    · rfl
    · have hcursor := (of_opened? hopened).1
      rw [hcursor]
      rfl
  · rw [if_neg hopcode, if_neg hopcode]

/-- What the placing of every object that is asked for keeps, a scan keeps. -/
theorem scan_induction {P : Ledger → Prop} {program : Program} (hl : P l)
    (hplace : ∀ r ∈ requests schema program, ∀ k, P k → P (k.place schema r.object r.cursor).1) :
    P (scan l schema program).1 := by
  have hrun (rs : List Request) (hrs : ∀ r ∈ rs, r ∈ requests schema program)
      {found : Ledger × Openings}
      (hfound : P found.1) : P (rs.foldl (grant schema) found).1 := by
    induction rs generalizing found with
    | nil => exact hfound
    | cons r rs ih =>
      have hgranted := hplace r (hrs r (List.mem_cons_self ..)) found.1 hfound
      exact ih (fun q hq => hrs q (List.mem_cons_of_mem r hq)) hgranted
  rw [scan_eq]
  exact hrun _ (fun _ hr => hr) hl

theorem request?_known {entry : Instr × Nat} {r : Request} (h : request? schema entry = some r)
    (hkind : r.object.kind = .table) : (schema.rootPageOf? r.object.name).isSome = true := by
  rw [request?] at h
  split at h
  · obtain ⟨⟨object, cursor⟩, hopened, rfl⟩ := Option.map_eq_some_iff.1 h
    obtain ⟨-, page, hobject⟩ := of_opened? hopened
    rcases Schema.objectAt?_cases hobject with ⟨t, ht, -, rfl⟩ | ⟨-, i, -, -, rfl⟩
    · rw [Schema.rootPageOf?, Option.isSome_map, Schema.table?, List.find?_isSome]
      exact ⟨t, ht, sameName_refl t.name⟩
    · cases hkind
  · cases h

/-- The opening that a request has led to. -/
def openingIn (l : Ledger) (r : Request) : Option Opening :=
  (l.find? r.object.name r.object.kind).map (⟨r.cursor, r.position, ·⟩)

/-- The cursor an entry was opened under last. -/
def lastCursor? (openings : Openings) (id : Nat) : Option Int :=
  openings.foldl (fun last o => if o.id = id then some o.cursor else last) none

theorem lastCursor?_concat (openings : Openings) (o : Opening) (id : Nat) :
    lastCursor? (openings ++ [o]) id = if o.id = id then some o.cursor
      else lastCursor? openings id := by
  rw [lastCursor?, List.foldl_append]
  rfl

/-- What a scan has led to when some requests are followed: all of them are, the openings tell
where, and every entry that was opened is under the cursor it was opened under last. -/
structure Granted (schema : Schema) (done : List Request) (found : Ledger × Openings) : Prop where
  followed : ∀ r ∈ done, Followed schema found.1 r.object r.cursor
  openings : found.2 = done.filterMap (openingIn found.1)
  cursors : ∀ {id cursor}, lastCursor? found.2 id = some cursor →
    ∃ u, found.1.usage? id = some u ∧ u.cursor = cursor

theorem openingIn_continues {k : Ledger} {r : Request} (hk : Continues schema l k)
    (h : Followed schema l r.object r.cursor) : openingIn k r = openingIn l r := by
  obtain ⟨id, hid, -⟩ := h
  rw [openingIn, openingIn, hid, hk.find? hid]

theorem Granted.step {done : List Request} {found : Ledger × Openings} {r : Request}
    (h : Granted schema done found)
    (hknown : r.object.kind = .table → (schema.rootPageOf? r.object.name).isSome = true) :
    Granted schema (done ++ [r]) (grant schema found r) := by
  obtain ⟨l, openings⟩ := found
  rw [grant]
  dsimp only
  obtain ⟨hplaces, hattached⟩ := place_places l r.cursor hknown
  generalize l.place schema r.object r.cursor = placed at hplaces hattached
  obtain ⟨k, id⟩ := placed
  have hcontinues : Continues schema l k := hplaces.continues
  -- what was followed stays followed, so the earlier openings are read off the new ledger as before
  constructor
  · intro q hq
    rcases List.mem_append.1 hq with hq | hq
    · exact (h.followed q hq).continues hcontinues
    · obtain rfl := List.mem_singleton.1 hq
      exact ⟨id, hplaces.found, hattached⟩
  · have hearlier : done.filterMap (openingIn k) = done.filterMap (openingIn l) := by
      apply List.filterMap_congr
      intro q hq
      exact openingIn_continues hcontinues (h.followed q hq)
    have hthis : openingIn k r = some ⟨r.cursor, r.position, id⟩ := by
      rw [openingIn, hplaces.found, Option.map_some]
    rw [List.filterMap_append, hearlier, ← h.openings]
    simp only [List.filterMap_cons, hthis, List.filterMap_nil]
  · intro j cursor hlast
    rw [lastCursor?_concat] at hlast
    by_cases hj : id = j
    · rw [if_pos hj] at hlast
      obtain rfl := Option.some.inj hlast
      rw [← hj]
      exact hplaces.here
    · rw [if_neg hj] at hlast
      obtain ⟨u, hu, hcursor⟩ := h.cursors hlast
      obtain ⟨v, hv, hvu⟩ := hplaces.others (Ne.symm hj) hu
      exact ⟨v, hv, hvu.trans hcursor⟩

/-- A scan of a ledger without entries follows all requests. -/
theorem scan_granted (schema : Schema) (program : Program) :
    Granted schema (requests schema program) (scan .empty schema program) := by
  have hrun (rs : List Request) {done : List Request} {found : Ledger × Openings}
      (h : Granted schema done found)
      (hknown : ∀ r ∈ rs, r.object.kind = .table →
        (schema.rootPageOf? r.object.name).isSome = true) :
      Granted schema (done ++ rs) (rs.foldl (grant schema) found) := by
    -- the requests that are done go with the ledger they have led to
    induction rs generalizing done found with
    | nil =>
      rw [List.append_nil]
      exact h
    | cons r rs ih =>
      have hstep := h.step (hknown r (List.mem_cons_self ..))
      have hrest := ih hstep fun q hq => hknown q (List.mem_cons_of_mem r hq)
      rw [List.append_assoc] at hrest
      exact hrest
  have hstart : Granted schema [] (Ledger.empty, []) := ⟨nofun, rfl, nofun⟩
  have hall := hrun (requests schema program) hstart fun r hr => by
    obtain ⟨entry, -, hentry⟩ := List.mem_filterMap.1 hr
    exact request?_known hentry
  rw [List.nil_append, ← scan_eq] at hall
  exact hall

/-- Requests that were followed only move entries. -/
theorem foldl_grant_of_followed {rs : List Request} (openings : Openings)
    (h : ∀ r ∈ rs, Followed schema l r.object r.cursor) :
    rs.foldl (grant schema) (l, openings) =
      ((rs.filterMap (openingIn l)).foldl (fun l o => l.move o.id o.cursor) l,
        openings ++ rs.filterMap (openingIn l)) := by
  induction rs generalizing l openings with
  | nil =>
    rw [List.filterMap_nil, List.append_nil]
    rfl
  | cons r rs ih =>
    -- the first request moves its entry; the others are followed in the moved ledger too
    obtain ⟨id, hid, hattached⟩ := h r (List.mem_cons_self ..)
    have hthis : openingIn l r = some ⟨r.cursor, r.position, id⟩ := by
      rw [openingIn, hid, Option.map_some]
    have hrest : rs.filterMap (openingIn (l.move id r.cursor)) = rs.filterMap (openingIn l) := by
      apply List.filterMap_congr
      intro q _
      rw [openingIn, openingIn, find?_move]
    have hmoved : ∀ q ∈ rs, Followed schema (l.move id r.cursor) q.object q.cursor := by
      intro q hq
      exact (h q (List.mem_cons_of_mem r hq)).continues (continues_move schema l id r.cursor)
    rw [List.foldl_cons, grant, place_of_followed hid hattached, ih _ hmoved, hrest,
      List.filterMap_cons, hthis]
    dsimp only
    rw [List.foldl_cons, List.append_assoc, List.singleton_append]

/-- After some moves an entry is under the cursor it was moved to last. -/
theorem usage?_foldl_move (openings : Openings) (l : Ledger) (id : Nat) :
    (openings.foldl (fun l o => l.move o.id o.cursor) l).usage? id =
      (l.usage? id).map fun u => { u with cursor := (lastCursor? openings id).getD u.cursor } := by
  -- the last move decides, so the openings are taken from the end
  induction openings using List.reverseRecOn with
  | nil =>
    rw [List.foldl_nil]
    exact Option.map_id'.symm
  | append_singleton openings o ih =>
    rw [List.foldl_append, List.foldl_cons, List.foldl_nil, move, usage?_modify, ih,
      lastCursor?_concat]
    rcases l.usage? id with _ | u
    · split <;> rfl
    · by_cases hid : o.id = id
      · rw [if_pos hid, if_pos hid.symm]
        rfl
      · rw [if_neg hid, if_neg (Ne.symm hid)]

theorem owner?_foldl_move (openings : Openings) (l : Ledger) (id : Nat) :
    (openings.foldl (fun l o => l.move o.id o.cursor) l).owner? id = l.owner? id := by
  induction openings generalizing l with
  | nil => rfl
  | cons o openings ih => rw [List.foldl_cons, ih, move, owner?_modify]

/-- A ledger that comes from a scan by taking notes is left as it is by another scan, which finds
the same openings. -/
theorem scan_of_within {program : Program} (h : (scan .empty schema program).1.Within l) :
    scan l schema program = (l, (scan .empty schema program).2) := by
  have hgranted := scan_granted schema program
  have hcontinues := h.continues schema
  have hopenings : (requests schema program).filterMap (openingIn l) =
      (scan .empty schema program).2 := by
    rw [hgranted.openings]
    apply List.filterMap_congr
    intro r hr
    exact openingIn_continues hcontinues (hgranted.followed r hr)
  have hfollowed : ∀ r ∈ requests schema program, Followed schema l r.object r.cursor := by
    intro r hr
    exact (hgranted.followed r hr).continues hcontinues
  rw [scan_eq l, foldl_grant_of_followed [] hfollowed, hopenings, List.nil_append]
  congr 1
  apply ext_entries
  · intro id
    rw [usage?_foldl_move]
    rcases hl : l.usage? id with _ | u
    · rfl
    · rcases hlast : lastCursor? (scan .empty schema program).2 id with _ | cursor
      · rfl
      · -- the entry was left under this cursor, and notes do not move it
        obtain ⟨v, hv, rfl⟩ := hgranted.cursors hlast
        obtain ⟨w, hw, hbare⟩ := usage?_of_skeleton_eq h.skeleton_eq hl
        obtain rfl := Option.some.inj (hv.symm.trans hw)
        rw [Option.map_some, Option.getD_some, (Usage.bare_eq_iff.1 hbare).1]
  · intro id
    exact owner?_foldl_move _ l id

end Openings

end IndexAdvisor
