import IndexAdvisor.Proofs.Ledger.Reopening
import IndexAdvisor.Scene

/-!
# Which opening a cursor number stands for

A scan keeps the openings of objects that the schema knows, and no others (`scan_openings`). So a
cursor number means what was opened under it last among those (`at?_of_last`), or first if there is
none up to the position (`at?_of_first`), and other openings of the number are passed over, of a
page that the schema does not know as well as of a sorter or a table that lives for one statement.
What the last of all openings says is what the number is taken for exactly if that opening is kept,
or if none of the number is: `cursor_means_iff`.
-/

namespace IndexAdvisor

namespace Instr

/-- Whether the instruction opens something under a cursor number: a root page, or something that
has none. -/
def opens (cursor : Int) (i : Instr) : Bool :=
  [Opcode.openObject, .openEphemeral, .openSorter, .openPseudo].any (i.isOn · cursor)

/-- Whether the instruction opens a table or an index of the schema under a cursor number. -/
def opensKnown (schema : Schema) (cursor : Int) (i : Instr) : Bool :=
  i.isOn .openObject cursor && (Ledger.opened? schema i).isSome

theorem opens_of_opensKnown {schema : Schema} {cursor : Int} {i : Instr}
    (h : i.opensKnown schema cursor = true) :
    i.opens cursor = true := by
  rw [opensKnown, Bool.and_eq_true] at h
  rw [opens, List.any_cons, h.1, Bool.true_or]

end Instr

namespace Program

/-- The instruction at `q` is the last one up to a position that is wanted. -/
structure LastUpTo (p : Program) (want : Instr → Bool) (pos q : Nat) (i : Instr) : Prop where
  le : q ≤ pos
  here : p.at? q = some i
  wanted : want i = true
  after : ∀ r j, q < r → r ≤ pos → p.at? r = some j → want j = false

/-- The instruction at `q` is the first one that is wanted. -/
structure First (p : Program) (want : Instr → Bool) (q : Nat) (i : Instr) : Prop where
  here : p.at? q = some i
  wanted : want i = true
  before : ∀ r j, r < q → p.at? r = some j → want j = false

/-- The instructions with their positions, around one of them. -/
theorem zipIdx_eq_append {p : Program} {q : Nat} {i : Instr} (h : p.at? q = some i) :
    ∃ before after, p.instrs.zipIdx = before ++ (i, q) :: after ∧
      (∀ e ∈ before, e.2 < q ∧ p.at? e.2 = some e.1) ∧ ∀ e ∈ after, q < e.2 ∧
        p.at? e.2 = some e.1 := by
  have hat (r : Nat) : p.instrs.zipIdx[r]? = (p.at? r).map fun j => (j, r) := by
    rw [List.getElem?_zipIdx, Nat.zero_add, at?]
  obtain ⟨hlt, hget⟩ := List.getElem?_eq_some_iff.1 ((hat q).trans (by rw [h, Option.map_some]))
  refine ⟨p.instrs.zipIdx.take q, p.instrs.zipIdx.drop (q + 1), ?_, ?_, ?_⟩
  · rw [← hget, List.getElem_cons_drop, List.take_append_drop]
  · intro e he
    obtain ⟨r, hr⟩ := List.mem_iff_getElem?.1 he
    rw [List.getElem?_take] at hr
    split at hr
    · next hlt =>
      rw [hat] at hr
      obtain ⟨j, hj, rfl⟩ := Option.map_eq_some_iff.1 hr
      exact ⟨hlt, hj⟩
    · cases hr
  · intro e he
    obtain ⟨r, hr⟩ := List.mem_iff_getElem?.1 he
    rw [List.getElem?_drop, hat] at hr
    obtain ⟨j, hj, rfl⟩ := Option.map_eq_some_iff.1 hr
    exact ⟨by dsimp only; omega, hj⟩

end Program

namespace Openings

open Ledger

variable {schema : Schema} {program : Program} {cursor : Int} {pos q : Nat} {i : Instr}

/-- The entry of what an instruction opens. `none` if that is no object of the schema. -/
def entryOpened? (schema : Schema) (l : Ledger) (i : Instr) : Option Nat :=
  if i.opcode == .openObject then
    (opened? schema i).bind fun opened => l.find? opened.1.name opened.1.kind
  else none

/-- The opening that an instruction leads to, if it opens an object under a cursor number. -/
def keptOpening (schema : Schema) (l : Ledger) (cursor : Int) (entry : Instr × Nat) :
    Option Opening :=
  if entry.1.opensKnown schema cursor then (entryOpened? schema l entry.1).map
    (⟨cursor, entry.2, ·⟩) else none

/-- What is opened of the schema has its entry when a scan has ended. -/
theorem entryOpened?_scan (h : i.opensKnown schema cursor = true) (hi : program.at? q = some i) :
    ∃ id, entryOpened? schema (scan .empty schema program).1 i = some id := by
  rw [Instr.opensKnown, Instr.isOn, Bool.and_eq_true, Bool.and_eq_true] at h
  obtain ⟨⟨hopcode, -⟩, hopened⟩ := h
  obtain ⟨⟨object, c⟩, hopened⟩ := Option.isSome_iff_exists.1 hopened
  have hrequest : (⟨object, c, q⟩ : Request) ∈ requests schema program := by
    refine List.mem_filterMap.2 ⟨(i, q), ?_, ?_⟩
    · rw [List.mk_mem_zipIdx_iff_getElem?]
      exact hi
    · rw [request?, if_pos hopcode, hopened, Option.map_some]
  obtain ⟨id, hid, -⟩ := (scan_granted schema program).followed _ hrequest
  exact ⟨id, by rw [entryOpened?, if_pos hopcode, hopened, Option.bind_some, hid]⟩

/-- The openings that a scan keeps for a cursor number. -/
theorem scan_openings (schema : Schema) (program : Program) (cursor : Int) :
    (scan .empty schema program).2.filter (·.cursor == cursor) =
      program.instrs.zipIdx.filterMap
      (keptOpening schema (scan .empty schema program).1 cursor) := by
  rw [(scan_granted schema program).openings, requests, List.filterMap_filterMap,
    ← List.filterMap_eq_filter, List.filterMap_filterMap]
  apply List.filterMap_congr
  intro entry _
  rw [keptOpening, Instr.opensKnown, Instr.isOn, entryOpened?, request?]
  by_cases hopcode : (entry.1.opcode == .openObject) = true
  · rw [if_pos hopcode, if_pos hopcode, hopcode, Bool.true_and]
    rcases hopened : opened? schema entry.1 with _ | ⟨object, c⟩
    · rw [Option.isSome_none, Bool.and_false]
      rfl
    · -- the cursor of what is opened is the first operand
      rw [(of_opened? hopened).1, Option.isSome_some, Bool.and_true, Option.map_some,
        Option.bind_some, openingIn, Option.bind_some]
      rcases (scan .empty schema program).1.find? object.name object.kind with _ | id
      · rw [Option.map_none, Option.map_none, ite_self]
        rfl
      · rw [Option.map_some, Option.map_some, Option.bind_some, Option.guard]
        by_cases hc : c = cursor
        · simp only [hc, beq_self_eq_true, if_true]
        · rw [if_neg (by simpa using hc), if_neg (by simpa using hc)]
  · rw [if_neg hopcode, if_neg hopcode, Bool.eq_false_iff.2 hopcode, Bool.false_and, Bool.false_and]
    rfl

/-- What is kept of the instructions that no wanted one is among. -/
theorem keptOpening_eq_none {l : Ledger} {entry : Instr × Nat}
    (h : entry.1.opensKnown schema cursor = false) :
    keptOpening schema l cursor entry = none := by
  rw [keptOpening, h]
  rfl

/-- An opening that is kept is kept at its position. -/
theorem position_of_keptOpening {l : Ledger} {entry : Instr × Nat} {o : Opening}
    (h : keptOpening schema l cursor entry = some o) :
    entry.1.opensKnown schema cursor = true ∧ o.position = entry.2 := by
  rw [keptOpening] at h
  split at h
  · next hknown =>
    obtain ⟨id, -, rfl⟩ := Option.map_eq_some_iff.1 h
    exact ⟨hknown, rfl⟩
  · cases h

theorem at?_eq (openings : Openings) (cursor : Int) (pos : Nat) : openings.at? cursor pos =
    (((openings.filter (·.cursor == cursor)).reverse.find? (·.position ≤ pos)).or
      (openings.filter (·.cursor == cursor)).head?).map Opening.id := rfl

/-- A number means the last object that was opened under it. -/
theorem at?_of_last (h : program.LastUpTo (·.opensKnown schema cursor) pos q i) :
    (scan .empty schema program).2.at? cursor pos =
      entryOpened? schema (scan .empty schema program).1 i := by
  obtain ⟨id, hid⟩ := entryOpened?_scan h.wanted h.here
  obtain ⟨before, after, hsplit, -, hafter⟩ := Program.zipIdx_eq_append h.here
  have hkept : keptOpening schema (scan .empty schema program).1 cursor (i, q) =
      some ⟨cursor, q, id⟩ := by
    rw [keptOpening, if_pos h.wanted, hid, Option.map_some]
  rw [at?_eq, scan_openings, hsplit, List.filterMap_append, List.filterMap_cons_some hkept,
    List.reverse_append, List.reverse_cons, List.append_assoc, List.find?_append]
  -- what comes after the opening is too late for the position
  have hlate :
      (after.filterMap (keptOpening schema (scan .empty schema program).1 cursor)).reverse.find?
      (·.position ≤ pos) = none := by
    rw [List.find?_eq_none]
    intro o ho
    obtain ⟨entry, hentry, ho⟩ := List.mem_filterMap.1 (List.mem_reverse.1 ho)
    obtain ⟨hknown, hposition⟩ := position_of_keptOpening ho
    obtain ⟨hlt, hat⟩ := hafter entry hentry
    rw [hposition, decide_eq_true_eq]
    intro hle
    have hno := h.after entry.2 entry.1 hlt hle hat
    rw [hknown] at hno
    cases hno
  rw [hlate, Option.none_or, List.singleton_append, List.find?_cons_of_pos (by simpa using h.le),
    Option.some_or, Option.map_some, hid]

/-- A number that nothing was opened under yet means the first object that is. -/
theorem at?_of_first (h : program.First (·.opensKnown schema cursor) q i) (hq : pos < q) :
    (scan .empty schema program).2.at? cursor pos =
      entryOpened? schema (scan .empty schema program).1 i := by
  obtain ⟨id, hid⟩ := entryOpened?_scan h.wanted h.here
  obtain ⟨before, after, hsplit, hbefore, hafter⟩ := Program.zipIdx_eq_append h.here
  have hkept : keptOpening schema (scan .empty schema program).1 cursor (i, q) =
      some ⟨cursor, q, id⟩ := by
    rw [keptOpening, if_pos h.wanted, hid, Option.map_some]
  have hearly : before.filterMap (keptOpening schema (scan .empty schema program).1 cursor) =
      [] := by
    rw [List.filterMap_eq_nil_iff]
    intro entry hentry
    obtain ⟨hlt, hat⟩ := hbefore entry hentry
    exact keptOpening_eq_none (h.before entry.2 entry.1 hlt hat)
  have hlate : (⟨cursor, q, id⟩ :: after.filterMap
      (keptOpening schema (scan .empty schema program).1 cursor)).reverse.find?
      (·.position ≤ pos) = none := by
    rw [List.find?_eq_none]
    intro o ho
    rw [decide_eq_true_eq]
    rcases List.mem_cons.1 (List.mem_reverse.1 ho) with rfl | ho
    · exact Nat.not_le_of_lt hq
    · obtain ⟨entry, hentry, ho⟩ := List.mem_filterMap.1 ho
      have hlt := (hafter entry hentry).1
      rw [(position_of_keptOpening ho).2]
      omega
  rw [at?_eq, scan_openings, hsplit, List.filterMap_append, hearly, List.nil_append,
    List.filterMap_cons_some hkept, hlate, Option.none_or, List.head?_cons, Option.map_some, hid]

/-- A number that no object is opened under means nothing, and no other. -/
theorem at?_eq_none_iff : (scan .empty schema program).2.at? cursor pos = none ↔
    ∀ r j, program.at? r = some j → j.opensKnown schema cursor = false := by
  rw [at?_eq, scan_openings, Option.map_eq_none_iff, Option.or_eq_none_iff, List.head?_eq_none_iff,
    List.filterMap_eq_nil_iff]
  constructor
  · rintro ⟨-, hnone⟩ r j hj
    rw [← Bool.not_eq_true]
    intro hknown
    obtain ⟨id, hid⟩ := entryOpened?_scan hknown hj
    have hno := hnone (j, r) (List.mk_mem_zipIdx_iff_getElem?.2 hj)
    rw [keptOpening, if_pos hknown, hid] at hno
    cases hno
  · intro h
    have hnone : ∀ entry ∈ program.instrs.zipIdx,
        keptOpening schema (scan .empty schema program).1 cursor entry = none := by
      intro entry hentry
      exact keptOpening_eq_none (h entry.2 entry.1 (List.mk_mem_zipIdx_iff_getElem?.1 hentry))
    refine ⟨?_, hnone⟩
    rw [List.filterMap_eq_nil_iff.2 hnone]
    rfl

/-- What an instruction opens under a number is no object if it is not one that the schema knows. -/
theorem entryOpened?_of_unknown {l : Ledger} (hopens : i.opens cursor = true)
    (hunknown : i.opensKnown schema cursor = false) : entryOpened? schema l i = none := by
  obtain ⟨opcode, -, hon⟩ := List.any_eq_true.1 hopens
  rw [entryOpened?]
  split
  · next hopcode =>
    rw [Instr.isOn, Bool.and_eq_true] at hon
    rw [Instr.opensKnown, Instr.isOn, hopcode, hon.2, Bool.true_and, Bool.true_and,
      Option.isSome_eq_false_iff, Option.isNone_iff_eq_none] at hunknown
    rw [hunknown, Option.bind_none]
  · rfl

/-- A cursor number means what was opened under it last, no object for an opening of something else,
exactly if this last opening is of an object of the schema, or if no object is opened under the
number in the whole program. In general it means the last object that was opened under it up to the
position, or else the first one behind it. -/
theorem cursor_means_iff (schema : Schema) (program : Program) (cursor : Int) (pos : Nat) :
    let found := scan .empty schema program
    (∀ q i, program.LastUpTo (·.opens cursor) pos q i →
      (found.2.at? cursor pos = entryOpened? schema found.1 i ↔
        i.opensKnown schema cursor = true ∨
          ∀ r j, program.at? r = some j → j.opensKnown schema cursor = false)) ∧
    (∀ q i, program.LastUpTo (·.opensKnown schema cursor) pos q i ∨
        program.First (·.opensKnown schema cursor) q i ∧ pos < q →
      found.2.at? cursor pos = entryOpened? schema found.1 i ∧
        ∃ object id u, opened? schema i = some (object, cursor) ∧
          entryOpened? schema found.1 i = some id ∧
          found.1.usage? id = some u ∧ u.isOf object.name object.kind = true) := by
  intro found
  refine ⟨fun q i h => ⟨?_, ?_⟩, fun q i h => ?_⟩
  · intro hmeans
    rcases hknown : i.opensKnown schema cursor with _ | _
    · rw [entryOpened?_of_unknown h.wanted hknown] at hmeans
      exact .inr (at?_eq_none_iff.1 hmeans)
    · exact .inl rfl
  · rintro (hknown | hnone)
    · -- the last opening of all is the last one of an object
      have hlast : program.LastUpTo (·.opensKnown schema cursor) pos q i := by
        refine ⟨h.le, h.here, hknown, fun r j hr hpos hj => ?_⟩
        rw [← Bool.not_eq_true]
        intro hj'
        have hno := h.after r j hr hpos hj
        rw [Instr.opens_of_opensKnown hj'] at hno
        cases hno
      exact at?_of_last hlast
    · rw [entryOpened?_of_unknown h.wanted (hnone q i h.here)]
      exact at?_eq_none_iff.2 hnone
  · have hmeans : found.2.at? cursor pos = entryOpened? schema found.1 i ∧
        i.opensKnown schema cursor = true ∧ program.at? q = some i := by
      rcases h with h | ⟨h, hq⟩
      · exact ⟨at?_of_last h, h.wanted, h.here⟩
      · exact ⟨at?_of_first h hq, h.wanted, h.here⟩
    obtain ⟨hmeans, hknown, hhere⟩ := hmeans
    obtain ⟨id, hid⟩ := entryOpened?_scan hknown hhere
    refine ⟨hmeans, ?_⟩
    rw [Instr.opensKnown, Instr.isOn, Bool.and_eq_true, Bool.and_eq_true, beq_iff_eq,
      beq_iff_eq] at hknown
    obtain ⟨⟨hopcode, hcursor⟩, hopened⟩ := hknown
    obtain ⟨⟨object, c⟩, hopened⟩ := Option.isSome_iff_exists.1 hopened
    obtain rfl : c = cursor := Option.some.inj ((of_opened? hopened).1.symm.trans hcursor)
    have hfind := hid
    rw [entryOpened?, if_pos (by rw [hopcode]; rfl), hopened, Option.bind_some] at hfind
    obtain ⟨u, hu, hof⟩ := find?_eq_some hfind
    exact ⟨object, id, u, hopened, hid, hu, hof⟩

/-- A number that is opened on one table and then on another one: it means the second. -/
theorem cursor_means_reopened :
    let items : Table := { name := "items", rootPage := 2, columns := ["a"] }
    let parts : Table := { name := "parts", rootPage := 4, columns := ["b"] }
    let schema : Schema := { tables := [items, parts] }
    let again : Instr := { address := 1, name := "OpenRead", p1 := some "0", p2 := some "4" }
    let program : Program := ⟨[
      { address := 0, name := "OpenRead", p1 := some "0", p2 := some "2" },
      again,
      { address := 2, name := "Column", p1 := some "0", p2 := some "0", p3 := some "1" }]⟩
    let found := scan .empty schema program
    program.LastUpTo (·.opens 0) 2 1 again ∧ again.opensKnown schema 0 = true ∧
      found.2.at? 0 2 = entryOpened? schema found.1 again ∧
        entryOpened? schema found.1 again = some 1 := by
  intro items parts schema again program found
  have hlast : program.LastUpTo (·.opens 0) 2 1 again := by
    refine ⟨by decide, rfl, by decide +kernel, fun r j hr hpos hj => ?_⟩
    obtain rfl : r = 2 := by omega
    obtain rfl := Option.some.inj hj
    decide +kernel
  have hknown : again.opensKnown schema 0 = true := by decide +kernel
  refine ⟨hlast, hknown, ((cursor_means_iff schema program 0 2).1 1 again hlast).2 (.inl hknown),
    ?_⟩
  decide +kernel

/-- A number that is opened on a table, then on a sorter and then on a page that the schema does not
know. It goes on meaning the table, and a read through it is taken for a read of the table's
column. -/
theorem cursor_means_stale :
    let items : Table := { name := "items", rootPage := 2, columns := ["a"] }
    let schema : Schema := { tables := [items] }
    let sorter : Instr := { address := 1, name := "SorterOpen", p1 := some "0" }
    let unknown : Instr := { address := 3, name := "OpenRead", p1 := some "0", p2 := some "1" }
    let program : Program := ⟨[
      { address := 0, name := "OpenRead", p1 := some "0", p2 := some "2" },
      sorter,
      { address := 2, name := "Column", p1 := some "0", p2 := some "0", p3 := some "1" },
      unknown,
      { address := 4, name := "Column", p1 := some "0", p2 := some "0", p3 := some "2" }]⟩
    let found := scan .empty schema program
    let scene : Scene := { program, schema, openings := found.2, tokens := [] }
    (program.LastUpTo (·.opens 0) 2 1 sorter ∧ entryOpened? schema found.1 sorter = none ∧
      found.2.at? 0 2 = some 0 ∧ scene.columnRead? found.1 2 = some (0, "a")) ∧
    program.LastUpTo (·.opens 0) 4 3 unknown ∧ entryOpened? schema found.1 unknown = none ∧
      found.2.at? 0 4 = some 0 ∧ scene.columnRead? found.1 4 = some (0, "a") := by
  intro items schema sorter unknown program found scene
  have hsorter : program.LastUpTo (·.opens 0) 2 1 sorter := by
    refine ⟨by decide, rfl, by decide +kernel, fun r j hr hpos hj => ?_⟩
    obtain rfl : r = 2 := by omega
    obtain rfl := Option.some.inj hj
    decide +kernel
  have hunknown : program.LastUpTo (·.opens 0) 4 3 unknown := by
    refine ⟨by decide, rfl, by decide +kernel, fun r j hr hpos hj => ?_⟩
    obtain rfl : r = 4 := by omega
    obtain rfl := Option.some.inj hj
    decide +kernel
  exact ⟨⟨hsorter, by decide +kernel⟩, hunknown, by decide +kernel⟩

end Openings

end IndexAdvisor
