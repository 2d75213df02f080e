import IndexAdvisor.Proofs.Filter.Range

/-!
# Which columns of a key are equations

All entries of a range agree with its key in every column but the last, and in the last one too
where the other end of the range has a longer key: these columns are `Pinned`, and what is said
about them ought to be an equation.

> `pinned_equations_iff`: an end of a range says so exactly if it says nothing about the last column
> it can name, or says that it is equal, or can name the whole key and is not outlasted by its
> partner.

So there are two gaps (`pinned_columns_missed`). The relation of the last column is given to the
last column that can be named, and where the key goes on with a row number that no column holds,
this is not the last one of the key. And a partner with a longer key is heeded by the exit of a
range only, not by its entry.
-/

namespace IndexAdvisor.Filter

variable {s : Scene} {l : Ledger} {pos id : Nat} {i : Instr} {u : Usage} {which : RangeEnd}
  {edge : Edge} {key : KeyRun}

/-- The key of an end of a range goes on at the other end. An entry that leaves out its own key does
not begin with entries that agree with it, so there the longer key says nothing. -/
def Outlasted (p : Program) (pos : Nat) (edge : Edge) (key : KeyRun) (which : RangeEnd) : Prop :=
  (which = .entry → edge = .ge ∨ edge = .le) ∧
    ∃ otherEdge other, partner? p pos key which = some (otherEdge, other) ∧ key.count < other.count

/-- All entries of the range agree with the key in the column at a place. -/
def Pinned (p : Program) (pos : Nat) (edge : Edge) (key : KeyRun) (which : RangeEnd) (place : Nat) :
    Prop :=
  place + 1 < key.count ∨ place + 1 = key.count ∧ Outlasted p pos edge key which

/-- The last column is equal if two keys of one length meet at edges that pin them, and at an exit
from a longer key. -/
theorem lastRelation_eq_iff {p : Program} : lastRelation p pos edge key which = .eq ↔
    ∃ otherEdge other, partner? p pos key which = some (otherEdge, other) ∧
      (key.count = other.count ∧ (which = .entry ∧ pinsKey edge otherEdge = true ∨
          which = .exit ∧ pinsKey otherEdge edge = true) ∨
        which = .exit ∧ key.count < other.count) := by
  have hlone : loneRelation edge which ≠ .eq := by
    cases which <;> cases edge <;> decide
  rw [lastRelation]
  rcases partner? p pos key which with _ | ⟨otherEdge, other⟩
  · constructor
    · intro h
      exact absurd h hlone
    · rintro ⟨_, _, h, -⟩
      cases h
  · have hif (c : Bool) : (if c = true then Relation.eq else loneRelation edge which) =
        .eq ↔ c = true := by
      cases c
      · simp [hlone]
      · simp
    dsimp only
    rw [hif]
    constructor
    · intro h
      refine ⟨otherEdge, other, rfl, ?_⟩
      cases which <;> simpa using h
    · rintro ⟨_, _, hother, h⟩
      obtain ⟨rfl, rfl⟩ := Prod.mk.inj (Option.some.inj hother)
      cases which <;> simpa using h

/-- A key of an index names as many columns as it has, unless the entries of the index have
fewer. -/
theorem length_keyColumns (hindex : u.isIndex = true) (schema : Schema) (key : KeyRun) :
    (keyColumns u schema key).length = min key.count (u.entryColumns schema).length := by
  rw [keyColumns, if_pos hindex, List.length_take]

/-- What is said about each column that can be named: equations, and of the last one its own
relation. -/
theorem relation_of_mem_rangeFindings (hid : s.openings.of? i pos = some id)
    (hu : l.usage? id = some u) (hindex : u.isIndex = true)
    (hedge : rangeEdge? which i = some (edge, key)) {f : KeyFinding}
    (hf : f ∈ rangeFindings s l pos i which) :
    f.place < min key.count (u.entryColumns s.schema).length ∧
      f.relation = if f.place + 1 = min key.count (u.entryColumns s.schema).length then
        lastRelation s.program pos edge key which else .eq := by
  rw [← length_keyColumns hindex]
  simp only [rangeFindings, hid, hedge, hu] at hf
  obtain ⟨⟨column, place⟩, hmem, rfl⟩ := List.mem_map.1 hf
  obtain ⟨hlt, -⟩ := List.getElem?_eq_some_iff.1 (List.mem_zipIdx_iff_getElem?.1 hmem)
  refine ⟨hlt, ?_⟩
  simp only [beq_iff_eq]

/-- An end of a range on an index compares every pinned column for equality exactly if its last
named column has no constant, or is compared for equality, or the whole key can be named and no
longer key pins it from the other end. It records what it says, and the last named column is
compared for equality just if the partner has a key of the same length and the two edges pin it, or
if this is an exit from a longer key. -/
theorem pinned_equations_iff (hid : s.openings.of? i pos = some id) (hu : l.usage? id = some u)
    (hindex : u.isIndex = true) (hedge : rangeEdge? which i = some (edge, key)) :
    recordRange s l pos i which = (rangeFindings s l pos i which).foldl (recordFinding id) l ∧
    ((∀ f ∈ rangeFindings s l pos i which, f.constant.isSome = true →
        Pinned s.program pos edge key which f.place → f.relation = .eq) ↔
      (∀ f ∈ rangeFindings s l pos i which,
        f.place + 1 = min key.count (u.entryColumns s.schema).length → f.constant = none) ∨
      lastRelation s.program pos edge key which = .eq ∨
      (key.count ≤ (u.entryColumns s.schema).length ∧ ¬Outlasted s.program pos edge key which)) ∧
    (lastRelation s.program pos edge key which = .eq ↔
      ∃ otherEdge other, partner? s.program pos key which = some (otherEdge, other) ∧
        (key.count = other.count ∧ (which = .entry ∧ pinsKey edge otherEdge = true ∨
            which = .exit ∧ pinsKey otherEdge edge = true) ∨
          which = .exit ∧ key.count < other.count)) := by
  refine ⟨by rw [recordRange_eq, hid], ⟨fun hall => ?_, fun hcases f hf hconstant hpinned => ?_⟩,
    lastRelation_eq_iff⟩
  · by_cases hlast : lastRelation s.program pos edge key which = .eq
    · exact .inr (.inl hlast)
    by_cases hwhole : key.count ≤ (u.entryColumns s.schema).length ∧
      ¬Outlasted s.program pos edge key which
    · exact .inr (.inr hwhole)
    -- otherwise the last named column is pinned, so it can have no constant
    refine .inl fun f hf hplace => ?_
    rw [← Option.not_isSome_iff_eq_none]
    intro hconstant
    have hpinned : Pinned s.program pos edge key which f.place := by
      by_cases hcount : key.count ≤ (u.entryColumns s.schema).length
      · have houtlasted : Outlasted s.program pos edge key which :=
          Classical.byContradiction fun hno => hwhole ⟨hcount, hno⟩
        exact .inr ⟨by omega, houtlasted⟩
      · exact .inl (by omega)
    have heq := hall f hf hconstant hpinned
    rw [(relation_of_mem_rangeFindings hid hu hindex hedge hf).2, if_pos hplace] at heq
    exact hlast heq
  · obtain ⟨hlt, hrelation⟩ := relation_of_mem_rangeFindings hid hu hindex hedge hf
    rw [hrelation]
    split
    · next hplace =>
      rcases hcases with hnone | hlast | ⟨hcount, hno⟩
      · rw [hnone f hf hplace] at hconstant
        cases hconstant
      · exact hlast
      · rcases hpinned with hbefore | ⟨-, houtlasted⟩
        · omega
        · exact absurd houtlasted hno
    · rfl

/-! ## The two gaps -/

/-- A seek of cursor 1 whose key begins in register 1. -/
def seekBy (name count : String) : Instr :=
  { address := 4, name, p1 := some "1", p3 := some "1", p4 := some count }

/-- A bound for cursor 1 whose key begins in register 1. -/
def boundBy (name count : String) : Instr :=
  { address := 5, name, p1 := some "1", p3 := some "1", p4 := some count }

/-- A walk along an index on names and ages between two keys that begin with `'bob'`, 30 and 7. The
row number, which follows them in the entries, is in no column of the table. -/
def walking (entry exit : Instr) : Scene :=
  let program : Program := ⟨[
    { address := 0, name := "OpenRead", p1 := some "1", p2 := some "3" },
    { address := 1, name := "String8", p2 := some "1", p4 := some "bob" },
    { address := 2, name := "Integer", p1 := some "30", p2 := some "2" },
    { address := 3, name := "Integer", p1 := some "7", p2 := some "3" },
    entry,
    exit,
    { address := 6, name := "IdxRowid", p1 := some "1", p2 := some "4" },
    { address := 7, name := "ResultRow", p1 := some "4", p2 := some "1" },
    { address := 8, name := "Next", p1 := some "1", p2 := some "5" }]⟩
  let users : Table := { name := "users", rootPage := 2, columns := ["name", "age"] }
  let byName : Index :=
    { name := "users_name_age", table := "users", rootPage := 3, columns := ["name", "age"] }
  let schema : Schema := { tables := [users], indexes := [byName] }
  { program, schema, openings := (Openings.scan .empty schema program).2, tokens := [] }

/-- A walk that starts behind a row of one name and age, and is left behind the last row of that
name and age. -/
def fromRow : Scene := walking (seekBy "SeekGT" "3") (boundBy "IdxGT" "2")

/-- A walk that starts at the first row of a name, and is left at an age. -/
def upToAge : Scene := walking (seekBy "SeekGE" "1") (boundBy "IdxGE" "2")

/-- What the program of a walk opens. -/
def walkingOpened (s : Scene) : Ledger := (Openings.scan .empty s.schema s.program).1

/-- A bound that is reached from a seek by a longer key finds equations only. -/
theorem pinned_equations_bound :
    fromRow.openings.of? (boundBy "IdxGT" "2") 5 = some 0 ∧
    ((walkingOpened fromRow).usage? 0).map Usage.isIndex = some true ∧
    rangeEdge? .exit (boundBy "IdxGT" "2") = some (.gt, ⟨1, some 1, 2⟩) ∧
    ∀ f ∈ rangeFindings fromRow (walkingOpened fromRow) 5 (boundBy "IdxGT" "2") .exit,
    f.constant.isSome = true →
      Pinned fromRow.program 5 .gt ⟨1, some 1, 2⟩ .exit f.place → f.relation = .eq := by
  have hid : fromRow.openings.of? (boundBy "IdxGT" "2") 5 = some 0 := by decide +kernel
  refine ⟨hid, by decide +kernel, by decide +kernel, ?_⟩
  exact (pinned_equations_iff hid rfl (by decide +kernel) (by decide +kernel)).2.1.2
    (.inr (.inl (by decide +kernel)))

/-- A seek by a name, an age and a row number says of the age that it is greater, though the key
goes on behind it. A seek by a name says of it that it is at least `'bob'`, though the range is left
by a longer key. -/
theorem pinned_columns_missed :
    (KeyFinding.mk 1 "age" .gt (some "30") ∈
        rangeFindings fromRow (walkingOpened fromRow) 4 (seekBy "SeekGT" "3") .entry ∧
      Pinned fromRow.program 4 .gt ⟨1, some 1, 3⟩ .entry 1 ∧
      ((record fromRow (walkingOpened fromRow)).usage? 0).map (·.filters.toList) =
        some ["\"name\"='bob'", "\"age\">30", "\"age\"=30"]) ∧
    KeyFinding.mk 0 "name" .ge (some "'bob'") ∈
        rangeFindings upToAge (walkingOpened upToAge) 4 (seekBy "SeekGE" "1") .entry ∧
      Pinned upToAge.program 4 .ge ⟨1, some 1, 1⟩ .entry 0 ∧
      ((record upToAge (walkingOpened upToAge)).usage? 0).map (·.filters.toList) =
        some ["\"name\">='bob'", "\"name\"='bob'", "\"age\"<30"] := by
  refine ⟨⟨by decide +kernel, .inl (by decide), by decide +kernel⟩, by decide +kernel,
    .inr ⟨rfl, ?_⟩, by decide +kernel⟩
  exact ⟨fun _ => .inl rfl, .ge, ⟨1, some 1, 2⟩, by decide +kernel, by decide⟩

end IndexAdvisor.Filter
