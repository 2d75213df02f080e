import IndexAdvisor.Proofs.Filter.Recorded

/-!
# What a comparison says of the rows that go on

A comparison jumps if its relation holds between what its third and its first register contain.
Where the jump leads to the advance of a loop, the rows that go on are those for which the jump is
not taken, and elsewhere those for which it is taken: `GoesOn`. The comparison that is recorded has
the column on its left, whichever register that is in.

> `comparison_goesOn`: whatever the registers contain, the recorded relation of the column to the
> constant, and what its operator says in SQL, holds exactly if the row goes on. Of a comparison of
> two columns only the columns are recorded.
-/

namespace IndexAdvisor

theorem Relation.holds_flip {α : Type} [LinearOrder α] (r : Relation) (v a : α) :
    r.flip.Holds v a ↔ r.Holds a v := by
  cases r with
  | eq => exact eq_comm
  | ne => exact ne_comm
  | lt | le | gt | ge => exact Iff.rfl

namespace Filter

variable {s : Scene} {l : Ledger} {pos id : Nat} {i : Instr} {relation : Relation}
  {left right register : Int} {name text : String}

/-! ## Where a jump leads -/

/-- The jump of an instruction leads to one of the given kind: to the last instruction that has the
address. -/
def JumpsTo (p : Program) (i : Instr) (opcode : Opcode) : Prop :=
  ∃ address q target, i.n2 = some address ∧ p.at? q = some target ∧ target.address = address ∧
    (∀ k j, q < k → p.at? k = some j → j.address ≠ address) ∧ target.opcode = opcode

/-- The jump of an instruction leads to the advance of a loop. -/
def JumpsToAdvance (p : Program) (i : Instr) : Prop := JumpsTo p i .next ∨ JumpsTo p i .prev

/-- The row that is looked at goes on behind a comparison: past a jump to the advance of a loop, or
else along the jump. -/
def GoesOn {α : Type} [LinearOrder α] (p : Program) (i : Instr) (relation : Relation)
    (left right : Int) (content : Int → α) : Prop :=
  (JumpsToAdvance p i → ¬relation.Holds (content left) (content right)) ∧
    (¬JumpsToAdvance p i → relation.Holds (content left) (content right))

theorem jumpTarget?_eq_some_iff {p : Program} (hi : p.at? pos = some i) (opcode : Opcode) :
    p.jumpTarget? pos = some opcode ↔ JumpsTo p i opcode := by
  rw [Program.jumpTarget?, hi, Option.bind_some]
  simp only [Option.bind_eq_some_iff, Program.opcodeAt?, Option.map_eq_some_iff]
  constructor
  · rintro ⟨address, haddress, q, hq, target, hat, hopcode⟩
    obtain ⟨⟨_, hat', hfound⟩, hlast⟩ := Program.positionOf?_eq_some_iff.1 hq
    obtain rfl := Option.some.inj (hat.symm.trans hat')
    exact ⟨address, q, target, haddress, hat, hfound, hlast, hopcode⟩
  · rintro ⟨address, q, target, haddress, hat, hfound, hlast, hopcode⟩
    have hq := Program.positionOf?_eq_some_iff.2 ⟨⟨target, hat, hfound⟩, hlast⟩
    exact ⟨address, haddress, q, hq, target, hat, hopcode⟩

theorem skipsRow_jumpTarget? {p : Program} (hi : p.at? pos = some i) :
    skipsRow (p.jumpTarget? pos) = true ↔ JumpsToAdvance p i := by
  rw [JumpsToAdvance, ← jumpTarget?_eq_some_iff hi, ← jumpTarget?_eq_some_iff hi]
  unfold skipsRow
  split
  · next htarget => exact iff_of_true rfl (.inl htarget)
  · next htarget => exact iff_of_true rfl (.inr htarget)
  · next hnext hprev => exact iff_of_false Bool.false_ne_true (not_or.2 ⟨hnext, hprev⟩)

/-- The relation that is shown of a comparison at a position, if its two sides keep their places. -/
def qualifying (s : Scene) (pos : Nat) (relation : Relation) : Relation :=
  if skipsRow (s.program.jumpTarget? pos) then relation.negate else relation

/-- The relation that is shown holds exactly if the row goes on. -/
theorem holds_qualifying_iff {α : Type} [LinearOrder α] (hi : s.program.at? pos = some i)
    (relation : Relation) (content : Int → α) (left right : Int) :
    (qualifying s pos relation).Holds (content left) (content right) ↔
      GoesOn s.program i relation left right content := by
  rw [qualifying, GoesOn, ← skipsRow_jumpTarget? hi]
  split
  · next hskips => simp [hskips, Relation.holds_negate]
  · next hskips => simp [hskips]

/-- A comparison whose sides are exchanged lets the same rows go on. -/
theorem goesOn_flip {α : Type} [LinearOrder α] (p : Program) (i : Instr) (relation : Relation)
    (left right : Int) (content : Int → α) : GoesOn p i relation.flip right left content ↔
      GoesOn p i relation left right content := by
  rw [GoesOn, GoesOn, Relation.holds_flip]

/-! ## What is noted -/

/-- A column that was read into a register, noted for the filters. -/
def columnNote (r : Nat × String) : Note := .column r.1 .filter r.2

/-- The comparison of a column to a constant, noted for the entry of the column. -/
def comparisonNote (s : Scene) (pos : Nat) (relation : Relation) (r : Nat × String)
    (text : String) : Note :=
  .filter r.1 (comparisonText r.2 (qualifying s pos relation).sql text)

/-- The comparison that a comparison of two registers is noted as, if one of them holds a column and
the other one a constant. -/
def shownNote? (s : Scene) (l : Ledger) (pos : Nat) (relation : Relation) (left right : Int) :
    Option Note :=
  match s.columnIn? l pos right, s.columnIn? l pos left with
  | none, some r => (s.valueIn? pos right).map (comparisonNote s pos relation r)
  | some r, none => (s.valueIn? pos left).map (comparisonNote s pos relation.flip r)
  | _, _ => none

theorem notes_columnInSeen? (s : Scene) (l : Ledger) (pos : Nat) (register : Int) :
    (columnInSeen? s l pos register).toList.map Sighting.note =
      (s.columnIn? l pos register).toList.map columnNote := by
  unfold columnInSeen? Scene.columnIn? Scene.readSeen?
  rcases s.program.lastWriter pos register with _ | writer
  · rfl
  · rw [Option.bind_some, Option.bind_some]
    rcases s.columnRead? l writer with _ | r
    · rfl
    · rfl

theorem note_reconstruction? (s : Scene) (pos : Nat) (r : Nat × String) (relation : Relation)
    (constant : Int) :
    (reconstruction? s pos r.1 r.2 relation constant).toList.map Sighting.note =
      ((s.valueIn? pos constant).map (comparisonNote s pos relation r)).toList := by
  unfold reconstruction?
  rcases s.valueIn? pos constant with _ | text
  · rfl
  · rfl

/-- A comparison is noted as the columns of its two sides, and as a comparison of one of them if the
other one is a constant. -/
theorem notes_comparison (s : Scene) (l : Ledger) (pos : Nat)
    (hrelation : i.opcode = .compare relation) (hright : i.n1 = some right)
    (hleft : i.n3 = some left) :
    (instrSeen s l pos i).map Sighting.note =
      (s.columnIn? l pos right).toList.map columnNote ++
        (s.columnIn? l pos left).toList.map columnNote ++
        (shownNote? s l pos relation left right).toList := by
  rw [instrSeen, hrelation]
  dsimp only
  rw [comparisonSeen, shownNote?, hright, hleft, ← notes_columnInSeen?, ← notes_columnInSeen?,
    ← List.map_append]
  dsimp only
  -- a comparison follows the columns only where just one side is a column
  rcases s.columnIn? l pos right with _ | r
  · rcases s.columnIn? l pos left with _ | r
    · exact (List.append_nil _).symm
    · rw [← note_reconstruction?, ← List.map_append]
  · rcases s.columnIn? l pos left with _ | _
    · rw [← note_reconstruction?, ← List.map_append]
    · exact (List.append_nil _).symm

/-- What a row is noted as is all that it enters. -/
theorem recordInstr_eq_enterAll (hi : s.program.at? pos = some i) {k : Ledger}
    (hk : k.skeleton = l.skeleton) :
    recordInstr s k pos i = k.enterAll ((instrSeen s l pos i).map Sighting.note) :=
  (recordInstr_sees s l hi k hk).eq

/-- What a row is noted as is there when everything is recorded. -/
theorem holds_record_of_mem {n : Note} (hi : s.program.at? pos = some i)
    (hn : n ∈ (instrSeen s l pos i).map Sighting.note) : (record s l).Holds n := by
  rw [(record_sees s l).sighted.eq]
  apply Ledger.holds_enterAll
  obtain ⟨x, hx, rfl⟩ := List.mem_map.1 hn
  refine List.mem_map.2 ⟨x, List.mem_flatMap.2 ⟨(i, pos), ?_, hx⟩, rfl⟩
  exact List.mem_zipIdx_iff_getElem?.2 hi

/-- The entry that a column was read from is there as well. -/
theorem usage?_record_of_columnIn? (hcolumn : s.columnIn? l pos register = some (id, name)) :
    ∃ u, (record s l).usage? id = some u := by
  have husage : ∃ v, l.usage? id = some v := by
    obtain ⟨writer, -, hread⟩ := Option.bind_eq_some_iff.1 hcolumn
    obtain ⟨i, -, hread⟩ := Option.bind_eq_some_iff.1 hread
    obtain ⟨j, hj, hread'⟩ := Option.bind_eq_some_iff.1 hread
    obtain ⟨v, hv, -⟩ := Option.bind_eq_some_iff.1 hread'
    obtain rfl := Option.some.inj (hj.symm.trans (Scene.of?_of_columnReadBy? hread))
    exact ⟨v, hv⟩
  obtain ⟨v, hv⟩ := husage
  obtain ⟨u, hu, -⟩ := Ledger.usage?_of_skeleton_eq (record_sees s l).sighted.skeleton_eq.symm hv
  exact ⟨u, hu⟩

/-- A comparison, of which the third register is the left side and the first one the right side.

If one of them holds a column and the other one a constant, the row enters the column and one
comparison of it for the entry that the column was read from, and both are there in the end.
Whatever the registers contain, the relation that is shown, and what the operator it is written as
says, holds between the column and the constant exactly if the row that is looked at goes on. If
both registers hold columns, the row enters these and nothing else. -/
theorem comparison_goesOn (l : Ledger) (hi : s.program.at? pos = some i)
    (hrelation : i.opcode = .compare relation) (hright : i.n1 = some right)
    (hleft : i.n3 = some left) :
    (∀ column constant id name text,
      (column = left ∧ constant = right ∨ column = right ∧ constant = left) →
      s.columnIn? l pos column = some (id, name) → s.columnIn? l pos constant = none →
      s.valueIn? pos constant = some text →
      ∃ shown : Relation,
        (∀ (α : Type) [LinearOrder α] (content : Int → α),
          (shown.Holds (content column) (content constant) ↔
            GoesOn s.program i relation left right content) ∧
          (Relation.SqlHolds shown.sql (content column) (content constant) ↔
            GoesOn s.program i relation left right content)) ∧
        (∀ k : Ledger, k.skeleton = l.skeleton → recordInstr s k pos i =
          (k.record id .filter name).recordFilter id (comparisonText name shown.sql text)) ∧
        ∃ u, (record s l).usage? id = some u ∧ u.Has (.column .filter name) ∧
          u.Has (.filter (comparisonText name shown.sql text))) ∧
    ∀ id name id' name', s.columnIn? l pos right = some (id, name) →
      s.columnIn? l pos left = some (id', name') →
      (∀ k : Ledger, k.skeleton = l.skeleton → recordInstr s k pos i =
        (k.record id .filter name).record id' .filter name') ∧
      (∃ u, (record s l).usage? id = some u ∧ u.Has (.column .filter name)) ∧
      ∃ u, (record s l).usage? id' = some u ∧ u.Has (.column .filter name') := by
  have hnotes := notes_comparison s l pos hrelation hright hleft
  constructor
  · intro column constant id name text hsides hcolumn hconstant htext
    -- on either side, what is noted is the column and the comparison that the row goes on for
    obtain ⟨shown, hshown, hnoted⟩ : ∃ shown : Relation,
        (∀ (α : Type) [LinearOrder α] (content : Int → α),
          shown.Holds (content column) (content constant) ↔
          GoesOn s.program i relation left right content) ∧
        (instrSeen s l pos i).map Sighting.note =
          [.column id .filter name, .filter id (comparisonText name shown.sql text)] := by
      rcases hsides with ⟨rfl, rfl⟩ | ⟨rfl, rfl⟩
      · refine ⟨qualifying s pos relation,
          fun α _ content => holds_qualifying_iff hi relation content .., ?_⟩
        rw [hnotes, shownNote?, hcolumn, hconstant, htext]
        rfl
      · refine ⟨qualifying s pos relation.flip, fun α _ content => ?_, ?_⟩
        · rw [holds_qualifying_iff hi, goesOn_flip]
        · rw [hnotes, shownNote?, hcolumn, hconstant, htext]
          rfl
    refine ⟨shown, fun α _ content => ?_, fun k hk => ?_, ?_⟩
    · have hgoes := hshown α content
      exact ⟨hgoes, (Relation.sqlHolds_sql shown ..).trans hgoes⟩
    · rw [recordInstr_eq_enterAll hi hk, hnoted]
      rfl
    · obtain ⟨u, hu⟩ := usage?_record_of_columnIn? hcolumn
      refine ⟨u, hu, holds_record_of_mem hi ?_ id u _ hu (.column (.inl rfl)),
        holds_record_of_mem hi ?_ id u _ hu (.filter (.inl rfl))⟩
      all_goals simp [hnoted]
  · intro id name id' name' hcolumn hcolumn'
    rw [shownNote?, hcolumn, hcolumn'] at hnotes
    obtain ⟨u, hu⟩ := usage?_record_of_columnIn? hcolumn
    obtain ⟨u', hu'⟩ := usage?_record_of_columnIn? hcolumn'
    refine ⟨fun k hk => ?_, ⟨u, hu, holds_record_of_mem hi ?_ id u _ hu (.column (.inl rfl))⟩,
      u', hu', holds_record_of_mem hi ?_ id' u' _ hu' (.column (.inl rfl))⟩
    · rw [recordInstr_eq_enterAll hi hk, hnotes]
      rfl
    all_goals simp [hnotes, columnNote]

/-! ## An age, compared with a number and with a column -/

/-- Skips the row of a user under 18. The number is the right side, and the jump leads to the
advance of the loop. -/
def underAge : Instr :=
  { address := 4, name := "Lt", p1 := some "2", p2 := some "6", p3 := some "1" }

/-- Skips the row of a user whose age is that of another column. -/
def sameAge : Instr :=
  { address := 5, name := "Eq", p1 := some "3", p2 := some "6", p3 := some "1" }

/-- A walk over users that compares the age with a number and with another column. -/
def grownUp : Scene :=
  let program : Program := ⟨[
    { address := 0, name := "OpenRead", p1 := some "0", p2 := some "2" },
    { address := 1, name := "Column", p1 := some "0", p2 := some "0", p3 := some "1" },
    { address := 2, name := "Column", p1 := some "0", p2 := some "1", p3 := some "3" },
    { address := 3, name := "Integer", p1 := some "18", p2 := some "2" },
    underAge,
    sameAge,
    { address := 6, name := "Next", p1 := some "0", p2 := some "1" }]⟩
  let schema : Schema :=
    { tables := [{ name := "users", rootPage := 2, columns := ["age", "paid"] }], indexes := [] }
  { program, schema, openings := (Openings.scan .empty schema program).2, tokens := [] }

/-- What the walk opens. -/
def grownUpOpened : Ledger := (Openings.scan .empty grownUp.schema grownUp.program).1

/-- The rows that go on past the first comparison are those of the users who are at least 18. -/
theorem comparison_goesOn_grownUp :
    (∃ shown : Relation,
      (∀ (α : Type) [LinearOrder α] (content : Int → α),
        (shown.Holds (content 1) (content 2) ↔ GoesOn grownUp.program underAge .lt 1 2 content) ∧
        (Relation.SqlHolds shown.sql (content 1) (content 2) ↔
          GoesOn grownUp.program underAge .lt 1 2 content)) ∧
      ∃ u, (record grownUp grownUpOpened).usage? 0 = some u ∧
        u.Has (.filter (comparisonText "age" shown.sql "18"))) ∧
    recordInstr grownUp grownUpOpened 5 sameAge =
      (grownUpOpened.record 0 .filter "paid").record 0 .filter "age" ∧
    ((record grownUp grownUpOpened).usage? 0).map (·.filters.toList) = some ["\"age\">=18"] := by
  have hlt : underAge.opcode = .compare .lt := by decide +kernel
  have hnumber : underAge.n1 = some 2 ∧ underAge.n3 = some 1 := by decide +kernel
  have heq : sameAge.opcode = .compare .eq := by decide +kernel
  have hcolumns : sameAge.n1 = some 3 ∧ sameAge.n3 = some 1 := by decide +kernel
  have hunder : grownUp.program.at? 4 = some underAge := rfl
  have hsame : grownUp.program.at? 5 = some sameAge := rfl
  obtain ⟨shown, hshown, -, u, hu, -, hfilter⟩ :=
    (comparison_goesOn grownUpOpened hunder hlt hnumber.1 hnumber.2).1 1 2 0 "age"
      "18" (.inl ⟨rfl, rfl⟩)
      (by decide +kernel) (by decide +kernel) (by decide +kernel)
  refine ⟨⟨shown, hshown, u, hu, hfilter⟩, ?_, by decide +kernel⟩
  exact ((comparison_goesOn grownUpOpened hsame heq hcolumns.1 hcolumns.2).2 0 "paid" 0 "age"
    (by decide +kernel)
    (by decide +kernel)).1 grownUpOpened rfl

end Filter

end IndexAdvisor
