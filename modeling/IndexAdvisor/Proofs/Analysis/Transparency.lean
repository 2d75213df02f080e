import IndexAdvisor.Analysis
import IndexAdvisor.Proofs.Sort.Insertion

/-!
# Unknown instructions

An engine has many more instructions than the ones that are told apart, and newer engines have new
ones. They carry no information, so the analysis should not depend on where they stand.

> `ofProgram_ignores_other`: a program with an instruction of an unknown name has the findings of
> the program without it, if no read of a column stands right before it and no comparison jumps to
> its address.

These are the only two places where it matters that an instruction is there, whatever it does.
-/

namespace IndexAdvisor

namespace Insertion

variable (x : Insertion)

/-- What is opened in the padded program is opened at the new places, and leads to the same
ledger. -/
theorem scan_padded (l : Ledger) (schema : Schema) : Openings.scan l schema x.padded =
    ((Openings.scan l schema x.plain).1, (Openings.scan l schema x.plain).2.map x.moveOpening) := by
  let moved (a b : Ledger × Openings) : Prop := b = (a.1, a.2.map x.moveOpening)
  have hmoved : moved (Openings.scan l schema x.plain) (Openings.scan l schema x.padded) := by
    have hnone : moved (l, []) (l, []) := rfl
    apply x.visit_padded hnone
    · rintro ⟨k, openings⟩ _ pos i - rfl
      dsimp only
      by_cases hopen : (i.opcode == .openObject) = true
      · rw [if_pos hopen, if_pos hopen]
        rcases k.openObject schema i with ⟨k, _ | id⟩
        · rfl
        · rcases i.n1 with _ | cursor
          · rfl
          · simp [moved, moveOpening]
      · rw [if_neg hopen, if_neg hopen]
    · rintro ⟨k, openings⟩ _ rfl
      simp [moved]
  exact hmoved

theorem readInto_padded (hunseen : x.Unseen) (l : Ledger) (schema : Schema)
    (tokens : List Sql.Token) :
    Analysis.readInto l schema tokens x.padded = Analysis.readInto l schema tokens x.plain := by
  let s : Scene :=
    { program := x.plain, schema, openings := (Openings.scan l schema x.plain).2, tokens }
  have hs : s.program = x.plain := rfl
  unfold Analysis.readInto
  rw [scan_padded]
  calc Sort.record (x.move s) (Filter.record (x.move s) (Openings.scan l schema x.plain).1)
      = Sort.record s (Filter.record (x.move s) (Openings.scan l schema x.plain).1) :=
    x.sort_record_move hs _
    _ = Sort.record s (Filter.record s (Openings.scan l schema x.plain).1) := by
      rw [x.filter_record_move hs hunseen]

end Insertion

namespace Analysis

/-- An instruction of an unknown name, whatever its operands, is ignored wherever it stands: it must
not stand right behind a read of a column, and no comparison must jump to its address. -/
theorem ofProgram_ignores_other {before after : List Instr} {i : Instr} (hother : i.opcode = .other)
    (hbehind : ∀ j ∈ before.getLast?, j.opcode ≠ .column)
    (haimed : ∀ j ∈ before ++ after, ∀ relation, j.opcode = .compare relation →
      j.n2 ≠ some i.address)
    (schema : Schema) (sql : String) :
    ofProgram schema sql (before ++ i :: after) = ofProgram schema sql (before ++ after) := by
  let x : Insertion := ⟨before, i, after, hother⟩
  have hunseen : x.Unseen := ⟨hbehind, haimed⟩
  unfold ofProgram read
  have hread := x.readInto_padded hunseen .empty schema (Sql.tokens sql)
  unfold Insertion.padded Insertion.plain at hread
  rw [hread]

/-- An unknown instruction in the middle of a loop with a comparison, whose jump goes to the end of
the loop. -/
theorem ofProgram_ignores_other_noop :
    let schema : Schema := { tables := [{ name := "t", rootPage := 2, columns := ["id", "name"] }] }
    let before : List Instr := [
      { address := 0, name := "OpenRead", p1 := some "0", p2 := some "2" },
      { address := 1, name := "Rewind", p1 := some "0", p2 := some "7" }]
    let noop : Instr :=
      { address := 100, name := "Noop", p1 := some "9", p2 := some "9", p3 := some "9" }
    let after : List Instr := [
      { address := 2, name := "Column", p1 := some "0", p2 := some "1", p3 := some "1" },
      { address := 3, name := "Ne", p1 := some "2", p2 := some "6", p3 := some "1" },
      { address := 4, name := "Rowid", p1 := some "0", p2 := some "3" },
      { address := 5, name := "ResultRow", p1 := some "3", p2 := some "1" },
      { address := 6, name := "Next", p1 := some "0", p2 := some "2" },
      { address := 7, name := "Integer", p1 := some "5", p2 := some "2" }]
    let sql := "SELECT id FROM t WHERE name = 5"
    (ofProgram schema sql (before ++ after)).map (fun u => (u.name, u.filters.toList)) =
      [("t", ["\"name\"=5"])] ∧
      ofProgram schema sql (before ++ noop :: after) = ofProgram schema sql (before ++ after) := by
  intro schema before noop after sql
  have hother : noop.opcode = .other := by decide +kernel
  have hbehind : ∀ j ∈ before.getLast?, j.opcode ≠ .column := by decide +kernel
  have haimed : ∀ j ∈ before ++ after, j.n2 ≠ some noop.address := by decide +kernel
  exact ⟨by decide +kernel, ofProgram_ignores_other hother hbehind
    (fun j hj _ _ => haimed j hj) schema sql⟩

end Analysis

end IndexAdvisor
