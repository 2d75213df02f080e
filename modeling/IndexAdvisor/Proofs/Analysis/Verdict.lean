import IndexAdvisor.Proofs.Analysis.Reached
import IndexAdvisor.Proofs.Covering.Verdict

/-!
# Verdicts of an analysis

Neither openings nor findings pass a verdict (`lasting_unjudged`), so the judgement at the end of an
analysis finds all usages unjudged and every usage that is returned carries the right verdict:
`usages_verdict`. The names of the indexes have to be distinct in the way names are compared, and
not empty, since the empty name says that there is no covering index.
-/

namespace IndexAdvisor.Analysis

open Covering Ledger

variable {schema : Schema}

theorem lasting_unjudged : Lasting Unjudged where
  bare u hu := hu ▸ ⟨rfl, rfl⟩
  move _ _ hu := hu
  addIndex _ _ hu := hu
  addColumn _ clause _ _ hu := by cases clause <;> exact hu
  addFilter _ _ hu := hu
  addFindings _ _ _ _ hu := hu

/-- Every usage that an analysis returns carries its verdict: a table is covered by the first index
that qualifies, those in use before the others, with the columns of the index in their order, each
at its first place; if none qualifies it is not covered, and an index is suggested exactly if there
is a column to cover. -/
theorem usages_verdict (hnames : (schema.indexes.map (nameKey ·.name)).Nodup)
    (hnonempty : ∀ i ∈ schema.indexes, i.name ≠ "") (explain : Explain) (subselects : Bool)
    (sql : String) (instrs : List Instr) :
    (∀ u ∈ (ofExplained schema explain subselects sql instrs).1, Verdict schema u) ∧
      ∀ u ∈ ofProgram schema sql instrs, Verdict schema u := by
  have hjudged {l : Ledger} (hl : Reached schema l) :
      ∀ u ∈ (Ledger.judge l schema).usages, Verdict schema u := by
    intro u hu
    obtain ⟨id, v, hv, rfl⟩ := mem_usages_judge hu
    exact judge_verdict hnames hnonempty (hl.everywhere lasting_unjudged id v hv)
  constructor
  · obtain ⟨l, hl, husages⟩ := ofExplained_reached schema explain subselects sql instrs
    rw [husages]
    exact hjudged hl
  · exact hjudged (.read sql instrs)

/-- Of two indexes with the wanted columns the one in use is chosen, though the other is declared
first; and the verdict says so. -/
theorem usages_verdict_used :
    let t : Table := { name := "t", rootPage := 2, columns := ["a", "b"] }
    let first : Index := { name := "first", table := "t", rootPage := 3, columns := ["a"] }
    let second : Index := { name := "second", table := "t", rootPage := 4, columns := ["A"] }
    let schema : Schema := { tables := [t], indexes := [first, second] }
    let instrs : List Instr := [
      { address := 0, name := "OpenRead", p1 := some "1", p2 := some "4" },
      { address := 1, name := "OpenRead", p1 := some "0", p2 := some "2" },
      { address := 2, name := "Column", p1 := some "0", p2 := some "0", p3 := some "1" },
      { address := 3, name := "IfNot", p1 := some "1", p2 := some "4" }]
    (schema.indexes.map (nameKey ·.name)).Nodup ∧ (∀ i ∈ schema.indexes, i.name ≠ "") ∧
      (ofProgram schema "SELECT 1 FROM t WHERE a" instrs).map (fun u => (u.name, u.coveringIndex)) =
        [("second", ""), ("t", "second")] ∧
      ∀ u ∈ ofProgram schema "SELECT 1 FROM t WHERE a" instrs, Verdict schema u := by
  intro t first second schema instrs
  have hnames : (schema.indexes.map (nameKey ·.name)).Nodup := by decide +kernel
  have hnonempty : ∀ i ∈ schema.indexes, i.name ≠ "" := by decide +kernel
  have hverdict :=
    usages_verdict hnames hnonempty (fun _ => .ok []) false "SELECT 1 FROM t WHERE a" instrs
  exact ⟨hnames, hnonempty, by decide +kernel, hverdict.2⟩

/-- The columns of a covering index are a set: where the index has a column twice, they are not the
columns of the index. And names that differ in their case only are one name: an index that is
declared second under such a name is passed over, though its columns are the wanted ones. -/
theorem covering_columns_repeated :
    let t : Table := { name := "t", rootPage := 2, columns := ["a", "A"] }
    let twice : Index := { name := "i", table := "t", rootPage := 3, columns := ["a", "a"] }
    let other : Index := { name := "I", table := "t", rootPage := 4, columns := ["b"] }
    let instrs : List Instr := [
      { address := 0, name := "OpenRead", p1 := some "0", p2 := some "2" },
      { address := 1, name := "Column", p1 := some "0", p2 := some "0", p3 := some "1" },
      { address := 2, name := "IfNot", p1 := some "1", p2 := some "5" },
      { address := 3, name := "Column", p1 := some "0", p2 := some "1", p3 := some "2" },
      { address := 4, name := "IfNot", p1 := some "2", p2 := some "5" },
      { address := 5, name := "Halt" }]
    let sql := "SELECT 1 FROM t WHERE a AND \"A\""
    (∃ u ∈ ofProgram { tables := [t], indexes := [twice] } sql instrs, u.isIndex = false ∧
      Qualifies u.name u.columns.toList twice ∧ u.coveringIndex = twice.name ∧
      u.coveringColumns.toList.map IndexColumn.column ≠ twice.columns) ∧
    ∃ u ∈ ofProgram { tables := [t], indexes := [other, twice] } sql instrs, u.isIndex = false ∧
      Qualifies u.name u.columns.toList twice ∧ u.coveringIndex = "" := by
  intro t twice other instrs sql
  have hqualifies {u : Usage} (hname : u.name = "t") (hcolumns : u.columns.toList = ["a", "A"]) :
      Qualifies u.name u.columns.toList twice := by
    rw [hname, hcolumns]
    refine ⟨by decide, by decide, .cons (by decide) (.cons (by decide) .nil)⟩
  have hfirst : ∃ u ∈ ofProgram { tables := [t], indexes := [twice] } sql instrs,
      u.isIndex = false ∧
      u.name = "t" ∧ u.columns.toList = ["a", "A"] ∧ u.coveringIndex = "i" ∧
      u.coveringColumns.toList.map IndexColumn.column = ["a"] := by
    decide +kernel
  have hsecond : ∃ u ∈ ofProgram { tables := [t], indexes := [other, twice] } sql instrs,
      u.isIndex = false ∧
      u.name = "t" ∧ u.columns.toList = ["a", "A"] ∧ u.coveringIndex = "" := by
    decide +kernel
  constructor
  · obtain ⟨u, hu, hindex, hname, hcolumns, hcovering, hlisted⟩ := hfirst
    refine ⟨u, hu, hindex, hqualifies hname hcolumns, hcovering, ?_⟩
    rw [hlisted]
    decide
  · obtain ⟨u, hu, hindex, hname, hcolumns, hcovering⟩ := hsecond
    exact ⟨u, hu, hindex, hqualifies hname hcolumns, hcovering⟩

end IndexAdvisor.Analysis
