import IndexAdvisor.Proofs.Analysis.Recorded
import IndexAdvisor.Proofs.Ledger.Reopening

/-!
# Reading a program twice

Whoever reads a program once more into the ledger it was read into finds nothing new: the scan finds
the same openings and leaves every entry where it is, and what was recorded is not recorded anew
(`readInto_read`). No condition on the schema is needed: where names repeat, both readings take the
same first match.
-/

namespace IndexAdvisor.Analysis

open Ledger (Enters)

/-- Reading a program into its own ledger changes nothing in any of the three steps: the scan, the
search for conditions and the search for orders. -/
theorem readInto_read (schema : Schema) (sql : String) (instrs : List Instr) :
    let found := read schema sql instrs
    let openings := (Openings.scan .empty schema ⟨instrs⟩).2
    let s : Scene := { program := ⟨instrs⟩, schema, openings, tokens := Sql.tokens sql }
    Openings.scan found schema ⟨instrs⟩ = (found, openings) ∧ Filter.record s found = found ∧
      Sort.record s found = found ∧ readInto found schema (Sql.tokens sql) ⟨instrs⟩ = found := by
  intro found openings s
  have hfilter : Enters schema (Openings.scan .empty schema ⟨instrs⟩).1
      (Filter.record s (Openings.scan .empty schema ⟨instrs⟩).1) :=
    (Filter.record_records s _).enters
  have hsort : Enters schema (Filter.record s (Openings.scan .empty schema ⟨instrs⟩).1) found :=
    Sort.record_enters (s := s)
  -- notes were all that came after the scan, so the ledger is one that the scan leaves alone
  have hscan : Openings.scan found schema ⟨instrs⟩ = (found, openings) :=
    Openings.scan_of_within (hfilter.trans hsort).within
  have hfiltered : Filter.record s found = found :=
    (Filter.record_records s _).eq_of_within hsort.within
  have hsorted : Sort.record s found = found :=
    Sort.record_eq_of_within (.refl found)
  refine ⟨hscan, hfiltered, hsorted, ?_⟩
  rw [readInto, hscan]
  dsimp only
  rw [hfiltered, hsorted]

end IndexAdvisor.Analysis
