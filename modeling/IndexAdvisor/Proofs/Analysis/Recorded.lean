import IndexAdvisor.Analysis
import IndexAdvisor.Proofs.Ledger.Opening
import IndexAdvisor.Proofs.Sort.Recorded

/-!
# What the reading of a program records

After the openings of a program a ledger is changed in one way only: fitting notes are entered
(`readInto_enters`). So a property that notes keep is kept by the reading of a program, as the
skeleton and the links are (`readInto_linked`).
-/

namespace IndexAdvisor.Analysis

open Ledger (Enters)

variable {schema : Schema}

/-- Reading a program opens what the program opens, and enters notes. -/
theorem readInto_enters (l : Ledger) (schema : Schema) (tokens : List Sql.Token)
    (program : Program) :
    Enters schema (Openings.scan l schema program).1 (readInto l schema tokens program) := by
  let s : Scene := { program, schema, openings := (Openings.scan l schema program).2, tokens }
  have hfilter : Enters s.schema _ (Filter.record s (Openings.scan l schema program).1) :=
    (Filter.record_records s _).enters
  exact hfilter.trans Sort.record_enters

/-- Reading a program keeps the links of a ledger in order. -/
theorem readInto_linked (hs : schema.Distinct) {l : Ledger} (hl : l.Linked schema)
    (tokens : List Sql.Token) (program : Program) :
    (readInto l schema tokens program).Linked schema :=
  (readInto_enters l schema tokens program).linked (Ledger.scan_linked hs hl program)

theorem read_linked (hs : schema.Distinct) (sql : String) (instrs : List Instr) :
    (read schema sql instrs).Linked schema :=
  readInto_linked hs (Ledger.empty_linked schema) _ _

end IndexAdvisor.Analysis
