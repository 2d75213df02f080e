import IndexAdvisor.Causes
import IndexAdvisor.Covering
import IndexAdvisor.Filter.Basic
import IndexAdvisor.Merge
import IndexAdvisor.Sort.Basic
import IndexAdvisor.Sql.Subselect

/-!
# The analysis of a statement

A statement is explained, which yields its program; the program is read against the schema; and
every sub-select of the text is explained and read in the same way and merged in, at any depth. A
sub-select that cannot be explained is left out. Only a statement that cannot be explained itself
has no analysis.

Explaining is the work of an engine, which is a parameter here. The analysis also tells which
statements it asked the engine about.

Models `analyze`, `analyze_trace`, `units_for`, `extract_units` and `merge_subqueries`.
-/

namespace IndexAdvisor

/-- The way to the program of a statement. -/
abbrev Explain := String → Except Causes (List Instr)

/-- Why there is no analysis. -/
inductive AnalysisError where
  /-- The statement could not be explained. -/
  | unexplained (sql : String) (causes : Causes)
  /-- The schema could not be read. -/
  | noSchema (causes : Causes)
  deriving DecidableEq, Repr

/-- The message that goes with an error. -/
def AnalysisError.message : AnalysisError → String
  | unexplained sql causes =>
    "EXPLAIN failed for \x60" ++ sql ++ "\x60: " ++ causesText causes
  | noSchema causes => "schema catalog unavailable: " ++ causesText causes

namespace Analysis

/-- Reads one program into a ledger that may hold findings already. -/
def readInto (l : Ledger) (schema : Schema) (tokens : List Sql.Token) (program : Program) :
    Ledger :=
  let (l, openings) := Openings.scan l schema program
  let scene : Scene := { program, schema, openings, tokens }
  Sort.record scene (Filter.record scene l)

/-- The findings in the program of one statement, without those of its sub-selects. -/
def read (schema : Schema) (sql : String) (instrs : List Instr) : Ledger :=
  readInto .empty schema (Sql.tokens sql) ⟨instrs⟩

/-- The findings in a program and in those of all its sub-selects down to a depth, and the
sub-selects the engine was asked about. The sub-selects are merged in the order of the text. -/
def readWithin (schema : Schema) (explain : Explain) :
    (depth : Nat) → (sql : String) → List Instr → Ledger × List String
  | 0, sql, instrs => (read schema sql instrs, [])
  | depth + 1, sql, instrs =>
    let parts := (Sql.subselects sql).map fun part =>
      (part, (explain part).toOption.map (readWithin schema explain depth part))
    (parts.foldl (fun l part => (part.2.map Prod.fst).elim l l.merge) (read schema sql instrs),
      parts.flatMap fun part => part.1 :: (part.2.map Prod.snd).getD [])

/-- The findings in a program and in those of all its sub-selects. A sub-select has fewer tokens
than what encloses it, so the number of tokens bounds the depth. -/
def readAll (schema : Schema) (explain : Explain) (sql : String) (instrs : List Instr) :
    Ledger × List String :=
  readWithin schema explain (Sql.tokens sql).length sql instrs

/-- The usages found in one program, judged, without sub-selects. -/
def ofProgram (schema : Schema) (sql : String) (instrs : List Instr) : List Usage :=
  ((read schema sql instrs).judge schema).usages

/-- The usages found in a program that is at hand, and the sub-selects the engine was asked
about. -/
def ofExplained (schema : Schema) (explain : Explain) (subselects : Bool) (sql : String)
    (instrs : List Instr) : List Usage × List String :=
  let (l, asked) :=
    if subselects then readAll schema explain sql instrs else (read schema sql instrs, [])
  ((l.judge schema).usages, asked)

/-- The usages of a statement, and the statements the engine was asked about. -/
def ofStatement (schema : Schema) (explain : Explain) (subselects : Bool) (sql : String) :
    Except AnalysisError (List Usage) × List String :=
  match explain sql with
  | .error causes => (.error (.unexplained sql causes), [sql])
  | .ok instrs =>
    let (usages, asked) := ofExplained schema explain subselects sql instrs
    (.ok usages, sql :: asked)

end Analysis

end IndexAdvisor
