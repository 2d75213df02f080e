import IndexAdvisor.Proofs.Analysis.Recorded
import IndexAdvisor.Proofs.Ledger.Everywhere
import IndexAdvisor.Proofs.Ledger.Merged

/-!
# The ledgers an analysis comes to

Whatever the text, the program and the answers of the engine are, the ledger of a statement is put
together from readings of single programs by merging: `Reached`. So what every reading has and every
merge keeps holds of all that an analysis comes to (`readWithin_reached`).
-/

namespace IndexAdvisor.Analysis

variable {schema : Schema}

/-- A ledger that is read from one program, or merged from two such ledgers. -/
inductive Reached (schema : Schema) : Ledger → Prop where
  | read (sql : String) (instrs : List Instr) : Reached schema (Analysis.read schema sql instrs)
  | merge {parent sub : Ledger} (hparent : Reached schema parent) (hsub : Reached schema sub) :
      Reached schema (parent.merge sub)

theorem Reached.linked (hs : schema.Distinct) {l : Ledger} (h : Reached schema l) :
    l.Linked schema := by
  induction h with
  | read sql instrs => exact read_linked hs sql instrs
  | merge hparent hsub ihparent ihsub => exact Ledger.merge_linked hs ihparent ihsub

/-- What neither openings nor findings break holds of every usage of every such ledger. -/
theorem Reached.everywhere {P : Usage → Prop} (hP : Ledger.Lasting P) {l : Ledger}
    (h : Reached schema l) :
    Ledger.Everywhere P l := by
  induction h with
  | read sql instrs =>
    have hopened := (Ledger.everywhere_empty P).scan hP.toUnbroken schema ⟨instrs⟩
    exact (readInto_enters ..).induction hopened fun _ n _ hl => hl.enter hP n
  | merge _ _ ihparent _ => exact ihparent.merge hP

/-- A statement with its sub-selects is read and merged, at every depth and whatever the engine
answers. -/
theorem readWithin_reached (schema : Schema) (explain : Explain) (depth : Nat) (sql : String)
    (instrs : List Instr) : Reached schema (readWithin schema explain depth sql instrs).1 := by
  induction depth generalizing sql instrs with
  | zero => exact .read sql instrs
  | succ depth ih =>
    have hparts (parts : List String) {l : Ledger} (hl : Reached schema l) :
        Reached schema ((parts.map fun part =>
            (part, (explain part).toOption.map (readWithin schema explain depth part))).foldl
          (fun l part => (part.2.map Prod.fst).elim l l.merge) l) := by
      induction parts generalizing l with
      | nil => exact hl
      | cons part parts ihparts =>
        rw [List.map_cons, List.foldl_cons]
        apply ihparts
        rcases explain part with causes | answer
        · exact hl
        · exact hl.merge (ih part answer)
    exact hparts (Sql.subselects sql) (.read sql instrs)

/-- The ledger whose usages an analysis returns. -/
def ledger (schema : Schema) (explain : Explain) (subselects : Bool) (sql : String)
    (instrs : List Instr) :
    Ledger :=
  (if subselects then (readAll schema explain sql instrs).1 else read schema sql instrs).judge
    schema

theorem ofExplained_usages (schema : Schema) (explain : Explain) (subselects : Bool) (sql : String)
    (instrs : List Instr) : (ofExplained schema explain subselects sql instrs).1 =
      (ledger schema explain subselects sql instrs).usages := by
  cases subselects <;> rfl

/-- A statement has usages if the engine explains it, and they are those of its program. -/
theorem ofStatement_eq_ok_iff {explain : Explain} {subselects : Bool} {sql : String}
    {us : List Usage} :
    (ofStatement schema explain subselects sql).1 = .ok us ↔
      ∃ instrs, explain sql = .ok instrs ∧
        us = (ledger schema explain subselects sql instrs).usages := by
  unfold ofStatement
  cases explain sql with
  | error causes =>
    constructor
    · intro h
      cases h
    · rintro ⟨instrs, h, -⟩
      cases h
  | ok instrs =>
    have husages := ofExplained_usages schema explain subselects sql instrs
    constructor
    · intro h
      exact ⟨instrs, rfl, (Except.ok.inj h).symm.trans husages⟩
    · rintro ⟨_, h, rfl⟩
      obtain rfl := Except.ok.inj h
      exact congrArg Except.ok husages

theorem ledger_reached (schema : Schema) (explain : Explain) (subselects : Bool) (sql : String)
    (instrs : List Instr) :
    ∃ l, Reached schema l ∧ ledger schema explain subselects sql instrs = l.judge schema := by
  cases subselects with
  | false => exact ⟨_, .read sql instrs, rfl⟩
  | true => exact ⟨_, readWithin_reached schema explain _ sql instrs, rfl⟩

/-- The usages of an analysis are those of a ledger that is reached, judged. -/
theorem ofExplained_reached (schema : Schema) (explain : Explain) (subselects : Bool) (sql : String)
    (instrs : List Instr) : ∃ l, Reached schema l ∧
      (ofExplained schema explain subselects sql instrs).1 = (l.judge schema).usages := by
  obtain ⟨l, hl, hledger⟩ := ledger_reached schema explain subselects sql instrs
  exact ⟨l, hl, by rw [ofExplained_usages, hledger]⟩

theorem ofStatement_reached {explain : Explain} {subselects : Bool} {sql : String} {us : List Usage}
    (h : (ofStatement schema explain subselects sql).1 = .ok us) :
    ∃ l, Reached schema l ∧ us = (l.judge schema).usages := by
  obtain ⟨instrs, -, rfl⟩ := ofStatement_eq_ok_iff.1 h
  obtain ⟨l, hl, hledger⟩ := ledger_reached schema explain subselects sql instrs
  exact ⟨l, hl, by rw [hledger]⟩

end IndexAdvisor.Analysis
