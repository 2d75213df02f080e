import IndexAdvisor.Json.Record
import IndexAdvisor.Program.Instr

/-!
# Instructions in JSON

An instruction is a record of eight fields. Operands may be left out and are absent then; so may the
comment, which is empty then but must not be null.

Models the documents of `OpcodeRow`.
-/

namespace IndexAdvisor.Instr

/-- The fields of an instruction. -/
def fields : List Json.Field := [
  .required "address", .required "opcode", .nullable "p1", .nullable "p2", .nullable "p3",
  .nullable "p4", .nullable "p5", .defaulted "comment" (.string "")]

/-- An instruction as a record. -/
def toJson (i : Instr) : Json := .object [
  ("address", .number i.address), ("opcode", .string i.name), ("p1", .ofString? i.p1),
  ("p2", .ofString? i.p2), ("p3", .ofString? i.p3), ("p4", .ofString? i.p4),
  ("p5", .ofString? i.p5), ("comment", .string i.comment)]

/-- The instruction that a record stands for. -/
def ofJson? (v : Json) : Option Instr := do
  let [address, name, p1, p2, p3, p4, p5, comment] ← v.record? fields | none
  return {
    address := ← address.int64?
    name := ← name.string?
    p1 := ← p1.nullOr? Json.string?
    p2 := ← p2.nullOr? Json.string?
    p3 := ← p3.nullOr? Json.string?
    p4 := ← p4.nullOr? Json.string?
    p5 := ← p5.nullOr? Json.string?
    comment := ← comment.string? }

end IndexAdvisor.Instr
