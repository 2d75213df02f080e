import IndexAdvisor.Program.Opcode
import IndexAdvisor.Text.Blank
import IndexAdvisor.Text.Numeral

/-!
# Instructions

One instruction of a compiled statement: its address, its name, five operands and a comment.
Operands are texts, and an absent operand is not the operand zero. Most operands are numbers;
`number?` reads one, ignoring blanks around it.

Models `OpcodeRow`, `parse_int` and `written_register`.
-/

namespace IndexAdvisor

/-- One line of the program that a statement compiles to. -/
structure Instr where
  address : Int
  name : String
  p1 : Option String := none
  p2 : Option String := none
  p3 : Option String := none
  p4 : Option String := none
  p5 : Option String := none
  comment : String := ""
  deriving DecidableEq, Repr

namespace Instr

/-- What the instruction does. -/
def opcode (i : Instr) : Opcode := Opcode.ofName i.name

/-- The number an operand holds, if it is present and is a numeral of 64 bits. -/
def number? (operand : Option String) : Option Int := operand.bind fun text => parseInt? (trim text)

/-- The first operand as a number: most often a cursor. -/
def n1 (i : Instr) : Option Int := number? i.p1

/-- The second operand as a number: a root page, a column, an address or a register. -/
def n2 (i : Instr) : Option Int := number? i.p2

/-- The third operand as a number: most often a register. -/
def n3 (i : Instr) : Option Int := number? i.p3

/-- The fourth operand as a number: a count. -/
def n4 (i : Instr) : Option Int := number? i.p4

/-- The register an instruction writes, if it is one of those that write a single known register. -/
def target (i : Instr) : Option Int :=
  match i.opcode with
  | .column | .makeRecord => i.n3
  | .rowid | .constant _ | .copy => i.n2
  | _ => none

/-- Whether the instruction writes the register. -/
def writes (i : Instr) (register : Int) : Bool := i.target == some register

/-- Whether the instruction is of the given kind and works on the cursor. -/
def isOn (i : Instr) (opcode : Opcode) (cursor : Int) : Bool :=
  i.opcode == opcode && i.n1 == some cursor

end Instr

end IndexAdvisor
