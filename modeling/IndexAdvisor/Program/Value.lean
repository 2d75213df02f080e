import IndexAdvisor.Program.Basic
import IndexAdvisor.Program.Word
import IndexAdvisor.Text.Quoted

/-!
# The constant a register holds

A reconstructed comparison shows the constant it compares with. The constant is found by walking
from the use of a register to the instruction that loaded it, through at most four copies. The
engine moves constants that never change into a block that runs first but stands last, so where no
instruction before the use writes the register, the first one after it is taken.

A load may be followed by a change of type to BLOB, which shows in the text of the constant.

Models `recover`, `recover_at_depth`, `render`, `render_blob` and `blob_cast_applies`.
-/

namespace IndexAdvisor

namespace Program

/-- The number of registers that are looked at on the way to a constant: the one used and four that
it may have been copied from. -/
def copyReach : Nat := 5

/-- The code of the type BLOB in a `cast`. -/
def blobCode : Int := 65

/-- Whether a text is a non-empty row of pairs of hexadecimal digits. -/
def isHexPairs (text : String) : Bool :=
  let cs := text.toList
  let isHex (c : Char) : Bool :=
    c.isDigit || ('a' ≤ c && c ≤ 'f') || ('A' ≤ c && c ≤ 'F')
  !cs.isEmpty && cs.length % 2 == 0 && cs.all isHex

/-- A text marked as a BLOB. -/
def asBlob (text : String) : String := "CAST(" ++ text ++ " AS BLOB)"

/-- The constant that an instruction loads, as SQL writes it. -/
def constantText (i : Instr) : Constant → Option String
  | .integer => i.n1.map toString
  | .int64 | .real => i.p4
  | .string8 | .string => i.p4.map quoteText
  | .blob => i.p4.map fun text => if isHexPairs text then "X'" ++ text ++ "'"
    else asBlob (quoteText text)
  | .null => some "NULL"
  | .variable => match i.p4 with
    | some name => some (if name.isEmpty then "?" else name)
    | none => some "?"

/-- The instruction whose value a register holds at a position: the last one before it that writes
the register, or else the first one after it. -/
def writerFor (p : Program) (pos : Nat) (register : Int) : Option Nat :=
  (p.lastWriter pos register).or (p.nextWriter pos register)

/-- The constant in a register at a position, looking at `reach` registers at most. -/
def constantWithin (p : Program) : (reach : Nat) → (pos : Nat) → (register : Int) → Option String
  | 0, _, _ => none
  | reach + 1, pos, register => do
    let writer ← p.writerFor pos register
    let i ← p.at? writer
    match i.opcode with
    | .constant kind => constantText i kind
    | .copy => p.constantWithin reach writer (← i.n1)
    | _ => none

/-- Whether an instruction turns the content of a register into a BLOB: a cast of the register, or
an affinity that gives it the code `A`. -/
def makesBlob (i : Instr) (register : Int) : Bool :=
  match i.opcode with
  | .cast => i.n1 == some register && i.n2 == some blobCode
  | .affinity =>
    match i.n1, i.n2, i.p4 with
    | some first, some count, some codes =>
      let offset := registerOffset register first
      0 ≤ offset && offset < count && codes.toList[offset.toNat]? == some 'A'
    | _, _, _ => false
  | _ => false

/-- Whether the content of a register was turned into a BLOB since the register was last written. -/
def isBlobAt (p : Program) (pos : Nat) (register : Int) : Bool :=
  (p.searchBack pos (makesBlob · register) (·.writes register)).isSome

/-- The constant in a register at a position, as SQL writes it; `none` when the register holds
anything but a constant. -/
def valueAt? (p : Program) (pos : Nat) (register : Int) : Option String :=
  (p.constantWithin copyReach pos register).map fun text =>
    if p.isBlobAt pos register then asBlob text else text

end Program

/-- A comparison of a column with a constant, as it is reported. -/
def comparisonText (column : String) (relation : String) (constant : String) : String :=
  quoteName column ++ relation ++ constant

end IndexAdvisor
