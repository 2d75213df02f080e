/-!
# Decimal numerals within a range

Operands, settings and positions in a result list are written as decimal numerals: an optional sign
and one or more of the digits 0 to 9, with no blanks, grouping marks or other characters. A numeral
whose value leaves the range of its reader has no value.

Models the readers of numbers in `parse_int`, `parse_env_num` and `resolve_order_term`.
-/

namespace IndexAdvisor

/-- The largest value of an unsigned 64-bit word. -/
def maxWord64 : Nat := 0xFFFFFFFFFFFFFFFF

/-- The largest value of an unsigned 32-bit word. -/
def maxWord32 : Nat := 0xFFFFFFFF

/-- The value of a run of decimal digits, most significant first. -/
def digitsValue (cs : List Char) : Nat := cs.foldl (fun n c => 10 * n + (c.toNat - 48)) 0

/-- The value of a list of characters that is one or more decimal digits. -/
def parseDigits? (cs : List Char) : Option Nat :=
  if cs.isEmpty || !cs.all Char.isDigit then none else some (digitsValue cs)

/-- Reads an unsigned numeral of at most `max`; one plus sign may lead it. -/
def parseNat? (max : Nat) (s : String) : Option Nat :=
  let digits := match s.toList with
    | '+' :: cs => cs
    | cs => cs
  (parseDigits? digits).filter (· ≤ max)

/-- Whether an integer fits a signed 64-bit word. -/
def fitsInt64 (n : Int) : Bool := -0x8000000000000000 ≤ n && n < 0x8000000000000000

/-- Reads a signed numeral that fits 64 bits; one plus or minus sign may lead it. -/
def parseInt? (s : String) : Option Int :=
  let value := match s.toList with
    | '-' :: cs => (parseDigits? cs).map fun n => -(n : Int)
    | '+' :: cs => (parseDigits? cs).map Int.ofNat
    | cs => (parseDigits? cs).map Int.ofNat
  value.filter fitsInt64

end IndexAdvisor
