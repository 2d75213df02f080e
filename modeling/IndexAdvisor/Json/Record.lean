import IndexAdvisor.Json.Basic
import IndexAdvisor.Text.Numeral

/-!
# Records in JSON

A record is written as an object, or as an array of its fields in their declared order. In an
object, unknown keys are passed over and a known key must not be repeated. A field may have a value
for when it is left out; in an array only fields at the end can be left out, and there must be none
too many.

Models the readers that are derived from the declarations of the records.
-/

namespace IndexAdvisor.Json

/-- A field of a record, and what its absence means. -/
inductive Field where
  | required (name : String)
  /-- Stands for null where an object has no such key. -/
  | nullable (name : String)
  /-- Has a value of its own when it is left out. -/
  | defaulted (name : String) (value : Json)

namespace Field

/-- The key of a field. -/
def name : Field → String
  | required name => name
  | nullable name => name
  | defaulted name _ => name

/-- What an object means that has no such key. -/
def absent? : Field → Option Json
  | required _ => none
  | nullable _ => some .null
  | defaulted _ value => some value

/-- What an array means that ends before the field. -/
def beyond? : Field → Option Json
  | defaulted _ value => some value
  | _ => none

/-- The value of a field among the fields of an object. -/
def find? (fields : List (String × Json)) (f : Field) : Option Json :=
  match fields.filter (·.1 == f.name) with
  | [] => f.absent?
  | [(_, v)] => some v
  | _ => none

end Field

/-- The values of the declared fields, one for each. -/
def record? (declared : List Field) : Json → Option (List Json)
  | .object fields => declared.mapM (Field.find? fields)
  | .array items =>
    if declared.length < items.length then none
    else ((declared.drop items.length).mapM Field.beyond?).map (items ++ ·)
  | _ => none

/-- The name of a choice without content: a string, or an object whose only field is null. -/
def choice? : Json → Option String
  | .string s => some s
  | .object [(s, .null)] => some s
  | _ => none

/-- The value of an integer that fits a signed 64-bit word. -/
def int64? (v : Json) : Option Int := v.int?.filter fitsInt64

/-- The value of an integer that fits an unsigned 64-bit word. -/
def nat64? (v : Json) : Option Nat := v.nat? maxWord64

/-- The value of an integer that fits an unsigned 32-bit word. -/
def nat32? (v : Json) : Option Nat := v.nat? maxWord32

end IndexAdvisor.Json
