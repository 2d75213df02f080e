/-!
# JSON values

A `Json` is what a document says, as far as the records of this library can take it in. Numbers are
integers of any size; whatever is well formed but fits no record (a fraction, an exponent, a
negative zero, a text with half a surrogate pair) is `foreign`, so that a reader can pass over it
and still refuse it where a field is wanted. The fields of an object keep their order and their
repeats.

The small readers below are partial on purpose: a value of another kind has no answer.

Models the values of the JSON library that reads and prints the records.
-/

namespace IndexAdvisor

/-- A JSON value. -/
inductive Json where
  | null
  | bool (b : Bool)
  | number (n : Int)
  | string (s : String)
  | array (items : List Json)
  | object (fields : List (String × Json))
  /-- A well-formed value that no record can hold, by a document of it. -/
  | foreign (text : String)

namespace Json

instance : Inhabited Json := ⟨null⟩

/-- The text of a string. -/
def string? : Json → Option String
  | string s => some s
  | _ => none

/-- The truth value of a boolean. -/
def bool? : Json → Option Bool
  | bool b => some b
  | _ => none

/-- The value of an integer. -/
def int? : Json → Option Int
  | number n => some n
  | _ => none

/-- The value of an integer from 0 to `max`. -/
def nat? (max : Nat) : Json → Option Nat
  | number n => if 0 ≤ n ∧ n ≤ max then some n.toNat else none
  | _ => none

/-- The items of an array. -/
def items? : Json → Option (List Json)
  | array items => some items
  | _ => none

/-- What `read` makes of a value that may be null. -/
def nullOr? {α : Type} (read : Json → Option α) : Json → Option (Option α)
  | null => some none
  | v => (read v).map some

/-- What `read` makes of every item of an array, if it takes them all. -/
def list? {α : Type} (read : Json → Option α) (v : Json) : Option (List α) :=
  v.items?.bind fun items => items.mapM read

/-- The value of an optional text. -/
def ofString? : Option String → Json
  | some s => string s
  | none => null

/-- An array of texts. -/
def ofStrings (texts : List String) : Json := array (texts.map string)

/-- A natural number. -/
def ofNat (n : Nat) : Json := number n

end Json

end IndexAdvisor
