import IndexAdvisor.Json.Token

/-!
# Reading a JSON document

The tokens of a document are taken one by one. Between two tokens the reader knows the arrays and
objects that are still open, innermost first, and what may come next; that is a `Reading`. One token
takes it to the next reading or is an error, so that a document of any depth is read in one fold
over its tokens.

Models how the JSON library reads a document.
-/

namespace IndexAdvisor.Json

/-- An open array or object. What it holds so far stands last first. -/
inductive Frame where
  | items (done : List Json)
  /-- An object whose field under `key` is being read. A key may be a string without a text. -/
  | fields (done : List (Option String × Json)) (key : Option String)

/-- What may come next, and what is still open. -/
inductive Reading where
  | value (outer : List Frame)
  /-- A value or the end of an array that has just been opened. -/
  | valueOrEnd (outer : List Frame)
  | key (done : List (Option String × Json)) (outer : List Frame)
  /-- A key or the end of an object that has just been opened. -/
  | keyOrEnd (outer : List Frame)
  | colon (done : List (Option String × Json)) (key : Option String) (outer : List Frame)
  /-- A comma or the end, after a value. -/
  | after (v : Json) (outer : List Frame)

/-- A string without a text, as a value. -/
def textless : Json := .foreign (String.ofList noText)

/-- An object from its fields. If a key has no text, the whole object counts as one. -/
def closeObject (done : List (Option String × Json)) : Json :=
  match done.reverse.mapM fun (k, v) => k.map (·, v) with
  | some fields => .object fields
  | none => textless

namespace Reading

/-- Takes a token where a value begins. -/
def begin? (outer : List Frame) : Token → Option Reading
  | .text (some s) => some (after (.string s) outer)
  | .text none => some (after textless outer)
  | .leaf v => some (after v outer)
  | .openArray => some (valueOrEnd outer)
  | .openObject => some (keyOrEnd outer)
  | _ => none

/-- Takes one token. -/
def step? : Reading → Token → Option Reading
  | value outer, t => begin? outer t
  | valueOrEnd outer, .closeArray => some (after (.array []) outer)
  | valueOrEnd outer, t => begin? (.items [] :: outer) t
  | key done outer, .text k => some (colon done k outer)
  | keyOrEnd outer, .closeObject => some (after (.object []) outer)
  | keyOrEnd outer, .text k => some (colon [] k outer)
  | colon done k outer, .colon => some (value (.fields done k :: outer))
  | after v (.items done :: outer), .comma => some (value (.items (v :: done) :: outer))
  | after v (.items done :: outer), .closeArray => some (after (.array (v :: done).reverse) outer)
  | after v (.fields done k :: outer), .comma => some (key ((k, v) :: done) outer)
  | after v (.fields done k :: outer), .closeObject =>
    some (after (closeObject ((k, v) :: done)) outer)
  | _, _ => none

/-- The value read, once nothing is open any more. -/
def result? : Reading → Option Json
  | after v [] => some v
  | _ => none

end Reading

/-- The value whose tokens are given. -/
def ofTokens? (ts : List Token) : Option Json :=
  (ts.foldlM Reading.step? (.value [])).bind Reading.result?

/-- The value of a document. -/
def parse? (document : String) : Option Json := (tokenize? document).bind ofTokens?

end IndexAdvisor.Json
