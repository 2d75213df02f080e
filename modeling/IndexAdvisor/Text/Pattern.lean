import IndexAdvisor.Text.Letter

/-!
# Patterns and their replacement

A pattern is tried at a spot of a text and takes some characters from there. Where there is a
choice, the first way that lets the whole pattern succeed is taken: a row takes as many characters
as it can and gives back one after the other, an optional part is taken if it can be. `run` states
this by handing on what is left to do, so that a later part can reject an earlier choice.

`replaceAll` goes through a text from left to right and puts a replacement for whatever a pattern
takes; replaced parts do not overlap.

Models the search and replacement that `sanitize_error` is made of.
-/

namespace IndexAdvisor

/-- A pattern over the characters of a text. -/
inductive Pattern where
  | nothing
  /-- A boundary between a word character and something else. It takes no character. -/
  | edge
  /-- At least `least` characters of a set, and at most `most` if that is given. -/
  | row (set : Char → Bool) (least : Nat) (most : Option Nat)
  | seq (first second : Pattern)
  | optional (part : Pattern)

/-- A place in a text: the character before it, the text from it on, and how many characters have
been taken on the way to it. -/
structure Spot where
  before : Option Char
  rest : List Char
  taken : Nat := 0

namespace Spot

/-- Whether exactly one of the two characters around the spot is a word character. -/
def atEdge (s : Spot) : Bool := s.before.any isWordChar != s.rest.head?.any isWordChar

/-- The spots reached from a spot by taking characters of a set, at least `least` and no more than
`room`: the farthest first, followed by `near`. -/
def spread (set : Char → Bool) (least : Nat) (room : Option Nat) (before : Option Char)
    (taken : Nat) (near : List Spot) (rest : List Char) : List Spot :=
  let near := if least = 0 then ⟨before, rest, taken⟩ :: near else near
  match rest with
  | [] => near
  | c :: cs =>
    if set c && room != some 0 then
      spread set (least - 1) (room.map (· - 1)) (some c) (taken + 1) near cs
    else near

end Spot

namespace Pattern

/-- One character. -/
def one (c : Char) : Pattern := row (· == c) 1 (some 1)

/-- A given text. -/
def literal (text : String) : Pattern := text.toList.foldr (fun c rest => seq (one c) rest) nothing

/-- One or more characters of a set. -/
def oneOrMore (set : Char → Bool) : Pattern := row set 1 none

/-- Any number of characters of a set. -/
def anyNumber (set : Char → Bool) : Pattern := row set 0 none

/-- One pattern after the other. -/
def all (parts : List Pattern) : Pattern := parts.foldr seq nothing

/-- The answer of `andThen` at the first spot where the pattern can end and `andThen` has one. -/
def run {α : Type} : Pattern → (andThen : Spot → Option α) → Spot → Option α
  | nothing, andThen, s => andThen s
  | edge, andThen, s => if s.atEdge then andThen s else none
  | row set least most, andThen, s =>
    (Spot.spread set least most s.before s.taken [] s.rest).findSome? andThen
  | seq first second, andThen, s => first.run (second.run andThen) s
  | optional part, andThen, s =>
    match part.run andThen s with
    | some a => some a
    | none => andThen s

/-- How many characters the pattern takes from the front of a text that has `before` before it. -/
def length? (p : Pattern) (before : Option Char) (text : List Char) : Option Nat :=
  p.run (some ·.taken) { before, rest := text }

/-- The characters that a pattern passes over in any number before all else. If the pattern fails at
such a character, it fails at the next one too. -/
def leads : Pattern → Char → Bool
  | row set 0 none => set
  | seq first _ => first.leads
  | _ => fun _ => false

/-- Replaces what the pattern takes in a text. `skip` characters belong to the last part taken;
`barred` says that the pattern is known to fail here; what has been written stands in `done`, last
first. -/
def replaceFrom (p : Pattern) (replacement : List Char) :
    (skip : Nat) → (barred : Bool) → (before : Option Char) → (done : List Char) →
      List Char → List Char
  | _, _, _, done, [] => done.reverse
  | skip + 1, _, _, done, c :: cs => replaceFrom p replacement skip false (some c) done cs
  | 0, barred, before, done, c :: cs =>
    match if barred then none else p.length? before (c :: cs) with
    | some (n + 1) => replaceFrom p replacement n false (some c) (replacement.reverse ++ done) cs
    | _ => replaceFrom p replacement 0 (p.leads c) (some c) (c :: done) cs

/-- A text with a replacement for every part that the pattern takes. -/
def replaceAll (p : Pattern) (replacement : List Char) (text : List Char) : List Char :=
  p.replaceFrom replacement 0 false none [] text

end Pattern

end IndexAdvisor
