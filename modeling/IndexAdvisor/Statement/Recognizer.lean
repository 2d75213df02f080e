import IndexAdvisor.Sql.Token
import IndexAdvisor.Text.Ascii

/-!
# Recognizers

A recognizer takes a phrase off the front of a row of pieces, or refuses. Pieces are the tokens of a
statement as far as a grammar looks at them: words in capitals, so that the case of a keyword does
not matter, and literals without their content.

Choices are made by what comes next. Once the words that open an optional phrase have been seen, the
phrase must follow; `<|>` is for the few places where a phrase has to be tried first. A phrase that
is nested too deeply ends the whole attempt, so no other way is tried after it.

No recognizer makes its row longer (`length_le`), which is why the loops below end.

Models the ways in which the parser behind `parse_sql` goes through its tokens.
-/

namespace IndexAdvisor.Statement

/-- A token as a grammar sees it. -/
inductive Piece where
  /-- A word without quotes, in capitals. -/
  | word (w : String)
  /-- A quoted word, and whether its quotes are double ones. -/
  | quoted (double : Bool)
  | number
  | string
  /-- A hexadecimal or national string. -/
  | literal
  | placeholder
  | mark (m : String)
  deriving DecidableEq, Repr

/-- The piece that a token is. -/
def Piece.ofToken (t : Sql.Token) : Piece :=
  match t with
  | .word none w => .word (upperCase w)
  | .word (some quote) _ => .quoted (quote == .double)
  | .number _ _ => .number
  | .string _ => .string
  | .nationalString _ | .hexString _ => .literal
  | .placeholder _ => .placeholder
  | t => .mark t.render

/-- Why a phrase is not recognized. -/
inductive Refusal where
  | mismatch
  | tooDeep
  deriving DecidableEq, Repr

/-- Takes a phrase off the front of a row of pieces. -/
structure Recognizer where
  run : List Piece → Except Refusal (List Piece)
  length_le : ∀ {ts rest : List Piece}, run ts = .ok rest → rest.length ≤ ts.length

namespace Recognizer

/-- The empty phrase. -/
def nothing : Recognizer where
  run ts := .ok ts
  length_le h := by cases h; exact Nat.le_refl _

/-- No phrase at all. -/
def refuse (why : Refusal) : Recognizer where
  run _ := .error why
  length_le h := by cases h

/-- A phrase that is put together only when it is looked for. -/
def delay (p : Unit → Recognizer) : Recognizer := ⟨fun ts => (p ()).run ts, (p ()).length_le⟩

/-- One piece of a set. -/
def one (wanted : Piece → Bool) : Recognizer where
  run
    | t :: ts => if wanted t then .ok ts else .error .mismatch
    | [] => .error .mismatch
  length_le {ts rest} h := by
    cases ts with
    | nil => cases h
    | cons t ts =>
      simp only at h
      split at h
      · cases h; exact Nat.le_succ _
      · cases h

/-- One phrase after the other. -/
@[macro_inline] def seq (p q : Recognizer) : Recognizer where
  run ts := match p.run ts with
    | .ok rest => q.run rest
    | .error why => .error why
  length_le {ts rest} h := by
    split at h
    · next hp => exact Nat.le_trans (q.length_le h) (p.length_le hp)
    · cases h

/-- The first phrase, or if that does not match, the second. -/
@[macro_inline] def either (p q : Recognizer) : Recognizer where
  run ts := match p.run ts with
    | .error .mismatch => q.run ts
    | result => result
  length_le {ts rest} h := by
    split at h
    · exact q.length_le h
    · exact p.length_le h

/-- One of two phrases, depending on what comes next. -/
@[macro_inline] def choose (test : List Piece → Bool) (p q : Recognizer) : Recognizer where
  run ts := if test ts then p.run ts else q.run ts
  length_le {ts rest} h := by
    split at h
    · exact p.length_le h
    · exact q.length_le h

/-- The phrase without the pieces that a first look has told it begins with. -/
@[macro_inline] def skip (n : Nat) (p : Recognizer) : Recognizer where
  run ts := p.run (ts.drop n)
  length_le h := Nat.le_trans (p.length_le h) (by simp)

instance : AndThen Recognizer := ⟨fun p q => seq p (q ())⟩

instance : OrElse Recognizer := ⟨fun p q => either p (q ())⟩

/-- Takes phrases as long as `select` knows what follows the next piece. -/
def repeatedly (select : Piece → List Piece → Option Recognizer) :
    List Piece → Except Refusal (List Piece)
  | [] => .ok []
  | t :: ts =>
    match select t ts with
    | none => .ok (t :: ts)
    | some p =>
      match _h : p.run ts with
      | .ok rest => repeatedly select rest
      | .error why => .error why
termination_by ts => ts.length
decreasing_by
  have := p.length_le _h
  simp only [List.length_cons]
  omega

theorem repeatedly_length_le {select : Piece → List Piece → Option Recognizer}
    {ts rest : List Piece} (h : repeatedly select ts = .ok rest) : rest.length ≤ ts.length := by
  fun_induction repeatedly select ts with
  | case1 => cases h; exact Nat.le_refl _
  | case2 => cases h; exact Nat.le_refl _
  | case3 t ts p _ rest' hp ih =>
    exact Nat.le_trans (ih h) (Nat.le_trans (p.length_le hp) (Nat.le_succ _))
  | case4 => cases h

/-- Phrases one after the other. Each begins with a piece that `select` recognizes by itself and by
what follows it; the answer of `select` is the phrase after that piece. -/
def loop (select : Piece → List Piece → Option Recognizer) : Recognizer :=
  ⟨repeatedly select, repeatedly_length_le⟩

/-- A given mark. -/
def mark (m : String) : Recognizer := one (· == .mark m)

/-- One of some words. -/
def oneOf (ws : List String) : Recognizer := one fun t => match t with
  | .word w => ws.contains w
  | _ => false

/-- A given word. -/
def word (w : String) : Recognizer := one (· == .word w)

/-- Given words in order. -/
def words (ws : List String) : Recognizer := ws.foldr (fun w rest => word w >> rest) nothing

/-- Whether a row begins with given words. -/
def begins : (ws : List String) → List Piece → Bool
  | [], _ => true
  | w :: ws, t :: ts => t == .word w && begins ws ts
  | _ :: _, [] => false

/-- Whether the next piece is one of some words. -/
def nextIn (ws : List String) : List Piece → Bool
  | .word w :: _ => ws.contains w
  | _ => false

/-- Whether the next piece is a given mark. -/
def nextMark (m : String) : List Piece → Bool
  | .mark n :: _ => n == m
  | _ => false

/-- If given words come next, they and `p`; else `q`. -/
@[macro_inline] def givenElse (ws : List String) (p q : Recognizer) : Recognizer :=
  choose (begins ws) (skip ws.length p) q

/-- If given words come next, they and `p`; else nothing. -/
@[macro_inline] def given (ws : List String) (p : Recognizer) : Recognizer := givenElse ws p nothing

/-- If a given mark comes next, it and `p`; else nothing. -/
@[macro_inline] def givenMark (m : String) (p : Recognizer) : Recognizer :=
  choose (nextMark m) (skip 1 p) nothing

/-- If one of some words comes next, it. -/
@[macro_inline] def maybeOne (ws : List String) : Recognizer :=
  choose (nextIn ws) (skip 1 nothing) nothing

/-- If given words come next, those. -/
@[macro_inline] def maybe (ws : List String) : Recognizer := given ws nothing

/-- The phrase that follows the first of several openings that comes next, or else another one. -/
def cases (openings : List (List String × Recognizer)) (otherwise : Recognizer) : Recognizer :=
  openings.foldr (fun opening rest => givenElse opening.1 opening.2 rest) otherwise

/-- One or more phrases with commas between them. -/
def commas (p : Recognizer) : Recognizer :=
  p >> loop fun t _ => if t == .mark "," then some p else none

/-- A phrase in parentheses. -/
def inParens (p : Recognizer) : Recognizer := mark "(" >> p >> mark ")"

/-- Phrases with commas between them in parentheses. -/
def list (p : Recognizer) : Recognizer := inParens (commas p)

/-- A list if a parenthesis comes next. -/
def maybeList (p : Recognizer) : Recognizer := choose (nextMark "(") (list p) nothing

end Recognizer

end IndexAdvisor.Statement
