import IndexAdvisor.Statement.Grammar.Name

/-!
# Expressions

An expression is an operand and what operators add to it. Each operator has a binding power; the
operand after it takes all operators that bind tighter. An operand stands one level of nesting
deeper than what it belongs to, and so does a query or a statement inside another phrase: `Level`
holds the phrases of the next level, and there are no more levels below the last.

Models the part of the parser behind `parse_sql` that reads expressions.
-/

namespace IndexAdvisor.Statement

open Recognizer

/-- The phrases that may be nested in others, one level further down. -/
structure Level where
  statement : Recognizer
  query : Recognizer
  /-- Joined tables. -/
  tables : Recognizer
  /-- An expression with the operators that bind tighter than a given power. -/
  expr : Nat → Recognizer

/-- One or more expressions with commas between them. -/
def exprs (g : Level) : Recognizer := commas (g.expr 0)

/-- The first of two phrases, or the second if that is refused for whatever reason. If both are, the
reason is that of the first. -/
def orInstead (p q : Recognizer) : Recognizer where
  run ts := match p.run ts with
    | .ok rest => .ok rest
    | .error why => match q.run ts with
      | .ok rest => .ok rest
      | .error _ => .error why
  length_le {ts rest} h := by
    split at h
    · next hp => cases h; exact p.length_le hp
    · split at h
      · next hq => cases h; exact q.length_le hq
      · cases h

/-- What follows the names of a path, if that is a point and a star. A point that neither a name nor
a star follows is a mismatch. -/
def afterStar? : List Piece → Except Refusal (Option (List Piece))
  | .mark "." :: .mark "*" :: rest => .ok (some rest)
  | .mark "." :: t :: rest => if isName t then afterStar? rest else .error .mismatch
  | .mark "." :: [] => .error .mismatch
  | _ => .ok none

/-- What follows a star at the front, which may have a path before it. -/
def star? : List Piece → Except Refusal (Option (List Piece))
  | .mark "*" :: rest => .ok (some rest)
  | .word _ :: rest => afterStar? rest
  | .quoted _ :: rest => afterStar? rest
  | .string :: rest => afterStar? rest
  | _ => .ok none

theorem afterStar?_length_le {ts rest : List Piece} (h : afterStar? ts = .ok (some rest)) :
    rest.length ≤ ts.length := by
  fun_induction afterStar? ts with
  | case1 => cases h; simp; omega
  | case2 _ _ _ _ ih => have := ih h; simp; omega
  | case3 => cases h
  | case4 => cases h
  | case5 => cases h

theorem star?_length_le {ts rest : List Piece} (h : star? ts = .ok (some rest)) :
    rest.length ≤ ts.length := by
  unfold star? at h
  split at h
  · cases h; simp
  all_goals first | (have hrest := afterStar?_length_le h; simp; omega) | cases h

/-- A star, with `q` in its place where none comes. -/
def starOr (q : Recognizer) : Recognizer where
  run ts := match star? ts with
    | .ok (some rest) => .ok rest
    | .ok none => q.run ts
    | .error why => .error why
  length_le {ts rest} h := by
    split at h
    · next hs => cases h; exact star?_length_le hs
    · exact q.length_le h
    · cases h

/-- A term of an ordering. -/
def orderTerm (g : Level) : Recognizer :=
  g.expr 0 >> maybeOne ["ASC", "DESC"] >> given ["NULLS"] (oneOf ["FIRST", "LAST"])

/-- An ordering, which may be left out. -/
def ordering (g : Level) : Recognizer := given ["ORDER", "BY"] (commas (orderTerm g))

/-- The end of a window frame. -/
def frameBound (g : Level) : Recognizer :=
  givenElse ["CURRENT", "ROW"] nothing
    (givenElse ["UNBOUNDED"] nothing (g.expr 0) >> oneOf ["PRECEDING", "FOLLOWING"])

/-- A window between parentheses. -/
def window (g : Level) : Recognizer :=
  inParens (base >> given ["PARTITION", "BY"] (exprs g) >> ordering g >> frame)
where
  /-- The window that this one goes on from. -/
  base : Recognizer := choose nextBase (skip 1 nothing) nothing
  /-- Whether the name of a window comes next. -/
  nextBase : List Piece → Bool
    | .word w :: _ => !(["PARTITION", "ORDER", "ROWS", "RANGE", "GROUPS"].contains w)
    | .quoted _ :: _ => true
    | _ => false
  /-- The rows around the current one. -/
  frame : Recognizer :=
    choose (nextIn ["ROWS", "RANGE", "GROUPS"])
      (skip 1 (givenElse ["BETWEEN"] (frameBound g >> word "AND" >> frameBound g) (frameBound g)))
      nothing

/-- The arguments of a function and what may follow them. -/
def call (g : Level) : Recognizer :=
  inParens (choose (nextMark ")") nothing arguments) >>
    given ["WITHIN", "GROUP"] (inParens (words ["ORDER", "BY"] >> commas (orderTerm g))) >>
    given ["FILTER"] (givenMark "(" (given ["WHERE"] (g.expr 0 >> mark ")"))) >>
    cases [(["IGNORE", "NULLS"], nothing), (["RESPECT", "NULLS"], nothing)] nothing >>
    given ["OVER"] (choose (nextMark "(") (window g) name)
where
  /-- The arguments themselves. -/
  arguments : Recognizer :=
    maybeOne ["ALL", "DISTINCT"] >> commas argument >> ordering g >> given ["LIMIT"] (g.expr 0)
  /-- An argument, with or without its name. -/
  argument : Recognizer :=
    choose named (skip 2 (starOr (g.expr 0))) (starOr (g.expr 0))
  /-- Whether an argument comes with its name. -/
  named : List Piece → Bool
    | t :: .mark "=>" :: _ => isName t
    | _ => false

/-- What may follow the name of a column or a function. -/
def afterName (g : Level) : Recognizer := choose (nextMark "(") (call g) nothing

/-- A choice by cases, after its first word. -/
def caseExpr (g : Level) : Recognizer :=
  choose (nextIn ["WHEN"]) nothing (g.expr 0) >> word "WHEN" >> branch >>
    (loop fun t _ => if t == .word "WHEN" then some branch else none) >>
    given ["ELSE"] (g.expr 0) >> word "END"
where
  /-- A condition and a result. -/
  branch : Recognizer := g.expr 0 >> word "THEN" >> g.expr 0

/-- A substring, after its first word. -/
def substring (g : Level) : Recognizer := inParens (g.expr 0 >> part "FROM" >> part "FOR")
where
  /-- A bound of the substring, after a word or a comma. -/
  part (w : String) : Recognizer := givenElse [w] (g.expr 0) (givenMark "," (g.expr 0))

/-- An operand that begins with a word. Some words begin a phrase of their own; most of these may be
a name as well, if no such phrase follows. -/
def wordExpr (g : Level) : Recognizer :=
  cases [
    (["TRUE"], nothing), (["FALSE"], nothing), (["NULL"], nothing),
    (["NOT"], mayName (givenElse ["EXISTS"] (inParens g.query) (g.expr 15))),
    (["CASE"], mayName (caseExpr g)),
    (["CAST"], mayName cast), (["TRY_CAST"], mayName cast), (["SAFE_CAST"], mayName cast),
    (["EXISTS"], inParens g.query),
    (["EXTRACT"], mayName (inParens (name >> word "FROM" >> g.expr 0))),
    (["POSITION"], mayName (inParens (g.expr 20 >> word "IN" >> g.expr 0))),
    (["SUBSTRING"], mayName (substring g)), (["SUBSTR"], mayName (substring g)),
    (["TRIM"], inParens (maybeOne ["BOTH", "LEADING", "TRAILING"] >> g.expr 0 >>
      given ["FROM"] (g.expr 0))),
    (["INTERVAL"], g.expr 100 >> maybeOne ["YEAR", "MONTH", "DAY", "HOUR", "MINUTE", "SECOND"])]
    (name >> afterName g)
where
  /-- A phrase whose first word may also be a name. -/
  mayName (p : Recognizer) : Recognizer := orInstead p (afterName g)
  /-- A change of type, after its first word. -/
  cast : Recognizer := inParens (g.expr 0 >> word "AS" >> typeName >> given ["FORMAT"] value)

/-- An operand. -/
def operand (g : Level) : Recognizer :=
  (oneOf markingTypes >> value) <|> choose nextWord (wordExpr g)
    (choose (nextMark "(")
      (inParens (choose (nextIn ["SELECT", "WITH"]) g.query (exprs g)))
      (choose (fun ts => nextMark "+" ts || nextMark "-" ts) (skip 1 (g.expr 40)) value))
where
  /-- Whether a word comes next. -/
  nextWord : List Piece → Bool
    | .word _ :: _ | .quoted _ :: _ => true
    | _ => false

/-- The binding powers of the words that are operators. -/
def wordPowers : List (String × Nat) := [
  ("OR", 5), ("AND", 10), ("IS", 17), ("LIKE", 19), ("ILIKE", 19), ("RLIKE", 19), ("REGEXP", 19),
  ("MATCH", 19), ("SIMILAR", 19), ("IN", 20), ("BETWEEN", 20), ("OVERLAPS", 20), ("XOR", 24)]

/-- The binding powers of the marks that are operators. -/
def markPowers : List (String × Nat) := [
  ("->", 16), ("->>", 16), ("#>", 16), ("#>>", 16), ("#-", 16), ("@>", 16), ("<@", 16), ("@?", 16),
  ("@@", 16), ("=", 20), ("==", 20), (":=", 20), ("<", 20), ("<=", 20), ("<>", 20), (">", 20),
  (">=", 20), ("<=>", 20), ("~", 20), ("~*", 20), ("!~", 20), ("!~*", 20), ("~~", 20), ("~~*", 20),
  ("!~~", 20), ("!~~*", 20), ("|", 21), ("^", 22), ("&", 23), ("+", 30), ("-", 30), ("*", 40),
  ("/", 40), ("%", 40), ("||", 40), ("::", 50)]

/-- The binding power of an operator before the pieces that follow it; 0 for what is no operator. -/
def power (t : Piece) (ts : List Piece) : Nat :=
  match t with
  | .word "NOT" =>
    match ts with
    | .word w :: _ =>
      if ["IN", "BETWEEN"].contains w then 20
      else if ["LIKE", "ILIKE", "RLIKE", "REGEXP", "SIMILAR"].contains w then 19
      else 0
    | _ => 0
  | .word "AT" => if begins ["TIME", "ZONE"] ts then 41 else 0
  | .word w => (wordPowers.lookup w).getD 0
  | .mark m => (markPowers.lookup m).getD 0
  | _ => 0

/-- What follows `IN`. -/
def membership (g : Level) : Recognizer :=
  inParens (g.query <|> choose (nextMark ")") nothing (exprs g))

/-- What follows `BETWEEN`. -/
def range (g : Level) : Recognizer := g.expr 20 >> word "AND" >> g.expr 20

/-- What follows `LIKE`. -/
def likeness (g : Level) : Recognizer :=
  maybe ["ANY"] >> g.expr 19 >> given ["ESCAPE"] (one (· == .string))

/-- What follows `SIMILAR`. -/
def similarity (g : Level) : Recognizer :=
  word "TO" >> g.expr 19 >> given ["ESCAPE"] (one (· == .string))

/-- What follows `IS`. -/
def test (g : Level) : Recognizer :=
  maybe ["NOT"] >> cases [
    (["NULL"], nothing), (["TRUE"], nothing), (["FALSE"], nothing), (["UNKNOWN"], nothing),
    (["DISTINCT", "FROM"], g.expr 0)]
    (maybeOne ["NFC", "NFD", "NFKC", "NFKD"] >> word "NORMALIZED")

/-- The right side of a comparison or a calculation. -/
def rightSide (g : Level) (p : Nat) : Recognizer :=
  choose (nextIn ["ANY", "ALL", "SOME"])
    (skip 1 (choose nextSubselect (g.expr p) (inParens (g.expr p))))
    (g.expr p)
where
  /-- Whether a sub-select comes next. -/
  nextSubselect : List Piece → Bool
    | .mark "(" :: ts => nextIn ["SELECT", "WITH"] ts
    | _ => false

/-- What follows an operator of a given power. -/
def afterOperator (g : Level) (t : Piece) (p : Nat) : Recognizer :=
  match t with
  | .word "IS" => test g
  | .word "IN" => membership g
  | .word "BETWEEN" => range g
  | .word "LIKE" => likeness g
  | .word "ILIKE" => likeness g
  | .word "SIMILAR" => similarity g
  | .word "RLIKE" => g.expr 19
  | .word "REGEXP" => g.expr 0
  | .word "MATCH" => g.expr 0
  | .word "NOT" =>
    cases [
      (["IN"], membership g), (["BETWEEN"], range g), (["LIKE"], likeness g),
      (["ILIKE"], likeness g), (["SIMILAR"], similarity g), (["RLIKE"], g.expr 19),
      (["REGEXP"], g.expr 19)] (refuse .mismatch)
  | .word "AT" => words ["TIME", "ZONE"] >> g.expr 41
  | .mark "::" => typeName
  | _ => rightSide g p

/-- An expression with the operators that bind tighter than a given power. -/
def expr (g : Level) (least : Nat) : Recognizer :=
  operand g >> given ["COLLATE"] path >> loop field >> loop operator
where
  /-- A field of what precedes a point. -/
  field (t : Piece) (ts : List Piece) : Option Recognizer :=
    if t == .mark "." && !nextMark "*" ts then some (one (· == .string) <|> g.expr 100) else none
  /-- An operator and its right side. -/
  operator (t : Piece) (ts : List Piece) : Option Recognizer :=
    let p := power t ts
    if least < p then some (afterOperator g t p) else none

end IndexAdvisor.Statement
