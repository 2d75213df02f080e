import IndexAdvisor.Program.Value
import IndexAdvisor.Proofs.Covering.Verdict
import IndexAdvisor.Proofs.Sql.Spelling

/-!
# Quoted names and texts read back

The advisor writes SQL where it shows a comparison and where it suggests an index. Names stand
between double quotes and texts between single quotes, and nothing is known about the characters of
either: a name may contain quotes, operators, parentheses or the beginning of a comment. A quote
inside is doubled, so the quote that closes is the first one that stands alone, and the lexer finds
it whatever stands inside (`quotedBody_doubled`).

> `quoting_reads_back`: a comparison is read as a name, an operator and a text, so no two different
> comparisons look the same; a suggestion is read as `CREATE INDEX` with the name of the index, the
> name of the table and its columns.
-/

namespace IndexAdvisor

/-! ## Doubling is undone -/

theorem halved_cons_of_ne {mark c : Char} (h : c ≠ mark) (cs : List Char) :
    halved mark (c :: cs) = c :: halved mark cs := by
  cases cs with
  | nil => rfl
  | cons d ds => rw [halved, if_neg fun hboth => h hboth.1]

theorem halved_doubled (mark : Char) (cs : List Char) : halved mark (doubled mark cs) = cs := by
  induction cs with
  | nil => rfl
  | cons c cs ih =>
    rw [doubled]
    by_cases hc : c = mark
    · rw [if_pos hc, halved, if_pos ⟨hc, hc⟩, ih]
    · rw [if_neg hc, halved_cons_of_ne hc, ih]

theorem doubled_injective (mark : Char) : Function.Injective (doubled mark) :=
  Function.LeftInverse.injective (halved_doubled mark)

namespace Sql

namespace Lexer

theorem quotedFrom_doubled {mark : Char} (done cs : List Char) {tail : List Char}
    (htail : Stops (· == mark) tail) :
    quotedFrom mark done (doubled mark cs ++ mark :: tail) =
      some (done.reverse ++ doubled mark cs, tail) := by
  induction cs generalizing done with
  | nil => rw [doubled, List.nil_append, List.append_nil, quotedFrom_close done htail]
  | cons c cs ih =>
    rw [doubled]
    by_cases hc : c = mark
    · -- two marks: the first one is doubled by the second one, and the body goes on
      rw [if_pos hc, List.cons_append, List.cons_append, quotedFrom.eq_def]
      dsimp only
      rw [if_neg (not_not_intro hc), if_pos hc, ih]
      simp
    · rw [if_neg hc, List.cons_append, quotedFrom.eq_def]
      dsimp only
      rw [if_pos hc, ih]
      simp

/-- The body of a quoted text ends where the text does. -/
theorem quotedBody_doubled {mark : Char} (cs : List Char) {tail : List Char}
    (htail : Stops (· == mark) tail) :
    quotedBody mark (doubled mark cs ++ mark :: tail) = some (doubled mark cs, tail) :=
  quotedFrom_doubled [] cs htail

end Lexer

open Lexer

/-! ## Quoted tokens -/

/-- A token is a name between double quotes; the doubled quotes inside stand for one each. -/
def Token.Names (t : Token) (name : String) : Prop :=
  ∃ body, t = .word (some .double) body ∧ String.ofList (halved '"' body.toList) = name

/-- A token is a text between single quotes; the doubled quotes inside stand for one each. -/
def Token.Tells (t : Token) (text : String) : Prop :=
  ∃ body, t = .string body ∧ String.ofList (halved '\'' body.toList) = text

/-- The token that a name is quoted as. -/
def nameToken (name : String) : Token :=
  .word (some .double) (String.ofList (doubled '"' name.toList))

/-- The token that a text is quoted as. -/
def textToken (text : String) : Token := .string (String.ofList (doubled '\'' text.toList))

theorem nameToken_names (name : String) : (nameToken name).Names name := by
  refine ⟨_, rfl, ?_⟩
  rw [String.toList_ofList, halved_doubled, String.ofList_toList]

theorem textToken_tells (text : String) : (textToken text).Tells text := by
  refine ⟨_, rfl, ?_⟩
  rw [String.toList_ofList, halved_doubled, String.ofList_toList]

theorem nameToken_inj {a b : String} (h : nameToken a = nameToken b) : a = b := by
  have hbody := String.ofList_inj.1 (Token.word.inj h).2
  exact String.toList_inj.1 (doubled_injective '"' hbody)

theorem textToken_inj {a b : String} (h : textToken a = textToken b) : a = b := by
  have hbody := String.ofList_inj.1 (Token.string.inj h)
  exact String.toList_inj.1 (doubled_injective '\'' hbody)

variable {done : List Token} {tail : List Char}

theorem tokensFrom_quoteName (name : String) (htail : Stops (· == '"') tail) :
    tokensFrom done ((quoteName name).toList ++ tail) =
      tokensFrom (nameToken name :: done) tail := by
  rw [quoteName, quoted, String.toList_ofList, List.cons_append, List.append_assoc,
    List.singleton_append]
  apply tokensFrom_token
  show quotedToken (.word (some .double)) (quotedBody '"' _) = _
  rw [quotedBody_doubled _ htail]
  rfl

theorem tokensFrom_quoteText (text : String) (htail : Stops (· == '\'') tail) :
    tokensFrom done ((quoteText text).toList ++ tail) =
      tokensFrom (textToken text :: done) tail := by
  rw [quoteText, quoted, String.toList_ofList, List.cons_append, List.append_assoc,
    List.singleton_append]
  apply tokensFrom_token
  show quotedToken .string (quotedBody '\'' _) = _
  rw [quotedBody_doubled _ htail]
  rfl

/-! ## Comparisons -/

/-- The token that a relation is read as; the two spellings of inequality are one operator. -/
def relationToken : Relation → Token
  | .ne => .symbol "<>"
  | r => .symbol r.sql

theorem relationToken_inj {r r' : Relation} (h : relationToken r = relationToken r') : r = r' := by
  revert h
  cases r <;> cases r' <;> decide

theorem tokensFrom_sql (r : Relation) :
    tokensFrom done (r.sql.toList ++ '\'' :: tail) =
      tokensFrom (relationToken r :: done) ('\'' :: tail) := by
  cases r with
  | _ => exact tokensFrom_token rfl

theorem quoteText_head (text : String) : ∃ inside, (quoteText text).toList = '\'' :: inside := by
  rw [quoteText, quoted, String.toList_ofList]
  exact ⟨_, rfl⟩

/-- A comparison with a text has three tokens. -/
theorem tokenize?_comparisonText (column : String) (r : Relation) (text : String) :
    tokenize? (comparisonText column r.sql (quoteText text)) =
      some [nameToken column, relationToken r, textToken text] := by
  obtain ⟨inside, hinside⟩ := quoteText_head text
  have hstops : Stops (· == '"') (r.sql.toList ++ '\'' :: inside) := by
    cases r with
    | _ => exact stops_cons.2 rfl
  rw [tokenize?, comparisonText, String.toList_append, String.toList_append, hinside,
    List.append_assoc, tokensFrom_quoteName column hstops, tokensFrom_sql, ← hinside,
    ← List.append_nil (quoteText text).toList, tokensFrom_quoteText text stops_nil, tokensFrom]
  rfl

/-! ## Suggestions -/

theorem stops_quoteName {p : Char → Bool} (hp : p '"' = false) (name : String) (tail : List Char) :
    Stops p ((quoteName name).toList ++ tail) := by
  rw [quoteName, quoted, String.toList_ofList]
  exact stops_cons.2 hp

theorem scan_openParen (cs : List Char) : scan '(' cs = .token .openParen cs := rfl

theorem scan_closeParen (cs : List Char) : scan ')' cs = .token .closeParen cs := rfl

theorem scan_comma (cs : List Char) : scan ',' cs = .token .comma cs := rfl

/-- The columns of a suggestion, with commas between them. -/
def columnsText (columns : List String) : String := String.intercalate ", " (columns.map quoteName)

theorem columnsText_cons (column next : String) (columns : List String) :
    (columnsText (column :: next :: columns)).toList =
      (quoteName column).toList ++ ',' :: ' ' :: (columnsText (next :: columns)).toList := by
  simp [columnsText, String.intercalate_cons_cons]

theorem stops_columnsText (column : String) (columns : List String) (tail : List Char) :
    Stops isSpace ((columnsText (column :: columns)).toList ++ tail) := by
  rcases columns with _ | ⟨next, columns⟩
  · exact stops_quoteName rfl column tail
  · rw [columnsText_cons, List.append_assoc]
    exact stops_quoteName rfl column _

theorem tokensFrom_columnsText {columns : List String} (hcolumns : columns ≠ []) :
    tokensFrom done ((columnsText columns).toList ++ [')']) =
      some (done.reverse ++ ((columns.map nameToken).intersperse .comma ++ [.closeParen])) := by
  induction columns generalizing done with
  | nil => exact absurd rfl hcolumns
  | cons column columns ih =>
    rcases columns with _ | ⟨next, columns⟩
    · rw [columnsText, List.map_singleton, String.intercalate_singleton,
        tokensFrom_quoteName column (stops_cons.2 rfl),
        tokensFrom_token (scan_closeParen _), tokensFrom]
      simp
    · rw [columnsText_cons, List.append_assoc, List.cons_append, List.cons_append,
        tokensFrom_quoteName column (stops_cons.2 rfl), tokensFrom_token (scan_comma _),
        tokensFrom_space (stops_columnsText next columns _), ih (List.cons_ne_nil next columns)]
      simp

theorem createIndex_toList (table : String) (columns : List String) :
    (Covering.createIndex table columns).toList =
      (Token.word none "CREATE").render.toList ++ ' ' ::
        ((Token.word none "INDEX").render.toList ++ ' ' ::
        ((quoteName (Covering.suggestedName table columns)).toList ++ ' ' ::
          ((Token.word none "ON").render.toList ++ ' ' :: ((quoteName table).toList ++ ' ' :: '(' ::
            ((columnsText columns).toList ++ [')']))))) := by
  have hcreate : "CREATE INDEX ".toList =
      (Token.word none "CREATE").render.toList ++ ' ' ::
        ((Token.word none "INDEX").render.toList ++ [' ']) := rfl
  have hon : " ON ".toList = ' ' :: ((Token.word none "ON").render.toList ++ [' ']) := rfl
  have hopen : " (".toList = [' ', '('] := rfl
  have hclose : ")".toList = [')'] := rfl
  unfold Covering.createIndex columnsText
  simp only [String.toList_append, hcreate, hon, hopen, hclose, List.append_assoc,
    List.cons_append, List.nil_append]

/-- The tokens of a suggestion. -/
theorem tokenize?_createIndex (table : String) {columns : List String} (hcolumns : columns ≠ []) :
    tokenize? (Covering.createIndex table columns) =
      some ([.word none "CREATE", .word none "INDEX",
        nameToken (Covering.suggestedName table columns), .word none "ON", nameToken table,
        .openParen] ++ (columns.map nameToken).intersperse .comma ++ [.closeParen]) := by
  have hcreate : Readable (.word none "CREATE") := tokens_readable "CREATE" _ (by decide +kernel)
  have hindex : Readable (.word none "INDEX") := tokens_readable "INDEX" _ (by decide +kernel)
  have hon : Readable (.word none "ON") := tokens_readable "ON" _ (by decide +kernel)
  rw [tokenize?, createIndex_toList, tokensFrom_spaced hcreate (hindex.stops _),
    tokensFrom_spaced hindex (stops_quoteName rfl _ _), tokensFrom_quoteName _ (stops_cons.2 rfl),
    tokensFrom_space (hon.stops _), tokensFrom_spaced hon (stops_quoteName rfl _ _),
    tokensFrom_quoteName _ (stops_cons.2 rfl), tokensFrom_space (stops_cons.2 rfl),
    tokensFrom_token (scan_openParen _), tokensFrom_columnsText hcolumns]
  simp

/-- Quoting loses nothing and ends by itself. -/
theorem quoting_reads_back :
    (∀ (column : String) (r : Relation) (text : String), ∃ name value,
      tokenize? (comparisonText column r.sql (quoteText text)) =
        some [name, relationToken r, value] ∧
        name.Names column ∧ value.Tells text) ∧
    (∀ (column column' : String) (r r' : Relation) (text text' : String),
      comparisonText column r.sql (quoteText text) =
        comparisonText column' r'.sql (quoteText text') →
        column = column' ∧ r = r' ∧ text = text') ∧
    ∀ (u : Usage) (ddl : String), Covering.suggestion? u = some ddl → ∃ index table columns,
      tokenize? ddl = some ([.word none "CREATE", .word none "INDEX", index, .word none "ON",
        table, .openParen] ++
        columns.intersperse .comma ++ [.closeParen]) ∧
      index.Names (Covering.suggestedName u.name u.columns.toList) ∧ table.Names u.name ∧
      List.Forall₂ Token.Names columns u.columns.toList := by
  refine ⟨fun column r text => ?_, fun column column' r r' text text' h => ?_, fun u ddl h => ?_⟩
  · exact ⟨_, _, tokenize?_comparisonText column r text, nameToken_names column,
      textToken_tells text⟩
  · have htokens := congrArg tokenize? h
    rw [tokenize?_comparisonText, tokenize?_comparisonText] at htokens
    simp only [Option.some.injEq, List.cons.injEq, and_true] at htokens
    exact ⟨nameToken_inj htokens.1, relationToken_inj htokens.2.1, textToken_inj htokens.2.2⟩
  · obtain ⟨-, -, hcolumns, rfl⟩ := Covering.suggestion?_eq_some_iff.1 h
    refine ⟨_, _, _, tokenize?_createIndex u.name hcolumns, nameToken_names _,
      nameToken_names _, ?_⟩
    rw [List.forall₂_map_left_iff, List.forall₂_same]
    exact fun column _ => nameToken_names column

/-- The name of a table that closes a quote, and columns that look like the end of a statement and
like a comment. -/
theorem quoting_reads_back_marks :
    let u : Usage :=
      { cursor := 0, rootPage := 2, kind := .table, name := "t\"", table := "",
        columns := .ofList ["\")", "--"] }
    let ddl := "CREATE INDEX \"idx_t\"\"_\"\")_--\" ON \"t\"\"\" (\"\"\")\", \"--\")"
    Covering.suggestion? u = some ddl ∧ ∃ index table columns,
      tokenize? ddl = some ([.word none "CREATE", .word none "INDEX", index, .word none "ON",
        table, .openParen] ++
        columns.intersperse .comma ++ [.closeParen]) ∧
      index.Names (Covering.suggestedName u.name u.columns.toList) ∧ table.Names u.name ∧
      List.Forall₂ Token.Names columns u.columns.toList := by
  intro u ddl
  have hddl : Covering.suggestion? u = some ddl := by decide +kernel
  exact ⟨hddl, quoting_reads_back.2.2 u ddl hddl⟩

end Sql

end IndexAdvisor
