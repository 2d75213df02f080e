import IndexAdvisor.Proofs.Sql.Balance
import IndexAdvisor.Proofs.Statement.Gate

/-!
# Changes of rows after named queries

A statement may begin with named queries and then change rows: `WITH n AS (..) DELETE ..`. What such
a statement does is told by the word after the last named query, but its classification only looks
at the first word of the text or at how the recognized statement begins, which is `WITH` either way.

> `change_passes_iff`: a text that changes rows after named queries passes for a query, unless it is
> recognized as several statements.

So no such statement is refused that stands alone. Both ways to classify a text let them pass
(`change_passes`): an insertion is recognized as a query, a deletion is not recognized at all.
-/

namespace IndexAdvisor.Statement

open Recognizer

/-! ## Statements after named queries -/

/-- The names for the columns of a named query, in parentheses, or nothing. -/
inductive ColumnList : List Sql.Token → Prop where
  | absent : ColumnList []
  | parens {names : List Sql.Token} (h : Sql.Balanced names) :
      ColumnList (.openParen :: (names ++ [.closeParen]))

/-- Whether the rows of a named query are stored: `MATERIALIZED`, `NOT MATERIALIZED` or nothing. -/
inductive Storing : List Sql.Token → Prop where
  | absent : Storing []
  | stored {m : Sql.Token} (hm : m.isKeyword "MATERIALIZED" = true) : Storing [m]
  | notStored {n m : Sql.Token} (hn : n.isKeyword "NOT" = true)
    (hm : m.isKeyword "MATERIALIZED" = true) :
      Storing [n, m]

/-- One or more queries under names, with commas between them. The name is a word, quoted or not. -/
inductive NamedQueries : List Sql.Token → Prop where
  | one {quote : Option Sql.Quote} {name : String}
    {columns storing body : List Sql.Token} {as : Sql.Token}
      (hcolumns : ColumnList columns) (has : as.isKeyword "AS" = true) (hstoring : Storing storing)
      (hbody : Sql.Balanced body) :
      NamedQueries (.word quote name ::
        (columns ++ as :: (storing ++ .openParen :: (body ++ [.closeParen]))))
  | append {first more : List Sql.Token} (hfirst : NamedQueries first) (hmore : NamedQueries more) :
      NamedQueries (first ++ .comma :: more)

/-- The words that begin a change of rows. -/
def changeWords : List String := ["INSERT", "REPLACE", "UPDATE", "DELETE"]

/-- A text that begins with named queries and then changes rows. -/
inductive ChangesAfterNames : List Sql.Token → Prop where
  | plain {first verb : Sql.Token} {names rest : List Sql.Token}
    (hfirst : first.isKeyword "WITH" = true)
      (hnames : NamedQueries names) (hverb : verb.isOneOf changeWords = true) :
      ChangesAfterNames (first :: (names ++ verb :: rest))
  | recursive {first second verb : Sql.Token} {names rest : List Sql.Token}
      (hfirst : first.isKeyword "WITH" = true) (hsecond : second.isKeyword "RECURSIVE" = true)
      (hnames : NamedQueries names) (hverb : verb.isOneOf changeWords = true) :
      ChangesAfterNames (first :: second :: (names ++ verb :: rest))

theorem ChangesAfterNames.head {ts : List Sql.Token} (h : ChangesAfterNames ts) :
    ∃ first rest, ts = first :: rest ∧ first.isKeyword "WITH" = true := by
  cases h with
  | plain hfirst => exact ⟨_, _, rfl, hfirst⟩
  | recursive hfirst => exact ⟨_, _, rfl, hfirst⟩

/-! ## How they are classified -/

/-- Whether a text is recognized as more than one statement. -/
def Several (ts : List Sql.Token) : Prop :=
  ∃ first second more, divide? (ts.map Piece.ofToken) = some (first :: second :: more)

/-- Names that differ at most in the case of ASCII letters are written alike in capitals. -/
theorem upperCase_of_sameName {a b : String} (h : sameName a b = true) :
    upperCase a = upperCase b := by
  have hkey (s : String) : upperCase s = String.ofList ((nameKey s).map Char.toUpper) := by
    rw [upperCase, nameKey, List.map_map]
    congr 2
    funext c
    exact (toUpper_toLower c).symm
  rw [hkey, hkey, sameName_iff.1 h]

theorem exists_of_isKeyword {t : Sql.Token} {keyword : String} (h : t.isKeyword keyword = true) :
    ∃ text, t = .word none text ∧ upperCase text = upperCase keyword := by
  unfold Sql.Token.isKeyword at h
  split at h
  · exact ⟨_, rfl, upperCase_of_sameName h⟩
  · cases h

/-- What is recognized is divided into the row from its first statement on and maybe more
statements. -/
theorem divide?_cons {t : Piece} {ts : List Piece} {out : List (List Piece)} (ht : t ≠ .mark ";")
    (h : divide? (t :: ts) = some out) : ∃ more, out = (t :: ts) :: more := by
  rw [divide?, divideFrom.eq_def] at h
  simp only [beq_iff_eq, if_neg ht, Bool.not_true, Bool.false_eq_true, if_false] at h
  split at h
  · obtain ⟨more, rfl⟩ := divideFrom_keeps h
    exact ⟨more, rfl⟩
  · cases h

/-- Classification only sees the word `WITH` that a text begins with. -/
theorem ofTokens_of_with {first : Sql.Token} {rest : List Sql.Token}
    (h : first.isKeyword "WITH" = true) :
    (¬Several (first :: rest) → StatementKind.ofTokens (first :: rest) = .ok .select) ∧
      (Several (first :: rest) → StatementKind.ofTokens (first :: rest) = .error .several) := by
  obtain ⟨text, rfl, hupper⟩ := exists_of_isKeyword h
  have hpieces : (Sql.Token.word none text :: rest).map Piece.ofToken =
      .word "WITH" :: rest.map Piece.ofToken := by
    rw [List.map_cons, Piece.ofToken, hupper]
    rfl
  have hword : StatementKind.firstWord? (.word none text :: rest) = some "WITH" :=
    congrArg some hupper
  constructor
  · intro hseveral
    rw [StatementKind.ofTokens, hword]
    rcases hdivide : divide? ((Sql.Token.word none text :: rest).map Piece.ofToken) with _ | out
    · rfl
    · have hwith : Piece.word "WITH" ≠ .mark ";" := by simp
      obtain ⟨more, rfl⟩ := divide?_cons hwith (hpieces ▸ hdivide)
      rcases more with _ | ⟨second, more⟩
      · rfl
      · exact absurd ⟨_, second, more, hdivide⟩ hseveral
  · rintro ⟨s, second, more, hdivide⟩
    rw [StatementKind.ofTokens, hdivide]

/-- A second statement begins behind a semicolon. -/
theorem divideFrom_false_several {s ts : List Piece} {out : List (List Piece)}
    (h : divideFrom false [s] ts = some out) (hmore : out ≠ [s]) :
    ∃ tail, ts = .mark ";" :: tail ∧ ∃ t ∈ tail, t ≠ .mark ";" := by
  have hone : divideFrom false [s] ts ≠ some [s] := by
    intro hone
    exact hmore (Option.some.inj (h.symm.trans hone))
  rw [ne_eq, divideFrom_false_iff, not_or] at hone
  obtain ⟨hall, hend⟩ := hone
  rcases ts with _ | ⟨t, tail⟩
  · exact absurd (List.forall_mem_nil _) hall
  · by_cases ht : t = .mark ";"
    · subst ht
      rw [List.forall_mem_cons] at hall
      exact ⟨tail, rfl, by simpa using hall⟩
    · -- neither a semicolon nor the end of the text, so nothing is recognized
      have hword : t ≠ .word "END" := by
        rintro rfl
        exact hend ⟨tail, rfl⟩
      rw [divideFrom.eq_def] at h
      simp [ht, hword] at h

/-- Where several statements are recognized, the first of which begins with `WITH`, a semicolon
stands between them. -/
theorem divided_of_several {first : Sql.Token} {rest : List Sql.Token}
    (h : first.isKeyword "WITH" = true) (hread : ∀ t ∈ first :: rest, Sql.Lexer.Readable t)
    (hseveral : Several (first :: rest)) :
    Divided (first :: rest) := by
  obtain ⟨text, rfl, hupper⟩ := exists_of_isKeyword h
  obtain ⟨s, second, more, hdivide⟩ := hseveral
  have hfirst : Piece.ofToken (.word none text) = .word "WITH" := congrArg Piece.word hupper
  generalize hts : Sql.Token.word none text :: rest = ts at hread hdivide ⊢
  obtain ⟨row, hrow⟩ : ∃ row, ts.map Piece.ofToken = .word "WITH" :: row := by
    rw [← hts, List.map_cons, hfirst]
    exact ⟨_, rfl⟩
  rw [hrow, divide?, divideFrom.eq_def] at hdivide
  simp only [beq_iff_eq, reduceCtorEq, if_false, Bool.not_true, Bool.false_eq_true] at hdivide
  split at hdivide
  · next left hrun =>
    have hne : s :: second :: more ≠ [.word "WITH" :: row] := by simp
    obtain ⟨tail, rfl, other, hother, hsemicolon⟩ := divideFrom_false_several hdivide hne
    obtain ⟨used, hused, -⟩ := query_reaches rfl hrun
    -- the semicolon is behind what the query takes, which begins with the word `WITH`
    obtain ⟨front, back, hsplit, hfront, hback⟩ := List.map_eq_append_iff.1 (hrow.trans hused)
    obtain ⟨mark, after, rfl, hmark, hafter⟩ := List.map_eq_cons_iff.1 hback
    obtain rfl : mark = .semicolon :=
      (ofToken_eq_semicolon_iff (hread _ (by simp [hsplit]))).1 hmark
    refine ⟨front, after, hsplit, ⟨.word none text, ?_, nofun⟩, ?_⟩
    · rcases front with _ | ⟨t, front⟩
      · rw [hsplit] at hts
        cases hts
      · rw [hsplit] at hts
        cases hts
        exact List.mem_cons_self ..
    · rw [← hafter] at hother
      obtain ⟨t, ht, rfl⟩ := List.mem_map.1 hother
      refine ⟨t, ht, ?_⟩
      rintro rfl
      exact hsemicolon rfl
  · cases hdivide

/-- A text that changes rows after named queries is taken for a query unless it is recognized as
several statements, which takes a semicolon between them; and a tool takes every such text that is
not too long. -/
theorem change_passes_iff {sql : String} (h : ChangesAfterNames (Sql.tokens sql)) :
    (StatementKind.ofText sql = .ok .select ↔ ¬Several (Sql.tokens sql)) ∧
      (StatementKind.ofText sql = .error .several ↔ Several (Sql.tokens sql)) ∧
      (Several (Sql.tokens sql) → Divided (Sql.tokens sql)) ∧
      ∀ (tool : Tool) (arguments : Json), tool.statement arguments = .ok sql ↔
        Tool.argument arguments "sql" = .string sql ∧ allBlank sql = false ∧
          sql.utf8ByteSize ≤ maxStatementBytes ∧ ¬Several (Sql.tokens sql) := by
  obtain ⟨first, rest, htokens, hfirst⟩ := h.head
  have hread : ∀ t ∈ first :: rest, Sql.Lexer.Readable t := htokens ▸ Sql.tokens_readable sql
  have htext : StatementKind.ofText sql = StatementKind.ofTokens (first :: rest) := by
    rw [Sql.tokens] at htokens
    rw [StatementKind.ofText]
    rcases hts : Sql.tokenize? sql with _ | ts
    · rw [hts] at htokens
      cases htokens
    · rw [hts, Option.getD_some] at htokens
      rw [← htokens]
  have hclass := @ofTokens_of_with first rest hfirst
  rw [htext, htokens]
  by_cases hs : Several (first :: rest)
  · have hkind := hclass.2 hs
    refine ⟨by simp [hkind, hs], by simp [hkind, hs], divided_of_several hfirst hread,
      fun tool arguments => ?_⟩
    simp [Tool.statement_eq_ok_iff, htext, hkind, hs]
  · have hkind := hclass.1 hs
    refine ⟨by simp [hkind, hs], by simp [hkind, hs], divided_of_several hfirst hread,
      fun tool arguments => ?_⟩
    simp [Tool.statement_eq_ok_iff, htext, hkind, hs, StatementKind.isReadOnly]

theorem change_passes_recursive :
    ChangesAfterNames (Sql.tokens "WITH RECURSIVE n(a) AS (SELECT 1) DELETE FROM t") ∧
      (StatementKind.ofText "WITH RECURSIVE n(a) AS (SELECT 1) DELETE FROM t" = .ok .select ↔
        ¬Several (Sql.tokens "WITH RECURSIVE n(a) AS (SELECT 1) DELETE FROM t")) := by
  let columns : List Sql.Token := [.openParen, .word none "a", .closeParen]
  let body : List Sql.Token := [.word none "SELECT", .number "1" false]
  have hcolumns : ColumnList columns := @ColumnList.parens [.word none "a"] (.of_plain (by decide))
  have hnames : NamedQueries (.word none "n" ::
      (columns ++ .word none "AS" :: .openParen :: (body ++ [.closeParen]))) :=
    .one hcolumns (by decide) .absent (.of_plain (by decide))
  have htokens : Sql.tokens "WITH RECURSIVE n(a) AS (SELECT 1) DELETE FROM t" =
      .word none "WITH" :: .word none "RECURSIVE" ::
        ((.word none "n" :: (columns ++ .word none "AS" :: .openParen ::
          (body ++ [.closeParen]))) ++
          .word none "DELETE" :: [.word none "FROM", .word none "t"]) := by decide +kernel
  have h : ChangesAfterNames (Sql.tokens "WITH RECURSIVE n(a) AS (SELECT 1) DELETE FROM t") := by
    rw [htokens]
    exact .recursive (by decide) (by decide) hnames (by decide)
  exact ⟨h, (change_passes_iff h).1⟩

/-- An insertion and a deletion after a named query, of which the first is recognized and the second
is not, are both taken for queries. -/
theorem change_passes :
    (ChangesAfterNames (Sql.tokens "WITH n AS (SELECT 1) INSERT INTO t SELECT * FROM n") ∧
      StatementKind.ofText "WITH n AS (SELECT 1) INSERT INTO t SELECT * FROM n" = .ok .select) ∧
    ChangesAfterNames (Sql.tokens "WITH n AS (SELECT 1) DELETE FROM t") ∧
      StatementKind.ofText "WITH n AS (SELECT 1) DELETE FROM t" = .ok .select ∧
      StatementKind.select.isReadOnly = true ∧
      Tool.explain.statement (.object [("sql", .string "WITH n AS (SELECT 1) DELETE FROM t")]) =
        .ok "WITH n AS (SELECT 1) DELETE FROM t" := by
  let body : List Sql.Token := [.word none "SELECT", .number "1" false]
  let names : List Sql.Token :=
    .word none "n" :: .word none "AS" :: .openParen :: (body ++ [.closeParen])
  have hnames : NamedQueries names := .one .absent (by decide) .absent (.of_plain (by decide))
  have hinsert : Sql.tokens "WITH n AS (SELECT 1) INSERT INTO t SELECT * FROM n" =
      .word none "WITH" :: (names ++ .word none "INSERT" :: [.word none "INTO", .word none "t",
        .word none "SELECT", .symbol "*", .word none "FROM", .word none "n"]) := by decide +kernel
  have hdelete : Sql.tokens "WITH n AS (SELECT 1) DELETE FROM t" =
      .word none "WITH" :: (names ++ .word none "DELETE" :: [.word none "FROM",
        .word none "t"]) := by decide +kernel
  refine ⟨⟨?_, by decide +kernel⟩, ?_, by decide +kernel, by decide, by decide +kernel⟩
  · rw [hinsert]
    exact .plain (by decide) hnames (by decide)
  · rw [hdelete]
    exact .plain (by decide) hnames (by decide)

end IndexAdvisor.Statement
