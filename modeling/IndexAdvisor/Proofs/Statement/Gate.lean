import IndexAdvisor.Proofs.Sql.Spelling
import IndexAdvisor.Proofs.Statement.Count
import IndexAdvisor.Proofs.Statement.Phrase
import IndexAdvisor.Proofs.Tool.Statement
import Mathlib.Control.Monad.Basic

/-!
# Which texts of several statements pass for one query

A text is divided if a semicolon stands between tokens that are none, and a divided text should
never pass for a query. A query that is recognized runs over no semicolon, so the statements of a
text that is recognized to its end are counted; a divided text is only let through where the
counting ends early.

> `divided_passes_iff`: a divided text passes for a query exactly if it is not recognized and its
> first word begins a query, or if the word `END` follows its first query.

Both happen (`divided_passes`, `divided_passes_before_end`).
-/

namespace IndexAdvisor.Statement

open Recognizer

/-! ## Divided rows -/

/-- Whether a semicolon stands between tokens that are no semicolons. -/
def Divided (ts : List Sql.Token) : Prop :=
  ∃ before after, ts = before ++ .semicolon :: after ∧ (∃ t ∈ before, t ≠ .semicolon) ∧
    ∃ t ∈ after, t ≠ .semicolon

theorem not_divided {front query back : List Sql.Token} (hfront : ∀ t ∈ front, t = .semicolon)
    (hquery : .semicolon ∉ query) (hback : ∀ t ∈ back, t = .semicolon) :
    ¬Divided (front ++ (query ++ back)) := by
  rintro ⟨before, after, h, ⟨t, ht, hne⟩, u, hu, hne'⟩
  rcases List.append_eq_append_iff.1 h with ⟨more, rfl, hmore⟩ | ⟨more, rfl, -⟩
  · rcases List.append_eq_append_iff.1 hmore with ⟨rest, rfl, hrest⟩ | ⟨rest, hrest, hafter⟩
    · -- the semicolon stands in the back part, with nothing but semicolons after it
      apply hne'
      apply hback
      rw [hrest]
      simp [hu]
    · rcases rest with _ | ⟨s, rest⟩
      · apply hne'
        apply hback
        rw [List.nil_append] at hafter
        rw [← hafter]
        simp [hu]
      · obtain ⟨rfl, -⟩ := List.cons.inj hafter
        apply hquery
        rw [hrest]
        simp
  · -- it stands in the front part, with nothing but semicolons before it
    exact hne (hfront t (List.mem_append_left _ ht))

theorem ofToken_eq_semicolon_iff {t : Sql.Token} (ht : Sql.Lexer.Readable t) :
    Piece.ofToken t = .mark ";" ↔ t = .semicolon := by
  constructor
  · intro h
    cases t with
    | word quote text => cases quote <;> cases h
    | symbol text =>
      obtain rfl : text = ";" := by simpa [Piece.ofToken, Sql.Token.render] using h
      exact absurd rfl ht.ne_symbol_semicolon
    | semicolon => rfl
    | _ => simp [Piece.ofToken, Sql.Token.render] at h
  · rintro rfl
    rfl

/-! ## The gate -/

/-- A query at the top is a phrase of the level below, which runs over no semicolon. -/
theorem query_reaches {ts rest : List Piece} (hts : opensQuery ts = true)
    (h : topStatement.run ts = .ok rest) : Reaches ts rest := by
  have hlevel := avoids_level (maxDepth - 1)
  have hquery : (if opensQuery ts then (level (maxDepth - 1)).query.run ts
      else (cases (statements (level (maxDepth - 1))) (refuse .mismatch)).run ts) = .ok rest := h
  rw [if_pos hts] at hquery
  exact hlevel.query.reaches hquery

/-- The row of pieces in which the first statement begins. -/
def firstRow (ts : List Sql.Token) : List Piece := (ts.map Piece.ofToken).dropWhile (· == .mark ";")

/-- Whether a text is judged by its first word, because it is not recognized, and that begins a
query. -/
def PassesUnrecognized (ts : List Sql.Token) : Prop :=
  divide? (ts.map Piece.ofToken) = none ∧ ∃ w ∈ queryWords, StatementKind.firstWord? ts = some w

/-- Whether the word `END` follows a query that a text begins with. -/
def PassesBeforeEnd (ts : List Sql.Token) : Prop :=
  opensQuery (firstRow ts) = true ∧
    ∃ tail, topStatement.run (firstRow ts) = .ok (.word "END" :: tail)

/-- A text whose first statement is a query up to the semicolons at its end is not divided. -/
theorem not_divided_of_counted {ts : List Sql.Token} {rest : List Piece}
    (hts : ∀ t ∈ ts, Sql.Lexer.Readable t) (hopens : opensQuery (firstRow ts) = true)
    (hrun : topStatement.run (firstRow ts) = .ok rest) (hrest : ∀ t ∈ rest, t = .mark ";") :
    ¬Divided ts := by
  obtain ⟨used, hused, hnone⟩ := query_reaches hopens hrun
  have hsplit : ts.map Piece.ofToken =
      (ts.map Piece.ofToken).takeWhile (· == .mark ";") ++ (used ++ rest) := by
    rw [← hused, firstRow, List.takeWhile_append_dropWhile]
  obtain ⟨front, more, rfl, hfront, hmore⟩ := List.map_eq_append_iff.1 hsplit
  obtain ⟨query, back, rfl, hquery, hback⟩ := List.map_eq_append_iff.1 hmore
  -- what is dropped before the query and what is left behind it are semicolons, the query has none
  apply not_divided
  · intro t ht
    apply (ofToken_eq_semicolon_iff (hts t (by simp [ht]))).1
    have hmem := List.mem_map_of_mem (f := Piece.ofToken) ht
    rw [hfront] at hmem
    simpa using List.all_eq_true.1 List.all_takeWhile _ hmem
  · intro hmem
    apply hnone
    rw [← hquery]
    exact List.mem_map_of_mem (f := Piece.ofToken) hmem
  · intro t ht
    apply (ofToken_eq_semicolon_iff (hts t (by simp [ht]))).1
    apply hrest
    rw [← hback]
    exact List.mem_map_of_mem ht

theorem PassesBeforeEnd.divide? {ts : List Sql.Token} (h : PassesBeforeEnd ts) :
    divide? (ts.map Piece.ofToken) = some [firstRow ts] := by
  obtain ⟨hopens, tail, hrun⟩ := h
  refine divide?_eq_one_iff.2 ⟨rfl, ?_, _, hrun, .inr ⟨tail, rfl⟩⟩
  intro hnil
  rw [hnil] at hopens
  cases hopens

/-- Which divided rows of tokens pass for a query. -/
theorem ofTokens_isReadOnly_iff {ts : List Sql.Token} (hts : ∀ t ∈ ts, Sql.Lexer.Readable t)
    (hdivided : Divided ts) :
    (∃ kind, StatementKind.ofTokens ts = .ok kind ∧ kind.isReadOnly = true) ↔
      PassesUnrecognized ts ∨ PassesBeforeEnd ts := by
  constructor
  · rintro ⟨kind, hkind, hread⟩
    unfold StatementKind.ofTokens at hkind
    split at hkind
    · cases hkind
    · next s hone =>
      cases hkind
      rw [ofPieces_isReadOnly] at hread
      obtain ⟨rfl, -, rest, hrun, hrest | ⟨tail, rfl⟩⟩ := divide?_eq_one_iff.1 hone
      · exact absurd hdivided (not_divided_of_counted hts hread hrun hrest)
      · exact .inr ⟨hread, tail, hrun⟩
    · cases hkind
    · next hnone =>
      split at hkind
      · next w hw =>
        cases hkind
        rw [ofWord_isReadOnly] at hread
        exact .inl ⟨hnone, w, by simpa using hread, hw⟩
      · cases hkind
  · rintro (⟨hnone, w, hquery, hw⟩ | hend)
    · refine ⟨StatementKind.ofWord w, ?_, ?_⟩
      · rw [StatementKind.ofTokens, hnone]
        dsimp only
        rw [hw]
      · rw [ofWord_isReadOnly]
        simpa using hquery
    · refine ⟨StatementKind.ofPieces (firstRow ts), ?_, ?_⟩
      · rw [StatementKind.ofTokens, hend.divide?]
      · rw [ofPieces_isReadOnly]
        exact hend.1

/-- A divided text passes for a query, and for the statement of a tool, exactly if it is judged by
its first word or a query in it is followed by the word `END`. -/
theorem divided_passes_iff {sql : String} (h : Divided (Sql.tokens sql)) :
    ((∃ kind, StatementKind.ofText sql = .ok kind ∧ kind.isReadOnly = true) ↔
        PassesUnrecognized (Sql.tokens sql) ∨ PassesBeforeEnd (Sql.tokens sql)) ∧
      ∀ (tool : Tool) (arguments : Json), tool.statement arguments = .ok sql ↔
        Tool.argument arguments "sql" = .string sql ∧ allBlank sql = false ∧
          sql.utf8ByteSize ≤ maxStatementBytes ∧
          (PassesUnrecognized (Sql.tokens sql) ∨ PassesBeforeEnd (Sql.tokens sql)) := by
  have hpasses : (∃ kind, StatementKind.ofText sql = .ok kind ∧ kind.isReadOnly = true) ↔
      PassesUnrecognized (Sql.tokens sql) ∨ PassesBeforeEnd (Sql.tokens sql) := by
    rcases hts : Sql.tokenize? sql with _ | ts
    · rw [Sql.tokens, hts] at h
      obtain ⟨before, after, h, -⟩ := h
      simp at h
    · have htokens : Sql.tokens sql = ts := by rw [Sql.tokens, hts, Option.getD_some]
      rw [htokens] at h ⊢
      rw [StatementKind.ofText, hts]
      exact ofTokens_isReadOnly_iff (Sql.tokenize?_readable hts) h
  refine ⟨hpasses, fun tool arguments => ?_⟩
  rw [Tool.statement_eq_ok_iff, hpasses]

/-- The statement after the first one is not seen after the word `END`. -/
theorem divided_passes_before_end :
    Divided (Sql.tokens "SELECT 1 END; DROP TABLE t") ∧
      Tool.explain.statement (.object [("sql", .string "SELECT 1 END; DROP TABLE t")]) =
        .ok "SELECT 1 END; DROP TABLE t" := by
  have hdivided : Divided (Sql.tokens "SELECT 1 END; DROP TABLE t") :=
    ⟨[.word none "SELECT", .number "1" false, .word none "END"],
      [.word none "DROP", .word none "TABLE", .word none "t"], by
      decide +kernel, by decide, by decide⟩
  have hend : PassesBeforeEnd (Sql.tokens "SELECT 1 END; DROP TABLE t") :=
    ⟨by decide +kernel, [.mark ";", .word "DROP", .word "TABLE", .word "T"], by decide +kernel⟩
  exact ⟨hdivided, ((divided_passes_iff hdivided).2 .explain _).2
    ⟨by rfl, by decide +kernel, by decide +kernel, .inr hend⟩⟩

/-- A text that the engine knows but the grammar does not passes for a query, whatever comes after
it. -/
theorem divided_passes :
    StatementKind.ofText "SELECT a FROM t INDEXED BY idx_t_a WHERE a = 1; DELETE FROM t" =
      .ok .select ∧
      StatementKind.select.isReadOnly = true ∧
      Divided (Sql.tokens "SELECT a FROM t INDEXED BY idx_t_a WHERE a = 1; DELETE FROM t") := by
  refine ⟨by decide +kernel, rfl, ?_⟩
  exact ⟨[.word none "SELECT", .word none "a", .word none "FROM", .word none "t",
    .word none "INDEXED",
      .word none "BY", .word none "idx_t_a", .word none "WHERE", .word none "a", .symbol "=",
      .number "1" false],
    [.word none "DELETE", .word none "FROM", .word none "t"], by
    decide +kernel, by decide, by decide⟩

end IndexAdvisor.Statement
