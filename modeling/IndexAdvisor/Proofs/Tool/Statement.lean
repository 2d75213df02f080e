import IndexAdvisor.Tool.Call

/-!
# The statement that a tool takes

A tool goes on with the text that it is called with only after every check of the call.

> `statement_eq_ok_iff`: the text is the argument itself, it is neither blank nor too long, and it
> is classified as a statement that only reads.
-/

namespace IndexAdvisor.Tool

/-- What a tool takes for its statement: a text that is neither blank nor too long and passes for a
query. -/
theorem statement_eq_ok_iff {tool : Tool} {arguments : Json} {sql : String} :
    tool.statement arguments = .ok sql ↔
      argument arguments "sql" = .string sql ∧ allBlank sql = false ∧
        sql.utf8ByteSize ≤ maxStatementBytes ∧
        ∃ kind, StatementKind.ofText sql = .ok kind ∧ kind.isReadOnly = true := by
  unfold statement
  split
  · next text htext =>
    rw [htext, Json.string.injEq]
    by_cases hblank : allBlank text = true
    · rw [if_pos hblank]
      constructor
      · intro h
        cases show Except.error ToolError.noStatement = .ok sql from h
      · rintro ⟨rfl, h, -⟩
        rw [h] at hblank
        cases hblank
    rw [if_neg hblank]
    by_cases hlong : maxStatementBytes < text.utf8ByteSize
    · rw [if_pos hlong]
      constructor
      · intro h
        cases show Except.error (ToolError.tooLong text.utf8ByteSize) = .ok sql from h
      · rintro ⟨rfl, -, h, -⟩
        exact absurd hlong (Nat.not_lt.2 h)
    rw [if_neg hlong]
    constructor
    · intro h
      split at h
      · cases h
      · next kind hkind =>
        split at h
        · next hread =>
          cases h
          exact ⟨rfl, Bool.eq_false_iff.2 hblank, Nat.not_lt.1 hlong, kind, hkind, hread⟩
        · cases h
    · rintro ⟨rfl, -, -, kind, hkind, hread⟩
      rw [hkind]
      dsimp only
      rw [if_pos hread]
      rfl
  · next hnone =>
    constructor
    · intro h
      cases h
    · rintro ⟨htext, -⟩
      exact absurd htext (hnone sql)

end IndexAdvisor.Tool
