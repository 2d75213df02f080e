import IndexAdvisor.Analysis
import IndexAdvisor.Causes
import IndexAdvisor.Covering
import IndexAdvisor.Engine.EmptyDatabase
import IndexAdvisor.Engine.Outline
import IndexAdvisor.Filter.Basic
import IndexAdvisor.Filter.Comparison
import IndexAdvisor.Filter.Lookup
import IndexAdvisor.Filter.Null
import IndexAdvisor.Filter.Range
import IndexAdvisor.Json.Basic
import IndexAdvisor.Json.Reader
import IndexAdvisor.Json.Record
import IndexAdvisor.Json.Text
import IndexAdvisor.Json.Token
import IndexAdvisor.Ledger.Basic
import IndexAdvisor.Ledger.Cursor
import IndexAdvisor.Ledger.Opening
import IndexAdvisor.Merge
import IndexAdvisor.OrderedSet
import IndexAdvisor.Program.Basic
import IndexAdvisor.Program.Instr
import IndexAdvisor.Program.Json
import IndexAdvisor.Program.Opcode
import IndexAdvisor.Program.Value
import IndexAdvisor.Program.Word
import IndexAdvisor.Proofs.Analysis.Asked
import IndexAdvisor.Proofs.Analysis.Attribution
import IndexAdvisor.Proofs.Analysis.Bubbling
import IndexAdvisor.Proofs.Analysis.Cursors
import IndexAdvisor.Proofs.Analysis.FullKey
import IndexAdvisor.Proofs.Analysis.Growing
import IndexAdvisor.Proofs.Analysis.Identity
import IndexAdvisor.Proofs.Analysis.LetterCase
import IndexAdvisor.Proofs.Analysis.Reached
import IndexAdvisor.Proofs.Analysis.Recorded
import IndexAdvisor.Proofs.Analysis.Relinking
import IndexAdvisor.Proofs.Analysis.Rereading
import IndexAdvisor.Proofs.Analysis.Suggestion
import IndexAdvisor.Proofs.Analysis.Translation
import IndexAdvisor.Proofs.Analysis.Transparency
import IndexAdvisor.Proofs.Analysis.Verdict
import IndexAdvisor.Proofs.Covering.Judging
import IndexAdvisor.Proofs.Covering.Verdict
import IndexAdvisor.Proofs.Filter.Comparison
import IndexAdvisor.Proofs.Filter.Insertion
import IndexAdvisor.Proofs.Filter.Pinned
import IndexAdvisor.Proofs.Filter.Range
import IndexAdvisor.Proofs.Filter.Recorded
import IndexAdvisor.Proofs.Guarded.Analysis
import IndexAdvisor.Proofs.Guarded.Basic
import IndexAdvisor.Proofs.Guarded.Filter
import IndexAdvisor.Proofs.Guarded.Ledger
import IndexAdvisor.Proofs.Guarded.Program
import IndexAdvisor.Proofs.Guarded.Sort
import IndexAdvisor.Proofs.Json.Codec
import IndexAdvisor.Proofs.Json.Document
import IndexAdvisor.Proofs.Json.Record
import IndexAdvisor.Proofs.Json.RoundTrip
import IndexAdvisor.Proofs.Json.Text
import IndexAdvisor.Proofs.Ledger.Columns
import IndexAdvisor.Proofs.Ledger.Continuing
import IndexAdvisor.Proofs.Ledger.Everywhere
import IndexAdvisor.Proofs.Ledger.InUse
import IndexAdvisor.Proofs.Ledger.Linked
import IndexAdvisor.Proofs.Ledger.Meaning
import IndexAdvisor.Proofs.Ledger.Merge
import IndexAdvisor.Proofs.Ledger.Merged
import IndexAdvisor.Proofs.Ledger.Note
import IndexAdvisor.Proofs.Ledger.Opening
import IndexAdvisor.Proofs.Ledger.Records
import IndexAdvisor.Proofs.Ledger.Relinking
import IndexAdvisor.Proofs.Ledger.Reopening
import IndexAdvisor.Proofs.Ledger.Sighting
import IndexAdvisor.Proofs.Ledger.Union
import IndexAdvisor.Proofs.Ledger.View
import IndexAdvisor.Proofs.Program.Coercion
import IndexAdvisor.Proofs.Program.Execution
import IndexAdvisor.Proofs.Program.Insertion
import IndexAdvisor.Proofs.Program.Search
import IndexAdvisor.Proofs.Redaction.Clean
import IndexAdvisor.Proofs.Redaction.Places
import IndexAdvisor.Proofs.Retry.Deadline
import IndexAdvisor.Proofs.Retry.Schedule
import IndexAdvisor.Proofs.Schema.Known
import IndexAdvisor.Proofs.Settings.Empty
import IndexAdvisor.Proofs.Settings.Layers
import IndexAdvisor.Proofs.Sort.Complete
import IndexAdvisor.Proofs.Sort.Execution
import IndexAdvisor.Proofs.Sort.Insertion
import IndexAdvisor.Proofs.Sort.Recorded
import IndexAdvisor.Proofs.Sort.Sighted
import IndexAdvisor.Proofs.Sort.Width
import IndexAdvisor.Proofs.Sql.Balance
import IndexAdvisor.Proofs.Sql.Case
import IndexAdvisor.Proofs.Sql.Normal
import IndexAdvisor.Proofs.Sql.NullTest
import IndexAdvisor.Proofs.Sql.OrderBy
import IndexAdvisor.Proofs.Sql.Quoting
import IndexAdvisor.Proofs.Sql.Reference
import IndexAdvisor.Proofs.Sql.SelectList
import IndexAdvisor.Proofs.Sql.Spelling
import IndexAdvisor.Proofs.Sql.Subselect
import IndexAdvisor.Proofs.Statement.Count
import IndexAdvisor.Proofs.Statement.Gate
import IndexAdvisor.Proofs.Statement.Named
import IndexAdvisor.Proofs.Statement.Phrase
import IndexAdvisor.Proofs.Statement.Reach
import IndexAdvisor.Proofs.Text.Blank
import IndexAdvisor.Proofs.Text.Occurrence
import IndexAdvisor.Proofs.Text.Pattern
import IndexAdvisor.Proofs.Tool.Statement
import IndexAdvisor.Proofs.Usage.Findings
import IndexAdvisor.Redaction
import IndexAdvisor.Retry
import IndexAdvisor.Scene
import IndexAdvisor.Schema.Basic
import IndexAdvisor.Schema.Json
import IndexAdvisor.Settings.Basic
import IndexAdvisor.Settings.Json
import IndexAdvisor.Settings.Layers
import IndexAdvisor.Sort.Basic
import IndexAdvisor.Sort.Idiom
import IndexAdvisor.Sort.Source
import IndexAdvisor.Sort.Walk
import IndexAdvisor.Sql.Lexer
import IndexAdvisor.Sql.Nesting
import IndexAdvisor.Sql.NullTest
import IndexAdvisor.Sql.OrderBy
import IndexAdvisor.Sql.Reference
import IndexAdvisor.Sql.SelectList
import IndexAdvisor.Sql.Source
import IndexAdvisor.Sql.Subselect
import IndexAdvisor.Sql.Token
import IndexAdvisor.Statement.Basic
import IndexAdvisor.Statement.Grammar.Basic
import IndexAdvisor.Statement.Grammar.Change
import IndexAdvisor.Statement.Grammar.Definition
import IndexAdvisor.Statement.Grammar.Expr
import IndexAdvisor.Statement.Grammar.Name
import IndexAdvisor.Statement.Grammar.Query
import IndexAdvisor.Statement.Recognizer
import IndexAdvisor.Text.Ascii
import IndexAdvisor.Text.Blank
import IndexAdvisor.Text.Digit
import IndexAdvisor.Text.Escaped
import IndexAdvisor.Text.Letter
import IndexAdvisor.Text.Lines
import IndexAdvisor.Text.Numeral
import IndexAdvisor.Text.Pattern
import IndexAdvisor.Text.Quoted
import IndexAdvisor.Text.Visible
import IndexAdvisor.Toml
import IndexAdvisor.Tool.Basic
import IndexAdvisor.Tool.Call
import IndexAdvisor.Usage.Basic
import IndexAdvisor.Usage.Json
