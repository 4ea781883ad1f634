import BoundSql.Text.Blank
import BoundSql.Text.Casing
import BoundSql.Number.FloatText
import BoundSql.Number.IntegerText
import BoundSql.Fragment.Lemmas
import BoundSql.Value.Quoting
import BoundSql.Predicate.Clause
import BoundSql.Table.Compile
import BoundSql.Statement.Parts
import BoundSql.Builder.History
import BoundSql.Parameter.Column
import BoundSql.Json.Descriptor
import BoundSql.Proofs.Fragment.Symbols
import BoundSql.Proofs.Fragment.Orderly
import BoundSql.Proofs.Builder.Reached
import BoundSql.Proofs.Builder.Orderly
import BoundSql.Proofs.Except
import BoundSql.Proofs.Literal.Lexer
import BoundSql.Proofs.Literal.Injection
import BoundSql.Proofs.Number.Digits
import BoundSql.Proofs.Number.ExactValue
import BoundSql.Proofs.Number.IntegerText
import BoundSql.Proofs.Parameter.DecimalText
import BoundSql.Proofs.Parameter.Encoder
import BoundSql.Proofs.Parameter.Wire
import BoundSql.Proofs.Parameter.BigEndian
import BoundSql.Proofs.Parameter.GroupPosition
import BoundSql.Proofs.Parameter.NumericForm
import BoundSql.Proofs.Parameter.NumericValue
import BoundSql.Proofs.Parameter.NumericAcceptance
import BoundSql.Proofs.Number.Rounding
import BoundSql.Proofs.Number.Shortest
import BoundSql.Proofs.Parameter.IntegerBinding
import BoundSql.Proofs.Builder.Accumulation
import BoundSql.Proofs.Table.Downgrade
import BoundSql.Proofs.Builder.Refusal
import BoundSql.Proofs.Builder.Pending
import BoundSql.Proofs.Fragment.Skeleton
import BoundSql.Proofs.Fragment.Slots
import BoundSql.Proofs.Statement.Slots
import BoundSql.Proofs.Builder.Slots
import BoundSql.Proofs.Builder.Requests
import BoundSql.Proofs.Placeholder.Numbering
import BoundSql.Proofs.Builder.Rendering
import BoundSql.Proofs.Builder.Reuse
import BoundSql.Proofs.Fragment.Canonical
import BoundSql.Proofs.Statement.Closure
import BoundSql.Proofs.Builder.Obtained
import BoundSql.Proofs.Builder.Closure
import BoundSql.Proofs.Predicate.Grammar
import BoundSql.Proofs.Predicate.Operands
import BoundSql.Proofs.Builder.ClauseOrder
import BoundSql.Proofs.Text.Ascii
import BoundSql.Proofs.Text.Casing
import BoundSql.Proofs.Text.Words
import BoundSql.Proofs.Predicate.Operator
import BoundSql.Proofs.Statement.Words
import BoundSql.Proofs.Placeholder.Quoting
import BoundSql.Proofs.Json.Record
import BoundSql.Proofs.Json.Form
import BoundSql.Proofs.Json.ReadBack
import BoundSql.Proofs.Json.Integers
import BoundSql.Proofs.Parameter.Agreement
import BoundSql.Proofs.Builder.Truncation
import BoundSql.Proofs.Builder.Events
import BoundSql.Proofs.Builder.BlankEntries
import BoundSql.Proofs.Parameter.Receivable
import BoundSql.Proofs.Number.Overflow
import BoundSql.Proofs.Chunks
import BoundSql.Proofs.Parameter.Grouping
