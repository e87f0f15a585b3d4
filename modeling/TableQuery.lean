import TableQuery.Text.Case
import TableQuery.Text.Utf8
import TableQuery.Number.Reading
import TableQuery.Value.Display
import TableQuery.Value.Equal
import TableQuery.Naming
import TableQuery.Pagination
import TableQuery.Like
import TableQuery.Coerce
import TableQuery.Sql.Render
import TableQuery.Query.Build
import TableQuery.Rejection.Named
import TableQuery.Schema.Validate
import TableQuery.Text.Digit
import TableQuery.Handle.Request
import TableQuery.Settings.Host
import TableQuery.Schema.Define
import TableQuery.Proofs.Outcome
import TableQuery.Proofs.Engine.Events
import TableQuery.Proofs.Filter.Conjunct
import TableQuery.Proofs.Handle.Dispatch
import TableQuery.Proofs.Query.Parts
import TableQuery.Proofs.Handle.Mutation
import TableQuery.Proofs.Sql.Names
import TableQuery.Proofs.Sql.Plain
import TableQuery.Proofs.Sql.Marks
import TableQuery.Proofs.Lists
import TableQuery.Proofs.Sql.Legible
import TableQuery.Proofs.Sql.Lexeme
import TableQuery.Proofs.Sql.Reading
import TableQuery.Proofs.Sql.Unnamed
import TableQuery.Proofs.Sql.Meaning
import TableQuery.Proofs.Query.Asked
import TableQuery.Proofs.Query.ReadBack
import TableQuery.Proofs.Sql.Gathered
import TableQuery.Proofs.Query.Given
import TableQuery.Proofs.Sql.Supply
import TableQuery.Proofs.Value.Keys
import TableQuery.Proofs.Filter.Varies
import TableQuery.Proofs.Query.Varies
import TableQuery.Proofs.Query.Inserted
import TableQuery.Proofs.Query.Independent
import TableQuery.Proofs.Sql.SameText
import TableQuery.Proofs.Sql.Shown
import TableQuery.Proofs.Sql.Bound
import TableQuery.Proofs.Sql.Alike
import TableQuery.Proofs.Query.Refusals
import TableQuery.Proofs.Handle.Exchange
import TableQuery.Proofs.Handle.Preview
import TableQuery.Proofs.Store.Cells
import TableQuery.Proofs.Store.Sharing
import TableQuery.Proofs.Store.Change
import TableQuery.Proofs.Handle.Session
import TableQuery.Proofs.Handle.Copied
import TableQuery.Proofs.Handle.Isolation
import TableQuery.Proofs.Schema.Verdicts
import TableQuery.Proofs.Schema.Conditions
import TableQuery.Proofs.Schema.Vouched
import TableQuery.Proofs.Schema.Frozen
import TableQuery.Proofs.Schema.Payloads
import TableQuery.Proofs.Schema.Stored
import TableQuery.Proofs.Handle.Overlay
import TableQuery.Proofs.Naming
import TableQuery.Proofs.Store.Shape
import TableQuery.Proofs.Schema.Faults
import TableQuery.Proofs.Sql.Faults
import TableQuery.Proofs.Handle.Sound
import TableQuery.Proofs.Handle.Unbuilt
import TableQuery.Proofs.Handle.Reachable
import TableQuery.Proofs.Handle.Unique
import TableQuery.Proofs.Engine.Trace
import TableQuery.Proofs.Handle.Trace
import TableQuery.Proofs.Sql.Writable
import TableQuery.Proofs.Filter.Unordered
import TableQuery.Proofs.Handle.Failures
import TableQuery.Proofs.Like
import TableQuery.Proofs.Handle.Chain
import TableQuery.Proofs.Schema.Compiled
import TableQuery.Proofs.Handle.Accepted
import TableQuery.Proofs.Sql.Counted
import TableQuery.Proofs.Sql.Taken
import TableQuery.Proofs.Sql.Clause
import TableQuery.Proofs.Sql.Around
import TableQuery.Proofs.Sql.Written
import TableQuery.Proofs.Query.Strict
import TableQuery.Proofs.Query.Clauses
import TableQuery.Proofs.Filter.Spelled
import TableQuery.Proofs.Schema.Records
import TableQuery.Proofs.Schema.Data
import TableQuery.Proofs.Schema.Complete
import TableQuery.Proofs.Schema.Plain
import TableQuery.Proofs.Schema.Alike
import TableQuery.Proofs.Sql.Insertion
import TableQuery.Proofs.Query.Batch
import TableQuery.Proofs.Sql.Lossless
import TableQuery.Proofs.Value.Texts
import TableQuery.Proofs.Query.Order
import TableQuery.Proofs.Query.Target
import TableQuery.Proofs.Filter.Mapping
import TableQuery.Proofs.Schema.Checkable
import TableQuery.Proofs.Schema.Indexed
import TableQuery.Proofs.Schema.Positions
import TableQuery.Proofs.Query.Columns
import TableQuery.Proofs.Handle.Restored
import TableQuery.Proofs.Engine.Account
import TableQuery.Proofs.Sql.Masked
import TableQuery.Proofs.Query.Masked
import TableQuery.Proofs.Engine.Attributes
import TableQuery.Proofs.Engine.Settled
import TableQuery.Proofs.Query.Grammar
import TableQuery.Proofs.Engine.Spans
import TableQuery.Proofs.Logging.Line
import TableQuery.Proofs.Logging.InContext
