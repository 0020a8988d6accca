import EntityAccess.Schema.Printer
import EntityAccess.Schema.Resolution
import EntityAccess.Migration
import EntityAccess.Partner
import EntityAccess.Connection.Options
import EntityAccess.Http.Server
import EntityAccess.Proofs.Query.Addressing
import EntityAccess.Proofs.Transactions.Writes
import EntityAccess.Proofs.Transitions.Runs
import EntityAccess.Proofs.Pages.Slices
import EntityAccess.Proofs.Chunks.Calls
import EntityAccess.Proofs.Chunks.Failures
import EntityAccess.Proofs.Sql.Values
import EntityAccess.Proofs.Chunks.Enumeration
import EntityAccess.Proofs.Schema.References
import EntityAccess.Proofs.Query.Joins
import EntityAccess.Proofs.Query.Scope
import EntityAccess.Proofs.Calendar.RoundTrip
import EntityAccess.Proofs.Repository.CurrentValues
import EntityAccess.Proofs.Concurrency.Interleaving
import EntityAccess.Proofs.Concurrency.States
import EntityAccess.Proofs.Repository.Assignment
import EntityAccess.Proofs.Concurrency.Fields
import EntityAccess.Proofs.Concurrency.StoredRow
import EntityAccess.Proofs.Repository.Writable
import EntityAccess.Proofs.Http.CallerErrors
import EntityAccess.Proofs.Sql.Clauses
import EntityAccess.Proofs.Repository.Operations
import EntityAccess.Proofs.Http.Exports
import EntityAccess.Proofs.Http.Includes
import EntityAccess.Proofs.Pages.FlatWindows
import EntityAccess.Proofs.Repository.PagedOrder
import EntityAccess.Proofs.Query.Composition
import EntityAccess.Proofs.Migration.Names
import EntityAccess.Proofs.Query.Repetition
import EntityAccess.Proofs.Filter.Rendering
import EntityAccess.Proofs.Query.Aliases
import EntityAccess.Proofs.Filter.Placements
import EntityAccess.Proofs.Filter.Literals
import EntityAccess.Proofs.Pages.Numbering
import EntityAccess.Proofs.Pages.FoldedValues
import EntityAccess.Proofs.Chunks.Termination
import EntityAccess.Proofs.Repository.Batches
import EntityAccess.Proofs.Repository.Related
import EntityAccess.Proofs.Repository.KeyCasts
import EntityAccess.Proofs.Sql.Columns
import EntityAccess.Proofs.Calendar.Stored
import EntityAccess.Proofs.Repository.Revisions
import EntityAccess.Proofs.Repository.AssignedOnce
import EntityAccess.Proofs.Repository.Repeated
import EntityAccess.Proofs.Transitions.Spellings
import EntityAccess.Proofs.Partner.Spellings
import EntityAccess.Proofs.Query.Search
import EntityAccess.Proofs.Connection.Databases
import EntityAccess.Proofs.Schema.Written
import EntityAccess.Proofs.Sql.Identifiers
