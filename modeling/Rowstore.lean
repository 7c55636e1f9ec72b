import Rowstore.Decimal.Basic
import Rowstore.Decimal.Shortest
import Rowstore.Decimal.Rounding
import Rowstore.Text.Blank
import Rowstore.Text.Letters
import Rowstore.Value.Basic
import Rowstore.Value.Comparison
import Rowstore.Statement.Token
import Rowstore.Statement.Lexer
import Rowstore.Error
import Rowstore.Statement.Basic
import Rowstore.Statement.Parser
import Rowstore.Condition
import Rowstore.Json.Basic
import Rowstore.Json.Number
import Rowstore.Json.Writer
import Rowstore.Json.Reader
import Rowstore.Json.Record
import Rowstore.Calendar.Date
import Rowstore.Calendar.Pattern
import Rowstore.Calendar.Input
import Rowstore.Column.Basic
import Rowstore.Column.Coercion
import Rowstore.Identity
import Rowstore.Sequence
import Rowstore.Value.Document
import Rowstore.Table.Row
import Rowstore.Table.Basic
import Rowstore.Table.Document
import Rowstore.Database.Basic
import Rowstore.Database.Document
import Rowstore.Table.Selection
import Rowstore.Table.Edit
import Rowstore.Outcome
import Rowstore.Workspace.Basic
import Rowstore.Workspace.Execute
import Rowstore.Storage.Options
import Rowstore.Storage.Backend
import Rowstore.Storage.Memory
import Rowstore.Storage.Directory
import Rowstore.Storage.Folder
import Rowstore.Storage.Outage
import Rowstore.Storage.Key
import Rowstore.Session.Basic
import Rowstore.Session.Transaction
import Rowstore.Session.Execute
import Rowstore.Session.Request
import Rowstore.Storage.Depot
import Rowstore.Shell.Layout
import Rowstore.Shell.Buffer
import Rowstore.Shell.Config
import Rowstore.Shell.Basic
import Rowstore.Shell.Program
import Rowstore.Main
import Rowstore.Proofs.Execution
import Rowstore.Proofs.Sequence
import Rowstore.Proofs.Text.Trimming
import Rowstore.Proofs.Value.Quoting
import Rowstore.Proofs.Statement.Lexing
import Rowstore.Proofs.Statement.Comments
import Rowstore.Proofs.Statement.Nesting
import Rowstore.Proofs.Statement.Reading
import Rowstore.Proofs.Statement.Commands
import Rowstore.Proofs.Statement.Grammar
import Rowstore.Proofs.Statement.Conditions
import Rowstore.Proofs.Statement.Separators
import Rowstore.Proofs.Statement.Naming
import Rowstore.Proofs.Statement.Quoting
import Rowstore.Proofs.Decimal.Digits
import Rowstore.Proofs.Identity
import Rowstore.Proofs.Json.Numerals
import Rowstore.Proofs.Json.Strings
import Rowstore.Proofs.Json.Spacing
import Rowstore.Proofs.Json.Reading
import Rowstore.Proofs.Json.Records
import Rowstore.Proofs.Table.Cells
import Rowstore.Proofs.Table.Revision
import Rowstore.Proofs.Table.Identity
import Rowstore.Proofs.Table.Naming
import Rowstore.Proofs.Table.Selecting
import Rowstore.Proofs.Table.Document
import Rowstore.Proofs.Table.Lossless
import Rowstore.Proofs.Database.Revision
import Rowstore.Proofs.Calendar.Stamps
import Rowstore.Proofs.Database.Document
import Rowstore.Proofs.Database.Listing
import Rowstore.Proofs.Database.Lossless
import Rowstore.Proofs.Database.Fitting
import Rowstore.Proofs.Workspace.Reading
import Rowstore.Proofs.Workspace.Effects
import Rowstore.Proofs.Workspace.Selecting
import Rowstore.Proofs.Workspace.Reports
import Rowstore.Proofs.Storage.Guarding
import Rowstore.Proofs.Storage.History
import Rowstore.Proofs.Storage.Directory
import Rowstore.Proofs.Storage.Folder
import Rowstore.Proofs.Storage.Writing
import Rowstore.Proofs.Storage.Depot
import Rowstore.Proofs.Session.Calls
import Rowstore.Proofs.Session.Endings
import Rowstore.Proofs.Session.Handling
import Rowstore.Proofs.Session.Matching
import Rowstore.Proofs.Session.Atomicity
import Rowstore.Proofs.Session.Nesting
import Rowstore.Proofs.Session.Undo
import Rowstore.Proofs.Session.Guarding
import Rowstore.Proofs.Session.Reaching
import Rowstore.Proofs.Session.Invariants
import Rowstore.Proofs.Session.Saving
import Rowstore.Proofs.Session.Interchange
import Rowstore.Proofs.Session.Limits
import Rowstore.Proofs.Session.Announcing
import Rowstore.Proofs.Session.Selecting
import Rowstore.Proofs.Session.Quoting
import Rowstore.Proofs.Storage.Views
import Rowstore.Proofs.Session.Showing
import Rowstore.Proofs.Session.Presence
import Rowstore.Proofs.Session.Modes
import Rowstore.Proofs.Workspace.Failing
import Rowstore.Proofs.Workspace.Framing
import Rowstore.Proofs.Workspace.Commuting
import Rowstore.Proofs.Text.Lowering
import Rowstore.Proofs.Statement.Lowering
import Rowstore.Proofs.Statement.LetterCase
import Rowstore.Proofs.Workspace.LetterCase
import Rowstore.Proofs.Session.LetterCase
import Rowstore.Proofs.Table.Comparing
import Rowstore.Proofs.Statement.Derivation
import Rowstore.Proofs.Statement.Scanning
import Rowstore.Proofs.Statement.Cutting
import Rowstore.Proofs.Statement.Breaking
import Rowstore.Proofs.Statement.Definitions
import Rowstore.Proofs.Statement.Respacing
import Rowstore.Proofs.Statement.Paralleling
import Rowstore.Proofs.Statement.Trimming
import Rowstore.Proofs.Statement.Slicing
import Rowstore.Proofs.Statement.Rereading
import Rowstore.Proofs.Statement.Whitespace
import Rowstore.Proofs.Statement.Columns
import Rowstore.Proofs.Decimal.Binary
import Rowstore.Proofs.Decimal.Finiteness
import Rowstore.Proofs.Table.Finiteness
import Rowstore.Proofs.Session.Finiteness
import Rowstore.Proofs.Session.Counting
import Rowstore.Proofs.Database.Loading
import Rowstore.Proofs.Table.Issuing
import Rowstore.Proofs.Database.Issuing
import Rowstore.Proofs.Session.Issuing
import Rowstore.Proofs.Session.Inserting
import Rowstore.Proofs.Statement.Tiling
import Rowstore.Proofs.Statement.Payloads
import Rowstore.Proofs.Text.Raising
import Rowstore.Proofs.Statement.Raising
import Rowstore.Proofs.Value.Literals
import Rowstore.Proofs.Statement.Literals
import Rowstore.Proofs.Column.Declarations
import Rowstore.Proofs.Calendar.Patterns
import Rowstore.Proofs.Calendar.Entries
import Rowstore.Proofs.Calendar.Rereading
import Rowstore.Proofs.Column.Coercing
import Rowstore.Proofs.Table.Entering
import Rowstore.Proofs.Shell.Gathering
import Rowstore.Proofs.Shell.Alignment
import Rowstore.Proofs.Statement.Keys
import Rowstore.Proofs.Statement.Positions
import Rowstore.Proofs.Statement.Bounds
import Rowstore.Proofs.Statement.Ranges
import Rowstore.Proofs.Statement.Following
import Rowstore.Proofs.Statement.Overruns
import Rowstore.Proofs.Storage.Keys
import Rowstore.Proofs.Statement.Settling
import Rowstore.Proofs.Statement.Dividing
import Rowstore.Proofs.Value.Numbers
