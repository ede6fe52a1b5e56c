import Spreadsheet.Json.Reader
import Spreadsheet.Json.Writer
import Spreadsheet.Literal
import Spreadsheet.Arithmetic
import Spreadsheet.Session
import Spreadsheet.Saving.Timeline
import Spreadsheet.Text.Encoding
import Spreadsheet.Proofs.Evaluation.Recursion
import Spreadsheet.Proofs.Evaluation.Search
import Spreadsheet.Proofs.Evaluation.Inputs
import Spreadsheet.Proofs.Grid.Listing
import Spreadsheet.Proofs.Recalculation.Results
import Spreadsheet.Proofs.Recalculation.Sweep
import Spreadsheet.Proofs.Saving.Moves
import Spreadsheet.Proofs.Session.Run
import Spreadsheet.Proofs.Session.Consistency
import Spreadsheet.Proofs.Saving.Posts
import Spreadsheet.Proofs.Saving.Superseded
import Spreadsheet.Proofs.Session.Pending
import Spreadsheet.Proofs.Arithmetic.Grammar
import Spreadsheet.Proofs.Arithmetic.Blanks
import Spreadsheet.Proofs.Arithmetic.Scan
import Spreadsheet.Proofs.Arithmetic.Reading
import Spreadsheet.Proofs.Arithmetic.Signs
import Spreadsheet.Proofs.Evaluation.Frames
import Spreadsheet.Proofs.Recalculation.Dependents
import Spreadsheet.Proofs.Session.Posting
import Spreadsheet.Proofs.Session.Unswept
import Spreadsheet.Proofs.Substitution.Tokens
import Spreadsheet.Proofs.Substitution.Filling
import Spreadsheet.Proofs.Substitution.Symbols
import Spreadsheet.Proofs.Substitution.Hygiene
import Spreadsheet.Proofs.Recalculation.Evaluations
import Spreadsheet.Proofs.Recalculation.KnownTokens
import Spreadsheet.Proofs.Sheet.Calls
import Spreadsheet.Proofs.Sheet.History
import Spreadsheet.Proofs.Recalculation.Spreading
import Spreadsheet.Proofs.Recalculation.Missed
import Spreadsheet.Proofs.Sheet.Currency
import Spreadsheet.Proofs.Address.Names
import Spreadsheet.Proofs.Json.RoundTrip
import Spreadsheet.Proofs.Session.Recovery
import Spreadsheet.Proofs.Evaluation.Cycles
import Spreadsheet.Proofs.Sheet.Pruning
import Spreadsheet.Proofs.Saving.Rolls
import Spreadsheet.Proofs.Saving.Debounce
import Spreadsheet.Proofs.Sheet.Reports
import Spreadsheet.Proofs.Recalculation.Hops
import Spreadsheet.Proofs.Saving.Alone
import Spreadsheet.Proofs.Saving.Busy
import Spreadsheet.Proofs.Saving.Closing
import Spreadsheet.Proofs.Session.Looking
import Spreadsheet.Proofs.Text.Utf8
import Spreadsheet.Proofs.Number.Range
import Spreadsheet.Proofs.Evaluation.Definedness
import Spreadsheet.Proofs.Sheet.Answers
import Spreadsheet.Proofs.Session.Kept
import Spreadsheet.Proofs.Session.Displays
import Spreadsheet.Proofs.Session.Kinds
import Spreadsheet.Proofs.Grid.Csv
import Spreadsheet.Proofs.Session.Decodable
import Spreadsheet.Proofs.Session.Refusals
import Spreadsheet.Proofs.Json.Limits
import Spreadsheet.Proofs.Store.Loading
import Spreadsheet.Proofs.Session.Loading
import Spreadsheet.Proofs.Remote.Proper
import Spreadsheet.Proofs.Number.Nearest
import Spreadsheet.Proofs.Number.Exact
import Spreadsheet.Proofs.Number.Canonical
import Spreadsheet.Proofs.Number.Displayed
import Spreadsheet.Proofs.Number.Kept
import Spreadsheet.Proofs.Number.Percent
import Spreadsheet.Proofs.Literal.Agreement
import Spreadsheet.Proofs.Session.Keystrokes
import Spreadsheet.Proofs.Grid.Lookup
import Spreadsheet.Proofs.Snapshot.FixedPoint
import Spreadsheet.Proofs.Evaluation.Lookups
import Spreadsheet.Proofs.Dependency.Registration
