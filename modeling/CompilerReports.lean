import CompilerReports.Text.Blank
import CompilerReports.Text.Pieces
import CompilerReports.Text.Percent
import CompilerReports.Text.Casing
import CompilerReports.Json.Printer
import CompilerReports.Json.Reader
import CompilerReports.Severity
import CompilerReports.Instantiation
import CompilerReports.Session.Step
import CompilerReports.Proofs.Session.Runs
import CompilerReports.Proofs.Category.Ownership
import CompilerReports.Proofs.Report.Minting
import CompilerReports.Proofs.Session.Effects
import CompilerReports.Proofs.Report.Envelope
import CompilerReports.Proofs.Binary64.Whole
import CompilerReports.Proofs.Session.Additions
import CompilerReports.Proofs.Session.History
import CompilerReports.Proofs.Session.Holdings
import CompilerReports.Proofs.Session.Failures
import CompilerReports.Proofs.Session.Journal
import CompilerReports.Proofs.Session.Emission
import CompilerReports.Proofs.Policy.Resolution
import CompilerReports.Proofs.Session.CursorTurns
import CompilerReports.Proofs.Frame.FirstMatch
import CompilerReports.Proofs.Session.Independence
import CompilerReports.Proofs.Text.Pieces
import CompilerReports.Proofs.Frame.Printing
import CompilerReports.Proofs.Text.Percent
import CompilerReports.Proofs.FileUrl.Segments
import CompilerReports.Proofs.FileUrl.DotSegments
import CompilerReports.Proofs.FileUrl.EncodedPath
import CompilerReports.Proofs.FileUrl.Detours
import CompilerReports.Proofs.FileUrl.RemovedText
import CompilerReports.Proofs.Frame.Lines
import CompilerReports.Proofs.Session.Tracing
import CompilerReports.Proofs.Binary64.Value
import CompilerReports.Proofs.Binary64.Rounding
import CompilerReports.Binary64.Difference
import CompilerReports.Proofs.Binary64.Difference
import CompilerReports.Proofs.Ledger.Lookup
import CompilerReports.Proofs.Session.Reading
import CompilerReports.Proofs.Report.Copies
import CompilerReports.Proofs.Session.Chains
import CompilerReports.Proofs.Policy.Rejections
import CompilerReports.Proofs.Policy.Accounting
import CompilerReports.Proofs.Severity.Weighing
import CompilerReports.Proofs.Severity.Overriding
import CompilerReports.Proofs.Binary64.Decimals
import CompilerReports.Proofs.Binary64.Shortest
import CompilerReports.Proofs.Json.Numbers
import CompilerReports.Proofs.Json.Quoted
import CompilerReports.Proofs.Json.RoundTrip
import CompilerReports.Proofs.Journal.Lines
import CompilerReports.Proofs.Text.Casing
import CompilerReports.Proofs.Journal.Flag
import CompilerReports.Proofs.Binary64.Nearest
import CompilerReports.Proofs.Frame.Numbers
import CompilerReports.Proofs.Binary64.FewestDigits
import CompilerReports.Proofs.Binary64.Text
import CompilerReports.Proofs.Position.Text
