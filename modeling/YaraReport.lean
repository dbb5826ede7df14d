import YaraReport.Child.Status
import YaraReport.Child.Stream
import YaraReport.Child.Supervision
import YaraReport.CommandLine
import YaraReport.CommandLine.Help
import YaraReport.CommandLine.Switch
import YaraReport.Compiler
import YaraReport.Diagnostic
import YaraReport.Diagnostic.Draft
import YaraReport.Diagnostic.Json
import YaraReport.Diagnostic.Tally
import YaraReport.Display
import YaraReport.Executable
import YaraReport.Failure
import YaraReport.FileTree
import YaraReport.Interpreter
import YaraReport.Json
import YaraReport.Machine
import YaraReport.Main
import YaraReport.Note
import YaraReport.Path
import YaraReport.Proofs.Child.Interleaving
import YaraReport.Proofs.Child.Overtime
import YaraReport.Proofs.Child.Watching
import YaraReport.Proofs.Collections
import YaraReport.Proofs.CompiledRules
import YaraReport.Proofs.CompilerArguments
import YaraReport.Proofs.Deadline
import YaraReport.Proofs.Diagnostic.Counting
import YaraReport.Proofs.Diagnostic.Marks
import YaraReport.Proofs.Diagnostic.Printing
import YaraReport.Proofs.Excerpt
import YaraReport.Proofs.FileTree
import YaraReport.Proofs.Json.Results
import YaraReport.Proofs.Json.Values
import YaraReport.Proofs.Loops
import YaraReport.Proofs.Machine
import YaraReport.Proofs.NearestFile
import YaraReport.Proofs.Outcome
import YaraReport.Proofs.Path
import YaraReport.Proofs.Replay
import YaraReport.Proofs.Rule.Report
import YaraReport.Proofs.Rule.Runs
import YaraReport.Proofs.Scan.Composition
import YaraReport.Proofs.Scan.Feeding
import YaraReport.Proofs.Scan.Grammar
import YaraReport.Proofs.Scan.History
import YaraReport.Proofs.Scan.Indexing
import YaraReport.Proofs.Scan.Integers
import YaraReport.Proofs.Scan.Listing
import YaraReport.Proofs.Scan.MatchGrammar
import YaraReport.Proofs.Scan.Numbers
import YaraReport.Proofs.Scan.Origins
import YaraReport.Proofs.Scan.Placement
import YaraReport.Proofs.Scan.Shifting
import YaraReport.Proofs.ScannerArguments
import YaraReport.Proofs.ScannerCalls
import YaraReport.Proofs.Session.Compiling
import YaraReport.Proofs.Session.Diagnostics
import YaraReport.Proofs.Session.Ending
import YaraReport.Proofs.Session.Layering
import YaraReport.Proofs.Session.Targets
import YaraReport.Proofs.SettingsFile
import YaraReport.Proofs.Text.Backslashes
import YaraReport.Proofs.Text.Bytes
import YaraReport.Proofs.Text.Decoding
import YaraReport.Proofs.Text.Escaping
import YaraReport.Proofs.Text.Lines
import YaraReport.Proofs.Text.Numerals
import YaraReport.Proofs.Text.Places
import YaraReport.Proofs.Text.Trimming
import YaraReport.Proofs.Token.Pointer
import YaraReport.Proofs.Token.Reading
import YaraReport.Proofs.Token.Spacing
import YaraReport.Proofs.Token.Stream
import YaraReport.Proofs.Token.Tiling
import YaraReport.Proofs.Token.Written
import YaraReport.Report
import YaraReport.Rule
import YaraReport.Rule.Json
import YaraReport.Scan.Header
import YaraReport.Scan.MatchLine
import YaraReport.Scan.Reader
import YaraReport.Scanner
import YaraReport.Session
import YaraReport.Settings
import YaraReport.Span
import YaraReport.Style
import YaraReport.SystemError
import YaraReport.Text.Blank
import YaraReport.Text.Duration
import YaraReport.Text.Escape
import YaraReport.Text.Lines
import YaraReport.Text.Numeral
import YaraReport.Text.Utf8
import YaraReport.Token
import YaraReport.Token.Cursor
import YaraReport.Token.Lexer
import YaraReport.Toml
import YaraReport.Violation
import YaraReport.Proofs.Scan.Effort
