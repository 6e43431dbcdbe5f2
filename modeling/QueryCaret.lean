import QueryCaret.Command.ByteLine
import QueryCaret.Command.Spelling
import QueryCaret.Diagnostic.History
import QueryCaret.Input.Directory
import QueryCaret.Main
import QueryCaret.Proofs.Command.Answer
import QueryCaret.Proofs.Command.Faults
import QueryCaret.Proofs.Command.Filling
import QueryCaret.Proofs.Command.Grammar
import QueryCaret.Proofs.Command.Places
import QueryCaret.Proofs.Command.Rewriting
import QueryCaret.Proofs.Command.RoundTrip
import QueryCaret.Proofs.Command.Scanning
import QueryCaret.Proofs.Diagnostic.Caret
import QueryCaret.Proofs.Diagnostic.End
import QueryCaret.Proofs.Diagnostic.Influence
import QueryCaret.Proofs.Diagnostic.Lifecycle
import QueryCaret.Proofs.Diagnostic.ShortReport
import QueryCaret.Proofs.Session.Events
import QueryCaret.Proofs.Session.Idle
import QueryCaret.Proofs.Session.Isolation
import QueryCaret.Proofs.Text.ByteSlice
import QueryCaret.Proofs.Text.Trimming
import QueryCaret.Proofs.Window.Blanks
import QueryCaret.Proofs.Window.Block
import QueryCaret.Proofs.Window.Lines
import QueryCaret.Proofs.Window.Truthful
import QueryCaret.Proofs.Window.Words
import QueryCaret.Session.Footprint
import QueryCaret.Text.ByteRange
import QueryCaret.Window.Checked
