import PipeCall.Main
import PipeCall.Proofs.Frame.Decoder
import PipeCall.Proofs.Frame.Reports
import PipeCall.Proofs.Frame.Intake
import PipeCall.Proofs.Frame.Lineup
import PipeCall.Proofs.Frame.Rescan
import PipeCall.Proofs.Registry.Operations
import PipeCall.Proofs.Session.Calls
import PipeCall.Proofs.Session.Change
import PipeCall.Proofs.Session.Progress
import PipeCall.Proofs.Session.History
import PipeCall.Proofs.Registry.Numbered
import PipeCall.Proofs.Registry.History
import PipeCall.Proofs.Session.Coherence
import PipeCall.Proofs.Session.Outstanding
import PipeCall.Proofs.Session.Lifecycle
import PipeCall.Proofs.Session.Origin
import PipeCall.Proofs.Session.Outcome
import PipeCall.Proofs.Session.Line
import PipeCall.Proofs.Session.Written
import PipeCall.Proofs.Session.Wire
import PipeCall.Proofs.Session.Reader
import PipeCall.Proofs.Session.Release
import PipeCall.Proofs.Session.Shutdown
import PipeCall.Proofs.Session.EndOfInput
import PipeCall.Proofs.Message
import PipeCall.Proofs.Frame.Position
import PipeCall.Proofs.Session.Core
import PipeCall.Proofs.Session.Answer
import PipeCall.Proofs.Session.Hearing
import PipeCall.Proofs.Session.Alike
import PipeCall.Proofs.Session.Apart
import PipeCall.Proofs.Session.Rejoin
import PipeCall.Proofs.Session.Unheard
import PipeCall.Proofs.Session.Trails
import PipeCall.Proofs.Session.Insertion
import PipeCall.Proofs.Session.Reordering
import PipeCall.Proofs.Session.Isolation
import PipeCall.Proofs.Registry.Fate
import PipeCall.Proofs.Registry.Ledger
import PipeCall.Proofs.Registry.Exchange
import PipeCall.Proofs.Json.Spelling
import PipeCall.Proofs.Json.Escape
import PipeCall.Proofs.Json.Lexing
import PipeCall.Proofs.Json.Written
import PipeCall.Proofs.Request
import PipeCall.Proofs.Session.Unused
import PipeCall.Proofs.Session.Lifetime
import PipeCall.Proofs.Session.ReaderSide
import PipeCall.Proofs.Session.View
import PipeCall.Proofs.Session.OutputFailure
import PipeCall.Proofs.Session.Timeout
import PipeCall.Proofs.Json.Grammar
import PipeCall.Proofs.Json.Syntax
import PipeCall.Proofs.Tolerated
import PipeCall.Proofs.CallId
import PipeCall.Proofs.Rearranged
import PipeCall.Proofs.Reply
import PipeCall.Proofs.Json.Finite
import PipeCall.Proofs.Json.Kept
import PipeCall.Proofs.Failure
import PipeCall.Proofs.Settings
import PipeCall.Proofs.Invocation
import PipeCall.Proofs.Echo
import PipeCall.Proofs.Sending
import PipeCall.Proofs.Session.Accounts
