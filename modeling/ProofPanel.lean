import ProofPanel.Bus.Dispatch
import ProofPanel.Dispatcher
import ProofPanel.Json.Lines
import ProofPanel.Relay.Network
import ProofPanel.Pipe
import ProofPanel.Session
import ProofPanel.Proofs.Engine.Messages
import ProofPanel.Proofs.Engine.Panel
import ProofPanel.Proofs.Session.Goal
import ProofPanel.Proofs.Engine.History
import ProofPanel.Proofs.Engine.Answers
import ProofPanel.Proofs.Diagnostic.Relevant
import ProofPanel.Proofs.Engine.Validity
import ProofPanel.Proofs.Engine.Repaint
import ProofPanel.Proofs.Engine.Redraw
import ProofPanel.Proofs.Engine.Refresh
import ProofPanel.Proofs.Client.Run
import ProofPanel.Proofs.Engine.Pause
import ProofPanel.Proofs.Client.Accounting
import ProofPanel.Proofs.Client.Cancel
import ProofPanel.Proofs.Bus.Queue
import ProofPanel.Proofs.Bus.Termination
import ProofPanel.Proofs.Bus.Rounds
import ProofPanel.Proofs.Bus.Standing
import ProofPanel.Proofs.Relay.Line
import ProofPanel.Proofs.Relay.Panel
import ProofPanel.Proofs.Text.Percent
import ProofPanel.Proofs.Text.FileUri
import ProofPanel.Proofs.Json.RoundTrip
import ProofPanel.Proofs.Json.Framing
import ProofPanel.Proofs.Page.Command
import ProofPanel.Proofs.Json.Fields
import ProofPanel.Proofs.Page.Links
import ProofPanel.Proofs.Wire
import ProofPanel.Proofs.Json.Lines
import ProofPanel.Proofs.Session.Configuration
import ProofPanel.Proofs.Session.Pump
import ProofPanel.Proofs.Session.Drain
import ProofPanel.Proofs.Client.Closed
import ProofPanel.Proofs.Client.Mismatch
import ProofPanel.Proofs.Client.Feed
import ProofPanel.Proofs.Markup.Reader
import ProofPanel.Proofs.Page.Head
import ProofPanel.Proofs.Markup.Outline
import ProofPanel.Proofs.Page.Outline
import ProofPanel.Proofs.Page.Shown
import ProofPanel.Proofs.Engine.Comment
import ProofPanel.Proofs.Diagnostic.Nearest
import ProofPanel.Proofs.Engine.Report
import ProofPanel.Proofs.Session.Disposed
import ProofPanel.Proofs.Engine.Decision
import ProofPanel.Proofs.Engine.Failure
import ProofPanel.Proofs.Markup.Decoration
import ProofPanel.Proofs.Engine.Insertion
import ProofPanel.Proofs.Engine.Unfollowed
import ProofPanel.Proofs.Pipe.Poll
import ProofPanel.Proofs.Bus.Subscription
import ProofPanel.Proofs.Bus.Signal
