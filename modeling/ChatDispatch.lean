import ChatDispatch.Json.Parser
import ChatDispatch.Main
import ChatDispatch.Proofs.Dispatch.Calls
import ChatDispatch.Proofs.Listening.Cancellation
import ChatDispatch.Proofs.Listening.Replay
import ChatDispatch.Proofs.Dispatch.Course
import ChatDispatch.Proofs.Dispatch.Isolation
import ChatDispatch.Proofs.Dispatch.Reports
import ChatDispatch.Proofs.Binding.Parameters
import ChatDispatch.Proofs.Dispatch.Faults
import ChatDispatch.Proofs.Binding.Reading
import ChatDispatch.Proofs.Binding.Accounting
import ChatDispatch.Proofs.Registration.Scans
import ChatDispatch.Proofs.Dispatch.Likeness
import ChatDispatch.Proofs.Registration.Order
import ChatDispatch.Proofs.Dispatch.Panics
import ChatDispatch.Proofs.Config.References
import ChatDispatch.Proofs.Config.Loading
import ChatDispatch.Proofs.Text.Replacement
import ChatDispatch.Proofs.Redaction.Rules
import ChatDispatch.Proofs.Redaction.Words
import ChatDispatch.Proofs.Binding.Stopping
import ChatDispatch.Proofs.Dispatch.Quotation
import ChatDispatch.Proofs.Terminal.Checking
import ChatDispatch.Proofs.Binding.Refusals
import ChatDispatch.Proofs.Conversion.Optional
import ChatDispatch.Proofs.Listening.Persistence
import ChatDispatch.Proofs.Redaction.Credentials
import ChatDispatch.Proofs.Redaction.Shown
import ChatDispatch.Proofs.Config.Segments
import ChatDispatch.Proofs.Detection.Selection
import ChatDispatch.Proofs.Detection.Leading
import ChatDispatch.Proofs.Detection.Modes
import ChatDispatch.Proofs.Listening.Lines
import ChatDispatch.Proofs.Redaction.Trees
import ChatDispatch.Proofs.Demo.Sums
import ChatDispatch.Proofs.Demo.Answers
