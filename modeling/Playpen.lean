import Playpen.Main
import Playpen.Archive.Reader
import Playpen.Execution.Timeout
import Playpen.Proofs.Pool.Exclusion
import Playpen.Proofs.Pool.Alone
import Playpen.Proofs.Runner.Delivery
import Playpen.Proofs.Runner.Aborts
import Playpen.Proofs.Runner.Reuse
import Playpen.Proofs.Runner.Closed
import Playpen.Proofs.Engine.Ledger
import Playpen.Proofs.Engine.Failures
import Playpen.Proofs.Engine.Submission
import Playpen.Proofs.Engine.Answers
import Playpen.Proofs.Engine.Timeouts
import Playpen.Proofs.Engine.Attached
import Playpen.Proofs.Engine.Discretion
import Playpen.Proofs.Engine.Bounds
import Playpen.Proofs.Engine.Verdict
import Playpen.Proofs.Engine.Tracing
import Playpen.Proofs.Config.Loading
import Playpen.Proofs.Text.Utf8
import Playpen.Proofs.Text.Lines
import Playpen.Proofs.Output.Frames
import Playpen.Proofs.Output.Sections
import Playpen.Proofs.Output.Blankness
import Playpen.Proofs.Pool.Users
import Playpen.Proofs.Command.Lexing
import Playpen.Proofs.Terminal.Running
import Playpen.Proofs.Config.RoundTrip
import Playpen.Proofs.Docker.Bookkeeping
import Playpen.Proofs.Diagnostic
import Playpen.Proofs.Engine.Rest
import Playpen.Proofs.Engine.Shutdown
import Playpen.Proofs.Runner.Belongings
import Playpen.Proofs.Engine.Apart
import Playpen.Proofs.Number.Rational
import Playpen.Proofs.Plane.Timed
import Playpen.Proofs.Runner.Deadline
import Playpen.Proofs.Engine.Deadline
import Playpen.Proofs.Config.Reload
import Playpen.Proofs.Config.Precedence
import Playpen.Proofs.Docker.Undiagnosed
import Playpen.Proofs.Docker.Isolation
import Playpen.Proofs.Engine.Naming
import Playpen.Proofs.Docker.Spelling
import Playpen.Proofs.Docker.Size
import Playpen.Proofs.Timing
