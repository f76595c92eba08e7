import ClusterSnapshot.CommandLine.FileTree
import ClusterSnapshot.Extender.Proxy
import ClusterSnapshot.Main
import ClusterSnapshot.Proofs.Number.Text
import ClusterSnapshot.Proofs.Json.Scanning
import ClusterSnapshot.Proofs.Number.Rounding
import ClusterSnapshot.Proofs.Number.Reading
import ClusterSnapshot.Proofs.Json.Free
import ClusterSnapshot.Proofs.Json.Records
import ClusterSnapshot.Proofs.Json.Rereading
import ClusterSnapshot.Proofs.Object.Metadata
import ClusterSnapshot.Proofs.Object.Body
import ClusterSnapshot.Proofs.Object.Basic
import ClusterSnapshot.Proofs.Scheduler.Configuration
import ClusterSnapshot.Proofs.Object.Contents
import ClusterSnapshot.Proofs.Store.Objects
import ClusterSnapshot.Proofs.Store.Reachable
import ClusterSnapshot.Proofs.Store.Address
import ClusterSnapshot.Proofs.Store.KeyedMap
import ClusterSnapshot.Proofs.Store.Text
import ClusterSnapshot.Proofs.Request.Calls
import ClusterSnapshot.Proofs.Request.Ensures
import ClusterSnapshot.Proofs.Operation.Load
import ClusterSnapshot.Proofs.Operation.TaskGroup
import ClusterSnapshot.Proofs.Operation.Replay
import ClusterSnapshot.Proofs.Operation.BringingIn
import ClusterSnapshot.Proofs.Operation.Reserved
import ClusterSnapshot.Proofs.Operation.Arrival
import ClusterSnapshot.Proofs.Operation.Capture
import ClusterSnapshot.Proofs.Operation.Portable
import ClusterSnapshot.Proofs.Operation.RoundTrip
import ClusterSnapshot.Proofs.Operation.Trace
import ClusterSnapshot.Proofs.Operation.Submission
import ClusterSnapshot.Proofs.Operation.Cut
import ClusterSnapshot.Proofs.Operation.Overlay
import ClusterSnapshot.Proofs.Operation.Keeping
import ClusterSnapshot.Proofs.Operation.Lifetime
import ClusterSnapshot.Proofs.Operation.Claims
import ClusterSnapshot.Proofs.Operation.Clearing
import ClusterSnapshot.Proofs.Json.TwoForms
import ClusterSnapshot.Proofs.Object.AsDesired
import ClusterSnapshot.Proofs.Operation.AsReplay
import ClusterSnapshot.Proofs.Store.History
import ClusterSnapshot.Proofs.Operation.History
import ClusterSnapshot.Proofs.Store.Serving
import ClusterSnapshot.Proofs.Extender.Message
import ClusterSnapshot.Proofs.Extender.DecisionLog
import ClusterSnapshot.Proofs.Extender.Interleaving
import ClusterSnapshot.Proofs.Extender.Proxy
import ClusterSnapshot.Proofs.Format
import ClusterSnapshot.Proofs.Operation.Course
import ClusterSnapshot.Proofs.Operation.Removal
import ClusterSnapshot.Proofs.Operation.UserState
import ClusterSnapshot.Proofs.Operation.Batching
import ClusterSnapshot.Proofs.Store.Capturable
import ClusterSnapshot.Proofs.Operation.Capturable
import ClusterSnapshot.Proofs.Operation.Restoring
import ClusterSnapshot.Proofs.Operation.Ledger
import ClusterSnapshot.Proofs.Request.Accounts
import ClusterSnapshot.Proofs.Operation.Accounts
import ClusterSnapshot.Proofs.CommandLine.FileTree
import ClusterSnapshot.Proofs.CommandLine.Work
import ClusterSnapshot.Proofs.CommandLine.Clean
import ClusterSnapshot.Proofs.CommandLine.Exchange
import ClusterSnapshot.Proofs.Operation.Attempted
import ClusterSnapshot.Proofs.Operation.Abandoned
import ClusterSnapshot.Proofs.Store.Writing
import ClusterSnapshot.Proofs.Operation.Reported
import ClusterSnapshot.Proofs.Operation.Collecting
import ClusterSnapshot.Proofs.Operation.Dispatch
import ClusterSnapshot.Proofs.Scheduler.Routing
import ClusterSnapshot.Proofs.Extender.Annotation
import ClusterSnapshot.Proofs.Operation.Repeating
import ClusterSnapshot.Proofs.Settings.Text
