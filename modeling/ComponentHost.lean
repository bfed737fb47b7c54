import ComponentHost.Proofs.Data.Dict
import ComponentHost.Proofs.Transaction.NestedFailure
import ComponentHost.Proofs.Transaction.Refinement
import ComponentHost.Scenario.Run
import ComponentHost.Proofs.Data.Splits
import ComponentHost.Proofs.Invocation.ExecutionLaw
import ComponentHost.Proofs.Invocation.Routing
import ComponentHost.Proofs.Registry.Cycles
import ComponentHost.Proofs.Registry.Resolution
import ComponentHost.Proofs.Registry.Sites
import ComponentHost.Proofs.Registry.Resolving
import ComponentHost.Proofs.Registry.CycleDetection
import ComponentHost.Proofs.Registry.Ledger
import ComponentHost.Proofs.Registry.Instances
import ComponentHost.Proofs.Registry.Integrity
import ComponentHost.Proofs.Transaction.Trail
import ComponentHost.Proofs.Transaction.Course
import ComponentHost.Proofs.Transaction.Rewinding
import ComponentHost.Proofs.Transaction.Pending
import ComponentHost.Proofs.Transaction.FailedParticipants
import ComponentHost.Proofs.Context.LiveGuards
import ComponentHost.Proofs.Task.Isolation
import ComponentHost.Proofs.Task.Cancellation
import ComponentHost.Proofs.Transaction.Suspensions
import ComponentHost.Proofs.Transaction.Affairs
import ComponentHost.Proofs.Task.Orderly
import ComponentHost.Proofs.Task.Deadlines
import ComponentHost.Proofs.Transaction.Erasure
import ComponentHost.Proofs.Transaction.Outlived
import ComponentHost.Proofs.Registry.Crew
import ComponentHost.Proofs.Registry.CrewOrder
import ComponentHost.Proofs.Registry.Deadlocks
import ComponentHost.Proofs.Registry.SharedSlots
import ComponentHost.Proofs.Registry.Alone
import ComponentHost.Proofs.Transaction.Refusals
import ComponentHost.Proofs.Invocation.BuiltIns
import ComponentHost.Proofs.Invocation.Transparency
import ComponentHost.Proofs.Registry.Failures
import ComponentHost.Proofs.Registry.Retries
import ComponentHost.Proofs.Registry.Callbacks
import ComponentHost.Proofs.Registry.TypedResolution
import ComponentHost.Proofs.Registry.EagerStart
import ComponentHost.Proofs.Transaction.ReadOnly
import ComponentHost.Proofs.Transaction.SavepointStack
import ComponentHost.Proofs.Transaction.SavepointNames
