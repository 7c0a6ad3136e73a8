import FixLoop.RunCoordination.LeavesFirst
import FixLoop.RunCoordination.Registry
import FixLoop.PlanRuntime.ExclusiveExecution
import FixLoop.PlanRuntime.EvidencedSuccess
import FixLoop.ContextCompression.WindowFit
import FixLoop.ContextCompression.RepairFacts
import FixLoop.ContextCompression.CachedSummaries
import FixLoop.ContextCompression.SummaryPrompt
import FixLoop.Collaboration.TaskDag
import FixLoop.Workbench.OwnerSafety
import FixLoop.Workbench.Retention
import FixLoop.Workbench.RunEvents
import FixLoop.PlanRuntime.RecordProducers
import FixLoop.WorkspacePatches.AllOrNothing
import FixLoop.Collaboration.TaskLeases
import FixLoop.Collaboration.ExplorationLedger
import FixLoop.EditLock.UnreadWrites
import FixLoop.Blackboard.Replay
import FixLoop.Budget.MissingCalls
import FixLoop.Observations.SharedBlobs
import FixLoop.LinuxSandbox.Snapshots
import FixLoop.Permissions.Authority
import FixLoop.ResourceSupervisor.Fence
import FixLoop.Receipts.Recovery
import FixLoop.WorkspaceBroker.CommitSafety
import FixLoop.ActionLedger.Recovery
import FixLoop.RepairLoop.Stagnation
import FixLoop.RepairLoop.LedgerRuns
import FixLoop.Governance.AuditTrail
import FixLoop.Progress.Replay
import FixLoop.SessionContract.Reload
import FixLoop.DiskEdits.Reproduction
import FixLoop.PlanRuntime.RetryRuns
import FixLoop.PlanRuntime.Closure
import FixLoop.PlanRuntime.Inspection
import FixLoop.ProjectRestore.Execution
import FixLoop.PatchEngine.BareHunks
import FixLoop.DurableMemory.TopicRuns
import FixLoop.ToolDag.Rounds
import FixLoop.Cancellation.Callbacks
import FixLoop.Tokenizers.ApproxTokenCounter
import FixLoop.ContextRuntime.Selection
import FixLoop.WorkingMemory.EvidenceLedger
import FixLoop.Security.Redaction
