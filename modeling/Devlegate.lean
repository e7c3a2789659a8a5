import Devlegate.Lib.Json
import Devlegate.Lib.ByteStream
import Devlegate.Lib.Dict
import Devlegate.Lib.SharedCell
import Devlegate.Lib.Transition
import Devlegate.Lib.History
import Devlegate.Lib.Crash
import Devlegate.Lib.Git
import Devlegate.WorkerEgress
import Devlegate.ExecutionResult
import Devlegate.WorkerSupervisor
import Devlegate.State
import Devlegate.SaveRace
import Devlegate.OperatorAdmission
import Devlegate.IpcClient
import Devlegate.Tickets
import Devlegate.Engine
import Devlegate.EngineMoves
import Devlegate.LaunchIdentity
import Devlegate.RetryBarrier
import Devlegate.RetryReplacement
import Devlegate.RetryTarget
import Devlegate.OwnerLoop
import Devlegate.OwnerWake
import Devlegate.Receipts
import Devlegate.WorkerDrain
import Devlegate.TicketStorage
import Devlegate.StatusSnapshot
import Devlegate.StatusPartition
import Devlegate.Synchronization
import Devlegate.ReconciliationResume
import Devlegate.Site
import Devlegate.DropExecution
import Devlegate.UpdateBase
import Devlegate.UpdateBaseFailure
import Devlegate.Lib.JsonDump
import Devlegate.Lib.JsonStyle
import Devlegate.IpcProtocol
import Devlegate.ReportDict
import Devlegate.ForcedStop
import Devlegate.Lib.JsonTexts
import Devlegate.ReportJson
import Devlegate.ReportStore
import Devlegate.LifecycleReceipt
import Devlegate.Fingerprints
import Devlegate.StatusMoment
import Devlegate.Lib.DepthFirst
import Devlegate.TicketGraph
import Devlegate.ReportWrite
import Devlegate.LifecycleApply
import Devlegate.IpcServer
import Devlegate.StoredState
import Devlegate.LogFollow
import Devlegate.WorkerPrompt
import Devlegate.WorktreeList
import Devlegate.SystemdUnit
import Devlegate.ProjectRegistry
import Devlegate.ProjectRemove
import Devlegate.WorkflowFingerprint
import Devlegate.ArchFormat
import Devlegate.DebFormat
import Devlegate.TicketEvidence
import Devlegate.ArchiveExtract
import Devlegate.StatusWire
import Devlegate.SignalLocks
import Devlegate.ServiceAuthority
import Devlegate.AcceptedIntegration
import Devlegate.ControlCommits
import Devlegate.IntegrationRuns
import Devlegate.WorkspaceManager
import Devlegate.BoundWorkspace
import Devlegate.RepairRuns
import Devlegate.RecoveryRuns
import Devlegate.LifecycleReplay
import Devlegate.LifecycleFound
import Devlegate.LifecycleSettles
