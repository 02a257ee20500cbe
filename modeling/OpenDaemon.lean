import OpenDaemon.Runs
import OpenDaemon.Call
import OpenDaemon.Interleaving
import OpenDaemon.RowTable
import OpenDaemon.SequencedLog
import OpenDaemon.JsonValue
import OpenDaemon.DirectoryPolicy
import OpenDaemon.AgentProfile
import OpenDaemon.TaskModel
import OpenDaemon.Database
import OpenDaemon.TaskStore
import OpenDaemon.StoreEffects
import OpenDaemon.StoreInvariant
import OpenDaemon.StoreThreads
import OpenDaemon.EventLog
import OpenDaemon.Lifecycle
import OpenDaemon.TaskRows
import OpenDaemon.LockTable
import OpenDaemon.GrantStore
import OpenDaemon.ProfileStore
import OpenDaemon.StoreCalls
import OpenDaemon.ServiceSteps
import OpenDaemon.SchedulerService
import OpenDaemon.ServiceInvariant
import OpenDaemon.Admission
import OpenDaemon.LockOwnership
import OpenDaemon.PolicyCalls
import OpenDaemon.GrantIdentity
import OpenDaemon.ExecutionService
import OpenDaemon.LockProtocol
import OpenDaemon.ExecutionExclusion
import OpenDaemon.ExecutionCompletion
import OpenDaemon.ExecutionAuthorization
import OpenDaemon.LockRetry
import OpenDaemon.Capacity
import OpenDaemon.ResultPersistence
import OpenDaemon.EventService
import OpenDaemon.EventStream
import OpenDaemon.EventThreads
import OpenDaemon.StreamInvariant
import OpenDaemon.EventStreaming
import OpenDaemon.StreamEnd
import OpenDaemon.TaskRun
import OpenDaemon.StreamAgreement
import OpenDaemon.PermissionDecisions
import OpenDaemon.PermissionWaiters
import OpenDaemon.PermissionRecords
import OpenDaemon.AcpSession
import OpenDaemon.TaskIntake
import OpenDaemon.RemoteGate
import OpenDaemon.TaskFrame
import OpenDaemon.ControlPlane
import OpenDaemon.DispatchOnce
import OpenDaemon.ControlPlaneCallbacks
import OpenDaemon.CallbackOrder
import OpenDaemon.ResultCallback
import OpenDaemon.ReservedMetadata
import OpenDaemon.ClientLoop
import OpenDaemon.GrantPolicies
import OpenDaemon.ByteText
import OpenDaemon.ProductStore
import OpenDaemon.TokenTable
import OpenDaemon.Authentication
import OpenDaemon.ApiHandlers
import OpenDaemon.ProductRows
import OpenDaemon.ServedRequests
import OpenDaemon.HandlerOwnership
import OpenDaemon.ProductIsolation
import OpenDaemon.CommandTemplate
import OpenDaemon.ProviderCommand
import OpenDaemon.GrantCreation
import OpenDaemon.HandlerReturns
import OpenDaemon.DirectScope
import OpenDaemon.WorkspaceSelection
import OpenDaemon.CurrentRegistration
import OpenDaemon.MergePatch
import OpenDaemon.DisjointPatches
import OpenDaemon.CallRefinement
import OpenDaemon.RegistryRaces
import OpenDaemon.ConcurrentPatches
import OpenDaemon.ConsoleEvents
import OpenDaemon.LatestEntries
import OpenDaemon.Utf8
import OpenDaemon.ProcessOutput
import OpenDaemon.ProviderManifests
import OpenDaemon.RuntimeIdentity
import OpenDaemon.CommandEnv
import OpenDaemon.ChildEnvironment
import OpenDaemon.RemoteUpload
import OpenDaemon.PercentEncoding
import OpenDaemon.ConsolePaths
import OpenDaemon.UnixPath
import OpenDaemon.ConsoleAssets
import OpenDaemon.SseBlocks
import OpenDaemon.AcpAgreement
import OpenDaemon.FileTree
import OpenDaemon.AdapterCalls
import OpenDaemon.AdapterOutcomes
import OpenDaemon.GrantedPaths
import OpenDaemon.CallContracts
import OpenDaemon.ConcurrentRequests
import OpenDaemon.RequestAuthority
import OpenDaemon.ScopeConfinement
import OpenDaemon.JsonText
import OpenDaemon.MappedTables
import OpenDaemon.PoolRefinement
import OpenDaemon.StoreOps
import OpenDaemon.StoreRefinement
import OpenDaemon.DetectedRuntimes
import OpenDaemon.RuntimeThreads
