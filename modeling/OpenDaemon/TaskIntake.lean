import OpenDaemon.EventService
import OpenDaemon.SchedulerService

/-!
# Where tasks come from

The two callers of `enqueue_task`: the handler of `POST /v1/tasks` in
`api/tasks.rs`, under the scopes of a product token, and the dispatches of the
control plane in `control_plane/dispatch.rs`.
-/

namespace OpenDaemon

inductive ApiScope
  | providersRead
  | runtimesRead
  | agentsRead
  | agentsWrite
  | directoriesRead
  | directoriesGrant
  | directoriesDirect
  | tasksCreate
  | tasksRead
  | tasksCancel
  | tasksRemoteExecution
  deriving DecidableEq, Repr

inductive AuthError
  | missingAuthentication
  | invalidToken
  | bootstrapTokenRequired
  | productTokenRequired
  | insufficientScope
  | productScopeMismatch
  | productDisabled
  deriving DecidableEq, Repr

structure ProductAuth where
  productId : String
  scopes : List ApiScope

namespace ProductAuth

def requireScope (auth : ProductAuth) (scope : ApiScope) : Except AuthError Unit :=
  if scope ∈ auth.scopes then .ok () else .error .insufficientScope

def ensureProduct (auth : ProductAuth) (productId : String) : Except AuthError Unit :=
  if auth.productId = productId then .ok () else .error .productScopeMismatch

end ProductAuth

inductive ApiError
  | auth (error : AuthError)
  | task (error : TaskValidationError)
  | taskEvents (error : TaskEventServiceError)
  | taskRegistry
  deriving DecidableEq, Repr

structure CreateTaskRequest where
  ownerProductId : String
  agentId : String
  directoryId : String
  prompt : String
  requiredCapabilities : Option (List DirectoryCapability)
  workspaceMode : Option WorkspaceMode
  directModeTaskOptIn : Bool := false
  metadata : Option Value
  providerId : Option String
  model : Option String
  permissionMode : Option String
  timeoutSeconds : Option ℕ

def CreateTaskRequest.into (request : CreateTaskRequest) : CreateTask where
  ownerProductId := request.ownerProductId
  agentId := request.agentId
  directoryId := request.directoryId
  prompt := request.prompt
  requiredCapabilities := request.requiredCapabilities
  workspaceMode := request.workspaceMode
  directModeTaskOptIn := request.directModeTaskOptIn
  metadata := request.metadata
  providerId := request.providerId
  model := request.model
  permissionMode := request.permissionMode
  timeoutSeconds := request.timeoutSeconds

def ProviderRegistry.isHttp (registry : ProviderRegistry) (providerId : String) : Bool :=
  (registry.get providerId).any fun provider => provider.integrationType = .http

namespace TasksApi

/-- Only a request that names its provider is looked up in the registry. -/
def requestsRemoteExecution (request : CreateTaskRequest) : ServiceCall ApiError Bool :=
  match request.providerId with
  | none => return false
  | some providerId => .step .loadRegistry fun
    | some registry => return registry.isHttp providerId
    | none => .fail .taskRegistry

/-- Metadata that is no object stays as it is; `validate` refuses it later. -/
def markRemoteExecutionApproved (request : CreateTaskRequest) : CreateTaskRequest :=
  match request.metadata.getD .emptyObject with
  | .object entries => { request with
      metadata := some (.object (Value.insertEntry entries "remote_execution"
        (.object [("approved_by_scope", .bool true)]))) }
  | metadata => { request with metadata := some metadata }

def create (auth : ProductAuth) (request : CreateTaskRequest) : ServiceCall ApiError Task := do
  Call.ofExcept ((auth.requireScope .tasksCreate).mapError .auth)
  Call.ofExcept ((auth.ensureProduct request.ownerProductId).mapError .auth)
  let remote ← requestsRemoteExecution request
  if remote then do
    Call.ofExcept ((auth.requireScope .tasksRemoteExecution).mapError .auth)
    (SchedulerService.enqueueTask (markRemoteExecutionApproved request).into).mapError .task
  else (SchedulerService.enqueueTask request.into).mapError .task

end TasksApi

structure RemoteDispatchTask where
  remoteTaskId : String
  ownerProductId : String
  agentId : String
  directoryId : String
  prompt : String
  requiredCapabilities : List String
  workspaceMode : String
  timeoutSeconds : Option ℕ
  taskToken : String
  metadata : Value

inductive ControlPlaneDispatchError
  | invalidDispatch
  | task (error : TaskValidationError)
  deriving DecidableEq, Repr

namespace ControlPlaneDispatchService

abbrev DispatchCall (α : Type) : Type := ServiceCall ControlPlaneDispatchError α

def parseCapability (name : String) : Except ControlPlaneDispatchError DirectoryCapability :=
  if name = "read" then .ok .read
  else if name = "write" then .ok .write
  else if name = "shell" then .ok .shell
  else if name = "git" then .ok .git
  else .error .invalidDispatch

def parseWorkspaceMode (name : String) : Except ControlPlaneDispatchError WorkspaceMode :=
  if name = "worktree" then .ok .worktree
  else if name = "direct" then .ok .direct
  else .error .invalidDispatch

def dispatchMetadata (remoteTask : RemoteDispatchTask) : Value :=
  .object
    [("control_plane", .object
      [("remote_task_id", .string remoteTask.remoteTaskId),
       ("task_token", .string remoteTask.taskToken),
       ("source", .string "control_plane")]),
     ("upstream", remoteTask.metadata)]

def toCreateTask (remoteTask : RemoteDispatchTask) :
    Except ControlPlaneDispatchError CreateTask := do
  let requiredCapabilities ← remoteTask.requiredCapabilities.mapM parseCapability
  let workspaceMode ← parseWorkspaceMode remoteTask.workspaceMode
  return {
    ownerProductId := remoteTask.ownerProductId
    agentId := remoteTask.agentId
    directoryId := remoteTask.directoryId
    prompt := remoteTask.prompt
    requiredCapabilities := some requiredCapabilities
    workspaceMode := some workspaceMode
    directModeTaskOptIn := workspaceMode = .direct
    metadata := some (dispatchMetadata remoteTask)
    providerId := none
    model := none
    permissionMode := none
    timeoutSeconds := remoteTask.timeoutSeconds }

def remoteTaskIdOf (task : Task) : Option String :=
  ((task.metadata.bind (·.get? "control_plane")).bind (·.get? "remote_task_id")).bind Value.asStr

def findByRemoteTaskId (remoteTaskId : String) : DispatchCall (Option Task) := do
  let tasks ← (SchedulerService.tasks (.list ⟨none, none, none, none⟩)).mapError .task
  return tasks.find? fun task => remoteTaskIdOf task = some remoteTaskId

def ingest (remoteTask : RemoteDispatchTask) : DispatchCall Task := do
  let existing ← findByRemoteTaskId remoteTask.remoteTaskId
  match existing with
  | some task => return task
  | none => do
    let input ← Call.ofExcept (toCreateTask remoteTask)
    (SchedulerService.enqueueTask input).mapError .task

end ControlPlaneDispatchService

end OpenDaemon
