import OpenDaemon.Admission
import OpenDaemon.EventStream
import OpenDaemon.ProductStore
import OpenDaemon.TaskRun

/-!
# The handlers of the API

The handlers of `api/tasks.rs`, `api/permissions.rs`, `api/agents.rs` and
`api/directories.rs`, with their checks and store calls in the order of the
source. The filesystem and the derived deserializers of the patch bodies are
parameters; the other bodies and the queries reach a handler typed.
-/

namespace OpenDaemon

open Call

structure AgentProfileFilters where
  ownerProductId : Option String
  providerId : Option String

def AgentProfileFilters.matches (filters : AgentProfileFilters) (profile : AgentProfile) : Bool :=
  filters.ownerProductId.all (fun value => decide (profile.ownerProductId = value)) &&
    filters.providerId.all fun value => decide (profile.providerId = value)

structure DirectoryGrantFilters where
  productId : Option String
  agentId : Option String

def DirectoryGrantFilters.matches (filters : DirectoryGrantFilters) (grant : DirectoryGrant) :
    Bool :=
  filters.productId.all (fun value => decide (grant.productId = value)) &&
    filters.agentId.all fun value => decide (grant.agentId = value)

structure PermissionRequestFilters where
  ownerProductId : Option String
  status : Option PermissionRequestStatus

namespace Store

def listProfiles (s : Store) (filters : AgentProfileFilters) : List AgentProfile :=
  s.profiles.filter filters.matches

def listGrants (s : Store) (filters : DirectoryGrantFilters) : List DirectoryGrant :=
  (s.grants.map RowTable.Row.value).filter filters.matches

/-- `JOIN tasks t ON t.id = pr.task_id`, with the filters on the two sides. -/
def listPermissionRequests (s : Store) (filters : PermissionRequestFilters) :
    List PermissionRequestRecord :=
  (s.permissionRequests.filter fun request =>
      filters.status.all fun value => decide (request.status = value)).flatMap fun request =>
    ((s.tasks.map RowTable.Row.value).filter fun task => decide (task.id = request.taskId) &&
      filters.ownerProductId.all fun value => decide (task.ownerProductId = value)).map
        fun _ => request

end Store

inductive ApiStep
  | run (q : RunStep)
  | listProfiles (filters : AgentProfileFilters)
  | listGrants (filters : DirectoryGrantFilters)
  | listPermissionRequests (filters : PermissionRequestFilters)
  | subscribe
  | listEventsAfter (taskId : String) (cursor : ℕ)

namespace ApiStep

@[reducible] def Answer : ApiStep → Type
  | .run q => q.Answer
  | .listProfiles _ => List AgentProfile
  | .listGrants _ => List DirectoryGrant
  | .listPermissionRequests _ => List PermissionRequestRecord
  | .subscribe => ℕ
  | .listEventsAfter .. => List TaskEvent

def exec (q : ApiStep) (input : ServiceStep.Input) (x : EventState) : q.Answer × EventState :=
  match q with
  | .run q => q.exec input x
  | .listProfiles filters => (x.store.listProfiles filters, x)
  | .listGrants filters => (x.store.listGrants filters, x)
  | .listPermissionRequests filters => (x.store.listPermissionRequests filters, x)
  | .subscribe => (x.store.published.length, x)
  | .listEventsAfter taskId cursor => (x.store.listEventsAfter taskId cursor, x)

end ApiStep

abbrev ApiCall (ε α : Type) : Type := Call ApiStep ApiStep.Answer ε α

def fromService {ε α : Type} (c : ServiceCall ε α) : ApiCall ε α :=
  c.embed (fun q => .run (.service q)) (fun _ answer => answer) id

namespace TaskEventService

def handlers : Access ApiStep ApiStep.Answer where
  tasks op := .step (.run (.service (.tasks op))) fun
    | .ok result => .ret result
    | .error e => .fail (.task e)
  ask q := Call.perform (ApiStep.run (.event q))

/-- What `stream` does before it spawns the task that sends the frames. -/
def stream (taskId : String) (cursor : ℕ) : ApiCall TaskEventServiceError Stream := do
  let task ← handlers.tasks (.get taskId)
  let position ← Call.perform ApiStep.subscribe
  let replay ← Call.perform (ApiStep.listEventsAfter taskId cursor)
  let shouldTail := !task.status.isTerminal &&
    !replay.getLast?.any fun event => isTerminalEventType event.eventType
  return ⟨taskId, cursor, .replaying replay shouldTail, position, cursor, []⟩

end TaskEventService

namespace TasksApi

structure TaskListQuery where
  ownerProductId : Option String
  agentId : Option String
  directoryId : Option String
  status : Option TaskStatus

structure TaskEventRequest where
  eventType : String
  requestId : String
  decision : String
  reason : Option String

structure TaskPermissionResponse where
  taskId : String
  requestId : String
  status : String
  decision : PermissionDecision

def taskStore (op : TaskOp) : ApiCall ApiError op.Result :=
  fromService ((SchedulerService.tasks op).mapError .task)

def list (auth : ProductAuth) (query : TaskListQuery) : ApiCall ApiError (List Task) := do
  ofExcept ((auth.requireScope .tasksRead).mapError .auth)
  ofExcept ((query.ownerProductId.elim (.ok ()) auth.ensureProduct).mapError .auth)
  taskStore (.list ⟨some auth.productId, query.agentId, query.directoryId, query.status⟩)

def get (auth : ProductAuth) (taskId : String) : ApiCall ApiError Task := do
  let task ← taskStore (.get taskId)
  ofExcept ((auth.requireScope .tasksRead).mapError .auth)
  ofExcept ((auth.ensureProduct task.ownerProductId).mapError .auth)
  return task

def cancel (auth : ProductAuth) (taskId : String) : ApiCall ApiError Task := do
  ofExcept ((auth.requireScope .tasksCancel).mapError .auth)
  let current ← taskStore (.get taskId)
  ofExcept ((auth.ensureProduct current.ownerProductId).mapError .auth)
  fromService ((SchedulerService.cancelTask taskId).mapError .task)

def events (auth : ProductAuth) (taskId : String) (cursor lastEventId : Option String) :
    ApiCall ApiError Stream := do
  ofExcept ((auth.requireScope .tasksRead).mapError .auth)
  let task ← taskStore (.get taskId)
  ofExcept ((auth.ensureProduct task.ownerProductId).mapError .auth)
  let cursor ← ofExcept ((TaskEventService.parseCursor cursor lastEventId).mapError .taskEvents)
  (TaskEventService.stream taskId cursor).mapError .taskEvents

def postEvent (auth : ProductAuth) (taskId : String) (request : TaskEventRequest) :
    ApiCall ApiError TaskPermissionResponse := do
  ofExcept ((auth.requireScope .tasksRead).mapError .auth)
  let task ← taskStore (.get taskId)
  ofExcept ((auth.ensureProduct task.ownerProductId).mapError .auth)
  if request.eventType ≠ "provider.permission_response" then
    .fail (.taskEvents .invalidEventRequest)
  else
    match PermissionDecision.fromStr request.decision with
    | none => .fail (.taskEvents .invalidPermissionDecision)
    | some decision => do
      let resolution ← (TaskEventService.resolvePermissionResponse TaskEventService.handlers taskId
        ⟨request.requestId, decision, request.reason⟩).mapError .taskEvents
      return ⟨taskId, resolution.requestId, "resolved", resolution.decision⟩

end TasksApi

namespace PermissionsApi

inductive ApiError
  | auth (error : AuthError)
  | task (error : TaskStoreError)
  deriving DecidableEq, Repr

structure PermissionResponse where
  taskId : String
  requestId : String
  providerId : String
  permissionKind : String
  summary : String
  details : Option Value
  options : List PermissionDecision
  expiresAt : Option String
  createdAt : String

def PermissionResponse.ofRecord (record : PermissionRequestRecord) : PermissionResponse where
  taskId := record.taskId
  requestId := record.requestId
  providerId := record.providerId
  permissionKind := record.permissionKind
  summary := record.request.summary
  details := record.request.details
  options := record.request.options
  expiresAt := record.request.expiresAt
  createdAt := record.requestedAt

def requireScope (auth : AuthContext) (scope : ApiScope) : Except AuthError Unit :=
  match auth with
  | .bootstrap => .ok ()
  | .product context => if scope ∈ context.scopes then .ok () else .error .insufficientScope

def ownerFilter : AuthContext → Option String
  | .bootstrap => none
  | .product context => some context.productId

def list (auth : AuthContext) (status : Option PermissionRequestStatus) :
    ApiCall ApiError (List PermissionResponse) := do
  ofExcept ((requireScope auth .tasksRead).mapError .auth)
  let records ← Call.perform (ApiStep.listPermissionRequests ⟨ownerFilter auth, status⟩)
  return records.map PermissionResponse.ofRecord

end PermissionsApi

def CreateAgentProfile.validateAgainstRegistry (input : CreateAgentProfile)
    (registry : ProviderRegistry) : Except AgentProfileError Unit := do
  input.validate
  match registry.get input.providerId with
  | none => .error .providerNotFound
  | some provider =>
    if input.model ∉ provider.models.supported then .error .modelNotSupported
    else if input.providerConfig.permissionMode ≠ defaultPermissionMode ∧
        input.providerConfig.permissionMode ∉ provider.permissions.providerPermissionModes then
      .error .permissionModeNotSupported
    else .ok ()

def Value.hasKey (keys : List String) : Value → Bool
  | .object entries => entries.any fun entry => decide (entry.1 ∈ keys)
  | _ => true

namespace AgentsApi

inductive ApiError
  | auth (error : AuthError)
  | profile (error : AgentProfileError)
  | store
  | registry
  deriving DecidableEq, Repr

structure AgentListQuery where
  ownerProductId : Option String
  providerId : Option String

structure CreateAgentRequest where
  id : String
  name : String
  ownerProductId : String
  providerId : String
  model : String
  instructions : Option String
  executionPolicy : ExecutionPolicy
  providerConfig : ProviderConfig

def CreateAgentRequest.into (request : CreateAgentRequest) : CreateAgentProfile where
  id := request.id
  name := request.name
  ownerProductId := request.ownerProductId
  providerId := request.providerId
  model := request.model
  instructions := request.instructions
  executionPolicy := request.executionPolicy
  providerConfig := request.providerConfig

structure PatchAgentRequest where
  name : Option String
  providerId : Option String
  model : Option String
  instructions : Option (Option String)
  executionPolicy : Option ExecutionPolicy
  providerConfig : Option ProviderConfig

def PatchAgentRequest.into (request : PatchAgentRequest) : PatchAgentProfile where
  name := request.name
  providerId := request.providerId
  model := request.model
  instructions := request.instructions
  executionPolicy := request.executionPolicy
  providerConfig := request.providerConfig

def fromStore : AgentStoreError → ApiError
  | .profile error => .profile error
  | .store => .store

def profileStore (op : ProfileOp) : ApiCall ApiError op.Result :=
  .step (.run (.service (.profiles op))) fun
    | .ok result => .ret result
    | .error e => .fail (fromStore e)

def validateAgainstRegistry (input : CreateAgentProfile) : ApiCall ApiError Unit :=
  .step (.run (.service .loadRegistry)) fun
    | none => .fail .registry
    | some registry => ofExcept ((input.validateAgainstRegistry registry).mapError .profile)

def rejectImmutableFields (body : Value) : Except ApiError Unit :=
  match body with
  | .object [] => .error (.profile .invalidAgentProfile)
  | body =>
    if body.hasKey ["id", "owner_product_id", "created_at", "updated_at"] then
      .error (.profile .invalidAgentProfile)
    else .ok ()

def list (auth : ProductAuth) (query : AgentListQuery) : ApiCall ApiError (List AgentProfile) := do
  ofExcept ((auth.requireScope .agentsRead).mapError .auth)
  ofExcept ((query.ownerProductId.elim (.ok ()) auth.ensureProduct).mapError .auth)
  Call.perform (ApiStep.listProfiles ⟨some auth.productId, query.providerId⟩)

def create (auth : ProductAuth) (request : CreateAgentRequest) : ApiCall ApiError AgentProfile := do
  ofExcept ((auth.requireScope .agentsWrite).mapError .auth)
  ofExcept ((auth.ensureProduct request.ownerProductId).mapError .auth)
  validateAgainstRegistry request.into
  profileStore (.create request.into)

def get (auth : ProductAuth) (agentId : String) : ApiCall ApiError AgentProfile := do
  let agent ← profileStore (.get agentId)
  ofExcept ((auth.requireScope .agentsRead).mapError .auth)
  ofExcept ((auth.ensureProduct agent.ownerProductId).mapError .auth)
  return agent

/-- `parse` is the derived deserializer of the patch. -/
def patch (parse : Value → Option PatchAgentRequest) (auth : ProductAuth) (agentId : String)
    (body : Value) : ApiCall ApiError AgentProfile := do
  ofExcept ((auth.requireScope .agentsWrite).mapError .auth)
  ofExcept (rejectImmutableFields body)
  match parse body with
  | none => .fail (.profile .invalidAgentProfile)
  | some request => do
    let current ← profileStore (.get agentId)
    ofExcept ((auth.ensureProduct current.ownerProductId).mapError .auth)
    validateAgainstRegistry (request.into.apply current)
    profileStore (.patch agentId request.into)

def delete (auth : ProductAuth) (agentId : String) : ApiCall ApiError Unit := do
  ofExcept ((auth.requireScope .agentsWrite).mapError .auth)
  let current ← profileStore (.get agentId)
  ofExcept ((auth.ensureProduct current.ownerProductId).mapError .auth)
  profileStore (.delete agentId)

end AgentsApi

namespace DirectoriesApi

inductive ApiError
  | auth (error : AuthError)
  | directory (error : DirectoryStoreError)
  | agent (error : AgentProfileError)
  | agentStore
  | badPatch
  deriving DecidableEq, Repr

structure DirectoryListQuery where
  productId : Option String
  agentId : Option String

structure CreateDirectoryGrantRequest where
  productId : String
  agentId : String
  path : String
  capabilities : List DirectoryCapability
  workspaceModes : Option (List WorkspaceMode)
  defaultWorkspaceMode : Option WorkspaceMode
  lockPolicy : Option DirectoryLockPolicy
  directModeRequiresExplicitTaskOptIn : Option Bool
  allowRemoteExecution : Option Bool

def CreateDirectoryGrantRequest.into (request : CreateDirectoryGrantRequest) :
    CreateDirectoryGrant where
  productId := request.productId
  agentId := request.agentId
  path := request.path
  capabilities := request.capabilities
  workspaceModes := request.workspaceModes
  defaultWorkspaceMode := request.defaultWorkspaceMode
  lockPolicy := request.lockPolicy
  directModeRequiresExplicitTaskOptIn := request.directModeRequiresExplicitTaskOptIn
  allowRemoteExecution := request.allowRemoteExecution

structure PatchDirectoryGrantRequest where
  capabilities : Option (List DirectoryCapability)
  workspaceModes : Option (List WorkspaceMode)
  defaultWorkspaceMode : Option WorkspaceMode
  lockPolicy : Option DirectoryLockPolicy
  directModeRequiresExplicitTaskOptIn : Option Bool
  allowRemoteExecution : Option Bool

def PatchDirectoryGrantRequest.into (request : PatchDirectoryGrantRequest) :
    PatchDirectoryGrant where
  capabilities := request.capabilities
  workspaceModes := request.workspaceModes
  defaultWorkspaceMode := request.defaultWorkspaceMode
  lockPolicy := request.lockPolicy
  directModeRequiresExplicitTaskOptIn := request.directModeRequiresExplicitTaskOptIn
  allowRemoteExecution := request.allowRemoteExecution

def fromAgentStore : AgentStoreError → ApiError
  | .profile error => .agent error
  | .store => .agentStore

def grantStore (op : GrantOp) : ApiCall ApiError op.Result :=
  .step (.run (.service (.grants op))) fun
    | .ok result => .ret result
    | .error e => .fail (.directory e)

def authorizeAgent (request : AgentAuthorizationRequest) : ApiCall ApiError AgentProfile :=
  .step (.run (.service (.profiles (.authorize request)))) fun
    | .ok profile => .ret profile
    | .error e => .fail (fromAgentStore e)

def requireScopes (auth : ProductAuth) (scopes : List ApiScope) : Except AuthError Unit :=
  if scopes.all fun scope => decide (scope ∈ auth.scopes) then .ok () else .error .insufficientScope

def requireDirectScope (auth : ProductAuth) (workspaceModes : Option (List WorkspaceMode))
    (defaultWorkspaceMode : Option WorkspaceMode) : Except AuthError Unit :=
  let usesDirect := workspaceModes.any (fun modes => decide (.direct ∈ modes)) ||
    decide (defaultWorkspaceMode = some .direct)
  if usesDirect then requireScopes auth [.directoriesGrant, .directoriesDirect] else .ok ()

/-- An empty object passes here; the store refuses it. -/
def rejectImmutableFields (body : Value) : Except ApiError Unit :=
  if body.hasKey ["id", "product_id", "agent_id", "path", "created_at", "updated_at"] then
    .error .badPatch
  else .ok ()

def list (auth : ProductAuth) (query : DirectoryListQuery) :
    ApiCall ApiError (List DirectoryGrant) := do
  ofExcept ((auth.requireScope .directoriesRead).mapError .auth)
  ofExcept ((query.productId.elim (.ok ()) auth.ensureProduct).mapError .auth)
  Call.perform (ApiStep.listGrants ⟨some auth.productId, query.agentId⟩)

def create (fs : Filesystem) (auth : ProductAuth) (request : CreateDirectoryGrantRequest) :
    ApiCall ApiError DirectoryGrant := do
  ofExcept ((auth.requireScope .directoriesGrant).mapError .auth)
  ofExcept ((auth.ensureProduct request.productId).mapError .auth)
  ofExcept ((requireDirectScope auth request.workspaceModes
    request.defaultWorkspaceMode).mapError .auth)
  let _ ← authorizeAgent
    { ownerProductId := request.productId
      agentId := request.agentId
      providerIdOverride := none
      modelOverride := none
      permissionModeOverride := none
      requestedWorkspaceMode := (request.defaultWorkspaceMode.getD .worktree).forAgent }
  grantStore (.create fs request.into)

def get (auth : ProductAuth) (directoryId : String) : ApiCall ApiError DirectoryGrant := do
  let directory ← grantStore (.get directoryId)
  ofExcept ((auth.requireScope .directoriesRead).mapError .auth)
  ofExcept ((auth.ensureProduct directory.productId).mapError .auth)
  return directory

def patch (parse : Value → Option PatchDirectoryGrantRequest) (auth : ProductAuth)
    (directoryId : String) (body : Value) : ApiCall ApiError DirectoryGrant := do
  ofExcept ((auth.requireScope .directoriesGrant).mapError .auth)
  ofExcept (rejectImmutableFields body)
  match parse body with
  | none => .fail .badPatch
  | some request => do
    let current ← grantStore (.get directoryId)
    ofExcept ((auth.ensureProduct current.productId).mapError .auth)
    ofExcept ((requireDirectScope auth request.workspaceModes
      request.defaultWorkspaceMode).mapError .auth)
    grantStore (.patch directoryId request.into)

def delete (auth : ProductAuth) (directoryId : String) : ApiCall ApiError Unit := do
  ofExcept ((auth.requireScope .directoriesGrant).mapError .auth)
  let current ← grantStore (.get directoryId)
  ofExcept ((auth.ensureProduct current.productId).mapError .auth)
  grantStore (.delete directoryId)

end DirectoriesApi

inductive ApiRequest
  | listTasks (query : TasksApi.TaskListQuery)
  | createTask (request : CreateTaskRequest)
  | getTask (taskId : String)
  | cancelTask (taskId : String)
  | taskEvents (taskId : String) (cursor lastEventId : Option String)
  | postTaskEvent (taskId : String) (request : TasksApi.TaskEventRequest)
  | listPermissions (status : Option PermissionRequestStatus)
  | listAgents (query : AgentsApi.AgentListQuery)
  | createAgent (request : AgentsApi.CreateAgentRequest)
  | getAgent (agentId : String)
  | patchAgent (agentId : String) (body : Value)
  | deleteAgent (agentId : String)
  | listDirectories (query : DirectoriesApi.DirectoryListQuery)
  | createDirectory (request : DirectoriesApi.CreateDirectoryGrantRequest)
  | getDirectory (directoryId : String)
  | patchDirectory (directoryId : String) (body : Value)
  | deleteDirectory (directoryId : String)

inductive ApiResponse
  | tasks (tasks : List Task)
  | task (task : Task)
  | events (stream : Stream)
  | permissionResponse (response : TasksApi.TaskPermissionResponse)
  | permissions (permissions : List PermissionsApi.PermissionResponse)
  | agents (agents : List AgentProfile)
  | agent (agent : AgentProfile)
  | directories (directories : List DirectoryGrant)
  | directory (directory : DirectoryGrant)
  | noContent

inductive ApiFailure
  | tasks (error : ApiError)
  | permissions (error : PermissionsApi.ApiError)
  | agents (error : AgentsApi.ApiError)
  | directories (error : DirectoriesApi.ApiError)

structure ApiHost where
  fs : Filesystem
  parseAgentPatch : Value → Option AgentsApi.PatchAgentRequest
  parseDirectoryPatch : Value → Option DirectoriesApi.PatchDirectoryGrantRequest

def ProductAuthContext.auth (context : ProductAuthContext) : ProductAuth :=
  ⟨context.productId, context.scopes⟩

def answering {ε α : Type} (fail : ε → ApiFailure) (reply : α → ApiResponse) (c : ApiCall ε α) :
    ApiCall ApiFailure ApiResponse := do
  let a ← c.mapError fail
  return reply a

def ApiRequest.handle (host : ApiHost) (context : ProductAuthContext) :
    ApiRequest → ApiCall ApiFailure ApiResponse
  | .listTasks query => answering .tasks .tasks (TasksApi.list context.auth query)
  | .createTask request =>
    answering .tasks .task (fromService (TasksApi.create context.auth request))
  | .getTask taskId => answering .tasks .task (TasksApi.get context.auth taskId)
  | .cancelTask taskId => answering .tasks .task (TasksApi.cancel context.auth taskId)
  | .taskEvents taskId cursor lastEventId =>
    answering .tasks .events (TasksApi.events context.auth taskId cursor lastEventId)
  | .postTaskEvent taskId request =>
    answering .tasks .permissionResponse (TasksApi.postEvent context.auth taskId request)
  | .listPermissions status =>
    answering .permissions .permissions (PermissionsApi.list (.product context) status)
  | .listAgents query => answering .agents .agents (AgentsApi.list context.auth query)
  | .createAgent request => answering .agents .agent (AgentsApi.create context.auth request)
  | .getAgent agentId => answering .agents .agent (AgentsApi.get context.auth agentId)
  | .patchAgent agentId body =>
    answering .agents .agent (AgentsApi.patch host.parseAgentPatch context.auth agentId body)
  | .deleteAgent agentId =>
    answering .agents (fun _ => .noContent) (AgentsApi.delete context.auth agentId)
  | .listDirectories query =>
    answering .directories .directories (DirectoriesApi.list context.auth query)
  | .createDirectory request =>
    answering .directories .directory (DirectoriesApi.create host.fs context.auth request)
  | .getDirectory directoryId =>
    answering .directories .directory (DirectoriesApi.get context.auth directoryId)
  | .patchDirectory directoryId body =>
    answering .directories .directory
      (DirectoriesApi.patch host.parseDirectoryPatch context.auth directoryId body)
  | .deleteDirectory directoryId =>
    answering .directories (fun _ => .noContent) (DirectoriesApi.delete context.auth directoryId)

end OpenDaemon
