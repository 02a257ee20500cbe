import OpenDaemon.SchedulerService

/-!
# The execution service

`scheduler/execution.rs`: one execution of a task, from the lock to the stored
result. An adapter execution is in progress exactly while the next step of the
call is `executeAdapter`.
-/

namespace OpenDaemon

inductive ExecutionError
  | runtimeUnavailable
  | adapter (error : RuntimeAdapterError)
  | task (error : TaskValidationError)
  | registry
  deriving DecidableEq, Repr

abbrev ExecutionCall (α : Type) : Type := ServiceCall ExecutionError α

def defaultTaskTimeoutSeconds : ℕ := 300

def runtimeAvailable (runtime : RuntimeView) (integrationType : IntegrationType) : Bool :=
  if runtime.status ≠ .available then false
  else match integrationType with
    | .cli => runtime.kind = .localCli && runtime.executable.isSome
    | .acp => runtime.kind = .localAcp && runtime.executable.isSome
    | .http => runtime.kind = .remoteHttp
    | .native => false

/-- `AdapterSelector::for_manifest`: there is no adapter for native providers. -/
def forManifest (manifest : ProviderManifest) : Except RuntimeAdapterError Unit :=
  match manifest.integrationType with
  | .cli | .acp | .http => .ok ()
  | .native => .error ⟨"adapter_not_implemented", "provider adapter is not implemented"⟩

def errorPayload (error : RuntimeAdapterError) : Value :=
  .object [("error", .string error.code), ("message", .string error.message)]

def resultError (error : RuntimeAdapterError) : String :=
  if error.code = "command_timeout" ∨ error.code = "command_cancelled" then error.code
  else error.message

def resultFromOutcome (task : Task) (outcome : RuntimeExecutionOutcome)
    (workspace : PreparedWorkspace) (now : String) : TaskResult where
  taskId := task.id
  status := task.status
  finalMessage := outcome.finalMessage
  changedFiles := outcome.changedFiles
  diff := outcome.diff
  workspaceMode := task.workspaceMode
  worktreePath := workspace.worktreePath
  sourceDirectoryId := task.directoryId
  branchName := workspace.branchName
  commitHash := none
  sessionId := outcome.sessionId
  providerResult := outcome.providerResult
  usage := outcome.usage
  artifacts := []
  error := outcome.error.map resultError
  createdAt := now
  updatedAt := now

namespace ExecutionService

def scheduler {α : Type} (c : SchedulerCall α) : ExecutionCall α := c.mapError .task

def tasks (op : TaskOp) : ExecutionCall op.Result := scheduler (SchedulerService.tasks op)

def getProfile (id : String) : ExecutionCall AgentProfile :=
  .step (.profiles (.get id)) fun
    | .ok profile => .ret profile
    | .error _ => .fail (.task .store)

def getGrant (id : String) : ExecutionCall DirectoryGrant :=
  .step (.grants (.get id)) fun
    | .ok grant => .ret grant
    | .error _ => .fail (.task .store)

def loadRegistry : ExecutionCall ProviderRegistry :=
  .step .loadRegistry fun
    | some registry => .ret registry
    | none => .fail .registry

def getManifest (registry : ProviderRegistry) (providerId : String) :
    Except ExecutionError ProviderManifest :=
  match registry.get providerId with
  | some manifest => .ok manifest
  | none => .error .runtimeUnavailable

def getRuntime (providerId : String) (manifest : ProviderManifest) : ExecutionCall RuntimeView :=
  .step (.getRuntime providerId) fun answer =>
    match answer.filter (runtimeAvailable · manifest.integrationType) with
    | some runtime => .ret runtime
    | none => .fail .runtimeUnavailable

def getExecutable (runtime : RuntimeView) : Except ExecutionError String :=
  match runtime.executable with
  | some executable => .ok executable
  | none => .error .runtimeUnavailable

def acquireDirectoryLock (config : SchedulerConfig) (task : Task) : ExecutionCall Unit := do
  match ← scheduler (SchedulerService.tryAcquireDirectoryLock config (LockRequest.fromTask task)) with
  | .acquired | .notRequired => return ()
  | .waiting => .fail (.task .directoryLockConflict)

def appendEvents (taskId : String) : List RuntimeOutputEvent → ExecutionCall Unit
  | [] => return ()
  | event :: events => do
    let _ ← tasks (.appendEvent taskId event.kind event.payload)
    appendEvents taskId events

def persistOutcome (taskId : String) (outcome : RuntimeExecutionOutcome)
    (workspace : PreparedWorkspace) : ExecutionCall Task := do
  appendEvents taskId outcome.events
  let _ ← tasks (.transition taskId outcome.status.taskStatus (outcome.error.map errorPayload))
  let task ← tasks (.get taskId)
  let now ← Call.perform .clock
  tasks (.saveExecutionResult (resultFromOutcome task outcome workspace now))
  tasks (.get taskId)

/-- The part of `execute_task` after the checks, which holds the lock if one is needed. -/
def runTask (config : SchedulerConfig) (taskId : String) (task : Task) (profile : AgentProfile)
    (grant : DirectoryGrant) (manifest : ProviderManifest) (runtime : RuntimeView)
    (executable : String) : ExecutionCall Task := do
  acquireDirectoryLock config task
  let workspace ← scheduler (SchedulerService.prepareWorkspace taskId)
  let _ ← scheduler (SchedulerService.markRunning taskId)
  Call.ofExcept ((forManifest manifest).mapError .adapter)
  let current ← tasks (.get taskId)
  let outcome ← Call.perform (.executeAdapter
    { taskId := task.id
      providerId := profile.providerId
      runtimeId := runtime.id
      executable := executable
      manifest := manifest
      agentProfile := profile
      directoryGrant := grant
      task := current
      workspace := workspace
      timeoutSeconds := task.timeoutSeconds.getD defaultTaskTimeoutSeconds
      allowAgentCustomEnv := config.allowAgentCustomEnv })
  persistOutcome taskId outcome workspace

def executeTask (config : SchedulerConfig) (taskId : String) : ExecutionCall Task := do
  let task ← tasks (.get taskId)
  if task.status.isTerminal then .fail (.task .taskAlreadyTerminal)
  else do
    let profile ← getProfile task.agentId
    let grant ← getGrant task.directoryId
    let registry ← loadRegistry
    let manifest ← Call.ofExcept (getManifest registry profile.providerId)
    let runtime ← getRuntime profile.providerId manifest
    let executable ← Call.ofExcept (getExecutable runtime)
    runTask config taskId task profile grant manifest runtime executable

end ExecutionService

section Uses
variable {P : ServiceStep → Prop} {taskId : String}

theorem uses_ofExcept {α : Type} (r : Except ExecutionError α) :
    (Call.ofExcept r : ExecutionCall α).Uses P := by
  cases r <;> trivial

theorem uses_executionTasks (op : TaskOp) (hop : P (.tasks op)) :
    (ExecutionService.tasks op).Uses P :=
  (uses_tasks op hop).mapError _

theorem uses_appendEvents (happend : ∀ kind payload, P (.tasks (.appendEvent taskId kind payload)))
    (events : List RuntimeOutputEvent) : (ExecutionService.appendEvents taskId events).Uses P := by
  induction events with
  | nil => trivial
  | cons event events ih => exact (uses_executionTasks _ (happend _ _)).bind fun _ => ih

theorem uses_persistOutcome (hget : ∀ id, P (.tasks (.get id)))
    (happend : ∀ kind payload, P (.tasks (.appendEvent taskId kind payload)))
    (hmove : ∀ (status : RuntimeExecutionStatus) payload,
      P (.tasks (.transition taskId status.taskStatus payload)))
    (hsave : ∀ result, P (.tasks (.saveExecutionResult result))) (hclock : P .clock)
    (outcome : RuntimeExecutionOutcome) (workspace : PreparedWorkspace) :
    (ExecutionService.persistOutcome taskId outcome workspace).Uses P := by
  refine (uses_appendEvents happend _).bind fun _ =>
    (uses_executionTasks _ (hmove _ _)).bind fun _ =>
    (uses_executionTasks _ (hget _)).bind fun task => ⟨hclock, fun now => ?_⟩
  exact (uses_executionTasks _ (hsave _)).bind fun _ => uses_executionTasks _ (hget _)

theorem uses_getProfile {id : String} (h : P (.profiles (.get id))) :
    (ExecutionService.getProfile id).Uses P := by
  refine ⟨h, fun r => ?_⟩
  cases r <;> trivial

theorem uses_executionGrant {id : String} (h : P (.grants (.get id))) :
    (ExecutionService.getGrant id).Uses P := by
  refine ⟨h, fun r => ?_⟩
  cases r <;> trivial

theorem uses_loadRegistry (h : P .loadRegistry) : ExecutionService.loadRegistry.Uses P := by
  refine ⟨h, fun r => ?_⟩
  cases r <;> trivial

theorem uses_getRuntime {providerId : String} (manifest : ProviderManifest)
    (h : P (.getRuntime providerId)) : (ExecutionService.getRuntime providerId manifest).Uses P := by
  refine ⟨h, fun r => ?_⟩
  dsimp only
  split <;> trivial

theorem uses_acquireDirectoryLock {config : SchedulerConfig} (task : Task)
    (hget : ∀ id, P (.tasks (.get id))) (hlist : ∀ filters, P (.tasks (.list filters)))
    (hgrant : ∀ id, P (.grants (.get id))) (hlock : ∀ lock, P (.tasks (.acquireLock lock)))
    (hmove : ∀ id reason,
      P (.tasks (.transition id .waitingDirectoryLock (reasonPayload reason)))) :
    (ExecutionService.acquireDirectoryLock config task).Uses P := by
  refine Call.Uses.bind ((uses_tryAcquireDirectoryLock hget hlist hgrant hlock hmove).mapError _)
    fun decision => ?_
  cases decision <;> trivial

end Uses

end OpenDaemon
