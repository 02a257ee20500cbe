import OpenDaemon.ServiceSteps

/-!
# The scheduler service

`scheduler/service.rs`: admission of tasks, lock acquisition, the steps of a
task to its end and cancellation, each as the sequence of store calls it makes.
-/

namespace OpenDaemon

structure SchedulerConfig where
  maxConcurrentTasks : ℕ
  allowAgentCustomEnv : Bool
  deriving DecidableEq, Repr

inductive TaskValidationError
  | taskNotFound
  | invalidTask
  | invalidTaskPrompt
  | invalidTaskState
  | agentNotFound
  | directoryNotFound
  | agentAuthorizationFailed
  | directoryAuthorizationFailed
  | capabilityNotAllowed
  | workspaceModeNotAllowed
  | directModeNotAllowed
  | providerOverrideNotAllowed
  | modelOverrideNotAllowed
  | permissionModeOverrideNotAllowed
  | remoteExecutionNotAllowed
  | directoryLockConflict
  | taskAlreadyTerminal
  | store
  | panic
  deriving DecidableEq, Repr

def mapModelError : TaskModelError → TaskValidationError
  | .invalidPrompt => .invalidTaskPrompt
  | .invalidTask => .invalidTask

def mapAgentError : AgentStoreError → TaskValidationError
  | .profile .agentNotFound => .agentNotFound
  | .profile _ => .agentAuthorizationFailed
  | .store => .store

def mapDirectoryError : DirectoryStoreError → TaskValidationError
  | .notFound => .directoryNotFound
  | .security .directModeNotAllowed => .directModeNotAllowed
  | .security .authorizationFailed => .directoryAuthorizationFailed
  | .security .invalidCapability => .capabilityNotAllowed
  | .security _ => .workspaceModeNotAllowed
  | .path _ => .directoryAuthorizationFailed
  | .store => .store
  | .panic => .panic

def TaskValidationError.fromTaskStore : TaskStoreError → TaskValidationError
  | .notFound => .taskNotFound
  | .permissionRequestNotFound | .permissionRequestNotPending
  | .permissionRequestAlreadyResolved => .invalidTaskState
  | .model error => mapModelError error
  | .state .alreadyTerminal => .taskAlreadyTerminal
  | .state _ => .invalidTaskState
  | .store => .store

inductive OverrideKind
  | provider
  | model
  | permissionMode
  deriving DecidableEq, Repr

def mapOverrideError (requested : Option String) (actual : String) (kind : OverrideKind) :
    Except TaskValidationError Unit :=
  if requested.any fun requested => requested ≠ actual then
    .error <| match kind with
      | .provider => .providerOverrideNotAllowed
      | .model => .modelOverrideNotAllowed
      | .permissionMode => .permissionModeOverrideNotAllowed
  else .ok ()

def selectWorkspaceMode (requested : Option WorkspaceMode) (grant : DirectoryGrant)
    (directModeTaskOptIn : Bool) : Except TaskValidationError WorkspaceMode :=
  let mode := requested.getD grant.defaultWorkspaceMode
  if mode ∉ grant.workspaceModes then
    .error <| match mode with
      | .direct => .directModeNotAllowed
      | .worktree => .workspaceModeNotAllowed
  else if mode = .direct ∧ grant.directModeRequiresExplicitTaskOptIn ∧ ¬ directModeTaskOptIn then
    .error .directModeNotAllowed
  else .ok mode

/-- `metadata["remote_execution"]["approved_by_scope"].as_bool().unwrap_or(false)`. -/
def approvedByScope (metadata : Option Value) : Bool :=
  (metadata.bind fun metadata =>
    ((metadata.index "remote_execution").index "approved_by_scope").asBool).getD false

def reasonPayload (reason : String) : Option Value :=
  some (.object [("reason", .string reason)])

abbrev SchedulerCall (α : Type) : Type := ServiceCall TaskValidationError α

namespace SchedulerService

def tasks (op : TaskOp) : SchedulerCall op.Result :=
  .step (.tasks op) fun
    | .ok result => .ret result
    | .error e => .fail (.fromTaskStore e)

def getGrant (id : String) : SchedulerCall DirectoryGrant :=
  .step (.grants (.get id)) fun
    | .ok grant => .ret grant
    | .error e => .fail (mapDirectoryError e)

def getProfile (id : String) : SchedulerCall AgentProfile :=
  .step (.profiles (.get id)) fun
    | .ok profile => .ret profile
    | .error e => .fail (mapAgentError e)

def authorizeGrant (request : DirectoryAuthorizationRequest) : SchedulerCall DirectoryGrant :=
  .step (.grants (.authorize request)) fun
    | .ok grant => .ret grant
    | .error e => .fail (mapDirectoryError e)

def checkProfile (input : CreateTask) (grant : DirectoryGrant) (mode : WorkspaceMode)
    (profile : AgentProfile) : Except TaskValidationError Unit :=
  if profile.ownerProductId ≠ input.ownerProductId then .error .agentAuthorizationFailed
  else do
    mapOverrideError input.providerId profile.providerId .provider
    mapOverrideError input.model profile.model .model
    mapOverrideError input.permissionMode profile.providerConfig.permissionMode .permissionMode
    if mode = .direct ∧ ¬ profile.executionPolicy.allowDirectDirectory then
      .error .directModeNotAllowed
    else if input.normalizedCapabilities.any (· ∉ grant.capabilities) then
      .error .capabilityNotAllowed
    else .ok ()

def enqueueTask (input : CreateTask) : SchedulerCall Task := do
  Call.ofExcept (input.validate.mapError mapModelError)
  let grant ← getGrant input.directoryId
  let requestedWorkspaceMode ←
    Call.ofExcept (selectWorkspaceMode input.workspaceMode grant input.directModeTaskOptIn)
  let profile ← getProfile input.agentId
  Call.ofExcept (checkProfile input grant requestedWorkspaceMode profile)
  let _ ← authorizeGrant
    { productId := input.ownerProductId
      agentId := input.agentId
      directoryId := input.directoryId
      requiredCapabilities := input.normalizedCapabilities
      requestedWorkspaceMode := requestedWorkspaceMode
      directModeTaskOptIn := input.directModeTaskOptIn
      remoteExecution := approvedByScope input.metadata }
  tasks (.create { input with
    workspaceMode := some requestedWorkspaceMode
    providerId := some profile.providerId
    model := some profile.model
    permissionMode := some profile.providerConfig.permissionMode })

def runningOrPreparing (task : Task) : Bool :=
  task.status = .preparing || task.status = .running

def runningOrPreparingCount : SchedulerCall ℕ := do
  let all ← tasks (.list ⟨none, none, none, none⟩)
  return (all.filter runningOrPreparing).length

def tryAcquireDirectoryLock (config : SchedulerConfig) (request : LockRequest) :
    SchedulerCall LockDecision := do
  let task ← tasks (.get request.taskId)
  let count ← runningOrPreparingCount
  if config.maxConcurrentTasks ≤ count then do
    let _ ← tasks (.transition task.id .waitingDirectoryLock (reasonPayload "global_capacity"))
    return .waiting
  else do
    let grant ← getGrant request.directoryId
    let mode := modeForCapabilities task.requiredCapabilities grant.lockPolicy
    if mode = .none then return .notRequired
    else do
      let acquired ← tasks (.acquireLock { request with mode := mode })
      if acquired then do
        let _ ← tasks (.transition task.id .waitingDirectoryLock
          (reasonPayload "directory_lock_acquired"))
        return .acquired
      else do
        let _ ← tasks (.transition task.id .waitingDirectoryLock (reasonPayload "directory_lock"))
        return .waiting

def markPreparing (taskId : String) : SchedulerCall Task :=
  tasks (.transition taskId .preparing none)

def failTask (taskId error : String) : SchedulerCall Task :=
  tasks (.transition taskId .failed (some (.object [("error", .string error)])))

def runPreparer (taskId : String) (task : Task) (grant : DirectoryGrant) :
    SchedulerCall PreparedWorkspace :=
  .step (.prepareWorkspace task.id grant task.workspaceMode) fun
    | .ok workspace => .ret workspace
    | .error _ => do
      let _ ← failTask taskId "workspace preparation failed"
      .fail .workspaceModeNotAllowed

def prepareWorkspace (taskId : String) : SchedulerCall PreparedWorkspace := do
  let task ← tasks (.get taskId)
  let grant ← getGrant task.directoryId
  if task.status = .waitingDirectoryLock then do
    let _ ← markPreparing taskId
    runPreparer taskId task grant
  else runPreparer taskId task grant

def markRunning (taskId : String) : SchedulerCall Task :=
  tasks (.transition taskId .running none)

def completeTask (taskId finalMessage : String) : SchedulerCall Task := do
  let task ← tasks (.transition taskId .completed none)
  tasks (.saveResult taskId finalMessage [])
  return task

def cancelTask (taskId : String) : SchedulerCall Task := do
  let task ← tasks (.get taskId)
  if task.status = .completed ∨ task.status = .failed ∨ task.status = .timedOut then
    .fail .taskAlreadyTerminal
  else tasks (.cancel taskId)

def releaseLocks (taskId : String) : SchedulerCall Unit := tasks (.releaseLocks taskId)

end SchedulerService

section Uses
variable {P : ServiceStep → Prop}

theorem uses_tasks (op : TaskOp) (hop : P (.tasks op)) : (SchedulerService.tasks op).Uses P := by
  refine ⟨hop, fun r => ?_⟩
  cases r <;> trivial

theorem uses_getGrant {id : String} (h : P (.grants (.get id))) :
    (SchedulerService.getGrant id).Uses P := by
  refine ⟨h, fun r => ?_⟩
  cases r <;> trivial

theorem uses_runPreparer {taskId : String} {task : Task} {grant : DirectoryGrant}
    (hmove : ∀ next payload, P (.tasks (.transition taskId next payload)))
    (hprepare : ∀ id grant mode, P (.prepareWorkspace id grant mode)) :
    (SchedulerService.runPreparer taskId task grant).Uses P := by
  refine ⟨hprepare _ _ _, fun r => ?_⟩
  cases r with
  | ok workspace => trivial
  | error e => exact (uses_tasks _ (hmove ..)).bind fun _ => trivial

theorem uses_prepareWorkspace {taskId : String} (hget : ∀ id, P (.tasks (.get id)))
    (hgrant : ∀ id, P (.grants (.get id)))
    (hmove : ∀ next payload, P (.tasks (.transition taskId next payload)))
    (hprepare : ∀ id grant mode, P (.prepareWorkspace id grant mode)) :
    (SchedulerService.prepareWorkspace taskId).Uses P := by
  refine (uses_tasks _ (hget taskId)).bind fun task =>
    (uses_getGrant (hgrant _)).bind fun grant => ?_
  split
  · exact (uses_tasks _ (hmove ..)).bind fun _ => uses_runPreparer hmove hprepare
  · exact uses_runPreparer hmove hprepare

theorem uses_tryAcquireDirectoryLock {config : SchedulerConfig} {request : LockRequest}
    (hget : ∀ id, P (.tasks (.get id))) (hlist : ∀ filters, P (.tasks (.list filters)))
    (hgrant : ∀ id, P (.grants (.get id))) (hlock : ∀ lock, P (.tasks (.acquireLock lock)))
    (hmove : ∀ id reason,
      P (.tasks (.transition id .waitingDirectoryLock (reasonPayload reason)))) :
    (SchedulerService.tryAcquireDirectoryLock config request).Uses P := by
  have hwait : ∀ id reason (decision : LockDecision), (do
      let _ ← SchedulerService.tasks (.transition id .waitingDirectoryLock (reasonPayload reason))
      return decision : SchedulerCall LockDecision).Uses P :=
    fun _ _ _ => (uses_tasks _ (hmove ..)).bind fun _ => trivial
  have hcount : SchedulerService.runningOrPreparingCount.Uses P :=
    (uses_tasks _ (hlist _)).bind fun _ => trivial
  refine (uses_tasks _ (hget _)).bind fun task => hcount.bind fun count => ?_
  split
  · exact hwait ..
  · refine (uses_getGrant (hgrant _)).bind fun grant => ?_
    dsimp only
    split
    · trivial
    · refine (uses_tasks _ (hlock _)).bind fun acquired => ?_
      split
      · exact hwait ..
      · exact hwait ..

end Uses

section Run
variable {ε α β : Type} {inputs : ℕ → ServiceStep.Input} {s : Store}

def later (inputs : ℕ → ServiceStep.Input) : ℕ → ServiceStep.Input := fun n => inputs (n + 1)

@[simp] theorem runService_ret (a : α) :
    runService (.ret a : ServiceCall ε α) inputs s = (.ok a, s) := rfl

@[simp] theorem runService_fail (e : ε) :
    runService (.fail e : ServiceCall ε α) inputs s = (.error e, s) := rfl

theorem runService_step (q : ServiceStep) (k : q.Answer → ServiceCall ε α) :
    runService (.step q k) inputs s =
      runService (k (q.exec (inputs 0) s).1) (later inputs) (q.exec (inputs 0) s).2 := rfl

theorem runService_ofExcept (r : Except ε α) (f : α → ServiceCall ε β) :
    runService (Call.ofExcept r >>= f) inputs s = match r with
      | .ok a => runService (f a) inputs s
      | .error e => (.error e, s) := by
  cases r with
  | ok a => rfl
  | error e => rfl

theorem runService_tasks_bind (op : TaskOp) (f : op.Result → SchedulerCall β) :
    runService (SchedulerService.tasks op >>= f) inputs s =
      match runAlone op.program (inputs 0).now s with
      | (.ok r, t) => runService (f r) (later inputs) t
      | (.error e, t) => (.error (.fromTaskStore e), t) := by
  simp only [SchedulerService.tasks, Call.step_bind, runService_step, ServiceStep.exec]
  rcases runAlone op.program (inputs 0).now s with ⟨r | r, t⟩
  · rfl
  · rfl

theorem runService_tasks (op : TaskOp) : runService (SchedulerService.tasks op) inputs s =
    match runAlone op.program (inputs 0).now s with
    | (.ok r, t) => (.ok r, t)
    | (.error e, t) => (.error (.fromTaskStore e), t) := by
  simp only [SchedulerService.tasks, runService_step, ServiceStep.exec]
  rcases runAlone op.program (inputs 0).now s with ⟨r | r, t⟩
  · rfl
  · rfl

theorem runService_getGrant_bind (id : String) (f : DirectoryGrant → SchedulerCall β) :
    runService (SchedulerService.getGrant id >>= f) inputs s = match s.findGrant id with
      | some grant => runService (f grant) (later inputs) s
      | none => (.error .directoryNotFound, s) := by
  simp only [SchedulerService.getGrant, Call.step_bind, runService_step, ServiceStep.exec,
    GrantOp.program, runAlone_getGrant]
  cases s.findGrant id with
  | none => rfl
  | some grant => rfl

theorem runService_getProfile_bind (id : String) (f : AgentProfile → SchedulerCall β) :
    runService (SchedulerService.getProfile id >>= f) inputs s = match s.findProfile id with
      | some profile => runService (f profile) (later inputs) s
      | none => (.error .agentNotFound, s) := by
  simp only [SchedulerService.getProfile, Call.step_bind, runService_step, ServiceStep.exec,
    ProfileOp.program, runAlone_getProfile]
  cases s.findProfile id with
  | none => rfl
  | some profile => rfl

theorem runService_authorizeGrant_bind (request : DirectoryAuthorizationRequest)
    (f : DirectoryGrant → SchedulerCall β) :
    runService (SchedulerService.authorizeGrant request >>= f) inputs s =
      match s.findGrant request.directoryId with
      | none => (.error .directoryNotFound, s)
      | some grant =>
        match grant.authorize request with
        | .ok _ => runService (f grant) (later inputs) s
        | .error e => (.error (mapDirectoryError (.security e)), s) := by
  simp only [SchedulerService.authorizeGrant, Call.step_bind, runService_step, ServiceStep.exec,
    GrantOp.program, runAlone_authorizeGrant]
  cases s.findGrant request.directoryId with
  | none => rfl
  | some grant =>
    cases ha : grant.authorize request with
    | ok _ => simp only [ha]; rfl
    | error e => simp only [ha]; rfl

end Run

end OpenDaemon
