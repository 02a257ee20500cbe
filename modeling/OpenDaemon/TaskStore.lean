import OpenDaemon.Database

/-!
# Calls of the task store

The methods of `store/tasks.rs` as sequences of database steps. A status check
and the write that depends on it are separate steps, and so are the reading of
the next sequence number and its use; an event is published after its commit.
-/

namespace OpenDaemon

abbrev TaskCall (α : Type) : Type := Call DbStep DbStep.Answer TaskStoreError α

structure TaskFilters where
  ownerProductId : Option String
  agentId : Option String
  directoryId : Option String
  status : Option TaskStatus
  deriving DecidableEq, Repr

def TaskFilters.matches (filters : TaskFilters) (task : Task) : Bool :=
  filters.ownerProductId.all (fun value => decide (value = task.ownerProductId)) &&
    filters.agentId.all (fun value => decide (value = task.agentId)) &&
    filters.directoryId.all (fun value => decide (value = task.directoryId)) &&
    filters.status.all (fun value => decide (value = task.status))

namespace TaskStore

def send (q : DbStep) : TaskCall q.Row := q.query fun _ => .store

def nowRfc3339 : TaskCall String := send .clock

def get (id : String) : TaskCall Task := do
  match ← send (.selectTask id) with
  | some task => return task
  | none => .fail .notFound

def all : TaskCall (List Task) := send .selectTasks

def list (filters : TaskFilters) : TaskCall (List Task) := do
  let tasks ← all
  return tasks.filter filters.matches

def nextSequence (taskId : String) : TaskCall ℕ := send (.nextSequence taskId)

def eventBySequence (taskId : String) (sequence : ℕ) : TaskCall TaskEvent :=
  send (.selectEvent taskId sequence)

def publishIfConfigured (event : TaskEvent) : TaskCall Unit := .step (.publish event) fun _ => .ret ()

def newTask (input : CreateTask) : NewTask where
  ownerProductId := input.ownerProductId
  agentId := input.agentId
  directoryId := input.directoryId
  prompt := input.prompt
  requiredCapabilities := input.normalizedCapabilities
  workspaceMode := input.workspaceMode.getD .worktree
  directModeTaskOptIn := input.directModeTaskOptIn
  metadata := input.metadata
  providerId := input.providerId.getD ""
  model := input.model.getD ""
  permissionMode := input.permissionMode.getD "provider_default"
  timeoutSeconds := input.timeoutSeconds

def create (input : CreateTask) : TaskCall Task := do
  Call.ofExcept (input.validate.mapError .model)
  let now ← nowRfc3339
  let id ← send (.insertTask (newTask input) now)
  let event ← eventBySequence id 1
  publishIfConfigured event
  get id

def transition (id : String) (next : TaskStatus) (payload : Option Value) : TaskCall Task := do
  let current ← get id
  match validateTransition current.status next with
  | .error e => .fail (.state e)
  | .ok .idempotent => return current
  | .ok .changed => do
    let now ← nowRfc3339
    let sequence ← nextSequence id
    send (.updateTaskStatus id next payload sequence now)
    let event ← eventBySequence id sequence
    publishIfConfigured event
    get id

def cancel (id : String) : TaskCall Task := transition id .cancelled none

def saveResult (id finalMessage : String) (changedFiles : List String) : TaskCall Unit := do
  let task ← get id
  let now ← nowRfc3339
  send (.updateTaskResult id
    { taskId := task.id
      status := task.status
      finalMessage := finalMessage
      changedFiles := changedFiles
      diff := none
      workspaceMode := task.workspaceMode
      worktreePath := none
      sourceDirectoryId := task.directoryId
      branchName := none
      commitHash := none
      sessionId := none
      providerResult := none
      usage := none
      artifacts := []
      error := none
      createdAt := now
      updatedAt := now })

def saveExecutionResult (result : TaskResult) : TaskCall Unit :=
  send (.updateTaskResult result.taskId result)

def appendEvent (taskId : String) (eventType : TaskEventType) (payload : Value) :
    TaskCall TaskEvent := do
  let _ ← get taskId
  let now ← nowRfc3339
  let sequence ← nextSequence taskId
  send (.insertEvent taskId sequence eventType payload now)
  let event ← eventBySequence taskId sequence
  publishIfConfigured event
  return event

def recordPermissionRequest (taskId : String) (request : PermissionRequestEvent) :
    TaskCall TaskEvent := do
  let _ ← get taskId
  let now ← nowRfc3339
  let sequence ← send (.insertPermissionRequest taskId request now)
  let event ← eventBySequence taskId sequence
  publishIfConfigured event
  return event

def resolvePermissionRequest (taskId requestId : String) (decision : PermissionDecision)
    (reason : Option String) : TaskCall PermissionResolution := do
  let _ ← get taskId
  let now ← nowRfc3339
  match ← send (.resolvePermissionRequest taskId requestId decision reason now) with
  | .error e => .fail e
  | .ok (.inl resolution) => return resolution
  | .ok (.inr sequence) => do
    let event ← eventBySequence taskId sequence
    publishIfConfigured event
    return ⟨taskId, requestId, PermissionRequestStatus.fromDecision decision, decision, event,
      false⟩

def activeLocks (directoryId : String) : TaskCall (List DirectoryLock) :=
  send (.selectHeldLocks directoryId)

/-- The conflict test of `acquire_lock`; it also counts the task's own lock. -/
def conflicts (active : List DirectoryLock) (mode : LockMode) : Bool :=
  active.any fun lock => decide (mode = .exclusive ∨ lock.mode = .exclusive)

def acquireLock (request : LockRequest) : TaskCall Bool := do
  let active ← activeLocks request.directoryId
  if conflicts active request.mode then
    return false
  else do
    let now ← nowRfc3339
    send (.replaceLock request now)
    return true

def releaseLocks (taskId : String) : TaskCall Unit := do
  let now ← nowRfc3339
  send (.releaseLocks taskId now)

end TaskStore

inductive TaskOp
  | create (input : CreateTask)
  | get (id : String)
  | list (filters : TaskFilters)
  | transition (id : String) (next : TaskStatus) (payload : Option Value)
  | cancel (id : String)
  | saveResult (id finalMessage : String) (changedFiles : List String)
  | saveExecutionResult (result : TaskResult)
  | appendEvent (taskId : String) (eventType : TaskEventType) (payload : Value)
  | recordPermissionRequest (taskId : String) (request : PermissionRequestEvent)
  | resolvePermissionRequest (taskId requestId : String) (decision : PermissionDecision)
      (reason : Option String)
  | acquireLock (request : LockRequest)
  | releaseLocks (taskId : String)

@[reducible] def TaskOp.Result : TaskOp → Type
  | .create _ | .get _ | .transition .. | .cancel _ => Task
  | .list _ => List Task
  | .saveResult .. | .saveExecutionResult _ | .releaseLocks _ => Unit
  | .appendEvent .. | .recordPermissionRequest .. => TaskEvent
  | .resolvePermissionRequest .. => PermissionResolution
  | .acquireLock _ => Bool

def TaskOp.program : (op : TaskOp) → TaskCall op.Result
  | .create input => TaskStore.create input
  | .get id => TaskStore.get id
  | .list filters => TaskStore.list filters
  | .transition id next payload => TaskStore.transition id next payload
  | .cancel id => TaskStore.cancel id
  | .saveResult id finalMessage changedFiles => TaskStore.saveResult id finalMessage changedFiles
  | .saveExecutionResult result => TaskStore.saveExecutionResult result
  | .appendEvent taskId eventType payload => TaskStore.appendEvent taskId eventType payload
  | .recordPermissionRequest taskId request => TaskStore.recordPermissionRequest taskId request
  | .resolvePermissionRequest taskId requestId decision reason =>
    TaskStore.resolvePermissionRequest taskId requestId decision reason
  | .acquireLock request => TaskStore.acquireLock request
  | .releaseLocks taskId => TaskStore.releaseLocks taskId

end OpenDaemon
