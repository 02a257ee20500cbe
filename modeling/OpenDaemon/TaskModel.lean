import OpenDaemon.JsonValue
import OpenDaemon.DirectoryPolicy

/-!
# Tasks, their state machine, their events and their locks

The data of `task/` and `scheduler/locks.rs`. Sequence numbers start at one and
are natural numbers. A task is the decoded row of the `tasks` table and an event
the decoded row of `task_events`; JSON columns hold the value they encode.
-/

namespace OpenDaemon

inductive TaskStatus
  | queued
  | waitingDirectoryLock
  | preparing
  | running
  | completed
  | failed
  | cancelled
  | timedOut
  deriving DecidableEq, Repr

def TaskStatus.isTerminal : TaskStatus → Bool
  | .completed | .failed | .cancelled | .timedOut => true
  | _ => false

inductive TaskTransition
  | changed
  | idempotent
  deriving DecidableEq, Repr

inductive TaskStateError
  | invalidTransition
  | alreadyTerminal
  deriving DecidableEq, Repr

def transitionAllowed : TaskStatus → TaskStatus → Bool
  | .queued, .waitingDirectoryLock => true
  | .queued, .cancelled => true
  | .waitingDirectoryLock, .preparing => true
  | .waitingDirectoryLock, .cancelled => true
  | .preparing, .running => true
  | .preparing, .failed => true
  | .preparing, .cancelled => true
  | .running, .completed => true
  | .running, .failed => true
  | .running, .cancelled => true
  | .running, .timedOut => true
  | _, _ => false

def validateTransition (current next : TaskStatus) : Except TaskStateError TaskTransition :=
  if current = next ∧ current.isTerminal then .ok .idempotent
  else if current.isTerminal then .error .alreadyTerminal
  else if transitionAllowed current next then .ok .changed
  else .error .invalidTransition

theorem validateTransition_changed_iff {current next : TaskStatus} :
    validateTransition current next = .ok .changed ↔ transitionAllowed current next := by
  cases current <;> cases next <;> decide

theorem validateTransition_idempotent_iff {current next : TaskStatus} :
    validateTransition current next = .ok .idempotent ↔ current = next ∧ current.isTerminal := by
  cases current <;> cases next <;> decide

theorem not_transitionAllowed_of_terminal {current : TaskStatus} (h : current.isTerminal)
    (next : TaskStatus) : transitionAllowed current next = false := by
  cases current <;> first | rfl | cases h

theorem transitionAllowed_waiting {current : TaskStatus} :
    transitionAllowed current .waitingDirectoryLock ↔ current = .queued := by
  cases current <;> decide

theorem transitionAllowed_running {current : TaskStatus} :
    transitionAllowed current .running ↔ current = .preparing := by
  cases current <;> decide

theorem not_transitionAllowed_queued (current : TaskStatus) :
    transitionAllowed current .queued = false := by
  cases current <;> rfl

inductive TaskEventType
  | queued
  | waitingDirectoryLock
  | preparing
  | running
  | completed
  | failed
  | cancelled
  | timedOut
  | processStdout
  | processStderr
  | providerPermissionRequested
  | providerPermissionDecided
  deriving DecidableEq, Repr

/-- The status that a lifecycle event (`task.*`) names. -/
def TaskEventType.status? : TaskEventType → Option TaskStatus
  | .queued => some .queued
  | .waitingDirectoryLock => some .waitingDirectoryLock
  | .preparing => some .preparing
  | .running => some .running
  | .completed => some .completed
  | .failed => some .failed
  | .cancelled => some .cancelled
  | .timedOut => some .timedOut
  | _ => none

def eventTypeForStatus : TaskStatus → TaskEventType
  | .queued => .queued
  | .waitingDirectoryLock => .waitingDirectoryLock
  | .preparing => .preparing
  | .running => .running
  | .completed => .completed
  | .failed => .failed
  | .cancelled => .cancelled
  | .timedOut => .timedOut

@[simp] theorem status?_eventTypeForStatus (s : TaskStatus) :
    (eventTypeForStatus s).status? = some s := by
  cases s <;> rfl

structure TaskEvent where
  id : String
  taskId : String
  sequence : ℕ
  eventType : TaskEventType
  payload : Value
  createdAt : String

inductive PermissionDecision
  | approve
  | deny
  deriving DecidableEq, Repr

def PermissionDecision.asStr : PermissionDecision → String
  | .approve => "approve"
  | .deny => "deny"

structure PermissionRequestEvent where
  requestId : String
  providerId : String
  permissionKind : String
  summary : String
  details : Option Value
  options : List PermissionDecision
  expiresAt : Option String

structure PermissionDecisionEvent where
  requestId : String
  decision : PermissionDecision
  reason : Option String
  deriving DecidableEq, Repr

def PermissionRequestEvent.toValue (request : PermissionRequestEvent) : Value :=
  .object [("request_id", .string request.requestId),
    ("provider_id", .string request.providerId),
    ("permission_kind", .string request.permissionKind),
    ("summary", .string request.summary),
    ("details", request.details.getD .null),
    ("options", .array (request.options.map fun d => .string d.asStr)),
    ("expires_at", Value.ofOption .string request.expiresAt)]

def PermissionDecisionEvent.toValue (response : PermissionDecisionEvent) : Value :=
  .object [("request_id", .string response.requestId),
    ("decision", .string response.decision.asStr),
    ("reason", Value.ofOption .string response.reason)]

inductive PermissionRequestStatus
  | pending
  | approved
  | denied
  deriving DecidableEq, Repr

def PermissionRequestStatus.fromDecision : PermissionDecision → PermissionRequestStatus
  | .approve => .approved
  | .deny => .denied

structure PermissionRequestRecord where
  requestId : String
  taskId : String
  sequence : ℕ
  providerId : String
  permissionKind : String
  status : PermissionRequestStatus
  request : PermissionRequestEvent
  response : Option PermissionDecisionEvent
  requestedAt : String
  respondedAt : Option String

structure PermissionResolution where
  taskId : String
  requestId : String
  status : PermissionRequestStatus
  decision : PermissionDecision
  event : TaskEvent
  duplicated : Bool

structure TaskResult where
  taskId : String
  status : TaskStatus
  finalMessage : String
  changedFiles : List String
  diff : Option String
  workspaceMode : WorkspaceMode
  worktreePath : Option String
  sourceDirectoryId : String
  branchName : Option String
  commitHash : Option String
  sessionId : Option String
  providerResult : Option Value
  usage : Option Value
  artifacts : List Value
  error : Option String
  createdAt : String
  updatedAt : String

structure Task where
  id : String
  ownerProductId : String
  agentId : String
  directoryId : String
  status : TaskStatus
  requiredCapabilities : List DirectoryCapability
  workspaceMode : WorkspaceMode
  directModeTaskOptIn : Bool
  prompt : String
  metadata : Option Value
  providerId : String
  model : String
  permissionMode : String
  timeoutSeconds : Option ℕ
  result : Option TaskResult
  createdAt : String
  updatedAt : String
  startedAt : Option String
  completedAt : Option String
  cancelledAt : Option String
  failedAt : Option String

structure CreateTask where
  ownerProductId : String
  agentId : String
  directoryId : String
  prompt : String
  requiredCapabilities : Option (List DirectoryCapability)
  workspaceMode : Option WorkspaceMode
  directModeTaskOptIn : Bool
  metadata : Option Value
  providerId : Option String
  model : Option String
  permissionMode : Option String
  timeoutSeconds : Option ℕ

inductive TaskModelError
  | invalidTask
  | invalidPrompt
  deriving DecidableEq, Repr

def maxTaskTimeoutSeconds : ℕ := 86400

namespace CreateTask

def normalizedCapabilities (input : CreateTask) : List DirectoryCapability :=
  collectCapabilities (input.requiredCapabilities.getD [.read])

def validate (input : CreateTask) : Except TaskModelError Unit :=
  if isBlank input.ownerProductId ∨ isBlank input.agentId ∨ isBlank input.directoryId then
    .error .invalidTask
  else if isBlank input.prompt then .error .invalidPrompt
  else if input.normalizedCapabilities.isEmpty then .error .invalidTask
  else if input.metadata.any fun metadata => !metadata.isObject then .error .invalidTask
  else if input.timeoutSeconds.any fun timeout =>
      timeout == 0 || decide (maxTaskTimeoutSeconds < timeout) then
    .error .invalidTask
  else .ok ()

end CreateTask

inductive LockMode
  | exclusive
  | shared
  | none
  deriving DecidableEq, Repr

/-- The two values the code writes into the `status` column of a lock row. -/
inductive LockStatus
  | held
  | released
  deriving DecidableEq, Repr

structure DirectoryLock where
  directoryId : String
  taskId : String
  mode : LockMode
  status : LockStatus
  createdAt : String
  releasedAt : Option String
  deriving DecidableEq, Repr

structure LockRequest where
  directoryId : String
  taskId : String
  mode : LockMode
  deriving DecidableEq, Repr

inductive LockDecision
  | acquired
  | waiting
  | notRequired
  deriving DecidableEq, Repr

def DirectoryCapability.needsExclusive : DirectoryCapability → Bool
  | .write | .shell | .git => true
  | .read => false

def modeForCapabilities (capabilities : List DirectoryCapability)
    (policy : DirectoryLockPolicy) : LockMode :=
  if policy = .none then .none
  else if capabilities.any DirectoryCapability.needsExclusive then .exclusive
  else match policy with
    | .exclusive => .exclusive
    | .shared => .shared
    | .none => .none

theorem modeForCapabilities_eq_none_iff {capabilities : List DirectoryCapability}
    {policy : DirectoryLockPolicy} :
    modeForCapabilities capabilities policy = .none ↔ policy = .none := by
  by_cases hcap : capabilities.any DirectoryCapability.needsExclusive
  · cases policy <;> simp [modeForCapabilities, hcap]
  · cases policy <;> simp [modeForCapabilities, hcap]

theorem modeForCapabilities_exclusive {capabilities : List DirectoryCapability}
    {policy : DirectoryLockPolicy} (hcap : capabilities.any DirectoryCapability.needsExclusive)
    (hpol : policy ≠ .none) : modeForCapabilities capabilities policy = .exclusive := by
  simp [modeForCapabilities, hcap, hpol]

def LockRequest.fromTask (task : Task) : LockRequest where
  directoryId := task.directoryId
  taskId := task.id
  mode := modeForCapabilities task.requiredCapabilities .exclusive

end OpenDaemon
