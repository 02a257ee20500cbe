import OpenDaemon.Call
import OpenDaemon.RowTable
import OpenDaemon.SequencedLog
import OpenDaemon.AgentProfile
import OpenDaemon.TaskModel

/-!
# The database and its atomic steps

The tables that the task, grant and profile stores share, and the statements
and transactions the stores send to them. Each is one atomic step: a query, a
single statement, or a whole transaction that commits or changes nothing. The
primary keys and the `UNIQUE(task_id, sequence)` constraint are those of the
schema; rowids are assigned as for tables without `AUTOINCREMENT`.
-/

namespace OpenDaemon

open RowTable SequencedLog

inductive TaskStoreError
  | notFound
  | permissionRequestNotFound
  | permissionRequestNotPending
  | permissionRequestAlreadyResolved
  | model (error : TaskModelError)
  | state (error : TaskStateError)
  | store
  deriving DecidableEq, Repr

/-- The tables, and the events sent so far on the task event bus. -/
structure Store where
  grants : List (Row DirectoryGrant)
  profiles : List AgentProfile
  tasks : List (Row Task)
  events : List TaskEvent
  permissionRequests : List PermissionRequestRecord
  locks : List DirectoryLock
  published : List TaskEvent

structure NewTask where
  ownerProductId : String
  agentId : String
  directoryId : String
  prompt : String
  requiredCapabilities : List DirectoryCapability
  workspaceMode : WorkspaceMode
  directModeTaskOptIn : Bool
  metadata : Option Value
  providerId : String
  model : String
  permissionMode : String
  timeoutSeconds : Option ℕ

inductive SqlError
  | constraint
  | failure
  deriving DecidableEq, Repr

namespace Store

def empty : Store := ⟨[], [], [], [], [], [], []⟩

def findTask (s : Store) (id : String) : Option Task :=
  lookup s.tasks fun task => decide (task.id = id)

def findGrant (s : Store) (id : String) : Option DirectoryGrant :=
  lookup s.grants fun grant => decide (grant.id = id)

def findProfile (s : Store) (id : String) : Option AgentProfile :=
  s.profiles.find? fun profile => decide (profile.id = id)

def nextSequence (s : Store) (taskId : String) : ℕ :=
  nextSeq TaskEvent.taskId TaskEvent.sequence s.events taskId

def eventsOf (s : Store) (taskId : String) : List TaskEvent :=
  entriesOf TaskEvent.taskId s.events taskId

def isHeld (lock : DirectoryLock) : Bool := decide (lock.status = .held)

def heldLocks (s : Store) (directoryId : String) : List DirectoryLock :=
  s.locks.filter fun lock => decide (lock.directoryId = directoryId) && isHeld lock

end Store

def eventId (taskId : String) (sequence : ℕ) : String :=
  "evt_" ++ taskId ++ "_" ++ toString sequence

def coalesce (column value : Option String) : Option String :=
  match column with
  | some at_ => some at_
  | none => value

def timestampIf (condition : Bool) (value : String) : Option String :=
  if condition then some value else none

def Task.afterTransition (task : Task) (next : TaskStatus) (now : String) : Task :=
  { task with
    status := next
    updatedAt := now
    startedAt := coalesce task.startedAt (timestampIf (next = .running) now)
    completedAt := coalesce task.completedAt (timestampIf (next = .completed) now)
    cancelledAt := coalesce task.cancelledAt (timestampIf (next = .cancelled) now)
    failedAt := coalesce task.failedAt (timestampIf (next = .failed ∨ next = .timedOut) now) }

def Task.withResult (task : Task) (result : TaskResult) : Task :=
  { task with result := some result, updatedAt := result.updatedAt }

def NewTask.toTask (row : NewTask) (now : String) (rowid : ℕ) : Task where
  id := rowKey "task_" rowid
  ownerProductId := row.ownerProductId
  agentId := row.agentId
  directoryId := row.directoryId
  status := .queued
  requiredCapabilities := row.requiredCapabilities
  workspaceMode := row.workspaceMode
  directModeTaskOptIn := row.directModeTaskOptIn
  prompt := row.prompt
  metadata := row.metadata
  providerId := row.providerId
  model := row.model
  permissionMode := row.permissionMode
  timeoutSeconds := row.timeoutSeconds
  result := none
  createdAt := now
  updatedAt := now
  startedAt := none
  completedAt := none
  cancelledAt := none
  failedAt := none

def DirectoryGrant.withPolicy (grant : DirectoryGrant) (policy : DirectoryGrantPolicy)
    (now : String) : DirectoryGrant :=
  { grant with
    capabilities := policy.capabilities
    workspaceModes := policy.workspaceModes
    defaultWorkspaceMode := policy.defaultWorkspaceMode
    lockPolicy := policy.lockPolicy
    directModeRequiresExplicitTaskOptIn := policy.directModeRequiresExplicitTaskOptIn
    allowRemoteExecution := policy.allowRemoteExecution
    updatedAt := now }

def AgentProfile.withColumns (profile : AgentProfile) (next : CreateAgentProfile)
    (updatedAt : String) : AgentProfile :=
  { profile with
    name := next.name
    providerId := next.providerId
    model := next.model
    instructions := next.instructions
    executionPolicy := next.executionPolicy
    providerConfig := next.providerConfig
    updatedAt := updatedAt }

namespace Store

def updateTask (s : Store) (id : String) (f : Task → Task) : Store :=
  { s with tasks := update s.tasks (fun task => decide (task.id = id)) f }

/-- Both the primary key `id` and `UNIQUE(task_id, sequence)` refuse a duplicate. -/
def insertEvent (s : Store) (taskId : String) (sequence : ℕ) (eventType : TaskEventType)
    (payload : Value) (now : String) : Except SqlError Store :=
  if s.events.any fun event => decide (event.id = eventId taskId sequence ∨
      (event.taskId = taskId ∧ event.sequence = sequence)) then
    .error .constraint
  else
    .ok { s with
      events := s.events ++ [⟨eventId taskId sequence, taskId, sequence, eventType, payload, now⟩] }

def releaseLocks (s : Store) (taskId now : String) : Store :=
  { s with
    locks := s.locks.map fun lock =>
      if lock.taskId = taskId ∧ lock.status = .held then
        { lock with status := .released, releasedAt := some now }
      else lock }

/-- The row goes in under the id `''` and is renamed after its rowid is known. -/
def insertTask (s : Store) (row : NewTask) (now : String) : Except SqlError (String × Store) :=
  let id := rowKey "task_" (nextRowid s.tasks)
  if s.tasks.any fun r => decide (r.value.id = "" ∨ r.value.id = id) then .error .constraint
  else
    ({ s with tasks := insert s.tasks (row.toTask now) }.insertEvent id 1 .queued .emptyObject
      now).map fun s' => (id, s')

def updateTaskStatus (s : Store) (id : String) (next : TaskStatus) (payload : Option Value)
    (sequence : ℕ) (now : String) : Except SqlError Store :=
  ((s.updateTask id fun task => task.afterTransition next now).insertEvent id sequence
    (eventTypeForStatus next) (payload.getD .emptyObject) now).map fun s' =>
      if next.isTerminal then s'.releaseLocks id now else s'

def updateTaskResult (s : Store) (id : String) (result : TaskResult) : Store :=
  s.updateTask id fun task => task.withResult result

def findPermissionRequest (s : Store) (taskId requestId : String) :
    Option PermissionRequestRecord :=
  s.permissionRequests.find? fun r => decide (r.taskId = taskId ∧ r.requestId = requestId)

/-- The first in sequence order, which is the order in which a task's events are kept. On
condition that the request id of a decided event is no array and no object: `json_extract` would
give their text. Only a `permission.decided` frame of a provider could have such an id. -/
def findPermissionDecisionEvent (s : Store) (taskId requestId : String) : Option TaskEvent :=
  (s.eventsOf taskId).find? fun event =>
    decide (event.eventType = .providerPermissionDecided ∧
      (event.payload.get? "request_id").bind Value.asStr = some requestId)

def insertPermissionRequest (s : Store) (taskId : String) (request : PermissionRequestEvent)
    (now : String) : Except SqlError (ℕ × Store) :=
  let sequence := s.nextSequence taskId
  if s.permissionRequests.any fun r => decide (r.requestId = request.requestId) then
    .error .constraint
  else
    (s.insertEvent taskId sequence .providerPermissionRequested request.toValue now).map fun s' =>
      (sequence, { s' with
        permissionRequests := s'.permissionRequests ++
          [⟨request.requestId, taskId, sequence, request.providerId, request.permissionKind,
            .pending, request, none, now, none⟩] })

/-- The transaction of `resolve_permission_request`: it decides a pending request
and returns the event's sequence, or finds the decision made before. -/
def resolvePermissionRequest (s : Store) (taskId requestId : String)
    (decision : PermissionDecision) (reason : Option String) (now : String) :
    Except SqlError (Except TaskStoreError (PermissionResolution ⊕ ℕ) × Store) :=
  match s.findPermissionRequest taskId requestId with
  | none => .ok (.error .permissionRequestNotFound, s)
  | some request =>
    match request.status with
    | .approved | .denied =>
      match request.response with
      | none => .ok (.error .store, s)
      | some response =>
        if response.decision = decision then
          match s.findPermissionDecisionEvent taskId requestId with
          | none => .ok (.error .store, s)
          | some event => .ok (.ok (.inl ⟨taskId, requestId,
              PermissionRequestStatus.fromDecision decision, decision, event, true⟩), s)
        else .ok (.error .permissionRequestAlreadyResolved, s)
    | .pending =>
      let response : PermissionDecisionEvent := ⟨requestId, decision, reason⟩
      let sequence := s.nextSequence taskId
      (s.insertEvent taskId sequence .providerPermissionDecided response.toValue now).map fun s' =>
        (.ok (.inr sequence), { s' with
          permissionRequests := s'.permissionRequests.map fun r =>
            if r.requestId = requestId ∧ r.taskId = taskId then
              { r with
                status := PermissionRequestStatus.fromDecision decision
                response := some response
                respondedAt := some now }
            else r })

/-- `INSERT OR REPLACE` on the primary key `(directory_id, task_id)`. -/
def replaceLock (s : Store) (request : LockRequest) (now : String) : Store :=
  { s with
    locks := s.locks.filter (fun lock =>
        !decide (lock.directoryId = request.directoryId ∧ lock.taskId = request.taskId)) ++
      [⟨request.directoryId, request.taskId, request.mode, .held, now, none⟩] }

def insertGrant (s : Store) (productId agentId path : String) (policy : DirectoryGrantPolicy)
    (now : String) : Except SqlError (String × Store) :=
  let id := rowKey "dir_" (nextRowid s.grants)
  if s.grants.any fun r => decide (r.value.id = "" ∨ r.value.id = id) then .error .constraint
  else
    .ok (id, { s with
      grants := insert s.grants fun rowid => ⟨rowKey "dir_" rowid, productId, agentId, path,
        policy.capabilities, policy.workspaceModes, policy.defaultWorkspaceMode,
        policy.lockPolicy, policy.directModeRequiresExplicitTaskOptIn,
        policy.allowRemoteExecution, now, now⟩ })

def updateGrant (s : Store) (id : String) (policy : DirectoryGrantPolicy) (now : String) : Store :=
  { s with
    grants := update s.grants (fun grant => decide (grant.id = id)) fun grant =>
      grant.withPolicy policy now }

def deleteGrant (s : Store) (id : String) : Store :=
  { s with grants := delete s.grants fun grant => decide (grant.id = id) }

def insertProfile (s : Store) (profile : AgentProfile) : Except SqlError Store :=
  if s.profiles.any fun p => decide (p.id = profile.id) then .error .constraint
  else .ok { s with profiles := s.profiles ++ [profile] }

def updateProfile (s : Store) (id : String) (next : CreateAgentProfile) (updatedAt : String) :
    Store :=
  { s with
    profiles := s.profiles.map fun profile =>
      if profile.id = id then profile.withColumns next updatedAt else profile }

def deleteProfile (s : Store) (id : String) : Store :=
  { s with profiles := s.profiles.filter fun profile => !decide (profile.id = id) }

end Store

/-- One statement or transaction; the clock and the event bus are steps too. -/
inductive DbStep
  | clock
  | publish (event : TaskEvent)
  | selectTask (id : String)
  | selectTasks
  | insertTask (row : NewTask) (now : String)
  | updateTaskStatus (id : String) (next : TaskStatus) (payload : Option Value) (sequence : ℕ)
      (now : String)
  | updateTaskResult (id : String) (result : TaskResult)
  | nextSequence (taskId : String)
  | insertEvent (taskId : String) (sequence : ℕ) (eventType : TaskEventType) (payload : Value)
      (now : String)
  | selectEvent (taskId : String) (sequence : ℕ)
  | insertPermissionRequest (taskId : String) (request : PermissionRequestEvent) (now : String)
  | resolvePermissionRequest (taskId requestId : String) (decision : PermissionDecision)
      (reason : Option String) (now : String)
  | selectHeldLocks (directoryId : String)
  | replaceLock (request : LockRequest) (now : String)
  | releaseLocks (taskId now : String)
  | selectGrant (id : String)
  | insertGrant (productId agentId path : String) (policy : DirectoryGrantPolicy) (now : String)
  | updateGrant (id : String) (policy : DirectoryGrantPolicy) (now : String)
  | deleteGrant (id : String)
  | selectProfile (id : String)
  | insertProfile (profile : AgentProfile)
  | updateProfile (id : String) (next : CreateAgentProfile) (updatedAt : String)
  | deleteProfile (id : String)

namespace DbStep

@[reducible] def Row : DbStep → Type
  | .clock => String
  | .publish _ => Unit
  | .selectTask _ => Option Task
  | .selectTasks => List Task
  | .insertTask _ _ => String
  | .updateTaskStatus .. => Unit
  | .updateTaskResult .. => Unit
  | .nextSequence _ => ℕ
  | .insertEvent .. => Unit
  | .selectEvent .. => TaskEvent
  | .insertPermissionRequest .. => ℕ
  | .resolvePermissionRequest .. => Except TaskStoreError (PermissionResolution ⊕ ℕ)
  | .selectHeldLocks _ => List DirectoryLock
  | .replaceLock .. => Unit
  | .releaseLocks .. => Unit
  | .selectGrant _ => Option DirectoryGrant
  | .insertGrant .. => String
  | .updateGrant .. => Unit
  | .deleteGrant _ => Bool
  | .selectProfile _ => Option AgentProfile
  | .insertProfile _ => Unit
  | .updateProfile .. => Unit
  | .deleteProfile _ => Bool

@[reducible] def Answer (q : DbStep) : Type := Except SqlError q.Row

def attempt (now : String) : (q : DbStep) → Store → Except SqlError (q.Row × Store)
  | .clock, s => .ok (now, s)
  | .publish event, s => .ok ((), { s with published := s.published ++ [event] })
  | .selectTask id, s => .ok (s.findTask id, s)
  | .selectTasks, s => .ok (s.tasks.map RowTable.Row.value, s)
  | .insertTask row at_, s => s.insertTask row at_
  | .updateTaskStatus id next payload sequence at_, s =>
    (s.updateTaskStatus id next payload sequence at_).map fun s' => ((), s')
  | .updateTaskResult id result, s => .ok ((), s.updateTaskResult id result)
  | .nextSequence taskId, s => .ok (s.nextSequence taskId, s)
  | .insertEvent taskId sequence eventType payload at_, s =>
    (s.insertEvent taskId sequence eventType payload at_).map fun s' => ((), s')
  | .selectEvent taskId sequence, s =>
    match (s.eventsOf taskId).find? fun event => decide (event.sequence = sequence) with
    | some event => .ok (event, s)
    | none => .error .failure
  | .insertPermissionRequest taskId request at_, s => s.insertPermissionRequest taskId request at_
  | .resolvePermissionRequest taskId requestId decision reason at_, s =>
    s.resolvePermissionRequest taskId requestId decision reason at_
  | .selectHeldLocks directoryId, s => .ok (s.heldLocks directoryId, s)
  | .replaceLock request at_, s => .ok ((), s.replaceLock request at_)
  | .releaseLocks taskId at_, s => .ok ((), s.releaseLocks taskId at_)
  | .selectGrant id, s => .ok (s.findGrant id, s)
  | .insertGrant productId agentId path policy at_, s =>
    s.insertGrant productId agentId path policy at_
  | .updateGrant id policy at_, s => .ok ((), s.updateGrant id policy at_)
  | .deleteGrant id, s => .ok ((s.findGrant id).isSome, s.deleteGrant id)
  | .selectProfile id, s => .ok (s.findProfile id, s)
  | .insertProfile profile, s => (s.insertProfile profile).map fun s' => ((), s')
  | .updateProfile id next updatedAt, s => .ok ((), s.updateProfile id next updatedAt)
  | .deleteProfile id, s => .ok ((s.findProfile id).isSome, s.deleteProfile id)

/-- `ioError` also stands for a row that is read and whose columns cannot be decoded. -/
inductive Input
  | proceed (now : String)
  | ioError

def exec (q : DbStep) (input : Input) (s : Store) : q.Answer × Store :=
  match input with
  | .ioError => (.error .failure, s)
  | .proceed now =>
    match q.attempt now s with
    | .ok (row, s') => (.ok row, s')
    | .error e => (.error e, s)

def query {ε : Type} (onError : SqlError → ε) (q : DbStep) : Call DbStep Answer ε q.Row :=
  .step q fun
    | .ok row => .ret row
    | .error e => .fail (onError e)

theorem uses_query {ε : Type} {P : DbStep → Prop} {q : DbStep} (hq : P q)
    (onError : SqlError → ε) : (q.query onError).Uses P := by
  refine ⟨hq, fun answer => ?_⟩
  cases answer <;> trivial

end DbStep

end OpenDaemon
