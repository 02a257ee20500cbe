import OpenDaemon.StoreOps
import OpenDaemon.TextRows

/-!
# The database of text tables

The tables as SQLite keeps them, with JSON in their text columns, and the
statements of the stores on these columns. A query reads back every row it
returns; a row that cannot be read back is a failure of the call.
-/

namespace OpenDaemon

open RowTable SequencedLog

structure TextStore where
  grants : List (Row GrantColumns)
  profiles : List ProfileColumns
  tasks : List (Row TaskColumns)
  events : List EventColumns
  permissionRequests : List PermissionColumns
  locks : List LockColumns
  published : List TaskEvent

def Store.toText (json : ColumnText) (s : Store) : TextStore where
  grants := s.grants.map (Row.map (DirectoryGrant.toColumns json))
  profiles := s.profiles.map (AgentProfile.toColumns json)
  tasks := s.tasks.map (Row.map (Task.toColumns json))
  events := s.events.map (TaskEvent.toColumns json)
  permissionRequests := s.permissionRequests.map (PermissionRequestRecord.toColumns json)
  locks := s.locks.map (DirectoryLock.toColumns json)
  published := s.published

def orFailure {α : Type} : Option α → Except SqlError α
  | some a => .ok a
  | none => .error .failure

def readOptional {α β : Type} (read : β → Option α) : Option β → Except SqlError (Option α)
  | none => .ok none
  | some row => (orFailure (read row)).map some

def readAll {α β : Type} (read : β → Option α) (rows : List β) : Except SqlError (List α) :=
  orFailure (rows.mapM read)

namespace TextStore

variable (json : ColumnText) (x : TextStore)

def findTask (id : String) : Option TaskColumns :=
  lookup x.tasks fun row => decide (row.id = id)

def findGrant (id : String) : Option GrantColumns :=
  lookup x.grants fun row => decide (row.id = id)

def findProfile (id : String) : Option ProfileColumns :=
  x.profiles.find? fun row => decide (row.id = id)

def nextSequence (taskId : String) : ℕ :=
  nextSeq EventColumns.taskId EventColumns.sequence x.events taskId

def eventsOf (taskId : String) : List EventColumns :=
  entriesOf EventColumns.taskId x.events taskId

def heldLocks (directoryId : String) : List LockColumns :=
  x.locks.filter fun row => decide (row.directoryId = directoryId) && decide (row.status = "held")

def taskAfterTransition (row : TaskColumns) (next : TaskStatus) (now : String) : TaskColumns :=
  { row with
    status := json.serializeJson (.string next.asStr)
    updatedAt := now
    startedAt := coalesce row.startedAt (timestampIf (next = .running) now)
    completedAt := coalesce row.completedAt (timestampIf (next = .completed) now)
    cancelledAt := coalesce row.cancelledAt (timestampIf (next = .cancelled) now)
    failedAt := coalesce row.failedAt (timestampIf (next = .failed ∨ next = .timedOut) now) }

def newTaskColumns (row : NewTask) (now : String) (rowid : ℕ) : TaskColumns where
  id := rowKey "task_" rowid
  ownerProductId := row.ownerProductId
  agentId := row.agentId
  directoryId := row.directoryId
  prompt := row.prompt
  requiredCapabilitiesJson := json.serializeJson (capabilitiesValue row.requiredCapabilities)
  workspaceMode := json.serializeJson (.string row.workspaceMode.asStr)
  directModeTaskOptIn := row.directModeTaskOptIn
  metadataJson := row.metadata.map fun metadata => json.serializeJson metadata
  providerId := row.providerId
  model := row.model
  permissionMode := row.permissionMode
  timeoutSeconds := row.timeoutSeconds
  status := json.serializeJson (.string TaskStatus.queued.asStr)
  resultJson := none
  createdAt := now
  updatedAt := now
  startedAt := none
  completedAt := none
  cancelledAt := none
  failedAt := none

def insertEvent (taskId : String) (sequence : ℕ) (eventType : TaskEventType) (payload : Value)
    (now : String) : Except SqlError TextStore :=
  if x.events.any fun row => decide (row.id = eventId taskId sequence ∨
      (row.taskId = taskId ∧ row.sequence = sequence)) then
    .error .constraint
  else
    .ok { x with
      events := x.events ++ [⟨eventId taskId sequence, taskId, sequence,
        json.serializeJson (.string eventType.asStr), json.serializeJson payload, now⟩] }

def releaseLocks (taskId now : String) : TextStore :=
  { x with
    locks := x.locks.map fun row =>
      if row.taskId = taskId ∧ row.status = "held" then
        { row with status := "released", releasedAt := some now }
      else row }

def insertTask (row : NewTask) (now : String) : Except SqlError (String × TextStore) :=
  let id := rowKey "task_" (nextRowid x.tasks)
  if x.tasks.any fun r => decide (r.value.id = "" ∨ r.value.id = id) then .error .constraint
  else
    ({ x with tasks := insert x.tasks (newTaskColumns json row now) }.insertEvent json id 1 .queued
      .emptyObject now).map fun x' => (id, x')

def updateTaskStatus (id : String) (next : TaskStatus) (payload : Option Value) (sequence : ℕ)
    (now : String) : Except SqlError TextStore :=
  ({ x with
      tasks := update x.tasks (fun row => decide (row.id = id)) fun row =>
        taskAfterTransition json row next now }.insertEvent json id sequence
    (eventTypeForStatus next) (payload.getD .emptyObject) now).map fun x' : TextStore =>
      if next.isTerminal then x'.releaseLocks id now else x'

def updateTaskResult (id : String) (result : TaskResult) : TextStore :=
  { x with
    tasks := update x.tasks (fun row => decide (row.id = id)) fun row =>
      { row with
        resultJson := some (json.serializeJson result.toValue)
        updatedAt := result.updatedAt } }

def findPermissionRequest (taskId requestId : String) : Option PermissionColumns :=
  x.permissionRequests.find? fun row => decide (row.taskId = taskId ∧ row.requestId = requestId)

/-- The event type and the request id are compared as texts. -/
def findPermissionDecisionEvent (taskId requestId : String) : Option EventColumns :=
  (x.eventsOf taskId).find? fun row =>
    decide (row.eventType =
        json.serializeJson (.string TaskEventType.providerPermissionDecided.asStr) ∧
      json.requestIdOf row.payloadJson = some requestId)

def insertPermissionRequest (taskId : String) (request : PermissionRequestEvent) (now : String) :
    Except SqlError (ℕ × TextStore) :=
  let sequence := x.nextSequence taskId
  if x.permissionRequests.any fun row => decide (row.requestId = request.requestId) then
    .error .constraint
  else
    (x.insertEvent json taskId sequence .providerPermissionRequested request.toValue now).map
      fun x' => (sequence, { x' with
        permissionRequests := x'.permissionRequests ++
          [⟨request.requestId, taskId, sequence, request.providerId, request.permissionKind,
            json.serializeJson (.string PermissionRequestStatus.pending.asStr),
            json.serializeJson request.toValue, none, now, none⟩] })

def resolvePermissionRequest (taskId requestId : String) (decision : PermissionDecision)
    (reason : Option String) (now : String) :
    Except SqlError (Except TaskStoreError (PermissionResolution ⊕ ℕ) × TextStore) := do
  match ← readOptional (rowToPermissionRequest json)
      (x.findPermissionRequest taskId requestId) with
  | none => .ok (.error .permissionRequestNotFound, x)
  | some request =>
    match request.status with
    | .approved | .denied =>
      match request.response with
      | none => .ok (.error .store, x)
      | some response =>
        if response.decision = decision then
          match ← readOptional (rowToEvent json)
              (x.findPermissionDecisionEvent json taskId requestId) with
          | none => .ok (.error .store, x)
          | some event => .ok (.ok (.inl ⟨taskId, requestId,
              PermissionRequestStatus.fromDecision decision, decision, event, true⟩), x)
        else .ok (.error .permissionRequestAlreadyResolved, x)
    | .pending =>
      let response : PermissionDecisionEvent := ⟨requestId, decision, reason⟩
      let sequence := x.nextSequence taskId
      (x.insertEvent json taskId sequence .providerPermissionDecided response.toValue now).map
        fun x' => (.ok (.inr sequence), { x' with
          permissionRequests := x'.permissionRequests.map fun row =>
            if row.requestId = requestId ∧ row.taskId = taskId then
              { row with
                status := json.serializeJson
                  (.string (PermissionRequestStatus.fromDecision decision).asStr)
                responsePayloadJson := some (json.serializeJson response.toValue)
                respondedAt := some now }
            else row })

def replaceLock (request : LockRequest) (now : String) : TextStore :=
  { x with
    locks := x.locks.filter (fun row =>
        !decide (row.directoryId = request.directoryId ∧ row.taskId = request.taskId)) ++
      [⟨request.directoryId, request.taskId, json.serializeJson (.string request.mode.asStr),
        "held", now, none⟩] }

def insertGrant (productId agentId path : String) (policy : DirectoryGrantPolicy) (now : String) :
    Except SqlError (String × TextStore) :=
  let id := rowKey "dir_" (nextRowid x.grants)
  if x.grants.any fun r => decide (r.value.id = "" ∨ r.value.id = id) then .error .constraint
  else
    .ok (id, { x with
      grants := insert x.grants fun rowid => ⟨rowKey "dir_" rowid, productId, agentId, path,
        json.serializeJson (capabilitiesValue policy.capabilities),
        json.serializeJson (modesValue policy.workspaceModes),
        json.serializeJson (.string policy.defaultWorkspaceMode.asStr),
        json.serializeJson (.string policy.lockPolicy.asStr),
        policy.directModeRequiresExplicitTaskOptIn, policy.allowRemoteExecution, now, now⟩ })

def updateGrant (id : String) (policy : DirectoryGrantPolicy) (now : String) : TextStore :=
  { x with
    grants := update x.grants (fun row => decide (row.id = id)) fun row =>
      { row with
        capabilitiesJson := json.serializeJson (capabilitiesValue policy.capabilities)
        workspaceModesJson := json.serializeJson (modesValue policy.workspaceModes)
        defaultWorkspaceMode := json.serializeJson (.string policy.defaultWorkspaceMode.asStr)
        lockPolicy := json.serializeJson (.string policy.lockPolicy.asStr)
        directModeRequiresExplicitTaskOptIn := policy.directModeRequiresExplicitTaskOptIn
        allowRemoteExecution := policy.allowRemoteExecution
        updatedAt := now } }

def deleteGrant (id : String) : TextStore :=
  { x with grants := delete x.grants fun row => decide (row.id = id) }

def insertProfile (profile : AgentProfile) : Except SqlError TextStore :=
  if x.profiles.any fun row => decide (row.id = profile.id) then .error .constraint
  else .ok { x with profiles := x.profiles ++ [profile.toColumns json] }

def updateProfile (id : String) (next : CreateAgentProfile) (updatedAt : String) : TextStore :=
  { x with
    profiles := x.profiles.map fun row =>
      if row.id = id then
        { row with
          name := next.name
          providerId := next.providerId
          model := next.model
          instructions := next.instructions
          executionPolicyJson := json.serializeJson next.executionPolicy.toValue
          providerConfigJson := json.serializeJson next.providerConfig.toValue
          updatedAt := updatedAt }
      else row }

def deleteProfile (id : String) : TextStore :=
  { x with profiles := x.profiles.filter fun row => !decide (row.id = id) }

def listEventsAfter (taskId : String) (cursor : ℕ) : List EventColumns :=
  (x.eventsOf taskId).filter fun row => decide (cursor < row.sequence)

/-- `JOIN tasks t ON t.id = pr.task_id`; the status is compared as text. -/
def listPermissionRequests (filters : PermissionRequestFilters) : List PermissionColumns :=
  (x.permissionRequests.filter fun row => filters.status.all fun value =>
      decide (row.status = json.serializeJson (.string value.asStr))).flatMap fun row =>
    ((x.tasks.map Row.value).filter fun task => decide (task.id = row.taskId) &&
      filters.ownerProductId.all fun value => decide (task.ownerProductId = value)).map fun _ => row

def listGrants (filters : DirectoryGrantFilters) : List GrantColumns :=
  (x.grants.map Row.value).filter fun row =>
    filters.productId.all (fun value => decide (row.productId = value)) &&
      filters.agentId.all fun value => decide (row.agentId = value)

def listProfiles (filters : AgentProfileFilters) : List ProfileColumns :=
  x.profiles.filter fun row =>
    filters.ownerProductId.all (fun value => decide (row.ownerProductId = value)) &&
      filters.providerId.all fun value => decide (row.providerId = value)

def attempt (now : String) : (q : DbStep) → TextStore → Except SqlError (q.Row × TextStore)
  | .clock, x => .ok (now, x)
  | .publish event, x => .ok ((), { x with published := x.published ++ [event] })
  | .selectTask id, x => (readOptional (rowToTask json) (x.findTask id)).map fun task => (task, x)
  | .selectTasks, x =>
    (readAll (rowToTask json) (x.tasks.map Row.value)).map fun tasks => (tasks, x)
  | .insertTask row at_, x => x.insertTask json row at_
  | .updateTaskStatus id next payload sequence at_, x =>
    (x.updateTaskStatus json id next payload sequence at_).map fun x' => ((), x')
  | .updateTaskResult id result, x => .ok ((), x.updateTaskResult json id result)
  | .nextSequence taskId, x => .ok (x.nextSequence taskId, x)
  | .insertEvent taskId sequence eventType payload at_, x =>
    (x.insertEvent json taskId sequence eventType payload at_).map fun x' => ((), x')
  | .selectEvent taskId sequence, x =>
    match (x.eventsOf taskId).find? fun row => decide (row.sequence = sequence) with
    | some row => (orFailure (rowToEvent json row)).map fun event => (event, x)
    | none => .error .failure
  | .insertPermissionRequest taskId request at_, x =>
    x.insertPermissionRequest json taskId request at_
  | .resolvePermissionRequest taskId requestId decision reason at_, x =>
    x.resolvePermissionRequest json taskId requestId decision reason at_
  | .selectHeldLocks directoryId, x =>
    (readAll (rowToLock json) (x.heldLocks directoryId)).map fun locks => (locks, x)
  | .replaceLock request at_, x => .ok ((), x.replaceLock json request at_)
  | .releaseLocks taskId at_, x => .ok ((), x.releaseLocks taskId at_)
  | .selectGrant id, x =>
    (readOptional (rowToGrant json) (x.findGrant id)).map fun grant => (grant, x)
  | .insertGrant productId agentId path policy at_, x =>
    x.insertGrant json productId agentId path policy at_
  | .updateGrant id policy at_, x => .ok ((), x.updateGrant json id policy at_)
  | .deleteGrant id, x => .ok ((x.findGrant id).isSome, x.deleteGrant id)
  | .selectProfile id, x =>
    (readOptional (rowToProfile json) (x.findProfile id)).map fun profile => (profile, x)
  | .insertProfile profile, x => (x.insertProfile json profile).map fun x' => ((), x')
  | .updateProfile id next updatedAt, x => .ok ((), x.updateProfile json id next updatedAt)
  | .deleteProfile id, x => .ok ((x.findProfile id).isSome, x.deleteProfile id)

def answer (now : String) : (q : StoreStep) → TextStore → Except SqlError (q.Row × TextStore)
  | .db q, x => attempt json now q x
  | .selectPermissionRequest taskId requestId, x =>
    (readOptional (rowToPermissionRequest json) (x.findPermissionRequest taskId requestId)).map
      fun request => (request, x)
  | .listEventsAfter taskId cursor, x =>
    (readAll (rowToEvent json) (x.listEventsAfter taskId cursor)).map fun events => (events, x)
  | .listPermissionRequests filters, x =>
    (readAll (rowToPermissionRequest json) (x.listPermissionRequests json filters)).map
      fun requests => (requests, x)
  | .listGrants filters, x =>
    (readAll (rowToGrant json) (x.listGrants filters)).map fun grants => (grants, x)
  | .listProfiles filters, x =>
    (readAll (rowToProfile json) (x.listProfiles filters)).map fun profiles => (profiles, x)

def exec (q : StoreStep) (input : DbStep.Input) (x : TextStore) : q.Answer × TextStore :=
  match input with
  | .ioError => (.error .failure, x)
  | .proceed now =>
    match answer json now q x with
    | .ok (row, x') => (.ok row, x')
    | .error e => (.error e, x)

/-- The rows that the tables hold, if each of them can be read back. -/
def read (x : TextStore) : Option Store := do
  let grants ← x.grants.mapM fun r => (rowToGrant json r.value).map (Row.mk r.rowid)
  let profiles ← x.profiles.mapM (rowToProfile json)
  let tasks ← x.tasks.mapM fun r => (rowToTask json r.value).map (Row.mk r.rowid)
  let events ← x.events.mapM (rowToEvent json)
  let permissionRequests ← x.permissionRequests.mapM (rowToPermissionRequest json)
  let locks ← x.locks.mapM (rowToLock json)
  return {
    grants := grants
    profiles := profiles
    tasks := tasks
    events := events
    permissionRequests := permissionRequests
    locks := locks
    published := x.published }

end TextStore

end OpenDaemon
