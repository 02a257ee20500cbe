import OpenDaemon.EventStream
import OpenDaemon.TaskIntake

/-!
# Messages of the control plane

`control_plane/client.rs`: the handler of the text messages that the control
plane sends over its web socket, with the registration of the daemon that a
`registration_accepted` message stores. The JSON parser is a parameter.
-/

namespace OpenDaemon

section Deserialize

/-- The fields of a struct in `serde_json::from_value`: by name in an object, where others are
ignored, or in their order in an array that has no others. -/
def Value.structFields (names : List String) : Value → Option (List (Option Value))
  | .object entries => some (names.map fun name => entries.lookup name)
  | .array items => if items.length = names.length then some (items.map some) else none
  | _ => none

def Value.asU64 : Value → Option ℕ
  | .number literal => (parseDigits literal.toList).filter fun n => decide (n < UInt64.size)
  | _ => none

def optionalField {α : Type} (f : Value → Option α) : Option Value → Option (Option α)
  | none => some none
  | some .null => some none
  | some value => (f value).map some

def stringList : Value → Option (List String)
  | .array items => items.mapM Value.asStr
  | _ => none

def RemoteDispatchTask.fieldNames : List String :=
  ["remote_task_id", "owner_product_id", "agent_id", "directory_id", "prompt",
    "required_capabilities", "workspace_mode", "timeout_seconds", "task_token", "metadata"]

def RemoteDispatchTask.fromValue (value : Value) : Option RemoteDispatchTask :=
  match value.structFields fieldNames with
  | some [remoteTaskId, ownerProductId, agentId, directoryId, prompt, requiredCapabilities,
      workspaceMode, timeoutSeconds, taskToken, metadata] => do
    return {
      remoteTaskId := ← remoteTaskId.bind Value.asStr
      ownerProductId := ← ownerProductId.bind Value.asStr
      agentId := ← agentId.bind Value.asStr
      directoryId := ← directoryId.bind Value.asStr
      prompt := ← prompt.bind Value.asStr
      requiredCapabilities := ← requiredCapabilities.bind stringList
      workspaceMode := ← workspaceMode.bind Value.asStr
      timeoutSeconds := ← optionalField Value.asU64 timeoutSeconds
      taskToken := ← taskToken.bind Value.asStr
      metadata := ← metadata }
  | _ => none

structure DaemonRegistrationAccepted where
  daemonId : String
  daemonToken : String
  sessionId : Option String
  registeredAt : String
  deriving DecidableEq, Repr

def DaemonRegistrationAccepted.fieldNames : List String :=
  ["daemon_id", "daemon_token", "session_id", "registered_at"]

def DaemonRegistrationAccepted.fromValue (value : Value) : Option DaemonRegistrationAccepted :=
  match value.structFields fieldNames with
  | some [daemonId, daemonToken, sessionId, registeredAt] => do
    return {
      daemonId := ← daemonId.bind Value.asStr
      daemonToken := ← daemonToken.bind Value.asStr
      sessionId := ← optionalField Value.asStr sessionId
      registeredAt := ← registeredAt.bind Value.asStr }
  | _ => none

end Deserialize

inductive DaemonConnectionStatus
  | online
  | offline
  | connecting
  | error
  deriving DecidableEq, Repr

structure DaemonRegistrationRecord where
  daemonId : String
  controlPlaneUrl : String
  daemonToken : String
  status : DaemonConnectionStatus
  registeredAt : String
  lastHeartbeatAt : Option String
  lastErrorCode : Option String
  sessionId : Option String
  deriving DecidableEq, Repr

inductive DaemonStateStoreError
  | notFound
  | store
  deriving DecidableEq, Repr

/-- The rows of `daemon_state` in the order of their rowids. -/
abbrev DaemonTable : Type := List DaemonRegistrationRecord

namespace DaemonStateStore

def get (table : DaemonTable) (daemonId : String) :
    Except DaemonStateStoreError DaemonRegistrationRecord :=
  match table.find? fun record => record.daemonId = daemonId with
  | some record => .ok record
  | none => .error .notFound

def getCurrent (table : DaemonTable) : Except DaemonStateStoreError DaemonRegistrationRecord :=
  match table.head? with
  | some record => .ok record
  | none => .error .notFound

/-- `INSERT .. ON CONFLICT(daemon_id) DO UPDATE`: a known daemon keeps its row. -/
def upsert (table : DaemonTable) (record : DaemonRegistrationRecord) : DaemonTable :=
  if table.any fun row => row.daemonId = record.daemonId then
    table.map fun row => if row.daemonId = record.daemonId then record else row
  else table ++ [record]

def saveRegistration (table : DaemonTable) (record : DaemonRegistrationRecord) :
    Except DaemonStateStoreError DaemonRegistrationRecord × DaemonTable :=
  (get (upsert table record) record.daemonId, upsert table record)

def markHeartbeat (table : DaemonTable) (daemonId heartbeatAt : String)
    (status : DaemonConnectionStatus) :
    Except DaemonStateStoreError DaemonRegistrationRecord × DaemonTable :=
  let table' := table.map fun row => if row.daemonId = daemonId then
    { row with lastHeartbeatAt := some heartbeatAt, status := status } else row
  (get table' daemonId, table')

end DaemonStateStore

inductive DaemonStep
  | service (q : ServiceStep)
  | currentDaemon
  | markHeartbeat (daemonId heartbeatAt : String) (status : DaemonConnectionStatus)
  | saveRegistration (record : DaemonRegistrationRecord)

structure DaemonState where
  store : Store
  daemons : DaemonTable

namespace DaemonStep

@[reducible] def Answer : DaemonStep → Type
  | .service q => q.Answer
  | .currentDaemon | .markHeartbeat .. | .saveRegistration _ =>
    Except DaemonStateStoreError DaemonRegistrationRecord

def exec (q : DaemonStep) (input : ServiceStep.Input) (x : DaemonState) :
    q.Answer × DaemonState :=
  match q with
  | .service q => ((q.exec input x.store).1, { x with store := (q.exec input x.store).2 })
  | .currentDaemon => (DaemonStateStore.getCurrent x.daemons, x)
  | .markHeartbeat daemonId heartbeatAt status =>
    let r := DaemonStateStore.markHeartbeat x.daemons daemonId heartbeatAt status
    (r.1, { x with daemons := r.2 })
  | .saveRegistration record =>
    let r := DaemonStateStore.saveRegistration x.daemons record
    (r.1, { x with daemons := r.2 })

end DaemonStep

inductive ControlPlaneClientError
  | invalidMessage
  | dispatch (error : ControlPlaneDispatchError)
  | store (error : DaemonStateStoreError)
  deriving DecidableEq, Repr

inductive HandledControlPlaneMessage
  | ignored
  | taskDispatched (task : Task)
  | taskCancelled (task : Task)
  | heartbeatAcknowledged

abbrev ClientCall (α : Type) : Type := Call DaemonStep DaemonStep.Answer ControlPlaneClientError α

def dispatching {α : Type} : ControlPlaneDispatchService.DispatchCall α → ClientCall α :=
  Call.embed DaemonStep.service (fun _ answer => answer) .dispatch

def ControlPlaneDispatchService.cancelRemoteTask (remoteTaskId : String) :
    ControlPlaneDispatchService.DispatchCall Task := do
  match ← findByRemoteTaskId remoteTaskId with
  | none => .fail .invalidDispatch
  | some task => (SchedulerService.cancelTask task.id).mapError .task

namespace ControlPlaneMessageHandler
variable (parse : String → Option Value)

def orInvalid {α : Type} : Option α → ClientCall α
  | some a => .ret a
  | none => .fail .invalidMessage

def handleDispatch (envelope : Value) : ClientCall HandledControlPlaneMessage := do
  let value ← orInvalid (envelope.get? "task")
  let remoteTask ← orInvalid (RemoteDispatchTask.fromValue value)
  let task ← dispatching (ControlPlaneDispatchService.ingest remoteTask)
  return .taskDispatched task

def handleCancel (envelope : Value) : ClientCall HandledControlPlaneMessage := do
  let remoteTaskId ← orInvalid (envelope.strAt "remote_task_id")
  let task ← dispatching (ControlPlaneDispatchService.cancelRemoteTask remoteTaskId)
  return .taskCancelled task

def markHeartbeat (record : DaemonRegistrationRecord) (heartbeatAt : String) :
    ClientCall HandledControlPlaneMessage :=
  .step (.markHeartbeat record.daemonId heartbeatAt record.status) fun
    | .ok _ => .ret .heartbeatAcknowledged
    | .error error => .fail (.store error)

/-- A daemon that is not registered, or cannot be read, has no heartbeat to mark. -/
def handleHeartbeatAck (envelope : Value) : ClientCall HandledControlPlaneMessage := do
  let heartbeatAt ← orInvalid (envelope.strAt "heartbeat_at")
  .step .currentDaemon fun
    | .ok record => markHeartbeat record heartbeatAt
    | .error _ => .ret .heartbeatAcknowledged

def handleEnvelope (envelope : Value) : ClientCall HandledControlPlaneMessage := do
  let messageType ← orInvalid (envelope.strAt "type")
  if messageType = "task_dispatch" then handleDispatch envelope
  else if messageType = "task_cancel" then handleCancel envelope
  else if messageType = "heartbeat_ack" then handleHeartbeatAck envelope
  else return .ignored

def handleText (payload : String) : ClientCall HandledControlPlaneMessage := do
  let envelope ← orInvalid (parse payload)
  handleEnvelope envelope

end ControlPlaneMessageHandler

namespace ControlPlaneClient
variable (parse : String → Option Value) (endpoint : String)

def parseRegistrationAccepted (payload : String) :
    Except ControlPlaneClientError (Option DaemonRegistrationAccepted) :=
  match parse payload with
  | none => .error .invalidMessage
  | some envelope =>
    if envelope.strAt "type" ≠ some "registration_accepted" then .ok none
    else match (envelope.get? "registration").bind DaemonRegistrationAccepted.fromValue with
      | none => .error .invalidMessage
      | some accepted => .ok (some accepted)

/-- `DaemonRegistrationService::accept`. -/
def accept (accepted : DaemonRegistrationAccepted) : ClientCall DaemonRegistrationRecord :=
  .step (.saveRegistration
    { daemonId := accepted.daemonId
      controlPlaneUrl := endpoint
      daemonToken := accepted.daemonToken
      status := .online
      registeredAt := accepted.registeredAt
      lastHeartbeatAt := some accepted.registeredAt
      lastErrorCode := none
      sessionId := accepted.sessionId }) fun
    | .ok record => .ret record
    | .error error => .fail (.store error)

/-- The text arm of `run_session`; an error ends the session and the client. -/
def handleFrame (payload : String) : ClientCall Unit := do
  match ← Call.ofExcept (parseRegistrationAccepted parse payload) with
  | some accepted => do
    let _ ← accept endpoint accepted
    return ()
  | none => do
    let _ ← ControlPlaneMessageHandler.handleText parse payload
    return ()

end ControlPlaneClient

end OpenDaemon
