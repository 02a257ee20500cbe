import OpenDaemon.TextColumns

/-!
# The rows of the text tables

The columns of each table as the schema declares them, what the stores write
into them, and `row_to_task` and its like, which read them back. A row that was
written from a value whose JSON is exact is read back as that value.
-/

namespace OpenDaemon

open JsonText

structure TaskColumns where
  id : String
  ownerProductId : String
  agentId : String
  directoryId : String
  prompt : String
  requiredCapabilitiesJson : String
  workspaceMode : String
  directModeTaskOptIn : Bool
  metadataJson : Option String
  providerId : String
  model : String
  permissionMode : String
  timeoutSeconds : Option ℕ
  status : String
  resultJson : Option String
  createdAt : String
  updatedAt : String
  startedAt : Option String
  completedAt : Option String
  cancelledAt : Option String
  failedAt : Option String

structure EventColumns where
  id : String
  taskId : String
  sequence : ℕ
  eventType : String
  payloadJson : String
  createdAt : String

structure LockColumns where
  directoryId : String
  taskId : String
  mode : String
  status : String
  createdAt : String
  releasedAt : Option String

structure PermissionColumns where
  requestId : String
  taskId : String
  sequence : ℕ
  providerId : String
  permissionKind : String
  status : String
  requestPayloadJson : String
  responsePayloadJson : Option String
  requestedAt : String
  respondedAt : Option String

structure GrantColumns where
  id : String
  productId : String
  agentId : String
  path : String
  capabilitiesJson : String
  workspaceModesJson : String
  defaultWorkspaceMode : String
  lockPolicy : String
  directModeRequiresExplicitTaskOptIn : Bool
  allowRemoteExecution : Bool
  createdAt : String
  updatedAt : String

structure ProfileColumns where
  id : String
  name : String
  ownerProductId : String
  providerId : String
  model : String
  instructions : Option String
  executionPolicyJson : String
  providerConfigJson : String
  createdAt : String
  updatedAt : String

namespace ColumnText

variable (json : ColumnText) {α : Type}

def serializeJson (value : Value) : String := json.print value

def deserializeJson (f : Value → Option α) (text : String) : Option α :=
  (json.parse text).bind f

def deserializeOptionalJson (f : Value → Option α) : Option String → Option (Option α)
  | none => some none
  | some text => (json.deserializeJson f text).map some

variable {json}

theorem deserializeJson_serializeJson (hjson : json.Reads) {f : Value → Option α} {v : Value}
    {a : α} (hv : Storable v) (hread : f v = some a) :
    json.deserializeJson f (json.serializeJson v) = some a := by
  rw [deserializeJson, serializeJson, hjson.parse_print v hv]
  exact hread

theorem deserializeOptionalJson_map (hjson : json.Reads) {f : Value → Option α} {g : α → Value}
    {o : Option α} (h : ∀ a ∈ o, Storable (g a) ∧ f (g a) = some a) :
    json.deserializeOptionalJson f (o.map fun a => json.serializeJson (g a)) = some o := by
  cases o with
  | none => rfl
  | some a =>
    obtain ⟨hstorable, hread⟩ := h a rfl
    simp only [Option.map_some, deserializeOptionalJson,
      deserializeJson_serializeJson hjson hstorable hread]

theorem deserializeJson_string (hjson : json.Reads) {f : Value → Option α} {s : String} {a : α}
    (hread : f (.string s) = some a) :
    json.deserializeJson f (json.serializeJson (.string s)) = some a :=
  deserializeJson_serializeJson hjson (storable_string s) hread

theorem deserializeJson_list (hjson : json.Reads) {f : Value → Option α} {asStr : α → String}
    (hread : ∀ a, f (.string (asStr a)) = some a) (items : List α) :
    json.deserializeJson (listFromValue f)
      (json.serializeJson (listValue (fun a => .string (asStr a)) items)) = some items :=
  deserializeJson_serializeJson hjson (storable_strings asStr items)
    (listFromValue_listValue fun a _ => hread a)

theorem serializeJson_variant_inj (hjson : json.Reads) {f : Value → Option α} {asStr : α → String}
    (hread : ∀ a, f (.string (asStr a)) = some a) {a b : α} :
    json.serializeJson (.string (asStr a)) = json.serializeJson (.string (asStr b)) ↔ a = b := by
  constructor
  · intro h
    have ha := deserializeJson_string hjson (hread a)
    rw [h, deserializeJson_string hjson (hread b)] at ha
    exact (Option.some.inj ha).symm
  · rintro rfl
    rfl

end ColumnText

section Rows
variable (json : ColumnText)

def capabilitiesValue (capabilities : List DirectoryCapability) : Value :=
  listValue (fun c => .string c.asStr) capabilities

def modesValue (modes : List WorkspaceMode) : Value :=
  listValue (fun mode => .string mode.asStr) modes

def Task.toColumns (task : Task) : TaskColumns where
  id := task.id
  ownerProductId := task.ownerProductId
  agentId := task.agentId
  directoryId := task.directoryId
  prompt := task.prompt
  requiredCapabilitiesJson := json.serializeJson (capabilitiesValue task.requiredCapabilities)
  workspaceMode := json.serializeJson (.string task.workspaceMode.asStr)
  directModeTaskOptIn := task.directModeTaskOptIn
  metadataJson := task.metadata.map fun metadata => json.serializeJson metadata
  providerId := task.providerId
  model := task.model
  permissionMode := task.permissionMode
  timeoutSeconds := task.timeoutSeconds
  status := json.serializeJson (.string task.status.asStr)
  resultJson := task.result.map fun result => json.serializeJson result.toValue
  createdAt := task.createdAt
  updatedAt := task.updatedAt
  startedAt := task.startedAt
  completedAt := task.completedAt
  cancelledAt := task.cancelledAt
  failedAt := task.failedAt

def rowToTask (row : TaskColumns) : Option Task := do
  return {
    id := row.id
    ownerProductId := row.ownerProductId
    agentId := row.agentId
    directoryId := row.directoryId
    prompt := row.prompt
    requiredCapabilities := ← json.deserializeJson (listFromValue DirectoryCapability.fromValue)
      row.requiredCapabilitiesJson
    workspaceMode := ← json.deserializeJson WorkspaceMode.fromValue row.workspaceMode
    directModeTaskOptIn := row.directModeTaskOptIn
    metadata := ← json.deserializeOptionalJson some row.metadataJson
    providerId := row.providerId
    model := row.model
    permissionMode := row.permissionMode
    timeoutSeconds := row.timeoutSeconds
    status := ← json.deserializeJson TaskStatus.fromValue row.status
    result := ← json.deserializeOptionalJson TaskResult.fromValue row.resultJson
    createdAt := row.createdAt
    updatedAt := row.updatedAt
    startedAt := row.startedAt
    completedAt := row.completedAt
    cancelledAt := row.cancelledAt
    failedAt := row.failedAt }

def TaskEvent.toColumns (event : TaskEvent) : EventColumns where
  id := event.id
  taskId := event.taskId
  sequence := event.sequence
  eventType := json.serializeJson (.string event.eventType.asStr)
  payloadJson := json.serializeJson event.payload
  createdAt := event.createdAt

def rowToEvent (row : EventColumns) : Option TaskEvent := do
  return {
    id := row.id
    taskId := row.taskId
    sequence := row.sequence
    eventType := ← json.deserializeJson TaskEventType.fromValue row.eventType
    payload := ← json.deserializeJson some row.payloadJson
    createdAt := row.createdAt }

/-- The status is a plain text, not JSON. -/
def LockStatus.asStr : LockStatus → String
  | .held => "held"
  | .released => "released"

def LockStatus.fromStr : String → Option LockStatus
  | "held" => some .held
  | "released" => some .released
  | _ => none

def DirectoryLock.toColumns (lock : DirectoryLock) : LockColumns where
  directoryId := lock.directoryId
  taskId := lock.taskId
  mode := json.serializeJson (.string lock.mode.asStr)
  status := lock.status.asStr
  createdAt := lock.createdAt
  releasedAt := lock.releasedAt

def rowToLock (row : LockColumns) : Option DirectoryLock := do
  return {
    directoryId := row.directoryId
    taskId := row.taskId
    mode := ← json.deserializeJson LockMode.fromValue row.mode
    status := ← LockStatus.fromStr row.status
    createdAt := row.createdAt
    releasedAt := row.releasedAt }

def PermissionRequestRecord.toColumns (record : PermissionRequestRecord) : PermissionColumns where
  requestId := record.requestId
  taskId := record.taskId
  sequence := record.sequence
  providerId := record.providerId
  permissionKind := record.permissionKind
  status := json.serializeJson (.string record.status.asStr)
  requestPayloadJson := json.serializeJson record.request.toValue
  responsePayloadJson := record.response.map fun response => json.serializeJson response.toValue
  requestedAt := record.requestedAt
  respondedAt := record.respondedAt

def rowToPermissionRequest (row : PermissionColumns) : Option PermissionRequestRecord := do
  return {
    requestId := row.requestId
    taskId := row.taskId
    sequence := row.sequence
    providerId := row.providerId
    permissionKind := row.permissionKind
    status := ← json.deserializeJson PermissionRequestStatus.fromValue row.status
    request := ← json.deserializeJson PermissionRequestEvent.fromValue row.requestPayloadJson
    response :=
      ← json.deserializeOptionalJson PermissionDecisionEvent.fromValue row.responsePayloadJson
    requestedAt := row.requestedAt
    respondedAt := row.respondedAt }

def DirectoryGrant.toColumns (grant : DirectoryGrant) : GrantColumns where
  id := grant.id
  productId := grant.productId
  agentId := grant.agentId
  path := grant.path
  capabilitiesJson := json.serializeJson (capabilitiesValue grant.capabilities)
  workspaceModesJson := json.serializeJson (modesValue grant.workspaceModes)
  defaultWorkspaceMode := json.serializeJson (.string grant.defaultWorkspaceMode.asStr)
  lockPolicy := json.serializeJson (.string grant.lockPolicy.asStr)
  directModeRequiresExplicitTaskOptIn := grant.directModeRequiresExplicitTaskOptIn
  allowRemoteExecution := grant.allowRemoteExecution
  createdAt := grant.createdAt
  updatedAt := grant.updatedAt

def rowToGrant (row : GrantColumns) : Option DirectoryGrant := do
  return {
    id := row.id
    productId := row.productId
    agentId := row.agentId
    path := row.path
    capabilities :=
      ← json.deserializeJson (listFromValue DirectoryCapability.fromValue) row.capabilitiesJson
    workspaceModes :=
      ← json.deserializeJson (listFromValue WorkspaceMode.fromValue) row.workspaceModesJson
    defaultWorkspaceMode := ← json.deserializeJson WorkspaceMode.fromValue row.defaultWorkspaceMode
    lockPolicy := ← json.deserializeJson DirectoryLockPolicy.fromValue row.lockPolicy
    directModeRequiresExplicitTaskOptIn := row.directModeRequiresExplicitTaskOptIn
    allowRemoteExecution := row.allowRemoteExecution
    createdAt := row.createdAt
    updatedAt := row.updatedAt }

def AgentProfile.toColumns (profile : AgentProfile) : ProfileColumns where
  id := profile.id
  name := profile.name
  ownerProductId := profile.ownerProductId
  providerId := profile.providerId
  model := profile.model
  instructions := profile.instructions
  executionPolicyJson := json.serializeJson profile.executionPolicy.toValue
  providerConfigJson := json.serializeJson profile.providerConfig.toValue
  createdAt := profile.createdAt
  updatedAt := profile.updatedAt

def rowToProfile (row : ProfileColumns) : Option AgentProfile := do
  return {
    id := row.id
    name := row.name
    ownerProductId := row.ownerProductId
    providerId := row.providerId
    model := row.model
    instructions := row.instructions
    executionPolicy := ← json.deserializeJson ExecutionPolicy.fromValue row.executionPolicyJson
    providerConfig := ← json.deserializeJson ProviderConfig.fromValue row.providerConfigJson
    createdAt := row.createdAt
    updatedAt := row.updatedAt }

end Rows

structure Task.Exact (task : Task) : Prop where
  metadata : ∀ v ∈ task.metadata, Storable v
  result : ∀ result ∈ task.result, result.Exact

/-- The query for a decision compares the request ids of these events alone. -/
structure TaskEvent.Exact (event : TaskEvent) : Prop where
  payload : Storable event.payload
  decision : event.eventType = .providerPermissionDecided → PlainRequestId event.payload

section RoundTrip
variable {json : ColumnText} (hjson : json.Reads)
include hjson

theorem rowToTask_toColumns {task : Task} (h : task.Exact) :
    rowToTask json (task.toColumns json) = some task := by
  have hcapabilities := ColumnText.deserializeJson_list hjson DirectoryCapability.fromValue_asStr
    task.requiredCapabilities
  have hmode := ColumnText.deserializeJson_string hjson
    (WorkspaceMode.fromValue_asStr task.workspaceMode)
  have hstatus := ColumnText.deserializeJson_string hjson (TaskStatus.fromValue_asStr task.status)
  have hmetadata := ColumnText.deserializeOptionalJson_map hjson (f := some) (g := id)
    (o := task.metadata) fun v hv => ⟨h.metadata v hv, rfl⟩
  have hresult := ColumnText.deserializeOptionalJson_map hjson
    (f := TaskResult.fromValue) (g := TaskResult.toValue) (o := task.result) fun r hr =>
    ⟨TaskResult.storable_toValue (h.result r hr), TaskResult.fromValue_toValue (h.result r hr)⟩
  simp only [id] at hmetadata
  simp only [rowToTask, Task.toColumns, capabilitiesValue, hcapabilities, hmode, hstatus,
    hmetadata, hresult, Option.bind_eq_bind, Option.bind_some, Option.pure_def]

theorem rowToEvent_toColumns {event : TaskEvent} (h : event.Exact) :
    rowToEvent json (event.toColumns json) = some event := by
  have htype := ColumnText.deserializeJson_string hjson
    (TaskEventType.fromValue_asStr event.eventType)
  have hpayload := ColumnText.deserializeJson_serializeJson hjson (f := some) h.payload rfl
  simp only [rowToEvent, TaskEvent.toColumns, htype, hpayload, Option.bind_eq_bind,
    Option.bind_some, Option.pure_def]

theorem rowToLock_toColumns (lock : DirectoryLock) :
    rowToLock json (lock.toColumns json) = some lock := by
  have hmode := ColumnText.deserializeJson_string hjson (LockMode.fromValue_asStr lock.mode)
  have hstatus : LockStatus.fromStr lock.status.asStr = some lock.status := by
    cases lock.status <;> rfl
  simp only [rowToLock, DirectoryLock.toColumns, hmode, hstatus, Option.bind_eq_bind,
    Option.bind_some, Option.pure_def]

theorem rowToPermissionRequest_toColumns {record : PermissionRequestRecord}
    (h : record.request.Exact) :
    rowToPermissionRequest json (record.toColumns json) = some record := by
  have hstatus := ColumnText.deserializeJson_string hjson
    (PermissionRequestStatus.fromValue_asStr record.status)
  have hrequest := ColumnText.deserializeJson_serializeJson hjson
    (PermissionRequestEvent.storable_toValue h) (PermissionRequestEvent.fromValue_toValue h)
  have hresponse := ColumnText.deserializeOptionalJson_map hjson
    (f := PermissionDecisionEvent.fromValue) (g := PermissionDecisionEvent.toValue)
    (o := record.response) fun response _ =>
    ⟨response.storable_toValue, PermissionDecisionEvent.fromValue_toValue response⟩
  simp only [rowToPermissionRequest, PermissionRequestRecord.toColumns, hstatus, hrequest,
    hresponse, Option.bind_eq_bind, Option.bind_some, Option.pure_def]

theorem rowToGrant_toColumns (grant : DirectoryGrant) :
    rowToGrant json (grant.toColumns json) = some grant := by
  have hcapabilities := ColumnText.deserializeJson_list hjson DirectoryCapability.fromValue_asStr
    grant.capabilities
  have hmodes := ColumnText.deserializeJson_list hjson WorkspaceMode.fromValue_asStr
    grant.workspaceModes
  have hdefault := ColumnText.deserializeJson_string hjson
    (WorkspaceMode.fromValue_asStr grant.defaultWorkspaceMode)
  have hpolicy := ColumnText.deserializeJson_string hjson
    (DirectoryLockPolicy.fromValue_asStr grant.lockPolicy)
  simp only [rowToGrant, DirectoryGrant.toColumns, capabilitiesValue, modesValue, hcapabilities,
    hmodes, hdefault, hpolicy, Option.bind_eq_bind, Option.bind_some, Option.pure_def]

theorem rowToProfile_toColumns {profile : AgentProfile}
    (h : profile.providerConfig.Exact) :
    rowToProfile json (profile.toColumns json) = some profile := by
  have hpolicy := ColumnText.deserializeJson_serializeJson hjson
    profile.executionPolicy.storable_toValue profile.executionPolicy.fromValue_toValue
  have hconfig := ColumnText.deserializeJson_serializeJson hjson
    (ProviderConfig.storable_toValue h) (ProviderConfig.fromValue_toValue h)
  simp only [rowToProfile, AgentProfile.toColumns, hpolicy, hconfig, Option.bind_eq_bind,
    Option.bind_some, Option.pure_def]

end RoundTrip

end OpenDaemon
