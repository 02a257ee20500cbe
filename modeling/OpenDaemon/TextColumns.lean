import OpenDaemon.JsonText
import OpenDaemon.MappedTables
import OpenDaemon.MergePatch
import OpenDaemon.SseBlocks

/-!
# The values of the JSON columns

What the stores write into their text columns and read back from them:
`serialize_json` and `deserialize_json` for each type that is kept as JSON. An
enumeration is the name of its variant, a struct the object of its fields, in
which a field of type `Option` is `null` when it is empty. Only values that nest
at most 127 levels are read back.
-/

namespace OpenDaemon

open JsonText

/-- `to_string` and `from_str` of `serde_json`, and the text that SQLite's
`json_extract(text, '$.request_id')` finds. -/
structure ColumnText where
  print : Value → String
  parse : String → Option Value
  requestIdOf : String → Option String

structure Storable (v : Value) : Prop where
  exact : Exact v
  readable : v.readable

/-- What is found under `request_id` can be compared with a text: SQLite would give an array or an
object as its text, and may end a text at U+0000. -/
def PlainRequestId (v : Value) : Prop :=
  match v.get? "request_id" with
  | some (.string s) => Char.ofNat 0 ∉ s.toList
  | some (.array _) | some (.object _) => False
  | _ => True

structure ColumnText.Reads (columns : ColumnText) : Prop where
  parse_print : ∀ v, Storable v → columns.parse (columns.print v) = some v
  requestIdOf_print : ∀ v, Storable v → PlainRequestId v →
    columns.requestIdOf (columns.print v) = v.strAt "request_id"

section Variants

def DirectoryCapability.asStr : DirectoryCapability → String
  | .read => "read"
  | .write => "write"
  | .shell => "shell"
  | .git => "git"

def DirectoryCapability.fromValue : Value → Option DirectoryCapability :=
  unitVariant [("read", .read), ("write", .write), ("shell", .shell), ("git", .git)]

def WorkspaceMode.asStr : WorkspaceMode → String
  | .worktree => "worktree"
  | .direct => "direct"

def WorkspaceMode.fromValue : Value → Option WorkspaceMode :=
  unitVariant [("worktree", .worktree), ("direct", .direct)]

def DirectoryLockPolicy.asStr : DirectoryLockPolicy → String
  | .exclusive => "exclusive"
  | .shared => "shared"
  | .none => "none"

def DirectoryLockPolicy.fromValue : Value → Option DirectoryLockPolicy :=
  unitVariant [("exclusive", .exclusive), ("shared", .shared), ("none", .none)]

def AgentWorkspaceMode.asStr : AgentWorkspaceMode → String
  | .worktree => "worktree"
  | .direct => "direct"

def TaskStatus.asStr : TaskStatus → String
  | .queued => "queued"
  | .waitingDirectoryLock => "waiting_directory_lock"
  | .preparing => "preparing"
  | .running => "running"
  | .completed => "completed"
  | .failed => "failed"
  | .cancelled => "cancelled"
  | .timedOut => "timed_out"

def TaskStatus.fromValue : Value → Option TaskStatus :=
  unitVariant [("queued", .queued), ("waiting_directory_lock", .waitingDirectoryLock),
    ("preparing", .preparing), ("running", .running), ("completed", .completed),
    ("failed", .failed), ("cancelled", .cancelled), ("timed_out", .timedOut)]

def TaskEventType.fromValue : Value → Option TaskEventType :=
  unitVariant [("task.queued", .queued), ("task.waiting_directory_lock", .waitingDirectoryLock),
    ("task.preparing", .preparing), ("task.running", .running), ("task.completed", .completed),
    ("task.failed", .failed), ("task.cancelled", .cancelled), ("task.timed_out", .timedOut),
    ("process.stdout", .processStdout), ("process.stderr", .processStderr),
    ("provider.permission_requested", .providerPermissionRequested),
    ("provider.permission_decided", .providerPermissionDecided)]

def LockMode.asStr : LockMode → String
  | .exclusive => "exclusive"
  | .shared => "shared"
  | .none => "none"

def LockMode.fromValue : Value → Option LockMode :=
  unitVariant [("exclusive", .exclusive), ("shared", .shared), ("none", .none)]

def PermissionRequestStatus.asStr : PermissionRequestStatus → String
  | .pending => "pending"
  | .approved => "approved"
  | .denied => "denied"

def PermissionRequestStatus.fromValue : Value → Option PermissionRequestStatus :=
  unitVariant [("pending", .pending), ("approved", .approved), ("denied", .denied)]

@[simp] theorem DirectoryCapability.fromValue_asStr (c : DirectoryCapability) :
    fromValue (.string c.asStr) = some c := by
  cases c <;> rfl

@[simp] theorem WorkspaceMode.fromValue_asStr (mode : WorkspaceMode) :
    fromValue (.string mode.asStr) = some mode := by
  cases mode <;> rfl

@[simp] theorem DirectoryLockPolicy.fromValue_asStr (policy : DirectoryLockPolicy) :
    fromValue (.string policy.asStr) = some policy := by
  cases policy <;> rfl

@[simp] theorem AgentWorkspaceMode.fromValue_asStr (mode : AgentWorkspaceMode) :
    fromValue (.string mode.asStr) = some mode := by
  cases mode <;> rfl

@[simp] theorem TaskStatus.fromValue_asStr (status : TaskStatus) :
    fromValue (.string status.asStr) = some status := by
  cases status <;> rfl

@[simp] theorem TaskEventType.fromValue_asStr (eventType : TaskEventType) :
    fromValue (.string eventType.asStr) = some eventType := by
  cases eventType <;> rfl

@[simp] theorem LockMode.fromValue_asStr (mode : LockMode) :
    fromValue (.string mode.asStr) = some mode := by
  cases mode <;> rfl

@[simp] theorem PermissionRequestStatus.fromValue_asStr (status : PermissionRequestStatus) :
    fromValue (.string status.asStr) = some status := by
  cases status <;> rfl

@[simp] theorem PermissionDecision.fromValue_asStr (decision : PermissionDecision) :
    fromValue (.string decision.asStr) = some decision := by
  cases decision <;> rfl

end Variants

section Lists
variable {α : Type} {f : α → Value} {g : Value → Option α} {items : List α}

def listValue (f : α → Value) (items : List α) : Value := .array (items.map f)

def listFromValue (g : Value → Option α) : Value → Option (List α)
  | .array items => items.mapM g
  | _ => none

theorem listFromValue_listValue (h : ∀ a ∈ items, g (f a) = some a) :
    listFromValue g (listValue f items) = some items :=
  mapM_encoded h

theorem exact_listValue (h : ∀ a ∈ items, Exact (f a)) : Exact (listValue f items) := by
  refine .array fun v hv => ?_
  obtain ⟨a, ha, rfl⟩ := List.mem_map.mp hv
  exact h a ha

theorem depth_strings (f : α → String) (items : List α) :
    Value.depthOfItems (items.map fun a => .string (f a)) = 0 := by
  induction items with
  | nil => rfl
  | cons a items ih => rw [List.map_cons, Value.depthOfItems, ih]; rfl

@[simp] theorem depth_stringItems (items : List String) :
    Value.depthOfItems (items.map .string) = 0 := depth_strings id items

theorem depth_optional {o : Option Value} {n : ℕ} (hn : 0 < n) :
    (Value.ofOption id o).depth < n ↔ ∀ v ∈ o, v.depth < n := by
  cases o with
  | none => exact ⟨fun _ v hv => (by cases hv), fun _ => hn⟩
  | some v => exact ⟨fun h w hw => Option.some.inj hw ▸ h, fun h => h v rfl⟩

@[simp] theorem depth_optionalString (o : Option String) :
    (Value.ofOption .string o).depth = 0 := by
  cases o <;> rfl

theorem storable_string (s : String) : Storable (.string s) := ⟨.string s, rfl⟩

theorem storable_strings (asStr : α → String) (items : List α) :
    Storable (listValue (fun a => .string (asStr a)) items) := by
  refine ⟨exact_listValue fun a _ => .string (asStr a), Value.readable_iff.mpr ?_⟩
  rw [listValue, Value.depth, depth_strings]
  decide

theorem exact_ofOption {o : Option α} (h : ∀ a ∈ o, Exact (f a)) : Exact (Value.ofOption f o) := by
  cases o with
  | none => exact .null
  | some a => exact h a rfl

theorem optionalField_ofOption {o : Option α}
    (h : ∀ a ∈ o, g (f a) = some a ∧ f a ≠ .null) :
    optionalField g (some (Value.ofOption f o)) = some o := by
  cases o with
  | none => rfl
  | some a =>
    obtain ⟨hread, hne⟩ := h a rfl
    simp only [Value.ofOption]
    rw [optionalField.eq_3 _ _ hne, hread]
    rfl

end Lists

section Structs

/-- An optional JSON value that is read back from a field; `null` would be read as none. -/
def Kept (o : Option Value) : Prop := ∀ v ∈ o, Exact v ∧ v ≠ .null

theorem kept_none : Kept none := fun _ hv => by cases hv

theorem optionalField_kept {o : Option Value} (h : Kept o) :
    optionalField some (some (Value.ofOption id o)) = some o :=
  optionalField_ofOption fun v hv => ⟨rfl, (h v hv).2⟩

theorem exact_kept {o : Option Value} (h : Kept o) : Exact (Value.ofOption id o) :=
  exact_ofOption fun v hv => (h v hv).1

theorem optionalField_string (o : Option String) :
    optionalField Value.asStr (some (Value.ofOption .string o)) = some o :=
  optionalField_ofOption fun _ _ => ⟨rfl, nofun⟩

theorem exact_optionalString (o : Option String) : Exact (Value.ofOption .string o) :=
  exact_ofOption fun s _ => .string s

theorem stringList_listValue (items : List String) :
    stringList (listValue .string items) = some items :=
  mapM_encoded fun _ _ => rfl

theorem exact_strings (items : List String) : Exact (listValue .string items) :=
  exact_listValue fun s _ => .string s

def TaskResult.toValue (result : TaskResult) : Value :=
  .object [("task_id", .string result.taskId),
    ("status", .string result.status.asStr),
    ("final_message", .string result.finalMessage),
    ("changed_files", listValue .string result.changedFiles),
    ("diff", Value.ofOption .string result.diff),
    ("workspace_mode", .string result.workspaceMode.asStr),
    ("worktree_path", Value.ofOption .string result.worktreePath),
    ("source_directory_id", .string result.sourceDirectoryId),
    ("branch_name", Value.ofOption .string result.branchName),
    ("commit_hash", Value.ofOption .string result.commitHash),
    ("session_id", Value.ofOption .string result.sessionId),
    ("provider_result", Value.ofOption id result.providerResult),
    ("usage", Value.ofOption id result.usage),
    ("artifacts", listValue id result.artifacts),
    ("error", Value.ofOption .string result.error),
    ("created_at", .string result.createdAt),
    ("updated_at", .string result.updatedAt)]

def TaskResult.fieldNames : List String :=
  ["task_id", "status", "final_message", "changed_files", "diff", "workspace_mode",
    "worktree_path", "source_directory_id", "branch_name", "commit_hash", "session_id",
    "provider_result", "usage", "artifacts", "error", "created_at", "updated_at"]

def TaskResult.fromValue (value : Value) : Option TaskResult :=
  match value.structFields fieldNames with
  | some [taskId, status, finalMessage, changedFiles, diff, workspaceMode, worktreePath,
      sourceDirectoryId, branchName, commitHash, sessionId, providerResult, usage, artifacts,
      error, createdAt, updatedAt] => do
    return {
      taskId := ← taskId.bind Value.asStr
      status := ← status.bind TaskStatus.fromValue
      finalMessage := ← finalMessage.bind Value.asStr
      changedFiles := ← changedFiles.bind stringList
      diff := ← optionalField Value.asStr diff
      workspaceMode := ← workspaceMode.bind WorkspaceMode.fromValue
      worktreePath := ← optionalField Value.asStr worktreePath
      sourceDirectoryId := ← sourceDirectoryId.bind Value.asStr
      branchName := ← optionalField Value.asStr branchName
      commitHash := ← optionalField Value.asStr commitHash
      sessionId := ← optionalField Value.asStr sessionId
      providerResult := ← optionalField some providerResult
      usage := ← optionalField some usage
      artifacts := ← artifacts.bind (listFromValue some)
      error := ← optionalField Value.asStr error
      createdAt := ← createdAt.bind Value.asStr
      updatedAt := ← updatedAt.bind Value.asStr }
  | _ => none

theorem TaskResult.readable_iff {result : TaskResult} : result.toValue.readable = true ↔
    (∀ v ∈ result.providerResult, v.depth < Value.recursionLimit - 1) ∧
      (∀ v ∈ result.usage, v.depth < Value.recursionLimit - 1) ∧
      ∀ v ∈ result.artifacts, v.depth < Value.recursionLimit - 2 := by
  have hartifacts : Value.depthOfItems result.artifacts + 1 < 127 ↔
      ∀ v ∈ result.artifacts, v.depth < 126 :=
    Nat.succ_lt_succ_iff.trans (Value.depthOfItems_lt (by decide))
  rw [TaskResult.toValue, Value.readable_object]
  simp [Value.depth, Value.recursionLimit, listValue, depth_optional, hartifacts]

structure TaskResult.Exact (result : TaskResult) : Prop where
  providerResult : Kept result.providerResult
  usage : Kept result.usage
  artifacts : ∀ v ∈ result.artifacts, JsonText.Exact v
  readable : result.toValue.readable

theorem TaskResult.fromValue_toValue {result : TaskResult} (h : result.Exact) :
    fromValue result.toValue = some result := by
  have hfields : result.toValue.structFields fieldNames = some
      [some (.string result.taskId), some (.string result.status.asStr),
        some (.string result.finalMessage), some (listValue .string result.changedFiles),
        some (Value.ofOption .string result.diff), some (.string result.workspaceMode.asStr),
        some (Value.ofOption .string result.worktreePath),
        some (.string result.sourceDirectoryId), some (Value.ofOption .string result.branchName),
        some (Value.ofOption .string result.commitHash),
        some (Value.ofOption .string result.sessionId),
        some (Value.ofOption id result.providerResult), some (Value.ofOption id result.usage),
        some (listValue id result.artifacts), some (Value.ofOption .string result.error),
        some (.string result.createdAt), some (.string result.updatedAt)] := rfl
  have hartifacts : listFromValue some (listValue id result.artifacts) = some result.artifacts :=
    listFromValue_listValue fun _ _ => rfl
  simp only [fromValue, hfields, Option.bind_some, Value.asStr, TaskStatus.fromValue_asStr,
    WorkspaceMode.fromValue_asStr, stringList_listValue, optionalField_string,
    optionalField_kept h.providerResult, optionalField_kept h.usage, hartifacts,
    Option.bind_eq_bind, Option.pure_def]

theorem TaskResult.storable_toValue {result : TaskResult} (h : result.Exact) :
    Storable result.toValue := by
  have hnames : fieldNames.Nodup := by decide
  refine ⟨.object ?_ hnames, h.readable⟩
  simp only [List.forall_mem_cons]
  exact ⟨.string _, .string _, .string _, exact_strings _, exact_optionalString _, .string _,
    exact_optionalString _, .string _, exact_optionalString _, exact_optionalString _,
    exact_optionalString _, exact_kept h.providerResult, exact_kept h.usage,
    exact_listValue h.artifacts, exact_optionalString _, .string _, .string _, by simp⟩

def PermissionRequestEvent.fieldNames : List String :=
  ["request_id", "provider_id", "permission_kind", "summary", "details", "options", "expires_at"]

def PermissionRequestEvent.fromValue (value : Value) : Option PermissionRequestEvent :=
  match value.structFields fieldNames with
  | some [requestId, providerId, permissionKind, summary, details, options, expiresAt] => do
    return {
      requestId := ← requestId.bind Value.asStr
      providerId := ← providerId.bind Value.asStr
      permissionKind := ← permissionKind.bind Value.asStr
      summary := ← summary.bind Value.asStr
      details := ← optionalField some details
      options := ← options.bind (listFromValue PermissionDecision.fromValue)
      expiresAt := ← optionalField Value.asStr expiresAt }
  | _ => none

structure PermissionRequestEvent.Exact (request : PermissionRequestEvent) : Prop where
  details : Kept request.details
  readable : request.toValue.readable

theorem PermissionRequestEvent.fromValue_toValue {request : PermissionRequestEvent}
    (h : request.Exact) : fromValue request.toValue = some request := by
  have hdetails : request.details.getD .null = Value.ofOption id request.details := by
    cases request.details <;> rfl
  have hoptions : listFromValue PermissionDecision.fromValue
      (.array (request.options.map fun d => .string d.asStr)) = some request.options :=
    listFromValue_listValue fun d _ => PermissionDecision.fromValue_asStr d
  have hfields : request.toValue.structFields fieldNames = some
      [some (.string request.requestId), some (.string request.providerId),
        some (.string request.permissionKind), some (.string request.summary),
        some (request.details.getD .null),
        some (.array (request.options.map fun d => .string d.asStr)),
        some (Value.ofOption .string request.expiresAt)] := rfl
  simp only [fromValue, hfields, hdetails, Option.bind_some, Value.asStr,
    optionalField_kept h.details, hoptions, optionalField_string, Option.bind_eq_bind, Option.pure_def]

theorem PermissionRequestEvent.storable_toValue {request : PermissionRequestEvent}
    (h : request.Exact) : Storable request.toValue := by
  have hdetails : JsonText.Exact (request.details.getD .null) := by
    cases hd : request.details with
    | none => exact .null
    | some v => exact (h.details v hd).1
  have hnames : fieldNames.Nodup := by decide
  refine ⟨.object ?_ hnames, h.readable⟩
  simp only [List.forall_mem_cons]
  exact ⟨.string _, .string _, .string _, .string _, hdetails,
    exact_listValue fun d _ => .string d.asStr, exact_optionalString _, by simp⟩

theorem readable_decision (response : PermissionDecisionEvent) : response.toValue.readable := by
  obtain ⟨requestId, decision, reason⟩ := response
  cases reason <;> rfl

theorem PermissionDecisionEvent.storable_toValue (response : PermissionDecisionEvent) :
    Storable response.toValue := by
  have hnames : ["request_id", "decision", "reason"].Nodup := by decide
  refine ⟨.object ?_ hnames, readable_decision response⟩
  simp only [List.forall_mem_cons]
  exact ⟨.string _, .string _, exact_optionalString _, by simp⟩

def ExecutionPolicy.toValue (policy : ExecutionPolicy) : Value :=
  .object [("default_workspace_mode", .string policy.defaultWorkspaceMode.asStr),
    ("allow_direct_directory", .bool policy.allowDirectDirectory)]

theorem ExecutionPolicy.fromValue_toValue (policy : ExecutionPolicy) :
    fromValue policy.toValue = some policy := by
  obtain ⟨mode, allow⟩ := policy
  cases mode <;> rfl

theorem ExecutionPolicy.storable_toValue (policy : ExecutionPolicy) :
    Storable policy.toValue := by
  have hnames : fieldNames.Nodup := by decide
  refine ⟨.object ?_ hnames, rfl⟩
  simp only [List.forall_mem_cons]
  exact ⟨.string _, .bool _, by simp⟩

def ProviderConfig.toValue (config : ProviderConfig) : Value :=
  .object [("custom_args", listValue .string config.customArgs),
    ("custom_env_keys", listValue .string config.customEnvKeys),
    ("mcp_config", Value.ofOption id config.mcpConfig),
    ("permission_mode", .string config.permissionMode)]

structure ProviderConfig.Exact (config : ProviderConfig) : Prop where
  mcpConfig : Kept config.mcpConfig
  readable : config.toValue.readable

theorem ProviderConfig.fromValue_toValue {config : ProviderConfig} (h : config.Exact) :
    fromValue config.toValue = some config := by
  have hfields : config.toValue.defaultedFields fieldNames = some
      [some (listValue .string config.customArgs), some (listValue .string config.customEnvKeys),
        some (Value.ofOption id config.mcpConfig), some (.string config.permissionMode)] := rfl
  have hmcp : optionOf some (Value.ofOption id config.mcpConfig) = some config.mcpConfig :=
    optionalField_kept h.mcpConfig
  simp only [fromValue, hfields, defaultedField, stringList_listValue, hmcp, Value.asStr,
    Option.bind_eq_bind, Option.bind_some, Option.pure_def]

theorem ProviderConfig.storable_toValue {config : ProviderConfig} (h : config.Exact) :
    Storable config.toValue := by
  have hnames : fieldNames.Nodup := by decide
  refine ⟨.object ?_ hnames, h.readable⟩
  simp only [List.forall_mem_cons]
  exact ⟨exact_strings _, exact_strings _, exact_kept h.mcpConfig, .string _, by simp⟩

end Structs

end OpenDaemon
