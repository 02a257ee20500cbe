import OpenDaemon.LockOwnership
import OpenDaemon.TaskIntake

/-!
# The gate of remote execution

A remote provider is meant to be used only with a grant that allows it and, for
products, under the scope `tasks:remote_execution`. The handler consults the
registry only when the body names a provider, and `enqueue_task` asks the grant
only when the metadata carries the handler's mark. Which requests are gated in
every registry and every store is therefore decided by the request alone.
-/

namespace OpenDaemon

open RowTable Store

def Reads (registry : ProviderRegistry) (inputs : ℕ → ServiceStep.Input) : Prop :=
  ∀ n, (inputs n).registry = some registry

/-- In every registry and every store: if the call creates a task of a remote provider, its
grant allows remote execution and the caller is permitted to ask for it. -/
def RemoteGated {ε : Type} (call : ServiceCall ε Task) (directoryId : String)
    (permitted : Prop) : Prop :=
  ∀ (registry : ProviderRegistry) (s : StoreState) (inputs : ℕ → ServiceStep.Input) (task : Task),
    Reads registry inputs → (runService call inputs s.store).1 = .ok task →
    s.store.findTask task.id = none → registry.isHttp task.providerId →
    (∃ grant, s.store.findGrant directoryId = some grant ∧ grant.allowRemoteExecution) ∧ permitted

/-- The token may not create tasks for that owner, or the body is not a valid task. -/
def RefusedOutright (auth : ProductAuth) (request : CreateTaskRequest) : Prop :=
  .tasksCreate ∉ auth.scopes ∨ auth.productId ≠ request.ownerProductId ∨
    request.into.validate ≠ .ok ()

section Calls
variable {s : Store} {inputs : ℕ → ServiceStep.Input} {registry : ProviderRegistry}

theorem runService_mapError {ε ε' α : Type} (g : ε → ε') (c : ServiceCall ε α) :
    runService (c.mapError g) inputs s =
      ((runService c inputs s).1.mapError g, (runService c inputs s).2) := by
  simp only [runService, Call.run_mapError]

def markedFor (registry : ProviderRegistry) (request : CreateTaskRequest) : CreateTaskRequest :=
  if request.providerId.any registry.isHttp then TasksApi.markRemoteExecutionApproved request
  else request

theorem runService_requestsRemoteExecution {β : Type} (hreads : Reads registry inputs)
    (request : CreateTaskRequest) (f : Bool → ServiceCall ApiError β) :
    runService (TasksApi.requestsRemoteExecution request >>= f) inputs s =
      runService (f (request.providerId.any registry.isHttp))
        (if request.providerId.isSome then later inputs else inputs) s := by
  cases hp : request.providerId with
  | none =>
    simp only [TasksApi.requestsRemoteExecution, hp]
    rfl
  | some providerId =>
    simp only [TasksApi.requestsRemoteExecution, hp, Call.step_bind, runService_step,
      ServiceStep.exec, hreads 0]
    rfl

theorem requireScope_ok_iff {auth : ProductAuth} {scope : ApiScope} {u : Unit} :
    auth.requireScope scope = .ok u ↔ scope ∈ auth.scopes := by
  by_cases hscope : scope ∈ auth.scopes
  · simp [ProductAuth.requireScope, hscope]
  · simp [ProductAuth.requireScope, hscope]

theorem ensureProduct_ok_iff {auth : ProductAuth} {productId : String} {u : Unit} :
    auth.ensureProduct productId = .ok u ↔ auth.productId = productId := by
  by_cases hproduct : auth.productId = productId
  · simp [ProductAuth.ensureProduct, hproduct]
  · simp [ProductAuth.ensureProduct, hproduct]

theorem runService_ofExcept_ok_iff {ε α β : Type} {r : Except ε α} {f : α → ServiceCall ε β}
    {b : β} : (runService (Call.ofExcept r >>= f) inputs s).1 = .ok b ↔
      ∃ a, r = .ok a ∧ (runService (f a) inputs s).1 = .ok b := by
  rw [runService_ofExcept]
  cases r with
  | ok a => simp
  | error e => simp

theorem create_ok_iff (hreads : Reads registry inputs) (auth : ProductAuth)
    (request : CreateTaskRequest) (task : Task) :
    (runService (TasksApi.create auth request) inputs s).1 = .ok task ↔
      .tasksCreate ∈ auth.scopes ∧ auth.productId = request.ownerProductId ∧
      (request.providerId.any registry.isHttp → .tasksRemoteExecution ∈ auth.scopes) ∧
      (runService (SchedulerService.enqueueTask (markedFor registry request).into)
        (if request.providerId.isSome then later inputs else inputs) s).1 = .ok task := by
  simp only [TasksApi.create, runService_ofExcept_ok_iff, Call.mapError_eq_ok, requireScope_ok_iff,
    ensureProduct_ok_iff, exists_const, runService_requestsRemoteExecution hreads, markedFor]
  by_cases hremote : request.providerId.any registry.isHttp
  · simp only [hremote, if_true, runService_ofExcept_ok_iff, runService_mapError,
      Call.mapError_eq_ok, requireScope_ok_iff, exists_const, true_implies]
  · simp [hremote, runService_mapError, Call.mapError_eq_ok]

end Calls

section Mark
variable {request : CreateTaskRequest}

theorem isObject_of_validate {input : CreateTask} (h : input.validate = .ok ()) {metadata : Value}
    (hm : input.metadata = some metadata) : metadata.isObject := by
  simp only [CreateTask.validate, Call.ite_error_eq_ok, hm] at h
  simpa using h.2.2.2.1

theorem mark_eq (request : CreateTaskRequest) : ∃ metadata : Value,
    TasksApi.markRemoteExecutionApproved request = { request with metadata := some metadata } ∧
    metadata.isObject = (request.metadata.getD .emptyObject).isObject := by
  unfold TasksApi.markRemoteExecutionApproved
  split
  · rename_i entries hentries
    exact ⟨_, rfl, by rw [hentries]; rfl⟩
  · exact ⟨_, rfl, rfl⟩

theorem validate_mark_ok_iff (request : CreateTaskRequest) :
    (TasksApi.markRemoteExecutionApproved request).into.validate = .ok () ↔
      request.into.validate = .ok () := by
  obtain ⟨metadata, hmark, hobject⟩ := mark_eq request
  have hnone : (!(request.metadata.getD .emptyObject).isObject) =
      request.metadata.any fun metadata => !metadata.isObject := by
    cases request.metadata with
    | none => rfl
    | some metadata => rfl
  rw [hmark]
  simp only [CreateTask.validate, Call.ite_error_eq_ok]
  simp only [CreateTaskRequest.into, CreateTask.normalizedCapabilities, Option.any_some, hobject,
    hnone]

theorem validate_markedFor_ok_iff (registry : ProviderRegistry) (request : CreateTaskRequest) :
    (markedFor registry request).into.validate = .ok () ↔ request.into.validate = .ok () := by
  unfold markedFor
  split
  · exact validate_mark_ok_iff request
  · rfl

theorem markedFor_eq (registry : ProviderRegistry) (request : CreateTaskRequest) :
    ∃ metadata, markedFor registry request = { request with metadata := metadata } := by
  unfold markedFor
  split
  · obtain ⟨metadata, hmark, -⟩ := mark_eq request
    exact ⟨_, hmark⟩
  · exact ⟨_, rfl⟩

theorem approvalMarked_mark (h : request.into.validate = .ok ()) :
    approvalMarked (TasksApi.markRemoteExecutionApproved request).metadata := by
  have hobject : ∃ entries, request.metadata.getD .emptyObject = .object entries := by
    cases hm : request.metadata with
    | none => exact ⟨[], rfl⟩
    | some metadata =>
      have hobject := isObject_of_validate h hm
      cases metadata with
      | object entries => exact ⟨entries, rfl⟩
      | _ => cases hobject
  obtain ⟨entries, hentries⟩ := hobject
  simp only [TasksApi.markRemoteExecutionApproved, hentries, approvalMarked, Option.bind_some,
    Value.get?_insertEntry]
  rfl

theorem approvalMarked_markedFor (registry : ProviderRegistry)
    (h : request.into.validate = .ok ())
    (hmark : request.providerId.any registry.isHttp ∨ approvalMarked request.metadata) :
    approvalMarked (markedFor registry request).metadata := by
  by_cases hany : request.providerId.any registry.isHttp = true
  · rw [markedFor, if_pos hany]
    exact approvalMarked_mark h
  · rw [markedFor, if_neg hany]
    exact hmark.resolve_left hany

end Mark

section Gate
variable {s : Store} {registry : ProviderRegistry} {grant : DirectoryGrant} {profile : AgentProfile}
  {auth : ProductAuth} {request : CreateTaskRequest}

theorem Admissible.allowsRemote {input : CreateTask} (h : Admissible s input grant profile)
    (hmarked : approvalMarked input.metadata) : grant.allowRemoteExecution := by
  obtain ⟨-, -, -, -, hremote⟩ := (DirectoryGrant.authorize_ok_iff _ _).mp h.directoryAccepts
  exact hremote hmarked

theorem Admissible.named_provider {input : CreateTask} (h : Admissible s input grant profile)
    {providerId : String} (hp : input.providerId = some providerId) :
    providerId = profile.providerId := by
  obtain ⟨-, hprovider, -⟩ := check_ok_iff.mp
    ((runAlone_authorizeProfile_ok_iff h.agent).mp (h.agentAccepts ""))
  exact hprovider providerId hp

theorem remoteGated_create (h : RefusedOutright auth request ∨ request.providerId.isSome ∨
      (.tasksRemoteExecution ∈ auth.scopes ∧ approvalMarked request.metadata)) :
    RemoteGated (TasksApi.create auth request) request.directoryId
      (.tasksRemoteExecution ∈ auth.scopes) := by
  intro registry s inputs task hreads hok _ hhttp
  obtain ⟨hcreate, hproduct, hscope, henqueue⟩ := (create_ok_iff hreads auth request task).mp hok
  obtain ⟨grant, profile, hadm, rfl⟩ := (enqueueTask_eq_ok_iff s.wellFormed).mp henqueue
  obtain ⟨metadata, hmarkedFor⟩ := markedFor_eq registry request
  have hnamed : s.store.findGrant request.directoryId = some grant := by
    have hdirectory := hadm.named
    rw [hmarkedFor] at hdirectory
    exact hdirectory
  have hvalid := (validate_markedFor_ok_iff registry request).mp hadm.valid
  rcases h with hrefused | hprovider | ⟨hheld, hmarked⟩
  · rcases hrefused with hno | hno | hno
    · exact absurd hcreate hno
    · exact absurd hproduct hno
    · exact absurd hvalid hno
  · obtain ⟨providerId, hp⟩ := Option.isSome_iff_exists.mp hprovider
    have hsame : providerId = profile.providerId := by
      refine hadm.named_provider ?_
      rw [hmarkedFor]
      exact hp
    have hany : request.providerId.any registry.isHttp = true := by
      rw [hp, Option.any_some, hsame]
      exact hhttp
    have hmarked := approvalMarked_markedFor registry hvalid (.inl hany)
    exact ⟨⟨grant, hnamed, hadm.allowsRemote hmarked⟩, hscope hany⟩
  · have hmarked' := approvalMarked_markedFor registry hvalid (.inr hmarked)
    exact ⟨⟨grant, hnamed, hadm.allowsRemote hmarked'⟩, hheld⟩

def coveringGrant (input : CreateTask) : DirectoryGrant where
  id := input.directoryId
  productId := input.ownerProductId
  agentId := input.agentId
  path := "/srv/repo"
  capabilities := input.normalizedCapabilities
  workspaceModes := [.worktree, .direct]
  defaultWorkspaceMode := .worktree
  lockPolicy := .exclusive
  directModeRequiresExplicitTaskOptIn := false
  allowRemoteExecution := approvalMarked input.metadata
  createdAt := "t0"
  updatedAt := "t0"

def remoteProfile (input : CreateTask) : AgentProfile where
  id := input.agentId
  name := "Remote"
  ownerProductId := input.ownerProductId
  providerId := "remote"
  model := input.model.getD "default"
  instructions := none
  executionPolicy := ⟨.worktree, true⟩
  providerConfig := ⟨[], [], none, input.permissionMode.getD defaultPermissionMode⟩
  createdAt := "t0"
  updatedAt := "t0"

def remoteStore (input : CreateTask) : StoreState where
  store := { Store.empty with
    grants := [⟨1, coveringGrant input⟩], profiles := [remoteProfile input] }
  wellFormed := wellFormed_of_same wellFormed_empty rfl rfl

def remoteRegistry : ProviderRegistry :=
  ⟨[⟨"remote", .http, ⟨"default", ["default"]⟩, ⟨[defaultPermissionMode]⟩⟩]⟩

def remoteInput : ServiceStep.Input :=
  { sampleInput "t1" with registry := some remoteRegistry }

theorem findGrant_remoteStore (input : CreateTask) :
    (remoteStore input).store.findGrant input.directoryId = some (coveringGrant input) := by
  simp [remoteStore, findGrant, lookup, coveringGrant]

theorem eq_getD {requested : Option String} {default : String} :
    ∀ value ∈ requested, value = requested.getD default := by
  intro value hvalue
  rw [hvalue]
  rfl

theorem admissible_remoteStore {input : CreateTask} (hvalid : input.validate = .ok ())
    (hnone : input.providerId = none) : Admissible (remoteStore input).store input
      (coveringGrant input) (remoteProfile input) := by
  have hprofile : (remoteStore input).store.findProfile input.agentId =
      some (remoteProfile input) := by
    simp [remoteStore, findProfile, remoteProfile]
  refine ⟨hvalid, findGrant_remoteStore input, hprofile, fun now => ?_, ?_⟩
  · refine (runAlone_authorizeProfile_ok_iff hprofile).mpr (check_ok_iff.mpr
      ⟨rfl, ?_, eq_getD, eq_getD, fun _ => rfl⟩)
    simp [CreateTask.agentRequest, hnone]
  · have hmode : ∀ mode : WorkspaceMode, mode ∈ [WorkspaceMode.worktree, .direct] := by
      intro mode
      cases mode <;> decide
    refine (DirectoryGrant.authorize_ok_iff _ _).mpr
      ⟨⟨rfl, rfl, rfl⟩, fun c hc => hc, hmode _, fun _ hrequired => ?_, fun hmarked => hmarked⟩
    cases hrequired

theorem enqueue_remoteStore {input : CreateTask} (hvalid : input.validate = .ok ())
    (hnone : input.providerId = none) : ∃ task,
    (runService (SchedulerService.enqueueTask input) (fun _ => remoteInput)
      (remoteStore input).store).1 = .ok task ∧ task.providerId = "remote" :=
  ⟨_, (enqueueTask_eq_ok_iff (remoteStore input).wellFormed).mpr
    ⟨_, _, admissible_remoteStore hvalid hnone, rfl⟩, rfl⟩

theorem reads_remoteInput : Reads remoteRegistry fun _ => remoteInput := fun _ => rfl

theorem approved_of_remoteGated_create (hallowed : ¬ RefusedOutright auth request)
    (hnone : request.providerId = none)
    (h : RemoteGated (TasksApi.create auth request) request.directoryId
      (.tasksRemoteExecution ∈ auth.scopes)) :
    .tasksRemoteExecution ∈ auth.scopes ∧ approvalMarked request.metadata := by
  simp only [RefusedOutright, not_or, not_not] at hallowed
  obtain ⟨hcreate, hproduct, hvalid⟩ := hallowed
  -- the registry is not consulted, so the store built for the input admits the request
  obtain ⟨task, htask, hprovider⟩ := enqueue_remoteStore hvalid hnone
  have hok : (runService (TasksApi.create auth request) (fun _ => remoteInput)
      (remoteStore request.into).store).1 = .ok task := by
    refine (create_ok_iff reads_remoteInput auth request task).mpr ⟨hcreate, hproduct, ?_, ?_⟩
    · simp [hnone]
    · simpa [markedFor, hnone] using htask
  have hhttp : remoteRegistry.isHttp task.providerId := by
    rw [hprovider]
    decide
  obtain ⟨⟨grant, hgrant, hallows⟩, hheld⟩ :=
    h remoteRegistry (remoteStore request.into) _ task reads_remoteInput hok rfl hhttp
  obtain rfl := Option.some.inj ((findGrant_remoteStore request.into).symm.trans hgrant)
  exact ⟨hheld, hallows⟩

end Gate

section Dispatch
variable {s : Store} {inputs : ℕ → ServiceStep.Input} {remoteTask : RemoteDispatchTask}
  {input : CreateTask} {task : Task}

open ControlPlaneDispatchService

theorem runService_ingest (remoteTask : RemoteDispatchTask) :
    (runService (ingest remoteTask) inputs s).1 =
      match ((s.tasks.map Row.value).filter (TaskFilters.matches ⟨none, none, none, none⟩)).find?
        fun task => remoteTaskIdOf task = some remoteTask.remoteTaskId with
      | some task => .ok task
      | none => (runService (Call.ofExcept (toCreateTask remoteTask) >>= fun input =>
          (SchedulerService.enqueueTask input).mapError .task) (later inputs) s).1 := by
  simp only [ingest, findByRemoteTaskId, SchedulerService.tasks, Call.mapError, Call.step_bind,
    runService_step, ServiceStep.exec, TaskOp.program, runAlone_list, Call.ret_bind, Call.pure_eq]
  generalize List.find? _ _ = existing
  cases existing with
  | none => rfl
  | some task => rfl

theorem ingest_created (hs : s.WellFormed)
    (hok : (runService (ingest remoteTask) inputs s).1 = .ok task)
    (hfresh : s.findTask task.id = none) : ∃ input, toCreateTask remoteTask = .ok input ∧
      (runService (SchedulerService.enqueueTask input) (later inputs) s).1 = .ok task := by
  rw [runService_ingest] at hok
  split at hok
  · rename_i existing hfind
    obtain rfl := Except.ok.inj hok
    obtain ⟨hmem, -⟩ := List.mem_filter.mp (List.mem_of_find?_eq_some hfind)
    obtain ⟨r, hr, rfl⟩ := List.mem_map.mp hmem
    rw [hs.mem_findTask hr] at hfresh
    cases hfresh
  · obtain ⟨input, hinput, henqueue⟩ := runService_ofExcept_ok_iff.mp hok
    rw [runService_mapError, Call.mapError_eq_ok] at henqueue
    exact ⟨input, hinput, henqueue⟩

theorem toCreateTask_eq (h : toCreateTask remoteTask = .ok input) :
    input.directoryId = remoteTask.directoryId ∧ input.providerId = none ∧
    input.metadata = some (dispatchMetadata remoteTask) := by
  simp only [toCreateTask, Call.bind_eq_ok] at h
  obtain ⟨_, -, _, -, hinput⟩ := h
  obtain rfl := Except.ok.inj hinput
  exact ⟨rfl, rfl, rfl⟩

theorem approvalMarked_dispatchMetadata (remoteTask : RemoteDispatchTask) :
    approvalMarked (some (dispatchMetadata remoteTask)) = false := rfl

theorem remoteGated_ingest_iff (remoteTask : RemoteDispatchTask) :
    RemoteGated (ingest remoteTask) remoteTask.directoryId True ↔
      ∀ input, toCreateTask remoteTask = .ok input → input.validate ≠ .ok () := by
  constructor
  · intro h input hinput hvalid
    obtain ⟨hdirectory, hnone, hmetadata⟩ := toCreateTask_eq hinput
    obtain ⟨task, htask, hprovider⟩ := enqueue_remoteStore hvalid hnone
    have hok : (runService (ingest remoteTask) (fun _ => remoteInput)
        (remoteStore input).store).1 = .ok task := by
      rw [runService_ingest]
      refine runService_ofExcept_ok_iff.mpr ⟨input, hinput, ?_⟩
      rw [runService_mapError, Call.mapError_eq_ok]
      exact htask
    have hhttp : remoteRegistry.isHttp task.providerId := by
      rw [hprovider]
      decide
    obtain ⟨⟨grant, hgrant, hallows⟩, -⟩ :=
      h remoteRegistry (remoteStore input) _ task reads_remoteInput hok rfl hhttp
    rw [← hdirectory] at hgrant
    obtain rfl := Option.some.inj ((findGrant_remoteStore input).symm.trans hgrant)
    have hmarked : approvalMarked input.metadata = true := hallows
    rw [hmetadata, approvalMarked_dispatchMetadata] at hmarked
    cases hmarked
  · intro h registry s inputs task _ hok hfresh _
    obtain ⟨input, hinput, henqueue⟩ := ingest_created s.wellFormed hok hfresh
    obtain ⟨grant, profile, hadm, -⟩ := (enqueueTask_eq_ok_iff s.wellFormed).mp henqueue
    exact absurd hadm.valid (h input hinput)

end Dispatch

/-- Which requests and which dispatches are gated in every registry and every store. -/
theorem remote_execution_gate_iff (auth : ProductAuth) (request : CreateTaskRequest)
    (remoteTask : RemoteDispatchTask) :
    (RemoteGated (TasksApi.create auth request) request.directoryId
        (.tasksRemoteExecution ∈ auth.scopes) ↔
      RefusedOutright auth request ∨ request.providerId.isSome ∨
        (.tasksRemoteExecution ∈ auth.scopes ∧ approvalMarked request.metadata)) ∧
    (RemoteGated (ControlPlaneDispatchService.ingest remoteTask) remoteTask.directoryId True ↔
      ∀ input, ControlPlaneDispatchService.toCreateTask remoteTask = .ok input →
        input.validate ≠ .ok ()) := by
  refine ⟨⟨fun h => ?_, remoteGated_create⟩, remoteGated_ingest_iff remoteTask⟩
  by_cases hrefused : RefusedOutright auth request
  · exact .inl hrefused
  · cases hp : request.providerId with
    | none => exact .inr (.inr (approved_of_remoteGated_create hrefused hp h))
    | some providerId => exact .inr (.inl rfl)

def omittedProvider : CreateTaskRequest where
  ownerProductId := "acme"
  agentId := "reviewer"
  directoryId := "dir_1"
  prompt := "fix the build"
  requiredCapabilities := some [.read, .write]
  workspaceMode := some .worktree
  metadata := none
  providerId := none
  model := none
  permissionMode := none
  timeoutSeconds := none

def sampleAuth : ProductAuth := ⟨"acme", [.tasksCreate]⟩

def remoteCodex : ProviderRegistry :=
  ⟨[⟨"codex", .http, ⟨"default", ["default"]⟩, ⟨["provider_default"]⟩⟩]⟩

/-- The task is created although neither the grant nor the token allows remote execution. -/
theorem omittedProvider_not_gated :
    (∃ task, (runService (TasksApi.create sampleAuth omittedProvider)
        (fun _ => { sampleInput "t1" with registry := some remoteCodex }) sampleStore.store).1 =
          .ok task ∧ remoteCodex.isHttp task.providerId) ∧
    sampleStore.store.findGrant omittedProvider.directoryId = some sampleGrant ∧
    ¬ sampleGrant.allowRemoteExecution ∧ .tasksRemoteExecution ∉ sampleAuth.scopes ∧
    ¬ RemoteGated (TasksApi.create sampleAuth omittedProvider) omittedProvider.directoryId
      (.tasksRemoteExecution ∈ sampleAuth.scopes) := by
  have hrun : (runService (TasksApi.create sampleAuth omittedProvider)
      (fun _ => { sampleInput "t1" with registry := some remoteCodex })
      sampleStore.store).1.toOption.map Task.providerId = some "codex" := by decide
  obtain ⟨task, htask, hprovider⟩ := Option.map_eq_some_iff.mp hrun
  have hok := Call.toOption_eq_some.mp htask
  have hhttp : remoteCodex.isHttp task.providerId := by
    rw [hprovider]
    decide
  have hscope : ApiScope.tasksRemoteExecution ∉ sampleAuth.scopes := by decide
  refine ⟨⟨task, hok, hhttp⟩, rfl, by decide, hscope, fun h => hscope ?_⟩
  exact (h remoteCodex sampleStore _ task (fun _ => rfl) hok rfl hhttp).2

end OpenDaemon
