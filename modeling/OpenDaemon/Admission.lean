import OpenDaemon.SchedulerService

/-!
# Admission of tasks

`enqueue_task` makes the checks of the agent profile itself and those of the
directory grant partly twice, between reads of the two stores. Its decision is
stated here as a function of the store, and that function is compared with the
two authorizers: `AgentProfileStore::authorize` and `DirectoryGrant::authorize`.
-/

namespace OpenDaemon

open RowTable Store

structure StoreState where
  store : Store
  wellFormed : store.WellFormed

def WorkspaceMode.forAgent : WorkspaceMode → AgentWorkspaceMode
  | .worktree => .worktree
  | .direct => .direct

/-- `metadata.remote_execution.approved_by_scope` is present and is the JSON value `true`. -/
def approvalMarked (metadata : Option Value) : Bool :=
  match (metadata.bind (·.get? "remote_execution")).bind (·.get? "approved_by_scope") with
  | some (.bool true) => true
  | _ => false

theorem approvedByScope_eq (metadata : Option Value) :
    approvedByScope metadata = approvalMarked metadata := by
  cases metadata with
  | none => rfl
  | some metadata =>
    simp only [approvedByScope, approvalMarked, Option.bind_some, Value.index]
    cases metadata.get? "remote_execution" with
    | none => rfl
    | some remote =>
      simp only [Option.getD_some, Option.bind_some]
      cases remote.get? "approved_by_scope" with
      | none => rfl
      | some v =>
        cases v with
        | bool b => cases b <;> rfl
        | null => rfl
        | number literal => rfl
        | string text => rfl
        | array items => rfl
        | object entries => rfl

namespace CreateTask

def modeFor (input : CreateTask) (grant : DirectoryGrant) : WorkspaceMode :=
  input.workspaceMode.getD grant.defaultWorkspaceMode

def agentRequest (input : CreateTask) (mode : WorkspaceMode) : AgentAuthorizationRequest where
  ownerProductId := input.ownerProductId
  agentId := input.agentId
  providerIdOverride := input.providerId
  modelOverride := input.model
  permissionModeOverride := input.permissionMode
  requestedWorkspaceMode := mode.forAgent

def directoryRequest (input : CreateTask) (mode : WorkspaceMode) :
    DirectoryAuthorizationRequest where
  productId := input.ownerProductId
  agentId := input.agentId
  directoryId := input.directoryId
  requiredCapabilities := input.normalizedCapabilities
  requestedWorkspaceMode := mode
  directModeTaskOptIn := input.directModeTaskOptIn
  remoteExecution := approvalMarked input.metadata

def admittedRow (input : CreateTask) (mode : WorkspaceMode) (profile : AgentProfile) :
    NewTask where
  ownerProductId := input.ownerProductId
  agentId := input.agentId
  directoryId := input.directoryId
  prompt := input.prompt
  requiredCapabilities := input.normalizedCapabilities
  workspaceMode := mode
  directModeTaskOptIn := input.directModeTaskOptIn
  metadata := input.metadata
  providerId := profile.providerId
  model := profile.model
  permissionMode := profile.providerConfig.permissionMode
  timeoutSeconds := input.timeoutSeconds

end CreateTask

def admissionDecision (s : Store) (input : CreateTask) : Except TaskValidationError NewTask := do
  input.validate.mapError mapModelError
  match s.findGrant input.directoryId with
  | none => .error .directoryNotFound
  | some grant => do
    let mode ← selectWorkspaceMode input.workspaceMode grant input.directModeTaskOptIn
    match s.findProfile input.agentId with
    | none => .error .agentNotFound
    | some profile => do
      SchedulerService.checkProfile input grant mode profile
      (grant.authorize (input.directoryRequest mode)).mapError (mapDirectoryError ∘ .security)
      return input.admittedRow mode profile

section Run
variable {s : Store} {inputs : ℕ → ServiceStep.Input}

theorem runService_createAdmitted (hs : s.WellFormed) {input : CreateTask}
    (hvalid : input.validate = .ok ()) (mode : WorkspaceMode) (profile : AgentProfile) :
    runService (SchedulerService.tasks (.create { input with
      workspaceMode := some mode
      providerId := some profile.providerId
      model := some profile.model
      permissionMode := some profile.providerConfig.permissionMode })) inputs s =
    (.ok ((input.admittedRow mode profile).toTask (inputs 0).now (nextRowid s.tasks)),
      s.created (input.admittedRow mode profile) (inputs 0).now) := by
  rw [runService_tasks, TaskOp.program, runAlone_create hs]
  -- `create` validates again; the columns filled in here are not among those it reads
  have hsame : ({ input with
      workspaceMode := some mode
      providerId := some profile.providerId
      model := some profile.model
      permissionMode := some profile.providerConfig.permissionMode } : CreateTask).validate =
      .ok () := hvalid
  rw [hsame]
  rfl

theorem runService_enqueueTask (hs : s.WellFormed) (input : CreateTask) :
    runService (SchedulerService.enqueueTask input) inputs s = match admissionDecision s input with
      | .error e => (.error e, s)
      | .ok row => (.ok (row.toTask (inputs 3).now (nextRowid s.tasks)),
          s.created row (inputs 3).now) := by
  simp only [SchedulerService.enqueueTask, admissionDecision, runService_ofExcept,
    runService_getGrant_bind, runService_getProfile_bind, runService_authorizeGrant_bind,
    approvedByScope_eq]
  cases hvalid : input.validate with
  | error e => rfl
  | ok _ =>
    cases hgrant : s.findGrant input.directoryId with
    | none => rfl
    | some grant =>
      cases hmode : selectWorkspaceMode input.workspaceMode grant input.directModeTaskOptIn with
      | error e => simp only [hmode, Call.mapError_ok, Call.ok_bind, Call.error_bind]
      | ok mode =>
        cases hprofile : s.findProfile input.agentId with
        | none => simp only [hmode, Call.mapError_ok, Call.ok_bind]
        | some profile =>
          simp only [hmode, Call.mapError_ok, Call.ok_bind]
          cases hcheck : SchedulerService.checkProfile input grant mode profile with
          | error e => simp only [Call.error_bind]
          | ok _ =>
            cases hauth : grant.authorize (input.directoryRequest mode) with
            | error e =>
              simp only [CreateTask.directoryRequest] at hauth
              simp only [hauth]
              rfl
            | ok _ =>
              simp only [CreateTask.directoryRequest] at hauth
              simp only [hauth, Call.mapError_ok, Call.ok_bind]
              exact runService_createAdmitted hs hvalid mode profile

end Run

section Authorizers
variable {s : Store} {input : CreateTask} {grant : DirectoryGrant} {profile : AgentProfile}
  {mode : WorkspaceMode}

theorem selectWorkspaceMode_ok_iff {requested : Option WorkspaceMode} {optIn : Bool} :
    selectWorkspaceMode requested grant optIn = .ok mode ↔
      mode = requested.getD grant.defaultWorkspaceMode ∧ mode ∈ grant.workspaceModes ∧
      (mode = .direct → grant.directModeRequiresExplicitTaskOptIn → optIn) := by
  simp only [selectWorkspaceMode, Call.ite_error_eq_ok, not_not, Except.ok.injEq]
  constructor
  · rintro ⟨hmem, hdirect, rfl⟩
    exact ⟨rfl, hmem, by tauto⟩
  · rintro ⟨rfl, hmem, hdirect⟩
    exact ⟨hmem, by tauto, rfl⟩

theorem any_ne_iff {requested : Option String} {actual : String} :
    (requested.any fun requested => requested ≠ actual) = true ↔
      ¬ ∀ value ∈ requested, value = actual := by
  cases requested with
  | none => simp
  | some value => simp

theorem mapOverrideError_ok_iff {requested : Option String} {actual : String}
    {kind : OverrideKind} {u : Unit} :
    mapOverrideError requested actual kind = .ok u ↔ ∀ value ∈ requested, value = actual := by
  simp only [mapOverrideError, Call.ite_error_eq_ok, any_ne_iff, not_not, and_true]

theorem forAgent_eq_direct : mode.forAgent = .direct ↔ mode = .direct := by
  cases mode <;> decide

theorem check_ok_iff {request : AgentAuthorizationRequest} :
    ProfileStore.check profile request = .ok () ↔
      profile.ownerProductId = request.ownerProductId ∧
      (∀ value ∈ request.providerIdOverride, value = profile.providerId) ∧
      (∀ value ∈ request.modelOverride, value = profile.model) ∧
      (∀ value ∈ request.permissionModeOverride, value = profile.providerConfig.permissionMode) ∧
      (request.requestedWorkspaceMode = .direct →
        profile.executionPolicy.allowDirectDirectory) := by
  simp only [ProfileStore.check, Call.ite_error_eq_ok, any_ne_iff]
  tauto

theorem checkProfile_ok_iff : SchedulerService.checkProfile input grant mode profile = .ok () ↔
    ProfileStore.check profile (input.agentRequest mode) = .ok () ∧
    ∀ c ∈ input.normalizedCapabilities, c ∈ grant.capabilities := by
  have hany : input.normalizedCapabilities.any (· ∉ grant.capabilities) = true ↔
      ¬ ∀ c ∈ input.normalizedCapabilities, c ∈ grant.capabilities := by simp
  rw [check_ok_iff]
  simp only [SchedulerService.checkProfile, Call.ite_error_eq_ok, Call.bind_eq_ok,
    mapOverrideError_ok_iff, exists_const, hany, CreateTask.agentRequest, forAgent_eq_direct]
  tauto

theorem runAlone_authorizeProfile_ok_iff {request : AgentAuthorizationRequest} {now : String}
    (hprofile : s.findProfile request.agentId = some profile) :
    (∃ p, runAlone (ProfileStore.authorize request) now s = (.ok p, s)) ↔
      ProfileStore.check profile request = .ok () := by
  rw [runAlone_authorizeProfile, hprofile]
  cases hcheck : ProfileStore.check profile request with
  | ok _ => simp only [hcheck]; simp
  | error e => simp only [hcheck]; simp

end Authorizers

structure Admissible (s : Store) (input : CreateTask) (grant : DirectoryGrant)
    (profile : AgentProfile) : Prop where
  valid : input.validate = .ok ()
  named : s.findGrant input.directoryId = some grant
  agent : s.findProfile input.agentId = some profile
  agentAccepts : ∀ now, ∃ p,
    runAlone (ProfileStore.authorize (input.agentRequest (input.modeFor grant))) now s = (.ok p, s)
  directoryAccepts : grant.authorize (input.directoryRequest (input.modeFor grant)) = .ok ()

theorem admissionDecision_ok_iff {s : Store} {input : CreateTask} {row : NewTask} :
    admissionDecision s input = .ok row ↔ ∃ grant profile, Admissible s input grant profile ∧
      row = input.admittedRow (input.modeFor grant) profile := by
  simp only [admissionDecision, Call.bind_eq_ok, Call.mapError_eq_ok]
  constructor
  · rintro ⟨⟨⟩, hvalid, hrest⟩
    cases hgrant : s.findGrant input.directoryId with
    | none => simp [hgrant] at hrest
    | some grant =>
      simp only [hgrant, Call.bind_eq_ok] at hrest
      obtain ⟨mode, hmode, hrest⟩ := hrest
      cases hprofile : s.findProfile input.agentId with
      | none => simp [hprofile] at hrest
      | some profile =>
        simp only [hprofile, Call.bind_eq_ok, Call.mapError_eq_ok] at hrest
        obtain ⟨⟨⟩, hcheck, ⟨⟩, hauth, hrow⟩ := hrest
        obtain ⟨rfl, -, -⟩ := selectWorkspaceMode_ok_iff.mp hmode
        refine ⟨grant, profile, ⟨hvalid, hgrant, hprofile, fun now => ?_, hauth⟩, ?_⟩
        · exact (runAlone_authorizeProfile_ok_iff hprofile).mpr (checkProfile_ok_iff.mp hcheck).1
        · exact (Except.ok.inj hrow).symm
  · rintro ⟨grant, profile, ⟨hvalid, hgrant, hprofile, hagent, hauth⟩, rfl⟩
    obtain ⟨-, hcaps, hmem, hoptin, -⟩ := (DirectoryGrant.authorize_ok_iff _ _).mp hauth
    have hmode : selectWorkspaceMode input.workspaceMode grant input.directModeTaskOptIn =
        .ok (input.modeFor grant) := selectWorkspaceMode_ok_iff.mpr ⟨rfl, hmem, hoptin⟩
    have hcheck : SchedulerService.checkProfile input grant (input.modeFor grant) profile =
        .ok () := checkProfile_ok_iff.mpr
      ⟨(runAlone_authorizeProfile_ok_iff hprofile).mp (hagent ""), hcaps⟩
    refine ⟨(), hvalid, ?_⟩
    simp only [hgrant, hprofile, hmode, hcheck, hauth, Call.ok_bind, Call.mapError_ok]
    rfl

theorem enqueueTask_eq_ok_iff {s : Store} {input : CreateTask} {inputs : ℕ → ServiceStep.Input}
    {task : Task} (hs : s.WellFormed) :
    (runService (SchedulerService.enqueueTask input) inputs s).1 = .ok task ↔
      ∃ grant profile, Admissible s input grant profile ∧
        task = (input.admittedRow (input.modeFor grant) profile).toTask (inputs 3).now
          (nextRowid s.tasks) := by
  rw [runService_enqueueTask hs]
  constructor
  · intro h
    cases hdecision : admissionDecision s input with
    | error e => simp [hdecision] at h
    | ok row =>
      obtain ⟨grant, profile, hadm, rfl⟩ := admissionDecision_ok_iff.mp hdecision
      simp only [hdecision, Except.ok.injEq] at h
      exact ⟨grant, profile, hadm, h.symm⟩
  · rintro ⟨grant, profile, hadm, rfl⟩
    rw [admissionDecision_ok_iff.mpr ⟨grant, profile, hadm, rfl⟩]

structure Admitted (s s' : Store) (input : CreateTask) (grant : DirectoryGrant)
    (profile : AgentProfile) (task : Task) : Prop where
  rows : ∃ rowid, s'.tasks = s.tasks ++ [⟨rowid, task⟩]
  fresh : s.findTask task.id = none
  event : ∃ event, s'.events = s.events ++ [event] ∧ event.taskId = task.id ∧
    event.eventType = .queued ∧ event.sequence = 1
  elsewhere : s'.grants = s.grants ∧ s'.profiles = s.profiles ∧ s'.locks = s.locks ∧
    s'.permissionRequests = s.permissionRequests
  status : task.status = .queued
  workspaceMode : task.workspaceMode = input.modeFor grant
  fromProfile : task.providerId = profile.providerId ∧ task.model = profile.model ∧
    task.permissionMode = profile.providerConfig.permissionMode
  capabilities : task.requiredCapabilities = input.normalizedCapabilities
  fromInput : task.ownerProductId = input.ownerProductId ∧ task.agentId = input.agentId ∧
    task.directoryId = input.directoryId ∧ task.prompt = input.prompt ∧
    task.directModeTaskOptIn = input.directModeTaskOptIn ∧ task.metadata = input.metadata ∧
    task.timeoutSeconds = input.timeoutSeconds
  untouched : task.result = none ∧ task.startedAt = none ∧ task.completedAt = none ∧
    task.cancelledAt = none ∧ task.failedAt = none

theorem admitted_created {s : Store} (hs : s.WellFormed) (input : CreateTask)
    (grant : DirectoryGrant) (profile : AgentProfile) (now : String) :
    Admitted s (s.created (input.admittedRow (input.modeFor grant) profile) now) input grant profile
      ((input.admittedRow (input.modeFor grant) profile).toTask now (nextRowid s.tasks)) where
  rows := ⟨_, rfl⟩
  fresh := findTask_next hs
  event := ⟨s.firstEvent now, rfl, rfl, rfl, rfl⟩
  elsewhere := ⟨rfl, rfl, rfl, rfl⟩
  status := rfl
  workspaceMode := rfl
  fromProfile := ⟨rfl, rfl, rfl⟩
  capabilities := rfl
  fromInput := ⟨rfl, rfl, rfl, rfl, rfl, rfl, rfl⟩
  untouched := ⟨rfl, rfl, rfl, rfl, rfl⟩

/-- `enqueue_task` succeeds exactly when input, agent policy and directory policy all
accept, adds one row and one event then, and changes nothing otherwise. -/
theorem enqueue_task_admission (s : StoreState) (input : CreateTask)
    (inputs : ℕ → ServiceStep.Input) :
    ((∃ task, (runService (SchedulerService.enqueueTask input) inputs s.store).1 = .ok task) ↔
      ∃ grant profile, Admissible s.store input grant profile) ∧
    (∀ task, (runService (SchedulerService.enqueueTask input) inputs s.store).1 = .ok task →
      ∃ grant profile, Admissible s.store input grant profile ∧
        Admitted s.store (runService (SchedulerService.enqueueTask input) inputs s.store).2 input
          grant profile task) ∧
    (∀ e, (runService (SchedulerService.enqueueTask input) inputs s.store).1 = .error e →
      (runService (SchedulerService.enqueueTask input) inputs s.store).2 = s.store) := by
  have hs := s.wellFormed
  refine ⟨⟨?_, ?_⟩, ?_, ?_⟩
  · rintro ⟨task, htask⟩
    obtain ⟨grant, profile, hadm, -⟩ := (enqueueTask_eq_ok_iff hs).mp htask
    exact ⟨grant, profile, hadm⟩
  · rintro ⟨grant, profile, hadm⟩
    exact ⟨_, (enqueueTask_eq_ok_iff hs).mpr ⟨grant, profile, hadm, rfl⟩⟩
  · intro task htask
    obtain ⟨grant, profile, hadm, rfl⟩ := (enqueueTask_eq_ok_iff hs).mp htask
    refine ⟨grant, profile, hadm, ?_⟩
    rw [runService_enqueueTask hs, admissionDecision_ok_iff.mpr ⟨grant, profile, hadm, rfl⟩]
    exact admitted_created hs input grant profile _
  · intro e he
    rw [runService_enqueueTask hs] at he ⊢
    cases hdecision : admissionDecision s.store input with
    | error e => rfl
    | ok row => simp [hdecision] at he

end OpenDaemon
