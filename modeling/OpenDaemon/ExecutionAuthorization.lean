import OpenDaemon.ExecutionExclusion
import OpenDaemon.PolicyCalls
import OpenDaemon.TaskRows

/-!
# Authorization at execution time

A task is authorized when it is enqueued; `execute_task` reads its profile and
its grant again by id and checks neither of them. The authorization is therefore
carried through the administrative calls in between: each of them keeps it
unless it deletes or narrows the grant, or deletes the profile or binds it to
another provider or model.
-/

namespace OpenDaemon

open Runs Store RowTable

inductive AdminOp
  | grants (op : GrantOp)
  | profiles (op : ProfileOp)

def adminStep (s : Store) : AdminOp × String → Option Store
  | (.grants op, now) => some (runAlone op.program now s).2
  | (.profiles op, now) => some (runAlone op.program now s).2

def Task.authorizationRequest (task : Task) : DirectoryAuthorizationRequest where
  productId := task.ownerProductId
  agentId := task.agentId
  directoryId := task.directoryId
  requiredCapabilities := task.requiredCapabilities
  requestedWorkspaceMode := task.workspaceMode
  directModeTaskOptIn := task.directModeTaskOptIn
  remoteExecution := false

/-- The profile is the one the task was admitted with, and the grant covers the task. -/
structure AuthorizedFor (task : Task) (profile : AgentProfile) (grant : DirectoryGrant) : Prop where
  owner : profile.ownerProductId = task.ownerProductId
  provider : profile.providerId = task.providerId
  model : profile.model = task.model
  grant : grant.authorize task.authorizationRequest = .ok ()

structure PatchDirectoryGrant.Covers (changes : PatchDirectoryGrant) (task : Task) : Prop where
  capabilities : ∀ capabilities ∈ changes.capabilities,
    ∀ c ∈ task.requiredCapabilities, c ∈ capabilities
  modes : ∀ modes ∈ changes.workspaceModes, task.workspaceMode ∈ modes
  optIn : task.workspaceMode = .direct →
    changes.directModeRequiresExplicitTaskOptIn = some true → task.directModeTaskOptIn

/-- The call takes nothing away from the task that it was admitted with. -/
def RevokesNothing (task : Task) : AdminOp → Prop
  | .grants (.delete id) => id ≠ task.directoryId
  | .grants (.patch id changes) => id = task.directoryId → changes.Covers task
  | .profiles (.delete id) => id ≠ task.agentId
  | .profiles (.patch id changes) => id = task.agentId →
      (∀ providerId ∈ changes.providerId, providerId = task.providerId) ∧
      ∀ model ∈ changes.model, model = task.model
  | _ => True

def PoliciesAuthorize (task : Task) (s : Store) : Prop :=
  ∃ grant profile, s.findGrant task.directoryId = some grant ∧
    s.findProfile task.agentId = some profile ∧ AuthorizedFor task profile grant

structure Stored (task : Task) (s : Store) : Prop where
  wellFormed : s.WellFormed
  row : (s.findTask task.id).map Task.creation = some task.creation

section Administration
variable {s t : Store} {task : Task} {profile : AgentProfile} {grant : DirectoryGrant}
  {now : String}

theorem AuthorizedFor.patchGrant {changes : PatchDirectoryGrant} {policy : DirectoryGrantPolicy}
    (h : AuthorizedFor task profile grant) (happly : changes.apply grant.policy = .ok policy)
    (hcovers : changes.Covers task) : AuthorizedFor task profile (grant.withPolicy policy now) := by
  obtain ⟨hcaps, hmodes, hoptIn⟩ := DirectoryGrantPolicy.mem_of_new_ok happly
  obtain ⟨hscope, hc, hm, hd, -⟩ := (DirectoryGrant.authorize_ok_iff _ _).mp h.grant
  refine ⟨h.owner, h.provider, h.model, (DirectoryGrant.authorize_ok_iff _ _).mpr
    ⟨hscope, fun c hcap => (hcaps c).mpr ?_, (hmodes _).mpr ?_, fun hdirect hreq => ?_, nofun⟩⟩
  · cases hch : changes.capabilities with
    | none => exact hc c hcap
    | some capabilities => exact hcovers.capabilities capabilities hch c hcap
  · cases hch : changes.workspaceModes with
    | none => exact hm
    | some modes => exact hcovers.modes modes hch
  · have hreq' : policy.directModeRequiresExplicitTaskOptIn = true := hreq
    rw [hoptIn] at hreq'
    cases hch : changes.directModeRequiresExplicitTaskOptIn with
    | none =>
      rw [hch] at hreq'
      exact hd hdirect hreq'
    | some required =>
      rw [hch] at hreq'
      obtain rfl : required = true := hreq'
      exact hcovers.optIn hdirect hch

theorem AuthorizedFor.patchProfile {changes : PatchAgentProfile}
    (h : AuthorizedFor task profile grant)
    (hkeeps : (∀ providerId ∈ changes.providerId, providerId = task.providerId) ∧
      ∀ model ∈ changes.model, model = task.model) :
    AuthorizedFor task (profile.withColumns (changes.apply profile) now) grant := by
  refine ⟨h.owner, ?_, ?_, h.grant⟩
  · cases hch : changes.providerId with
    | none => simpa [AgentProfile.withColumns, PatchAgentProfile.apply, hch] using h.provider
    | some providerId =>
      simpa [AgentProfile.withColumns, PatchAgentProfile.apply, hch] using hkeeps.1 providerId hch
  · cases hch : changes.model with
    | none => simpa [AgentProfile.withColumns, PatchAgentProfile.apply, hch] using h.model
    | some model =>
      simpa [AgentProfile.withColumns, PatchAgentProfile.apply, hch] using hkeeps.2 model hch

theorem PoliciesAuthorize.grants (h : PoliciesAuthorize task s) (op : GrantOp) (now : String)
    (hop : RevokesNothing task (.grants op)) :
    PoliciesAuthorize task (runAlone op.program now s).2 := by
  obtain ⟨grant, profile, hgrant, hprofile, hauth⟩ := h
  obtain hs | ⟨mk, hs⟩ | ⟨id, changes, current, policy, rfl, hcurrent, happly, hs⟩ |
    ⟨id, rfl, hs⟩ := grantOp_cases op now s
  · rw [hs]
    exact ⟨grant, profile, hgrant, hprofile, hauth⟩
  · rw [hs]
    refine ⟨grant, profile, ?_, hprofile, hauth⟩
    simp only [findGrant, Store.withGrant, lookup_insert] at hgrant ⊢
    rw [hgrant]
    rfl
  · have hkey : ∀ grant : DirectoryGrant, (grant.withPolicy policy now).id = grant.id :=
      fun _ => rfl
    have hfind : (s.updateGrant id policy now).findGrant task.directoryId = some
        (if grant.id = id then grant.withPolicy policy now else grant) := by
      simp only [findGrant, Store.updateGrant] at hgrant ⊢
      rw [lookup_update hkey, hgrant]
      rfl
    rw [hs]
    refine ⟨_, profile, hfind, hprofile, ?_⟩
    by_cases hid : grant.id = id
    · rw [if_pos hid]
      have hsame : id = task.directoryId := hid.symm.trans (findGrant_id hgrant)
      rw [hsame, hgrant] at hcurrent
      obtain rfl := Option.some.inj hcurrent
      exact hauth.patchGrant happly (hop hsame)
    · rw [if_neg hid]
      exact hauth
  · rw [hs]
    refine ⟨grant, profile, ?_, hprofile, hauth⟩
    simp only [findGrant, Store.deleteGrant] at hgrant ⊢
    rw [lookup_delete fun v hv hd => ?_]
    · exact hgrant
    · exact hop ((of_decide_eq_true hd).symm.trans (of_decide_eq_true hv))

theorem PoliciesAuthorize.profiles (h : PoliciesAuthorize task s) (op : ProfileOp) (now : String)
    (hop : RevokesNothing task (.profiles op)) :
    PoliciesAuthorize task (runAlone op.program now s).2 := by
  obtain ⟨grant, profile, hgrant, hprofile, hauth⟩ := h
  obtain hs | ⟨created, hs⟩ | ⟨id, changes, current, rfl, hcurrent, hs⟩ | ⟨id, rfl, hs⟩ :=
    profileOp_cases op now s
  · rw [hs]
    exact ⟨grant, profile, hgrant, hprofile, hauth⟩
  · rw [hs]
    refine ⟨grant, profile, hgrant, ?_, hauth⟩
    simp only [findProfile] at hprofile ⊢
    rw [List.find?_append, hprofile]
    rfl
  · have hfind : (s.updateProfile id (changes.apply current) now).findProfile task.agentId = some
        (if profile.id = id then profile.withColumns (changes.apply current) now else profile) := by
      rw [findProfile_updateProfile, hprofile]
      rfl
    rw [hs]
    refine ⟨grant, _, hgrant, hfind, ?_⟩
    by_cases hid : profile.id = id
    · rw [if_pos hid]
      have hsame : id = task.agentId := hid.symm.trans (findProfile_id hprofile)
      rw [hsame, hprofile] at hcurrent
      obtain rfl := Option.some.inj hcurrent
      exact hauth.patchProfile (hop hsame)
    · rw [if_neg hid]
      exact hauth
  · rw [hs]
    refine ⟨grant, profile, hgrant, ?_, hauth⟩
    rw [findProfile_deleteProfile hop]
    exact hprofile

theorem PoliciesAuthorize.adminStep {call : AdminOp × String} (h : PoliciesAuthorize task s)
    (hop : RevokesNothing task call.1) (hstep : OpenDaemon.adminStep s call = some t) :
    PoliciesAuthorize task t := by
  obtain ⟨op, now⟩ := call
  cases op with
  | grants op =>
    obtain rfl := Option.some.inj hstep
    exact h.grants op now hop
  | profiles op =>
    obtain rfl := Option.some.inj hstep
    exact h.profiles op now hop

theorem Stored.adminStep {call : AdminOp × String} (h : Stored task s)
    (hstep : OpenDaemon.adminStep s call = some t) : Stored task t := by
  have hsame : t.tasks = s.tasks ∧ t.events = s.events := by
    obtain ⟨op, now⟩ := call
    cases op with
    | grants op =>
      obtain rfl := Option.some.inj hstep
      have hsame := sameTasks_grantOp op now s
      exact ⟨hsame.tasks, hsame.events⟩
    | profiles op =>
      obtain rfl := Option.some.inj hstep
      have hsame := sameTasks_profileOp op now s
      exact ⟨hsame.tasks, hsame.events⟩
  refine ⟨wellFormed_of_same h.wellFormed hsame.1 hsame.2, ?_⟩
  rw [findTask_congr hsame.1]
  exact h.row

end Administration

section Arrival
variable {s t : Store} {task : Task} {config : SchedulerConfig} {taskId : String}
  {inputs : ℕ → ServiceStep.Input} {request : RuntimeExecutionRequest}

def ServiceStep.beforeAdapter : ServiceStep → Prop
  | .tasks (.get _) | .tasks (.list _) | .tasks (.transition ..) | .tasks (.acquireLock _)
  | .grants (.get _) | .profiles (.get _) | .loadRegistry | .getRuntime _
  | .prepareWorkspace .. => True
  | _ => False

def ServiceStep.notAdapter : ServiceStep → Prop
  | .executeAdapter _ => False
  | _ => True

theorem Stored.moved {id : String} {next : TaskStatus} {payload : Option Value} {now : String}
    (h : Stored task s) (hfind : (s.findTask id).isSome) :
    Stored task (s.moved id next payload now) := by
  refine ⟨wellFormed_moved h.wellFormed hfind next payload, ?_⟩
  by_cases hid : task.id = id
  · rw [hid, moved_findTask, Option.map_map, ← h.row, hid]
    rfl
  · rw [moved_findTask_ne hid]
    exact h.row

theorem Stored.exec (q : ServiceStep) (input : ServiceStep.Input) (s : Store)
    (hq : q.beforeAdapter) (h : Stored task s) : Stored task (q.exec input s).2 := by
  cases q with
  | tasks op =>
    cases op with
    | get id =>
      rw [ServiceStep.exec_reads (.tasks (.get id)) trivial]
      exact h
    | list filters =>
      rw [ServiceStep.exec_reads (.tasks (.list filters)) trivial]
      exact h
    | transition id next payload =>
      simp only [ServiceStep.exec, TaskOp.program]
      obtain ⟨e, hr⟩ | ⟨row, -, -, -, hr⟩ | ⟨row, hfind, -, hr⟩ :=
        transition_cases h.wellFormed id next payload input.now
      · rw [hr]
        exact h
      · rw [hr]
        exact h
      · rw [hr]
        exact h.moved (by rw [hfind]; rfl)
    | acquireLock lock =>
      simp only [ServiceStep.exec, TaskOp.program, runAlone_acquireLock]
      split
      · exact h
      · exact ⟨wellFormed_of_same h.wellFormed rfl rfl, h.row⟩
    | create _ | cancel _ | saveResult _ _ _ | releaseLocks _ | saveExecutionResult _
    | appendEvent _ _ _ | recordPermissionRequest _ _ | resolvePermissionRequest _ _ _ _ => cases hq
  | grants op =>
    cases op with
    | get id =>
      rw [ServiceStep.exec_reads (.grants (.get id)) trivial]
      exact h
    | _ => cases hq
  | profiles op =>
    cases op with
    | get id =>
      rw [ServiceStep.exec_reads (.profiles (.get id)) trivial]
      exact h
    | _ => cases hq
  | loadRegistry => exact h
  | getRuntime providerId => exact h
  | prepareWorkspace taskId grant mode => exact h
  | executeAdapter _ | clock => cases hq

theorem Stored.run {α : Type} {c : ExecutionCall α} (hc : c.Uses ServiceStep.beforeAdapter)
    (h : Stored task s) : Stored task (runService c inputs s).2 :=
  hc.run_invariant (fun q input s => Stored.exec q input s) inputs h

theorem Stored.returned {α β : Type} {c : ExecutionCall α} {f : α → ExecutionCall β}
    (h : Stored task s) (hc : c.Uses ServiceStep.beforeAdapter)
    (hx : (.executeAdapter request, t) ∈ (c >>= f).steps ServiceStep.exec inputs s) :
    ∃ a s' rest, runService c inputs s = (.ok a, s') ∧ Stored task s' ∧
      (.executeAdapter request, t) ∈ (f a).steps ServiceStep.exec rest s' := by
  rcases Call.mem_steps_bind hx with hx | ⟨a, s', rest, hrun, hx⟩
  · exact absurd (hc.of_mem_steps hx) (by simp [ServiceStep.beforeAdapter])
  · have hrun' : runService c inputs s = (.ok a, s') := by rw [runService, hrun]
    have hstored : Stored task (runService c inputs s).2 := h.run hc
    rw [hrun'] at hstored
    exact ⟨a, s', rest, hrun', hstored, hx⟩

theorem read_task {id : String} {row : Task}
    (h : runService (ExecutionService.tasks (.get id)) inputs s = (.ok row, t)) :
    s.findTask id = some row ∧ t = s := by
  simp only [ExecutionService.tasks, ExecutionService.scheduler, SchedulerService.tasks,
    Call.mapError, runService_step, ServiceStep.exec, TaskOp.program, runAlone_get] at h
  cases hfind : s.findTask id with
  | none => simp [hfind, Call.mapError] at h
  | some found =>
    simp only [hfind, Call.mapError, runService_ret, Prod.mk.injEq, Except.ok.injEq] at h
    exact ⟨congrArg some h.1, h.2.symm⟩

theorem read_profile {id : String} {profile : AgentProfile}
    (h : runService (ExecutionService.getProfile id) inputs s = (.ok profile, t)) :
    s.findProfile id = some profile ∧ t = s := by
  simp only [ExecutionService.getProfile, runService_step, ServiceStep.exec, ProfileOp.program,
    runAlone_getProfile] at h
  cases hfind : s.findProfile id with
  | none => simp [hfind] at h
  | some found =>
    simp only [hfind, runService_ret, Prod.mk.injEq, Except.ok.injEq] at h
    exact ⟨congrArg some h.1, h.2.symm⟩

theorem read_grant {id : String} {grant : DirectoryGrant}
    (h : runService (ExecutionService.getGrant id) inputs s = (.ok grant, t)) :
    s.findGrant id = some grant ∧ t = s := by
  simp only [ExecutionService.getGrant, runService_step, ServiceStep.exec, GrantOp.program,
    runAlone_getGrant] at h
  cases hfind : s.findGrant id with
  | none => simp [hfind] at h
  | some found =>
    simp only [hfind, runService_ret, Prod.mk.injEq, Except.ok.injEq] at h
    exact ⟨congrArg some h.1, h.2.symm⟩

theorem Stored.creation_eq {row : Task} (h : Stored task s)
    (hfind : s.findTask task.id = some row) : row.creation = task.creation := by
  have hrow := h.row
  rw [hfind] at hrow
  exact Option.some.inj hrow

theorem adapter_of_runTask {row : Task} {profile : AgentProfile} {grant : DirectoryGrant}
    {manifest : ProviderManifest} {runtime : RuntimeView} {executable : String}
    (h : Stored task s)
    (hx : (.executeAdapter request, t) ∈ (ExecutionService.runTask config task.id row profile grant
      manifest runtime executable).steps ServiceStep.exec inputs s) :
    request.agentProfile = profile ∧ request.directoryGrant = grant ∧
      request.task.creation = task.creation := by
  have hprepare : (SchedulerService.prepareWorkspace task.id).Uses ServiceStep.beforeAdapter :=
    uses_prepareWorkspace (fun _ => trivial) (fun _ => trivial) (fun _ _ => trivial)
      fun _ _ _ => trivial
  have hrunning : (SchedulerService.markRunning task.id).Uses ServiceStep.beforeAdapter :=
    uses_tasks _ trivial
  have hread : (ExecutionService.tasks (.get task.id)).Uses ServiceStep.beforeAdapter :=
    (uses_tasks _ trivial).mapError _
  obtain ⟨_, _, _, -, h, hx⟩ := h.returned
    (uses_acquireDirectoryLock row (fun _ => trivial) (fun _ => trivial) (fun _ => trivial)
      (fun _ => trivial) fun _ _ => trivial) hx
  obtain ⟨_, _, _, -, h, hx⟩ := h.returned (hprepare.mapError _) hx
  obtain ⟨_, _, _, -, h, hx⟩ := h.returned (hrunning.mapError _) hx
  obtain ⟨_, _, _, -, h, hx⟩ := h.returned (uses_ofExcept _) hx
  obtain ⟨current, s', _, hrun, -, hx⟩ := h.returned hread hx
  rcases List.mem_cons.mp hx with hx | hx
  · have hrequest := ServiceStep.executeAdapter.inj (Prod.mk.inj hx).1
    rw [hrequest]
    exact ⟨rfl, rfl, h.creation_eq (read_task hrun).1⟩
  · have hpersist : ∀ outcome workspace, (ExecutionService.persistOutcome task.id outcome
        workspace).Uses ServiceStep.notAdapter := fun outcome workspace =>
      uses_persistOutcome (fun _ => trivial) (fun _ _ => trivial) (fun _ _ => trivial)
        (fun _ => trivial) trivial outcome workspace
    exact absurd ((hpersist _ _).of_mem_steps hx) (by simp [ServiceStep.notAdapter])

theorem adapter_of_executeTask (h : Stored task s)
    (hx : (.executeAdapter request, t) ∈
      (ExecutionService.executeTask config task.id).steps ServiceStep.exec inputs s) :
    s.findProfile task.agentId = some request.agentProfile ∧
      s.findGrant task.directoryId = some request.directoryGrant ∧
      request.task.creation = task.creation := by
  have hread : (ExecutionService.tasks (.get task.id)).Uses ServiceStep.beforeAdapter :=
    (uses_tasks _ trivial).mapError _
  obtain ⟨row, s₁, _, hrun, -, hx₁⟩ := h.returned hread hx
  obtain ⟨hrow, hs₁⟩ := read_task hrun
  rw [hs₁] at hx₁
  have hsame := h.creation_eq hrow
  have hagent : row.agentId = task.agentId := congrArg (·.1.agentId) hsame
  have hdirectory : row.directoryId = task.directoryId := congrArg (·.1.directoryId) hsame
  split at hx₁
  · cases hx₁
  · obtain ⟨profile, s₂, _, hrun, -, hx₂⟩ := h.returned (uses_getProfile trivial) hx₁
    obtain ⟨hfound, hs₂⟩ := read_profile hrun
    rw [hs₂] at hx₂
    obtain ⟨grant, s₃, _, hrun, -, hx₃⟩ := h.returned (uses_executionGrant trivial) hx₂
    obtain ⟨hfound', hs₃⟩ := read_grant hrun
    rw [hs₃] at hx₃
    -- profile and grant are fixed now; of the store only the task's row is followed further
    obtain ⟨_, _, _, -, h, hx⟩ := h.returned (uses_loadRegistry trivial) hx₃
    obtain ⟨_, _, _, -, h, hx⟩ := h.returned (uses_ofExcept _) hx
    obtain ⟨_, _, _, -, h, hx⟩ := h.returned (uses_getRuntime _ trivial) hx
    obtain ⟨_, _, _, -, h, hx⟩ := h.returned (uses_ofExcept _) hx
    obtain ⟨rfl, rfl, hcreation⟩ := adapter_of_runTask h hx
    exact ⟨hagent ▸ hfound, hdirectory ▸ hfound', hcreation⟩

end Arrival

section History
variable {s : Store} {task row : Task} {profile : AgentProfile} {grant : DirectoryGrant}

theorem authorized_of_enqueue (hs : s.WellFormed) {input : CreateTask}
    {inputs : ℕ → ServiceStep.Input}
    (h : (runService (SchedulerService.enqueueTask input) inputs s).1 = .ok task) :
    Stored task (runService (SchedulerService.enqueueTask input) inputs s).2 ∧
    PoliciesAuthorize task (runService (SchedulerService.enqueueTask input) inputs s).2 := by
  obtain ⟨grant, profile, hadm, rfl⟩ := (enqueueTask_eq_ok_iff hs).mp h
  rw [runService_enqueueTask hs, admissionDecision_ok_iff.mpr ⟨grant, profile, hadm, rfl⟩]
  refine ⟨⟨wellFormed_created hs _, ?_⟩, grant, profile, hadm.named, hadm.agent, ?_⟩
  · rw [created_findTask hs]
    exact congrArg (Option.map Task.creation) (if_pos rfl)
  · obtain ⟨howner, -⟩ := check_ok_iff.mp
      ((runAlone_authorizeProfile_ok_iff hadm.agent).mp (hadm.agentAccepts ""))
    obtain ⟨hscope, hcaps, hmode, hoptIn, -⟩ :=
      (DirectoryGrant.authorize_ok_iff _ _).mp hadm.directoryAccepts
    exact ⟨howner, rfl, rfl,
      (DirectoryGrant.authorize_ok_iff _ _).mpr ⟨hscope, hcaps, hmode, hoptIn, nofun⟩⟩

theorem authorizedFor_congr (h : row.creation = task.creation) :
    AuthorizedFor row profile grant ↔ AuthorizedFor task profile grant := by
  have hrequest : row.authorizationRequest = task.authorizationRequest := by
    obtain ⟨hcolumns, -⟩ := Prod.mk.inj h
    simp only [NewTask.mk.injEq] at hcolumns
    simp [Task.authorizationRequest, hcolumns]
  have howner : row.ownerProductId = task.ownerProductId := congrArg (·.1.ownerProductId) h
  have hprovider : row.providerId = task.providerId := congrArg (·.1.providerId) h
  have hmodel : row.model = task.model := congrArg (·.1.model) h
  constructor
  · rintro ⟨h1, h2, h3, h4⟩
    exact ⟨h1.trans howner, h2.trans hprovider, h3.trans hmodel, hrequest ▸ h4⟩
  · rintro ⟨h1, h2, h3, h4⟩
    exact ⟨h1.trans howner.symm, h2.trans hprovider.symm, h3.trans hmodel.symm, hrequest ▸ h4⟩

/-- The requests with which an execution, run alone, calls its adapter. -/
def adapterCalls (config : SchedulerConfig) (taskId : String) (inputs : ℕ → ServiceStep.Input)
    (s : Store) : List RuntimeExecutionRequest :=
  ((ExecutionService.executeTask config taskId).steps ServiceStep.exec inputs s).filterMap fun x =>
    match x.1 with
    | .executeAdapter request => some request
    | _ => none

theorem mem_steps_of_adapterCalls {config : SchedulerConfig} {taskId : String}
    {inputs : ℕ → ServiceStep.Input} {request : RuntimeExecutionRequest}
    (h : request ∈ adapterCalls config taskId inputs s) : ∃ t, (.executeAdapter request, t) ∈
      (ExecutionService.executeTask config taskId).steps ServiceStep.exec inputs s := by
  obtain ⟨⟨q, t⟩, hx, hq⟩ := List.mem_filterMap.mp h
  cases q with
  | executeAdapter r =>
    obtain rfl := Option.some.inj hq
    exact ⟨t, hx⟩
  | _ => cases hq

/-- Whatever administrative calls come between, an execution that reaches its adapter uses the
profile and the grant that are stored when it starts, so it is authorized exactly if these
authorize the task; and they do as long as no call in between revokes anything. -/
theorem execution_authorized (s₀ : StoreState) (input : CreateTask) (task : Task)
    (inputs : ℕ → ServiceStep.Input) (s : Store) (config : SchedulerConfig)
    (inputs' : ℕ → ServiceStep.Input) (request : RuntimeExecutionRequest)
    (henqueue : (runService (SchedulerService.enqueueTask input) inputs s₀.store).1 = .ok task)
    (hadmin : Reaches adminStep (fun _ _ => True)
      (runService (SchedulerService.enqueueTask input) inputs s₀.store).2 s)
    (harrives : request ∈ adapterCalls config task.id inputs' s) :
    (s.findProfile task.agentId = some request.agentProfile ∧
      s.findGrant task.directoryId = some request.directoryGrant) ∧
    (AuthorizedFor request.task request.agentProfile request.directoryGrant ↔
      PoliciesAuthorize task s) ∧
    (Reaches adminStep (fun _ call => RevokesNothing task call.1)
        (runService (SchedulerService.enqueueTask input) inputs s₀.store).2 s →
      AuthorizedFor request.task request.agentProfile request.directoryGrant) := by
  obtain ⟨hstored, hauthorized⟩ := authorized_of_enqueue s₀.wellFormed henqueue
  have hrow : Stored task s := hadmin.invariant hstored fun s call t h _ hstep => h.adminStep hstep
  obtain ⟨t, hx⟩ := mem_steps_of_adapterCalls harrives
  obtain ⟨hprofile, hgrant, hcreation⟩ := adapter_of_executeTask hrow hx
  have hiff : AuthorizedFor request.task request.agentProfile request.directoryGrant ↔
      PoliciesAuthorize task s := by
    rw [authorizedFor_congr hcreation]
    constructor
    · intro h
      exact ⟨_, _, hgrant, hprofile, h⟩
    · rintro ⟨grant, profile, hgrant', hprofile', h⟩
      obtain rfl := Option.some.inj (hgrant.symm.trans hgrant')
      obtain rfl := Option.some.inj (hprofile.symm.trans hprofile')
      exact h
  refine ⟨⟨hprofile, hgrant⟩, hiff, fun hkept => hiff.mpr ?_⟩
  exact hkept.invariant hauthorized fun s call t h hop hstep => h.adminStep hop hstep

def patchedHistory (capabilities : List DirectoryCapability) :
    Except TaskValidationError Task × Store :=
  let enqueued := runService (SchedulerService.enqueueTask sampleTask) (fun _ => executionInput)
    sampleStore.store
  (enqueued.1, (runAlone (GrantStore.patch "dir_1"
    ⟨some capabilities, none, none, none, none, none⟩) "t2" enqueued.2).2)

def patchedCalls (capabilities : List DirectoryCapability) :
    Option (List DirectoryCapability × List (List DirectoryCapability)) :=
  (patchedHistory capabilities).1.toOption.map fun task => (task.requiredCapabilities,
    (adapterCalls ⟨2, false⟩ task.id (fun _ => executionInput) (patchedHistory capabilities).2).map
      fun request => request.directoryGrant.capabilities)

theorem arrives_of_patchedCalls {capabilities required allowed : List DirectoryCapability}
    (h : patchedCalls capabilities = some (required, [allowed])) : ∃ task request,
    (patchedHistory capabilities).1 = .ok task ∧ task.requiredCapabilities = required ∧
    request ∈ adapterCalls ⟨2, false⟩ task.id (fun _ => executionInput)
      (patchedHistory capabilities).2 ∧ request.directoryGrant.capabilities = allowed := by
  obtain ⟨task, htask, hboth⟩ := Option.map_eq_some_iff.mp h
  obtain ⟨hrequired, hcalls⟩ := Prod.mk.inj hboth
  obtain ⟨request, hrequest, hallowed⟩ := List.mem_map.mp (hcalls ▸ List.mem_singleton_self allowed)
  exact ⟨task, request, Call.toOption_eq_some.mp htask, hrequired, hrequest, hallowed⟩

set_option maxRecDepth 10000 in
theorem execution_authorized_patched : ∃ request : RuntimeExecutionRequest,
    request.directoryGrant.capabilities = [.read, .write] ∧
    AuthorizedFor request.task request.agentProfile request.directoryGrant := by
  have hcalls : patchedCalls [.read, .write] = some ([.read, .write], [[.read, .write]]) := by
    decide
  obtain ⟨task, request, htask, hrequired, hrequest, hallowed⟩ := arrives_of_patchedCalls hcalls
  have hkept : Reaches adminStep (fun _ call => RevokesNothing task call.1)
      (runService (SchedulerService.enqueueTask sampleTask) (fun _ => executionInput)
        sampleStore.store).2 (patchedHistory [.read, .write]).2 := by
    refine .tail .refl (a := (.grants (.patch "dir_1" _), "t2")) ?_ rfl
    refine fun _ => ⟨?_, nofun, nofun⟩
    rintro capabilities hmem c hc
    obtain rfl := Option.some.inj hmem
    exact hrequired ▸ hc
  exact ⟨request, hallowed, (execution_authorized sampleStore sampleTask task
    (fun _ => executionInput) _ ⟨2, false⟩ (fun _ => executionInput) request htask
    (hkept.mono fun _ _ _ => trivial) hrequest).2.2 hkept⟩

set_option maxRecDepth 10000 in
/-- A grant that was narrowed in the meantime is still given to the adapter. -/
theorem narrowedGrant_not_authorized : ∃ (task : Task) (s : Store)
    (request : RuntimeExecutionRequest),
    (runService (SchedulerService.enqueueTask sampleTask) (fun _ => executionInput)
      sampleStore.store).1 = .ok task ∧
    Reaches adminStep (fun _ _ => True) (runService (SchedulerService.enqueueTask sampleTask)
      (fun _ => executionInput) sampleStore.store).2 s ∧
    request ∈ adapterCalls ⟨2, false⟩ task.id (fun _ => executionInput) s ∧
    ¬ AuthorizedFor request.task request.agentProfile request.directoryGrant := by
  have hcalls : patchedCalls [.read] = some ([.read, .write], [[.read]]) := by decide
  obtain ⟨task, request, htask, hrequired, hrequest, hallowed⟩ := arrives_of_patchedCalls hcalls
  have hadmin : Reaches adminStep (fun _ _ => True)
      (runService (SchedulerService.enqueueTask sampleTask) (fun _ => executionInput)
        sampleStore.store).2 (patchedHistory [.read]).2 :=
    .tail .refl (a := (.grants (.patch "dir_1" _), "t2")) trivial rfl
  refine ⟨task, _, request, htask, hadmin, hrequest, fun hauth => ?_⟩
  obtain ⟨hstored, -⟩ := authorized_of_enqueue sampleStore.wellFormed htask
  have hrow : Stored task (patchedHistory [.read]).2 :=
    hadmin.invariant hstored fun s call t h _ hstep => h.adminStep hstep
  obtain ⟨t, hx⟩ := mem_steps_of_adapterCalls hrequest
  obtain ⟨-, -, hcreation⟩ := adapter_of_executeTask hrow hx
  obtain ⟨-, hcovered, -⟩ := (DirectoryGrant.authorize_ok_iff _ _).mp
    ((authorizedFor_congr hcreation).mp hauth).grant
  have hneeded : DirectoryCapability.write ∈ task.requiredCapabilities := by
    rw [hrequired]
    decide
  have hwrite := hcovered .write hneeded
  rw [hallowed] at hwrite
  exact absurd hwrite (by decide)

end History

end OpenDaemon
