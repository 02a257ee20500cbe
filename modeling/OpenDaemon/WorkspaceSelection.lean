import OpenDaemon.LockOwnership

/-!
# Selection of the workspace mode

A task that names no workspace mode gets the default of its grant, or is refused. The
selection as documented goes on to the other mode where the default cannot be used.
-/

namespace OpenDaemon

open RowTable Store

section Selection
variable {s : Store} {input : CreateTask} {grant : DirectoryGrant} {profile : AgentProfile}

def CreateTask.withMode (input : CreateTask) (mode : Option WorkspaceMode) : CreateTask :=
  { input with workspaceMode := mode }

/-- What `enqueue_task` asks for whatever the mode. -/
structure Fits (s : Store) (input : CreateTask) (grant : DirectoryGrant) (profile : AgentProfile) :
    Prop where
  valid : input.validate = .ok ()
  named : s.findGrant input.directoryId = some grant
  agent : s.findProfile input.agentId = some profile
  owner : profile.ownerProductId = input.ownerProductId
  provider : ∀ value ∈ input.providerId, value = profile.providerId
  model : ∀ value ∈ input.model, value = profile.model
  permission : ∀ value ∈ input.permissionMode, value = profile.providerConfig.permissionMode
  granted : grant.productId = input.ownerProductId ∧ grant.agentId = input.agentId ∧
    grant.id = input.directoryId
  capabilities : ∀ c ∈ input.normalizedCapabilities, c ∈ grant.capabilities
  remote : approvalMarked input.metadata → grant.allowRemoteExecution

/-- The grant lists the mode; the direct one is also allowed by the agent, and opted in to where
the grant requires it. -/
def Usable (grant : DirectoryGrant) (profile : AgentProfile) (optIn : Bool)
    (mode : WorkspaceMode) : Prop :=
  mode ∈ grant.workspaceModes ∧
  (mode = .direct → profile.executionPolicy.allowDirectDirectory = true ∧
    (grant.directModeRequiresExplicitTaskOptIn = true → optIn = true))

theorem admissible_withMode_iff {mode : Option WorkspaceMode} :
    Admissible s (input.withMode mode) grant profile ↔
      Fits s input grant profile ∧
      Usable grant profile input.directModeTaskOptIn (mode.getD grant.defaultWorkspaceMode) := by
  constructor
  · intro h
    obtain ⟨howner, hprovider, hmodel, hpermission, hallowed⟩ :=
      check_ok_iff.mp ((runAlone_authorizeProfile_ok_iff h.agent).mp (h.agentAccepts ""))
    obtain ⟨hgranted, hcapabilities, hmem, hoptin, hremote⟩ :=
      (DirectoryGrant.authorize_ok_iff _ _).mp h.directoryAccepts
    refine ⟨⟨h.valid, h.named, h.agent, howner, hprovider, hmodel, hpermission, hgranted,
      hcapabilities, hremote⟩, hmem, fun hdirect => ⟨?_, hoptin hdirect⟩⟩
    exact hallowed (forAgent_eq_direct.mpr hdirect)
  · rintro ⟨h, hmem, husable⟩
    refine ⟨h.valid, h.named, h.agent, fun now => ?_, ?_⟩
    · refine (runAlone_authorizeProfile_ok_iff h.agent).mpr (check_ok_iff.mpr
        ⟨h.owner, h.provider, h.model, h.permission, fun hdirect => ?_⟩)
      exact (husable (forAgent_eq_direct.mp hdirect)).1
    · exact (DirectoryGrant.authorize_ok_iff _ _).mpr
        ⟨h.granted, h.capabilities, hmem, fun hdirect => (husable hdirect).2, h.remote⟩

theorem enqueueTask_withMode_iff (hs : s.WellFormed) {mode : Option WorkspaceMode}
    {inputs : ℕ → ServiceStep.Input} {task : Task} :
    (runService (SchedulerService.enqueueTask (input.withMode mode)) inputs s).1 = .ok task ↔
      ∃ grant profile, Fits s input grant profile ∧
        Usable grant profile input.directModeTaskOptIn (mode.getD grant.defaultWorkspaceMode) ∧
        task = (input.admittedRow (mode.getD grant.defaultWorkspaceMode) profile).toTask
          (inputs 3).now (nextRowid s.tasks) := by
  rw [enqueueTask_eq_ok_iff hs]
  simp only [admissible_withMode_iff, and_assoc]
  exact Iff.rfl

def Accepts (s : Store) (inputs : ℕ → ServiceStep.Input) (input : CreateTask) : Prop :=
  ∃ task, (runService (SchedulerService.enqueueTask input) inputs s).1 = .ok task

/-- Everything but the mode fits, and a mode can be used, but the default of the grant cannot. -/
def DefaultUnusable (s : Store) (input : CreateTask) : Prop :=
  ∃ grant profile mode, Fits s input grant profile ∧
    Usable grant profile input.directModeTaskOptIn mode ∧
    ¬ Usable grant profile input.directModeTaskOptIn grant.defaultWorkspaceMode

theorem accepts_withMode_iff (hs : s.WellFormed) {inputs : ℕ → ServiceStep.Input}
    {mode : Option WorkspaceMode} :
    Accepts s inputs (input.withMode mode) ↔
      ∃ grant profile, Fits s input grant profile ∧
        Usable grant profile input.directModeTaskOptIn
          (mode.getD grant.defaultWorkspaceMode) := by
  constructor
  · rintro ⟨task, htask⟩
    obtain ⟨grant, profile, hfits, husable, -⟩ := (enqueueTask_withMode_iff hs).mp htask
    exact ⟨grant, profile, hfits, husable⟩
  · rintro ⟨grant, profile, hfits, husable⟩
    exact ⟨_, (enqueueTask_withMode_iff hs).mpr ⟨grant, profile, hfits, husable, rfl⟩⟩

theorem Fits.unique {grant' : DirectoryGrant} {profile' : AgentProfile}
    (h : Fits s input grant profile) (h' : Fits s input grant' profile') :
    grant = grant' ∧ profile = profile' :=
  ⟨Option.some.inj (h.named.symm.trans h'.named), Option.some.inj (h.agent.symm.trans h'.agent)⟩

theorem findTask_enqueueTask (hs : s.WellFormed) {inputs : ℕ → ServiceStep.Input} {task : Task}
    (h : (runService (SchedulerService.enqueueTask input) inputs s).1 = .ok task) :
    (runService (SchedulerService.enqueueTask input) inputs s).2.findTask task.id = some task := by
  rw [runService_enqueueTask hs] at h ⊢
  cases hdecision : admissionDecision s input with
  | error e => simp [hdecision] at h
  | ok row =>
    simp only [hdecision, Except.ok.injEq] at h ⊢
    rw [created_findTask hs, ← h]
    exact if_pos rfl

theorem not_accepts_of_defaultUnusable (hs : s.WellFormed) (h : DefaultUnusable s input)
    (inputs : ℕ → ServiceStep.Input) :
    (∃ mode, Accepts s inputs (input.withMode (some mode))) ∧
      ¬ Accepts s inputs (input.withMode none) := by
  obtain ⟨grant, profile, mode, hfits, husable, hnot⟩ := h
  refine ⟨⟨mode, (accepts_withMode_iff hs).mpr ⟨grant, profile, hfits, husable⟩⟩, ?_⟩
  intro haccepts
  obtain ⟨grant', profile', hfits', hdefault⟩ := (accepts_withMode_iff hs).mp haccepts
  obtain ⟨rfl, rfl⟩ := hfits.unique hfits'
  exact hnot hdefault

end Selection

/-- A task that names no mode is accepted whenever one with a mode is, and gets a mode it could
have named, unless the default of its grant is the one mode that cannot be used. -/
theorem omitted_mode_accepted_iff (s : StoreState) (input : CreateTask)
    (inputs : ℕ → ServiceStep.Input) :
    ((∃ mode, Accepts s.store inputs (input.withMode (some mode))) →
      ∃ task,
        (runService (SchedulerService.enqueueTask (input.withMode none)) inputs s.store).1 =
          .ok task ∧
        (runService (SchedulerService.enqueueTask (input.withMode none)) inputs
          s.store).2.findTask task.id = some task ∧
        Accepts s.store inputs (input.withMode (some task.workspaceMode))) ↔
      ¬ DefaultUnusable s.store input := by
  have hs := s.wellFormed
  constructor
  · intro hpermissive hunusable
    obtain ⟨haccepts, hnot⟩ := not_accepts_of_defaultUnusable hs hunusable inputs
    obtain ⟨task, htask, -⟩ := hpermissive haccepts
    exact hnot ⟨task, htask⟩
  · rintro hnot ⟨mode, haccepts⟩
    obtain ⟨grant, profile, hfits, husable⟩ := (accepts_withMode_iff hs).mp haccepts
    have hdefault : Usable grant profile input.directModeTaskOptIn
        grant.defaultWorkspaceMode := by
      by_contra hunusable
      exact hnot ⟨grant, profile, mode, hfits, husable, hunusable⟩
    obtain ⟨task, htask⟩ : Accepts s.store inputs (input.withMode none) :=
      (accepts_withMode_iff hs).mpr ⟨grant, profile, hfits, hdefault⟩
    refine ⟨task, htask, findTask_enqueueTask hs htask, ?_⟩
    obtain ⟨grant', profile', hfits', husable', rfl⟩ := (enqueueTask_withMode_iff hs).mp htask
    exact (accepts_withMode_iff hs).mpr ⟨grant', profile', hfits', husable'⟩

def directDefaultState : StoreState where
  store := { Store.empty with
    grants := [⟨1, { sampleGrant with
      workspaceModes := [.worktree, .direct]
      defaultWorkspaceMode := .direct }⟩]
    profiles := [sampleProfile] }
  wellFormed := wellFormed_of_same wellFormed_empty rfl rfl

theorem direct_default_refused :
    ¬ ((∃ mode, Accepts directDefaultState.store (fun _ => sampleInput "t1")
        (sampleTask.withMode (some mode))) →
      ∃ task,
        (runService (SchedulerService.enqueueTask (sampleTask.withMode none))
          (fun _ => sampleInput "t1") directDefaultState.store).1 = .ok task ∧
        (runService (SchedulerService.enqueueTask (sampleTask.withMode none))
          (fun _ => sampleInput "t1") directDefaultState.store).2.findTask task.id = some task ∧
        Accepts directDefaultState.store (fun _ => sampleInput "t1")
          (sampleTask.withMode (some task.workspaceMode))) := by
  have haccepted : ((runService (SchedulerService.enqueueTask
      (sampleTask.withMode (some .worktree))) (fun _ => sampleInput "t1")
      directDefaultState.store).1.toOption.isSome) = true := by
    decide +kernel
  have hrefused : ((runService (SchedulerService.enqueueTask (sampleTask.withMode none))
      (fun _ => sampleInput "t1") directDefaultState.store).1.toOption.isSome) = false := by
    decide +kernel
  intro hpermissive
  have hworktree : Accepts directDefaultState.store (fun _ => sampleInput "t1")
      (sampleTask.withMode (some .worktree)) := by
    unfold Accepts
    cases hrun : (runService (SchedulerService.enqueueTask
        (sampleTask.withMode (some .worktree))) (fun _ => sampleInput "t1")
        directDefaultState.store).1 with
    | ok task => exact ⟨task, rfl⟩
    | error e =>
      rw [hrun] at haccepted
      cases haccepted
  obtain ⟨task, htask, -⟩ := hpermissive ⟨.worktree, hworktree⟩
  rw [htask] at hrefused
  cases hrefused

end OpenDaemon
