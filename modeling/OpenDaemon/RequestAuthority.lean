import OpenDaemon.ConcurrentRequests
import OpenDaemon.DirectScope
import OpenDaemon.TaskFootprint

/-!
# What a request may write

Each call has an authority: what its token, or the daemon itself, may do to the
rows, and for which product. Every database step that a handler makes is one
that its authority allows, whatever the other calls have written in between.
Only the direct mode needs to know what was read: a grant that is patched keeps
the modes that the row had, and a task takes its mode from the grant.
-/

namespace OpenDaemon

open Store Call

structure Authority where
  createsTasks : String → Prop
  movesTasks : Prop
  runsTasks : Prop
  decides : Prop
  createsGrants : String → Prop
  changesGrants : Prop
  givesDirect : Prop
  createsProfiles : String → Prop
  changesProfiles : Prop

def ProductAuthContext.authority (context : ProductAuthContext) : Authority where
  createsTasks owner := .tasksCreate ∈ context.scopes ∧ owner = context.productId
  movesTasks := .tasksCancel ∈ context.scopes
  runsTasks := False
  decides := .tasksRead ∈ context.scopes
  createsGrants productId := .directoriesGrant ∈ context.scopes ∧ productId = context.productId
  changesGrants := .directoriesGrant ∈ context.scopes
  givesDirect := .directoriesGrant ∈ context.scopes ∧ .directoriesDirect ∈ context.scopes
  createsProfiles owner := .agentsWrite ∈ context.scopes ∧ owner = context.productId
  changesProfiles := .agentsWrite ∈ context.scopes

def ServerOp.authority : ServerOp → Authority
  | .request context _ => context.authority
  | .dispatch remoteTask =>
    { createsTasks := fun owner => owner = remoteTask.ownerProductId
      movesTasks := False
      runsTasks := False
      decides := False
      createsGrants := fun _ => False
      changesGrants := False
      givesDirect := False
      createsProfiles := fun _ => False
      changesProfiles := False }
  | .work .. =>
    { createsTasks := fun _ => False
      movesTasks := True
      runsTasks := True
      decides := True
      createsGrants := fun _ => False
      changesGrants := False
      givesDirect := False
      createsProfiles := fun _ => False
      changesProfiles := False }

def EventStep.Mild : EventStep → Prop
  | .db q => ∃ event, q = .publish event
  | _ => True

def ApiStep.Aside : ApiStep → Prop
  | .run (.service (.tasks _)) | .run (.service (.grants _)) | .run (.service (.profiles _)) =>
    False
  | .run (.event q) => q.Mild
  | _ => True

namespace Authority

def Allows (a : Authority) (direct : String → Prop) : DbStep → Prop
  | .insertTask row _ => a.createsTasks row.ownerProductId ∧
      (row.workspaceMode = .direct → direct row.directoryId)
  | .updateTaskStatus .. | .releaseLocks .. => a.movesTasks
  | .updateTaskResult .. | .insertEvent .. | .insertPermissionRequest .. | .replaceLock .. =>
    a.runsTasks
  | .resolvePermissionRequest .. => a.decides
  | .insertGrant productId _ _ policy _ => a.createsGrants productId ∧
      (.direct ∈ policy.workspaceModes → a.givesDirect)
  | .updateGrant id policy _ => a.changesGrants ∧
      (.direct ∈ policy.workspaceModes → direct id ∨ a.givesDirect)
  | .deleteGrant _ => a.changesGrants
  | .insertProfile profile => a.createsProfiles profile.ownerProductId
  | .updateProfile .. | .deleteProfile _ => a.changesProfiles
  | .clock | .publish _ | .selectTask _ | .selectTasks | .nextSequence _ | .selectEvent ..
  | .selectHeldLocks _ | .selectGrant _ | .selectProfile _ => True

def AllowsTask (a : Authority) (direct : String → Prop) : TaskOp → Prop
  | .create input => a.createsTasks input.ownerProductId ∧
      (input.workspaceMode = some .direct → direct input.directoryId)
  | .get _ | .list _ => True
  | .transition .. | .cancel _ | .releaseLocks _ => a.movesTasks
  | .saveResult .. | .saveExecutionResult _ | .appendEvent .. | .recordPermissionRequest ..
  | .acquireLock _ => a.runsTasks
  | .resolvePermissionRequest .. => a.decides

def AllowsGrant (a : Authority) : GrantOp → Prop
  | .get _ | .authorize _ => True
  | .create _ input => a.createsGrants input.productId ∧
      (UsesDirect input.workspaceModes input.defaultWorkspaceMode → a.givesDirect)
  | .patch _ changes => a.changesGrants ∧
      (UsesDirect changes.workspaceModes changes.defaultWorkspaceMode → a.givesDirect)
  | .delete _ => a.changesGrants

def AllowsProfile (a : Authority) : ProfileOp → Prop
  | .get _ | .authorize _ => True
  | .create input => a.createsProfiles input.ownerProductId
  | .patch .. | .delete _ => a.changesProfiles

def AllowsCall (a : Authority) (direct : String → Prop) : ApiStep → Prop
  | .run (.service (.tasks op)) => a.AllowsTask direct op
  | .run (.service (.grants op)) => a.AllowsGrant op
  | .run (.service (.profiles op)) => a.AllowsProfile op
  | q => q.Aside

def AllowsStep (a : Authority) (direct : String → Prop) : ServerStep → Prop
  | .db q => a.Allows direct q
  | .api q => q.Aside

end Authority

section Trust
variable (direct : String → Prop)

def TrustedRow : (q : DbStep) → q.Answer → Prop
  | .selectGrant id, answer => ∀ grant, answer = .ok (some grant) →
      .direct ∈ grant.workspaceModes → direct id
  | _, _ => True

def TrustedCall : (q : ApiStep) → q.Answer → Prop
  | .run (.service (.grants (.get id))), answer => ∀ grant, answer = .ok grant →
      .direct ∈ grant.workspaceModes → direct id
  | _, _ => True

def TrustedStep : (q : ServerStep) → q.Answer → Prop
  | .db q, answer => TrustedRow direct q answer
  | .api _, _ => True

namespace Authority
variable (a : Authority)

def rowContract : Contract DbStep DbStep.Answer := ⟨a.Allows direct, TrustedRow direct⟩

def callContract : Contract ApiStep ApiStep.Answer := ⟨a.AllowsCall direct, TrustedCall direct⟩

def stepContract : Contract ServerStep ServerStep.Answer :=
  ⟨a.AllowsStep direct, TrustedStep direct⟩

def serviceContract : Contract ServiceStep ServiceStep.Answer :=
  ⟨fun q => a.AllowsCall direct (.run (.service q)),
    fun q => TrustedCall direct (.run (.service q))⟩

def runContract : Contract RunStep RunStep.Answer :=
  ⟨fun q => a.AllowsCall direct (.run q), fun q => TrustedCall direct (.run q)⟩

end Authority

end Trust

section Stores
variable {a : Authority} {direct : String → Prop}

theorem allows_issued {op : TaskOp} (h : a.AllowsTask direct op) {q : DbStep}
    (hq : op.Issues q) : a.Allows direct q := by
  cases q with
  | insertTask row now =>
    obtain ⟨input, rfl, rfl⟩ := hq
    refine ⟨h.1, fun hmode => h.2 ?_⟩
    cases hgiven : input.workspaceMode with
    | none => simp [TaskStore.newTask, hgiven] at hmode
    | some mode => simpa [TaskStore.newTask, hgiven] using hmode
  | updateTaskStatus id next payload sequence now =>
    rcases hq with rfl | ⟨rfl, -⟩
    · exact h
    · exact h
  | updateTaskResult id result =>
    rcases hq with rfl | ⟨⟨taskId, finalMessage, changedFiles, rfl⟩, -⟩
    · exact h
    · exact h
  | insertEvent | insertPermissionRequest | resolvePermissionRequest | replaceLock | releaseLocks =>
    obtain rfl := hq
    exact h
  | insertGrant | updateGrant | deleteGrant | insertProfile | updateProfile | deleteProfile =>
    exact hq.elim
  | clock | publish | selectTask | selectTasks | nextSequence | selectEvent | selectHeldLocks
  | selectGrant | selectProfile => trivial

theorem uses_taskProgram {op : TaskOp} (h : a.AllowsTask direct op) :
    op.program.Uses (a.Allows direct) :=
  op.uses_issued.mono fun _ hq => allows_issued h hq

theorem keeps_sendGrant {q : DbStep} (hq : a.Allows direct q) :
    (GrantStore.send q).Keeps (a.rowContract direct) fun row => TrustedRow direct q (.ok row) := by
  refine ⟨hq, fun answer hanswer => ?_⟩
  cases answer with
  | ok row => exact hanswer
  | error e => trivial

theorem keeps_getGrant (id : String) : (GrantStore.get id).Keeps (a.rowContract direct)
    fun grant => .direct ∈ grant.workspaceModes → direct id := by
  refine keeps_bind (keeps_sendGrant (q := .selectGrant id) trivial) fun row hrow => ?_
  cases row with
  | none => trivial
  | some grant => exact hrow grant rfl

theorem keeps_patchGrant (id : String) (changes : PatchDirectoryGrant) (hchanges : a.changesGrants)
    (hdirect : UsesDirect changes.workspaceModes changes.defaultWorkspaceMode → a.givesDirect) :
    (GrantStore.patch id changes).Keeps (a.rowContract direct) fun _ => True := by
  unfold GrantStore.patch
  split
  · trivial
  · refine keeps_bind (keeps_getGrant id) fun current hcurrent =>
      keeps_checkError fun policy hpolicy => ?_
    have hallowed : a.Allows direct (.updateGrant id policy "") := by
      refine ⟨hchanges, fun hmem => ?_⟩
      rcases (apply_listed hpolicy).2 hmem with hbefore | hnow
      · exact .inl (hcurrent hbefore)
      · exact .inr (hdirect hnow)
    exact keeps_bind (keeps_sendGrant (q := .clock) trivial) fun now _ =>
      keeps_bind (keeps_sendGrant (q := .updateGrant id policy now) hallowed) fun _ _ =>
      (keeps_getGrant id).weaken fun _ _ => trivial

def GrantOp.Trusted (direct : String → Prop) : (op : GrantOp) → op.Result → Prop
  | .get id, grant => .direct ∈ grant.workspaceModes → direct id
  | _, _ => True

theorem keeps_grantProgram {op : GrantOp} (h : a.AllowsGrant op) :
    op.program.Keeps (a.rowContract direct) (op.Trusted direct) := by
  cases op with
  | get id => exact keeps_getGrant id
  | create fs input =>
    refine keeps_checkError fun path _ => keeps_check fun policy hpolicy => ?_
    refine keeps_bind (keeps_sendGrant (q := .clock) trivial) fun now _ => ?_
    have hallowed : a.Allows direct (.insertGrant input.productId input.agentId path policy now) :=
      ⟨h.1, fun hmem => h.2 ((policyFromCreate_listed hpolicy).2 hmem)⟩
    exact keeps_bind (keeps_sendGrant hallowed) fun id _ =>
      (keeps_getGrant id).weaken fun _ _ => trivial
  | patch id changes => exact keeps_patchGrant id changes h.1 h.2
  | delete id =>
    refine keeps_bind (keeps_sendGrant (q := .deleteGrant id) h) fun changed _ => ?_
    cases changed <;> trivial
  | authorize request =>
    exact keeps_bind (keeps_getGrant request.directoryId) fun grant _ =>
      keeps_check fun _ _ => trivial

theorem uses_sendProfile {q : DbStep} (hq : a.Allows direct q) :
    (ProfileStore.send q).Uses (a.Allows direct) :=
  DbStep.uses_query hq _

theorem uses_getProfileRow (id : String) : (ProfileStore.get id).Uses (a.Allows direct) := by
  refine (uses_sendProfile (q := .selectProfile id) trivial).bind fun row => ?_
  cases row <;> trivial

theorem uses_profileProgram {op : ProfileOp} (h : a.AllowsProfile op) :
    op.program.Uses (a.Allows direct) := by
  cases op with
  | get id => exact uses_getProfileRow id
  | create input =>
    refine (uses_check _).bind fun _ => (uses_sendProfile (q := .clock) trivial).bind fun now =>
      Uses.bind ⟨h, fun answer => ?_⟩ fun _ => uses_getProfileRow _
    cases answer <;> trivial
  | patch id changes =>
    change (ProfileStore.patch id changes).Uses _
    unfold ProfileStore.patch
    split
    · trivial
    · exact (uses_getProfileRow id).bind fun current => (uses_check _).bind fun _ =>
        (uses_sendProfile (q := .clock) trivial).bind fun now =>
        (uses_sendProfile (q := .updateProfile id (changes.apply current) now) h).bind fun _ =>
        uses_getProfileRow id
  | delete id =>
    refine (uses_sendProfile (q := .deleteProfile id) h).bind fun changed => ?_
    cases changed <;> trivial
  | authorize request =>
    exact (uses_getProfileRow request.agentId).bind fun _ => (uses_check _).bind fun _ => trivial

theorem keeps_ofStore {ε ε' α : Type} {c : Call DbStep DbStep.Answer ε α} {post : α → Prop}
    (hc : c.Keeps (a.rowContract direct) post) :
    (ServerStep.ofStore c : Call ServerStep ServerStep.Answer ε' (Except ε α)).Keeps
      (a.stepContract direct) fun r => ∀ result, r = .ok result → post result := by
  unfold ServerStep.ofStore
  refine Keeps.attempt (hc.embed ?_ ?_)
  · exact fun _ h => h
  · exact fun _ _ h => h

/-- The small steps of an allowed step are allowed, and its answer is trusted as their answers
are. -/
theorem keeps_unfolded {ε : Type} {q : ApiStep} (hq : a.AllowsCall direct q) :
    (q.unfolded : Call ServerStep ServerStep.Answer ε q.Answer).Keeps (a.stepContract direct)
      (TrustedCall direct q) := by
  match q with
  | .run (.service (.tasks op)) =>
    exact (keeps_ofStore (.of_uses (uses_taskProgram hq))).weaken fun _ _ => trivial
  | .run (.service (.grants op)) =>
    refine (keeps_ofStore (keeps_grantProgram hq)).weaken fun r hr => ?_
    cases op with
    | get id => exact hr
    | create | patch | delete | authorize => trivial
  | .run (.service (.profiles op)) =>
    exact (keeps_ofStore (.of_uses (uses_profileProgram hq))).weaken fun _ _ => trivial
  | .run (.service .loadRegistry) | .run (.service (.getRuntime _))
  | .run (.service (.prepareWorkspace ..)) | .run (.service (.executeAdapter _))
  | .run (.service .clock) | .run (.event _) | .listProfiles _ | .listGrants _
  | .listPermissionRequests _ | .subscribe | .listEventsAfter .. =>
    exact ⟨hq, fun _ _ => trivial⟩

end Stores

section Services
variable {a : Authority} {direct : String → Prop}

theorem keeps_service {ε α : Type} {c : ServiceCall ε α} {post : α → Prop}
    (hc : c.Keeps (a.serviceContract direct) post) :
    (fromService c).Keeps (a.callContract direct) post := by
  unfold fromService
  refine hc.embed ?_ ?_
  · exact fun _ h => h
  · exact fun _ _ h => h

theorem keeps_schedulerTasks (op : TaskOp) (h : a.AllowsTask direct op) :
    (SchedulerService.tasks op).Keeps (a.serviceContract direct) fun _ => True := by
  refine ⟨h, fun answer _ => ?_⟩
  cases answer <;> trivial

theorem mem_of_selectWorkspaceMode {requested : Option WorkspaceMode} {grant : DirectoryGrant}
    {optIn : Bool} {mode : WorkspaceMode}
    (h : selectWorkspaceMode requested grant optIn = .ok mode) : mode ∈ grant.workspaceModes := by
  simp only [selectWorkspaceMode, ite_error_eq_ok, not_not, Except.ok.injEq] at h
  obtain ⟨hmem, -, rfl⟩ := h
  exact hmem

theorem keeps_enqueueTask {input : CreateTask} (howner : a.createsTasks input.ownerProductId) :
    (SchedulerService.enqueueTask input).Keeps (a.serviceContract direct) fun _ => True := by
  refine keeps_checkError fun _ _ => ?_
  have hgrant : (SchedulerService.getGrant input.directoryId).Keeps (a.serviceContract direct)
      fun grant => .direct ∈ grant.workspaceModes → direct input.directoryId := by
    refine ⟨trivial, fun answer hanswer => ?_⟩
    cases answer with
    | ok grant => exact hanswer grant rfl
    | error e => trivial
  refine keeps_bind hgrant fun grant hdirect => keeps_check fun mode hmode => ?_
  have hprofile : (SchedulerService.getProfile input.agentId).Keeps (a.serviceContract direct)
      fun _ => True := by
    refine ⟨trivial, fun answer _ => ?_⟩
    cases answer <;> trivial
  refine keeps_bind hprofile fun profile _ => keeps_check fun _ _ => ?_
  refine keeps_seq ⟨trivial, fun answer _ => ?_⟩ fun _ => ?_
  · cases answer <;> trivial
  · refine keeps_schedulerTasks _ ⟨howner, fun hchosen => hdirect ?_⟩
    rw [← Option.some.inj hchosen]
    exact mem_of_selectWorkspaceMode hmode

theorem keeps_cancelTask (taskId : String) (h : a.movesTasks) :
    (SchedulerService.cancelTask taskId).Keeps (a.serviceContract direct) fun _ => True := by
  refine keeps_bind (keeps_schedulerTasks (.get taskId) trivial) fun task _ => ?_
  split
  · trivial
  · exact keeps_schedulerTasks _ h

theorem keeps_ingest (remoteTask : RemoteDispatchTask)
    (h : a.createsTasks remoteTask.ownerProductId) :
    (ControlPlaneDispatchService.ingest remoteTask).Keeps (a.serviceContract direct)
      fun _ => True := by
  refine keeps_seq (keeps_seq ((keeps_schedulerTasks (.list _) trivial).mapError _)
    fun _ => trivial) fun existing => ?_
  cases existing with
  | some task => trivial
  | none =>
    refine keeps_check fun input hinput => (keeps_enqueueTask ?_).mapError _
    simp only [ControlPlaneDispatchService.toCreateTask, bind_eq_ok] at hinput
    obtain ⟨_, -, _, -, heq⟩ := hinput
    rw [← Except.ok.inj heq]
    exact h

end Services

section Permissions
variable {S : Type} {A : S → Type} {io : Access S A} {P : S → Prop}
  (hget : ∀ id, (io.tasks (.get id)).Uses P) (hask : ∀ q, q.Mild → (io.ask q).Uses P)
include hget hask

theorem uses_permissionRequest (taskId requestId : String) :
    (TaskEventService.getPermissionRequest io taskId requestId).Uses P := by
  refine (hget taskId).bind fun _ =>
    (hask (.selectPermissionRequest taskId requestId) trivial).bind fun answer => ?_
  rcases answer with e | found
  · trivial
  · cases found <;> trivial

theorem uses_awaitDecision (taskId requestId : String) :
    (TaskEventService.awaitPermissionDecision io taskId requestId).Uses P := by
  refine (uses_permissionRequest hget hask taskId requestId).bind fun request => ?_
  split
  · cases request.response <;> trivial
  · refine (hask (.registerWaiter taskId requestId) trivial).bind fun receiver =>
      (hask (.receive receiver) trivial).bind fun decision => ?_
    cases decision <;> trivial

omit hget in
theorem uses_announceResolution (taskId : String) (resolution : PermissionResolution) :
    (TaskEventService.announceResolution io taskId resolution).Uses P := by
  unfold TaskEventService.announceResolution
  cases PermissionDecisionEvent.fromValue resolution.event.payload with
  | none => trivial
  | some decided =>
    have hnotify : (io.ask (.notifyPermissionResolution taskId decided) >>=
        fun _ => (return resolution : Call S A TaskEventServiceError PermissionResolution)).Uses P :=
      (hask (.notifyPermissionResolution taskId decided) trivial).bind fun _ => trivial
    dsimp only
    split
    · exact hnotify
    · exact (hask (.db (.publish resolution.event)) ⟨_, rfl⟩).bind fun _ => hnotify

theorem uses_resolveResponse (taskId : String) (response : PermissionResponseRequest)
    (hresolve : (io.tasks (.resolvePermissionRequest taskId response.requestId response.decision
      response.reason)).Uses P) :
    (TaskEventService.resolvePermissionResponse io taskId response).Uses P := by
  refine (uses_permissionRequest hget hask taskId _).bind fun existing => ?_
  have hrest : ∀ supported : Bool, (if supported then do
        let resolution ← io.tasks (.resolvePermissionRequest taskId response.requestId
          response.decision response.reason)
        TaskEventService.announceResolution io taskId resolution
      else .fail .permissionResponseNotSupported :
        Call S A TaskEventServiceError PermissionResolution).Uses P := by
    intro supported
    cases supported with
    | false => trivial
    | true => exact hresolve.bind fun resolution => uses_announceResolution hask taskId resolution
  dsimp only
  split
  · exact (hask (.hasWaiter taskId response.requestId) trivial).bind hrest
  · exact hrest true

end Permissions

section Handlers
variable {a : Authority} {direct : String → Prop}

theorem keeps_taskStore (op : TaskOp) (h : a.AllowsTask direct op) :
    (TasksApi.taskStore op).Keeps (a.callContract direct) fun _ => True :=
  keeps_service ((keeps_schedulerTasks op h).mapError _)

theorem keeps_profileStore (op : ProfileOp) (h : a.AllowsProfile op) :
    (AgentsApi.profileStore op).Keeps (a.callContract direct) fun _ => True := by
  refine ⟨h, fun answer _ => ?_⟩
  cases answer <;> trivial

theorem keeps_grantStore (op : GrantOp) (h : a.AllowsGrant op) :
    (DirectoriesApi.grantStore op).Keeps (a.callContract direct) fun _ => True := by
  refine ⟨h, fun answer _ => ?_⟩
  cases answer <;> trivial

theorem keeps_registry (input : CreateAgentProfile) :
    (AgentsApi.validateAgainstRegistry input).Keeps (a.callContract direct) fun _ => True := by
  refine ⟨trivial, fun registry _ => ?_⟩
  cases registry with
  | none => trivial
  | some registry => exact .of_uses (uses_check _)

theorem keeps_authorizeAgent (request : AgentAuthorizationRequest) :
    (DirectoriesApi.authorizeAgent request).Keeps (a.callContract direct) fun _ => True := by
  refine ⟨trivial, fun answer _ => ?_⟩
  cases answer <;> trivial

theorem uses_handlersTasks (op : TaskOp) (h : a.AllowsTask direct op) :
    (TaskEventService.handlers.tasks op).Uses (a.AllowsCall direct) := by
  refine ⟨h, fun answer => ?_⟩
  cases answer <;> trivial

theorem uses_handlersAsk (q : EventStep) (hq : q.Mild) :
    (TaskEventService.handlers.ask q).Uses (a.AllowsCall direct) :=
  ⟨hq, fun _ => trivial⟩

theorem keeps_scoped {ε α : Type} {auth : ProductAuth} {scope : ApiScope} {fail : AuthError → ε}
    {f : Unit → ApiCall ε α} {post : α → Prop}
    (h : scope ∈ auth.scopes → (f ()).Keeps (a.callContract direct) post) :
    (ofExcept ((auth.requireScope scope).mapError fail) >>= f).Keeps (a.callContract direct) post :=
  keeps_checkError fun _ hscope => h (requireScope_ok_iff.mp hscope)

theorem keeps_owned {ε α : Type} {auth : ProductAuth} {owner : String} {fail : AuthError → ε}
    {f : Unit → ApiCall ε α} {post : α → Prop}
    (h : owner = auth.productId → (f ()).Keeps (a.callContract direct) post) :
    (ofExcept ((auth.ensureProduct owner).mapError fail) >>= f).Keeps (a.callContract direct)
      post :=
  keeps_checkError fun _ howner => h (ensureProduct_ok_iff.mp howner).symm

end Handlers

section Requests
variable (direct : String → Prop) (context : ProductAuthContext)

theorem keeps_createTask (request : CreateTaskRequest) :
    (TasksApi.create context.auth request).Keeps (context.authority.serviceContract direct)
      fun _ => True := by
  refine keeps_checkError fun _ hscope => keeps_checkError fun _ howner => ?_
  have hcreates : context.authority.createsTasks request.ownerProductId :=
    ⟨requireScope_ok_iff.mp hscope, (ensureProduct_ok_iff.mp howner).symm⟩
  have hlookup : (TasksApi.requestsRemoteExecution request).Keeps
      (context.authority.serviceContract direct) fun _ => True := by
    unfold TasksApi.requestsRemoteExecution
    cases request.providerId with
    | none => trivial
    | some providerId =>
      refine ⟨trivial, fun registry _ => ?_⟩
      cases registry <;> trivial
  refine keeps_bind hlookup fun remote _ => ?_
  cases remote with
  | false => exact (keeps_enqueueTask hcreates).mapError _
  | true =>
    refine keeps_checkError fun _ _ => (keeps_enqueueTask ?_).mapError _
    unfold TasksApi.markRemoteExecutionApproved
    split <;> exact hcreates

theorem keeps_postEvent (taskId : String) (request : TasksApi.TaskEventRequest) :
    (TasksApi.postEvent context.auth taskId request).Keeps
      (context.authority.callContract direct) fun _ => True := by
  refine keeps_scoped fun hscope => keeps_bind (keeps_taskStore (.get taskId) trivial)
    fun task _ => keeps_owned fun _ => ?_
  split
  · trivial
  · cases PermissionDecision.fromStr request.decision with
    | none => trivial
    | some decision =>
      have hresolve := uses_resolveResponse (P := context.authority.AllowsCall direct)
        (fun id => uses_handlersTasks (.get id) trivial) uses_handlersAsk taskId
        ⟨request.requestId, decision, request.reason⟩ (uses_handlersTasks _ hscope)
      exact keeps_bind ((Keeps.of_uses hresolve).mapError _) fun _ _ => trivial

theorem keeps_events (taskId : String) (cursor lastEventId : Option String) :
    (TasksApi.events context.auth taskId cursor lastEventId).Keeps
      (context.authority.callContract direct) fun _ => True := by
  refine keeps_scoped fun _ => keeps_bind (keeps_taskStore (.get taskId) trivial)
    fun task _ => keeps_owned fun _ => keeps_check fun position _ => Keeps.mapError ?_ _
  refine keeps_bind (Keeps.of_uses (uses_handlersTasks (.get taskId) trivial))
    fun task _ => ?_
  exact ⟨trivial, fun _ _ => ⟨trivial, fun _ _ => trivial⟩⟩

theorem keeps_patchAgent (parse : Value → Option AgentsApi.PatchAgentRequest) (agentId : String)
    (body : Value) : (AgentsApi.patch parse context.auth agentId body).Keeps
      (context.authority.callContract direct) fun _ => True := by
  refine keeps_scoped fun hscope => keeps_check fun _ _ => ?_
  cases parse body with
  | none => trivial
  | some request =>
    exact keeps_bind (keeps_profileStore (.get agentId) trivial) fun current _ =>
      keeps_owned fun _ => keeps_bind (keeps_registry _) fun _ _ => keeps_profileStore _ hscope

theorem keeps_createDirectory (fs : Filesystem)
    (request : DirectoriesApi.CreateDirectoryGrantRequest) :
    (DirectoriesApi.create fs context.auth request).Keeps
      (context.authority.callContract direct) fun _ => True := by
  refine keeps_scoped fun hscope => keeps_owned fun howner =>
    keeps_checkError fun _ hdirect => ?_
  exact keeps_bind (keeps_authorizeAgent _) fun _ _ =>
    keeps_grantStore _ ⟨⟨hscope, howner⟩, requireDirectScope_eq_ok.mp hdirect⟩

theorem keeps_patchDirectory (parse : Value → Option DirectoriesApi.PatchDirectoryGrantRequest)
    (directoryId : String) (body : Value) :
    (DirectoriesApi.patch parse context.auth directoryId body).Keeps
      (context.authority.callContract direct) fun _ => True := by
  refine keeps_scoped fun hscope => keeps_check fun _ _ => ?_
  cases parse body with
  | none => trivial
  | some request =>
    exact keeps_bind (keeps_grantStore (.get directoryId) trivial) fun current _ =>
      keeps_owned fun _ => keeps_checkError fun _ hdirect =>
      keeps_grantStore _ ⟨hscope, requireDirectScope_eq_ok.mp hdirect⟩

theorem keeps_answering {a : Authority} {ε α : Type} {c : ApiCall ε α}
    (hc : c.Keeps (a.callContract direct) fun _ => True) (fail : ε → ApiFailure)
    (reply : α → ApiResponse) :
    (answering fail reply c).Keeps (a.callContract direct) fun _ => True :=
  keeps_bind (hc.mapError fail) fun _ _ => trivial

theorem keeps_handle (host : ApiHost) (request : ApiRequest) :
    (request.handle host context).Keeps (context.authority.callContract direct)
      fun _ => True := by
  cases request with
  | listTasks query =>
    refine keeps_answering direct ?_ _ _
    exact keeps_scoped fun _ => keeps_checkError fun _ _ =>
      keeps_taskStore (.list _) trivial
  | createTask request =>
    exact keeps_answering direct (keeps_service (keeps_createTask direct context request)) _ _
  | getTask taskId =>
    refine keeps_answering direct ?_ _ _
    exact keeps_bind (keeps_taskStore (.get taskId) trivial) fun _ _ =>
      keeps_scoped fun _ => keeps_owned fun _ => trivial
  | cancelTask taskId =>
    refine keeps_answering direct ?_ _ _
    exact keeps_scoped fun hscope =>
      keeps_bind (keeps_taskStore (.get taskId) trivial) fun _ _ => keeps_owned fun _ =>
      keeps_service ((keeps_cancelTask taskId hscope).mapError _)
  | taskEvents taskId cursor lastEventId =>
    exact keeps_answering direct (keeps_events direct context taskId cursor lastEventId) _ _
  | postTaskEvent taskId request =>
    exact keeps_answering direct (keeps_postEvent direct context taskId request) _ _
  | listPermissions status =>
    refine keeps_answering direct ?_ _ _
    exact keeps_check fun _ _ => ⟨trivial, fun _ _ => trivial⟩
  | listAgents query =>
    refine keeps_answering direct ?_ _ _
    exact keeps_scoped fun _ => keeps_checkError fun _ _ => ⟨trivial, fun _ _ => trivial⟩
  | createAgent request =>
    refine keeps_answering direct ?_ _ _
    exact keeps_scoped fun hscope => keeps_owned fun howner =>
      keeps_bind (keeps_registry _) fun _ _ => keeps_profileStore _ ⟨hscope, howner⟩
  | getAgent agentId =>
    refine keeps_answering direct ?_ _ _
    exact keeps_bind (keeps_profileStore (.get agentId) trivial) fun _ _ =>
      keeps_scoped fun _ => keeps_owned fun _ => trivial
  | patchAgent agentId body =>
    exact keeps_answering direct (keeps_patchAgent direct context _ agentId body) _ _
  | deleteAgent agentId =>
    refine keeps_answering direct ?_ _ _
    exact keeps_scoped fun hscope =>
      keeps_bind (keeps_profileStore (.get agentId) trivial) fun _ _ =>
      keeps_owned fun _ => keeps_profileStore _ hscope
  | listDirectories query =>
    refine keeps_answering direct ?_ _ _
    exact keeps_scoped fun _ => keeps_checkError fun _ _ => ⟨trivial, fun _ _ => trivial⟩
  | createDirectory request =>
    exact keeps_answering direct (keeps_createDirectory direct context host.fs request) _ _
  | getDirectory directoryId =>
    refine keeps_answering direct ?_ _ _
    exact keeps_bind (keeps_grantStore (.get directoryId) trivial) fun _ _ =>
      keeps_scoped fun _ => keeps_owned fun _ => trivial
  | patchDirectory directoryId body =>
    exact keeps_answering direct (keeps_patchDirectory direct context _ directoryId body) _ _
  | deleteDirectory directoryId =>
    refine keeps_answering direct ?_ _ _
    exact keeps_scoped fun hscope =>
      keeps_bind (keeps_grantStore (.get directoryId) trivial) fun _ _ =>
      keeps_owned fun _ => keeps_grantStore _ hscope

end Requests

section Work
variable {a : Authority} (direct : String → Prop) (hmoves : a.movesTasks) (hruns : a.runsTasks)
include hmoves hruns

theorem uses_executeTask (config : SchedulerConfig) (taskId : String) :
    (ExecutionService.executeTask config taskId).Uses (a.serviceContract direct).allowed := by
  have hget : ∀ id, (a.serviceContract direct).allowed (.tasks (.get id)) := fun _ => trivial
  have hmove : ∀ id next payload,
      (a.serviceContract direct).allowed (.tasks (.transition id next payload)) :=
    fun _ _ _ => hmoves
  refine (uses_executionTasks (.get taskId) trivial).bind fun task => ?_
  split
  · trivial
  · refine (uses_getProfile trivial).bind fun profile => (uses_executionGrant trivial).bind
      fun grant => (uses_loadRegistry trivial).bind fun registry => (uses_ofExcept _).bind
      fun manifest => (uses_getRuntime manifest trivial).bind fun runtime =>
      (uses_ofExcept _).bind fun executable => ?_
    unfold ExecutionService.runTask
    refine (uses_acquireDirectoryLock task hget (fun _ => trivial) (fun _ => trivial)
      (fun _ => hruns) fun _ _ => hmove _ _ _).bind fun _ => ?_
    refine ((uses_prepareWorkspace hget (fun _ => trivial) (hmove _)
      fun _ _ _ => trivial).mapError _).bind fun workspace => ?_
    refine Uses.bind ((uses_tasks _ (hmove ..)).mapError _) fun _ => (uses_ofExcept _).bind
      fun _ => (uses_executionTasks (.get taskId) trivial).bind fun current => ?_
    exact ⟨trivial, fun outcome => uses_persistOutcome hget (fun _ _ => hruns)
      (fun _ _ => hmoves) (fun _ => hruns) trivial outcome workspace⟩

omit hmoves hruns in
theorem keeps_executionCall {α : Type} {c : ExecutionCall α}
    (hc : c.Keeps (a.serviceContract direct) fun _ => True) :
    (executionCall c).Keeps (a.runContract direct) fun _ => True := by
  unfold executionCall
  refine hc.embed ?_ ?_
  · exact fun _ h => h
  · exact fun _ _ h => h

omit hmoves hruns in
theorem uses_callsTasks (op : TaskOp) (h : a.AllowsTask direct op) :
    (TaskEventService.calls.tasks op).Uses (a.runContract direct).allowed := by
  refine ⟨h, fun answer => ?_⟩
  cases answer <;> trivial

omit hmoves hruns in
theorem uses_callsAsk (q : EventStep) (hq : q.Mild) :
    (TaskEventService.calls.ask q).Uses (a.runContract direct).allowed :=
  ⟨hq, fun _ => trivial⟩

theorem keeps_work (hdecides : a.decides) (config : SchedulerConfig) (taskId : String)
    (op : RunOp) : (op.program config taskId).Keeps (a.runContract direct) fun _ => True := by
  have hget : ∀ id, (TaskEventService.calls.tasks (.get id)).Uses
      (a.runContract direct).allowed := fun _ => uses_callsTasks direct _ trivial
  cases op with
  | execute =>
    exact keeps_executionCall direct (.of_uses (uses_executeTask direct hmoves hruns config taskId))
  | cancel =>
    exact keeps_executionCall direct ((keeps_cancelTask taskId hmoves).mapError _)
  | bridgePermissionRequest request =>
    refine Keeps.mapError (.of_uses ?_) _
    exact (uses_callsTasks direct (.recordPermissionRequest taskId request) hruns).bind
      fun _ => uses_awaitDecision hget (uses_callsAsk direct) taskId request.requestId
  | resolvePermissionResponse response =>
    refine Keeps.mapError (.of_uses ?_) _
    exact uses_resolveResponse hget (uses_callsAsk direct) taskId response
      (uses_callsTasks direct _ hdecides)

end Work

/-- Every step of every call is one that its authority allows. -/
theorem keeps_calls (host : ApiHost) (config : SchedulerConfig) (direct : String → Prop)
    (op : ServerOp) : (op.calls host config).Keeps (op.authority.callContract direct)
      fun _ => True := by
  cases op with
  | request context request => exact (keeps_handle direct context host request).mapError _
  | dispatch remoteTask =>
    exact (keeps_service (keeps_ingest remoteTask rfl)).mapError _
  | work taskId op =>
    have hwork := keeps_work (a := (ServerOp.work taskId op).authority) direct trivial trivial
      trivial config taskId op
    refine Keeps.embed ?_ ?_ hwork
    · exact fun _ h => h
    · exact fun _ _ h => h

theorem keeps_serverProgram (host : ApiHost) (config : SchedulerConfig) (direct : String → Prop)
    (op : ServerOp) : (op.program host config).Keeps (op.authority.stepContract direct)
      fun _ => True :=
  (keeps_calls host config direct op).unfoldSteps fun _ hq => keeps_unfolded hq

end OpenDaemon
