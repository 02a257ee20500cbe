import OpenDaemon.ServedRequests
import OpenDaemon.StreamInvariant

/-!
# The handlers, one by one

Every handler of the API serves the product of its token: the lemma of a handler
follows its source from the first check to the answer.
-/

namespace OpenDaemon

open RowTable Store Call

def Stream.Mine (st : Stream) : Prop :=
  ∀ event ∈ st.frames ++ st.phase.pending, event.taskId = st.taskId

def ApiResponse.OwnedBy (productId : String) (response : ApiResponse) (s : Store) : Prop :=
  match response with
  | .tasks rows => ∀ row ∈ rows, row.ownerProductId = productId
  | .task row => row.ownerProductId = productId
  | .events stream => s.Owns productId stream.taskId ∧ stream.Mine
  | .permissionResponse row => s.Owns productId row.taskId
  | .permissions rows => ∀ row ∈ rows, s.Owns productId row.taskId
  | .agents rows => ∀ row ∈ rows, row.ownerProductId = productId
  | .agent row => row.ownerProductId = productId
  | .directories rows => ∀ row ∈ rows, row.productId = productId
  | .directory row => row.productId = productId
  | .noContent => True

section Checks
variable {ε α : Type} {x : EventState} {auth : ProductAuth} {productId : String}
  {owned : α → Store → Prop}

theorem serves_requireScope {scope : ApiScope} {fail : AuthError → ε} {f : Unit → ApiCall ε α}
    (h : Serves x productId owned (f ())) :
    Serves x productId owned (ofExcept ((auth.requireScope scope).mapError fail) >>= f) :=
  serves_check fun _ _ => h

theorem serves_ensureProduct {owner : String} {fail : AuthError → ε} {f : Unit → ApiCall ε α}
    (h : owner = auth.productId → Serves x productId owned (f ())) :
    Serves x productId owned (ofExcept ((auth.ensureProduct owner).mapError fail) >>= f) := by
  refine serves_check fun _ hcheck => h ?_
  exact (ensureProduct_ok_iff.mp (mapError_eq_ok.mp hcheck)).symm

theorem serves_answering {fail : ε → ApiFailure} {reply : α → ApiResponse} {c : ApiCall ε α}
    (h : Serves x productId (fun a s => (reply a).OwnedBy productId s) c) :
    Serves x productId (ApiResponse.OwnedBy productId) (answering fail reply c) :=
  Serves.map (Serves.mapError h fail)

end Checks

section Tasks
variable {x : EventState} {auth : ProductAuth}

theorem serves_listTasks (query : TasksApi.TaskListQuery) :
    Serves x auth.productId (fun tasks _ => ∀ task ∈ tasks, task.ownerProductId = auth.productId)
      (TasksApi.list auth query) := by
  refine serves_requireScope (serves_check fun _ _ => ?_)
  refine serves_reading (a := .ok ((x.store.tasks.map Row.value).filter (TaskFilters.matches
    ⟨some auth.productId, query.agentId, query.directoryId, query.status⟩))) (fun input => ?_)
    (serves_ret fun task htask => ?_)
  · rw [ServiceStep.exec, TaskOp.program, runAlone_list]
  · have hmatch := (List.mem_filter.mp htask).2
    simp only [TaskFilters.matches, Option.all_some, Bool.and_eq_true, decide_eq_true_eq] at hmatch
    exact hmatch.1.1.1.symm

theorem backs_of_admissible {s : Store} {input : CreateTask} {grant : DirectoryGrant}
    {profile : AgentProfile} (h : Admissible s input grant profile) (mode : WorkspaceMode) :
    s.Backs (input.admittedRow mode profile) where
  profile :=
    ⟨profile, h.agent,
      (check_ok_iff.mp ((runAlone_authorizeProfile_ok_iff h.agent).mp (h.agentAccepts ""))).1⟩
  grant := ⟨grant, h.named, ((DirectoryGrant.authorize_ok_iff _ _).mp h.directoryAccepts).1.1⟩

theorem change_enqueueTask {s : Store} (hs : s.WellFormed) (input : CreateTask)
    (inputs : ℕ → ServiceStep.Input) :
    s.Change input.ownerProductId (runService (SchedulerService.enqueueTask input) inputs s).2 ∧
      ∀ task, (runService (SchedulerService.enqueueTask input) inputs s).1 = .ok task →
        task.ownerProductId = input.ownerProductId := by
  rw [runService_enqueueTask hs]
  cases hdecision : admissionDecision s input with
  | error e => exact ⟨.same, fun task htask => by cases htask⟩
  | ok row =>
    obtain ⟨grant, profile, hadm, rfl⟩ := admissionDecision_ok_iff.mp hdecision
    refine ⟨.createdTask rfl (backs_of_admissible hadm _), fun task htask => ?_⟩
    obtain rfl := Except.ok.inj htask
    rfl

theorem serves_enqueueTask (hs : x.store.WellFormed) {input : CreateTask} {productId : String}
    (howner : input.ownerProductId = productId) :
    Serves x productId (fun task _ => task.ownerProductId = productId)
      (fromService ((SchedulerService.enqueueTask input).mapError ApiError.task)) := by
  subst howner
  refine serves_fromService fun inputs => ?_
  obtain ⟨hchange, howned⟩ := change_enqueueTask hs input inputs
  rw [runService_mapError]
  exact ⟨hchange, fun task htask => howned task (mapError_eq_ok.mp htask)⟩

theorem fromService_ofExcept {ε α β : Type} (r : Except ε α) (f : α → ServiceCall ε β) :
    fromService (ofExcept r >>= f) = ofExcept r >>= fun a => fromService (f a) := by
  cases r with
  | ok a => rfl
  | error e => rfl

theorem serves_requestsRemoteExecution {α : Type} {productId : String} {owned : α → Store → Prop}
    {request : CreateTaskRequest} {f : Bool → ServiceCall ApiError α}
    (h : ∀ remote, Serves x productId owned (fromService (f remote))) :
    Serves x productId owned (fromService (TasksApi.requestsRemoteExecution request >>= f)) := by
  unfold TasksApi.requestsRemoteExecution
  cases request.providerId with
  | none => exact h false
  | some providerId =>
    refine serves_read (fun input => rfl) fun input => ?_
    simp only [ApiStep.exec, RunStep.exec, ServiceStep.exec]
    cases input.registry with
    | none => exact serves_fail _
    | some registry => exact h _

theorem serves_createTask (hs : x.store.WellFormed) (request : CreateTaskRequest) :
    Serves x auth.productId (fun task _ => task.ownerProductId = auth.productId)
      (fromService (TasksApi.create auth request)) := by
  unfold TasksApi.create
  rw [fromService_ofExcept]
  refine serves_requireScope ?_
  rw [fromService_ofExcept]
  refine serves_ensureProduct fun howner => serves_requestsRemoteExecution fun remote => ?_
  cases remote with
  | false => exact serves_enqueueTask hs howner
  | true =>
    obtain ⟨metadata, hmark, -⟩ := mark_eq request
    simp only [if_true]
    rw [fromService_ofExcept, hmark]
    exact serves_requireScope (serves_enqueueTask hs howner)

theorem serves_get (taskId : String) :
    Serves x auth.productId (fun task _ => task.ownerProductId = auth.productId)
      (TasksApi.get auth taskId) :=
  serves_getTask fun _ _ => serves_requireScope (serves_ensureProduct fun howner =>
    serves_ret howner)

theorem serves_cancelTask (hs : x.store.WellFormed) (taskId : String) :
    Serves x auth.productId (fun task _ => task.ownerProductId = auth.productId)
      (TasksApi.cancel auth taskId) := by
  refine serves_requireScope (serves_getTask fun current hfind =>
    serves_ensureProduct fun howner => ?_)
  refine serves_fromService fun inputs => ?_
  rw [runService_mapError, SchedulerService.cancelTask, runService_tasks_bind, TaskOp.program,
    runAlone_get, hfind]
  dsimp only
  split
  · exact ⟨.same, fun task htask => by cases htask⟩
  have hchange : x.store.Change auth.productId
      (runAlone (TaskOp.cancel taskId).program (later inputs 0).now x.store).2 :=
    .touchedTask ⟨current, hfind, howner⟩ (touched_runAlone rfl _ _)
      (wellFormed_runAlone hs (.cancel taskId))
  rw [runService_tasks]
  simp only [TaskOp.program, TaskStore.cancel] at hchange ⊢
  rcases transition_cases hs taskId .cancelled none (later inputs 0).now with
    ⟨e, heq⟩ | ⟨task, htask, -, -, heq⟩ | ⟨task, htask, -, heq⟩
  · rw [heq]
    exact ⟨.same, fun task htask => by cases htask⟩
  · rw [heq]
    refine ⟨.same, fun result hresult => ?_⟩
    obtain rfl := Except.ok.inj hresult
    rwa [Option.some.inj (htask.symm.trans hfind)]
  · rw [heq] at hchange ⊢
    refine ⟨hchange, fun result hresult => ?_⟩
    obtain rfl := Except.ok.inj hresult
    rwa [Option.some.inj (htask.symm.trans hfind)]

theorem serves_events (taskId : String) (cursor lastEventId : Option String) :
    Serves x auth.productId (fun stream s => s.Owns auth.productId stream.taskId ∧ stream.Mine)
      (TasksApi.events auth taskId cursor lastEventId) := by
  refine serves_requireScope (serves_getTask fun task hfind => serves_ensureProduct fun howner =>
    serves_check fun cursor _ => Serves.mapError ?_ _)
  refine serves_reading (a := .ok task) (fun input => ?_) ?_
  · rw [ServiceStep.exec, TaskOp.program, runAlone_get, hfind]
  · refine serves_read (fun _ => rfl) fun _ => serves_read (fun _ => rfl) fun _ => ?_
    refine serves_ret ⟨⟨task, hfind, howner⟩, fun event hevent => ?_⟩
    exact (mem_listEventsAfter.mp hevent).2.1

theorem serves_postEvent (hs : x.store.WellFormed) (taskId : String)
    (request : TasksApi.TaskEventRequest) :
    Serves x auth.productId (fun response s => s.Owns auth.productId response.taskId)
      (TasksApi.postEvent auth taskId request) := by
  refine serves_requireScope (serves_getTask fun task hfind =>
    serves_ensureProduct fun howner => ?_)
  split
  · exact serves_fail _
  · cases PermissionDecision.fromStr request.decision with
    | none => exact serves_fail _
    | some decision =>
      refine Serves.map (Serves.mapError (serves_touching hs ⟨task, hfind, howner⟩
        (uses_handlers_resolve _) fun _ _ hown => ?_) _)
      exact hown

/-- The query joins the tasks, so a request is listed only with a task of the product. -/
theorem serves_listPermissions (hs : x.store.WellFormed) (context : ProductAuthContext)
    (status : Option PermissionRequestStatus) :
    Serves x context.productId
      (fun permissions s => ∀ row ∈ permissions, s.Owns context.productId row.taskId)
      (PermissionsApi.list (.product context) status) := by
  refine serves_check fun _ _ => serves_read (fun _ => rfl) fun _ => serves_ret fun row hrow => ?_
  obtain ⟨request, hrequest, rfl⟩ := List.mem_map.mp hrow
  obtain ⟨joined, -, hjoined⟩ := List.mem_flatMap.mp hrequest
  obtain ⟨task, htask, rfl⟩ := List.mem_map.mp hjoined
  obtain ⟨hmem, hfilter⟩ := List.mem_filter.mp htask
  obtain ⟨r, hr, rfl⟩ := List.mem_map.mp hmem
  simp only [PermissionsApi.ownerFilter, Option.all_some, Bool.and_eq_true, decide_eq_true_eq]
    at hfilter
  refine ⟨r.value, ?_, hfilter.2⟩
  rw [← hs.mem_findTask hr, hfilter.1]
  rfl

end Tasks

section Agents
variable {x : EventState} {auth : ProductAuth}

theorem serves_listAgents (query : AgentsApi.AgentListQuery) :
    Serves x auth.productId (fun agents _ => ∀ row ∈ agents, row.ownerProductId = auth.productId)
      (AgentsApi.list auth query) := by
  refine serves_requireScope (serves_check fun _ _ => serves_read (fun _ => rfl) fun _ =>
    serves_ret fun row hrow => ?_)
  have hmatch := (List.mem_filter.mp hrow).2
  simp only [AgentProfileFilters.matches, Option.all_some, Bool.and_eq_true,
    decide_eq_true_eq] at hmatch
  exact hmatch.1

theorem serves_validateAgainstRegistry {α : Type} {productId : String} {owned : α → Store → Prop}
    {input : CreateAgentProfile} {f : Unit → ApiCall AgentsApi.ApiError α}
    (h : Serves x productId owned (f ())) :
    Serves x productId owned (AgentsApi.validateAgainstRegistry input >>= f) := by
  refine serves_read (fun _ => rfl) fun host => ?_
  simp only [ApiStep.exec, RunStep.exec, ServiceStep.exec]
  cases host.registry with
  | none => exact serves_fail _
  | some registry => exact serves_check fun _ _ => h

theorem serves_createAgent (request : AgentsApi.CreateAgentRequest) :
    Serves x auth.productId (fun agent _ => agent.ownerProductId = auth.productId)
      (AgentsApi.create auth request) := by
  refine serves_requireScope (serves_ensureProduct fun howner => serves_validateAgainstRegistry ?_)
  refine serves_profileStore (.create request.into) fun now => ?_
  rw [ProfileOp.program]
  rcases runAlone_createProfile request.into now x.store with ⟨e, heq⟩ | ⟨hfresh, heq⟩
  · rw [heq]
    exact ⟨.same, fun agent hagent => by cases hagent⟩
  · rw [heq]
    refine ⟨.createdProfile howner hfresh, fun agent hagent => ?_⟩
    obtain rfl := Except.ok.inj hagent
    exact howner

theorem serves_getAgent (agentId : String) :
    Serves x auth.productId (fun agent _ => agent.ownerProductId = auth.productId)
      (AgentsApi.get auth agentId) :=
  serves_getProfile fun _ _ => serves_requireScope (serves_ensureProduct fun howner =>
    serves_ret howner)

theorem serves_patchAgent (parse : Value → Option AgentsApi.PatchAgentRequest) (agentId : String)
    (body : Value) :
    Serves x auth.productId (fun agent _ => agent.ownerProductId = auth.productId)
      (AgentsApi.patch parse auth agentId body) := by
  refine serves_requireScope (serves_check fun _ _ => ?_)
  cases parse body with
  | none => exact serves_fail _
  | some request =>
    refine serves_getProfile fun current hfind => serves_ensureProduct fun howner =>
      serves_validateAgainstRegistry
        (serves_profileStore (.patch agentId request.into) fun now => ?_)
    rw [ProfileOp.program]
    rcases runAlone_patchProfile agentId request.into now x.store with
      ⟨e, heq⟩ | ⟨found, hfound, heq⟩
    · rw [heq]
      exact ⟨.same, fun agent hagent => by cases hagent⟩
    · obtain rfl := Option.some.inj (hfound.symm.trans hfind)
      rw [heq]
      refine ⟨.patchedProfile hfind howner, fun agent hagent => ?_⟩
      obtain rfl := Except.ok.inj hagent
      exact howner

theorem serves_deleteAgent (agentId : String) :
    Serves x auth.productId (fun _ _ => True) (AgentsApi.delete auth agentId) := by
  refine serves_requireScope (serves_getProfile fun current hfind =>
    serves_ensureProduct fun howner => serves_profileStore (.delete agentId) fun now =>
      ⟨?_, fun _ _ => trivial⟩)
  rw [ProfileOp.program, deleteProfile_state]
  exact .deletedProfile hfind howner

end Agents

section Directories
variable {x : EventState} {auth : ProductAuth}

theorem serves_listDirectories (query : DirectoriesApi.DirectoryListQuery) :
    Serves x auth.productId
      (fun directories _ => ∀ row ∈ directories, row.productId = auth.productId)
      (DirectoriesApi.list auth query) := by
  refine serves_requireScope (serves_check fun _ _ => serves_read (fun _ => rfl) fun _ =>
    serves_ret fun row hrow => ?_)
  have hmatch := (List.mem_filter.mp hrow).2
  simp only [DirectoryGrantFilters.matches, Option.all_some, Bool.and_eq_true,
    decide_eq_true_eq] at hmatch
  exact hmatch.1

theorem runAlone_authorizeProfile_state (request : AgentAuthorizationRequest) (now : String)
    (s : Store) : (runAlone (ProfileStore.authorize request) now s).2 = s := by
  rw [runAlone_authorizeProfile]
  split
  · rfl
  · split <;> rfl

theorem serves_authorizeAgent {α : Type} {productId : String} {owned : α → Store → Prop}
    {request : AgentAuthorizationRequest} {f : AgentProfile → ApiCall DirectoriesApi.ApiError α}
    (h : ∀ profile, Serves x productId owned (f profile)) :
    Serves x productId owned (DirectoriesApi.authorizeAgent request >>= f) := by
  refine serves_read (fun input => ?_) fun input => ?_
  · simp only [ApiStep.exec, RunStep.exec, ServiceStep.exec, ProfileOp.program,
      runAlone_authorizeProfile_state]
  · cases (ApiStep.exec (.run (.service (.profiles (.authorize request)))) input x).1 with
    | error e => exact serves_fail _
    | ok profile => exact h profile

theorem serves_createDirectory (hs : x.store.GrantKeys) (fs : Filesystem)
    (request : DirectoriesApi.CreateDirectoryGrantRequest) :
    Serves x auth.productId (fun directory _ => directory.productId = auth.productId)
      (DirectoriesApi.create fs auth request) := by
  refine serves_requireScope (serves_ensureProduct fun howner => serves_check fun _ _ =>
    serves_authorizeAgent fun _ => serves_grantStore (.create fs request.into) fun now => ?_)
  rw [GrantOp.program, runAlone_createGrant hs]
  cases grantDecision fs request.into with
  | error e => exact ⟨.same, fun directory hdirectory => by cases hdirectory⟩
  | ok decision =>
    refine ⟨.createdGrant (fun _ => rfl) fun _ => howner, fun directory hdirectory => ?_⟩
    obtain rfl := Except.ok.inj hdirectory
    exact howner

theorem serves_getDirectory (directoryId : String) :
    Serves x auth.productId (fun directory _ => directory.productId = auth.productId)
      (DirectoriesApi.get auth directoryId) :=
  serves_getGrant fun _ _ => serves_requireScope (serves_ensureProduct fun howner =>
    serves_ret howner)

theorem serves_patchDirectory (parse : Value → Option DirectoriesApi.PatchDirectoryGrantRequest)
    (directoryId : String) (body : Value) :
    Serves x auth.productId (fun directory _ => directory.productId = auth.productId)
      (DirectoriesApi.patch parse auth directoryId body) := by
  refine serves_requireScope (serves_check fun _ _ => ?_)
  cases parse body with
  | none => exact serves_fail _
  | some request =>
    refine serves_getGrant fun current hfind => serves_ensureProduct fun howner =>
      serves_check fun _ _ => serves_grantStore (.patch directoryId request.into) fun now => ?_
    rw [GrantOp.program]
    rcases runAlone_patchGrant directoryId request.into now x.store with
      ⟨e, heq⟩ | ⟨found, policy, hfound, -, heq⟩
    · rw [heq]
      exact ⟨.same, fun directory hdirectory => by cases hdirectory⟩
    · obtain rfl := Option.some.inj (hfound.symm.trans hfind)
      rw [heq]
      refine ⟨.patchedGrant hfind howner, fun directory hdirectory => ?_⟩
      obtain rfl := Except.ok.inj hdirectory
      exact howner

theorem serves_deleteDirectory (directoryId : String) :
    Serves x auth.productId (fun _ _ => True) (DirectoriesApi.delete auth directoryId) := by
  refine serves_requireScope (serves_getGrant fun current hfind =>
    serves_ensureProduct fun howner => serves_grantStore (.delete directoryId) fun now =>
      ⟨?_, fun _ _ => trivial⟩)
  rw [GrantOp.program, runAlone_deleteGrant]
  exact .deletedGrant hfind howner

end Directories

/-- A request with a token of the product changes and returns what is the product's. -/
theorem serves_handle {x : EventState} (hs : x.store.Consistent) (host : ApiHost)
    (context : ProductAuthContext) (request : ApiRequest) :
    Serves x context.productId (ApiResponse.OwnedBy context.productId)
      (request.handle host context) := by
  have hwf := hs.wellFormed
  cases request with
  | listTasks query => exact serves_answering (serves_listTasks query)
  | createTask request => exact serves_answering (serves_createTask hwf request)
  | getTask taskId => exact serves_answering (serves_get taskId)
  | cancelTask taskId => exact serves_answering (serves_cancelTask hwf taskId)
  | taskEvents taskId cursor lastEventId =>
    exact serves_answering (serves_events taskId cursor lastEventId)
  | postTaskEvent taskId request => exact serves_answering (serves_postEvent hwf taskId request)
  | listPermissions status => exact serves_answering (serves_listPermissions hwf context status)
  | listAgents query => exact serves_answering (serves_listAgents query)
  | createAgent request => exact serves_answering (serves_createAgent request)
  | getAgent agentId => exact serves_answering (serves_getAgent agentId)
  | patchAgent agentId body => exact serves_answering (serves_patchAgent _ agentId body)
  | deleteAgent agentId => exact serves_answering (serves_deleteAgent agentId)
  | listDirectories query => exact serves_answering (serves_listDirectories query)
  | createDirectory request =>
    exact serves_answering (serves_createDirectory hs.grantKeys host.fs request)
  | getDirectory directoryId => exact serves_answering (serves_getDirectory directoryId)
  | patchDirectory directoryId body =>
    exact serves_answering (serves_patchDirectory _ directoryId body)
  | deleteDirectory directoryId => exact serves_answering (serves_deleteDirectory directoryId)

end OpenDaemon
