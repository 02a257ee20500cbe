import OpenDaemon.ProductIsolation
import OpenDaemon.RequestAuthority
import OpenDaemon.TaskRows

/-!
# What no interleaving of requests can do

However requests, dispatches and work on tasks are interleaved, a row was there
before or comes from a call that had the authority to create it for its product;
a table that no call may change stays as it is; and the direct mode, in grants
and in tasks, comes from a token that may give it or from a grant that had it.
-/

namespace OpenDaemon

open Runs Interleaving RowTable Store Call

section Rows
variable {q : DbStep} {s s' : Store}

theorem task_of_effect (h : Effect s s' q) {r : Row Task} (hr : r ∈ s'.tasks) :
    (∃ old ∈ s.tasks, old.value.id = r.value.id ∧ old.value.creation = r.value.creation) ∨
    ∃ row now, q = .insertTask row now ∧ r.value.creation = (row, now) := by
  have hupdated : ∀ {id : String} {f : Task → Task}, (∀ task, (f task).id = task.id) →
      (∀ task, (f task).creation = task.creation) → s'.tasks = (s.updateTask id f).tasks →
      ∃ old ∈ s.tasks, old.value.id = r.value.id ∧ old.value.creation = r.value.creation := by
    intro id f hid hcreation htasks
    rw [htasks] at hr
    obtain ⟨old, hold, rfl⟩ := List.mem_map.mp hr
    refine ⟨old, hold, ?_⟩
    split
    · exact ⟨(hid _).symm, (hcreation _).symm⟩
    · exact ⟨rfl, rfl⟩
  cases h with
  | quiet q htasks hevents => exact .inl ⟨r, htasks ▸ hr, rfl, rfl⟩
  | created row now htasks hevents =>
    rw [htasks, mem_insert] at hr
    rcases hr with hold | rfl
    · exact .inl ⟨r, hold, rfl, rfl⟩
    · exact .inr ⟨row, now, rfl, rfl⟩
  | transitioned id next payload sequence now hu htasks hevents =>
    exact .inl (hupdated (fun task => task.afterTransition_id next now)
      (fun task => creation_afterTransition task next now) htasks)
  | resulted id result htasks hevents =>
    exact .inl (hupdated (fun task => task.withResult_id result)
      (fun task => creation_withResult task result) htasks)
  | logged q event hl hu htasks hevents => exact .inl ⟨r, htasks ▸ hr, rfl, rfl⟩

inductive GrantOrigin (s : Store) (grant : DirectoryGrant) : DbStep → Prop
  | kept (q : DbStep) (old : Row DirectoryGrant) (hold : old ∈ s.grants)
      (hsame : old.value = grant) : GrantOrigin s grant q
  | updated (id now : String) (policy : DirectoryGrantPolicy) (old : Row DirectoryGrant)
      (hold : old ∈ s.grants) (hid : old.value.id = id)
      (hgrant : grant = old.value.withPolicy policy now) :
      GrantOrigin s grant (.updateGrant id policy now)
  | inserted (productId agentId path now : String) (policy : DirectoryGrantPolicy)
      (hproduct : grant.productId = productId)
      (hmodes : grant.workspaceModes = policy.workspaceModes) :
      GrantOrigin s grant (.insertGrant productId agentId path policy now)

theorem grant_of_insert {productId agentId path at_ : String} {policy : DirectoryGrantPolicy}
    (input : DbStep.Input) {r : Row DirectoryGrant}
    (hr : r ∈ ((DbStep.insertGrant productId agentId path policy at_).exec input s).2.grants) :
    GrantOrigin s r.value (.insertGrant productId agentId path policy at_) := by
  obtain ⟨e, he⟩ | ⟨now, row, t, ha, he⟩ :=
    exec_cases (.insertGrant productId agentId path policy at_) input s
  · rw [he] at hr
    exact .kept _ r hr rfl
  · rw [he] at hr
    have hinsert : s.insertGrant productId agentId path policy at_ = .ok (row, t) := ha
    simp only [Store.insertGrant, Call.ite_error_eq_ok] at hinsert
    obtain ⟨-, rfl⟩ := Prod.mk.inj (Except.ok.inj hinsert.2)
    simp only [mem_insert] at hr
    rcases hr with hold | rfl
    · exact .kept _ r hold rfl
    · exact .inserted productId agentId path at_ policy rfl rfl

theorem grant_of_exec (q : DbStep) (input : DbStep.Input) {r : Row DirectoryGrant}
    (hr : r ∈ (q.exec input s).2.grants) : GrantOrigin s r.value q := by
  have hwrites := writes_of_exec q input s
  generalize hnext : (q.exec input s).2 = t at hr hwrites
  cases hwrites with
  | insertGrant productId agentId path policy now mk =>
    rw [← hnext] at hr
    exact grant_of_insert input hr
  | updateGrant id policy now =>
    obtain ⟨old, hold, rfl⟩ := List.mem_map.mp hr
    by_cases hid : old.value.id = id
    · exact .updated id now policy old hold hid (by simp [hid])
    · exact .kept _ old hold (by simp [hid])
  | deleteGrant id => exact .kept _ r (List.mem_of_mem_filter hr) rfl
  | nothing | publish | insertTask | transition | finish | updateTaskResult | insertEvent
  | insertPermissionRequest | resolvePermissionRequest | replaceLock | releaseLocks
  | insertProfile | updateProfile | deleteProfile => exact .kept _ r hr rfl

theorem profile_of_writes (h : Writes s q s') {profile : AgentProfile}
    (hp : profile ∈ s'.profiles) :
    (∃ old ∈ s.profiles, old.id = profile.id ∧ old.ownerProductId = profile.ownerProductId) ∨
      q = .insertProfile profile := by
  cases h with
  | insertProfile new =>
    rcases List.mem_append.mp hp with hold | hnew
    · exact .inl ⟨profile, hold, rfl, rfl⟩
    · exact .inr (by rw [List.mem_singleton.mp hnew])
  | updateProfile id next now =>
    obtain ⟨old, hold, rfl⟩ := List.mem_map.mp hp
    refine .inl ⟨old, hold, ?_⟩
    split
    · exact ⟨rfl, rfl⟩
    · exact ⟨rfl, rfl⟩
  | deleteProfile id => exact .inl ⟨profile, List.mem_of_mem_filter hp, rfl, rfl⟩
  | nothing | publish | insertTask | transition | finish | updateTaskResult | insertEvent
  | insertPermissionRequest | resolvePermissionRequest | replaceLock | releaseLocks | insertGrant
  | updateGrant | deleteGrant => exact .inl ⟨profile, hp, rfl, rfl⟩

def Store.HasDirect (s : Store) (id : String) : Prop :=
  ∃ r ∈ s.grants, r.value.id = id ∧ .direct ∈ r.value.workspaceModes

end Rows

section Server
variable {host : ApiHost} {config : SchedulerConfig} {admits : ServerOp → Prop} {x : EventState}
  {p : ServerPool}

theorem store_mild {q : EventStep} (hq : q.Mild) (input : DbStep.Input) (y : EventState) :
    (q.exec input y).2.store = y.store ∨ ∃ event,
      (q.exec input y).2.store = ((DbStep.publish event).exec input y.store).2 := by
  cases q with
  | db q =>
    obtain ⟨event, rfl⟩ := hq
    exact .inr ⟨event, rfl⟩
  | notifyPermissionResolution taskId decision => exact .inl (store_notify taskId decision)
  | registerWaiter taskId requestId => exact .inl (store_registerWaiter taskId requestId)
  | selectPermissionRequest taskId requestId =>
    cases input with
    | proceed now => exact .inl rfl
    | ioError => exact .inl rfl
  | hasWaiter taskId requestId => exact .inl rfl
  | receive channel => exact .inl rfl

theorem store_aside {q : ApiStep} (hq : q.Aside) (input : ServiceStep.Input) (y : EventState) :
    (q.exec input y).2.store = y.store ∨ ∃ event, (q.exec input y).2.store =
      ((DbStep.publish event).exec (.proceed input.now) y.store).2 := by
  cases q with
  | run q =>
    cases q with
    | event q => exact store_mild hq (.proceed input.now) y
    | service q =>
      cases q with
      | tasks op => exact hq.elim
      | grants op => exact hq.elim
      | profiles op => exact hq.elim
      | loadRegistry | getRuntime | prepareWorkspace | executeAdapter | clock => exact .inl rfl
  | listProfiles filters => exact .inl rfl
  | listGrants filters => exact .inl rfl
  | listPermissionRequests filters => exact .inl rfl
  | subscribe => exact .inl rfl
  | listEventsAfter taskId cursor => exact .inl rfl

theorem kept_step {I : Store → Prop} {a : Authority} {direct : String → Prop}
    (kept : ∀ q, a.Allows direct q → ∀ input s, I s → I (q.exec input s).2) {q : ServerStep}
    (hq : a.AllowsStep direct q) (input : ServerStep.Input) {y : EventState} (hI : I y.store) :
    I (q.exec input y).2.store := by
  cases q with
  | db q => exact kept q hq input.db y.store hI
  | api q =>
    obtain hsame | ⟨event, hpublished⟩ := store_aside hq input.outside y
    · exact hsame ▸ hI
    · rw [ServerStep.exec, hpublished]
      exact kept (.publish event) trivial _ _ hI

/-- The rule for all calls of the server: what their authorities allow keeps the invariant, and
the invariant makes what is read trusted. -/
theorem invariant_of_authority {I : Store → Prop} (direct : String → Prop)
    (kept : ∀ op, admits op → ∀ q, op.authority.Allows direct q → ∀ input s, I s →
      I (q.exec input s).2)
    (trusted : ∀ s, I s → ∀ id grant, s.findGrant id = some grant →
      .direct ∈ grant.workspaceModes → direct id) (initial : I x.store)
    (h : Reaches (requestStep host config) (fun _ a => ∀ op, a = .spawn op → admits op)
      ⟨x, []⟩ p) : I p.shared.store := by
  refine invariant_of_keeps (I := fun y => I y.store)
    (fun op _ => keeps_serverProgram host config direct op) (fun q input y hI => ?_)
    (fun op hop q hq input y hI => kept_step (kept op hop) hq input hI) initial
    (reaches_of_server h)
  cases q with
  | api q => trivial
  | db q =>
    cases q with
    | selectGrant id =>
      intro grant hgrant
      cases hinput : input.db with
      | ioError => simp [ServerStep.exec, DbStep.exec, hinput] at hgrant
      | proceed now =>
        refine trusted y.store hI id grant ?_
        simpa [ServerStep.exec, DbStep.exec, DbStep.attempt, hinput] using hgrant
    | _ => trivial

/-- What the calls that `admits` names can have made of the tables of `x`. -/
structure AuthorizedSince (admits : ServerOp → Prop) (x s : Store) : Prop where
  tasks : ∀ r ∈ s.tasks,
    (∃ old ∈ x.tasks, old.value.id = r.value.id ∧ old.value.creation = r.value.creation) ∨
      ∃ op, admits op ∧ op.authority.createsTasks r.value.ownerProductId
  grants : ∀ r ∈ s.grants,
    (∃ old ∈ x.grants, old.value.id = r.value.id ∧ old.value.productId = r.value.productId) ∨
      ∃ op, admits op ∧ op.authority.createsGrants r.value.productId
  profiles : ∀ profile ∈ s.profiles,
    (∃ old ∈ x.profiles, old.id = profile.id ∧ old.ownerProductId = profile.ownerProductId) ∨
      ∃ op, admits op ∧ op.authority.createsProfiles profile.ownerProductId
  tasksKept : (∀ op, admits op → ¬ op.authority.movesTasks ∧ ¬ op.authority.runsTasks) →
    x.tasks <+: s.tasks ∧ s.locks = x.locks
  requestsKept : (∀ op, admits op → ¬ op.authority.runsTasks ∧ ¬ op.authority.decides) →
    s.permissionRequests = x.permissionRequests
  grantsKept : (∀ op, admits op → ¬ op.authority.changesGrants) → x.grants <+: s.grants
  profilesKept : (∀ op, admits op → ¬ op.authority.changesProfiles) → x.profiles <+: s.profiles

section Step
variable {a : Authority} {direct : String → Prop} {q : DbStep} {s s' : Store}

theorem tasks_of_allowed (hq : a.Allows direct q) (h : Writes s q s') (hmoves : ¬ a.movesTasks)
    (hruns : ¬ a.runsTasks) : s.tasks <+: s'.tasks ∧ s'.locks = s.locks := by
  cases h with
  | insertTask row now _ => exact ⟨List.prefix_append _ _, rfl⟩
  | transition | finish | releaseLocks => exact absurd hq hmoves
  | updateTaskResult | insertEvent | insertPermissionRequest | replaceLock =>
    exact absurd hq hruns
  | nothing | publish | resolvePermissionRequest | insertGrant | updateGrant | deleteGrant
  | insertProfile | updateProfile | deleteProfile => exact ⟨List.prefix_rfl, rfl⟩

theorem requests_of_allowed (hq : a.Allows direct q) (h : Writes s q s') (hruns : ¬ a.runsTasks)
    (hdecides : ¬ a.decides) : s'.permissionRequests = s.permissionRequests := by
  cases h with
  | insertPermissionRequest => exact absurd hq hruns
  | resolvePermissionRequest => exact absurd hq hdecides
  | nothing | publish | insertTask | transition | finish | updateTaskResult | insertEvent
  | replaceLock | releaseLocks | insertGrant | updateGrant | deleteGrant | insertProfile
  | updateProfile | deleteProfile => rfl

theorem grants_of_allowed (hq : a.Allows direct q) (h : Writes s q s')
    (hchanges : ¬ a.changesGrants) : s.grants <+: s'.grants := by
  cases h with
  | insertGrant productId agentId path policy now mk => exact List.prefix_append _ _
  | updateGrant => exact absurd hq.1 hchanges
  | deleteGrant => exact absurd hq hchanges
  | nothing | publish | insertTask | transition | finish | updateTaskResult | insertEvent
  | insertPermissionRequest | resolvePermissionRequest | replaceLock | releaseLocks
  | insertProfile | updateProfile | deleteProfile => exact List.prefix_rfl

theorem profiles_of_allowed (hq : a.Allows direct q) (h : Writes s q s')
    (hchanges : ¬ a.changesProfiles) : s.profiles <+: s'.profiles := by
  cases h with
  | insertProfile profile => exact List.prefix_append _ _
  | updateProfile | deleteProfile => exact absurd hq hchanges
  | nothing | publish | insertTask | transition | finish | updateTaskResult | insertEvent
  | insertPermissionRequest | resolvePermissionRequest | replaceLock | releaseLocks | insertGrant
  | updateGrant | deleteGrant => exact List.prefix_rfl

theorem AuthorizedSince.step {x : Store} {op : ServerOp} (h : AuthorizedSince admits x s)
    (hop : admits op) (hq : op.authority.Allows direct q) (input : DbStep.Input) :
    AuthorizedSince admits x (q.exec input s).2 where
  tasks := by
    intro r hr
    rcases task_of_effect (effect_of_exec q input s) hr with
      ⟨old, hold, hid, hcreation⟩ | ⟨row, now, rfl, hcreation⟩
    · have howner : old.value.ownerProductId = r.value.ownerProductId :=
        congrArg (fun c => c.1.ownerProductId) hcreation
      rcases h.tasks old hold with ⟨first, hfirst, hid', hcreation'⟩ | hcreator
      · exact .inl ⟨first, hfirst, hid'.trans hid, hcreation'.trans hcreation⟩
      · exact .inr (howner ▸ hcreator)
    · have howner : r.value.ownerProductId = row.ownerProductId :=
        congrArg (fun c => c.1.ownerProductId) hcreation
      exact .inr ⟨op, hop, howner ▸ hq.1⟩
  grants := by
    intro r hr
    have hkept : ∀ old ∈ s.grants, old.value.id = r.value.id →
        old.value.productId = r.value.productId →
        (∃ first ∈ x.grants, first.value.id = r.value.id ∧
          first.value.productId = r.value.productId) ∨
          ∃ op, admits op ∧ op.authority.createsGrants r.value.productId := by
      intro old hold hid hproduct
      rcases h.grants old hold with ⟨first, hfirst, hid', hproduct'⟩ | hcreator
      · exact .inl ⟨first, hfirst, hid'.trans hid, hproduct'.trans hproduct⟩
      · exact .inr (hproduct ▸ hcreator)
    cases grant_of_exec q input hr with
    | kept q old hold hsame => exact hkept old hold (by rw [hsame]) (by rw [hsame])
    | updated id now policy old hold hid hgrant =>
      exact hkept old hold (by rw [hgrant]; rfl) (by rw [hgrant]; rfl)
    | inserted productId agentId path now policy hproduct hmodes =>
      exact .inr ⟨op, hop, hproduct ▸ hq.1⟩
  profiles := by
    intro profile hp
    rcases profile_of_writes (writes_of_exec q input s) hp with ⟨old, hold, hid, howner⟩ | rfl
    · rcases h.profiles old hold with ⟨first, hfirst, hid', howner'⟩ | hcreator
      · exact .inl ⟨first, hfirst, hid'.trans hid, howner'.trans howner⟩
      · exact .inr (howner ▸ hcreator)
    · exact .inr ⟨op, hop, hq⟩
  tasksKept := by
    intro hnone
    obtain ⟨htasks, hlocks⟩ := h.tasksKept hnone
    obtain ⟨htasks', hlocks'⟩ := tasks_of_allowed hq (writes_of_exec q input s) (hnone op hop).1
      (hnone op hop).2
    exact ⟨htasks.trans htasks', hlocks'.trans hlocks⟩
  requestsKept hnone := (requests_of_allowed hq (writes_of_exec q input s) (hnone op hop).1
    (hnone op hop).2).trans (h.requestsKept hnone)
  grantsKept hnone := (h.grantsKept hnone).trans
    (grants_of_allowed hq (writes_of_exec q input s) (hnone op hop))
  profilesKept hnone := (h.profilesKept hnone).trans
    (profiles_of_allowed hq (writes_of_exec q input s) (hnone op hop))

end Step

def directRepo : Store := { Store.empty with
  grants := [⟨1, { sampleGrant with
    workspaceModes := [.direct]
    defaultWorkspaceMode := .direct
    directModeRequiresExplicitTaskOptIn := false }⟩]
  profiles := [{ sampleProfile with executionPolicy := ⟨.direct, true⟩ }] }

/-- A request for a task while another request of the product deletes the grant: the task has read
it by then. -/
def racingRequests : List ServerAction :=
  [.spawn (.request acmeContext (.createTask { omittedProvider with workspaceMode := none })),
    .spawn (.request acmeContext (.deleteDirectory "dir_1"))] ++
  ([0, 0, 0, 1, 1, 0, 0, 0, 0, 0].map fun i => .advance i ⟨.proceed "t1", codexInput⟩)

def ofAcme (op : ServerOp) : Prop := op.authority = acmeContext.authority

theorem racing_requests : ∃ p, Runs.run (requestStep sampleHost ⟨2, false⟩)
      ⟨.start directRepo, []⟩ racingRequests = some p ∧ p.shared.store.grants = [] ∧
    ∃ r, p.shared.store.tasks = [r] ∧ r.value.workspaceMode = .direct ∧
      r.value.directoryId = "dir_1" ∧ r.value.ownerProductId = "acme" :=
  ⟨_, rfl, rfl, _, rfl, rfl, rfl, rfl⟩

theorem reaches_racing (hp : Runs.run (requestStep sampleHost ⟨2, false⟩)
    ⟨.start directRepo, []⟩ racingRequests = some p) :
    Reaches (requestStep sampleHost ⟨2, false⟩) (fun _ a => ∀ op, a = .spawn op → ofAcme op)
      ⟨.start directRepo, []⟩ p := by
  refine reaches_of_actions hp fun a ha _ op hop => ?_
  subst hop
  simp only [racingRequests, List.mem_append, List.mem_cons, List.mem_map, List.not_mem_nil,
    or_false, reduceCtorEq, and_false, exists_false, Action.spawn.injEq] at ha
  rcases ha with rfl | rfl
  · rfl
  · rfl

/-- In every interleaving, rows come from calls that may create them for their product, and
tables that no call may change keep their rows. -/
theorem writes_authorized
    (h : Reaches (requestStep host config) (fun _ a => ∀ op, a = .spawn op → admits op)
      ⟨x, []⟩ p) : AuthorizedSince admits x.store p.shared.store := by
  refine invariant_of_authority (fun _ => True)
    (fun op hop q hq input s hs => hs.step hop hq input) (fun _ _ _ _ _ _ => trivial) ?_ h
  exact
    { tasks := fun r hr => .inl ⟨r, hr, rfl, rfl⟩
      grants := fun r hr => .inl ⟨r, hr, rfl, rfl⟩
      profiles := fun profile hp => .inl ⟨profile, hp, rfl, rfl⟩
      tasksKept := fun _ => ⟨List.prefix_rfl, rfl⟩
      requestsKept := fun _ => rfl
      grantsKept := fun _ => List.prefix_rfl
      profilesKept := fun _ => List.prefix_rfl }

theorem writes_authorized_racing : ∃ p, Runs.run (requestStep sampleHost ⟨2, false⟩)
      ⟨.start directRepo, []⟩ racingRequests = some p ∧
    AuthorizedSince ofAcme directRepo p.shared.store := by
  obtain ⟨p, hp, -⟩ := racing_requests
  exact ⟨p, hp, writes_authorized (reaches_racing hp)⟩

/-- A grant with the direct mode had it in `x` under the same id; a task in direct mode was in `x`,
or was created on such a grant. -/
structure DirectSince (x s : Store) : Prop where
  grants : ∀ r ∈ s.grants, .direct ∈ r.value.workspaceModes → x.HasDirect r.value.id
  tasks : ∀ r ∈ s.tasks, r.value.workspaceMode = .direct →
    (∃ old ∈ x.tasks, old.value.id = r.value.id ∧ old.value.creation = r.value.creation) ∨
      x.HasDirect r.value.directoryId

theorem DirectSince.step {x s : Store} {a : Authority} {q : DbStep} (h : DirectSince x s)
    (hgives : ¬ a.givesDirect) (hq : a.Allows x.HasDirect q) (input : DbStep.Input) :
    DirectSince x (q.exec input s).2 where
  grants := by
    intro r hr hmode
    cases grant_of_exec q input hr with
    | kept q old hold hsame =>
      rw [← hsame] at hmode ⊢
      exact h.grants old hold hmode
    | updated id now policy old hold hid hgrant =>
      have hpolicy : .direct ∈ policy.workspaceModes := by
        rw [hgrant] at hmode
        exact hmode
      rcases hq.2 hpolicy with hdirect | hscope
      · rw [hgrant]
        exact hid ▸ hdirect
      · exact absurd hscope hgives
    | inserted productId agentId path now policy hproduct hmodes =>
      exact absurd (hq.2 (hmodes ▸ hmode)) hgives
  tasks := by
    intro r hr hmode
    rcases task_of_effect (effect_of_exec q input s) hr with
      ⟨old, hold, hid, hcreation⟩ | ⟨row, now, rfl, hcreation⟩
    · have hmode' : old.value.workspaceMode = r.value.workspaceMode :=
        congrArg (fun c => c.1.workspaceMode) hcreation
      have hdirectory : old.value.directoryId = r.value.directoryId :=
        congrArg (fun c => c.1.directoryId) hcreation
      rcases h.tasks old hold (hmode'.trans hmode) with ⟨first, hfirst, hid', hcreation'⟩ | hdirect
      · exact .inl ⟨first, hfirst, hid'.trans hid, hcreation'.trans hcreation⟩
      · exact .inr (hdirectory ▸ hdirect)
    · have hmode' : r.value.workspaceMode = row.workspaceMode :=
        congrArg (fun c => c.1.workspaceMode) hcreation
      have hdirectory : r.value.directoryId = row.directoryId :=
        congrArg (fun c => c.1.directoryId) hcreation
      exact .inr (hdirectory ▸ hq.2 (hmode' ▸ hmode))

/-- Without a token that may give the direct mode, no interleaving gives it to a grant or runs a
new task in it on a grant that did not have it, not even where a row changes, or is deleted and
its id issued again, between the reads and the writes of a handler. -/
theorem direct_confined (hscopes : ∀ op, admits op → ¬ op.authority.givesDirect)
    (h : Reaches (requestStep host config) (fun _ a => ∀ op, a = .spawn op → admits op)
      ⟨x, []⟩ p) : DirectSince x.store p.shared.store := by
  refine invariant_of_authority x.store.HasDirect
    (fun op hop q hq input s hs => hs.step (hscopes op hop) hq input)
    (fun s hs id grant hfind hmode => ?_) ?_ h
  · obtain ⟨r, hr, rfl, -⟩ := lookup_mem hfind
    have hid : r.value.id = id := findGrant_id hfind
    exact hid ▸ hs.grants r hr hmode
  · exact
      { grants := fun r hr hmode => ⟨r, hr, rfl, hmode⟩
        tasks := fun r hr _ => .inl ⟨r, hr, rfl, rfl⟩ }

/-- The task runs in direct mode on a grant that had it, and is there no more. -/
theorem direct_confined_racing : ∃ p, Runs.run (requestStep sampleHost ⟨2, false⟩)
      ⟨.start directRepo, []⟩ racingRequests = some p ∧ p.shared.store.grants = [] ∧
    directRepo.HasDirect "dir_1" := by
  obtain ⟨p, hp, hgrants, r, htasks, hmode, hdirectory, -⟩ := racing_requests
  have hscopes : ∀ op, ofAcme op → ¬ op.authority.givesDirect := by
    intro op hop
    rw [show op.authority = acmeContext.authority from hop]
    simp [ProductAuthContext.authority, acmeContext]
  have hsince := direct_confined hscopes (reaches_racing hp)
  refine ⟨p, hp, hgrants, ?_⟩
  rcases hsince.tasks r (by rw [htasks]; exact List.mem_singleton_self r) hmode with
    ⟨old, hold, -⟩ | hdirect
  · cases hold
  · exact hdirectory ▸ hdirect

end Server

end OpenDaemon
