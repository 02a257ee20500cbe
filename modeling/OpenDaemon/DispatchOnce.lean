import OpenDaemon.ControlPlane
import OpenDaemon.RemoteGate
import OpenDaemon.ServiceDecoding

/-!
# Dispatches are ingested once

The messages of the control plane are handled one after another, while the rest
of the daemon makes store calls of its own between the steps of the handler. A
remote task is found again by a scan of the metadata of all tasks. Since the
handler alone creates tasks with such metadata, and the metadata never changes,
what one scan has not found is still not there when the task is created. The
scan decodes all rows, so one that cannot be read back makes it fail.
-/

namespace OpenDaemon

open Runs RowTable Store ControlPlaneDispatchService ControlPlaneMessageHandler

section Claims

/-- `serde_json` reads no text whose value nests deeper than its recursion limit. -/
def ReadsLimited (parse : String → Option Value) : Prop :=
  ∀ text value, parse text = some value → value.readable

def remoteIdOf (metadata : Option Value) : Option String :=
  ((metadata.bind (·.get? "control_plane")).bind (·.get? "remote_task_id")).bind Value.asStr

def Store.claim (s : Store) (id : String) : Option String :=
  (s.findTask id).bind remoteTaskIdOf

def Store.Unclaimed (s : Store) (remoteTaskId : String) : Prop :=
  ∀ id, s.claim id ≠ some remoteTaskId

/-- At most one task exists for each remote task id. -/
def Store.ClaimsUnique (s : Store) : Prop :=
  ∀ id id' remoteTaskId, s.claim id = some remoteTaskId → s.claim id' = some remoteTaskId → id = id'

variable {s s' : Store} {remoteTaskId now : String}

theorem claim_of_creation
    (h : ∀ id, (s'.findTask id).map Task.creation = (s.findTask id).map Task.creation)
    (id : String) : s'.claim id = s.claim id := by
  have hclaim : ∀ t : Store, t.claim id =
      ((t.findTask id).map Task.creation).bind fun columns => remoteIdOf columns.1.metadata := by
    intro t
    rw [Store.claim, Option.bind_map]
    rfl
  rw [hclaim s', hclaim s, h id]

theorem claim_created (hs : s.WellFormed) (row : CreateTask) (id : String) :
    (s.created (TaskStore.newTask row) now).claim id =
      if id = rowKey "task_" (nextRowid s.tasks) then remoteIdOf row.metadata else s.claim id := by
  rw [Store.claim, created_findTask hs]
  split
  · rfl
  · rfl

theorem claim_next (hs : s.WellFormed) : s.claim (rowKey "task_" (nextRowid s.tasks)) = none := by
  rw [Store.claim, findTask_next hs]
  rfl

theorem claimsUnique_of_claim (h : ∀ id, s'.claim id = s.claim id) (hs : s.ClaimsUnique) :
    s'.ClaimsUnique := by
  intro id id' remoteTaskId hid hid'
  rw [h] at hid hid'
  exact hs id id' remoteTaskId hid hid'

theorem claimsUnique_created (hs : s.WellFormed) (hunique : s.ClaimsUnique) {row : CreateTask}
    (hrow : ∀ remoteTaskId, remoteIdOf row.metadata = some remoteTaskId →
      s.Unclaimed remoteTaskId) :
    (s.created (TaskStore.newTask row) now).ClaimsUnique := by
  intro id id' remoteTaskId hid hid'
  rw [claim_created hs] at hid hid'
  split at hid <;> split at hid'
  · rename_i h h'
    exact h.trans h'.symm
  · exact absurd hid' (hrow remoteTaskId hid id')
  · exact absurd hid (hrow remoteTaskId hid' id)
  · exact hunique id id' remoteTaskId hid hid'

theorem unclaimed_created (hs : s.WellFormed) (hnone : s.Unclaimed remoteTaskId) {row : CreateTask}
    (hrow : remoteIdOf row.metadata = none) :
    (s.created (TaskStore.newTask row) now).Unclaimed remoteTaskId := by
  intro id
  rw [claim_created hs, hrow]
  split
  · exact fun h => (by cases h)
  · exact hnone id

theorem remoteIdOf_dispatchMetadata (remoteTask : RemoteDispatchTask) :
    remoteIdOf (some (dispatchMetadata remoteTask)) = some remoteTask.remoteTaskId := rfl

theorem readable_dispatchMetadata {remoteTask : RemoteDispatchTask}
    (h : remoteTask.metadata.depth < Value.recursionLimit - 2) :
    (dispatchMetadata remoteTask).readable := by
  have hmetadata : remoteTask.metadata.depth < Value.recursionLimit - 1 := h.trans (by decide)
  rw [dispatchMetadata, Value.readable_object]
  simp only [List.forall_mem_cons, hmetadata, true_and]
  refine ⟨?_, fun entry hentry => absurd hentry List.not_mem_nil⟩
  simp [Value.depth, Value.depthOfEntries, Value.recursionLimit]

theorem remoteIdOf_of_no_controlPlane {metadata : Option Value}
    (h : metadata.bind (·.get? "control_plane") = none) : remoteIdOf metadata = none := by
  rw [remoteIdOf, h]
  rfl

theorem mem_tasks_claim (hs : s.WellFormed) {task : Task} (h : task ∈ s.tasks.map Row.value) :
    s.claim task.id = remoteTaskIdOf task := by
  obtain ⟨r, hr, rfl⟩ := List.mem_map.mp h
  rw [Store.claim, hs.mem_findTask hr]
  rfl

theorem claim_mem {id : String} (h : s.claim id = some remoteTaskId) : ∃ task,
    task ∈ s.tasks.map Row.value ∧ s.findTask id = some task ∧
      remoteTaskIdOf task = some remoteTaskId := by
  obtain ⟨task, hfind, hremote⟩ := Option.bind_eq_some_iff.mp h
  obtain ⟨r, hr, rfl, -⟩ := lookup_mem hfind
  exact ⟨r.value, List.mem_map_of_mem hr, hfind, hremote⟩

end Claims

section Scan
variable {s : Store}

/-- What `find_by_remote_task_id` answers from the rows of the task table. -/
def Store.scan (s : Store) (remoteTaskId : String) : Option Task :=
  (s.tasks.map Row.value).find? fun task => remoteTaskIdOf task = some remoteTaskId

theorem runService_scan {α : Type} (remoteTaskId : String) (inputs : ℕ → ServiceStep.Input)
    (f : Option Task → DispatchCall α) :
    runService (findByRemoteTaskId remoteTaskId >>= f) inputs s =
      runService (f (s.scan remoteTaskId)) (later inputs) s := by
  have hall : (s.tasks.map Row.value).filter (TaskFilters.matches ⟨none, none, none, none⟩) =
      s.tasks.map Row.value := by
    rw [List.filter_eq_self]
    intro task _
    rfl
  simp only [findByRemoteTaskId, SchedulerService.tasks, Call.mapError, Call.step_bind,
    runService_step, ServiceStep.exec, TaskOp.program, runAlone_list, Call.ret_bind, Call.pure_eq,
    hall]
  rfl

theorem scan_none {remoteTaskId : String} (h : s.scan remoteTaskId = none) :
    s.Unclaimed remoteTaskId := by
  intro id hclaim
  obtain ⟨task, hmem, -, hremote⟩ := claim_mem hclaim
  have hmiss := List.find?_eq_none.mp h task hmem
  exact hmiss (decide_eq_true hremote)

theorem scan_some (hs : s.WellFormed) {remoteTaskId : String} {task : Task}
    (h : s.scan remoteTaskId = some task) : s.findTask task.id = some task ∧
      s.claim task.id = some remoteTaskId := by
  have hmem := List.mem_of_find?_eq_some h
  have hremote := List.find?_some h
  obtain ⟨r, hr, rfl⟩ := List.mem_map.mp hmem
  exact ⟨hs.mem_findTask hr, (mem_tasks_claim hs hmem).trans (of_decide_eq_true hremote)⟩

theorem scan_eq (hs : s.WellFormed) (hunique : s.ClaimsUnique) {remoteTaskId id : String}
    {task : Task} (hfind : s.findTask id = some task)
    (hremote : remoteTaskIdOf task = some remoteTaskId) : s.scan remoteTaskId = some task := by
  have hclaim : s.claim id = some remoteTaskId := by
    rw [Store.claim, hfind]
    exact hremote
  cases hscan : s.scan remoteTaskId with
  | none => exact absurd hclaim (scan_none hscan id)
  | some found =>
    obtain ⟨hfound, hfoundClaim⟩ := scan_some hs hscan
    obtain rfl := hunique _ _ _ hclaim hfoundClaim
    exact hfound.symm.trans hfind

end Scan

section Messages
variable (parse : String → Option Value)

def dispatchOf (payload : String) : Option RemoteDispatchTask := do
  let envelope ← parse payload
  if envelope.strAt "type" = some "task_dispatch" then
    (envelope.get? "task").bind RemoteDispatchTask.fromValue
  else none

def cancelOf (payload : String) : Option String := do
  let envelope ← parse payload
  if envelope.strAt "type" = some "task_cancel" then envelope.strAt "remote_task_id" else none

theorem depth_structFields {names : List String} {value w : Value} {fields : List (Option Value)}
    (h : value.structFields names = some fields) (hmem : some w ∈ fields) :
    w.depth < value.depth := by
  cases value with
  | object entries =>
    obtain rfl := Option.some.inj h
    obtain ⟨name, -, hlookup⟩ := List.mem_map.mp hmem
    exact Nat.lt_succ_of_le (Value.depth_le_of_lookup hlookup)
  | array items =>
    simp only [Value.structFields, Option.ite_none_right_eq_some, Option.some.injEq] at h
    obtain ⟨-, rfl⟩ := h
    obtain ⟨item, hitem, heq⟩ := List.mem_map.mp hmem
    obtain rfl := Option.some.inj heq
    exact (Value.depthOfItems_lt (Nat.succ_pos _)).mp (Nat.lt_succ_self _) item hitem
  | _ => cases h

theorem depth_metadata {value : Value} {remoteTask : RemoteDispatchTask}
    (h : RemoteDispatchTask.fromValue value = some remoteTask) :
    remoteTask.metadata.depth < value.depth := by
  unfold RemoteDispatchTask.fromValue at h
  split at h
  · rename_i fields
    simp only [Option.bind_eq_bind, Option.bind_eq_some_iff, Option.pure_def, Option.some.injEq] at h
    obtain ⟨_, -, _, -, _, -, _, -, _, -, _, -, _, -, _, -, _, -, metadata, rfl, rfl⟩ := h
    exact depth_structFields fields (by simp)
  · cases h

theorem readable_of_dispatch (hparse : ReadsLimited parse) {payload : String}
    {remoteTask : RemoteDispatchTask} (h : dispatchOf parse payload = some remoteTask) :
    (dispatchMetadata remoteTask).readable := by
  obtain ⟨envelope, henvelope, htask⟩ := Option.bind_eq_some_iff.mp h
  split at htask
  · obtain ⟨value, hvalue, hremote⟩ := Option.bind_eq_some_iff.mp htask
    have hmetadata := depth_metadata hremote
    have hvalueDepth := Value.depth_get?_lt hvalue
    have hlimit := Value.readable_iff.mp (hparse payload envelope henvelope)
    have hbelow : remoteTask.metadata.depth < Value.recursionLimit - 2 := by omega
    exact readable_dispatchMetadata hbelow
  · cases htask

def ingestCall (remoteTask : RemoteDispatchTask) : ClientCall HandledControlPlaneMessage := do
  let task ← dispatching (ingest remoteTask)
  return .taskDispatched task

def cancelCall (remoteTaskId : String) : ClientCall HandledControlPlaneMessage := do
  let task ← dispatching (cancelRemoteTask remoteTaskId)
  return .taskCancelled task

def DaemonStep.execDecoded (q : DaemonStep) (input : ServiceStep.Input) (x : DaemonState) :
    q.Answer × DaemonState :=
  match q with
  | .service q =>
    ((q.execDecoded input x.store).1, { x with store := (q.execDecoded input x.store).2 })
  | .currentDaemon => DaemonStep.exec .currentDaemon input x
  | .markHeartbeat daemonId heartbeatAt status =>
    DaemonStep.exec (.markHeartbeat daemonId heartbeatAt status) input x
  | .saveRegistration record => DaemonStep.exec (.saveRegistration record) input x

def OnDaemons : DaemonStep → Prop
  | .service _ => False
  | _ => True

variable {parse}

theorem store_onDaemons {q : DaemonStep} (hq : OnDaemons q) (input : ServiceStep.Input)
    (x : DaemonState) : (q.execDecoded input x).2.store = x.store := by
  cases q with
  | service q => exact hq.elim
  | currentDaemon | markHeartbeat _ _ _ | saveRegistration _ => rfl

theorem uses_handleHeartbeatAck (envelope : Value) :
    (handleHeartbeatAck envelope).Uses OnDaemons := by
  unfold handleHeartbeatAck
  cases envelope.strAt "heartbeat_at" with
  | none => trivial
  | some heartbeatAt =>
    refine ⟨trivial, fun answer => ?_⟩
    cases answer with
    | error e => trivial
    | ok record =>
      refine ⟨trivial, fun answer => ?_⟩
      cases answer <;> trivial

theorem handleText_cases (parse : String → Option Value) (payload : String) :
    (∃ remoteTask, dispatchOf parse payload = some remoteTask ∧ cancelOf parse payload = none ∧
      handleText parse payload = ingestCall remoteTask) ∨
    (∃ remoteTaskId, dispatchOf parse payload = none ∧ cancelOf parse payload = some remoteTaskId ∧
      handleText parse payload = cancelCall remoteTaskId) ∨
    (dispatchOf parse payload = none ∧ cancelOf parse payload = none ∧
      (handleText parse payload).Uses OnDaemons) := by
  unfold handleText dispatchOf cancelOf
  cases hparse : parse payload with
  | none => exact .inr (.inr ⟨rfl, rfl, trivial⟩)
  | some envelope =>
    simp only [orInvalid, Call.ret_bind, Option.bind_eq_bind, Option.bind_some, handleEnvelope]
    cases htype : envelope.strAt "type" with
    | none => exact .inr (.inr ⟨rfl, rfl, trivial⟩)
    | some messageType =>
      simp only [Call.ret_bind, Option.some.injEq]
      by_cases hdispatch : messageType = "task_dispatch"
      · subst hdispatch
        simp only [if_true, handleDispatch, if_neg (show ¬ "task_dispatch" = "task_cancel" by decide)]
        cases envelope.get? "task" with
        | none => exact .inr (.inr ⟨rfl, trivial, trivial⟩)
        | some value =>
          cases hvalue : RemoteDispatchTask.fromValue value with
          | none =>
            simp only [orInvalid, Call.ret_bind, hvalue, Option.bind_some]
            exact .inr (.inr ⟨trivial, trivial, trivial⟩)
          | some remoteTask =>
            simp only [orInvalid, Call.ret_bind, hvalue, Option.bind_some]
            exact .inl ⟨remoteTask, rfl, trivial, rfl⟩
      · simp only [if_neg hdispatch]
        by_cases hcancel : messageType = "task_cancel"
        · subst hcancel
          simp only [if_true, handleCancel]
          cases envelope.strAt "remote_task_id" with
          | none => exact .inr (.inr ⟨trivial, rfl, trivial⟩)
          | some remoteTaskId => exact .inr (.inl ⟨remoteTaskId, trivial, rfl, rfl⟩)
        · simp only [if_neg hcancel]
          refine .inr (.inr ⟨trivial, trivial, ?_⟩)
          split
          · exact uses_handleHeartbeatAck envelope
          · trivial

end Messages

section Admission

/-- What is left of a dispatch after the scan: reads, and at most one creation of a task for the
remote task, with which the call ends. -/
inductive Admits (remoteTaskId : String) : ClientCall HandledControlPlaneMessage → Prop
  | refused (error : ControlPlaneClientError) : Admits remoteTaskId (.fail error)
  | read (q : ServiceStep) (next : q.Answer → ClientCall HandledControlPlaneMessage)
      (reads : ∀ input s, (q.execDecoded input s).2 = s)
      (rest : ∀ answer, Admits remoteTaskId (next answer)) :
      Admits remoteTaskId (.step (.service q) next)
  | create (row : CreateTask)
      (next : ServiceStep.Answer (.tasks (.create row)) → ClientCall HandledControlPlaneMessage)
      (named : remoteIdOf row.metadata = some remoteTaskId)
      (readable : row.metadata.all Value.readable)
      (returns : ∀ task, next (.ok task) = .ret (.taskDispatched task))
      (fails : ∀ error, ∃ error', next (.error error) = .fail error') :
      Admits remoteTaskId (.step (.service (.tasks (.create row))) next)

theorem execDecoded_getGrant_state (id : String) (input : ServiceStep.Input) (s : Store) :
    (ServiceStep.execDecoded (.grants (.get id)) input s).2 = s := by
  have hdecoded : ServiceStep.execDecoded (.grants (.get id)) input s =
      ServiceStep.exec (.grants (.get id)) input s := runDecoded_grantOp (.get id)
  rw [hdecoded, ServiceStep.exec_reads (.grants (.get id)) trivial]

theorem execDecoded_getProfile_state (id : String) (input : ServiceStep.Input) (s : Store) :
    (ServiceStep.execDecoded (.profiles (.get id)) input s).2 = s := by
  change (runDecoded (ProfileStore.get id) input.now s).2 = s
  rw [runDecoded_getProfile, runAlone_getProfile]
  split
  · cases s.findProfile id <;> rfl
  · rfl

theorem execDecoded_authorizeGrant_state (request : DirectoryAuthorizationRequest)
    (input : ServiceStep.Input) (s : Store) :
    (ServiceStep.execDecoded (.grants (.authorize request)) input s).2 = s := by
  have hdecoded : ServiceStep.execDecoded (.grants (.authorize request)) input s =
      ServiceStep.exec (.grants (.authorize request)) input s := runDecoded_grantOp (.authorize request)
  rw [hdecoded]
  simp only [ServiceStep.exec, GrantOp.program, runAlone_authorizeGrant]
  split
  · rfl
  · split <;> rfl

variable {remoteTaskId : String}

def finishing (c : SchedulerCall Task) : ClientCall HandledControlPlaneMessage := do
  let task ← dispatching (c.mapError .task)
  return .taskDispatched task

theorem admits_ofExcept {α : Type} {r : Except TaskValidationError α} {f : α → SchedulerCall Task}
    (h : ∀ a, Admits remoteTaskId (finishing (f a))) :
    Admits remoteTaskId (finishing (Call.ofExcept r >>= f)) := by
  cases r with
  | ok a => exact h a
  | error e => exact .refused _

theorem admits_enqueueTask {input : CreateTask}
    (h : remoteIdOf input.metadata = some remoteTaskId)
    (hread : input.metadata.all Value.readable) :
    Admits remoteTaskId (finishing (SchedulerService.enqueueTask input)) := by
  refine admits_ofExcept fun _ => ?_
  refine .read (.grants (.get input.directoryId)) _ (execDecoded_getGrant_state _) fun answer => ?_
  cases answer with
  | error e => exact .refused _
  | ok grant =>
    refine admits_ofExcept fun mode => ?_
    refine .read (.profiles (.get input.agentId)) _ (execDecoded_getProfile_state _) fun answer => ?_
    cases answer with
    | error e => exact .refused _
    | ok profile =>
      refine admits_ofExcept fun _ => ?_
      refine .read (.grants (.authorize _)) _ (execDecoded_authorizeGrant_state _) fun answer => ?_
      cases answer with
      | error e => exact .refused _
      | ok _ => exact .create _ _ h hread (fun task => rfl) fun error => ⟨_, rfl⟩

def afterScan (remoteTask : RemoteDispatchTask) :
    Option Task → ClientCall HandledControlPlaneMessage
  | some task => .ret (.taskDispatched task)
  | none =>
    match toCreateTask remoteTask with
    | .ok input => finishing (SchedulerService.enqueueTask input)
    | .error error => .fail (.dispatch error)

theorem admits_afterScan {remoteTask : RemoteDispatchTask}
    (hread : (dispatchMetadata remoteTask).readable) :
    Admits remoteTask.remoteTaskId (afterScan remoteTask none) := by
  unfold afterScan
  cases hinput : toCreateTask remoteTask with
  | error e => exact .refused _
  | ok input =>
    obtain ⟨-, -, hmetadata⟩ := toCreateTask_eq hinput
    exact admits_enqueueTask (hmetadata ▸ remoteIdOf_dispatchMetadata remoteTask) (hmetadata ▸ hread)

def scanStep : DaemonStep := .service (.tasks (.list ⟨none, none, none, none⟩))

theorem ingestCall_eq (remoteTask : RemoteDispatchTask) : ∃ next,
    ingestCall remoteTask = .step scanStep next ∧
    (∀ tasks : List Task, next (.ok tasks) = afterScan remoteTask
      (tasks.find? fun task => remoteTaskIdOf task = some remoteTask.remoteTaskId)) ∧
    ∀ error, ∃ error', next (.error error) = .fail error' := by
  refine ⟨_, rfl, fun tasks => ?_, fun error => ⟨_, rfl⟩⟩
  simp only [Call.mapError, Call.andThen, Call.pure_eq]
  generalize List.find? _ tasks = existing
  cases existing with
  | some task => rfl
  | none =>
    simp only [afterScan]
    cases toCreateTask remoteTask with
    | ok input => rfl
    | error error => rfl

end Admission

section Cancellation

def OnTask (id : String) : DaemonStep → Prop
  | .service (.tasks op) => op = .get id ∨ op.taskId? = some id
  | _ => False

theorem uses_onTask_cancelTask (id : String) : (dispatching ((SchedulerService.cancelTask id).mapError
    .task) >>= fun task => .ret (.taskCancelled task) :
      ClientCall HandledControlPlaneMessage).Uses (OnTask id) := by
  refine ⟨.inl rfl, fun answer => ?_⟩
  cases answer with
  | error e => trivial
  | ok task =>
    simp only [Call.andThen]
    split
    · trivial
    · refine ⟨.inr rfl, fun answer => ?_⟩
      cases answer <;> trivial

theorem cancelCall_eq (remoteTaskId : String) : ∃ next,
    cancelCall remoteTaskId = .step scanStep next ∧
    (∀ tasks : List Task, (tasks.find? fun task => remoteTaskIdOf task = some remoteTaskId) = none →
      next (.ok tasks) = .fail (.dispatch .invalidDispatch)) ∧
    (∀ (tasks : List Task) task,
      (tasks.find? fun task => remoteTaskIdOf task = some remoteTaskId) = some task →
      (next (.ok tasks)).Uses (OnTask task.id)) ∧
    ∀ error, ∃ error', next (.error error) = .fail error' := by
  refine ⟨_, rfl, fun tasks hnone => ?_, fun tasks task hsome => ?_, fun error => ⟨_, rfl⟩⟩
  · simp only [Call.mapError, Call.andThen, Call.pure_eq, hnone]
    rfl
  · simp only [Call.mapError, Call.andThen, Call.pure_eq, hsome]
    exact uses_onTask_cancelTask task.id

end Cancellation

namespace ControlPlaneMessageHandler

section Stages
variable (parse : String → Option Value)

/-- Where the handler of a message stands, and what it knows of the store. -/
inductive Stage (s : Store) (payload : String) : ClientCall HandledControlPlaneMessage → Prop
  | received : Stage s payload (handleText parse payload)
  | admitting {remoteTask : RemoteDispatchTask} {rest : ClientCall HandledControlPlaneMessage}
      (dispatch : dispatchOf parse payload = some remoteTask)
      (unclaimed : s.Unclaimed remoteTask.remoteTaskId)
      (admits : Admits remoteTask.remoteTaskId rest) : Stage s payload rest
  | cancelling {remoteTaskId id : String} {rest : ClientCall HandledControlPlaneMessage}
      (cancel : cancelOf parse payload = some remoteTaskId)
      (claimed : s.claim id = some remoteTaskId) (uses : rest.Uses (OnTask id)) :
      Stage s payload rest
  | other {rest : ClientCall HandledControlPlaneMessage}
      (dispatch : dispatchOf parse payload = none) (cancel : cancelOf parse payload = none)
      (uses : rest.Uses OnDaemons) : Stage s payload rest
  | ended {rest : ClientCall HandledControlPlaneMessage} (ended : ∀ q next, rest ≠ .step q next) :
      Stage s payload rest

inductive Moves (payload : String) (x y : DaemonState)
    (rest : ClientCall HandledControlPlaneMessage) : Prop
  | quiet (same : y = x)
  | created {remoteTask : RemoteDispatchTask} {row : CreateTask} {now : String}
      (dispatch : dispatchOf parse payload = some remoteTask)
      (unclaimed : x.store.Unclaimed remoteTask.remoteTaskId)
      (named : remoteIdOf row.metadata = some remoteTask.remoteTaskId)
      (store : y = { x with store := x.store.created (TaskStore.newTask row) now })
      (returns : rest = .ret (.taskDispatched
        ((TaskStore.newTask row).toTask now (nextRowid x.store.tasks))))
  | cancelled {remoteTaskId id : String} (cancel : cancelOf parse payload = some remoteTaskId)
      (claimed : x.store.claim id = some remoteTaskId) (touched : x.store.Touched y.store id)
      (daemons : y.daemons = x.daemons)
  | daemons (dispatch : dispatchOf parse payload = none) (cancel : cancelOf parse payload = none)
      (store : y.store = x.store)

variable {parse} {payload : String} {x : DaemonState}

theorem execDecoded_scan_read (hrows : x.store.tasksReadable) (input : ServiceStep.Input) :
    scanStep.execDecoded input x = (.ok (x.store.tasks.map Row.value), x) := by
  simp only [scanStep, DaemonStep.execDecoded, ServiceStep.execDecoded, TaskOp.program,
    runDecoded_list_read hrows, runAlone_list_unfiltered]

theorem execDecoded_scan_unread (hrows : x.store.tasksReadable = false)
    (input : ServiceStep.Input) : scanStep.execDecoded input x = (.error .store, x) := by
  simp only [scanStep, DaemonStep.execDecoded, ServiceStep.execDecoded, TaskOp.program,
    runDecoded_list_unread hrows]

theorem received_advance (hparse : ReadsLimited parse) (hs : x.store.WellFormed) {q : DaemonStep}
    {next : q.Answer → ClientCall HandledControlPlaneMessage}
    (h : handleText parse payload = .step q next) (input : ServiceStep.Input) :
    Moves parse payload x (q.execDecoded input x).2 (next (q.execDecoded input x).1) ∧
    Stage parse (q.execDecoded input x).2.store payload (next (q.execDecoded input x).1) := by
  obtain ⟨remoteTask, hdispatch, -, heq⟩ | ⟨remoteTaskId, -, hcancel, heq⟩ |
    ⟨hdispatch, hcancel, huses⟩ := handleText_cases parse payload
  · obtain ⟨next', hcall, hnext, hfails⟩ := ingestCall_eq remoteTask
    rw [heq, hcall] at h
    cases h
    cases hrows : x.store.tasksReadable with
    | true =>
      rw [execDecoded_scan_read hrows, hnext]
      refine ⟨.quiet rfl, ?_⟩
      cases hscan : x.store.scan remoteTask.remoteTaskId with
      | some task =>
        simp only [Store.scan] at hscan
        rw [hscan]
        exact .ended fun q next h => (by cases h)
      | none =>
        have hnone := scan_none hscan
        simp only [Store.scan] at hscan
        rw [hscan]
        exact .admitting hdispatch hnone (admits_afterScan (readable_of_dispatch _ hparse hdispatch))
    | false =>
      obtain ⟨error, herror⟩ := hfails .store
      rw [execDecoded_scan_unread hrows, herror]
      exact ⟨.quiet rfl, .ended fun q next h => (by cases h)⟩
  · obtain ⟨next', hcall, hmissing, hfound, hfails⟩ := cancelCall_eq remoteTaskId
    rw [heq, hcall] at h
    cases h
    cases hrows : x.store.tasksReadable with
    | true =>
      rw [execDecoded_scan_read hrows]
      refine ⟨.quiet rfl, ?_⟩
      cases hscan : x.store.scan remoteTaskId with
      | none =>
        rw [hmissing _ hscan]
        exact .ended fun q next h => (by cases h)
      | some task => exact .cancelling hcancel (scan_some hs hscan).2 (hfound _ _ hscan)
    | false =>
      obtain ⟨error, herror⟩ := hfails .store
      rw [execDecoded_scan_unread hrows, herror]
      exact ⟨.quiet rfl, .ended fun q next h => (by cases h)⟩
  · rw [h] at huses
    exact ⟨.daemons hdispatch hcancel (store_onDaemons huses.1 input x),
      .other hdispatch hcancel (huses.2 _)⟩

theorem admits_advance {remoteTask : RemoteDispatchTask} (hs : x.store.WellFormed)
    (hdispatch : dispatchOf parse payload = some remoteTask)
    (hnone : x.store.Unclaimed remoteTask.remoteTaskId) {q : DaemonStep}
    {next : q.Answer → ClientCall HandledControlPlaneMessage}
    (h : Admits remoteTask.remoteTaskId (.step q next)) (input : ServiceStep.Input) :
    Moves parse payload x (q.execDecoded input x).2 (next (q.execDecoded input x).1) ∧
    Stage parse (q.execDecoded input x).2.store payload (next (q.execDecoded input x).1) := by
  cases h with
  | read q next hreads hrest =>
    have hsame : (DaemonStep.execDecoded (.service q) input x).2 = x := by
      rw [DaemonStep.execDecoded, hreads]
    refine ⟨.quiet hsame, ?_⟩
    rw [hsame]
    exact .admitting hdispatch hnone (hrest _)
  | create row next hnamed hread hreturns hfails =>
    simp only [DaemonStep.execDecoded, ServiceStep.execDecoded, TaskOp.program,
      runDecoded_create hs, hread, if_true]
    cases row.validate with
    | error e =>
      obtain ⟨error, herror⟩ := hfails (.model e)
      refine ⟨.quiet rfl, .ended fun q next h => ?_⟩
      rw [herror] at h
      cases h
    | ok u =>
      refine ⟨.created hdispatch hnone hnamed rfl (hreturns _), .ended fun q next h => ?_⟩
      rw [hreturns] at h
      cases h

theorem onTask_advance (hs : x.store.WellFormed) {id : String} {q : DaemonStep} (hq : OnTask id q)
    (input : ServiceStep.Input) :
    x.store.Touched (q.execDecoded input x).2.store id ∧
      (q.execDecoded input x).2.daemons = x.daemons := by
  cases q with
  | service q =>
    cases q with
    | tasks op =>
      refine ⟨?_, rfl⟩
      rcases hq with rfl | hop
      · have hstate : (runDecoded (TaskStore.get id) input.now x.store).2 = x.store :=
          runDecoded_get_state x.store
        change x.store.Touched (runDecoded (TaskStore.get id) input.now x.store).2 id
        rw [hstate]
        exact Touched.refl _ id
      · exact touched_runDecoded hs hop input.now
    | _ => exact hq.elim
  | _ => exact hq.elim

/-- Each step of the handler moves from stage to stage, and does what the stage allows. -/
theorem Stage.advance (hparse : ReadsLimited parse) (hs : x.store.WellFormed) {q : DaemonStep}
    {next : q.Answer → ClientCall HandledControlPlaneMessage}
    (h : Stage parse x.store payload (.step q next)) (input : ServiceStep.Input) :
    Moves parse payload x (q.execDecoded input x).2 (next (q.execDecoded input x).1) ∧
    Stage parse (q.execDecoded input x).2.store payload (next (q.execDecoded input x).1) := by
  generalize hrest : Call.step q next = rest at h
  cases h with
  | received => exact received_advance hparse hs hrest.symm input
  | admitting hdispatch hnone hadmits =>
    subst hrest
    exact admits_advance hs hdispatch hnone hadmits input
  | cancelling hcancel hclaimed huses =>
    subst hrest
    obtain ⟨htouched, hdaemons⟩ := onTask_advance hs huses.1 input
    refine ⟨.cancelled hcancel hclaimed htouched hdaemons, .cancelling hcancel ?_ (huses.2 _)⟩
    rw [claim_of_creation htouched.creation]
    exact hclaimed
  | other hdispatch hcancel huses =>
    subst hrest
    exact ⟨.daemons hdispatch hcancel (store_onDaemons huses.1 input x),
      .other hdispatch hcancel (huses.2 _)⟩
  | ended hended => exact absurd hrest.symm (hended q next)

theorem Stage.mono {s s' : Store} {rest : ClientCall HandledControlPlaneMessage}
    (h : Stage parse s payload rest)
    (hclaimed : ∀ id remoteTaskId, s.claim id = some remoteTaskId →
      s'.claim id = some remoteTaskId)
    (hnone : ∀ remoteTaskId, s.Unclaimed remoteTaskId → s'.Unclaimed remoteTaskId) :
    Stage parse s' payload rest := by
  cases h with
  | received => exact .received
  | admitting hdispatch hunclaimed hadmits =>
    exact .admitting hdispatch (hnone _ hunclaimed) hadmits
  | cancelling hcancel hclaim huses => exact .cancelling hcancel (hclaimed _ _ hclaim) huses
  | other hdispatch hcancel huses => exact .other hdispatch hcancel huses
  | ended hended => exact .ended hended

end Stages

end ControlPlaneMessageHandler

structure Handling where
  payload : String
  rest : ClientCall HandledControlPlaneMessage

def Handling.ended (handling : Handling) : Bool :=
  match handling.rest with
  | .step .. => false
  | _ => true

structure Dispatching where
  daemon : DaemonState
  handling : Option Handling

inductive DispatchAction
  | receive (payload : String)
  | advance (input : ServiceStep.Input)
  | elsewhere (q : ServiceStep) (input : ServiceStep.Input)

section System
variable (parse : String → Option Value)

def advanceHandling (input : ServiceStep.Input) (daemon : DaemonState) :
    Handling → Option Dispatching
  | ⟨payload, .step q next⟩ =>
    some ⟨(q.execDecoded input daemon).2, some ⟨payload, next (q.execDecoded input daemon).1⟩⟩
  | _ => none

def dispatchStep (x : Dispatching) : DispatchAction → Option Dispatching
  | .receive payload =>
    if x.handling.all Handling.ended then
      some { x with handling := some ⟨payload, handleText parse payload⟩ }
    else none
  | .advance input => x.handling.bind (advanceHandling input x.daemon)
  | .elsewhere q input =>
    some { x with daemon := { x.daemon with store := (q.execDecoded input x.daemon.store).2 } }

/-- Tasks that are not created by a dispatch have no metadata of the control plane. -/
def KeepsControlPlane : DispatchAction → Prop
  | .elsewhere (.tasks (.create row)) _ => row.metadata.bind (·.get? "control_plane") = none
  | _ => True

structure ExactlyOnce (x : Dispatching) : Prop where
  unique : x.daemon.store.ClaimsUnique
  redelivered : ∀ payload remoteTask id task input,
    x.handling = some ⟨payload, handleText parse payload⟩ →
    dispatchOf parse payload = some remoteTask →
    x.daemon.store.findTask id = some task →
    remoteTaskIdOf task = some remoteTask.remoteTaskId →
    dispatchStep parse x (.advance input) =
      some { x with handling := some ⟨payload, .ret (.taskDispatched task)⟩ }
  created : ∀ payload rest input y id task, x.handling = some ⟨payload, rest⟩ →
    dispatchStep parse x (.advance input) = some y →
    x.daemon.store.findTask id = none → y.daemon.store.findTask id = some task →
    ∃ remoteTask, dispatchOf parse payload = some remoteTask ∧
      remoteTaskIdOf task = some remoteTask.remoteTaskId ∧
      y.handling = some ⟨payload, .ret (.taskDispatched task)⟩
  cancelled : ∀ payload rest input y remoteTaskId, x.handling = some ⟨payload, rest⟩ →
    cancelOf parse payload = some remoteTaskId → dispatchStep parse x (.advance input) = some y →
    y.daemon.daemons = x.daemon.daemons ∧ y.daemon.store.grants = x.daemon.store.grants ∧
    y.daemon.store.profiles = x.daemon.store.profiles ∧
    ∀ id, x.daemon.store.claim id ≠ some remoteTaskId →
      x.daemon.store.SameTask y.daemon.store id

/-- The message that is to be handled is the dispatch of a remote task that has a task. -/
def Redelivers (x : Dispatching) : Prop :=
  ∃ payload remoteTask id task, x.handling = some ⟨payload, handleText parse payload⟩ ∧
    dispatchOf parse payload = some remoteTask ∧ x.daemon.store.findTask id = some task ∧
    remoteTaskIdOf task = some remoteTask.remoteTaskId

structure Dispatching.Kept (x : Dispatching) : Prop where
  wellFormed : x.daemon.store.WellFormed
  unique : x.daemon.store.ClaimsUnique
  stage : ∀ payload rest, x.handling = some ⟨payload, rest⟩ →
    ControlPlaneMessageHandler.Stage parse x.daemon.store payload rest

variable {parse} {x y : Dispatching}

theorem advance_cases {input : ServiceStep.Input} (h : dispatchStep parse x (.advance input) = some y) :
    ∃ payload q next, x.handling = some ⟨payload, .step q next⟩ ∧
      y = ⟨(q.execDecoded input x.daemon).2,
        some ⟨payload, next (q.execDecoded input x.daemon).1⟩⟩ := by
  obtain ⟨⟨payload, rest⟩, hhandling, hadvance⟩ := Option.bind_eq_some_iff.mp h
  cases rest with
  | ret a => cases hadvance
  | fail e => cases hadvance
  | step q next => exact ⟨payload, q, next, hhandling, (Option.some.inj hadvance).symm⟩

theorem wellFormed_daemonExec {daemon : DaemonState} (hs : daemon.store.WellFormed) (q : DaemonStep)
    (input : ServiceStep.Input) : (q.execDecoded input daemon).2.store.WellFormed := by
  cases q with
  | service q => exact q.wellFormed_execDecoded hs input
  | currentDaemon | markHeartbeat _ _ _ | saveRegistration _ => exact hs

theorem ControlPlaneMessageHandler.Moves.claimsUnique {payload : String} {a b : DaemonState}
    {rest : ClientCall HandledControlPlaneMessage} (h : Moves parse payload a b rest)
    (hs : a.store.WellFormed) (hunique : a.store.ClaimsUnique) : b.store.ClaimsUnique := by
  cases h with
  | quiet hsame => exact hsame ▸ hunique
  | created hdispatch hnone hnamed hstore _ =>
    rw [hstore]
    refine claimsUnique_created hs hunique fun remoteTaskId hrow => ?_
    rw [hnamed] at hrow
    exact Option.some.inj hrow ▸ hnone
  | cancelled hcancel hclaimed htouched _ =>
    exact claimsUnique_of_claim (claim_of_creation htouched.creation) hunique
  | daemons _ _ hstore => exact hstore ▸ hunique

theorem Dispatching.Kept.step (hparse : ReadsLimited parse) {a : DispatchAction}
    (hx : x.Kept parse) (ha : KeepsControlPlane a)
    (h : dispatchStep parse x a = some y) : y.Kept parse := by
  cases a with
  | receive payload =>
    simp only [dispatchStep, Option.ite_none_right_eq_some, Option.some.injEq] at h
    obtain ⟨-, rfl⟩ := h
    refine ⟨hx.wellFormed, hx.unique, fun payload' rest hhandling => ?_⟩
    cases hhandling
    exact .received
  | advance input =>
    obtain ⟨payload, q, next, hhandling, rfl⟩ := advance_cases h
    obtain ⟨hmoves, hstage⟩ := (hx.stage _ _ hhandling).advance hparse hx.wellFormed input
    refine ⟨wellFormed_daemonExec hx.wellFormed q input,
      hmoves.claimsUnique hx.wellFormed hx.unique, fun payload' rest hhandling' => ?_⟩
    cases hhandling'
    exact hstage
  | elsewhere q input =>
    obtain rfl := Option.some.inj h
    have hwf : (q.execDecoded input x.daemon.store).2.WellFormed :=
      q.wellFormed_execDecoded hx.wellFormed input
    obtain ⟨row, rfl, -, hstore⟩ | hcreation := execDecoded_created hx.wellFormed q input
    · have hnone : remoteIdOf row.metadata = none := remoteIdOf_of_no_controlPlane ha
      refine ⟨hwf, ?_, fun payload rest hhandling => ?_⟩
      · simp only [hstore]
        refine claimsUnique_created hx.wellFormed hx.unique fun remoteTaskId hrow => ?_
        rw [hnone] at hrow
        cases hrow
      · simp only [hstore]
        refine (hx.stage payload rest hhandling).mono (fun id remoteTaskId hclaim => ?_)
          fun remoteTaskId hfree => unclaimed_created hx.wellFormed hfree hnone
        rw [claim_created hx.wellFormed]
        split
        · rename_i hid
          rw [hid, claim_next hx.wellFormed] at hclaim
          cases hclaim
        · exact hclaim
    · have hclaim := claim_of_creation hcreation
      refine ⟨hwf, claimsUnique_of_claim hclaim hx.unique, fun payload rest hhandling => ?_⟩
      refine (hx.stage payload rest hhandling).mono (fun id remoteTaskId h => ?_)
        fun remoteTaskId hfree id => ?_
      · rw [hclaim]
        exact h
      · rw [hclaim]
        exact hfree id

theorem Dispatching.Kept.redelivered (hx : x.Kept parse) {payload id : String}
    {remoteTask : RemoteDispatchTask} {task : Task} (input : ServiceStep.Input)
    (hhandling : x.handling = some ⟨payload, handleText parse payload⟩)
    (hdispatch : dispatchOf parse payload = some remoteTask)
    (hfind : x.daemon.store.findTask id = some task)
    (hremote : remoteTaskIdOf task = some remoteTask.remoteTaskId) :
    dispatchStep parse x (.advance input) =
      some { x with handling := some ⟨payload, .ret (.taskDispatched task)⟩ } ↔
    x.daemon.store.tasksReadable := by
  obtain ⟨remoteTask', hdispatch', -, heq⟩ | ⟨_, hnone, -⟩ | ⟨hnone, -⟩ :=
    handleText_cases parse payload
  · obtain rfl : remoteTask' = remoteTask := Option.some.inj (hdispatch'.symm.trans hdispatch)
    obtain ⟨next, hcall, hnext, hfails⟩ := ingestCall_eq remoteTask'
    have hscan : x.daemon.store.scan remoteTask'.remoteTaskId = some task :=
      scan_eq hx.wellFormed hx.unique hfind hremote
    simp only [Store.scan] at hscan
    have hadvance : dispatchStep parse x (.advance input) =
        some ⟨(scanStep.execDecoded input x.daemon).2,
          some ⟨payload, next (scanStep.execDecoded input x.daemon).1⟩⟩ := by
      rw [dispatchStep, hhandling, heq, hcall]
      rfl
    rw [hadvance]
    cases hrows : x.daemon.store.tasksReadable with
    | true =>
      rw [execDecoded_scan_read hrows, hnext, hscan]
      exact ⟨fun _ => rfl, fun _ => rfl⟩
    | false =>
      obtain ⟨error, herror⟩ := hfails .store
      rw [execDecoded_scan_unread hrows, herror]
      refine ⟨fun hsame => ?_, fun hread => (by cases hread)⟩
      have hrest := congrArg Dispatching.handling (Option.some.inj hsame)
      cases hrest
  · rw [hnone] at hdispatch
    cases hdispatch
  · rw [hnone] at hdispatch
    cases hdispatch

theorem Dispatching.Kept.exactlyOnce (hparse : ReadsLimited parse) (hx : x.Kept parse)
    (hread : Redelivers parse x → x.daemon.store.tasksReadable) : ExactlyOnce parse x where
  unique := hx.unique
  redelivered payload remoteTask id task input hhandling hdispatch hfind hremote :=
    (hx.redelivered input hhandling hdispatch hfind hremote).mpr
      (hread ⟨payload, remoteTask, id, task, hhandling, hdispatch, hfind, hremote⟩)
  created := by
    intro payload rest input y id task hhandling hstep hnone hsome
    obtain ⟨payload', q, next, hhandling', rfl⟩ := advance_cases hstep
    obtain ⟨rfl, rfl⟩ := Handling.mk.inj (Option.some.inj (hhandling.symm.trans hhandling'))
    obtain ⟨hmoves, -⟩ := (hx.stage _ _ hhandling).advance hparse hx.wellFormed input
    cases hmoves with
    | quiet hsame =>
      rw [hsame, hnone] at hsome
      cases hsome
    | created hdispatch hfree hnamed hstore hreturns =>
      rw [hstore, created_findTask hx.wellFormed] at hsome
      split at hsome
      · obtain rfl := Option.some.inj hsome
        exact ⟨_, hdispatch, hnamed, congrArg (fun rest => some (Handling.mk payload rest)) hreturns⟩
      · rw [hnone] at hsome
        cases hsome
    | cancelled _ _ htouched _ =>
      have hcolumns := htouched.creation id
      rw [hnone, hsome] at hcolumns
      cases hcolumns
    | daemons _ _ hstore =>
      rw [hstore, hnone] at hsome
      cases hsome
  cancelled := by
    intro payload rest input y remoteTaskId hhandling hcancel hstep
    obtain ⟨payload', q, next, hhandling', rfl⟩ := advance_cases hstep
    obtain ⟨rfl, rfl⟩ := Handling.mk.inj (Option.some.inj (hhandling.symm.trans hhandling'))
    obtain ⟨hmoves, -⟩ := (hx.stage _ _ hhandling).advance hparse hx.wellFormed input
    cases hmoves with
    | quiet hsame =>
      rw [hsame]
      exact ⟨rfl, rfl, rfl, fun id _ => SameTask.refl _ id⟩
    | created hdispatch _ _ _ _ =>
      obtain ⟨_, -, hnone, -⟩ | ⟨_, hnone, -⟩ | ⟨hnone, -⟩ :=
        handleText_cases parse payload
      · rw [hnone] at hcancel
        cases hcancel
      · rw [hnone] at hdispatch
        cases hdispatch
      · rw [hnone] at hdispatch
        cases hdispatch
    | cancelled hcancel' hclaimed htouched hdaemons =>
      obtain rfl := Option.some.inj (hcancel'.symm.trans hcancel)
      refine ⟨hdaemons, htouched.grants, htouched.profiles, fun id hne => ?_⟩
      exact htouched.others id fun hid => hne (hid ▸ hclaimed)
    | daemons _ hnone _ =>
      rw [hnone] at hcancel
      cases hcancel

theorem Dispatching.Kept.start {s : Store} {daemons : DaemonTable} (hs : s.WellFormed)
    (hnone : s.tasks = []) : (⟨⟨s, daemons⟩, none⟩ : Dispatching).Kept parse := by
  refine ⟨hs, fun id id' remoteTaskId hclaim => ?_, fun payload rest h => (by cases h)⟩
  have hempty : s.findTask id = none := by
    simp [findTask, lookup, hnone]
  rw [Store.claim, hempty] at hclaim
  cases hclaim

theorem kept_of_reaches {s : Store} {daemons : DaemonTable} (hparse : ReadsLimited parse)
    (hs : s.WellFormed) (hnone : s.tasks = [])
    (hreach : Reaches (dispatchStep parse) (fun _ a => KeepsControlPlane a) ⟨⟨s, daemons⟩, none⟩ x) :
    x.Kept parse :=
  hreach.invariant (.start hs hnone) fun _ _ _ hy ha hstep => hy.step hparse ha hstep

/-- In every reachable state a dispatch is ingested exactly once, unless one that is delivered
again meets a row that cannot be read back. -/
theorem dispatch_exactly_once {s : Store} {daemons : DaemonTable} (hparse : ReadsLimited parse)
    (hs : s.WellFormed) (hnone : s.tasks = [])
    (hreach : Reaches (dispatchStep parse) (fun _ a => KeepsControlPlane a) ⟨⟨s, daemons⟩, none⟩ x) :
    ExactlyOnce parse x ↔ (Redelivers parse x → x.daemon.store.tasksReadable) := by
  have hkept := kept_of_reaches hparse hs hnone hreach
  constructor
  · rintro honce ⟨payload, remoteTask, id, task, hhandling, hdispatch, hfind, hremote⟩
    exact (hkept.redelivered (sampleInput "") hhandling hdispatch hfind hremote).mp
      (honce.redelivered _ _ _ _ _ hhandling hdispatch hfind hremote)
  · exact hkept.exactlyOnce hparse

end System

section Samples

def dispatchText : String :=
  "\x7b\"type\":\"task_dispatch\",\"task\":\x7b\"remote_task_id\":\"remote_1\"," ++
  "\"owner_product_id\":\"acme\",\"agent_id\":\"reviewer\",\"directory_id\":\"dir_1\"," ++
  "\"prompt\":\"fix the build\",\"required_capabilities\":[\"read\"]," ++
  "\"workspace_mode\":\"worktree\",\"task_token\":\"secret\",\"metadata\":null\x7d\x7d"

def dispatchEnvelope : Value :=
  .object [("type", .string "task_dispatch"), ("task", .object
    [("remote_task_id", .string "remote_1"), ("owner_product_id", .string "acme"),
      ("agent_id", .string "reviewer"), ("directory_id", .string "dir_1"),
      ("prompt", .string "fix the build"), ("required_capabilities", .array [.string "read"]),
      ("workspace_mode", .string "worktree"), ("task_token", .string "secret"),
      ("metadata", .null)])]

def cancelText : String :=
  "\x7b\"type\":\"task_cancel\",\"remote_task_id\":\"remote_1\"\x7d"

def cancelEnvelope : Value :=
  .object [("type", .string "task_cancel"), ("remote_task_id", .string "remote_1")]

def sampleParse (text : String) : Option Value :=
  if text = dispatchText then some dispatchEnvelope
  else if text = cancelText then some cancelEnvelope
  else none

def handled (text : String) (n : ℕ) : List DispatchAction :=
  .receive text :: List.replicate n (.advance (sampleInput "t1"))

/-- The dispatch is ingested, delivered again and cancelled, and then delivered once more. -/
def redelivery : List DispatchAction :=
  handled dispatchText 5 ++
  .elsewhere (.tasks (.transition "task_1" .waitingDirectoryLock none)) (sampleInput "t2") ::
  handled dispatchText 1 ++ handled cancelText 3 ++ handled dispatchText 1

def Dispatching.answer? (x : Dispatching) : Option (String × TaskStatus) :=
  match x.handling with
  | some ⟨_, .ret (.taskDispatched task)⟩ => some (task.id, task.status)
  | _ => none

def keepsControlPlane : DispatchAction → Bool
  | .elsewhere (.tasks (.create row)) _ => (row.metadata.bind (·.get? "control_plane")).isNone
  | _ => true

theorem keepsControlPlane_sound {a : DispatchAction} (h : keepsControlPlane a) :
    KeepsControlPlane a := by
  unfold KeepsControlPlane
  split
  · exact Option.isNone_iff_eq_none.mp h
  · trivial

theorem readsLimited_sampleParse : ReadsLimited sampleParse := by
  intro text value h
  unfold sampleParse at h
  split at h
  · obtain rfl := Option.some.inj h
    decide
  · split at h
    · obtain rfl := Option.some.inj h
      decide
    · cases h

theorem dispatch_exactly_once_redelivery : ∃ x : Dispatching,
    x.daemon.store.tasks.map (fun r => r.value.id) = ["task_1"] ∧
    x.answer? = some ("task_1", .cancelled) ∧ ExactlyOnce sampleParse x := by
  have hrun : (run (fun x a => if keepsControlPlane a then dispatchStep sampleParse x a else none)
      ⟨⟨sampleStore.store, []⟩, none⟩ redelivery).map (fun x =>
        (x.daemon.store.tasks.map fun r => r.value.id, x.answer?, x.daemon.store.tasksReadable)) =
      some (["task_1"], some ("task_1", .cancelled), true) := by decide +kernel
  obtain ⟨x, hx, hfacts⟩ := Option.map_eq_some_iff.mp hrun
  simp only [Prod.mk.injEq] at hfacts
  obtain ⟨htasks, hanswer, hrows⟩ := hfacts
  exact ⟨x, htasks, hanswer, (dispatch_exactly_once readsLimited_sampleParse sampleStore.wellFormed
    rfl (reaches_of_run (fun _ _ => keepsControlPlane_sound) hx)).mpr fun _ => hrows⟩

def nestedArrays : ℕ → Value
  | 0 => .array []
  | n + 1 => .array [nestedArrays n]

/-- The provider has answered with JSON that `serde_json` just reads, and that is now stored one
level further down. -/
def deepResult : TaskResult where
  taskId := "task_1"
  status := .completed
  finalMessage := "done"
  changedFiles := []
  diff := none
  workspaceMode := .worktree
  worktreePath := none
  sourceDirectoryId := "dir_1"
  branchName := none
  commitHash := none
  sessionId := none
  providerResult := some (nestedArrays 126)
  usage := none
  artifacts := []
  error := none
  createdAt := "t2"
  updatedAt := "t2"

def unreadResult : List DispatchAction :=
  handled dispatchText 5 ++ [.elsewhere (.tasks (.saveExecutionResult deepResult)) (sampleInput "t2")]

/-- The provider's answer can be read, but the dispatch is not answered with its task again. -/
theorem unreadResult_not_exactlyOnce : (nestedArrays 126).readable ∧ ∃ x : Dispatching,
    Reaches (dispatchStep sampleParse) (fun _ a => KeepsControlPlane a)
      ⟨⟨sampleStore.store, []⟩, none⟩ x ∧
    Redelivers sampleParse x ∧ ¬ ExactlyOnce sampleParse x := by
  have hrun : (run (fun x a => if keepsControlPlane a then dispatchStep sampleParse x a else none)
      ⟨⟨sampleStore.store, []⟩, none⟩ unreadResult).map (fun x =>
        (x.handling.all Handling.ended, x.daemon.store.tasksReadable,
          (x.daemon.store.findTask "task_1").map remoteTaskIdOf)) =
      some (true, false, some (some "remote_1")) := by decide +kernel
  obtain ⟨x, hx, hfacts⟩ := Option.map_eq_some_iff.mp hrun
  simp only [Prod.mk.injEq] at hfacts
  obtain ⟨hended, hrows, hremote⟩ := hfacts
  obtain ⟨task, hfind, hremote⟩ := Option.map_eq_some_iff.mp hremote
  have hparsed : (dispatchOf sampleParse dispatchText).map RemoteDispatchTask.remoteTaskId =
      some "remote_1" := by decide +kernel
  obtain ⟨remoteTask, hdispatch, hid⟩ := Option.map_eq_some_iff.mp hparsed
  have hremote : remoteTaskIdOf task = some remoteTask.remoteTaskId := by rw [hid, hremote]
  have hreceive : dispatchStep sampleParse x (.receive dispatchText) =
      some { x with handling := some ⟨dispatchText, handleText sampleParse dispatchText⟩ } :=
    if_pos hended
  have hreach := (reaches_of_run (fun _ _ => keepsControlPlane_sound) hx).tail
    (show KeepsControlPlane (.receive dispatchText) from trivial) hreceive
  have hkept := kept_of_reaches readsLimited_sampleParse sampleStore.wellFormed rfl hreach
  refine ⟨by decide +kernel, _, hreach,
    ⟨dispatchText, _, "task_1", task, rfl, hdispatch, hfind, hremote⟩, fun honce => ?_⟩
  have hread := (hkept.redelivered (sampleInput "t3") rfl hdispatch hfind hremote).mp
    (honce.redelivered _ _ _ _ _ rfl hdispatch hfind hremote)
  rw [hrows] at hread
  cases hread

end Samples

end OpenDaemon
