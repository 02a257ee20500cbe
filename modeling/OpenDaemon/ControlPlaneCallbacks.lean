import OpenDaemon.ControlPlane
import OpenDaemon.ServiceDecoding
import OpenDaemon.TaskFrame
import OpenDaemon.TaskRun

/-!
# Callbacks to the control plane

`ControlPlaneCallbackService` and the event arm of `run_session`: the client
takes the events of the bus one after another, reads the task afresh and tells
the control plane about it. A session that meets an error is over. Store calls
of the rest of the daemon come in between; the bus does not lag. A task whose
row cannot be decoded cannot be read.
-/

namespace OpenDaemon

open Runs Store

structure TerminalFields where
  sequence : ℕ
  result : Option TaskResult
  error : Option Value

structure TaskCallback where
  event : String
  remoteTaskId : String
  taskToken : String
  taskId : String
  status : TaskStatus
  terminal : Option TerminalFields

/-- The keys of the callbacks that were sent: a task and a sequence number, or one of the
negative numbers that stand for a state. -/
abbrev DeliveredKeys : Type := List (String × ℤ)

def Task.controlPlane? (task : Task) : Option Value :=
  task.metadata.bind (·.get? "control_plane")

def stateSequence : TaskStatus → ℤ
  | .waitingDirectoryLock => -1
  | .running => -2
  | _ => 0

def stateCallback : TaskStatus → Option String
  | .waitingDirectoryLock => some "task.claimed"
  | .running => some "task.started"
  | _ => none

def terminalCallback : TaskStatus → Option String
  | .completed => some "task.completed"
  | .failed => some "task.failed"
  | .cancelled => some "task.cancelled"
  | .timedOut => some "task.timed_out"
  | _ => none

namespace ControlPlaneCallbackService

abbrev CallbackResult : Type :=
  Except ControlPlaneClientError (Option TaskCallback × DeliveredKeys)

def deliver (delivered : DeliveredKeys) (task : Task) (key : ℤ) (event : String)
    (terminal : Option TerminalFields) : CallbackResult :=
  match task.controlPlane? with
  | none => .ok (none, delivered)
  | some controlPlane =>
    match controlPlane.strAt "remote_task_id" with
    | none => .error .invalidMessage
    | some remoteTaskId =>
      match controlPlane.strAt "task_token" with
      | none => .error .invalidMessage
      | some taskToken =>
        if (task.id, key) ∈ delivered then .ok (none, delivered)
        else .ok (some ⟨event, remoteTaskId, taskToken, task.id, task.status, terminal⟩,
          (task.id, key) :: delivered)

def callbackForTaskState (delivered : DeliveredKeys) (task : Task) : CallbackResult :=
  match stateCallback task.status with
  | none => .ok (none, delivered)
  | some event => deliver delivered task (stateSequence task.status) event none

def readTask (s : Store) (taskId : String) : Except ControlPlaneClientError Task :=
  match s.findTask taskId with
  | some task =>
    if task.readable then .ok task else .error (.dispatch (.task (.fromTaskStore .store)))
  | none => .error (.dispatch (.task (.fromTaskStore .notFound)))

theorem readTask_eq (s : Store) (taskId now : String) : readTask s taskId =
    (runDecoded (TaskStore.get taskId) now s).1.mapError fun e =>
      .dispatch (.task (.fromTaskStore e)) := by
  unfold readTask
  cases hfind : s.findTask taskId with
  | none =>
    have hread : s.taskReadable taskId := by
      rw [Store.taskReadable, hfind]
      rfl
    rw [runDecoded_get_read hread, runAlone_get_none hfind]
    rfl
  | some task =>
    have hrow : s.taskReadable taskId = task.readable := by rw [Store.taskReadable, hfind]; rfl
    cases hread : task.readable with
    | true =>
      rw [runDecoded_get_read (hrow.trans hread), runAlone_get_some hfind]
      simp only [hread, if_true, Except.mapError]
    | false =>
      rw [runDecoded_get_unread (hrow.trans hread)]
      simp only [hread, Except.mapError]
      rfl

def callbackForEvent (delivered : DeliveredKeys) (s : Store) (event : TaskEvent) : CallbackResult :=
  match event.eventType.status?.bind terminalCallback with
  | none => .ok (none, delivered)
  | some name =>
    match readTask s event.taskId with
    | .error error => .error error
    | .ok task => deliver delivered task event.sequence name
        (some ⟨event.sequence, task.result, event.payload.get? "error"⟩)

def callbackForState (delivered : DeliveredKeys) (s : Store) (taskId : String) : CallbackResult :=
  match readTask s taskId with
  | .error error => .error error
  | .ok task => callbackForTaskState delivered task

/-- The event arm of `run_session`. -/
def callbackFor (delivered : DeliveredKeys) (s : Store) (event : TaskEvent) : CallbackResult :=
  match event.eventType with
  | .waitingDirectoryLock | .running => callbackForState delivered s event.taskId
  | _ => callbackForEvent delivered s event

end ControlPlaneCallbackService

/-- A connected session: how many events it has taken from the bus, and what it has sent. -/
structure CallbackSession where
  store : Store
  seen : ℕ
  delivered : DeliveredKeys
  sent : List TaskCallback
  failed : Option ControlPlaneClientError

namespace CallbackSession

def start (s : Store) (delivered : DeliveredKeys) : CallbackSession := ⟨s, 0, delivered, [], none⟩

def nextEvent? (x : CallbackSession) : Option TaskEvent := x.store.published[x.seen]?

def take (x : CallbackSession) (event : TaskEvent) : CallbackSession :=
  match ControlPlaneCallbackService.callbackFor x.delivered x.store event with
  | .error error => { x with seen := x.seen + 1, failed := some error }
  | .ok (callback, delivered) =>
    { x with seen := x.seen + 1, delivered := delivered, sent := x.sent ++ callback.toList }

def process (x : CallbackSession) : Option CallbackSession :=
  if x.failed.isSome then none else x.nextEvent?.map x.take

@[simp] theorem take_store (x : CallbackSession) (event : TaskEvent) :
    (x.take event).store = x.store := by
  unfold take
  split <;> rfl

@[simp] theorem take_seen (x : CallbackSession) (event : TaskEvent) :
    (x.take event).seen = x.seen + 1 := by
  unfold take
  split <;> rfl

theorem process_eq_some {x y : CallbackSession} (h : x.process = some y) :
    ∃ event, x.nextEvent? = some event ∧ y = x.take event := by
  unfold process at h
  split at h
  · cases h
  · obtain ⟨event, hnext, heq⟩ := Option.map_eq_some_iff.mp h
    exact ⟨event, hnext, heq.symm⟩

end CallbackSession

section Climb

def TaskStatus.rank : TaskStatus → ℕ
  | .queued => 0
  | .waitingDirectoryLock => 1
  | .preparing => 2
  | .running => 3
  | .completed | .failed | .cancelled | .timedOut => 4

theorem rank_lt_of_allowed {current next : TaskStatus} (h : transitionAllowed current next) :
    current.rank < next.rank := by
  cases current <;> cases next <;> first | decide | cases h

theorem rank_le_four (status : TaskStatus) : status.rank ≤ 4 := by
  cases status <;> decide

theorem rank_of_terminal {status : TaskStatus} (h : status.isTerminal) : status.rank = 4 := by
  cases status <;> first | rfl | cases h

def statusesFor (id : String) (events : List TaskEvent) : List TaskStatus :=
  (events.filter fun event => decide (event.taskId = id)).filterMap fun event =>
    event.eventType.status?

theorem statusesFor_append (id : String) (events events' : List TaskEvent) :
    statusesFor id (events ++ events') = statusesFor id events ++ statusesFor id events' := by
  simp only [statusesFor, List.filter_append, List.filterMap_append]

/-- The published events of a task name the statuses through which it has climbed. -/
structure Store.Climbs (s : Store) (id : String) : Prop where
  order : (statusesFor id s.published).Pairwise fun a b => a.rank < b.rank
  reached : ∀ status ∈ statusesFor id s.published, ∃ current, s.statusOf id = some current ∧
    (status = current ∨ status.rank < current.rank)

inductive Store.Climb (s s' : Store) : Prop
  | quiet (published : s'.published = s.published)
      (statuses : ∀ id, s'.statusOf id = s.statusOf id)
  | logged (event : TaskEvent) (published : s'.published = s.published ++ [event])
      (ordinary : event.eventType.status? = none)
      (statuses : ∀ id, s'.statusOf id = s.statusOf id)
  | moved (event : TaskEvent) (next : TaskStatus) (published : s'.published = s.published ++ [event])
      (named : event.eventType.status? = some next) (status : s'.statusOf event.taskId = some next)
      (allowed : ∀ old, s.statusOf event.taskId = some old → transitionAllowed old next)
      (others : ∀ id, id ≠ event.taskId → s'.statusOf id = s.statusOf id)
  | silent (taskId : String) (next : TaskStatus) (published : s'.published = s.published)
      (status : s'.statusOf taskId = some next)
      (allowed : ∀ old, s.statusOf taskId = some old → transitionAllowed old next)
      (others : ∀ id, id ≠ taskId → s'.statusOf id = s.statusOf id)

section Calls
variable {s s' : Store} {now : String}

theorem climb_same (h : s' = s) : s.Climb s' := by
  rw [h]
  exact .quiet rfl fun _ => rfl

theorem climb_sameTasks (h : s.SameTasks s') : s.Climb s' :=
  .quiet h.published fun id => by
    rw [Store.statusOf, findTask_congr h.tasks, Store.statusOf]

theorem climb_logged {event : TaskEvent} (htasks : s'.tasks = s.tasks)
    (hpublished : s'.published = s.published ++ [event])
    (hordinary : event.eventType.status? = none) : s.Climb s' :=
  .logged event hpublished hordinary fun id => by
    rw [Store.statusOf, findTask_congr htasks, Store.statusOf]

theorem climb_runAlone (hs : s.WellFormed) (op : TaskOp) (hop : op.isOrdinary) :
    s.Climb (runAlone op.program now s).2 := by
  have hcalled : s.Called now op (runAlone op.program now s).2 := called_runAlone hs op
  generalize (runAlone op.program now s).2 = s' at hcalled
  cases hcalled with
  | nothing => exact climb_same rfl
  | created input =>
    refine .moved (s.firstEvent now) .queued rfl rfl ?_ (fun old hold => ?_) fun id hne => ?_
    · rw [Store.statusOf, created_findTask hs]
      simp [Store.firstEvent, NewTask.toTask]
    · have hnew : s.statusOf (s.firstEvent now).taskId = none := by
        rw [Store.statusOf, Store.firstEvent, findTask_next hs]
        rfl
      rw [hnew] at hold
      cases hold
    · have hold : id ≠ RowTable.rowKey "task_" (RowTable.nextRowid s.tasks) := hne
      rw [Store.statusOf, created_findTask hs, if_neg hold, Store.statusOf]
  | moved payload htarget hfind hallowed =>
    rename_i id next task
    refine .moved _ next (moved_published next payload) (status?_eventTypeForStatus next)
      (moved_statusOf hfind) (fun old hold => ?_) fun other hne => moved_statusOf_ne hne
    have hstatus : s.statusOf id = some task.status := by
      rw [Store.statusOf, hfind]
      rfl
    obtain rfl := Option.some.inj (hstatus.symm.trans hold)
    exact hallowed
  | savedResult | savedExecutionResult => exact .quiet rfl (status_withResult rfl)
  | logged hordinary htasks _ hpublished => exact climb_logged htasks hpublished (hordinary hop)
  | acquired | released => exact .quiet rfl fun _ => rfl

/-- All callers of `append_event` pass a `process.*` or `provider.*` type. -/
def ServiceStep.isOrdinary : ServiceStep → Bool
  | .tasks op => op.isOrdinary
  | _ => true

theorem Store.Climb.unpublished (h : s.Climb s') :
    s.Climb { s' with published := s.published } := by
  cases h with
  | quiet _ hstatuses => exact .quiet rfl hstatuses
  | logged event _ _ hstatuses => exact .quiet rfl hstatuses
  | moved event next _ _ hstatus hallowed hothers =>
    exact .silent event.taskId next rfl hstatus hallowed hothers
  | silent taskId next _ hstatus hallowed hothers =>
    exact .silent taskId next rfl hstatus hallowed hothers

theorem climb_exec (hs : s.WellFormed) (q : ServiceStep) (hq : q.isOrdinary)
    (input : ServiceStep.Input) : s.Climb (q.exec input s).2 := by
  cases q with
  | tasks op => exact climb_runAlone hs op hq
  | grants op => exact climb_sameTasks (sameTasks_grantOp op input.now s)
  | profiles op => exact climb_sameTasks (sameTasks_profileOp op input.now s)
  | loadRegistry | getRuntime _ | prepareWorkspace _ _ _ | executeAdapter _ | clock =>
    exact climb_same rfl

theorem climb_execDecoded (hs : s.WellFormed) (q : ServiceStep) (hq : q.isOrdinary)
    (input : ServiceStep.Input) : s.Climb (q.execDecoded input s).2 := by
  have hleaves : q.Leaves input s (q.execDecoded input s).2 := q.leaves_execDecoded hs input
  generalize (q.execDecoded input s).2 = t at hleaves
  cases hleaves with
  | refused same => exact climb_sameTasks same
  | done => exact climb_exec hs q hq input
  | unread => exact (climb_exec hs q hq input).unpublished

end Calls

section Announcements
variable {s s' : Store} {now : String}

def TaskEvent.namesStatus (event : TaskEvent) : Bool := event.eventType.status?.isSome

def Store.Announces (s s' : Store) : Prop :=
  ∃ logged published, s'.events = s.events ++ logged ∧ s'.published = s.published ++ published ∧
    logged.filter TaskEvent.namesStatus = published.filter TaskEvent.namesStatus

theorem announces_same (hevents : s'.events = s.events) (hpublished : s'.published = s.published) :
    s.Announces s' :=
  ⟨[], [], by rw [hevents, List.append_nil], by rw [hpublished, List.append_nil], rfl⟩

theorem announces_logged {event : TaskEvent} (hevents : s'.events = s.events ++ [event])
    (hpublished : s'.published = s.published ++ [event]) : s.Announces s' :=
  ⟨[event], [event], hevents, hpublished, rfl⟩

theorem announces_runAlone (hs : s.WellFormed) (op : TaskOp) :
    s.Announces (runAlone op.program now s).2 := by
  have hcalled : s.Called now op (runAlone op.program now s).2 := called_runAlone hs op
  generalize (runAlone op.program now s).2 = s' at hcalled
  cases hcalled with
  | created input => exact announces_logged rfl rfl
  | moved payload _ _ _ => exact announces_logged (moved_events _ payload) (moved_published _ payload)
  | logged _ _ hevents hpublished => exact announces_logged hevents hpublished
  | nothing | savedResult | savedExecutionResult | acquired | released => exact announces_same rfl rfl

/-- The event of a transition can be read back. All that the services make are of this kind. -/
def ServiceStep.announces : ServiceStep → Bool
  | .tasks (.transition _ _ payload) => (payload.getD .emptyObject).readable
  | _ => true

theorem announces_unread (hs : s.WellFormed) {op : TaskOp} (hop : op.isOrdinary)
    (hannounces : (ServiceStep.tasks op).announces) (deep : op.logsReadable = false) :
    s.Announces { (runAlone op.program now s).2 with published := s.published } := by
  have hcalled : s.Called now op (runAlone op.program now s).2 := called_runAlone hs op
  generalize (runAlone op.program now s).2 = s' at hcalled
  cases hcalled with
  | nothing => exact announces_same rfl rfl
  | logged hordinary _ hevents _ =>
    refine ⟨_, [], hevents, (List.append_nil _).symm, ?_⟩
    simp [TaskEvent.namesStatus, hordinary hop]
  | moved _ target _ _ =>
    cases op with
    | transition id next payload =>
      have hread : (payload.getD .emptyObject).readable = true := hannounces
      rw [TaskOp.logsReadable, hread] at deep
      cases deep
    | cancel _ => cases deep
    | _ => cases target
  | created | savedResult | savedExecutionResult | acquired | released => cases deep

theorem announces_execDecoded (hs : s.WellFormed) {q : ServiceStep} (hq : q.isOrdinary)
    (hannounces : q.announces) (input : ServiceStep.Input) :
    s.Announces (q.execDecoded input s).2 := by
  have hleaves : q.Leaves input s (q.execDecoded input s).2 := q.leaves_execDecoded hs input
  generalize (q.execDecoded input s).2 = t at hleaves
  cases hleaves with
  | refused same => exact announces_same same.events same.published
  | done =>
    cases q with
    | tasks op => exact announces_runAlone hs op
    | grants op =>
      have hsame := sameTasks_grantOp op input.now s
      exact announces_same hsame.events hsame.published
    | profiles op =>
      have hsame := sameTasks_profileOp op input.now s
      exact announces_same hsame.events hsame.published
    | loadRegistry | getRuntime _ | prepareWorkspace _ _ _ | executeAdapter _ | clock =>
      exact announces_same rfl rfl
  | unread calls deep =>
    subst calls
    exact announces_unread hs hq hannounces deep

end Announcements

section Runs
variable {s s' : Store} {id : String}

theorem statusesFor_singleton_none {event : TaskEvent} (h : event.eventType.status? = none)
    (id : String) : statusesFor id [event] = [] := by
  by_cases hid : event.taskId = id
  · simp [statusesFor, hid, h]
  · simp [statusesFor, hid]

theorem statusesFor_singleton_other {event : TaskEvent} (h : event.taskId ≠ id) :
    statusesFor id [event] = [] := by
  simp [statusesFor, h]

theorem statusesFor_singleton {event : TaskEvent} {status : TaskStatus} (hid : event.taskId = id)
    (h : event.eventType.status? = some status) : statusesFor id [event] = [status] := by
  simp [statusesFor, hid, h]

theorem Store.Climbs.initial (h : s.published = []) : s.Climbs id := by
  have hnone : statusesFor id s.published = [] := by
    rw [h]
    rfl
  refine ⟨?_, fun status hmem => ?_⟩
  · rw [hnone]
    exact List.Pairwise.nil
  · rw [hnone] at hmem
    cases hmem

theorem Store.Climbs.of_same (h : s.Climbs id)
    (hstatuses : statusesFor id s'.published = statusesFor id s.published)
    (hstatus : s'.statusOf id = s.statusOf id) : s'.Climbs id := by
  refine ⟨hstatuses ▸ h.order, fun status hmem => ?_⟩
  rw [hstatuses] at hmem
  rw [hstatus]
  exact h.reached status hmem

theorem Store.Climbs.below (h : s.Climbs id) {next : TaskStatus}
    (hallowed : ∀ old, s.statusOf id = some old → transitionAllowed old next) :
    ∀ status ∈ statusesFor id s.published, status.rank < next.rank := by
  intro status hmem
  obtain ⟨current, hcurrent, hle⟩ := h.reached status hmem
  have hlt := rank_lt_of_allowed (hallowed current hcurrent)
  rcases hle with rfl | hle
  · exact hlt
  · exact hle.trans hlt

theorem Store.Climbs.step (h : s.Climbs id) (hc : s.Climb s') : s'.Climbs id := by
  cases hc with
  | quiet hpublished hstatuses => exact h.of_same (by rw [hpublished]) (hstatuses id)
  | logged event hpublished hordinary hstatuses =>
    refine h.of_same ?_ (hstatuses id)
    rw [hpublished, statusesFor_append, statusesFor_singleton_none hordinary, List.append_nil]
  | moved event next hpublished hnamed hstatus hallowed hothers =>
    by_cases hid : event.taskId = id
    · subst hid
      have hlist : statusesFor event.taskId s'.published =
          statusesFor event.taskId s.published ++ [next] := by
        rw [hpublished, statusesFor_append, statusesFor_singleton rfl hnamed]
      have hbelow := h.below hallowed
      refine ⟨?_, fun status hmem => ⟨next, hstatus, ?_⟩⟩
      · rw [hlist, List.pairwise_append]
        refine ⟨h.order, List.pairwise_singleton _ _, fun a ha b hb => ?_⟩
        rw [List.mem_singleton.mp hb]
        exact hbelow a ha
      · rw [hlist, List.mem_append, List.mem_singleton] at hmem
        rcases hmem with hmem | rfl
        · exact .inr (hbelow status hmem)
        · exact .inl rfl
    · refine h.of_same ?_ (hothers id fun h => hid h.symm)
      rw [hpublished, statusesFor_append, statusesFor_singleton_other hid, List.append_nil]
  | silent taskId next hpublished hstatus hallowed hothers =>
    by_cases hid : taskId = id
    · subst hid
      refine ⟨hpublished ▸ h.order, fun status hmem => ⟨next, hstatus, .inr ?_⟩⟩
      rw [hpublished] at hmem
      exact h.below hallowed status hmem
    · exact h.of_same (by rw [hpublished]) (hothers id fun h => hid h.symm)

theorem Store.Climbs.terminal (h : s.Climbs id) {status : TaskStatus}
    (hmem : status ∈ statusesFor id s.published) (hterminal : status.isTerminal) :
    s.statusOf id = some status := by
  obtain ⟨current, hcurrent, rfl | hlt⟩ := h.reached status hmem
  · exact hcurrent
  · have htop := rank_of_terminal hterminal
    have hbound := rank_le_four current
    omega

end Runs

end Climb

end OpenDaemon
