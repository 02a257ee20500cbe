import OpenDaemon.ControlPlaneCallbacks
import OpenDaemon.LockOwnership

/-!
# The order of the callbacks

A task climbs through its statuses and publishes each of them once. If the client
takes every `waiting_directory_lock` and `running` event while the task still has
that status, the callbacks are those of the events, in their order. The status is
read when the event is taken, so a task that has moved on loses a callback, and so
does one whose row cannot be read by then.
-/

namespace OpenDaemon

open Runs Store ControlPlaneCallbackService

def Task.isDispatched (task : Task) : Prop :=
  ∃ remoteTask, task.metadata = some (ControlPlaneDispatchService.dispatchMetadata remoteTask)

inductive CallbackAction
  | call (q : ServiceStep) (input : ServiceStep.Input)
  | process

def callbackStep (x : CallbackSession) : CallbackAction → Option CallbackSession
  | .call q input => some { x with store := (q.execDecoded input x.store).2 }
  | .process => x.process

section Expected

def eventsFor (id : String) (events : List TaskEvent) : List TaskEvent :=
  events.filter fun event => decide (event.taskId = id)

def statusEvents (id : String) (events : List TaskEvent) : List TaskEvent :=
  (eventsFor id events).filter TaskEvent.namesStatus

theorem statusEvents_append (id : String) (events events' : List TaskEvent) :
    statusEvents id (events ++ events') = statusEvents id events ++ statusEvents id events' := by
  simp only [statusEvents, eventsFor, List.filter_append]

/-- Every event of the task that names a status is on the bus. -/
def Store.Announced (s : Store) (id : String) : Prop :=
  statusEvents id s.published = statusEvents id s.events

theorem Store.Announced.step {s s' : Store} {id : String} (h : s.Announced id)
    (hstep : s.Announces s') : s'.Announced id := by
  obtain ⟨logged, published, hevents, hpublished, hsame⟩ := hstep
  have hadded : statusEvents id published = statusEvents id logged := by
    simp only [statusEvents, eventsFor]
    rw [List.filter_comm, ← hsame, List.filter_comm]
  rw [Store.Announced, hevents, hpublished, statusEvents_append, statusEvents_append, hadded, h]

def terminalOf (event : TaskEvent) : Option (String × Option ℕ) :=
  (event.eventType.status?.bind terminalCallback).map fun name => (name, some event.sequence)

def isWaiting (event : TaskEvent) : Bool := event.eventType = .waitingDirectoryLock

def isRunning (event : TaskEvent) : Bool := event.eventType = .running

/-- The callbacks of a task with these events: its claim, its start and its end, with the
sequence number of the terminal event. -/
def expectedCallbacks (events : List TaskEvent) : List (String × Option ℕ) :=
  (if events.any isWaiting then [("task.claimed", none)] else []) ++
  (if events.any isRunning then [("task.started", none)] else []) ++ events.filterMap terminalOf

theorem expectedCallbacks_namesStatus (events : List TaskEvent) :
    expectedCallbacks (events.filter TaskEvent.namesStatus) = expectedCallbacks events := by
  have hwaiting : ∀ event : TaskEvent, (event.namesStatus && isWaiting event) = isWaiting event := by
    intro event
    by_cases h : event.eventType = .waitingDirectoryLock
    · simp [isWaiting, TaskEvent.namesStatus, h, TaskEventType.status?]
    · simp [isWaiting, h]
  have hrunning : ∀ event : TaskEvent, (event.namesStatus && isRunning event) = isRunning event := by
    intro event
    by_cases h : event.eventType = .running
    · simp [isRunning, TaskEvent.namesStatus, h, TaskEventType.status?]
    · simp [isRunning, h]
  have hterminal : ∀ event : TaskEvent,
      (if event.namesStatus then terminalOf event else none) = terminalOf event := by
    intro event
    cases h : event.eventType.status? <;> simp [TaskEvent.namesStatus, terminalOf, h]
  simp only [expectedCallbacks, List.any_filter, List.filterMap_filter, hwaiting, hrunning, hterminal]

def callbackOf (event : TaskEvent) : Option (String × Option ℕ) :=
  if isWaiting event then some ("task.claimed", none)
  else if isRunning event then some ("task.started", none)
  else terminalOf event

/-- A state event of the task is taken while the task has that status, and its row can be read when
an event with a callback is taken. The transitions log what can be read back, as all that the
services make do. -/
def OnTime (id : String) (x : CallbackSession) : CallbackAction → Prop
  | .call q _ => q.isOrdinary ∧ q.announces
  | .process => ∀ event, x.nextEvent? = some event → event.taskId = id →
      (event.eventType = .waitingDirectoryLock ∨ event.eventType = .running →
        x.store.statusOf id = event.eventType.status?) ∧
      (callbackOf event ≠ none → x.store.taskReadable id)

theorem any_eq_false_of_rank {events : List TaskEvent} (kind : TaskEventType)
    {status low : TaskStatus} (hkind : kind.status? = some status) (hlow : status.rank ≤ low.rank)
    (h : ∀ later ∈ events.filterMap (fun event => event.eventType.status?), low.rank < later.rank) :
    (events.any fun event => decide (event.eventType = kind)) = false := by
  rw [List.any_eq_false]
  intro event hmem htype
  have hstatus : event.eventType.status? = some status := by
    rw [of_decide_eq_true htype, hkind]
  have hlater := h status (List.mem_filterMap.mpr ⟨event, hmem, hstatus⟩)
  omega

theorem isTerminal_of_terminalCallback {status : TaskStatus} {name : String}
    (h : terminalCallback status = some name) : status.isTerminal := by
  cases status <;> first | rfl | cases h

theorem status_of_terminalOf {event : TaskEvent} {callback : String × Option ℕ}
    (h : terminalOf event = some callback) :
    ∃ status, event.eventType.status? = some status ∧ status.rank = 4 := by
  obtain ⟨name, hname, -⟩ := Option.map_eq_some_iff.mp h
  obtain ⟨status, hstatus, hterminal⟩ := Option.bind_eq_some_iff.mp hname
  exact ⟨status, hstatus, rank_of_terminal (isTerminal_of_terminalCallback hterminal)⟩

theorem filterMap_callbackOf {events : List TaskEvent}
    (h : (events.filterMap fun event => event.eventType.status?).Pairwise
      fun a b => a.rank < b.rank) :
    events.filterMap callbackOf = expectedCallbacks events := by
  induction events with
  | nil => rfl
  | cons event events ih =>
    have hrest := ih (h.sublist ((List.sublist_cons_self event events).filterMap _))
    have hbelow : ∀ status, event.eventType.status? = some status →
        ∀ later ∈ events.filterMap (fun event => event.eventType.status?),
          status.rank < later.rank := by
      intro status hstatus
      simp only [List.filterMap_cons, hstatus, List.pairwise_cons] at h
      exact h.1
    -- nothing at or below the status of the first event follows it
    have hwaits : ∀ status, event.eventType.status? = some status → 1 ≤ status.rank →
        events.any isWaiting = false := fun status hstatus hrank =>
      any_eq_false_of_rank .waitingDirectoryLock rfl hrank (hbelow status hstatus)
    have hruns : ∀ status, event.eventType.status? = some status → 3 ≤ status.rank →
        events.any isRunning = false := fun status hstatus hrank =>
      any_eq_false_of_rank .running rfl hrank (hbelow status hstatus)
    simp only [List.filterMap_cons, hrest, expectedCallbacks, List.any_cons]
    by_cases hwaiting : event.eventType = .waitingDirectoryLock
    · have hnone := hwaits .waitingDirectoryLock (hwaiting ▸ rfl) (by decide)
      simp [callbackOf, isWaiting, isRunning, terminalOf, hwaiting, hnone, TaskEventType.status?,
        terminalCallback]
    · by_cases hrunning : event.eventType = .running
      · have hnone := hwaits .running (hrunning ▸ rfl) (by decide)
        have hnone' := hruns .running (hrunning ▸ rfl) (by decide)
        simp [callbackOf, isWaiting, isRunning, terminalOf, hrunning, hnone, hnone',
          TaskEventType.status?, terminalCallback]
      · have hcallback : callbackOf event = terminalOf event := by
          simp [callbackOf, isWaiting, isRunning, hwaiting, hrunning]
        cases hterminal : terminalOf event with
        | none => simp [hcallback, hterminal, isWaiting, isRunning, hwaiting, hrunning]
        | some callback =>
          obtain ⟨status, hstatus, hrank⟩ := status_of_terminalOf hterminal
          have hnone := hwaits status hstatus (by omega)
          have hnone' := hruns status hstatus (by omega)
          simp [hcallback, hterminal, isWaiting, isRunning, hwaiting, hrunning, hnone, hnone']

end Expected

section Service
variable {delivered : DeliveredKeys} {s : Store} {event : TaskEvent} {task : Task}

def keyOf (event : TaskEvent) : ℤ :=
  if isWaiting event then -1 else if isRunning event then -2 else event.sequence

def Concerns (taskId : String) (delivered : DeliveredKeys) (answer : CallbackResult) : Prop :=
  (∃ error, answer = .error error) ∨ answer = .ok (none, delivered) ∨
  ∃ callback key, callback.taskId = taskId ∧
    answer = .ok (some callback, (taskId, key) :: delivered)

theorem concerns_deliver (delivered : DeliveredKeys) (task : Task) (key : ℤ) (name : String)
    (terminal : Option TerminalFields) :
    Concerns task.id delivered (deliver delivered task key name terminal) := by
  unfold deliver
  split
  · exact .inr (.inl rfl)
  · split
    · exact .inl ⟨_, rfl⟩
    · split
      · exact .inl ⟨_, rfl⟩
      · split
        · exact .inr (.inl rfl)
        · exact .inr (.inr ⟨_, _, rfl, rfl⟩)

theorem concerns_callbackForTaskState (delivered : DeliveredKeys) (task : Task) :
    Concerns task.id delivered (callbackForTaskState delivered task) := by
  unfold callbackForTaskState
  split
  · exact .inr (.inl rfl)
  · exact concerns_deliver ..

theorem readTask_eq_ok {taskId : String} (h : readTask s taskId = .ok task) :
    s.findTask taskId = some task := by
  unfold readTask at h
  split at h
  · rename_i found hfind
    split at h
    · rw [hfind, Except.ok.inj h]
    · cases h
  · cases h

theorem readTask_of_find {taskId : String} (h : s.findTask taskId = some task)
    (hread : task.readable) : readTask s taskId = .ok task := by
  simp only [readTask, h, hread, if_true]

theorem concerns_callbackForEvent (delivered : DeliveredKeys) (s : Store) (event : TaskEvent) :
    Concerns event.taskId delivered (callbackForEvent delivered s event) := by
  unfold callbackForEvent
  split
  · exact .inr (.inl rfl)
  · split
    · exact .inl ⟨_, rfl⟩
    · rename_i task hread
      rw [← findTask_id (readTask_eq_ok hread)]
      exact concerns_deliver ..

theorem concerns_callbackForState (delivered : DeliveredKeys) (s : Store) (taskId : String) :
    Concerns taskId delivered (callbackForState delivered s taskId) := by
  unfold callbackForState
  split
  · exact .inl ⟨_, rfl⟩
  · rename_i task hread
    rw [← findTask_id (readTask_eq_ok hread)]
    exact concerns_callbackForTaskState ..

theorem concerns_callbackFor (delivered : DeliveredKeys) (s : Store) (event : TaskEvent) :
    Concerns event.taskId delivered (callbackFor delivered s event) := by
  unfold callbackFor
  split
  · exact concerns_callbackForState ..
  · exact concerns_callbackForState ..
  · exact concerns_callbackForEvent ..

theorem callbackFor_state (h : event.eventType = .waitingDirectoryLock ∨ event.eventType = .running) :
    callbackFor delivered s event = callbackForState delivered s event.taskId := by
  rcases h with h | h
  · simp only [callbackFor, h]
  · simp only [callbackFor, h]

theorem callbackFor_other (hwaiting : event.eventType ≠ .waitingDirectoryLock)
    (hrunning : event.eventType ≠ .running) :
    callbackFor delivered s event = callbackForEvent delivered s event := by
  unfold callbackFor
  split
  · exact absurd ‹_› hwaiting
  · exact absurd ‹_› hrunning
  · rfl

theorem deliver_dispatched (h : task.isDispatched) {key : ℤ} (hkey : (task.id, key) ∉ delivered)
    (name : String) (terminal : Option TerminalFields) :
    ∃ callback : TaskCallback, callback.event = name ∧ callback.taskId = task.id ∧
      callback.status = task.status ∧ callback.terminal = terminal ∧
      deliver delivered task key name terminal =
        .ok (some callback, (task.id, key) :: delivered) := by
  obtain ⟨remoteTask, hmetadata⟩ := h
  refine ⟨⟨name, remoteTask.remoteTaskId, remoteTask.taskToken, task.id, task.status, terminal⟩,
    rfl, rfl, rfl, rfl, ?_⟩
  simp only [deliver, Task.controlPlane?, hmetadata]
  exact if_neg hkey

theorem callbackForState_dispatched {taskId : String} (hfind : s.findTask taskId = some task)
    (hread : task.readable) (hdispatched : task.isDispatched) {name : String}
    (hname : stateCallback task.status = some name)
    (hkey : (task.id, stateSequence task.status) ∉ delivered) :
    ∃ callback : TaskCallback, callback.event = name ∧ callback.taskId = task.id ∧
      callback.terminal = none ∧ callbackForState delivered s taskId =
        .ok (some callback, (task.id, stateSequence task.status) :: delivered) := by
  obtain ⟨callback, hevent, htask, -, hterminal, hdeliver⟩ :=
    deliver_dispatched hdispatched hkey name none
  refine ⟨callback, hevent, htask, hterminal, ?_⟩
  simp only [callbackForState, readTask_of_find hfind hread, callbackForTaskState, hname, hdeliver]

theorem callbackFor_dispatched (hfind : s.findTask event.taskId = some task)
    (hread : task.readable) (hdispatched : task.isDispatched)
    (hstatus : event.eventType = .waitingDirectoryLock ∨ event.eventType = .running →
      some task.status = event.eventType.status?)
    {name : String} {sequence : Option ℕ} (hcallback : callbackOf event = some (name, sequence))
    (hkey : (event.taskId, keyOf event) ∉ delivered) :
    ∃ callback : TaskCallback, callback.event = name ∧ callback.taskId = event.taskId ∧
      callback.terminal.map TerminalFields.sequence = sequence ∧
      callbackFor delivered s event =
        .ok (some callback, (event.taskId, keyOf event) :: delivered) := by
  have hid := findTask_id hfind
  rw [← hid] at hkey
  by_cases hstate : event.eventType = .waitingDirectoryLock ∨ event.eventType = .running
  · have hnamed := hstatus hstate
    obtain ⟨hname, rfl, hkeyOf⟩ : stateCallback task.status = some name ∧ none = sequence ∧
        keyOf event = stateSequence task.status := by
      rcases hstate with htype | htype
      · rw [htype] at hnamed
        rw [Option.some.inj hnamed]
        simpa [callbackOf, keyOf, isWaiting, htype, stateCallback, stateSequence] using hcallback
      · rw [htype] at hnamed
        rw [Option.some.inj hnamed]
        simpa [callbackOf, keyOf, isWaiting, isRunning, htype, stateCallback, stateSequence]
          using hcallback
    rw [hkeyOf] at hkey ⊢
    obtain ⟨callback, hevent, htask, hterminal, hanswer⟩ :=
      callbackForState_dispatched hfind hread hdispatched hname hkey
    refine ⟨callback, hevent, htask.trans hid, by rw [hterminal]; rfl, ?_⟩
    rw [callbackFor_state hstate, hanswer, hid]
  · obtain ⟨hwaiting, hrunning⟩ := not_or.mp hstate
    have hkeyOf : keyOf event = event.sequence := by
      simp [keyOf, isWaiting, isRunning, hwaiting, hrunning]
    have hterminalOf : terminalOf event = some (name, sequence) := by
      simpa [callbackOf, isWaiting, isRunning, hwaiting, hrunning] using hcallback
    obtain ⟨ended, hended, hpair⟩ := Option.map_eq_some_iff.mp hterminalOf
    obtain ⟨rfl, rfl⟩ := Prod.mk.inj hpair
    rw [hkeyOf] at hkey ⊢
    obtain ⟨callback, hname, htask, -, hterminal, hdeliver⟩ := deliver_dispatched hdispatched hkey
      ended (some ⟨event.sequence, task.result, event.payload.get? "error"⟩)
    refine ⟨callback, hname, htask.trans hid, by rw [hterminal]; rfl, ?_⟩
    rw [callbackFor_other hwaiting hrunning]
    simp only [callbackForEvent, hended, readTask_of_find hfind hread, hdeliver, hid]

theorem callbackFor_none (hcallback : callbackOf event = none) :
    callbackFor delivered s event = .ok (none, delivered) := by
  have hwaiting : event.eventType ≠ .waitingDirectoryLock := by
    intro h
    simp [callbackOf, isWaiting, h] at hcallback
  have hrunning : event.eventType ≠ .running := by
    intro h
    simp [callbackOf, isWaiting, isRunning, h] at hcallback
  have hterminal : event.eventType.status?.bind terminalCallback = none := by
    simpa [callbackOf, isWaiting, isRunning, hwaiting, hrunning, terminalOf] using hcallback
  rw [callbackFor_other hwaiting hrunning]
  simp only [callbackForEvent, hterminal]

theorem status_of_callbackOf (h : callbackOf event ≠ none) : ∃ status : TaskStatus,
    event.eventType.status? = some status ∧
    (status.rank = 1 ∧ keyOf event = -1 ∨ status.rank = 3 ∧ keyOf event = -2 ∨
      status.rank = 4 ∧ 0 ≤ keyOf event) := by
  by_cases hwaiting : event.eventType = .waitingDirectoryLock
  · refine ⟨.waitingDirectoryLock, by rw [hwaiting]; rfl, .inl ⟨rfl, ?_⟩⟩
    simp [keyOf, isWaiting, hwaiting]
  · by_cases hrunning : event.eventType = .running
    · refine ⟨.running, by rw [hrunning]; rfl, .inr (.inl ⟨rfl, ?_⟩)⟩
      simp [keyOf, isWaiting, isRunning, hrunning]
    · have hterminal : terminalOf event ≠ none := by
        simpa [callbackOf, isWaiting, isRunning, hwaiting, hrunning] using h
      obtain ⟨callback, hcallback⟩ := Option.ne_none_iff_exists'.mp hterminal
      obtain ⟨status, hstatus, hrank⟩ := status_of_terminalOf hcallback
      refine ⟨status, hstatus, .inr (.inr ⟨hrank, ?_⟩)⟩
      simp [keyOf, isWaiting, isRunning, hwaiting, hrunning]

end Service

namespace CallbackSession

def takenFor (id : String) (x : CallbackSession) : List TaskEvent :=
  eventsFor id (x.store.published.take x.seen)

def label (callback : TaskCallback) : String × Option ℕ :=
  (callback.event, callback.terminal.map TerminalFields.sequence)

def sentFor (id : String) (x : CallbackSession) : List (String × Option ℕ) :=
  (x.sent.filter fun callback => decide (callback.taskId = id)).map label

/-- The callbacks of the task are those of the events that were taken: each once, and in order. -/
def CallbacksInOrder (id : String) (x : CallbackSession) : Prop :=
  x.sentFor id = expectedCallbacks (x.takenFor id)

structure Sends (id : String) (x : CallbackSession) : Prop where
  sent : x.sentFor id = (x.takenFor id).filterMap callbackOf
  keys : ∀ key, (id, key) ∈ x.delivered →
    ∃ event ∈ x.takenFor id, callbackOf event ≠ none ∧ keyOf event = key

structure Tracks (id : String) (x : CallbackSession) : Prop where
  wellFormed : x.store.WellFormed
  climbs : x.store.Climbs id
  announced : x.store.Announced id
  seen : x.seen ≤ x.store.published.length
  absent : x.store.findTask id = none →
    (∀ key ∈ x.delivered, key.1 ≠ id) ∧ ∀ callback ∈ x.sent, callback.taskId ≠ id
  sends : ∀ task, x.store.findTask id = some task → task.isDispatched → x.Sends id

section Steps
variable {id : String} {x : CallbackSession}

theorem statusesFor_eq (id : String) (events : List TaskEvent) :
    statusesFor id events = (eventsFor id events).filterMap fun event => event.eventType.status? := rfl

theorem Tracks.order (h : x.Tracks id) : ((x.takenFor id).filterMap fun event =>
    event.eventType.status?).Pairwise fun a b => a.rank < b.rank := by
  refine h.climbs.order.sublist ?_
  exact ((List.take_sublist x.seen x.store.published).filter _).filterMap _

theorem callbacks_of_no_status {events : List TaskEvent} (h : statusesFor id events = []) :
    (eventsFor id events).filterMap callbackOf = [] := by
  rw [statusesFor_eq, List.filterMap_eq_nil_iff] at h
  rw [List.filterMap_eq_nil_iff]
  intro event hmem
  by_contra hcallback
  obtain ⟨status, hstatus, -⟩ := status_of_callbackOf hcallback
  rw [h event hmem] at hstatus
  cases hstatus

theorem Tracks.inOrder (h : x.Tracks id) {task : Task} (hfind : x.store.findTask id = some task)
    (hdispatched : task.isDispatched) : x.CallbacksInOrder id :=
  (h.sends task hfind hdispatched).sent.trans (filterMap_callbackOf h.order)

theorem published_of_climb {s s' : Store} (h : s.Climb s') :
    ∃ added, s'.published = s.published ++ added := by
  cases h with
  | quiet hpublished _ => exact ⟨[], by rw [hpublished, List.append_nil]⟩
  | logged event hpublished _ _ => exact ⟨[event], hpublished⟩
  | moved event next hpublished _ _ _ _ => exact ⟨[event], hpublished⟩
  | silent _ _ hpublished _ _ _ => exact ⟨[], by rw [hpublished, List.append_nil]⟩

theorem takenFor_execDecoded (hs : x.store.WellFormed) (hseen : x.seen ≤ x.store.published.length)
    {q : ServiceStep} (hq : q.isOrdinary) (input : ServiceStep.Input) :
    { x with store := (q.execDecoded input x.store).2 }.takenFor id = x.takenFor id ∧
      x.seen ≤ (q.execDecoded input x.store).2.published.length := by
  obtain ⟨added, hadded⟩ := published_of_climb (climb_execDecoded hs q hq input)
  constructor
  · rw [takenFor, takenFor, hadded, List.take_append_of_le_length hseen]
  · rw [hadded, List.length_append]
    exact hseen.trans (Nat.le_add_right _ _)

theorem Tracks.call (h : x.Tracks id) {q : ServiceStep} (hq : q.isOrdinary) (ha : q.announces)
    (input : ServiceStep.Input) : { x with store := (q.execDecoded input x.store).2 }.Tracks id := by
  have hclimb := climb_execDecoded h.wellFormed q hq input
  obtain ⟨htaken, hseen⟩ := takenFor_execDecoded h.wellFormed h.seen hq input
  -- what is known of a row survives, since its columns of creation do
  have hrow : (∀ task, (q.execDecoded input x.store).2.findTask id = some task →
        x.store.findTask id = none ∨ ∃ old, x.store.findTask id = some old ∧
          old.metadata = task.metadata) ∧
      ((q.execDecoded input x.store).2.findTask id = none → x.store.findTask id = none) := by
    obtain ⟨row, -, -, hstore⟩ | hcreation := execDecoded_created h.wellFormed q input
    · rw [hstore, created_findTask h.wellFormed]
      split
      · rename_i hid
        rw [hid, findTask_next h.wellFormed]
        exact ⟨fun _ _ => .inl rfl, fun _ => rfl⟩
      · exact ⟨fun task hfind => .inr ⟨task, hfind, rfl⟩, fun hnone => hnone⟩
    · have hcolumns := hcreation id
      refine ⟨fun task hfind => .inr ?_, fun hnone => ?_⟩
      · rw [hfind] at hcolumns
        obtain ⟨old, hold, heq⟩ := Option.map_eq_some_iff.mp hcolumns.symm
        exact ⟨old, hold, congrArg (fun columns => columns.1.metadata) heq⟩
      · rw [hnone] at hcolumns
        exact Option.map_eq_none_iff.mp hcolumns.symm
  refine ⟨q.wellFormed_execDecoded h.wellFormed input, h.climbs.step hclimb,
    h.announced.step (announces_execDecoded h.wellFormed hq ha input), hseen, ?_, ?_⟩
  · intro hnone
    exact h.absent (hrow.2 hnone)
  · intro task hfind hdispatched
    rcases hrow.1 task hfind with hnone | ⟨old, hold, hmetadata⟩
    · obtain ⟨hkeys, hsent⟩ := h.absent hnone
      have hstatuses : statusesFor id (x.store.published.take x.seen) = [] := by
        rw [List.eq_nil_iff_forall_not_mem]
        intro status hmem
        have hpublished : status ∈ statusesFor id x.store.published :=
          (((List.take_sublist x.seen x.store.published).filter _).filterMap _).subset hmem
        obtain ⟨current, hcurrent, -⟩ := h.climbs.reached status hpublished
        rw [Store.statusOf, hnone] at hcurrent
        cases hcurrent
      refine ⟨?_, fun key hkey => absurd rfl (hkeys _ hkey)⟩
      have hnosent : x.sentFor id = [] := by
        rw [sentFor, List.filter_eq_nil_iff.mpr, List.map_nil]
        intro callback hmem hid
        exact hsent callback hmem (of_decide_eq_true hid)
      rw [htaken, takenFor, callbacks_of_no_status hstatuses]
      exact hnosent
    · obtain ⟨remoteTask, hremote⟩ := hdispatched
      have hsends := h.sends old hold ⟨remoteTask, hmetadata.trans hremote⟩
      refine ⟨?_, ?_⟩
      · rw [htaken]
        exact hsends.sent
      · rw [htaken]
        exact hsends.keys

theorem takenFor_succ {event : TaskEvent} (hnext : x.nextEvent? = some event) :
    eventsFor id (x.store.published.take (x.seen + 1)) =
      x.takenFor id ++ eventsFor id [event] := by
  have hget : x.store.published[x.seen]? = some event := hnext
  rw [List.take_add_one, hget, takenFor, eventsFor, List.filter_append]
  rfl

theorem seen_lt {event : TaskEvent} (hnext : x.nextEvent? = some event) :
    x.seen + 1 ≤ x.store.published.length := by
  have hget : x.store.published[x.seen]? = some event := hnext
  exact (List.getElem?_eq_some_iff.mp hget).1

theorem Tracks.skip {y : CallbackSession} (h : x.Tracks id) {event : TaskEvent}
    (hnext : x.nextEvent? = some event) (hnone : (eventsFor id [event]).filterMap callbackOf = [])
    (hstore : y.store = x.store) (hseen : y.seen = x.seen + 1)
    (hkeys : ∀ key, (id, key) ∈ y.delivered → (id, key) ∈ x.delivered)
    (hsent : (y.sent.filter fun callback => decide (callback.taskId = id)) =
      x.sent.filter fun callback => decide (callback.taskId = id)) : y.Tracks id := by
  have htaken : y.takenFor id = x.takenFor id ++ eventsFor id [event] := by
    rw [takenFor, hstore, hseen, takenFor_succ hnext]
  refine ⟨hstore ▸ h.wellFormed, hstore ▸ h.climbs, hstore ▸ h.announced, ?_, ?_, ?_⟩
  · rw [hseen, hstore]
    exact seen_lt hnext
  · intro habsent
    rw [hstore] at habsent
    obtain ⟨hdelivered, hothers⟩ := h.absent habsent
    refine ⟨fun key hkey hid => ?_, fun callback hmem hid => ?_⟩
    · have hown : (id, key.2) ∈ y.delivered := by
        rw [← hid]
        exact hkey
      exact hdelivered _ (hkeys key.2 hown) rfl
    · have hfilter : callback ∈ y.sent.filter fun callback => decide (callback.taskId = id) :=
        List.mem_filter.mpr ⟨hmem, decide_eq_true hid⟩
      rw [hsent] at hfilter
      exact hothers callback (List.mem_filter.mp hfilter).1 hid
  · intro task hfind hdispatched
    rw [hstore] at hfind
    have hsends := h.sends task hfind hdispatched
    refine ⟨?_, fun key hkey => ?_⟩
    · have hsame : y.sentFor id = x.sentFor id := by
        rw [sentFor, hsent, sentFor]
      rw [hsame, htaken, List.filterMap_append, hnone, List.append_nil]
      exact hsends.sent
    · obtain ⟨earlier, hmem, hcallback⟩ := hsends.keys key (hkeys key hkey)
      refine ⟨earlier, ?_, hcallback⟩
      rw [htaken]
      exact List.mem_append_left _ hmem

theorem Tracks.take_other (h : x.Tracks id) {event : TaskEvent} (hnext : x.nextEvent? = some event)
    (hother : event.taskId ≠ id) : (x.take event).Tracks id := by
  have hnone : (eventsFor id [event]).filterMap callbackOf = [] := by
    simp [eventsFor, hother]
  unfold take
  obtain ⟨error, hanswer⟩ | hanswer | ⟨callback, key, htask, hanswer⟩ :=
    concerns_callbackFor x.delivered x.store event
  · rw [hanswer]
    exact h.skip hnext hnone rfl rfl (fun _ hkey => hkey) rfl
  · rw [hanswer]
    exact h.skip hnext hnone rfl rfl (fun _ hkey => hkey) (by simp)
  · rw [hanswer]
    refine h.skip hnext hnone rfl rfl (fun key' hkey => ?_) ?_
    · rcases List.mem_cons.mp hkey with heq | hold
      · exact absurd (congrArg Prod.fst heq).symm hother
      · exact hold
    · have hcallback : callback.taskId ≠ id := by
        rw [htask]
        exact hother
      simp [hcallback]

theorem Tracks.key_new (h : x.Tracks id) (hsends : x.Sends id) {event : TaskEvent}
    (hnext : x.nextEvent? = some event) (hown : event.taskId = id)
    (hcallback : callbackOf event ≠ none) : (id, keyOf event) ∉ x.delivered := by
  intro hkey
  obtain ⟨earlier, hmem, hearlier, hsame⟩ := hsends.keys _ hkey
  obtain ⟨status, hstatus, hrank⟩ := status_of_callbackOf hcallback
  obtain ⟨status', hstatus', hrank'⟩ := status_of_callbackOf hearlier
  have horder : (statusesFor id (x.store.published.take (x.seen + 1))).Pairwise
      fun a b => a.rank < b.rank :=
    h.climbs.order.sublist (((List.take_sublist _ x.store.published).filter _).filterMap _)
  have hsplit : eventsFor id (x.store.published.take (x.seen + 1)) = x.takenFor id ++ [event] := by
    rw [takenFor_succ hnext]
    simp [eventsFor, hown]
  rw [statusesFor_eq, hsplit, List.filterMap_append, List.pairwise_append] at horder
  have hlt := horder.2.2 status' (List.mem_filterMap.mpr ⟨earlier, hmem, hstatus'⟩) status
    (List.mem_filterMap.mpr ⟨event, List.mem_singleton_self event, hstatus⟩)
  omega

theorem Tracks.take_own (h : x.Tracks id) {event : TaskEvent} (hnext : x.nextEvent? = some event)
    (hown : event.taskId = id) (hontime : event.eventType = .waitingDirectoryLock ∨
      event.eventType = .running → x.store.statusOf id = event.eventType.status?)
    (hread : callbackOf event ≠ none → x.store.taskReadable id) :
    (x.take event).Tracks id := by
  by_cases hcallback : callbackOf event = none
  · unfold take
    rw [callbackFor_none hcallback]
    exact h.skip hnext (by simp [eventsFor, hown, hcallback]) rfl rfl (fun _ hkey => hkey) (by simp)
  obtain ⟨status, hstatus, -⟩ := status_of_callbackOf hcallback
  have hmem : event ∈ x.store.published := List.mem_of_getElem? hnext
  have hnamed : status ∈ statusesFor id x.store.published :=
    List.mem_filterMap.mpr ⟨event, List.mem_filter.mpr ⟨hmem, decide_eq_true hown⟩, hstatus⟩
  obtain ⟨current, hcurrent, -⟩ := h.climbs.reached status hnamed
  obtain ⟨task, hfind, -⟩ := Option.map_eq_some_iff.mp hcurrent
  have hstore := (x.take_store event).symm
  refine ⟨hstore ▸ h.wellFormed, hstore ▸ h.climbs, hstore ▸ h.announced, ?_, fun hnone => ?_,
    fun row hrow hdispatched => ?_⟩
  · rw [take_seen, take_store]
    exact seen_lt hnext
  · rw [take_store, hfind] at hnone
    cases hnone
  · rw [take_store, hfind] at hrow
    obtain rfl := Option.some.inj hrow
    have hsends := h.sends task hfind hdispatched
    obtain ⟨⟨name, sequence⟩, hlabel⟩ := Option.ne_none_iff_exists'.mp hcallback
    have hontime' : event.eventType = .waitingDirectoryLock ∨ event.eventType = .running →
        some task.status = event.eventType.status? := by
      intro hstate
      rw [← hontime hstate, Store.statusOf, hfind]
      rfl
    have hrow := hread hcallback
    rw [Store.taskReadable, hfind] at hrow
    have hkey := h.key_new hsends hnext hown hcallback
    obtain ⟨callback, hevent, htask, hterminal, hanswer⟩ :=
      callbackFor_dispatched (hown ▸ hfind) hrow hdispatched hontime' hlabel (hown ▸ hkey)
    have htaken : (x.take event).takenFor id = x.takenFor id ++ [event] := by
      rw [takenFor, take_store, take_seen, takenFor_succ hnext]
      simp [eventsFor, hown]
    refine ⟨?_, fun key hused => ?_⟩
    · rw [htaken, List.filterMap_append, ← hsends.sent]
      have hid : callback.taskId = id := htask.trans hown
      simp [take, hanswer, sentFor, hid, label, hevent, hterminal, hlabel]
    · rw [htaken]
      simp only [take, hanswer, List.mem_cons] at hused
      rcases hused with heq | hold
      · exact ⟨event, by simp, hcallback, (congrArg Prod.snd heq).symm⟩
      · obtain ⟨earlier, hmem', hearlier⟩ := hsends.keys key hold
        exact ⟨earlier, List.mem_append_left _ hmem', hearlier⟩

theorem Tracks.start {s : Store} {delivered : DeliveredKeys} (hs : s.WellFormed)
    (hpublished : s.published = []) (hnew : s.findTask id = none)
    (hkeys : ∀ key ∈ delivered, key.1 ≠ id) : (CallbackSession.start s delivered).Tracks id where
  wellFormed := hs
  climbs := .initial hpublished
  announced := by
    have hnone : eventsFor id s.events = [] := by
      rw [eventsFor, List.filter_eq_nil_iff]
      intro event hmem hid
      have htask := hs.eventTasks event hmem
      rw [of_decide_eq_true hid, hnew] at htask
      cases htask
    change (eventsFor id s.published).filter _ = (eventsFor id s.events).filter _
    rw [hnone, hpublished]
    rfl
  seen := Nat.zero_le _
  absent := fun _ => ⟨hkeys, fun _ hmem => absurd hmem List.not_mem_nil⟩
  sends := fun task hfind => absurd (hnew.symm.trans hfind) (Option.some_ne_none task).symm

theorem Tracks.step {y : CallbackSession} {a : CallbackAction} (h : x.Tracks id)
    (ha : OnTime id x a) (hstep : callbackStep x a = some y) : y.Tracks id := by
  cases a with
  | call q input =>
    obtain rfl := Option.some.inj hstep
    exact h.call ha.1 ha.2 input
  | process =>
    obtain ⟨event, hnext, rfl⟩ := process_eq_some hstep
    by_cases hown : event.taskId = id
    · obtain ⟨hontime, hread⟩ := ha event hnext hown
      exact h.take_own hnext hown hontime hread
    · exact h.take_other hnext hown

end Steps

end CallbackSession

/-- A task is dispatched and runs while the session is connected. If the session takes each
state event on time and can read the task, it sends the callbacks of the events it has taken, in
their order, and when it has taken all of them these are the callbacks of the log. -/
theorem callbacks_in_order {s : Store} {delivered : DeliveredKeys} {id : String} (hs : s.WellFormed)
    (hpublished : s.published = []) (hnew : s.findTask id = none)
    (hkeys : ∀ key ∈ delivered, key.1 ≠ id) {x : CallbackSession}
    (hx : Reaches callbackStep (OnTime id) (.start s delivered) x) {task : Task}
    (hfind : x.store.findTask id = some task) (hdispatched : task.isDispatched) :
    x.CallbacksInOrder id ∧
      (x.nextEvent? = none → x.sentFor id = expectedCallbacks (x.store.eventsOf id)) := by
  have htracks : x.Tracks id := by
    refine hx.invariant (.start hs hpublished hnew hkeys) ?_
    intro y a z hy ha hstep
    exact hy.step ha hstep
  have hinOrder := htracks.inOrder hfind hdispatched
  refine ⟨hinOrder, fun hnext => hinOrder.trans ?_⟩
  have hall : x.takenFor id = eventsFor id x.store.published :=
    congrArg (eventsFor id) (List.take_of_length_le (List.getElem?_eq_none_iff.mp hnext))
  have hlog : x.store.eventsOf id = eventsFor id x.store.events := rfl
  rw [hall, hlog, ← expectedCallbacks_namesStatus (eventsFor id x.store.published),
    ← expectedCallbacks_namesStatus (eventsFor id x.store.events)]
  exact congrArg expectedCallbacks htracks.announced

section Samples

def sampleRemoteTask : RemoteDispatchTask where
  remoteTaskId := "remote_1"
  ownerProductId := "acme"
  agentId := "reviewer"
  directoryId := "dir_1"
  prompt := "fix the build"
  requiredCapabilities := ["read"]
  workspaceMode := "worktree"
  timeoutSeconds := none
  taskToken := "secret"
  metadata := .null

def dispatchedTask : CreateTask :=
  { sampleTask with metadata := some (ControlPlaneDispatchService.dispatchMetadata sampleRemoteTask) }

def moves (statuses : List TaskStatus) : List CallbackAction :=
  statuses.map fun next => .call (.tasks (.transition "task_1" next none)) (sampleInput "t1")

def onTime (id : String) (x : CallbackSession) : CallbackAction → Bool
  | .call q _ => q.isOrdinary && q.announces
  | .process => x.nextEvent?.all fun event => !decide (event.taskId = id) ||
      (!(isWaiting event || isRunning event) ||
        decide (x.store.statusOf id = event.eventType.status?)) &&
      ((callbackOf event).isNone || x.store.taskReadable id)

theorem onTime_sound {id : String} {x : CallbackSession} {a : CallbackAction}
    (h : onTime id x a) : OnTime id x a := by
  cases a with
  | call q input => exact Bool.and_eq_true_iff.mp h
  | process =>
    intro event hnext hown
    obtain ⟨hstate, hread⟩ :
        (¬ (event.eventType = .waitingDirectoryLock ∨ event.eventType = .running) ∨
          x.store.statusOf id = event.eventType.status?) ∧
        (callbackOf event = none ∨ x.store.taskReadable id) := by
      simpa [onTime, hnext, hown, isWaiting, isRunning] using h
    exact ⟨fun h => hstate.resolve_left (not_not.mpr h), fun h => hread.resolve_left h⟩

def create : CallbackAction := .call (.tasks (.create dispatchedTask)) (sampleInput "t0")

def promptSession : List CallbackAction :=
  create :: .process :: (moves [.waitingDirectoryLock, .preparing, .running, .completed]).flatMap
    fun a => [a, .process]

def lateSession : List CallbackAction :=
  create :: moves [.waitingDirectoryLock, .preparing, .running] ++ List.replicate 4 .process

theorem isDispatched_of_metadata {s : Store} {id : String} {remoteTask : RemoteDispatchTask}
    (h : (s.findTask id).map Task.metadata =
      some (some (ControlPlaneDispatchService.dispatchMetadata remoteTask))) :
    ∃ task, s.findTask id = some task ∧ task.isDispatched := by
  obtain ⟨task, hfind, hmetadata⟩ := Option.map_eq_some_iff.mp h
  exact ⟨task, hfind, remoteTask, hmetadata⟩

theorem callbacks_in_order_promptSession : ∃ x : CallbackSession,
    Reaches callbackStep (OnTime "task_1") (.start sampleStore.store []) x ∧
    x.sentFor "task_1" = [("task.claimed", none), ("task.started", none),
      ("task.completed", some 5)] ∧ x.nextEvent? = none ∧ x.CallbacksInOrder "task_1" ∧
    x.sentFor "task_1" = expectedCallbacks (x.store.eventsOf "task_1") := by
  have hrun : ((run (fun x a => if onTime "task_1" x a then callbackStep x a else none)
      (.start sampleStore.store []) promptSession).map fun x =>
        (x.store.published.length - x.seen, (x.store.findTask "task_1").map Task.metadata,
          x.sentFor "task_1")) =
      some (0, some (some (ControlPlaneDispatchService.dispatchMetadata sampleRemoteTask)),
        [("task.claimed", none), ("task.started", none), ("task.completed", some 5)]) := by rfl
  obtain ⟨x, hx, hfacts⟩ := Option.map_eq_some_iff.mp hrun
  simp only [Prod.mk.injEq] at hfacts
  obtain ⟨hlength, hmetadata, hsent⟩ := hfacts
  obtain ⟨task, hfind, hdispatched⟩ := isDispatched_of_metadata hmetadata
  have hreach := reaches_of_run (fun _ _ => onTime_sound) hx
  have hnext : x.nextEvent? = none := List.getElem?_eq_none (by omega)
  obtain ⟨hinOrder, hall⟩ := callbacks_in_order sampleStore.wellFormed rfl rfl
    (fun _ hkey => absurd hkey List.not_mem_nil) hreach hfind hdispatched
  exact ⟨x, hreach, hsent, hnext, hinOrder, hall hnext⟩

/-- The claim of the directory lock is never reported, although all events were taken. -/
theorem lateSession_not_inOrder : ∃ x : CallbackSession, ∃ task : Task,
    run callbackStep (.start sampleStore.store []) lateSession = some x ∧
    x.nextEvent? = none ∧ x.failed = none ∧
    x.store.findTask "task_1" = some task ∧ task.isDispatched ∧
    x.sentFor "task_1" = [("task.started", none)] ∧
    expectedCallbacks (x.takenFor "task_1") = [("task.claimed", none), ("task.started", none)] ∧
    ¬ x.CallbacksInOrder "task_1" := by
  have hrun : ((run callbackStep (.start sampleStore.store []) lateSession).map fun x =>
      (x.store.published.length - x.seen, x.failed.isSome,
        (x.store.findTask "task_1").map Task.metadata,
        x.sentFor "task_1", expectedCallbacks (x.takenFor "task_1"))) =
      some (0, false, some (some (ControlPlaneDispatchService.dispatchMetadata sampleRemoteTask)),
        [("task.started", none)], [("task.claimed", none), ("task.started", none)]) := by rfl
  obtain ⟨x, hx, hfacts⟩ := Option.map_eq_some_iff.mp hrun
  simp only [Prod.mk.injEq] at hfacts
  obtain ⟨hlength, hfailed, hmetadata, hsent, hexpected⟩ := hfacts
  obtain ⟨task, hfind, hdispatched⟩ := isDispatched_of_metadata hmetadata
  refine ⟨x, task, hx, List.getElem?_eq_none (by omega), ?_, hfind, hdispatched, hsent, hexpected,
    fun h => ?_⟩
  · simpa using hfailed
  · rw [CallbackSession.CallbacksInOrder, hsent, hexpected] at h
    exact absurd h (by decide)

end Samples

end OpenDaemon
