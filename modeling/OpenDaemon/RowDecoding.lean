import OpenDaemon.CallRefinement
import OpenDaemon.ServiceInvariant
import OpenDaemon.TextColumns

/-!
# Rows that cannot be read back

`serde_json` prints a value of any depth and reads back at most 127 nested arrays and objects. A
row with deeper JSON can be written, but not decoded: a call that reads it ends with an error of
the store, and one that reads back what it has just committed has changed the tables by then. So
a step of a call that runs alone fails exactly if it reads such a row.
-/

namespace OpenDaemon

open RowTable SequencedLog Store Call

def Task.readable (task : Task) : Bool :=
  task.metadata.all Value.readable && task.result.all fun result => result.toValue.readable

def TaskEvent.readable (event : TaskEvent) : Bool := event.payload.readable

def PermissionRequestRecord.readable (record : PermissionRequestRecord) : Bool :=
  record.request.toValue.readable && record.response.all fun response => response.toValue.readable

def AgentProfile.readable (profile : AgentProfile) : Bool :=
  profile.executionPolicy.toValue.readable && profile.providerConfig.toValue.readable

def Store.taskReadable (s : Store) (id : String) : Bool := (s.findTask id).all Task.readable

def Store.tasksReadable (s : Store) : Bool := s.tasks.all fun row => row.value.readable

/-- The rows that the step reads can be decoded. Grants and locks hold no JSON that nests. -/
def DbStep.decodes : DbStep → Store → Bool
  | .selectTask id, s => s.taskReadable id
  | .selectTasks, s => s.tasksReadable
  | .selectEvent taskId sequence, s =>
    ((s.eventsOf taskId).find? fun event => decide (event.sequence = sequence)).all
      TaskEvent.readable
  | .resolvePermissionRequest taskId requestId decision _ _, s =>
    (s.findPermissionRequest taskId requestId).all fun record => record.readable &&
      (record.response.all (fun response => decide (response.decision ≠ decision)) ||
        (s.findPermissionDecisionEvent taskId requestId).all TaskEvent.readable)
  | .selectProfile id, s => (s.findProfile id).all AgentProfile.readable
  | _, _ => true

def DbStep.execDecoded (q : DbStep) (now : String) (s : Store) : q.Answer × Store :=
  q.exec (if q.decodes s then .proceed now else .ioError) s

theorem readable_request {request : PermissionRequestEvent} :
    request.toValue.readable = true ↔
      ∀ v ∈ request.details, v.depth < Value.recursionLimit - 1 := by
  rw [PermissionRequestEvent.toValue, Value.readable_object]
  cases request.details <;> simp [Value.depth, Value.recursionLimit, depth_strings]

section Run
variable {ε α β : Type} {c : Call DbStep DbStep.Answer ε α}
  {f : α → Call DbStep DbStep.Answer ε β} {now : String} {s t : Store}

/-- The result and the store after a call that runs alone, its rows decoded. -/
def runDecoded (c : Call DbStep DbStep.Answer ε α) (now : String) (s : Store) :
    Except ε α × Store :=
  let o := c.run DbStep.execDecoded (fun _ => now) s
  (o.result, o.state)

@[simp] theorem runDecoded_ret (a : α) :
    runDecoded (.ret a : Call DbStep DbStep.Answer ε α) now s = (.ok a, s) := rfl

@[simp] theorem runDecoded_fail (e : ε) :
    runDecoded (.fail e : Call DbStep DbStep.Answer ε α) now s = (.error e, s) := rfl

theorem runDecoded_bind_ok {a : α} (h : runDecoded c now s = (.ok a, t)) :
    runDecoded (c >>= f) now s = runDecoded (f a) now t := by
  obtain ⟨hr, hs⟩ := Prod.mk.inj h
  have hi : (c.run DbStep.execDecoded (fun _ => now) s).inputs = fun _ => now :=
    run_inputs_const c now s
  simp only [runDecoded, Call.run_bind]
  cases ho : c.run DbStep.execDecoded (fun _ => now) s with
  | mk r u inputs =>
    rw [ho] at hr hs hi
    subst hr hs hi
    rfl

theorem runDecoded_bind_error {e : ε} (h : runDecoded c now s = (.error e, t)) :
    runDecoded (c >>= f) now s = (.error e, t) := by
  obtain ⟨hr, hs⟩ := Prod.mk.inj h
  simp only [runDecoded, Call.run_bind]
  cases ho : c.run DbStep.execDecoded (fun _ => now) s with
  | mk r u inputs =>
    rw [ho] at hr hs
    subst hr hs
    rfl

theorem runDecoded_query {q : DbStep} (onError : SqlError → ε) (h : q.decodes s) :
    runDecoded (q.query onError) now s = runAlone (q.query onError) now s := by
  simp only [runDecoded, runAlone, DbStep.query, run_step, DbStep.execDecoded, if_pos h]
  cases (q.exec (.proceed now) s).1 <;> rfl

theorem runDecoded_query_unread {q : DbStep} {onError : SqlError → ε} (h : q.decodes s = false) :
    runDecoded (q.query onError) now s = (.error (onError .failure), s) := by
  simp only [runDecoded, DbStep.query, run_step, DbStep.execDecoded, h]
  rfl

theorem runDecoded_bind (hc : runDecoded c now s = runAlone c now s)
    (hf : ∀ a t, runAlone c now s = (.ok a, t) → runDecoded (f a) now t = runAlone (f a) now t) :
    runDecoded (c >>= f) now s = runAlone (c >>= f) now s := by
  cases hrun : runAlone c now s with
  | mk r t =>
    cases r with
    | ok a => rw [runDecoded_bind_ok (hc.trans hrun), runAlone_bind_ok hrun, hf a t hrun]
    | error e => rw [runDecoded_bind_error (hc.trans hrun), runAlone_bind_error hrun]

theorem runDecoded_of_uses (hc : c.Uses fun q => ∀ s, q.decodes s) :
    runDecoded c now s = runAlone c now s := by
  induction c generalizing s with
  | ret a => rfl
  | fail e => rfl
  | step q k ih =>
    have hexec : q.execDecoded now s = q.exec (.proceed now) s := by
      rw [DbStep.execDecoded, if_pos (hc.1 s)]
    simp only [runDecoded, runAlone, run_step, hexec]
    exact ih _ (hc.2 _)

/-- A row that is not decoded is an I/O error of the step that reads it. -/
theorem runDecoded_eq_run (c : Call DbStep DbStep.Answer ε α) (now : String) (s : Store) :
    ∃ inputs, runDecoded c now s =
      ((c.run DbStep.exec inputs s).result, (c.run DbStep.exec inputs s).state) := by
  induction c generalizing s with
  | ret a => exact ⟨fun _ => .ioError, rfl⟩
  | fail e => exact ⟨fun _ => .ioError, rfl⟩
  | step q k ih =>
    obtain ⟨inputs, h⟩ := ih (q.execDecoded now s).1 (q.execDecoded now s).2
    refine ⟨fun
      | 0 => if q.decodes s then .proceed now else .ioError
      | n + 1 => inputs n, ?_⟩
    exact h

end Run

section Tasks
variable {s : Store} {id now : String}

@[simp] theorem readable_afterTransition (task : Task) (next : TaskStatus) (now : String) :
    (task.afterTransition next now).readable = task.readable := rfl

theorem tasksReadable_iff (hs : s.WellFormed) : s.tasksReadable ↔ ∀ id, s.taskReadable id := by
  rw [Store.tasksReadable, List.all_eq_true]
  constructor
  · intro h id
    rw [Store.taskReadable, Option.all_eq_true]
    intro task hfind
    obtain ⟨r, hr, rfl, -⟩ := lookup_mem hfind
    exact h r hr
  · intro h r hr
    have hrow : s.taskReadable r.value.id := h r.value.id
    rwa [Store.taskReadable, hs.mem_findTask hr] at hrow

theorem taskReadable_congr {t : Store} (h : t.tasks = s.tasks) (id : String) :
    t.taskReadable id = s.taskReadable id := by
  rw [Store.taskReadable, findTask_congr h, Store.taskReadable]

@[simp] theorem taskReadable_moved (next : TaskStatus) (payload : Option Value) (id' : String) :
    (s.moved id next payload now).taskReadable id' = s.taskReadable id' := by
  rw [Store.taskReadable, Store.taskReadable, findTask_congr (moved_tasks next payload),
    findTask_updateTask fun task => task.afterTransition_id next now, Option.all_map]
  refine congrArg (fun f => (s.findTask id').all f) (funext fun task => ?_)
  split <;> rfl

theorem runDecoded_send {q : DbStep} (h : q.decodes s) :
    runDecoded (TaskStore.send q) now s = runAlone (TaskStore.send q) now s :=
  runDecoded_query _ h

theorem runDecoded_send_unread {q : DbStep} (h : q.decodes s = false) :
    runDecoded (TaskStore.send q) now s = (.error .store, s) :=
  runDecoded_query_unread h

theorem runDecoded_get_read (h : s.taskReadable id) (now : String) :
    runDecoded (TaskStore.get id) now s = runAlone (TaskStore.get id) now s := by
  refine runDecoded_bind (runDecoded_send h) fun row t _ => ?_
  cases row <;> rfl

theorem runDecoded_get_unread (h : s.taskReadable id = false) (now : String) :
    runDecoded (TaskStore.get id) now s = (.error .store, s) :=
  runDecoded_bind_error (runDecoded_query_unread h)

theorem runDecoded_get_state (s : Store) : (runDecoded (TaskStore.get id) now s).2 = s := by
  cases hrow : s.taskReadable id with
  | true =>
    rw [runDecoded_get_read hrow, runAlone_get]
    cases s.findTask id <;> rfl
  | false => rw [runDecoded_get_unread hrow]

theorem runDecoded_list_read (h : s.tasksReadable) (filters : TaskFilters) (now : String) :
    runDecoded (TaskStore.list filters) now s = runAlone (TaskStore.list filters) now s :=
  runDecoded_bind (runDecoded_send h) fun _ _ _ => rfl

theorem runDecoded_list_unread (h : s.tasksReadable = false) (filters : TaskFilters)
    (now : String) : runDecoded (TaskStore.list filters) now s = (.error .store, s) :=
  runDecoded_bind_error (runDecoded_query_unread h)

theorem runDecoded_publishing {α : Type} {s₁ : Store} {event : TaskEvent}
    {f : TaskEvent → TaskCall α} (hseq : event.sequence = s.nextSequence event.taskId)
    (hevents : s₁.events = s.events ++ [event]) :
    runDecoded (do
      let event ← TaskStore.eventBySequence event.taskId event.sequence
      TaskStore.publishIfConfigured event
      f event) now s₁ =
      if event.readable then
        runDecoded (f event) now { s₁ with published := s₁.published ++ [event] }
      else (.error .store, s₁) := by
  have hfind := find_selectEvent_last s₁ event hseq hevents
  have hdecodes : (DbStep.selectEvent event.taskId event.sequence).decodes s₁ = event.readable := by
    simp only [DbStep.decodes, hfind, Option.all_some]
  cases hread : event.readable with
  | true =>
    have hback : runDecoded (TaskStore.eventBySequence event.taskId event.sequence) now s₁ =
        (.ok event, s₁) := (runDecoded_send (hdecodes.trans hread)).trans
      (runAlone_query_ok (attempt_selectEvent_last s₁ event now hseq hevents))
    rw [runDecoded_bind_ok hback]
    rfl
  | false =>
    have hback : runDecoded (TaskStore.eventBySequence event.taskId event.sequence) now s₁ =
        (.error .store, s₁) := runDecoded_query_unread (hdecodes.trans hread)
    rw [runDecoded_bind_error hback]
    rfl

theorem runDecoded_clock {α : Type} (f : String → TaskCall α) :
    runDecoded (TaskStore.nowRfc3339 >>= f) now s = runDecoded (f now) now s := rfl

theorem runDecoded_clock_bind {α : Type} {f : String → TaskCall α}
    (h : runDecoded (f now) now s = runAlone (f now) now s) :
    runDecoded (TaskStore.nowRfc3339 >>= f) now s = runAlone (TaskStore.nowRfc3339 >>= f) now s :=
  h

theorem runDecoded_nextSequence {α : Type} (f : ℕ → TaskCall α) :
    runDecoded (TaskStore.nextSequence id >>= f) now s = runDecoded (f (s.nextSequence id)) now s :=
  rfl

/-- `append_event` has committed the event when it cannot be read back. -/
theorem runDecoded_appendEvent (hs : s.WellFormed) (hrow : s.taskReadable id)
    (eventType : TaskEventType) (payload : Value) :
    runDecoded (TaskStore.appendEvent id eventType payload) now s = match s.findTask id with
      | none => (.error .notFound, s)
      | some _ =>
        if payload.readable then (.ok (s.nextEvent id eventType payload now),
          s.logged (s.nextEvent id eventType payload now))
        else (.error .store, { s.logged (s.nextEvent id eventType payload now) with
          published := s.published }) := by
  have hget := runDecoded_get_read hrow now
  rw [runAlone_get] at hget
  unfold TaskStore.appendEvent
  cases hfind : s.findTask id with
  | none =>
    rw [hfind] at hget
    exact runDecoded_bind_error hget
  | some task =>
    rw [hfind] at hget
    have hinsert : runDecoded (TaskStore.send (.insertEvent id (s.nextSequence id) eventType payload
        now)) now s = (.ok (), { s.logged (s.nextEvent id eventType payload now) with
          published := s.published }) := by
      refine (runDecoded_send rfl).trans (runAlone_query_ok ?_)
      simp only [DbStep.attempt, insertEvent_next hs s rfl, Except.map]
      rfl
    rw [runDecoded_bind_ok hget, runDecoded_clock, runDecoded_nextSequence,
      runDecoded_bind_ok hinsert]
    have hseq : (s.nextEvent id eventType payload now).sequence = s.nextSequence id := rfl
    exact runDecoded_publishing hseq rfl

theorem runDecoded_appendEvent_read (hs : s.WellFormed) (hrow : s.taskReadable id)
    {eventType : TaskEventType} {payload : Value} (hpayload : payload.readable) :
    runDecoded (TaskStore.appendEvent id eventType payload) now s =
      runAlone (TaskStore.appendEvent id eventType payload) now s := by
  rw [runDecoded_appendEvent hs hrow, runAlone_appendEvent hs]
  cases s.findTask id with
  | none => rfl
  | some task => simp only [hpayload, if_true]

theorem runDecoded_transition (hs : s.WellFormed) (hrow : s.taskReadable id) (next : TaskStatus)
    (payload : Option Value) :
    runDecoded (TaskStore.transition id next payload) now s = match s.findTask id with
      | none => (.error .notFound, s)
      | some task =>
        match validateTransition task.status next with
        | .error e => (.error (.state e), s)
        | .ok .idempotent => (.ok task, s)
        | .ok .changed =>
          if (payload.getD .emptyObject).readable then
            (.ok (task.afterTransition next now), s.moved id next payload now)
          else (.error .store, { s.moved id next payload now with published := s.published }) := by
  have hget := runDecoded_get_read hrow now
  rw [runAlone_get] at hget
  unfold TaskStore.transition
  cases hfind : s.findTask id with
  | none =>
    rw [hfind] at hget
    exact runDecoded_bind_error hget
  | some task =>
    rw [hfind] at hget
    rw [runDecoded_bind_ok hget]
    cases hv : validateTransition task.status next with
    | error e => simp only [hv, runDecoded_fail]
    | ok t =>
      cases t with
      | idempotent => simp only [hv, Call.pure_eq, runDecoded_ret]
      | changed =>
        simp only [hv]
        have hcommit : runDecoded (TaskStore.send (.updateTaskStatus id next payload
            (s.nextSequence id) now)) now s =
            (.ok (), { s.moved id next payload now with published := s.published }) :=
          (runDecoded_send rfl).trans
            (runAlone_query_ok (attempt_updateTaskStatus hs next payload))
        have hseq : (s.nextEvent id (eventTypeForStatus next) (payload.getD .emptyObject)
            now).sequence = s.nextSequence id := rfl
        have hread : runDecoded (do
            let event ← TaskStore.eventBySequence id (s.nextSequence id)
            TaskStore.publishIfConfigured event
            TaskStore.get id) now { s.moved id next payload now with published := s.published } =
            _ := runDecoded_publishing hseq (moved_events next payload)
        have hstate : { s.moved id next payload now with
            published := s.published ++ [s.nextEvent id (eventTypeForStatus next)
              (payload.getD .emptyObject) now] } = s.moved id next payload now := by
          rw [← moved_published]
        have hmoved : (s.moved id next payload now).findTask id =
            some (task.afterTransition next now) := by
          rw [moved_findTask, hfind]
          rfl
        have hback : (s.moved id next payload now).taskReadable id :=
          (taskReadable_moved next payload id).trans hrow
        rw [runDecoded_clock, runDecoded_nextSequence, runDecoded_bind_ok hcommit, hread]
        have hrows := (runDecoded_get_read hback now).trans (runAlone_get_some hmoved)
        rw [← hstate] at hrows
        exact congrArg (fun r => if (payload.getD .emptyObject).readable then r else _)
          (hrows.trans (by rw [hstate]))

theorem runDecoded_transition_read (hs : s.WellFormed) (hrow : s.taskReadable id)
    {next : TaskStatus} {payload : Option Value} (hpayload : (payload.getD .emptyObject).readable) :
    runDecoded (TaskStore.transition id next payload) now s =
      runAlone (TaskStore.transition id next payload) now s := by
  rw [runDecoded_transition hs hrow, runAlone_transition hs]
  cases s.findTask id with
  | none => rfl
  | some task =>
    cases hv : validateTransition task.status next with
    | error e => simp only [hv]
    | ok t => cases t <;> simp only [hv, hpayload, if_true]

theorem runDecoded_transition_unread (hrow : s.taskReadable id = false) (next : TaskStatus)
    (payload : Option Value) :
    runDecoded (TaskStore.transition id next payload) now s = (.error .store, s) :=
  runDecoded_bind_error (runDecoded_get_unread hrow now)

theorem runDecoded_create (hs : s.WellFormed) (input : CreateTask) :
    runDecoded (TaskStore.create input) now s = match input.validate with
      | .error e => (.error (.model e), s)
      | .ok _ =>
        (if input.metadata.all Value.readable then
            .ok ((TaskStore.newTask input).toTask now (nextRowid s.tasks))
          else .error .store,
          s.created (TaskStore.newTask input) now) := by
  unfold TaskStore.create
  cases hv : input.validate with
  | error e => rfl
  | ok _ =>
    have hcommit : runDecoded (TaskStore.send (.insertTask (TaskStore.newTask input) now)) now s =
        (.ok _, _) := (runDecoded_send rfl).trans (runAlone_query_ok (attempt_insertTask hs _))
    have hseq : (s.firstEvent now).sequence = s.nextSequence (s.firstEvent now).taskId :=
      (nextSequence_next hs).symm
    have hevents : { s.created (TaskStore.newTask input) now with
        published := s.published }.events = s.events ++ [s.firstEvent now] := rfl
    have hread : runDecoded (do
        let event ← TaskStore.eventBySequence (rowKey "task_" (nextRowid s.tasks)) 1
        TaskStore.publishIfConfigured event
        TaskStore.get (rowKey "task_" (nextRowid s.tasks))) now
          { s.created (TaskStore.newTask input) now with published := s.published } = _ :=
      runDecoded_publishing hseq hevents
    have hrow : (s.created (TaskStore.newTask input) now).findTask _ = _ :=
      (created_findTask hs (TaskStore.newTask input) _).trans (if_pos rfl)
    have hreadable : (s.created (TaskStore.newTask input) now).taskReadable
        (rowKey "task_" (nextRowid s.tasks)) = input.metadata.all Value.readable := by
      rw [Store.taskReadable, hrow]
      exact Bool.and_true _
    change runDecoded (TaskStore.nowRfc3339 >>= _) now s = _
    rw [runDecoded_clock, runDecoded_bind_ok hcommit, hread]
    change runDecoded (TaskStore.get _) now (s.created (TaskStore.newTask input) now) = _
    cases hmetadata : input.metadata.all Value.readable with
    | true =>
      exact (runDecoded_get_read (hreadable.trans hmetadata) now).trans (runAlone_get_some hrow)
    | false => exact runDecoded_get_unread (hreadable.trans hmetadata) now

theorem runDecoded_saveResult_read (hrow : s.taskReadable id) (finalMessage : String)
    (changedFiles : List String) :
    runDecoded (TaskStore.saveResult id finalMessage changedFiles) now s =
      runAlone (TaskStore.saveResult id finalMessage changedFiles) now s :=
  runDecoded_bind (runDecoded_get_read hrow now) fun _ _ _ => rfl

theorem runDecoded_saveExecutionResult (result : TaskResult) :
    runDecoded (TaskStore.saveExecutionResult result) now s =
      runAlone (TaskStore.saveExecutionResult result) now s := rfl

theorem runDecoded_acquireLock (request : LockRequest) :
    runDecoded (TaskStore.acquireLock request) now s =
      runAlone (TaskStore.acquireLock request) now s := by
  refine runDecoded_bind (runDecoded_send rfl) fun active t _ => ?_
  split <;> rfl

theorem runDecoded_recordPermissionRequest {request : PermissionRequestEvent}
    (hrow : s.taskReadable id) {sequence : ℕ} {t : Store} (hfound : (s.findTask id).isSome)
    (hinsert : s.insertPermissionRequest id request now = .ok (sequence, t)) :
    runDecoded (TaskStore.recordPermissionRequest id request) now s =
      if request.toValue.readable then
        runAlone (TaskStore.recordPermissionRequest id request) now s
      else (.error .store, t) := by
  obtain ⟨task, hfind⟩ := Option.isSome_iff_exists.mp hfound
  have hget : runAlone (TaskStore.get id) now s = (.ok task, s) := runAlone_get_some hfind
  have hclock : runAlone TaskStore.nowRfc3339 now s = (.ok now, s) := runAlone_query_ok rfl
  have hsend : runAlone (TaskStore.send (.insertPermissionRequest id request now)) now s =
      (.ok sequence, t) := runAlone_query_ok hinsert
  obtain ⟨rfl, -, hstore⟩ := insertPermissionRequest_ok hinsert
  have hevents := congrArg Store.events hstore
  unfold TaskStore.recordPermissionRequest
  rw [runDecoded_bind_ok ((runDecoded_get_read hrow now).trans hget), runDecoded_clock,
    runDecoded_bind_ok ((runDecoded_send rfl).trans hsend),
    runDecoded_publishing (by rfl) hevents, runAlone_bind_ok hget, runAlone_bind_ok hclock,
    runAlone_bind_ok hsend, runAlone_publishing (by rfl) hevents]
  rfl

theorem record_unpublished {request : PermissionRequestEvent} {sequence : ℕ} {t : Store}
    (hfound : (s.findTask id).isSome)
    (hinsert : s.insertPermissionRequest id request now = .ok (sequence, t)) :
    { (runAlone (TaskStore.recordPermissionRequest id request) now s).2 with
      published := s.published } = t := by
  obtain ⟨task, hfind⟩ := Option.isSome_iff_exists.mp hfound
  have hclock : runAlone TaskStore.nowRfc3339 now s = (.ok now, s) := runAlone_query_ok rfl
  have hsend : runAlone (TaskStore.send (.insertPermissionRequest id request now)) now s =
      (.ok sequence, t) := runAlone_query_ok hinsert
  obtain ⟨rfl, -, hstore⟩ := insertPermissionRequest_ok hinsert
  have hevents := congrArg Store.events hstore
  unfold TaskStore.recordPermissionRequest
  rw [runAlone_bind_ok (runAlone_get_some hfind), runAlone_bind_ok hclock, runAlone_bind_ok hsend,
    runAlone_publishing (by rfl) hevents, hstore]
  rfl

theorem runAlone_get_state {task : Task} {t : Store}
    (h : runAlone (TaskStore.get id) now s = (.ok task, t)) : t = s := by
  rw [runAlone_get] at h
  cases hfind : s.findTask id with
  | none => rw [hfind] at h; cases h
  | some row => rw [hfind] at h; exact (Prod.mk.inj h).2.symm

theorem runDecoded_recordPermissionRequest_refused {request : PermissionRequestEvent}
    (hrow : s.taskReadable id) {e : SqlError}
    (hinsert : s.insertPermissionRequest id request now = .error e) :
    runDecoded (TaskStore.recordPermissionRequest id request) now s =
      runAlone (TaskStore.recordPermissionRequest id request) now s := by
  have hsend : runAlone (TaskStore.send (.insertPermissionRequest id request now)) now s =
      (.error .store, s) := runAlone_query_error hinsert
  refine runDecoded_bind (runDecoded_get_read hrow now) fun task t hget => ?_
  rw [runAlone_get_state hget, runDecoded_clock,
    runDecoded_bind_error ((runDecoded_send rfl).trans hsend)]
  exact (runAlone_bind_error hsend).symm

theorem runDecoded_resolvePermissionRequest {requestId : String} {decision : PermissionDecision}
    {reason : Option String} (hrow : s.taskReadable id)
    (hdecodes : (DbStep.resolvePermissionRequest id requestId decision reason now).decodes s) :
    runDecoded (TaskStore.resolvePermissionRequest id requestId decision reason) now s =
      runAlone (TaskStore.resolvePermissionRequest id requestId decision reason) now s := by
  refine runDecoded_bind (runDecoded_get_read hrow now) fun task t hget => ?_
  obtain rfl := runAlone_get_state hget
  refine runDecoded_clock_bind (runDecoded_bind (runDecoded_send hdecodes) fun answer u hsend => ?_)
  rcases answer with e | resolution | sequence
  · rfl
  · rfl
  · have hattempt : (DbStep.resolvePermissionRequest id requestId decision reason now).attempt now
        t = .ok (.ok (.inr sequence), u) := by
      cases ha : (DbStep.resolvePermissionRequest id requestId decision reason now).attempt now t with
      | ok answered =>
        rw [TaskStore.send, runAlone_query_ok ha] at hsend
        obtain ⟨hanswer, hstate⟩ := Prod.mk.inj hsend
        exact congrArg Except.ok (Prod.ext (Except.ok.inj hanswer) hstate)
      | error e =>
        rw [TaskStore.send, runAlone_query_error ha] at hsend
        cases hsend
    obtain ⟨-, hanswer, -⟩ | ⟨request, -, ⟨-, hanswer, -⟩ | ⟨-, -, hanswer, rfl⟩⟩ :=
      resolvePermissionRequest_cases hattempt
    · cases hanswer
    · exact absurd hanswer.symm (recallResolution_ne_inr request sequence)
    · obtain rfl := Sum.inr.inj (Except.ok.inj hanswer)
      have hevents : (t.decided id ⟨requestId, decision, reason⟩ now).events =
          t.events ++ [t.decidedEvent id ⟨requestId, decision, reason⟩ now] := rfl
      have hback : (t.decidedEvent id ⟨requestId, decision, reason⟩ now).readable :=
        readable_decision _
      refine (runDecoded_publishing (by rfl) hevents).trans ?_
      rw [if_pos hback]
      exact (runAlone_publishing (s := t) (f := fun event => .ret (⟨id, requestId,
        PermissionRequestStatus.fromDecision decision, decision, event, false⟩ :
          PermissionResolution)) (by rfl) hevents).symm

/-- The events that the call logs can be read back. -/
def TaskOp.logsReadable : TaskOp → Bool
  | .transition _ _ payload => (payload.getD .emptyObject).readable
  | .appendEvent _ _ payload => payload.readable
  | .recordPermissionRequest _ request => request.toValue.readable
  | _ => true

/-- What a call leaves: all it does, nothing, or all but the publication of its event. -/
inductive Store.Decoded (s : Store) (now : String) (op : TaskOp) : Store → Prop
  | refused : Decoded s now op s
  | done : Decoded s now op (runAlone op.program now s).2
  | unread (deep : op.logsReadable = false) : Decoded s now op
      { (runAlone op.program now s).2 with published := s.published }

section States
variable {op : TaskOp}

theorem decoded_of_eq (h : runDecoded op.program now s = runAlone op.program now s) :
    s.Decoded now op (runDecoded op.program now s).2 := h ▸ .done

theorem decoded_of_row {α : Type} {f : Task → TaskCall α}
    (h : s.taskReadable id → s.Decoded now op (runDecoded (TaskStore.get id >>= f) now s).2) :
    s.Decoded now op (runDecoded (TaskStore.get id >>= f) now s).2 := by
  cases hrow : s.taskReadable id with
  | true => exact h hrow
  | false =>
    rw [runDecoded_bind_error (runDecoded_get_unread hrow now)]
    exact .refused

theorem decoded_transition (hs : s.WellFormed) (next : TaskStatus) (payload : Option Value)
    (hstate : (runAlone op.program now s).2 =
      (runAlone (TaskStore.transition id next payload) now s).2)
    (hdeep : (payload.getD .emptyObject).readable = op.logsReadable) :
    s.Decoded now op (runDecoded (TaskStore.transition id next payload) now s).2 := by
  refine decoded_of_row fun hrow => ?_
  change s.Decoded now op (runDecoded (TaskStore.transition id next payload) now s).2
  cases hpayload : (payload.getD .emptyObject).readable with
  | true =>
    rw [runDecoded_transition_read hs hrow hpayload, ← hstate]
    exact .done
  | false =>
    have hunread : s.Decoded now op _ := .unread (hdeep.symm.trans hpayload)
    rw [hstate, runAlone_transition hs] at hunread
    rw [runDecoded_transition hs hrow]
    cases hfind : s.findTask id with
    | none => exact .refused
    | some task =>
      rw [hfind] at hunread
      cases hv : validateTransition task.status next with
      | error e =>
        simp only [hv]
        exact .refused
      | ok t =>
        cases t with
        | idempotent =>
          simp only [hv]
          exact .refused
        | changed =>
          simp only [hv, hpayload] at hunread ⊢
          exact hunread

theorem decoded_create (hs : s.WellFormed) (input : CreateTask) :
    s.Decoded now (.create input) (runDecoded (TaskStore.create input) now s).2 := by
  have hdone : s.Decoded now (.create input) (runAlone (TaskStore.create input) now s).2 := .done
  rw [runAlone_create hs] at hdone
  rw [runDecoded_create hs]
  cases hv : input.validate with
  | error e =>
    rw [hv] at hdone
    exact hdone
  | ok _ =>
    rw [hv] at hdone
    exact hdone

theorem decoded_appendEvent (hs : s.WellFormed) (eventType : TaskEventType) (payload : Value) :
    s.Decoded now (.appendEvent id eventType payload)
      (runDecoded (TaskStore.appendEvent id eventType payload) now s).2 := by
  refine decoded_of_row fun hrow => ?_
  change s.Decoded now _ (runDecoded (TaskStore.appendEvent id eventType payload) now s).2
  cases hpayload : payload.readable with
  | true => exact decoded_of_eq (runDecoded_appendEvent_read hs hrow hpayload)
  | false =>
    have hunread : s.Decoded now (.appendEvent id eventType payload) _ := .unread hpayload
    rw [TaskOp.program, runAlone_appendEvent hs] at hunread
    rw [runDecoded_appendEvent hs hrow]
    cases hfind : s.findTask id with
    | none => exact .refused
    | some task =>
      simp only [hfind, hpayload] at hunread ⊢
      exact hunread

theorem decoded_recordPermissionRequest (request : PermissionRequestEvent) :
    s.Decoded now (.recordPermissionRequest id request)
      (runDecoded (TaskStore.recordPermissionRequest id request) now s).2 := by
  refine decoded_of_row fun hrow => ?_
  change s.Decoded now _ (runDecoded (TaskStore.recordPermissionRequest id request) now s).2
  cases hfind : s.findTask id with
  | none =>
    have hget := (runDecoded_get_read hrow now).trans (runAlone_get_none hfind)
    rw [TaskStore.recordPermissionRequest, runDecoded_bind_error hget]
    exact .refused
  | some task =>
    cases hinsert : s.insertPermissionRequest id request now with
    | error e => exact decoded_of_eq (runDecoded_recordPermissionRequest_refused hrow hinsert)
    | ok inserted =>
      obtain ⟨sequence, t⟩ := inserted
      have hrun := runDecoded_recordPermissionRequest hrow (hfind ▸ rfl) hinsert
      cases hrequest : request.toValue.readable with
      | true => exact decoded_of_eq (hrun.trans (if_pos hrequest))
      | false =>
        have hunread : s.Decoded now (.recordPermissionRequest id request) _ := .unread hrequest
        rw [TaskOp.program, record_unpublished (hfind ▸ rfl) hinsert] at hunread
        simp only [hrequest] at hrun
        rw [hrun]
        exact hunread

theorem decoded_resolvePermissionRequest (requestId : String) (decision : PermissionDecision)
    (reason : Option String) : s.Decoded now (.resolvePermissionRequest id requestId decision reason)
      (runDecoded (TaskStore.resolvePermissionRequest id requestId decision reason) now s).2 := by
  refine decoded_of_row fun hrow => ?_
  change s.Decoded now _
    (runDecoded (TaskStore.resolvePermissionRequest id requestId decision reason) now s).2
  cases hdecodes : (DbStep.resolvePermissionRequest id requestId decision reason now).decodes s with
  | true => exact decoded_of_eq (runDecoded_resolvePermissionRequest hrow hdecodes)
  | false =>
    have hget := runDecoded_get_read hrow now
    rw [TaskStore.resolvePermissionRequest]
    cases hfind : s.findTask id with
    | none =>
      rw [runDecoded_bind_error (hget.trans (runAlone_get_none hfind))]
      exact .refused
    | some task =>
      rw [runDecoded_bind_ok (hget.trans (runAlone_get_some hfind)), runDecoded_clock,
        runDecoded_bind_error (runDecoded_send_unread hdecodes)]
      exact .refused

theorem decoded_runDecoded (hs : s.WellFormed) (op : TaskOp) :
    s.Decoded now op (runDecoded op.program now s).2 := by
  cases op with
  | create input => exact decoded_create hs input
  | get id =>
    cases hrow : s.taskReadable id with
    | true => exact decoded_of_eq (runDecoded_get_read hrow now)
    | false =>
      rw [TaskOp.program, runDecoded_get_unread hrow]
      exact .refused
  | list filters =>
    cases hrows : s.tasksReadable with
    | true => exact decoded_of_eq (runDecoded_list_read hrows filters now)
    | false =>
      rw [TaskOp.program, runDecoded_list_unread hrows]
      exact .refused
  | transition id next payload => exact decoded_transition hs next payload rfl rfl
  | cancel id => exact decoded_transition hs .cancelled none rfl rfl
  | saveResult id finalMessage changedFiles =>
    exact decoded_of_row fun hrow =>
      decoded_of_eq (runDecoded_saveResult_read hrow finalMessage changedFiles)
  | saveExecutionResult result => exact decoded_of_eq (runDecoded_saveExecutionResult result)
  | appendEvent id eventType payload => exact decoded_appendEvent hs eventType payload
  | recordPermissionRequest id request => exact decoded_recordPermissionRequest request
  | resolvePermissionRequest id requestId decision reason =>
    exact decoded_resolvePermissionRequest requestId decision reason
  | acquireLock request => exact decoded_of_eq (runDecoded_acquireLock request)
  | releaseLocks taskId => exact decoded_of_eq rfl

end States

theorem wellFormed_runDecoded (hs : s.WellFormed) (op : TaskOp) :
    (runDecoded op.program now s).2.WellFormed := by
  have hdecoded : s.Decoded now op (runDecoded op.program now s).2 := decoded_runDecoded hs op
  generalize (runDecoded op.program now s).2 = t at hdecoded
  cases hdecoded with
  | refused => exact hs
  | done => exact wellFormed_runAlone hs op
  | unread =>
    have hdone : (runAlone op.program now s).2.WellFormed := wellFormed_runAlone hs op
    exact wellFormed_of_same hdone rfl rfl

end Tasks

section Policies
variable {s : Store} {now : String}

theorem runDecoded_grantOp (op : GrantOp) :
    runDecoded op.program now s = runAlone op.program now s :=
  runDecoded_of_uses (op.uses (fun _ => rfl) (fun _ _ => rfl) (fun _ _ _ _ _ _ => rfl)
    (fun _ _ _ _ => rfl) fun _ _ => rfl)

theorem runDecoded_getProfile (id : String) :
    runDecoded (ProfileStore.get id) now s =
      if (s.findProfile id).all AgentProfile.readable then runAlone (ProfileStore.get id) now s
      else (.error .store, s) := by
  split
  · rename_i h
    refine runDecoded_bind (runDecoded_query _ h) fun row t _ => ?_
    cases row <;> rfl
  · rename_i h
    exact runDecoded_bind_error (runDecoded_query_unread (Bool.not_eq_true _ ▸ h))

theorem runDecoded_invariant {ε α : Type} {P : DbStep → Prop} {I : Store → Prop}
    (preserved : ∀ q input t, P q → I t → I (q.exec input t).2)
    {c : Call DbStep DbStep.Answer ε α} (hc : c.Uses P) (hs : I s) : I (runDecoded c now s).2 :=
  Uses.run_invariant (fun q _ t hq ht => preserved q _ t hq ht) hc (fun _ => now) hs

def DbStep.onProfiles : DbStep → Prop
  | .clock | .selectProfile _ | .insertProfile _ | .updateProfile .. | .deleteProfile _ => True
  | _ => False

theorem sameTasks_onProfiles {q : DbStep} (hq : q.onProfiles) (input : DbStep.Input) (s : Store) :
    s.SameTasks (q.exec input s).2 := by
  have hwrites : Writes s q (q.exec input s).2 := writes_of_exec q input s
  generalize (q.exec input s).2 = t at hwrites
  cases hwrites with
  | nothing => exact .refl s
  | insertProfile | updateProfile | deleteProfile => exact ⟨rfl, rfl, rfl, rfl, rfl⟩
  | _ => exact hq.elim

theorem sameTasks_decodedProfile (op : ProfileOp) (now : String) (s : Store) :
    s.SameTasks (runDecoded op.program now s).2 :=
  runDecoded_invariant (I := fun t => s.SameTasks t)
    (fun _ input t hq ht => ht.trans (sameTasks_onProfiles hq input t))
    (op.uses trivial (fun _ => trivial) (fun _ => trivial) (fun _ _ _ => trivial)
      fun _ => trivial) (.refl s)

end Policies

end OpenDaemon
