import OpenDaemon.ExecutionExclusion
import OpenDaemon.ServiceDecoding

/-!
# One execution from the queue to the stored result

`execute_task` run alone, without I/O errors. The lock decision `NotRequired`
lets the execution go on but leaves the task queued, and from there neither
`mark_running` nor `fail_task` is an allowed transition; with a lock the task
takes every step to its end, unless a store call meets JSON that nests too deep
to be read back.
-/

namespace OpenDaemon

open Store Call

/-- The outside answers alike whenever it is asked; only the clock goes on. -/
def Answers (env input : ServiceStep.Input) : Prop := input = { env with now := input.now }

/-- A queued task with free capacity, no lock on its directory and an available runtime. -/
structure Executable (config : SchedulerConfig) (s : Store) (env : ServiceStep.Input) (task : Task)
    (profile : AgentProfile) (grant : DirectoryGrant) : Prop where
  found : s.findTask task.id = some task
  queued : task.status = .queued
  agent : s.findProfile task.agentId = some profile
  directory : s.findGrant task.directoryId = some grant
  capacity : s.runningOrPreparing < config.maxConcurrentTasks
  free : s.heldLocks task.directoryId = []
  runtime : ∃ registry manifest runtime, env.registry = some registry ∧
    registry.get profile.providerId = some manifest ∧ env.runtime = some runtime ∧
    runtimeAvailable runtime manifest.integrationType ∧ runtime.executable.isSome

/-- What the adapter returned can be read back from the tables. -/
structure RuntimeExecutionOutcome.Readable (outcome : RuntimeExecutionOutcome) : Prop where
  events : ∀ event ∈ outcome.events, event.payload.readable
  providerResult : ∀ v ∈ outcome.providerResult, v.depth < Value.recursionLimit - 1
  usage : ∀ v ∈ outcome.usage, v.depth < Value.recursionLimit - 1

/-- The rows that the execution reads can be decoded, those it writes itself included. -/
structure Decodable (s : Store) (env : ServiceStep.Input) (profile : AgentProfile) : Prop where
  tasks : s.tasksReadable
  agent : profile.readable
  outcome : ∀ workspace, env.workspace = .ok workspace → env.outcome.Readable

def finalStatus (env : ServiceStep.Input) : TaskStatus :=
  match env.workspace with
  | .ok _ => env.outcome.status.taskStatus
  | .error _ => .failed

def TaskEvent.content (event : TaskEvent) : TaskEventType × Value := (event.eventType, event.payload)

def RuntimeOutputEvent.content (event : RuntimeOutputEvent) : TaskEventType × Value :=
  (event.kind, event.payload)

def Store.contentOf (s : Store) (id : String) : List (TaskEventType × Value) :=
  (s.eventsOf id).map TaskEvent.content

def lifecycleContent (status : TaskStatus) (payload : Option Value) : TaskEventType × Value :=
  (eventTypeForStatus status, payload.getD .emptyObject)

def startContent : List (TaskEventType × Value) :=
  [lifecycleContent .waitingDirectoryLock (reasonPayload "directory_lock_acquired"),
    lifecycleContent .preparing none, lifecycleContent .running none]

/-- The task has reached its end, and if the adapter ran the result is stored. -/
structure Completed (s : Store) (env : ServiceStep.Input) (id : String)
    (result : Except ExecutionError Task) (t : Store) : Prop where
  status : t.statusOf id = some (finalStatus env)
  released : ∀ lock ∈ t.locks, lock.taskId = id → ¬ lock.Held
  returned : ∀ workspace, env.workspace = .ok workspace → ∃ task stored, result = .ok task ∧
    t.findTask id = some task ∧ task.result = some stored ∧ stored.status = task.status
  logged : ∀ workspace, env.workspace = .ok workspace → t.contentOf id = s.contentOf id ++
    (startContent ++ env.outcome.events.map RuntimeOutputEvent.content ++
      [lifecycleContent env.outcome.status.taskStatus (env.outcome.error.map errorPayload)])

theorem taskStatus_isTerminal (status : RuntimeExecutionStatus) : status.taskStatus.isTerminal := by
  cases status <;> rfl

theorem finalStatus_isTerminal (env : ServiceStep.Input) : (finalStatus env).isTerminal := by
  unfold finalStatus
  split
  · exact taskStatus_isTerminal _
  · rfl

theorem running_taskStatus (status : RuntimeExecutionStatus) :
    transitionAllowed .running status.taskStatus := by
  cases status <;> rfl

section Content
variable {s t : Store} {id now : String}

theorem contentOf_append {event : TaskEvent} (h : t.events = s.events ++ [event]) :
    t.contentOf event.taskId = s.contentOf event.taskId ++ [event.content] := by
  rw [Store.contentOf, eventsOf_append_same h, List.map_append]
  rfl

structure Left (s : Store) (id : String) (status : TaskStatus)
    (log : List (TaskEventType × Value)) (t : Store) : Prop where
  wellFormed : t.WellFormed
  grants : t.grants = s.grants
  scope : t.scopeOf id = s.scopeOf id
  current : t.statusOf id = some status
  content : t.contentOf id = s.contentOf id ++ log
  released : status.isTerminal → ∀ lock ∈ t.locks, lock.taskId = id → ¬ lock.Held

structure Reached (s : Store) (id : String) (status : TaskStatus)
    (log : List (TaskEventType × Value)) (t : Store) : Prop extends Left s id status log t where
  readable : t.taskReadable id

variable {status next : TaskStatus} {log : List (TaskEventType × Value)}

theorem Left.row (h : Left s id status log t) :
    ∃ row, t.findTask id = some row ∧ row.status = status :=
  Option.map_eq_some_iff.mp h.current

theorem Left.moved (h : Left s id status log t) (payload : Option Value) :
    Left s id next (log ++ [lifecycleContent next payload]) (t.moved id next payload now) := by
  obtain ⟨row, hrow, -⟩ := h.row
  refine ⟨wellFormed_moved h.wellFormed (hrow ▸ rfl) next payload, moved_grants.trans h.grants,
    (moved_scopeOf id).trans h.scope, moved_statusOf hrow, ?_, fun hterm lock hlock hown hheld => ?_⟩
  · have hcontent : (t.moved id next payload now).contentOf id =
        t.contentOf id ++ [lifecycleContent next payload] :=
      contentOf_append (moved_events next payload)
    rw [hcontent, h.content, List.append_assoc]
  · rw [moved_locks, if_pos hterm] at hlock
    exact (mem_releaseLocks hlock hheld).2 hown

theorem Reached.moved (h : Reached s id status log t) (payload : Option Value) :
    Reached s id next (log ++ [lifecycleContent next payload]) (t.moved id next payload now) :=
  ⟨h.toLeft.moved payload, (taskReadable_moved next payload id).trans h.readable⟩

theorem Left.logged (h : Left s id status log t) (eventType : TaskEventType)
    (payload : Value) : Left s id status (log ++ [(eventType, payload)])
      (t.logged (t.nextEvent id eventType payload now)) := by
  obtain ⟨row, hrow, -⟩ := h.row
  refine ⟨wellFormed_logged h.wellFormed (hrow ▸ rfl) eventType payload, h.grants, h.scope,
    h.current, ?_, h.released⟩
  have hevents : (t.logged (t.nextEvent id eventType payload now)).events =
      t.events ++ [t.nextEvent id eventType payload now] := rfl
  have hcontent : (t.logged (t.nextEvent id eventType payload now)).contentOf id =
      t.contentOf id ++ [(eventType, payload)] := contentOf_append hevents
  rw [hcontent, h.content, List.append_assoc]

theorem Reached.logged (h : Reached s id status log t) (eventType : TaskEventType)
    (payload : Value) : Reached s id status (log ++ [(eventType, payload)])
      (t.logged (t.nextEvent id eventType payload now)) :=
  ⟨h.toLeft.logged eventType payload, h.readable⟩

theorem Left.resulted (h : Left s id status log t) (result : TaskResult) :
    Left s id status log (t.updateTaskResult id result) := by
  have hsame : SameLocks t (t.updateTaskResult id result) :=
    sameLocks_updateTaskResult h.wellFormed result
  exact ⟨hsame.wellFormed, h.grants, (hsame.scopes id).trans h.scope,
    (hsame.statuses id).trans h.current, h.content, h.released⟩

end Content

section Triples
variable {env : ServiceStep.Input → Prop} {s : Store} {id : String} {status next : TaskStatus}
  {log : List (TaskEventType × Value)} {P : Store → Prop}

theorem triple_tasks {op : TaskOp} {Q : Except TaskValidationError op.Result → Store → Prop}
    (effect : ∀ now t, P t → Q ((runDecoded op.program now t).1.mapError .fromTaskStore)
      (runDecoded op.program now t).2) :
    Triple ServiceStep.execDecoded env P (SchedulerService.tasks op) Q := by
  refine triple_step (fun answer t => Q (answer.mapError .fromTaskStore) t)
    (fun input t _ hp => effect input.now t hp) fun answer => ?_
  cases answer with
  | ok r => exact triple_ret fun t ht => ht
  | error e => exact triple_fail fun t ht => ht

theorem returns_transition (hallowed : transitionAllowed status next) {payload : Option Value}
    (hpayload : (payload.getD .emptyObject).readable) :
    Call.Returns ServiceStep.execDecoded env (Reached s id status log)
      (SchedulerService.tasks (.transition id next payload))
      fun _ => Reached s id next (log ++ [lifecycleContent next payload]) := by
  refine triple_tasks fun now t ht => ?_
  obtain ⟨row, hrow, hstatus⟩ := ht.row
  have hchanged : validateTransition row.status next = .ok .changed := by
    rw [hstatus]
    exact validateTransition_changed_iff.mpr hallowed
  rw [TaskOp.program, runDecoded_transition_read ht.wellFormed ht.readable hpayload,
    runAlone_transition ht.wellFormed, hrow]
  simp only [hchanged]
  exact ⟨_, rfl, ht.moved payload⟩

theorem returns_get (found : ∀ t, P t → (t.findTask id).isSome)
    (readable : ∀ t, P t → t.taskReadable id) :
    Call.Returns ServiceStep.execDecoded env P (SchedulerService.tasks (.get id))
      fun row t => t.findTask id = some row ∧ P t := by
  refine triple_tasks fun now t ht => ?_
  obtain ⟨row, hrow⟩ := Option.isSome_iff_exists.mp (found t ht)
  rw [TaskOp.program, runDecoded_get_read (readable t ht), runAlone_get_some hrow]
  exact ⟨row, rfl, hrow, ht⟩

theorem fails_get (unread : ∀ t, P t → t.taskReadable id = false) :
    Call.Fails ServiceStep.execDecoded env P (SchedulerService.tasks (.get id)) P := by
  refine triple_tasks fun now t ht => ?_
  rw [TaskOp.program, runDecoded_get_unread (unread t ht)]
  exact ⟨⟨_, rfl⟩, ht⟩

theorem Reached.isSome {t : Store} (h : Reached s id status log t) : (t.findTask id).isSome := by
  obtain ⟨row, hrow, -⟩ := h.row
  exact hrow ▸ rfl

theorem returns_scheduler {α : Type} {c : SchedulerCall α} {Q : α → Store → Prop}
    (h : Call.Returns ServiceStep.execDecoded env P c Q) :
    Call.Returns ServiceStep.execDecoded env P (ExecutionService.scheduler c) Q :=
  h.mapError ExecutionError.task

theorem fails_scheduler {α : Type} {c : SchedulerCall α} {Q : Store → Prop}
    (h : Call.Fails ServiceStep.execDecoded env P c Q) :
    Call.Fails ServiceStep.execDecoded env P (ExecutionService.scheduler c) Q :=
  h.mapError ExecutionError.task

theorem returns_appendEvent {event : RuntimeOutputEvent} (hevent : event.payload.readable) :
    Call.Returns ServiceStep.execDecoded env (Reached s id status log)
      (SchedulerService.tasks (.appendEvent id event.kind event.payload))
      fun _ => Reached s id status (log ++ [event.content]) := by
  refine triple_tasks fun now t ht => ?_
  obtain ⟨row, hrow, -⟩ := ht.row
  rw [TaskOp.program, runDecoded_appendEvent_read ht.wellFormed ht.readable hevent,
    runAlone_appendEvent ht.wellFormed, hrow]
  exact ⟨_, rfl, ht.logged event.kind event.payload⟩

theorem fails_appendEvent {event : RuntimeOutputEvent} (hevent : event.payload.readable = false) :
    Call.Fails ServiceStep.execDecoded env (Reached s id status log)
      (SchedulerService.tasks (.appendEvent id event.kind event.payload))
      fun t => t.statusOf id = some status := by
  refine triple_tasks fun now t ht => ?_
  obtain ⟨row, hrow, -⟩ := ht.row
  rw [TaskOp.program, runDecoded_appendEvent ht.wellFormed ht.readable, hrow]
  simp only [hevent]
  exact ⟨⟨_, rfl⟩, ht.current⟩

theorem returns_appendEvents {events : List RuntimeOutputEvent}
    (hevents : ∀ event ∈ events, event.payload.readable) :
    Call.Returns ServiceStep.execDecoded env (Reached s id status log)
      (ExecutionService.appendEvents id events)
      fun _ => Reached s id status (log ++ events.map RuntimeOutputEvent.content) := by
  induction events generalizing log with
  | nil =>
    refine Call.returns_ret fun t ht => ?_
    rw [List.map_nil, List.append_nil]
    exact ht
  | cons event events ih =>
    have hcontent : log ++ (event :: events).map RuntimeOutputEvent.content =
        log ++ [event.content] ++ events.map RuntimeOutputEvent.content := by
      rw [List.append_assoc]
      rfl
    rw [hcontent]
    exact (returns_scheduler (returns_appendEvent (hevents _ List.mem_cons_self))).bind fun _ =>
      ih fun e he => hevents e (List.mem_cons_of_mem _ he)

theorem fails_appendEvents {events : List RuntimeOutputEvent}
    (hevents : ¬ ∀ event ∈ events, event.payload.readable) :
    Call.Fails ServiceStep.execDecoded env (Reached s id status log)
      (ExecutionService.appendEvents id events) fun t => t.statusOf id = some status := by
  induction events generalizing log with
  | nil => exact absurd (fun _ h => absurd h List.not_mem_nil) hevents
  | cons event events ih =>
    cases hevent : event.payload.readable with
    | true =>
      refine (returns_scheduler (returns_appendEvent hevent)).bind fun _ => ih fun hall => hevents ?_
      exact List.forall_mem_cons.mpr ⟨hevent, hall⟩
    | false => exact (fails_scheduler (fails_appendEvent hevent)).bind _

theorem returns_saveExecutionResult {row : Task} {result : TaskResult} (hid : result.taskId = id) :
    Call.Returns ServiceStep.execDecoded env
      (fun t => t.findTask id = some row ∧ Reached s id status log t)
      (SchedulerService.tasks (.saveExecutionResult result)) fun _ t =>
        t.findTask id = some (row.withResult result) ∧ Left s id status log t := by
  refine triple_tasks fun now t ht => ?_
  rw [TaskOp.program, runDecoded_saveExecutionResult, runAlone_saveExecutionResult, hid]
  refine ⟨(), rfl, ?_, ht.2.resulted result⟩
  rw [Store.updateTaskResult, findTask_updateTask_self (fun task => task.withResult_id _), ht.1]
  rfl

/-- The call returned the stored row, with a result whose status is that of the row. -/
def ResultStored (id : String) (r : Except ExecutionError Task) (t : Store) : Prop :=
  ∃ task stored, r = .ok task ∧ t.findTask id = some task ∧ task.result = some stored ∧
    stored.status = task.status

section Outcome
variable {outcome : RuntimeExecutionOutcome} {workspace : PreparedWorkspace}

theorem readable_resultFromOutcome (row : Task) (now : String) :
    (resultFromOutcome row outcome workspace now).toValue.readable = true ↔
      (∀ v ∈ outcome.providerResult, v.depth < Value.recursionLimit - 1) ∧
        ∀ v ∈ outcome.usage, v.depth < Value.recursionLimit - 1 := by
  rw [TaskResult.readable_iff]
  simp [resultFromOutcome]

theorem readable_errorPayload (error : Option RuntimeAdapterError) :
    ((error.map errorPayload).getD .emptyObject).readable := by
  cases error <;> rfl

def Saved (s : Store) (id : String) (outcome : RuntimeExecutionOutcome)
    (log : List (TaskEventType × Value)) (saved : Task) (t : Store) : Prop :=
  t.findTask id = some saved ∧ Left s id outcome.status.taskStatus
    (log ++ outcome.events.map RuntimeOutputEvent.content ++
      [lifecycleContent outcome.status.taskStatus (outcome.error.map errorPayload)]) t

theorem triple_persistOutcome (hevents : ∀ event ∈ outcome.events, event.payload.readable)
    {Q : Except ExecutionError Task → Store → Prop}
    (last : ∀ (row : Task) now, row.readable → Triple ServiceStep.execDecoded env
      (Saved s id outcome log (row.withResult (resultFromOutcome row outcome workspace now)))
      (ExecutionService.tasks (.get id)) Q) :
    Triple ServiceStep.execDecoded env (Reached s id .running log)
      (ExecutionService.persistOutcome id outcome workspace) Q := by
  refine (returns_appendEvents hevents).bind fun _ => (returns_scheduler (returns_transition
    (running_taskStatus outcome.status) (readable_errorPayload _))).bind fun _ =>
    (returns_scheduler (returns_get (fun t ht => ht.isSome) fun t ht => ht.readable)).bind
      fun row => ?_
  let final := log ++ outcome.events.map RuntimeOutputEvent.content ++
    [lifecycleContent outcome.status.taskStatus (outcome.error.map errorPayload)]
  refine Triple.weaken (P := fun t => (row.id = id ∧ row.readable) ∧ t.findTask id = some row ∧
    Reached s id outcome.status.taskStatus final t) (triple_pure fun hrow => ?_)
    fun t ht => ⟨⟨findTask_id ht.1, ?_⟩, ht⟩
  · refine triple_step (fun _ t => t.findTask id = some row ∧
      Reached s id outcome.status.taskStatus final t) (fun _ t _ ht => ht) fun now => ?_
    have hresult : (resultFromOutcome row outcome workspace now).taskId = id := hrow.1
    exact (returns_scheduler (returns_saveExecutionResult hresult)).bind fun _ =>
      last row now hrow.2
  · have hread := ht.2.readable
    rw [Store.taskReadable, ht.1] at hread
    exact hread

theorem stores_persistOutcome (hread : outcome.Readable) :
    Triple ServiceStep.execDecoded env (Reached s id .running log)
      (ExecutionService.persistOutcome id outcome workspace) fun r t =>
        ResultStored id r t ∧ Left s id outcome.status.taskStatus (log ++
          outcome.events.map RuntimeOutputEvent.content ++
            [lifecycleContent outcome.status.taskStatus (outcome.error.map errorPayload)]) t := by
  refine triple_persistOutcome hread.events fun row now hrow => ?_
  have hsaved : (row.withResult (resultFromOutcome row outcome workspace now)).readable := by
    rw [Task.readable, Bool.and_eq_true_iff] at hrow ⊢
    exact ⟨hrow.1, (readable_resultFromOutcome row now).mpr ⟨hread.providerResult, hread.usage⟩⟩
  have hget : Call.Returns ServiceStep.execDecoded env
      (Saved s id outcome log (row.withResult (resultFromOutcome row outcome workspace now)))
      (ExecutionService.tasks (.get id)) _ :=
    returns_scheduler (returns_get (fun t ht => ht.1 ▸ rfl) fun t ht => by
      rw [Store.taskReadable, ht.1]
      exact hsaved)
  intro inputs t henv ht
  obtain ⟨read, hread, hfound, hrow, hleft⟩ := hget inputs t henv ht
  obtain rfl := Option.some.inj (hfound.symm.trans hrow)
  exact ⟨⟨_, _, hread, hrow, rfl, rfl⟩, hleft⟩

theorem fails_persistOutcome (hevents : ∀ event ∈ outcome.events, event.payload.readable)
    (hdeep : ¬ outcome.Readable) :
    Call.Fails ServiceStep.execDecoded env (Reached s id .running log)
      (ExecutionService.persistOutcome id outcome workspace) fun _ => True := by
  refine triple_persistOutcome hevents fun row now _ => ?_
  have hunread : (row.withResult (resultFromOutcome row outcome workspace now)).readable = false := by
    cases hresult : (resultFromOutcome row outcome workspace now).toValue.readable with
    | false => exact Bool.and_eq_false_iff.mpr (.inr hresult)
    | true =>
      obtain ⟨hprovider, husage⟩ := (readable_resultFromOutcome row now).mp hresult
      exact absurd ⟨hevents, hprovider, husage⟩ hdeep
  refine Triple.post (fails_scheduler (fails_get fun t ht => ?_)) fun r t h => ⟨h.1, trivial⟩
  rw [Store.taskReadable, ht.1]
  exact hunread

theorem stops_persistOutcome (hevents : ¬ ∀ event ∈ outcome.events, event.payload.readable) :
    Call.Fails ServiceStep.execDecoded env (Reached s id .running log)
      (ExecutionService.persistOutcome id outcome workspace)
      fun t => t.statusOf id = some .running :=
  (fails_appendEvents hevents).bind _

end Outcome

end Triples

section Execution
variable {config : SchedulerConfig} {s : Store} {env : ServiceStep.Input} {task : Task}
  {profile : AgentProfile} {grant : DirectoryGrant} {log : List (TaskEventType × Value)}
  {P : Store → Prop} {ε : Type}

def failedContent : TaskEventType × Value :=
  lifecycleContent .failed (some (.object [("error", .string "workspace preparation failed")]))

theorem triple_answer {α : Type} {q : ServiceStep} {k : q.Answer → ServiceCall ε α}
    {Q : Except ε α → Store → Prop} (answer : q.Answer)
    (known : ∀ input t, Answers env input → P t → q.execDecoded input t = (answer, t))
    (next : Triple ServiceStep.execDecoded (Answers env) P (k answer) Q) :
    Triple ServiceStep.execDecoded (Answers env) P (.step q k) Q := by
  refine triple_step (fun a t => a = answer ∧ P t) (fun input t hi ht => ?_)
    fun a => triple_pure fun ha => ?_
  · rw [known input t hi ht]
    exact ⟨rfl, ht⟩
  · rw [ha]
    exact next

theorem execDecoded_getGrant {id : String} {t : Store} (hfind : t.findGrant id = some grant)
    (input : ServiceStep.Input) :
    (ServiceStep.grants (.get id)).execDecoded input t = (.ok grant, t) := by
  have hdecodes : (ServiceStep.grants (.get id)).execDecoded input t =
      (ServiceStep.grants (.get id)).exec input t := runDecoded_grantOp (.get id)
  rw [hdecodes, Execution.exec_getGrant, hfind]

theorem execDecoded_getProfile {id : String} {t : Store}
    (hfind : t.findProfile id = some profile) (hread : profile.readable)
    (input : ServiceStep.Input) :
    (ServiceStep.profiles (.get id)).execDecoded input t = (.ok profile, t) := by
  have hdecodes : (t.findProfile id).all AgentProfile.readable := hfind ▸ hread
  change runDecoded (ProfileStore.get id) input.now t = _
  rw [runDecoded_getProfile, if_pos hdecodes, runAlone_getProfile, hfind]

theorem execDecoded_getProfile_unread {id : String} {t : Store}
    (hfind : t.findProfile id = some profile) (hread : profile.readable = false)
    (input : ServiceStep.Input) :
    (ServiceStep.profiles (.get id)).execDecoded input t = (.error .store, t) := by
  have hdecodes : ¬ (t.findProfile id).all AgentProfile.readable := by
    rw [hfind, Option.all_some, hread]
    exact Bool.false_ne_true
  change runDecoded (ProfileStore.get id) input.now t = _
  rw [runDecoded_getProfile, if_neg hdecodes]

theorem triple_prepareWorkspace {id : String} {Q : Except TaskValidationError PreparedWorkspace →
      Store → Prop} {capabilities : List DirectoryCapability} {directoryId : String}
    (hscope : s.scopeOf id = some (directoryId, capabilities))
    (hgrant : s.findGrant directoryId = some grant)
    (h : ∀ row, Triple ServiceStep.execDecoded (Answers env)
      (Reached s id .preparing (log ++ [lifecycleContent .preparing none]))
      (SchedulerService.runPreparer id row grant) Q) :
    Triple ServiceStep.execDecoded (Answers env) (Reached s id .waitingDirectoryLock log)
      (SchedulerService.prepareWorkspace id) Q := by
  refine (returns_get (fun t ht => ht.isSome) fun t ht => ht.readable).bind fun row => ?_
  refine Triple.weaken (P := fun t => (row.directoryId = directoryId ∧
    row.status = .waitingDirectoryLock) ∧ Reached s id .waitingDirectoryLock log t)
    (triple_pure fun hrow => ?_) fun t ht => ⟨⟨?_, ?_⟩, ht.2⟩
  · have hfound : ∀ t, Reached s id .waitingDirectoryLock log t →
        t.findGrant directoryId = some grant := by
      intro t ht
      rw [findGrant, ht.grants]
      exact hgrant
    rw [hrow.1]
    refine triple_answer (.ok grant)
      (fun input t _ ht => execDecoded_getGrant (hfound t ht) input) ?_
    simp only [Call.andThen, if_pos hrow.2]
    have hpayload : ((none : Option Value).getD .emptyObject).readable := rfl
    exact (returns_transition rfl hpayload).bind fun _ => h row
  · have hread := (Execution.scopeOf_of_find ht.1).symm.trans (ht.2.scope.trans hscope)
    exact congrArg Prod.fst (Option.some.inj hread)
  · exact Option.some.inj ((Execution.statusOf_of_find ht.1).symm.trans ht.2.current)

theorem returns_runPreparer {id : String} {status : TaskStatus} {workspace : PreparedWorkspace}
    (hw : env.workspace = .ok workspace) (row : Task) :
    Call.Returns ServiceStep.execDecoded (Answers env) (Reached s id status log)
      (SchedulerService.runPreparer id row grant)
      fun w t => w = workspace ∧ Reached s id status log t := by
  refine triple_answer (.ok workspace) (fun input t hi _ => ?_) ?_
  · rw [hi, ← hw]
    rfl
  exact Call.returns_ret fun t ht => ⟨rfl, ht⟩

theorem fails_runPreparer {id : String} {e : WorkspaceError} (hw : env.workspace = .error e)
    (row : Task) :
    Call.Fails ServiceStep.execDecoded (Answers env) (Reached s id .preparing log)
      (SchedulerService.runPreparer id row grant)
      (Reached s id .failed (log ++ [failedContent])) := by
  refine triple_answer (.error e) (fun input t hi _ => ?_) ?_
  · rw [hi, ← hw]
    rfl
  exact (returns_transition rfl rfl).bind fun _ => Call.fails_fail fun t ht => ht

theorem acquires_of_executable (h : Executable config s env task profile grant)
    (hpolicy : grant.lockPolicy ≠ .none) :
    acquires config s (LockRequest.fromTask task) task = some ⟨task.directoryId, task.id,
      modeForCapabilities task.requiredCapabilities grant.lockPolicy⟩ := by
  have hcap : ¬ config.maxConcurrentTasks ≤ s.runningOrPreparing := Nat.not_le.mpr h.capacity
  have hmode : modeForCapabilities task.requiredCapabilities grant.lockPolicy ≠ .none :=
    fun hn => hpolicy (modeForCapabilities_eq_none_iff.mp hn)
  have hgrant : s.findGrant (LockRequest.fromTask task).directoryId = some grant := h.directory
  have hfree : s.heldLocks (LockRequest.fromTask task).directoryId = [] := h.free
  simp only [acquires, if_neg hcap, hgrant, hfree, hmode, false_or]
  rfl

theorem returns_tryAcquire (hs : s.WellFormed) (hrows : s.tasksReadable)
    (h : Executable config s env task profile grant) (hpolicy : grant.lockPolicy ≠ .none) :
    Call.Returns ServiceStep.execDecoded (Answers env) (fun t => t = s)
      (SchedulerService.tryAcquireDirectoryLock config (LockRequest.fromTask task))
      fun decision t => decision = .acquired ∧ Reached s task.id .waitingDirectoryLock
        [lifecycleContent .waitingDirectoryLock (reasonPayload "directory_lock_acquired")] t := by
  rintro inputs t - rfl
  have hcap : ¬ config.maxConcurrentTasks ≤ t.runningOrPreparing := Nat.not_le.mpr h.capacity
  have hmode : modeForCapabilities task.requiredCapabilities grant.lockPolicy ≠ .none :=
    fun hn => hpolicy (modeForCapabilities_eq_none_iff.mp hn)
  have hfind : t.findTask (LockRequest.fromTask task).taskId = some task := h.found
  have hgrant : t.findGrant (LockRequest.fromTask task).directoryId = some grant := h.directory
  have hrun : runServiceDecoded (SchedulerService.tryAcquireDirectoryLock config
      (LockRequest.fromTask task)) inputs t = _ :=
    (runServiceDecoded_tryAcquireDirectoryLock hs hrows _).trans
      (runService_tryAcquireDirectoryLock hs _)
  simp only [hfind, if_neg hcap, hgrant, if_neg hmode, acquires_of_executable h hpolicy,
    startWaiting, if_pos h.queued] at hrun
  obtain ⟨hresult, hstate⟩ := Prod.mk.inj hrun
  rw [hresult, hstate]
  refine ⟨_, rfl, rfl, ?_⟩
  have hstart : Reached t task.id .queued [] (t.replaceLock ⟨task.directoryId, task.id,
      modeForCapabilities task.requiredCapabilities grant.lockPolicy⟩ (inputs 3).now) := by
    refine ⟨⟨wellFormed_of_same hs rfl rfl, rfl, rfl, ?_, (List.append_nil _).symm, fun ht => ?_⟩,
      (tasksReadable_iff hs).mp hrows task.id⟩
    · rw [← h.queued]
      exact Execution.statusOf_of_find h.found
    · cases ht
  exact hstart.moved _

theorem returns_notRequired (hs : s.WellFormed) (hrows : s.tasksReadable)
    (h : Executable config s env task profile grant) (hpolicy : grant.lockPolicy = .none) :
    Call.Returns ServiceStep.execDecoded (Answers env) (fun t => t = s)
      (SchedulerService.tryAcquireDirectoryLock config (LockRequest.fromTask task))
      fun decision t => decision = .notRequired ∧ t = s := by
  rintro inputs t - rfl
  have hcap : ¬ config.maxConcurrentTasks ≤ t.runningOrPreparing := Nat.not_le.mpr h.capacity
  have hmode : modeForCapabilities task.requiredCapabilities grant.lockPolicy = .none :=
    modeForCapabilities_eq_none_iff.mpr hpolicy
  have hfind : t.findTask (LockRequest.fromTask task).taskId = some task := h.found
  have hgrant : t.findGrant (LockRequest.fromTask task).directoryId = some grant := h.directory
  have hrun : runServiceDecoded (SchedulerService.tryAcquireDirectoryLock config
      (LockRequest.fromTask task)) inputs t = _ :=
    (runServiceDecoded_tryAcquireDirectoryLock hs hrows _).trans
      (runService_tryAcquireDirectoryLock hs _)
  simp only [hfind, if_neg hcap, hgrant, if_pos hmode] at hrun
  obtain ⟨hresult, hstate⟩ := Prod.mk.inj hrun
  rw [hresult, hstate]
  exact ⟨_, rfl, rfl, rfl⟩

theorem fails_tryAcquire (hrows : s.tasksReadable = false) :
    Call.Fails ServiceStep.execDecoded (Answers env) (fun t => t = s)
      (SchedulerService.tryAcquireDirectoryLock config (LockRequest.fromTask task))
      fun t => t = s := by
  rintro inputs t - rfl
  have hunread : ∃ e, runServiceDecoded (SchedulerService.tryAcquireDirectoryLock config
      (LockRequest.fromTask task)) inputs t = (.error e, t) :=
    runServiceDecoded_tryAcquire_unread hrows
  obtain ⟨e, hrun⟩ := hunread
  obtain ⟨hresult, hstate⟩ := Prod.mk.inj hrun
  exact ⟨⟨e, hresult⟩, hstate⟩

theorem forManifest_of_available {manifest : ProviderManifest} {runtime : RuntimeView}
    (h : runtimeAvailable runtime manifest.integrationType) : forManifest manifest = .ok () := by
  unfold forManifest
  cases hkind : manifest.integrationType with
  | cli | acp | http => rfl
  | native =>
    rw [hkind] at h
    simp [runtimeAvailable] at h

theorem Executable.isSome (h : Executable config s env task profile grant) :
    ∀ t, t = s → (t.findTask task.id).isSome := by
  rintro t rfl
  exact h.found ▸ rfl

theorem triple_executeTask {Q : Except ExecutionError Task → Store → Prop}
    (h : Executable config s env task profile grant) (hrow : s.taskReadable task.id)
    (hunread : profile.readable = false → ∀ e, Q (.error e) s)
    (hrun : profile.readable → ∀ manifest runtime executable, forManifest manifest = .ok () →
      Triple ServiceStep.execDecoded (Answers env) (fun t => t = s)
        (ExecutionService.runTask config task.id task profile grant manifest runtime executable) Q) :
    Triple ServiceStep.execDecoded (Answers env) (fun t => t = s)
      (ExecutionService.executeTask config task.id) Q := by
  obtain ⟨registry, manifest, runtime, hregistry, hmanifest, hruntime, havailable, hexecutable⟩ :=
    h.runtime
  obtain ⟨executable, hexec⟩ := Option.isSome_iff_exists.mp hexecutable
  refine (returns_scheduler (returns_get h.isSome fun t ht => ht ▸ hrow)).bind fun row => ?_
  refine Triple.weaken (P := fun t => row = task ∧ t = s) (triple_pure fun hsame => ?_) ?_
  · rw [hsame, h.queued]
    cases hagent : profile.readable with
    | false =>
      refine triple_answer (.error .store) ?_ (triple_fail ?_)
      · rintro input t - rfl
        exact execDecoded_getProfile_unread h.agent hagent input
      · rintro t rfl
        exact hunread hagent _
    | true =>
      have hprofile : ∀ input t, Answers env input → t = s →
          (ServiceStep.profiles (.get task.agentId)).execDecoded input t = (.ok profile, t) := by
        rintro input t - rfl
        exact execDecoded_getProfile h.agent hagent input
      have hgrant : ∀ input t, Answers env input → t = s →
          (ServiceStep.grants (.get task.directoryId)).execDecoded input t = (.ok grant, t) := by
        rintro input t - rfl
        exact execDecoded_getGrant h.directory input
      have hload : ∀ input t, Answers env input → t = s →
          ServiceStep.loadRegistry.execDecoded input t = (some registry, t) := by
        rintro input t hi -
        rw [hi, ← hregistry]
        rfl
      have hasked : ∀ input t, Answers env input → t = s →
          (ServiceStep.getRuntime profile.providerId).execDecoded input t = (some runtime, t) := by
        rintro input t hi -
        rw [hi, ← hruntime]
        rfl
      refine triple_answer (.ok profile) hprofile (triple_answer (.ok grant) hgrant
        (triple_answer (some registry) hload ?_))
      simp only [Call.andThen, ExecutionService.getManifest, hmanifest, Call.ofExcept, ret_bind]
      refine triple_answer (some runtime) hasked ?_
      simp only [Option.filter_some, havailable, if_true, Call.andThen,
        ExecutionService.getExecutable, hexec, ret_bind]
      exact hrun hagent manifest runtime executable (forManifest_of_available havailable)
  · rintro t ⟨hread, rfl⟩
    exact ⟨Option.some.inj (hread.symm.trans h.found), rfl⟩

theorem returns_acquireDirectoryLock (hs : s.WellFormed) (hrows : s.tasksReadable)
    (h : Executable config s env task profile grant) (hpolicy : grant.lockPolicy ≠ .none) :
    Call.Returns ServiceStep.execDecoded (Answers env) (fun t => t = s)
      (ExecutionService.acquireDirectoryLock config task)
      fun _ => Reached s task.id .waitingDirectoryLock
        [lifecycleContent .waitingDirectoryLock (reasonPayload "directory_lock_acquired")] := by
  refine (returns_scheduler (returns_tryAcquire hs hrows h hpolicy)).bind fun decision =>
    triple_pure fun hdecision => ?_
  rw [hdecision]
  exact Call.returns_ret fun t ht => ht

theorem returns_prepareWorkspace {workspace : PreparedWorkspace}
    (h : Executable config s env task profile grant) (hw : env.workspace = .ok workspace) :
    Call.Returns ServiceStep.execDecoded (Answers env) (Reached s task.id .waitingDirectoryLock log)
      (SchedulerService.prepareWorkspace task.id) fun w t => w = workspace ∧
        Reached s task.id .preparing (log ++ [lifecycleContent .preparing none]) t :=
  triple_prepareWorkspace (Execution.scopeOf_of_find h.found) h.directory fun row =>
    returns_runPreparer hw row

theorem fails_prepareWorkspace {e : WorkspaceError}
    (h : Executable config s env task profile grant) (hw : env.workspace = .error e) :
    Call.Fails ServiceStep.execDecoded (Answers env) (Reached s task.id .waitingDirectoryLock log)
      (SchedulerService.prepareWorkspace task.id)
      (Reached s task.id .failed (log ++ [lifecycleContent .preparing none] ++ [failedContent])) :=
  triple_prepareWorkspace (Execution.scopeOf_of_find h.found) h.directory fun row =>
    fails_runPreparer hw row

theorem triple_locked (hs : s.WellFormed) (hrows : s.tasksReadable) (hagent : profile.readable)
    (h : Executable config s env task profile grant) (hpolicy : grant.lockPolicy ≠ .none)
    {Q : Except ExecutionError Task → Store → Prop}
    (hfailed : ∀ e r t, env.workspace = .error e → Reached s task.id .failed (
      [lifecycleContent .waitingDirectoryLock (reasonPayload "directory_lock_acquired")] ++
        [lifecycleContent .preparing none] ++ [failedContent]) t → Q r t)
    (hpersist : ∀ workspace w, env.workspace = .ok workspace → Triple ServiceStep.execDecoded
      (Answers env) (Reached s task.id .running startContent)
      (ExecutionService.persistOutcome task.id env.outcome w) Q) :
    Triple ServiceStep.execDecoded (Answers env) (fun t => t = s)
      (ExecutionService.executeTask config task.id) Q := by
  have hrow := (tasksReadable_iff hs).mp hrows task.id
  refine triple_executeTask h hrow (fun hunread => absurd hagent (by simp [hunread]))
    fun _ manifest runtime executable hmanifest => ?_
  refine (returns_acquireDirectoryLock hs hrows h hpolicy).bind fun _ => ?_
  cases hw : env.workspace with
  | error e =>
    refine ((fails_scheduler (fails_prepareWorkspace h hw)).bind _).post ?_
    rintro r t ⟨-, hreached⟩
    exact hfailed e r t hw hreached
  | ok workspace =>
    refine (returns_scheduler (returns_prepareWorkspace h hw)).bind fun w =>
      triple_pure fun hsame => ?_
    refine (returns_scheduler (returns_transition rfl rfl)).bind fun _ => ?_
    rw [hmanifest]
    refine (returns_scheduler (returns_get (fun t ht => ht.isSome)
      fun t ht => ht.readable)).bind fun current => ?_
    refine triple_answer env.outcome (fun input t hi _ => ?_) ?_
    · rw [hi]
      rfl
    exact (hpersist workspace w hw).weaken fun t ht => ht.2

theorem triple_completed (hs : s.WellFormed) (h : Executable config s env task profile grant)
    (hpolicy : grant.lockPolicy ≠ .none) (hread : Decodable s env profile) :
    Triple ServiceStep.execDecoded (Answers env) (fun t => t = s)
      (ExecutionService.executeTask config task.id) (Completed s env task.id) := by
  refine triple_locked hs hread.tasks hread.agent h hpolicy ?_ ?_
  · intro e r t hw hreached
    have hfinal : finalStatus env = .failed := by rw [finalStatus, hw]
    refine ⟨hfinal ▸ hreached.current, hreached.released rfl, ?_, ?_⟩ <;>
      exact fun workspace hok => by rw [hw] at hok; cases hok
  · intro workspace w hw
    refine (stores_persistOutcome (hread.outcome workspace hw)).post ?_
    rintro r t ⟨hstored, hleft⟩
    have hfinal : finalStatus env = env.outcome.status.taskStatus := by rw [finalStatus, hw]
    exact ⟨hfinal ▸ hleft.current, hleft.released (taskStatus_isTerminal _),
      fun _ _ => hstored, fun _ _ => hleft.content⟩

theorem not_completed_of_status {r : Except ExecutionError Task} {t : Store} {status : TaskStatus}
    (hstatus : t.statusOf task.id = some status) (hlive : status.isTerminal = false) :
    ¬ Completed s env task.id r t := by
  intro hcompleted
  have hterminal := finalStatus_isTerminal env
  rw [← Option.some.inj (hstatus.symm.trans hcompleted.status), hlive] at hterminal
  cases hterminal

theorem triple_unread (hs : s.WellFormed) (hrows : s.tasksReadable) (hagent : profile.readable)
    (h : Executable config s env task profile grant) (hpolicy : grant.lockPolicy ≠ .none)
    {workspace : PreparedWorkspace} (hw : env.workspace = .ok workspace)
    (hdeep : ¬ env.outcome.Readable) :
    Triple ServiceStep.execDecoded (Answers env) (fun t => t = s)
      (ExecutionService.executeTask config task.id) fun r t => ¬ Completed s env task.id r t := by
  refine triple_locked hs hrows hagent h hpolicy ?_ ?_
  · intro e r t hfailed
    rw [hw] at hfailed
    cases hfailed
  · intro _ w _
    by_cases hevents : ∀ event ∈ env.outcome.events, event.payload.readable
    · refine (fails_persistOutcome hevents hdeep).post ?_
      rintro r t ⟨⟨e, he⟩, -⟩ hcompleted
      obtain ⟨task, stored, hok, -⟩ := hcompleted.returned workspace hw
      rw [he] at hok
      cases hok
    · refine (stops_persistOutcome hevents).post ?_
      rintro r t ⟨-, hstatus⟩
      exact not_completed_of_status hstatus rfl

theorem triple_undecoded (h : Executable config s env task profile grant)
    (hread : ¬ (s.tasksReadable ∧ profile.readable)) :
    Triple ServiceStep.execDecoded (Answers env) (fun t => t = s)
      (ExecutionService.executeTask config task.id) fun _ t => t = s := by
  cases hrow : s.taskReadable task.id with
  | false =>
    have hget : Call.Fails ServiceStep.execDecoded (Answers env) (fun t => t = s)
        (SchedulerService.tasks (.get task.id)) fun t => t = s :=
      fails_get fun t ht => ht ▸ hrow
    exact ((fails_scheduler hget).bind _).post fun r t h => h.2
  | true =>
    refine triple_executeTask h hrow (fun _ _ => rfl) fun hagent manifest runtime executable _ => ?_
    have hrows : s.tasksReadable = false :=
      Bool.not_eq_true _ ▸ fun hrows => hread ⟨hrows, hagent⟩
    have hacquire : Call.Fails ServiceStep.execDecoded (Answers env) (fun t => t = s)
        (ExecutionService.acquireDirectoryLock config task) fun t => t = s :=
      (fails_scheduler (fails_tryAcquire hrows)).bind _
    exact (hacquire.bind _).post fun r t h => h.2

theorem fails_transition {id : String} {next : TaskStatus} {payload : Option Value}
    (hpayload : (payload.getD .emptyObject).readable)
    (hs : s.WellFormed) (hrow : s.taskReadable id) (hfind : s.findTask id = some task)
    {e : TaskStateError}
    (hrefused : validateTransition task.status next = .error e) :
    Call.Fails ServiceStep.execDecoded (Answers env) (fun t => t = s)
      (SchedulerService.tasks (.transition id next payload)) fun t => t = s := by
  refine triple_tasks fun now t ht => ?_
  subst ht
  rw [TaskOp.program, runDecoded_transition_read hs hrow hpayload, runAlone_transition hs, hfind]
  simp only [hrefused]
  exact ⟨⟨_, rfl⟩, trivial⟩

theorem triple_prepareQueued (hs : s.WellFormed) (hrow : s.taskReadable task.id)
    (h : Executable config s env task profile grant) :
    Triple ServiceStep.execDecoded (Answers env) (fun t => t = s)
      (SchedulerService.prepareWorkspace task.id) fun _ t => t = s := by
  refine (returns_get h.isSome fun t ht => ht ▸ hrow).bind fun row => ?_
  refine Triple.weaken (P := fun t => row = task ∧ t = s) (triple_pure fun hsame => ?_) ?_
  · have hgrant : ∀ input t, Answers env input → t = s →
        (ServiceStep.grants (.get task.directoryId)).execDecoded input t = (.ok grant, t) := by
      rintro input t - rfl
      exact execDecoded_getGrant h.directory input
    have hnot : ¬ task.status = .waitingDirectoryLock := by
      rw [h.queued]
      decide
    rw [hsame]
    refine triple_answer (.ok grant) hgrant ?_
    simp only [Call.andThen, if_neg hnot]
    refine triple_step (fun _ t => t = s) (fun _ _ _ ht => ht) fun answer => ?_
    cases answer with
    | ok workspace => exact triple_ret fun t ht => ht
    | error e =>
      have hrefused : validateTransition task.status .failed = .error .invalidTransition := by
        rw [h.queued]
        rfl
      exact (Call.Fails.bind (fails_transition rfl hs hrow h.found hrefused) _).post fun r t ht => ht.2
  · rintro t ⟨hread, rfl⟩
    exact ⟨Option.some.inj (hread.symm.trans h.found), rfl⟩

theorem fails_unlocked (hs : s.WellFormed) (hrows : s.tasksReadable) (hagent : profile.readable)
    (h : Executable config s env task profile grant)
    (hpolicy : grant.lockPolicy = .none) :
    Call.Fails ServiceStep.execDecoded (Answers env) (fun t => t = s)
      (ExecutionService.executeTask config task.id) fun t => t = s := by
  have hrefused : validateTransition task.status .running = .error .invalidTransition := by
    rw [h.queued]
    rfl
  have hrow := (tasksReadable_iff hs).mp hrows task.id
  refine triple_executeTask h hrow (fun hunread => absurd hagent (by simp [hunread]))
    fun _ manifest runtime executable hmanifest => ?_
  have hacquire : Call.Returns ServiceStep.execDecoded (Answers env) (fun t => t = s)
      (ExecutionService.acquireDirectoryLock config task) fun _ t => t = s := by
    refine (returns_scheduler (returns_notRequired hs hrows h hpolicy)).bind fun decision =>
      triple_pure fun hdecision => ?_
    rw [hdecision]
    exact Call.returns_ret fun t ht => ht
  have hprepare : Triple ServiceStep.execDecoded (Answers env) (fun t => t = s)
      (ExecutionService.scheduler (SchedulerService.prepareWorkspace task.id)) fun _ t => t = s :=
    Triple.mapError (triple_prepareQueued hs hrow h)
  refine hacquire.bind fun _ => hprepare.bind (fun workspace => ?_) fun e t ht => ⟨⟨e, rfl⟩, ht⟩
  exact (fails_scheduler (fails_transition rfl hs hrow h.found hrefused)).bind _

end Execution

/-- Run alone, an execution reaches its end exactly if the grant's policy asks for a lock and all
that the execution reads back can be decoded. -/
theorem execute_task_completes_iff {config : SchedulerConfig} {env : ServiceStep.Input}
    {task : Task} {profile : AgentProfile} {grant : DirectoryGrant}
    {inputs : ℕ → ServiceStep.Input} (s : StoreState)
    (h : Executable config s.store env task profile grant) (answers : ∀ n, Answers env (inputs n)) :
    Completed s.store env task.id
      (runServiceDecoded (ExecutionService.executeTask config task.id) inputs s.store).1
      (runServiceDecoded (ExecutionService.executeTask config task.id) inputs s.store).2 ↔
    grant.lockPolicy ≠ .none ∧ Decodable s.store env profile := by
  constructor
  · intro hcompleted
    have hqueued : s.store.statusOf task.id = some .queued := by
      rw [Execution.statusOf_of_find h.found, h.queued]
    have hmoved : (runServiceDecoded (ExecutionService.executeTask config task.id) inputs
        s.store).2 ≠ s.store := fun hsame =>
      not_completed_of_status (hsame ▸ hqueued) rfl hcompleted
    by_cases hread : s.store.tasksReadable ∧ profile.readable
    · have hpolicy : grant.lockPolicy ≠ .none := fun hpolicy => hmoved
        (fails_unlocked s.wellFormed hread.1 hread.2 h hpolicy inputs s.store answers rfl).2
      refine ⟨hpolicy, hread.1, hread.2, fun workspace hw => not_not.mp fun hdeep => ?_⟩
      exact triple_unread s.wellFormed hread.1 hread.2 h hpolicy hw hdeep inputs s.store answers
        rfl hcompleted
    · exact absurd (triple_undecoded h hread inputs s.store answers rfl) hmoved
  · rintro ⟨hpolicy, hread⟩
    exact triple_completed s.wellFormed h hpolicy hread inputs s.store answers rfl

def queuedTask : Task := (sampleTask.admittedRow .worktree sampleProfile).toTask "t0" 1

theorem executable_queuedTask :
    Executable ⟨2, false⟩ queuedStore.store executionInput queuedTask sampleProfile sampleGrant where
  found := rfl
  queued := rfl
  agent := rfl
  directory := rfl
  capacity := by decide
  free := rfl
  runtime := ⟨_, sampleManifest, _, rfl, rfl, rfl, rfl, rfl⟩

theorem execute_task_completes_iff_queued :
    Completed queuedStore.store executionInput "task_1"
      (runServiceDecoded (ExecutionService.executeTask ⟨2, false⟩ "task_1")
        (fun _ => executionInput) queuedStore.store).1
      (runServiceDecoded (ExecutionService.executeTask ⟨2, false⟩ "task_1")
        (fun _ => executionInput) queuedStore.store).2 ↔
    sampleGrant.lockPolicy ≠ .none ∧ Decodable queuedStore.store executionInput sampleProfile :=
  execute_task_completes_iff queuedStore executable_queuedTask fun _ => rfl

def unlockedGrant : DirectoryGrant :=
  { sampleGrant with capabilities := [.read], lockPolicy := .none }

def readingTask : NewTask :=
  { sampleTask.admittedRow .worktree sampleProfile with requiredCapabilities := [.read] }

def unlockedPolicies : StoreState where
  store := { sampleStore.store with grants := [⟨1, unlockedGrant⟩] }
  wellFormed := wellFormed_of_same sampleStore.wellFormed rfl rfl

def unlockedStore : StoreState where
  store := unlockedPolicies.store.created readingTask "t0"
  wellFormed := wellFormed_created unlockedPolicies.wellFormed _

/-- A reading task under an admissible policy without a lock stays queued. -/
theorem unlockedStore_not_completed :
    DirectoryGrantPolicy.new [.read] [.worktree] .worktree .none true false =
      .ok unlockedGrant.policy ∧
    Executable ⟨2, false⟩ unlockedStore.store executionInput (readingTask.toTask "t0" 1)
      sampleProfile unlockedGrant ∧
    ¬ Completed unlockedStore.store executionInput "task_1"
      (runServiceDecoded (ExecutionService.executeTask ⟨2, false⟩ "task_1")
        (fun _ => executionInput) unlockedStore.store).1
      (runServiceDecoded (ExecutionService.executeTask ⟨2, false⟩ "task_1")
        (fun _ => executionInput) unlockedStore.store).2 := by
  refine ⟨rfl, ⟨rfl, rfl, rfl, rfl, by decide, rfl,
    ⟨_, sampleManifest, _, rfl, rfl, rfl, rfl, rfl⟩⟩, fun h => ?_⟩
  have hstatus : Store.statusOf (runServiceDecoded (ExecutionService.executeTask ⟨2, false⟩ "task_1")
      (fun _ => executionInput) unlockedStore.store).2 "task_1" = some .queued := by decide
  have hended : some TaskStatus.queued = some .completed := hstatus.symm.trans h.status
  cases hended

end OpenDaemon
