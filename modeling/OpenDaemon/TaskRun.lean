import OpenDaemon.EventThreads
import OpenDaemon.ExecutionExclusion
import OpenDaemon.ServiceInvariant

/-!
# A task and the calls that drive it

Executions, cancellations and permission calls of one task run at once. One
store call is one step, so each event is published as soon as it is committed.
The permission calls are those of the event service, with a store call as one
step; a request may be bridged whenever the outside decides, not only while an
adapter runs.
-/

namespace OpenDaemon

open Runs Interleaving Store Call

inductive RunStep
  | service (q : ServiceStep)
  | event (q : EventStep)

namespace RunStep

@[reducible] def Answer : RunStep → Type
  | .service q => q.Answer
  | .event q => q.Answer

def exec (q : RunStep) (input : ServiceStep.Input) (x : EventState) : q.Answer × EventState :=
  match q with
  | .service q => ((q.exec input x.store).1, { x with store := (q.exec input x.store).2 })
  | .event q => q.exec (.proceed input.now) x

def blocked (x : EventState) : RunStep → Bool
  | .service _ => false
  | .event q => q.blocked x

end RunStep

inductive RunError
  | execution (error : ExecutionError)
  | event (error : TaskEventServiceError)

/-- One store call is one step. -/
def TaskEventService.calls : Access RunStep RunStep.Answer where
  tasks op := .step (.service (.tasks op)) fun
    | .ok result => .ret result
    | .error e => .fail (.task e)
  ask q := Call.perform (RunStep.event q)

/-- The store and waiter part of `bridge_permission_request`. -/
def Acp.bridgePermissionRequest (taskId : String) (request : PermissionRequestEvent) :
    Call RunStep RunStep.Answer TaskEventServiceError PermissionDecisionEvent := do
  let _ ← TaskEventService.calls.tasks (.recordPermissionRequest taskId request)
  TaskEventService.awaitPermissionDecision TaskEventService.calls taskId request.requestId

inductive RunOp
  | execute
  | cancel
  | bridgePermissionRequest (request : PermissionRequestEvent)
  | resolvePermissionResponse (response : PermissionResponseRequest)

@[reducible] def RunOp.Result : RunOp → Type
  | .execute | .cancel => Task
  | .bridgePermissionRequest _ => PermissionDecisionEvent
  | .resolvePermissionResponse _ => PermissionResolution

abbrev RunCall (α : Type) : Type := Call RunStep RunStep.Answer RunError α

def executionCall {α : Type} : ExecutionCall α → RunCall α :=
  Call.embed RunStep.service (fun _ answer => answer) .execution

def RunOp.program (config : SchedulerConfig) (taskId : String) : (op : RunOp) → RunCall op.Result
  | .execute => executionCall (ExecutionOp.program config (.execute taskId))
  | .cancel => executionCall (ExecutionOp.program config (.cancel taskId))
  | .bridgePermissionRequest request =>
    (Acp.bridgePermissionRequest taskId request).mapError .event
  | .resolvePermissionResponse response =>
    (TaskEventService.resolvePermissionResponse TaskEventService.calls taskId response).mapError
      .event

abbrev RunPool : Type := Pool EventState RunStep.Answer RunError RunOp.Result

abbrev RunAction : Type := Action RunOp ServiceStep.Input

def nextRunStep? (p : RunPool) : RunAction → Option RunStep
  | .spawn _ => none
  | .advance i _ =>
    match p.threads[i]? with
    | some ⟨_, .step q _⟩ => some q
    | _ => none

def runPoolStep (config : SchedulerConfig) (taskId : String) (p : RunPool) (a : RunAction) :
    Option RunPool :=
  if (nextRunStep? p a).any (RunStep.blocked p.shared) then none
  else step (RunOp.program config taskId) RunStep.exec p a

/-- What one store call does to logs and bus: it records at most one event, committed and
published, and a status changes only with its event. -/
inductive Store.Records (s s' : Store) : Prop
  | quiet (events : s'.events = s.events) (published : s'.published = s.published)
      (statuses : ∀ id, s'.statusOf id = s.statusOf id)
  | logged (event : TaskEvent) (events : s'.events = s.events ++ [event])
      (published : s'.published = s.published ++ [event])
      (statuses : ∀ id, s'.statusOf id = s.statusOf id ∨
        event.taskId = id ∧ s'.statusOf id = event.eventType.status?)

section Records
variable {s s' : Store} {now : String}

theorem records_same (h : s' = s) : s.Records s' := by
  rw [h]
  exact .quiet rfl rfl fun _ => rfl

theorem records_sameTasks (h : s.SameTasks s') : s.Records s' :=
  .quiet h.events h.published fun id => by
    rw [Store.statusOf, findTask_congr h.tasks, Store.statusOf]

theorem records_logged {event : TaskEvent} (htasks : s'.tasks = s.tasks)
    (hevents : s'.events = s.events ++ [event])
    (hpublished : s'.published = s.published ++ [event]) : s.Records s' :=
  .logged event hevents hpublished fun id =>
    .inl (by rw [Store.statusOf, findTask_congr htasks, Store.statusOf])

theorem runAlone_publishing {α : Type} {s₁ : Store} {event : TaskEvent} {f : TaskEvent → TaskCall α}
    (hseq : event.sequence = s.nextSequence event.taskId)
    (hevents : s₁.events = s.events ++ [event]) :
    runAlone (do
      let event ← TaskStore.eventBySequence event.taskId event.sequence
      TaskStore.publishIfConfigured event
      f event) now s₁ =
      runAlone (f event) now { s₁ with published := s₁.published ++ [event] } := by
  have hread : runAlone (TaskStore.eventBySequence event.taskId event.sequence) now s₁ =
      (.ok event, s₁) := runAlone_query_ok (attempt_selectEvent_last s₁ event now hseq hevents)
  rw [runAlone_bind_ok hread, runAlone_publish]

theorem recallResolution_ne_inr {taskId requestId : String} {decision : PermissionDecision}
    (request : PermissionRequestRecord) (sequence : ℕ) :
    s.recallResolution taskId requestId decision request ≠ .ok (.inr sequence) := by
  unfold recallResolution
  split
  · exact fun h => by cases h
  · split
    · split <;> exact fun h => by cases h
    · exact fun h => by cases h

theorem runAlone_recordPermissionRequest (taskId : String) (request : PermissionRequestEvent)
    (now : String) (s : Store) :
    (∃ e, runAlone (TaskStore.recordPermissionRequest taskId request) now s = (.error e, s)) ∨
    ∃ event t, runAlone (TaskStore.recordPermissionRequest taskId request) now s = (.ok event, t) ∧
      event.eventType = .providerPermissionRequested ∧ t.tasks = s.tasks ∧
      t.events = s.events ++ [event] ∧ t.published = s.published ++ [event] := by
  unfold TaskStore.recordPermissionRequest
  cases hfind : s.findTask taskId with
  | none =>
    exact .inl ⟨_, runAlone_bind_error (runAlone_get_none hfind)⟩
  | some task =>
    have hclock : runAlone TaskStore.nowRfc3339 now s = (.ok now, s) := runAlone_query_ok rfl
    rw [runAlone_bind_ok (runAlone_get_some hfind), runAlone_bind_ok hclock]
    cases hinsert : (DbStep.insertPermissionRequest taskId request now).attempt now s with
    | error e =>
      have hsend : runAlone (TaskStore.send (.insertPermissionRequest taskId request now)) now s =
          (.error .store, s) := runAlone_query_error hinsert
      exact .inl ⟨_, runAlone_bind_error hsend⟩
    | ok inserted =>
      obtain ⟨sequence, s₁⟩ := inserted
      have hsend : runAlone (TaskStore.send (.insertPermissionRequest taskId request now)) now s =
          (.ok sequence, s₁) := runAlone_query_ok hinsert
      rw [runAlone_bind_ok hsend]
      obtain ⟨rfl, -, hstore⟩ := insertPermissionRequest_ok hinsert
      have hevents := congrArg Store.events hstore
      have htasks : s₁.tasks = s.tasks := by rw [hstore]
      have hpublished : s₁.published = s.published := by rw [hstore]
      exact .inr ⟨_, _, runAlone_publishing (by rfl) hevents, rfl, htasks, hevents,
        congrArg (· ++ _) hpublished⟩

theorem runAlone_resolvePermissionRequest (taskId requestId : String)
    (decision : PermissionDecision) (reason : Option String) (now : String) (s : Store) :
    (∃ e, runAlone (TaskStore.resolvePermissionRequest taskId requestId decision reason) now s =
      (.error e, s)) ∨
    (∃ resolution, runAlone (TaskStore.resolvePermissionRequest taskId requestId decision reason)
      now s = (.ok resolution, s) ∧ resolution.event ∈ s.events) ∨
    ∃ resolution t, runAlone (TaskStore.resolvePermissionRequest taskId requestId decision reason)
      now s = (.ok resolution, t) ∧ resolution.event.eventType = .providerPermissionDecided ∧
        t.tasks = s.tasks ∧ t.events = s.events ++ [resolution.event] ∧
        t.published = s.published ++ [resolution.event] := by
  unfold TaskStore.resolvePermissionRequest
  cases hfind : s.findTask taskId with
  | none =>
    exact .inl ⟨_, runAlone_bind_error (runAlone_get_none hfind)⟩
  | some task =>
    have hclock : runAlone TaskStore.nowRfc3339 now s = (.ok now, s) := runAlone_query_ok rfl
    rw [runAlone_bind_ok (runAlone_get_some hfind), runAlone_bind_ok hclock]
    cases hattempt : (DbStep.resolvePermissionRequest taskId requestId decision reason now).attempt
        now s with
    | error e =>
      have hsend : runAlone (TaskStore.send (.resolvePermissionRequest taskId requestId decision
          reason now)) now s = (.error .store, s) := runAlone_query_error hattempt
      exact .inl ⟨_, runAlone_bind_error hsend⟩
    | ok answered =>
      obtain ⟨answer, s₁⟩ := answered
      have hsend : runAlone (TaskStore.send (.resolvePermissionRequest taskId requestId decision
          reason now)) now s = (.ok answer, s₁) := runAlone_query_ok hattempt
      rw [runAlone_bind_ok hsend]
      obtain ⟨-, rfl, rfl⟩ | ⟨request, -, ⟨-, hanswer, rfl⟩ | ⟨-, -, rfl, rfl⟩⟩ :=
        resolvePermissionRequest_cases hattempt
      · exact .inl ⟨_, rfl⟩
      · rcases answer with e | resolution | sequence
        · exact .inl ⟨e, rfl⟩
        · exact .inr (.inl ⟨resolution, rfl, mem_of_recalled hattempt⟩)
        · exact absurd hanswer.symm (recallResolution_ne_inr request sequence)
      · have hevents : (s.decided taskId ⟨requestId, decision, reason⟩ now).events =
            s.events ++ [s.decidedEvent taskId ⟨requestId, decision, reason⟩ now] := rfl
        exact .inr (.inr ⟨_, _, runAlone_publishing (by rfl) hevents, rfl, rfl, rfl, rfl⟩)

inductive Store.Called (s : Store) (now : String) : TaskOp → Store → Prop
  | nothing (op : TaskOp) : Called s now op s
  | created (input : CreateTask) :
      Called s now (.create input) (s.created (TaskStore.newTask input) now)
  | moved {op : TaskOp} {id : String} {next : TaskStatus} {task : Task} (payload : Option Value)
      (target : op.target? = some (id, next)) (found : s.findTask id = some task)
      (allowed : transitionAllowed task.status next) :
      Called s now op (s.moved id next payload now)
  | savedResult (id finalMessage : String) (changedFiles : List String) (result : TaskResult) :
      Called s now (.saveResult id finalMessage changedFiles) (s.updateTaskResult id result)
  | savedExecutionResult (result : TaskResult) :
      Called s now (.saveExecutionResult result) (s.updateTaskResult result.taskId result)
  | logged {op : TaskOp} {event : TaskEvent} {s' : Store}
      (ordinary : op.isOrdinary → event.eventType.status? = none) (tasks : s'.tasks = s.tasks)
      (events : s'.events = s.events ++ [event])
      (published : s'.published = s.published ++ [event]) : Called s now op s'
  | acquired (request : LockRequest) :
      Called s now (.acquireLock request) (s.replaceLock request now)
  | released (taskId : String) : Called s now (.releaseLocks taskId) (s.releaseLocks taskId now)

theorem called_transition (hs : s.WellFormed) {op : TaskOp} {id : String} {next : TaskStatus}
    (payload : Option Value) (htarget : op.target? = some (id, next)) :
    s.Called now op (runAlone (TaskStore.transition id next payload) now s).2 := by
  obtain ⟨e, hr⟩ | ⟨task, -, -, -, hr⟩ | ⟨task, hfind, hallowed, hr⟩ :=
    transition_cases hs id next payload now
  · rw [hr]
    exact .nothing op
  · rw [hr]
    exact .nothing op
  · rw [hr]
    exact .moved payload htarget hfind hallowed

theorem called_runAlone (hs : s.WellFormed) (op : TaskOp) :
    s.Called now op (runAlone op.program now s).2 := by
  cases op with
  | create input =>
    rw [TaskOp.program, runAlone_create hs]
    cases input.validate with
    | error e => exact .nothing _
    | ok _ => exact .created input
  | get id =>
    rw [TaskOp.program, runAlone_get]
    cases s.findTask id <;> exact .nothing _
  | list filters =>
    rw [TaskOp.program, runAlone_list]
    exact .nothing _
  | transition id next payload => exact called_transition hs payload rfl
  | cancel id => exact called_transition hs none rfl
  | saveResult id finalMessage changedFiles =>
    obtain hr | ⟨result, hr⟩ := runAlone_saveResult (s := s) finalMessage changedFiles
    · rw [TaskOp.program, hr]
      exact .nothing _
    · rw [TaskOp.program, hr]
      exact .savedResult id finalMessage changedFiles result
  | saveExecutionResult result => exact .savedExecutionResult result
  | appendEvent taskId eventType payload =>
    rw [TaskOp.program, runAlone_appendEvent hs]
    cases s.findTask taskId with
    | none => exact .nothing _
    | some task =>
      refine .logged (fun hordinary => ?_) rfl rfl rfl
      exact Option.isNone_iff_eq_none.mp hordinary
  | recordPermissionRequest taskId request =>
    obtain ⟨e, hr⟩ | ⟨event, t, hr, htype, htasks, hevents, hpublished⟩ :=
      runAlone_recordPermissionRequest taskId request now s
    · rw [TaskOp.program, hr]
      exact .nothing _
    · rw [TaskOp.program, hr]
      refine .logged (fun _ => ?_) htasks hevents hpublished
      rw [htype]
      rfl
  | resolvePermissionRequest taskId requestId decision reason =>
    obtain ⟨e, hr⟩ | ⟨resolution, hr, -⟩ | ⟨resolution, t, hr, htype, htasks, hevents, hpublished⟩ :=
      runAlone_resolvePermissionRequest taskId requestId decision reason now s
    · rw [TaskOp.program, hr]
      exact .nothing _
    · rw [TaskOp.program, hr]
      exact .nothing _
    · rw [TaskOp.program, hr]
      refine .logged (fun _ => ?_) htasks hevents hpublished
      rw [htype]
      rfl
  | acquireLock request =>
    rw [TaskOp.program, runAlone_acquireLock]
    split
    · exact .nothing _
    · exact .acquired request
  | releaseLocks taskId => exact .released taskId

theorem records_runAlone (hs : s.WellFormed) (op : TaskOp) :
    s.Records (runAlone op.program now s).2 := by
  have hcalled : s.Called now op (runAlone op.program now s).2 := called_runAlone hs op
  generalize (runAlone op.program now s).2 = s' at hcalled
  cases hcalled with
  | nothing => exact records_same rfl
  | created input =>
    refine .logged (s.firstEvent now) rfl rfl fun id => ?_
    rw [Store.statusOf, created_findTask hs]
    split
    · rename_i hid
      exact .inr ⟨hid.symm, rfl⟩
    · exact .inl rfl
  | moved payload htarget hfind hallowed =>
    rename_i id next task
    refine .logged _ (moved_events next payload) (moved_published next payload) fun id' => ?_
    by_cases hid : id' = id
    · subst hid
      right
      rw [moved_statusOf hfind]
      exact ⟨rfl, (status?_eventTypeForStatus next).symm⟩
    · exact .inl (moved_statusOf_ne hid)
  | savedResult | savedExecutionResult => exact .quiet rfl rfl (status_withResult rfl)
  | logged _ htasks hevents hpublished => exact records_logged htasks hevents hpublished
  | acquired | released => exact .quiet rfl rfl fun _ => rfl

theorem records_exec (hs : s.WellFormed) (q : ServiceStep) (input : ServiceStep.Input) :
    s.Records (q.exec input s).2 := by
  cases q with
  | tasks op => exact records_runAlone hs op
  | grants op => exact records_sameTasks (sameTasks_grantOp op input.now s)
  | profiles op => exact records_sameTasks (sameTasks_profileOp op input.now s)
  | loadRegistry | getRuntime _ | prepareWorkspace _ _ _ | executeAdapter _ | clock =>
    exact records_same rfl

end Records

namespace TaskRun

section Monitors
variable {α β : Type} {m : List TaskEvent}

def learns (m : List TaskEvent) : (q : RunStep) → q.Answer → List TaskEvent
  | .service (.tasks (.resolvePermissionRequest ..)), .ok resolution => resolution.event :: m
  | _, _ => m

/-- The only database step outside the store calls publishes an event of a resolution. -/
def Republishes (m : List TaskEvent) (q : RunStep) : Prop :=
  ∀ q', q = .event (.db q') → ∃ event ∈ m, q' = .publish event

theorem monitored_executionCall (c : ExecutionCall α) :
    Monitored learns Republishes (fun _ _ => True) m (executionCall c) := by
  induction c generalizing m with
  | ret a => trivial
  | fail e => trivial
  | step q k ih => exact ⟨fun _ h => (by cases h), fun answer => ih answer⟩

theorem monitored_tasks (op : TaskOp) {f : op.Result → Call RunStep RunStep.Answer
    TaskEventServiceError β} {post : List TaskEvent → β → Prop}
    (hf : ∀ result, Monitored learns Republishes post
      (learns m (.service (.tasks op)) (.ok result)) (f result)) :
    Monitored learns Republishes post m (TaskEventService.calls.tasks op >>= f) := by
  refine ⟨fun _ h => (by cases h), fun answer => ?_⟩
  cases answer with
  | error e => trivial
  | ok result => exact hf result

theorem monitored_ask {q : EventStep} {f : q.Answer → Call RunStep RunStep.Answer
    TaskEventServiceError β} {post : List TaskEvent → β → Prop} (hq : ∀ q', q ≠ .db q')
    (hf : ∀ answer, Monitored learns Republishes post m (f answer)) :
    Monitored learns Republishes post m (TaskEventService.calls.ask q >>= f) :=
  ⟨fun q' h => absurd (RunStep.event.inj h) (hq q'), hf⟩

theorem monitored_getPermissionRequest (taskId requestId : String)
    {f : PermissionRequestRecord → Call RunStep RunStep.Answer TaskEventServiceError β}
    {post : List TaskEvent → β → Prop}
    (hf : ∀ request, Monitored learns Republishes post m (f request)) :
    Monitored learns Republishes post m
      (TaskEventService.getPermissionRequest TaskEventService.calls taskId requestId >>= f) := by
  refine Monitored.bind (monitored_tasks (.get taskId) fun _ =>
    monitored_ask (fun _ h => by cases h) fun answer => ?_)
  rcases answer with e | (_ | request)
  · trivial
  · trivial
  · exact hf request

theorem monitored_awaitPermissionDecision (taskId requestId : String) :
    Monitored learns Republishes (fun _ _ => True) m
      (TaskEventService.awaitPermissionDecision TaskEventService.calls taskId requestId) := by
  refine monitored_getPermissionRequest taskId requestId fun request => ?_
  split
  · cases request.response <;> trivial
  · refine monitored_ask (fun _ h => by cases h) fun receiver =>
      monitored_ask (fun _ h => by cases h) fun answer => ?_
    cases answer <;> trivial

theorem monitored_announceResolution (taskId : String) {resolution : PermissionResolution}
    (h : resolution.event ∈ m) :
    Monitored learns Republishes (fun _ _ => True) m
      (TaskEventService.announceResolution TaskEventService.calls taskId resolution) := by
  unfold TaskEventService.announceResolution
  cases PermissionDecisionEvent.fromValue resolution.event.payload with
  | none => trivial
  | some decided =>
    have hnotify : Monitored learns Republishes (fun _ _ => True) m (do
        TaskEventService.calls.ask (.notifyPermissionResolution taskId decided)
        return resolution) := monitored_ask (fun _ h => by cases h) fun _ => trivial
    dsimp only
    split
    · exact hnotify
    · refine ⟨fun q' hq => ⟨resolution.event, h, ?_⟩, fun _ => hnotify⟩
      exact (EventStep.db.inj (RunStep.event.inj hq)).symm

theorem monitored_resolvePermissionResponse (taskId : String)
    (response : PermissionResponseRequest) :
    Monitored learns Republishes (fun _ _ => True) m
      (TaskEventService.resolvePermissionResponse TaskEventService.calls taskId response) := by
  refine monitored_getPermissionRequest taskId response.requestId fun existing => ?_
  have hresolve : ∀ supported : Bool, Monitored learns Republishes (fun _ _ => True) m
      (if supported then do
        let resolution ← TaskEventService.calls.tasks (.resolvePermissionRequest taskId
          response.requestId response.decision response.reason)
        TaskEventService.announceResolution TaskEventService.calls taskId resolution
      else .fail .permissionResponseNotSupported) := by
    intro supported
    cases supported with
    | false => trivial
    | true => exact monitored_tasks _ fun resolution =>
        monitored_announceResolution taskId List.mem_cons_self
  dsimp only
  split
  · exact ⟨fun _ h => (by cases h), fun supported => hresolve supported⟩
  · exact hresolve true

theorem monitored_program (config : SchedulerConfig) (taskId : String) (op : RunOp) :
    Monitored learns Republishes (fun _ _ => True) m (op.program config taskId) := by
  cases op with
  | execute => exact monitored_executionCall _
  | cancel => exact monitored_executionCall _
  | bridgePermissionRequest request =>
    exact (monitored_tasks _ fun _ => monitored_awaitPermissionDecision taskId _).mapError _
  | resolvePermissionResponse response =>
    exact (monitored_resolvePermissionResponse taskId response).mapError _

end Monitors

end TaskRun

structure RunPool.Intact (p : RunPool) : Prop where
  wellFormed : p.shared.store.WellFormed
  committed : ∀ event ∈ p.shared.store.published, event ∈ p.shared.store.events
  known : ∀ t ∈ p.threads, ∃ m, Monitored TaskRun.learns TaskRun.Republishes (fun _ _ => True) m
    t.rest ∧ ∀ event ∈ m, event ∈ p.shared.store.events

inductive Store.Proceeds (s s' : Store) : Prop
  | call (records : s.Records s')
  | republish (event : TaskEvent) (committed : event ∈ s.events)
      (store : s' = { s with published := s.published ++ [event] })

theorem Store.Records.events_initial {s s' : Store} (h : s.Records s') : s.events <+: s'.events := by
  cases h with
  | quiet hevents => exact hevents ▸ List.prefix_rfl
  | logged event hevents => exact hevents ▸ List.prefix_append _ _

theorem Store.Proceeds.events_initial {s s' : Store} (h : s.Proceeds s') :
    s.events <+: s'.events := by
  cases h with
  | call h => exact h.events_initial
  | republish event hmem hstore => exact hstore ▸ List.prefix_rfl

theorem Store.Proceeds.published_initial {s s' : Store} (h : s.Proceeds s') :
    s.published <+: s'.published := by
  cases h with
  | call h =>
    cases h with
    | quiet _ hpublished => exact hpublished ▸ List.prefix_rfl
    | logged event _ hpublished => exact hpublished ▸ List.prefix_append _ _
  | republish event hmem hstore => exact hstore ▸ List.prefix_append _ _

namespace RunPool.Intact

variable {config : SchedulerConfig} {taskId : String} {p p' : RunPool} {a : RunAction}
variable {q : RunStep} {input : ServiceStep.Input} {x : EventState} {m : List TaskEvent}

theorem store_of_event {q : EventStep} (hq : ∀ q', q ≠ .db q') :
    ((RunStep.event q).exec input x).2.store = x.store :=
  EventThreads.store_of_not_db hq (.proceed input.now) x

theorem proceeds_exec (hs : x.store.WellFormed) (hq : TaskRun.Republishes m q)
    (hm : ∀ event ∈ m, event ∈ x.store.events) :
    x.store.Proceeds (q.exec input x).2.store ∧ (q.exec input x).2.store.WellFormed := by
  cases q with
  | service q => exact ⟨.call (records_exec hs q input), wellFormed_exec hs q input⟩
  | event q =>
    by_cases hdb : ∃ q', q = .db q'
    · obtain ⟨q', rfl⟩ := hdb
      obtain ⟨event, hevent, rfl⟩ := hq q' rfl
      exact ⟨.republish event (hm event hevent) rfl, wellFormed_of_same hs rfl rfl⟩
    · rw [store_of_event fun q' h => hdb ⟨q', h⟩]
      exact ⟨.call (records_same rfl), hs⟩

theorem mem_of_learns (hm : ∀ event ∈ m, event ∈ (q.exec input x).2.store.events) :
    ∀ event ∈ TaskRun.learns m q (q.exec input x).1, event ∈ (q.exec input x).2.store.events := by
  intro event hevent
  unfold TaskRun.learns at hevent
  split at hevent
  · rename_i taskId requestId decision reason resolution hanswer
    rcases List.mem_cons.mp hevent with rfl | hevent
    · change (runAlone (TaskStore.resolvePermissionRequest taskId requestId decision reason)
        input.now x.store).1 = _ at hanswer
      change _ ∈ (runAlone (TaskStore.resolvePermissionRequest taskId requestId decision reason)
        input.now x.store).2.events
      obtain ⟨e, hr⟩ | ⟨recalled, hr, hmem⟩ | ⟨fresh, t, hr, -, -, hevents, -⟩ :=
        runAlone_resolvePermissionRequest taskId requestId decision reason input.now x.store
      · rw [hr] at hanswer
        cases hanswer
      · rw [hr] at hanswer ⊢
        obtain rfl := Except.ok.inj hanswer
        exact hmem
      · rw [hr] at hanswer ⊢
        obtain rfl := Except.ok.inj hanswer
        rw [hevents]
        exact List.mem_append_right _ List.mem_cons_self
    · exact hm event hevent
  · exact hm event hevent

theorem committed_of_proceeds {s s' : Store} (h : ∀ event ∈ s.published, event ∈ s.events)
    (hproceeds : s.Proceeds s') : ∀ event ∈ s'.published, event ∈ s'.events := by
  intro event hevent
  cases hproceeds with
  | call hrecords =>
    cases hrecords with
    | quiet hevents hpublished =>
      rw [hpublished] at hevent
      rw [hevents]
      exact h event hevent
    | logged logged hevents hpublished =>
      rw [hpublished] at hevent
      rw [hevents]
      rcases List.mem_append.mp hevent with hevent | hevent
      · exact List.mem_append_left _ (h event hevent)
      · exact List.mem_append_right _ hevent
  | republish sent hsent hstore =>
    subst hstore
    rcases List.mem_append.mp hevent with hevent | hevent
    · exact h event hevent
    · obtain rfl := List.mem_singleton.mp hevent
      exact hsent

theorem step (h : p.Intact) (hstep : runPoolStep config taskId p a = some p') :
    p'.Intact ∧ p.shared.store.Proceeds p'.shared.store := by
  unfold runPoolStep at hstep
  split at hstep
  · cases hstep
  · obtain ⟨op, rfl, rfl⟩ | ⟨i, input, op, q, k, rfl, hi, rfl⟩ := step_cases hstep
    · refine ⟨⟨h.wellFormed, h.committed, fun t ht => ?_⟩, .call (records_same rfl)⟩
      rcases List.mem_append.mp ht with ht | ht
      · exact h.known t ht
      · obtain rfl := List.mem_singleton.mp ht
        exact ⟨[], TaskRun.monitored_program config taskId op, fun _ hm => (by cases hm)⟩
    · obtain ⟨m, ⟨hq, hnext⟩, hm⟩ := h.known _ (List.mem_of_getElem? hi)
      obtain ⟨hproceeds, hwf⟩ := proceeds_exec h.wellFormed hq hm
      have hkept := hproceeds.events_initial.subset
      refine ⟨⟨hwf, committed_of_proceeds h.committed hproceeds, fun t ht => ?_⟩, hproceeds⟩
      rcases List.mem_or_eq_of_mem_set ht with ht | rfl
      · obtain ⟨m, hmonitored, hm⟩ := h.known t ht
        exact ⟨m, hmonitored, fun event hevent => hkept (hm event hevent)⟩
      · exact ⟨_, hnext _, mem_of_learns fun event hevent => hkept (hm event hevent)⟩

end RunPool.Intact

end OpenDaemon
