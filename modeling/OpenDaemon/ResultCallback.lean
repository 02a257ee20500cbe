import OpenDaemon.CallbackOrder
import OpenDaemon.ResultPersistence

/-!
# The result in the terminal callback

A task is executed, or completed by the scheduler, while the client takes the
published events. Both calls commit the terminal transition first and store the
result with a later statement; the callback is built from the row as it is when
the client takes the event.
-/

namespace OpenDaemon

open Runs Store Call ControlPlaneCallbackService

def ServiceStep.saves (id : String) : ServiceStep → Bool
  | .tasks (.saveResult taskId _ _) => decide (taskId = id)
  | .tasks (.saveExecutionResult result) => decide (result.taskId = id)
  | _ => false

inductive FinishingOp
  | execute
  | complete (finalMessage : String)

def FinishingOp.program (config : SchedulerConfig) (id : String) : FinishingOp → ExecutionCall Task
  | .execute => ExecutionService.executeTask config id
  | .complete finalMessage =>
    ExecutionService.scheduler (SchedulerService.completeTask id finalMessage)

structure Finishing where
  session : CallbackSession
  call : ExecutionCall Task

inductive FinishingAction
  | advance (input : ServiceStep.Input)
  | elsewhere (q : ServiceStep) (input : ServiceStep.Input)
  | process

def Finishing.exec (x : Finishing) (q : ServiceStep) (input : ServiceStep.Input) :
    CallbackSession :=
  { x.session with store := (q.execDecoded input x.session.store).2 }

def finishingStep (x : Finishing) : FinishingAction → Option Finishing
  | .advance input =>
    match x.call with
    | .step q k => some ⟨x.exec q input, k (q.execDecoded input x.session.store).1⟩
    | _ => none
  | .elsewhere q input => some { x with session := x.exec q input }
  | .process => x.session.process.map fun session => { x with session := session }

/-- The call stores the result of the task before the session takes its terminal event. The
events of an adapter name no status, and nobody else stores a result of the task. -/
def SavesInTime (id : String) (x : Finishing) : FinishingAction → Prop
  | .advance input => (∀ event ∈ input.outcome.events, event.kind.status? = none) ∧
      ∀ q k, x.call = .step q k → q.saves id →
        ∀ event ∈ x.session.takenFor id, terminalOf event = none
  | .elsewhere q _ => q.isOrdinary ∧ ¬ q.saves id
  | .process => True

/-- A terminal callback of the task has the status that its event names, and the result that is
stored when the call has returned. -/
def TruthfulCallbacks (id : String) (x : Finishing) : Prop :=
  ∀ callback ∈ x.session.sent, callback.taskId = id →
    ∀ fields, callback.terminal = some fields →
      terminalCallback callback.status = some callback.event ∧
      ∀ task, x.call = .ret task →
        (x.session.store.findTask id).map Task.result = some fields.result

section Calls

/-- The events of an adapter name no status. -/
def OrdinaryAnswer : (q : ServiceStep) → q.Answer → Prop
  | .executeAdapter _, (outcome : RuntimeExecutionOutcome) =>
    ∀ event ∈ outcome.events, event.kind.status? = none
  | _, _ => True

theorem ordinaryAnswer_execDecoded {input : ServiceStep.Input}
    (h : ∀ event ∈ input.outcome.events, event.kind.status? = none) (q : ServiceStep) (s : Store) :
    OrdinaryAnswer q (q.execDecoded input s).1 := by
  cases q with
  | executeAdapter request => exact h
  | _ => trivial

variable {id : String}

abbrev OrdinaryCall {α : Type} (c : ExecutionCall α) : Prop :=
  c.UsesGiven OrdinaryAnswer fun q => q.isOrdinary

theorem ordinary_bind {α β : Type} {c : ExecutionCall α} {f : α → ExecutionCall β}
    (hc : c.Uses fun q => q.isOrdinary) (hf : ∀ a, OrdinaryCall (f a)) : OrdinaryCall (c >>= f) :=
  hc.given.bind hf

theorem ordinary_appendEvents {events : List RuntimeOutputEvent}
    (h : ∀ event ∈ events, event.kind.status? = none) :
    OrdinaryCall (ExecutionService.appendEvents id events) := by
  induction events with
  | nil => trivial
  | cons event events ih =>
    have hkind : (ServiceStep.tasks (.appendEvent id event.kind event.payload)).isOrdinary := by
      simp [ServiceStep.isOrdinary, TaskOp.isOrdinary, h event List.mem_cons_self]
    have hrest := ih fun later hmem => h later (List.mem_cons_of_mem _ hmem)
    exact ordinary_bind (uses_executionTasks _ hkind) fun _ => hrest

theorem ordinary_persistOutcome {outcome : RuntimeExecutionOutcome}
    (h : ∀ event ∈ outcome.events, event.kind.status? = none) (workspace : PreparedWorkspace) :
    OrdinaryCall (ExecutionService.persistOutcome id outcome workspace) := by
  refine (ordinary_appendEvents h).bind fun _ => ?_
  refine ordinary_bind (uses_executionTasks _ rfl) fun _ => ?_
  refine ordinary_bind (uses_executionTasks _ rfl) fun task => ?_
  refine ordinary_bind (c := perform .clock) ⟨rfl, fun _ => trivial⟩ fun now => ?_
  have hread : (ExecutionService.tasks (.get id)).Uses fun q => q.isOrdinary :=
    uses_executionTasks _ rfl
  exact ordinary_bind (uses_executionTasks _ rfl) fun _ => hread.given

theorem ordinary_runTask (config : SchedulerConfig) (task : Task) (profile : AgentProfile)
    (grant : DirectoryGrant) (manifest : ProviderManifest) (runtime : RuntimeView)
    (executable : String) : OrdinaryCall
      (ExecutionService.runTask config id task profile grant manifest runtime executable) := by
  refine ordinary_bind (uses_acquireDirectoryLock task (fun _ => rfl) (fun _ => rfl) (fun _ => rfl)
    (fun _ => rfl) fun _ _ => rfl) fun _ => ?_
  refine ordinary_bind ((uses_prepareWorkspace (fun _ => rfl) (fun _ => rfl) (fun _ _ => rfl)
    fun _ _ _ => rfl).mapError _) fun workspace => ?_
  refine ordinary_bind (uses_executionTasks _ rfl) fun _ => ?_
  refine ordinary_bind (uses_ofExcept _) fun _ => ?_
  refine ordinary_bind (uses_executionTasks _ rfl) fun current => ?_
  exact ⟨rfl, fun outcome houtcome => ordinary_persistOutcome houtcome workspace⟩

theorem ordinary_executeTask (config : SchedulerConfig) :
    OrdinaryCall (ExecutionService.executeTask config id) := by
  refine ordinary_bind (uses_executionTasks _ rfl) fun task => ?_
  split
  · trivial
  · refine ordinary_bind (uses_getProfile rfl) fun profile => ?_
    refine ordinary_bind (uses_executionGrant rfl) fun grant => ?_
    refine ordinary_bind (uses_loadRegistry rfl) fun registry => ?_
    refine ordinary_bind (uses_ofExcept _) fun manifest => ?_
    refine ordinary_bind (uses_getRuntime manifest rfl) fun runtime => ?_
    refine ordinary_bind (uses_ofExcept _) fun executable => ?_
    exact ordinary_runTask config task profile grant manifest runtime executable

theorem ordinary_completeTask (finalMessage : String) : OrdinaryCall
    (ExecutionService.scheduler (SchedulerService.completeTask id finalMessage)) := by
  have huses : (SchedulerService.completeTask id finalMessage).Uses fun q => q.isOrdinary := by
    refine Uses.bind (uses_tasks _ rfl) fun task => ?_
    exact Uses.bind (uses_tasks _ rfl) fun _ => trivial
  exact (huses.mapError _).given

theorem ordinary_program (config : SchedulerConfig) (op : FinishingOp) :
    OrdinaryCall (op.program config id) := by
  cases op with
  | execute => exact ordinary_executeTask config
  | complete finalMessage => exact ordinary_completeTask finalMessage

end Calls

section Stored
variable {s : Store} {id : String}

def Store.resultOf (s : Store) (id : String) : Option (Option TaskResult) :=
  (s.findTask id).map Task.result

theorem resultOf_congr {s' : Store} (h : s'.tasks = s.tasks) : s'.resultOf id = s.resultOf id := by
  rw [resultOf, findTask_congr h, resultOf]

theorem taskId?_of_target {op : TaskOp} {next : TaskStatus} (h : op.target? = some (id, next)) :
    op.taskId? = some id := by
  cases op with
  | transition _ _ _ | cancel _ =>
    cases h
    rfl
  | _ => cases h

theorem resultOf_moved {task : Task} (hfind : s.findTask id = some task) (next : TaskStatus)
    (payload : Option Value) (now : String) :
    (s.moved id next payload now).resultOf id = s.resultOf id := by
  rw [resultOf, moved_findTask, hfind, resultOf, hfind]
  rfl

theorem resultOf_runAlone (hs : s.WellFormed) {op : TaskOp}
    (hsaves : ¬ (ServiceStep.tasks op).saves id) (hcreate : ∀ row, op ≠ .create row)
    (now : String) : (runAlone op.program now s).2.resultOf id = s.resultOf id := by
  cases hop : op.taskId? with
  | none => rw [runAlone_reads hop hcreate]
  | some taskId =>
    by_cases hid : id = taskId
    · subst hid
      have hcalled : s.Called now op (runAlone op.program now s).2 := called_runAlone hs op
      generalize (runAlone op.program now s).2 = s' at hcalled ⊢
      cases hcalled with
      | nothing => rfl
      | created input => cases hop
      | moved payload htarget hfind _ =>
        obtain rfl := Option.some.inj ((taskId?_of_target htarget).symm.trans hop)
        exact resultOf_moved hfind _ payload now
      | savedResult taskId finalMessage changedFiles result =>
        exact absurd (decide_eq_true (Option.some.inj hop)) hsaves
      | savedExecutionResult result => exact absurd (decide_eq_true (Option.some.inj hop)) hsaves
      | logged _ htasks _ _ => exact resultOf_congr htasks
      | acquired | released => exact resultOf_congr rfl
    · rw [resultOf, ((touched_runAlone hop now s).others id hid).task, resultOf]

theorem resultOf_exec (hs : s.WellFormed) {q : ServiceStep} (hsaves : ¬ q.saves id)
    (input : ServiceStep.Input) {result : Option TaskResult} (h : s.resultOf id = some result) :
    (q.exec input s).2.resultOf id = some result := by
  rw [← h]
  cases q with
  | tasks op =>
    by_cases hcreate : ∃ row, op = .create row
    · obtain ⟨row, rfl⟩ := hcreate
      rw [ServiceStep.exec, TaskOp.program, runAlone_create hs]
      cases row.validate with
      | error e => rfl
      | ok _ =>
        -- the new row has another id, since the task exists
        have hold : id ≠ RowTable.rowKey "task_" (RowTable.nextRowid s.tasks) := by
          rintro rfl
          rw [resultOf, findTask_next hs] at h
          cases h
        exact congrArg (Option.map Task.result) ((created_findTask hs _ _).trans (if_neg hold))
    · exact resultOf_runAlone hs hsaves (fun row h => hcreate ⟨row, h⟩) input.now
  | grants op => exact resultOf_congr (sameTasks_grantOp op input.now s).tasks
  | profiles op => exact resultOf_congr (sameTasks_profileOp op input.now s).tasks
  | loadRegistry | getRuntime _ | prepareWorkspace _ _ _ | executeAdapter _ | clock => rfl

theorem resultOf_execDecoded (hs : s.WellFormed) {q : ServiceStep} (hsaves : ¬ q.saves id)
    (input : ServiceStep.Input) {result : Option TaskResult} (h : s.resultOf id = some result) :
    (q.execDecoded input s).2.resultOf id = some result := by
  have hleaves : q.Leaves input s (q.execDecoded input s).2 := q.leaves_execDecoded hs input
  generalize (q.execDecoded input s).2 = t at hleaves
  cases hleaves with
  | refused same => exact (resultOf_congr same.tasks).trans h
  | done => exact resultOf_exec hs hsaves input h
  | unread => exact (resultOf_congr rfl).trans (resultOf_exec hs hsaves input h)

end Stored

section Answers
variable {delivered delivered' : DeliveredKeys} {s : Store} {event : TaskEvent}
  {callback : TaskCallback}

theorem deliver_eq_some {task : Task} {key : ℤ} {name : String} {terminal : Option TerminalFields}
    (h : deliver delivered task key name terminal = .ok (some callback, delivered')) :
    callback.event = name ∧ callback.taskId = task.id ∧ callback.status = task.status ∧
      callback.terminal = terminal := by
  unfold deliver at h
  split at h
  · cases h
  · split at h
    · cases h
    · split at h
      · cases h
      · split at h
        · cases h
        · obtain ⟨hcallback, -⟩ := Prod.mk.inj (Except.ok.inj h)
          obtain rfl := Option.some.inj hcallback
          exact ⟨rfl, rfl, rfl, rfl⟩

theorem callbackForState_eq_some {taskId : String}
    (h : callbackForState delivered s taskId = .ok (some callback, delivered')) :
    callback.terminal = none := by
  unfold callbackForState at h
  split at h
  · cases h
  · unfold callbackForTaskState at h
    split at h
    · cases h
    · exact (deliver_eq_some h).2.2.2

theorem callbackFor_eq_terminal {fields : TerminalFields}
    (h : callbackFor delivered s event = .ok (some callback, delivered'))
    (hterminal : callback.terminal = some fields) :
    callback.taskId = event.taskId ∧ ∃ task status, s.findTask event.taskId = some task ∧
      event.eventType.status? = some status ∧ terminalCallback status = some callback.event ∧
      callback.status = task.status ∧ fields.result = task.result := by
  have hstate : ∀ taskId, callbackForState delivered s taskId ≠ .ok (some callback, delivered') := by
    intro taskId hanswer
    rw [callbackForState_eq_some hanswer] at hterminal
    cases hterminal
  unfold callbackFor at h
  split at h
  · exact absurd h (hstate _)
  · exact absurd h (hstate _)
  · unfold callbackForEvent at h
    split at h
    · cases h
    · rename_i name hname
      obtain ⟨status, hstatus, hnamed⟩ := Option.bind_eq_some_iff.mp hname
      split at h
      · cases h
      · rename_i task hread
        have hfind := readTask_eq_ok hread
        obtain ⟨hevent, htask, hcurrent, hfields⟩ := deliver_eq_some h
        rw [hterminal] at hfields
        obtain rfl := Option.some.inj hfields
        exact ⟨htask.trans (findTask_id hfind), task, status, hfind, hstatus,
          hnamed.trans (congrArg some hevent.symm), hcurrent, rfl⟩

theorem sent_take {x : CallbackSession} (h : callback ∈ (x.take event).sent) :
    callback ∈ x.sent ∨
      ∃ keys, callbackFor x.delivered x.store event = .ok (some callback, keys) := by
  unfold CallbackSession.take at h
  split at h
  · exact .inl h
  · rename_i answer keys hanswer
    rcases List.mem_append.mp h with hold | hnew
    · exact .inl hold
    · rw [Option.mem_toList.mp hnew] at hanswer
      exact .inr ⟨keys, hanswer⟩

end Answers

/-- The terminal callbacks of the task that were sent agree with its row. -/
def CallbackSession.Reports (id : String) (x : CallbackSession) : Prop :=
  ∀ callback ∈ x.sent, callback.taskId = id → ∀ fields, callback.terminal = some fields →
    terminalCallback callback.status = some callback.event ∧
    x.store.resultOf id = some fields.result ∧ ∃ event ∈ x.takenFor id, terminalOf event ≠ none

structure Finishing.Kept (id : String) (x : Finishing) : Prop where
  wellFormed : x.session.store.WellFormed
  climbs : x.session.store.Climbs id
  seen : x.session.seen ≤ x.session.store.published.length
  ordinary : OrdinaryCall x.call
  reports : x.session.Reports id

section Steps
variable {id : String} {x y : Finishing}

theorem Finishing.Kept.exec (h : x.Kept id) {q : ServiceStep} (hq : q.isOrdinary)
    (hsaves : q.saves id → ∀ event ∈ x.session.takenFor id, terminalOf event = none)
    (input : ServiceStep.Input) {call : ExecutionCall Task} (hcall : OrdinaryCall call) :
    Finishing.Kept id ⟨x.exec q input, call⟩ := by
  obtain ⟨htaken, hseen⟩ := CallbackSession.takenFor_execDecoded h.wellFormed h.seen hq input
  refine ⟨q.wellFormed_execDecoded h.wellFormed input,
    h.climbs.step (climb_execDecoded h.wellFormed q hq input), hseen, hcall, ?_⟩
  intro callback hmem hid fields hterminal
  obtain ⟨hnamed, hresult, event, hevent, hended⟩ := h.reports callback hmem hid fields hterminal
  have hkept : ¬ q.saves id := fun hq => hended (hsaves hq event hevent)
  exact ⟨hnamed, resultOf_execDecoded h.wellFormed hkept input hresult, event, htaken ▸ hevent, hended⟩

theorem CallbackSession.Reports.take {x : CallbackSession} (h : x.Reports id)
    (hclimbs : x.store.Climbs id) {event : TaskEvent} (hnext : x.nextEvent? = some event) :
    (x.take event).Reports id := by
  have htaken : (x.take event).takenFor id = x.takenFor id ++ eventsFor id [event] := by
    rw [takenFor, take_store, take_seen, takenFor_succ hnext]
  intro callback hmem hid fields hterminal
  rcases sent_take hmem with hold | ⟨keys, hanswer⟩
  · obtain ⟨hnamed, hresult, earlier, hearlier, hended⟩ := h callback hold hid fields hterminal
    refine ⟨hnamed, by rw [take_store]; exact hresult, earlier, ?_, hended⟩
    rw [htaken]
    exact List.mem_append_left _ hearlier
  · obtain ⟨htask, task, status, hfind, hstatus, hnamed, hcurrent, hresult⟩ :=
      callbackFor_eq_terminal hanswer hterminal
    have hown : event.taskId = id := htask.symm.trans hid
    rw [hown] at hfind
    -- the status that the event names is the last one of the task
    have hmem : status ∈ statusesFor id x.store.published :=
      List.mem_filterMap.mpr ⟨event, List.mem_filter.mpr
        ⟨List.mem_of_getElem? hnext, decide_eq_true hown⟩, hstatus⟩
    have hlast := hclimbs.terminal hmem (isTerminal_of_terminalCallback hnamed)
    rw [Store.statusOf, hfind] at hlast
    refine ⟨?_, ?_, event, ?_, ?_⟩
    · rw [hcurrent, Option.some.inj hlast]
      exact hnamed
    · rw [take_store, resultOf, hfind, hresult]
      rfl
    · rw [htaken]
      simp [eventsFor, hown]
    · simp [terminalOf, hstatus, hnamed]

theorem Finishing.Kept.step {a : FinishingAction} (h : x.Kept id) (ha : SavesInTime id x a)
    (hstep : finishingStep x a = some y) : y.Kept id := by
  cases a with
  | advance input =>
    obtain ⟨houtcome, hsaves⟩ := ha
    have hcall := h.ordinary
    unfold finishingStep at hstep
    cases hx : x.call with
    | ret task => rw [hx] at hstep; cases hstep
    | fail e => rw [hx] at hstep; cases hstep
    | step q k =>
      rw [hx] at hstep hcall
      obtain rfl := Option.some.inj hstep
      exact h.exec hcall.1 (hsaves q k hx) input (hcall.2 _ (ordinaryAnswer_execDecoded houtcome q _))
  | elsewhere q input =>
    obtain rfl := Option.some.inj hstep
    exact h.exec ha.1 (fun hq => absurd hq ha.2) input h.ordinary
  | process =>
    obtain ⟨session, hprocess, rfl⟩ := Option.map_eq_some_iff.mp hstep
    obtain ⟨event, hnext, rfl⟩ := CallbackSession.process_eq_some hprocess
    have hstore := x.session.take_store event
    refine ⟨hstore ▸ h.wellFormed, hstore ▸ h.climbs, ?_, h.ordinary, h.reports.take h.climbs hnext⟩
    rw [CallbackSession.take_seen, hstore]
    exact CallbackSession.seen_lt hnext

end Steps

/-- In every run in which the result is stored before the terminal event is taken, a terminal
callback has the status of its event and the stored result. -/
theorem terminal_callback_truthful {s : Store} {delivered : DeliveredKeys} {id : String}
    (hs : s.WellFormed) (hpublished : s.published = []) (config : SchedulerConfig)
    (op : FinishingOp) {x : Finishing} (hx : Reaches finishingStep (SavesInTime id)
      ⟨.start s delivered, op.program config id⟩ x) : TruthfulCallbacks id x := by
  have hstart : Finishing.Kept id ⟨.start s delivered, op.program config id⟩ := by
    refine ⟨hs, .initial hpublished, Nat.zero_le _, ordinary_program config op, ?_⟩
    intro callback hmem
    cases hmem
  have hkept : x.Kept id := by
    refine hx.invariant hstart ?_
    intro y a z hy ha hstep
    exact hy.step ha hstep
  intro callback hmem hid fields hterminal
  obtain ⟨hnamed, hresult, -⟩ := hkept.reports callback hmem hid fields hterminal
  exact ⟨hnamed, fun _ _ => hresult⟩

section Samples

def dispatchedStore : StoreState where
  store := { sampleStore.store.created (dispatchedTask.admittedRow .worktree sampleProfile) "t0" with
    published := [] }
  wellFormed := wellFormed_of_same (wellFormed_created sampleStore.wellFormed _) rfl rfl

def savesInTime (id : String) (x : Finishing) : FinishingAction → Bool
  | .advance input => input.outcome.events.all (fun event => event.kind.status?.isNone) &&
      match x.call with
      | .step q _ => !q.saves id || (x.session.takenFor id).all fun event => (terminalOf event).isNone
      | _ => true
  | .elsewhere q _ => q.isOrdinary && !q.saves id
  | .process => true

theorem savesInTime_sound {id : String} {x : Finishing} {a : FinishingAction}
    (h : savesInTime id x a) : SavesInTime id x a := by
  cases a with
  | advance input =>
    obtain ⟨hevents, hcall⟩ := (Bool.and_eq_true _ _).mp h
    refine ⟨by simpa using hevents, fun q k hx hq => ?_⟩
    rw [hx] at hcall
    simpa [hq] using hcall
  | elsewhere q input => simpa [savesInTime, SavesInTime] using h
  | process => trivial

def processAfterwards : List FinishingAction :=
  List.replicate 22 (.advance executionInput) ++ List.replicate 4 .process

/-- The task runs, its completion is committed and the session takes all events before the result
is stored. -/
def processBeforeResult : List FinishingAction :=
  [.waitingDirectoryLock, .preparing, .running].map (fun next =>
    .elsewhere (.tasks (.transition "task_1" next none)) (sampleInput "t1")) ++
  .advance (sampleInput "t2") :: List.replicate 4 .process ++ [.advance (sampleInput "t3")]

def Finishing.returned (x : Finishing) : Bool :=
  match x.call with
  | .ret _ => true
  | _ => false

theorem Finishing.eq_ret {x : Finishing} (h : x.returned) : ∃ task, x.call = .ret task := by
  unfold Finishing.returned at h
  split at h
  · exact ⟨_, ‹_›⟩
  · cases h

def Finishing.reported (x : Finishing) :
    List (String × String × TaskStatus × Option (Option String)) :=
  x.session.sent.map fun callback => (callback.taskId, callback.event, callback.status,
    callback.terminal.map fun fields => fields.result.map TaskResult.finalMessage)

theorem terminal_callback_truthful_processAfterwards : ∃ x : Finishing,
    Reaches finishingStep (SavesInTime "task_1")
      ⟨.start dispatchedStore.store [], FinishingOp.execute.program ⟨2, false⟩ "task_1"⟩ x ∧
    x.returned ∧
    x.reported = [("task_1", "task.completed", .completed, some (some sampleOutcome.finalMessage))] ∧
    TruthfulCallbacks "task_1" x := by
  have hrun : (run (fun x a => if savesInTime "task_1" x a then finishingStep x a else none)
      ⟨.start dispatchedStore.store [], FinishingOp.execute.program ⟨2, false⟩ "task_1"⟩
      processAfterwards).any fun x => x.returned && decide (x.reported =
        [("task_1", "task.completed", .completed, some (some sampleOutcome.finalMessage))]) := by
    decide +kernel
  obtain ⟨x, hx, hfacts⟩ := (Option.any_eq_true _ _).mp hrun
  obtain ⟨hreturned, hdecided⟩ := Bool.and_eq_true_iff.mp hfacts
  have hreported := of_decide_eq_true hdecided
  have hreach := reaches_of_run (fun _ _ => savesInTime_sound) hx
  exact ⟨x, hreach, hreturned, hreported,
    terminal_callback_truthful dispatchedStore.wellFormed rfl ⟨2, false⟩ .execute hreach⟩

/-- The callback has no result, although one is stored when the call returns. -/
theorem processBeforeResult_not_truthful : ∃ x : Finishing,
    run finishingStep ⟨.start dispatchedStore.store [],
      (FinishingOp.complete "done").program ⟨2, false⟩ "task_1"⟩ processBeforeResult = some x ∧
    x.returned ∧ x.reported = [("task_1", "task.completed", .completed, some none)] ∧
    (x.session.store.findTask "task_1").map (fun task => task.result.map TaskResult.finalMessage) =
      some (some "done") ∧ ¬ TruthfulCallbacks "task_1" x := by
  have hrun : ((run finishingStep ⟨.start dispatchedStore.store [],
      (FinishingOp.complete "done").program ⟨2, false⟩ "task_1"⟩ processBeforeResult).map fun x =>
        (x.returned, x.reported, (x.session.store.findTask "task_1").map
          fun task => task.result.map TaskResult.finalMessage)) =
      some (true, [("task_1", "task.completed", .completed, some none)],
        some (some "done")) := by rfl
  obtain ⟨x, hx, hfacts⟩ := Option.map_eq_some_iff.mp hrun
  simp only [Prod.mk.injEq] at hfacts
  obtain ⟨hreturned, hreported, hstored⟩ := hfacts
  refine ⟨x, hx, hreturned, hreported, hstored, fun h => ?_⟩
  obtain ⟨task, hret⟩ := Finishing.eq_ret hreturned
  obtain ⟨callback, hsent, hcallback⟩ := List.map_eq_singleton_iff.mp hreported
  simp only [Prod.mk.injEq] at hcallback
  obtain ⟨hid, -, -, hterminal⟩ := hcallback
  obtain ⟨fields, hfields, hresult⟩ := Option.map_eq_some_iff.mp hterminal
  have hmem : callback ∈ x.session.sent := by
    rw [hsent]
    exact List.mem_singleton_self callback
  obtain ⟨row, hrow, hsame⟩ :=
    Option.map_eq_some_iff.mp ((h callback hmem hid fields hfields).2 task hret)
  rw [hrow, Option.map_some, hsame, hresult] at hstored
  cases hstored

end Samples

end OpenDaemon
