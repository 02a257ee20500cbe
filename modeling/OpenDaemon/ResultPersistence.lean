import OpenDaemon.ExecutionCompletion
import OpenDaemon.ServiceInvariant

/-!
# The stored result of a cancelled execution

One execution of a task runs while any number of calls cancel the task. A
cancellation that commits while the task runs does not stop the adapter, and
when the adapter returns, the transition to its outcome is refused unless the
outcome is a cancellation as well; the result is saved only after that
transition. Nor is it reached when an event of the adapter nests too deep to be
read back.
-/

namespace OpenDaemon

open Runs Interleaving Store Call

structure Observed where
  store : Store
  called : Bool

def ServiceStep.callsAdapter : ServiceStep → Bool
  | .executeAdapter _ => true
  | _ => false

def observedExec (outcome : RuntimeExecutionOutcome) (q : ServiceStep) (input : ServiceStep.Input)
    (x : Observed) : q.Answer × Observed :=
  ((q.execDecoded { input with outcome := outcome } x.store).1,
    ⟨(q.execDecoded { input with outcome := outcome } x.store).2, x.called || q.callsAdapter⟩)

theorem observedExec_tasks (outcome : RuntimeExecutionOutcome) (op : TaskOp)
    (input : ServiceStep.Input) (x : Observed) : observedExec outcome (.tasks op) input x =
      ((runDecoded op.program input.now x.store).1,
        ⟨(runDecoded op.program input.now x.store).2, x.called⟩) :=
  Prod.ext rfl (congrArg (Observed.mk _) (Bool.or_false x.called))

abbrev ObservedPool : Type :=
  Pool Observed ServiceStep.Answer ExecutionError fun _ : ExecutionOp => Task

def observedStep (config : SchedulerConfig) (outcome : RuntimeExecutionOutcome) :
    ObservedPool → ExecutionAction → Option ObservedPool :=
  step (ExecutionOp.program config) (observedExec outcome)

def startExecution (config : SchedulerConfig) (s : Store) (id : String) : ObservedPool :=
  ⟨⟨s, false⟩, [⟨.execute id, ExecutionService.executeTask config id⟩]⟩

def OnlyCancels (id : String) : ExecutionAction → Prop
  | .spawn op => op = .cancel id
  | .advance _ _ => True

/-- A cancellation of the running task is committed only if the adapter is cancelled too. -/
def CancelsAgree (outcome : RuntimeExecutionOutcome) (id : String) (p : ObservedPool) :
    ExecutionAction → Prop
  | .spawn _ => True
  | .advance i _ => ∀ op k, p.threads[i]? = some ⟨op, .step (.tasks (.cancel id)) k⟩ →
      p.shared.store.statusOf id = some .running → outcome.status = .cancelled

def ObservedPool.Returned (p : ObservedPool) (id : String) : Prop :=
  (∃ task, p.threads[0]? = some ⟨.execute id, .ret task⟩) ∨
    ∃ e, p.threads[0]? = some ⟨.execute id, .fail e⟩

/-- The task has ended, and its result is stored with the status it ended in. -/
def StoredResult (id : String) (s : Store) : Prop :=
  ∃ task result, s.findTask id = some task ∧ task.status.isTerminal ∧ task.result = some result ∧
    result.status = task.status

namespace Persistence

variable {outcome : RuntimeExecutionOutcome} {id : String}

/-- What cancellations may do to the task while its execution goes on. -/
structure Interferes (outcome : RuntimeExecutionOutcome) (id : String) (x y : Observed) : Prop where
  called : y.called = x.called
  row : ∀ task, x.store.findTask id = some task → ∃ task', y.store.findTask id = some task' ∧
    task'.result = task.result ∧ task'.readable = task.readable ∧ (task'.status = task.status ∨
      ¬ task.status.isTerminal ∧ task'.status = .cancelled ∧
        (task.status = .running → outcome.status = .cancelled))

def discipline (outcome : RuntimeExecutionOutcome) (id : String) :
    Discipline ServiceStep ExecutionOp Observed Unit where
  inv x _ := x.store.WellFormed
  rely i x _ y _ := i = 0 → Interferes outcome id x y
  admits op := op = .cancel id
  guard x _ q := q = .tasks (.cancel id) → x.store.statusOf id = some .running →
    outcome.status = .cancelled
  needs _ _ _ _ _ := True

theorem Interferes.refl (x : Observed) : Interferes outcome id x x :=
  ⟨rfl, fun task h => ⟨task, h, rfl, rfl, .inl rfl⟩⟩

section Assertions

def Runs (outcome : RuntimeExecutionOutcome) (id : String) (x : Observed) : Prop :=
  ∃ task, x.store.findTask id = some task ∧ task.readable ∧
    (task.status = .running ∨ task.status = .cancelled ∧ outcome.status = .cancelled)

def Ended (outcome : RuntimeExecutionOutcome) (id : String) (x : Observed) : Prop :=
  ∃ task, x.store.findTask id = some task ∧ task.readable ∧
    task.status = outcome.status.taskStatus

/-- What the outcome allows to be read back can be read from the row. -/
def Kept (outcome : RuntimeExecutionOutcome) (id : String) (x : Observed) : Prop :=
  StoredResult id x.store ∧ (outcome.Readable → x.store.taskReadable id)

theorem Runs.taskReadable {x : Observed} (h : Runs outcome id x) : x.store.taskReadable id := by
  obtain ⟨task, hfind, hread, -⟩ := h
  rw [Store.taskReadable, hfind]
  exact hread

theorem Ended.taskReadable {x : Observed} (h : Ended outcome id x) : x.store.taskReadable id := by
  obtain ⟨task, hfind, hread, -⟩ := h
  rw [Store.taskReadable, hfind]
  exact hread

theorem Interferes.runs {x y : Observed} (h : Interferes outcome id x y)
    (hx : Runs outcome id x) : Runs outcome id y := by
  obtain ⟨task, hfind, hread, hstatus⟩ := hx
  obtain ⟨task', hfind', -, hkept, hsame | ⟨hlive, hcancelled, hagree⟩⟩ := h.row task hfind
  · exact ⟨task', hfind', hkept.trans hread, by rwa [hsame]⟩
  · rcases hstatus with hrunning | ⟨hcancelled', -⟩
    · exact ⟨task', hfind', hkept.trans hread, .inr ⟨hcancelled, hagree hrunning⟩⟩
    · rw [hcancelled'] at hlive
      exact absurd rfl hlive

theorem Interferes.ended {x y : Observed} (h : Interferes outcome id x y) {task : Task}
    (hfind : x.store.findTask id = some task) (hterm : task.status.isTerminal) :
    ∃ task', y.store.findTask id = some task' ∧ task'.result = task.result ∧
      task'.readable = task.readable ∧ task'.status = task.status := by
  obtain ⟨task', hfind', hresult, hkept, hsame | ⟨hlive, -⟩⟩ := h.row task hfind
  · exact ⟨task', hfind', hresult, hkept, hsame⟩
  · exact absurd hterm hlive

theorem stable_uncalled : Stable (discipline outcome id) 0 fun x _ => x.called = false :=
  fun _ _ _ _ _ _ hr h => (hr rfl).called.trans h

theorem stable_runs : Stable (discipline outcome id) 0 fun x _ => Runs outcome id x :=
  fun _ _ _ _ _ _ hr h => (hr rfl).runs h

theorem stable_ready :
    Stable (discipline outcome id) 0 fun x _ => x.called = false ∧ Runs outcome id x :=
  fun _ _ _ _ _ _ hr h => ⟨(hr rfl).called.trans h.1, (hr rfl).runs h.2⟩

theorem stable_ended : Stable (discipline outcome id) 0 fun x _ => Ended outcome id x := by
  rintro x _ y _ - - hr ⟨task, hfind, hread, hstatus⟩
  have hterm : task.status.isTerminal := hstatus ▸ taskStatus_isTerminal _
  obtain ⟨task', hfind', -, hkept, hsame⟩ := (hr rfl).ended hfind hterm
  exact ⟨task', hfind', hkept.trans hread, hsame.trans hstatus⟩

theorem stable_kept : Stable (discipline outcome id) 0 fun x _ => Kept outcome id x := by
  rintro x _ y _ - - hr ⟨⟨task, result, hfind, hterm, hresult, hstatus⟩, hread⟩
  obtain ⟨task', hfind', hresult', hkept, hsame⟩ := (hr rfl).ended hfind hterm
  refine ⟨⟨task', result, hfind', hsame ▸ hterm, hresult'.trans hresult,
    hstatus.trans hsame.symm⟩, fun houtcome => ?_⟩
  have hrow : task.readable := by
    have hrow := hread houtcome
    rwa [Store.taskReadable, hfind] at hrow
  rw [Store.taskReadable, hfind']
  exact hkept.trans hrow

end Assertions

section Execution
variable {op : ExecutionOp} {ε α : Type} {P : Observed → Unit → Prop}

def Done (outcome : RuntimeExecutionOutcome) (id : String) : Except ε α → Observed → Unit → Prop :=
  fun _ x _ => x.called = true → Kept outcome id x

theorem done_of_uncalled {x : Observed} {r : Except ε α} (h : x.called = false) :
    Done outcome id r x () := by
  intro hcalled
  rw [h] at hcalled
  cases hcalled

theorem safe_own {q : ServiceStep} {k : q.Answer → ServiceCall ε α}
    {Q : Except ε α → Observed → Unit → Prop} (P' : q.Answer → Observed → Prop)
    (stable : ∀ a, Stable (discipline outcome id) 0 fun x _ => P' a x)
    (effect : ∀ x input, x.store.WellFormed → P x () →
      P' (observedExec outcome q input x).1 (observedExec outcome q input x).2)
    (next : ∀ a, Safe (discipline outcome id) (observedExec outcome) op 0 (k a)
      (fun x _ => P' a x) Q) :
    Safe (discipline outcome id) (observedExec outcome) op 0 (.step q k) P Q := by
  refine safe_step (fun a x _ => P' a x) stable (fun _ _ _ _ => trivial) ?_ next
  intro x _ input hwf hp _
  exact ⟨(), ServiceStep.wellFormed_execDecoded hwf q _, fun j hj h => absurd h hj,
    effect x input hwf hp⟩

theorem safe_uncalled {c : ServiceCall ε α} (hc : c.Uses fun q => q.callsAdapter = false) :
    Safe (discipline outcome id) (observedExec outcome) op 0 c (fun x _ => x.called = false)
      fun _ x _ => x.called = false := by
  induction c with
  | ret a => exact fun _ _ _ hp => hp
  | fail e => exact fun _ _ _ hp => hp
  | step q k ih =>
    refine safe_own (fun _ x => x.called = false) (fun _ => stable_uncalled) (fun x input _ hp => ?_)
      fun a => ih a (hc.2 a)
    have hcalled : (x.called || q.callsAdapter) = false := by rw [hp, hc.1]; rfl
    exact hcalled

def Succeeds (outcome : RuntimeExecutionOutcome) (id : String) (op : ExecutionOp)
    (P : Observed → Prop) (c : ExecutionCall α) (Q : α → Observed → Prop) : Prop :=
  Safe (discipline outcome id) (observedExec outcome) op 0 c (fun x _ => P x)
    fun r x _ => ∃ a, r = .ok a ∧ Q a x

theorem Succeeds.bind {β : Type} {P : Observed → Prop} {c : ExecutionCall α}
    {Q : α → Observed → Prop} {f : α → ExecutionCall β}
    {R : Except ExecutionError β → Observed → Unit → Prop} (hc : Succeeds outcome id op P c Q)
    (hf : ∀ a, Safe (discipline outcome id) (observedExec outcome) op 0 (f a)
      (fun x _ => Q a x) R) :
    Safe (discipline outcome id) (observedExec outcome) op 0 (c >>= f) (fun x _ => P x) R := by
  refine safe_bind hc (fun a => safe_weaken (hf a) ?_) ?_
  · rintro x _ _ ⟨b, hb, hq⟩
    obtain rfl := Except.ok.inj hb
    exact hq
  · rintro e x _ _ ⟨b, hb, -⟩
    cases hb

theorem succeeds_tasks {t : TaskOp} {P : Observed → Prop} (Q : t.Result → Observed → Prop)
    (stable : ∀ r, Stable (discipline outcome id) 0 fun x _ => Q r x)
    (effect : ∀ x now, x.store.WellFormed → P x →
      ∃ r, (runDecoded t.program now x.store).1 = .ok r ∧
        Q r ⟨(runDecoded t.program now x.store).2, x.called⟩) :
    Succeeds outcome id op P (ExecutionService.tasks t) Q := by
  refine safe_mapError (safe_own (fun answer x => ∃ r, answer = .ok r ∧ Q r x) ?_ ?_ fun answer => ?_)
  · rintro answer x _ y _ hx hy hr ⟨r, ha, hq⟩
    exact ⟨r, ha, stable r x () y () hx hy hr hq⟩
  · intro x input hwf hp
    obtain ⟨r, hr, hq⟩ := effect x input.now hwf hp
    rw [observedExec_tasks]
    exact ⟨r, hr, hq⟩
  · cases answer with
    | ok r =>
      rintro x _ _ ⟨r', hr, hq⟩
      obtain rfl := Except.ok.inj hr
      exact ⟨r, rfl, hq⟩
    | error e =>
      rintro x _ _ ⟨r', hr, hq⟩
      cases hr

theorem succeeds_appendEvents {events : List RuntimeOutputEvent}
    (hevents : ∀ event ∈ events, event.payload.readable) :
    Succeeds outcome id op (Runs outcome id) (ExecutionService.appendEvents id events)
      fun _ => Runs outcome id := by
  induction events with
  | nil => exact fun x _ _ hp => ⟨(), rfl, hp⟩
  | cons event events ih =>
    have happend : Succeeds outcome id op (Runs outcome id)
        (ExecutionService.tasks (.appendEvent id event.kind event.payload))
        fun _ => Runs outcome id := by
      refine succeeds_tasks _ (fun _ => stable_runs) fun x now hwf hp => ?_
      rw [TaskOp.program, runDecoded_appendEvent_read hwf hp.taskReadable
        (hevents event List.mem_cons_self), runAlone_appendEvent hwf]
      obtain ⟨task, hfind, hstatus⟩ := hp
      rw [hfind]
      exact ⟨_, rfl, task, hfind, hstatus⟩
    exact happend.bind fun _ => ih fun later hmem => hevents later (List.mem_cons_of_mem _ hmem)

/-- From a running task the transition to the outcome is allowed, and for a cancelled one it
has been made already. -/
theorem succeeds_transition {payload : Option Value}
    (hpayload : (payload.getD .emptyObject).readable) :
    Succeeds outcome id op (Runs outcome id)
      (ExecutionService.tasks (.transition id outcome.status.taskStatus payload))
      fun _ => Ended outcome id := by
  refine succeeds_tasks _ (fun _ => stable_ended) fun x now hwf hp => ?_
  rw [TaskOp.program, runDecoded_transition_read hwf hp.taskReadable hpayload,
    runAlone_transition hwf]
  obtain ⟨task, hfind, hread, hstatus⟩ := hp
  rw [hfind]
  rcases hstatus with hrunning | ⟨hcancelled, hagree⟩
  · have hchanged : validateTransition task.status outcome.status.taskStatus = .ok .changed := by
      rw [hrunning]
      exact validateTransition_changed_iff.mpr (running_taskStatus outcome.status)
    simp only [hchanged]
    refine ⟨_, rfl, task.afterTransition outcome.status.taskStatus now, ?_, hread, rfl⟩
    exact (moved_findTask outcome.status.taskStatus payload).trans (congrArg _ hfind)
  · have hsame : validateTransition task.status outcome.status.taskStatus = .ok .idempotent := by
      rw [hcancelled, hagree]
      rfl
    simp only [hsame]
    exact ⟨_, rfl, task, hfind, hread, by rw [hcancelled, hagree]; rfl⟩

theorem succeeds_get {P : Observed → Prop}
    (stable : Stable (discipline outcome id) 0 fun x _ => P x)
    (found : ∀ x, P x → ∃ task, x.store.findTask id = some task)
    (readable : ∀ x, P x → x.store.taskReadable id) {Q : Task → Prop}
    (known : ∀ x task, P x → x.store.findTask id = some task → Q task) :
    Succeeds outcome id op P (ExecutionService.tasks (.get id)) fun task x => Q task ∧ P x := by
  refine succeeds_tasks _ (fun task => ?_) fun x now _ hp => ?_
  · exact fun x _ y _ hx hy hr h => ⟨h.1, stable x () y () hx hy hr h.2⟩
  · obtain ⟨task, hfind⟩ := found x hp
    rw [TaskOp.program, runDecoded_get_read (readable x hp), runAlone_get_some hfind]
    exact ⟨task, rfl, known x task hp hfind, hp⟩

theorem succeeds_saveExecutionResult {result : TaskResult} (hid : result.taskId = id)
    (hstatus : result.status = outcome.status.taskStatus)
    (hread : outcome.Readable → result.toValue.readable) :
    Succeeds outcome id op (Ended outcome id)
      (ExecutionService.tasks (.saveExecutionResult result)) fun _ x => Kept outcome id x := by
  refine succeeds_tasks _ (fun _ => stable_kept) fun x now _ hp => ?_
  obtain ⟨task, hfind, hrow, htask⟩ := hp
  rw [TaskOp.program, runDecoded_saveExecutionResult, runAlone_saveExecutionResult, hid]
  have hsaved : (x.store.updateTaskResult id result).findTask id = some (task.withResult result) := by
    rw [Store.updateTaskResult, findTask_updateTask_self (fun task => task.withResult_id _), hfind]
    rfl
  refine ⟨(), rfl, ⟨task.withResult result, result, hsaved, ?_, rfl, hstatus.trans htask.symm⟩,
    fun houtcome => ?_⟩
  · exact (congrArg TaskStatus.isTerminal htask).trans (taskStatus_isTerminal _)
  · rw [Task.readable, Bool.and_eq_true_iff] at hrow
    rw [Store.taskReadable, hsaved]
    exact Bool.and_eq_true_iff.mpr ⟨hrow.1, hread houtcome⟩

theorem safe_lastRead : Safe (discipline outcome id) (observedExec outcome) op 0
    (SchedulerService.tasks (.get id)) (fun x _ => Kept outcome id x)
    fun r x _ => Done outcome id r x () := by
  refine safe_own (fun _ x => Kept outcome id x) (fun _ => stable_kept)
    (fun x input _ hp => ?_) fun answer => ?_
  · have hstate : (runDecoded (TaskStore.get id) input.now x.store).2 = x.store :=
      runDecoded_get_state x.store
    rw [observedExec_tasks, TaskOp.program, hstate]
    exact hp
  · cases answer with
    | ok row => exact fun x _ _ h _ => h
    | error e => exact fun x _ _ h _ => h

theorem safe_persistOutcome (hevents : ∀ event ∈ outcome.events, event.payload.readable)
    (workspace : PreparedWorkspace) :
    Safe (discipline outcome id) (observedExec outcome) op 0
      (ExecutionService.persistOutcome id outcome workspace) (fun x _ => Runs outcome id x)
      (Done outcome id) := by
  refine (succeeds_appendEvents hevents).bind fun _ =>
    (succeeds_transition (readable_errorPayload _)).bind fun _ => ?_
  have hget : Succeeds outcome id op (Ended outcome id) (ExecutionService.tasks (.get id))
      fun task x => (task.id = id ∧ task.status = outcome.status.taskStatus) ∧
        Ended outcome id x := by
    refine succeeds_get stable_ended (fun x hx => ?_) (fun x hx => hx.taskReadable)
      fun x task hx hfind => ⟨findTask_id hfind, ?_⟩
    · obtain ⟨task, hfind, -⟩ := hx
      exact ⟨task, hfind⟩
    · obtain ⟨task', hfind', -, hstatus⟩ := hx
      obtain rfl := Option.some.inj (hfind.symm.trans hfind')
      exact hstatus
  refine hget.bind fun task => safe_pure fun htask => ?_
  refine safe_own (fun _ => Ended outcome id) (fun _ => stable_ended) (fun x input _ hp => hp)
    fun now => ?_
  have hread : outcome.Readable →
      (resultFromOutcome task outcome workspace now).toValue.readable := fun houtcome =>
    (readable_resultFromOutcome task now).mpr ⟨houtcome.providerResult, houtcome.usage⟩
  refine (succeeds_saveExecutionResult htask.1 htask.2 hread).bind fun _ => ?_
  exact safe_mapError safe_lastRead

theorem safe_prelude {β : Type} {c : ExecutionCall α} {f : α → ExecutionCall β}
    (hc : c.Uses fun q => q.callsAdapter = false)
    (next : ∀ a, Safe (discipline outcome id) (observedExec outcome) op 0 (f a)
      (fun x _ => x.called = false) (Done outcome id)) :
    Safe (discipline outcome id) (observedExec outcome) op 0 (c >>= f)
      (fun x _ => x.called = false) (Done outcome id) :=
  safe_bind (safe_uncalled hc) next fun _ _ _ _ h => done_of_uncalled h

theorem safe_markRunning :
    Safe (discipline outcome id) (observedExec outcome) op 0
      (ExecutionService.scheduler (SchedulerService.markRunning id)) (fun x _ => x.called = false)
      fun r x _ => x.called = false ∧ ∀ task, r = .ok task → Runs outcome id x := by
  refine safe_mapError (safe_own (fun answer x => x.called = false ∧
    ∀ task, answer = .ok task → Runs outcome id x) ?_ ?_ fun answer => ?_)
  · rintro answer x _ y _ hx hy hr ⟨hcalled, hruns⟩
    exact ⟨stable_uncalled x () y () hx hy hr hcalled,
      fun task ha => (hr rfl).runs (hruns task ha)⟩
  · intro x input hwf hp
    refine ⟨(Bool.or_false _).trans hp, fun task hok => ?_⟩
    change (runDecoded (TaskStore.transition id .running none) input.now x.store).1 = .ok task at hok
    have hrow : x.store.taskReadable id := by
      cases hrow : x.store.taskReadable id with
      | true => rfl
      | false =>
        rw [runDecoded_transition_unread hrow] at hok
        cases hok
    have hrun : runDecoded (TaskStore.transition id .running none) input.now x.store =
        runAlone (TaskStore.transition id .running none) input.now x.store :=
      runDecoded_transition_read hwf hrow rfl
    rw [hrun] at hok
    obtain ⟨e, hr⟩ | ⟨row, -, -, hterm, -⟩ | ⟨row, hfind, -, hr⟩ :=
      transition_cases hwf id .running none input.now
    · rw [hr] at hok
      cases hok
    · cases hterm
    · refine ⟨row.afterTransition .running input.now, ?_, ?_, .inl rfl⟩
      · change (runDecoded (TaskStore.transition id .running none) input.now x.store).2.findTask id =
          _
        rw [hrun, hr, moved_findTask, hfind]
        rfl
      · rwa [Store.taskReadable, hfind] at hrow
  · cases answer with
    | ok task => exact fun x _ _ h => ⟨h.1, fun _ _ => h.2 task rfl⟩
    | error e => exact fun x _ _ h => ⟨h.1, fun _ hr => (by cases hr)⟩

theorem safe_runTask (hevents : ∀ event ∈ outcome.events, event.payload.readable)
    (config : SchedulerConfig) (task : Task) (profile : AgentProfile)
    (grant : DirectoryGrant) (manifest : ProviderManifest) (runtime : RuntimeView)
    (executable : String) :
    Safe (discipline outcome id) (observedExec outcome) op 0
      (ExecutionService.runTask config id task profile grant manifest runtime executable)
      (fun x _ => x.called = false) (Done outcome id) := by
  refine safe_prelude (uses_acquireDirectoryLock task (fun _ => rfl) (fun _ => rfl) (fun _ => rfl)
    (fun _ => rfl) fun _ _ => rfl) fun _ => safe_prelude ((uses_prepareWorkspace (fun _ => rfl)
    (fun _ => rfl) (fun _ _ => rfl) fun _ _ _ => rfl).mapError _) fun workspace => ?_
  refine safe_bind safe_markRunning (fun row => ?_) fun _ _ _ _ h => done_of_uncalled h.1
  refine safe_weaken (P := fun x _ => x.called = false ∧ Runs outcome id x) ?_
    fun x _ _ h => ⟨h.1, h.2 row rfl⟩
  cases forManifest manifest with
  | error e => exact fun x _ _ h => done_of_uncalled h.1
  | ok _ =>
    have hget : Succeeds outcome id op (fun x => x.called = false ∧ Runs outcome id x)
        (ExecutionService.tasks (.get id)) fun _ x => True ∧ x.called = false ∧ Runs outcome id x := by
      refine succeeds_get stable_ready (fun x hx => ?_) (fun x hx => hx.2.taskReadable)
        fun _ _ _ _ => trivial
      obtain ⟨row, hfind, -⟩ := hx.2
      exact ⟨row, hfind⟩
    refine hget.bind fun current => ?_
    refine safe_own (fun answer x => answer = outcome ∧ Runs outcome id x) ?_ ?_ fun answer => ?_
    · exact fun answer x _ y _ _ _ hr h => ⟨h.1, (hr rfl).runs h.2⟩
    · exact fun x input _ h => ⟨rfl, h.2.2⟩
    · refine safe_pure fun hanswer => ?_
      rw [hanswer]
      exact safe_persistOutcome hevents workspace

theorem safe_executeTask (hevents : ∀ event ∈ outcome.events, event.payload.readable)
    (config : SchedulerConfig) :
    Safe (discipline outcome id) (observedExec outcome) op 0
      (ExecutionService.executeTask config id) (fun x _ => x.called = false) (Done outcome id) := by
  refine safe_prelude (uses_executionTasks _ rfl) fun task => ?_
  split
  · exact fun x _ _ h => done_of_uncalled h
  · refine safe_prelude (uses_getProfile rfl) fun profile =>
      safe_prelude (uses_executionGrant rfl) fun grant =>
      safe_prelude (uses_loadRegistry rfl) fun registry =>
      safe_prelude (uses_ofExcept _) fun manifest =>
      safe_prelude (uses_getRuntime manifest rfl) fun runtime =>
      safe_prelude (uses_ofExcept _) fun executable => ?_
    exact safe_runTask hevents config task profile grant manifest runtime executable

end Execution

section Cancellation
variable {op : ExecutionOp} {i : ℕ}

theorem interferes_cancel {x : Observed} {now : String} (hwf : x.store.WellFormed)
    (hagree : x.store.statusOf id = some .running → outcome.status = .cancelled) :
    Interferes outcome id x
      ⟨(runDecoded (TaskStore.transition id .cancelled none) now x.store).2, x.called⟩ := by
  refine ⟨rfl, fun task hfind => ?_⟩
  cases hread : x.store.taskReadable id with
  | false => exact ⟨task, by rw [runDecoded_transition_unread hread]; exact hfind, rfl, rfl, .inl rfl⟩
  | true =>
  rw [runDecoded_transition_read hwf hread rfl]
  obtain ⟨e, hr⟩ | ⟨row, -, -, -, hr⟩ | ⟨row, hrow, hallowed, hr⟩ :=
    transition_cases hwf id .cancelled none now
  · exact ⟨task, by rw [hr]; exact hfind, rfl, rfl, .inl rfl⟩
  · exact ⟨task, by rw [hr]; exact hfind, rfl, rfl, .inl rfl⟩
  · obtain rfl := Option.some.inj (hrow.symm.trans hfind)
    refine ⟨row.afterTransition .cancelled now, ?_, rfl, rfl,
      .inr ⟨fun hterm => ?_, rfl, fun hrun => ?_⟩⟩
    · rw [hr]
      exact (moved_findTask .cancelled none).trans (congrArg _ hrow)
    · rw [not_transitionAllowed_of_terminal hterm] at hallowed
      cases hallowed
    · exact hagree ((Execution.statusOf_of_find hrow).trans (congrArg some hrun))

theorem safe_cancelTask :
    Safe (discipline outcome id) (observedExec outcome) op i
      (ExecutionService.scheduler (SchedulerService.cancelTask id)) (fun _ _ => True)
      fun _ _ _ => True := by
  have hstable : Stable (discipline outcome id) i fun _ _ => True := fun _ _ _ _ _ _ _ h => h
  have hlast : ∀ e : TaskValidationError, Safe (discipline outcome id) (observedExec outcome) op i
      (.fail e : SchedulerCall Task) (fun _ _ => True) fun _ _ _ => True := fun _ _ _ _ _ => trivial
  refine safe_mapError (safe_step (fun _ _ _ => True) (fun _ => hstable) (fun _ _ _ _ => trivial)
    ?_ fun answer => ?_)
  · intro x _ input hwf _ _
    have hget : (runDecoded (TaskStore.get id) input.now x.store).2 = x.store :=
      runDecoded_get_state x.store
    rw [observedExec_tasks, TaskOp.program, hget]
    exact ⟨(), hwf, fun j _ _ => .refl x, trivial⟩
  · cases answer with
    | error e => exact hlast _
    | ok task =>
      simp only [Call.andThen]
      split
      · exact hlast _
      · refine safe_step (fun _ _ _ => True) (fun _ => hstable) (fun _ _ _ _ => trivial) ?_
          fun answer => ?_
        · intro x _ input hwf _ hguard
          refine ⟨(), ServiceStep.wellFormed_execDecoded hwf _ _, fun j _ _ => ?_, trivial⟩
          rw [observedExec_tasks]
          exact interferes_cancel hwf (hguard rfl)
        · cases answer with
          | ok task => exact fun _ _ _ _ => trivial
          | error e => exact hlast _

end Cancellation

def Post (outcome : RuntimeExecutionOutcome) (id : String) : ExecutionOp → Except ExecutionError Task → Observed → Unit → Prop
  | .execute _ => Done outcome id
  | .cancel _ => fun _ _ _ => True

end Persistence

/-- In every run in which a running task is cancelled only together with its adapter, whose events
can be read back, an execution that returns after its adapter was called leaves the result
stored, and readable where what the adapter returned is. -/
theorem execution_stores_result {config : SchedulerConfig} {outcome : RuntimeExecutionOutcome}
    {id : String} {p : ObservedPool} (s : StoreState)
    (hevents : ∀ event ∈ outcome.events, event.payload.readable)
    (hreach : Reaches (observedStep config outcome)
      (fun p a => OnlyCancels id a ∧ CancelsAgree outcome id p a)
      (startExecution config s.store id) p)
    (hreturned : p.Returned id) (hcalled : p.shared.called = true) :
    StoredResult id p.shared.store ∧ (outcome.Readable → p.shared.store.taskReadable id) := by
  have hinitial : OutlineTo (Persistence.discipline outcome id) (observedExec outcome)
      (Persistence.Post outcome id) (startExecution config s.store id) :=
    outlineTo_singleton (g := ()) s.wellFormed Persistence.stable_uncalled rfl
      (Persistence.safe_executeTask hevents config)
  have hpermitted : Reaches (observedStep config outcome)
      (Permitted (Persistence.discipline outcome id)) (startExecution config s.store id) p := by
    refine hreach.mono fun p a ha => ?_
    cases a with
    | spawn op => exact ha.1
    | advance i input =>
      rintro op q k hi rfl hrunning
      exact ha.2 op k hi hrunning
  have houtline : OutlineTo (Persistence.discipline outcome id) (observedExec outcome)
      (Persistence.Post outcome id) p := by
    refine hinitial.of_reaches (fun op hop i => ?_) hpermitted
    obtain rfl : op = .cancel id := hop
    exact Persistence.safe_cancelTask
  rcases hreturned with ⟨task, hi⟩ | ⟨e, hi⟩
  · obtain ⟨_, -, hdone⟩ := houtline.returned hi
    exact hdone hcalled
  · obtain ⟨_, -, hdone⟩ := houtline.failed hi
    exact hdone hcalled

def cancelledOutcome : RuntimeExecutionOutcome := { sampleOutcome with status := .cancelled }

def onlyCancels (id : String) : ExecutionAction → Bool
  | .spawn (.cancel taskId) => decide (taskId = id)
  | .spawn (.execute _) => false
  | .advance _ _ => true

theorem onlyCancels_sound {id : String} {a : ExecutionAction} (h : onlyCancels id a) :
    OnlyCancels id a := by
  cases a with
  | advance i input => trivial
  | spawn op =>
    cases op with
    | execute taskId => cases h
    | cancel taskId => exact congrArg ExecutionOp.cancel (of_decide_eq_true h)

def cancelDuringAdapter : List ExecutionAction :=
  List.replicate 16 (.advance 0 executionInput) ++
  .spawn (.cancel "task_1") :: List.replicate 2 (.advance 1 executionInput)

def observedRun (outcome : RuntimeExecutionOutcome) (actions : List ExecutionAction) :
    Option ObservedPool :=
  Runs.run (fun p a => if onlyCancels "task_1" a then observedStep ⟨2, false⟩ outcome p a else none)
    (startExecution ⟨2, false⟩ queuedStore.store "task_1") actions

def returnedBy (id : String)
    (t : Thread ServiceStep.Answer ExecutionError fun _ : ExecutionOp => Task) : Bool :=
  match t with
  | ⟨.execute taskId, .ret _⟩ | ⟨.execute taskId, .fail _⟩ => decide (taskId = id)
  | _ => false

theorem returned_of_returnedBy {p : ObservedPool} {id : String}
    (h : p.threads[0]?.any (returnedBy id)) : p.Returned id := by
  obtain ⟨t, ht, hreturned⟩ := (Option.any_eq_true _ _).mp h
  unfold returnedBy at hreturned
  split at hreturned
  · obtain rfl := of_decide_eq_true hreturned
    exact .inl ⟨_, ht⟩
  · obtain rfl := of_decide_eq_true hreturned
    exact .inr ⟨_, ht⟩
  · cases hreturned

theorem execution_stores_result_cancelled : ∃ p : ObservedPool,
    p.Returned "task_1" ∧ p.shared.called = true ∧
    p.shared.store.statusOf "task_1" = some .cancelled ∧ StoredResult "task_1" p.shared.store ∧
    p.shared.store.taskReadable "task_1" := by
  have hrun : (observedRun cancelledOutcome (cancelDuringAdapter ++
      List.replicate 6 (.advance 0 executionInput))).map (fun p =>
        (p.threads[0]?.any (returnedBy "task_1"), p.shared.called,
          p.shared.store.statusOf "task_1")) = some (true, true, some .cancelled) := by decide +kernel
  obtain ⟨p, hp, hfacts⟩ := Option.map_eq_some_iff.mp hrun
  simp only [Prod.mk.injEq] at hfacts
  have hreach : Reaches (observedStep ⟨2, false⟩ cancelledOutcome)
      (fun p a => OnlyCancels "task_1" a ∧ CancelsAgree cancelledOutcome "task_1" p a)
      (startExecution ⟨2, false⟩ queuedStore.store "task_1") p := by
    refine reaches_of_run (fun p a h => ⟨onlyCancels_sound h, ?_⟩) hp
    cases a with
    | spawn op => trivial
    | advance i input => exact fun _ _ _ _ => rfl
  obtain ⟨hstored, hread⟩ := execution_stores_result queuedStore (by decide) hreach
    (returned_of_returnedBy hfacts.1) hfacts.2.1
  exact ⟨p, returned_of_returnedBy hfacts.1, hfacts.2.1, hfacts.2.2, hstored,
    hread ⟨by decide, by decide, by decide⟩⟩

/-- The adapter completes, the transition is refused and nothing is stored. -/
theorem completedAfterCancel_not_stored : ∃ p : ObservedPool,
    Reaches (observedStep ⟨2, false⟩ sampleOutcome) (fun _ a => OnlyCancels "task_1" a)
      (startExecution ⟨2, false⟩ queuedStore.store "task_1") p ∧
    p.Returned "task_1" ∧ p.shared.called = true ∧ ¬ StoredResult "task_1" p.shared.store := by
  have hrun : (observedRun sampleOutcome (cancelDuringAdapter ++
      List.replicate 2 (.advance 0 executionInput))).map (fun p =>
        (p.threads[0]?.any (returnedBy "task_1"), p.shared.called,
          (p.shared.store.findTask "task_1").map fun task => task.result.isSome)) =
      some (true, true, some false) := by decide +kernel
  obtain ⟨p, hp, hfacts⟩ := Option.map_eq_some_iff.mp hrun
  simp only [Prod.mk.injEq] at hfacts
  refine ⟨p, reaches_of_run (fun _ _ h => onlyCancels_sound h) hp,
    returned_of_returnedBy hfacts.1, hfacts.2.1, ?_⟩
  rintro ⟨task, result, hfind, -, hresult, -⟩
  have hnone := hfacts.2.2
  rw [hfind, Option.map_some, hresult] at hnone
  cases hnone

end OpenDaemon
