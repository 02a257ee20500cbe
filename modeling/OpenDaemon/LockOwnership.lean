import OpenDaemon.Admission
import OpenDaemon.EventLog
import OpenDaemon.LockTable

/-!
# Owners of held locks

`try_acquire_directory_lock` inserts the lock row first and moves the task to
`waiting_directory_lock` in a second transaction, which only a queued task
allows. Over any sequence of complete scheduler calls the held rows belong to
tasks on their way through the scheduler, as long as no other task gets as far
as the insertion.
-/

namespace OpenDaemon

open Runs Store RowTable

inductive SchedulerOp
  | enqueueTask (input : CreateTask)
  | tryAcquireDirectoryLock (request : LockRequest)
  | markPreparing (taskId : String)
  | prepareWorkspace (taskId : String)
  | markRunning (taskId : String)
  | completeTask (taskId finalMessage : String)
  | failTask (taskId error : String)
  | cancelTask (taskId : String)
  | releaseLocks (taskId : String)

@[reducible] def SchedulerOp.Result : SchedulerOp → Type
  | .tryAcquireDirectoryLock _ => LockDecision
  | .prepareWorkspace _ => PreparedWorkspace
  | .releaseLocks _ => Unit
  | _ => Task

def SchedulerOp.program (config : SchedulerConfig) : (op : SchedulerOp) → SchedulerCall op.Result
  | .enqueueTask input => SchedulerService.enqueueTask input
  | .tryAcquireDirectoryLock request => SchedulerService.tryAcquireDirectoryLock config request
  | .markPreparing taskId => SchedulerService.markPreparing taskId
  | .prepareWorkspace taskId => SchedulerService.prepareWorkspace taskId
  | .markRunning taskId => SchedulerService.markRunning taskId
  | .completeTask taskId finalMessage => SchedulerService.completeTask taskId finalMessage
  | .failTask taskId error => SchedulerService.failTask taskId error
  | .cancelTask taskId => SchedulerService.cancelTask taskId
  | .releaseLocks taskId => SchedulerService.releaseLocks taskId

/-- One call with what the outside answers to it; its result may be `Ok` or `Err`. -/
def schedulerStep (config : SchedulerConfig) (s : Store)
    (call : SchedulerOp × (ℕ → ServiceStep.Input)) : Option Store :=
  some (runService (call.1.program config) call.2 s).2

def TaskStatus.mayHold : TaskStatus → Bool
  | .waitingDirectoryLock | .preparing | .running => true
  | _ => false

def LocksOwned (s : Store) : Prop :=
  ∀ lock ∈ s.locks, lock.Held → ∃ task, s.findTask lock.taskId = some task ∧ task.status.mayHold

structure Owned (s : Store) : Prop where
  wellFormed : s.WellFormed
  locks : LocksOwned s

section Effects
variable {s : Store} {id now : String}

theorem mayHold_of_allowed {current next : TaskStatus} (h : transitionAllowed current next)
    (hn : ¬ next.isTerminal) : next.mayHold := by
  cases next with
  | queued => rw [not_transitionAllowed_queued] at h; cases h
  | waitingDirectoryLock | preparing | running => rfl
  | completed | failed | cancelled | timedOut => exact absurd rfl hn

theorem LocksOwned.of_tasks {s' : Store} (h : LocksOwned s) (hlocks : s'.locks = s.locks)
    (hkeep : ∀ i task, s.findTask i = some task →
      ∃ task', s'.findTask i = some task' ∧ task'.status = task.status) : LocksOwned s' := by
  intro lock hlock hheld
  rw [hlocks] at hlock
  obtain ⟨task, hfind, hhold⟩ := h lock hlock hheld
  obtain ⟨task', hfind', hstatus⟩ := hkeep _ task hfind
  exact ⟨task', hfind', hstatus ▸ hhold⟩

theorem Owned.moved {task : Task} {next : TaskStatus} (h : Owned s)
    (hfind : s.findTask id = some task) (hallowed : transitionAllowed task.status next)
    (payload : Option Value) : Owned (s.moved id next payload now) := by
  refine ⟨wellFormed_moved h.wellFormed (hfind ▸ rfl) next payload, ?_⟩
  intro lock hlock hheld
  rw [moved_locks] at hlock
  by_cases hterm : next.isTerminal
  · rw [if_pos hterm] at hlock
    obtain ⟨hold, hne⟩ := mem_releaseLocks hlock hheld
    rw [moved_findTask_ne hne]
    exact h.locks lock hold hheld
  · rw [if_neg hterm] at hlock
    by_cases hid : lock.taskId = id
    · rw [hid, moved_findTask, hfind]
      exact ⟨_, rfl, mayHold_of_allowed hallowed hterm⟩
    · rw [moved_findTask_ne hid]
      exact h.locks lock hlock hheld

theorem Owned.created (h : Owned s) (row : NewTask) : Owned (s.created row now) := by
  refine ⟨wellFormed_created h.wellFormed row, h.locks.of_tasks rfl fun i task hfind => ?_⟩
  refine ⟨task, ?_, rfl⟩
  rw [created_findTask h.wellFormed, if_neg]
  · exact hfind
  · rintro rfl
    rw [findTask_next h.wellFormed] at hfind
    cases hfind

theorem Owned.updateTaskResult (h : Owned s) (result : TaskResult) :
    Owned (s.updateTaskResult id result) := by
  refine ⟨wellFormed_updateTaskResult h.wellFormed result, h.locks.of_tasks rfl ?_⟩
  intro i task hfind
  have hid := fun task : Task => task.withResult_id result
  refine ⟨if task.id = id then task.withResult result else task, ?_, ?_⟩
  · rw [Store.updateTaskResult, findTask_updateTask hid, hfind]
    rfl
  · split
    · rfl
    · rfl

theorem Owned.releaseLocks (h : Owned s) : Owned (s.releaseLocks id now) := by
  refine ⟨wellFormed_of_same h.wellFormed rfl rfl, fun lock hlock hheld => ?_⟩
  exact h.locks lock (mem_releaseLocks hlock hheld).1 hheld

theorem Owned.transition (h : Owned s) (next : TaskStatus) (payload : Option Value) :
    Owned (runAlone (TaskStore.transition id next payload) now s).2 := by
  obtain ⟨e, hr⟩ | ⟨task, -, -, -, hr⟩ | ⟨task, hfind, hallowed, hr⟩ :=
    transition_cases h.wellFormed id next payload now
  · rw [hr]
    exact h
  · rw [hr]
    exact h
  · rw [hr]
    exact h.moved hfind hallowed payload

end Effects

def ServiceStep.insertsNoLock : ServiceStep → Prop
  | .tasks (.create _) | .tasks (.get _) | .tasks (.list _) | .tasks (.transition ..)
  | .tasks (.cancel _) | .tasks (.saveResult ..) | .tasks (.releaseLocks _)
  | .grants (.get _) | .prepareWorkspace .. => True
  | _ => False

section Calls
variable {s : Store} {config : SchedulerConfig} {inputs : ℕ → ServiceStep.Input}

theorem Owned.exec (q : ServiceStep) (input : ServiceStep.Input) (s : Store)
    (hq : q.insertsNoLock) (h : Owned s) : Owned (q.exec input s).2 := by
  have hs := h.wellFormed
  cases q with
  | tasks op =>
    cases op with
    | create create =>
      simp only [ServiceStep.exec, TaskOp.program, runAlone_create hs]
      split
      · exact h
      · exact h.created _
    | get id =>
      rw [ServiceStep.exec_reads (.tasks (.get id)) trivial]
      exact h
    | list filters =>
      rw [ServiceStep.exec_reads (.tasks (.list filters)) trivial]
      exact h
    | transition id next payload => exact h.transition next payload
    | cancel id => exact h.transition .cancelled none
    | saveResult id finalMessage changedFiles =>
      simp only [ServiceStep.exec, TaskOp.program]
      obtain hr | ⟨result, hr⟩ := runAlone_saveResult (s := s) finalMessage changedFiles
      · rw [hr]
        exact h
      · rw [hr]
        exact h.updateTaskResult result
    | releaseLocks id => exact h.releaseLocks
    | saveExecutionResult _ | appendEvent _ _ _ | recordPermissionRequest _ _
    | resolvePermissionRequest _ _ _ _ | acquireLock _ => cases hq
  | grants op =>
    cases op with
    | get id =>
      rw [ServiceStep.exec_reads (.grants (.get id)) trivial]
      exact h
    | _ => cases hq
  | prepareWorkspace taskId grant mode => exact h
  | profiles op | loadRegistry | getRuntime _ | executeAdapter _ | clock => cases hq

theorem Owned.run {α : Type} {c : SchedulerCall α} (hc : c.Uses ServiceStep.insertsNoLock)
    (h : Owned s) : Owned (runService c inputs s).2 :=
  hc.run_invariant (fun q input s => Owned.exec q input s) inputs h

theorem uses_completeTask (taskId finalMessage : String) :
    (SchedulerService.completeTask taskId finalMessage).Uses ServiceStep.insertsNoLock :=
  (uses_tasks (.transition ..) trivial).bind fun _ =>
    (uses_tasks (.saveResult ..) trivial).bind fun _ => trivial

theorem uses_cancelTask (taskId : String) :
    (SchedulerService.cancelTask taskId).Uses ServiceStep.insertsNoLock := by
  refine (uses_tasks (.get taskId) trivial).bind fun task => ?_
  split
  · trivial
  · exact uses_tasks (.cancel taskId) trivial

def startWaiting (s : Store) (task : Task) (reason : String) (decision : LockDecision)
    (now : String) : Except TaskValidationError LockDecision × Store :=
  if task.status = .queued then
    (.ok decision, s.moved task.id .waitingDirectoryLock (reasonPayload reason) now)
  else if task.status.isTerminal then (.error .taskAlreadyTerminal, s)
  else (.error .invalidTaskState, s)

theorem runService_startWaiting {task : Task} (hs : s.WellFormed)
    (hfind : s.findTask task.id = some task) (reason : String) (decision : LockDecision) :
    runService (SchedulerService.tasks (.transition task.id .waitingDirectoryLock
      (reasonPayload reason)) >>= fun _ => .ret decision) inputs s =
    startWaiting s task reason decision (inputs 0).now := by
  rw [runService_tasks_bind, TaskOp.program, runAlone_transition hs, hfind]
  unfold startWaiting
  cases hstatus : task.status <;> simp [hstatus, validateTransition, transitionAllowed,
    TaskStatus.isTerminal, TaskValidationError.fromTaskStore]

def Store.runningOrPreparing (s : Store) : ℕ :=
  ((s.tasks.map Row.value).filter SchedulerService.runningOrPreparing).length

/-- The lock row that `try_acquire_directory_lock` inserts, if it gets that far. -/
def acquires (config : SchedulerConfig) (s : Store) (request : LockRequest) (task : Task) :
    Option LockRequest :=
  if config.maxConcurrentTasks ≤ s.runningOrPreparing then none
  else match s.findGrant request.directoryId with
    | none => none
    | some grant =>
      let mode := modeForCapabilities task.requiredCapabilities grant.lockPolicy
      if mode = .none ∨ TaskStore.conflicts (s.heldLocks request.directoryId) mode then none
      else some { request with mode := mode }

theorem runService_runningOrPreparingCount {β : Type} (f : ℕ → SchedulerCall β) :
    runService (SchedulerService.runningOrPreparingCount >>= f) inputs s =
      runService (f s.runningOrPreparing) (later inputs) s := by
  change (runService (SchedulerService.tasks (.list ⟨none, none, none, none⟩) >>= fun all =>
    f (all.filter SchedulerService.runningOrPreparing).length) inputs s) = _
  rw [runService_tasks_bind, TaskOp.program, runAlone_list_unfiltered]
  rfl

theorem runService_tryAcquireDirectoryLock (hs : s.WellFormed) (request : LockRequest) :
    runService (SchedulerService.tryAcquireDirectoryLock config request) inputs s =
      match s.findTask request.taskId with
      | none => (.error .taskNotFound, s)
      | some task =>
        if config.maxConcurrentTasks ≤ s.runningOrPreparing then
          startWaiting s task "global_capacity" .waiting (inputs 2).now
        else match s.findGrant request.directoryId with
          | none => (.error .directoryNotFound, s)
          | some grant =>
            if modeForCapabilities task.requiredCapabilities grant.lockPolicy = .none then
              (.ok .notRequired, s)
            else match acquires config s request task with
              | none => startWaiting s task "directory_lock" .waiting (inputs 4).now
              | some inserted => startWaiting (s.replaceLock inserted (inputs 3).now) task
                  "directory_lock_acquired" .acquired (inputs 4).now := by
  unfold SchedulerService.tryAcquireDirectoryLock
  rw [runService_tasks_bind, TaskOp.program, runAlone_get]
  cases hfind : s.findTask request.taskId with
  | none => rfl
  | some task =>
    have hself : s.findTask task.id = some task := by rw [findTask_id hfind, hfind]
    simp only [runService_runningOrPreparingCount]
    by_cases hcap : config.maxConcurrentTasks ≤ s.runningOrPreparing
    · simp only [if_pos hcap]
      exact runService_startWaiting hs hself _ _
    · simp only [if_neg hcap, runService_getGrant_bind]
      cases hgrant : s.findGrant request.directoryId with
      | none => rfl
      | some grant =>
        simp only
        by_cases hmode : modeForCapabilities task.requiredCapabilities grant.lockPolicy = .none
        · simp only [if_pos hmode]
          rfl
        · simp only [acquires, if_neg hcap, hgrant, hmode, false_or, if_false]
          rw [runService_tasks_bind, TaskOp.program, runAlone_acquireLock]
          by_cases hclash : TaskStore.conflicts (s.heldLocks request.directoryId)
              (modeForCapabilities task.requiredCapabilities grant.lockPolicy)
          · simp only [if_pos hclash]
            exact runService_startWaiting hs hself _ _
          · simp only [if_neg hclash, if_true]
            exact runService_startWaiting (s := s.replaceLock _ _) (wellFormed_of_same hs rfl rfl)
              hself _ _

def insertsForQueued (config : SchedulerConfig) (s : Store) : SchedulerOp → Bool
  | .tryAcquireDirectoryLock request =>
    (s.findTask request.taskId).all fun task =>
      (acquires config s request task).isNone || decide (task.status = .queued)
  | _ => true

theorem owned_startWaiting {task : Task} (h : Owned s) (hfind : s.findTask task.id = some task)
    (reason : String) (decision : LockDecision) (now : String) :
    Owned (startWaiting s task reason decision now).2 := by
  unfold startWaiting
  split
  · rename_i hq
    have hallowed : transitionAllowed task.status .waitingDirectoryLock := by rw [hq]; rfl
    exact h.moved hfind hallowed _
  · split <;> exact h

theorem owned_acquired {task : Task} {request : LockRequest} (h : Owned s)
    (hfind : s.findTask request.taskId = some task) (hqueued : task.status = .queued)
    (acquiredAt now reason : String) (decision : LockDecision) :
    Owned (startWaiting (s.replaceLock request acquiredAt) task reason decision now).2 := by
  have hid := findTask_id hfind
  simp only [startWaiting, if_pos hqueued]
  have hwf : (s.replaceLock request acquiredAt).WellFormed :=
    wellFormed_of_same h.wellFormed rfl rfl
  have hsame : (s.replaceLock request acquiredAt).findTask request.taskId = some task := hfind
  refine ⟨wellFormed_moved hwf (hid ▸ hsame ▸ rfl) _ _, fun lock hlock hheld => ?_⟩
  by_cases hown : lock.taskId = task.id
  · rw [hown, moved_findTask, hid, hsame]
    exact ⟨_, rfl, rfl⟩
  · rw [moved_findTask_ne hown]
    have hlock' : lock ∈ (s.replaceLock request acquiredAt).locks := by
      rw [moved_locks] at hlock
      exact hlock
    rcases mem_replaceLock.mp hlock' with ⟨hold, -⟩ | rfl
    · exact h.locks lock hold hheld
    · exact absurd hid.symm hown

theorem acquires_taskId {request inserted : LockRequest} {task : Task}
    (h : acquires config s request task = some inserted) : inserted.taskId = request.taskId := by
  unfold acquires at h
  split at h
  · cases h
  · split at h
    · cases h
    · simp only at h
      split at h
      · cases h
      · obtain rfl := Option.some.inj h
        rfl

theorem owned_tryAcquire (h : Owned s) (request : LockRequest)
    (hok : insertsForQueued config s (.tryAcquireDirectoryLock request)) :
    Owned (runService (SchedulerService.tryAcquireDirectoryLock config request) inputs s).2 := by
  rw [runService_tryAcquireDirectoryLock h.wellFormed]
  cases hfind : s.findTask request.taskId with
  | none => exact h
  | some task =>
    have hself : s.findTask task.id = some task := by rw [findTask_id hfind, hfind]
    simp only
    split
    · exact owned_startWaiting h hself _ _ _
    · split
      · exact h
      · split
        · exact h
        · cases hacq : acquires config s request task with
          | none => exact owned_startWaiting h hself _ _ _
          | some inserted =>
            -- here the row is inserted before the transition is validated
            have hqueued : task.status = .queued := by
              simpa [insertsForQueued, hfind, hacq] using hok
            exact owned_acquired h ((acquires_taskId hacq).symm ▸ hfind) hqueued _ _ _ _

theorem tryAcquire_error_unchanged (hs : s.WellFormed) (request : LockRequest)
    (hok : insertsForQueued config s (.tryAcquireDirectoryLock request)) {e : TaskValidationError}
    (he : (runService (SchedulerService.tryAcquireDirectoryLock config request) inputs s).1 =
      .error e) :
    (runService (SchedulerService.tryAcquireDirectoryLock config request) inputs s).2 = s := by
  have hwait : ∀ {t : Store} {task : Task} {reason : String} {decision : LockDecision}
      {now : String}, (startWaiting t task reason decision now).1 = .error e →
      (startWaiting t task reason decision now).2 = t ∧ task.status ≠ .queued := by
    intro t task reason decision now h
    unfold startWaiting at h ⊢
    split at h
    · cases h
    · rename_i hq
      rw [if_neg hq]
      exact ⟨by split <;> rfl, hq⟩
  rw [runService_tryAcquireDirectoryLock hs] at he ⊢
  cases hfind : s.findTask request.taskId with
  | none => rfl
  | some task =>
    simp only [hfind] at he ⊢
    split at he
    · rename_i hcap
      rw [if_pos hcap]
      exact (hwait he).1
    · rename_i hcap
      rw [if_neg hcap]
      cases hgrant : s.findGrant request.directoryId with
      | none => rfl
      | some grant =>
        simp only [hgrant] at he ⊢
        split at he
        · cases he
        · rename_i hmode
          rw [if_neg hmode]
          cases hacq : acquires config s request task with
          | none =>
            simp only [hacq] at he
            exact (hwait he).1
          | some inserted =>
            have hqueued : task.status = .queued := by
              simpa [insertsForQueued, hfind, hacq] using hok
            simp only [hacq] at he
            exact absurd hqueued (hwait he).2

end Calls

section Runs
variable {config : SchedulerConfig} {s₀ s : Store}

def InsertsForQueued (config : SchedulerConfig) (s : Store)
    (call : SchedulerOp × (ℕ → ServiceStep.Input)) : Prop :=
  insertsForQueued config s call.1

theorem owned_schedulerStep {call : SchedulerOp × (ℕ → ServiceStep.Input)} {t : Store}
    (h : Owned s) (hok : InsertsForQueued config s call)
    (hstep : schedulerStep config s call = some t) : Owned t := by
  obtain rfl := Option.some.inj hstep
  obtain ⟨op, inputs⟩ := call
  cases op with
  | enqueueTask input =>
    simp only [SchedulerOp.program, runService_enqueueTask h.wellFormed]
    split
    · exact h
    · exact h.created _
  | tryAcquireDirectoryLock request => exact owned_tryAcquire h request hok
  | markPreparing taskId => exact h.run (uses_tasks (.transition ..) trivial)
  | prepareWorkspace taskId => exact h.run (uses_prepareWorkspace (fun _ => trivial)
      (fun _ => trivial) (fun _ _ => trivial) fun _ _ _ => trivial)
  | markRunning taskId => exact h.run (uses_tasks (.transition ..) trivial)
  | completeTask taskId finalMessage => exact h.run (uses_completeTask taskId finalMessage)
  | failTask taskId error => exact h.run (uses_tasks (.transition ..) trivial)
  | cancelTask taskId => exact h.run (uses_cancelTask taskId)
  | releaseLocks taskId => exact h.run (uses_tasks (.releaseLocks _) trivial)

structure LockOwnership (config : SchedulerConfig) (s : Store) : Prop where
  owners : LocksOwned s
  refused : ∀ request inputs e,
    InsertsForQueued config s (.tryAcquireDirectoryLock request, inputs) →
    (runService (SchedulerService.tryAcquireDirectoryLock config request) inputs s).1 = .error e →
    let s' := (runService (SchedulerService.tryAcquireDirectoryLock config request) inputs s).2
    s'.locks = s.locks ∧ s'.tasks = s.tasks ∧ s'.events = s.events

/-- In every sequence of complete calls in which only queued tasks get as far as the
insertion of a lock row, ownership holds throughout. -/
theorem lock_ownership (s₀ : StoreState) (h₀ : LocksOwned s₀.store)
    (h : Reaches (schedulerStep config) (InsertsForQueued config) s₀.store s) :
    LockOwnership config s := by
  have howned : Owned s := h.invariant ⟨s₀.wellFormed, h₀⟩ fun s call t hs hok hstep =>
    owned_schedulerStep hs hok hstep
  refine ⟨howned.locks, fun request inputs e hok he => ?_⟩
  simp only [tryAcquire_error_unchanged howned.wellFormed request hok he, and_self]

def sampleGrant : DirectoryGrant where
  id := "dir_1"
  productId := "acme"
  agentId := "reviewer"
  path := "/srv/repo"
  capabilities := [.read, .write, .shell]
  workspaceModes := [.worktree]
  defaultWorkspaceMode := .worktree
  lockPolicy := .exclusive
  directModeRequiresExplicitTaskOptIn := true
  allowRemoteExecution := false
  createdAt := "t0"
  updatedAt := "t0"

def sampleProfile : AgentProfile where
  id := "reviewer"
  name := "Reviewer"
  ownerProductId := "acme"
  providerId := "codex"
  model := "default"
  instructions := none
  executionPolicy := ⟨.worktree, false⟩
  providerConfig := ⟨[], [], none, "provider_default"⟩
  createdAt := "t0"
  updatedAt := "t0"

def sampleStore : StoreState where
  store := { Store.empty with grants := [⟨1, sampleGrant⟩], profiles := [sampleProfile] }
  wellFormed := wellFormed_of_same wellFormed_empty rfl rfl

def sampleWorkspace : PreparedWorkspace :=
  ⟨.worktree, "/srv/repo/wt", "dir_1", some "/srv/repo/wt", none⟩

def sampleOutcome : RuntimeExecutionOutcome :=
  ⟨.completed, "done", [], none, none, none, none, none, []⟩

def sampleInput (now : String) : ServiceStep.Input :=
  ⟨now, none, none, .ok sampleWorkspace, sampleOutcome⟩

def schedulerRun (check : Store → SchedulerOp → Bool) (config : SchedulerConfig)
    (ops : List SchedulerOp) : Option Store :=
  Runs.run (fun s (call : SchedulerOp × (ℕ → ServiceStep.Input)) =>
      if check s call.1 then schedulerStep config s call else none)
    sampleStore.store (ops.map fun op => (op, fun _ => sampleInput "t1"))

theorem lock_ownership_executed : ∃ s,
    s.locks = [⟨"dir_1", "task_1", .exclusive, .held, "t1", none⟩] ∧
    LockOwnership ⟨1, false⟩ s := by
  have hrun : (schedulerRun (insertsForQueued ⟨1, false⟩) ⟨1, false⟩
      [.enqueueTask sampleTask, .tryAcquireDirectoryLock ⟨"dir_1", "task_1", .exclusive⟩,
        .prepareWorkspace "task_1", .markRunning "task_1"]).map Store.locks =
      some [⟨"dir_1", "task_1", .exclusive, .held, "t1", none⟩] := by decide
  obtain ⟨s, hs, hlocks⟩ := Option.map_eq_some_iff.mp hrun
  have hreach : Reaches (schedulerStep ⟨1, false⟩) (InsertsForQueued ⟨1, false⟩)
      sampleStore.store s := reaches_of_run (fun _ _ h => h) hs
  exact ⟨s, hlocks, lock_ownership sampleStore (fun lock hlock => by cases hlock) hreach⟩

def lateAcquire (s : Store) : Except TaskValidationError LockDecision × Store :=
  runService (SchedulerService.tryAcquireDirectoryLock ⟨1, false⟩
    ⟨"dir_1", "task_1", .exclusive⟩) (fun _ => sampleInput "t2") s

/-- A cancelled task is given a lock and its transition is refused afterwards. -/
theorem lateAcquire_not_owned : ∃ s,
    Reaches (schedulerStep ⟨1, false⟩) (fun _ _ => True) sampleStore.store s ∧
    (lateAcquire s).1 = .error .taskAlreadyTerminal ∧ (lateAcquire s).2.locks ≠ s.locks ∧
    ¬ LocksOwned (lateAcquire s).2 := by
  have hrun : (schedulerRun (fun _ _ => true) ⟨1, false⟩
      [.enqueueTask sampleTask, .cancelTask "task_1"]).map (fun s =>
        (s.locks, (lateAcquire s).1, (lateAcquire s).2.locks,
          ((lateAcquire s).2.findTask "task_1").map Task.status)) =
      some ([], .error .taskAlreadyTerminal,
        [⟨"dir_1", "task_1", .exclusive, .held, "t2", none⟩], some .cancelled) := by decide
  obtain ⟨s, hs, hafter⟩ := Option.map_eq_some_iff.mp hrun
  simp only [Prod.mk.injEq] at hafter
  obtain ⟨hbefore, herror, hlocks, hstatus⟩ := hafter
  refine ⟨s, reaches_of_run (fun _ _ _ => trivial) hs, herror, ?_, fun howned => ?_⟩
  · rw [hbefore, hlocks]
    decide
  · have hmem : ⟨"dir_1", "task_1", .exclusive, .held, "t2", none⟩ ∈ (lateAcquire s).2.locks := by
      rw [hlocks]
      exact List.mem_cons_self
    obtain ⟨task, hfind, hhold⟩ := howned _ hmem rfl
    rw [hfind, Option.map_some] at hstatus
    rw [Option.some.inj hstatus] at hhold
    cases hhold

end Runs

end OpenDaemon
