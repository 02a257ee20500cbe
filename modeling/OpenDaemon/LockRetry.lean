import OpenDaemon.ServiceDecoding
import OpenDaemon.ExecutionAuthorization

/-!
# Retries of waiting tasks

`try_acquire_directory_lock` is the first attempt and the retry. It records its
decision as a transition to `waiting_directory_lock`, which a task that already
waits is not allowed to make, and the lock row has been inserted by then. The
capacity is counted over all tasks, so a task that cannot be read stops it too.
-/

namespace OpenDaemon

open Runs Store

inductive ServerCall
  | scheduler (op : SchedulerOp) (inputs : ℕ → ServiceStep.Input)
  | admin (op : AdminOp) (now : String)

def serverStep (config : SchedulerConfig) (s : Store) : ServerCall → Option Store
  | .scheduler op inputs => some (runServiceDecoded (op.program config) inputs s).2
  | .admin (.grants op) now => some (runDecoded op.program now s).2
  | .admin (.profiles op) now => some (runDecoded op.program now s).2

section Runs
variable {config : SchedulerConfig} {s s₀ t : Store}

theorem wellFormed_serverStep {call : ServerCall} (hs : s.WellFormed)
    (hstep : serverStep config s call = some t) : t.WellFormed := by
  cases call with
  | scheduler op inputs =>
    obtain rfl := Option.some.inj hstep
    exact wellFormed_runServiceDecoded hs _ inputs
  | admin op now =>
    cases op with
    | grants op =>
      obtain rfl := Option.some.inj hstep
      rw [runDecoded_grantOp]
      exact wellFormed_grantOp hs op
    | profiles op =>
      obtain rfl := Option.some.inj hstep
      have hsame := sameTasks_decodedProfile op now s
      exact wellFormed_of_same hs hsame.tasks hsame.events

theorem wellFormed_of_serverReaches (hs : s₀.WellFormed)
    (h : Reaches (serverStep config) (fun _ _ => True) s₀ s) : s.WellFormed :=
  h.invariant hs fun _ _ _ hwf _ hstep => wellFormed_serverStep hwf hstep

end Runs

def Store.heldBy (s : Store) (taskId : String) : List DirectoryLock :=
  s.locks.filter fun lock => decide (lock.taskId = taskId) && isHeld lock

/-- A waiting task without a lock, when there is room for it and its directory is free. -/
structure Startable (config : SchedulerConfig) (s : Store) (task : Task) : Prop where
  found : s.findTask task.id = some task
  waiting : task.status = .waitingDirectoryLock
  unlocked : s.heldBy task.id = []
  capacity : s.runningOrPreparing < config.maxConcurrentTasks
  free : ∀ grant, s.findGrant task.directoryId = some grant →
    ¬ TaskStore.conflicts (s.heldLocks task.directoryId)
      (modeForCapabilities task.requiredCapabilities grant.lockPolicy)

/-- The retry lets the task go on, and a lock it acquired is the only one it holds. -/
structure Resumed (taskId : String) (decision : Except TaskValidationError LockDecision)
    (t : Store) : Prop where
  proceeds : decision = .ok .acquired ∨ decision = .ok .notRequired
  eligible : ∃ task, t.findTask taskId = some task ∧ transitionAllowed task.status .preparing
  locked : decision = .ok .acquired → (t.heldBy taskId).length = 1

def retry (config : SchedulerConfig) (inputs : ℕ → ServiceStep.Input) (task : Task)
    (mode : LockMode) (s : Store) : Except TaskValidationError LockDecision × Store :=
  runServiceDecoded
    (SchedulerService.tryAcquireDirectoryLock config ⟨task.directoryId, task.id, mode⟩) inputs s

section Retry
variable {config : SchedulerConfig} {s : Store} {task : Task} {grant : DirectoryGrant}
  {inputs : ℕ → ServiceStep.Input} {mode : LockMode}

theorem startWaiting_of_waiting (hwaiting : task.status = .waitingDirectoryLock) (reason : String)
    (decision : LockDecision) (now : String) :
    startWaiting s task reason decision now = (.error .invalidTaskState, s) := by
  simp [startWaiting, hwaiting, TaskStatus.isTerminal]

theorem retry_eq (hs : s.WellFormed) (hrows : s.tasksReadable) (h : Startable config s task) :
    retry config inputs task mode s = match s.findGrant task.directoryId with
      | none => (.error .directoryNotFound, s)
      | some grant =>
        if grant.lockPolicy = .none then (.ok .notRequired, s)
        else (.error .invalidTaskState, s.replaceLock ⟨task.directoryId, task.id,
          modeForCapabilities task.requiredCapabilities grant.lockPolicy⟩ (inputs 3).now) := by
  have hcap : ¬ config.maxConcurrentTasks ≤ s.runningOrPreparing := Nat.not_le.mpr h.capacity
  rw [retry, runServiceDecoded_tryAcquireDirectoryLock hs hrows,
    runService_tryAcquireDirectoryLock hs]
  simp only [h.found, if_neg hcap, acquires]
  cases hgrant : s.findGrant task.directoryId with
  | none => rfl
  | some grant =>
    simp only [modeForCapabilities_eq_none_iff]
    by_cases hpolicy : grant.lockPolicy = .none
    · simp only [if_pos hpolicy]
    · have hinserts : ¬ (grant.lockPolicy = .none ∨ TaskStore.conflicts
          (s.heldLocks task.directoryId)
          (modeForCapabilities task.requiredCapabilities grant.lockPolicy)) :=
        not_or.mpr ⟨hpolicy, h.free grant hgrant⟩
      simp only [if_neg hpolicy, if_neg hinserts, startWaiting_of_waiting h.waiting]

end Retry

/-- In every reachable state the retry of a waiting task succeeds exactly if all tasks can be
read and its grant asks for no lock. -/
theorem waiting_retry_iff {config : SchedulerConfig} {s : Store} {task : Task} (s₀ : StoreState)
    (hreach : Reaches (serverStep config) (fun _ _ => True) s₀.store s)
    (h : Startable config s task) (mode : LockMode) (inputs : ℕ → ServiceStep.Input) :
    Resumed task.id (retry config inputs task mode s).1 (retry config inputs task mode s).2 ↔
      s.tasksReadable ∧
        ∃ grant, s.findGrant task.directoryId = some grant ∧ grant.lockPolicy = .none := by
  have hs := wellFormed_of_serverReaches s₀.wellFormed hreach
  cases hrows : s.tasksReadable with
  | false =>
    have hunread : ∃ e, retry config inputs task mode s = (.error e, s) :=
      runServiceDecoded_tryAcquire_unread hrows
    obtain ⟨e, hrun⟩ := hunread
    rw [hrun]
    constructor
    · rintro ⟨hok | hok, -, -⟩ <;> cases hok
    · rintro ⟨hread, -⟩
      cases hread
  | true =>
    rw [retry_eq hs hrows h]
    cases hgrant : s.findGrant task.directoryId with
    | none =>
      constructor
      · rintro ⟨hok | hok, -, -⟩ <;> cases hok
      · rintro ⟨-, grant, hsome, -⟩
        cases hsome
    | some grant =>
      by_cases hpolicy : grant.lockPolicy = .none
      · simp only [if_pos hpolicy]
        refine ⟨fun _ => ⟨trivial, grant, rfl, hpolicy⟩, fun _ => ⟨.inr rfl, ⟨task, h.found, ?_⟩, ?_⟩⟩
        · rw [h.waiting]
          rfl
        · intro hacquired
          cases hacquired
      · simp only [if_neg hpolicy]
        constructor
        · rintro ⟨hok | hok, -, -⟩ <;> cases hok
        · rintro ⟨-, grant', hsome, hnone⟩
          obtain rfl := Option.some.inj hsome
          exact absurd hnone hpolicy

def pairStore (lockPolicy : DirectoryLockPolicy) : StoreState where
  store := { sampleStore.store with
    grants := [⟨1, sampleGrant⟩, ⟨2, { sampleGrant with
      id := "dir_2", capabilities := [.read], lockPolicy := lockPolicy }⟩] }
  wellFormed := wellFormed_of_same sampleStore.wellFormed rfl rfl

def waitForCapacity : List ServerCall :=
  [.enqueueTask sampleTask,
    .enqueueTask { sampleTask with
      directoryId := "dir_2", requiredCapabilities := some [.read] },
    .tryAcquireDirectoryLock ⟨"dir_1", "task_1", .exclusive⟩, .prepareWorkspace "task_1",
    .markRunning "task_1", .tryAcquireDirectoryLock ⟨"dir_2", "task_2", .shared⟩,
    .completeTask "task_1" "done"].map fun op => .scheduler op fun _ => sampleInput "t1"

def waitingRun (lockPolicy : DirectoryLockPolicy) : Option Store :=
  Runs.run (fun s call => if true then serverStep ⟨1, false⟩ s call else none)
    (pairStore lockPolicy).store waitForCapacity

theorem startable_of_waitingRun {lockPolicy : DirectoryLockPolicy}
    (h : (waitingRun lockPolicy).map (fun s => ((s.findTask "task_2").map fun task =>
        (task.status, task.directoryId), s.heldBy "task_2", s.heldLocks "dir_2",
        s.runningOrPreparing, (s.findGrant "dir_2").map DirectoryGrant.lockPolicy)) =
      some (some (.waitingDirectoryLock, "dir_2"), [], [], 0, some lockPolicy))
    (hread : (waitingRun lockPolicy).map Store.tasksReadable = some true) :
    ∃ s task grant, Reaches (serverStep ⟨1, false⟩) (fun _ _ => True) (pairStore lockPolicy).store s ∧
      Startable ⟨1, false⟩ s task ∧ s.tasksReadable ∧
      s.findGrant task.directoryId = some grant ∧ grant.lockPolicy = lockPolicy := by
  obtain ⟨s, hs, hfacts⟩ := Option.map_eq_some_iff.mp h
  simp only [Prod.mk.injEq] at hfacts
  obtain ⟨hrow, hheld, hlocks, hcount, hpolicy⟩ := hfacts
  obtain ⟨task, hfind, htask⟩ := Option.map_eq_some_iff.mp hrow
  obtain ⟨grant, hgrant, hlockPolicy⟩ := Option.map_eq_some_iff.mp hpolicy
  simp only [Prod.mk.injEq] at htask
  have hid : task.id = "task_2" := findTask_id hfind
  have hrows : s.tasksReadable := by
    rw [hs] at hread
    exact Option.some.inj hread
  refine ⟨s, task, grant, reaches_of_run (fun _ _ _ => trivial) hs, ⟨?_, htask.1, ?_, ?_, ?_⟩,
    hrows, ?_, hlockPolicy⟩
  · rw [hid]
    exact hfind
  · rw [hid]
    exact hheld
  · rw [hcount]
    decide
  · intro grant' _
    rw [htask.2, hlocks]
    exact Bool.false_ne_true
  · rw [htask.2]
    exact hgrant

set_option maxRecDepth 10000 in
theorem waiting_retry_iff_unlocked : ∃ s task,
    Reaches (serverStep ⟨1, false⟩) (fun _ _ => True) (pairStore .none).store s ∧
    Startable ⟨1, false⟩ s task ∧
    Resumed task.id (retry ⟨1, false⟩ (fun _ => sampleInput "t2") task .shared s).1
      (retry ⟨1, false⟩ (fun _ => sampleInput "t2") task .shared s).2 := by
  obtain ⟨s, task, grant, hreach, hstart, hrows, hgrant, hpolicy⟩ :=
    startable_of_waitingRun (show (waitingRun .none).map _ = _ by decide) (by decide)
  exact ⟨s, task, hreach, hstart, (waiting_retry_iff (pairStore .none) hreach hstart .shared
    fun _ => sampleInput "t2").mpr ⟨hrows, grant, hgrant, hpolicy⟩⟩

set_option maxRecDepth 10000 in
/-- The retry inserts the lock row and is then refused. -/
theorem sharedRetry_not_resumed : ∃ s task,
    Reaches (serverStep ⟨1, false⟩) (fun _ _ => True) (pairStore .shared).store s ∧
    Startable ⟨1, false⟩ s task ∧
    ¬ Resumed task.id (retry ⟨1, false⟩ (fun _ => sampleInput "t2") task .shared s).1
      (retry ⟨1, false⟩ (fun _ => sampleInput "t2") task .shared s).2 := by
  obtain ⟨s, task, grant, hreach, hstart, hrows, hgrant, hpolicy⟩ :=
    startable_of_waitingRun (show (waitingRun .shared).map _ = _ by decide) (by decide)
  have hs := wellFormed_of_serverReaches (pairStore .shared).wellFormed hreach
  refine ⟨s, task, hreach, hstart, ?_⟩
  rw [retry_eq hs hrows hstart, hgrant]
  simp only [hpolicy]
  rintro ⟨hok | hok, -, -⟩ <;> cases hok

end OpenDaemon
