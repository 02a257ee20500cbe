import Mathlib.Data.List.Nodup
import OpenDaemon.ExecutionExclusion
import OpenDaemon.ServiceInvariant

/-!
# The global capacity bound

The count of preparing and running tasks is read when a lock is acquired, and a
task that was let through is counted only once it is prepared. A task that has
passed the check and is not yet preparing occupies a slot that the count does
not show; the bound holds as long as every check that lets a further task
through is made while a slot is left besides those.
-/

namespace OpenDaemon

open Runs Interleaving Store Call

inductive CapacityOp
  | tryAcquireDirectoryLock (request : LockRequest)
  | markPreparing (taskId : String)
  | prepareWorkspace (taskId : String)
  | markRunning (taskId : String)
  | completeTask (taskId finalMessage : String)
  | failTask (taskId error : String)
  | cancelTask (taskId : String)
  | executeTask (taskId : String)

namespace CapacityOp

@[reducible] def Result : CapacityOp → Type
  | .tryAcquireDirectoryLock _ => LockDecision
  | .prepareWorkspace _ => PreparedWorkspace
  | _ => Task

def program (config : SchedulerConfig) : (op : CapacityOp) → ExecutionCall op.Result
  | .tryAcquireDirectoryLock request =>
    ExecutionService.scheduler (SchedulerService.tryAcquireDirectoryLock config request)
  | .markPreparing taskId => ExecutionService.scheduler (SchedulerService.markPreparing taskId)
  | .prepareWorkspace taskId =>
    ExecutionService.scheduler (SchedulerService.prepareWorkspace taskId)
  | .markRunning taskId => ExecutionService.scheduler (SchedulerService.markRunning taskId)
  | .completeTask taskId finalMessage =>
    ExecutionService.scheduler (SchedulerService.completeTask taskId finalMessage)
  | .failTask taskId error => ExecutionService.scheduler (SchedulerService.failTask taskId error)
  | .cancelTask taskId => ExecutionService.scheduler (SchedulerService.cancelTask taskId)
  | .executeTask taskId => ExecutionService.executeTask config taskId

def taskId : CapacityOp → String
  | .tryAcquireDirectoryLock request => request.taskId
  | .markPreparing taskId | .prepareWorkspace taskId | .markRunning taskId
  | .completeTask taskId _ | .failTask taskId _ | .cancelTask taskId | .executeTask taskId => taskId

def onlyPrepares : CapacityOp → Bool
  | .markPreparing _ | .prepareWorkspace _ => true
  | _ => false

end CapacityOp

abbrev CapacityThread : Type := Thread ServiceStep.Answer ExecutionError CapacityOp.Result

abbrev CapacityPool : Type := Pool Store ServiceStep.Answer ExecutionError CapacityOp.Result

abbrev CapacityAction : Type := Action CapacityOp ServiceStep.Input

/-- The calls in progress, and the tasks that a capacity check has let through so far. -/
structure Admissions where
  pool : CapacityPool
  admitted : List String

def checksCapacity : ServiceStep → Bool
  | .tasks (.list _) => true
  | _ => false

/-- The task that the action lets through: its call reads the count and finds room. -/
def letsThrough (config : SchedulerConfig) (p : CapacityPool) : CapacityAction → Option String
  | .spawn _ => none
  | .advance i _ =>
    match p.threads[i]? with
    | some ⟨op, .step q _⟩ =>
      if checksCapacity q ∧ p.shared.runningOrPreparing < config.maxConcurrentTasks
      then some op.taskId else none
    | _ => none

def capacityStep (config : SchedulerConfig) (x : Admissions) (a : CapacityAction) :
    Option Admissions :=
  (step (CapacityOp.program config) ServiceStep.exec x.pool a).map fun p =>
    ⟨p, x.admitted ++ (letsThrough config x.pool a).toList⟩

/-- A slot is taken by a preparing or running task, and by a task that was let through. -/
def occupies (admitted : List String) (row : String × TaskStatus) : Bool :=
  match row.2 with
  | .preparing | .running => true
  | .queued | .waitingDirectoryLock => decide (row.1 ∈ admitted)
  | _ => false

def Admissions.occupied (x : Admissions) : ℕ :=
  x.pool.shared.statusRows.countP (occupies x.admitted)

/-- Some call of `try_acquire_directory_lock` for the task has returned `Acquired` or
`NotRequired`. -/
def Claimed (p : CapacityPool) (id : String) : Prop :=
  ∃ request decision, (⟨.tryAcquireDirectoryLock request, .ret decision⟩ : CapacityThread) ∈
    p.threads ∧ request.taskId = id ∧ decision ≠ .waiting

/-- A task proceeds to `preparing` only after its own acquisition. -/
def PreparesClaimed (x : Admissions) : CapacityAction → Prop
  | .spawn _ => True
  | .advance i _ => ∀ op q k id, x.pool.threads[i]? = some ⟨op, .step q k⟩ → op.onlyPrepares →
      q.target? = some (id, .preparing) → Claimed x.pool id

/-- A further task is let through only while a slot is left. -/
def LeavesSlot (config : SchedulerConfig) (x : Admissions) (a : CapacityAction) : Prop :=
  ∀ id, letsThrough config x.pool a = some id →
    id ∈ x.admitted ∨ x.occupied < config.maxConcurrentTasks

section Slots
variable {s : Store} {admitted : List String} {id : String} {next : TaskStatus}

theorem runningOrPreparing_eq : s.runningOrPreparing = s.statusRows.countP (occupies []) := by
  rw [Store.runningOrPreparing, ← List.countP_eq_length_filter, Store.statusRows,
    List.countP_map, List.countP_map]
  refine List.countP_congr fun r _ => ?_
  simp only [Function.comp, SchedulerService.runningOrPreparing, occupies]
  cases r.value.status <;> simp

theorem runningOrPreparing_le : s.runningOrPreparing ≤ s.statusRows.countP (occupies admitted) := by
  rw [runningOrPreparing_eq]
  refine List.countP_mono_left fun row _ hrow => ?_
  unfold occupies at hrow ⊢
  split <;> simp_all

theorem occupies_append_of_mem {row : String × TaskStatus} (hid : id ∈ admitted) :
    occupies (admitted ++ [id]) row = occupies admitted row := by
  have hmem : row.1 ∈ admitted ++ [id] ↔ row.1 ∈ admitted := by
    rw [List.mem_append, List.mem_singleton]
    exact ⟨fun h => h.elim (fun h => h) fun h => h ▸ hid, .inl⟩
  unfold occupies
  split <;> simp only [hmem]

theorem occupied_append (hs : s.WellFormed) : s.statusRows.countP (occupies (admitted ++ [id])) ≤
    s.statusRows.countP (occupies admitted) + 1 := by
  have hone : s.statusRows.countP (fun row => decide (row.1 = id)) ≤ 1 := by
    have hnodup := hs.taskKeys.nodup (RowTable.rowKey_injective "task_")
    have hcount : s.statusRows.countP (fun row => decide (row.1 = id)) =
        (s.tasks.map fun r => r.value.id).count id := by
      rw [List.count, Store.statusRows, List.countP_map, List.countP_map]
      refine List.countP_congr fun r _ => ?_
      simp
    rw [hcount]
    exact List.nodup_iff_count_le_one.mp hnodup id
  have hsum : s.statusRows.countP (occupies (admitted ++ [id])) ≤
      s.statusRows.countP (occupies admitted) +
        s.statusRows.countP fun row => decide (row.1 = id) := by
    induction s.statusRows with
    | nil => exact Nat.le_refl 0
    | cons row rows ih =>
      have hrow : occupies (admitted ++ [id]) row → occupies admitted row ∨ row.1 = id := by
        unfold occupies
        split <;> simp
      simp only [List.countP_cons]
      by_cases hnew : occupies (admitted ++ [id]) row
      · rcases hrow hnew with hold | hid
        · simp only [hnew, hold, if_true]
          omega
        · simp only [hnew, hid, decide_true, if_true]
          omega
      · rw [if_neg hnew]
        omega
  omega

theorem occupies_of_allowed {current : TaskStatus} (hallowed : transitionAllowed current next)
    (hclaimed : next = .preparing → id ∈ admitted) (h : occupies admitted (id, next)) :
    occupies admitted (id, current) := by
  cases next with
  | queued =>
    rw [not_transitionAllowed_queued] at hallowed
    cases hallowed
  | waitingDirectoryLock =>
    rw [transitionAllowed_waiting.mp hallowed]
    exact h
  | preparing =>
    have hwaiting : current = .waitingDirectoryLock := by
      cases current <;> first | rfl | cases hallowed
    rw [hwaiting]
    exact decide_eq_true (hclaimed rfl)
  | running =>
    rw [transitionAllowed_running.mp hallowed]
    rfl
  | completed | failed | cancelled | timedOut => cases h

theorem occupied_moved {task : Task} (hs : s.WellFormed) (hfind : s.findTask id = some task)
    (hallowed : transitionAllowed task.status next)
    (hclaimed : next = .preparing → id ∈ admitted) :
    (s.statusRows.map fun row => if row.1 = id then (row.1, next) else row).countP
      (occupies admitted) ≤ s.statusRows.countP (occupies admitted) := by
  rw [List.countP_map]
  refine List.countP_mono_left fun row hrow hnew => ?_
  obtain ⟨r, hr, rfl⟩ := List.mem_map.mp hrow
  by_cases hid : r.value.id = id
  · have hself := hs.mem_findTask hr
    rw [hid, hfind] at hself
    simp only [Function.comp, hid, if_true] at hnew ⊢
    rw [← Option.some.inj hself]
    exact occupies_of_allowed hallowed hclaimed hnew
  · simpa only [Function.comp, hid, if_false] using hnew

end Slots

namespace Capacity

def unfiltered : TaskFilters := ⟨none, none, none, none⟩

def passes (config : SchedulerConfig) : (q : ServiceStep) → q.Answer → Bool
  | .tasks (.list _), .ok all =>
    decide ((all.filter SchedulerService.runningOrPreparing).length < config.maxConcurrentTasks)
  | _, _ => false

def observe (config : SchedulerConfig) (m : Bool) (q : ServiceStep) (a : q.Answer) : Bool :=
  m || passes config q a

structure Allowed (op : CapacityOp) (m : Bool) (q : ServiceStep) : Prop where
  schedules : q.schedules
  counts : ∀ filters, q = .tasks (.list filters) → filters = unfiltered
  prepares : ∀ id, q.target? = some (id, .preparing) → id = op.taskId ∧ (op.onlyPrepares ∨ m)

def Ends : (op : CapacityOp) → Bool → op.Result → Prop
  | .tryAcquireDirectoryLock _, m, decision => decision ≠ .waiting → m
  | _, _, _ => True

variable {config : SchedulerConfig} {op : CapacityOp} {ε α β : Type} {m : Bool}

def Quiet (q : ServiceStep) : Prop :=
  q.schedules ∧ (∀ filters, q = .tasks (.list filters) → filters = unfiltered) ∧
    ∀ id, q.target? ≠ some (id, .preparing)

def Own (taskId : String) (q : ServiceStep) : Prop :=
  q.schedules ∧ (∀ filters, q = .tasks (.list filters) → filters = unfiltered) ∧
    ∀ id, q.target? = some (id, .preparing) → id = taskId

theorem Quiet.allowed {q : ServiceStep} (h : Quiet q) (m : Bool) : Allowed op m q :=
  ⟨h.1, h.2.1, fun id hid => absurd hid (h.2.2 id)⟩

theorem quiet_read {q : ServiceStep} (h : q.schedules) (hlist : ∀ filters, q ≠ .tasks (.list filters))
    (htarget : q.target? = none) : Quiet q :=
  ⟨h, fun filters hq => absurd hq (hlist filters), fun id hid => by rw [htarget] at hid; cases hid⟩

theorem quiet_transition {id : String} {next : TaskStatus} {payload : Option Value}
    (h : next ≠ .preparing) : Quiet (.tasks (.transition id next payload)) :=
  ⟨trivial, fun _ hq => (by cases hq),
    fun _ hid => h (congrArg Prod.snd (Option.some.inj hid))⟩

theorem monitored_quiet {c : ServiceCall ε α} {post : Bool → α → Prop} (hc : c.Uses Quiet)
    (hpost : ∀ m a, post m a) : Monitored (observe config) (Allowed op) post m c :=
  .of_uses (J := fun _ => True) (fun _ _ _ _ => trivial) (fun m _ _ hq => hq.allowed m)
    (fun m a _ => hpost m a) hc trivial

theorem monitored_passed {c : ServiceCall ε α} {post : Bool → α → Prop}
    (hc : c.Uses (Own op.taskId)) (hpost : ∀ a, post true a) :
    Monitored (observe config) (Allowed op) post true c := by
  refine .of_uses (J := fun m => m = true) ?_ ?_ ?_ hc rfl
  · rintro m q a rfl
    rfl
  · rintro m q rfl hq
    exact ⟨hq.1, hq.2.1, fun id hid => ⟨hq.2.2 id hid, .inr rfl⟩⟩
  · rintro m a rfl
    exact hpost a

theorem quiet_get (id : String) : Quiet (.tasks (.get id)) :=
  quiet_read trivial (fun _ h => by cases h) rfl

theorem quiet_getGrant (id : String) : Quiet (.grants (.get id)) :=
  quiet_read trivial (fun _ h => by cases h) rfl

theorem quiet_acquireLock (request : LockRequest) : Quiet (.tasks (.acquireLock request)) :=
  quiet_read trivial (fun _ h => by cases h) rfl

theorem Quiet.own {q : ServiceStep} (h : Quiet q) (taskId : String) : Own taskId q :=
  ⟨h.1, h.2.1, fun id hid => absurd hid (h.2.2 id)⟩

theorem own_transition {taskId : String} {next : TaskStatus} {payload : Option Value} :
    Own taskId (.tasks (.transition taskId next payload)) :=
  ⟨trivial, fun _ hq => (by cases hq),
    fun _ hid => (congrArg Prod.fst (Option.some.inj hid)).symm⟩

theorem monitored_count {f : ℕ → SchedulerCall β} {post : Bool → β → Prop}
    (h : ∀ count m', (count < config.maxConcurrentTasks → m' = true) →
      Monitored (observe config) (Allowed op) post m' (f count)) :
    Monitored (observe config) (Allowed op) post m
      (SchedulerService.runningOrPreparingCount >>= f) := by
  refine ⟨⟨trivial, fun filters hq => ?_, fun id hid => ?_⟩, fun answer => ?_⟩
  · exact (TaskOp.list.inj (ServiceStep.tasks.inj hq)).symm
  · cases hid
  · cases answer with
    | ok all =>
      refine h _ _ fun hlt => ?_
      have hpasses : passes config (.tasks (.list unfiltered)) (.ok all) = true := decide_eq_true hlt
      exact (congrArg (m || ·) hpasses).trans (Bool.or_true m)
    | error e => trivial

theorem monitored_tryAcquire (request : LockRequest) :
    Monitored (observe config) (Allowed op) (fun m decision => decision ≠ .waiting → m = true) m
      (SchedulerService.tryAcquireDirectoryLock config request) := by
  refine Monitored.bind (monitored_quiet (uses_tasks _ (quiet_get _)) fun m task => ?_)
  refine monitored_count fun count m' hpassed => ?_
  split
  · refine Monitored.bind (monitored_quiet (uses_tasks _ (quiet_transition (by decide)))
      fun _ _ hne => absurd rfl hne)
  · rename_i hcount
    rw [hpassed (Nat.not_le.mp hcount)]
    refine monitored_passed (Call.Uses.bind (uses_getGrant ((quiet_getGrant _).own _))
      fun grant => ?_) fun _ _ => rfl
    have howned : ∀ id reason (decision : LockDecision), (do
        let _ ← SchedulerService.tasks (.transition id .waitingDirectoryLock
          (reasonPayload reason))
        return decision : SchedulerCall LockDecision).Uses (Own op.taskId) :=
      fun _ _ _ => (uses_tasks _ ((quiet_transition (by decide)).own _)).bind fun _ => trivial
    dsimp only
    split
    · trivial
    · refine (uses_tasks _ ((quiet_acquireLock _).own _)).bind fun acquired => ?_
      split
      · exact howned ..
      · exact howned ..

theorem own_read {taskId : String} {q : ServiceStep} (h : q.schedules)
    (hlist : ∀ filters, q ≠ .tasks (.list filters)) (htarget : q.target? = none) : Own taskId q :=
  (quiet_read h hlist htarget).own taskId

theorem uses_own_prepareWorkspace (taskId : String) :
    (SchedulerService.prepareWorkspace taskId).Uses (Own taskId) :=
  uses_prepareWorkspace (fun _ => (quiet_get _).own _) (fun _ => (quiet_getGrant _).own _)
    (fun _ _ => own_transition) fun _ _ _ => own_read trivial (fun _ h => by cases h) rfl

theorem uses_own_persistOutcome (taskId : String) (outcome : RuntimeExecutionOutcome)
    (workspace : PreparedWorkspace) :
    (ExecutionService.persistOutcome taskId outcome workspace).Uses (Own taskId) :=
  uses_persistOutcome (fun _ => (quiet_get _).own _)
    (fun _ _ => own_read trivial (fun _ h => by cases h) rfl) (fun _ _ => own_transition)
    (fun _ => own_read trivial (fun _ h => by cases h) rfl)
    (own_read trivial (fun _ h => by cases h) rfl) outcome workspace

theorem monitored_acquireDirectoryLock (task : Task) :
    Monitored (observe config) (Allowed op) (fun m _ => m = true) m
      (ExecutionService.acquireDirectoryLock config task) := by
  refine Monitored.bind (((monitored_tryAcquire _).mapError _).post fun m decision h => ?_)
  cases decision with
  | acquired => exact h (by decide)
  | notRequired => exact h (by decide)
  | waiting => trivial

theorem monitored_runTask {taskId : String} (hop : op.taskId = taskId) (task : Task)
    (profile : AgentProfile) (grant : DirectoryGrant) (manifest : ProviderManifest)
    (runtime : RuntimeView) (executable : String) {post : Bool → Task → Prop}
    (hpost : ∀ m a, post m a) :
    Monitored (observe config) (Allowed op) post m
      (ExecutionService.runTask config taskId task profile grant manifest runtime executable) := by
  subst hop
  refine Monitored.bind ((monitored_acquireDirectoryLock task).post fun m _ hm => ?_)
  rw [hm]
  refine monitored_passed (Call.Uses.bind ((uses_own_prepareWorkspace _).mapError _)
    fun workspace => ?_) (hpost true)
  refine Call.Uses.bind ((uses_tasks _ own_transition).mapError _) fun _ =>
    (uses_ofExcept _).bind fun _ => (uses_executionTasks _ ((quiet_get _).own _)).bind
    fun current => ⟨own_read trivial (fun _ h => by cases h) rfl, fun outcome => ?_⟩
  exact uses_own_persistOutcome _ outcome workspace

theorem monitored_executeTask {taskId : String} (hop : op.taskId = taskId)
    {post : Bool → Task → Prop} (hpost : ∀ m a, post m a) :
    Monitored (observe config) (Allowed op) post m
      (ExecutionService.executeTask config taskId) := by
  refine Monitored.bind (monitored_quiet (uses_executionTasks _ (quiet_get _)) fun m task => ?_)
  split
  · trivial
  refine Monitored.bind (monitored_quiet (uses_getProfile
    (quiet_read trivial (fun _ h => by cases h) rfl)) fun m profile => ?_)
  refine Monitored.bind (monitored_quiet (uses_executionGrant (quiet_getGrant _)) fun m grant => ?_)
  refine Monitored.bind (monitored_quiet (uses_loadRegistry
    (quiet_read trivial (fun _ h => by cases h) rfl)) fun m registry => ?_)
  refine Monitored.bind (monitored_quiet (uses_ofExcept _) fun m manifest => ?_)
  refine Monitored.bind (monitored_quiet (uses_getRuntime manifest
    (quiet_read trivial (fun _ h => by cases h) rfl)) fun m runtime => ?_)
  refine Monitored.bind (monitored_quiet (uses_ofExcept _) fun m executable => ?_)
  exact monitored_runTask hop task profile grant manifest runtime executable hpost

theorem monitored_onlyPrepares {c : ServiceCall ε α} {post : Bool → α → Prop}
    (hop : op.onlyPrepares) (hc : c.Uses (Own op.taskId)) (hpost : ∀ m a, post m a) :
    Monitored (observe config) (Allowed op) post m c :=
  .of_uses (J := fun _ => True) (fun _ _ _ _ => trivial)
    (fun _ _ _ hq => ⟨hq.1, hq.2.1, fun id hid => ⟨hq.2.2 id hid, .inl hop⟩⟩)
    (fun m a _ => hpost m a) hc trivial

theorem quiet_cancel (id : String) : Quiet (.tasks (.cancel id)) :=
  ⟨trivial, fun _ hq => (by cases hq), fun _ hid => (by cases hid)⟩

theorem uses_quiet_cancelTask (taskId : String) :
    (SchedulerService.cancelTask taskId).Uses Quiet := by
  refine (uses_tasks _ (quiet_get _)).bind fun task => ?_
  split
  · trivial
  · exact uses_tasks _ (quiet_cancel _)

theorem monitored_program (op : CapacityOp) :
    Monitored (observe config) (Allowed op) (Ends op) false (op.program config) := by
  cases op with
  | tryAcquireDirectoryLock request => exact (monitored_tryAcquire request).mapError _
  | executeTask taskId => exact monitored_executeTask rfl fun _ _ => trivial
  | markPreparing taskId =>
    exact monitored_onlyPrepares rfl ((uses_tasks _ own_transition).mapError _) fun _ _ => trivial
  | prepareWorkspace taskId =>
    exact monitored_onlyPrepares rfl ((uses_own_prepareWorkspace taskId).mapError _)
      fun _ _ => trivial
  | completeTask taskId finalMessage =>
    refine monitored_quiet (Call.Uses.mapError ?_ _) fun _ _ => trivial
    exact (uses_tasks _ (quiet_transition (by decide))).bind fun task =>
      (uses_tasks (.saveResult taskId finalMessage [])
        (quiet_read trivial (fun _ h => by cases h) rfl)).bind fun _ => trivial
  | cancelTask taskId =>
    exact monitored_quiet ((uses_quiet_cancelTask taskId).mapError _) fun _ _ => trivial
  | markRunning taskId | failTask taskId error =>
    exact monitored_quiet ((uses_tasks _ (quiet_transition (by decide))).mapError _)
      fun _ _ => trivial

def Cleared (config : SchedulerConfig) (admitted : List String) (t : CapacityThread) : Prop :=
  ∃ m, Monitored (observe config) (Allowed t.op) (Ends t.op) m t.rest ∧
    (m = true → t.op.taskId ∈ admitted)

structure Bounded (config : SchedulerConfig) (x : Admissions) : Prop where
  wellFormed : x.pool.shared.WellFormed
  cleared : ∀ t ∈ x.pool.threads, Cleared config x.admitted t
  slots : x.occupied ≤ config.maxConcurrentTasks

theorem Cleared.append {admitted : List String} {t : CapacityThread}
    (h : Cleared config admitted t) (ids : List String) : Cleared config (admitted ++ ids) t := by
  obtain ⟨m, hmonitored, hpassed⟩ := h
  exact ⟨m, hmonitored, fun hm => List.mem_append_left _ (hpassed hm)⟩

theorem cleared_claimed {x : Admissions} (hx : Bounded config x) {id : String}
    (h : Claimed x.pool id) : id ∈ x.admitted := by
  obtain ⟨request, decision, hmem, rfl, hdecision⟩ := h
  obtain ⟨m, hends, hpassed⟩ := hx.cleared _ hmem
  exact hpassed (hends hdecision)

theorem passes_exec {s : Store} {q : ServiceStep} (input : ServiceStep.Input)
    (hcounts : ∀ filters, q = .tasks (.list filters) → filters = unfiltered)
    (h : passes config q (q.exec input s).1 = true) :
    checksCapacity q ∧ s.runningOrPreparing < config.maxConcurrentTasks := by
  cases q with
  | tasks op =>
    cases op with
    | list filters =>
      obtain rfl := hcounts filters rfl
      change passes config (.tasks (.list unfiltered))
        (runAlone (TaskStore.list unfiltered) input.now s).1 = true at h
      rw [unfiltered, runAlone_list_unfiltered] at h
      exact ⟨rfl, of_decide_eq_true h⟩
    | _ => cases h
  | _ => cases h

theorem bounded_initial {s : StoreState}
    (h : s.store.runningOrPreparing ≤ config.maxConcurrentTasks) :
    Bounded config ⟨⟨s.store, []⟩, []⟩ := by
  refine ⟨s.wellFormed, fun t ht => (by cases ht), ?_⟩
  rw [runningOrPreparing_eq] at h
  exact h

theorem bounded_spawn {x : Admissions} (hx : Bounded config x) (op : CapacityOp) :
    Bounded config ⟨⟨x.pool.shared, x.pool.threads ++ [⟨op, op.program config⟩]⟩, x.admitted⟩ := by
  refine ⟨hx.wellFormed, fun t ht => ?_, hx.slots⟩
  rcases List.mem_append.mp ht with ht | ht
  · exact hx.cleared t ht
  · obtain rfl := List.mem_singleton.mp ht
    exact ⟨false, monitored_program op, fun h => (by cases h)⟩

section Advance
variable {x : Admissions} {i : ℕ} {input : ServiceStep.Input} {q : ServiceStep}
  {k : q.Answer → ExecutionCall op.Result}

theorem letsThrough_of_passes (hi : x.pool.threads[i]? = some ⟨op, .step q k⟩)
    (hcounts : ∀ filters, q = .tasks (.list filters) → filters = unfiltered)
    (h : passes config q (q.exec input x.pool.shared).1 = true) :
    letsThrough config x.pool (.advance i input) = some op.taskId := by
  simp only [letsThrough, hi]
  exact if_pos (passes_exec input hcounts h)

theorem occupied_letsThrough {a : CapacityAction} (hx : Bounded config x)
    (hslot : LeavesSlot config x a) :
    x.pool.shared.statusRows.countP
      (occupies (x.admitted ++ (letsThrough config x.pool a).toList)) ≤
      config.maxConcurrentTasks := by
  cases hlets : letsThrough config x.pool a with
  | none =>
    rw [Option.toList_none, List.append_nil]
    exact hx.slots
  | some id =>
    rw [Option.toList_some]
    rcases hslot id hlets with hid | hroom
    · rw [List.countP_congr fun row _ => by rw [occupies_append_of_mem hid]]
      exact hx.slots
    · have happend : x.pool.shared.statusRows.countP (occupies (x.admitted ++ [id])) ≤
          x.pool.shared.statusRows.countP (occupies x.admitted) + 1 := occupied_append hx.wellFormed
      unfold Admissions.occupied at hroom
      omega

theorem bounded_advance (hx : Bounded config x) (hi : x.pool.threads[i]? = some ⟨op, .step q k⟩)
    (hclaimed : PreparesClaimed x (.advance i input))
    (hslot : LeavesSlot config x (.advance i input)) :
    Bounded config ⟨⟨(q.exec input x.pool.shared).2,
      x.pool.threads.set i ⟨op, k (q.exec input x.pool.shared).1⟩⟩,
      x.admitted ++ (letsThrough config x.pool (.advance i input)).toList⟩ := by
  obtain ⟨m, ⟨hallowed, hnext⟩, hpassed⟩ := hx.cleared _ (List.mem_of_getElem? hi)
  refine ⟨wellFormed_exec hx.wellFormed q input, fun t ht => ?_, ?_⟩
  · rcases List.mem_or_eq_of_mem_set ht with ht | rfl
    · exact (hx.cleared t ht).append _
    · refine ⟨_, hnext _, fun hm => ?_⟩
      rcases Bool.or_eq_true_iff.mp hm with hm | hm
      · exact List.mem_append_left _ (hpassed hm)
      · rw [letsThrough_of_passes hi hallowed.counts hm, Option.toList_some]
        exact List.mem_append_right _ List.mem_cons_self
  · have hslots := occupied_letsThrough hx hslot
    rcases statusRows_exec hx.wellFormed q hallowed.schedules input with
      hrows | ⟨id, next, task, htarget, hfind, hmove, hrows⟩
    · unfold Admissions.occupied
      rw [hrows]
      exact hslots
    · have hadmitted : next = .preparing → id ∈ x.admitted := by
        rintro rfl
        obtain ⟨hid, honly | hm⟩ := hallowed.prepares id htarget
        · exact cleared_claimed hx (hclaimed op q k id hi honly htarget)
        · exact hid ▸ hpassed hm
      unfold Admissions.occupied
      rw [hrows]
      exact (occupied_moved hx.wellFormed hfind hmove fun h =>
        List.mem_append_left _ (hadmitted h)).trans hslots

end Advance

theorem bounded_step {x y : Admissions} {a : CapacityAction} (hx : Bounded config x)
    (hclaimed : PreparesClaimed x a) (hslot : LeavesSlot config x a)
    (hstep : capacityStep config x a = some y) : Bounded config y := by
  obtain ⟨p, hp, rfl⟩ := Option.map_eq_some_iff.mp hstep
  obtain ⟨op, rfl, rfl⟩ | ⟨i, input, op, q, k, rfl, hi, rfl⟩ := step_cases hp
  · rw [letsThrough, Option.toList_none, List.append_nil]
    exact bounded_spawn hx op
  · exact bounded_advance hx hi hclaimed hslot

end Capacity

/-- In every run whose capacity checks leave a slot, the number of tasks that prepare or run
stays within the limit. -/
theorem capacity_bound {config : SchedulerConfig} (s : StoreState) {x : Admissions}
    (hstart : s.store.runningOrPreparing ≤ config.maxConcurrentTasks)
    (hreach : Reaches (capacityStep config) (fun x a => PreparesClaimed x a ∧ LeavesSlot config x a)
      ⟨⟨s.store, []⟩, []⟩ x) :
    x.pool.shared.runningOrPreparing ≤ config.maxConcurrentTasks := by
  have hbounded : Capacity.Bounded config x := hreach.invariant (Capacity.bounded_initial hstart)
    fun _ _ _ hx hok hstep => Capacity.bounded_step hx hok.1 hok.2 hstep
  exact runningOrPreparing_le.trans hbounded.slots

def claimedBy (id : String) : CapacityThread → Bool
  | ⟨.tryAcquireDirectoryLock request, .ret decision⟩ =>
    decide (request.taskId = id) && decide (decision ≠ .waiting)
  | _ => false

theorem claimed_of_claimedBy {p : CapacityPool} {id : String} (h : p.threads.any (claimedBy id)) :
    Claimed p id := by
  obtain ⟨t, hmem, ht⟩ := List.any_eq_true.mp h
  unfold claimedBy at ht
  split at ht
  · rename_i request decision
    rw [Bool.and_eq_true, decide_eq_true_eq, decide_eq_true_eq] at ht
    exact ⟨request, decision, hmem, ht⟩
  · cases ht

def preparesClaimed (x : Admissions) : CapacityAction → Bool
  | .spawn _ => true
  | .advance i _ =>
    match x.pool.threads[i]? with
    | some ⟨op, .step q _⟩ =>
      !op.onlyPrepares || q.target?.all fun target =>
        decide (target.2 ≠ .preparing) || x.pool.threads.any (claimedBy target.1)
    | _ => true

theorem preparesClaimed_sound (x : Admissions) (a : CapacityAction) (h : preparesClaimed x a) :
    PreparesClaimed x a := by
  cases a with
  | spawn op => trivial
  | advance i input =>
    intro op q k id hi honly htarget
    simp only [preparesClaimed, hi, honly, htarget] at h
    exact claimed_of_claimedBy (by simpa using h)

def leavesSlot (config : SchedulerConfig) (x : Admissions) (a : CapacityAction) : Bool :=
  (letsThrough config x.pool a).all fun id =>
    decide (id ∈ x.admitted) || decide (x.occupied < config.maxConcurrentTasks)

theorem leavesSlot_sound {config : SchedulerConfig} {x : Admissions} {a : CapacityAction}
    (h : leavesSlot config x a) : LeavesSlot config x a := by
  intro id hid
  rw [leavesSlot, hid, Option.all_some, Bool.or_eq_true, decide_eq_true_eq, decide_eq_true_eq] at h
  exact h

def twoDirectories : StoreState where
  store := { sampleStore.store with
    grants := [⟨1, sampleGrant⟩, ⟨2, { sampleGrant with id := "dir_2" }⟩] }
  wellFormed := wellFormed_of_same sampleStore.wellFormed rfl rfl

def twoQueued : StoreState where
  store := (twoDirectories.store.created (sampleTask.admittedRow .worktree sampleProfile)
    "t0").created { sampleTask.admittedRow .worktree sampleProfile with directoryId := "dir_2" } "t0"
  wellFormed := wellFormed_created (wellFormed_created twoDirectories.wellFormed _) _

def capacityRun (check : Admissions → CapacityAction → Bool) (actions : List CapacityAction) :
    Option Admissions :=
  Runs.run (fun x a => if check x a then capacityStep ⟨1, false⟩ x a else none)
    ⟨⟨twoQueued.store, []⟩, []⟩ actions

def acquireThread (i : ℕ) (directoryId taskId : String) : List CapacityAction :=
  .spawn (.tryAcquireDirectoryLock ⟨directoryId, taskId, .exclusive⟩) ::
    List.replicate 5 (.advance i (sampleInput "t1"))

def prepareThread (i : ℕ) (taskId : String) : List CapacityAction :=
  [.spawn (.markPreparing taskId), .advance i (sampleInput "t1")]

set_option maxRecDepth 10000 in
theorem capacity_bound_waiting : ∃ x : Admissions,
    (x.pool.shared.findTask "task_2").map Task.status = some .waitingDirectoryLock ∧
    x.pool.shared.runningOrPreparing ≤ 1 := by
  have hrun : (capacityRun (fun x a => preparesClaimed x a && leavesSlot ⟨1, false⟩ x a)
      (acquireThread 0 "dir_1" "task_1" ++ prepareThread 1 "task_1" ++
        (acquireThread 2 "dir_2" "task_2").take 4)).map (fun x =>
        (x.pool.shared.findTask "task_2").map Task.status) =
      some (some .waitingDirectoryLock) := by decide
  obtain ⟨x, hx, hstatus⟩ := Option.map_eq_some_iff.mp hrun
  have hreach : Reaches (capacityStep ⟨1, false⟩)
      (fun x a => PreparesClaimed x a ∧ LeavesSlot ⟨1, false⟩ x a) ⟨⟨twoQueued.store, []⟩, []⟩ x := by
    refine reaches_of_run (fun x a h => ?_) hx
    rw [Bool.and_eq_true] at h
    exact ⟨preparesClaimed_sound x a h.1, leavesSlot_sound h.2⟩
  exact ⟨x, hstatus, capacity_bound twoQueued (by decide) hreach⟩

set_option maxRecDepth 10000 in
/-- Both tasks acquire their locks before either is prepared. -/
theorem acquireBoth_exceeds : ∃ x : Admissions,
    Reaches (capacityStep ⟨1, false⟩) PreparesClaimed ⟨⟨twoQueued.store, []⟩, []⟩ x ∧
    twoQueued.store.runningOrPreparing = 0 ∧ ¬ x.pool.shared.runningOrPreparing ≤ 1 := by
  have hrun : (capacityRun preparesClaimed
      (acquireThread 0 "dir_1" "task_1" ++ acquireThread 1 "dir_2" "task_2" ++
        prepareThread 2 "task_1" ++ prepareThread 3 "task_2")).map (fun x =>
        x.pool.shared.runningOrPreparing) = some 2 := by decide
  obtain ⟨x, hx, hcount⟩ := Option.map_eq_some_iff.mp hrun
  refine ⟨x, reaches_of_run preparesClaimed_sound hx, by decide, ?_⟩
  rw [hcount]
  decide

end OpenDaemon
