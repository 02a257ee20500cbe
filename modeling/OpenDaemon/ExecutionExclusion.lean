import OpenDaemon.ExecutionService
import OpenDaemon.LockOwnership
import OpenDaemon.LockProtocol

/-!
# Exclusion of provider executions

Any number of executions and cancellations run at once, interleaved at their
store calls and await points. The proof outline follows one execution from its
first read to the stored result: until the lock is inserted it knows only its
row, then it owns the task, and from `mark_running` on the lock stays held
until the adapter has returned, since only the owner ends a running task as
long as no cancellation does.
-/

namespace OpenDaemon

open Runs Interleaving Store

inductive ExecutionOp
  | execute (taskId : String)
  | cancel (taskId : String)

def ExecutionOp.program (config : SchedulerConfig) : ExecutionOp → ExecutionCall Task
  | .execute taskId => ExecutionService.executeTask config taskId
  | .cancel taskId => ExecutionService.scheduler (SchedulerService.cancelTask taskId)

abbrev ExecutionPool : Type :=
  Pool Store ServiceStep.Answer ExecutionError fun _ : ExecutionOp => Task

abbrev ExecutionAction : Type := Action ExecutionOp ServiceStep.Input

def executionStep (config : SchedulerConfig) :
    ExecutionPool → ExecutionAction → Option ExecutionPool :=
  step (ExecutionOp.program config) ServiceStep.exec

def InProgress (p : ExecutionPool) (i : ℕ) (request : RuntimeExecutionRequest) : Prop :=
  ∃ op k, p.threads[i]? = some ⟨op, .step (.executeAdapter request) k⟩

def needsExclusive (capabilities : List DirectoryCapability) : Bool :=
  capabilities.any DirectoryCapability.needsExclusive

/-- While a task that writes runs in a directory, no other task runs there. -/
def ExecutionsExclude (p : ExecutionPool) : Prop :=
  ∀ i j a b, InProgress p i a → InProgress p j b → needsExclusive a.task.requiredCapabilities →
    b.task.directoryId = a.task.directoryId → b.taskId = a.taskId

def startsLocked (s : Store) (id : String) : Bool :=
  (s.findTask id).all fun task =>
    !decide (task.status = .preparing) || !needsExclusive task.requiredCapabilities ||
      (s.findGrant task.directoryId).all fun grant => !decide (grant.lockPolicy = .none)

/-- The step neither starts a writing task without a lock nor cancels a running task. -/
def sparesRunning (s : Store) : ServiceStep → Bool
  | .tasks (.transition id .running _) => startsLocked s id
  | .tasks (.cancel id) => !decide (s.statusOf id = some .running)
  | _ => true

namespace Execution

def AdapterReady (s : Store) (request : RuntimeExecutionRequest) : Prop :=
  s.scopeOf request.taskId = some (request.task.directoryId, request.task.requiredCapabilities) ∧
  ∃ lock, s.lockFor request.taskId = some lock ∧
    (lock.mode ≠ .none ∧ s.Holding lock ∨
      lock.mode = .none ∧ ¬ needsExclusive request.task.requiredCapabilities)

def discipline : Discipline ServiceStep ExecutionOp Store Owners where
  inv := LockInvariant
  rely := LockRely
  admits _ := True
  guard s _ q := sparesRunning s q
  needs _ _ q s _ := ∀ request, q = .executeAdapter request → AdapterReady s request

variable {op : ExecutionOp} {i : ℕ} {ε α β : Type} {P : Store → Owners → Prop}
  {Q : α → Store → Owners → Prop}

def Post (Q : α → Store → Owners → Prop) : Except ε α → Store → Owners → Prop
  | .ok a, s, g => Q a s g
  | .error _, _, _ => True

def Holds (op : ExecutionOp) (i : ℕ) (P : Store → Owners → Prop) (c : ServiceCall ε α)
    (Q : α → Store → Owners → Prop) : Prop :=
  Safe discipline ServiceStep.exec op i c P (Post Q)

theorem holds_ret {a : α} (h : ∀ s g, LockInvariant s g → P s g → Q a s g) :
    Holds op i P (.ret a : ServiceCall ε α) Q :=
  h

theorem holds_fail {e : ε} : Holds op i P (.fail e : ServiceCall ε α) Q :=
  fun _ _ _ _ => trivial

theorem Holds.bind {c : ServiceCall ε α} {f : α → ServiceCall ε β} {R : β → Store → Owners → Prop}
    (hc : Holds op i P c Q) (hf : ∀ a, Holds op i (Q a) (f a) R) : Holds op i P (c >>= f) R :=
  safe_bind hc hf fun _ _ _ _ _ => trivial

theorem Holds.weaken {c : ServiceCall ε α} {P' : Store → Owners → Prop} (h : Holds op i P c Q)
    (hp : ∀ s g, LockInvariant s g → P' s g → P s g) : Holds op i P' c Q :=
  safe_weaken h hp

theorem holds_pure {p : Prop} {c : ServiceCall ε α} (h : p → Holds op i P c Q) :
    Holds op i (fun s g => p ∧ P s g) c Q :=
  safe_pure h

theorem Holds.scheduler {c : SchedulerCall α} (h : Holds op i P c Q) :
    Holds op i P (ExecutionService.scheduler c) Q := by
  refine safe_mapError (safe_post h fun r s g _ hr => ?_)
  cases r with
  | ok a => exact hr
  | error e => trivial

theorem holds_ofExcept {r : Except ε α} (h : ∀ a s g, LockInvariant s g → P s g → Q a s g) :
    Holds op i P (Call.ofExcept r : ServiceCall ε α) Q := by
  cases r with
  | ok a => exact h a
  | error e => exact holds_fail

theorem holds_read {q : ServiceStep} {k : q.Answer → ServiceCall ε α}
    (P' : q.Answer → Store → Owners → Prop) (stable : ∀ a, Stable discipline i (P' a))
    (needs : ∀ s g, LockInvariant s g → P s g → ∀ request, q = .executeAdapter request →
      AdapterReady s request)
    (same : ∀ input s, (q.exec input s).2 = s)
    (answer : ∀ s g input, LockInvariant s g → P s g → P' (q.exec input s).1 s g)
    (next : ∀ a, Holds op i (P' a) (k a) Q) : Holds op i P (.step q k) Q := by
  refine safe_step P' stable needs ?_ next
  intro s g input hI hp _
  rw [same]
  exact ⟨g, hI, fun j _ => .refl j s g, answer s g input hI hp⟩

theorem holds_tasks {t : TaskOp} {Q : t.Result → Store → Owners → Prop}
    (stable : ∀ r, Stable discipline i (Q r))
    (effect : ∀ s g now, LockInvariant s g → P s g → sparesRunning s (.tasks t) →
      ∃ g', LockInvariant (runAlone t.program now s).2 g' ∧
        (∀ j, j ≠ i → LockRely j s g (runAlone t.program now s).2 g') ∧
        ∀ r, (runAlone t.program now s).1 = .ok r → Q r (runAlone t.program now s).2 g') :
    Holds op i P (SchedulerService.tasks t) Q := by
  refine safe_step (fun answer s g => ∀ r, answer = .ok r → Q r s g) ?_ ?_ ?_ ?_
  · exact fun answer s g s' g' hI hI' hr h r ha => stable r s g s' g' hI hI' hr (h r ha)
  · intro s g _ _ request hq
    cases hq
  · exact fun s g input hI hp hguard => effect s g input.now hI hp hguard
  · intro answer
    cases answer with
    | ok r => exact fun s g _ h => h r rfl
    | error e => exact holds_fail

theorem holds_same {t : TaskOp} {Q : t.Result → Store → Owners → Prop}
    (stable : ∀ r, Stable discipline i (Q r))
    (same : ∀ s now, s.WellFormed → SameLocks s (runAlone t.program now s).2)
    (answer : ∀ s g now r, LockInvariant s g → P s g → (runAlone t.program now s).1 = .ok r →
      Q r (runAlone t.program now s).2 g) :
    Holds op i P (SchedulerService.tasks t) Q := by
  refine holds_tasks stable fun s g now hI hp _ => ?_
  have h := same s now hI.wellFormed
  exact ⟨g, h.invariant hI, fun j _ => h.rely j, fun r hr => answer s g now r hI hp hr⟩

section Assertions
variable {id : String} {lock : LockRequest} {status : TaskStatus}

theorem stable_true : Stable discipline i fun _ _ => True := fun _ _ _ _ _ _ _ h => h

theorem stable_const {p : Prop} : Stable discipline i fun _ _ => p := fun _ _ _ _ _ _ _ h => h

theorem stable_and {P' : Store → Owners → Prop} (h : Stable discipline i P)
    (h' : Stable discipline i P') : Stable discipline i fun s g => P s g ∧ P' s g :=
  fun s g s' g' hI hI' hr hp => ⟨h s g s' g' hI hI' hr hp.1, h' s g s' g' hI hI' hr hp.2⟩

structure Knows (id : String) (scope : String × List DirectoryCapability) (lock : LockRequest)
    (s : Store) : Prop where
  scope : s.scopeOf id = some scope
  lock : s.lockFor id = some lock

theorem stable_scope (id : String) (scope : String × List DirectoryCapability) :
    Stable discipline i fun s _ => s.scopeOf id = some scope :=
  fun _ _ _ _ _ _ hr h => (hr.scopes id).trans h

theorem stable_knows (id : String) (scope : String × List DirectoryCapability)
    (lock : LockRequest) : Stable discipline i fun s _ => Knows id scope lock s :=
  fun _ _ _ _ _ _ hr h => ⟨(hr.scopes id).trans h.scope,
    (lockFor_congr hr.grants (hr.scopes id)).trans h.lock⟩

/-- The task needs no lock, or thread `i` owns it and it holds its lock until it ends. -/
def Stage (i : ℕ) (id : String) (lock : LockRequest) (status : TaskStatus) (s : Store)
    (g : Owners) : Prop :=
  s.lockFor id = some lock ∧ (lock.mode = .none ∨
    g id = some i ∧ (s.hasEnded id ∨ s.statusOf id = some status ∧ s.Holding lock))

theorem stable_stage : Stable discipline i (Stage i id lock status) := by
  rintro s g s' g' - - hr ⟨hlock, hstage⟩
  refine ⟨(lockFor_congr hr.grants (hr.scopes id)).trans hlock, ?_⟩
  rcases hstage with hnone | ⟨hg, hstage⟩
  · exact .inl hnone
  · obtain ⟨hg', hsame | ⟨hended, -⟩⟩ := hr.mine id hg
    · refine .inr ⟨hg', ?_⟩
      rcases hstage with ⟨st, hst, hterm⟩ | ⟨hstatus, hheld⟩
      · exact .inl ⟨st, hsame.trans hst, hterm⟩
      · rcases hr.kept id lock hlock hheld with hheld' | hended
        · exact .inr ⟨hsame.trans hstatus, hheld'⟩
        · exact .inl hended
    · exact .inr ⟨hg', .inl hended⟩

/-- The task needs no lock and does not write, or its owner runs it with the lock held. -/
def Running (i : ℕ) (id : String) (scope : String × List DirectoryCapability) (lock : LockRequest)
    (s : Store) (g : Owners) : Prop :=
  Knows id scope lock s ∧ (lock.mode = .none ∧ ¬ needsExclusive scope.2 ∨
    g id = some i ∧ s.statusOf id = some .running ∧ s.Holding lock)

theorem stable_running {scope : String × List DirectoryCapability} :
    Stable discipline i (Running i id scope lock) := by
  rintro s g s' g' hI hI' hr ⟨hknows, hrun⟩
  refine ⟨stable_knows id scope lock s g s' g' hI hI' hr hknows, ?_⟩
  rcases hrun with hnone | ⟨hg, hstatus, hheld⟩
  · exact .inl hnone
  · obtain ⟨hg', hsame | ⟨-, hnot⟩⟩ := hr.mine id hg
    · refine .inr ⟨hg', hsame.trans hstatus, ?_⟩
      rcases hr.kept id lock hknows.lock hheld with hheld' | ⟨st, hst, hterm⟩
      · exact hheld'
      · rw [hsame, hstatus] at hst
        obtain rfl := Option.some.inj hst
        cases hterm
    · exact absurd hstatus hnot

def Mine (i : ℕ) (id : String) (s : Store) (g : Owners) : Prop :=
  (∃ lock, s.lockFor id = some lock ∧ lock.mode = .none) ∨ g id = some i

theorem stable_mine : Stable discipline i (Mine i id) := by
  rintro s g s' g' - - hr (⟨lock, hlock, hnone⟩ | hg)
  · exact .inl ⟨lock, (lockFor_congr hr.grants (hr.scopes id)).trans hlock, hnone⟩
  · exact .inr (hr.mine id hg).1

theorem Stage.mine {s : Store} {g : Owners} (h : Stage i id lock status s g) : Mine i id s g := by
  obtain ⟨hlock, hnone | ⟨hg, -⟩⟩ := h
  · exact .inl ⟨lock, hlock, hnone⟩
  · exact .inr hg

theorem Running.mine {scope : String × List DirectoryCapability} {s : Store} {g : Owners}
    (h : Running i id scope lock s g) : Mine i id s g := by
  obtain ⟨hknows, ⟨hnone, -⟩ | ⟨hg, -⟩⟩ := h
  · exact .inl ⟨lock, hknows.lock, hnone⟩
  · exact .inr hg

theorem Stage.moved {s : Store} {g : Owners} {task : Task} {next : TaskStatus}
    {payload : Option Value} {now : String} (h : Stage i id lock status s g)
    (hfind : s.findTask id = some task) (hallowed : transitionAllowed task.status next)
    (hnext : ¬ next.isTerminal) : Stage i id lock next (s.moved id next payload now) g := by
  obtain ⟨hlock, hstage⟩ := h
  refine ⟨(lockFor_congr moved_grants (moved_scopeOf id)).trans hlock, ?_⟩
  rcases hstage with hnone | ⟨hg, ⟨st, hst, hterm⟩ | ⟨-, hheld⟩⟩
  · exact .inl hnone
  · simp only [Store.statusOf, hfind, Option.map_some, Option.some.injEq] at hst
    rw [hst, not_transitionAllowed_of_terminal hterm] at hallowed
    cases hallowed
  · refine .inr ⟨hg, .inr ⟨moved_statusOf hfind, ?_⟩⟩
    rcases moved_holding hheld with hheld' | ⟨-, hterm⟩
    · exact hheld'
    · exact absurd hterm hnext

end Assertions

section Calls
variable {id : String} {lock : LockRequest} {scope : String × List DirectoryCapability}

theorem holds_get {R : Task → Store → Owners → Prop} (stable : ∀ task, Stable discipline i (R task))
    (read : ∀ s g task, LockInvariant s g → P s g → s.findTask id = some task → R task s g) :
    Holds op i P (SchedulerService.tasks (.get id)) R := by
  have hget : ∀ s now, (runAlone (TaskStore.get id) now s).2 = s := by
    intro s now
    rw [runAlone_get]
    cases s.findTask id <;> rfl
  refine holds_same stable (fun s now hs => ?_) fun s g now task hI hp hr => ?_
  · rw [TaskOp.program, hget]
    exact .refl hs
  · rw [TaskOp.program] at hr ⊢
    rw [hget]
    rw [runAlone_get] at hr
    cases hfind : s.findTask id with
    | none =>
      rw [hfind] at hr
      cases hr
    | some found =>
      rw [hfind] at hr
      obtain rfl := Except.ok.inj hr
      exact read s g found hI hp hfind

theorem scopeOf_of_find {s : Store} {task : Task} (h : s.findTask id = some task) :
    s.scopeOf id = some (task.directoryId, task.requiredCapabilities) := by
  simp only [Store.scopeOf, h, Option.map_some]

theorem statusOf_of_find {s : Store} {task : Task} (h : s.findTask id = some task) :
    s.statusOf id = some task.status := by
  simp only [Store.statusOf, h, Option.map_some]

theorem holds_transition {next : TaskStatus} {payload : Option Value}
    {R : Task → Store → Owners → Prop} (stable : ∀ task, Stable discipline i (R task))
    (mine : ∀ s g, P s g → Mine i id s g)
    (answer : ∀ s g now r, LockInvariant s g → P s g →
      sparesRunning s (.tasks (.transition id next payload)) →
      (runAlone (TaskStore.transition id next payload) now s).1 = .ok r →
      R r (runAlone (TaskStore.transition id next payload) now s).2 g) :
    Holds op i P (SchedulerService.tasks (.transition id next payload)) R := by
  refine holds_tasks stable fun s g now hI hp hguard => ?_
  obtain ⟨hI', hrely⟩ := transition_respects hI id next payload now
  refine ⟨g, hI', fun j hj => hrely j fun hg => ?_, fun r hr => answer s g now r hI hp hguard hr⟩
  rcases mine s g hp with hnone | hown
  · exact absurd hg (hI.not_owned (.inr hnone) j)
  · rw [hown] at hg
    exact absurd (Option.some.inj hg).symm hj

theorem Knows.transition {s : Store} {id' now : String} {next : TaskStatus}
    {payload : Option Value} (hs : s.WellFormed) (h : Knows id scope lock s) :
    Knows id scope lock (runAlone (TaskStore.transition id' next payload) now s).2 := by
  obtain ⟨e, hr⟩ | ⟨task, -, -, -, hr⟩ | ⟨task, -, -, hr⟩ :=
    transition_cases hs id' next payload now
  · rwa [hr]
  · rwa [hr]
  · rw [hr]
    exact ⟨(moved_scopeOf id).trans h.scope,
      (lockFor_congr moved_grants (moved_scopeOf id)).trans h.lock⟩

theorem holds_startWaiting {payload : Option Value} :
    Holds op i (fun s _ => Knows id scope lock s)
      (SchedulerService.tasks (.transition id .waitingDirectoryLock payload))
      fun _ s _ => Knows id scope lock s := by
  refine holds_tasks (fun _ => stable_knows id scope lock) fun s g now hI hp _ => ?_
  obtain ⟨hI', hrely⟩ := transition_respects hI id .waitingDirectoryLock payload now
  refine ⟨g, hI', fun j hj => hrely j fun hg status hstatus hallowed => ?_,
    fun _ _ => hp.transition hI.wellFormed⟩
  rw [transitionAllowed_waiting] at hallowed
  subst hallowed
  exact absurd hg (hI.not_owned (.inl hstatus) j)

def Inserted (id : String) (lock : LockRequest) (s : Store) : Prop :=
  s.lockFor id = some lock ∧ lock.mode ≠ .none ∧
    (s.statusOf id = some .queued → s.Holding lock)

theorem stable_inserted : Stable discipline i fun s _ => Inserted id lock s := by
  rintro s g s' g' - - hr ⟨hlock, hmode, hheld⟩
  refine ⟨(lockFor_congr hr.grants (hr.scopes id)).trans hlock, hmode, fun hq => ?_⟩
  rcases hr.kept id lock hlock (hheld (hr.queued id hq)) with hheld' | ⟨st, hst, hterm⟩
  · exact hheld'
  · rw [hq] at hst
    obtain rfl := Option.some.inj hst
    cases hterm

theorem holds_acquireLock (hmode : lock.mode ≠ .none) :
    Holds op i (fun s _ => Knows id scope lock s) (SchedulerService.tasks (.acquireLock lock))
      fun acquired s _ => Knows id scope lock s ∧ (acquired = true → Inserted id lock s) := by
  refine holds_tasks (fun acquired => stable_and (stable_knows id scope lock) ?_) ?_
  · exact fun s g s' g' hI hI' hr h hacq => stable_inserted s g s' g' hI hI' hr (h hacq)
  · intro s g now hI hknows _
    rw [TaskOp.program, runAlone_acquireLock]
    by_cases hclash : TaskStore.conflicts (s.heldLocks lock.directoryId) lock.mode
    · rw [if_pos hclash]
      refine ⟨g, hI, fun j _ => .refl j s g, fun r hr => ⟨hknows, fun hacq => ?_⟩⟩
      rw [← Except.ok.inj hr] at hacq
      cases hacq
    · rw [if_neg hclash]
      refine ⟨g, hI.acquired (isClear_of_not_conflicts hclash),
        fun j _ => .acquired hknows.lock j, fun r _ => ⟨⟨hknows.scope, hknows.lock⟩, fun _ => ?_⟩⟩
      exact ⟨hknows.lock, hmode, fun _ => holding_replaceLock⟩

theorem holds_becomeOwner {payload : Option Value} :
    Holds op i (fun s _ => Knows id scope lock s ∧ Inserted id lock s)
      (SchedulerService.tasks (.transition id .waitingDirectoryLock payload))
      fun _ s g => Knows id scope lock s ∧ Stage i id lock .waitingDirectoryLock s g := by
  refine holds_tasks (fun _ => stable_and (stable_knows id scope lock) stable_stage) ?_
  rintro s g now hI ⟨hknows, hlock, hmode, hheld⟩ _
  rw [TaskOp.program]
  obtain ⟨e, hr⟩ | ⟨task, -, -, hterm, hr⟩ | ⟨task, hfind, hallowed, hr⟩ :=
    transition_cases hI.wellFormed id .waitingDirectoryLock payload now
  · rw [hr]
    exact ⟨g, hI, fun j _ => .refl j s g, fun r hok => by cases hok⟩
  · cases hterm
  · rw [hr]
    have hqueued : s.statusOf id = some .queued := by
      rw [statusOf_of_find hfind, transitionAllowed_waiting.mp hallowed]
    have hfree := hI.not_owned (.inl hqueued)
    have hI' : LockInvariant (s.moved id .waitingDirectoryLock payload now) g :=
      hI.moved hfind hallowed
    have hscope : (s.moved id .waitingDirectoryLock payload now).scopeOf id = s.scopeOf id :=
      moved_scopeOf id
    have hlock' := (lockFor_congr moved_grants hscope).trans hlock
    have hheld' : (s.moved id .waitingDirectoryLock payload now).Holding lock := by
      rcases moved_holding (hheld hqueued) with h | ⟨-, hterm⟩
      · exact h
      · cases hterm
    refine ⟨Function.update g id (some i), ⟨hI'.wellFormed, hI'.exclude, ?_⟩, ?_, fun r _ => ?_⟩
    · intro id' j hg
      by_cases hid : id' = id
      · subst hid
        exact ⟨by rw [moved_statusOf hfind]; decide, lock, hlock', hmode⟩
      · rw [Function.update_of_ne hid] at hg
        exact hI'.owned id' j hg
    · intro j hj
      have hrely : LockRely j s g (s.moved id .waitingDirectoryLock payload now) g :=
        .moved hfind hallowed fun hg => absurd hg (hfree j)
      refine { hrely with mine := fun id' hg => ?_ }
      obtain ⟨hg', hstatus⟩ := hrely.mine id' hg
      have hid : id' ≠ id := fun hid => hfree j (hid ▸ hg)
      exact ⟨by rwa [Function.update_of_ne hid], hstatus⟩
    · refine ⟨⟨hscope.trans hknows.scope, hlock'⟩, hlock', .inr ⟨Function.update_self .., ?_⟩⟩
      exact .inr ⟨moved_statusOf hfind, hheld'⟩

theorem holds_keep {t : TaskOp} (hP : Stable discipline i P)
    (same : ∀ s now, s.WellFormed → SameLocks s (runAlone t.program now s).2) :
    Holds op i P (SchedulerService.tasks t) fun _ => P := by
  refine holds_same (fun _ => hP) same fun s g now r hI hp _ => ?_
  have h := same s now hI.wellFormed
  exact hP s g _ g hI (h.invariant hI) (h.rely i) hp

theorem holds_list {filters : TaskFilters} (hP : Stable discipline i P) :
    Holds op i P (SchedulerService.tasks (.list filters)) fun _ => P := by
  refine holds_keep hP fun s now hs => ?_
  rw [TaskOp.program, runAlone_list]
  exact .refl hs

theorem holds_ask {q : ServiceStep} {k : q.Answer → ServiceCall ε α} (hP : Stable discipline i P)
    (hq : ∀ request, q ≠ .executeAdapter request) (same : ∀ input s, (q.exec input s).2 = s)
    (next : ∀ a, Holds op i P (k a) Q) : Holds op i P (.step q k) Q :=
  holds_read (fun _ => P) (fun _ => hP) (fun _ _ _ _ request h => absurd h (hq request)) same
    (fun _ _ _ _ h => h) next

theorem exec_getGrant (directoryId : String) (input : ServiceStep.Input) (s : Store) :
    (ServiceStep.grants (.get directoryId)).exec input s = match s.findGrant directoryId with
      | some grant => (.ok grant, s)
      | none => (.error .notFound, s) :=
  runAlone_getGrant directoryId input.now s

theorem holds_readGrant {directoryId : String}
    {k : (ServiceStep.grants (.get directoryId)).Answer → ServiceCall ε α}
    (hP : Stable discipline i P)
    (found : ∀ grant, Holds op i (fun s g => P s g ∧ s.findGrant directoryId = some grant)
      (k (.ok grant)) Q)
    (missing : ∀ e, Holds op i P (k (.error e)) Q) :
    Holds op i P (.step (.grants (.get directoryId)) k) Q := by
  refine holds_read (fun answer s g => P s g ∧ ∀ grant, answer = .ok grant →
    s.findGrant directoryId = some grant) (fun answer => stable_and hP ?_) ?_ ?_ ?_ ?_
  · intro s g s' g' _ _ hr h grant ha
    rw [findGrant, hr.grants]
    exact h grant ha
  · intro s g _ _ request hq
    cases hq
  · intro input s
    rw [exec_getGrant]
    cases s.findGrant directoryId <;> rfl
  · intro s g input _ hp
    rw [exec_getGrant]
    refine ⟨hp, fun grant ha => ?_⟩
    cases hfind : s.findGrant directoryId with
    | none =>
      rw [hfind] at ha
      cases ha
    | some found =>
      rw [hfind] at ha
      rw [Except.ok.inj ha]
  · intro answer
    cases answer with
    | ok grant => exact (found grant).weaken fun s g _ h => ⟨h.1, h.2 grant rfl⟩
    | error e => exact (missing e).weaken fun s g _ h => h.1

theorem holds_getGrant {directoryId : String} (hP : Stable discipline i P) :
    Holds op i P (SchedulerService.getGrant directoryId) fun grant s g =>
      P s g ∧ s.findGrant directoryId = some grant :=
  holds_readGrant hP (fun _ => holds_ret fun _ _ _ h => h) fun _ => holds_fail

theorem holds_tryAcquire {config : SchedulerConfig} {task : Task}
    (hscope : scope = (task.directoryId, task.requiredCapabilities)) :
    Holds op i (fun s _ => Knows task.id scope lock s)
      (SchedulerService.tryAcquireDirectoryLock config (LockRequest.fromTask task))
      fun decision s g => decision ≠ .waiting → Knows task.id scope lock s ∧
        Stage i task.id lock .waitingDirectoryLock s g := by
  have hknows := stable_knows (i := i) task.id scope lock
  refine Holds.bind (holds_get (R := fun current s _ => (current.id = task.id ∧
    current.requiredCapabilities = scope.2) ∧ Knows task.id scope lock s) ?_ ?_)
    fun current => holds_pure ?_
  · exact fun current => stable_and stable_const hknows
  · intro s g current _ hk hfind
    have hsame := (scopeOf_of_find hfind).symm.trans hk.scope
    exact ⟨⟨findTask_id hfind, congrArg Prod.snd (Option.some.inj hsame)⟩, hk⟩
  rintro ⟨hcurrent, hcaps⟩
  rw [hcurrent, hcaps]
  refine Holds.bind (Q := fun _ s _ => Knows task.id scope lock s) ?_ fun count => ?_
  · exact (holds_list hknows).bind fun all => holds_ret fun s g _ h => h
  split
  · exact holds_startWaiting.bind fun _ => holds_ret fun s g _ _ hne => absurd rfl hne
  · refine (holds_getGrant hknows).bind fun grant => ?_
    -- The lock that is asked for is the one the invariant knows.
    refine Holds.weaken (P := fun s _ => (lock = ⟨task.directoryId, task.id,
      modeForCapabilities scope.2 grant.lockPolicy⟩) ∧ Knows task.id scope lock s)
      (holds_pure fun hlock => ?_) ?_
    · have hmode : lock.mode = modeForCapabilities scope.2 grant.lockPolicy := by rw [hlock]
      rw [← hmode]
      dsimp only
      split
      · rename_i hnone
        exact holds_ret fun s g _ hk _ => ⟨hk, hk.lock, .inl hnone⟩
      · rename_i hsome
        have hrequest : ({ LockRequest.fromTask task with mode := lock.mode } : LockRequest) =
            lock := by
          rw [hlock]
          rfl
        rw [hrequest]
        refine (holds_acquireLock hsome).bind fun acquired => ?_
        split
        · rename_i hacquired
          refine Holds.bind (Holds.weaken holds_becomeOwner fun s g _ h => ⟨h.1, h.2 hacquired⟩)
            fun _ => holds_ret fun s g _ h _ => h
        · exact (holds_startWaiting.weaken fun s g _ h => h.1).bind fun _ =>
            holds_ret fun s g _ _ hne => absurd rfl hne
    · rintro s g - ⟨hk, hgrant⟩
      have hfor := lockFor_eq (hscope ▸ hk.scope) hgrant
      refine ⟨?_, hk⟩
      rw [hk.lock] at hfor
      rw [Option.some.inj hfor, hscope]
      rfl

theorem holds_nextStage {status next : TaskStatus} {payload : Option Value}
    (hnext : ¬ next.isTerminal) :
    Holds op i (fun s g => Knows id scope lock s ∧ Stage i id lock status s g)
      (SchedulerService.tasks (.transition id next payload))
      fun _ s g => Knows id scope lock s ∧ Stage i id lock next s g := by
  refine holds_transition (fun _ => stable_and (stable_knows id scope lock) stable_stage)
    (fun s g h => h.2.mine) ?_
  rintro s g now r hI ⟨hknows, hstage⟩ - hok
  refine ⟨hknows.transition hI.wellFormed, ?_⟩
  obtain ⟨e, hr⟩ | ⟨task, -, -, hterm, -⟩ | ⟨task, hfind, hallowed, hr⟩ :=
    transition_cases hI.wellFormed id next payload now
  · rw [hr] at hok
    cases hok
  · exact absurd hterm hnext
  · rw [hr]
    exact hstage.moved hfind hallowed hnext

theorem holds_end {next : TaskStatus} {payload : Option Value} :
    Holds op i (Mine i id) (SchedulerService.tasks (.transition id next payload))
      fun _ _ _ => True :=
  holds_transition (fun _ => stable_true) (fun _ _ h => h) fun _ _ _ _ _ _ _ _ => trivial

theorem holds_runPreparer (task : Task) (grant : DirectoryGrant) :
    Holds op i (fun s g => Knows id scope lock s ∧ Stage i id lock .preparing s g)
      (SchedulerService.runPreparer id task grant)
      fun _ s g => Knows id scope lock s ∧ Stage i id lock .preparing s g := by
  refine holds_read (fun _ s g => Knows id scope lock s ∧ Stage i id lock .preparing s g)
    (fun _ => stable_and (stable_knows id scope lock) stable_stage) ?_ (fun _ _ => rfl)
    (fun _ _ _ _ h => h) ?_
  · intro s g _ _ request hq
    cases hq
  · intro answer
    cases answer with
    | ok workspace => exact holds_ret fun s g _ h => h
    | error e => exact (holds_end.weaken fun s g _ h => h.2.mine).bind fun _ => holds_fail

theorem holds_prepareWorkspace :
    Holds op i (fun s g => Knows id scope lock s ∧ Stage i id lock .waitingDirectoryLock s g)
      (SchedulerService.prepareWorkspace id)
      fun _ s g => Knows id scope lock s ∧ Stage i id lock .preparing s g := by
  have hstable {status : TaskStatus} : Stable discipline i fun s g => Knows id scope lock s ∧
      Stage i id lock status s g := stable_and (stable_knows id scope lock) stable_stage
  refine Holds.bind (holds_get (R := fun task s g => (Knows id scope lock s ∧
      Stage i id lock .waitingDirectoryLock s g) ∧ (task.status ≠ .waitingDirectoryLock →
      Stage i id lock .preparing s g)) ?_ ?_) fun task => ?_
  · refine fun task => stable_and hstable ?_
    exact fun s g s' g' hI hI' hr h hne => stable_stage s g s' g' hI hI' hr (h hne)
  · rintro s g task - ⟨hknows, hlock, hstage⟩ hfind
    refine ⟨⟨hknows, hlock, hstage⟩, fun hne => ⟨hlock, ?_⟩⟩
    rcases hstage with hnone | ⟨hg, hended | ⟨hstatus, -⟩⟩
    · exact .inl hnone
    · exact .inr ⟨hg, .inl hended⟩
    · rw [statusOf_of_find hfind] at hstatus
      exact absurd (Option.some.inj hstatus) hne
  · refine Holds.bind (holds_getGrant ?_) fun grant => ?_
    · refine stable_and hstable ?_
      exact fun s g s' g' hI hI' hr h hne => stable_stage s g s' g' hI hI' hr (h hne)
    · split
      · have hprepare : Holds op i (fun s g => Knows id scope lock s ∧
            Stage i id lock .waitingDirectoryLock s g) (SchedulerService.markPreparing id)
            fun _ s g => Knows id scope lock s ∧ Stage i id lock .preparing s g :=
          holds_nextStage (by decide)
        exact (hprepare.weaken fun s g _ h => h.1.1).bind fun _ => holds_runPreparer task grant
      · rename_i hne
        exact (holds_runPreparer task grant).weaken fun s g _ h => ⟨h.1.1.1, h.1.2 hne⟩

theorem not_needsExclusive_of_startsLocked {s : Store} {task : Task}
    (hknows : Knows id scope lock s) (hnone : lock.mode = .none) (hfind : s.findTask id = some task)
    (hstatus : task.status = .preparing) (hguard : startsLocked s id) :
    ¬ needsExclusive scope.2 := by
  intro hneeds
  obtain ⟨grant, hgrant, -, hmode⟩ := grant_of_lockFor hknows.scope hknows.lock
  have hpolicy : grant.lockPolicy = .none :=
    modeForCapabilities_eq_none_iff.mp (hmode.symm.trans hnone)
  have hscope : (task.directoryId, task.requiredCapabilities) = scope :=
    Option.some.inj ((scopeOf_of_find hfind).symm.trans hknows.scope)
  subst hscope
  simp [startsLocked, hfind, hstatus, hneeds, hgrant, hpolicy] at hguard

theorem holds_markRunning :
    Holds op i (fun s g => Knows id scope lock s ∧ Stage i id lock .preparing s g)
      (SchedulerService.markRunning id) fun _ s g => Running i id scope lock s g := by
  refine holds_transition (fun _ => stable_running) (fun s g h => h.2.mine) ?_
  rintro s g now r hI ⟨hknows, hstage⟩ hguard hok
  refine ⟨hknows.transition hI.wellFormed, ?_⟩
  obtain ⟨e, hr⟩ | ⟨task, -, -, hterm, -⟩ | ⟨task, hfind, hallowed, hr⟩ :=
    transition_cases hI.wellFormed id .running none now
  · rw [hr] at hok
    cases hok
  · cases hterm
  · rw [hr]
    have hstage' : Stage i id lock .running (s.moved id .running none now) g :=
      hstage.moved hfind hallowed (by decide)
    rcases hstage'.2 with hnone | ⟨hg, ⟨st, hst, hterm⟩ | ⟨hstatus, hheld⟩⟩
    · exact .inl ⟨hnone, not_needsExclusive_of_startsLocked hknows hnone hfind
        (transitionAllowed_running.mp hallowed) hguard⟩
    · rw [moved_statusOf hfind] at hst
      obtain rfl := Option.some.inj hst
      cases hterm
    · exact .inr ⟨hg, hstatus, hheld⟩

theorem holds_appendEvents (hP : Stable discipline i P) (events : List RuntimeOutputEvent) :
    Holds op i P (ExecutionService.appendEvents id events) fun _ => P := by
  induction events with
  | nil => exact holds_ret fun s g _ h => h
  | cons event events ih =>
    refine Holds.bind (Q := fun _ => P) (Holds.scheduler (holds_keep hP fun s now hs => ?_))
      fun _ => ih
    rw [TaskOp.program, runAlone_appendEvent hs]
    cases hfind : s.findTask id with
    | none => exact .refl hs
    | some task => exact sameLocks_logged hs (hfind ▸ rfl) event.kind event.payload

theorem holds_readBack : Holds op i P (ExecutionService.tasks (.get id)) fun _ _ _ => True :=
  Holds.scheduler (holds_get (fun _ => stable_true) fun _ _ _ _ _ _ => trivial)

theorem holds_persistOutcome (outcome : RuntimeExecutionOutcome) (workspace : PreparedWorkspace) :
    Holds op i (Mine i id) (ExecutionService.persistOutcome id outcome workspace)
      fun _ _ _ => True := by
  refine (holds_appendEvents stable_mine outcome.events).bind fun _ =>
    (Holds.scheduler holds_end).bind fun _ => holds_readBack.bind fun task =>
    Holds.bind (Q := fun _ _ _ => True) ?_ fun now => Holds.bind (Q := fun _ _ _ => True) ?_
      fun _ => holds_readBack
  · refine holds_read (fun _ _ _ => True) (fun _ => stable_true) ?_ (fun _ _ => rfl)
      (fun _ _ _ _ _ => trivial) fun _ => holds_ret fun _ _ _ _ => trivial
    intro s g _ _ request hq
    cases hq
  · refine Holds.scheduler (holds_keep stable_true fun s now hs => ?_)
    rw [TaskOp.program, runAlone_saveExecutionResult]
    exact sameLocks_updateTaskResult hs _

theorem holds_acquireDirectoryLock {config : SchedulerConfig} {task : Task}
    (hscope : scope = (task.directoryId, task.requiredCapabilities)) :
    Holds op i (fun s _ => Knows task.id scope lock s)
      (ExecutionService.acquireDirectoryLock config task)
      fun _ s g => Knows task.id scope lock s ∧
        Stage i task.id lock .waitingDirectoryLock s g := by
  refine (Holds.scheduler (holds_tryAcquire hscope)).bind fun decision => ?_
  cases decision with
  | acquired => exact holds_ret fun s g _ h => h nofun
  | notRequired => exact holds_ret fun s g _ h => h nofun
  | waiting => exact holds_fail

theorem holds_runTask {config : SchedulerConfig} {task : Task} (hid : task.id = id)
    (hscope : scope = (task.directoryId, task.requiredCapabilities)) (profile : AgentProfile)
    (grant : DirectoryGrant) (manifest : ProviderManifest) (runtime : RuntimeView)
    (executable : String) :
    Holds op i (fun s _ => Knows id scope lock s)
      (ExecutionService.runTask config id task profile grant manifest runtime executable)
      fun _ _ _ => True := by
  subst hid
  refine (holds_acquireDirectoryLock hscope).bind fun _ =>
    (Holds.scheduler holds_prepareWorkspace).bind fun workspace =>
    (Holds.scheduler holds_markRunning).bind fun _ =>
    Holds.bind (Q := fun _ => Running i task.id scope lock) (holds_ofExcept fun _ s g _ h => h)
      fun _ => ?_
  refine Holds.bind (Q := fun current s g => (scope = (current.directoryId,
    current.requiredCapabilities)) ∧ Running i task.id scope lock s g)
    (Holds.scheduler (holds_get (fun current => stable_and stable_const stable_running) ?_))
    fun current => holds_pure fun hcurrent => ?_
  · intro s g current _ hrun hfind
    exact ⟨Option.some.inj (hrun.1.scope.symm.trans (scopeOf_of_find hfind)), hrun⟩
  · refine holds_read (fun _ => Mine i task.id) (fun _ => stable_mine) ?_ (fun _ _ => rfl)
      (fun s g _ _ h => h.mine) fun outcome => holds_persistOutcome outcome workspace
    intro s g hI hrun request hq
    obtain rfl := ServiceStep.executeAdapter.inj hq
    refine ⟨hrun.1.scope.trans (congrArg some hcurrent), lock, hrun.1.lock, ?_⟩
    rcases hrun.2 with ⟨hnone, hneeds⟩ | ⟨hg, -, hheld⟩
    · rw [hcurrent] at hneeds
      exact .inr ⟨hnone, hneeds⟩
    · obtain ⟨-, request, hlock, hmode⟩ := hI.owned task.id i hg
      rw [hrun.1.lock] at hlock
      obtain rfl := Option.some.inj hlock
      exact .inl ⟨hmode, hheld⟩

theorem holds_getProfile (hP : Stable discipline i P) (agentId : String) :
    Holds op i P (ExecutionService.getProfile agentId) fun _ => P := by
  refine holds_ask hP (fun _ h => by cases h) (fun input s => ?_) fun answer => ?_
  · change (runAlone (ProfileStore.get agentId) input.now s).2 = s
    rw [runAlone_getProfile]
    cases s.findProfile agentId <;> rfl
  · cases answer with
    | ok profile => exact holds_ret fun _ _ _ h => h
    | error e => exact holds_fail

theorem holds_loadRegistry (hP : Stable discipline i P) :
    Holds op i P ExecutionService.loadRegistry fun _ => P := by
  refine holds_ask hP (fun _ h => by cases h) (fun _ _ => rfl) fun answer => ?_
  cases answer with
  | some registry => exact holds_ret fun _ _ _ h => h
  | none => exact holds_fail

theorem holds_getRuntime (hP : Stable discipline i P) (providerId : String)
    (manifest : ProviderManifest) :
    Holds op i P (ExecutionService.getRuntime providerId manifest) fun _ => P := by
  refine holds_ask hP (fun _ h => by cases h) (fun _ _ => rfl) fun answer => ?_
  split
  · exact holds_ret fun _ _ _ h => h
  · exact holds_fail

theorem holds_executeTask (config : SchedulerConfig) (taskId : String) :
    Holds op i (fun _ _ => True) (ExecutionService.executeTask config taskId)
      fun _ _ _ => True := by
  refine Holds.bind (Q := fun task s _ => task.id = taskId ∧
    s.scopeOf taskId = some (task.directoryId, task.requiredCapabilities))
    (Holds.scheduler (holds_get (fun task => stable_and stable_const (stable_scope _ _)) ?_))
    fun task => holds_pure fun hid => ?_
  · exact fun s g task _ _ hfind => ⟨findTask_id hfind, scopeOf_of_find hfind⟩
  split
  · exact holds_fail
  refine (holds_getProfile (stable_scope _ _) task.agentId).bind fun profile => ?_
  refine holds_readGrant (stable_scope _ _) (fun grant => ?_) fun _ => holds_fail
  -- From here on the lock that the task needs is known and does not change.
  let lock : LockRequest := ⟨task.directoryId, taskId,
    modeForCapabilities task.requiredCapabilities grant.lockPolicy⟩
  have hknows := stable_knows (i := i) taskId (task.directoryId, task.requiredCapabilities) lock
  refine Holds.weaken (P := fun s _ => Knows taskId (task.directoryId, task.requiredCapabilities)
    lock s) ?_ fun s g _ h => ⟨h.1, lockFor_eq h.1 h.2⟩
  exact (holds_loadRegistry hknows).bind fun registry =>
    Holds.bind (Q := fun _ s _ => Knows taskId (task.directoryId, task.requiredCapabilities) lock s)
      (holds_ofExcept fun _ _ _ _ h => h) fun manifest =>
    (holds_getRuntime hknows profile.providerId manifest).bind fun runtime =>
    Holds.bind (Q := fun _ s _ => Knows taskId (task.directoryId, task.requiredCapabilities) lock s)
      (holds_ofExcept fun _ _ _ _ h => h) fun executable =>
    holds_runTask hid rfl profile grant manifest runtime executable

theorem holds_cancelTask (taskId : String) :
    Holds op i (fun _ _ => True)
      (ExecutionService.scheduler (SchedulerService.cancelTask taskId)) fun _ _ _ => True := by
  refine Holds.scheduler ((holds_get (fun _ => stable_true) fun _ _ _ _ _ _ => trivial).bind
    fun task => ?_)
  split
  · exact holds_fail
  · refine holds_tasks (fun _ => stable_true) fun s g now hI _ hguard => ?_
    obtain ⟨hI', hrely⟩ := transition_respects hI taskId .cancelled none now
    refine ⟨g, hI', fun j _ => hrely j fun _ status hstatus _ => ⟨rfl, ?_⟩, fun _ _ => trivial⟩
    rintro rfl
    simp [sparesRunning, hstatus] at hguard

end Calls

end Execution

def SparesRunning : ExecutionPool → ExecutionAction → Prop := Permitted Execution.discipline

/-- In every interleaving in which no writing task starts without a lock and no running task
is cancelled, conflicting executions never overlap. -/
theorem executions_exclude {config : SchedulerConfig} {s : Store} {p : ExecutionPool}
    (hs : s.WellFormed) (hlocks : LocksExclude s.locks)
    (h : Reaches (executionStep config) SparesRunning ⟨s, []⟩ p) : ExecutionsExclude p := by
  have houtline : Outline Execution.discipline ServiceStep.exec p := by
    refine outline_of_reaches (fun op _ i => ?_) ⟨fun _ => none, hs, hlocks, nofun⟩ h
    cases op with
    | execute taskId =>
      exact safe_post (Execution.holds_executeTask config taskId) fun _ _ _ _ _ => trivial
    | cancel taskId => exact safe_post (Execution.holds_cancelTask taskId) fun _ _ _ _ _ => trivial
  obtain ⟨g, hI, hneeds⟩ := houtline.needs
  rintro i j a b ⟨op, k, hi⟩ ⟨op', k', hj⟩ hexclusive hdir
  obtain ⟨hscope, lock, hlock, hready⟩ := hneeds i op _ k hi a rfl
  obtain ⟨hscope', lock', hlock', hready'⟩ := hneeds j op' _ k' hj b rfl
  obtain ⟨grant, hgrant, hlockdir, hmode⟩ := grant_of_lockFor hscope hlock
  obtain ⟨grant', hgrant', hlockdir', hmode'⟩ := grant_of_lockFor hscope' hlock'
  obtain ⟨hsome, row, hrow, hheld, hrowdir, hrowtask, hrowmode⟩ : lock.mode ≠ .none ∧
      p.shared.Holding lock := hready.resolve_right fun hn => hn.2 hexclusive
  have hpolicy : grant.lockPolicy ≠ .none := fun hn =>
    hsome (hmode.trans (modeForCapabilities_eq_none_iff.mpr hn))
  have hsame : grant' = grant := by
    rw [hdir] at hgrant'
    exact Option.some.inj (hgrant'.symm.trans hgrant)
  obtain ⟨-, row', hrow', hheld', hrowdir', hrowtask', -⟩ : lock'.mode ≠ .none ∧
      p.shared.Holding lock' := by
    refine hready'.resolve_right fun hn => hpolicy ?_
    rw [← hsame]
    exact modeForCapabilities_eq_none_iff.mp (hmode'.symm.trans hn.1)
  have hrowexclusive : row.mode = .exclusive := by
    rw [hrowmode, hmode]
    exact modeForCapabilities_exclusive hexclusive hpolicy
  have hrows := hI.exclude row hrow hheld hrowexclusive row' hrow' hheld'
    (by rw [hrowdir', hlockdir', hrowdir, hlockdir]; exact hdir)
  rw [hrowtask, hrowtask', lockFor_taskId hlock, lockFor_taskId hlock'] at hrows
  exact hrows

def adapterOf (t : Thread ServiceStep.Answer ExecutionError fun _ : ExecutionOp => Task) :
    Option RuntimeExecutionRequest :=
  match t.rest with
  | .step (.executeAdapter request) _ => some request
  | _ => none

theorem inProgress_of_adapterOf {p : ExecutionPool} {i : ℕ} {request : RuntimeExecutionRequest}
    (h : p.threads[i]?.bind adapterOf = some request) : InProgress p i request := by
  obtain ⟨⟨op, rest⟩, hi, ha⟩ := Option.bind_eq_some_iff.mp h
  unfold adapterOf at ha
  split at ha
  · rename_i request' k hrest
    obtain rfl := Option.some.inj ha
    obtain rfl : rest = .step (.executeAdapter request') k := hrest
    exact ⟨op, k, hi⟩
  · cases ha

def sparesAction (p : ExecutionPool) : ExecutionAction → Bool
  | .spawn _ => true
  | .advance i _ =>
    match p.threads[i]? with
    | some ⟨_, .step q _⟩ => sparesRunning p.shared q
    | _ => true

theorem sparesRunning_of_sparesAction (p : ExecutionPool) (a : ExecutionAction)
    (h : sparesAction p a) : SparesRunning p a := by
  cases a with
  | spawn op => trivial
  | advance i input =>
    intro op q k hi
    change sparesRunning p.shared q
    simpa [sparesAction, hi] using h

def queuedStore : StoreState where
  store := (sampleStore.store.created (sampleTask.admittedRow .worktree sampleProfile) "t0").created
    (sampleTask.admittedRow .worktree sampleProfile) "t0"
  wellFormed := wellFormed_created (wellFormed_created sampleStore.wellFormed _) _

def sampleManifest : ProviderManifest :=
  ⟨"codex", .cli, ⟨"default", ["default"]⟩, ⟨["provider_default"]⟩⟩

def executionInput : ServiceStep.Input :=
  { sampleInput "t1" with
    registry := some ⟨[sampleManifest]⟩
    runtime := some ⟨"local", "codex", .localCli, .available, some "/usr/bin/codex"⟩ }

def executionRun (check : ExecutionPool → ExecutionAction → Bool)
    (actions : List ExecutionAction) : Option ExecutionPool :=
  Runs.run (fun p a => if check p a then executionStep ⟨2, false⟩ p a else none)
    ⟨queuedStore.store, []⟩ actions

def executeBoth : List ExecutionAction :=
  .spawn (.execute "task_1") :: List.replicate 16 (.advance 0 executionInput) ++
  .spawn (.execute "task_2") :: List.replicate 10 (.advance 1 executionInput)

set_option maxRecDepth 10000 in
theorem executions_exclude_both : ∃ (p : ExecutionPool) (request : RuntimeExecutionRequest),
    InProgress p 0 request ∧ request.taskId = "task_1" ∧ ExecutionsExclude p := by
  have hrun : (executionRun sparesAction executeBoth).map (fun p =>
      (p.threads[0]?.bind adapterOf).map RuntimeExecutionRequest.taskId) =
      some (some "task_1") := by decide
  obtain ⟨p, hp, hfirst⟩ := Option.map_eq_some_iff.mp hrun
  obtain ⟨request, hrequest, hid⟩ := Option.map_eq_some_iff.mp hfirst
  have hreach : Reaches (executionStep ⟨2, false⟩) SparesRunning ⟨queuedStore.store, []⟩ p :=
    reaches_of_run sparesRunning_of_sparesAction hp
  exact ⟨p, request, inProgress_of_adapterOf hrequest, hid,
    executions_exclude queuedStore.wellFormed (fun lock hmem => by cases hmem) hreach⟩

/-- The first task is cancelled while its adapter runs, and the second one takes the lock. -/
def cancelRunning : List ExecutionAction :=
  .spawn (.execute "task_1") :: List.replicate 16 (.advance 0 executionInput) ++
  .spawn (.cancel "task_1") :: List.replicate 2 (.advance 1 executionInput) ++
  .spawn (.execute "task_2") :: List.replicate 16 (.advance 2 executionInput)

set_option maxRecDepth 10000 in
theorem cancelRunning_overlaps : ∃ p : ExecutionPool,
    Reaches (executionStep ⟨2, false⟩) (fun _ _ => True) ⟨queuedStore.store, []⟩ p ∧
    ¬ ExecutionsExclude p := by
  have hrun : (executionRun (fun _ _ => true) cancelRunning).map (fun p =>
      ((p.threads[0]?.bind adapterOf).map fun r =>
        (r.taskId, r.task.directoryId, needsExclusive r.task.requiredCapabilities),
      (p.threads[2]?.bind adapterOf).map fun r => (r.taskId, r.task.directoryId))) =
      some (some ("task_1", "dir_1", true), some ("task_2", "dir_1")) := by decide
  obtain ⟨p, hp, hboth⟩ := Option.map_eq_some_iff.mp hrun
  obtain ⟨hfirst, hsecond⟩ := Prod.mk.inj hboth
  obtain ⟨a, ha, hfields⟩ := Option.map_eq_some_iff.mp hfirst
  obtain ⟨b, hb, hfields'⟩ := Option.map_eq_some_iff.mp hsecond
  simp only [Prod.mk.injEq] at hfields hfields'
  refine ⟨p, reaches_of_run (fun _ _ _ => trivial) hp, fun h => ?_⟩
  have hsame := h 0 2 a b (inProgress_of_adapterOf ha) (inProgress_of_adapterOf hb) hfields.2.2
    (hfields'.2.trans hfields.2.1.symm)
  rw [hfields.1, hfields'.1] at hsame
  exact absurd hsame (by decide)

end OpenDaemon
