import Mathlib.Logic.Function.Basic
import OpenDaemon.LockTable
import OpenDaemon.ServiceSteps

/-!
# The lock protocol of concurrent executions

Which lock a task needs is fixed by its row and its grant. The execution that
moves a task from `queued` to `waiting_directory_lock` with its lock inserted
becomes the owner of the task; the owner of each task is auxiliary state. Every
store call that executions and cancellations make is shown to keep the protocol
and to respect the owners of all other tasks.
-/

namespace OpenDaemon

open Store

namespace Store

def statusOf (s : Store) (id : String) : Option TaskStatus := (s.findTask id).map Task.status

/-- What of a task row decides about its lock; no call of the service changes it. -/
def scopeOf (s : Store) (id : String) : Option (String × List DirectoryCapability) :=
  (s.findTask id).map fun task => (task.directoryId, task.requiredCapabilities)

def hasEnded (s : Store) (id : String) : Prop :=
  ∃ status, s.statusOf id = some status ∧ status.isTerminal

def lockFor (s : Store) (id : String) : Option LockRequest :=
  (s.scopeOf id).bind fun scope => (s.findGrant scope.1).map fun grant =>
    ⟨scope.1, id, modeForCapabilities scope.2 grant.lockPolicy⟩

def Holding (s : Store) (request : LockRequest) : Prop :=
  ∃ lock ∈ s.locks, lock.Held ∧ lock.directoryId = request.directoryId ∧
    lock.taskId = request.taskId ∧ lock.mode = request.mode

end Store

/-- The execution that owns a task, by the position of its thread. -/
abbrev Owners : Type := String → Option ℕ

structure LockInvariant (s : Store) (g : Owners) : Prop where
  wellFormed : s.WellFormed
  exclude : LocksExclude s.locks
  owned : ∀ id i, g id = some i → s.statusOf id ≠ some .queued ∧
    ∃ request, s.lockFor id = some request ∧ request.mode ≠ .none

structure LockRely (i : ℕ) (s : Store) (g : Owners) (s' : Store) (g' : Owners) : Prop where
  grants : s'.grants = s.grants
  scopes : ∀ id, s'.scopeOf id = s.scopeOf id
  queued : ∀ id, s'.statusOf id = some .queued → s.statusOf id = some .queued
  kept : ∀ id request, s.lockFor id = some request → s.Holding request →
    s'.Holding request ∨ s'.hasEnded id
  mine : ∀ id, g id = some i → g' id = some i ∧ (s'.statusOf id = s.statusOf id ∨
    s'.hasEnded id ∧ s.statusOf id ≠ some .running)

section Views
variable {s s' : Store} {g : Owners} {id now : String}

theorem lockFor_taskId {request : LockRequest} (h : s.lockFor id = some request) :
    request.taskId = id := by
  obtain ⟨scope, -, hgrant⟩ := Option.bind_eq_some_iff.mp h
  obtain ⟨grant, -, rfl⟩ := Option.map_eq_some_iff.mp hgrant
  rfl

theorem lockFor_congr (hgrants : s'.grants = s.grants) (hscope : s'.scopeOf id = s.scopeOf id) :
    s'.lockFor id = s.lockFor id := by
  simp only [Store.lockFor, hscope, findGrant, hgrants]

theorem lockFor_eq {directoryId : String} {capabilities : List DirectoryCapability}
    {grant : DirectoryGrant} (hscope : s.scopeOf id = some (directoryId, capabilities))
    (hgrant : s.findGrant directoryId = some grant) :
    s.lockFor id = some ⟨directoryId, id, modeForCapabilities capabilities grant.lockPolicy⟩ := by
  simp only [Store.lockFor, hscope, Option.bind_some, hgrant, Option.map_some]

theorem grant_of_lockFor {scope : String × List DirectoryCapability} {request : LockRequest}
    (hscope : s.scopeOf id = some scope) (hlock : s.lockFor id = some request) :
    ∃ grant, s.findGrant scope.1 = some grant ∧ request.directoryId = scope.1 ∧
      request.mode = modeForCapabilities scope.2 grant.lockPolicy := by
  simp only [Store.lockFor, hscope, Option.bind_some] at hlock
  obtain ⟨grant, hgrant, rfl⟩ := Option.map_eq_some_iff.mp hlock
  exact ⟨grant, hgrant, rfl, rfl⟩

theorem LockRely.refl (i : ℕ) (s : Store) (g : Owners) : LockRely i s g s g :=
  ⟨rfl, fun _ => rfl, fun _ h => h, fun _ _ _ h => .inl h, fun _ h => ⟨h, .inl rfl⟩⟩

structure SameLocks (s s' : Store) : Prop where
  wellFormed : s'.WellFormed
  grants : s'.grants = s.grants
  locks : s'.locks = s.locks
  scopes : ∀ id, s'.scopeOf id = s.scopeOf id
  statuses : ∀ id, s'.statusOf id = s.statusOf id

theorem SameLocks.refl (hs : s.WellFormed) : SameLocks s s :=
  ⟨hs, rfl, rfl, fun _ => rfl, fun _ => rfl⟩

theorem holding_congr (hlocks : s'.locks = s.locks) (request : LockRequest) :
    s'.Holding request ↔ s.Holding request := by
  simp only [Store.Holding, hlocks]

theorem SameLocks.invariant (h : SameLocks s s') (hI : LockInvariant s g) : LockInvariant s' g where
  wellFormed := h.wellFormed
  exclude := h.locks ▸ hI.exclude
  owned := by
    intro id i hg
    rw [h.statuses, lockFor_congr h.grants (h.scopes id)]
    exact hI.owned id i hg

theorem SameLocks.rely (h : SameLocks s s') (j : ℕ) : LockRely j s g s' g where
  grants := h.grants
  scopes := h.scopes
  queued := fun id hq => h.statuses id ▸ hq
  kept := fun _ request _ hheld => .inl ((holding_congr h.locks request).mpr hheld)
  mine := fun id hg => ⟨hg, .inl (h.statuses id)⟩

theorem sameLocks_logged (hs : s.WellFormed) (hfind : (s.findTask id).isSome)
    (eventType : TaskEventType) (payload : Value) :
    SameLocks s (s.logged (s.nextEvent id eventType payload now)) :=
  ⟨wellFormed_logged hs hfind eventType payload, rfl, rfl, fun _ => rfl, fun _ => rfl⟩

theorem sameLocks_updateTaskResult (hs : s.WellFormed) (result : TaskResult) :
    SameLocks s (s.updateTaskResult id result) := by
  have hid := fun task : Task => task.withResult_id result
  refine ⟨wellFormed_updateTaskResult hs result, rfl, rfl, fun i => ?_, fun i => ?_⟩
  · simp only [Store.scopeOf, Store.updateTaskResult, findTask_updateTask hid, Option.map_map]
    congr 1
    funext task
    simp only [Function.comp]
    split <;> rfl
  · simp only [Store.statusOf, Store.updateTaskResult, findTask_updateTask hid, Option.map_map]
    congr 1
    funext task
    simp only [Function.comp]
    split <;> rfl

end Views

section Moves
variable {s : Store} {g : Owners} {id now : String} {task : Task} {next : TaskStatus}
  {payload : Option Value} {i : ℕ}

theorem moved_scopeOf (id' : String) :
    (s.moved id next payload now).scopeOf id' = s.scopeOf id' := by
  by_cases hid : id' = id
  · subst hid
    simp only [Store.scopeOf, moved_findTask, Option.map_map]
    rfl
  · simp only [Store.scopeOf, moved_findTask_ne hid]

theorem moved_statusOf (hfind : s.findTask id = some task) :
    (s.moved id next payload now).statusOf id = some next := by
  simp only [Store.statusOf, moved_findTask, hfind, Option.map_some]
  rfl

theorem moved_statusOf_ne {id' : String} (hne : id' ≠ id) :
    (s.moved id next payload now).statusOf id' = s.statusOf id' := by
  simp only [Store.statusOf, moved_findTask_ne hne]

theorem moved_grants : (s.moved id next payload now).grants = s.grants := by
  unfold Store.moved
  split <;> rfl

theorem moved_holding {request : LockRequest}
    (h : s.Holding request) : (s.moved id next payload now).Holding request ∨
      (request.taskId = id ∧ next.isTerminal) := by
  obtain ⟨lock, hmem, hheld, hdir, htask, hmode⟩ := h
  by_cases hterm : next.isTerminal
  · by_cases hid : request.taskId = id
    · exact .inr ⟨hid, hterm⟩
    · refine .inl ⟨lock, ?_, hheld, hdir, htask, hmode⟩
      rw [moved_locks, if_pos hterm]
      refine List.mem_map.mpr ⟨lock, hmem, if_neg ?_⟩
      rintro ⟨hown, -⟩
      exact hid (htask.symm.trans hown)
  · refine .inl ⟨lock, ?_, hheld, hdir, htask, hmode⟩
    rw [moved_locks, if_neg hterm]
    exact hmem

theorem LockInvariant.moved (hI : LockInvariant s g) (hfind : s.findTask id = some task)
    (hallowed : transitionAllowed task.status next) :
    LockInvariant (s.moved id next payload now) g where
  wellFormed := wellFormed_moved hI.wellFormed (hfind ▸ rfl) next payload
  exclude := by
    rw [moved_locks]
    split
    · exact locksExclude_releaseLocks hI.exclude
    · exact hI.exclude
  owned := by
    intro id' i hg
    obtain ⟨hstatus, request, hlock, hmode⟩ := hI.owned id' i hg
    refine ⟨?_, request, ?_, hmode⟩
    · by_cases hid : id' = id
      · rw [hid, moved_statusOf hfind]
        rintro ⟨⟩
        rw [not_transitionAllowed_queued] at hallowed
        cases hallowed
      · rwa [moved_statusOf_ne hid]
    · rwa [lockFor_congr moved_grants (moved_scopeOf id')]

theorem LockRely.moved {j : ℕ} (hfind : s.findTask id = some task)
    (hallowed : transitionAllowed task.status next)
    (hmine : g id = some j → next.isTerminal ∧ task.status ≠ .running) :
    LockRely j s g (s.moved id next payload now) g where
  grants := moved_grants
  scopes := moved_scopeOf
  queued := by
    intro id' hq
    by_cases hid : id' = id
    · rw [hid, moved_statusOf hfind] at hq
      rw [Option.some.inj hq, not_transitionAllowed_queued] at hallowed
      cases hallowed
    · rwa [moved_statusOf_ne hid] at hq
  kept := by
    intro id' request hlock hheld
    rcases moved_holding hheld with h | ⟨hid, hterm⟩
    · exact .inl h
    · rw [← (lockFor_taskId hlock), hid]
      exact .inr ⟨next, moved_statusOf hfind, hterm⟩
  mine := by
    intro id' hg
    refine ⟨hg, ?_⟩
    by_cases hid : id' = id
    · subst hid
      obtain ⟨hterm, hrun⟩ := hmine hg
      refine .inr ⟨⟨next, moved_statusOf hfind, hterm⟩, ?_⟩
      simp only [Store.statusOf, hfind, Option.map_some, ne_eq, Option.some.injEq]
      exact hrun
    · exact .inl (moved_statusOf_ne hid)

/-- A `transition` call keeps the protocol; it respects thread `j` unless it changes the
status of a task that `j` owns and the change is not the end of a task that does not run. -/
theorem transition_respects (hI : LockInvariant s g) (id : String) (next : TaskStatus)
    (payload : Option Value) (now : String) :
    LockInvariant (runAlone (TaskStore.transition id next payload) now s).2 g ∧
    ∀ j, (g id = some j → ∀ status, s.statusOf id = some status → transitionAllowed status next →
        next.isTerminal ∧ status ≠ .running) →
      LockRely j s g (runAlone (TaskStore.transition id next payload) now s).2 g := by
  obtain ⟨e, hr⟩ | ⟨task, -, -, -, hr⟩ | ⟨task, hfind, hallowed, hr⟩ :=
    transition_cases hI.wellFormed id next payload now
  · rw [hr]
    exact ⟨hI, fun j _ => .refl j s g⟩
  · rw [hr]
    exact ⟨hI, fun j _ => .refl j s g⟩
  · rw [hr]
    have hstatus : s.statusOf id = some task.status := by
      simp only [Store.statusOf, hfind, Option.map_some]
    exact ⟨hI.moved hfind hallowed, fun j hj => .moved hfind hallowed fun hg =>
      hj hg task.status hstatus hallowed⟩

theorem LockInvariant.not_owned (hI : LockInvariant s g)
    (h : s.statusOf id = some .queued ∨ ∃ request, s.lockFor id = some request ∧
      request.mode = .none) (j : ℕ) : g id ≠ some j := by
  intro hg
  obtain ⟨hstatus, request, hlock, hmode⟩ := hI.owned id j hg
  rcases h with hq | ⟨request', hlock', hnone⟩
  · exact hstatus hq
  · rw [hlock] at hlock'
    obtain rfl := Option.some.inj hlock'
    exact hmode hnone

end Moves

section Acquisition
variable {s : Store} {g : Owners} {id now : String} {request : LockRequest}

theorem isClear_of_not_conflicts
    (h : ¬ TaskStore.conflicts (s.heldLocks request.directoryId) request.mode) :
    s.isClear request := by
  rw [isClear_iff]
  intro lock hmem hheld hdir _
  have hin : lock ∈ s.heldLocks request.directoryId := by
    simp only [heldLocks, isHeld, List.mem_filter, Bool.and_eq_true, decide_eq_true_eq]
    exact ⟨hmem, hdir, hheld⟩
  refine ⟨fun hx => ?_, fun hx => ?_⟩
  · exact h (List.any_eq_true.mpr ⟨lock, hin, decide_eq_true (.inl hx)⟩)
  · exact h (List.any_eq_true.mpr ⟨lock, hin, decide_eq_true (.inr hx)⟩)

theorem LockInvariant.acquired (hI : LockInvariant s g) (hclear : s.isClear request) :
    LockInvariant (s.replaceLock request now) g where
  wellFormed := wellFormed_of_same hI.wellFormed rfl rfl
  exclude := (locksExclude_replaceLock request now hI.exclude).mpr hclear
  owned := hI.owned

theorem holding_replaceLock : (s.replaceLock request now).Holding request :=
  ⟨_, mem_replaceLock.mpr (.inr rfl), rfl, rfl, rfl, rfl⟩

theorem LockRely.acquired (hlock : s.lockFor id = some request) (j : ℕ) :
    LockRely j s g (s.replaceLock request now) g where
  grants := rfl
  scopes := fun _ => rfl
  queued := fun _ h => h
  kept := by
    intro id' request' hlock' hheld
    refine .inl ?_
    by_cases hid : id' = id
    · rw [hid, hlock] at hlock'
      obtain rfl := Option.some.inj hlock'
      exact holding_replaceLock
    · obtain ⟨lock, hmem, hh, hdir, htask, hmode⟩ := hheld
      refine ⟨lock, mem_replaceLock.mpr (.inl ⟨hmem, fun hsame => ?_⟩), hh, hdir, htask, hmode⟩
      rw [htask, lockFor_taskId hlock', lockFor_taskId hlock] at hsame
      exact hid hsame.2
  mine := fun _ hg => ⟨hg, .inl rfl⟩

end Acquisition

end OpenDaemon
