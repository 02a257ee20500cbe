import OpenDaemon.StoreThreads

/-!
# Mutual exclusion in the lock table

`acquire_lock` tests for a conflict in one step and inserts its row in another,
and the primary key `(directory_id, task_id)` keeps two tasks apart but not from
each other. A run keeps the table exclusive exactly when each insertion still
finds no conflict with a row that another task holds.
-/

namespace OpenDaemon

open Runs Interleaving Store

def DirectoryLock.Held (lock : DirectoryLock) : Prop := lock.status = .held

/-- A held exclusive row leaves no held row of another task in its directory. -/
def LocksExclude (locks : List DirectoryLock) : Prop :=
  ∀ lock ∈ locks, lock.Held → lock.mode = .exclusive →
    ∀ other ∈ locks, other.Held → other.directoryId = lock.directoryId →
      other.taskId = lock.taskId

/-- The conflict test of `acquire_lock` against the rows that other tasks hold now. -/
def Store.isClear (s : Store) (request : LockRequest) : Bool :=
  !TaskStore.conflicts ((s.heldLocks request.directoryId).filter fun lock =>
    !decide (lock.taskId = request.taskId)) request.mode

section Locks
variable {s s' : Store} {request : LockRequest} {now taskId : String}

theorem isClear_iff : s.isClear request ↔ ∀ lock ∈ s.locks, lock.Held →
    lock.directoryId = request.directoryId → lock.taskId ≠ request.taskId →
      request.mode ≠ .exclusive ∧ lock.mode ≠ .exclusive := by
  simp only [Store.isClear, TaskStore.conflicts, heldLocks, isHeld, Bool.not_eq_true',
    List.any_eq_false, List.mem_filter, Bool.and_eq_true, decide_eq_true_eq,
    decide_eq_false_iff_not, DirectoryLock.Held, not_or]
  constructor
  · exact fun h lock hmem hheld hdir hne => h lock ⟨⟨hmem, hdir, hheld⟩, hne⟩
  · exact fun h lock hl => h lock hl.1.1 hl.1.2.2 hl.1.2.1 hl.2

theorem mem_replaceLock {lock : DirectoryLock} : lock ∈ (s.replaceLock request now).locks ↔
    (lock ∈ s.locks ∧ ¬ (lock.directoryId = request.directoryId ∧
      lock.taskId = request.taskId)) ∨
    lock = ⟨request.directoryId, request.taskId, request.mode, .held, now, none⟩ := by
  simp only [replaceLock, List.mem_append, List.mem_filter, List.mem_singleton,
    Bool.not_eq_true', decide_eq_false_iff_not]

theorem locksExclude_replaceLock (request : LockRequest) (now : String)
    (h : LocksExclude s.locks) :
    LocksExclude (s.replaceLock request now).locks ↔ s.isClear request := by
  rw [isClear_iff]
  constructor
  · intro hnew lock hmem hheld hdir hne
    have hold : lock ∈ (s.replaceLock request now).locks :=
      mem_replaceLock.mpr (.inl ⟨hmem, fun hk => hne hk.2⟩)
    have hins : ⟨request.directoryId, request.taskId, request.mode, .held, now, none⟩ ∈
        (s.replaceLock request now).locks := mem_replaceLock.mpr (.inr rfl)
    constructor
    · intro hx
      exact hne (hnew _ hins rfl hx lock hold hheld hdir)
    · intro hx
      exact hne (hnew lock hold hheld hx _ hins rfl hdir.symm).symm
  · intro hclear lock hlock hheld hx other hother hoheld hdir
    rcases mem_replaceLock.mp hlock with ⟨hl, hlk⟩ | rfl
    · rcases mem_replaceLock.mp hother with ⟨ho, -⟩ | rfl
      · exact h lock hl hheld hx other ho hoheld hdir
      · by_contra hne
        exact (hclear lock hl hheld hdir.symm fun hk => hne hk.symm).2 hx
    · rcases mem_replaceLock.mp hother with ⟨ho, -⟩ | rfl
      · by_contra hne
        exact (hclear other ho hoheld hdir hne).1 hx
      · rfl

theorem mem_releaseLocks {lock : DirectoryLock} (h : lock ∈ (s.releaseLocks taskId now).locks)
    (hheld : lock.Held) : lock ∈ s.locks ∧ lock.taskId ≠ taskId := by
  obtain ⟨old, hold, rfl⟩ := List.mem_map.mp h
  split at hheld
  · cases hheld
  · rename_i hn
    rw [if_neg hn]
    exact ⟨hold, fun ht => hn ⟨ht, hheld⟩⟩

theorem locksExclude_releaseLocks (h : LocksExclude s.locks) :
    LocksExclude (s.releaseLocks taskId now).locks := by
  intro lock hlock hheld hx other hother hoheld hdir
  exact h lock (mem_releaseLocks hlock hheld).1 hheld hx other (mem_releaseLocks hother hoheld).1
    hoheld hdir

theorem locks_of_exec (q : DbStep) (input : DbStep.Input) (s : Store) :
    (q.exec input s).2.locks = s.locks ∨
    (∃ request now, q = .replaceLock request now ∧
      (q.exec input s).2.locks = (s.replaceLock request now).locks) ∨
    ∃ taskId now, (q = .releaseLocks taskId now ∨ ∃ next payload sequence,
        q = .updateTaskStatus taskId next payload sequence now ∧ next.isTerminal) ∧
      (q.exec input s).2.locks = (s.releaseLocks taskId now).locks := by
  have hwrites := writes_of_exec q input s
  generalize (q.exec input s).2 = s' at hwrites ⊢
  cases hwrites with
  | replaceLock request now => exact .inr (.inl ⟨request, now, rfl, rfl⟩)
  | releaseLocks taskId now => exact .inr (.inr ⟨taskId, now, .inl rfl, rfl⟩)
  | finish id next payload sequence now _ hterm =>
    exact .inr (.inr ⟨id, now, .inr ⟨next, payload, sequence, rfl, hterm⟩, rfl⟩)
  | _ => exact .inl rfl

end Locks

/-- The insertion that a thread is about to make, if any, is clear of other tasks' rows.
An insertion that an I/O error stops is made by no one. -/
def InsertsClear (p : StorePool) : StoreAction → Prop
  | .advance i (.proceed _) => ∀ op request now k,
      p.threads[i]? = some ⟨op, .step (.replaceLock request now) k⟩ → p.shared.isClear request
  | _ => True

theorem locksExclude_step {p p' : StorePool} {a : StoreAction} (h : LocksExclude p.shared.locks)
    (hs : storeStep p a = some p') : LocksExclude p'.shared.locks ↔ InsertsClear p a := by
  obtain ⟨op, rfl, rfl⟩ | ⟨i, input, op, q, k, rfl, hi, rfl⟩ := step_cases hs
  · exact iff_of_true h trivial
  cases input with
  | ioError => exact iff_of_true h trivial
  | proceed now =>
    by_cases hq : ∃ request at_, q = .replaceLock request at_
    · obtain ⟨request, at_, rfl⟩ := hq
      refine (locksExclude_replaceLock request at_ h).trans
        ⟨fun hclear op' request' at' k' hi' => ?_, fun hc => hc op request at_ k hi⟩
      rw [hi] at hi'
      cases hi'
      exact hclear
    · refine iff_of_true ?_ fun op' request at_ k' hi' => ?_
      · obtain hsame | ⟨request, at_, rfl, -⟩ | ⟨taskId, at_, -, hlocks⟩ :=
          locks_of_exec q (.proceed now) p.shared
        · change LocksExclude (q.exec (.proceed now) p.shared).2.locks
          rw [hsame]
          exact h
        · exact absurd ⟨request, at_, rfl⟩ hq
        · change LocksExclude (q.exec (.proceed now) p.shared).2.locks
          rw [hlocks]
          exact locksExclude_releaseLocks h
      · rw [hi] at hi'
        cases hi'
        exact absurd ⟨request, at_, rfl⟩ hq

/-- Along any run the table stays exclusive if and only if every insertion that
`acquire_lock` makes is clear of the rows that other tasks hold at that moment. -/
theorem lock_table_exclusive_iff (s : Store) (h : LocksExclude s.locks)
    (actions : List StoreAction) :
    Always storeStep (fun p => LocksExclude p.shared.locks) (startPool s) actions ↔
      Guarded storeStep InsertsClear (startPool s) actions :=
  always_iff_guarded (fun _ _ _ => locksExclude_step) h actions

def lockHandover : List StoreAction :=
  [.spawn (.acquireLock ⟨"dir_1", "task_1", .exclusive⟩), .advance 0 (.proceed "t0"),
    .advance 0 (.proceed "t0"), .advance 0 (.proceed "t0"),
    .spawn (.releaseLocks "task_1"), .advance 1 (.proceed "t1"), .advance 1 (.proceed "t1"),
    .spawn (.acquireLock ⟨"dir_1", "task_2", .exclusive⟩), .advance 2 (.proceed "t2"),
    .advance 2 (.proceed "t2"), .advance 2 (.proceed "t2")]

theorem lock_table_exclusive_iff_handover : LocksExclude Store.empty.locks ∧
    (Always storeStep (fun p => LocksExclude p.shared.locks) (startPool .empty) lockHandover ↔
      Guarded storeStep InsertsClear (startPool .empty) lockHandover) := by
  have hempty : LocksExclude Store.empty.locks := fun lock hmem => by cases hmem
  exact ⟨hempty, lock_table_exclusive_iff .empty hempty lockHandover⟩

def lockRace : List StoreAction :=
  [.spawn (.acquireLock ⟨"dir_1", "task_1", .exclusive⟩),
    .spawn (.acquireLock ⟨"dir_1", "task_2", .exclusive⟩),
    .advance 0 (.proceed "t0"), .advance 1 (.proceed "t0"),
    .advance 0 (.proceed "t1"), .advance 0 (.proceed "t1"),
    .advance 1 (.proceed "t2"), .advance 1 (.proceed "t2")]

theorem lockRace_not_exclusive : ∃ p : StorePool, StoreReaches false Store.empty p ∧
    ¬ LocksExclude p.shared.locks := by
  have hrun : (storeRun false .empty lockRace).map (fun p => p.shared.locks) =
      some [⟨"dir_1", "task_1", .exclusive, .held, "t1", none⟩,
        ⟨"dir_1", "task_2", .exclusive, .held, "t2", none⟩] := by decide
  obtain ⟨p, hp, hlocks⟩ := storeReaches_of_run hrun
  refine ⟨p, hp, fun h => ?_⟩
  rw [hlocks] at h
  have hsame := h _ (List.mem_cons_self ..) rfl rfl _ (List.mem_cons_of_mem _ List.mem_cons_self)
    rfl rfl
  exact absurd hsame (by decide)

end OpenDaemon
