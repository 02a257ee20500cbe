import OpenDaemon.EventLog

/-!
# Task rows as projections of their logs

The timestamps of a row are the times of the first events of their kind, and
the columns that `create` wrote never change: for every row there is a moment
in the run at which a `create` call committed it with exactly these columns.
-/

namespace OpenDaemon

open Runs Interleaving Store RowTable

def Task.creation (task : Task) : NewTask × String :=
  ({ ownerProductId := task.ownerProductId
     agentId := task.agentId
     directoryId := task.directoryId
     prompt := task.prompt
     requiredCapabilities := task.requiredCapabilities
     workspaceMode := task.workspaceMode
     directModeTaskOptIn := task.directModeTaskOptIn
     metadata := task.metadata
     providerId := task.providerId
     model := task.model
     permissionMode := task.permissionMode
     timeoutSeconds := task.timeoutSeconds }, task.createdAt)

theorem creation_afterTransition (task : Task) (next : TaskStatus) (now : String) :
    (task.afterTransition next now).creation = task.creation := rfl

theorem creation_withResult (task : Task) (result : TaskResult) :
    (task.withResult result).creation = task.creation := rfl

section Step
variable {s s' : Store} {q : DbStep}

theorem creation_step (hs : s.WellFormed) (he : Effect s s' q) {id : String} {task : Task}
    (hfind : s'.findTask id = some task) :
    (∃ old, s.findTask id = some old ∧ old.creation = task.creation) ∨
    ∃ row now, q = .insertTask row now ∧ s.findTask id = none ∧ task.creation = (row, now) := by
  cases he with
  | quiet q htasks hevents =>
    rw [findTask_congr htasks] at hfind
    exact .inl ⟨task, hfind, rfl⟩
  | created row now htasks hevents =>
    rw [findTask_created hs htasks] at hfind
    split at hfind
    · rename_i hid
      obtain rfl := Option.some.inj hfind
      exact .inr ⟨row, now, rfl, hid ▸ findTask_next hs, rfl⟩
    · exact .inl ⟨task, hfind, rfl⟩
  | transitioned tid next payload sequence now hu htasks hevents =>
    rw [findTask_congr htasks,
      findTask_updateTask fun task : Task => task.afterTransition_id next now] at hfind
    obtain ⟨old, hold, rfl⟩ := Option.map_eq_some_iff.mp hfind
    refine .inl ⟨old, hold, ?_⟩
    split
    · exact (creation_afterTransition old next now).symm
    · rfl
  | resulted tid result htasks hevents =>
    rw [findTask_congr htasks, updateTaskResult,
      findTask_updateTask fun task : Task => task.withResult_id result] at hfind
    obtain ⟨old, hold, rfl⟩ := Option.map_eq_some_iff.mp hfind
    refine .inl ⟨old, hold, ?_⟩
    split
    · exact (creation_withResult old result).symm
    · rfl
  | logged q event hl hu htasks hevents =>
    rw [findTask_congr htasks] at hfind
    exact .inl ⟨task, hfind, rfl⟩

end Step

/-- At some moment of the run up to `p` a `create` call with this input committed the row
`id` at the time `now`. -/
def WrittenByCreate (s : Store) (p : StorePool) (id : String) (columns : NewTask × String) :
    Prop :=
  ∃ (before after : StorePool) (i : ℕ) (input : CreateTask) (at_ : DbStep.Input)
    (k : DbStep.Answer (.insertTask (TaskStore.newTask input) columns.2) →
      TaskCall (TaskOp.create input).Result),
    StoreReaches false s before ∧
    before.threads[i]? =
      some ⟨.create input, .step (.insertTask (TaskStore.newTask input) columns.2) k⟩ ∧
    storeStep before (.advance i at_) = some after ∧
    before.shared.findTask id = none ∧
    (after.shared.findTask id).map Task.creation = some columns ∧
    columns.1 = TaskStore.newTask input ∧
    Reaches storeStep (StoreGuard false) after p

variable {s : Store} {p p' : StorePool} {a : StoreAction}

theorem WrittenByCreate.tail {id : String} {columns : NewTask × String}
    (h : WrittenByCreate s p id columns) (hok : StoreGuard false p a)
    (hstep : storeStep p a = some p') : WrittenByCreate s p' id columns := by
  obtain ⟨before, after, i, input, at_, k, h1, h2, h3, h4, h5, h6, h7⟩ := h
  exact ⟨before, after, i, input, at_, k, h1, h2, h3, h4, h5, h6, h7.tail hok hstep⟩

theorem writtenByCreate_of_storeReaches (hs : s.WellFormed) (hnone : s.tasks = [])
    (h : StoreReaches false s p) {id : String} {task : Task}
    (hfind : p.shared.findTask id = some task) : WrittenByCreate s p id task.creation := by
  induction h generalizing id task with
  | refl =>
    rw [startPool, findTask, hnone] at hfind
    cases hfind
  | @tail p p' a hr hok hstep ih =>
    obtain hsame | ⟨i, input, op, q, k, rfl, hi, heq, hwf, hready, hissues, -⟩ :=
      storeStep_cases hs hr hstep
    · rw [hsame] at hfind
      exact (ih hfind).tail hok hstep
    · rw [heq] at hfind
      obtain ⟨old, hold, hsame⟩ | ⟨row, now, rfl, hnew, hcols⟩ :=
        creation_step hwf (effect_of_exec q input p.shared) hfind
      · rw [← hsame]
        exact (ih hold).tail hok hstep
      · obtain ⟨create, rfl, rfl⟩ := hissues
        rw [hcols]
        refine ⟨p, p', i, create, input, k, hr, hi, hstep, hnew, ?_, rfl, .refl⟩
        rw [heq, hfind, Option.map_some, hcols]

structure RowProjection (p : StorePool) (task : Task) : Prop where
  startedAt : task.startedAt =
    firstAt (p.shared.eventsOf task.id) fun status => status = .running
  completedAt : task.completedAt =
    firstAt (p.shared.eventsOf task.id) fun status => status = .completed
  cancelledAt : task.cancelledAt =
    firstAt (p.shared.eventsOf task.id) fun status => status = .cancelled
  failedAt : task.failedAt =
    firstAt (p.shared.eventsOf task.id) fun status => status = .failed ∨ status = .timedOut
  columns : WrittenByCreate Store.empty p task.id task.creation

/-- Every row agrees with its log, and its other columns are those its `create` call
wrote. -/
theorem task_row_is_projection (h : StoreReaches false Store.empty p) :
    ∀ r ∈ p.shared.tasks, RowProjection p r.value := by
  intro r hr
  have hwf := wellFormed_of_storeReaches wellFormed_empty h
  have hfind := hwf.mem_findTask hr
  have hproj := logsProject_of_storeReaches wellFormed_empty logsProject_empty h _ _ hfind
  exact ⟨hproj.startedAt, hproj.completedAt, hproj.cancelledAt, hproj.failedAt,
    writtenByCreate_of_storeReaches wellFormed_empty rfl h hfind⟩

set_option maxRecDepth 10000 in
theorem task_row_is_projection_completed : ∃ p : StorePool,
    p.shared.tasks.map (fun r => (r.value.startedAt, r.value.completedAt)) =
      [(some "t3", some "t4")] ∧
    ∀ r ∈ p.shared.tasks, RowProjection p r.value := by
  have hrun : (storeRun false .empty (runToRunning ++
      .spawn (.transition "task_1" .completed none) :: advances 4 7 "t4")).map
      (fun p => p.shared.tasks.map fun r => (r.value.startedAt, r.value.completedAt)) =
      some [(some "t3", some "t4")] := by decide
  obtain ⟨p, hp, hf⟩ := storeReaches_of_run hrun
  exact ⟨p, hf, task_row_is_projection hp⟩

end OpenDaemon
