import OpenDaemon.StoreThreads
import OpenDaemon.ServiceSteps
import OpenDaemon.PolicyCalls

/-!
# Well-formed stores under whole service calls

What holds in every interleaving holds of each store call run alone, so every
step of the services keeps the store well formed, whatever the outside answers.
-/

namespace OpenDaemon

open Interleaving Store

variable {s : Store} {now : String}

theorem wellFormed_runAlone (hs : s.WellFormed) (op : TaskOp) :
    (runAlone op.program now s).2.WellFormed := by
  by_cases hop : op.isOrdinary
  · have hsafe : Safe (StoreThreads.discipline false) DbStep.exec op 0 op.program
        (fun _ _ => True) (StoreThreads.Post fun _ _ => True) :=
      StoreThreads.holds_program op hop
    have hguard : ∀ s q, (StoreThreads.discipline false).guard s op q := by
      intro s q hstrict
      cases hstrict
    obtain ⟨_, hwf, -⟩ := hsafe.run (g := ()) hguard (fun _ => .proceed now) hs trivial
    exact hwf
  · -- a lifecycle event that is appended by itself is an event like any other
    cases op with
    | appendEvent taskId eventType payload =>
      rw [TaskOp.program, runAlone_appendEvent hs]
      cases hfind : s.findTask taskId with
      | none => exact hs
      | some task => exact wellFormed_logged hs (hfind ▸ rfl) eventType payload
    | _ => exact absurd rfl hop

theorem wellFormed_grantOp (hs : s.WellFormed) (op : GrantOp) :
    (runAlone op.program now s).2.WellFormed :=
  wellFormed_of_same hs (sameTasks_grantOp op now s).tasks (sameTasks_grantOp op now s).events

theorem wellFormed_profileOp (hs : s.WellFormed) (op : ProfileOp) :
    (runAlone op.program now s).2.WellFormed :=
  wellFormed_of_same hs (sameTasks_profileOp op now s).tasks (sameTasks_profileOp op now s).events

theorem wellFormed_exec (hs : s.WellFormed) (q : ServiceStep) (input : ServiceStep.Input) :
    (q.exec input s).2.WellFormed := by
  cases q with
  | tasks op => exact wellFormed_runAlone hs op
  | grants op => exact wellFormed_grantOp hs op
  | profiles op => exact wellFormed_profileOp hs op
  | loadRegistry | getRuntime _ | prepareWorkspace _ _ _ | executeAdapter _ | clock => exact hs

theorem wellFormed_runService {ε α : Type} (hs : s.WellFormed) (c : ServiceCall ε α)
    (inputs : ℕ → ServiceStep.Input) : (runService c inputs s).2.WellFormed := by
  induction c generalizing inputs s with
  | ret a => exact hs
  | fail e => exact hs
  | step q k ih => exact ih _ (wellFormed_exec hs q _) _

/-- The steps of the scheduler and execution services, admission of new tasks apart. -/
def ServiceStep.schedules : ServiceStep → Prop
  | .tasks (.get _) | .tasks (.list _) | .tasks (.transition ..) | .tasks (.cancel _)
  | .tasks (.saveResult ..) | .tasks (.saveExecutionResult _) | .tasks (.appendEvent ..)
  | .tasks (.acquireLock _) | .tasks (.releaseLocks _) | .grants (.get _) | .profiles (.get _)
  | .loadRegistry | .getRuntime _ | .prepareWorkspace .. | .executeAdapter _ | .clock => True
  | _ => False

def ServiceStep.target? : ServiceStep → Option (String × TaskStatus)
  | .tasks op => op.target?
  | _ => none

def Store.statusRows (s : Store) : List (String × TaskStatus) :=
  s.tasks.map fun r => (r.value.id, r.value.status)

theorem statusRows_moved (id : String) (next : TaskStatus) (payload : Option Value) :
    (s.moved id next payload now).statusRows =
      s.statusRows.map fun row => if row.1 = id then (row.1, next) else row := by
  rw [Store.statusRows, moved_tasks]
  simp only [Store.statusRows, Store.updateTask, RowTable.update, List.map_map]
  refine List.map_congr_left fun r _ => ?_
  by_cases hid : r.value.id = id
  · simp [hid, Task.afterTransition]
  · simp [hid]

theorem statusRows_updateTaskResult (id : String) (result : TaskResult) :
    (s.updateTaskResult id result).statusRows = s.statusRows := by
  simp only [Store.statusRows, Store.updateTaskResult, Store.updateTask, RowTable.update,
    List.map_map]
  refine List.map_congr_left fun r _ => ?_
  by_cases hid : r.value.id = id
  · simp [hid, Task.withResult]
  · simp [hid]

theorem statusRows_transition (hs : s.WellFormed) (id : String) (next : TaskStatus)
    (payload : Option Value) :
    (runAlone (TaskStore.transition id next payload) now s).2.statusRows = s.statusRows ∨
    ∃ task, s.findTask id = some task ∧ transitionAllowed task.status next ∧
      (runAlone (TaskStore.transition id next payload) now s).2.statusRows =
        s.statusRows.map fun row => if row.1 = id then (row.1, next) else row := by
  obtain ⟨e, hr⟩ | ⟨task, -, -, -, hr⟩ | ⟨task, hfind, hallowed, hr⟩ :=
    transition_cases hs id next payload now
  · exact .inl (by rw [hr])
  · exact .inl (by rw [hr])
  · refine .inr ⟨task, hfind, hallowed, ?_⟩
    rw [hr]
    exact statusRows_moved id next payload

/-- A step leaves the statuses of all tasks alone, or it moves its target along an allowed
transition. -/
theorem statusRows_exec (hs : s.WellFormed) (q : ServiceStep) (hq : q.schedules)
    (input : ServiceStep.Input) :
    (q.exec input s).2.statusRows = s.statusRows ∨
    ∃ id next task, q.target? = some (id, next) ∧ s.findTask id = some task ∧
      transitionAllowed task.status next ∧ (q.exec input s).2.statusRows =
        s.statusRows.map fun row => if row.1 = id then (row.1, next) else row := by
  cases q with
  | tasks op =>
    simp only [ServiceStep.exec]
    cases op with
    | transition id next payload =>
      rcases statusRows_transition hs id next payload with h | ⟨task, h⟩
      · exact .inl h
      · exact .inr ⟨id, next, task, rfl, h⟩
    | cancel id =>
      rcases statusRows_transition hs id .cancelled none with h | ⟨task, h⟩
      · exact .inl h
      · exact .inr ⟨id, .cancelled, task, rfl, h⟩
    | get id =>
      left
      rw [TaskOp.program, runAlone_get]
      cases s.findTask id <;> rfl
    | list filters =>
      left
      rw [TaskOp.program, runAlone_list]
    | saveResult id finalMessage changedFiles =>
      left
      rw [TaskOp.program]
      obtain hr | ⟨result, hr⟩ := runAlone_saveResult (s := s) finalMessage changedFiles
      · rw [hr]
      · rw [hr]
        exact statusRows_updateTaskResult id result
    | saveExecutionResult result =>
      left
      rw [TaskOp.program, runAlone_saveExecutionResult]
      exact statusRows_updateTaskResult _ result
    | appendEvent taskId eventType payload =>
      left
      rw [TaskOp.program, runAlone_appendEvent hs]
      cases s.findTask taskId <;> rfl
    | acquireLock request =>
      left
      rw [TaskOp.program, runAlone_acquireLock]
      split <;> rfl
    | releaseLocks taskId => exact .inl rfl
    | create _ | recordPermissionRequest _ _ | resolvePermissionRequest _ _ _ _ => cases hq
  | grants op =>
    cases op with
    | get id => exact .inl (by rw [ServiceStep.exec_reads (.grants (.get id)) trivial])
    | _ => cases hq
  | profiles op =>
    cases op with
    | get id => exact .inl (by rw [ServiceStep.exec_reads (.profiles (.get id)) trivial])
    | _ => cases hq
  | loadRegistry | getRuntime _ | prepareWorkspace _ _ _ | executeAdapter _ | clock => exact .inl rfl

end OpenDaemon
