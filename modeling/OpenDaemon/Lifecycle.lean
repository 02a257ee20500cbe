import Mathlib.Data.List.Chain
import OpenDaemon.EventLog

/-!
# Paths of the task state machine

The lifecycle events of a task should follow `validate_transition`. A transition
call checks the status it read first, and only the sequence number read later is
protected by the `UNIQUE` constraint: another commit between the two reads is not
noticed. The logs are paths in every run in which the transition is still allowed
when the sequence number is read.
-/

namespace OpenDaemon

open Runs Interleaving Store SequencedLog RowTable

def Follows (current next : TaskStatus) : Prop := validateTransition current next = .ok .changed

instance : DecidableRel Follows := fun current next =>
  inferInstanceAs (Decidable (validateTransition current next = .ok .changed))

/-- The statuses of a log are a path of the state machine that starts in `queued`. -/
structure LifecyclePath (log : List TaskEvent) : Prop where
  start : (statuses log).head? = some .queued
  path : (statuses log).IsChain Follows

section Paths
variable {log : List TaskEvent} {task : Task}

theorem not_follows_of_terminal {current next : TaskStatus} (h : current.isTerminal) :
    ¬ Follows current next := by
  rw [Follows, validateTransition_changed_iff, not_transitionAllowed_of_terminal h]
  exact Bool.false_ne_true

theorem LifecyclePath.terminal_last (h : LifecyclePath log) {before after : List TaskStatus}
    {status : TaskStatus} (heq : statuses log = before ++ status :: after)
    (hterm : status.isTerminal) : after = [] := by
  cases after with
  | nil => rfl
  | cons next after =>
    have hpath := h.path
    rw [heq, List.isChain_append_cons_cons] at hpath
    exact absurd hpath.2.1 (not_follows_of_terminal hterm)

theorem LifecyclePath.getLast?_of_terminal (h : LifecyclePath log) {status : TaskStatus}
    (hmem : status ∈ statuses log) (hterm : status.isTerminal) :
    (statuses log).getLast? = some status := by
  obtain ⟨before, after, heq⟩ := List.append_of_mem hmem
  obtain rfl := h.terminal_last heq hterm
  rw [heq, List.getLast?_concat]

theorem mem_statuses_of_firstAt {p : TaskStatus → Bool} (h : (firstAt log p).isSome) :
    ∃ status ∈ statuses log, p status := by
  rw [firstAt, Option.isSome_map, List.find?_isSome] at h
  obtain ⟨event, hmem, hany⟩ := h
  cases hst : event.eventType.status? with
  | none => simp [hst] at hany
  | some status =>
    rw [hst] at hany
    exact ⟨status, List.mem_filterMap.mpr ⟨event, hmem, hst⟩, hany⟩

theorem LifecyclePath.status_of_firstAt (h : LifecyclePath log) (hp : Projects log task)
    {p : TaskStatus → Bool} (hterm : ∀ status, p status → status.isTerminal)
    (hset : (firstAt log p).isSome) : p task.status := by
  obtain ⟨status, hmem, hps⟩ := mem_statuses_of_firstAt hset
  have hlast := h.getLast?_of_terminal hmem (hterm status hps)
  rw [hp.status] at hlast
  obtain rfl := Option.some.inj hlast
  exact hps

theorem LifecyclePath.one_timestamp (h : LifecyclePath log) (hp : Projects log task) :
    [task.completedAt, task.cancelledAt, task.failedAt].countP Option.isSome ≤ 1 := by
  have hcompleted : task.completedAt.isSome → task.status = .completed := by
    rw [hp.completedAt]
    intro hset
    simpa using h.status_of_firstAt hp (by simp [TaskStatus.isTerminal]) hset
  have hcancelled : task.cancelledAt.isSome → task.status = .cancelled := by
    rw [hp.cancelledAt]
    intro hset
    simpa using h.status_of_firstAt hp (by simp [TaskStatus.isTerminal]) hset
  have hfailed : task.failedAt.isSome → task.status = .failed ∨ task.status = .timedOut := by
    rw [hp.failedAt]
    intro hset
    have hterm : ∀ status : TaskStatus,
        decide (status = .failed ∨ status = .timedOut) → status.isTerminal := by
      intro status hst
      rcases of_decide_eq_true hst with rfl | rfl <;> rfl
    simpa using h.status_of_firstAt hp hterm hset
  cases hc : task.completedAt <;> cases hk : task.cancelledAt <;> cases hf : task.failedAt <;>
    simp_all

end Paths

section Step
variable {s s' : Store} {q : DbStep}

def LogsFollow (s : Store) : Prop :=
  ∀ id, (s.findTask id).isSome → LifecyclePath (s.eventsOf id)

theorem LifecyclePath.append_ordinary {log : List TaskEvent} {event : TaskEvent}
    (h : LifecyclePath log) (hev : event.eventType.status? = none) :
    LifecyclePath (log ++ [event]) := by
  have heq : statuses (log ++ [event]) = statuses log := statuses_append_ordinary hev
  exact ⟨by rw [heq]; exact h.start, by rw [heq]; exact h.path⟩

theorem LifecyclePath.append_lifecycle {log : List TaskEvent} {event : TaskEvent}
    {current next : TaskStatus} (h : LifecyclePath log)
    (hlast : (statuses log).getLast? = some current)
    (hev : event.eventType.status? = some next) (hf : Follows current next) :
    LifecyclePath (log ++ [event]) := by
  have heq : statuses (log ++ [event]) = statuses log ++ [next] := statuses_append_lifecycle hev
  refine ⟨?_, ?_⟩
  · rw [heq, List.head?_append, h.start]
    rfl
  · rw [heq, List.isChain_append]
    refine ⟨h.path, List.isChain_singleton _, fun x hx y hy => ?_⟩
    obtain rfl := Option.some.inj (hlast.symm.trans hx)
    obtain rfl := Option.some.inj hy
    exact hf

theorem logsFollow_step {op : TaskOp} (hs : s.WellFormed) (hp : LogsProject s)
    (hf : LogsFollow s) (hr : s.Ready q) (hi : StoreThreads.Issues op q)
    (hc : StoreThreads.Current s q) (he : Effect s s' q) : LogsFollow s' := by
  intro id hsome
  cases he with
  | quiet q htasks hevents =>
    rw [findTask_congr htasks] at hsome
    rw [eventsOf, hevents]
    exact hf id hsome
  | created row now htasks hevents =>
    rw [findTask_created hs htasks] at hsome
    by_cases hid : id = rowKey "task_" (nextRowid s.tasks)
    · have hlog := eventsOf_append_same hevents
      have hnil : s.eventsOf (rowKey "task_" (nextRowid s.tasks)) = [] :=
        entriesOf_eq_nil (not_mem_events_next hs)
      rw [hid, hlog, hnil]
      exact ⟨rfl, List.isChain_singleton _⟩
    · rw [if_neg hid] at hsome
      rw [eventsOf_append_other hevents hid]
      exact hf id hsome
  | transitioned tid next payload sequence now hu htasks hevents =>
    have hidf := fun task : Task => task.afterTransition_id next now
    rw [findTask_congr htasks, isSome_updateTask hidf] at hsome
    by_cases hid : id = tid
    · subst hid
      obtain ⟨task, htask⟩ := Option.isSome_iff_exists.mp hsome
      -- the sequence number is still the next one, so the status read with it is current
      have hnext := hs.next_eq hr.2.1 hr.2.2 hu
      have hallowed : Follows task.status next := by
        simpa [Store.allows, htask, Follows] using hc hnext
      have hlog := eventsOf_append_same hevents
      rw [hlog]
      exact (hf id hsome).append_lifecycle (hp id task htask).status
        (status?_eventTypeForStatus next) hallowed
    · rw [eventsOf_append_other hevents hid]
      exact hf id hsome
  | resulted tid result htasks hevents =>
    have hidf := fun task : Task => task.withResult_id result
    rw [findTask_congr htasks, updateTaskResult, isSome_updateTask hidf] at hsome
    rw [eventsOf, hevents]
    exact hf id hsome
  | logged q event hl hu htasks hevents =>
    rw [findTask_congr htasks] at hsome
    by_cases hid : id = event.taskId
    · subst hid
      rw [eventsOf_append_same hevents]
      exact (hf _ hsome).append_ordinary (logs_ordinary hl hi)
    · rw [eventsOf_append_other hevents hid]
      exact hf id hsome

end Step

structure TerminalFinal (s : Store) (task : Task) : Prop where
  path : LifecyclePath (s.eventsOf task.id)
  final : ∀ before status after, statuses (s.eventsOf task.id) = before ++ status :: after →
    status.isTerminal → after = []
  timestamps : [task.completedAt, task.cancelledAt, task.failedAt].countP Option.isSome ≤ 1

/-- Terminal states are final in every run in which each transition call reads its
sequence number while the status of the row still allows the transition. -/
theorem terminal_states_final {p : StorePool} (h : StoreReaches true Store.empty p) :
    ∀ r ∈ p.shared.tasks, TerminalFinal p.shared r.value := by
  have hwf := wellFormed_of_storeReaches wellFormed_empty h
  have hproj := logsProject_of_storeReaches wellFormed_empty logsProject_empty h
  have hboth : LogsProject p.shared ∧ LogsFollow p.shared := by
    refine storeReaches_invariant (I := fun s => LogsProject s ∧ LogsFollow s) wellFormed_empty h
      ⟨logsProject_empty, fun id hsome => by cases hsome⟩ ?_
    intro op q t t' hs hI hr hi hc he
    exact ⟨logsProject_step hs hI.1 hi he, logsFollow_step hs hI.1 hI.2 hr hi (hc rfl) he⟩
  intro r hr
  have hfind := hwf.mem_findTask hr
  have hpath := hboth.2 r.value.id (by rw [hfind]; rfl)
  exact ⟨hpath, fun _ _ _ => hpath.terminal_last, hpath.one_timestamp (hproj _ _ hfind)⟩

set_option maxRecDepth 10000 in
theorem terminal_states_final_cancelled : ∃ p : StorePool,
    p.shared.tasks.map (fun r => statuses (p.shared.eventsOf r.value.id)) =
      [[.queued, .waitingDirectoryLock, .preparing, .running, .cancelled]] ∧
    ∀ r ∈ p.shared.tasks, TerminalFinal p.shared r.value := by
  have hrun : (storeRun true .empty (runToRunning ++ .spawn (.cancel "task_1") ::
      advances 4 7 "t4")).map
      (fun p => p.shared.tasks.map fun r => statuses (p.shared.eventsOf r.value.id)) =
      some [[.queued, .waitingDirectoryLock, .preparing, .running, .cancelled]] := by decide
  obtain ⟨p, hp, hf⟩ := storeReaches_of_run hrun
  exact ⟨p, hf, terminal_states_final hp⟩

/-- Completion and cancellation both read `running`; the cancellation reads its
sequence number after the completion has committed. -/
def completionRace : List StoreAction :=
  runToRunning ++ .spawn (.transition "task_1" .completed none) :: .spawn (.cancel "task_1") ::
    advances 4 1 "t4" ++ advances 5 1 "t4" ++ advances 4 3 "t5" ++ advances 5 3 "t6"

set_option maxRecDepth 10000 in
theorem completionRace_not_final : ∃ p : StorePool, StoreReaches false Store.empty p ∧
    ∃ r ∈ p.shared.tasks, ¬ TerminalFinal p.shared r.value := by
  have hrun : (storeRun false .empty completionRace).map
      (fun p => p.shared.tasks.map fun r => statuses (p.shared.eventsOf r.value.id)) =
      some [[.queued, .waitingDirectoryLock, .preparing, .running, .completed, .cancelled]] := by
    decide
  obtain ⟨p, hp, hf⟩ := storeReaches_of_run hrun
  refine ⟨p, hp, ?_⟩
  obtain ⟨r, hr, hst⟩ := List.mem_map.mp (hf ▸ List.mem_singleton.mpr rfl)
  refine ⟨r, hr, fun hfinal => ?_⟩
  have hnil := hfinal.final [.queued, .waitingDirectoryLock, .preparing, .running] .completed
    [.cancelled] hst rfl
  cases hnil

end OpenDaemon
