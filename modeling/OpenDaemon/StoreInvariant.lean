import OpenDaemon.StoreEffects

/-!
# Well-formed stores

Task ids are derived from rowids, events belong to stored tasks and carry the
id made from task and sequence, and the events of each task are numbered from
one without gaps. Every step keeps this, provided a step that uses a sequence
number was given one that had been the next one at some earlier moment.
-/

namespace OpenDaemon

open RowTable SequencedLog

namespace Store

variable {s s' : Store} {id : String}

structure WellFormed (s : Store) : Prop where
  taskKeys : Keyed Task.id (rowKey "task_") s.tasks
  eventIds : ∀ event ∈ s.events, event.id = eventId event.taskId event.sequence
  eventTasks : ∀ event ∈ s.events, (s.findTask event.taskId).isSome
  contiguous : ∀ taskId, Contiguous TaskEvent.taskId TaskEvent.sequence s.events taskId

theorem wellFormed_empty : WellFormed empty where
  taskKeys := Keyed.nil
  eventIds := by simp [empty]
  eventTasks := by simp [empty]
  contiguous := fun _ => Contiguous.of_empty (by simp [empty])

/-- What the caller knows of the sequence number and the task when it sends a step. -/
def Ready (s : Store) : DbStep → Prop
  | .updateTaskStatus id _ _ sequence _ | .insertEvent id sequence _ _ _ =>
    (s.findTask id).isSome ∧ 1 ≤ sequence ∧ sequence ≤ s.nextSequence id
  | .insertPermissionRequest id _ _ | .resolvePermissionRequest id _ _ _ _ =>
    (s.findTask id).isSome
  | _ => True

/-- Tasks stay, event logs grow at their end, and a status changes only with a new event. -/
structure Extends (s s' : Store) : Prop where
  tasks : ∀ id, (s.findTask id).isSome → (s'.findTask id).isSome
  events : s.events <+: s'.events
  status : ∀ id, s'.nextSequence id = s.nextSequence id →
    (s'.findTask id).map Task.status = (s.findTask id).map Task.status

theorem Extends.refl (s : Store) : Extends s s :=
  ⟨fun _ h => h, List.prefix_rfl, fun _ _ => rfl⟩

theorem Extends.sequence (h : Extends s s') (id : String) :
    s.nextSequence id ≤ s'.nextSequence id :=
  nextSeq_mono h.events.subset

theorem findTask_id {task : Task} (h : s.findTask id = some task) : task.id = id := by
  obtain ⟨-, -, -, hid⟩ := lookup_mem h
  simpa using hid

theorem findTask_congr (h : s'.tasks = s.tasks) (id : String) : s'.findTask id = s.findTask id := by
  simp only [findTask, h]

theorem findTask_updateTask {f : Task → Task} (hf : ∀ task, (f task).id = task.id)
    (id id' : String) : (s.updateTask id f).findTask id' =
      (s.findTask id').map fun task => if task.id = id then f task else task :=
  lookup_update hf s.tasks

theorem findTask_updateTask_self {f : Task → Task} (hf : ∀ task, (f task).id = task.id)
    (id : String) : (s.updateTask id f).findTask id = (s.findTask id).map f := by
  rw [findTask_updateTask hf]
  cases h : s.findTask id with
  | none => rfl
  | some task => simp [findTask_id h]

theorem findTask_updateTask_ne {f : Task → Task} (hf : ∀ task, (f task).id = task.id)
    {id' : String} (hne : id' ≠ id) : (s.updateTask id f).findTask id' = s.findTask id' := by
  rw [findTask_updateTask hf]
  cases h : s.findTask id' with
  | none => rfl
  | some task => simp [findTask_id h, hne]

theorem isSome_updateTask {f : Task → Task} (hf : ∀ task, (f task).id = task.id)
    (id id' : String) : ((s.updateTask id f).findTask id').isSome = (s.findTask id').isSome := by
  rw [findTask_updateTask hf, Option.isSome_map]

theorem WellFormed.keyed_updateTask (h : WellFormed s) {f : Task → Task}
    (hf : ∀ task, (f task).id = task.id) (id : String) :
    Keyed Task.id (rowKey "task_") (s.updateTask id f).tasks :=
  Keyed.update (p := fun task : Task => decide (task.id = id)) h.taskKeys hf

theorem WellFormed.mem_findTask (h : WellFormed s) {r : Row Task} (hr : r ∈ s.tasks) :
    s.findTask r.value.id = some r.value :=
  h.taskKeys.lookup_eq (rowKey_injective _) hr

theorem findTask_next (h : WellFormed s) :
    s.findTask (rowKey "task_" (nextRowid s.tasks)) = none := by
  refine lookup_none.mpr fun r hr => ?_
  have hne := h.taskKeys.next_fresh (rowKey_injective _) hr
  simpa using hne

theorem findTask_created {row : NewTask} {now : String} (h : WellFormed s)
    (ht : s'.tasks = insert s.tasks (row.toTask now)) (id : String) :
    s'.findTask id = if id = rowKey "task_" (nextRowid s.tasks)
      then some (row.toTask now (nextRowid s.tasks)) else s.findTask id := by
  simp only [findTask, ht, lookup_insert]
  by_cases hid : id = rowKey "task_" (nextRowid s.tasks)
  · have hnone := findTask_next h
    simp only [findTask] at hnone
    simp [hid, hnone, NewTask.toTask]
  · have hne : ¬ rowKey "task_" (nextRowid s.tasks) = id := fun he => hid he.symm
    simp [hid, hne, NewTask.toTask]

theorem not_mem_events_next (h : WellFormed s) :
    ∀ event ∈ s.events, event.taskId ≠ rowKey "task_" (nextRowid s.tasks) := by
  intro event he heq
  have hsome := h.eventTasks event he
  rw [heq, findTask_next h] at hsome
  cases hsome

theorem WellFormed.next_eq (h : WellFormed s) {sequence : ℕ} (h1 : 1 ≤ sequence)
    (hle : sequence ≤ s.nextSequence id) (hu : s.Unused id sequence) :
    sequence = s.nextSequence id :=
  (h.contiguous id).stale_eq_next h1 hle hu

theorem WellFormed.append {event : TaskEvent} (h : WellFormed s)
    (hev : s'.events = s.events ++ [event])
    (hid : event.id = eventId event.taskId event.sequence)
    (hseq : event.sequence = s.nextSequence event.taskId)
    (htask : (s'.findTask event.taskId).isSome)
    (hkeep : ∀ id, (s.findTask id).isSome → (s'.findTask id).isSome)
    (hkeys : Keyed Task.id (rowKey "task_") s'.tasks) : WellFormed s' where
  taskKeys := hkeys
  eventIds := by
    intro e he
    rw [hev, List.mem_append, List.mem_singleton] at he
    rcases he with he | rfl
    · exact h.eventIds e he
    · exact hid
  eventTasks := by
    intro e he
    rw [hev, List.mem_append, List.mem_singleton] at he
    rcases he with he | rfl
    · exact hkeep _ (h.eventTasks e he)
    · exact htask
  contiguous := by
    intro id
    rw [hev]
    by_cases hk : event.taskId = id
    · subst hk
      exact (h.contiguous _).append_same rfl hseq
    · exact (h.contiguous id).append_other hk

theorem Extends.append {event : TaskEvent} (hev : s'.events = s.events ++ [event])
    (hseq : event.sequence = s.nextSequence event.taskId)
    (hkeep : ∀ id, (s.findTask id).isSome → (s'.findTask id).isSome)
    (hother : ∀ id, id ≠ event.taskId → s'.findTask id = s.findTask id) : Extends s s' where
  tasks := hkeep
  events := by
    rw [hev]
    exact List.prefix_append _ _
  status := by
    intro id heq
    by_cases hk : id = event.taskId
    · subst hk
      have hlt : s.nextSequence event.taskId < s'.nextSequence event.taskId := by
        simp only [nextSequence, hev]
        exact nextSeq_lt_append rfl hseq.ge
      omega
    · rw [hother id hk]

theorem WellFormed.of_events (hs : WellFormed s) (hevents : s'.events = s.events)
    (hkeys : Keyed Task.id (rowKey "task_") s'.tasks)
    (hkeep : ∀ id, (s.findTask id).isSome → (s'.findTask id).isSome) : WellFormed s' := by
  refine ⟨hkeys, by rw [hevents]; exact hs.eventIds, ?_, ?_⟩
  · intro event hev
    exact hkeep _ (hs.eventTasks event (by rwa [hevents] at hev))
  · intro id
    rw [hevents]
    exact hs.contiguous id

theorem nextSequence_next (hs : WellFormed s) :
    s.nextSequence (rowKey "task_" (nextRowid s.tasks)) = 1 := by
  have hnil := entriesOf_eq_nil (not_mem_events_next hs)
  simp [nextSequence, nextSeq, hnil]

end Store

open Store

variable {s s' : Store} {q : DbStep}

theorem Task.afterTransition_id (task : Task) (next : TaskStatus) (now : String) :
    (task.afterTransition next now).id = task.id := rfl

theorem Task.withResult_id (task : Task) (result : TaskResult) :
    (task.withResult result).id = task.id := rfl

theorem logs_spec {event : TaskEvent} (hs : WellFormed s) (hl : Logs s q event) (hr : Ready s q)
    (hu : s.Unused event.taskId event.sequence) :
    event.id = eventId event.taskId event.sequence ∧ (s.findTask event.taskId).isSome ∧
      event.sequence = s.nextSequence event.taskId := by
  cases hl with
  | insertEvent taskId sequence eventType payload now =>
    exact ⟨rfl, hr.1, hs.next_eq hr.2.1 hr.2.2 hu⟩
  | requested taskId request now => exact ⟨rfl, hr, rfl⟩
  | decided taskId requestId decision reason now => exact ⟨rfl, hr, rfl⟩

theorem status_withResult {id : String} {result : TaskResult}
    (htasks : s'.tasks = (s.updateTaskResult id result).tasks) (id' : String) :
    (s'.findTask id').map Task.status = (s.findTask id').map Task.status := by
  rw [findTask_congr htasks, updateTaskResult,
    findTask_updateTask fun task : Task => task.withResult_id result, Option.map_map]
  congr 1
  funext task
  simp only [Function.comp]
  split <;> rfl

/-- A step that was ready keeps the store well formed and only extends it. -/
theorem effect_spec (hs : WellFormed s) (he : Effect s s' q) (hr : Ready s q) :
    WellFormed s' ∧ Extends s s' := by
  cases he with
  | quiet q htasks hevents =>
    have hfind := findTask_congr htasks
    have hkeep : ∀ id, (s.findTask id).isSome → (s'.findTask id).isSome := by
      intro id h
      rwa [hfind]
    refine ⟨hs.of_events hevents ?_ hkeep, hkeep, hevents ▸ List.prefix_rfl, fun id _ => ?_⟩
    · rw [htasks]
      exact hs.taskKeys
    · rw [hfind]
  | created row now htasks hevents =>
    have hfind := findTask_created hs htasks
    have hseq := (nextSequence_next hs).symm
    have hkeep : ∀ id, (s.findTask id).isSome → (s'.findTask id).isSome := by
      intro id h
      rw [hfind]
      split
      · rfl
      · exact h
    refine ⟨hs.append hevents rfl hseq ?_ hkeep ?_, Extends.append hevents hseq hkeep ?_⟩
    · rw [hfind, if_pos rfl]
      rfl
    · rw [htasks]
      exact hs.taskKeys.insert fun _ => rfl
    · intro id hne
      rw [hfind, if_neg hne]
  | transitioned id next payload sequence now hu htasks hevents =>
    obtain ⟨hsome, h1, hle⟩ := hr
    -- the number was the next one once and is unused, so it is the next one now
    have hseq := hs.next_eq h1 hle hu
    have hid := fun task : Task => task.afterTransition_id next now
    have hfind := findTask_congr htasks
    have hkeep : ∀ i, (s.findTask i).isSome → (s'.findTask i).isSome := by
      intro i h
      rwa [hfind, isSome_updateTask hid]
    refine ⟨hs.append hevents rfl hseq (hkeep id hsome) hkeep ?_,
      Extends.append hevents hseq hkeep ?_⟩
    · rw [htasks]
      exact hs.keyed_updateTask hid id
    · intro i hne
      rw [hfind, findTask_updateTask_ne hid hne]
  | resulted id result htasks hevents =>
    have hid := fun task : Task => task.withResult_id result
    have hkeep : ∀ i, (s.findTask i).isSome → (s'.findTask i).isSome := by
      intro i h
      rwa [findTask_congr htasks, updateTaskResult, isSome_updateTask hid]
    refine ⟨hs.of_events hevents ?_ hkeep, hkeep, hevents ▸ List.prefix_rfl,
      fun i _ => status_withResult htasks i⟩
    rw [htasks]
    exact hs.keyed_updateTask hid id
  | logged q event hl hu htasks hevents =>
    obtain ⟨hid, hsome, hseq⟩ := logs_spec hs hl hr hu
    have hfind := findTask_congr htasks
    have hkeep : ∀ i, (s.findTask i).isSome → (s'.findTask i).isSome := by
      intro i h
      rwa [hfind]
    refine ⟨hs.append hevents hid hseq (hkeep _ hsome) hkeep ?_,
      Extends.append hevents hseq hkeep fun i _ => hfind i⟩
    rw [htasks]
    exact hs.taskKeys

end OpenDaemon
