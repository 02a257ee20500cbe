import OpenDaemon.StoreThreads

/-!
# Event logs and the task rows they determine

Under any interleaving of store calls the events of a task are numbered from
one without gaps, nothing committed is overwritten, and status and timestamps
of the row are those that the log names. A row changes only in the transaction
that adds the event, so this holds although the decision to write was taken in
an earlier step on another connection.
-/

namespace OpenDaemon

open Runs Interleaving Store SequencedLog RowTable

def statuses (log : List TaskEvent) : List TaskStatus :=
  log.filterMap fun event => event.eventType.status?

def firstAt (log : List TaskEvent) (p : TaskStatus → Bool) : Option String :=
  (log.find? fun event => event.eventType.status?.any p).map TaskEvent.createdAt

structure Projects (log : List TaskEvent) (task : Task) : Prop where
  first : log.head?.map TaskEvent.eventType = some .queued
  status : (statuses log).getLast? = some task.status
  startedAt : task.startedAt = firstAt log fun status => status = .running
  completedAt : task.completedAt = firstAt log fun status => status = .completed
  cancelledAt : task.cancelledAt = firstAt log fun status => status = .cancelled
  failedAt : task.failedAt = firstAt log fun status => status = .failed ∨ status = .timedOut

section Append
variable {log : List TaskEvent} {event : TaskEvent} {task : Task} {status : TaskStatus}

theorem head?_append_of_first {t : TaskEventType}
    (h : log.head?.map TaskEvent.eventType = some t) :
    (log ++ [event]).head?.map TaskEvent.eventType = some t := by
  cases log with
  | nil => simp at h
  | cons e log => exact h

theorem statuses_append_ordinary (h : event.eventType.status? = none) :
    statuses (log ++ [event]) = statuses log := by
  simp [statuses, List.filterMap_append, h]

theorem statuses_append_lifecycle (h : event.eventType.status? = some status) :
    statuses (log ++ [event]) = statuses log ++ [status] := by
  simp [statuses, List.filterMap_append, h]

theorem firstAt_append_ordinary (h : event.eventType.status? = none) (p : TaskStatus → Bool) :
    firstAt (log ++ [event]) p = firstAt log p := by
  simp [firstAt, List.find?_append, h]

theorem firstAt_append_lifecycle (h : event.eventType.status? = some status)
    (p : TaskStatus → Bool) :
    firstAt (log ++ [event]) p =
      coalesce (firstAt log p) (timestampIf (p status) event.createdAt) := by
  simp only [firstAt, List.find?_append]
  cases hfind : log.find? fun event => event.eventType.status?.any p with
  | some e => simp [coalesce]
  | none =>
    by_cases hp : p status
    · simp [coalesce, timestampIf, h, hp]
    · simp [coalesce, timestampIf, h, hp]

theorem Projects.append_ordinary (hp : Projects log task) (h : event.eventType.status? = none) :
    Projects (log ++ [event]) task where
  first := head?_append_of_first hp.first
  status := by rw [statuses_append_ordinary h]; exact hp.status
  startedAt := by rw [firstAt_append_ordinary h]; exact hp.startedAt
  completedAt := by rw [firstAt_append_ordinary h]; exact hp.completedAt
  cancelledAt := by rw [firstAt_append_ordinary h]; exact hp.cancelledAt
  failedAt := by rw [firstAt_append_ordinary h]; exact hp.failedAt

theorem Projects.append_lifecycle (hp : Projects log task)
    (h : event.eventType.status? = some status) :
    Projects (log ++ [event]) (task.afterTransition status event.createdAt) where
  first := head?_append_of_first hp.first
  status := by
    rw [statuses_append_lifecycle h, List.getLast?_concat]
    rfl
  startedAt := by rw [firstAt_append_lifecycle h, ← hp.startedAt]; rfl
  completedAt := by rw [firstAt_append_lifecycle h, ← hp.completedAt]; rfl
  cancelledAt := by rw [firstAt_append_lifecycle h, ← hp.cancelledAt]; rfl
  failedAt := by rw [firstAt_append_lifecycle h, ← hp.failedAt]; rfl

theorem projects_created (row : NewTask) (id now : String) (rowid : ℕ) :
    Projects [⟨eventId id 1, id, 1, .queued, .emptyObject, now⟩] (row.toTask now rowid) where
  first := rfl
  status := rfl
  startedAt := rfl
  completedAt := rfl
  cancelledAt := rfl
  failedAt := rfl

end Append

section Step
variable {s s' : Store} {q : DbStep} {op : TaskOp}

def LogsProject (s : Store) : Prop :=
  ∀ id task, s.findTask id = some task → Projects (s.eventsOf id) task

theorem eventsOf_append_same {event : TaskEvent} (h : s'.events = s.events ++ [event]) :
    s'.eventsOf event.taskId = s.eventsOf event.taskId ++ [event] := by
  rw [eventsOf, h]
  exact entriesOf_append_same rfl

theorem eventsOf_append_other {event : TaskEvent} {id : String}
    (h : s'.events = s.events ++ [event]) (hne : id ≠ event.taskId) :
    s'.eventsOf id = s.eventsOf id := by
  rw [eventsOf, h]
  exact entriesOf_append_other (Ne.symm hne)

theorem logs_ordinary {event : TaskEvent} (hl : Logs s q event) (hi : StoreThreads.Issues op q) :
    event.eventType.status? = none := by
  cases hl with
  | insertEvent taskId sequence eventType payload now => exact hi.2
  | requested taskId request now => rfl
  | decided taskId requestId decision reason now => rfl

theorem logsProject_step (hs : s.WellFormed) (hp : LogsProject s)
    (hi : StoreThreads.Issues op q) (he : Effect s s' q) : LogsProject s' := by
  intro id task hfind
  cases he with
  | quiet q htasks hevents =>
    rw [findTask_congr htasks] at hfind
    rw [eventsOf, hevents]
    exact hp id task hfind
  | created row now htasks hevents =>
    rw [findTask_created hs htasks] at hfind
    split at hfind
    · rename_i hid
      obtain rfl := Option.some.inj hfind
      have hlog := eventsOf_append_same hevents
      have hnil : s.eventsOf (rowKey "task_" (nextRowid s.tasks)) = [] :=
        entriesOf_eq_nil (not_mem_events_next hs)
      rw [hid, hlog, hnil]
      exact projects_created row _ now _
    · rename_i hid
      rw [eventsOf_append_other hevents hid]
      exact hp id task hfind
  | transitioned tid next payload sequence now hu htasks hevents =>
    have hidf := fun task : Task => task.afterTransition_id next now
    rw [findTask_congr htasks] at hfind
    by_cases hid : id = tid
    · subst hid
      rw [findTask_updateTask_self hidf] at hfind
      obtain ⟨old, hold, rfl⟩ := Option.map_eq_some_iff.mp hfind
      have hlog := eventsOf_append_same hevents
      rw [hlog]
      exact (hp id old hold).append_lifecycle (status?_eventTypeForStatus next)
    · rw [findTask_updateTask_ne hidf hid] at hfind
      rw [eventsOf_append_other hevents hid]
      exact hp id task hfind
  | resulted tid result htasks hevents =>
    have hidf := fun task : Task => task.withResult_id result
    rw [findTask_congr htasks, updateTaskResult, findTask_updateTask hidf] at hfind
    obtain ⟨old, hold, hnew⟩ := Option.map_eq_some_iff.mp hfind
    have hproj := hp id old hold
    rw [eventsOf, hevents]
    split at hnew
    · obtain rfl := hnew
      exact ⟨hproj.1, hproj.2, hproj.3, hproj.4, hproj.5, hproj.6⟩
    · obtain rfl := hnew
      exact hproj
  | logged q event hl hu htasks hevents =>
    rw [findTask_congr htasks] at hfind
    by_cases hid : id = event.taskId
    · subst hid
      rw [eventsOf_append_same hevents]
      exact (hp _ task hfind).append_ordinary (logs_ordinary hl hi)
    · rw [eventsOf_append_other hevents hid]
      exact hp id task hfind

end Step

variable {strict : Bool} {s : Store} {p p' : StorePool} {a : StoreAction}

theorem logsProject_of_storeReaches (hs : s.WellFormed) (hp : LogsProject s)
    (h : StoreReaches strict s p) : LogsProject p.shared :=
  storeReaches_invariant hs h hp fun _ _ _ _ hwf hI _ hi _ he => logsProject_step hwf hI hi he

theorem events_prefix_of_reaches (hs : s.WellFormed) (h : StoreReaches strict s p)
    (h' : Reaches storeStep (StoreGuard strict) p p') : p.shared.events <+: p'.shared.events := by
  induction h' with
  | refl => exact List.prefix_rfl
  | tail hr hok hstep ih =>
    obtain hsame | ⟨i, input, op, q, k, -, -, heq, hwf, hready, -, -⟩ :=
      storeStep_cases hs (h.trans hr) hstep
    · rw [hsame]
      exact ih
    · rw [heq]
      exact ih.trans (effect_spec hwf (effect_of_exec q input _) hready).2.events

theorem logsProject_empty : LogsProject Store.empty := by
  intro id task hfind
  cases hfind

/-- The log of one task in sequence order is numbered `1, …, n`, starts with
`task.queued`, and its last lifecycle event names the status of the row. -/
structure LogIntegrity (s : Store) (task : Task) : Prop where
  sequences : (s.eventsOf task.id).map TaskEvent.sequence =
    List.range' 1 (s.eventsOf task.id).length
  first : (s.eventsOf task.id).head?.map TaskEvent.eventType = some .queued
  status : (statuses (s.eventsOf task.id)).getLast? = some task.status

/-- In every state of every interleaving each log is intact and agrees with its
row, and whatever happens later only adds events at the end. -/
theorem event_log_integrity (h : StoreReaches false Store.empty p)
    (h' : Reaches storeStep (StoreGuard false) p p') :
    (∀ r ∈ p.shared.tasks, LogIntegrity p.shared r.value) ∧
      (∀ event ∈ p.shared.events, ∃ r ∈ p.shared.tasks, r.value.id = event.taskId) ∧
      p.shared.events <+: p'.shared.events := by
  have hwf := wellFormed_of_storeReaches wellFormed_empty h
  have hproj := logsProject_of_storeReaches wellFormed_empty logsProject_empty h
  refine ⟨fun r hr => ?_, fun event he => ?_, events_prefix_of_reaches wellFormed_empty h h'⟩
  · have hp := hproj _ _ (hwf.mem_findTask hr)
    exact ⟨hwf.contiguous _, hp.first, hp.status⟩
  · obtain ⟨task, htask⟩ := Option.isSome_iff_exists.mp (hwf.eventTasks event he)
    obtain ⟨r, hr, rfl, hid⟩ := lookup_mem htask
    exact ⟨r, hr, by simpa using hid⟩

def sampleTask : CreateTask where
  ownerProductId := "acme"
  agentId := "reviewer"
  directoryId := "dir_1"
  prompt := "fix the build"
  requiredCapabilities := some [.read, .write]
  workspaceMode := some .worktree
  directModeTaskOptIn := false
  metadata := none
  providerId := some "codex"
  model := some "default"
  permissionMode := some "provider_default"
  timeoutSeconds := none

def advances (i n : ℕ) (now : String) : List StoreAction :=
  List.replicate n (.advance i (.proceed now))

def runToRunning : List StoreAction :=
  .spawn (.create sampleTask) :: advances 0 5 "t0" ++
  .spawn (.transition "task_1" .waitingDirectoryLock none) :: advances 1 7 "t1" ++
  .spawn (.transition "task_1" .preparing none) :: advances 2 7 "t2" ++
  .spawn (.transition "task_1" .running none) :: advances 3 7 "t3"

/-- A transition and an appended event read the same next sequence number; the second
commit is refused. -/
def sequenceRace : List StoreAction :=
  .spawn (.create sampleTask) :: advances 0 5 "t0" ++
  .spawn (.transition "task_1" .waitingDirectoryLock none) ::
  .spawn (.appendEvent "task_1" .processStdout .emptyObject) ::
  advances 1 3 "t1" ++ advances 2 3 "t2" ++ advances 1 1 "t3" ++ advances 2 1 "t4"

theorem event_log_integrity_sequenceRace :
    ∃ p : StorePool, (p.shared.eventsOf "task_1").map TaskEvent.sequence = [1, 2] ∧
      (∀ r ∈ p.shared.tasks, LogIntegrity p.shared r.value) ∧
      (∀ event ∈ p.shared.events, ∃ r ∈ p.shared.tasks, r.value.id = event.taskId) ∧
      p.shared.events <+: p.shared.events := by
  have hrun : (storeRun false .empty sequenceRace).map
      (fun p => (p.shared.eventsOf "task_1").map TaskEvent.sequence) = some [1, 2] := by decide
  obtain ⟨p, hp, hf⟩ := storeReaches_of_run hrun
  exact ⟨p, hf, event_log_integrity hp .refl⟩

end OpenDaemon
