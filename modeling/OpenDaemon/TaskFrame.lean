import OpenDaemon.ServiceInvariant
import OpenDaemon.TaskRows

/-!
# What a store call leaves alone

A call of the task store that names a task changes that task only: its row, its
log, its permission requests and its locks. It never changes the columns that
`create` wrote. The other calls read, or create a task with a new id.
-/

namespace OpenDaemon

open RowTable Store SequencedLog

namespace Store

def requestsOf (s : Store) (taskId : String) : List PermissionRequestRecord :=
  s.permissionRequests.filter fun request => decide (request.taskId = taskId)

def locksOf (s : Store) (taskId : String) : List DirectoryLock :=
  s.locks.filter fun lock => decide (lock.taskId = taskId)

structure SameTask (s s' : Store) (id : String) : Prop where
  task : s'.findTask id = s.findTask id
  events : s'.eventsOf id = s.eventsOf id
  requests : s'.requestsOf id = s.requestsOf id
  locks : s'.locksOf id = s.locksOf id

theorem SameTask.refl (s : Store) (id : String) : SameTask s s id := ⟨rfl, rfl, rfl, rfl⟩

theorem SameTask.trans {s t u : Store} {id : String} (h : SameTask s t id)
    (k : SameTask t u id) : SameTask s u id :=
  ⟨k.task.trans h.task, k.events.trans h.events, k.requests.trans h.requests,
    k.locks.trans h.locks⟩

/-- At most the task `id` changes, and the columns of its creation do not. -/
structure Touched (s s' : Store) (id : String) : Prop where
  others : ∀ other, other ≠ id → SameTask s s' other
  creation : ∀ other, (s'.findTask other).map Task.creation =
    (s.findTask other).map Task.creation
  grants : s'.grants = s.grants
  profiles : s'.profiles = s.profiles

theorem Touched.refl (s : Store) (id : String) : Touched s s id :=
  ⟨fun other _ => SameTask.refl s other, fun _ => rfl, rfl, rfl⟩

theorem Touched.trans {s t u : Store} {id : String} (h : Touched s t id) (k : Touched t u id) :
    Touched s u id where
  others other hne := (h.others other hne).trans (k.others other hne)
  creation other := (k.creation other).trans (h.creation other)
  grants := k.grants.trans h.grants
  profiles := k.profiles.trans h.profiles

end Store

section Changes
variable {s s' : Store} {id other now : String}

theorem eventsOf_logged {event : TaskEvent} (hevents : s'.events = s.events ++ [event])
    (hne : event.taskId ≠ other) : s'.eventsOf other = s.eventsOf other := by
  simp only [Store.eventsOf, entriesOf, hevents, List.filter_append]
  simp [hne]

theorem touched_logged {event : TaskEvent} (htask : event.taskId = id)
    (htasks : s'.tasks = s.tasks) (hevents : s'.events = s.events ++ [event])
    (hrequests : ∀ other, other ≠ id → s'.requestsOf other = s.requestsOf other)
    (hlocks : s'.locks = s.locks) (hgrants : s'.grants = s.grants)
    (hprofiles : s'.profiles = s.profiles) : s.Touched s' id where
  others other hne :=
    { task := findTask_congr htasks other
      events := eventsOf_logged hevents (htask ▸ fun h => hne h.symm)
      requests := hrequests other hne
      locks := by simp only [Store.locksOf, hlocks] }
  creation other := by rw [findTask_congr htasks]
  grants := hgrants
  profiles := hprofiles

theorem locksOf_releaseLocks (hne : other ≠ id) :
    (s.releaseLocks id now).locksOf other = s.locksOf other := by
  simp only [Store.locksOf, Store.releaseLocks]
  induction s.locks with
  | nil => rfl
  | cons lock locks ih =>
    rw [List.map_cons, List.filter_cons, List.filter_cons, ih]
    by_cases hlock : lock.taskId = id ∧ lock.status = .held
    · have hother : lock.taskId ≠ other := fun h => hne (h.symm.trans hlock.1)
      simp [hlock, hlock.1 ▸ hother]
    · simp [hlock]

theorem touched_releaseLocks : s.Touched (s.releaseLocks id now) id where
  others _ hne := ⟨rfl, rfl, rfl, locksOf_releaseLocks hne⟩
  creation _ := rfl
  grants := rfl
  profiles := rfl

theorem touched_replaceLock (request : LockRequest) :
    s.Touched (s.replaceLock request now) request.taskId where
  others other hne :=
    { task := rfl
      events := rfl
      requests := rfl
      locks := by
        simp only [Store.locksOf, Store.replaceLock, List.filter_append, List.filter_filter]
        have hnew : request.taskId ≠ other := fun h => hne h.symm
        simp only [List.filter_cons, hnew, decide_false, Bool.false_eq_true, if_false,
          List.filter_nil, List.append_nil]
        refine List.filter_congr fun lock _ => ?_
        by_cases hlock : lock.taskId = other
        · simp [hlock, hne]
        · simp [hlock] }
  creation _ := rfl
  grants := rfl
  profiles := rfl

theorem touched_updateTask {f : Task → Task} (hid : ∀ task, (f task).id = task.id)
    (hcreation : ∀ task, (f task).creation = task.creation) :
    s.Touched (s.updateTask id f) id where
  others other hne := ⟨findTask_updateTask_ne hid hne, rfl, rfl, rfl⟩
  creation other := by
    rw [findTask_updateTask hid, Option.map_map]
    refine congrArg (fun g => Option.map g (s.findTask other)) (funext fun task => ?_)
    simp only [Function.comp]
    split
    · exact hcreation task
    · rfl
  grants := rfl
  profiles := rfl

theorem requestsOf_decided {response : PermissionDecisionEvent} (hne : other ≠ id) :
    (s.decided id response now).requestsOf other = s.requestsOf other := by
  simp only [Store.requestsOf, Store.decided]
  induction s.permissionRequests with
  | nil => rfl
  | cons request requests ih =>
    rw [List.map_cons, List.filter_cons, List.filter_cons, ih]
    by_cases hkey : request.requestId = response.requestId ∧ request.taskId = id
    · have hother : request.taskId ≠ other := fun h => hne (h.symm.trans hkey.2)
      simp [hkey, hkey.2 ▸ hother]
    · simp [hkey]

end Changes

def DbStep.Within (id : String) : DbStep → Prop
  | .updateTaskStatus id' .. | .updateTaskResult id' _ | .insertEvent id' ..
  | .insertPermissionRequest id' .. | .resolvePermissionRequest id' .. | .releaseLocks id' _ =>
    id' = id
  | .replaceLock request _ => request.taskId = id
  | .insertTask .. | .insertGrant .. | .updateGrant .. | .deleteGrant _ | .insertProfile _
  | .updateProfile .. | .deleteProfile _ => False
  | _ => True

section Steps
variable {s s' : Store} {id now : String}

theorem touched_transitioned (next : TaskStatus) (payload : Option Value) (sequence : ℕ) :
    s.Touched (s.transitioned id next payload sequence now) id := by
  have hrow : s.Touched (s.updateTask id fun task => task.afterTransition next now) id :=
    touched_updateTask (fun task => task.afterTransition_id next now)
      fun task => creation_afterTransition task next now
  exact hrow.trans (touched_logged rfl rfl rfl (fun _ _ => rfl) rfl rfl rfl)

theorem touched_of_writes {q : DbStep} (hq : q.Within id) (h : Writes s q s') :
    s.Touched s' id := by
  cases h with
  | nothing => exact Touched.refl s id
  | publish event => exact ⟨fun other _ => ⟨rfl, rfl, rfl, rfl⟩, fun _ => rfl, rfl, rfl⟩
  | transition id' next payload sequence now _ _ =>
    obtain rfl : id' = id := hq
    exact touched_transitioned next payload sequence
  | finish id' next payload sequence now _ _ =>
    obtain rfl : id' = id := hq
    exact (touched_transitioned next payload sequence).trans touched_releaseLocks
  | updateTaskResult id' result =>
    obtain rfl : id' = id := hq
    exact touched_updateTask (fun task => task.withResult_id result)
      fun task => creation_withResult task result
  | insertEvent id' sequence eventType payload now _ =>
    obtain rfl : id' = id := hq
    exact touched_logged rfl rfl rfl (fun _ _ => rfl) rfl rfl rfl
  | insertPermissionRequest id' request now _ =>
    obtain rfl : id' = id := hq
    refine touched_logged rfl rfl rfl (fun other hne => ?_) rfl rfl rfl
    have hnew : id' ≠ other := fun h => hne h.symm
    simp [requestsOf, hnew]
  | resolvePermissionRequest id' requestId decision reason now request _ _ _ =>
    obtain rfl : id' = id := hq
    exact touched_logged rfl rfl rfl (fun other hne => requestsOf_decided hne) rfl rfl rfl
  | replaceLock request now =>
    obtain rfl : request.taskId = id := hq
    exact touched_replaceLock request
  | releaseLocks id' now =>
    obtain rfl : id' = id := hq
    exact touched_releaseLocks
  | insertTask | insertGrant | updateGrant | deleteGrant | insertProfile | updateProfile
  | deleteProfile => exact hq.elim

theorem touched_exec {q : DbStep} (hq : q.Within id) (input : DbStep.Input) (s : Store) :
    s.Touched (q.exec input s).2 id :=
  touched_of_writes hq (writes_of_exec q input s)

end Steps

/-- The task that a call is about; `create` and the reads have none. -/
def TaskOp.taskId? : TaskOp → Option String
  | .create _ | .get _ | .list _ => none
  | .transition id .. | .cancel id | .saveResult id .. | .appendEvent id ..
  | .recordPermissionRequest id _ | .resolvePermissionRequest id .. | .releaseLocks id => some id
  | .saveExecutionResult result => some result.taskId
  | .acquireLock request => some request.taskId

section Calls
variable {id : String}

theorem uses_send_within {q : DbStep} (hq : q.Within id) :
    (TaskStore.send q).Uses (DbStep.Within id) :=
  DbStep.uses_query hq _

theorem uses_get_within (other : String) : (TaskStore.get other).Uses (DbStep.Within id) := by
  refine (uses_send_within (q := .selectTask other) trivial).bind fun row => ?_
  cases row <;> trivial

theorem uses_clock_within : TaskStore.nowRfc3339.Uses (DbStep.Within id) :=
  uses_send_within (q := .clock) trivial

theorem uses_publishing_within {α : Type} (taskId : String) (sequence : ℕ) {f : TaskEvent → TaskCall α}
    (hf : ∀ event, (f event).Uses (DbStep.Within id)) : (do
      let event ← TaskStore.eventBySequence taskId sequence
      TaskStore.publishIfConfigured event
      f event).Uses (DbStep.Within id) :=
  (uses_send_within (q := .selectEvent taskId sequence) trivial).bind fun event =>
    Call.Uses.bind ⟨trivial, fun _ => trivial⟩ fun _ => hf event

theorem uses_transition_within (next : TaskStatus) (payload : Option Value) :
    (TaskStore.transition id next payload).Uses (DbStep.Within id) := by
  refine (uses_get_within id).bind fun current => ?_
  cases validateTransition current.status next with
  | error e => trivial
  | ok t =>
    cases t with
    | idempotent => trivial
    | changed =>
      refine uses_clock_within.bind fun now =>
        (uses_send_within (q := .nextSequence id) trivial).bind fun sequence =>
        (uses_send_within (q := .updateTaskStatus id next payload sequence now) rfl).bind fun _ => ?_
      exact uses_publishing_within id sequence fun _ => uses_get_within id

theorem uses_program_within {op : TaskOp} (hop : op.taskId? = some id) :
    op.program.Uses (DbStep.Within id) := by
  cases op with
  | create _ | get _ | list _ => cases hop
  | transition id' next payload =>
    obtain rfl := Option.some.inj hop
    exact uses_transition_within next payload
  | cancel id' =>
    obtain rfl := Option.some.inj hop
    exact uses_transition_within .cancelled none
  | saveResult id' finalMessage changedFiles =>
    obtain rfl := Option.some.inj hop
    exact (uses_get_within id').bind fun task => uses_clock_within.bind fun now =>
      uses_send_within rfl
  | saveExecutionResult result =>
    obtain rfl := Option.some.inj hop
    exact uses_send_within rfl
  | appendEvent id' eventType payload =>
    obtain rfl := Option.some.inj hop
    refine (uses_get_within id').bind fun _ => uses_clock_within.bind fun now =>
      (uses_send_within (q := .nextSequence id') trivial).bind fun sequence =>
      (uses_send_within (q := .insertEvent id' sequence eventType payload now) rfl).bind fun _ => ?_
    exact uses_publishing_within id' sequence fun _ => trivial
  | recordPermissionRequest id' request =>
    obtain rfl := Option.some.inj hop
    refine (uses_get_within id').bind fun _ => uses_clock_within.bind fun now =>
      (uses_send_within (q := .insertPermissionRequest id' request now) rfl).bind fun sequence => ?_
    exact uses_publishing_within id' sequence fun _ => trivial
  | resolvePermissionRequest id' requestId decision reason =>
    obtain rfl := Option.some.inj hop
    refine (uses_get_within id').bind fun _ => uses_clock_within.bind fun now =>
      (uses_send_within (q := .resolvePermissionRequest id' requestId decision reason now)
        rfl).bind fun answer => ?_
    rcases answer with e | (found | sequence)
    · trivial
    · trivial
    · exact uses_publishing_within id' sequence fun _ => trivial
  | acquireLock request =>
    obtain rfl := Option.some.inj hop
    refine (uses_send_within (q := .selectHeldLocks request.directoryId) trivial).bind fun active => ?_
    split
    · trivial
    · exact uses_clock_within.bind fun now =>
        (uses_send_within (q := .replaceLock request now) rfl).bind fun _ => trivial
  | releaseLocks id' =>
    obtain rfl := Option.some.inj hop
    exact uses_clock_within.bind fun now => uses_send_within rfl

theorem touched_runAlone {op : TaskOp} (hop : op.taskId? = some id) (now : String) (s : Store) :
    s.Touched (runAlone op.program now s).2 id :=
  (uses_program_within hop).run_invariant (I := fun t => s.Touched t id)
    (fun _ input t hq ht => ht.trans (touched_exec hq input t)) _ (Touched.refl s id)

end Calls

section Services
variable {s : Store}

theorem runAlone_reads {op : TaskOp} (hop : op.taskId? = none) (hcreate : ∀ row, op ≠ .create row)
    (now : String) (s : Store) : (runAlone op.program now s).2 = s := by
  cases op with
  | create row => exact absurd rfl (hcreate row)
  | get id =>
    rw [TaskOp.program, runAlone_get]
    cases s.findTask id <;> rfl
  | list filters => rw [TaskOp.program, runAlone_list]
  | _ => cases hop

theorem exec_created (hs : s.WellFormed) (q : ServiceStep) (input : ServiceStep.Input) :
    (∃ row, q = .tasks (.create row) ∧ row.validate = .ok () ∧
      (q.exec input s).2 = s.created (TaskStore.newTask row) input.now) ∨
    ∀ id, ((q.exec input s).2.findTask id).map Task.creation =
      (s.findTask id).map Task.creation := by
  have hsame : ∀ t : Store, t.tasks = s.tasks → ∀ id,
      (t.findTask id).map Task.creation = (s.findTask id).map Task.creation :=
    fun t h id => by rw [findTask_congr h]
  cases q with
  | tasks op =>
    cases hop : op.taskId? with
    | some id => exact .inr (touched_runAlone hop input.now s).creation
    | none =>
      by_cases hcreate : ∃ row, op = .create row
      · obtain ⟨row, rfl⟩ := hcreate
        simp only [ServiceStep.exec, TaskOp.program, runAlone_create hs]
        cases hvalid : row.validate with
        | error e => exact .inr fun _ => rfl
        | ok u => exact .inl ⟨row, rfl, hvalid, rfl⟩
      · right
        rw [ServiceStep.exec, runAlone_reads hop fun row h => hcreate ⟨row, h⟩]
        exact hsame s rfl
  | grants op => exact .inr (hsame _ (sameTasks_grantOp op input.now s).tasks)
  | profiles op => exact .inr (hsame _ (sameTasks_profileOp op input.now s).tasks)
  | loadRegistry | getRuntime _ | prepareWorkspace _ _ _ | executeAdapter _ | clock =>
    exact .inr fun _ => rfl

end Services

end OpenDaemon
