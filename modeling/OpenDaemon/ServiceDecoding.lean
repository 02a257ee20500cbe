import OpenDaemon.RowDecoding
import OpenDaemon.TaskFrame

/-!
# Services whose rows are decoded

The services see a row that cannot be decoded as an error of the store call that reads it. What
they return is therefore what they return when every row decodes, and a call whose rows all decode
is not affected.
-/

namespace OpenDaemon

open RowTable SequencedLog Store Call

section Decoded
variable {s : Store} {now : String}

/-- The rows that the call reads, and those it reads back, can be decoded. -/
def TaskOp.decodes : TaskOp → Store → Bool
  | .create input, _ => input.metadata.all Value.readable
  | .get id, s | .saveResult id _ _, s | .cancel id, s => s.taskReadable id
  | .list _, s => s.tasksReadable
  | .transition id _ payload, s => s.taskReadable id && (payload.getD .emptyObject).readable
  | .appendEvent id _ payload, s => s.taskReadable id && payload.readable
  | .recordPermissionRequest id request, s => s.taskReadable id && request.toValue.readable
  | .resolvePermissionRequest id requestId decision reason, s => s.taskReadable id &&
    (DbStep.resolvePermissionRequest id requestId decision reason "").decodes s
  | .saveExecutionResult _, _ | .acquireLock _, _ | .releaseLocks _, _ => true

theorem runDecoded_create_read (hs : s.WellFormed) {input : CreateTask}
    (h : input.metadata.all Value.readable) :
    runDecoded (TaskStore.create input) now s = runAlone (TaskStore.create input) now s := by
  rw [runDecoded_create hs, runAlone_create hs]
  cases input.validate with
  | error e => rfl
  | ok _ => simp only [h, if_true]

theorem runDecoded_recordPermissionRequest_read {id : String} {request : PermissionRequestEvent}
    (hrow : s.taskReadable id) (hrequest : request.toValue.readable) :
    runDecoded (TaskStore.recordPermissionRequest id request) now s =
      runAlone (TaskStore.recordPermissionRequest id request) now s := by
  cases hfind : s.findTask id with
  | none =>
    have hget : runAlone (TaskStore.get id) now s = (.error .notFound, s) := runAlone_get_none hfind
    rw [TaskStore.recordPermissionRequest,
      runDecoded_bind_error ((runDecoded_get_read hrow now).trans hget), runAlone_bind_error hget]
  | some task =>
    cases hinsert : s.insertPermissionRequest id request now with
    | error e => exact runDecoded_recordPermissionRequest_refused hrow hinsert
    | ok inserted =>
      rw [runDecoded_recordPermissionRequest hrow (hfind ▸ rfl) hinsert, if_pos hrequest]

theorem runDecoded_taskOp (hs : s.WellFormed) {op : TaskOp} (h : op.decodes s) :
    runDecoded op.program now s = runAlone op.program now s := by
  cases op with
  | create input => exact runDecoded_create_read hs h
  | get id => exact runDecoded_get_read h now
  | list filters => exact runDecoded_list_read h filters now
  | transition id next payload =>
    obtain ⟨hrow, hpayload⟩ := Bool.and_eq_true_iff.mp h
    exact runDecoded_transition_read hs hrow hpayload
  | cancel id => exact runDecoded_transition_read hs h rfl
  | saveResult id finalMessage changedFiles =>
    exact runDecoded_saveResult_read h finalMessage changedFiles
  | saveExecutionResult result => exact runDecoded_saveExecutionResult result
  | appendEvent id eventType payload =>
    obtain ⟨hrow, hpayload⟩ := Bool.and_eq_true_iff.mp h
    exact runDecoded_appendEvent_read hs hrow hpayload
  | recordPermissionRequest id request =>
    obtain ⟨hrow, hrequest⟩ := Bool.and_eq_true_iff.mp h
    exact runDecoded_recordPermissionRequest_read hrow hrequest
  | resolvePermissionRequest id requestId decision reason =>
    obtain ⟨hrow, hdecodes⟩ := Bool.and_eq_true_iff.mp h
    exact runDecoded_resolvePermissionRequest hrow hdecodes
  | acquireLock request => exact runDecoded_acquireLock request
  | releaseLocks taskId => rfl

end Decoded

namespace ServiceStep

/-- One step of a service whose store call is run alone and decodes the rows it reads. -/
def execDecoded (q : ServiceStep) (input : Input) (s : Store) : q.Answer × Store :=
  match q with
  | .tasks op => runDecoded op.program input.now s
  | .grants op => runDecoded op.program input.now s
  | .profiles op => runDecoded op.program input.now s
  | .loadRegistry => exec .loadRegistry input s
  | .getRuntime providerId => exec (.getRuntime providerId) input s
  | .prepareWorkspace taskId grant mode => exec (.prepareWorkspace taskId grant mode) input s
  | .executeAdapter request => exec (.executeAdapter request) input s
  | .clock => exec .clock input s

/-- The rows that the step reads can be decoded. Of the calls on profiles the services make only
`get`. -/
def decodes : ServiceStep → Store → Bool
  | .tasks op, s => op.decodes s
  | .profiles (.get id), s => (s.findProfile id).all AgentProfile.readable
  | .profiles _, _ => false
  | _, _ => true

theorem execDecoded_of_decodes {s : Store} (hs : s.WellFormed) {q : ServiceStep}
    (h : q.decodes s) (input : Input) : q.execDecoded input s = q.exec input s := by
  cases q with
  | tasks op => exact runDecoded_taskOp hs h
  | grants op => exact runDecoded_grantOp op
  | profiles op =>
    cases op with
    | get id =>
      have hprofile : (s.findProfile id).all AgentProfile.readable := h
      rw [execDecoded, ProfileOp.program, runDecoded_getProfile, if_pos hprofile]
      rfl
    | create _ | patch _ _ | delete _ | authorize _ => cases h
  | loadRegistry | getRuntime _ | prepareWorkspace _ _ _ | executeAdapter _ | clock => rfl

theorem wellFormed_execDecoded {s : Store} (hs : s.WellFormed) (q : ServiceStep) (input : Input) :
    (q.execDecoded input s).2.WellFormed := by
  cases q with
  | tasks op => exact wellFormed_runDecoded hs op
  | grants op =>
    rw [execDecoded, runDecoded_grantOp]
    exact wellFormed_grantOp hs op
  | profiles op =>
    have hsame := sameTasks_decodedProfile op input.now s
    exact wellFormed_of_same hs hsame.tasks hsame.events
  | loadRegistry | getRuntime _ | prepareWorkspace _ _ _ | executeAdapter _ | clock => exact hs

/-- What a step leaves when it decodes its rows: what it leaves without, or less of it. -/
inductive Leaves (q : ServiceStep) (input : Input) (s : Store) : Store → Prop
  | refused {t : Store} (same : s.SameTasks t) : Leaves q input s t
  | done : Leaves q input s (q.exec input s).2
  | unread {op : TaskOp} (calls : q = .tasks op) (deep : op.logsReadable = false) :
      Leaves q input s { (q.exec input s).2 with published := s.published }

theorem leaves_execDecoded {s : Store} (hs : s.WellFormed) (q : ServiceStep) (input : Input) :
    q.Leaves input s (q.execDecoded input s).2 := by
  cases q with
  | tasks op =>
    have hdecoded : s.Decoded input.now op (runDecoded op.program input.now s).2 :=
      decoded_runDecoded hs op
    rw [execDecoded]
    generalize (runDecoded op.program input.now s).2 = t at hdecoded
    cases hdecoded with
    | refused => exact .refused (.refl s)
    | done => exact .done
    | unread deep => exact .unread rfl deep
  | grants op =>
    rw [execDecoded, runDecoded_grantOp]
    exact .done
  | profiles op => exact .refused (sameTasks_decodedProfile op input.now s)
  | loadRegistry | getRuntime _ | prepareWorkspace _ _ _ | executeAdapter _ | clock =>
    exact .refused (.refl s)

end ServiceStep

def runServiceDecoded {ε α : Type} (c : ServiceCall ε α) (inputs : ℕ → ServiceStep.Input)
    (s : Store) : Except ε α × Store :=
  let o := c.run ServiceStep.execDecoded inputs s
  (o.result, o.state)

section Frames
variable {s : Store}

theorem execDecoded_created (hs : s.WellFormed) (q : ServiceStep) (input : ServiceStep.Input) :
    (∃ row, q = .tasks (.create row) ∧ row.validate = .ok () ∧
      (q.execDecoded input s).2 = s.created (TaskStore.newTask row) input.now) ∨
    ∀ id, ((q.execDecoded input s).2.findTask id).map Task.creation =
      (s.findTask id).map Task.creation := by
  have hleaves : q.Leaves input s (q.execDecoded input s).2 := q.leaves_execDecoded hs input
  generalize (q.execDecoded input s).2 = t at hleaves
  cases hleaves with
  | refused same => exact .inr fun id => by rw [findTask_congr same.tasks]
  | done => exact exec_created hs q input
  | unread calls deep =>
    obtain ⟨row, hrow, -⟩ | hcreation := exec_created hs q input
    · obtain rfl := ServiceStep.tasks.inj (calls.symm.trans hrow)
      cases deep
    · exact .inr hcreation

theorem touched_runDecoded (hs : s.WellFormed) {op : TaskOp} {id : String}
    (hop : op.taskId? = some id) (now : String) :
    s.Touched (runDecoded op.program now s).2 id := by
  have hdecoded : s.Decoded now op (runDecoded op.program now s).2 := decoded_runDecoded hs op
  generalize (runDecoded op.program now s).2 = t at hdecoded
  have htouched := touched_runAlone hop now s
  cases hdecoded with
  | refused => exact .refl s id
  | done => exact htouched
  | unread =>
    refine ⟨fun other hne => ?_, htouched.creation, htouched.grants, htouched.profiles⟩
    obtain ⟨htask, hevents, hrequests, hlocks⟩ := htouched.others other hne
    exact ⟨htask, hevents, hrequests, hlocks⟩

end Frames

section Services
variable {ε α : Type} {c : ServiceCall ε α} {inputs : ℕ → ServiceStep.Input} {s t : Store}

theorem runServiceDecoded_bind_ok {β : Type} {f : α → ServiceCall ε β} {b : β}
    (h : runServiceDecoded (c >>= f) inputs s = (.ok b, t)) : ∃ a u rest,
    runServiceDecoded c inputs s = (.ok a, u) ∧ runServiceDecoded (f a) rest u = (.ok b, t) := by
  simp only [runServiceDecoded, run_bind] at h
  cases hc : c.run ServiceStep.execDecoded inputs s with
  | mk r u rest =>
    rw [hc] at h
    cases r with
    | error e => cases congrArg Prod.fst h
    | ok a => exact ⟨a, u, rest, by rw [runServiceDecoded, hc], h⟩

theorem runServiceDecoded_mapError_ok {ε' : Type} {g : ε → ε'} {a : α}
    (h : runServiceDecoded (c.mapError g) inputs s = (.ok a, t)) :
    runServiceDecoded c inputs s = (.ok a, t) := by
  simp only [runServiceDecoded, run_mapError] at h
  obtain ⟨hresult, hstate⟩ := Prod.mk.inj h
  exact Prod.ext (Call.mapError_eq_ok.mp hresult) hstate

theorem runServiceDecoded_tasks_ok {op : TaskOp} {r : op.Result}
    (h : runServiceDecoded (SchedulerService.tasks op) inputs s = (.ok r, t)) :
    runDecoded op.program (inputs 0).now s = (.ok r, t) := by
  simp only [runServiceDecoded, SchedulerService.tasks, run_step, ServiceStep.execDecoded] at h
  cases hrun : runDecoded op.program (inputs 0).now s with
  | mk answer u =>
    rw [hrun] at h
    cases answer with
    | error e => cases congrArg Prod.fst h
    | ok answer =>
      obtain ⟨hresult, hstate⟩ := Prod.mk.inj h
      exact Prod.ext (congrArg Except.ok (Except.ok.inj hresult)) hstate

theorem wellFormed_runServiceDecoded (hs : s.WellFormed) (c : ServiceCall ε α)
    (inputs : ℕ → ServiceStep.Input) : (runServiceDecoded c inputs s).2.WellFormed := by
  induction c generalizing inputs s with
  | ret a => exact hs
  | fail e => exact hs
  | step q k ih => exact ih _ (ServiceStep.wellFormed_execDecoded hs q _) _

theorem wellFormed_of_run {r : Except ε α} (hs : s.WellFormed)
    (h : runServiceDecoded c inputs s = (r, t)) : t.WellFormed := by
  have ht := wellFormed_runServiceDecoded hs c inputs
  rwa [h] at ht

theorem runServiceDecoded_of_uses {P : ServiceStep → Prop} {I : Store → Prop}
    (wellFormed : ∀ s, I s → s.WellFormed) (decodes : ∀ q s, P q → I s → q.decodes s)
    (preserved : ∀ q input s, P q → I s → I (q.exec input s).2) (hc : c.Uses P) (hs : I s) :
    runServiceDecoded c inputs s = runService c inputs s := by
  induction c generalizing inputs s with
  | ret a => rfl
  | fail e => rfl
  | step q k ih =>
    have hexec := ServiceStep.execDecoded_of_decodes (wellFormed s hs) (decodes q s hc.1 hs)
      (inputs 0)
    simp only [runServiceDecoded, runService, run_step, hexec]
    exact ih _ (hc.2 _) (preserved q (inputs 0) s hc.1 hs)

/-- Where all tasks can be read the step decodes what it reads, and all tasks can still be read. -/
structure ServiceStep.Readable (q : ServiceStep) : Prop where
  decodes : ∀ s, s.tasksReadable → s.WellFormed → q.decodes s
  preserved : ∀ input s, s.tasksReadable → s.WellFormed → (q.exec input s).2.tasksReadable

theorem runServiceDecoded_of_readable (hc : c.Uses ServiceStep.Readable) (hs : s.WellFormed)
    (hrows : s.tasksReadable) : runServiceDecoded c inputs s = runService c inputs s :=
  runServiceDecoded_of_uses (I := fun s => s.tasksReadable ∧ s.WellFormed) (fun _ h => h.2)
    (fun _ s hq h => hq.decodes s h.1 h.2)
    (fun q input s hq h => ⟨hq.preserved input s h.1 h.2, wellFormed_exec h.2 q input⟩) hc
    ⟨hrows, hs⟩

theorem readable_get (id : String) : ServiceStep.Readable (.tasks (.get id)) where
  decodes _ hrows hs := (tasksReadable_iff hs).mp hrows id
  preserved _ s hrows _ := by
    rw [ServiceStep.exec_reads (.tasks (.get id)) trivial]
    exact hrows

theorem readable_list (filters : TaskFilters) : ServiceStep.Readable (.tasks (.list filters)) where
  decodes _ hrows _ := hrows
  preserved _ s hrows _ := by
    rw [ServiceStep.exec_reads (.tasks (.list filters)) trivial]
    exact hrows

theorem readable_getGrant (id : String) : ServiceStep.Readable (.grants (.get id)) where
  decodes _ _ _ := rfl
  preserved _ s hrows _ := by
    rw [ServiceStep.exec_reads (.grants (.get id)) trivial]
    exact hrows

theorem readable_acquireLock (request : LockRequest) :
    ServiceStep.Readable (.tasks (.acquireLock request)) where
  decodes _ _ _ := rfl
  preserved input s hrows _ := by
    change (runAlone (TaskStore.acquireLock request) input.now s).2.tasksReadable
    rw [runAlone_acquireLock]
    split <;> exact hrows

theorem readable_transition (id : String) (next : TaskStatus) {payload : Option Value}
    (h : (payload.getD .emptyObject).readable) :
    ServiceStep.Readable (.tasks (.transition id next payload)) where
  decodes _ hrows hs := Bool.and_eq_true_iff.mpr ⟨(tasksReadable_iff hs).mp hrows id, h⟩
  preserved input s hrows hs := by
    change (runAlone (TaskStore.transition id next payload) input.now s).2.tasksReadable
    obtain ⟨e, hr⟩ | ⟨task, -, -, -, hr⟩ | ⟨task, hfind, -, hr⟩ :=
      transition_cases hs id next payload input.now <;> rw [hr]
    · exact hrows
    · exact hrows
    · refine (tasksReadable_iff (wellFormed_moved hs (hfind ▸ rfl) next payload)).mpr fun id' => ?_
      rw [taskReadable_moved]
      exact (tasksReadable_iff hs).mp hrows id'

theorem runServiceDecoded_tasks_bind {β : Type} (op : TaskOp) (f : op.Result → SchedulerCall β) :
    runServiceDecoded (SchedulerService.tasks op >>= f) inputs s =
      match runDecoded op.program (inputs 0).now s with
      | (.ok r, t) => runServiceDecoded (f r) (later inputs) t
      | (.error e, t) => (.error (.fromTaskStore e), t) := by
  simp only [SchedulerService.tasks, Call.step_bind, runServiceDecoded, run_step,
    ServiceStep.execDecoded]
  cases runDecoded op.program (inputs 0).now s with
  | mk r t => cases r <;> rfl

/-- A task of the table that cannot be read stops every attempt to acquire a lock. -/
theorem runServiceDecoded_tryAcquire_unread {config : SchedulerConfig} {request : LockRequest}
    (hrows : s.tasksReadable = false) : ∃ e,
    runServiceDecoded (SchedulerService.tryAcquireDirectoryLock config request) inputs s =
      (.error e, s) := by
  unfold SchedulerService.tryAcquireDirectoryLock
  rw [runServiceDecoded_tasks_bind, TaskOp.program]
  cases hrow : s.taskReadable request.taskId with
  | false =>
    rw [runDecoded_get_unread hrow]
    exact ⟨_, rfl⟩
  | true =>
    rw [runDecoded_get_read hrow, runAlone_get]
    cases s.findTask request.taskId with
    | none => exact ⟨_, rfl⟩
    | some task =>
      have hcount : ∀ f : ℕ → SchedulerCall LockDecision,
          runServiceDecoded (SchedulerService.runningOrPreparingCount >>= f) (later inputs) s =
            (.error (.fromTaskStore .store), s) := by
        intro f
        rw [SchedulerService.runningOrPreparingCount, Call.bind_assoc, runServiceDecoded_tasks_bind,
          TaskOp.program, runDecoded_list_unread hrows]
      exact ⟨_, hcount _⟩

theorem runServiceDecoded_tryAcquireDirectoryLock {config : SchedulerConfig} (hs : s.WellFormed)
    (hrows : s.tasksReadable) (request : LockRequest) :
    runServiceDecoded (SchedulerService.tryAcquireDirectoryLock config request) inputs s =
      runService (SchedulerService.tryAcquireDirectoryLock config request) inputs s :=
  runServiceDecoded_of_readable (uses_tryAcquireDirectoryLock readable_get readable_list
    readable_getGrant readable_acquireLock fun id _ =>
      readable_transition id .waitingDirectoryLock rfl) hs hrows

end Services

end OpenDaemon
