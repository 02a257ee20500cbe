import OpenDaemon.CallbackOrder
import OpenDaemon.DispatchOnce
import OpenDaemon.ExecutionAuthorization
import OpenDaemon.ServiceDecoding

/-!
# The reserved keys of the metadata

The metadata of a task are an object that the client sends, and the same object
carries `control_plane`, the identity of a dispatch, and `remote_execution`, the
mark of the handler. `POST /v1/tasks` removes neither key from the body. A task
is therefore taken for a dispatched or an approved one exactly if the body says
so. Apart from that the session meets an error at every ended task whose row
cannot be read, dispatched or not.
-/

namespace OpenDaemon

open Runs RowTable Store ControlPlaneCallbackService ControlPlaneDispatchService

/-- The task is not taken for one of the control plane, and is marked as approved only if its
creator holds the scope. -/
structure Unforged (auth : ProductAuth) (id : String) (s : Store) : Prop where
  notFound : ∀ remoteTaskId inputs row,
    (runServiceDecoded (findByRemoteTaskId remoteTaskId) inputs s).1 = .ok (some row) → row.id ≠ id
  silentState : ∀ delivered row, s.findTask id = some row →
    callbackForTaskState delivered row = .ok (none, delivered)
  silentEvents : ∀ delivered, ∀ event ∈ s.events, event.taskId = id →
    callbackForEvent delivered s event = .ok (none, delivered)
  approved : ∀ row, s.findTask id = some row → approvalMarked row.metadata →
    .tasksRemoteExecution ∈ auth.scopes

/-- The task can be read wherever a callback of one of its events reads it. -/
def Store.Answers (s : Store) (id : String) : Prop :=
  s.taskReadable id ∨ ∀ event ∈ s.events, event.taskId = id →
    event.eventType.status?.bind terminalCallback = none

def anyCall (s : Store) (call : ServiceStep × ServiceStep.Input) : Option Store :=
  some (call.1.execDecoded call.2 s).2

section Rows
variable {s t : Store} {task : Task}

theorem Stored.anyCall {call : ServiceStep × ServiceStep.Input} (h : Stored task s)
    (hstep : OpenDaemon.anyCall s call = some t) : Stored task t := by
  obtain rfl := Option.some.inj hstep
  obtain ⟨q, input⟩ := call
  refine ⟨q.wellFormed_execDecoded h.wellFormed input, ?_⟩
  obtain ⟨row, -, -, hstore⟩ | hcreation := execDecoded_created h.wellFormed q input
  · rw [hstore, created_findTask h.wellFormed, if_neg]
    · exact h.row
    · intro hid
      have hrow := h.row
      rw [hid, findTask_next h.wellFormed] at hrow
      cases hrow
  · rw [hcreation task.id]
    exact h.row

theorem Stored.found (h : Stored task s) :
    ∃ row, s.findTask task.id = some row ∧ row.metadata = task.metadata := by
  obtain ⟨row, hfind, hcreation⟩ := Option.map_eq_some_iff.mp h.row
  exact ⟨row, hfind, congrArg (fun columns => columns.1.metadata) hcreation⟩

theorem scan_of_find {remoteTaskId : String} {inputs : ℕ → ServiceStep.Input}
    {found : Option Task}
    (hok : (runServiceDecoded (findByRemoteTaskId remoteTaskId) inputs s).1 = .ok found) :
    s.scan remoteTaskId = found := by
  have hfind : runServiceDecoded (findByRemoteTaskId remoteTaskId) inputs s =
      (.ok found, (runServiceDecoded (findByRemoteTaskId remoteTaskId) inputs s).2) :=
    Prod.ext hok rfl
  obtain ⟨tasks, u, rest, hlist, hfound⟩ := runServiceDecoded_bind_ok hfind
  have hrun := runServiceDecoded_tasks_ok (runServiceDecoded_mapError_ok hlist)
  cases hrows : s.tasksReadable with
  | true =>
    rw [TaskOp.program, runDecoded_list_read hrows, runAlone_list_unfiltered] at hrun
    obtain rfl := Except.ok.inj (congrArg Prod.fst hrun)
    exact Except.ok.inj (congrArg Prod.fst hfound)
  | false =>
    rw [TaskOp.program, runDecoded_list_unread hrows] at hrun
    cases congrArg Prod.fst hrun

end Rows

section Callbacks
variable {delivered : DeliveredKeys} {task : Task} {key : ℤ} {name : String}
  {terminal : Option TerminalFields}

theorem deliver_local (h : task.controlPlane? = none) :
    deliver delivered task key name terminal = .ok (none, delivered) := by
  simp only [deliver, h]

theorem deliver_first {controlPlane : Value} (h : task.controlPlane? = some controlPlane) :
    deliver [] task key name terminal ≠ .ok (none, []) := by
  intro hsilent
  simp only [deliver, h] at hsilent
  split at hsilent
  · cases hsilent
  · split at hsilent
    · cases hsilent
    · simp only [List.not_mem_nil, if_false] at hsilent
      cases hsilent

theorem callbackForTaskState_local (h : task.controlPlane? = none) :
    callbackForTaskState delivered task = .ok (none, delivered) := by
  unfold callbackForTaskState
  split
  · rfl
  · exact deliver_local h

theorem callbackForEvent_silent {s : Store} {event : TaskEvent}
    (hname : event.eventType.status?.bind terminalCallback = none) :
    callbackForEvent delivered s event = .ok (none, delivered) := by
  simp only [callbackForEvent, hname]

theorem callbackForEvent_terminal {s : Store} {event : TaskEvent}
    (hname : event.eventType.status?.bind terminalCallback = some name)
    (hfind : s.findTask event.taskId = some task) (hread : task.readable) :
    callbackForEvent delivered s event = deliver delivered task event.sequence name
      (some ⟨event.sequence, task.result, event.payload.get? "error"⟩) := by
  simp only [callbackForEvent, hname, readTask_of_find hfind hread]

theorem callbackForEvent_unread {s : Store} {event : TaskEvent}
    (hname : event.eventType.status?.bind terminalCallback = some name)
    (hrow : s.taskReadable event.taskId = false) :
    ∃ e, callbackForEvent delivered s event = .error e := by
  cases hfind : s.findTask event.taskId with
  | none =>
    rw [Store.taskReadable, hfind] at hrow
    cases hrow
  | some task =>
    rw [Store.taskReadable, hfind] at hrow
    have hread : task.readable = false := hrow
    exact ⟨_, by simp only [callbackForEvent, hname, readTask, hfind, hread]; rfl⟩

end Callbacks

section Unforged
variable {auth : ProductAuth} {task : Task} {s : Store}

theorem Unforged.answers (h : Unforged auth task.id s) : s.Answers task.id := by
  cases hrow : s.taskReadable task.id with
  | true => exact .inl hrow
  | false =>
    refine .inr fun event hmem hid => ?_
    by_contra hnamed
    obtain ⟨name, hname⟩ := Option.ne_none_iff_exists'.mp hnamed
    have hended : ∃ e, callbackForEvent [] s event = .error e :=
      callbackForEvent_unread hname (hid ▸ hrow)
    obtain ⟨e, herror⟩ := hended
    cases (h.silentEvents [] event hmem hid).symm.trans herror

theorem silent_of_local {event : TaskEvent} {row : Task} (hfind : s.findTask event.taskId = some row)
    (hlocal : row.controlPlane? = none) (hanswers : s.Answers event.taskId) (hmem : event ∈ s.events)
    (delivered : DeliveredKeys) : callbackForEvent delivered s event = .ok (none, delivered) := by
  cases hname : event.eventType.status?.bind terminalCallback with
  | none => exact callbackForEvent_silent hname
  | some name =>
    obtain hread | hnone := hanswers
    · have hrow : row.readable := by
        rw [Store.taskReadable, hfind] at hread
        exact hread
      rw [callbackForEvent_terminal hname hfind hrow]
      exact deliver_local hlocal
    · rw [hnone event hmem rfl] at hname
      cases hname

theorem unforged_of_metadata (h : Stored task s)
    (hlocal : task.metadata.bind (·.get? "control_plane") = none)
    (happroved : approvalMarked task.metadata → .tasksRemoteExecution ∈ auth.scopes)
    (hanswers : s.Answers task.id) : Unforged auth task.id s := by
  obtain ⟨row, hfind, hmetadata⟩ := h.found
  have hrow : row.controlPlane? = none := by
    rw [Task.controlPlane?, hmetadata]
    exact hlocal
  refine ⟨fun remoteTaskId inputs found hok hid => ?_, fun delivered current hcurrent => ?_,
    fun delivered event hmem hid => ?_, fun current hcurrent hmarked => ?_⟩
  · obtain ⟨hfound, hclaim⟩ := scan_some h.wellFormed (scan_of_find hok)
    rw [hid, Store.claim, hfind] at hclaim
    have hnone : remoteTaskIdOf row = none := remoteIdOf_of_no_controlPlane hrow
    rw [Option.bind_some, hnone] at hclaim
    cases hclaim
  · obtain rfl := Option.some.inj (hfind.symm.trans hcurrent)
    exact callbackForTaskState_local hrow
  · rw [← hid] at hfind hanswers
    exact silent_of_local hfind hrow hanswers hmem delivered
  · obtain rfl := Option.some.inj (hfind.symm.trans hcurrent)
    exact happroved (hmetadata ▸ hmarked)

theorem cancelled_store (h : Stored task s) (hstatus : s.statusOf task.id = some .queued)
    (hread : s.taskReadable task.id) (input : ServiceStep.Input) :
    (ServiceStep.execDecoded (.tasks (.cancel task.id)) input s).2 =
      s.moved task.id .cancelled none input.now := by
  obtain ⟨row, hfind, -⟩ := h.found
  rw [Store.statusOf, hfind] at hstatus
  have hqueued : row.status = .queued := Option.some.inj hstatus
  change (runDecoded (TaskStore.transition task.id .cancelled none) input.now s).2 = _
  rw [runDecoded_transition_read h.wellFormed hread rfl, runAlone_transition h.wellFormed, hfind]
  simp only [hqueued]
  rfl

theorem callback_of_cancel (h : Stored task s) (hread : s.taskReadable task.id) (now : String)
    {controlPlane : Value}
    (hmetadata : task.metadata.bind (·.get? "control_plane") = some controlPlane) :
    ¬ Unforged auth task.id (s.moved task.id .cancelled none now) := by
  obtain ⟨row, hfind, hrow⟩ := h.found
  intro hunforged
  have hmoved : (s.moved task.id .cancelled none now).findTask task.id =
      some (row.afterTransition .cancelled now) := by
    rw [moved_findTask, hfind]
    rfl
  have hreadable : (row.afterTransition .cancelled now).readable := by
    rw [Store.taskReadable, hfind] at hread
    exact hread
  have hsilent := hunforged.silentEvents []
    (s.nextEvent task.id .cancelled (Value.emptyObject) now)
    (by rw [moved_events]; exact List.mem_append_right _ (List.mem_singleton_self _)) rfl
  have hkey : (row.afterTransition .cancelled now).controlPlane? = some controlPlane := by
    rw [Task.controlPlane?, ← hmetadata, ← hrow]
    rfl
  rw [callbackForEvent_terminal rfl hmoved hreadable] at hsilent
  exact deliver_first hkey hsilent

end Unforged

section Creation
variable {s s' : Store} {auth : ProductAuth} {request : CreateTaskRequest}
  {inputs : ℕ → ServiceStep.Input} {task : Task}

theorem create_accepted (hs : s.WellFormed)
    (hok : runServiceDecoded (TasksApi.create auth request) inputs s = (.ok task, s')) :
    ∃ request' inputs' u, (request' = request ∨ .tasksRemoteExecution ∈ auth.scopes ∧
        request' = TasksApi.markRemoteExecutionApproved request) ∧ u.WellFormed ∧
      runServiceDecoded (SchedulerService.enqueueTask request'.into) inputs' u = (.ok task, s') := by
  obtain ⟨_, u₁, _, hscope, hok⟩ := runServiceDecoded_bind_ok hok
  obtain ⟨_, u₂, _, hproduct, hok⟩ := runServiceDecoded_bind_ok hok
  obtain ⟨remote, u₃, inputs', hremote, hok⟩ := runServiceDecoded_bind_ok hok
  have hu₃ : u₃.WellFormed := wellFormed_of_run (wellFormed_of_run (wellFormed_of_run hs hscope)
    hproduct) hremote
  cases remote with
  | false => exact ⟨request, inputs', u₃, .inl rfl, hu₃, runServiceDecoded_mapError_ok hok⟩
  | true =>
    obtain ⟨_, u₄, inputs₄, hmay, hok⟩ := runServiceDecoded_bind_ok hok
    refine ⟨_, inputs₄, u₄, .inr ⟨?_, rfl⟩, wellFormed_of_run hu₃ hmay,
      runServiceDecoded_mapError_ok hok⟩
    cases hheld : auth.requireScope .tasksRemoteExecution with
    | ok _ => exact requireScope_ok_iff.mp hheld
    | error e =>
      rw [hheld] at hmay
      cases congrArg Prod.fst hmay

theorem controlPlane_mark (request : CreateTaskRequest) :
    (TasksApi.markRemoteExecutionApproved request).metadata.bind (·.get? "control_plane") =
      request.metadata.bind (·.get? "control_plane") := by
  have hdefault : request.metadata.bind (·.get? "control_plane") =
      (request.metadata.getD .emptyObject).get? "control_plane" := by
    cases request.metadata with
    | none => rfl
    | some metadata => rfl
  unfold TasksApi.markRemoteExecutionApproved
  split
  · rename_i entries hentries
    rw [hdefault, hentries]
    have hne : "control_plane" ≠ "remote_execution" := by decide
    exact Value.get?_insertEntry_ne entries (.object [("approved_by_scope", .bool true)]) hne
  · exact hdefault.symm

theorem enqueued_row (hs : s.WellFormed) {input : CreateTask}
    (hok : runServiceDecoded (SchedulerService.enqueueTask input) inputs s = (.ok task, s')) :
    Stored task s' ∧ s'.statusOf task.id = some .queued ∧ s'.taskReadable task.id ∧
      task.metadata = input.metadata := by
  obtain ⟨_, u₁, _, hvalid, hok⟩ := runServiceDecoded_bind_ok hok
  obtain ⟨grant, u₂, _, hgrant, hok⟩ := runServiceDecoded_bind_ok hok
  obtain ⟨mode, u₃, _, hmode, hok⟩ := runServiceDecoded_bind_ok hok
  obtain ⟨profile, u₄, _, hprofile, hok⟩ := runServiceDecoded_bind_ok hok
  obtain ⟨_, u₅, _, hchecked, hok⟩ := runServiceDecoded_bind_ok hok
  obtain ⟨_, u, inputs', hauthorized, hok⟩ := runServiceDecoded_bind_ok hok
  have hu : u.WellFormed := wellFormed_of_run (wellFormed_of_run (wellFormed_of_run
    (wellFormed_of_run (wellFormed_of_run (wellFormed_of_run hs hvalid) hgrant) hmode) hprofile)
    hchecked) hauthorized
  have hcreate := runServiceDecoded_tasks_ok hok
  rw [TaskOp.program, runDecoded_create hu] at hcreate
  split at hcreate
  · cases congrArg Prod.fst hcreate
  · split at hcreate
    · rename_i hmetadata
      obtain ⟨hresult, rfl⟩ := Prod.mk.inj hcreate
      obtain rfl := Except.ok.inj hresult
      have hrow : ∀ row, (u.created row (inputs' 0).now).findTask (rowKey "task_" (nextRowid u.tasks)) =
          some (row.toTask (inputs' 0).now (nextRowid u.tasks)) :=
        fun row => (created_findTask hu row _).trans (if_pos rfl)
      refine ⟨⟨wellFormed_created hu _, congrArg (Option.map Task.creation) (hrow _)⟩,
        congrArg (Option.map Task.status) (hrow _), ?_, rfl⟩
      exact (congrArg (Option.all Task.readable) (hrow _)).trans
        (Bool.and_eq_true_iff.mpr ⟨hmetadata, rfl⟩)
    · cases congrArg Prod.fst hcreate

end Creation

/-- A body that is accepted does not forge the reserved metadata, except that a row that cannot
be read is an error of the session, exactly if it has no `control_plane` key and marks an approval
only under the scope for it. -/
theorem reserved_metadata_iff {auth : ProductAuth} {request : CreateTaskRequest}
    {inputs : ℕ → ServiceStep.Input} {task : Task} {s' : Store} (s : StoreState)
    (hok : runServiceDecoded (TasksApi.create auth request) inputs s.store = (.ok task, s')) :
    (∀ t, Reaches anyCall (fun _ _ => True) s' t →
      (Unforged auth task.id t ↔ t.Answers task.id)) ↔
      request.metadata.bind (·.get? "control_plane") = none ∧
      (approvalMarked request.metadata → .tasksRemoteExecution ∈ auth.scopes) := by
  obtain ⟨request', inputs', u, hsent, hu, henqueue⟩ := create_accepted s.wellFormed hok
  obtain ⟨hstored, hqueued, hread, hmetadata⟩ := enqueued_row hu henqueue
  have hkey : task.metadata.bind (·.get? "control_plane") =
      request.metadata.bind (·.get? "control_plane") := by
    rw [hmetadata]
    rcases hsent with rfl | ⟨-, rfl⟩
    · rfl
    · exact controlPlane_mark request
  constructor
  · intro hunforged
    constructor
    · by_contra hforged
      obtain ⟨controlPlane, hcontrol⟩ := Option.ne_none_iff_exists'.mp hforged
      have hcancelled : Reaches anyCall (fun _ _ => True) s'
          (s'.moved task.id .cancelled none (inputs 0).now) := by
        refine .tail (a := (.tasks (.cancel task.id), inputs 0)) .refl trivial ?_
        exact congrArg some (cancelled_store hstored hqueued hread (inputs 0))
      refine callback_of_cancel hstored hread _ (hkey.trans hcontrol)
        ((hunforged _ hcancelled).mpr (.inl ?_))
      rw [taskReadable_moved]
      exact hread
    · intro hmarked
      rcases hsent with rfl | ⟨hscope, -⟩
      · obtain ⟨row, hfind, hrow⟩ := hstored.found
        refine ((hunforged _ .refl).mpr (.inl hread)).approved row hfind ?_
        rw [hrow, hmetadata]
        exact hmarked
      · exact hscope
  · rintro ⟨hlocal, happroved⟩ t hreach
    have hlater : Stored task t := by
      refine hreach.invariant hstored ?_
      intro u call v hu _ hstep
      exact hu.anyCall hstep
    refine ⟨Unforged.answers, unforged_of_metadata hlater (hkey.trans hlocal) fun hmarked => ?_⟩
    rcases hsent with rfl | ⟨hscope, -⟩
    · rw [hmetadata] at hmarked
      exact happroved hmarked
    · exact hscope

section Samples

def requestWith (metadata : List (String × Value)) : CreateTaskRequest :=
  { omittedProvider with metadata := some (.object metadata) }

theorem runServiceDecoded_of_toOption {c : ServiceCall ApiError Task}
    {inputs : ℕ → ServiceStep.Input} {s : Store} {task : Task}
    (h : (runServiceDecoded c inputs s).1.toOption = some task) :
    runServiceDecoded c inputs s = (.ok task, (runServiceDecoded c inputs s).2) :=
  Prod.ext (Call.toOption_eq_some.mp h) rfl

theorem reserved_metadata_iff_note : ∃ task s',
    runServiceDecoded (TasksApi.create sampleAuth (requestWith [("note", .string "nightly")]))
      (fun _ => sampleInput "t1") sampleStore.store = (.ok task, s') ∧
    ∀ t, Reaches anyCall (fun _ _ => True) s' t →
      (Unforged sampleAuth task.id t ↔ t.Answers task.id) := by
  have haccepted : (runServiceDecoded
      (TasksApi.create sampleAuth (requestWith [("note", .string "nightly")]))
      (fun _ => sampleInput "t1") sampleStore.store).1.toOption.isSome := by decide +kernel
  obtain ⟨task, htask⟩ := Option.isSome_iff_exists.mp haccepted
  have hok := runServiceDecoded_of_toOption htask
  refine ⟨task, _, hok, (reserved_metadata_iff sampleStore hok).mpr ⟨rfl, fun hmarked => ?_⟩⟩
  exact absurd hmarked (by decide)

/-- A product sends an empty `control_plane` object. -/
def forgedCall : ServiceCall ApiError Task :=
  TasksApi.create sampleAuth (requestWith [("control_plane", .object [])])

def forgedStore : Store :=
  (runServiceDecoded forgedCall (fun _ => sampleInput "t1") sampleStore.store).2

def cancelledStore : Store :=
  (ServiceStep.execDecoded (.tasks (.cancel "task_1")) (sampleInput "t2") forgedStore).2

def isInvalidMessage (answer : CallbackResult) : Bool :=
  match answer with
  | .error .invalidMessage => true
  | _ => false

/-- The body is accepted and its task can be read, and the event of the cancellation is an error of
the session. -/
theorem forgedCall_forges : ∃ task,
    runServiceDecoded forgedCall (fun _ => sampleInput "t1") sampleStore.store =
      (.ok task, forgedStore) ∧
    task.id = "task_1" ∧ cancelledStore.taskReadable task.id ∧
    (∃ event ∈ cancelledStore.events, event.taskId = task.id ∧
      isInvalidMessage (callbackForEvent [] cancelledStore event)) ∧
    ¬ ∀ t, Reaches anyCall (fun _ _ => True) forgedStore t → Unforged sampleAuth task.id t := by
  have haccepted : (runServiceDecoded forgedCall (fun _ => sampleInput "t1")
      sampleStore.store).1.toOption.map Task.id = some "task_1" := by decide +kernel
  obtain ⟨task, htask, hid⟩ := Option.map_eq_some_iff.mp haccepted
  have hread : cancelledStore.taskReadable task.id := by
    rw [hid]
    decide +kernel
  have herror : ∃ event ∈ cancelledStore.events, event.taskId = task.id ∧
      isInvalidMessage (callbackForEvent [] cancelledStore event) := by
    rw [hid]
    decide +kernel
  refine ⟨task, runServiceDecoded_of_toOption htask, hid, hread, herror, fun hunforged => ?_⟩
  obtain ⟨event, hmem, hown, hinvalid⟩ := herror
  have hreach : Reaches anyCall (fun _ _ => True) forgedStore cancelledStore :=
    .tail (a := (.tasks (.cancel "task_1"), sampleInput "t2")) .refl trivial rfl
  rw [(hunforged _ hreach).silentEvents [] event hmem hown] at hinvalid
  cases hinvalid

end Samples

end OpenDaemon
