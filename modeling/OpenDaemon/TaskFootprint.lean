import OpenDaemon.CallRefinement
import OpenDaemon.TaskStore

/-!
# What a call of the task store may write

The writing steps of a call, with the arguments that they can have: a step
writes what the call was given, and nothing that it has read. Whatever is
required of all steps of a call is then required of these only.
-/

namespace OpenDaemon

open Call

def TaskResult.Plain (result : TaskResult) : Prop :=
  result.providerResult = none ∧ result.usage = none ∧ result.artifacts = []

def TaskOp.Issues (op : TaskOp) : DbStep → Prop
  | .insertTask row _ => ∃ input, op = .create input ∧ row = TaskStore.newTask input
  | .updateTaskStatus id next payload _ _ => op = .transition id next payload ∨
      (op = .cancel id ∧ next = .cancelled ∧ payload = none)
  | .updateTaskResult _ result => op = .saveExecutionResult result ∨
      ((∃ id finalMessage changedFiles, op = .saveResult id finalMessage changedFiles) ∧
        result.Plain)
  | .insertEvent taskId _ eventType payload _ => op = .appendEvent taskId eventType payload
  | .insertPermissionRequest taskId request _ => op = .recordPermissionRequest taskId request
  | .resolvePermissionRequest taskId requestId decision reason _ =>
    op = .resolvePermissionRequest taskId requestId decision reason
  | .replaceLock request _ => op = .acquireLock request
  | .releaseLocks taskId _ => op = .releaseLocks taskId
  | .insertGrant .. | .updateGrant .. | .deleteGrant _ => False
  | .insertProfile _ | .updateProfile .. | .deleteProfile _ => False
  | .clock | .publish _ | .selectTask _ | .selectTasks | .nextSequence _ | .selectEvent ..
  | .selectHeldLocks _ | .selectGrant _ | .selectProfile _ => True

namespace TaskStore

variable {op : TaskOp}

theorem uses_send {q : DbStep} (hq : op.Issues q) : (send q).Uses op.Issues :=
  DbStep.uses_query hq _

theorem uses_get (id : String) : (get id).Uses op.Issues := by
  refine (uses_send (q := .selectTask id) trivial).bind fun row => ?_
  cases row <;> trivial

theorem uses_nowRfc3339 : nowRfc3339.Uses op.Issues := uses_send (q := .clock) trivial

theorem uses_recorded {α : Type} (taskId : String) (sequence : ℕ) {f : TaskEvent → TaskCall α}
    (hf : ∀ event, (f event).Uses op.Issues) : (do
      let event ← eventBySequence taskId sequence
      publishIfConfigured event
      f event).Uses op.Issues :=
  (uses_send (q := .selectEvent taskId sequence) trivial).bind fun event =>
    Uses.bind ⟨trivial, fun _ => trivial⟩ fun _ => hf event

theorem uses_transition {id : String} {next : TaskStatus} {payload : Option Value}
    (h : op = .transition id next payload ∨
      (op = .cancel id ∧ next = .cancelled ∧ payload = none)) :
    (transition id next payload).Uses op.Issues := by
  refine (uses_get id).bind fun current => ?_
  cases validateTransition current.status next with
  | error e => trivial
  | ok change =>
    cases change with
    | idempotent => trivial
    | changed =>
      refine uses_nowRfc3339.bind fun now =>
        (uses_send (q := .nextSequence id) trivial).bind fun sequence =>
        (uses_send (q := .updateTaskStatus id next payload sequence now) h).bind fun _ => ?_
      exact uses_recorded id sequence fun _ => uses_get id

end TaskStore

open TaskStore in
theorem TaskOp.uses_issued (op : TaskOp) : op.program.Uses op.Issues := by
  cases op with
  | create input =>
    refine (uses_check _).bind fun _ => uses_nowRfc3339.bind fun now => ?_
    exact (uses_send (q := .insertTask (newTask input) now) ⟨input, rfl, rfl⟩).bind
      fun id => uses_recorded id 1 fun _ => uses_get id
  | get id => exact uses_get id
  | list filters => exact (uses_send (q := .selectTasks) trivial).bind fun _ => trivial
  | transition id next payload => exact uses_transition (.inl rfl)
  | cancel id => exact uses_transition (.inr ⟨rfl, rfl, rfl⟩)
  | saveResult id finalMessage changedFiles =>
    exact (uses_get id).bind fun task => uses_nowRfc3339.bind fun now =>
      uses_send (.inr ⟨⟨id, finalMessage, changedFiles, rfl⟩, rfl, rfl, rfl⟩)
  | saveExecutionResult result => exact uses_send (.inl rfl)
  | appendEvent taskId eventType payload =>
    exact (uses_get taskId).bind fun _ => uses_nowRfc3339.bind fun now =>
      (uses_send (q := .nextSequence taskId) trivial).bind fun sequence =>
      (uses_send (q := .insertEvent taskId sequence eventType payload now) rfl).bind fun _ =>
      uses_recorded taskId sequence fun _ => trivial
  | recordPermissionRequest taskId request =>
    exact (uses_get taskId).bind fun _ => uses_nowRfc3339.bind fun now =>
      (uses_send (q := .insertPermissionRequest taskId request now) rfl).bind fun sequence =>
      uses_recorded taskId sequence fun _ => trivial
  | resolvePermissionRequest taskId requestId decision reason =>
    refine (uses_get taskId).bind fun _ => uses_nowRfc3339.bind fun now =>
      (uses_send (q := .resolvePermissionRequest taskId requestId decision reason now) rfl).bind
        fun outcome => ?_
    rcases outcome with e | resolution | sequence
    · trivial
    · trivial
    · exact uses_recorded taskId sequence fun _ => trivial
  | acquireLock request =>
    refine (uses_send (q := .selectHeldLocks request.directoryId) trivial).bind fun held => ?_
    split
    · trivial
    · exact uses_nowRfc3339.bind fun now =>
        (uses_send (q := .replaceLock request now) rfl).bind fun _ => trivial
  | releaseLocks taskId =>
    exact uses_nowRfc3339.bind fun now => uses_send (q := .releaseLocks taskId now) rfl

end OpenDaemon
