import OpenDaemon.TaskStore

/-!
# What a database step does to tasks and events

A step that succeeds writes one of a few next stores, and later proofs take these
and never open the transactions again. Of tasks and events a step leaves both
alone, creates one task, moves one task to a new status with one event, stores a
result, or adds one event.
-/

namespace OpenDaemon

open RowTable SequencedLog

theorem map_eq_ok {ε α β : Type} {f : α → β} {x : Except ε α} {b : β} :
    x.map f = .ok b ↔ ∃ a, x = .ok a ∧ f a = b := by
  cases x <;> simp [Except.map]

namespace Store

variable {s s' : Store} {taskId now : String} {sequence : ℕ} {eventType : TaskEventType}
  {payload : Value}

def Unused (s : Store) (taskId : String) (sequence : ℕ) : Prop :=
  ∀ event ∈ s.events, event.taskId = taskId → event.sequence ≠ sequence

theorem insertEvent_ok (h : s.insertEvent taskId sequence eventType payload now = .ok s') :
    s.Unused taskId sequence ∧ s' = { s with
      events := s.events ++
        [⟨eventId taskId sequence, taskId, sequence, eventType, payload, now⟩] } := by
  unfold insertEvent at h
  split at h
  · cases h
  · rename_i hany
    refine ⟨fun event hmem htask hseq => hany ?_, by simpa using h.symm⟩
    rw [List.any_eq_true]
    exact ⟨event, hmem, by simp [htask, hseq]⟩

theorem insertTask_ok {row : NewTask} {id : String} (h : s.insertTask row now = .ok (id, s')) :
    id = rowKey "task_" (nextRowid s.tasks) ∧ s.Unused id 1 ∧ s' = { s with
      tasks := insert s.tasks (row.toTask now)
      events := s.events ++ [⟨eventId id 1, id, 1, .queued, .emptyObject, now⟩] } := by
  simp only [insertTask] at h
  split at h
  · cases h
  · obtain ⟨t, hins, heq⟩ := map_eq_ok.mp h
    obtain ⟨hu, rfl⟩ := insertEvent_ok hins
    obtain ⟨rfl, rfl⟩ := Prod.mk.inj heq
    exact ⟨rfl, hu, rfl⟩

def transitioned (s : Store) (id : String) (next : TaskStatus) (payload : Option Value)
    (sequence : ℕ) (now : String) : Store :=
  { s.updateTask id fun task => task.afterTransition next now with
    events := s.events ++ [⟨eventId id sequence, id, sequence, eventTypeForStatus next,
      payload.getD .emptyObject, now⟩] }

theorem updateTaskStatus_ok {id : String} {next : TaskStatus} {body : Option Value}
    (h : s.updateTaskStatus id next body sequence now = .ok s') :
    s.Unused id sequence ∧ s' = if next.isTerminal
      then (s.transitioned id next body sequence now).releaseLocks id now
      else s.transitioned id next body sequence now := by
  obtain ⟨t, hins, rfl⟩ := map_eq_ok.mp h
  obtain ⟨hu, rfl⟩ := insertEvent_ok hins
  exact ⟨hu, rfl⟩

theorem insertPermissionRequest_ok {request : PermissionRequestEvent}
    (h : s.insertPermissionRequest taskId request now = .ok (sequence, s')) :
    sequence = s.nextSequence taskId ∧ s.Unused taskId sequence ∧ s' = { s with
      events := s.events ++ [⟨eventId taskId sequence, taskId, sequence,
        .providerPermissionRequested, request.toValue, now⟩]
      permissionRequests := s.permissionRequests ++
        [⟨request.requestId, taskId, sequence, request.providerId, request.permissionKind,
          .pending, request, none, now, none⟩] } := by
  simp only [insertPermissionRequest] at h
  split at h
  · cases h
  · obtain ⟨t, hins, heq⟩ := map_eq_ok.mp h
    obtain ⟨hu, rfl⟩ := insertEvent_ok hins
    obtain ⟨rfl, rfl⟩ := Prod.mk.inj heq
    exact ⟨rfl, hu, rfl⟩

theorem insertGrant_ok {productId agentId path id : String} {policy : DirectoryGrantPolicy}
    (h : s.insertGrant productId agentId path policy now = .ok (id, s')) :
    ∃ mk, s' = { s with grants := insert s.grants mk } := by
  simp only [insertGrant] at h
  split at h
  · cases h
  · obtain ⟨-, rfl⟩ := Prod.mk.inj (Except.ok.inj h)
    exact ⟨_, rfl⟩

theorem insertProfile_ok {profile : AgentProfile} (h : s.insertProfile profile = .ok s') :
    s' = { s with profiles := s.profiles ++ [profile] } := by
  unfold insertProfile at h
  split at h
  · cases h
  · exact (Except.ok.inj h).symm

theorem insertProfile_fresh {profile : AgentProfile} (h : s.insertProfile profile = .ok s') :
    ∀ p ∈ s.profiles, p.id ≠ profile.id := by
  unfold insertProfile at h
  split at h
  · cases h
  · rename_i htaken
    exact fun p hp hid => htaken (List.any_eq_true.mpr ⟨p, hp, decide_eq_true hid⟩)

theorem selectEvent_ok {event : TaskEvent}
    (h : (DbStep.selectEvent taskId sequence).attempt now s = .ok (event, s')) : s' = s := by
  simp only [DbStep.attempt] at h
  split at h
  · exact (Prod.mk.inj (Except.ok.inj h)).2.symm
  · cases h

def recallResolution (s : Store) (taskId requestId : String) (decision : PermissionDecision)
    (request : PermissionRequestRecord) : Except TaskStoreError (PermissionResolution ⊕ ℕ) :=
  match request.response with
  | none => .error .store
  | some response =>
    if response.decision = decision then
      match s.findPermissionDecisionEvent taskId requestId with
      | none => .error .store
      | some event => .ok (.inl ⟨taskId, requestId, PermissionRequestStatus.fromDecision decision,
          decision, event, true⟩)
    else .error .permissionRequestAlreadyResolved

def decidedEvent (s : Store) (taskId : String) (response : PermissionDecisionEvent)
    (now : String) : TaskEvent :=
  ⟨eventId taskId (s.nextSequence taskId), taskId, s.nextSequence taskId,
    .providerPermissionDecided, response.toValue, now⟩

def decided (s : Store) (taskId : String) (response : PermissionDecisionEvent) (now : String) :
    Store :=
  { s with
    events := s.events ++ [s.decidedEvent taskId response now]
    permissionRequests := s.permissionRequests.map fun r =>
      if r.requestId = response.requestId ∧ r.taskId = taskId then
        { r with
          status := PermissionRequestStatus.fromDecision response.decision
          response := some response
          respondedAt := some now }
      else r }

theorem resolvePermissionRequest_resolved {requestId : String} {decision : PermissionDecision}
    {reason : Option String} {request : PermissionRequestRecord}
    (hfind : s.findPermissionRequest taskId requestId = some request)
    (hstatus : request.status ≠ .pending) :
    s.resolvePermissionRequest taskId requestId decision reason now =
      .ok (s.recallResolution taskId requestId decision request, s) := by
  have hrecall : (match request.response with
      | none => .ok (.error .store, s)
      | some response =>
        if response.decision = decision then
          match s.findPermissionDecisionEvent taskId requestId with
          | none => .ok (.error .store, s)
          | some event => .ok (.ok (.inl ⟨taskId, requestId,
              PermissionRequestStatus.fromDecision decision, decision, event, true⟩), s)
        else .ok (.error .permissionRequestAlreadyResolved, s) :
      Except SqlError (Except TaskStoreError (PermissionResolution ⊕ ℕ) × Store)) =
      .ok (s.recallResolution taskId requestId decision request, s) := by
    unfold recallResolution
    split
    · rfl
    · split
      · split <;> rfl
      · rfl
  unfold resolvePermissionRequest
  simp only [hfind]
  cases hst : request.status with
  | pending => exact absurd hst hstatus
  | approved => exact hrecall
  | denied => exact hrecall

theorem resolvePermissionRequest_cases {requestId : String} {decision : PermissionDecision}
    {reason : Option String} {answer : Except TaskStoreError (PermissionResolution ⊕ ℕ)}
    (h : s.resolvePermissionRequest taskId requestId decision reason now = .ok (answer, s')) :
    (s.findPermissionRequest taskId requestId = none ∧ answer = .error .permissionRequestNotFound ∧
      s' = s) ∨
    ∃ request, s.findPermissionRequest taskId requestId = some request ∧
      (request.status ≠ .pending ∧ answer = s.recallResolution taskId requestId decision request ∧
          s' = s ∨
        request.status = .pending ∧ s.Unused taskId (s.nextSequence taskId) ∧
          answer = .ok (.inr (s.nextSequence taskId)) ∧
          s' = s.decided taskId ⟨requestId, decision, reason⟩ now) := by
  cases hfind : s.findPermissionRequest taskId requestId with
  | none =>
    simp only [resolvePermissionRequest, hfind] at h
    obtain ⟨rfl, rfl⟩ := Prod.mk.inj (Except.ok.inj h)
    exact .inl ⟨rfl, rfl, rfl⟩
  | some request =>
    refine .inr ⟨request, rfl, ?_⟩
    by_cases hstatus : request.status = .pending
    · simp only [resolvePermissionRequest, hfind, hstatus] at h
      obtain ⟨t, hins, heq⟩ := map_eq_ok.mp h
      obtain ⟨hu, rfl⟩ := insertEvent_ok hins
      obtain ⟨rfl, rfl⟩ := Prod.mk.inj heq
      exact .inr ⟨hstatus, hu, rfl, rfl⟩
    · rw [resolvePermissionRequest_resolved hfind hstatus] at h
      obtain ⟨rfl, rfl⟩ := Prod.mk.inj (Except.ok.inj h)
      exact .inl ⟨hstatus, rfl, rfl⟩

end Store

/-- Everything that a step can do to the store. -/
inductive Writes (s : Store) : DbStep → Store → Prop
  | nothing (q : DbStep) : Writes s q s
  | publish (event : TaskEvent) :
      Writes s (.publish event) { s with published := s.published ++ [event] }
  | insertTask (row : NewTask) (now : String)
      (unused : s.Unused (rowKey "task_" (nextRowid s.tasks)) 1) :
      Writes s (.insertTask row now) { s with
        tasks := insert s.tasks (row.toTask now)
        events := s.events ++ [⟨eventId (rowKey "task_" (nextRowid s.tasks)) 1,
          rowKey "task_" (nextRowid s.tasks), 1, .queued, .emptyObject, now⟩] }
  | transition (id : String) (next : TaskStatus) (payload : Option Value) (sequence : ℕ)
      (now : String) (unused : s.Unused id sequence) (live : ¬ next.isTerminal) :
      Writes s (.updateTaskStatus id next payload sequence now)
        (s.transitioned id next payload sequence now)
  | finish (id : String) (next : TaskStatus) (payload : Option Value) (sequence : ℕ)
      (now : String) (unused : s.Unused id sequence) (terminal : next.isTerminal) :
      Writes s (.updateTaskStatus id next payload sequence now)
        ((s.transitioned id next payload sequence now).releaseLocks id now)
  | updateTaskResult (id : String) (result : TaskResult) :
      Writes s (.updateTaskResult id result) (s.updateTaskResult id result)
  | insertEvent (taskId : String) (sequence : ℕ) (eventType : TaskEventType) (payload : Value)
      (now : String) (unused : s.Unused taskId sequence) :
      Writes s (.insertEvent taskId sequence eventType payload now) { s with
        events := s.events ++
          [⟨eventId taskId sequence, taskId, sequence, eventType, payload, now⟩] }
  | insertPermissionRequest (taskId : String) (request : PermissionRequestEvent) (now : String)
      (unused : s.Unused taskId (s.nextSequence taskId)) :
      Writes s (.insertPermissionRequest taskId request now) { s with
        events := s.events ++ [⟨eventId taskId (s.nextSequence taskId), taskId,
          s.nextSequence taskId, .providerPermissionRequested, request.toValue, now⟩]
        permissionRequests := s.permissionRequests ++
          [⟨request.requestId, taskId, s.nextSequence taskId, request.providerId,
            request.permissionKind, .pending, request, none, now, none⟩] }
  | resolvePermissionRequest (taskId requestId : String) (decision : PermissionDecision)
      (reason : Option String) (now : String) (request : PermissionRequestRecord)
      (found : s.findPermissionRequest taskId requestId = some request)
      (pending : request.status = .pending)
      (unused : s.Unused taskId (s.nextSequence taskId)) :
      Writes s (.resolvePermissionRequest taskId requestId decision reason now)
        (s.decided taskId ⟨requestId, decision, reason⟩ now)
  | replaceLock (request : LockRequest) (now : String) :
      Writes s (.replaceLock request now) (s.replaceLock request now)
  | releaseLocks (taskId now : String) :
      Writes s (.releaseLocks taskId now) (s.releaseLocks taskId now)
  | insertGrant (productId agentId path : String) (policy : DirectoryGrantPolicy) (now : String)
      (mk : ℕ → DirectoryGrant) :
      Writes s (.insertGrant productId agentId path policy now)
        { s with grants := insert s.grants mk }
  | updateGrant (id : String) (policy : DirectoryGrantPolicy) (now : String) :
      Writes s (.updateGrant id policy now) (s.updateGrant id policy now)
  | deleteGrant (id : String) : Writes s (.deleteGrant id) (s.deleteGrant id)
  | insertProfile (profile : AgentProfile) :
      Writes s (.insertProfile profile) { s with profiles := s.profiles ++ [profile] }
  | updateProfile (id : String) (next : CreateAgentProfile) (now : String) :
      Writes s (.updateProfile id next now) (s.updateProfile id next now)
  | deleteProfile (id : String) : Writes s (.deleteProfile id) (s.deleteProfile id)

theorem writes_of_attempt {q : DbStep} {now : String} {s s' : Store} {row : q.Row}
    (h : q.attempt now s = .ok (row, s')) : Writes s q s' := by
  cases q with
  | insertTask row at_ =>
    obtain ⟨rfl, hu, rfl⟩ := Store.insertTask_ok h
    exact .insertTask row at_ hu
  | updateTaskStatus id next payload sequence at_ =>
    obtain ⟨t, ht, heq⟩ := map_eq_ok.mp h
    obtain ⟨-, rfl⟩ := Prod.mk.inj heq
    obtain ⟨hu, rfl⟩ := Store.updateTaskStatus_ok ht
    split
    · exact .finish id next payload sequence at_ hu ‹_›
    · exact .transition id next payload sequence at_ hu ‹_›
  | insertEvent taskId sequence eventType payload at_ =>
    obtain ⟨t, ht, heq⟩ := map_eq_ok.mp h
    obtain ⟨-, rfl⟩ := Prod.mk.inj heq
    obtain ⟨hu, rfl⟩ := Store.insertEvent_ok ht
    exact .insertEvent taskId sequence eventType payload at_ hu
  | insertPermissionRequest taskId request at_ =>
    obtain ⟨rfl, hu, rfl⟩ := Store.insertPermissionRequest_ok h
    exact .insertPermissionRequest taskId request at_ hu
  | resolvePermissionRequest taskId requestId decision reason at_ =>
    obtain ⟨-, -, rfl⟩ | ⟨request, hfound, ⟨-, -, rfl⟩ | ⟨hpending, hu, -, rfl⟩⟩ :=
      Store.resolvePermissionRequest_cases h
    · exact .nothing _
    · exact .nothing _
    · exact .resolvePermissionRequest _ _ _ _ _ request hfound hpending hu
  | selectEvent taskId sequence =>
    obtain rfl := Store.selectEvent_ok h
    exact .nothing _
  | insertGrant productId agentId path policy at_ =>
    obtain ⟨mk, rfl⟩ := Store.insertGrant_ok h
    exact .insertGrant productId agentId path policy at_ mk
  | insertProfile profile =>
    obtain ⟨t, ht, heq⟩ := map_eq_ok.mp h
    obtain ⟨-, rfl⟩ := Prod.mk.inj heq
    obtain rfl := Store.insertProfile_ok ht
    exact .insertProfile profile
  | clock | selectTask _ | selectTasks | nextSequence _ | selectHeldLocks _ | selectGrant _
  | selectProfile _ =>
    cases h
    exact .nothing _
  | publish event =>
    cases h
    exact .publish event
  | updateTaskResult id result =>
    cases h
    exact .updateTaskResult id result
  | replaceLock request at_ =>
    cases h
    exact .replaceLock request at_
  | releaseLocks taskId at_ =>
    cases h
    exact .releaseLocks taskId at_
  | updateGrant id policy at_ =>
    cases h
    exact .updateGrant id policy at_
  | deleteGrant id =>
    cases h
    exact .deleteGrant id
  | updateProfile id next at_ =>
    cases h
    exact .updateProfile id next at_
  | deleteProfile id =>
    cases h
    exact .deleteProfile id

theorem exec_cases (q : DbStep) (input : DbStep.Input) (s : Store) :
    (∃ e, q.exec input s = (.error e, s)) ∨
    ∃ now row s', q.attempt now s = .ok (row, s') ∧ q.exec input s = (.ok row, s') := by
  cases input with
  | ioError => exact .inl ⟨_, rfl⟩
  | proceed now =>
    cases h : q.attempt now s with
    | error e => exact .inl ⟨e, by simp [DbStep.exec, h]⟩
    | ok r => exact .inr ⟨now, r.1, r.2, h, by simp [DbStep.exec, h]⟩

theorem writes_of_exec (q : DbStep) (input : DbStep.Input) (s : Store) :
    Writes s q (q.exec input s).2 := by
  obtain ⟨e, he⟩ | ⟨now, row, s', ha, he⟩ := exec_cases q input s
  · rw [he]
    exact .nothing q
  · rw [he]
    exact writes_of_attempt ha

/-- A step that adds one event without touching a task's status, and that event. -/
inductive Logs (s : Store) : DbStep → TaskEvent → Prop
  | insertEvent (taskId : String) (sequence : ℕ) (eventType : TaskEventType) (payload : Value)
      (now : String) : Logs s (.insertEvent taskId sequence eventType payload now)
        ⟨eventId taskId sequence, taskId, sequence, eventType, payload, now⟩
  | requested (taskId : String) (request : PermissionRequestEvent) (now : String) :
      Logs s (.insertPermissionRequest taskId request now)
        ⟨eventId taskId (s.nextSequence taskId), taskId, s.nextSequence taskId,
          .providerPermissionRequested, request.toValue, now⟩
  | decided (taskId requestId : String) (decision : PermissionDecision) (reason : Option String)
      (now : String) : Logs s (.resolvePermissionRequest taskId requestId decision reason now)
        ⟨eventId taskId (s.nextSequence taskId), taskId, s.nextSequence taskId,
          .providerPermissionDecided, PermissionDecisionEvent.toValue ⟨requestId, decision, reason⟩,
          now⟩

inductive Effect (s s' : Store) : DbStep → Prop
  | quiet (q : DbStep) (tasks : s'.tasks = s.tasks) (events : s'.events = s.events) :
      Effect s s' q
  | created (row : NewTask) (now : String)
      (tasks : s'.tasks = insert s.tasks (row.toTask now))
      (events : s'.events = s.events ++ [⟨eventId (rowKey "task_" (nextRowid s.tasks)) 1,
        rowKey "task_" (nextRowid s.tasks), 1, .queued, .emptyObject, now⟩]) :
      Effect s s' (.insertTask row now)
  | transitioned (id : String) (next : TaskStatus) (payload : Option Value) (sequence : ℕ)
      (now : String) (unused : s.Unused id sequence)
      (tasks : s'.tasks = (s.updateTask id fun task => task.afterTransition next now).tasks)
      (events : s'.events = s.events ++ [⟨eventId id sequence, id, sequence,
        eventTypeForStatus next, payload.getD .emptyObject, now⟩]) :
      Effect s s' (.updateTaskStatus id next payload sequence now)
  | resulted (id : String) (result : TaskResult)
      (tasks : s'.tasks = (s.updateTaskResult id result).tasks) (events : s'.events = s.events) :
      Effect s s' (.updateTaskResult id result)
  | logged (q : DbStep) (event : TaskEvent) (logs : Logs s q event)
      (unused : s.Unused event.taskId event.sequence) (tasks : s'.tasks = s.tasks)
      (events : s'.events = s.events ++ [event]) : Effect s s' q

theorem effect_of_writes {q : DbStep} {s s' : Store} (h : Writes s q s') : Effect s s' q := by
  cases h with
  | insertTask row now _ => exact .created row now rfl rfl
  | transition id next payload sequence now hu _ =>
    exact .transitioned id next payload sequence now hu rfl rfl
  | finish id next payload sequence now hu _ =>
    exact .transitioned id next payload sequence now hu rfl rfl
  | updateTaskResult id result => exact .resulted id result rfl rfl
  | insertEvent taskId sequence eventType payload now hu =>
    exact .logged _ _ (.insertEvent ..) hu rfl rfl
  | insertPermissionRequest taskId request now hu => exact .logged _ _ (.requested ..) hu rfl rfl
  | resolvePermissionRequest taskId requestId decision reason now request _ _ hu =>
    exact .logged _ _ (.decided ..) hu rfl rfl
  | nothing | publish | replaceLock | releaseLocks | insertGrant | updateGrant | deleteGrant
  | insertProfile | updateProfile | deleteProfile => exact .quiet _ rfl rfl

theorem effect_of_exec (q : DbStep) (input : DbStep.Input) (s : Store) :
    Effect s (q.exec input s).2 q :=
  effect_of_writes (writes_of_exec q input s)

end OpenDaemon
