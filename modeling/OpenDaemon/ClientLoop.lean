import OpenDaemon.DispatchOnce

/-!
# The loop of the control-plane client

`run_session` handles the text messages one after another and leaves its loop
with the first error; `run` then returns, and nobody starts the client again.
Every rejection of a message is such an error, so the client stays in its loop
exactly if no message is rejected. A rejected message changes no store.
-/

namespace OpenDaemon

open RowTable Store ControlPlaneDispatchService ControlPlaneMessageHandler ControlPlaneClient

section Run
variable {α β : Type} {inputs : ℕ → ServiceStep.Input} {x : DaemonState}

def runClient (c : ClientCall α) (inputs : ℕ → ServiceStep.Input) (x : DaemonState) :
    Except ControlPlaneClientError α × DaemonState :=
  ((Call.run DaemonStep.exec c inputs x).result, (Call.run DaemonStep.exec c inputs x).state)

@[simp] theorem runClient_ret (a : α) :
    runClient (.ret a : ClientCall α) inputs x = (.ok a, x) := rfl

@[simp] theorem runClient_fail (e : ControlPlaneClientError) :
    runClient (.fail e : ClientCall α) inputs x = (.error e, x) := rfl

theorem runClient_step (q : DaemonStep) (k : q.Answer → ClientCall α) :
    runClient (.step q k) inputs x =
      runClient (k (q.exec (inputs 0) x).1) (later inputs) (q.exec (inputs 0) x).2 := rfl

theorem runClient_ofExcept (r : Except ControlPlaneClientError α) (f : α → ClientCall β) :
    runClient (Call.ofExcept r >>= f) inputs x = match r with
      | .ok a => runClient (f a) inputs x
      | .error e => (.error e, x) := by
  cases r with
  | ok a => rfl
  | error e => rfl

theorem runClient_orInvalid (o : Option α) (f : α → ClientCall β) :
    runClient (orInvalid o >>= f) inputs x = match o with
      | some a => runClient (f a) inputs x
      | none => (.error .invalidMessage, x) := by
  cases o with
  | some a => rfl
  | none => rfl

theorem runClient_return (c : ClientCall α) (f : α → β) :
    runClient (do let a ← c; return f a) inputs x =
      ((runClient c inputs x).1.map f, (runClient c inputs x).2) := by
  induction c generalizing inputs x with
  | ret a => rfl
  | fail e => rfl
  | step q k ih => exact ih _

theorem runClient_dispatching (c : DispatchCall α) :
    runClient (dispatching c) inputs x = ((runService c inputs x.store).1.mapError .dispatch,
      { x with store := (runService c inputs x.store).2 }) := by
  induction c generalizing inputs x with
  | ret a => rfl
  | fail e => rfl
  | step q k ih => exact ih _

end Run

section Acceptable
variable (parse : String → Option Value)

def TaskStatus.isFinal (status : TaskStatus) : Prop :=
  status = .completed ∨ status = .failed ∨ status = .timedOut

/-- The dispatch was ingested before, or the scheduler admits it. -/
def DispatchAcceptable (s : Store) (envelope : Value) : Prop :=
  ∃ value, envelope.get? "task" = some value ∧
  ∃ remoteTask, RemoteDispatchTask.fromValue value = some remoteTask ∧
    ((s.scan remoteTask.remoteTaskId).isSome ∨
      ∃ input, toCreateTask remoteTask = .ok input ∧
        ∃ grant profile, Admissible s input grant profile)

def CancelAcceptable (s : Store) (envelope : Value) : Prop :=
  ∃ remoteTaskId, envelope.strAt "remote_task_id" = some remoteTaskId ∧
    ∃ task, s.scan remoteTaskId = some task ∧ ¬ task.status.isFinal

def TypeAcceptable (s : Store) (envelope : Value) (messageType : String) : Prop :=
  (messageType = "registration_accepted" →
    ((envelope.get? "registration").bind DaemonRegistrationAccepted.fromValue).isSome) ∧
  (messageType = "task_dispatch" → DispatchAcceptable s envelope) ∧
  (messageType = "task_cancel" → CancelAcceptable s envelope) ∧
  (messageType = "heartbeat_ack" → (envelope.strAt "heartbeat_at").isSome)

/-- The message is well formed, and what it asks for is allowed in this store. -/
def Acceptable (s : Store) (payload : String) : Prop :=
  ∃ envelope, parse payload = some envelope ∧
  ∃ messageType, envelope.strAt "type" = some messageType ∧ TypeAcceptable s envelope messageType

end Acceptable

section Decides
variable {ε ε' σ σ' α β : Type} {x : σ} {x' : σ'} {r : Except ε α × σ} {r' : Except ε' β × σ'}
  {P P' : Prop}

/-- The call succeeds exactly under the condition, and otherwise changes nothing. -/
structure Decides (x : σ) (r : Except ε α × σ) (P : Prop) : Prop where
  accepted : r.1.isOk ↔ P
  unchanged : ¬ r.1.isOk → r.2 = x

theorem decides_ok {y : σ} {a : α} (hP : P) : Decides x ((.ok a : Except ε α), y) P :=
  ⟨⟨fun _ => hP, fun _ => rfl⟩, fun h => absurd rfl h⟩

theorem decides_error {e : ε} (hP : ¬ P) : Decides x ((.error e : Except ε α), x) P :=
  ⟨⟨fun h => (by cases h), fun h => absurd h hP⟩, fun _ => rfl⟩

theorem Decides.congr (h : Decides x r P) (heq : P ↔ P') : Decides x r P' :=
  ⟨h.accepted.trans heq, h.unchanged⟩

theorem Decides.transfer (h : Decides x r P) (hok : r'.1.isOk = r.1.isOk)
    (hstate : r.2 = x → r'.2 = x') : Decides x' r' P := by
  refine ⟨?_, fun hrejected => hstate (h.unchanged ?_)⟩
  · rw [hok]
    exact h.accepted
  · rw [← hok]
    exact hrejected

theorem isOk_map (result : Except ε α) (f : α → β) : (result.map f).isOk = result.isOk := by
  cases result with
  | ok a => rfl
  | error e => rfl

theorem isOk_mapError (result : Except ε α) (g : ε → ε') :
    (result.mapError g).isOk = result.isOk := by
  cases result with
  | ok a => rfl
  | error e => rfl

end Decides

section Calls
variable {α β : Type} {inputs : ℕ → ServiceStep.Input} {x : DaemonState} {s : Store} {P : Prop}

theorem decides_orInvalid {o : Option α} {f : α → ClientCall β} {P : α → Prop}
    (h : ∀ a, o = some a → Decides x (runClient (f a) inputs x) (P a)) :
    Decides x (runClient (orInvalid o >>= f) inputs x) (∃ a, o = some a ∧ P a) := by
  rw [runClient_orInvalid]
  cases o with
  | none =>
    refine decides_error fun hP => ?_
    obtain ⟨a, ha, -⟩ := hP
    cases ha
  | some a =>
    refine (h a rfl).congr ⟨fun hP => ⟨a, rfl, hP⟩, fun hP => ?_⟩
    obtain ⟨b, hb, hP⟩ := hP
    rw [Option.some.inj hb]
    exact hP

theorem decides_return {c : ClientCall α} (h : Decides x (runClient c inputs x) P) (f : α → β) :
    Decides x (runClient (do let a ← c; return f a) inputs x) P := by
  rw [runClient_return]
  exact h.transfer (isOk_map _ f) fun hstate => hstate

theorem decides_dispatching {c : DispatchCall α}
    (h : Decides x.store (runService c inputs x.store) P) :
    Decides x (runClient (dispatching c) inputs x) P := by
  rw [runClient_dispatching]
  refine h.transfer (isOk_mapError _ _) fun hstate => ?_
  simp only [hstate]

theorem decides_mapError {ε ε' : Type} {c : ServiceCall ε α}
    (h : Decides s (runService c inputs s) P) (g : ε → ε') :
    Decides s (runService (c.mapError g) inputs s) P := by
  rw [runService_mapError]
  exact h.transfer (isOk_mapError _ g) fun hstate => hstate

theorem decides_enqueueTask (hs : s.WellFormed) (input : CreateTask) :
    Decides s (runService (SchedulerService.enqueueTask input) inputs s)
      (∃ grant profile, Admissible s input grant profile) := by
  rw [runService_enqueueTask hs]
  cases hdecision : admissionDecision s input with
  | error e =>
    refine decides_error fun hadmissible => ?_
    obtain ⟨grant, profile, hadm⟩ := hadmissible
    rw [admissionDecision_ok_iff.mpr ⟨grant, profile, hadm, rfl⟩] at hdecision
    cases hdecision
  | ok row =>
    obtain ⟨grant, profile, hadm, -⟩ := admissionDecision_ok_iff.mp hdecision
    exact decides_ok ⟨grant, profile, hadm⟩

theorem decides_ingest (hs : s.WellFormed) (remoteTask : RemoteDispatchTask) :
    Decides s (runService (ingest remoteTask) inputs s)
      ((s.scan remoteTask.remoteTaskId).isSome ∨ ∃ input, toCreateTask remoteTask = .ok input ∧
        ∃ grant profile, Admissible s input grant profile) := by
  rw [ingest, runService_scan]
  cases s.scan remoteTask.remoteTaskId with
  | some task => exact decides_ok (.inl rfl)
  | none =>
    simp only [runService_ofExcept]
    cases hinput : toCreateTask remoteTask with
    | error e =>
      refine decides_error fun hP => ?_
      rcases hP with hfound | ⟨input, hok, -⟩
      · cases hfound
      · cases hok
    | ok input =>
      refine (decides_mapError (decides_enqueueTask hs input) _).congr ?_
      simp

theorem runAlone_cancel_ok (hs : s.WellFormed) {task : Task} (hfind : s.findTask task.id = some task)
    (hfinal : ¬ task.status.isFinal) (now : String) :
    ∃ row t, runAlone (TaskOp.cancel task.id).program now s = (.ok row, t) := by
  have hallowed : ∃ outcome, validateTransition task.status .cancelled = .ok outcome := by
    cases hstatus : task.status with
    | completed => exact absurd (.inl hstatus) hfinal
    | failed => exact absurd (.inr (.inl hstatus)) hfinal
    | timedOut => exact absurd (.inr (.inr hstatus)) hfinal
    | cancelled => exact ⟨.idempotent, rfl⟩
    | queued | waitingDirectoryLock | preparing | running => exact ⟨.changed, rfl⟩
  obtain ⟨outcome, hvalid⟩ := hallowed
  change ∃ row t, runAlone (TaskStore.transition task.id .cancelled none) now s = (.ok row, t)
  rw [runAlone_transition hs, hfind]
  simp only [hvalid]
  cases outcome with
  | idempotent => exact ⟨_, _, rfl⟩
  | changed => exact ⟨_, _, rfl⟩

theorem decides_cancelTask (hs : s.WellFormed) {task : Task} (hfind : s.findTask task.id = some task) :
    Decides s (runService (SchedulerService.cancelTask task.id) inputs s) (¬ task.status.isFinal) := by
  rw [SchedulerService.cancelTask, runService_tasks_bind, TaskOp.program, runAlone_get_some hfind]
  by_cases hfinal : task.status = .completed ∨ task.status = .failed ∨ task.status = .timedOut
  · simp only [if_pos hfinal]
    exact decides_error (not_not.mpr hfinal)
  · obtain ⟨row, t, hcancel⟩ := runAlone_cancel_ok hs hfind hfinal (later inputs 0).now
    simp only [if_neg hfinal]
    rw [runService_tasks, hcancel]
    exact decides_ok hfinal

theorem decides_cancelRemoteTask (hs : s.WellFormed) (remoteTaskId : String) :
    Decides s (runService (cancelRemoteTask remoteTaskId) inputs s)
      (∃ task, s.scan remoteTaskId = some task ∧ ¬ task.status.isFinal) := by
  rw [cancelRemoteTask, runService_scan]
  cases hscan : s.scan remoteTaskId with
  | none =>
    refine decides_error fun hP => ?_
    obtain ⟨task, htask, -⟩ := hP
    cases htask
  | some task =>
    obtain ⟨hfind, -⟩ := scan_some hs hscan
    refine (decides_mapError (decides_cancelTask hs hfind) _).congr ?_
    simp

theorem get_isOk {table : DaemonTable} {daemonId : String}
    (h : ∃ record ∈ table, record.daemonId = daemonId) :
    ∃ record, DaemonStateStore.get table daemonId = .ok record := by
  obtain ⟨record, hmem, hid⟩ := h
  have hfound : (table.find? fun record => decide (record.daemonId = daemonId)).isSome := by
    rw [List.find?_isSome]
    exact ⟨record, hmem, decide_eq_true hid⟩
  obtain ⟨found, hfind⟩ := Option.isSome_iff_exists.mp hfound
  exact ⟨found, by rw [DaemonStateStore.get, hfind]⟩

theorem saveRegistration_ok (table : DaemonTable) (record : DaemonRegistrationRecord) :
    ∃ saved, (DaemonStateStore.saveRegistration table record).1 = .ok saved := by
  refine get_isOk ?_
  unfold DaemonStateStore.upsert
  split
  · rename_i hany
    obtain ⟨row, hmem, hid⟩ := List.any_eq_true.mp hany
    exact ⟨record, List.mem_map.mpr ⟨row, hmem, if_pos (of_decide_eq_true hid)⟩, rfl⟩
  · exact ⟨record, List.mem_append_right _ (List.mem_singleton_self record), rfl⟩

theorem markHeartbeat_ok {table : DaemonTable} {record : DaemonRegistrationRecord}
    (h : DaemonStateStore.getCurrent table = .ok record) (heartbeatAt : String) :
    ∃ marked, (DaemonStateStore.markHeartbeat table record.daemonId heartbeatAt
      record.status).1 = .ok marked := by
  have hmem : record ∈ table := by
    unfold DaemonStateStore.getCurrent at h
    split at h
    · rename_i first hfirst
      rw [Except.ok.inj h] at hfirst
      exact List.mem_of_mem_head? hfirst
    · cases h
  refine get_isOk ⟨_, List.mem_map.mpr ⟨record, hmem, if_pos rfl⟩, rfl⟩

end Calls

section Messages
variable {inputs : ℕ → ServiceStep.Input} {x : DaemonState}

theorem decides_handleDispatch (hs : x.store.WellFormed) (envelope : Value) :
    Decides x (runClient (handleDispatch envelope) inputs x) (DispatchAcceptable x.store envelope) := by
  refine decides_orInvalid fun value _ => decides_orInvalid fun remoteTask _ => ?_
  exact decides_return (decides_dispatching (decides_ingest hs remoteTask)) _

theorem decides_handleCancel (hs : x.store.WellFormed) (envelope : Value) :
    Decides x (runClient (handleCancel envelope) inputs x) (CancelAcceptable x.store envelope) := by
  refine decides_orInvalid fun remoteTaskId _ => ?_
  exact decides_return (decides_dispatching (decides_cancelRemoteTask hs remoteTaskId)) _

theorem decides_handleHeartbeatAck (envelope : Value) :
    Decides x (runClient (handleHeartbeatAck envelope) inputs x)
      (envelope.strAt "heartbeat_at").isSome := by
  have hdecides : Decides x (runClient (handleHeartbeatAck envelope) inputs x)
      (∃ heartbeatAt, envelope.strAt "heartbeat_at" = some heartbeatAt ∧ True) := by
    refine decides_orInvalid fun heartbeatAt _ => ?_
    simp only [runClient_step, DaemonStep.exec]
    cases hcurrent : DaemonStateStore.getCurrent x.daemons with
    | error e => exact decides_ok trivial
    | ok record =>
      obtain ⟨marked, hmarked⟩ := markHeartbeat_ok hcurrent heartbeatAt
      simp only [ControlPlaneMessageHandler.markHeartbeat, runClient_step, DaemonStep.exec, hmarked]
      exact decides_ok trivial
  refine hdecides.congr ?_
  rw [Option.isSome_iff_exists]
  simp

theorem decides_handleEnvelope (hs : x.store.WellFormed) (envelope : Value)
    (hother : envelope.strAt "type" ≠ some "registration_accepted") :
    Decides x (runClient (handleEnvelope envelope) inputs x) (∃ messageType,
      envelope.strAt "type" = some messageType ∧ TypeAcceptable x.store envelope messageType) := by
  refine decides_orInvalid fun messageType htype => ?_
  have hregistration : messageType ≠ "registration_accepted" := by
    rintro rfl
    exact hother htype
  by_cases hdispatch : messageType = "task_dispatch"
  · rw [if_pos hdispatch]
    refine (decides_handleDispatch hs envelope).congr ?_
    simp [TypeAcceptable, hdispatch]
  · rw [if_neg hdispatch]
    by_cases hcancel : messageType = "task_cancel"
    · rw [if_pos hcancel]
      refine (decides_handleCancel hs envelope).congr ?_
      simp [TypeAcceptable, hcancel]
    · rw [if_neg hcancel]
      by_cases hheartbeat : messageType = "heartbeat_ack"
      · rw [if_pos hheartbeat]
        refine (decides_handleHeartbeatAck envelope).congr ?_
        simp [TypeAcceptable, hheartbeat]
      · rw [if_neg hheartbeat]
        refine decides_ok ?_
        simp [TypeAcceptable, hregistration, hdispatch, hcancel, hheartbeat]

theorem decides_accept (endpoint : String) (accepted : DaemonRegistrationAccepted) :
    Decides x (runClient (accept endpoint accepted) inputs x) True := by
  obtain ⟨saved, hsaved⟩ := saveRegistration_ok x.daemons
    { daemonId := accepted.daemonId
      controlPlaneUrl := endpoint
      daemonToken := accepted.daemonToken
      status := .online
      registeredAt := accepted.registeredAt
      lastHeartbeatAt := some accepted.registeredAt
      lastErrorCode := none
      sessionId := accepted.sessionId }
  simp only [accept, runClient_step, DaemonStep.exec, hsaved]
  exact decides_ok trivial

variable (parse : String → Option Value) (endpoint : String)

theorem decides_handleFrame (hs : x.store.WellFormed) (payload : String) :
    Decides x (runClient (handleFrame parse endpoint payload) inputs x)
      (Acceptable parse x.store payload) := by
  rw [handleFrame, runClient_ofExcept]
  cases hparse : parse payload with
  | none =>
    simp only [parseRegistrationAccepted, hparse]
    refine decides_error fun hP => ?_
    obtain ⟨envelope, henvelope, -⟩ := hP
    rw [hparse] at henvelope
    cases henvelope
  | some envelope =>
    have hP : Acceptable parse x.store payload ↔ ∃ messageType,
        envelope.strAt "type" = some messageType ∧
        TypeAcceptable x.store envelope messageType := by
      simp [Acceptable, hparse]
    refine Decides.congr ?_ hP.symm
    by_cases htype : envelope.strAt "type" = some "registration_accepted"
    · cases haccepted : (envelope.get? "registration").bind DaemonRegistrationAccepted.fromValue with
      | none =>
        simp only [parseRegistrationAccepted, hparse, htype, haccepted, ne_eq, not_true_eq_false,
          if_false]
        refine decides_error fun hP => ?_
        obtain ⟨messageType, hmessage, hregistration, -⟩ := hP
        obtain rfl := Option.some.inj hmessage
        rw [haccepted] at hregistration
        exact absurd (hregistration rfl) (by decide)
      | some accepted =>
        simp only [parseRegistrationAccepted, hparse, htype, haccepted, ne_eq, not_true_eq_false,
          if_false]
        refine (decides_return (decides_accept endpoint accepted) _).congr ?_
        simp [TypeAcceptable, haccepted]
    · simp only [parseRegistrationAccepted, hparse, ne_eq, htype, not_false_eq_true, if_true]
      refine decides_return ?_ _
      rw [handleText, runClient_orInvalid, hparse]
      exact decides_handleEnvelope hs envelope htype

end Messages

inductive ClientEvent
  | text (payload : String) (inputs : ℕ → ServiceStep.Input)
  | elsewhere (q : ServiceStep) (input : ServiceStep.Input)

def DaemonState.elsewhere (x : DaemonState) (q : ServiceStep) (input : ServiceStep.Input) :
    DaemonState :=
  { x with store := (q.exec input x.store).2 }

section Session
variable (parse : String → Option Value) (endpoint : String)

def frame (x : DaemonState) (payload : String) (inputs : ℕ → ServiceStep.Input) :
    Except ControlPlaneClientError Unit × DaemonState :=
  runClient (handleFrame parse endpoint payload) inputs x

def session : DaemonState → List ClientEvent → Option DaemonState
  | x, [] => some x
  | x, .elsewhere q input :: events => session (x.elsewhere q input) events
  | x, .text payload inputs :: events =>
    if (frame parse endpoint x payload inputs).1.isOk then
      session (frame parse endpoint x payload inputs).2 events
    else none

/-- The stores that the messages leave if the rejected ones are not sent. -/
def withoutRejected : DaemonState → List ClientEvent → DaemonState
  | x, [] => x
  | x, .elsewhere q input :: events => withoutRejected (x.elsewhere q input) events
  | x, .text payload inputs :: events =>
    if (frame parse endpoint x payload inputs).1.isOk then
      withoutRejected (frame parse endpoint x payload inputs).2 events
    else withoutRejected x events

structure Robust (x : DaemonState) (events : List ClientEvent) : Prop where
  inLoop : ∀ n, (session parse endpoint x (events.take n)).isSome
  unchanged : ∀ (n : ℕ) payload inputs y, events[n]? = some (.text payload inputs) →
    session parse endpoint x (events.take n) = some y →
    ¬ (frame parse endpoint y payload inputs).1.isOk → (frame parse endpoint y payload inputs).2 = y
  asIfNotSent : ∀ n, session parse endpoint x (events.take n) =
    some (withoutRejected parse endpoint x (events.take n))

def EachAcceptable : DaemonState → List ClientEvent → Prop
  | _, [] => True
  | x, .elsewhere q input :: events => EachAcceptable (x.elsewhere q input) events
  | x, .text payload inputs :: events => Acceptable parse x.store payload ∧
    EachAcceptable (frame parse endpoint x payload inputs).2 events

variable {parse endpoint} {x : DaemonState}

theorem wellFormed_daemonStep (hs : x.store.WellFormed) (q : DaemonStep)
    (input : ServiceStep.Input) : (q.exec input x).2.store.WellFormed := by
  cases q with
  | service q => exact wellFormed_exec hs q input
  | _ => exact hs

theorem wellFormed_runClient {α : Type} (hs : x.store.WellFormed) (c : ClientCall α)
    (inputs : ℕ → ServiceStep.Input) : (runClient c inputs x).2.store.WellFormed := by
  induction c generalizing inputs x with
  | ret a => exact hs
  | fail e => exact hs
  | step q k ih => exact ih _ (wellFormed_daemonStep hs q (inputs 0)) _

theorem session_wellFormed {y : DaemonState} {events : List ClientEvent} (hs : x.store.WellFormed)
    (h : session parse endpoint x events = some y) : y.store.WellFormed := by
  induction events generalizing x with
  | nil => exact Option.some.inj h ▸ hs
  | cons event events ih =>
    cases event with
    | elsewhere q input => exact ih (wellFormed_exec hs q input) h
    | text payload inputs =>
      rw [session] at h
      split at h
      · exact ih (wellFormed_runClient hs _ _) h
      · cases h

theorem session_isSome_iff (hs : x.store.WellFormed) (events : List ClientEvent) :
    (session parse endpoint x events).isSome ↔ EachAcceptable parse endpoint x events := by
  induction events generalizing x with
  | nil => exact ⟨fun _ => trivial, fun _ => rfl⟩
  | cons event events ih =>
    cases event with
    | elsewhere q input => exact ih (wellFormed_exec hs q input)
    | text payload inputs =>
      have hdecides : Decides x (frame parse endpoint x payload inputs)
        (Acceptable parse x.store payload) := decides_handleFrame parse endpoint hs payload
      have hrest := ih (x := (frame parse endpoint x payload inputs).2)
        (wellFormed_runClient hs _ _)
      rw [session, EachAcceptable, ← hdecides.accepted]
      split
      · rename_i hok
        rw [hrest]
        exact ⟨fun h => ⟨hok, h⟩, fun h => h.2⟩
      · rename_i hrejected
        exact ⟨fun h => (by cases h), fun h => absurd h.1 hrejected⟩

theorem session_eq {y : DaemonState} {events : List ClientEvent}
    (h : session parse endpoint x events = some y) :
    y = withoutRejected parse endpoint x events := by
  induction events generalizing x with
  | nil => exact (Option.some.inj h).symm
  | cons event events ih =>
    cases event with
    | elsewhere q input => exact ih h
    | text payload inputs =>
      rw [session] at h
      rw [withoutRejected]
      split at h
      · rename_i hok
        rw [if_pos hok]
        exact ih h
      · cases h

theorem session_take {events : List ClientEvent} (n : ℕ)
    (h : (session parse endpoint x events).isSome) :
    (session parse endpoint x (events.take n)).isSome := by
  induction events generalizing x n with
  | nil => simp [session]
  | cons event events ih =>
    cases n with
    | zero => rfl
    | succ n =>
      cases event with
      | elsewhere q input => exact ih n h
      | text payload inputs =>
        rw [List.take_succ_cons, session]
        rw [session] at h
        split at h
        · rename_i hok
          rw [if_pos hok]
          exact ih n h
        · cases h

end Session

/-- The client stays in its loop, as if rejected messages had not been sent, exactly if no
message has to be rejected. -/
theorem client_robust_iff (parse : String → Option Value) (endpoint : String) {x : DaemonState}
    (hs : x.store.WellFormed) (events : List ClientEvent) :
    Robust parse endpoint x events ↔ EachAcceptable parse endpoint x events := by
  constructor
  · intro h
    have hall := h.inLoop events.length
    rw [List.take_length] at hall
    exact (session_isSome_iff hs events).mp hall
  · intro h
    have hall := (session_isSome_iff hs events).mpr h
    refine ⟨fun n => session_take n hall, fun n payload inputs y _ hy hrejected => ?_, fun n => ?_⟩
    · exact (decides_handleFrame parse endpoint (session_wellFormed hs hy) payload).unchanged hrejected
    · obtain ⟨y, hy⟩ := Option.isSome_iff_exists.mp (session_take n hall)
      rw [hy, session_eq hy]

section Samples

def arrives (payload : String) : ClientEvent := .text payload fun _ => sampleInput "t1"

def sampleDaemon : DaemonState := ⟨sampleStore.store, []⟩

set_option maxRecDepth 10000 in
theorem client_robust_iff_redelivered : Robust sampleParse "wss://control" sampleDaemon
    [arrives dispatchText, arrives dispatchText, arrives cancelText] := by
  have hloop : (session sampleParse "wss://control" sampleDaemon
      [arrives dispatchText, arrives dispatchText, arrives cancelText]).isSome := by decide
  have hs : sampleDaemon.store.WellFormed := sampleStore.wellFormed
  exact (client_robust_iff sampleParse "wss://control" hs _).mpr
    ((session_isSome_iff hs _).mp hloop)

set_option maxRecDepth 10000 in
/-- A cancellation for a task that was never dispatched ends the client; the valid dispatch
after it, which would create the task, is not ingested. -/
theorem unknownCancel_not_robust :
    session sampleParse "wss://control" sampleDaemon [arrives cancelText] = none ∧
    (withoutRejected sampleParse "wss://control" sampleDaemon
      [arrives cancelText, arrives dispatchText]).store.tasks.map (fun r => r.value.id) =
        ["task_1"] ∧
    ¬ Robust sampleParse "wss://control" sampleDaemon
      [arrives cancelText, arrives dispatchText] := by
  have hended : session sampleParse "wss://control" sampleDaemon [arrives cancelText] = none := by
    rfl
  refine ⟨hended, by decide, fun h => ?_⟩
  have hloop := h.inLoop 1
  rw [List.take_succ_cons, List.take_zero, hended] at hloop
  cases hloop

end Samples

end OpenDaemon
