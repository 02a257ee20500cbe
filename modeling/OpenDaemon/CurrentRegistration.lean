import OpenDaemon.ControlPlane
import OpenDaemon.LockOwnership

/-!
# The current registration

Accepted registrations are stored one row for each daemon id; the current one is read
as the row with the lowest rowid. So the daemon goes on with the first id it was ever
given.
-/

namespace OpenDaemon

structure ControlPlaneConfig where
  endpoint : Option String
  enrollmentSecret : Option String
  deriving DecidableEq, Repr

def ControlPlaneConfig.enabled (config : ControlPlaneConfig) : Bool :=
  config.endpoint.isSome && config.enrollmentSecret.isSome

structure DaemonRuntimeSummary where
  providerId : String
  kind : RuntimeKind
  status : RuntimeStatus

structure DaemonRegistrationRequest where
  daemonId : Option String
  sessionId : Option String
  enrollmentSecret : String
  daemonVersion : String
  platform : String
  capabilities : List String
  runtimes : List DaemonRuntimeSummary

inductive DaemonRegistrationError
  | controlPlaneDisabled
  | store (error : DaemonStateStoreError)
  deriving DecidableEq, Repr

namespace DaemonRegistrationService

def currentRecord (table : DaemonTable) :
    Except DaemonRegistrationError (Option DaemonRegistrationRecord) :=
  match DaemonStateStore.getCurrent table with
  | .ok record => .ok (some record)
  | .error .notFound => .ok none
  | .error error => .error (.store error)

/-- `platform` is the operating system and the architecture of the build. The configuration of
an enabled control plane has a secret. -/
def buildRegistrationRequest (platform : String) (config : ControlPlaneConfig)
    (table : DaemonTable) (runtimes : List DaemonRuntimeSummary) :
    Except DaemonRegistrationError DaemonRegistrationRequest := do
  if config.enabled = false then throw .controlPlaneDisabled
  let persisted ← currentRecord table
  return {
    daemonId := persisted.map (·.daemonId)
    sessionId := persisted.bind (·.sessionId)
    enrollmentSecret := config.enrollmentSecret.getD ""
    daemonVersion := "0.1.0"
    platform := platform
    capabilities := ["task_dispatch", "task_cancel", "runtime_status"]
    runtimes := runtimes }

end DaemonRegistrationService

inductive RegistrationEvent
  | accept (accepted : DaemonRegistrationAccepted)
  | heartbeatAck (envelope : Value)

section Events
variable (endpoint : String) (inputs : ℕ → ServiceStep.Input)

def RegistrationEvent.apply (x : DaemonState) : RegistrationEvent → DaemonState
  | .accept accepted =>
    ((ControlPlaneClient.accept endpoint accepted).run DaemonStep.exec inputs x).state
  | .heartbeatAck envelope =>
    ((ControlPlaneMessageHandler.handleHeartbeatAck envelope).run DaemonStep.exec inputs x).state

def registrationRun (x : DaemonState) (events : List RegistrationEvent) : DaemonState :=
  events.foldl (RegistrationEvent.apply endpoint inputs) x

def DaemonRegistrationAccepted.record (accepted : DaemonRegistrationAccepted) :
    DaemonRegistrationRecord :=
  ⟨accepted.daemonId, endpoint, accepted.daemonToken, .online, accepted.registeredAt,
    some accepted.registeredAt, none, accepted.sessionId⟩

def DaemonTable.beaten (table : DaemonTable) (daemonId heartbeatAt : String)
    (status : DaemonConnectionStatus) : DaemonTable :=
  table.map fun row => if row.daemonId = daemonId then
    { row with lastHeartbeatAt := some heartbeatAt, status := status } else row

variable {endpoint inputs}
variable {x : DaemonState}

theorem find_upsert (table : DaemonTable) (record : DaemonRegistrationRecord) :
    DaemonStateStore.get (DaemonStateStore.upsert table record) record.daemonId = .ok record := by
  have hfind : (DaemonStateStore.upsert table record).find?
      (fun row => row.daemonId = record.daemonId) = some record := by
    unfold DaemonStateStore.upsert
    induction table with
    | nil => simp
    | cons row table ih =>
      by_cases hrow : row.daemonId = record.daemonId
      · simp [hrow]
      · by_cases hany : (table.any fun row => decide (row.daemonId = record.daemonId)) = true
        · rw [if_pos hany] at ih
          simp [hrow, hany, ih]
        · rw [if_neg hany] at ih
          simp [hrow, hany, ih]
  simp only [DaemonStateStore.get, hfind]

theorem run_accept (accepted : DaemonRegistrationAccepted) :
    ((ControlPlaneClient.accept endpoint accepted).run DaemonStep.exec inputs x).result =
        .ok (accepted.record endpoint) ∧
      ((ControlPlaneClient.accept endpoint accepted).run DaemonStep.exec inputs x).state.daemons =
        DaemonStateStore.upsert x.daemons (accepted.record endpoint) := by
  have hget := find_upsert x.daemons (accepted.record endpoint)
  simp only [DaemonRegistrationAccepted.record] at hget ⊢
  unfold ControlPlaneClient.accept
  rw [Call.run_step]
  simp only [DaemonStep.exec, DaemonStateStore.saveRegistration, hget]
  exact ⟨rfl, rfl⟩

theorem run_heartbeatAck {envelope : Value} {heartbeatAt : String}
    (h : envelope.strAt "heartbeat_at" = some heartbeatAt) :
    ((ControlPlaneMessageHandler.handleHeartbeatAck envelope).run DaemonStep.exec inputs
      x).state.daemons =
      x.daemons.head?.elim x.daemons fun record =>
        x.daemons.beaten record.daemonId heartbeatAt record.status := by
  unfold ControlPlaneMessageHandler.handleHeartbeatAck
  rw [h]
  simp only [ControlPlaneMessageHandler.orInvalid, Call.ret_bind, Call.run_step, DaemonStep.exec,
    DaemonStateStore.getCurrent]
  cases hhead : x.daemons.head? with
  | none => rfl
  | some record =>
    simp only [ControlPlaneMessageHandler.markHeartbeat, Call.run_step, DaemonStep.exec,
      Option.elim_some]
    cases (DaemonStateStore.markHeartbeat x.daemons record.daemonId heartbeatAt
      record.status).1 <;> rfl

theorem run_heartbeatAck_invalid {envelope : Value} (h : envelope.strAt "heartbeat_at" = none) :
    ((ControlPlaneMessageHandler.handleHeartbeatAck envelope).run DaemonStep.exec inputs
      x).state = x := by
  unfold ControlPlaneMessageHandler.handleHeartbeatAck
  rw [h]
  rfl

def RegistrationEvent.daemonId? : RegistrationEvent → Option String
  | .accept accepted => some accepted.daemonId
  | .heartbeatAck _ => none

def firstAccepted (events : List RegistrationEvent) : Option String :=
  events.findSome? RegistrationEvent.daemonId?

def DaemonTable.currentId (table : DaemonTable) : Option String :=
  table.head?.map (·.daemonId)

theorem currentId_of_currentRecord {table : DaemonTable} {record : DaemonRegistrationRecord}
    (h : DaemonRegistrationService.currentRecord table = .ok (some record)) :
    table.currentId = some record.daemonId := by
  cases table with
  | nil => cases h
  | cons row table =>
    obtain rfl : row = record := Option.some.inj (Except.ok.inj h)
    rfl

theorem head_upsert_cons (row : DaemonRegistrationRecord) (table : DaemonTable)
    (record : DaemonRegistrationRecord) :
    (DaemonStateStore.upsert (row :: table) record).head? =
      some (if row.daemonId = record.daemonId then record else row) := by
  unfold DaemonStateStore.upsert
  by_cases hrow : row.daemonId = record.daemonId
  · simp [hrow]
  · by_cases hany : (table.any fun row => decide (row.daemonId = record.daemonId)) = true
    · simp [hrow, hany]
    · simp [hrow, hany]

theorem eq_of_mem_upsert {table : DaemonTable} {record row : DaemonRegistrationRecord}
    (hrow : row ∈ DaemonStateStore.upsert table record) (hid : row.daemonId = record.daemonId) :
    row = record := by
  unfold DaemonStateStore.upsert at hrow
  split_ifs at hrow with hany
  · obtain ⟨old, -, rfl⟩ := List.mem_map.mp hrow
    by_cases hold : old.daemonId = record.daemonId
    · rw [if_pos hold]
    · rw [if_neg hold] at hid
      exact absurd hid hold
  · rcases List.mem_append.mp hrow with hold | hnew
    · refine absurd (List.any_eq_true.mpr ⟨row, hold, decide_eq_true hid⟩) hany
    · exact List.mem_singleton.mp hnew

theorem currentId_beaten (table : DaemonTable) (daemonId heartbeatAt : String)
    (status : DaemonConnectionStatus) :
    (table.beaten daemonId heartbeatAt status).currentId = table.currentId := by
  cases table with
  | nil => rfl
  | cons row table =>
    simp only [DaemonTable.currentId, DaemonTable.beaten, List.map_cons, List.head?_cons,
      Option.map_some]
    split_ifs <;> rfl

theorem currentId_apply (event : RegistrationEvent) :
    (event.apply endpoint inputs x).daemons.currentId =
      x.daemons.currentId.or event.daemonId? := by
  cases event with
  | accept accepted =>
    have hdaemons : ((ControlPlaneClient.accept endpoint accepted).run DaemonStep.exec inputs
        x).state.daemons = _ := (run_accept accepted).2
    simp only [RegistrationEvent.apply, hdaemons, RegistrationEvent.daemonId?]
    cases htable : x.daemons with
    | nil => rfl
    | cons row table =>
      simp only [DaemonTable.currentId, head_upsert_cons, List.head?_cons, Option.map_some,
        Option.some_or, Option.some.injEq]
      split_ifs with hrow
      · exact hrow.symm
      · rfl
  | heartbeatAck envelope =>
    simp only [RegistrationEvent.apply, RegistrationEvent.daemonId?, Option.or_none]
    cases hat : envelope.strAt "heartbeat_at" with
    | none => rw [run_heartbeatAck_invalid hat]
    | some heartbeatAt =>
      rw [run_heartbeatAck hat]
      cases hhead : x.daemons.head? with
      | none => rfl
      | some record => exact currentId_beaten _ _ _ _

theorem currentId_run (events : List RegistrationEvent) (x : DaemonState) :
    (registrationRun endpoint inputs x events).daemons.currentId =
      x.daemons.currentId.or (firstAccepted events) := by
  induction events generalizing x with
  | nil => simp [registrationRun, firstAccepted]
  | cons event events ih =>
    have hrest := ih (event.apply endpoint inputs x)
    rw [currentId_apply, Option.or_assoc] at hrest
    have hfirst : firstAccepted (event :: events) =
        event.daemonId?.or (firstAccepted events) := by
      simp only [firstAccepted, List.findSome?_cons]
      cases event.daemonId? <;> rfl
    rw [hfirst]
    exact hrest

/-- The registration is the one the daemon goes on with: it is the current record, the next
registration request presents it, and the next heartbeat is noted in its row and in no other. -/
structure IsCurrent (platform : String) (inputs : ℕ → ServiceStep.Input) (x : DaemonState)
    (accepted : DaemonRegistrationAccepted) : Prop where
  record : ∃ record, DaemonRegistrationService.currentRecord x.daemons = .ok (some record) ∧
    record.daemonId = accepted.daemonId ∧ record.daemonToken = accepted.daemonToken ∧
    record.sessionId = accepted.sessionId ∧ record.registeredAt = accepted.registeredAt
  request : ∀ (config : ControlPlaneConfig) (runtimes : List DaemonRuntimeSummary),
    config.enabled = true → ∃ request,
      DaemonRegistrationService.buildRegistrationRequest platform config x.daemons runtimes =
        .ok request ∧
      request.daemonId = some accepted.daemonId ∧ request.sessionId = accepted.sessionId
  heartbeat : ∀ (envelope : Value) (heartbeatAt : String),
    envelope.strAt "heartbeat_at" = some heartbeatAt →
    ((ControlPlaneMessageHandler.handleHeartbeatAck envelope).run DaemonStep.exec inputs
      x).state.daemons =
      x.daemons.map fun row => if row.daemonId = accepted.daemonId then
        { row with lastHeartbeatAt := some heartbeatAt } else row

theorem isCurrent_of_head (endpoint : String) {platform : String}
    {accepted : DaemonRegistrationAccepted}
    (hhead : x.daemons.head? = some (accepted.record endpoint))
    (hrows : ∀ row ∈ x.daemons, row.daemonId = accepted.daemonId →
      row = accepted.record endpoint) : IsCurrent platform inputs x accepted := by
  have hcurrent : DaemonRegistrationService.currentRecord x.daemons =
      .ok (some (accepted.record endpoint)) := by
    simp only [DaemonRegistrationService.currentRecord, DaemonStateStore.getCurrent, hhead]
  refine ⟨⟨_, hcurrent, rfl, rfl, rfl, rfl⟩, ?_, ?_⟩
  · intro config runtimes henabled
    refine ⟨⟨some accepted.daemonId, accepted.sessionId, config.enrollmentSecret.getD "", "0.1.0",
      platform, ["task_dispatch", "task_cancel", "runtime_status"], runtimes⟩, ?_, rfl, rfl⟩
    simp only [DaemonRegistrationService.buildRegistrationRequest, henabled, hcurrent]
    rfl
  · intro envelope heartbeatAt hat
    have hrun : ((ControlPlaneMessageHandler.handleHeartbeatAck envelope).run DaemonStep.exec inputs
        x).state.daemons = _ := run_heartbeatAck hat
    rw [hhead, Option.elim_some] at hrun
    simp only [hrun, DaemonTable.beaten]
    apply List.map_congr_left
    intro row hrow
    by_cases hid : row.daemonId = accepted.daemonId
    · rw [hrows row hrow hid]
      rfl
    · have hid' : ¬ row.daemonId = (accepted.record endpoint).daemonId := hid
      rw [if_neg hid, if_neg hid']

end Events

/-- After any history an accepted registration is the current one exactly when no other id was
accepted first. -/
theorem current_registration_iff (platform endpoint : String) (inputs : ℕ → ServiceStep.Input)
    (store : Store) (events : List RegistrationEvent) (accepted : DaemonRegistrationAccepted) :
    IsCurrent platform inputs
      (registrationRun endpoint inputs ⟨store, []⟩ (events ++ [.accept accepted])) accepted ↔
    ∀ first, firstAccepted events = some first → first = accepted.daemonId := by
  have hbefore : (registrationRun endpoint inputs ⟨store, []⟩ events).daemons.currentId =
      firstAccepted events := currentId_run events ⟨store, []⟩
  have hrun : registrationRun endpoint inputs ⟨store, []⟩ (events ++ [.accept accepted]) =
      RegistrationEvent.apply endpoint inputs (registrationRun endpoint inputs ⟨store, []⟩ events)
        (.accept accepted) := by
    simp [registrationRun]
  rw [hrun]
  generalize registrationRun endpoint inputs ⟨store, []⟩ events = x at hbefore ⊢
  have hdaemons : (RegistrationEvent.apply endpoint inputs x (.accept accepted)).daemons =
      DaemonStateStore.upsert x.daemons (accepted.record endpoint) := (run_accept accepted).2
  constructor
  · rintro ⟨⟨record, hrecord, hid, -⟩, -, -⟩ first hfirst
    have hnext : (RegistrationEvent.apply endpoint inputs x (.accept accepted)).daemons.currentId =
        _ := currentId_apply (.accept accepted)
    rw [hbefore, hfirst, Option.some_or] at hnext
    rw [currentId_of_currentRecord hrecord, hid] at hnext
    exact (Option.some.inj hnext).symm
  · intro hfirst
    have hhead : (DaemonStateStore.upsert x.daemons (accepted.record endpoint)).head? =
        some (accepted.record endpoint) := by
      cases htable : x.daemons with
      | nil => rfl
      | cons row table =>
        have hrow : row.daemonId = (accepted.record endpoint).daemonId := by
          apply hfirst
          rw [← hbefore, htable]
          rfl
        rw [head_upsert_cons, if_pos hrow]
    apply isCurrent_of_head endpoint
    · rw [hdaemons]
      exact hhead
    · rw [hdaemons]
      exact fun row hrow hid => eq_of_mem_upsert hrow hid

def acceptedAs (daemonId : String) : DaemonRegistrationAccepted :=
  ⟨daemonId, "daemon-token", some "session_1", "t0"⟩

/-- The control plane gives the daemon another id; the daemon goes on with the old one. -/
theorem second_id_not_current :
    ¬ IsCurrent "linux-x86_64" (fun _ => sampleInput "t1")
      (registrationRun "wss://control" (fun _ => sampleInput "t1") ⟨Store.empty, []⟩
        ([.accept (acceptedAs "daemon_1")] ++ [.accept (acceptedAs "daemon_2")]))
      (acceptedAs "daemon_2") := by
  rintro ⟨⟨record, hrecord, hid, -⟩, -, -⟩
  have hcurrent := currentId_of_currentRecord hrecord
  rw [currentId_run, hid] at hcurrent
  have hfirst : some "daemon_1" = some "daemon_2" := hcurrent
  simp at hfirst

end OpenDaemon
