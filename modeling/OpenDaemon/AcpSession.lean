import OpenDaemon.EventLog
import OpenDaemon.EventService
import OpenDaemon.ServiceSteps

/-!
# Provider sessions over ACP

`LocalAcpAdapter::execute_inner`: the provider is a child process whose standard
output is read by a task of its own, which stops at a permission request until
somebody has decided on it. The session waits for the child, then for the reader,
and its outcome is made of both results. The lines the provider writes, the
moments at which the timeout elapses, the cancellation fires or the child is
dead, and all that others do to the task event service are actions.
-/

namespace OpenDaemon

open Runs

namespace RuntimeExecutionOutcome

/-- The fields that every outcome of the adapters leaves empty at first. -/
def ended (status : RuntimeExecutionStatus) (finalMessage : String)
    (error : Option RuntimeAdapterError) (events : List RuntimeOutputEvent) :
    RuntimeExecutionOutcome where
  status := status
  finalMessage := finalMessage
  changedFiles := []
  diff := none
  sessionId := none
  providerResult := none
  usage := none
  error := error
  events := events

def completed (events : List RuntimeOutputEvent) : RuntimeExecutionOutcome :=
  ended .completed "provider command completed" none events

def failed (error : RuntimeAdapterError) (events : List RuntimeOutputEvent) :
    RuntimeExecutionOutcome :=
  ended .failed "provider command failed" (some error) events

def timedOut (events : List RuntimeOutputEvent) : RuntimeExecutionOutcome :=
  ended .timedOut "provider command timed out"
    (some ⟨"command_timeout", "provider command timed out"⟩) events

def cancelled (events : List RuntimeOutputEvent) : RuntimeExecutionOutcome :=
  ended .cancelled "provider command cancelled"
    (some ⟨"command_cancelled", "provider command was cancelled"⟩) events

end RuntimeExecutionOutcome

namespace Acp

inductive AcpTransport
  | stdio
  | localSocket
  deriving DecidableEq, Repr

structure AcpConfig where
  transport : AcpTransport
  command : Option (List String)
  deriving DecidableEq, Repr

/-- `code` is none if a signal ended the process. -/
structure ExitStatus where
  code : Option ℤ
  text : String
  deriving DecidableEq, Repr

def ExitStatus.success (status : ExitStatus) : Bool := status.code = some 0

inductive ChildWait
  | exited (status : ExitStatus)
  | timedOut
  | cancelled
  | waitFailed (error : String)
  deriving DecidableEq, Repr

structure StdoutResult where
  sessionId : Option String
  events : List RuntimeOutputEvent
  error : Option RuntimeAdapterError

structure Setup where
  taskId : String
  providerId : String
  hasService : Bool
  parse : String → Option Value
  storeErrorText : TaskStoreError → String
  serviceErrorText : TaskEventServiceError → String

abbrev BridgeCall (α : Type) : Type := Call EventStep EventStep.Answer RuntimeAdapterError α

/-- Where the task that runs `handle_stdout` stands. -/
inductive Reader
  | reading
  | bridging (requestId : String) (q : EventStep)
      (next : q.Answer → BridgeCall PermissionDecisionEvent)
  | responding (response : PermissionResponseRequest)
  | flushing
  | done (error : Option RuntimeAdapterError)

/-- Where `execute_inner` stands after it has started the child. -/
inductive Phase
  | waiting
  | killing (wait : ChildWait)
  | joining (wait : ChildWait)
  | draining (wait : ChildWait) (stdout : StdoutResult)
  | returned (wait : ChildWait) (outcome : RuntimeExecutionOutcome)

structure Session where
  service : EventState
  reader : Reader
  sessionId : Option String
  events : List RuntimeOutputEvent
  sent : List Value
  stderr : List RuntimeOutputEvent
  stderrOpen : Bool
  phase : Phase

section Start

structure Launch where
  acp : Option AcpConfig
  workingDirectoryIsDir : Bool
  spawned : Except String (Bool × Bool × Bool)
  promptWritten : Bool

def refused (code message : String) : Except RuntimeExecutionOutcome Session :=
  .error (.failed ⟨code, message⟩ [])

/-- `execute_inner` up to the start of the reader tasks. -/
def start (launch : Launch) (service : EventState) : Except RuntimeExecutionOutcome Session :=
  match launch.acp with
  | none => refused "acp_invalid_configuration" "provider acp configuration is missing"
  | some acp =>
    if acp.transport ≠ .stdio then
      refused "acp_invalid_configuration" "only local stdio acp transport is implemented"
    else if ¬ launch.workingDirectoryIsDir then
      refused "working_directory_missing" "prepared working directory does not exist"
    else if acp.command.isNone then
      refused "acp_invalid_configuration" "acp stdio transport requires command metadata"
    else match launch.spawned with
      | .error error =>
        refused "acp_session_start_failed" ("failed to spawn acp provider command: " ++ error)
      | .ok (stdin, stdout, stderr) =>
        if ¬ stdin then refused "acp_handshake_failed" "acp provider stdin is unavailable"
        else if ¬ stdout then refused "acp_handshake_failed" "acp provider stdout is unavailable"
        else if ¬ launch.promptWritten then
          refused "acp_handshake_failed" "failed to send task prompt to acp provider"
        else .ok ⟨service, .reading, none, [], [], [], stderr, .waiting⟩

end Start

section Frames

def isPermissionRequest (frame : Value) : Bool :=
  frame.strAt "type" = some "permission.requested"

def normalizeAcpEvent (frame : Value) : Option RuntimeOutputEvent :=
  match frame.strAt "type" with
  | some "message.delta" => some ⟨.processStdout, .object
      [("text", .string ((frame.strAt "text").getD "")), ("stream", .string "stdout"),
        ("details", frame)]⟩
  | some "permission.decided" => some ⟨.providerPermissionDecided, frame⟩
  | _ => none

def requestEvent (providerId requestId : String) (frame : Value) : PermissionRequestEvent where
  requestId := requestId
  providerId := providerId
  permissionKind := (frame.strAt "permission_kind").getD "provider_permission"
  summary := (frame.strAt "summary").getD "permission request"
  details := some frame
  options := [.approve, .deny]
  expiresAt := frame.strAt "expires_at"

def providerResponse (response : PermissionResponseRequest) : Value :=
  .object [("type", .string "permission.response"), ("request_id", .string response.requestId),
    ("decision", .string response.decision.asStr),
    ("reason", Value.ofOption .string response.reason)]

end Frames

section Reader
variable (setup : Setup)

/-- `bridge_permission_request` from the record of the request to the decision. -/
def awaitDecision (request : PermissionRequestEvent) : BridgeCall PermissionDecisionEvent := do
  let _ ← Call.embed EventStep.db (fun _ answer => answer)
    (fun error => RuntimeAdapterError.mk "acp_permission_not_supported"
      ("failed to store acp permission request: " ++ setup.storeErrorText error))
    (TaskStore.recordPermissionRequest setup.taskId request)
  (TaskEventService.awaitPermissionDecision TaskEventService.steps setup.taskId
    request.requestId).mapError fun error => ⟨"acp_permission_not_supported",
      "failed to await acp permission decision: " ++ setup.serviceErrorText error⟩

def Reader.settle (requestId : String) : BridgeCall PermissionDecisionEvent → Reader
  | .ret decision => .responding ⟨requestId, decision.decision, decision.reason⟩
  | .fail error => .done (some error)
  | .step q next => .bridging requestId q next

def Reader.bridgePermissionRequest (frame : Value) : Reader :=
  match frame.strAt "request_id" with
  | none => .done (some ⟨"acp_permission_not_supported",
      "acp permission request is missing request_id"⟩)
  | some requestId => .settle requestId
      (awaitDecision setup (requestEvent setup.providerId requestId frame))

/-- One round of the loop of `handle_stdout`, up to the first wait of a permission request. -/
def Session.handleFrame (x : Session) (frame : Value) : Session :=
  let y := { x with sessionId := (frame.strAt "session_id").orElse fun _ => x.sessionId }
  if isPermissionRequest frame then
    if setup.hasService then { y with reader := .bridgePermissionRequest setup frame }
    else { y with reader := .done (some ⟨"acp_permission_not_supported",
      "acp permission requests require task event service integration"⟩) }
  else { y with events := y.events ++ (normalizeAcpEvent frame).toList }

def Session.handleLine (x : Session) (line : String) : Session :=
  match setup.parse line with
  | none => x
  | some frame => x.handleFrame setup frame

end Reader

def Session.stdoutResult (x : Session) (error : Option RuntimeAdapterError) : StdoutResult :=
  ⟨x.sessionId, x.events, error⟩

/-- The end of `execute_inner`, from the results of both readers and of the child. -/
def outcome (wait : ChildWait) (stdout : StdoutResult) (stderr : List RuntimeOutputEvent) :
    RuntimeExecutionOutcome :=
  let events := stdout.events ++ stderr
  match stdout.error with
  | some error => .failed error events
  | none =>
    match wait with
    | .exited status =>
      if status.success then
        { RuntimeExecutionOutcome.completed events with
          sessionId := stdout.sessionId, finalMessage := "acp session completed" }
      else .failed ⟨"adapter_execution_failed",
        "acp provider command exited with status " ++ status.text⟩ events
    | .timedOut => .timedOut events
    | .cancelled => .cancelled events
    | .waitFailed error => .failed ⟨"adapter_execution_failed",
        "failed to wait for acp provider command: " ++ error⟩ events

inductive SessionAction
  /-- The reader gets a line, or finds the end of the stream or an error. -/
  | read (line : Option String)
  | advance (input : DbStep.Input)
  | wrote (result : Except String Unit)
  /-- Another part of the daemon makes a step at the task event service. -/
  | other (q : EventStep) (input : DbStep.Input)
  | readStderr (line : Option String)
  | childEnded (status : Except String ExitStatus)
  | elapsed
  | cancelFired
  /-- `child.kill()` has ended, so `wait_for_child` returns. -/
  | killed
  | joined
  | finished

def Session.readerStep (setup : Setup) (x : Session) : SessionAction → Option Session
  | .read line =>
    match x.reader with
    | .reading => some (match line with
      | none => { x with reader := .done none }
      | some line => x.handleLine setup line)
    | _ => none
  | .advance input =>
    match x.reader with
    | .bridging requestId q next =>
      if q.blocked x.service then none
      else some { x with
        service := (q.exec input x.service).2
        reader := .settle requestId (next (q.exec input x.service).1) }
    | _ => none
  | .wrote result =>
    match x.reader, result with
    | .responding response, .ok _ =>
      some { x with reader := .flushing, sent := x.sent ++ [providerResponse response] }
    | .responding _, .error error => some { x with reader := .done (some
        ⟨"acp_transport_closed", "failed to send acp permission response: " ++ error⟩) }
    | .flushing, .ok _ => some { x with reader := .reading }
    | .flushing, .error error => some { x with reader := .done (some
        ⟨"acp_transport_closed", "failed to flush acp permission response: " ++ error⟩) }
    | _, _ => none
  | _ => none

def Session.phaseStep (x : Session) : SessionAction → Option Phase
  | .childEnded status =>
    match x.phase, status with
    | .waiting, .ok status => some (.joining (.exited status))
    | .waiting, .error error => some (.joining (.waitFailed error))
    | _, _ => none
  | .elapsed => if x.phase matches .waiting then some (.killing .timedOut) else none
  | .cancelFired => if x.phase matches .waiting then some (.killing .cancelled) else none
  | .killed =>
    match x.phase with
    | .killing wait => some (.joining wait)
    | _ => none
  | .joined =>
    match x.phase, x.reader with
    | .joining wait, .done error => some (.draining wait (x.stdoutResult error))
    | _, _ => none
  | .finished =>
    match x.phase with
    | .draining wait stdout =>
      if x.stderrOpen then none else some (.returned wait (outcome wait stdout x.stderr))
    | _ => none
  | _ => none

def sessionStep (setup : Setup) (x : Session) (a : SessionAction) : Option Session :=
  match a with
  | .read _ | .advance _ | .wrote _ => x.readerStep setup a
  | .other q input => some { x with service := (q.exec input x.service).2 }
  | .readStderr line =>
    if x.stderrOpen then some (match line with
      | none => { x with stderrOpen := false }
      | some line => { x with stderr := x.stderr ++ [⟨.processStderr,
          .object [("text", .string line), ("stream", .string "stderr")]⟩] })
    else none
  | _ => (x.phaseStep a).map fun phase => { x with phase := phase }

section Kill

def ChildWait.reported : ChildWait → Option RuntimeExecutionStatus
  | .timedOut => some .timedOut
  | .cancelled => some .cancelled
  | _ => none

def Session.awaitsDecision (x : Session) : Bool :=
  match x.reader with
  | .bridging _ q _ => q.blocked x.service
  | _ => false

def Session.isKilled (x : Session) : Bool :=
  match x.phase with
  | .joining wait => wait.reported.isSome
  | _ => false

/-- A killed session returns why it was killed, and never waits for a decision after that. -/
structure Session.ReportsKill (x : Session) : Prop where
  status : ∀ wait outcome status, x.phase = .returned wait outcome →
    wait.reported = some status → outcome.status = status
  unblocked : x.isKilled → ¬ x.awaitsDecision

def Reader.calm : Reader → Bool
  | .bridging .. | .done (some _) => false
  | _ => true

def asksPermission (setup : Setup) (line : String) : Bool :=
  (setup.parse line).any isPermissionRequest

/-- The child dies while the reader is calm; after that the reader meets no permission request
and a response that is still under way is written. -/
def Spared (setup : Setup) (x : Session) : SessionAction → Prop
  | .killed => x.reader.calm
  | .read (some line) => x.isKilled → ¬ asksPermission setup line
  | .wrote result => x.isKilled → result.isOk
  | _ => True

variable {setup : Setup} {x y : Session} {a : SessionAction}

theorem handleLine_phase (line : String) : (x.handleLine setup line).phase = x.phase := by
  unfold Session.handleLine Session.handleFrame
  split
  · rfl
  · dsimp only
    split_ifs <;> rfl

theorem handleLine_reader {line : String} (hline : ¬ asksPermission setup line) :
    (x.handleLine setup line).reader = x.reader := by
  unfold Session.handleLine
  cases hparse : setup.parse line with
  | none => rfl
  | some frame =>
    have hframe : ¬ isPermissionRequest frame := by
      simpa only [asksPermission, hparse, Option.any_some] using hline
    simp only [Session.handleFrame, if_neg hframe]

theorem readerStep_cases (h : x.readerStep setup a = some y) :
    (a = .read none ∧ y = { x with reader := .done none }) ∨
    (∃ line, a = .read (some line) ∧ y = x.handleLine setup line) ∨
    (∃ input requestId q next, a = .advance input ∧ x.reader = .bridging requestId q next ∧
      y = { x with
        service := (q.exec input x.service).2
        reader := .settle requestId (next (q.exec input x.service).1) }) ∨
    (∃ response, a = .wrote (.ok ()) ∧ x.reader = .responding response ∧
      y = { x with reader := .flushing, sent := x.sent ++ [providerResponse response] }) ∨
    (a = .wrote (.ok ()) ∧ x.reader = .flushing ∧ y = { x with reader := .reading }) ∨
    ∃ error message, a = .wrote (.error error) ∧
      y = { x with reader := .done (some ⟨"acp_transport_closed", message⟩) } := by
  cases a with
  | read line =>
    simp only [Session.readerStep] at h
    split at h
    · cases line with
      | none => exact .inl ⟨rfl, (Option.some.inj h).symm⟩
      | some line => exact .inr (.inl ⟨line, rfl, (Option.some.inj h).symm⟩)
    · cases h
  | advance input =>
    simp only [Session.readerStep] at h
    split at h
    · rename_i hreader
      split_ifs at h
      exact .inr (.inr (.inl ⟨_, _, _, _, rfl, hreader, (Option.some.inj h).symm⟩))
    · cases h
  | wrote result =>
    simp only [Session.readerStep] at h
    split at h
    · rename_i hreader
      exact .inr (.inr (.inr (.inl ⟨_, rfl, hreader, (Option.some.inj h).symm⟩)))
    · exact .inr (.inr (.inr (.inr (.inr ⟨_, _, rfl, (Option.some.inj h).symm⟩))))
    · rename_i hreader
      exact .inr (.inr (.inr (.inr (.inl ⟨rfl, hreader, (Option.some.inj h).symm⟩))))
    · exact .inr (.inr (.inr (.inr (.inr ⟨_, _, rfl, (Option.some.inj h).symm⟩))))
    · cases h
  | _ => cases h

theorem phaseStep_cases {phase : Phase} (h : x.phaseStep a = some phase) :
    (∃ wait, x.phase = .waiting ∧ wait.reported = none ∧ phase = .joining wait) ∨
    (∃ wait, x.phase = .waiting ∧ phase = .killing wait) ∨
    (∃ wait, a = .killed ∧ x.phase = .killing wait ∧ phase = .joining wait) ∨
    (∃ wait error, x.phase = .joining wait ∧ x.reader = .done error ∧
      phase = .draining wait (x.stdoutResult error)) ∨
    ∃ wait stdout, x.phase = .draining wait stdout ∧
      phase = .returned wait (outcome wait stdout x.stderr) := by
  cases a with
  | childEnded status =>
    simp only [Session.phaseStep] at h
    split at h
    · rename_i hphase
      exact .inl ⟨_, hphase, rfl, (Option.some.inj h).symm⟩
    · rename_i hphase
      exact .inl ⟨_, hphase, rfl, (Option.some.inj h).symm⟩
    · cases h
  | elapsed =>
    simp only [Session.phaseStep] at h
    split at h
    · rename_i hphase
      exact .inr (.inl ⟨_, hphase, (Option.some.inj h).symm⟩)
    · cases h
  | cancelFired =>
    simp only [Session.phaseStep] at h
    split at h
    · rename_i hphase
      exact .inr (.inl ⟨_, hphase, (Option.some.inj h).symm⟩)
    · cases h
  | killed =>
    simp only [Session.phaseStep] at h
    split at h
    · rename_i hphase
      exact .inr (.inr (.inl ⟨_, rfl, hphase, (Option.some.inj h).symm⟩))
    · cases h
  | joined =>
    simp only [Session.phaseStep] at h
    split at h
    · rename_i hphase hreader
      exact .inr (.inr (.inr (.inl ⟨_, _, hphase, hreader, (Option.some.inj h).symm⟩)))
    · cases h
  | finished =>
    simp only [Session.phaseStep] at h
    split at h
    · rename_i hphase
      split_ifs at h
      exact .inr (.inr (.inr (.inr ⟨_, _, hphase, (Option.some.inj h).symm⟩)))
    · cases h
  | _ => cases h

theorem sessionStep_cases (h : sessionStep setup x a = some y) :
    x.readerStep setup a = some y ∨
    (∃ phase, x.phaseStep a = some phase ∧ y = { x with phase := phase }) ∨
    (y.reader = x.reader ∧ y.phase = x.phase) := by
  have hphase : ∀ {z}, (x.phaseStep a).map (fun phase => { x with phase := phase }) = some z →
      ∃ phase, x.phaseStep a = some phase ∧ z = { x with phase := phase } := by
    intro z hz
    obtain ⟨phase, hstep, hend⟩ := Option.map_eq_some_iff.mp hz
    exact ⟨phase, hstep, hend.symm⟩
  cases a with
  | read line => exact .inl h
  | advance input => exact .inl h
  | wrote result => exact .inl h
  | other q input =>
    obtain rfl := Option.some.inj h
    exact .inr (.inr ⟨rfl, rfl⟩)
  | readStderr line =>
    simp only [sessionStep, Option.ite_none_right_eq_some, Option.some.injEq] at h
    obtain ⟨-, rfl⟩ := h
    cases line <;> exact .inr (.inr ⟨rfl, rfl⟩)
  | childEnded status => exact .inr (.inl (hphase h))
  | elapsed => exact .inr (.inl (hphase h))
  | cancelFired => exact .inr (.inl (hphase h))
  | killed => exact .inr (.inl (hphase h))
  | joined => exact .inr (.inl (hphase h))
  | finished => exact .inr (.inl (hphase h))

theorem readerStep_spec (h : x.readerStep setup a = some y) : y.phase = x.phase ∧
    (x.isKilled → Spared setup x a → x.reader.calm → y.reader.calm) := by
  obtain ⟨rfl, rfl⟩ | ⟨line, rfl, rfl⟩ | ⟨input, requestId, q, next, rfl, hreader, rfl⟩ |
    ⟨response, rfl, hreader, rfl⟩ | ⟨rfl, hreader, rfl⟩ | ⟨error, message, rfl, rfl⟩ :=
    readerStep_cases h
  · exact ⟨rfl, fun _ _ _ => rfl⟩
  · refine ⟨handleLine_phase line, fun hkilled hok hcalm => ?_⟩
    rw [handleLine_reader (hok hkilled)]
    exact hcalm
  · refine ⟨rfl, fun _ _ hcalm => ?_⟩
    rw [hreader] at hcalm
    cases hcalm
  · exact ⟨rfl, fun _ _ _ => rfl⟩
  · exact ⟨rfl, fun _ _ _ => rfl⟩
  · exact ⟨rfl, fun hkilled hok _ => absurd (hok hkilled) (by simp [Except.isOk, Except.toBool])⟩

theorem outcome_reported {wait : ChildWait} {status : RuntimeExecutionStatus} {stdout : StdoutResult}
    (hwait : wait.reported = some status) (herror : stdout.error = none)
    (stderr : List RuntimeOutputEvent) : (outcome wait stdout stderr).status = status := by
  unfold outcome
  rw [herror]
  cases wait with
  | timedOut => exact Option.some.inj hwait
  | cancelled => exact Option.some.inj hwait
  | exited status => cases hwait
  | waitFailed error => cases hwait

def Phase.Sound (reader : Reader) : Phase → Prop
  | .joining wait => wait.reported.isSome → reader.calm
  | .draining wait stdout => wait.reported.isSome → stdout.error = none
  | .returned wait outcome => ∀ status, wait.reported = some status → outcome.status = status
  | _ => True

theorem Phase.Sound.reader {phase : Phase} {reader reader' : Reader} (h : phase.Sound reader)
    (hcalm : ∀ wait, phase = .joining wait → wait.reported.isSome → reader.calm → reader'.calm) :
    phase.Sound reader' := by
  cases phase with
  | joining wait => exact fun hwait => hcalm wait rfl hwait (h hwait)
  | waiting => trivial
  | killing wait => trivial
  | draining wait stdout => exact h
  | returned wait outcome => exact h

theorem phaseStep_sound {phase : Phase} (h : x.phaseStep a = some phase) (hok : Spared setup x a)
    (hx : x.phase.Sound x.reader) : phase.Sound x.reader := by
  obtain ⟨wait, -, hwait, rfl⟩ | ⟨wait, -, rfl⟩ | ⟨wait, rfl, -, rfl⟩ |
    ⟨wait, error, hphase, hreader, rfl⟩ | ⟨wait, stdout, hphase, rfl⟩ := phaseStep_cases h
  · intro hreported
    rw [hwait] at hreported
    cases hreported
  · trivial
  · exact fun _ => hok
  · intro hwait
    rw [hphase, hreader] at hx
    have hcalm := hx hwait
    cases error with
    | none => rfl
    | some error => cases hcalm
  · intro status hwait
    rw [hphase] at hx
    exact outcome_reported hwait (hx (Option.isSome_of_eq_some hwait)) x.stderr

theorem readerStep_sound (h : x.readerStep setup a = some y) (hok : Spared setup x a)
    (hx : x.phase.Sound x.reader) : y.phase.Sound y.reader := by
  obtain ⟨hphase, hcalm⟩ := readerStep_spec h
  rw [hphase]
  refine hx.reader fun wait hjoin hwait => hcalm ?_ hok
  simpa only [Session.isKilled, hjoin] using hwait

theorem sessionStep_sound (h : sessionStep setup x a = some y) (hok : Spared setup x a)
    (hx : x.phase.Sound x.reader) : y.phase.Sound y.reader := by
  obtain hreader | ⟨phase, hphase, rfl⟩ | ⟨hreader, hphase⟩ := sessionStep_cases h
  · exact readerStep_sound hreader hok hx
  · have hsound : phase.Sound x.reader := phaseStep_sound hphase hok hx
    exact hsound
  · rw [hreader, hphase]
    exact hx

theorem reportsKill_of_sound (hx : x.phase.Sound x.reader) : x.ReportsKill where
  status wait outcome status hphase hwait := by
    rw [hphase] at hx
    exact hx status hwait
  unblocked hkilled hawaits := by
    unfold Session.isKilled at hkilled
    unfold Session.awaitsDecision at hawaits
    split at hkilled
    · rename_i wait hphase
      rw [hphase] at hx
      have hcalm := hx hkilled
      split at hawaits
      · rename_i hreader
        rw [hreader] at hcalm
        cases hcalm
      · cases hawaits
    · cases hkilled

theorem start_phase {launch : Launch} {service : EventState} (h : start launch service = .ok x) :
    x.phase = .waiting := by
  unfold start refused at h
  grind

/-- In every run in which no permission request is under way when the child dies or comes up
after that, a killed session reports why it was killed and waits for nobody. -/
theorem killed_session_reports {launch : Launch} {service : EventState} {x₀ : Session}
    (hstart : start launch service = .ok x₀)
    (hreach : Reaches (sessionStep setup) (Spared setup) x₀ x) : x.ReportsKill := by
  refine reportsKill_of_sound (hreach.invariant (I := fun x => x.phase.Sound x.reader) ?_ ?_)
  · rw [start_phase hstart]
    trivial
  · intro x a y hx hok hstep
    exact sessionStep_sound hstep hok hx

end Kill

section Samples

def permissionLine : String :=
  "\x7b\"type\":\"permission.requested\",\"request_id\":\"perm_1\"\x7d"

def permissionFrame : Value :=
  .object [("type", .string "permission.requested"), ("request_id", .string "perm_1")]

def sampleSetup : Setup where
  taskId := "task_1"
  providerId := "codex"
  hasService := true
  parse line := if line = permissionLine then some permissionFrame else none
  storeErrorText _ := "Store"
  serviceErrorText _ := "Store"

def sampleSession : Session where
  service := .start (runAlone (TaskStore.create sampleTask) "t0" Store.empty).2
  reader := .reading
  sessionId := none
  events := []
  sent := []
  stderr := []
  stderrOpen := true
  phase := .waiting

def sampleLaunch : Launch := ⟨some ⟨.stdio, some ["codex"]⟩, true, .ok (true, true, true), true⟩

theorem start_sampleLaunch : start sampleLaunch sampleSession.service = .ok sampleSession := rfl

def bridged (n : ℕ) : List SessionAction := List.replicate n (.advance (.proceed "t1"))

def approval : SessionAction :=
  .other (.notifyPermissionResolution "task_1" ⟨"perm_1", .approve, none⟩) (.proceed "t2")

def killedAtRequest : List SessionAction :=
  .read (some permissionLine) :: bridged 8 ++ [.elapsed, .killed]

def answeredAfterKill : List SessionAction :=
  killedAtRequest ++ [approval] ++ bridged 1 ++
    [.wrote (.error "Broken pipe (os error 32)"), .readStderr none, .joined, .finished]

def Session.result? (x : Session) : Option (ChildWait × RuntimeExecutionStatus) :=
  match x.phase with
  | .returned wait outcome => some (wait, outcome.status)
  | _ => none

def answeredInTime : List SessionAction :=
  .read (some permissionLine) :: bridged 8 ++ [approval] ++ bridged 1 ++
    [.wrote (.ok ()), .elapsed, .wrote (.ok ()), .killed, .read (some "bye"), .read none,
      .readStderr none, .joined, .finished]

def spares (x : Session) : SessionAction → Bool
  | .killed => x.reader.calm
  | .read (some line) => !asksPermission sampleSetup line || !x.isKilled
  | .wrote result => result.isOk || !x.isKilled
  | _ => true

theorem spared_of_spares {x : Session} {a : SessionAction} (h : spares x a) :
    Spared sampleSetup x a := by
  cases a with
  | killed => exact h
  | read line =>
    cases line with
    | none => trivial
    | some line =>
      intro hkilled
      simpa [spares, hkilled] using h
  | wrote result =>
    intro hkilled
    simpa [spares, hkilled] using h
  | _ => trivial

def sampleRun (check : Session → SessionAction → Bool) (actions : List SessionAction) :
    Option Session :=
  run (fun x a => if check x a then sessionStep sampleSetup x a else none) sampleSession actions

theorem reaches_sample {check : Session → SessionAction → Bool} {ok : Session → SessionAction → Prop}
    {actions : List SessionAction} {β : Type} {f : Session → β} {b : β}
    (h : (sampleRun check actions).map f = some b) (checked : ∀ x a, check x a → ok x a) :
    ∃ x, Reaches (sessionStep sampleSetup) ok sampleSession x ∧ f x = b := by
  obtain ⟨x, hx, hf⟩ := Option.map_eq_some_iff.mp h
  exact ⟨x, reaches_of_run checked hx, hf⟩

set_option maxRecDepth 20000 in
theorem killed_session_reports_answeredInTime : ∃ x : Session,
    x.result? = some (.timedOut, .timedOut) ∧ x.ReportsKill := by
  have hrun : (sampleRun spares answeredInTime).map Session.result? =
      some (some (.timedOut, .timedOut)) := by decide
  obtain ⟨x, hx, hresult⟩ := reaches_sample hrun fun _ _ => spared_of_spares
  exact ⟨x, hresult, killed_session_reports start_sampleLaunch hx⟩

set_option maxRecDepth 20000 in
/-- The session that was killed waits for the decision, and then reports a failure. -/
theorem answeredAfterKill_not_reported : start sampleLaunch sampleSession.service = .ok sampleSession ∧
    (∃ x, Reaches (sessionStep sampleSetup) (fun _ _ => True) sampleSession x ∧
      x.isKilled ∧ x.awaitsDecision ∧ ¬ x.ReportsKill) ∧
    ∃ y, Reaches (sessionStep sampleSetup) (fun _ _ => True) sampleSession y ∧
      y.result? = some (.timedOut, .failed) ∧ ¬ y.ReportsKill := by
  have hrun : (sampleRun (fun _ _ => true) killedAtRequest).map
      (fun x => (x.isKilled, x.awaitsDecision)) = some (true, true) := by decide
  have hrun' : (sampleRun (fun _ _ => true) answeredAfterKill).map Session.result? =
      some (some (.timedOut, .failed)) := by decide
  obtain ⟨x, hx, hblocked⟩ := reaches_sample hrun fun _ _ _ => trivial
  obtain ⟨y, hy, hfailed⟩ := reaches_sample hrun' fun _ _ _ => trivial
  obtain ⟨hkilled, hawaits⟩ := Prod.mk.inj hblocked
  refine ⟨start_sampleLaunch, ⟨x, hx, hkilled, hawaits, fun h => h.unblocked hkilled hawaits⟩,
    y, hy, hfailed, fun h => ?_⟩
  unfold Session.result? at hfailed
  split at hfailed
  · rename_i wait outcome hphase
    obtain ⟨rfl, hstatus⟩ := Prod.mk.inj (Option.some.inj hfailed)
    have hreported := h.status _ _ .timedOut hphase rfl
    rw [hstatus] at hreported
    cases hreported
  · cases hfailed

end Samples

end Acp

end OpenDaemon
