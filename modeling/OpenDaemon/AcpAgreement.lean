import OpenDaemon.ProviderManifests
import OpenDaemon.RuntimeIdentity

/-!
# What validation, detection and execution make of an ACP manifest

The registry checks a manifest when it is loaded, detection looks for the runtime, and
the adapter runs it. Each of them reads the transport, the command and the endpoint in
its own way. They agree on the manifests that start a command over standard input and
output.
-/

namespace OpenDaemon

open Runs

structure RuntimeError where
  code : String
  message : String
  deriving DecidableEq, Repr

/-- A `RuntimeView` with the fields that only detection fills. -/
structure DetectedRuntime extends RuntimeView where
  version : Option String
  detectedAt : Option String
  error : Option RuntimeError
  deriving DecidableEq, Repr

namespace DetectedRuntime

variable (providerId : String) (kind : RuntimeKind) (now : String)

def availableWithKind (executable : String) (version : Option String) : DetectedRuntime :=
  ⟨⟨runtimeIdForKind providerId kind, providerId, kind, .available, some executable⟩, version,
    some now, none⟩

def unavailableWithKind (error : RuntimeError) : DetectedRuntime :=
  ⟨⟨runtimeIdForKind providerId kind, providerId, kind, .unavailable, none⟩, none, some now,
    some error⟩

def errorWithKind (executable : Option String) (error : RuntimeError) : DetectedRuntime :=
  ⟨⟨runtimeIdForKind providerId kind, providerId, kind, .error, executable⟩, none, some now,
    some error⟩

end DetectedRuntime

namespace Acp

/-- `resolvePathCommand` finds the executable of a command in the environment. -/
def detectAcpProvider (manifest : ManifestFile) (resolvePathCommand : String → Option String)
    (now : String) : DetectedRuntime :=
  match manifest.acp with
  | none => .errorWithKind manifest.id .localAcp now none
      ⟨"acp_invalid_configuration", "provider acp configuration is missing"⟩
  | some acp =>
    match acp.transport with
    | .stdio =>
      match acp.command.bind List.head? with
      | none => .errorWithKind manifest.id .localAcp now none
          ⟨"acp_invalid_configuration", "acp stdio transport requires a command"⟩
      | some command =>
        match resolvePathCommand command with
        | some executable => .availableWithKind manifest.id .localAcp now executable none
        | none => .unavailableWithKind manifest.id .localAcp now
            ⟨"acp_runtime_unavailable", "no configured acp command was found"⟩
    | .localSocket =>
      if acp.endpoint.isSome then
        .availableWithKind manifest.id .localAcp now "acp://local-socket" none
      else .errorWithKind manifest.id .localAcp now none
        ⟨"acp_invalid_configuration", "acp local_socket transport requires an endpoint"⟩

/-- What `execute_inner` can return: what it refuses at the start, or how a session ends. -/
inductive Executes (setup : Setup) (launch : Launch) (service : EventState) :
    RuntimeExecutionOutcome → Prop
  | refused {outcome : RuntimeExecutionOutcome} (h : start launch service = .error outcome) :
      Executes setup launch service outcome
  | ended {x₀ x : Session} {wait : ChildWait} {outcome : RuntimeExecutionOutcome}
      (h : start launch service = .ok x₀)
      (hreach : Reaches (sessionStep setup) (fun _ _ => True) x₀ x)
      (hphase : x.phase = .returned wait outcome) : Executes setup launch service outcome

/-- The adapter starts this manifest in a working directory that exists. -/
structure Launches (manifest : ManifestFile) (launch : Launch) : Prop where
  acp : launch.acp = manifest.acp.map AcpSection.toAcpConfig
  workingDirectory : launch.workingDirectoryIsDir = true

/-- Detection does not call the configuration invalid, and if it finds the runtime available,
then no execution does. -/
structure Agrees (manifest : ManifestFile) (resolvePathCommand : String → Option String) :
    Prop where
  detected : ∀ now error, (detectAcpProvider manifest resolvePathCommand now).error = some error →
    error.code ≠ "acp_invalid_configuration"
  executed : ∀ now, (detectAcpProvider manifest resolvePathCommand now).status = .available →
    ∀ setup launch service outcome error, Launches manifest launch →
      Executes setup launch service outcome → outcome.error = some error →
      error.code ≠ "acp_invalid_configuration"

section Session

/-- The error is about something else than the configuration. -/
def BlamesRun (error : RuntimeAdapterError) : Prop := error.code ≠ "acp_invalid_configuration"

def Reader.BlamesRun : Reader → Prop
  | .bridging _ _ next => ∀ answer, (next answer).FailsWith Acp.BlamesRun
  | .done error => ∀ e, error = some e → Acp.BlamesRun e
  | _ => True

def Phase.BlamesRun : Phase → Prop
  | .draining _ stdout => ∀ e, stdout.error = some e → Acp.BlamesRun e
  | .returned _ outcome => ∀ e, outcome.error = some e → Acp.BlamesRun e
  | _ => True

structure Session.BlamesRun (x : Session) : Prop where
  reader : x.reader.BlamesRun
  phase : x.phase.BlamesRun

variable {setup : Setup} {x y : Session} {a : SessionAction}

theorem blamesRun_of_code {code message : String} (h : code ≠ "acp_invalid_configuration") :
    BlamesRun ⟨code, message⟩ := h

theorem settle_blamesRun {requestId : String} {call : BridgeCall PermissionDecisionEvent}
    (h : call.FailsWith BlamesRun) : (Reader.settle requestId call).BlamesRun := by
  cases call with
  | ret decision => trivial
  | fail error =>
    intro e he
    obtain rfl := Option.some.inj he
    exact h
  | step q next => exact h

theorem awaitDecision_blamesRun (request : PermissionRequestEvent) :
    (awaitDecision setup request).FailsWith BlamesRun := by
  unfold awaitDecision
  refine Call.FailsWith.bind (Call.failsWith_embed ?_ _) fun _ => Call.failsWith_mapError ?_ _
  · exact fun _ => blamesRun_of_code (by decide)
  · exact fun _ => blamesRun_of_code (by decide)

theorem done_blamesRun {code message : String} (h : code ≠ "acp_invalid_configuration") :
    (Reader.done (some ⟨code, message⟩)).BlamesRun := by
  intro e he
  obtain rfl := Option.some.inj he
  exact h

theorem bridgePermissionRequest_blamesRun (frame : Value) :
    (Reader.bridgePermissionRequest setup frame).BlamesRun := by
  unfold Reader.bridgePermissionRequest
  split
  · exact done_blamesRun (by decide)
  · exact settle_blamesRun (awaitDecision_blamesRun _)

theorem handleLine_blamesRun (line : String) (hx : x.reader.BlamesRun) :
    (x.handleLine setup line).reader.BlamesRun := by
  unfold Session.handleLine
  split
  · exact hx
  · unfold Session.handleFrame
    dsimp only
    split_ifs
    · exact bridgePermissionRequest_blamesRun _
    · exact done_blamesRun (by decide)
    · exact hx

theorem readerStep_blamesRun (h : x.readerStep setup a = some y) (hx : x.reader.BlamesRun) :
    y.reader.BlamesRun := by
  obtain ⟨-, rfl⟩ | ⟨line, -, rfl⟩ | ⟨input, requestId, q, next, -, hreader, rfl⟩ |
    ⟨response, -, -, rfl⟩ | ⟨-, -, rfl⟩ | ⟨error, message, -, rfl⟩ := readerStep_cases h
  · exact fun e he => by cases he
  · exact handleLine_blamesRun line hx
  · rw [hreader] at hx
    exact settle_blamesRun (hx _)
  · trivial
  · trivial
  · exact done_blamesRun (by decide)

theorem outcome_blamesRun {wait : ChildWait} {stdout : StdoutResult}
    {stderr : List RuntimeOutputEvent} (h : ∀ e, stdout.error = some e → BlamesRun e) :
    ∀ e, (outcome wait stdout stderr).error = some e → BlamesRun e := by
  intro e he
  unfold outcome at he
  cases herror : stdout.error with
  | some error =>
    simp only [herror] at he
    obtain rfl := Option.some.inj he
    exact h _ herror
  | none =>
    simp only [herror] at he
    cases wait with
    | exited status =>
      simp only at he
      split_ifs at he
      · cases he
      · obtain rfl := Option.some.inj he
        exact blamesRun_of_code (by decide)
    | timedOut =>
      obtain rfl := Option.some.inj he
      exact blamesRun_of_code (by decide)
    | cancelled =>
      obtain rfl := Option.some.inj he
      exact blamesRun_of_code (by decide)
    | waitFailed error =>
      obtain rfl := Option.some.inj he
      exact blamesRun_of_code (by decide)

theorem phaseStep_blamesRun {phase : Phase} (h : x.phaseStep a = some phase)
    (hx : x.BlamesRun) : phase.BlamesRun := by
  obtain ⟨wait, -, -, rfl⟩ | ⟨wait, -, rfl⟩ | ⟨wait, -, -, rfl⟩ |
    ⟨wait, error, -, hreader, rfl⟩ | ⟨wait, stdout, hphase, rfl⟩ := phaseStep_cases h
  · trivial
  · trivial
  · trivial
  · have hdone := hx.reader
    rw [hreader] at hdone
    exact hdone
  · have hstdout := hx.phase
    rw [hphase] at hstdout
    exact outcome_blamesRun hstdout

theorem sessionStep_blamesRun (h : sessionStep setup x a = some y) (hx : x.BlamesRun) :
    y.BlamesRun := by
  obtain hread | ⟨phase, hphase, rfl⟩ | ⟨hreader, hphase⟩ := sessionStep_cases h
  · refine ⟨readerStep_blamesRun hread hx.reader, ?_⟩
    rw [(readerStep_spec hread).1]
    exact hx.phase
  · exact ⟨hx.reader, phaseStep_blamesRun hphase hx⟩
  · constructor
    · rw [hreader]
      exact hx.reader
    · rw [hphase]
      exact hx.phase

end Session

section Start

variable {launch : Launch} {service : EventState} {outcome : RuntimeExecutionOutcome}
  {acp : AcpConfig}

theorem refused_blamesRun {code message : String} (h : code ≠ "acp_invalid_configuration")
    (hstart : refused code message = .error outcome) :
    ∀ e, outcome.error = some e → BlamesRun e := by
  intro e he
  obtain rfl := Except.error.inj hstart
  obtain rfl := Option.some.inj he
  exact h

theorem start_blamesRun (hacp : launch.acp = some acp) (htransport : acp.transport = .stdio)
    (hcommand : acp.command.isSome) (h : start launch service = .error outcome) :
    ∀ e, outcome.error = some e → BlamesRun e := by
  have hsome : acp.command.isNone = false := by
    rwa [Option.isNone_eq_false_iff]
  cases hspawned : launch.spawned with
  | error error =>
    simp only [start, hacp, htransport, hsome, hspawned, ne_eq, not_true_eq_false, if_false,
      Bool.false_eq_true] at h
    split_ifs at h
    · exact refused_blamesRun (by decide) h
    · exact refused_blamesRun (by decide) h
  | ok pipes =>
    simp only [start, hacp, htransport, hsome, hspawned, ne_eq, not_true_eq_false, if_false,
      Bool.false_eq_true] at h
    split_ifs at h
    · exact refused_blamesRun (by decide) h
    · exact refused_blamesRun (by decide) h
    · exact refused_blamesRun (by decide) h
    · exact refused_blamesRun (by decide) h

theorem session_blamesRun {x : Session} (h : start launch service = .ok x) : x.BlamesRun := by
  unfold start refused at h
  cases hspawned : launch.spawned with
  | error error =>
    simp only [hspawned] at h
    split at h
    · cases h
    · split_ifs at h
  | ok pipes =>
    simp only [hspawned] at h
    split at h
    · cases h
    · split_ifs at h
      obtain rfl := Except.ok.inj h
      exact ⟨trivial, trivial⟩

theorem executes_blamesRun {setup : Setup} (hacp : launch.acp = some acp)
    (htransport : acp.transport = .stdio) (hcommand : acp.command.isSome)
    (h : Executes setup launch service outcome) : ∀ e, outcome.error = some e → BlamesRun e := by
  cases h with
  | refused hstart => exact start_blamesRun hacp htransport hcommand hstart
  | ended hstart hreach hphase =>
    have hended := hreach.invariant (I := Session.BlamesRun) (session_blamesRun hstart)
      fun _ _ _ hx _ hstep => sessionStep_blamesRun hstep hx
    have hreturned := hended.phase
    rw [hphase] at hreturned
    exact hreturned

end Start

section Manifest

variable {manifest : ManifestFile} {acp : AcpSection}
  {resolvePathCommand : String → Option String}

theorem hasCommand_iff : acp.hasCommand = true ↔
    ∃ first rest, acp.command = some (first :: rest) := by
  unfold AcpSection.hasCommand
  cases hcommand : acp.command with
  | none => simp
  | some command =>
    cases command with
    | nil => simp
    | cons first rest => simp

theorem agrees_of_stdio (hacp : manifest.acp = some acp) (htransport : acp.transport = .stdio)
    (hcommand : acp.hasCommand = true) : Agrees manifest resolvePathCommand := by
  obtain ⟨first, rest, hfirst⟩ := hasCommand_iff.mp hcommand
  constructor
  · intro now error herror
    simp only [detectAcpProvider, hacp, htransport, hfirst, Option.bind_some,
      List.head?_cons] at herror
    split at herror
    · cases herror
    · obtain rfl := Option.some.inj herror
      decide
  · intro now _ setup launch service outcome error hlaunch hexecutes herror
    have hconfig : launch.acp = some acp.toAcpConfig := by rw [hlaunch.acp, hacp, Option.map_some]
    exact executes_blamesRun hconfig htransport (by simp [hfirst]) hexecutes error herror

def configuredLaunch (manifest : ManifestFile) : Launch :=
  ⟨manifest.acp.map AcpSection.toAcpConfig, true, .ok (true, true, true), true⟩

theorem not_agrees_of_localSocket (hacp : manifest.acp = some acp)
    (htransport : acp.transport = .localSocket) : ¬ Agrees manifest resolvePathCommand := by
  intro h
  cases hendpoint : acp.endpoint with
  | none =>
    refine h.detected "" ⟨"acp_invalid_configuration",
      "acp local_socket transport requires an endpoint"⟩ ?_ rfl
    simp only [detectAcpProvider, hacp, htransport, hendpoint, Option.isSome_none]
    rfl
  | some endpoint =>
    refine h.executed "" ?_ sampleSetup (configuredLaunch manifest) sampleSession.service
      (.failed ⟨"acp_invalid_configuration", "only local stdio acp transport is implemented"⟩ [])
      _ ⟨rfl, rfl⟩ (.refused ?_) rfl rfl
    · simp only [detectAcpProvider, hacp, htransport, hendpoint, Option.isSome_some]
      rfl
    · simp [start, configuredLaunch, hacp, htransport, refused]

theorem not_agrees_of_no_command (hacp : manifest.acp = some acp)
    (htransport : acp.transport = .stdio) (hcommand : acp.hasCommand ≠ true) :
    ¬ Agrees manifest resolvePathCommand := by
  intro h
  have hhead : acp.command.bind List.head? = none := by
    cases hsome : acp.command with
    | none => rfl
    | some command =>
      cases command with
      | nil => rfl
      | cons first rest => exact absurd (hasCommand_iff.mpr ⟨first, rest, hsome⟩) hcommand
  refine h.detected "" ⟨"acp_invalid_configuration",
    "acp stdio transport requires a command"⟩ ?_ rfl
  simp only [detectAcpProvider, hacp, htransport, hhead]
  rfl

/-- The three agree on an accepted ACP manifest exactly if it starts a command over standard
input and output, in whatever environment. -/
theorem agrees_iff (htype : manifest.integrationType = .acp)
    (hvalid : Validate.validateManifestFields manifest = []) :
    Agrees manifest resolvePathCommand ↔
      ∃ acp, manifest.acp = some acp ∧ acp.transport = .stdio ∧ acp.hasCommand = true := by
  obtain ⟨acp, hacp, -⟩ := Validate.acp_of_validateManifestFields htype hvalid
  constructor
  · intro h
    refine ⟨acp, hacp, ?_⟩
    cases htransport : acp.transport with
    | stdio =>
      refine ⟨rfl, ?_⟩
      by_contra hcommand
      exact not_agrees_of_no_command hacp htransport hcommand h
    | localSocket => exact absurd h (not_agrees_of_localSocket hacp htransport)
  · rintro ⟨acp, hacp, htransport, hcommand⟩
    exact agrees_of_stdio hacp htransport hcommand

end Manifest

def sampleAcpManifest (acp : AcpSection) : ManifestFile :=
  { sampleManifestFile "test-provider" with integrationType := .acp, acp := some acp }

def stdioManifest : ManifestFile :=
  sampleAcpManifest ⟨⟨.stdio, some ["test-acp-provider"]⟩, none, ["HOME"]⟩

def socketManifest : ManifestFile :=
  sampleAcpManifest ⟨⟨.localSocket, none⟩, some "/run/acp.sock", ["HOME"]⟩

theorem agrees_stdioManifest : Agrees stdioManifest some ↔
    ∃ acp, stdioManifest.acp = some acp ∧ acp.transport = .stdio ∧ acp.hasCommand = true :=
  agrees_iff rfl (by decide)

/-- The registry accepts the manifest, detection reports the runtime as available, and every
task on it fails with an invalid configuration. -/
theorem socket_accepted_and_refused :
    ¬ ∀ (manifest : ManifestFile) (resolvePathCommand : String → Option String),
      manifest.integrationType = .acp → Validate.validateManifestFields manifest = [] →
      Agrees manifest resolvePathCommand := by
  intro hall
  exact not_agrees_of_localSocket rfl rfl (hall socketManifest (fun _ => none) rfl (by decide))

end Acp

end OpenDaemon
