import OpenDaemon.AcpAgreement
import OpenDaemon.CommandEnv
import OpenDaemon.ExecutionService
import OpenDaemon.Utf8

/-!
# Detection of a provider's runtime

`runtime/detect.rs`: which program a manifest stands for on this host, and what its
version command says. The files, the variables, the search in the path and the
started programs are parameters; names and values of variables are text.
-/

namespace OpenDaemon

structure ProbeSettings where
  versionArgs : List String
  versionRegex : Option String
  deriving DecidableEq, Repr

structure ProbedManifest extends ManifestFile, ProbeSettings
  deriving DecidableEq, Repr

inductive RuntimeEnvironment
  | system
  | map (vars : Environ String String)

inductive Poll
  | exited (status : Acp.ExitStatus)
  | running
  | failed (error : String)
  deriving DecidableEq, Repr

/-- A started version command: what it is found to be at the first look and at each later one
before the time is over, and what its pipes give up to their end. A pipe has no end if some other
process holds it open. -/
structure ProbeProcess where
  firstPoll : Poll
  laterPolls : List Poll
  stdout : Option (List UInt8)
  stderr : Option (List UInt8)

structure Captures where
  named : String → Option String
  group : ℕ → Option String

/-- What detection finds outside. `which` searches the path of the daemon, `whichIn` a given one;
`regex` is none for a pattern that does not compile. -/
structure DetectionHost where
  environ : Environ String String
  isFile : String → Bool
  mode : String → Option ℕ
  which : String → Option String
  whichIn : String → String → Option String
  spawn : String → List String → Environ String String → Except String ProbeProcess
  regex : String → Option (String → Option Captures)
  now : String

def RuntimeEnvironment.varOs (host : DetectionHost) : RuntimeEnvironment → Environ String String
  | .system => host.environ
  | .map vars => vars

namespace DetectedRuntime

def notDetectedWithKind (providerId : String) (kind : RuntimeKind) : DetectedRuntime :=
  ⟨⟨runtimeIdForKind providerId kind, providerId, kind, .notDetected, none⟩, none, none, none⟩

end DetectedRuntime

inductive ResolveExecutableError
  | overrideNotExecutable
  | commandNotFound
  deriving DecidableEq, Repr

inductive WaitError
  | wait (error : String)
  | timeout
  deriving DecidableEq, Repr

/-- The `for` loop of `wait_for_child`; when the polls are used up, the time is over. -/
def pollUntil : List Poll → Except WaitError Acp.ExitStatus
  | [] => .error .timeout
  | .exited status :: _ => .ok status
  | .failed error :: _ => .error (.wait error)
  | .running :: polls => pollUntil polls

def ProbeProcess.waitForChild (process : ProbeProcess) : Except WaitError Acp.ExitStatus :=
  pollUntil (process.firstPoll :: process.laterPolls)

theorem trim_concat {c : Char} (hc : isWhiteSpace c) (text : List Char) :
    trim (text ++ [c]) = trim text := by
  unfold trim
  rw [List.dropWhile_append]
  split
  · rename_i hnil
    have hempty : text.dropWhile isWhiteSpace = [] := by simpa using hnil
    simp [hempty, hc]
  · rw [List.reverse_append, List.reverse_singleton, List.singleton_append,
      List.dropWhile_cons_of_pos hc]

namespace RuntimeDetection

open ByteText

/-- `str::lines`, of which `parse_version` takes the first that is not blank. -/
def firstLine (text : List Char) : Option (List Char) :=
  ((splitLines '\n' '\r' text).map trim).find? fun line => !line.isEmpty

def combinedOutput (stdout stderr : List UInt8) : List Char :=
  Utf8.decodeLossy stdout ++
    (if !stdout.isEmpty && !stderr.isEmpty then ['\n'] else []) ++ Utf8.decodeLossy stderr

theorem find_of_ended {lines lines' : List (List Char)} (h : Ended '\r' lines lines') :
    (lines.map trim).find? (fun line => !line.isEmpty) =
      (lines'.map trim).find? fun line => !line.isEmpty := by
  cases h with
  | same => rfl
  | blank =>
    rw [List.map_append, List.find?_append]
    have hblank : ([[]].map trim).find? (fun line : List Char => !line.isEmpty) = none := by decide
    rw [hblank, Option.or_none]
  | returned lines line =>
    rw [List.map_append, List.map_append, List.map_singleton, List.map_singleton,
      trim_concat (by decide)]

theorem firstLine_append_lf (text rest : List Char) :
    firstLine (text ++ '\n' :: rest) = (firstLine text).or (firstLine rest) := by
  obtain ⟨lines, hended, heq⟩ : EndsLines '\n' '\r' text rest := endsLines (by decide) text rest
  unfold firstLine
  rw [heq, List.map_append, List.find?_append, find_of_ended hended]

/-- What is written to the standard error counts only if nothing is written to the output. -/
theorem firstLine_combinedOutput (stdout stderr : List UInt8) :
    firstLine (combinedOutput stdout stderr) =
      (firstLine (Utf8.decodeLossy stdout)).or (firstLine (Utf8.decodeLossy stderr)) := by
  have hnil : Utf8.decodeLossy [] = [] := Utf8.decodeLossy_encode []
  unfold combinedOutput
  cases stdout with
  | nil =>
    rw [hnil]
    rfl
  | cons byte stdout =>
    cases stderr with
    | nil => simp [hnil, firstLine, splitLines]
    | cons byte' stderr =>
      rw [List.append_assoc]
      exact firstLine_append_lf _ _

variable (host : DetectionHost) (environment : RuntimeEnvironment) (manifest : ProbedManifest)

def parseVersion (versionRegex : Option String) (stdout stderr : List UInt8) : Option String :=
  let output := combinedOutput stdout stderr
  match versionRegex with
  | some pattern => do
    let regex ← host.regex pattern
    let captures ← regex (String.ofList output)
    let matched ← (captures.named "version").or ((captures.group 1).or (captures.group 0))
    let version := trim matched.toList
    if version.isEmpty then none else some (String.ofList version)
  | none => (firstLine output).map String.ofList

def isExecutable (path : String) : Bool :=
  host.isFile path && (host.mode path).any fun mode => mode &&& 0o111 != 0

def resolvePathCommand (command : String) : Option String :=
  match environment with
  | .system => host.which command
  | .map vars => (vars "PATH").bind (host.whichIn command)

def resolveExecutable : Except ResolveExecutableError String :=
  match environment.varOs host (overrideEnvVarName manifest.id) with
  | some path => if isExecutable host path then .ok path else .error .overrideNotExecutable
  | none =>
    match manifest.detect.commands.findSome? (resolvePathCommand host environment) with
    | some executable => .ok executable
    | none => .error .commandNotFound

def intoRuntimeView (providerId : String) : ResolveExecutableError → DetectedRuntime
  | .overrideNotExecutable => .errorWithKind providerId .localCli host.now none
      ⟨"override_not_executable", "provider executable override is not an executable file"⟩
  | .commandNotFound => .unavailableWithKind providerId .localCli host.now
      ⟨"command_not_found", "no configured detect command was found"⟩

open CommandEnv in
def probeEnvironment : Environ String String :=
  let command : CommandEnv String String := match environment with
    | .system => .new
    | .map vars => ⟨true, fun key => (vars key).map some⟩
  (command.envRemoveAll (manifest.environment.required ++ manifest.environment.optional)).capture
    host.environ

/-- The end of `run_version_probe`, after both pipes have been read. -/
def probeOutcome (status : Acp.ExitStatus) (stdout stderr : List UInt8) :
    Except RuntimeError String :=
  if ¬ status.success then
    .error ⟨"version_command_failed", "version command exited with status " ++ status.text⟩
  else
    match parseVersion host manifest.versionRegex stdout stderr with
    | some version => .ok version
    | none => .error ⟨"version_parse_failed", "version output did not match the configured parser"⟩

/-- Nothing is returned while a pipe has no end, which the timeout does not cover. -/
def runVersionProbe (executable : String) : Option (Except RuntimeError String) :=
  match host.spawn executable manifest.versionArgs
      (probeEnvironment host environment manifest) with
  | .error error => some (.error
      ⟨"version_command_failed", "failed to start version command: " ++ error⟩)
  | .ok process =>
    match process.waitForChild with
    | .error (.wait error) => some (.error
        ⟨"version_command_failed", "failed to wait for version command: " ++ error⟩)
    | .error .timeout => some (.error ⟨"version_timeout", "version command timed out"⟩)
    | .ok status => do
      let stdout ← process.stdout
      let stderr ← process.stderr
      return probeOutcome host manifest status stdout stderr

def detectHttpProvider : DetectedRuntime :=
  match manifest.http with
  | none => .errorWithKind manifest.id .remoteHttp host.now none
      ⟨"http_invalid_configuration", "provider http configuration is missing"⟩
  | some http =>
    if isBlank http.endpoint then .errorWithKind manifest.id .remoteHttp host.now none
      ⟨"http_invalid_configuration", "provider http endpoint is missing"⟩
    else .availableWithKind manifest.id .remoteHttp host.now http.endpoint none

/-- The rest of `detect_provider` for a program of the command line. -/
def detectCliProvider : Option DetectedRuntime :=
  match resolveExecutable host environment manifest with
  | .error error => some (intoRuntimeView host manifest.id error)
  | .ok executable =>
    if manifest.versionArgs.isEmpty then
      some (.availableWithKind manifest.id .localCli host.now executable none)
    else
      (runVersionProbe host environment manifest executable).map fun
        | .ok version =>
          .availableWithKind manifest.id .localCli host.now executable (some version)
        | .error error => .errorWithKind manifest.id .localCli host.now (some executable) error

def detectProvider : Option DetectedRuntime :=
  match manifest.integrationType with
  | .cli => detectCliProvider host environment manifest
  | .acp => some (Acp.detectAcpProvider manifest.toManifestFile
      (resolvePathCommand host environment) host.now)
  | .http => some (detectHttpProvider host manifest)
  | .native => some (.errorWithKind manifest.id .localCli host.now none
      ⟨"unsupported_provider_integration",
        "provider integration is not supported by local runtime detection"⟩)

inductive Located : String → Prop
  | override {path : String} (type : manifest.integrationType = .cli)
      (named : environment.varOs host (overrideEnvVarName manifest.id) = some path)
      (executable : isExecutable host path = true) : Located path
  | command {before after : List String} {command path : String}
      (type : manifest.integrationType = .cli)
      (unnamed : environment.varOs host (overrideEnvVarName manifest.id) = none)
      (commands : manifest.detect.commands = before ++ command :: after)
      (missed : ∀ c ∈ before, resolvePathCommand host environment c = none)
      (found : resolvePathCommand host environment command = some path) : Located path
  | acpCommand {acp : AcpSection} {command path : String} {arguments : List String}
      (type : manifest.integrationType = .acp) (acp_section : manifest.acp = some acp)
      (transport : acp.transport = .stdio) (started : acp.command = some (command :: arguments))
      (found : resolvePathCommand host environment command = some path) : Located path
  | acpSocket {acp : AcpSection} (type : manifest.integrationType = .acp)
      (acp_section : manifest.acp = some acp) (transport : acp.transport = .localSocket)
      (endpoint : acp.endpoint.isSome = true) : Located "acp://local-socket"
  | endpoint {http : HttpConfig} (type : manifest.integrationType = .http)
      (http_section : manifest.http = some http) (given : isBlank http.endpoint = false) :
      Located http.endpoint

inductive VersionIn (stdout stderr : List UInt8) : String → Prop
  | line {line : List Char} (unparsed : manifest.versionRegex = none)
      (first : (firstLine (Utf8.decodeLossy stdout)).or (firstLine (Utf8.decodeLossy stderr)) =
        some line) : VersionIn stdout stderr (String.ofList line)
  | pattern {pattern : String} {regex : String → Option Captures} {captures : Captures}
      {matched : String} (parsed : manifest.versionRegex = some pattern)
      (compiled : host.regex pattern = some regex)
      (captured : regex (String.ofList (combinedOutput stdout stderr)) = some captures)
      (first : (captures.named "version").or ((captures.group 1).or (captures.group 0)) =
        some matched) (visible : trim matched.toList ≠ []) :
      VersionIn stdout stderr (String.ofList (trim matched.toList))

/-- What a located program says of its version. It is started with the environment of detection
without the variables that the manifest declares. -/
inductive Reports (executable : String) : Option String → Prop
  | unasked (h : manifest.integrationType = .cli → manifest.versionArgs = []) :
      Reports executable none
  | answered {environ : Environ String String} {process : ProbeProcess} {looks : ℕ}
      {later : List Poll} {status : Acp.ExitStatus} {stdout stderr : List UInt8} {version : String}
      (type : manifest.integrationType = .cli) (asked : manifest.versionArgs ≠ [])
      (withheld : ∀ key ∈ manifest.environment.required ++ manifest.environment.optional,
        environ key = none)
      (kept : ∀ key ∉ manifest.environment.required ++ manifest.environment.optional,
        environ key = environment.varOs host key)
      (spawned : host.spawn executable manifest.versionArgs environ = .ok process)
      (ended : process.firstPoll :: process.laterPolls =
        List.replicate looks .running ++ .exited status :: later)
      (success : status.success = true) (written : process.stdout = some stdout)
      (complained : process.stderr = some stderr)
      (said : VersionIn host manifest stdout stderr version) :
      Reports executable (some version)

section Spec
variable {host environment manifest}
variable {executable : String} {version : Option String} {stdout stderr : List UInt8}

theorem pollUntil_eq_ok_iff {polls : List Poll} {status : Acp.ExitStatus} :
    pollUntil polls = .ok status ↔
      ∃ looks later, polls = List.replicate looks .running ++ .exited status :: later := by
  constructor
  · intro h
    induction polls with
    | nil => cases h
    | cons poll polls ih =>
      cases poll with
      | exited status' =>
        obtain rfl := Except.ok.inj h
        exact ⟨0, polls, rfl⟩
      | running =>
        obtain ⟨looks, later, rfl⟩ := ih h
        exact ⟨looks + 1, later, rfl⟩
      | failed error => cases h
  · rintro ⟨looks, later, rfl⟩
    induction looks with
    | zero => rfl
    | succ looks ih => exact ih

theorem parseVersion_eq_some_iff {version : String} :
    parseVersion host manifest.versionRegex stdout stderr = some version ↔
      VersionIn host manifest stdout stderr version := by
  constructor
  · intro h
    unfold parseVersion at h
    cases hregex : manifest.versionRegex with
    | none =>
      simp only [hregex, firstLine_combinedOutput] at h
      obtain ⟨line, hline, rfl⟩ := Option.map_eq_some_iff.mp h
      exact .line hregex hline
    | some pattern =>
      simp only [hregex, Option.bind_eq_bind] at h
      obtain ⟨regex, hcompiled, h⟩ := Option.bind_eq_some_iff.mp h
      obtain ⟨captures, hcaptured, h⟩ := Option.bind_eq_some_iff.mp h
      obtain ⟨matched, hmatched, h⟩ := Option.bind_eq_some_iff.mp h
      split at h
      · cases h
      · rename_i hvisible
        obtain rfl := Option.some.inj h
        exact .pattern hregex hcompiled hcaptured hmatched fun hnil => hvisible (by rw [hnil]; rfl)
  · intro h
    unfold parseVersion
    cases h with
    | line hregex hline =>
      simp only [hregex, firstLine_combinedOutput, hline, Option.map_some]
    | pattern hregex hcompiled hcaptured hmatched hvisible =>
      simp only [hregex, hcompiled, hcaptured, hmatched, Option.bind_eq_bind, Option.bind_some]
      exact if_neg fun hempty => hvisible (List.isEmpty_iff.mp hempty)

theorem probeEnvironment_apply (key : String) :
    probeEnvironment host environment manifest key =
      if key ∈ manifest.environment.required ++ manifest.environment.optional then none
      else environment.varOs host key := by
  unfold probeEnvironment
  rw [CommandEnv.capture_envRemoveAll]
  cases environment with
  | system => rfl
  | map vars =>
    have hvars : CommandEnv.capture ⟨true, fun key => (vars key).map some⟩ host.environ key =
        vars key := by
      cases hkey : vars key <;> simp [CommandEnv.capture, hkey]
    rw [hvars]
    rfl

theorem eq_probeEnvironment {environ : Environ String String}
    (withheld : ∀ key ∈ manifest.environment.required ++ manifest.environment.optional,
      environ key = none)
    (kept : ∀ key ∉ manifest.environment.required ++ manifest.environment.optional,
      environ key = environment.varOs host key) :
    environ = probeEnvironment host environment manifest := by
  funext key
  rw [probeEnvironment_apply]
  split
  · exact withheld key ‹_›
  · exact kept key ‹_›

theorem probeOutcome_eq_ok_iff {status : Acp.ExitStatus} {version : String} :
    probeOutcome host manifest status stdout stderr = .ok version ↔
      status.success = true ∧ VersionIn host manifest stdout stderr version := by
  unfold probeOutcome
  rw [← parseVersion_eq_some_iff]
  cases status.success <;>
    cases parseVersion host manifest.versionRegex stdout stderr <;> simp

theorem runVersionProbe_eq_ok_iff {version : String}
    (type : manifest.integrationType = .cli) (asked : manifest.versionArgs ≠ []) :
    runVersionProbe host environment manifest executable = some (.ok version) ↔
      Reports host environment manifest executable (some version) := by
  unfold runVersionProbe
  constructor
  · intro h
    cases hspawn : host.spawn executable manifest.versionArgs
        (probeEnvironment host environment manifest) with
    | error error => simp [hspawn] at h
    | ok process =>
      simp only [hspawn] at h
      cases hwait : process.waitForChild with
      | error error => cases error <;> simp [hwait] at h
      | ok status =>
        simp only [hwait, Option.bind_eq_bind] at h
        obtain ⟨stdout, hstdout, h⟩ := Option.bind_eq_some_iff.mp h
        obtain ⟨stderr, hstderr, h⟩ := Option.bind_eq_some_iff.mp h
        obtain ⟨looks, later, hended⟩ := pollUntil_eq_ok_iff.mp hwait
        obtain ⟨hsuccess, hsaid⟩ := probeOutcome_eq_ok_iff.mp (Option.some.inj h)
        refine .answered type asked (fun key hkey => ?_) (fun key hkey => ?_) hspawn hended
          hsuccess hstdout hstderr hsaid
        · rw [probeEnvironment_apply, if_pos hkey]
        · rw [probeEnvironment_apply, if_neg hkey]
  · intro h
    cases h with
    | @answered environ process looks later status stdout stderr _ _ _ hwithheld hkept hspawn hended
        hsuccess hstdout hstderr hsaid =>
      have hwait : process.waitForChild = .ok status :=
        pollUntil_eq_ok_iff.mpr ⟨looks, later, hended⟩
      rw [eq_probeEnvironment hwithheld hkept] at hspawn
      simp only [hspawn, hwait, hstdout, hstderr, Option.bind_eq_bind, Option.bind_some,
        probeOutcome_eq_ok_iff.mpr ⟨hsuccess, hsaid⟩]
      rfl

theorem resolveExecutable_eq_ok_iff (type : manifest.integrationType = .cli) :
    resolveExecutable host environment manifest = .ok executable ↔
      Located host environment manifest executable := by
  unfold resolveExecutable
  constructor
  · intro h
    cases hnamed : environment.varOs host (overrideEnvVarName manifest.id) with
    | some path =>
      simp only [hnamed] at h
      split at h
      · obtain rfl := Except.ok.inj h
        exact .override type hnamed ‹_›
      · cases h
    | none =>
      simp only [hnamed] at h
      cases hfound : manifest.detect.commands.findSome? (resolvePathCommand host environment) with
      | none => simp [hfound] at h
      | some path =>
        obtain rfl : path = executable := by simpa [hfound] using h
        obtain ⟨before, command, after, hcommands, hcommand, hbefore⟩ :=
          List.findSome?_eq_some_iff.mp hfound
        exact .command type hnamed hcommands hbefore hcommand
  · intro h
    cases h with
    | override _ hnamed hexecutable => simp only [hnamed, if_pos hexecutable]
    | command _ hunnamed hcommands hmissed hfound =>
      have hfirst : manifest.detect.commands.findSome? (resolvePathCommand host environment) =
          some executable :=
        List.findSome?_eq_some_iff.mpr ⟨_, _, _, hcommands, hfound, hmissed⟩
      simp only [hunnamed, hfirst]
    | acpCommand htype | acpSocket htype | endpoint htype =>
      rw [type] at htype
      cases htype

theorem availableWithKind_inj {id : String} {kind : RuntimeKind} {now : String}
    {executable' : String} {version' : Option String} :
    DetectedRuntime.availableWithKind id kind now executable version =
      .availableWithKind id kind now executable' version' ↔
        executable = executable' ∧ version = version' := by
  simp [DetectedRuntime.availableWithKind]

theorem reports_none (h : manifest.integrationType = .cli → manifest.versionArgs = []) :
    Reports host environment manifest executable version ↔ version = none := by
  constructor
  · intro hreports
    cases hreports with
    | unasked => rfl
    | answered type asked => exact absurd (h type) asked
  · rintro rfl
    exact .unasked h

theorem ne_availableWithKind {view : DetectedRuntime} {id now : String} {kind : RuntimeKind}
    (h : view.status ≠ .available) :
    view ≠ .availableWithKind id kind now executable version := by
  rintro rfl
  exact h rfl

theorem detectCliProvider_eq_available_iff (type : manifest.integrationType = .cli) :
    detectCliProvider host environment manifest =
        some (.availableWithKind manifest.id .localCli host.now executable version) ↔
      Located host environment manifest executable ∧
        Reports host environment manifest executable version := by
  unfold detectCliProvider
  rw [← resolveExecutable_eq_ok_iff type]
  cases hresolve : resolveExecutable host environment manifest with
  | error error =>
    have hstatus : (intoRuntimeView host manifest.id error).status ≠ .available := by
      cases error <;> exact nofun
    exact ⟨fun h => absurd (Option.some.inj h) (ne_availableWithKind hstatus),
      fun h => by cases h.1⟩
  | ok path =>
    by_cases hargs : manifest.versionArgs = []
    · simp only [hargs, List.isEmpty_nil, if_true, Option.some.injEq, availableWithKind_inj,
        Except.ok.injEq]
      rw [reports_none fun _ => hargs, eq_comm (a := none)]
    · have hasked : manifest.versionArgs.isEmpty = false := by simpa using hargs
      simp only [hasked, Bool.false_eq_true, if_false, Except.ok.injEq]
      constructor
      · intro h
        obtain ⟨probe, hprobe, hview⟩ := Option.map_eq_some_iff.mp h
        cases probe with
        | ok version' =>
          obtain ⟨rfl, rfl⟩ := availableWithKind_inj.mp hview
          exact ⟨rfl, (runVersionProbe_eq_ok_iff type hargs).mp hprobe⟩
        | error error => exact absurd hview (ne_availableWithKind nofun)
      · rintro ⟨rfl, hreports⟩
        cases version with
        | none =>
          cases hreports with
          | unasked h => exact absurd (h type) hargs
        | some version' =>
          rw [(runVersionProbe_eq_ok_iff type hargs).mpr hreports]
          rfl

theorem detectAcpProvider_eq_available_iff (type : manifest.integrationType = .acp) :
    Acp.detectAcpProvider manifest.toManifestFile (resolvePathCommand host environment) host.now =
        .availableWithKind manifest.id .localAcp host.now executable version ↔
      Located host environment manifest executable ∧
        Reports host environment manifest executable version := by
  rw [reports_none fun h => absurd (type.symm.trans h) nofun]
  constructor
  · intro h
    unfold Acp.detectAcpProvider at h
    cases hacp : manifest.acp with
    | none =>
      simp only [hacp] at h
      exact absurd h (ne_availableWithKind nofun)
    | some acp =>
      simp only [hacp] at h
      cases htransport : acp.transport with
      | stdio =>
        simp only [htransport] at h
        cases hcommand : acp.command with
        | none =>
          simp only [hcommand, Option.bind_none] at h
          exact absurd h (ne_availableWithKind nofun)
        | some segments =>
          cases segments with
          | nil =>
            simp only [hcommand, Option.bind_some, List.head?_nil] at h
            exact absurd h (ne_availableWithKind nofun)
          | cons command arguments =>
            simp only [hcommand, Option.bind_some, List.head?_cons] at h
            cases hfound : resolvePathCommand host environment command with
            | none =>
              simp only [hfound] at h
              exact absurd h (ne_availableWithKind nofun)
            | some path =>
              simp only [hfound, availableWithKind_inj] at h
              obtain ⟨rfl, rfl⟩ := h
              exact ⟨.acpCommand type hacp htransport hcommand hfound, rfl⟩
      | localSocket =>
        simp only [htransport] at h
        split at h
        · obtain ⟨rfl, rfl⟩ := availableWithKind_inj.mp h
          exact ⟨.acpSocket type hacp htransport ‹_›, rfl⟩
        · exact absurd h (ne_availableWithKind nofun)
  · rintro ⟨hlocated, rfl⟩
    unfold Acp.detectAcpProvider
    cases hlocated with
    | acpCommand _ hacp htransport hstarted hfound =>
      simp only [hacp, htransport, hstarted, Option.bind_some, List.head?_cons, hfound]
    | acpSocket _ hacp htransport hendpoint =>
      simp only [hacp, htransport, if_pos hendpoint]
    | override htype | command htype | endpoint htype =>
      rw [type] at htype
      cases htype

theorem detectHttpProvider_eq_available_iff (type : manifest.integrationType = .http) :
    detectHttpProvider host manifest =
        .availableWithKind manifest.id .remoteHttp host.now executable version ↔
      Located host environment manifest executable ∧
        Reports host environment manifest executable version := by
  rw [reports_none fun h => absurd (type.symm.trans h) nofun]
  constructor
  · intro h
    unfold detectHttpProvider at h
    cases hhttp : manifest.http with
    | none =>
      simp only [hhttp] at h
      exact absurd h (ne_availableWithKind nofun)
    | some http =>
      simp only [hhttp] at h
      split at h
      · exact absurd h (ne_availableWithKind nofun)
      · rename_i hgiven
        obtain ⟨rfl, rfl⟩ := availableWithKind_inj.mp h
        exact ⟨.endpoint type hhttp (by simpa using hgiven), rfl⟩
  · rintro ⟨hlocated, rfl⟩
    unfold detectHttpProvider
    cases hlocated with
    | endpoint _ hhttp hgiven => simp only [hhttp, hgiven, Bool.false_eq_true, if_false]
    | override htype | command htype | acpCommand htype | acpSocket htype =>
      rw [type] at htype
      cases htype

/-- A provider is found available exactly when a program is located for it that reports its
version, if it is asked for one. A probe that does not return finds nothing. -/
theorem detectProvider_eq_available_iff :
    detectProvider host environment manifest = some (.availableWithKind manifest.id
        manifest.integrationType.runtimeKind host.now executable version) ↔
      Located host environment manifest executable ∧
        Reports host environment manifest executable version := by
  unfold detectProvider
  cases type : manifest.integrationType with
  | cli => exact detectCliProvider_eq_available_iff type
  | acp => exact Option.some_inj.trans (detectAcpProvider_eq_available_iff type)
  | http => exact Option.some_inj.trans (detectHttpProvider_eq_available_iff type)
  | native =>
    constructor
    · intro h
      exact absurd (Option.some.inj h) (ne_availableWithKind nofun)
    · rintro ⟨hlocated, -⟩
      cases hlocated with
      | override htype | command htype | acpCommand htype | acpSocket htype | endpoint htype =>
        rw [type] at htype
        cases htype

end Spec

end RuntimeDetection

end OpenDaemon
