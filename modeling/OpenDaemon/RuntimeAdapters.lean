import OpenDaemon.OneshotTable
import OpenDaemon.ProcessOutput
import OpenDaemon.RemoteUpload

/-!
# The runtime adapters as calls

Each adapter keeps the sender of a one-shot channel under the id of every task it
executes, and a cancellation takes that sender. The adapters' calls are sequences of
steps over these tables, the prompt files and the provider processes, so that
executions and cancellations can be interleaved.
-/

namespace OpenDaemon

open Acp (ChildWait StdoutResult)

inductive CancelSignal
  | sigterm
  | sigint
  | kill
  | none
  deriving DecidableEq, Repr

structure AdapterManifest extends ManifestFile where
  cancelSignal : CancelSignal
  deriving DecidableEq, Repr

structure RuntimeCancelOutcome where
  cancelled : Bool
  error : Option RuntimeAdapterError
  deriving DecidableEq, Repr

/-- Which pipes of a child are there to be taken. -/
structure Pipes where
  stdin : Bool
  stdout : Bool
  stderr : Bool
  deriving DecidableEq, Repr

/-- A child is lost if waiting for it or killing it has failed. -/
inductive ProcessState
  | running
  | ended
  | lost
  deriving DecidableEq, Repr

structure SpawnCommand where
  executable : String
  args : List String
  currentDir : String
  deriving DecidableEq, Repr

structure Process where
  command : SpawnCommand
  pipes : Pipes
  state : ProcessState
  deriving DecidableEq, Repr

/-- The table of an adapter is the part of the table with the adapter's kind. -/
abbrev CancelKey : Type := RuntimeKind × String

/-- `nextPromptId` counts the prompt files of this run of the daemon; `faults` are the paths
that could not be written or removed. -/
structure AdapterState where
  cancellations : Oneshot.Table CancelKey
  nextPromptId : ℕ
  files : String → Option String
  faults : List String
  processes : List Process

inductive HttpResponse
  | badStatus (error : String)
  | badBody (error : String)
  | answered (providerResult : Value)

inductive AdapterStep
  | isDir (path : String)
  | nextPromptId
  | writePrompt (path prompt : String)
  | removePrompt (path : String)
  | register (key : CancelKey)
  | unregister (key : CancelKey)
  | closeReceiver (channel : ℕ)
  | takeSender (key : CancelKey)
  | send (channel : ℕ)
  | spawn (command : SpawnCommand)
  | writeStdin (process : ℕ) (text : String)
  /-- The `select!` over the child, the timeout and the receiver. -/
  | waitChild (process channel : ℕ)
  | sendSignal (process : ℕ) (cancelSignal : CancelSignal)
  /-- The loop around `try_wait`: whether the child has ended in the time of grace. -/
  | awaitExit (process : ℕ)
  | kill (process : ℕ)
  | readPipes (process : ℕ)
  | readSession (process : ℕ)
  | readWorkspace (path : String)
  /-- The `select!` over the receiver and `send`: nothing if the receiver was ready. -/
  | sendRequest (channel : ℕ) (http : HttpConfig) (payload : Value)
  | readResponse

namespace AdapterStep

@[reducible] def Answer : AdapterStep → Type
  | .isDir _ | .send _ | .writeStdin .. | .sendSignal .. | .awaitExit _ => Bool
  | .nextPromptId | .register _ => ℕ
  | .writePrompt .. => Except String Unit
  | .takeSender _ => Option ℕ
  | .spawn _ => Except String (ℕ × Pipes)
  | .waitChild .. => ChildWait
  | .readPipes _ => List UInt8 × List UInt8
  | .readSession _ => Except String StdoutResult × List RuntimeOutputEvent
  | .readWorkspace _ => RemoteHttpAdapter.Listing
  | .sendRequest .. => Option (Except String Unit)
  | .readResponse => HttpResponse
  | .removePrompt _ | .unregister _ | .closeReceiver _ | .kill _ => Unit

/-- What the system answers; each step reads its own part. A failed write leaves the file with
any content. -/
structure Input where
  isDir : Bool
  written : Except (String × Option String) Unit
  removed : Bool
  spawned : Except String Pipes
  stdinWritten : Bool
  wait : ChildWait
  signalled : Bool
  exited : Bool
  killed : Bool
  output : List UInt8 × List UInt8
  session : Except String StdoutResult × List RuntimeOutputEvent
  listing : RemoteHttpAdapter.Listing
  sent : Except String Unit
  response : HttpResponse

end AdapterStep

namespace AdapterState

variable (s : AdapterState)

def setFile (path : String) (content : Option String) : AdapterState :=
  { s with files := Function.update s.files path content }

def fault (path : String) : AdapterState := { s with faults := path :: s.faults }

def setProcess (process : ℕ) (state : ProcessState) : AdapterState :=
  { s with processes := s.processes.modify process fun child => { child with state := state } }

def ready (channel : ℕ) : Bool := s.cancellations.ready channel

end AdapterState

namespace AdapterStep

def waitedState : ChildWait → AdapterState → ℕ → AdapterState
  | .exited _, s, process => s.setProcess process .ended
  | .waitFailed _, s, process => s.setProcess process .lost
  | .timedOut, s, _ | .cancelled, s, _ => s

/-- A `select!` sees the cancellation only if the receiver is ready; an input that says
otherwise counts as the timeout. -/
def seen (s : AdapterState) (channel : ℕ) : ChildWait → ChildWait
  | .cancelled => if s.ready channel then .cancelled else .timedOut
  | wait => wait

def exec (q : AdapterStep) (input : Input) (s : AdapterState) : q.Answer × AdapterState :=
  match q with
  | .isDir _ => (input.isDir, s)
  | .nextPromptId =>
    (s.nextPromptId % 2 ^ 64, { s with nextPromptId := s.nextPromptId + 1 })
  | .writePrompt path prompt =>
    match input.written with
    | .ok _ => (.ok (), s.setFile path (some prompt))
    | .error (error, left) => (.error error, (s.setFile path left).fault path)
  | .removePrompt path => ((), if input.removed then s.setFile path none else s.fault path)
  | .register key => ((s.cancellations.register key).1,
      { s with cancellations := (s.cancellations.register key).2 })
  | .unregister key => ((), { s with cancellations := s.cancellations.unregister key })
  | .closeReceiver channel => ((), { s with cancellations := s.cancellations.close channel })
  | .takeSender key => ((s.cancellations.take key).1,
      { s with cancellations := (s.cancellations.take key).2 })
  | .send channel => ((s.cancellations.send channel).1,
      { s with cancellations := (s.cancellations.send channel).2 })
  | .spawn command =>
    match input.spawned with
    | .error error => (.error error, s)
    | .ok pipes => (.ok (s.processes.length, pipes),
        { s with processes := s.processes ++ [⟨command, pipes, .running⟩] })
  | .writeStdin .. => (input.stdinWritten, s)
  | .waitChild process channel =>
    (seen s channel input.wait, waitedState (seen s channel input.wait) s process)
  | .sendSignal .. => (input.signalled, s)
  | .awaitExit process =>
    (input.exited, if input.exited then s.setProcess process .ended else s)
  | .kill process => ((), s.setProcess process (if input.killed then .ended else .lost))
  | .readPipes _ => (input.output, s)
  | .readSession _ => (input.session, s)
  | .readWorkspace _ => (input.listing, s)
  | .sendRequest channel .. => (if s.ready channel then none else some input.sent, s)
  | .readResponse => (input.response, s)

end AdapterStep

/-- The abort of a call by a slice inside a character, while a template is rendered. -/
inductive Panicked
  | sliced
  deriving DecidableEq, Repr

abbrev AdapterCall (α : Type) : Type := Call AdapterStep AdapterStep.Answer Panicked α

@[reducible] def AdapterStep.act (q : AdapterStep) : AdapterCall q.Answer := Call.perform q

open AdapterStep (act)

section Selection

def RuntimeKind.cancelKey (kind : RuntimeKind) (taskId : String) : CancelKey := (kind, taskId)

def RuntimeKind.nothingToCancel : RuntimeKind → RuntimeAdapterError
  | .localCli => ⟨"command_cancelled", "no running provider command for task"⟩
  | .localAcp => ⟨"command_cancelled", "no running acp session for task"⟩
  | .remoteHttp =>
    ⟨"http_cancel_not_supported", "no running remote http task for cancellation"⟩

/-- `cancel` of the three adapters. -/
def cancelExecution (kind : RuntimeKind) (taskId : String) : AdapterCall RuntimeCancelOutcome := do
  match ← act (.takeSender (kind.cancelKey taskId)) with
  | some channel =>
    let sent ← act (.send channel)
    return ⟨sent, none⟩
  | none => return ⟨false, some kind.nothingToCancel⟩

end Selection

namespace LocalCliAdapter

def promptPath (tempDir taskId : String) (id : ℕ) : String :=
  joinPath tempDir ("opendaemon-" ++ taskId ++ "-prompt-" ++ toString id)

def writePromptFile (tempDir taskId prompt : String) : AdapterCall (Except String String) := do
  let id ← act .nextPromptId
  let path := promptPath tempDir taskId id
  match ← act (.writePrompt path prompt) with
  | .ok _ => return .ok path
  | .error error => return .error error

def cleanupTempFile : Option String → AdapterCall Unit
  | some path => act (.removePrompt path)
  | none => return ()

/-- The value of `prompt` in the templates and the file to remove afterwards. -/
def promptSource (tempDir : String) (manifest : AdapterManifest)
    (request : RuntimeExecutionRequest) :
    AdapterCall (Except String (String × Option String)) := do
  match manifest.execution.inputMode with
  | .arg | .stdin => return .ok (request.task.prompt, none)
  | .tempFile =>
    match ← writePromptFile tempDir request.taskId request.task.prompt with
    | .ok path => return .ok (path, some path)
    | .error error => return .error error

def terminateChild (process : ℕ) (cancelSignal : CancelSignal) : AdapterCall Unit := do
  match cancelSignal with
  | .sigterm | .sigint =>
    if ← act (.sendSignal process cancelSignal) then
      if ← act (.awaitExit process) then return ()
      else act (.kill process)
    else act (.kill process)
  | .kill | .none => act (.kill process)

/-- The arms of the `select!` in `wait_for_child`. -/
def endChild (process : ℕ) (cancelSignal : CancelSignal) : ChildWait → AdapterCall Unit
  | .exited _ | .waitFailed _ => return ()
  | .timedOut => act (.kill process)
  | .cancelled => terminateChild process cancelSignal

/-- `wait_for_child`, which drops the receiver when it returns. -/
def waitForChild (process channel : ℕ) (cancelSignal : CancelSignal) : AdapterCall ChildWait := do
  let wait ← act (.waitChild process channel)
  endChild process cancelSignal wait
  act (.closeReceiver channel)
  return wait

def commandOutcome (wait : ChildWait) (events : List RuntimeOutputEvent) :
    RuntimeExecutionOutcome :=
  match wait with
  | .exited status =>
    if status.success then .completed events
    else .failed ⟨"adapter_execution_failed",
      "provider command exited with status " ++ status.text⟩ events
  | .timedOut => .timedOut events
  | .cancelled => .cancelled events
  | .waitFailed error => .failed ⟨"adapter_execution_failed",
      "failed to wait for provider command: " ++ error⟩ events

/-- `execute_inner` from the arguments of the command on. -/
def runCommand (manifest : AdapterManifest) (request : RuntimeExecutionRequest)
    (promptFile : Option String) (args : List String) : AdapterCall RuntimeExecutionOutcome := do
  let key := RuntimeKind.localCli.cancelKey request.taskId
  let channel ← act (.register key)
  match ← act (.spawn ⟨request.executable, args, request.workspace.workingDirectory⟩) with
  | .error error =>
    act (.unregister key)
    cleanupTempFile promptFile
    act (.closeReceiver channel)
    return .failed ⟨"command_spawn_failed", "failed to spawn provider command: " ++ error⟩ []
  | .ok (process, _) =>
    let wait ← waitForChild process channel manifest.cancelSignal
    act (.unregister key)
    cleanupTempFile promptFile
    let (stdout, stderr) ← act (.readPipes process)
    return commandOutcome wait (outputEvents stdout stderr)

/-- `execute_inner` from the value of the prompt on. -/
def runRendered (manifest : AdapterManifest) (request : RuntimeExecutionRequest) (prompt : String)
    (promptFile : Option String) : AdapterCall RuntimeExecutionOutcome := do
  match CommandTemplate.renderArgs manifest.execution.args (templateValues request prompt) with
  | .error .panic => Call.fail .sliced
  | .error (.adapter error) =>
    cleanupTempFile promptFile
    return .failed error []
  | .ok args =>
    runCommand manifest request promptFile
      (args ++ request.agentProfile.providerConfig.customArgs)

/-- `execute_inner`. -/
def execute (tempDir : String) (manifest : AdapterManifest) (request : RuntimeExecutionRequest) :
    AdapterCall RuntimeExecutionOutcome := do
  if ← act (.isDir request.workspace.workingDirectory) then
    match ← promptSource tempDir manifest request with
    | .error error =>
      return .failed ⟨"adapter_execution_failed", "failed to write prompt file: " ++ error⟩ []
    | .ok (prompt, promptFile) => runRendered manifest request prompt promptFile
  else
    return .failed ⟨"working_directory_missing", "prepared working directory does not exist"⟩ []

end LocalCliAdapter

namespace LocalAcpAdapter

def handshakeFailed (message : String) : RuntimeExecutionOutcome :=
  .failed ⟨"acp_handshake_failed", message⟩ []

/-- `wait_for_child` of the ACP adapter, which kills a cancelled child at once. -/
def waitForChild (process channel : ℕ) : AdapterCall ChildWait :=
  LocalCliAdapter.waitForChild process channel .kill

/-- `execute_inner` with a child whose pipes are there. -/
def runSession (request : RuntimeExecutionRequest) (channel process : ℕ) :
    AdapterCall RuntimeExecutionOutcome := do
  let key := RuntimeKind.localAcp.cancelKey request.taskId
  if ← act (.writeStdin process request.task.prompt) then
    let wait ← waitForChild process channel
    act (.unregister key)
    match ← act (.readSession process) with
    | (.ok stdout, stderr) => return Acp.outcome wait stdout stderr
    | (.error error, _) =>
      return .failed ⟨"acp_transport_closed", "acp stdout task failed: " ++ error⟩ []
  else
    act (.unregister key)
    act (.kill process)
    act (.closeReceiver channel)
    return handshakeFailed "failed to send task prompt to acp provider"

/-- A return behind the start of the child that leaves it as it is. -/
def giveUp (request : RuntimeExecutionRequest) (channel : ℕ) (outcome : RuntimeExecutionOutcome) :
    AdapterCall RuntimeExecutionOutcome := do
  act (.unregister (RuntimeKind.localAcp.cancelKey request.taskId))
  act (.closeReceiver channel)
  return outcome

def startSession (request : RuntimeExecutionRequest) (command : List String) :
    AdapterCall RuntimeExecutionOutcome := do
  let channel ← act (.register (RuntimeKind.localAcp.cancelKey request.taskId))
  match ← act (.spawn
      ⟨request.executable, command.drop 1, request.workspace.workingDirectory⟩) with
  | .error error => giveUp request channel (.failed
      ⟨"acp_session_start_failed", "failed to spawn acp provider command: " ++ error⟩ [])
  | .ok (process, pipes) =>
    if pipes.stdin = false then
      giveUp request channel (handshakeFailed "acp provider stdin is unavailable")
    else if pipes.stdout = false then
      giveUp request channel (handshakeFailed "acp provider stdout is unavailable")
    else runSession request channel process

/-- `execute_inner`. -/
def execute (manifest : AdapterManifest) (request : RuntimeExecutionRequest) :
    AdapterCall RuntimeExecutionOutcome := do
  match manifest.acp with
  | none =>
    return .failed ⟨"acp_invalid_configuration", "provider acp configuration is missing"⟩ []
  | some acp =>
    if acp.transport ≠ .stdio then
      return .failed ⟨"acp_invalid_configuration",
        "only local stdio acp transport is implemented"⟩ []
    else if ← act (.isDir request.workspace.workingDirectory) then
      match acp.command with
      | none => return .failed ⟨"acp_invalid_configuration",
          "acp stdio transport requires command metadata"⟩ []
      | some command => startSession request command
    else
      return .failed ⟨"working_directory_missing", "prepared working directory does not exist"⟩ []

end LocalAcpAdapter

def HttpResponse.reply : HttpResponse → RemoteHttpAdapter.Reply
  | .badStatus error => .badStatus error
  | .badBody error => .badBody error
  | .answered providerResult => .answered providerResult

namespace RemoteHttpAdapter

def readReply : Option (Except String Unit) → AdapterCall Reply
  | none => return .cancelled
  | some (.error error) => return .sendFailed error
  | some (.ok _) => do
    let response ← act .readResponse
    return response.reply

/-- `execute_inner` from the request on; the receiver is dropped when it returns. -/
def sendPackage (manifest : AdapterManifest) (http : HttpConfig)
    (request : RuntimeExecutionRequest) (listing : Listing) (package : Value) :
    AdapterCall RuntimeExecutionOutcome := do
  let key := RuntimeKind.remoteHttp.cancelKey request.taskId
  let channel ← act (.register key)
  let sent ← act (.sendRequest channel http (payload request package))
  act (.unregister key)
  let reply ← readReply sent
  act (.closeReceiver channel)
  return (executeInner manifest.toManifestFile request listing reply).2

/-- `execute_inner`. -/
def execute (manifest : AdapterManifest) (request : RuntimeExecutionRequest) :
    AdapterCall RuntimeExecutionOutcome := do
  match manifest.http with
  | none =>
    return .failed ⟨"http_invalid_configuration", "provider http configuration is missing"⟩ []
  | some http =>
    let listing ← act (.readWorkspace request.workspace.workingDirectory)
    match buildWorkspacePackage request listing with
    | .error error => return .failed error []
    | .ok package => sendPackage manifest http request listing package

end RemoteHttpAdapter

inductive AdapterOp
  | execute (kind : RuntimeKind) (manifest : AdapterManifest) (request : RuntimeExecutionRequest)
  | cancel (kind : RuntimeKind) (taskId : String)

namespace AdapterOp

@[reducible] def Result : AdapterOp → Type
  | .execute .. => RuntimeExecutionOutcome
  | .cancel .. => RuntimeCancelOutcome

/-- `SelectedAdapter::execute` and `SelectedAdapter::cancel`. -/
def program (tempDir : String) : (op : AdapterOp) → AdapterCall op.Result
  | .execute .localCli manifest request => LocalCliAdapter.execute tempDir manifest request
  | .execute .localAcp manifest request => LocalAcpAdapter.execute manifest request
  | .execute .remoteHttp manifest request => RemoteHttpAdapter.execute manifest request
  | .cancel kind taskId => cancelExecution kind taskId

end AdapterOp

end OpenDaemon
