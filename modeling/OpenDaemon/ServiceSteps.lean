import OpenDaemon.StoreCalls

/-!
# Steps of the services

The scheduler and execution services are sequences of store calls and of reads
from outside: the registry on disk, the runtime store, the workspace preparer,
the provider adapter and the clock. One store call is one step here, that is the
call of the store modules run alone, all of whose rows can be decoded. What the
outside answers is an input of the step, so every registry, every runtime and
every adapter outcome is covered.
-/

namespace OpenDaemon

structure PreparedWorkspace where
  workspaceMode : WorkspaceMode
  workingDirectory : String
  sourceDirectoryId : String
  worktreePath : Option String
  branchName : Option String
  deriving DecidableEq, Repr

inductive WorkspaceError
  | prepareFailed
  deriving DecidableEq, Repr

inductive RuntimeKind
  | localCli
  | localAcp
  | remoteHttp
  deriving DecidableEq, Repr

inductive RuntimeStatus
  | notDetected
  | available
  | unavailable
  | error
  deriving DecidableEq, Repr

structure RuntimeView where
  id : String
  providerId : String
  kind : RuntimeKind
  status : RuntimeStatus
  executable : Option String
  deriving DecidableEq, Repr

inductive RuntimeExecutionStatus
  | completed
  | failed
  | cancelled
  | timedOut
  deriving DecidableEq, Repr

def RuntimeExecutionStatus.taskStatus : RuntimeExecutionStatus → TaskStatus
  | .completed => .completed
  | .failed => .failed
  | .cancelled => .cancelled
  | .timedOut => .timedOut

structure RuntimeAdapterError where
  code : String
  message : String
  deriving DecidableEq, Repr

structure RuntimeOutputEvent where
  kind : TaskEventType
  payload : Value

structure RuntimeExecutionOutcome where
  status : RuntimeExecutionStatus
  finalMessage : String
  changedFiles : List String
  diff : Option String
  sessionId : Option String
  providerResult : Option Value
  usage : Option Value
  error : Option RuntimeAdapterError
  events : List RuntimeOutputEvent

structure RuntimeExecutionRequest where
  taskId : String
  providerId : String
  runtimeId : String
  executable : String
  manifest : ProviderManifest
  agentProfile : AgentProfile
  directoryGrant : DirectoryGrant
  task : Task
  workspace : PreparedWorkspace
  timeoutSeconds : ℕ
  allowAgentCustomEnv : Bool

inductive ServiceStep
  | tasks (op : TaskOp)
  | grants (op : GrantOp)
  | profiles (op : ProfileOp)
  | loadRegistry
  | getRuntime (providerId : String)
  | prepareWorkspace (taskId : String) (grant : DirectoryGrant) (mode : WorkspaceMode)
  | executeAdapter (request : RuntimeExecutionRequest)
  | clock

namespace ServiceStep

@[reducible] def Answer : ServiceStep → Type
  | .tasks op => Except TaskStoreError op.Result
  | .grants op => Except DirectoryStoreError op.Result
  | .profiles op => Except AgentStoreError op.Result
  | .loadRegistry => Option ProviderRegistry
  | .getRuntime _ => Option RuntimeView
  | .prepareWorkspace .. => Except WorkspaceError PreparedWorkspace
  | .executeAdapter _ => RuntimeExecutionOutcome
  | .clock => String

/-- What the outside answers to one step; each step reads its own part. -/
structure Input where
  now : String
  registry : Option ProviderRegistry
  runtime : Option RuntimeView
  workspace : Except WorkspaceError PreparedWorkspace
  outcome : RuntimeExecutionOutcome

def exec (q : ServiceStep) (input : Input) (s : Store) : q.Answer × Store :=
  match q with
  | .tasks op => runAlone op.program input.now s
  | .grants op => runAlone op.program input.now s
  | .profiles op => runAlone op.program input.now s
  | .loadRegistry => (input.registry, s)
  | .getRuntime _ => (input.runtime, s)
  | .prepareWorkspace .. => (input.workspace, s)
  | .executeAdapter _ => (input.outcome, s)
  | .clock => (input.now, s)

def reads : ServiceStep → Prop
  | .tasks (.get _) | .tasks (.list _) | .grants (.get _) | .profiles (.get _) | .loadRegistry
  | .getRuntime _ | .prepareWorkspace .. | .executeAdapter _ | .clock => True
  | _ => False

theorem exec_reads (q : ServiceStep) (hq : q.reads) (input : Input) (s : Store) :
    (q.exec input s).2 = s := by
  cases q with
  | tasks op =>
    cases op with
    | get id =>
      simp only [exec, TaskOp.program, runAlone_get]
      split <;> rfl
    | list filters => simp only [exec, TaskOp.program, runAlone_list]
    | _ => cases hq
  | grants op =>
    cases op with
    | get id =>
      simp only [exec, GrantOp.program, runAlone_getGrant]
      split <;> rfl
    | _ => cases hq
  | profiles op =>
    cases op with
    | get id =>
      simp only [exec, ProfileOp.program, runAlone_getProfile]
      split <;> rfl
    | _ => cases hq
  | loadRegistry | getRuntime _ | prepareWorkspace _ _ _ | executeAdapter _ | clock => rfl

end ServiceStep

abbrev ServiceCall (ε α : Type) : Type := Call ServiceStep ServiceStep.Answer ε α

/-- A service call run to its end with no other call in between. -/
def runService {ε α : Type} (c : ServiceCall ε α) (inputs : ℕ → ServiceStep.Input) (s : Store) :
    Except ε α × Store :=
  let o := c.run ServiceStep.exec inputs s
  (o.result, o.state)

end OpenDaemon
