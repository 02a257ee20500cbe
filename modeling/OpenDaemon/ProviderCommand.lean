import OpenDaemon.CommandTemplate

/-!
# The arguments of a provider's command

The command line of a local provider is made of the arguments of its manifest,
rendered, and of the custom arguments of the agent profile behind them. The flags the
daemon keeps for itself are refused in a profile when they stand there as they are.
-/

namespace OpenDaemon

inductive ExecutionInputMode
  | arg
  | stdin
  | tempFile
  deriving DecidableEq, Repr

structure ExecutionConfig where
  args : List String
  inputMode : ExecutionInputMode
  deriving DecidableEq, Repr

namespace LocalCliAdapter

/-- What `execute_inner` finds in the file system: whether the working directory is there, and
the path of the prompt file, or why it was not written. -/
structure Files where
  isDir : Bool
  promptFile : Except String String

def promptValue (execution : ExecutionConfig) (request : RuntimeExecutionRequest)
    (files : Files) : Except RuntimeAdapterError String :=
  match execution.inputMode with
  | .arg | .stdin => .ok request.task.prompt
  | .tempFile =>
    match files.promptFile with
    | .ok path => .ok path
    | .error error =>
      .error ⟨"adapter_execution_failed", "failed to write prompt file: " ++ error⟩

def templateValues (request : RuntimeExecutionRequest) (prompt : String) : TemplateValues where
  prompt := some prompt
  model := some request.agentProfile.model
  workspace := some request.workspace.workingDirectory
  taskId := some request.taskId
  agentId := some request.agentProfile.id
  directoryId := some request.directoryGrant.id

/-- `execute_inner` up to the arguments it starts the command with. -/
def commandArgs (execution : ExecutionConfig) (request : RuntimeExecutionRequest)
    (files : Files) : Except RenderError (List String) := do
  if files.isDir = false then
    throw (.adapter ⟨"working_directory_missing", "prepared working directory does not exist"⟩)
  let prompt ← (promptValue execution request files).mapError .adapter
  let args ← CommandTemplate.renderArgs execution.args (templateValues request prompt)
  return args ++ request.agentProfile.providerConfig.customArgs

theorem drop_commandArgs {execution : ExecutionConfig} {request : RuntimeExecutionRequest}
    {files : Files} {args : List String} (h : commandArgs execution request files = .ok args) :
    args.drop execution.args.length = request.agentProfile.providerConfig.customArgs := by
  unfold commandArgs at h
  by_cases hdir : files.isDir = false
  · simp [hdir, Call.error_bind, throw, throwThe, MonadExceptOf.throw] at h
  · rw [if_neg hdir] at h
    cases hprompt : promptValue execution request files with
    | error error => simp [hprompt, Except.mapError, pure, Except.pure] at h
    | ok prompt =>
      cases hrendered : CommandTemplate.renderArgs execution.args
          (templateValues request prompt) with
      | error error =>
        simp [hprompt, hrendered, Except.mapError, pure, Except.pure] at h
      | ok rendered =>
        have hlength := (CommandTemplate.forall_of_renderArgs _ hrendered).length_eq
        obtain rfl : rendered ++ request.agentProfile.providerConfig.customArgs = args := by
          simpa [hprompt, hrendered, Except.mapError, pure, Except.pure] using h
        rw [hlength]
        exact List.drop_left

end LocalCliAdapter

/-! ### Reserved flags -/

/-- The argument gives the flag, alone or with a value. -/
def GivesFlag (flag arg : String) : Prop := arg = flag ∨ ∃ value, arg = flag ++ "=" ++ value

def GivesReserved (arg : String) : Prop := ∃ flag ∈ reservedProviderArgs, GivesFlag flag arg

def Assigns (flag arg : String) : Prop := flag.toList ++ ['='] <+: arg.toList

instance (flag arg : String) : Decidable (Assigns flag arg) :=
  inferInstanceAs (Decidable (_ <+: _))

theorem assigns_iff {flag arg : String} :
    Assigns flag arg ↔ ∃ value, arg = flag ++ "=" ++ value := by
  constructor
  · rintro ⟨rest, hrest⟩
    refine ⟨String.ofList rest, ?_⟩
    apply String.toList_injective
    simp [← hrest]
  · rintro ⟨value, rfl⟩
    exact ⟨value.toList, by simp⟩

namespace ProviderConfig

/-- Neither the custom arguments nor what a command gets behind the arguments of its manifest
give a reserved flag. -/
def KeepsReserved (config : ProviderConfig) : Prop :=
  (∀ arg ∈ config.customArgs, ¬ GivesReserved arg) ∧
  ∀ (execution : ExecutionConfig) (request : RuntimeExecutionRequest)
    (files : LocalCliAdapter.Files) (args : List String),
    request.agentProfile.providerConfig = config →
    LocalCliAdapter.commandArgs execution request files = .ok args →
    ∀ arg ∈ args.drop execution.args.length, ¬ GivesReserved arg

theorem not_reserved_of_validateCustomArgs {args seen : List String}
    (h : validateCustomArgs seen args = .ok ()) {arg : String} (harg : arg ∈ args) :
    arg ∉ reservedProviderArgs := by
  induction args generalizing seen with
  | nil => simp at harg
  | cons first rest ih =>
    rw [validateCustomArgs] at h
    split_ifs at h with hbad
    simp only [not_or] at hbad
    rcases List.mem_cons.mp harg with rfl | harg
    · exact hbad.2.2.1
    · exact ih h harg

theorem not_reserved {config : ProviderConfig} (h : config.validate = .ok ())
    {arg : String} (harg : arg ∈ config.customArgs) : arg ∉ reservedProviderArgs := by
  unfold ProviderConfig.validate at h
  cases hargs : validateCustomArgs [] config.customArgs with
  | error error => simp [hargs] at h
  | ok _ => exact not_reserved_of_validateCustomArgs hargs harg

/-- An accepted configuration keeps the reserved flags away from the command exactly when no
custom argument assigns one: the check compares whole arguments only. -/
theorem keepsReserved_iff (config : ProviderConfig) (h : config.validate = .ok ()) :
    config.KeepsReserved ↔
      ∀ arg ∈ config.customArgs, ∀ flag ∈ reservedProviderArgs, ¬ Assigns flag arg := by
  constructor
  · intro hkeeps arg harg flag hflag hassigns
    exact hkeeps.1 arg harg ⟨flag, hflag, .inr (assigns_iff.mp hassigns)⟩
  · intro hnone
    have hcustom : ∀ arg ∈ config.customArgs, ¬ GivesReserved arg := by
      rintro arg harg ⟨flag, hflag, rfl | hvalue⟩
      · exact not_reserved h harg hflag
      · exact hnone arg harg flag hflag (assigns_iff.mpr hvalue)
    refine ⟨hcustom, ?_⟩
    intro execution request files args hconfig hargs arg harg
    rw [LocalCliAdapter.drop_commandArgs hargs, hconfig] at harg
    exact hcustom arg harg

def customConfig (arg : String) : ProviderConfig := ⟨[arg], [], none, "provider_default"⟩

theorem keepsReserved_verbose :
    (customConfig "--verbose").validate = .ok () ∧ (customConfig "--verbose").KeepsReserved := by
  have hvalid : (customConfig "--verbose").validate = .ok () := by decide
  refine ⟨hvalid, (keepsReserved_iff _ hvalid).mpr ?_⟩
  intro arg harg
  obtain rfl := List.mem_singleton.mp harg
  decide

theorem model_assigned :
    ¬ ∀ config : ProviderConfig, config.validate = .ok () → config.KeepsReserved := by
  intro hall
  have hkeeps := hall (customConfig "--model=other") (by decide)
  apply hkeeps.1 "--model=other" (List.mem_singleton.mpr rfl)
  exact ⟨"--model", by decide, .inr ⟨"other", by decide⟩⟩

end ProviderConfig

end OpenDaemon
