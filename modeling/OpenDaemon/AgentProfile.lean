import OpenDaemon.JsonValue

/-!
# Provider registry entries and agent profiles

An agent profile selects one provider, one of its models and a permission mode.
The checks of `agent/profile.rs` are kept in their order, since the first one
that fails names the error.
-/

namespace OpenDaemon

inductive IntegrationType
  | cli
  | acp
  | http
  | native
  deriving DecidableEq, Repr

structure ModelConfig where
  default : String
  supported : List String
  deriving DecidableEq, Repr

structure ProviderPermissions where
  providerPermissionModes : List String
  deriving DecidableEq, Repr

structure ProviderManifest where
  id : String
  integrationType : IntegrationType
  models : ModelConfig
  permissions : ProviderPermissions
  deriving DecidableEq, Repr

structure ProviderRegistry where
  providers : List ProviderManifest
  deriving DecidableEq, Repr

def ProviderRegistry.get (registry : ProviderRegistry) (providerId : String) :
    Option ProviderManifest :=
  registry.providers.find? fun provider => provider.id = providerId

/-- The profile's own enumeration, distinct in the source from the grant's. -/
inductive AgentWorkspaceMode
  | worktree
  | direct
  deriving DecidableEq, Repr

structure ExecutionPolicy where
  defaultWorkspaceMode : AgentWorkspaceMode
  allowDirectDirectory : Bool
  deriving DecidableEq, Repr

structure ProviderConfig where
  customArgs : List String
  customEnvKeys : List String
  mcpConfig : Option Value
  permissionMode : String

structure AgentProfile where
  id : String
  name : String
  ownerProductId : String
  providerId : String
  model : String
  instructions : Option String
  executionPolicy : ExecutionPolicy
  providerConfig : ProviderConfig
  createdAt : String
  updatedAt : String

structure CreateAgentProfile where
  id : String
  name : String
  ownerProductId : String
  providerId : String
  model : String
  instructions : Option String
  executionPolicy : ExecutionPolicy
  providerConfig : ProviderConfig

structure AgentAuthorizationRequest where
  ownerProductId : String
  agentId : String
  providerIdOverride : Option String
  modelOverride : Option String
  permissionModeOverride : Option String
  requestedWorkspaceMode : AgentWorkspaceMode

inductive AgentProfileError
  | agentNotFound
  | invalidAgentId
  | invalidAgentProfile
  | invalidExecutionPolicy
  | invalidProviderConfig
  | providerNotFound
  | modelNotSupported
  | permissionModeNotSupported
  | agentAuthorizationFailed
  deriving DecidableEq, Repr

def defaultPermissionMode : String := "provider_default"

def reservedProviderArgs : List String :=
  ["--provider", "--model", "--cwd", "--directory", "--workdir", "--permission-mode",
    "--dangerously-bypass-approvals-and-sandbox"]

def hasNul (text : String) : Bool := Char.ofNat 0 ∈ text.toList

/-- The pattern `^[a-zA-Z0-9][a-zA-Z0-9._-]{0,127}$`. -/
def matchesProfileId (id : String) : Bool :=
  match id.toList with
  | [] => false
  | c :: rest => c.isAlphanum && rest.length ≤ 127 &&
      rest.all fun d => d.isAlphanum || d == '.' || d == '_' || d == '-'

/-- The pattern `^[A-Za-z_][A-Za-z0-9_]*$`. -/
def matchesEnvKey (key : String) : Bool :=
  match key.toList with
  | [] => false
  | c :: rest => (c.isAlpha || c == '_') && rest.all fun d => d.isAlphanum || d == '_'

def AgentProfile.validateId (id : String) : Except AgentProfileError Unit :=
  if matchesProfileId id then .ok () else .error .invalidAgentId

def validateRequiredString (value : String) : Except AgentProfileError Unit :=
  if isBlank value then .error .invalidAgentProfile else .ok ()

def validateOptionalString (value : String) : Except AgentProfileError Unit :=
  if hasNul value then .error .invalidAgentProfile else .ok ()

def ExecutionPolicy.validate (policy : ExecutionPolicy) : Except AgentProfileError Unit :=
  if policy.defaultWorkspaceMode = .direct ∧ ¬ policy.allowDirectDirectory then
    .error .invalidExecutionPolicy
  else .ok ()

namespace ProviderConfig

def validateCustomArgs (seen : List String) : List String → Except AgentProfileError Unit
  | [] => .ok ()
  | arg :: rest =>
    if arg.isEmpty ∨ hasNul arg ∨ arg ∈ reservedProviderArgs ∨ arg ∈ seen then
      .error .invalidProviderConfig
    else validateCustomArgs (arg :: seen) rest

def validateCustomEnvKeys (seen : List String) : List String → Except AgentProfileError Unit
  | [] => .ok ()
  | key :: rest =>
    if ¬ matchesEnvKey key ∨ key ∈ seen then .error .invalidProviderConfig
    else validateCustomEnvKeys (key :: seen) rest

def validate (config : ProviderConfig) : Except AgentProfileError Unit := do
  validateCustomArgs [] config.customArgs
  validateCustomEnvKeys [] config.customEnvKeys
  validateRequiredString config.permissionMode

end ProviderConfig

namespace CreateAgentProfile

def validate (input : CreateAgentProfile) : Except AgentProfileError Unit := do
  AgentProfile.validateId input.id
  validateRequiredString input.name
  validateRequiredString input.ownerProductId
  validateRequiredString input.providerId
  validateRequiredString input.model
  match input.instructions with
  | some instructions => validateOptionalString instructions
  | none => .ok ()
  input.executionPolicy.validate
  input.providerConfig.validate

def intoProfile (input : CreateAgentProfile) (createdAt updatedAt : String) : AgentProfile where
  id := input.id
  name := input.name
  ownerProductId := input.ownerProductId
  providerId := input.providerId
  model := input.model
  instructions := input.instructions
  executionPolicy := input.executionPolicy
  providerConfig := input.providerConfig
  createdAt := createdAt
  updatedAt := updatedAt

end CreateAgentProfile

end OpenDaemon
