import OpenDaemon.Call

/-!
# Directory grants and their policy

The capability, workspace and lock vocabulary of a directory grant, the policy
check that every stored grant has passed, and the authorization of one task
against one grant.
-/

namespace OpenDaemon

inductive DirectoryCapability
  | read
  | write
  | shell
  | git
  deriving DecidableEq, Repr

inductive WorkspaceMode
  | worktree
  | direct
  deriving DecidableEq, Repr

inductive DirectoryLockPolicy
  | exclusive
  | shared
  | none
  deriving DecidableEq, Repr

structure DirectoryGrant where
  id : String
  productId : String
  agentId : String
  path : String
  capabilities : List DirectoryCapability
  workspaceModes : List WorkspaceMode
  defaultWorkspaceMode : WorkspaceMode
  lockPolicy : DirectoryLockPolicy
  directModeRequiresExplicitTaskOptIn : Bool
  allowRemoteExecution : Bool
  createdAt : String
  updatedAt : String
  deriving DecidableEq, Repr

structure DirectoryGrantPolicy where
  capabilities : List DirectoryCapability
  workspaceModes : List WorkspaceMode
  defaultWorkspaceMode : WorkspaceMode
  lockPolicy : DirectoryLockPolicy
  directModeRequiresExplicitTaskOptIn : Bool
  allowRemoteExecution : Bool
  deriving DecidableEq, Repr

structure DirectoryAuthorizationRequest where
  productId : String
  agentId : String
  directoryId : String
  requiredCapabilities : List DirectoryCapability
  requestedWorkspaceMode : WorkspaceMode
  directModeTaskOptIn : Bool
  remoteExecution : Bool

inductive DirectorySecurityError
  | invalidCapability
  | invalidWorkspaceMode
  | invalidLockPolicy
  | directModeNotAllowed
  | authorizationFailed
  deriving DecidableEq, Repr

/-- Collecting into a `BTreeSet` and back: the distinct members in `Ord` order. -/
def collectCapabilities (capabilities : List DirectoryCapability) : List DirectoryCapability :=
  [DirectoryCapability.read, .write, .shell, .git].filter (· ∈ capabilities)

def collectWorkspaceModes (modes : List WorkspaceMode) : List WorkspaceMode :=
  [WorkspaceMode.worktree, .direct].filter (· ∈ modes)

@[simp] theorem mem_collectCapabilities {c : DirectoryCapability}
    {capabilities : List DirectoryCapability} :
    c ∈ collectCapabilities capabilities ↔ c ∈ capabilities := by
  cases c <;> simp [collectCapabilities]

@[simp] theorem mem_collectWorkspaceModes {m : WorkspaceMode} {modes : List WorkspaceMode} :
    m ∈ collectWorkspaceModes modes ↔ m ∈ modes := by
  cases m <;> simp [collectWorkspaceModes]

def normalizeCapabilities (capabilities : List DirectoryCapability) :
    Except DirectorySecurityError (List DirectoryCapability) :=
  let normalized := collectCapabilities capabilities
  if normalized.isEmpty then .error .invalidCapability else .ok normalized

def normalizeWorkspaceModes (modes : List WorkspaceMode) :
    Except DirectorySecurityError (List WorkspaceMode) :=
  let normalized := collectWorkspaceModes modes
  if normalized.isEmpty then .error .invalidWorkspaceMode else .ok normalized

namespace DirectoryGrantPolicy

def validate (policy : DirectoryGrantPolicy) : Except DirectorySecurityError Unit :=
  if policy.capabilities.isEmpty then .error .invalidCapability
  else if policy.workspaceModes.isEmpty ∨ policy.defaultWorkspaceMode ∉ policy.workspaceModes then
    .error .invalidWorkspaceMode
  else if .write ∈ policy.capabilities ∧ policy.lockPolicy = .none then
    .error .invalidLockPolicy
  else .ok ()

def new (capabilities : List DirectoryCapability) (workspaceModes : List WorkspaceMode)
    (defaultWorkspaceMode : WorkspaceMode) (lockPolicy : DirectoryLockPolicy)
    (directModeRequiresExplicitTaskOptIn allowRemoteExecution : Bool) :
    Except DirectorySecurityError DirectoryGrantPolicy := do
  let capabilities ← normalizeCapabilities capabilities
  let workspaceModes ← normalizeWorkspaceModes workspaceModes
  let policy : DirectoryGrantPolicy := ⟨capabilities, workspaceModes, defaultWorkspaceMode,
    lockPolicy, directModeRequiresExplicitTaskOptIn, allowRemoteExecution⟩
  policy.validate
  return policy

theorem mem_of_new_ok {capabilities : List DirectoryCapability}
    {workspaceModes : List WorkspaceMode} {defaultWorkspaceMode : WorkspaceMode}
    {lockPolicy : DirectoryLockPolicy} {optIn remote : Bool} {policy : DirectoryGrantPolicy}
    (h : new capabilities workspaceModes defaultWorkspaceMode lockPolicy optIn remote =
      .ok policy) :
    (∀ c, c ∈ policy.capabilities ↔ c ∈ capabilities) ∧
    (∀ m, m ∈ policy.workspaceModes ↔ m ∈ workspaceModes) ∧
    policy.directModeRequiresExplicitTaskOptIn = optIn := by
  simp only [new, normalizeCapabilities, normalizeWorkspaceModes, Call.bind_eq_ok,
    Call.ite_error_eq_ok] at h
  obtain ⟨_, ⟨-, hcaps⟩, _, ⟨-, hmodes⟩, _, -, hpolicy⟩ := h
  obtain rfl := Except.ok.inj hcaps
  obtain rfl := Except.ok.inj hmodes
  obtain rfl := Except.ok.inj hpolicy
  exact ⟨fun _ => mem_collectCapabilities, fun _ => mem_collectWorkspaceModes, rfl⟩

end DirectoryGrantPolicy

namespace DirectoryGrant

def policy (grant : DirectoryGrant) : DirectoryGrantPolicy where
  capabilities := grant.capabilities
  workspaceModes := grant.workspaceModes
  defaultWorkspaceMode := grant.defaultWorkspaceMode
  lockPolicy := grant.lockPolicy
  directModeRequiresExplicitTaskOptIn := grant.directModeRequiresExplicitTaskOptIn
  allowRemoteExecution := grant.allowRemoteExecution

def authorize (grant : DirectoryGrant) (request : DirectoryAuthorizationRequest) :
    Except DirectorySecurityError Unit :=
  if grant.productId ≠ request.productId ∨ grant.agentId ≠ request.agentId ∨
      grant.id ≠ request.directoryId then
    .error .authorizationFailed
  else if request.requiredCapabilities.any (· ∉ grant.capabilities) then
    .error .authorizationFailed
  else if request.requestedWorkspaceMode ∉ grant.workspaceModes then
    .error <| match request.requestedWorkspaceMode with
      | .direct => .directModeNotAllowed
      | .worktree => .authorizationFailed
  else if request.requestedWorkspaceMode = .direct ∧
      grant.directModeRequiresExplicitTaskOptIn ∧ ¬ request.directModeTaskOptIn then
    .error .directModeNotAllowed
  else if request.remoteExecution ∧ ¬ grant.allowRemoteExecution then
    .error .authorizationFailed
  else .ok ()

theorem authorize_ok_iff (grant : DirectoryGrant) (request : DirectoryAuthorizationRequest) :
    grant.authorize request = .ok () ↔
      (grant.productId = request.productId ∧ grant.agentId = request.agentId ∧
        grant.id = request.directoryId) ∧
      (∀ c ∈ request.requiredCapabilities, c ∈ grant.capabilities) ∧
      request.requestedWorkspaceMode ∈ grant.workspaceModes ∧
      (request.requestedWorkspaceMode = .direct →
        grant.directModeRequiresExplicitTaskOptIn → request.directModeTaskOptIn) ∧
      (request.remoteExecution → grant.allowRemoteExecution) := by
  have hany : request.requiredCapabilities.any (· ∉ grant.capabilities) = true ↔
      ¬ ∀ c ∈ request.requiredCapabilities, c ∈ grant.capabilities := by simp
  simp only [authorize, Call.ite_error_eq_ok, hany]
  tauto

end DirectoryGrant

end OpenDaemon
