import OpenDaemon.Database

/-!
# Calls of the directory-grant store

The methods of `store/directory_grants.rs`. The file system is a parameter of
the creating call: it resolves the path of the request and tells whether the
directory is a git repository.
-/

namespace OpenDaemon

inductive PathGuardError
  | invalidDirectoryPath
  | pathNotDirectory
  | pathOutsideGrant
  | symlinkEscape
  deriving DecidableEq, Repr

/-- A path of the host stands for itself, be it UTF-8 or not. `toStringLossy` is the text that is
stored for it, in which bytes that are no UTF-8 are replaced. -/
structure Filesystem where
  canonicalize : String → Option String
  isDir : String → Bool
  pathExists : String → Bool
  toStringLossy : String → String

def canonicalizeGrantPath (fs : Filesystem) (path : String) : Except PathGuardError String :=
  if path.isEmpty then .error .invalidDirectoryPath
  else
    match fs.canonicalize path with
    | none => .error .invalidDirectoryPath
    | some canonical => if fs.isDir canonical then .ok canonical else .error .pathNotDirectory

def joinPath (path component : String) : String :=
  if path.toList.getLast? = some '/' then path ++ component else path ++ "/" ++ component

def isGitRepository (fs : Filesystem) (path : String) : Bool := fs.pathExists (joinPath path ".git")

structure CreateDirectoryGrant where
  productId : String
  agentId : String
  path : String
  capabilities : List DirectoryCapability
  workspaceModes : Option (List WorkspaceMode)
  defaultWorkspaceMode : Option WorkspaceMode
  lockPolicy : Option DirectoryLockPolicy
  directModeRequiresExplicitTaskOptIn : Option Bool
  allowRemoteExecution : Option Bool
  deriving DecidableEq, Repr

structure PatchDirectoryGrant where
  capabilities : Option (List DirectoryCapability)
  workspaceModes : Option (List WorkspaceMode)
  defaultWorkspaceMode : Option WorkspaceMode
  lockPolicy : Option DirectoryLockPolicy
  directModeRequiresExplicitTaskOptIn : Option Bool
  allowRemoteExecution : Option Bool
  deriving DecidableEq, Repr

/-- `panic` stands for the abort of the call by an index out of bounds. -/
inductive DirectoryStoreError
  | notFound
  | path (error : PathGuardError)
  | security (error : DirectorySecurityError)
  | store
  | panic
  deriving DecidableEq, Repr

/-- An empty list of modes without a default reaches `workspace_modes[0]`. -/
def policyFromCreate (input : CreateDirectoryGrant) (isGitRepository : Bool) :
    Except DirectoryStoreError DirectoryGrantPolicy := do
  let workspaceModes ← match input.workspaceModes with
    | some modes => .ok modes
    | none =>
      if isGitRepository then .ok [WorkspaceMode.worktree]
      else .error (.security .invalidWorkspaceMode)
  let defaultWorkspaceMode ← match input.defaultWorkspaceMode with
    | some mode => .ok mode
    | none =>
      if .worktree ∈ workspaceModes then .ok WorkspaceMode.worktree
      else match workspaceModes with
        | mode :: _ => .ok mode
        | [] => .error .panic
  let lockPolicy := input.lockPolicy.getD
    (if .write ∈ input.capabilities then .exclusive else .shared)
  if workspaceModes = [.worktree] ∧ ¬ isGitRepository then
    .error (.security .invalidWorkspaceMode)
  else
    (DirectoryGrantPolicy.new input.capabilities workspaceModes defaultWorkspaceMode lockPolicy
      (input.directModeRequiresExplicitTaskOptIn.getD true)
      (input.allowRemoteExecution.getD false)).mapError .security

def PatchDirectoryGrant.isEmpty (patch : PatchDirectoryGrant) : Bool :=
  patch.capabilities.isNone && patch.workspaceModes.isNone && patch.defaultWorkspaceMode.isNone &&
    patch.lockPolicy.isNone && patch.directModeRequiresExplicitTaskOptIn.isNone &&
    patch.allowRemoteExecution.isNone

def PatchDirectoryGrant.apply (patch : PatchDirectoryGrant) (policy : DirectoryGrantPolicy) :
    Except DirectorySecurityError DirectoryGrantPolicy :=
  DirectoryGrantPolicy.new (patch.capabilities.getD policy.capabilities)
    (patch.workspaceModes.getD policy.workspaceModes)
    (patch.defaultWorkspaceMode.getD policy.defaultWorkspaceMode)
    (patch.lockPolicy.getD policy.lockPolicy)
    (patch.directModeRequiresExplicitTaskOptIn.getD policy.directModeRequiresExplicitTaskOptIn)
    (patch.allowRemoteExecution.getD policy.allowRemoteExecution)

abbrev GrantCall (α : Type) : Type := Call DbStep DbStep.Answer DirectoryStoreError α

namespace GrantStore

def send (q : DbStep) : GrantCall q.Row := q.query fun _ => .store

def get (id : String) : GrantCall DirectoryGrant := do
  match ← send (.selectGrant id) with
  | some grant => return grant
  | none => .fail .notFound

def create (fs : Filesystem) (input : CreateDirectoryGrant) : GrantCall DirectoryGrant := do
  let canonicalPath ← Call.ofExcept ((canonicalizeGrantPath fs input.path).mapError .path)
  let policy ← Call.ofExcept (policyFromCreate input (isGitRepository fs canonicalPath))
  let now ← send .clock
  let id ← send (.insertGrant input.productId input.agentId (fs.toStringLossy canonicalPath) policy
    now)
  get id

def patch (id : String) (changes : PatchDirectoryGrant) : GrantCall DirectoryGrant :=
  if changes.isEmpty then .fail (.security .authorizationFailed)
  else do
    let current ← get id
    let policy ← Call.ofExcept ((changes.apply current.policy).mapError .security)
    let now ← send .clock
    send (.updateGrant id policy now)
    get id

def delete (id : String) : GrantCall Unit := do
  let changed ← send (.deleteGrant id)
  if changed then return () else .fail .notFound

def authorize (request : DirectoryAuthorizationRequest) : GrantCall DirectoryGrant := do
  let grant ← get request.directoryId
  Call.ofExcept ((grant.authorize request).mapError .security)
  return grant

end GrantStore

inductive GrantOp
  | get (id : String)
  | create (fs : Filesystem) (input : CreateDirectoryGrant)
  | patch (id : String) (changes : PatchDirectoryGrant)
  | delete (id : String)
  | authorize (request : DirectoryAuthorizationRequest)

@[reducible] def GrantOp.Result : GrantOp → Type
  | .delete _ => Unit
  | _ => DirectoryGrant

def GrantOp.program : (op : GrantOp) → GrantCall op.Result
  | .get id => GrantStore.get id
  | .create fs input => GrantStore.create fs input
  | .patch id changes => GrantStore.patch id changes
  | .delete id => GrantStore.delete id
  | .authorize request => GrantStore.authorize request

end OpenDaemon
