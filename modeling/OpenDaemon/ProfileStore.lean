import OpenDaemon.Database

/-!
# Calls of the agent-profile store

The methods of `store/agent_profiles.rs`. A profile keeps the id and the owner
it was created with; everything else can be patched.
-/

namespace OpenDaemon

inductive AgentStoreError
  | profile (error : AgentProfileError)
  | store
  deriving DecidableEq, Repr

structure PatchAgentProfile where
  name : Option String
  providerId : Option String
  model : Option String
  instructions : Option (Option String)
  executionPolicy : Option ExecutionPolicy
  providerConfig : Option ProviderConfig

def PatchAgentProfile.isEmpty (patch : PatchAgentProfile) : Bool :=
  patch.name.isNone && patch.providerId.isNone && patch.model.isNone &&
    patch.instructions.isNone && patch.executionPolicy.isNone && patch.providerConfig.isNone

def PatchAgentProfile.apply (patch : PatchAgentProfile) (current : AgentProfile) :
    CreateAgentProfile where
  id := current.id
  name := patch.name.getD current.name
  ownerProductId := current.ownerProductId
  providerId := patch.providerId.getD current.providerId
  model := patch.model.getD current.model
  instructions := patch.instructions.getD current.instructions
  executionPolicy := patch.executionPolicy.getD current.executionPolicy
  providerConfig := patch.providerConfig.getD current.providerConfig

abbrev ProfileCall (α : Type) : Type := Call DbStep DbStep.Answer AgentStoreError α

namespace ProfileStore

def send (q : DbStep) : ProfileCall q.Row := q.query fun _ => .store

def mapSqliteWriteError : SqlError → AgentStoreError
  | .constraint => .profile .invalidAgentProfile
  | .failure => .store

def get (id : String) : ProfileCall AgentProfile := do
  match ← send (.selectProfile id) with
  | some profile => return profile
  | none => .fail (.profile .agentNotFound)

def create (input : CreateAgentProfile) : ProfileCall AgentProfile := do
  Call.ofExcept (input.validate.mapError .profile)
  let now ← send .clock
  let profile := input.intoProfile now now
  (DbStep.insertProfile profile).query mapSqliteWriteError
  get profile.id

def patch (id : String) (changes : PatchAgentProfile) : ProfileCall AgentProfile :=
  if changes.isEmpty then .fail (.profile .invalidAgentProfile)
  else do
    let current ← get id
    let next := changes.apply current
    Call.ofExcept (next.validate.mapError .profile)
    let updatedAt ← send .clock
    send (.updateProfile id next updatedAt)
    get id

def delete (id : String) : ProfileCall Unit := do
  let changed ← send (.deleteProfile id)
  if changed then return () else .fail (.profile .agentNotFound)

def check (profile : AgentProfile) (request : AgentAuthorizationRequest) :
    Except AgentProfileError Unit :=
  if profile.ownerProductId ≠ request.ownerProductId then .error .agentAuthorizationFailed
  else if (request.providerIdOverride.any fun providerId => providerId ≠ profile.providerId) ∨
      (request.modelOverride.any fun model => model ≠ profile.model) ∨
      (request.permissionModeOverride.any fun permissionMode =>
        permissionMode ≠ profile.providerConfig.permissionMode) then
    .error .agentAuthorizationFailed
  else if request.requestedWorkspaceMode = .direct ∧
      ¬ profile.executionPolicy.allowDirectDirectory then
    .error .agentAuthorizationFailed
  else .ok ()

def authorize (request : AgentAuthorizationRequest) : ProfileCall AgentProfile := do
  let profile ← get request.agentId
  Call.ofExcept ((check profile request).mapError .profile)
  return profile

end ProfileStore

inductive ProfileOp
  | get (id : String)
  | create (input : CreateAgentProfile)
  | patch (id : String) (changes : PatchAgentProfile)
  | delete (id : String)
  | authorize (request : AgentAuthorizationRequest)

@[reducible] def ProfileOp.Result : ProfileOp → Type
  | .delete _ => Unit
  | _ => AgentProfile

def ProfileOp.program : (op : ProfileOp) → ProfileCall op.Result
  | .get id => ProfileStore.get id
  | .create input => ProfileStore.create input
  | .patch id changes => ProfileStore.patch id changes
  | .delete id => ProfileStore.delete id
  | .authorize request => ProfileStore.authorize request

end OpenDaemon
