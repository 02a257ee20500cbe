import OpenDaemon.CallRefinement
import OpenDaemon.Interleaving
import OpenDaemon.MergePatch

/-!
# Profiles and the registry

The handlers of `api/agents.rs` run at once, interleaved at the steps of the profile store. A
patch is checked against the registry by its handler, merged with the row that the handler has
read; the store then reads the row again and writes its own merge, which it does not check
against the registry. The profiles stay valid as long as no write between the two reads makes
the checked patch one that the registry refuses.
-/

namespace OpenDaemon

open Runs Interleaving Store Call

section Validity
variable {registry : ProviderRegistry} {input next : CreateAgentProfile} {profile : AgentProfile}

def RegistryAccepts (registry : ProviderRegistry) (input : CreateAgentProfile) : Prop :=
  ∃ provider, registry.get input.providerId = some provider ∧
    input.model ∈ provider.models.supported ∧
    (input.providerConfig.permissionMode = defaultPermissionMode ∨
      input.providerConfig.permissionMode ∈ provider.permissions.providerPermissionModes)

theorem unit_bind_eq_ok {ε β : Type} {r : Except ε Unit} {f : Unit → Except ε β} {b : β} :
    (r >>= f) = .ok b ↔ r = .ok () ∧ f () = .ok b := by
  rw [bind_eq_ok]
  exact ⟨fun ⟨_, hr, hf⟩ => ⟨hr, hf⟩, fun ⟨hr, hf⟩ => ⟨(), hr, hf⟩⟩

theorem validateAgainstRegistry_eq_ok : input.validateAgainstRegistry registry = .ok () ↔
    input.validate = .ok () ∧ RegistryAccepts registry input := by
  simp only [CreateAgentProfile.validateAgainstRegistry, unit_bind_eq_ok, RegistryAccepts]
  refine and_congr_right fun _ => ?_
  cases hprovider : registry.get input.providerId with
  | none => simp
  | some provider =>
    simp only [ite_error_eq_ok, Option.some.injEq, exists_eq_left']
    tauto

def validateInstructions : Option String → Except AgentProfileError Unit
  | some instructions => validateOptionalString instructions
  | none => .ok ()

theorem validate_eq_ok : input.validate = .ok () ↔
    AgentProfile.validateId input.id = .ok () ∧ validateRequiredString input.name = .ok () ∧
    validateRequiredString input.ownerProductId = .ok () ∧
    validateRequiredString input.providerId = .ok () ∧ validateRequiredString input.model = .ok () ∧
    validateInstructions input.instructions = .ok () ∧ input.executionPolicy.validate = .ok () ∧
    input.providerConfig.validate = .ok () := by
  cases hinstructions : input.instructions with
  | none =>
    simp only [CreateAgentProfile.validate, hinstructions, unit_bind_eq_ok, validateInstructions]
  | some instructions =>
    simp only [CreateAgentProfile.validate, hinstructions, unit_bind_eq_ok, validateInstructions]

def AgentProfile.asInput (profile : AgentProfile) : CreateAgentProfile where
  id := profile.id
  name := profile.name
  ownerProductId := profile.ownerProductId
  providerId := profile.providerId
  model := profile.model
  instructions := profile.instructions
  executionPolicy := profile.executionPolicy
  providerConfig := profile.providerConfig

def AgentProfile.Valid (registry : ProviderRegistry) (profile : AgentProfile) : Prop :=
  profile.asInput.validateAgainstRegistry registry = .ok ()

def Store.ProfilesValid (registry : ProviderRegistry) (s : Store) : Prop :=
  ∀ profile ∈ s.profiles, profile.Valid registry

theorem valid_withColumns {now : String} (hrow : profile.Valid registry)
    (hnext : next.validateAgainstRegistry registry = .ok ()) :
    (profile.withColumns next now).Valid registry := by
  obtain ⟨hvalid, -⟩ := validateAgainstRegistry_eq_ok.mp hrow
  obtain ⟨hvalid', haccepts⟩ := validateAgainstRegistry_eq_ok.mp hnext
  obtain ⟨hid, -, howner, -⟩ := validate_eq_ok.mp hvalid
  obtain ⟨-, hname, -, hrest⟩ := validate_eq_ok.mp hvalid'
  refine validateAgainstRegistry_eq_ok.mpr ⟨?_, haccepts⟩
  exact validate_eq_ok.mpr ⟨hid, hname, howner, hrest⟩

end Validity

section Requests

inductive AgentOp
  | create (auth : ProductAuth) (request : AgentsApi.CreateAgentRequest)
  | patch (auth : ProductAuth) (agentId : String) (body : Value)
  | delete (auth : ProductAuth) (agentId : String)

namespace AgentOp

@[reducible] def Result : AgentOp → Type
  | .delete .. => Unit
  | _ => AgentProfile

def handler : (op : AgentOp) → ApiCall AgentsApi.ApiError op.Result
  | .create auth request => AgentsApi.create auth request
  | .patch auth agentId body =>
    AgentsApi.patch AgentsApi.PatchAgentRequest.fromValue auth agentId body
  | .delete auth agentId => AgentsApi.delete auth agentId

def Steps : ApiStep → Prop
  | .run (.service (.profiles _)) => True
  | .run (.service .loadRegistry) => True
  | _ => False

/-- A call of the store makes its own steps, and the registry is a fixed one. No handler makes a
step of another kind. -/
def storeSteps (registry : ProviderRegistry) :
    (q : ApiStep) → Call DbStep DbStep.Answer AgentsApi.ApiError q.Answer
  | .run (.service (.profiles op)) => op.program.attempt
  | .run (.service .loadRegistry) => .ret (some registry)
  | _ => .fail .store

def program (registry : ProviderRegistry) (op : AgentOp) :
    Call DbStep DbStep.Answer AgentsApi.ApiError op.Result :=
  op.handler.unfoldSteps (storeSteps registry)

end AgentOp

variable {registry : ProviderRegistry}

theorem uses_agentStore (op : ProfileOp) : (AgentsApi.profileStore op).Uses AgentOp.Steps := by
  refine ⟨trivial, fun answer => ?_⟩
  cases answer with
  | ok result => trivial
  | error e => trivial

theorem uses_agentRegistry (input : CreateAgentProfile) :
    (AgentsApi.validateAgainstRegistry input).Uses AgentOp.Steps := by
  refine ⟨trivial, fun answer => ?_⟩
  cases answer with
  | none => trivial
  | some registry => exact uses_check _

theorem uses_handler (op : AgentOp) : op.handler.Uses AgentOp.Steps := by
  cases op with
  | create auth request =>
    change (AgentsApi.create auth request).Uses AgentOp.Steps
    unfold AgentsApi.create
    exact (uses_check _).bind fun _ => (uses_check _).bind fun _ =>
      (uses_agentRegistry _).bind fun _ => uses_agentStore _
  | patch auth agentId body =>
    change (AgentsApi.patch _ auth agentId body).Uses AgentOp.Steps
    unfold AgentsApi.patch
    refine (uses_check _).bind fun _ => (uses_check _).bind fun _ => ?_
    cases AgentsApi.PatchAgentRequest.fromValue body with
    | none => trivial
    | some request =>
      exact (uses_agentStore _).bind fun _ => (uses_check _).bind fun _ =>
        (uses_agentRegistry _).bind fun _ => uses_agentStore _
  | delete auth agentId =>
    change (AgentsApi.delete auth agentId).Uses AgentOp.Steps
    unfold AgentsApi.delete
    exact (uses_check _).bind fun _ => (uses_agentStore _).bind fun _ =>
      (uses_check _).bind fun _ => uses_agentStore _

/-- Run alone, the program of a request does what its handler does. -/
theorem run_agentProgram (op : AgentOp) (input : ServiceStep.Input)
    (hregistry : input.registry = some registry) (x : EventState) :
    (op.program registry).run DbStep.exec (fun _ => .proceed input.now) x.store =
      ⟨(op.handler.run ApiStep.exec (fun _ => input) x).result,
        (op.handler.run ApiStep.exec (fun _ => input) x).state.store,
        fun _ => .proceed input.now⟩ := by
  refine run_unfoldSteps ?_ (uses_handler op) x
  intro q x hq
  unfold AgentOp.Steps at hq
  split at hq
  · rename_i op
    rw [AgentOp.storeSteps, run_attempt, run_inputs_const]
    rfl
  · have hload : (ApiStep.run (.service .loadRegistry)).exec input x = (input.registry, x) := rfl
    rw [hload, hregistry]
    rfl
  · exact hq.elim

theorem unfold_profileStore (op : ProfileOp) :
    (AgentsApi.profileStore op).unfoldSteps (AgentOp.storeSteps registry) =
      op.program.mapError AgentsApi.fromStore := by
  unfold AgentsApi.profileStore
  rw [unfoldSteps, AgentOp.storeSteps]
  refine attempt_bind_elim ?_ ?_ op.program
  · intro result
    rfl
  · intro e
    rfl

theorem unfold_validateAgainstRegistry (input : CreateAgentProfile) :
    (AgentsApi.validateAgainstRegistry input).unfoldSteps (AgentOp.storeSteps registry) =
      Call.ofExcept ((input.validateAgainstRegistry registry).mapError AgentsApi.ApiError.profile) := by
  unfold AgentsApi.validateAgainstRegistry
  rw [unfoldSteps]
  exact unfoldSteps_ofExcept _

def checkedPatch (agentId : String) (changes : PatchAgentProfile) :
    Call DbStep DbStep.Answer AgentsApi.ApiError AgentProfile :=
  (ProfileStore.patch agentId changes).mapError AgentsApi.fromStore

theorem program_create (auth : ProductAuth) (request : AgentsApi.CreateAgentRequest) :
    (AgentOp.create auth request).program registry = (do
      Call.ofExcept ((auth.requireScope .agentsWrite).mapError .auth)
      Call.ofExcept ((auth.ensureProduct request.ownerProductId).mapError .auth)
      Call.ofExcept ((request.into.validateAgainstRegistry registry).mapError .profile)
      (ProfileStore.create request.into).mapError AgentsApi.fromStore) := by
  have hcreate : unfoldSteps (AgentOp.storeSteps registry)
      (AgentsApi.profileStore (.create request.into)) =
        (ProfileStore.create request.into).mapError AgentsApi.fromStore :=
    unfold_profileStore (.create request.into)
  change (AgentsApi.create auth request).unfoldSteps _ = _
  simp only [AgentsApi.create, unfoldSteps_bind, unfoldSteps_ofExcept, hcreate,
    unfold_validateAgainstRegistry]

theorem program_delete (auth : ProductAuth) (agentId : String) :
    (AgentOp.delete auth agentId).program registry = (do
      Call.ofExcept ((auth.requireScope .agentsWrite).mapError .auth)
      let current ← (ProfileStore.get agentId).mapError AgentsApi.fromStore
      Call.ofExcept ((auth.ensureProduct current.ownerProductId).mapError .auth)
      (ProfileStore.delete agentId).mapError AgentsApi.fromStore) := by
  have hdelete : unfoldSteps (AgentOp.storeSteps registry)
      (AgentsApi.profileStore (.delete agentId)) =
        (ProfileStore.delete agentId).mapError AgentsApi.fromStore :=
    unfold_profileStore (.delete agentId)
  change (AgentsApi.delete auth agentId).unfoldSteps _ = _
  simp only [AgentsApi.delete, unfoldSteps_bind, unfoldSteps_ofExcept, hdelete]
  refine congrArg (Call.ofExcept _ >>= ·) (funext fun _ => ?_)
  exact congrArg (· >>= _) (unfold_profileStore (.get agentId))

theorem program_patch {auth : ProductAuth} {agentId : String} {body : Value}
    {request : AgentsApi.PatchAgentRequest}
    (hparsed : AgentsApi.PatchAgentRequest.fromValue body = some request) :
    (AgentOp.patch auth agentId body).program registry = (do
      Call.ofExcept ((auth.requireScope .agentsWrite).mapError .auth)
      Call.ofExcept (AgentsApi.rejectImmutableFields body)
      let current ← (ProfileStore.get agentId).mapError AgentsApi.fromStore
      Call.ofExcept ((auth.ensureProduct current.ownerProductId).mapError .auth)
      Call.ofExcept (((request.into.apply current).validateAgainstRegistry registry).mapError .profile)
      checkedPatch agentId request.into) := by
  have hpatch : unfoldSteps (AgentOp.storeSteps registry)
      (AgentsApi.profileStore (.patch agentId request.into)) = checkedPatch agentId request.into :=
    unfold_profileStore (.patch agentId request.into)
  change (AgentsApi.patch _ auth agentId body).unfoldSteps _ = _
  simp only [AgentsApi.patch, hparsed, unfoldSteps_bind, unfoldSteps_ofExcept, hpatch,
    unfold_validateAgainstRegistry]
  refine congrArg (Call.ofExcept _ >>= ·) (funext fun _ => ?_)
  refine congrArg (Call.ofExcept _ >>= ·) (funext fun _ => ?_)
  exact congrArg (· >>= _) (unfold_profileStore (.get agentId))

end Requests

abbrev AgentPool : Type := Pool Store DbStep.Answer AgentsApi.ApiError AgentOp.Result

abbrev AgentAction : Type := Action AgentOp DbStep.Input

def agentPoolStep (registry : ProviderRegistry) : AgentPool → AgentAction → Option AgentPool :=
  step (AgentOp.program registry) DbStep.exec

/-- The registry accepts the patch, merged with the row as it stands. -/
def MergeAccepted (registry : ProviderRegistry) (agentId : String) (changes : PatchAgentProfile)
    (s : Store) : Prop :=
  ∀ row, s.findProfile agentId = some row → RegistryAccepts registry (changes.apply row)

/-- No step spoils a patch that its handler has checked and that the store has still to merge with
its own read of the row. -/
def ChecksKept (registry : ProviderRegistry) (p : AgentPool) : AgentAction → Prop
  | .spawn _ => True
  | .advance i input => ∀ op q k, p.threads[i]? = some ⟨op, .step q k⟩ →
      ∀ (j : ℕ) auth agentId body (changes : PatchAgentProfile), changes.isEmpty = false →
        p.threads[j]? = some ⟨.patch auth agentId body, checkedPatch agentId changes⟩ →
        MergeAccepted registry agentId changes p.shared →
        MergeAccepted registry agentId changes (q.exec input p.shared).2

section Steps
variable {registry : ProviderRegistry} {s : Store} {agentId : String} {changes : PatchAgentProfile}

def DbStep.WritesValid (registry : ProviderRegistry) : DbStep → Prop
  | .insertProfile profile => profile.Valid registry
  | .updateProfile _ next _ => next.validateAgainstRegistry registry = .ok ()
  | .clock | .selectProfile _ | .deleteProfile _ => True
  | _ => False

theorem profilesValid_updateProfile {next : CreateAgentProfile} (hs : s.ProfilesValid registry)
    (hnext : next.validateAgainstRegistry registry = .ok ()) (id now : String) :
    (s.updateProfile id next now).ProfilesValid registry := by
  intro profile hprofile
  obtain ⟨old, hold, rfl⟩ := List.mem_map.mp hprofile
  split
  · exact valid_withColumns (hs old hold) hnext
  · exact hs old hold

theorem profilesValid_exec {q : DbStep} (hs : s.ProfilesValid registry)
    (hq : q.WritesValid registry) (input : DbStep.Input) :
    (q.exec input s).2.ProfilesValid registry := by
  obtain ⟨e, he⟩ | ⟨now, row, s', ha, he⟩ := exec_cases q input s
  · rw [he]
    exact hs
  · rw [he]
    cases q with
    | insertProfile profile =>
      obtain ⟨t, ht, hrow⟩ := map_eq_ok.mp ha
      obtain ⟨-, rfl⟩ := Prod.mk.inj hrow
      obtain rfl := insertProfile_ok ht
      intro p hp
      rcases List.mem_append.mp hp with hold | hnew
      · exact hs p hold
      · rw [List.mem_singleton.mp hnew]
        exact hq
    | updateProfile id next at_ =>
      obtain ⟨-, rfl⟩ := Prod.mk.inj (Except.ok.inj ha)
      exact profilesValid_updateProfile hs hq id at_
    | deleteProfile id =>
      obtain ⟨-, rfl⟩ := Prod.mk.inj (Except.ok.inj ha)
      exact fun p hp => hs p (List.mem_of_mem_filter hp)
    | clock | selectProfile _ =>
      obtain ⟨-, rfl⟩ := Prod.mk.inj (Except.ok.inj ha)
      exact hs
    | _ => exact hq.elim

theorem uses_get_valid (id : String) :
    (ProfileStore.get id).Uses (DbStep.WritesValid registry) := by
  refine (DbStep.uses_query (q := .selectProfile id) trivial _).bind fun row => ?_
  cases row with
  | none => trivial
  | some profile => trivial

theorem uses_create_valid {input : CreateAgentProfile}
    (hvalid : input.validateAgainstRegistry registry = .ok ()) :
    (ProfileStore.create input).Uses (DbStep.WritesValid registry) := by
  refine (uses_check _).bind fun _ => ?_
  refine (DbStep.uses_query (q := .clock) trivial _).bind fun now => ?_
  exact (DbStep.uses_query (q := .insertProfile (input.intoProfile now now)) hvalid _).bind
    fun _ => uses_get_valid _

theorem uses_delete_valid (id : String) :
    (ProfileStore.delete id).Uses (DbStep.WritesValid registry) := by
  refine (DbStep.uses_query (q := .deleteProfile id) trivial _).bind fun changed => ?_
  cases changed with
  | true => trivial
  | false => trivial

theorem uses_merged_valid {current : AgentProfile}
    (haccepts : RegistryAccepts registry (changes.apply current)) :
    (do
      Call.ofExcept ((changes.apply current).validate.mapError AgentStoreError.profile)
      let updatedAt ← ProfileStore.send .clock
      ProfileStore.send (.updateProfile agentId (changes.apply current) updatedAt)
      ProfileStore.get agentId : ProfileCall AgentProfile).Uses (DbStep.WritesValid registry) := by
  cases hvalid : (changes.apply current).validate with
  | error e => trivial
  | ok _ =>
    have hnext : (changes.apply current).validateAgainstRegistry registry = .ok () :=
      validateAgainstRegistry_eq_ok.mpr ⟨hvalid, haccepts⟩
    refine (DbStep.uses_query (q := .clock) trivial _).bind fun updatedAt => ?_
    exact (DbStep.uses_query (q := .updateProfile agentId (changes.apply current) updatedAt)
      hnext _).bind fun _ => uses_get_valid agentId

theorem checkedPatch_reads {q : DbStep}
    {k : q.Answer → Call DbStep DbStep.Answer AgentsApi.ApiError AgentProfile}
    (hpatch : checkedPatch agentId changes = .step q k) (input : DbStep.Input)
    (haccepted : MergeAccepted registry agentId changes s) :
    q.WritesValid registry ∧ (k (q.exec input s).1).Uses (DbStep.WritesValid registry) := by
  unfold checkedPatch ProfileStore.patch at hpatch
  split at hpatch
  · cases hpatch
  · change Call.step (DbStep.selectProfile agentId) _ = _ at hpatch
    cases hpatch
    refine ⟨trivial, ?_⟩
    obtain ⟨e, he⟩ | ⟨now, row, s', ha, he⟩ := exec_cases (.selectProfile agentId) input s
    · rw [he]
      trivial
    · rw [he]
      obtain ⟨rfl, -⟩ := Prod.mk.inj (Except.ok.inj ha)
      cases hfind : s.findProfile agentId with
      | none => trivial
      | some current => exact (uses_merged_valid (haccepted current hfind)).mapError _

def checkRow (registry : ProviderRegistry) (auth : ProductAuth) (agentId : String)
    (request : AgentsApi.PatchAgentRequest) (current : AgentProfile) :
    Call DbStep DbStep.Answer AgentsApi.ApiError AgentProfile := do
  Call.ofExcept ((auth.ensureProduct current.ownerProductId).mapError .auth)
  Call.ofExcept (((request.into.apply current).validateAgainstRegistry registry).mapError .profile)
  checkedPatch agentId request.into

theorem program_patch_step {auth : ProductAuth} {body : Value} {q : DbStep}
    {k : q.Answer → Call DbStep DbStep.Answer AgentsApi.ApiError AgentProfile}
    (hprogram : (AgentOp.patch auth agentId body).program registry = .step q k) :
    ∃ request, (ProfileStore.get agentId).mapError AgentsApi.fromStore >>=
      checkRow registry auth agentId request = .step q k := by
  cases hparsed : AgentsApi.PatchAgentRequest.fromValue body with
  | none =>
    change (AgentsApi.patch _ auth agentId body).unfoldSteps _ = _ at hprogram
    simp only [AgentsApi.patch, hparsed, unfoldSteps_bind, unfoldSteps_ofExcept, unfoldSteps]
      at hprogram
    obtain ⟨_, -, hprogram⟩ := check_eq_step hprogram
    obtain ⟨_, -, hprogram⟩ := check_eq_step hprogram
    cases hprogram
  | some request =>
    rw [program_patch hparsed] at hprogram
    obtain ⟨_, -, hprogram⟩ := check_eq_step hprogram
    obtain ⟨_, -, hprogram⟩ := check_eq_step hprogram
    exact ⟨request, hprogram⟩

theorem checkRow_cases (auth : ProductAuth) (request : AgentsApi.PatchAgentRequest)
    (current : AgentProfile) :
    (∃ e, checkRow registry auth agentId request current = .fail e) ∨
      RegistryAccepts registry (request.into.apply current) ∧
        request.into.isEmpty = false ∧
        checkRow registry auth agentId request current = checkedPatch agentId request.into := by
  unfold checkRow
  cases auth.ensureProduct current.ownerProductId with
  | error e => exact .inl ⟨_, rfl⟩
  | ok _ =>
    cases hvalid : (request.into.apply current).validateAgainstRegistry registry with
    | error e => exact .inl ⟨_, rfl⟩
    | ok _ =>
      cases hchanges : request.into.isEmpty with
      | true =>
        have hfail : checkedPatch agentId request.into =
            .fail (.profile .invalidAgentProfile) := by
          rw [checkedPatch, ProfileStore.patch, if_pos hchanges]
          rfl
        exact .inl ⟨_, hfail⟩
      | false => exact .inr ⟨(validateAgainstRegistry_eq_ok.mp hvalid).2, rfl, rfl⟩

theorem patch_reads_profile {auth : ProductAuth} {body : Value} {q : DbStep}
    {k : q.Answer → Call DbStep DbStep.Answer AgentsApi.ApiError AgentProfile}
    (hprogram : (AgentOp.patch auth agentId body).program registry = .step q k)
    (input : DbStep.Input) :
    q.WritesValid registry ∧
      ((∃ changes, changes.isEmpty = false ∧ k (q.exec input s).1 = checkedPatch agentId changes ∧
        MergeAccepted registry agentId changes (q.exec input s).2) ∨
      (k (q.exec input s).1).Uses (DbStep.WritesValid registry)) := by
  obtain ⟨request, hread⟩ := program_patch_step hprogram
  change Call.step (DbStep.selectProfile agentId) _ = _ at hread
  cases hread
  refine ⟨trivial, ?_⟩
  obtain ⟨e, he⟩ | ⟨now, row, s', ha, he⟩ := exec_cases (.selectProfile agentId) input s
  · rw [he]
    exact .inr trivial
  · rw [he]
    obtain ⟨rfl, rfl⟩ := Prod.mk.inj (Except.ok.inj ha)
    cases hfind : s.findProfile agentId with
    | none => exact .inr trivial
    | some current =>
      change (∃ changes, _ ∧ checkRow registry auth agentId request current = _ ∧ _) ∨
        (checkRow registry auth agentId request current).Uses _
      rcases checkRow_cases auth request current with ⟨e, hfail⟩ | ⟨haccepts, hchanges, hcheck⟩
      · rw [hfail]
        exact .inr trivial
      · refine .inl ⟨request.into, hchanges, hcheck, fun row hrow => ?_⟩
        obtain rfl := Option.some.inj (hfind.symm.trans hrow)
        exact haccepts

end Steps

/-- A patch that has not read its row, one that its handler has checked, or a call that writes
valid profiles only. -/
inductive AgentThread.Sound (registry : ProviderRegistry) (s : Store) :
    Thread DbStep.Answer AgentsApi.ApiError AgentOp.Result → Prop
  | unread (auth : ProductAuth) (agentId : String) (body : Value) :
      AgentThread.Sound registry s ⟨.patch auth agentId body,
        (AgentOp.patch auth agentId body).program registry⟩
  | checked (auth : ProductAuth) (agentId : String) (body : Value) (changes : PatchAgentProfile)
      (nonempty : changes.isEmpty = false)
      (accepted : MergeAccepted registry agentId changes s) :
      AgentThread.Sound registry s ⟨.patch auth agentId body, checkedPatch agentId changes⟩
  | writes (op : AgentOp) (rest : Call DbStep DbStep.Answer AgentsApi.ApiError op.Result)
      (uses : rest.Uses (DbStep.WritesValid registry)) : AgentThread.Sound registry s ⟨op, rest⟩

structure AgentPool.Sound (registry : ProviderRegistry) (p : AgentPool) : Prop where
  profiles : p.shared.ProfilesValid registry
  threads : ∀ (i : ℕ) t, p.threads[i]? = some t → AgentThread.Sound registry p.shared t

section Pool
variable {registry : ProviderRegistry} {p p' : AgentPool}

theorem spawned_agent_sound (s : Store) (op : AgentOp) :
    AgentThread.Sound registry s ⟨op, op.program registry⟩ := by
  cases op with
  | patch auth agentId body => exact .unread auth agentId body
  | create auth request =>
    refine .writes _ _ ?_
    rw [program_create]
    refine (uses_check _).bind fun _ => (uses_check _).bind fun _ => ?_
    cases hvalid : request.into.validateAgainstRegistry registry with
    | error e => trivial
    | ok _ => exact (uses_create_valid hvalid).mapError _
  | delete auth agentId =>
    refine .writes _ _ ?_
    rw [program_delete]
    exact (uses_check _).bind fun _ => ((uses_get_valid agentId).mapError _).bind fun _ =>
      (uses_check _).bind fun _ => (uses_delete_valid agentId).mapError _

theorem AgentThread.Sound.advance {op : AgentOp} {q : DbStep}
    {k : q.Answer → Call DbStep DbStep.Answer AgentsApi.ApiError op.Result} {s : Store}
    (h : AgentThread.Sound registry s ⟨op, .step q k⟩) (input : DbStep.Input) :
    q.WritesValid registry ∧
      AgentThread.Sound registry (q.exec input s).2 ⟨op, k (q.exec input s).1⟩ := by
  generalize hT : (⟨op, .step q k⟩ : Thread DbStep.Answer AgentsApi.ApiError AgentOp.Result) = T at h
  cases h with
  | unread auth agentId body =>
    obtain ⟨rfl, hrest⟩ := Thread.mk.inj hT
    obtain ⟨hq, hchecked | huses⟩ := patch_reads_profile (eq_of_heq hrest).symm input
    · obtain ⟨changes, hchanges, hk, haccepted⟩ := hchecked
      refine ⟨hq, ?_⟩
      rw [hk]
      exact .checked auth agentId body changes hchanges haccepted
    · exact ⟨hq, .writes _ _ huses⟩
  | checked auth agentId body changes hchanges haccepted =>
    obtain ⟨rfl, hrest⟩ := Thread.mk.inj hT
    obtain ⟨hq, huses⟩ := checkedPatch_reads (eq_of_heq hrest).symm input haccepted
    exact ⟨hq, .writes _ _ huses⟩
  | writes op' rest huses =>
    obtain ⟨rfl, hrest⟩ := Thread.mk.inj hT
    obtain rfl := eq_of_heq hrest
    exact ⟨huses.1, .writes _ _ (huses.2 _)⟩

theorem AgentPool.Sound.step {a : AgentAction} (h : p.Sound registry)
    (ha : ChecksKept registry p a) (hstep : agentPoolStep registry p a = some p') :
    p'.Sound registry := by
  obtain ⟨op, rfl, rfl⟩ | ⟨i, input, op, q, k, rfl, hi, rfl⟩ := step_cases hstep
  · refine ⟨h.profiles, fun j t hj => ?_⟩
    obtain hold | ⟨-, rfl⟩ := getElem?_spawned hj
    · exact h.threads j t hold
    · exact spawned_agent_sound _ op
  · obtain ⟨hq, hmoved⟩ := (h.threads i _ hi).advance input
    refine ⟨profilesValid_exec h.profiles hq input, fun j t hj => ?_⟩
    obtain ⟨-, rfl⟩ | ⟨-, hold⟩ := getElem?_moved hj
    · exact hmoved
    · cases h.threads j t hold with
      | unread auth agentId body => exact .unread auth agentId body
      | checked auth agentId body changes hchanges haccepted =>
        exact .checked auth agentId body changes hchanges
          (ha op q k hi j auth agentId body changes hchanges hold haccepted)
      | writes op' rest huses => exact .writes op' rest huses

end Pool

/-- In every interleaving of requests in which no step spoils a checked patch, every stored profile
is valid against the registry. -/
theorem stored_profiles_valid {registry : ProviderRegistry} {s : Store}
    (hs : s.ProfilesValid registry) {p : AgentPool}
    (h : Reaches (agentPoolStep registry) (ChecksKept registry) ⟨s, []⟩ p) :
    p.shared.ProfilesValid registry := by
  have hstart : AgentPool.Sound registry ⟨s, []⟩ :=
    ⟨hs, fun i t hi => absurd hi (by simp)⟩
  have hsound : p.Sound registry := by
    refine h.invariant hstart ?_
    intro q a q' hq ha hstep
    exact hq.step ha hstep
  exact hsound.profiles

section Samples

def twoProviders : ProviderRegistry :=
  ⟨[⟨"codex", .cli, ⟨"default", ["default", "large"]⟩, ⟨[]⟩⟩,
    ⟨"claude", .cli, ⟨"opus", ["opus"]⟩, ⟨[]⟩⟩]⟩

def profileStart : Store := { Store.empty with profiles := [sampleProfile] }

def agentsAuth : ProductAuth := ⟨"acme", [.agentsWrite]⟩

def chooseLarge : AgentOp := .patch agentsAuth "reviewer" (.object [("model", .string "large")])

def moveToClaude : AgentOp :=
  .patch agentsAuth "reviewer"
    (.object [("provider_id", .string "claude"), ("model", .string "opus")])

theorem profileStart_valid : profileStart.ProfilesValid twoProviders := by
  intro profile hprofile
  rw [List.mem_singleton.mp hprofile]
  rfl

def largeProfile : AgentProfile := { sampleProfile with model := "large", updatedAt := "t1" }

theorem checksKept_reading {registry : ProviderRegistry} {p : AgentPool} {i : ℕ} {op : AgentOp}
    {q : DbStep} {k : q.Answer → Call DbStep DbStep.Answer AgentsApi.ApiError op.Result}
    {input : DbStep.Input} (hi : p.threads[i]? = some ⟨op, .step q k⟩)
    (hq : (q.exec input p.shared).2 = p.shared) : ChecksKept registry p (.advance i input) := by
  intro op' q' k' hi' j auth agentId body changes _ _ haccepted
  rw [hi] at hi'
  cases hi'
  rw [hq]
  exact haccepted

theorem checksKept_alone {registry : ProviderRegistry} {s : Store} {op : AgentOp} {id : String}
    {next : CreateAgentProfile} {updatedAt : String}
    {k : Except SqlError Unit → Call DbStep DbStep.Answer AgentsApi.ApiError op.Result}
    {i : ℕ} {input : DbStep.Input} : ChecksKept registry
      (⟨s, [⟨op, .step (.updateProfile id next updatedAt) k⟩]⟩ : AgentPool) (.advance i input) := by
  intro op' q' k' _ j auth agentId body changes hchanges hj _
  have hthread := List.mem_singleton.mp (List.mem_of_getElem? hj)
  obtain ⟨rfl, hrest⟩ := Thread.mk.inj hthread
  have hstep := eq_of_heq hrest
  rw [checkedPatch, ProfileStore.patch, if_neg (by simp [hchanges])] at hstep
  cases hstep

def largePool : AgentPool :=
  ⟨{ Store.empty with profiles := [largeProfile] }, [⟨chooseLarge, .ret largeProfile⟩]⟩

theorem reaches_largePool :
    Reaches (agentPoolStep twoProviders) (ChecksKept twoProviders) ⟨profileStart, []⟩ largePool := by
  refine .trans (.tail .refl (a := .spawn chooseLarge) trivial rfl) ?_
  refine .trans (.tail .refl (a := .advance 0 (.proceed "t1")) (checksKept_reading rfl rfl) rfl) ?_
  refine .trans (.tail .refl (a := .advance 0 (.proceed "t1")) (checksKept_reading rfl rfl) rfl) ?_
  refine .trans (.tail .refl (a := .advance 0 (.proceed "t1")) (checksKept_reading rfl rfl) rfl) ?_
  refine .trans (.tail .refl (a := .advance 0 (.proceed "t1")) checksKept_alone rfl) ?_
  refine .trans (.tail .refl (a := .advance 0 (.proceed "t1")) (checksKept_reading rfl rfl) rfl) ?_
  exact .refl

theorem stored_profiles_valid_patched :
    largePool.shared.profiles.map AgentProfile.model = ["large"] ∧
      largePool.shared.ProfilesValid twoProviders :=
  ⟨rfl, stored_profiles_valid profileStart_valid reaches_largePool⟩

/-- Two patches, each valid when it is checked, leave a model that the provider does not have. -/
theorem unsupported_model_stored : ∃ p : AgentPool,
    Reaches (agentPoolStep twoProviders) (fun _ _ => True) ⟨profileStart, []⟩ p ∧
    profileStart.ProfilesValid twoProviders ∧ ¬ p.shared.ProfilesValid twoProviders := by
  have hrun : (run (fun p a => if (fun _ _ => true) p a then agentPoolStep twoProviders p a
        else none) ⟨profileStart, []⟩
      ([.spawn chooseLarge, .spawn moveToClaude, .advance 0 (.proceed "t1")] ++
        List.replicate 5 (.advance 1 (.proceed "t1")) ++
        List.replicate 4 (.advance 0 (.proceed "t2")))).map
      (fun p => p.shared.profiles.map fun profile => (profile.providerId, profile.model)) =
        some [("claude", "large")] := by
    decide
  obtain ⟨p, hp, hprofiles⟩ := Option.map_eq_some_iff.mp hrun
  refine ⟨p, reaches_of_run (fun _ _ _ => trivial) hp, profileStart_valid, fun hvalid => ?_⟩
  obtain ⟨profile, hprofile, hcolumns⟩ := List.map_eq_singleton_iff.mp hprofiles
  obtain ⟨hprovider, hmodel⟩ := Prod.mk.inj hcolumns
  have hmem : profile ∈ p.shared.profiles := by
    rw [hprofile]
    exact List.mem_singleton_self profile
  obtain ⟨-, provider, hget, hsupported, -⟩ :=
    validateAgainstRegistry_eq_ok.mp (hvalid profile hmem)
  change twoProviders.get profile.providerId = some provider at hget
  change profile.model ∈ provider.models.supported at hsupported
  rw [hprovider] at hget
  rw [hmodel] at hsupported
  obtain rfl := Option.some.inj hget
  revert hsupported
  decide

end Samples

end OpenDaemon
