import OpenDaemon.HandlerReturns
import OpenDaemon.TokenTable
import OpenDaemon.ControlPlane
import OpenDaemon.LockOwnership

/-!
# Patches as merge patches

A merge patch leaves what its body does not name, sets what it names and clears what it
nulls. The request types nest `Option` in `Option` for the last of these, but a `null` ends
at the outer one: it reads as a field that is not there.
-/

namespace OpenDaemon

open RowTable Store Call

section Deserialize
variable {α : Type}

/-- An `Option<T>` that stands inside another type. -/
def optionOf (f : Value → Option α) (value : Value) : Option (Option α) :=
  optionalField f (some value)

/-- A unit variant: its name, or an object with its name as the only key and `null` under it. -/
def unitVariant (variants : List (String × α)) : Value → Option α
  | .string name => variants.lookup name
  | .object [(name, .null)] => variants.lookup name
  | _ => none

/-- The fields of a struct that all have a default: an array may end early. -/
def Value.defaultedFields (names : List String) : Value → Option (List (Option Value))
  | .object entries => some (names.map fun name => entries.lookup name)
  | .array items =>
    if items.length ≤ names.length then
      some (items.map some ++ List.replicate (names.length - items.length) none)
    else none
  | _ => none

def defaultedField (fallback : α) (f : Value → Option α) : Option Value → Option α
  | none => some fallback
  | some value => f value

def AgentWorkspaceMode.fromValue : Value → Option AgentWorkspaceMode :=
  unitVariant [("worktree", .worktree), ("direct", .direct)]

def ExecutionPolicy.fieldNames : List String :=
  ["default_workspace_mode", "allow_direct_directory"]

def ExecutionPolicy.fromValue (value : Value) : Option ExecutionPolicy :=
  match value.defaultedFields fieldNames with
  | some [defaultWorkspaceMode, allowDirectDirectory] => do
    return {
      defaultWorkspaceMode :=
        ← defaultedField .worktree AgentWorkspaceMode.fromValue defaultWorkspaceMode
      allowDirectDirectory := ← defaultedField false Value.asBool allowDirectDirectory }
  | _ => none

def ProviderConfig.fieldNames : List String :=
  ["custom_args", "custom_env_keys", "mcp_config", "permission_mode"]

def ProviderConfig.fromValue (value : Value) : Option ProviderConfig :=
  match value.defaultedFields fieldNames with
  | some [customArgs, customEnvKeys, mcpConfig, permissionMode] => do
    return {
      customArgs := ← defaultedField [] stringList customArgs
      customEnvKeys := ← defaultedField [] stringList customEnvKeys
      mcpConfig := ← defaultedField none (optionOf some) mcpConfig
      permissionMode := ← defaultedField defaultPermissionMode Value.asStr permissionMode }
  | _ => none

def ProductStatus.fromValue : Value → Option ProductStatus :=
  unitVariant [("active", .active), ("disabled", .disabled)]

def AgentsApi.PatchAgentRequest.fieldNames : List String :=
  ["name", "provider_id", "model", "instructions", "execution_policy", "provider_config"]

def AgentsApi.PatchAgentRequest.fromValue (value : Value) : Option PatchAgentRequest :=
  match value.structFields fieldNames with
  | some [name, providerId, model, instructions, executionPolicy, providerConfig] => do
    return {
      name := ← optionalField Value.asStr name
      providerId := ← optionalField Value.asStr providerId
      model := ← optionalField Value.asStr model
      instructions := ← optionalField (optionOf Value.asStr) instructions
      executionPolicy := ← optionalField ExecutionPolicy.fromValue executionPolicy
      providerConfig := ← optionalField ProviderConfig.fromValue providerConfig }
  | _ => none

end Deserialize

namespace ProductsApi

structure PatchProductRequest where
  displayName : Option String
  description : Option (Option String)
  status : Option ProductStatus

def PatchProductRequest.fieldNames : List String := ["display_name", "description", "status"]

def repeatsField (names : List String) : Value → Bool
  | .object entries => names.any fun name => decide (1 < (entries.map Prod.fst).count name)
  | _ => false

/-- The body is read as it comes, so that a repeated field is refused. -/
def PatchProductRequest.fromBody (body : Value) : Option PatchProductRequest :=
  if repeatsField fieldNames body then none
  else
    match body.structFields fieldNames with
    | some [displayName, description, status] => do
      return {
        displayName := ← optionalField Value.asStr displayName
        description := ← optionalField (optionOf Value.asStr) description
        status := ← optionalField ProductStatus.fromValue status }
    | _ => none

def PatchProductRequest.into (request : PatchProductRequest) : PatchProduct where
  displayName := request.displayName
  description := request.description
  status := request.status

/-- `rejection` is the answer to a body that is no `PatchProductRequest`. -/
inductive ApiError
  | rejection
  | store (error : ProductStoreError)
  deriving DecidableEq, Repr

def patch (productId : String) (body : Value) (now : String) (db : ProductDb) :
    Except ApiError Product × ProductDb :=
  match PatchProductRequest.fromBody body with
  | none => (.error .rejection, db)
  | some request =>
    let (result, db') := ProductStore.patchProduct productId request.into now db
    (result.mapError .store, db')

end ProductsApi

section Merge
variable {α : Type} {f : Value → Option α} {given : Option Value} {old new : α}

/-- What a merge patch does to a field that reads by `f` and is `given` in the body. -/
structure FieldMerged (f : Value → Option α) (given : Option Value) (old new : α) : Prop where
  absent : given = none → new = old
  present : ∀ value, given = some value → value ≠ .null → f value = some new

theorem optionalField_some {value : Value} (hvalue : value ≠ .null) :
    optionalField f (some value) = (f value).map some := by
  cases value with
  | null => exact absurd rfl hvalue
  | _ => rfl

theorem fieldMerged_getD {a : Option α} (h : optionalField f given = some a) :
    FieldMerged f given old (a.getD old) where
  absent := by
    intro hnone
    rw [hnone] at h
    obtain rfl := Option.some.inj h
    rfl
  present := by
    intro value hgiven hvalue
    rw [hgiven, optionalField_some hvalue] at h
    obtain ⟨b, hb, rfl⟩ := Option.map_eq_some_iff.mp h
    exact hb

def onlyNulls (field : String) : Value := .object [(field, .null)]

def nullable (f : Value → Option α) (value : Value) : Option (Option α) := (f value).map some

theorem fieldMerged_nullable {old : Option α} {a : Option (Option α)}
    (h : optionalField (optionOf f) given = some a) :
    FieldMerged (nullable f) given old (a.getD old) where
  absent := (fieldMerged_getD h).absent
  present := by
    intro value hgiven hvalue
    have hmerged : FieldMerged (optionOf f) given old (a.getD old) := fieldMerged_getD h
    have hread := hmerged.present value hgiven hvalue
    rw [optionOf, optionalField_some hvalue] at hread
    exact hread

/-- A `null` is not told from a field that is not there. -/
theorem getD_of_null {old : Option α} {a : Option (Option α)}
    (h : optionalField (optionOf f) (some .null) = some a) : a.getD old = old := by
  obtain rfl := Option.some.inj h
  rfl

end Merge

section Agents
variable {auth : ProductAuth} {agentId : String} {body : Value} {inputs : ℕ → ServiceStep.Input}
  {x y : EventState} {entries : List (String × Value)} {request : AgentsApi.PatchAgentRequest}
  {current agent : AgentProfile} {registry : ProviderRegistry}

theorem CreateAgentProfile.validate_of_registry {input : CreateAgentProfile}
    (h : input.validateAgainstRegistry registry = .ok ()) : input.validate = .ok () := by
  unfold CreateAgentProfile.validateAgainstRegistry at h
  cases hvalid : input.validate with
  | ok _ => rfl
  | error e =>
    rw [hvalid] at h
    cases h

namespace AgentsApi

structure Admitted (auth : ProductAuth) (agentId : String) (body : Value)
    (registry : Option ProviderRegistry) (s : Store) (request : PatchAgentRequest)
    (current : AgentProfile) : Prop where
  permitted : .agentsWrite ∈ auth.scopes
  mutable : rejectImmutableFields body = .ok ()
  parsed : PatchAgentRequest.fromValue body = some request
  found : s.findProfile agentId = some current
  owned : auth.productId = current.ownerProductId
  valid : ∃ loaded, registry = some loaded ∧
    (request.into.apply current).validateAgainstRegistry loaded = .ok ()
  changes : request.into.isEmpty = false

theorem returns_patch :
    Returns (patch PatchAgentRequest.fromValue auth agentId body) inputs x agent y ↔
      ∃ request current, Admitted auth agentId body (inputs 1).registry x.store request current ∧
        agent = current.withColumns (request.into.apply current) (inputs 2).now ∧
        y = { x with
          store := x.store.updateProfile agentId (request.into.apply current) (inputs 2).now } := by
  unfold patch
  rw [returns_requireScope, returns_check]
  constructor
  · rintro ⟨hscope, ⟨⟩, hmutable, h⟩
    split at h
    · exact absurd h (returns_fail _)
    · rename_i request hparsed
      rw [returns_getProfile] at h
      obtain ⟨current, hfind, h⟩ := h
      rw [returns_ensureProduct, returns_validateAgainstRegistry, returns_profileStore] at h
      obtain ⟨howned, loaded, hregistry, hvalid, t, hrun, rfl⟩ := h
      obtain ⟨profile, hchanges, hfound, -, rfl, rfl⟩ := runAlone_patchProfile_eq_ok.mp hrun
      obtain rfl := Option.some.inj (hfind.symm.trans hfound)
      exact ⟨request, current, ⟨hscope, hmutable, hparsed, hfind, howned,
        ⟨loaded, hregistry, hvalid⟩, hchanges⟩, rfl, rfl⟩
  · rintro ⟨request, current, hadmitted, rfl, rfl⟩
    obtain ⟨loaded, hregistry, hvalid⟩ := hadmitted.valid
    refine ⟨hadmitted.permitted, (), hadmitted.mutable, ?_⟩
    rw [hadmitted.parsed]
    dsimp only
    rw [returns_getProfile]
    refine ⟨current, hadmitted.found, ?_⟩
    rw [returns_ensureProduct, returns_validateAgainstRegistry, returns_profileStore]
    have hrun : runAlone (ProfileStore.patch agentId request.into) (inputs 2).now x.store = _ :=
      runAlone_patchProfile_ok hadmitted.changes hadmitted.found
        (CreateAgentProfile.validate_of_registry hvalid)
    exact ⟨hadmitted.owned, loaded, hregistry, hvalid, _, hrun, rfl⟩

theorem PatchAgentRequest.fromValue_object :
    fromValue (.object entries) = some request ↔
      optionalField Value.asStr (entries.lookup "name") = some request.name ∧
      optionalField Value.asStr (entries.lookup "provider_id") = some request.providerId ∧
      optionalField Value.asStr (entries.lookup "model") = some request.model ∧
      optionalField (optionOf Value.asStr) (entries.lookup "instructions") =
        some request.instructions ∧
      optionalField ExecutionPolicy.fromValue (entries.lookup "execution_policy") =
        some request.executionPolicy ∧
      optionalField ProviderConfig.fromValue (entries.lookup "provider_config") =
        some request.providerConfig := by
  obtain ⟨name, providerId, model, instructions, executionPolicy, providerConfig⟩ := request
  simp only [fromValue, fieldNames, Value.structFields, List.map_cons, List.map_nil,
    Option.bind_eq_bind, Option.bind_eq_some_iff, Option.pure_def, Option.some.injEq, mk.injEq]
  constructor
  · rintro ⟨_, h1, _, h2, _, h3, _, h4, _, h5, _, h6, rfl, rfl, rfl, rfl, rfl, rfl⟩
    exact ⟨h1, h2, h3, h4, h5, h6⟩
  · rintro ⟨h1, h2, h3, h4, h5, h6⟩
    exact ⟨_, h1, _, h2, _, h3, _, h4, _, h5, _, h6, rfl, rfl, rfl, rfl, rfl, rfl⟩

structure Merged (entries : List (String × Value)) (current agent : AgentProfile) : Prop where
  name : FieldMerged Value.asStr (entries.lookup "name") current.name agent.name
  providerId :
    FieldMerged Value.asStr (entries.lookup "provider_id") current.providerId agent.providerId
  model : FieldMerged Value.asStr (entries.lookup "model") current.model agent.model
  instructions : FieldMerged (nullable Value.asStr) (entries.lookup "instructions")
    current.instructions agent.instructions
  executionPolicy : FieldMerged ExecutionPolicy.fromValue (entries.lookup "execution_policy")
    current.executionPolicy agent.executionPolicy
  providerConfig : FieldMerged ProviderConfig.fromValue (entries.lookup "provider_config")
    current.providerConfig agent.providerConfig
  cleared : entries.lookup "instructions" = some .null → agent.instructions = none

theorem merged_iff {now : String}
    (hparsed : PatchAgentRequest.fromValue (.object entries) = some request) :
    Merged entries current (current.withColumns (request.into.apply current) now) ↔
      (entries.lookup "instructions" = some .null → current.instructions = none) := by
  obtain ⟨hname, hprovider, hmodel, hinstructions, hpolicy, hconfig⟩ :=
    PatchAgentRequest.fromValue_object.mp hparsed
  -- A nulled field keeps its value, so it is cleared where there was nothing to clear.
  have hkept : entries.lookup "instructions" = some .null →
      request.instructions.getD current.instructions = current.instructions := by
    intro hnull
    rw [hnull] at hinstructions
    exact getD_of_null hinstructions
  constructor
  · intro hmerged hnull
    exact (hkept hnull).symm.trans (hmerged.cleared hnull)
  · intro hnone
    exact {
      name := fieldMerged_getD hname
      providerId := fieldMerged_getD hprovider
      model := fieldMerged_getD hmodel
      instructions := fieldMerged_nullable hinstructions
      executionPolicy := fieldMerged_getD hpolicy
      providerConfig := fieldMerged_getD hconfig
      cleared := fun hnull => (hkept hnull).trans (hnone hnull) }

def clearInstructions : PatchAgentProfile := ⟨none, none, none, some none, none, none⟩

/-- The caller may write the profile, and it is valid without instructions. -/
def Clearable (auth : ProductAuth) (agentId : String) (registry : Option ProviderRegistry)
    (s : Store) : Prop :=
  .agentsWrite ∈ auth.scopes ∧ ∃ current loaded, s.findProfile agentId = some current ∧
    auth.productId = current.ownerProductId ∧ registry = some loaded ∧
    (clearInstructions.apply current).validateAgainstRegistry loaded = .ok ()

structure Merges (auth : ProductAuth) (agentId : String) (body : Value)
    (inputs : ℕ → ServiceStep.Input) (x : EventState) : Prop where
  merged : ∀ agent y,
    Returns (patch PatchAgentRequest.fromValue auth agentId body) inputs x agent y →
      ∃ entries current, body = .object entries ∧ x.store.findProfile agentId = some current ∧
        Merged entries current agent ∧ y.store.findProfile agentId = some agent
  clears : body = onlyNulls "instructions" →
    Clearable auth agentId (inputs 1).registry x.store →
      ∃ agent y,
        Returns (patch PatchAgentRequest.fromValue auth agentId body) inputs x agent y ∧
          agent.instructions = none ∧ y.store.findProfile agentId = some agent

/-- The body nulls the instructions and nothing else stands against it, but there are
instructions to clear or nothing else to patch. -/
def NullIgnored (auth : ProductAuth) (agentId : String) (body : Value)
    (registry : Option ProviderRegistry) (s : Store) : Prop :=
  (∃ entries request current, body = .object entries ∧
    entries.lookup "instructions" = some .null ∧
    Admitted auth agentId body registry s request current ∧ current.instructions ≠ none) ∨
  body = onlyNulls "instructions" ∧ Clearable auth agentId registry s

theorem object_of_mutable (h : rejectImmutableFields body = .ok ()) :
    ∃ entries, body = .object entries := by
  unfold rejectImmutableFields at h
  split at h
  · cases h
  · split at h
    · cases h
    · rename_i hkey
      cases body with
      | object entries => exact ⟨entries, rfl⟩
      | _ => exact absurd rfl hkey

theorem onlyNulls_refused :
    ¬ Returns (patch PatchAgentRequest.fromValue auth agentId (onlyNulls "instructions"))
      inputs x agent y := by
  rw [returns_patch]
  rintro ⟨request, current, hadmitted, -, -⟩
  have hparsed := hadmitted.parsed
  have hchanges := hadmitted.changes
  obtain rfl := Option.some.inj hparsed
  cases hchanges

theorem merges_iff : Merges auth agentId body inputs x ↔
    ¬ NullIgnored auth agentId body (inputs 1).registry x.store := by
  constructor
  · rintro hmerges (⟨entries, request, current, rfl, hnull, hadmitted, hset⟩ | ⟨rfl, hclearable⟩)
    · obtain ⟨entries', current', hbody, hfind, hmerged, -⟩ :=
        hmerges.merged _ _ (returns_patch.mpr ⟨request, current, hadmitted, rfl, rfl⟩)
      obtain rfl := Value.object.inj hbody
      obtain rfl := Option.some.inj (hadmitted.found.symm.trans hfind)
      exact hset ((merged_iff hadmitted.parsed).mp hmerged hnull)
    · obtain ⟨agent, y, hreturns, -⟩ := hmerges.clears rfl hclearable
      exact onlyNulls_refused hreturns
  · intro hnot
    constructor
    · intro agent y hreturns
      obtain ⟨request, current, hadmitted, rfl, rfl⟩ := returns_patch.mp hreturns
      obtain ⟨entries, rfl⟩ := object_of_mutable hadmitted.mutable
      refine ⟨entries, current, rfl, hadmitted.found, (merged_iff hadmitted.parsed).mpr ?_,
        findProfile_patched hadmitted.found⟩
      intro hnull
      by_contra hset
      exact hnot (.inl ⟨entries, request, current, rfl, hnull, hadmitted, hset⟩)
    · intro hbody hclearable
      exact absurd (.inr ⟨hbody, hclearable⟩) hnot

end AgentsApi

end Agents

section Products
variable {productId now : String} {body : Value} {db db' : ProductDb} {product current : Product}
  {entries : List (String × Value)}

def PatchProduct.apply (patch : PatchProduct) (current : Product) (now : String) : Product where
  id := current.id
  displayName := patch.displayName.getD current.displayName
  status := patch.status.getD current.status
  description := patch.description.getD current.description
  createdAt := current.createdAt
  updatedAt := now

theorem findProduct_patched (hfind : db.findProduct productId = some current)
    (updated : Product) : (db.updateProduct productId updated).findProduct productId =
      some (current.withColumns updated) := by
  rw [findProduct_updateProduct, hfind]
  simp [findProduct_id hfind]

theorem patchProduct_ok {changes : PatchProduct} (hvalid : changes.validate = .ok ())
    (hfind : db.findProduct productId = some current) :
    ProductStore.patchProduct productId changes now db =
      (.ok (current.withColumns (changes.apply current now)),
        db.updateProduct productId (changes.apply current now)) := by
  have hget := getProduct_eq_ok.mpr hfind
  have hread := getProduct_eq_ok.mpr (findProduct_patched hfind (changes.apply current now))
  unfold ProductStore.patchProduct
  simp only [hvalid, hget]
  exact congrArg (·, db.updateProduct productId (changes.apply current now)) hread

theorem patchProduct_eq_ok {changes : PatchProduct} :
    ProductStore.patchProduct productId changes now db = (.ok product, db') ↔
      ∃ current, changes.validate = .ok () ∧ db.findProduct productId = some current ∧
        product = current.withColumns (changes.apply current now) ∧
        db' = db.updateProduct productId (changes.apply current now) := by
  cases hvalid : changes.validate with
  | error e => simp [ProductStore.patchProduct, hvalid]
  | ok _ =>
    cases hfind : db.findProduct productId with
    | none => simp [ProductStore.patchProduct, ProductStore.getProduct, hvalid, hfind]
    | some current =>
      rw [patchProduct_ok hvalid hfind]
      simp only [Prod.mk.injEq, Except.ok.injEq, true_and, Option.some.injEq, exists_eq_left']
      exact and_congr eq_comm eq_comm

namespace ProductsApi

variable {request : PatchProductRequest}

theorem patch_eq_ok :
    patch productId body now db = (.ok product, db') ↔
      ∃ request current, PatchProductRequest.fromBody body = some request ∧
        request.into.validate = .ok () ∧ db.findProduct productId = some current ∧
        product = current.withColumns (request.into.apply current now) ∧
        db' = db.updateProduct productId (request.into.apply current now) := by
  unfold patch
  cases hparsed : PatchProductRequest.fromBody body with
  | none => simp
  | some request =>
    simp only [Prod.mk.injEq, mapError_eq_ok, Option.some.injEq, exists_and_left, exists_eq_left']
    rw [← Prod.mk.injEq, Prod.mk.eta, patchProduct_eq_ok]
    simp only [exists_and_left]

theorem PatchProductRequest.fromBody_object
    (h : fromBody (.object entries) = some request) :
    optionalField Value.asStr (entries.lookup "display_name") = some request.displayName ∧
      optionalField (optionOf Value.asStr) (entries.lookup "description") =
        some request.description ∧
      optionalField ProductStatus.fromValue (entries.lookup "status") = some request.status := by
  unfold fromBody at h
  split at h
  · cases h
  · simp only [fieldNames, Value.structFields, List.map_cons, List.map_nil, Option.bind_eq_bind,
      Option.bind_eq_some_iff, Option.pure_def, Option.some.injEq] at h
    obtain ⟨displayName, hdisplayName, description, hdescription, status, hstatus, rfl⟩ := h
    exact ⟨hdisplayName, hdescription, hstatus⟩

structure Merged (entries : List (String × Value)) (current product : Product) : Prop where
  displayName :
    FieldMerged Value.asStr (entries.lookup "display_name") current.displayName product.displayName
  description : FieldMerged (nullable Value.asStr) (entries.lookup "description")
    current.description product.description
  status :
    FieldMerged ProductStatus.fromValue (entries.lookup "status") current.status product.status
  cleared : entries.lookup "description" = some .null → product.description = none

theorem merged_iff (hparsed : PatchProductRequest.fromBody (.object entries) = some request) :
    Merged entries current (current.withColumns (request.into.apply current now)) ↔
      (entries.lookup "description" = some .null → current.description = none) := by
  obtain ⟨hdisplayName, hdescription, hstatus⟩ := PatchProductRequest.fromBody_object hparsed
  have hkept : entries.lookup "description" = some .null →
      request.description.getD current.description = current.description := by
    intro hnull
    rw [hnull] at hdescription
    exact getD_of_null hdescription
  constructor
  · intro hmerged hnull
    exact (hkept hnull).symm.trans (hmerged.cleared hnull)
  · intro hnone
    exact {
      displayName := fieldMerged_getD hdisplayName
      description := fieldMerged_nullable hdescription
      status := fieldMerged_getD hstatus
      cleared := fun hnull => (hkept hnull).trans (hnone hnull) }

structure Merges (productId : String) (body : Value) (now : String) (db : ProductDb) : Prop where
  merged : ∀ entries product db', body = .object entries →
    patch productId body now db = (.ok product, db') →
      ∃ current, db.findProduct productId = some current ∧ Merged entries current product ∧
        db'.findProduct productId = some product
  clears : body = onlyNulls "description" → (db.findProduct productId).isSome →
    ∃ product db', patch productId body now db = (.ok product, db') ∧
      product.description = none ∧ db'.findProduct productId = some product

/-- The body nulls the description of a product that has one, or nothing but the description
of a product. -/
def NullIgnored (productId : String) (body : Value) (db : ProductDb) : Prop :=
  (∃ entries request current, body = .object entries ∧
    entries.lookup "description" = some .null ∧
    PatchProductRequest.fromBody body = some request ∧ request.into.validate = .ok () ∧
    db.findProduct productId = some current ∧ current.description ≠ none) ∨
  body = onlyNulls "description" ∧ (db.findProduct productId).isSome

theorem onlyNulls_refused :
    patch productId (onlyNulls "description") now db ≠ (.ok product, db') := by
  intro h
  obtain ⟨request, current, hparsed, hvalid, -⟩ := patch_eq_ok.mp h
  obtain rfl := Option.some.inj hparsed
  cases hvalid

theorem merges_iff : Merges productId body now db ↔ ¬ NullIgnored productId body db := by
  constructor
  · rintro hmerges (⟨entries, request, current, rfl, hnull, hparsed, hvalid, hfind, hset⟩ |
      ⟨rfl, hfound⟩)
    · obtain ⟨current', hfind', hmerged, -⟩ := hmerges.merged entries _ _ rfl
        (patch_eq_ok.mpr ⟨request, current, hparsed, hvalid, hfind, rfl, rfl⟩)
      obtain rfl := Option.some.inj (hfind.symm.trans hfind')
      exact hset ((merged_iff hparsed).mp hmerged hnull)
    · obtain ⟨product, db', hpatch, -⟩ := hmerges.clears rfl hfound
      exact onlyNulls_refused hpatch
  · intro hnot
    constructor
    · rintro entries product db' rfl hpatch
      obtain ⟨request, current, hparsed, hvalid, hfind, rfl, rfl⟩ := patch_eq_ok.mp hpatch
      refine ⟨current, hfind, (merged_iff hparsed).mpr ?_, findProduct_patched hfind _⟩
      intro hnull
      by_contra hset
      exact hnot (.inl ⟨entries, request, current, rfl, hnull, hparsed, hvalid, hfind, hset⟩)
    · intro hbody hfound
      exact absurd (.inr ⟨hbody, hfound⟩) hnot

end ProductsApi

end Products

/-- A patch, of an agent profile or of a product, is a merge patch just when no `null` of its body
is taken for a field that is not there. -/
theorem patch_merges_iff (auth : ProductAuth) (agentId : String) (agentBody : Value)
    (inputs : ℕ → ServiceStep.Input) (x : EventState) (productId : String) (productBody : Value)
    (now : String) (db : ProductDb) :
    (AgentsApi.Merges auth agentId agentBody inputs x ↔
      ¬ AgentsApi.NullIgnored auth agentId agentBody (inputs 1).registry x.store) ∧
    (ProductsApi.Merges productId productBody now db ↔
      ¬ ProductsApi.NullIgnored productId productBody db) :=
  ⟨AgentsApi.merges_iff, ProductsApi.merges_iff⟩

def instructedProfile : AgentProfile := { sampleProfile with instructions := some "Be brief." }

def codexRegistry : ProviderRegistry :=
  ⟨[⟨"codex", .cli, ⟨"default", ["default"]⟩, ⟨[]⟩⟩]⟩

def renamingRequest : AgentsApi.PatchAgentRequest :=
  ⟨some "Auditor", none, none, none, none, none⟩

/-- Instructions that are nulled beside a new name stay, and a body that only nulls a description
is refused. -/
theorem nulls_ignored :
    ¬ AgentsApi.Merges ⟨"acme", [.agentsWrite]⟩ "reviewer"
      (.object [("name", .string "Auditor"), ("instructions", .null)])
      (fun _ => { sampleInput "t1" with registry := some codexRegistry })
      (EventState.start { Store.empty with profiles := [instructedProfile] }) ∧
    ¬ ProductsApi.Merges "acme" (onlyNulls "description") "t1"
      ⟨[⟨"acme", "Acme", .active, some "Tools", "t0", "t0"⟩], []⟩ := by
  rw [AgentsApi.merges_iff, ProductsApi.merges_iff, not_not, not_not]
  constructor
  · refine .inl ⟨_, renamingRequest, instructedProfile, rfl, rfl, ?_, by decide⟩
    exact {
      permitted := by decide
      mutable := rfl
      parsed := rfl
      found := rfl
      owned := rfl
      valid := ⟨codexRegistry, rfl, rfl⟩
      changes := rfl }
  · exact .inr ⟨rfl, rfl⟩

end OpenDaemon
