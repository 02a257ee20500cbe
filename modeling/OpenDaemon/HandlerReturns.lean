import OpenDaemon.ServedRequests

/-!
# What a handler returns

A handler that runs alone and succeeds has passed all its checks, with the rows it
has read on its way. The rules say so in both directions, one for each shape of
step: a check, a read, a last call to a store.
-/

namespace OpenDaemon

open RowTable Store Call

section Rules
variable {ε α β : Type} {inputs : ℕ → ServiceStep.Input} {x y : EventState} {a : α}

def Returns (c : ApiCall ε α) (inputs : ℕ → ServiceStep.Input) (x : EventState) (a : α)
    (y : EventState) : Prop :=
  (c.run ApiStep.exec inputs x).result = .ok a ∧ (c.run ApiStep.exec inputs x).state = y

theorem returns_fail (e : ε) : ¬ Returns (.fail e : ApiCall ε α) inputs x a y := by
  rintro ⟨hresult, -⟩
  cases hresult

theorem returns_check {r : Except ε β} {f : β → ApiCall ε α} :
    Returns (ofExcept r >>= f) inputs x a y ↔ ∃ b, r = .ok b ∧ Returns (f b) inputs x a y := by
  cases r with
  | ok b =>
    constructor
    · intro h
      exact ⟨b, rfl, h⟩
    · rintro ⟨b', hb, h⟩
      obtain rfl := Except.ok.inj hb
      exact h
  | error e =>
    constructor
    · intro h
      exact absurd h (returns_fail e)
    · rintro ⟨b, hb, -⟩
      cases hb

theorem returns_checkError {ε' : Type} {r : Except ε' β} {g : ε' → ε} {f : β → ApiCall ε α} :
    Returns (ofExcept (r.mapError g) >>= f) inputs x a y ↔
      ∃ b, r = .ok b ∧ Returns (f b) inputs x a y := by
  simp only [returns_check, mapError_eq_ok]

theorem returns_checkUnit {ε' : Type} {r : Except ε' Unit} {g : ε' → ε} {f : Unit → ApiCall ε α} :
    Returns (ofExcept (r.mapError g) >>= f) inputs x a y ↔
      r = .ok () ∧ Returns (f ()) inputs x a y := by
  rw [returns_checkError]
  exact ⟨fun ⟨_, hr, h⟩ => ⟨hr, h⟩, fun ⟨hr, h⟩ => ⟨(), hr, h⟩⟩

theorem returns_step {q : ApiStep} {k : q.Answer → ApiCall ε α} :
    Returns (.step q k) inputs x a y ↔
      Returns (k (q.exec (inputs 0) x).1) (later inputs) (q.exec (inputs 0) x).2 a y := Iff.rfl

theorem returns_ret {b : α} : Returns (.ret b : ApiCall ε α) inputs x a y ↔ b = a ∧ x = y := by
  simp only [Returns, run_ret, Except.ok.injEq]

end Rules

section Checks
variable {ε α : Type} {inputs : ℕ → ServiceStep.Input} {x y : EventState} {a : α}
  {auth : ProductAuth} {g : AuthError → ε} {f : Unit → ApiCall ε α}

theorem returns_requireScope {scope : ApiScope} :
    Returns (ofExcept ((auth.requireScope scope).mapError g) >>= f) inputs x a y ↔
      scope ∈ auth.scopes ∧ Returns (f ()) inputs x a y := by
  rw [returns_checkUnit, ProductAuth.requireScope]
  by_cases h : scope ∈ auth.scopes
  · simp [h]
  · simp [h]

theorem returns_ensureProduct {productId : String} :
    Returns (ofExcept ((auth.ensureProduct productId).mapError g) >>= f) inputs x a y ↔
      auth.productId = productId ∧ Returns (f ()) inputs x a y := by
  rw [returns_checkUnit, ProductAuth.ensureProduct]
  by_cases h : auth.productId = productId
  · simp [h]
  · simp [h]

def UsesDirect (workspaceModes : Option (List WorkspaceMode))
    (defaultWorkspaceMode : Option WorkspaceMode) : Prop :=
  (∃ modes, workspaceModes = some modes ∧ .direct ∈ modes) ∨
    defaultWorkspaceMode = some .direct

theorem requireDirectScope_eq_ok {workspaceModes : Option (List WorkspaceMode)}
    {defaultWorkspaceMode : Option WorkspaceMode} {u : Unit} :
    DirectoriesApi.requireDirectScope auth workspaceModes defaultWorkspaceMode = .ok u ↔
      (UsesDirect workspaceModes defaultWorkspaceMode →
        .directoriesGrant ∈ auth.scopes ∧ .directoriesDirect ∈ auth.scopes) := by
  have huses : (workspaceModes.any (fun modes => decide (.direct ∈ modes)) ||
      decide (defaultWorkspaceMode = some .direct)) = true ↔
        UsesDirect workspaceModes defaultWorkspaceMode := by
    cases workspaceModes <;> simp [UsesDirect]
  unfold DirectoriesApi.requireDirectScope
  by_cases h : UsesDirect workspaceModes defaultWorkspaceMode
  · simp only [huses.mpr h, if_true, h, forall_true_left, DirectoriesApi.requireScopes]
    by_cases hscopes : ApiScope.directoriesGrant ∈ auth.scopes ∧
        ApiScope.directoriesDirect ∈ auth.scopes
    · simp [hscopes]
    · simp only [List.all_cons, List.all_nil, Bool.and_true, Bool.and_eq_true,
        decide_eq_true_eq, hscopes, if_false, reduceCtorEq]
  · have hnot := mt huses.mp h
    simp [hnot, h]

end Checks

section Stores
variable {α : Type} {inputs : ℕ → ServiceStep.Input} {x y : EventState} {a : α}

theorem returns_reading {ε : Type} {q : ServiceStep} {k : q.Answer → ApiCall ε α}
    {answer : q.Answer} (hexec : q.exec (inputs 0) x.store = (answer, x.store)) :
    Returns (.step (.run (.service q)) k) inputs x a y ↔
      Returns (k answer) (later inputs) x a y := by
  rw [returns_step]
  simp only [ApiStep.exec, RunStep.exec]
  rw [hexec]

theorem returns_getProfile {agentId : String} {f : AgentProfile → ApiCall AgentsApi.ApiError α} :
    Returns (AgentsApi.profileStore (.get agentId) >>= f) inputs x a y ↔
      ∃ profile, x.store.findProfile agentId = some profile ∧
        Returns (f profile) (later inputs) x a y := by
  have hget := runAlone_getProfile agentId (inputs 0).now x.store
  unfold AgentsApi.profileStore
  rw [step_bind]
  cases hfind : x.store.findProfile agentId with
  | none =>
    rw [hfind] at hget
    rw [returns_reading (q := .profiles (.get agentId)) hget]
    simp only [reduceCtorEq, false_and, exists_false, iff_false]
    exact returns_fail _
  | some profile =>
    rw [hfind] at hget
    rw [returns_reading (q := .profiles (.get agentId)) hget]
    simp only [Option.some.injEq, exists_eq_left']
    exact Iff.rfl

theorem returns_authorizeAgent {request : AgentAuthorizationRequest}
    {f : AgentProfile → ApiCall DirectoriesApi.ApiError α} :
    Returns (DirectoriesApi.authorizeAgent request >>= f) inputs x a y ↔
      ∃ profile, x.store.findProfile request.agentId = some profile ∧
        ProfileStore.check profile request = .ok () ∧
        Returns (f profile) (later inputs) x a y := by
  have hauthorize : runAlone (ProfileStore.authorize request) (inputs 0).now x.store = _ :=
    runAlone_authorizeProfile request
  unfold DirectoriesApi.authorizeAgent
  rw [step_bind]
  cases hfind : x.store.findProfile request.agentId with
  | none =>
    rw [hfind] at hauthorize
    rw [returns_reading (q := .profiles (.authorize request)) hauthorize]
    simp only [reduceCtorEq, false_and, exists_false, iff_false]
    exact returns_fail _
  | some profile =>
    simp only [hfind] at hauthorize
    simp only [Option.some.injEq, exists_eq_left']
    cases hcheck : ProfileStore.check profile request with
    | error e =>
      simp only [hcheck] at hauthorize
      rw [returns_reading (q := .profiles (.authorize request)) hauthorize]
      simp only [reduceCtorEq, false_and, iff_false]
      exact returns_fail _
    | ok _ =>
      simp only [hcheck] at hauthorize
      rw [returns_reading (q := .profiles (.authorize request)) hauthorize]
      simp only [true_and]
      exact Iff.rfl

theorem returns_outcome {ε ε' β : Type} {k : Except ε' β → ApiCall ε β} {g : ε' → ε} {b : β}
    (hok : ∀ b, k (.ok b) = .ret b) (herror : ∀ e, k (.error e) = .fail (g e))
    (outcome : Except ε' β × Store) :
    Returns (k outcome.1) inputs { x with store := outcome.2 } b y ↔
      ∃ t, outcome = (.ok b, t) ∧ { x with store := t } = y := by
  obtain ⟨result, t⟩ := outcome
  cases result with
  | error e =>
    simp only [herror, Prod.mk.injEq, reduceCtorEq, false_and, exists_false, iff_false]
    exact returns_fail _
  | ok result =>
    simp only [hok, Prod.mk.injEq, Except.ok.injEq, and_assoc, exists_and_left, exists_eq_left']
    exact returns_ret

theorem returns_grantStore {op : GrantOp} {a : op.Result} :
    Returns (DirectoriesApi.grantStore op) inputs x a y ↔
      ∃ t, runAlone op.program (inputs 0).now x.store = (.ok a, t) ∧
        { x with store := t } = y := by
  unfold DirectoriesApi.grantStore
  rw [returns_step]
  exact returns_outcome (g := DirectoriesApi.ApiError.directory)
    (k := fun | .ok result => .ret result | .error e => .fail (.directory e))
    (fun _ => rfl) (fun _ => rfl) (runAlone op.program (inputs 0).now x.store)

theorem returns_profileStore {op : ProfileOp} {a : op.Result} :
    Returns (AgentsApi.profileStore op) inputs x a y ↔
      ∃ t, runAlone op.program (inputs 0).now x.store = (.ok a, t) ∧
        { x with store := t } = y := by
  unfold AgentsApi.profileStore
  rw [returns_step]
  exact returns_outcome (g := AgentsApi.fromStore)
    (k := fun | .ok result => .ret result | .error e => .fail (AgentsApi.fromStore e))
    (fun _ => rfl) (fun _ => rfl) (runAlone op.program (inputs 0).now x.store)

theorem returns_validateAgainstRegistry {input : CreateAgentProfile}
    {f : Unit → ApiCall AgentsApi.ApiError α} :
    Returns (AgentsApi.validateAgainstRegistry input >>= f) inputs x a y ↔
      ∃ registry, (inputs 0).registry = some registry ∧
        input.validateAgainstRegistry registry = .ok () ∧
        Returns (f ()) (later inputs) x a y := by
  have hload : ServiceStep.exec .loadRegistry (inputs 0) x.store =
      ((inputs 0).registry, x.store) := rfl
  unfold AgentsApi.validateAgainstRegistry
  rw [step_bind]
  cases hregistry : (inputs 0).registry with
  | none =>
    rw [hregistry] at hload
    rw [returns_reading hload]
    simp only [reduceCtorEq, false_and, exists_false, iff_false]
    exact returns_fail _
  | some registry =>
    rw [hregistry] at hload
    rw [returns_reading hload]
    simp only [Option.some.injEq, exists_eq_left']
    exact returns_checkUnit

end Stores

end OpenDaemon
