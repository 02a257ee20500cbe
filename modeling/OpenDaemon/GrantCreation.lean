import OpenDaemon.GrantIdentity
import OpenDaemon.HandlerReturns

/-!
# Creating a directory grant

The modes and the default mode of a new grant are partly given by the request and
partly filled in. Some checks look at the list as it was sent, the others at the
list without repetitions, and the handler fills in a default of its own.
-/

namespace OpenDaemon

open RowTable Store Call

section Policy

theorem DirectoryGrantPolicy.new_eq_ok_iff {capabilities : List DirectoryCapability}
    {modes : List WorkspaceMode} {defaultMode : WorkspaceMode} {lockPolicy : DirectoryLockPolicy}
    {optIn remote : Bool} {policy : DirectoryGrantPolicy} :
    DirectoryGrantPolicy.new capabilities modes defaultMode lockPolicy optIn remote = .ok policy ↔
      (capabilities ≠ [] ∧ defaultMode ∈ modes ∧ ¬ (.write ∈ capabilities ∧ lockPolicy = .none)) ∧
      policy = ⟨collectCapabilities capabilities, collectWorkspaceModes modes, defaultMode,
        lockPolicy, optIn, remote⟩ := by
  have hcapabilities : collectCapabilities capabilities = [] ↔ capabilities = [] := by
    simp only [List.eq_nil_iff_forall_not_mem, mem_collectCapabilities]
  have hmodes : defaultMode ∈ modes → collectWorkspaceModes modes ≠ [] := by
    intro hmem hnil
    have hin : defaultMode ∈ collectWorkspaceModes modes := mem_collectWorkspaceModes.mpr hmem
    rw [hnil] at hin
    simp at hin
  simp only [new, normalizeCapabilities, normalizeWorkspaceModes, bind_eq_ok, ite_error_eq_ok,
    validate, List.isEmpty_iff, pure, Except.pure, Except.ok.injEq]
  constructor
  · rintro ⟨_, ⟨hcaps, rfl⟩, _, ⟨-, rfl⟩, _, ⟨-, hdefault, hlock, -⟩, rfl⟩
    simp only [mem_collectWorkspaceModes, mem_collectCapabilities, not_or, not_not] at hdefault hlock
    exact ⟨⟨fun hnil => hcaps (hcapabilities.mpr hnil), hdefault.2, hlock⟩, rfl⟩
  · rintro ⟨⟨hcaps, hdefault, hlock⟩, rfl⟩
    have hcaps' : collectCapabilities capabilities ≠ [] := fun hnil => hcaps (hcapabilities.mp hnil)
    have hmodes' := hmodes hdefault
    refine ⟨_, ⟨hcaps', rfl⟩, _, ⟨hmodes', rfl⟩, (), ⟨hcaps', ?_, ?_, trivial⟩, rfl⟩
    · simp [hmodes', hdefault]
    · simpa using hlock

namespace CreateDirectoryGrant

def modes (input : CreateDirectoryGrant) (isGit : Bool) : Option (List WorkspaceMode) :=
  input.workspaceModes.or (if isGit then some [.worktree] else none)

def chosenDefault (input : CreateDirectoryGrant) (modes : List WorkspaceMode) :
    Option WorkspaceMode :=
  input.defaultWorkspaceMode.or
    (if .worktree ∈ modes then some .worktree else modes.head?)

def chosenPolicy (input : CreateDirectoryGrant) (isGit : Bool) (modes : List WorkspaceMode)
    (defaultMode : WorkspaceMode) : Except DirectoryStoreError DirectoryGrantPolicy :=
  if modes = [.worktree] ∧ ¬ isGit then .error (.security .invalidWorkspaceMode)
  else
    (DirectoryGrantPolicy.new input.capabilities modes defaultMode
      (input.lockPolicy.getD (if .write ∈ input.capabilities then .exclusive else .shared))
      (input.directModeRequiresExplicitTaskOptIn.getD true)
      (input.allowRemoteExecution.getD false)).mapError .security

variable {input : CreateDirectoryGrant} {isGit : Bool} {modes : List WorkspaceMode}

theorem policyFromCreate_no_modes (h : input.modes isGit = none) :
    policyFromCreate input isGit = .error (.security .invalidWorkspaceMode) := by
  unfold CreateDirectoryGrant.modes at h
  cases hmodes : input.workspaceModes with
  | some modes => simp [hmodes] at h
  | none =>
    have hgit : isGit = false := by
      cases isGit with
      | false => rfl
      | true => simp [hmodes] at h
    simp only [policyFromCreate, hmodes, hgit]
    rfl

theorem policyFromCreate_given (h : input.workspaceModes = some modes) :
    policyFromCreate input isGit =
      (input.chosenDefault modes).elim (.error .panic) (input.chosenPolicy isGit modes) := by
  simp only [policyFromCreate, h, ok_bind, error_bind, chosenDefault]
  cases input.defaultWorkspaceMode with
  | some mode => rfl
  | none =>
    by_cases hworktree : WorkspaceMode.worktree ∈ modes
    · simp only [if_pos hworktree]
      rfl
    · simp only [if_neg hworktree]
      cases modes <;> rfl

theorem policyFromCreate_omitted (h : input.workspaceModes = none) :
    policyFromCreate input true =
      (input.chosenDefault [.worktree]).elim (.error .panic)
        (input.chosenPolicy true [.worktree]) := by
  simp only [policyFromCreate, h, ok_bind, error_bind, chosenDefault]
  cases input.defaultWorkspaceMode <;> rfl

theorem policyFromCreate_modes (h : input.modes isGit = some modes) :
    policyFromCreate input isGit =
      (input.chosenDefault modes).elim (.error .panic) (input.chosenPolicy isGit modes) := by
  unfold CreateDirectoryGrant.modes at h
  cases hmodes : input.workspaceModes with
  | some given =>
    rw [hmodes] at h
    obtain rfl : given = modes := by simpa using h
    exact policyFromCreate_given hmodes
  | none =>
    rw [hmodes] at h
    cases isGit with
    | false => simp at h
    | true =>
      obtain rfl : [.worktree] = modes := by simpa using h
      exact policyFromCreate_omitted hmodes

theorem chosenPolicy_eq_ok_iff {defaultMode : WorkspaceMode} {policy : DirectoryGrantPolicy} :
    input.chosenPolicy isGit modes defaultMode = .ok policy ↔
      ¬ (modes = [.worktree] ∧ isGit = false) ∧
      (input.capabilities ≠ [] ∧ defaultMode ∈ modes ∧
        ¬ (.write ∈ input.capabilities ∧ input.lockPolicy = some .none)) ∧
      policy = ⟨collectCapabilities input.capabilities, collectWorkspaceModes modes, defaultMode,
        input.lockPolicy.getD (if .write ∈ input.capabilities then .exclusive else .shared),
        input.directModeRequiresExplicitTaskOptIn.getD true,
        input.allowRemoteExecution.getD false⟩ := by
  have hlock : input.lockPolicy.getD (if .write ∈ input.capabilities then .exclusive else .shared) =
      .none ↔ input.lockPolicy = some .none := by
    cases input.lockPolicy with
    | some lockPolicy => simp
    | none => by_cases hwrite : DirectoryCapability.write ∈ input.capabilities <;> simp [hwrite]
  simp only [chosenPolicy, ite_error_eq_ok, mapError_eq_ok, DirectoryGrantPolicy.new_eq_ok_iff,
    hlock, Bool.not_eq_true]

theorem policyFromCreate_eq_ok_iff {policy : DirectoryGrantPolicy} :
    policyFromCreate input isGit = .ok policy ↔
      ∃ modes defaultMode, input.modes isGit = some modes ∧
        input.chosenDefault modes = some defaultMode ∧
        input.chosenPolicy isGit modes defaultMode = .ok policy := by
  cases hmodes : input.modes isGit with
  | none => simp [policyFromCreate_no_modes hmodes]
  | some modes =>
    rw [policyFromCreate_modes hmodes]
    cases hdefault : input.chosenDefault modes with
    | none => simp [hdefault]
    | some defaultMode => simp [hdefault]

theorem chosenDefault_eq_none_iff :
    input.chosenDefault modes = none ↔ modes = [] ∧ input.defaultWorkspaceMode = none := by
  unfold chosenDefault
  cases input.defaultWorkspaceMode with
  | some mode => simp
  | none =>
    by_cases hworktree : WorkspaceMode.worktree ∈ modes
    · have hne : modes ≠ [] := List.ne_nil_of_mem hworktree
      simp [hworktree, hne]
    · simp [hworktree]

theorem security_ne_panic {α : Type} (r : Except DirectorySecurityError α) :
    r.mapError DirectoryStoreError.security ≠ .error .panic := by
  cases r <;> simp

theorem chosenPolicy_ne_panic (defaultMode : WorkspaceMode) :
    input.chosenPolicy isGit modes defaultMode ≠ .error .panic := by
  unfold chosenPolicy
  by_cases hraw : modes = [.worktree] ∧ ¬ isGit
  · simp [hraw]
  · rw [if_neg hraw]
    exact security_ne_panic _

theorem policyFromCreate_panic_iff : policyFromCreate input isGit = .error .panic ↔
    input.workspaceModes = some [] ∧ input.defaultWorkspaceMode = none := by
  have hempty : input.modes isGit = some [] ↔ input.workspaceModes = some [] := by
    unfold CreateDirectoryGrant.modes
    cases input.workspaceModes <;> cases isGit <;> simp
  cases hmodes : input.modes isGit with
  | none =>
    have hnot : ¬ input.workspaceModes = some [] := by
      rw [← hempty, hmodes]
      simp
    simp [policyFromCreate_no_modes hmodes, hnot]
  | some modes =>
    rw [policyFromCreate_modes hmodes]
    cases hdefault : input.chosenDefault modes with
    | none =>
      obtain ⟨rfl, homitted⟩ := chosenDefault_eq_none_iff.mp hdefault
      simp [hempty.mp hmodes, homitted]
    | some defaultMode =>
      have hnot : ¬ (input.workspaceModes = some [] ∧ input.defaultWorkspaceMode = none) := by
        rintro ⟨hgiven, homitted⟩
        obtain rfl : modes = [] := by
          have := hempty.mpr hgiven
          rw [hmodes] at this
          simpa using this
        simp [chosenDefault_eq_none_iff.mpr ⟨rfl, homitted⟩] at hdefault
      simp only [Option.elim_some, hnot, iff_false]
      exact chosenPolicy_ne_panic defaultMode

/-! ### The documented policies -/

def documentedDefault (input : CreateDirectoryGrant) (modes : List WorkspaceMode) :
    WorkspaceMode :=
  input.defaultWorkspaceMode.getD (if .worktree ∈ modes then .worktree else .direct)

/-- The policies that the creation of a grant is documented to accept. -/
def Documented (input : CreateDirectoryGrant) (isGit : Bool) : Prop :=
  input.capabilities ≠ [] ∧
  (∃ modes, input.modes isGit = some modes ∧ modes ≠ [] ∧
    input.documentedDefault modes ∈ modes ∧
    ¬ ((∀ mode ∈ modes, mode = .worktree) ∧ isGit = false)) ∧
  ¬ (.write ∈ input.capabilities ∧ input.lockPolicy = some .none)

/-- The request names `worktree` more than once and no other mode, outside a git repository, and
nothing else of it is refused. -/
def RepeatsWorktree (input : CreateDirectoryGrant) (isGit : Bool) : Prop :=
  isGit = false ∧
  (∃ modes, input.workspaceModes = some modes ∧ 2 ≤ modes.length ∧
    ∀ mode ∈ modes, mode = .worktree) ∧
  input.defaultWorkspaceMode ≠ some .direct ∧ input.capabilities ≠ [] ∧
  ¬ (.write ∈ input.capabilities ∧ input.lockPolicy = some .none)

theorem chosenDefault_of_given (h : input.defaultWorkspaceMode = some mode) :
    input.chosenDefault modes = some mode := by
  rw [chosenDefault, h]
  rfl

theorem worktree_notMem_of_chosenDefault (homitted : input.defaultWorkspaceMode = none)
    (h : input.chosenDefault modes = some .direct) : .worktree ∉ modes := by
  intro hmem
  rw [chosenDefault, homitted, if_pos hmem] at h
  cases h

theorem given_of_modes (h : input.modes isGit = some modes) (hworktree : .worktree ∉ modes) :
    input.workspaceModes = some modes := by
  rw [CreateDirectoryGrant.modes] at h
  cases hgiven : input.workspaceModes with
  | some given =>
    rw [hgiven] at h
    exact h
  | none =>
    rw [hgiven] at h
    cases isGit with
    | false => cases h
    | true =>
      cases h
      exact absurd (List.mem_singleton.mpr rfl) hworktree

theorem chosenDefault_eq (h : modes ≠ []) :
    input.chosenDefault modes = some (input.documentedDefault modes) := by
  unfold chosenDefault documentedDefault
  cases input.defaultWorkspaceMode with
  | some mode => rfl
  | none =>
    cases modes with
    | nil => exact absurd rfl h
    | cons mode rest =>
      by_cases hworktree : WorkspaceMode.worktree ∈ mode :: rest
      · simp [hworktree]
      · cases mode with
        | worktree => simp at hworktree
        | direct => simp [hworktree]

theorem exists_policy_of_documented (h : input.Documented isGit) :
    ∃ policy, policyFromCreate input isGit = .ok policy := by
  obtain ⟨hcapabilities, ⟨modes, hmodes, hne, hdefault, hgit⟩, hlock⟩ := h
  have hraw : ¬ (modes = [.worktree] ∧ isGit = false) := by
    rintro ⟨rfl, hnot⟩
    exact hgit ⟨fun mode hmode => List.mem_singleton.mp hmode, hnot⟩
  exact ⟨_, policyFromCreate_eq_ok_iff.mpr ⟨modes, _, hmodes, chosenDefault_eq hne,
    chosenPolicy_eq_ok_iff.mpr ⟨hraw, ⟨hcapabilities, hdefault, hlock⟩, rfl⟩⟩⟩

theorem documented_of_policy {policy : DirectoryGrantPolicy}
    (h : policyFromCreate input isGit = .ok policy) (hrepeats : ¬ input.RepeatsWorktree isGit) :
    input.Documented isGit := by
  obtain ⟨modes, defaultMode, hmodes, hchosen, hpolicy⟩ := policyFromCreate_eq_ok_iff.mp h
  obtain ⟨hraw, ⟨hcapabilities, hmem, hlock⟩, -⟩ := chosenPolicy_eq_ok_iff.mp hpolicy
  have hne : modes ≠ [] := List.ne_nil_of_mem hmem
  have hsame : input.documentedDefault modes = defaultMode := by
    rw [chosenDefault_eq hne] at hchosen
    exact Option.some.inj hchosen
  refine ⟨hcapabilities, ⟨modes, hmodes, hne, hsame ▸ hmem, ?_⟩, hlock⟩
  rintro ⟨hall, hgit⟩
  have hgiven : input.workspaceModes = some modes := by
    rw [CreateDirectoryGrant.modes, hgit] at hmodes
    simpa using hmodes
  have hlength : 2 ≤ modes.length := by
    cases modes with
    | nil => exact absurd rfl hne
    | cons mode rest =>
      cases rest with
      | nil =>
        have hmode : mode = .worktree := hall mode (List.mem_singleton.mpr rfl)
        exact absurd ⟨by rw [hmode], hgit⟩ hraw
      | cons next rest => simp
  have hdefault : input.defaultWorkspaceMode ≠ some .direct := by
    intro hdirect
    have hmode : defaultMode = .direct := by
      rw [← hsame, documentedDefault, hdirect]
      rfl
    have hworktree := hall defaultMode hmem
    simp [hmode] at hworktree
  exact hrepeats ⟨hgit, ⟨modes, hgiven, hlength, hall⟩, hdefault, hcapabilities, hlock⟩

theorem exists_policy_of_repeats (h : input.RepeatsWorktree isGit) :
    (∃ policy, policyFromCreate input isGit = .ok policy) ∧ ¬ input.Documented isGit := by
  obtain ⟨hgit, ⟨modes, hgiven, hlength, hall⟩, hdefault, hcapabilities, hlock⟩ := h
  have hmodes : input.modes isGit = some modes := by
    rw [CreateDirectoryGrant.modes, hgiven]
    rfl
  have hne : modes ≠ [] := by
    rintro rfl
    simp at hlength
  have hworktree : WorkspaceMode.worktree ∈ modes := by
    obtain ⟨mode, hmode⟩ := List.exists_mem_of_ne_nil modes hne
    exact hall mode hmode ▸ hmode
  have hmem : input.documentedDefault modes ∈ modes := by
    unfold documentedDefault
    cases hgivenDefault : input.defaultWorkspaceMode with
    | none => simp [hworktree]
    | some mode =>
      cases mode with
      | worktree => exact hworktree
      | direct => exact absurd hgivenDefault hdefault
  have hraw : ¬ (modes = [.worktree] ∧ isGit = false) := by
    rintro ⟨rfl, -⟩
    simp at hlength
  refine ⟨⟨_, policyFromCreate_eq_ok_iff.mpr ⟨modes, _, hmodes, chosenDefault_eq hne,
    chosenPolicy_eq_ok_iff.mpr ⟨hraw, ⟨hcapabilities, hmem, hlock⟩, rfl⟩⟩⟩, ?_⟩
  rintro ⟨-, ⟨modes', hmodes', -, -, hnot⟩, -⟩
  rw [hmodes, Option.some.injEq] at hmodes'
  exact hnot ⟨hmodes' ▸ hall, hgit⟩

/-- The creation of a grant accepts exactly the documented policies and does not panic, unless
the list of modes is empty with no default given, or repeats `worktree` alone. -/
theorem policyFromCreate_documented_iff (input : CreateDirectoryGrant) (isGit : Bool) :
    (policyFromCreate input isGit ≠ .error .panic ∧
      ((∃ policy, policyFromCreate input isGit = .ok policy) ↔ input.Documented isGit)) ↔
    ¬ (input.workspaceModes = some [] ∧ input.defaultWorkspaceMode = none) ∧
      ¬ input.RepeatsWorktree isGit := by
  constructor
  · rintro ⟨hpanic, hexact⟩
    refine ⟨fun hempty => hpanic (policyFromCreate_panic_iff.mpr hempty), fun hrepeats => ?_⟩
    obtain ⟨haccepted, hnot⟩ := exists_policy_of_repeats hrepeats
    exact hnot (hexact.mp haccepted)
  · rintro ⟨hempty, hrepeats⟩
    refine ⟨fun hpanic => hempty (policyFromCreate_panic_iff.mp hpanic), ?_,
      exists_policy_of_documented⟩
    rintro ⟨policy, hpolicy⟩
    exact documented_of_policy hpolicy hrepeats

def readRequest (modes : List WorkspaceMode) : CreateDirectoryGrant :=
  ⟨"acme", "reviewer", "/srv/repo", [.read], some modes, none, none, none, none⟩

theorem empty_modes_panic :
    ¬ (policyFromCreate (readRequest []) true ≠ .error .panic ∧
      ((∃ policy, policyFromCreate (readRequest []) true = .ok policy) ↔
        (readRequest []).Documented true)) := by
  rintro ⟨hpanic, -⟩
  exact hpanic rfl

end CreateDirectoryGrant

end Policy

section Stored
variable {s t : Store} {now : String} {fs : Filesystem} {input : CreateDirectoryGrant}
  {grant : DirectoryGrant}

def Store.GrantIdFree (s : Store) : Prop :=
  ∀ r ∈ s.grants, r.value.id ≠ "" ∧ r.value.id ≠ rowKey "dir_" (nextRowid s.grants)

theorem insertGrant_free (hs : s.GrantIdFree) (path : String) (policy : DirectoryGrantPolicy) :
    s.insertGrant input.productId input.agentId path policy now =
      .ok (rowKey "dir_" (nextRowid s.grants), s.withGrant (input.toGrant path policy now)) := by
  have hfree : ¬ s.grants.any (fun r => decide (r.value.id = "" ∨
      r.value.id = rowKey "dir_" (nextRowid s.grants))) := by
    rw [List.any_eq_true]
    rintro ⟨r, hr, hid⟩
    rcases of_decide_eq_true hid with hid | hid
    · exact (hs r hr).1 hid
    · exact (hs r hr).2 hid
  simp only [Store.insertGrant, if_neg hfree]
  rfl

theorem insertGrant_taken (hs : ¬ s.GrantIdFree) (path : String) (policy : DirectoryGrantPolicy) :
    s.insertGrant input.productId input.agentId path policy now = .error .constraint := by
  have htaken : s.grants.any (fun r => decide (r.value.id = "" ∨
      r.value.id = rowKey "dir_" (nextRowid s.grants))) := by
    simp only [Store.GrantIdFree, not_forall] at hs
    obtain ⟨r, hr, hid⟩ := hs
    rw [List.any_eq_true]
    refine ⟨r, hr, decide_eq_true ?_⟩
    by_contra hnot
    exact hid (not_or.mp hnot)
  simp only [Store.insertGrant, if_pos htaken]

theorem findGrant_free (hs : s.GrantIdFree) (path : String) (policy : DirectoryGrantPolicy) :
    (s.withGrant (input.toGrant path policy now)).findGrant (rowKey "dir_" (nextRowid s.grants)) =
      some (input.toGrant path policy now (nextRowid s.grants)) := by
  have hnone : s.findGrant (rowKey "dir_" (nextRowid s.grants)) = none := by
    apply lookup_none.mpr
    intro r hr
    simpa using (hs r hr).2
  simp only [findGrant] at hnone
  simp [findGrant, Store.withGrant, lookup_insert, hnone, CreateDirectoryGrant.toGrant]

theorem runAlone_createGrant_ok_iff :
    runAlone (GrantStore.create fs input) now s = (.ok grant, t) ↔
      ∃ path policy, canonicalizeGrantPath fs input.path = .ok path ∧
        policyFromCreate input (isGitRepository fs path) = .ok policy ∧ s.GrantIdFree ∧
        input.toGrant (fs.toStringLossy path) policy now (nextRowid s.grants) = grant ∧
        s.withGrant (input.toGrant (fs.toStringLossy path) policy now) = t := by
  rw [runAlone_createGrant_eq]
  unfold grantDecision
  cases hpath : canonicalizeGrantPath fs input.path with
  | error e => simp
  | ok path =>
    cases hpolicy : policyFromCreate input (isGitRepository fs path) with
    | error e => simp [hpolicy]
    | ok policy =>
      simp only [mapError_ok, ok_bind, hpolicy, pure, Except.pure, Except.ok.injEq]
      by_cases hfree : s.GrantIdFree
      · simp only [insertGrant_free hfree, runAlone_getGrant, findGrant_free hfree,
          Prod.mk.injEq, Except.ok.injEq]
        constructor
        · rintro ⟨hgrant, ht⟩
          exact ⟨path, policy, rfl, hpolicy, hfree, hgrant, ht⟩
        · rintro ⟨_, policy', rfl, hpolicy', -, hgrant, ht⟩
          obtain rfl : policy = policy' := Except.ok.inj (hpolicy.symm.trans hpolicy')
          exact ⟨hgrant, ht⟩
      · simp [insertGrant_taken hfree, hfree]

end Stored

section Handler
variable {x y : EventState} {inputs : ℕ → ServiceStep.Input} {fs : Filesystem} {auth : ProductAuth}
  {request : DirectoriesApi.CreateDirectoryGrantRequest} {directory : DirectoryGrant}

/-- What the handler of the creation asks of the agent. -/
def DirectoriesApi.CreateDirectoryGrantRequest.agentRequest
    (request : DirectoriesApi.CreateDirectoryGrantRequest) : AgentAuthorizationRequest :=
  ⟨request.productId, request.agentId, none, none, none,
    (request.defaultWorkspaceMode.getD .worktree).forAgent⟩

/-- The same question for the default mode of a stored grant. -/
def DirectoryGrant.defaultRequest (grant : DirectoryGrant) : AgentAuthorizationRequest :=
  ⟨grant.productId, grant.agentId, none, none, none, grant.defaultWorkspaceMode.forAgent⟩

theorem returns_createDirectory :
    Returns (DirectoriesApi.create fs auth request) inputs x directory y ↔
      .directoriesGrant ∈ auth.scopes ∧ auth.productId = request.productId ∧
      (UsesDirect request.workspaceModes request.defaultWorkspaceMode →
        .directoriesGrant ∈ auth.scopes ∧ .directoriesDirect ∈ auth.scopes) ∧
      (∃ profile, x.store.findProfile request.agentId = some profile ∧
        ProfileStore.check profile request.agentRequest = .ok ()) ∧
      ∃ t, runAlone (GrantStore.create fs request.into) (inputs 1).now x.store =
        (.ok directory, t) ∧ { x with store := t } = y := by
  unfold DirectoriesApi.create
  rw [returns_requireScope, returns_ensureProduct, returns_checkUnit, requireDirectScope_eq_ok,
    returns_authorizeAgent]
  have hlast : Returns (DirectoriesApi.grantStore (.create fs request.into)) (later inputs) x
      directory y ↔ _ := returns_grantStore
  constructor
  · rintro ⟨hscope, hproduct, hdirect, profile, hfind, hcheck, h⟩
    exact ⟨hscope, hproduct, hdirect, ⟨profile, hfind, hcheck⟩, hlast.mp h⟩
  · rintro ⟨hscope, hproduct, hdirect, ⟨profile, hfind, hcheck⟩, h⟩
    exact ⟨hscope, hproduct, hdirect, profile, hfind, hcheck, hlast.mpr h⟩

/-- The request lists `direct` alone and names no default, for an agent that may not work in the
directory itself, and nothing else of it is refused. -/
structure DefaultsToDirect (s : Store) (fs : Filesystem) (auth : ProductAuth)
    (request : DirectoriesApi.CreateDirectoryGrantRequest) : Prop where
  scopes : .directoriesGrant ∈ auth.scopes ∧ .directoriesDirect ∈ auth.scopes
  product : auth.productId = request.productId
  agent : ∃ profile, s.findProfile request.agentId = some profile ∧
    profile.ownerProductId = request.productId ∧
    profile.executionPolicy.allowDirectDirectory = false
  omitted : request.defaultWorkspaceMode = none
  modes : ∃ modes, request.workspaceModes = some modes ∧ modes ≠ [] ∧ .worktree ∉ modes
  path : ∃ path, canonicalizeGrantPath fs request.path = .ok path
  capabilities : request.capabilities ≠ []
  locked : ¬ (.write ∈ request.capabilities ∧ request.lockPolicy = some .none)
  free : s.GrantIdFree

theorem authorize_defaultRequest_iff {s : Store} {profile : AgentProfile} {now : String}
    (hfind : s.findProfile directory.agentId = some profile) :
    (∃ p, runAlone (ProfileStore.authorize directory.defaultRequest) now s = (.ok p, s)) ↔
      profile.ownerProductId = directory.productId ∧
      (directory.defaultWorkspaceMode = .direct →
        profile.executionPolicy.allowDirectDirectory = true) := by
  have hauthorize : (∃ p, runAlone (ProfileStore.authorize directory.defaultRequest) now s =
      (.ok p, s)) ↔ ProfileStore.check profile directory.defaultRequest = .ok () :=
    runAlone_authorizeProfile_ok_iff hfind
  rw [hauthorize, check_ok_iff]
  simp [DirectoryGrant.defaultRequest, forAgent_eq_direct]

theorem DefaultsToDirect.returns (h : DefaultsToDirect x.store fs auth request)
    (inputs : ℕ → ServiceStep.Input) :
    ∃ directory y, Returns (DirectoriesApi.create fs auth request) inputs x directory y ∧
      directory.agentId = request.agentId ∧ directory.defaultWorkspaceMode = .direct ∧
      y.store.findProfile request.agentId = x.store.findProfile request.agentId := by
  obtain ⟨profile, hfind, howner, -⟩ := h.agent
  obtain ⟨modes, hmodes, hne, hworktree⟩ := h.modes
  obtain ⟨path, hpath⟩ := h.path
  have hdirect : WorkspaceMode.direct ∈ modes := by
    obtain ⟨mode, hmode⟩ := List.exists_mem_of_ne_nil modes hne
    cases mode with
    | worktree => exact absurd hmode hworktree
    | direct => exact hmode
  have hdefault : request.into.documentedDefault modes = .direct := by
    simp [CreateDirectoryGrant.documentedDefault, DirectoriesApi.CreateDirectoryGrantRequest.into,
      h.omitted, hworktree]
  have hraw : ¬ (modes = [.worktree] ∧ isGitRepository fs path = false) := by
    rintro ⟨rfl, -⟩
    exact hworktree (List.mem_singleton.mpr rfl)
  have hgiven : request.into.modes (isGitRepository fs path) = some modes := by
    simp [CreateDirectoryGrant.modes, DirectoriesApi.CreateDirectoryGrantRequest.into, hmodes]
  have hchosen : request.into.chosenDefault modes = some .direct := by
    rw [CreateDirectoryGrant.chosenDefault_eq hne, hdefault]
  have hpolicy := CreateDirectoryGrant.policyFromCreate_eq_ok_iff.mpr ⟨modes, .direct, hgiven,
    hchosen, CreateDirectoryGrant.chosenPolicy_eq_ok_iff.mpr
      ⟨hraw, ⟨h.capabilities, hdirect, h.locked⟩, rfl⟩⟩
  have hcheck : ProfileStore.check profile request.agentRequest = .ok () := by
    rw [check_ok_iff]
    simp [DirectoriesApi.CreateDirectoryGrantRequest.agentRequest, howner, h.omitted,
      WorkspaceMode.forAgent]
  have hstored : runAlone (GrantStore.create fs request.into) (inputs 1).now x.store =
      (.ok _, _) := runAlone_createGrant_ok_iff.mpr ⟨path, _, hpath, hpolicy, h.free, rfl, rfl⟩
  exact ⟨_, _, returns_createDirectory.mpr ⟨h.scopes.1, h.product, fun _ => h.scopes,
    ⟨profile, hfind, hcheck⟩, _, hstored, rfl⟩, rfl, rfl, rfl⟩

theorem defaultsToDirect_of_returns {profile : AgentProfile}
    (h : Returns (DirectoriesApi.create fs auth request) inputs x directory y)
    (hfind : x.store.findProfile request.agentId = some profile)
    (hdirect : directory.defaultWorkspaceMode = .direct)
    (hdenied : profile.executionPolicy.allowDirectDirectory = false) :
    DefaultsToDirect x.store fs auth request := by
  obtain ⟨hscope, hproduct, hscopes, ⟨found, hfound, hcheck⟩, t, hstored, -⟩ :=
    returns_createDirectory.mp h
  obtain rfl : found = profile := Option.some.inj (hfound.symm.trans hfind)
  obtain ⟨howner, -, -, -, hallowed⟩ := check_ok_iff.mp hcheck
  obtain ⟨path, policy, hpath, hpolicy, hfree, rfl, -⟩ := runAlone_createGrant_ok_iff.mp hstored
  obtain ⟨modes, mode, hmodes, hchosen, hrest⟩ :=
    CreateDirectoryGrant.policyFromCreate_eq_ok_iff.mp hpolicy
  obtain ⟨-, ⟨hcapabilities, hmem, hlock⟩, rfl⟩ :=
    CreateDirectoryGrant.chosenPolicy_eq_ok_iff.mp hrest
  obtain rfl : mode = .direct := hdirect
  have hne : modes ≠ [] := List.ne_nil_of_mem hmem
  -- A default that was given would have been refused by the agent, or is not the one stored.
  have homitted : request.defaultWorkspaceMode = none := by
    cases hdefault : request.defaultWorkspaceMode with
    | none => rfl
    | some given =>
      have hstored : request.into.chosenDefault modes = some given :=
        CreateDirectoryGrant.chosenDefault_of_given hdefault
      obtain rfl : given = .direct := Option.some.inj (hstored.symm.trans hchosen)
      have hallows := hallowed (by
        simp [DirectoriesApi.CreateDirectoryGrantRequest.agentRequest, hdefault,
          WorkspaceMode.forAgent])
      simp [hdenied] at hallows
  have hworktree := CreateDirectoryGrant.worktree_notMem_of_chosenDefault homitted hchosen
  have hgiven := CreateDirectoryGrant.given_of_modes hmodes hworktree
  have huses : UsesDirect request.workspaceModes request.defaultWorkspaceMode :=
    .inl ⟨modes, hgiven, hmem⟩
  exact ⟨hscopes huses, hproduct, ⟨found, hfind, howner, hdenied⟩, homitted,
    ⟨modes, hgiven, hne, hworktree⟩, ⟨path, hpath⟩, hcapabilities, hlock, hfree⟩

theorem DefaultsToDirect.unauthorized (h : DefaultsToDirect x.store fs auth request)
    (inputs : ℕ → ServiceStep.Input) :
    ∃ directory y, Returns (DirectoriesApi.create fs auth request) inputs x directory y ∧
      ∀ now, ¬ ∃ profile, runAlone (ProfileStore.authorize directory.defaultRequest) now y.store =
        (.ok profile, y.store) := by
  obtain ⟨directory, y, hreturns, hagent, hdirect, hsame⟩ := h.returns inputs
  obtain ⟨profile, hfind, -, hdenied⟩ := h.agent
  have hstored : y.store.findProfile directory.agentId = some profile := by
    rw [hagent, hsame, hfind]
  refine ⟨directory, y, hreturns, fun now hauthorized => ?_⟩
  have hallowed := ((authorize_defaultRequest_iff hstored).mp hauthorized).2 hdirect
  simp [hdenied] at hallowed

/-- The default mode of a grant that is created is one its agent may use, except that a request
for `direct` alone that names no default is checked as if it were for `worktree`. -/
theorem created_default_authorized_iff (x : EventState) (inputs : ℕ → ServiceStep.Input)
    (fs : Filesystem) (auth : ProductAuth)
    (request : DirectoriesApi.CreateDirectoryGrantRequest) :
    (∀ directory y, Returns (DirectoriesApi.create fs auth request) inputs x directory y →
      ∀ now, ∃ profile,
        runAlone (ProfileStore.authorize directory.defaultRequest) now y.store =
          (.ok profile, y.store)) ↔
      ¬ DefaultsToDirect x.store fs auth request := by
  constructor
  · intro hauthorized hdefaults
    obtain ⟨directory, y, hreturns, hnot⟩ := hdefaults.unauthorized inputs
    exact hnot "" (hauthorized directory y hreturns "")
  · intro hnot directory y hreturns now
    obtain ⟨-, -, -, ⟨profile, hfind, hcheck⟩, t, hstored, rfl⟩ :=
      returns_createDirectory.mp hreturns
    obtain ⟨path, policy, -, -, -, rfl, rfl⟩ := runAlone_createGrant_ok_iff.mp hstored
    refine (authorize_defaultRequest_iff hfind).mpr
      ⟨(check_ok_iff.mp hcheck).1, fun hdirect => ?_⟩
    by_contra hdenied
    exact hnot (defaultsToDirect_of_returns hreturns hfind hdirect (by simpa using hdenied))

end Handler

def worktreeAgentState : EventState := .start { Store.empty with profiles := [sampleProfile] }

def directAuth : ProductAuth := ⟨"acme", [.directoriesGrant, .directoriesDirect]⟩

def directRequest : DirectoriesApi.CreateDirectoryGrantRequest :=
  ⟨"acme", "reviewer", "/srv/repo", [.read], some [.direct], none, none, none, none⟩

theorem direct_default_unauthorized :
    ¬ ∀ directory y,
      Returns (DirectoriesApi.create sampleFilesystem directAuth directRequest)
        (fun _ => sampleInput "t1") worktreeAgentState directory y →
      ∀ now, ∃ profile,
        runAlone (ProfileStore.authorize directory.defaultRequest) now y.store =
          (.ok profile, y.store) := by
  have hdefaults : DefaultsToDirect worktreeAgentState.store sampleFilesystem directAuth
      directRequest :=
    { scopes := ⟨by decide, by decide⟩
      product := rfl
      agent := ⟨sampleProfile, rfl, rfl, rfl⟩
      omitted := rfl
      modes := ⟨[.direct], rfl, by decide, by decide⟩
      path := ⟨"/srv/repo", by decide⟩
      capabilities := by decide
      locked := by decide
      free := by
        intro r hr
        cases hr }
  intro hauthorized
  obtain ⟨directory, y, hreturns, hnot⟩ := hdefaults.unauthorized fun _ => sampleInput "t1"
  exact hnot "" (hauthorized directory y hreturns "")

end OpenDaemon
