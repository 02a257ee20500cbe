import OpenDaemon.GrantCreation
import OpenDaemon.HandlerOwnership

/-!
# Direct mode and its scope

Requests that create, patch and delete grants are handled one after the other. A
grant gets the direct mode only from a request whose token may give it: the scope is
asked for by what the body says, and a body that says nothing of modes leaves them as
they were.
-/

namespace OpenDaemon

open RowTable Store Call Runs

section Change

/-- What a request does to the grants, where `permitted` says that its token may give the direct
mode. -/
inductive DirectChange (permitted : Prop) (s : Store) : Store → Prop
  | same : DirectChange permitted s s
  | created {mk : ℕ → DirectoryGrant}
      (hdefault : ∀ n, (mk n).defaultWorkspaceMode ∈ (mk n).workspaceModes)
      (hdirect : ∀ n, .direct ∈ (mk n).workspaceModes → permitted) :
      DirectChange permitted s (s.withGrant mk)
  | patched {id now : String} {current : DirectoryGrant} {policy : DirectoryGrantPolicy}
      (hfind : s.findGrant id = some current)
      (hdefault : policy.defaultWorkspaceMode ∈ policy.workspaceModes)
      (hdirect : .direct ∈ policy.workspaceModes → .direct ∈ current.workspaceModes ∨ permitted) :
      DirectChange permitted s (s.updateGrant id policy now)
  | deleted {id : String} : DirectChange permitted s (s.deleteGrant id)

/-- The default mode of every grant is one of its modes. -/
def Store.DefaultsListed (s : Store) : Prop :=
  ∀ id grant, s.findGrant id = some grant →
    grant.defaultWorkspaceMode ∈ grant.workspaceModes

variable {permitted : Prop} {s t : Store} {id : String} {grant : DirectoryGrant}

theorem findGrant_withGrant_cases {mk : ℕ → DirectoryGrant}
    (h : (s.withGrant mk).findGrant id = some grant) :
    s.findGrant id = some grant ∨ grant = mk (nextRowid s.grants) := by
  simp only [findGrant, Store.withGrant, lookup_insert, Option.or_eq_some_iff] at h
  rcases h with hold | ⟨-, hnew⟩
  · exact .inl hold
  · split_ifs at hnew
    exact .inr (Option.some.inj hnew).symm

theorem findGrant_updateGrant_cases {id' now : String} {policy : DirectoryGrantPolicy}
    (h : (s.updateGrant id' policy now).findGrant id = some grant) :
    s.findGrant id = some grant ∨
      ∃ old, id = id' ∧ s.findGrant id = some old ∧ grant = old.withPolicy policy now := by
  rw [findGrant_updateGrant] at h
  obtain ⟨old, hold, hgrant⟩ := Option.map_eq_some_iff.mp h
  by_cases hid : old.id = id'
  · rw [if_pos hid] at hgrant
    exact .inr ⟨old, (findGrant_id hold).symm.trans hid, hold, hgrant.symm⟩
  · rw [if_neg hid] at hgrant
    exact .inl (hgrant ▸ hold)

theorem findGrant_deleteGrant_of_some {id' : String}
    (h : (s.deleteGrant id').findGrant id = some grant) : s.findGrant id = some grant := by
  have hid : grant.id = id := findGrant_id h
  obtain ⟨r, hr, rfl, -⟩ := lookup_mem h
  have hne : id ≠ id' := by
    intro he
    have hkept := (List.mem_filter.mp hr).2
    simp [hid, he] at hkept
  have hsame : (s.deleteGrant id').findGrant id = s.findGrant id := by
    simp only [Store.findGrant, Store.deleteGrant]
    refine lookup_delete fun v hv hv' => ?_
    simp only [decide_eq_true_eq] at hv hv'
    exact hne (hv.symm.trans hv')
  rw [← hsame]
  exact h

theorem DirectChange.defaultsListed (h : DirectChange permitted s t) (hs : s.DefaultsListed) :
    t.DefaultsListed := by
  intro id grant hfind
  cases h with
  | same => exact hs id grant hfind
  | created hdefault hdirect =>
    rcases findGrant_withGrant_cases hfind with hold | rfl
    · exact hs id grant hold
    · exact hdefault _
  | patched hcurrent hdefault hdirect =>
    rcases findGrant_updateGrant_cases hfind with hold | ⟨old, -, -, rfl⟩
    · exact hs id grant hold
    · exact hdefault
  | deleted => exact hs id grant (findGrant_deleteGrant_of_some hfind)

theorem DirectChange.direct (h : DirectChange permitted s t) (hfind : t.findGrant id = some grant)
    (hgrant : .direct ∈ grant.workspaceModes) :
    (∃ old, s.findGrant id = some old ∧ .direct ∈ old.workspaceModes) ∨ permitted := by
  cases h with
  | same => exact .inl ⟨grant, hfind, hgrant⟩
  | created hdefault hdirect =>
    rcases findGrant_withGrant_cases hfind with hold | rfl
    · exact .inl ⟨grant, hold, hgrant⟩
    · exact .inr (hdirect _ hgrant)
  | patched hcurrent hdefault hdirect =>
    rcases findGrant_updateGrant_cases hfind with hold | ⟨old, rfl, hold, rfl⟩
    · exact .inl ⟨grant, hold, hgrant⟩
    · obtain rfl := Option.some.inj (hcurrent.symm.trans hold)
      rcases hdirect hgrant with hbefore | hpermitted
      · exact .inl ⟨_, hold, hbefore⟩
      · exact .inr hpermitted
  | deleted => exact .inl ⟨grant, findGrant_deleteGrant_of_some hfind, hgrant⟩

end Change

section Handlers
variable {ε α β : Type} {x : EventState} {P : EventState → Prop}

def Leaves (x : EventState) (P : EventState → Prop) (c : ApiCall ε α) : Prop :=
  ∀ inputs, P (c.run ApiStep.exec inputs x).state

theorem leaves_fail (hx : P x) (e : ε) : Leaves x P (.fail e : ApiCall ε α) := fun _ => hx

theorem leaves_check {r : Except ε β} {f : β → ApiCall ε α} (hx : P x)
    (h : ∀ b, r = .ok b → Leaves x P (f b)) : Leaves x P (ofExcept r >>= f) := by
  cases r with
  | ok b => exact h b rfl
  | error e => exact leaves_fail hx e

theorem leaves_checkUnit {ε' : Type} {r : Except ε' Unit} {g : ε' → ε} {f : Unit → ApiCall ε α}
    (hx : P x) (h : r = .ok () → Leaves x P (f ())) :
    Leaves x P (ofExcept (r.mapError g) >>= f) :=
  leaves_check hx fun _ hr => h (mapError_eq_ok.mp hr)

theorem leaves_getGrant {directoryId : String}
    {f : DirectoryGrant → ApiCall DirectoriesApi.ApiError α} (hx : P x)
    (h : ∀ grant, x.store.findGrant directoryId = some grant → Leaves x P (f grant)) :
    Leaves x P (DirectoriesApi.grantStore (.get directoryId) >>= f) := by
  intro inputs
  have hget := runAlone_getGrant directoryId (inputs 0).now x.store
  unfold DirectoriesApi.grantStore
  rw [step_bind, run_step]
  simp only [ApiStep.exec, RunStep.exec, ServiceStep.exec, GrantOp.program]
  cases hfind : x.store.findGrant directoryId with
  | none =>
    rw [hfind] at hget
    rw [hget]
    exact hx
  | some grant =>
    rw [hfind] at hget
    rw [hget]
    exact h grant hfind _

theorem leaves_authorizeAgent {request : AgentAuthorizationRequest}
    {f : AgentProfile → ApiCall DirectoriesApi.ApiError α} (hx : P x)
    (h : ∀ profile, Leaves x P (f profile)) :
    Leaves x P (DirectoriesApi.authorizeAgent request >>= f) := by
  intro inputs
  have hstate := runAlone_authorizeProfile_state request (inputs 0).now x.store
  unfold DirectoriesApi.authorizeAgent
  rw [step_bind, run_step]
  simp only [ApiStep.exec, RunStep.exec, ServiceStep.exec, ProfileOp.program]
  rw [hstate]
  cases (runAlone (ProfileStore.authorize request) (inputs 0).now x.store).1 with
  | error e => exact hx
  | ok profile => exact h profile _

theorem leaves_grantStore {op : GrantOp}
    (h : ∀ now, P { x with store := (runAlone op.program now x.store).2 }) :
    Leaves x P (DirectoriesApi.grantStore op) := by
  intro inputs
  unfold DirectoriesApi.grantStore
  rw [run_step]
  simp only [ApiStep.exec, RunStep.exec, ServiceStep.exec]
  cases (runAlone op.program (inputs 0).now x.store).1 with
  | error e => exact h (inputs 0).now
  | ok result => exact h (inputs 0).now

end Handlers

section Directories
variable {x : EventState} {auth : ProductAuth}

def ProductAuth.GivesDirect (auth : ProductAuth) : Prop :=
  .directoriesGrant ∈ auth.scopes ∧ .directoriesDirect ∈ auth.scopes

theorem policyFromCreate_listed {input : CreateDirectoryGrant} {isGit : Bool}
    {policy : DirectoryGrantPolicy} (h : policyFromCreate input isGit = .ok policy) :
    policy.defaultWorkspaceMode ∈ policy.workspaceModes ∧
      (.direct ∈ policy.workspaceModes →
        UsesDirect input.workspaceModes input.defaultWorkspaceMode) := by
  obtain ⟨modes, mode, hmodes, -, hpolicy⟩ :=
    CreateDirectoryGrant.policyFromCreate_eq_ok_iff.mp h
  obtain ⟨-, ⟨-, hmem, -⟩, rfl⟩ := CreateDirectoryGrant.chosenPolicy_eq_ok_iff.mp hpolicy
  simp only [mem_collectWorkspaceModes]
  refine ⟨hmem, fun hdirect => ?_⟩
  unfold CreateDirectoryGrant.modes at hmodes
  cases hgiven : input.workspaceModes with
  | some given =>
    obtain rfl : given = modes := by simpa [hgiven] using hmodes
    exact .inl ⟨given, rfl, hdirect⟩
  | none =>
    cases isGit with
    | false => simp [hgiven] at hmodes
    | true =>
      obtain rfl : [.worktree] = modes := by simpa [hgiven] using hmodes
      simp at hdirect

theorem apply_listed {changes : PatchDirectoryGrant} {policy policy' : DirectoryGrantPolicy}
    (h : changes.apply policy = .ok policy') :
    policy'.defaultWorkspaceMode ∈ policy'.workspaceModes ∧
      (.direct ∈ policy'.workspaceModes → .direct ∈ policy.workspaceModes ∨
        UsesDirect changes.workspaceModes changes.defaultWorkspaceMode) := by
  obtain ⟨⟨-, hmem, -⟩, rfl⟩ := DirectoryGrantPolicy.new_eq_ok_iff.mp h
  simp only [mem_collectWorkspaceModes]
  refine ⟨hmem, fun hdirect => ?_⟩
  cases hgiven : changes.workspaceModes with
  | some given =>
    rw [hgiven] at hdirect
    exact .inr (.inl ⟨given, rfl, hdirect⟩)
  | none =>
    rw [hgiven] at hdirect
    exact .inl hdirect

theorem leaves_createDirectory (fs : Filesystem)
    (request : DirectoriesApi.CreateDirectoryGrantRequest) :
    Leaves x (fun y => DirectChange auth.GivesDirect x.store y.store)
      (DirectoriesApi.create fs auth request) := by
  have hx : DirectChange auth.GivesDirect x.store x.store := .same
  refine leaves_checkUnit hx fun _ => leaves_checkUnit hx fun _ => leaves_checkUnit hx
    fun hscopes => leaves_authorizeAgent hx fun _ => leaves_grantStore fun now => ?_
  have hdirect := requireDirectScope_eq_ok.mp hscopes
  simp only [GrantOp.program]
  rw [runAlone_createGrant_eq]
  cases hdecision : grantDecision fs request.into with
  | error e => exact hx
  | ok decision =>
    obtain ⟨path, policy⟩ := decision
    simp only [grantDecision, bind_eq_ok, mapError_eq_ok, pure, Except.pure, Except.ok.injEq,
      Prod.mk.injEq] at hdecision
    obtain ⟨_, -, _, hpolicy, rfl, rfl⟩ := hdecision
    obtain ⟨hlisted, huses⟩ := policyFromCreate_listed hpolicy
    by_cases hfree : x.store.GrantIdFree
    · simp only [insertGrant_free hfree, runAlone_getGrant_state]
      exact .created (fun _ => hlisted) fun _ hmem => hdirect (huses hmem)
    · simp only [insertGrant_taken hfree]
      exact hx

theorem leaves_patchDirectory (parse : Value → Option DirectoriesApi.PatchDirectoryGrantRequest)
    (directoryId : String) (body : Value) :
    Leaves x (fun y => DirectChange auth.GivesDirect x.store y.store)
      (DirectoriesApi.patch parse auth directoryId body) := by
  have hx : DirectChange auth.GivesDirect x.store x.store := .same
  refine leaves_checkUnit hx fun _ => leaves_check hx fun _ _ => ?_
  cases parse body with
  | none => exact leaves_fail hx _
  | some request =>
    refine leaves_getGrant hx fun current hfind => leaves_checkUnit hx fun _ =>
      leaves_checkUnit hx fun hscopes => leaves_grantStore fun now => ?_
    have hdirect := requireDirectScope_eq_ok.mp hscopes
    simp only [GrantOp.program]
    rcases runAlone_patchGrant directoryId request.into now x.store with
      ⟨e, heq⟩ | ⟨found, policy, hfound, happly, heq⟩
    · rw [heq]
      exact hx
    · rw [heq]
      obtain ⟨hlisted, huses⟩ := apply_listed happly
      refine .patched hfound hlisted fun hmem => ?_
      rcases huses hmem with hbefore | hnow
      · exact .inl hbefore
      · exact .inr (hdirect hnow)

theorem leaves_deleteDirectory (directoryId : String) :
    Leaves x (fun y => DirectChange auth.GivesDirect x.store y.store)
      (DirectoriesApi.delete auth directoryId) := by
  have hx : DirectChange auth.GivesDirect x.store x.store := .same
  refine leaves_checkUnit hx fun _ => leaves_getGrant hx fun current hfind =>
    leaves_checkUnit hx fun _ => leaves_grantStore fun now => ?_
  simp only [GrantOp.program]
  rw [runAlone_deleteGrant]
  exact .deleted

end Directories

section Requests

inductive DirectoryRequest
  | create (request : DirectoriesApi.CreateDirectoryGrantRequest)
  | patch (directoryId : String) (body : Value)
  | delete (directoryId : String)

def DirectoryRequest.toApi : DirectoryRequest → ApiRequest
  | .create request => .createDirectory request
  | .patch directoryId body => .patchDirectory directoryId body
  | .delete directoryId => .deleteDirectory directoryId

structure DirectoryCall where
  host : ApiHost
  context : ProductAuthContext
  request : DirectoryRequest
  inputs : ℕ → ServiceStep.Input

def DirectoryCall.outcome (call : DirectoryCall) (x : EventState) :
    Outcome EventState ServiceStep.Input ApiFailure ApiResponse :=
  (call.request.toApi.handle call.host call.context).run ApiStep.exec call.inputs x

def directoryStep (x : EventState) (call : DirectoryCall) : Option EventState :=
  some (call.outcome x).state

variable {x : EventState}

theorem leaves_answering {ε α : Type} {P : EventState → Prop} {c : ApiCall ε α}
    (h : Leaves x P c) (fail : ε → ApiFailure) (reply : α → ApiResponse) :
    Leaves x P (answering fail reply c) := by
  intro inputs
  have hc := h inputs
  unfold answering
  rw [run_bind, run_mapError]
  cases hrun : c.run ApiStep.exec inputs x with
  | mk result state rest =>
    rw [hrun] at hc
    cases result with
    | error e => exact hc
    | ok a => exact hc

theorem directChange_outcome (call : DirectoryCall) (x : EventState) :
    DirectChange call.context.auth.GivesDirect x.store (call.outcome x).state.store := by
  unfold DirectoryCall.outcome
  cases call.request with
  | create request => exact leaves_answering (leaves_createDirectory _ request) _ _ _
  | patch directoryId body => exact leaves_answering (leaves_patchDirectory _ _ body) _ _ _
  | delete directoryId => exact leaves_answering (leaves_deleteDirectory directoryId) _ _ _

theorem defaultsListed_reaches {x₀ : EventState} (h₀ : x₀.store.grants = [])
    (h : Reaches directoryStep (fun _ _ => True) x₀ x) : x.store.DefaultsListed := by
  refine h.invariant (I := fun x => x.store.DefaultsListed) ?_ ?_
  · intro id grant hfind
    simp [findGrant, lookup, h₀] at hfind
  · rintro y call z hy - hstep
    obtain rfl := Option.some.inj hstep
    exact (directChange_outcome call y).defaultsListed hy

/-- Along every sequence of requests a grant gets the direct mode only from a token with both
scopes, and it defaults to `direct` only while it has that mode. -/
theorem direct_mode_scoped {x₀ x : EventState} (h₀ : x₀.store.grants = [])
    (h : Reaches directoryStep (fun _ _ => True) x₀ x) :
    (∀ id grant, x.store.findGrant id = some grant → grant.defaultWorkspaceMode = .direct →
      .direct ∈ grant.workspaceModes) ∧
    ∀ (call : DirectoryCall) id grant,
      (call.outcome x).state.store.findGrant id = some grant → .direct ∈ grant.workspaceModes →
      (¬ ∃ old, x.store.findGrant id = some old ∧ .direct ∈ old.workspaceModes) →
      .directoriesGrant ∈ call.context.scopes ∧ .directoriesDirect ∈ call.context.scopes := by
  constructor
  · intro id grant hfind hdefault
    have hlisted := defaultsListed_reaches h₀ h id grant hfind
    rw [hdefault] at hlisted
    exact hlisted
  · intro call id grant hfind hgrant hbefore
    exact ((directChange_outcome call x).direct hfind hgrant).resolve_left hbefore

def directCall : DirectoryCall where
  host := ⟨sampleFilesystem, fun _ => none, fun _ => none⟩
  context := ⟨"token_1", "acme", [.directoriesGrant, .directoriesDirect]⟩
  request := .create directRequest
  inputs := fun _ => sampleInput "t1"

theorem direct_mode_scoped_created : ∃ grant,
    (directCall.outcome worktreeAgentState).state.store.findGrant "dir_1" = some grant ∧
    grant.defaultWorkspaceMode = .direct ∧ .direct ∈ grant.workspaceModes ∧
    .directoriesDirect ∈ directCall.context.scopes := by
  have hmode : ((directCall.outcome worktreeAgentState).state.store.findGrant "dir_1").map
      (fun grant => grant.defaultWorkspaceMode) = some .direct := by
    decide +kernel
  obtain ⟨grant, hfind, hdefault⟩ := Option.map_eq_some_iff.mp hmode
  have hstart : Reaches directoryStep (fun _ _ => True) worktreeAgentState worktreeAgentState :=
    .refl
  have hreach := hstart.tail (a := directCall) trivial rfl
  have hdirect := (direct_mode_scoped rfl hreach).1 "dir_1" grant hfind hdefault
  have hnone : worktreeAgentState.store.findGrant "dir_1" = none := rfl
  refine ⟨grant, hfind, hdefault, hdirect,
    ((direct_mode_scoped rfl hstart).2 directCall "dir_1" grant hfind hdirect ?_).2⟩
  rintro ⟨old, hold, -⟩
  rw [hnone] at hold
  cases hold

end Requests

end OpenDaemon
