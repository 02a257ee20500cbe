import OpenDaemon.GrantIdentity
import OpenDaemon.Interleaving

/-!
# The policy of stored grants

Calls that create, change and delete grants run at once, interleaved at their
store steps. `DirectoryGrantPolicy::new` stands between the requests and the
table. It refuses the lock policy `none` for a grant with `write` only, although
a grant is read-only if it has neither `write` nor `shell` nor `git`.
-/

namespace OpenDaemon

open Runs Interleaving RowTable Store

section Policy

/-- The position in the declaration, by which `Ord` compares. -/
def DirectoryCapability.rank : DirectoryCapability → ℕ
  | .read => 0
  | .write => 1
  | .shell => 2
  | .git => 3

def WorkspaceMode.rank : WorkspaceMode → ℕ
  | .worktree => 0
  | .direct => 1

def ReadOnly (capabilities : List DirectoryCapability) : Prop :=
  .write ∉ capabilities ∧ .shell ∉ capabilities ∧ .git ∉ capabilities

/-- What the grant policy asks of a stored grant. -/
structure DirectoryGrantPolicy.Sound (policy : DirectoryGrantPolicy) : Prop where
  capabilities : policy.capabilities ≠ []
  capabilityOrder : policy.capabilities.Pairwise fun a b => a.rank < b.rank
  modes : policy.workspaceModes ≠ []
  modeOrder : policy.workspaceModes.Pairwise fun a b => a.rank < b.rank
  defaultMode : policy.defaultWorkspaceMode ∈ policy.workspaceModes
  unlocked : policy.lockPolicy = .none → ReadOnly policy.capabilities

def LocksCommands (capabilities : List DirectoryCapability) (lockPolicy : DirectoryLockPolicy) :
    Prop :=
  lockPolicy = .none → .shell ∉ capabilities ∧ .git ∉ capabilities

theorem collectCapabilities_sorted (capabilities : List DirectoryCapability) :
    (collectCapabilities capabilities).Pairwise fun a b => a.rank < b.rank := by
  have hall : [DirectoryCapability.read, .write, .shell, .git].Pairwise
      fun a b => a.rank < b.rank := by decide
  exact hall.filter _

theorem collectWorkspaceModes_sorted (modes : List WorkspaceMode) :
    (collectWorkspaceModes modes).Pairwise fun a b => a.rank < b.rank := by
  have hall : [WorkspaceMode.worktree, .direct].Pairwise fun a b => a.rank < b.rank := by decide
  exact hall.filter _

theorem DirectoryGrantPolicy.validate_ok {policy : DirectoryGrantPolicy} {u : Unit}
    (h : policy.validate = .ok u) : policy.defaultWorkspaceMode ∈ policy.workspaceModes ∧
      ¬ (.write ∈ policy.capabilities ∧ policy.lockPolicy = .none) := by
  simp only [validate, Call.ite_error_eq_ok, not_or, not_not] at h
  obtain ⟨-, ⟨-, hdefault⟩, hlock, -⟩ := h
  exact ⟨hdefault, hlock⟩

theorem DirectoryGrantPolicy.sound_of_new_ok {capabilities : List DirectoryCapability}
    {modes : List WorkspaceMode} {defaultMode : WorkspaceMode} {lockPolicy : DirectoryLockPolicy}
    {optIn remote : Bool} {policy : DirectoryGrantPolicy}
    (h : DirectoryGrantPolicy.new capabilities modes defaultMode lockPolicy optIn remote =
      .ok policy) (hlocks : LocksCommands capabilities lockPolicy) : policy.Sound := by
  simp only [new, normalizeCapabilities, normalizeWorkspaceModes, Call.bind_eq_ok,
    Call.ite_error_eq_ok, List.isEmpty_iff] at h
  obtain ⟨_, ⟨hcapabilities, hcollected⟩, _, ⟨hmodes, hcollected'⟩, _, hvalid, hpolicy⟩ := h
  obtain rfl := Except.ok.inj hcollected
  obtain rfl := Except.ok.inj hcollected'
  obtain rfl := Except.ok.inj hpolicy
  obtain ⟨hdefault, hlock⟩ := validate_ok hvalid
  refine ⟨hcapabilities, collectCapabilities_sorted _, hmodes, collectWorkspaceModes_sorted _,
    hdefault, fun hnone => ?_⟩
  obtain ⟨hshell, hgit⟩ := hlocks hnone
  simp only [ReadOnly, mem_collectCapabilities]
  exact ⟨fun hwrite => hlock ⟨mem_collectCapabilities.mpr hwrite, hnone⟩, hshell, hgit⟩

theorem new_of_policyFromCreate {input : CreateDirectoryGrant} {isGit : Bool}
    {policy : DirectoryGrantPolicy} (h : policyFromCreate input isGit = .ok policy) :
    ∃ modes defaultMode optIn remote, DirectoryGrantPolicy.new input.capabilities modes defaultMode
      (input.lockPolicy.getD (if .write ∈ input.capabilities then .exclusive else .shared))
      optIn remote = .ok policy := by
  have hends : ∀ {c : Prop} [Decidable c] {modes : List WorkspaceMode} {defaultMode : WorkspaceMode},
      (if c then .error (.security .invalidWorkspaceMode)
      else (DirectoryGrantPolicy.new input.capabilities modes defaultMode
        (input.lockPolicy.getD (if .write ∈ input.capabilities then .exclusive else .shared))
        (input.directModeRequiresExplicitTaskOptIn.getD true)
        (input.allowRemoteExecution.getD false)).mapError DirectoryStoreError.security) =
          .ok policy →
      ∃ modes defaultMode optIn remote, DirectoryGrantPolicy.new input.capabilities modes defaultMode
        (input.lockPolicy.getD (if .write ∈ input.capabilities then .exclusive else .shared))
        optIn remote = .ok policy := by
    intro c _ modes defaultMode hend
    obtain ⟨-, hnew⟩ := Call.ite_error_eq_ok.mp hend
    exact ⟨modes, defaultMode, _, _, Call.mapError_eq_ok.mp hnew⟩
  simp only [policyFromCreate, Call.ok_bind, Call.error_bind] at h
  split at h
  · split at h
    · exact hends h
    · split at h
      · exact hends h
      · split at h
        · exact hends h
        · cases h
  · split at h
    · split at h
      · exact hends h
      · split at h
        · exact hends h
        · exact hends h
    · cases h

theorem sound_of_policyFromCreate {input : CreateDirectoryGrant} {isGit : Bool}
    {policy : DirectoryGrantPolicy} (h : policyFromCreate input isGit = .ok policy)
    (hlocks : ∀ lockPolicy ∈ input.lockPolicy, LocksCommands input.capabilities lockPolicy) :
    policy.Sound := by
  obtain ⟨modes, defaultMode, optIn, remote, hnew⟩ := new_of_policyFromCreate h
  refine DirectoryGrantPolicy.sound_of_new_ok hnew ?_
  cases hpolicy : input.lockPolicy with
  | some lockPolicy => exact hlocks lockPolicy hpolicy
  | none =>
    intro hnone
    simp only [Option.getD_none] at hnone
    split at hnone
    · cases hnone
    · cases hnone

end Policy

abbrev GrantPool : Type := Pool Store DbStep.Answer DirectoryStoreError GrantOp.Result

abbrev GrantAction : Type := Action GrantOp DbStep.Input

def grantPoolStep : GrantPool → GrantAction → Option GrantPool := step GrantOp.program DbStep.exec

/-- No request that is accepted asks for a grant with `shell` or `git` and without a lock: none
that creates one, and none that changes one, merged with the row that it reads. -/
def GrantsLocked (p : GrantPool) : GrantAction → Prop
  | .spawn (.create fs input) => ∀ path, canonicalizeGrantPath fs input.path = .ok path →
      (policyFromCreate input (isGitRepository fs path)).isOk →
      ∀ lockPolicy ∈ input.lockPolicy, LocksCommands input.capabilities lockPolicy
  | .spawn _ => True
  | .advance i _ => ∀ id changes current,
      p.threads[i]? = some ⟨.patch id changes, GrantStore.patch id changes⟩ →
      p.shared.findGrant id = some current → (changes.apply current.policy).isOk →
      LocksCommands (changes.capabilities.getD current.capabilities)
        (changes.lockPolicy.getD current.lockPolicy)

def Store.GrantsSound (s : Store) : Prop := ∀ r ∈ s.grants, r.value.policy.Sound

section Steps
variable {s : Store}

def DbStep.WritesSound : DbStep → Prop
  | .insertGrant _ _ _ policy _ => policy.Sound
  | .updateGrant _ policy _ => policy.Sound
  | .clock | .selectGrant _ | .deleteGrant _ => True
  | _ => False

theorem grantsSound_insertGrant {productId agentId path now : String}
    {policy : DirectoryGrantPolicy} {id : String} {s' : Store} (hs : s.GrantsSound)
    (hpolicy : policy.Sound) (h : s.insertGrant productId agentId path policy now = .ok (id, s')) :
    s'.GrantsSound := by
  simp only [Store.insertGrant, Call.ite_error_eq_ok] at h
  obtain ⟨-, rfl⟩ := Prod.mk.inj (Except.ok.inj h.2)
  intro r hr
  simp only [mem_insert] at hr
  rcases hr with hold | rfl
  · exact hs r hold
  · exact hpolicy

theorem grantsSound_updateGrant {policy : DirectoryGrantPolicy} (hs : s.GrantsSound)
    (hpolicy : policy.Sound) (id now : String) : (s.updateGrant id policy now).GrantsSound := by
  intro r hr
  obtain ⟨old, hold, rfl⟩ := List.mem_map.mp hr
  split
  · exact hpolicy
  · exact hs old hold

theorem grantsSound_exec {q : DbStep} (hs : s.GrantsSound) (hq : q.WritesSound)
    (input : DbStep.Input) : (q.exec input s).2.GrantsSound := by
  obtain ⟨e, he⟩ | ⟨now, row, s', ha, he⟩ := exec_cases q input s
  · rw [he]
    exact hs
  · rw [he]
    cases q with
    | insertGrant productId agentId path policy at_ => exact grantsSound_insertGrant hs hq ha
    | updateGrant id policy at_ =>
      obtain ⟨-, rfl⟩ := Prod.mk.inj (Except.ok.inj ha)
      exact grantsSound_updateGrant hs hq id at_
    | deleteGrant id =>
      obtain ⟨-, rfl⟩ := Prod.mk.inj (Except.ok.inj ha)
      exact fun r hr => hs r (List.mem_of_mem_filter hr)
    | clock | selectGrant _ =>
      obtain ⟨-, rfl⟩ := Prod.mk.inj (Except.ok.inj ha)
      exact hs
    | _ => exact hq.elim

theorem uses_send_sound {q : DbStep} (hq : q.WritesSound) :
    (GrantStore.send q).Uses DbStep.WritesSound :=
  DbStep.uses_query hq _

theorem uses_get_sound (id : String) : (GrantStore.get id).Uses DbStep.WritesSound := by
  refine (uses_send_sound (q := .selectGrant id) trivial).bind fun row => ?_
  cases row with
  | none => trivial
  | some grant => trivial

theorem uses_create_sound {fs : Filesystem} {input : CreateDirectoryGrant}
    (h : ∀ path, canonicalizeGrantPath fs input.path = .ok path →
      (policyFromCreate input (isGitRepository fs path)).isOk →
      ∀ lockPolicy ∈ input.lockPolicy, LocksCommands input.capabilities lockPolicy) :
    (GrantStore.create fs input).Uses DbStep.WritesSound := by
  unfold GrantStore.create
  cases hpath : canonicalizeGrantPath fs input.path with
  | error e => trivial
  | ok path =>
    cases hpolicy : policyFromCreate input (isGitRepository fs path) with
    | error e =>
      simp only [Call.mapError_ok, Call.ofExcept, Call.ret_bind, hpolicy, Call.fail_bind]
      trivial
    | ok policy =>
      simp only [Call.mapError_ok, Call.ofExcept, Call.ret_bind, hpolicy]
      have hsound : policy.Sound :=
        sound_of_policyFromCreate hpolicy (h path hpath (by rw [hpolicy]; rfl))
      refine (uses_send_sound (q := .clock) trivial).bind fun now => ?_
      refine (uses_send_sound (q := .insertGrant input.productId input.agentId _ policy now)
        hsound).bind fun id => uses_get_sound id

theorem uses_patched_sound {id : String} {changes : PatchDirectoryGrant} {current : DirectoryGrant}
    (h : (changes.apply current.policy).isOk → LocksCommands
      (changes.capabilities.getD current.capabilities)
      (changes.lockPolicy.getD current.lockPolicy)) :
    (do
      let policy ← Call.ofExcept ((changes.apply current.policy).mapError DirectoryStoreError.security)
      let now ← GrantStore.send .clock
      GrantStore.send (.updateGrant id policy now)
      GrantStore.get id : GrantCall DirectoryGrant).Uses DbStep.WritesSound := by
  cases happly : changes.apply current.policy with
  | error e => trivial
  | ok policy =>
    have hsound : policy.Sound := by
      refine DirectoryGrantPolicy.sound_of_new_ok happly (h ?_)
      rw [happly]
      rfl
    refine (uses_send_sound (q := .clock) trivial).bind fun now => ?_
    exact (uses_send_sound (q := .updateGrant id policy now) hsound).bind fun _ => uses_get_sound id

end Steps

/-- A patch that has not read its row yet, or a call that writes sound policies only. -/
inductive GrantThread.Sound : Thread DbStep.Answer DirectoryStoreError GrantOp.Result → Prop
  | unread (id : String) (changes : PatchDirectoryGrant) :
      GrantThread.Sound ⟨.patch id changes, GrantStore.patch id changes⟩
  | writes (op : GrantOp) (rest : GrantCall op.Result) (uses : rest.Uses DbStep.WritesSound) :
      GrantThread.Sound ⟨op, rest⟩

structure GrantPool.Sound (p : GrantPool) : Prop where
  grants : p.shared.GrantsSound
  threads : ∀ t ∈ p.threads, GrantThread.Sound t

section Pool
variable {p p' : GrantPool}

theorem spawned_sound {op : GrantOp} (h : GrantsLocked p (.spawn op)) :
    GrantThread.Sound ⟨op, op.program⟩ := by
  cases op with
  | get id => exact .writes _ _ (uses_get_sound id)
  | create fs input => exact .writes _ _ (uses_create_sound h)
  | patch id changes => exact .unread id changes
  | delete id =>
    refine .writes _ _ ((uses_send_sound (q := .deleteGrant id) trivial).bind fun changed => ?_)
    cases changed with
    | true => trivial
    | false => trivial
  | authorize request =>
    refine .writes _ _ ((uses_get_sound request.directoryId).bind fun grant => ?_)
    cases grant.authorize request with
    | ok u => trivial
    | error e => trivial

theorem patch_reads {id : String} {changes : PatchDirectoryGrant} {q : DbStep}
    {k : q.Answer → GrantCall DirectoryGrant} (hpatch : GrantStore.patch id changes = .step q k)
    (input : DbStep.Input) (s : Store)
    (h : ∀ current, s.findGrant id = some current → (changes.apply current.policy).isOk →
      LocksCommands (changes.capabilities.getD current.capabilities)
        (changes.lockPolicy.getD current.lockPolicy)) :
    q.WritesSound ∧ (k (q.exec input s).1).Uses DbStep.WritesSound := by
  unfold GrantStore.patch at hpatch
  split at hpatch
  · cases hpatch
  · change Call.step (DbStep.selectGrant id) _ = _ at hpatch
    cases hpatch
    refine ⟨trivial, ?_⟩
    obtain ⟨e, he⟩ | ⟨now, row, s', ha, he⟩ := exec_cases (.selectGrant id) input s
    · rw [he]
      trivial
    · rw [he]
      obtain ⟨rfl, -⟩ := Prod.mk.inj (Except.ok.inj ha)
      cases hfind : s.findGrant id with
      | none => trivial
      | some current => exact uses_patched_sound (h current hfind)

theorem GrantPool.Sound.step {a : GrantAction} (h : p.Sound) (ha : GrantsLocked p a)
    (hstep : grantPoolStep p a = some p') : p'.Sound := by
  obtain ⟨op, rfl, rfl⟩ | ⟨i, input, op, q, k, rfl, hi, rfl⟩ := step_cases hstep
  · refine ⟨h.grants, fun t ht => ?_⟩
    rcases List.mem_append.mp ht with hold | hnew
    · exact h.threads t hold
    · rw [List.mem_singleton.mp hnew]
      exact spawned_sound ha
  · have hnext : q.WritesSound ∧ (k (q.exec input p.shared).1).Uses DbStep.WritesSound := by
      have hthread := h.threads _ (List.mem_of_getElem? hi)
      generalize hT : (⟨op, .step q k⟩ : Thread DbStep.Answer DirectoryStoreError GrantOp.Result) = T
        at hthread
      cases hthread with
      | unread id changes =>
        obtain ⟨rfl, hrest⟩ := Thread.mk.inj hT
        have hpatch := (eq_of_heq hrest).symm
        refine patch_reads hpatch input p.shared fun current hfind hok => ?_
        refine ha id changes current ?_ hfind hok
        rw [hi, hpatch]
      | writes op' rest huses =>
        obtain ⟨rfl, hrest⟩ := Thread.mk.inj hT
        obtain rfl := eq_of_heq hrest
        exact ⟨huses.1, huses.2 _⟩
    refine ⟨grantsSound_exec h.grants hnext.1 input, fun t ht => ?_⟩
    rcases List.mem_or_eq_of_mem_set ht with hold | rfl
    · exact h.threads t hold
    · exact .writes _ _ hnext.2

end Pool

/-- In every interleaving of calls that ask for no grant with `shell` or `git` and without a
lock, every stored grant satisfies the grant policy. -/
theorem stored_grants_sound {s : Store} (hs : s.GrantsSound) {p : GrantPool}
    (h : Reaches grantPoolStep GrantsLocked ⟨s, []⟩ p) : p.shared.GrantsSound := by
  have hstart : GrantPool.Sound ⟨s, []⟩ := ⟨hs, fun t ht => absurd ht List.not_mem_nil⟩
  have hsound : p.Sound := by
    refine h.invariant hstart ?_
    intro q a q' hq ha hstep
    exact hq.step ha hstep
  exact hsound.grants

section Samples

def unlockedRequest (capabilities : List DirectoryCapability) : CreateDirectoryGrant :=
  { sampleGrantRequest with capabilities := capabilities, lockPolicy := some .none }

def createUnlocked (capabilities : List DirectoryCapability) : List GrantAction :=
  .spawn (.create sampleFilesystem (unlockedRequest capabilities)) ::
    List.replicate 3 (.advance 0 (.proceed "t1"))

instance (capabilities : List DirectoryCapability) (lockPolicy : DirectoryLockPolicy) :
    Decidable (LocksCommands capabilities lockPolicy) :=
  inferInstanceAs (Decidable (_ → _))

def grantsLocked (p : GrantPool) : GrantAction → Bool
  | .spawn (.create _ input) => input.lockPolicy.all fun lockPolicy =>
      decide (LocksCommands input.capabilities lockPolicy)
  | .spawn _ => true
  | .advance i _ =>
    match p.threads[i]? with
    | some ⟨.patch id changes, _⟩ => (p.shared.findGrant id).all fun current =>
        decide (LocksCommands (changes.capabilities.getD current.capabilities)
          (changes.lockPolicy.getD current.lockPolicy))
    | _ => true

theorem grantsLocked_sound {p : GrantPool} {a : GrantAction} (h : grantsLocked p a) :
    GrantsLocked p a := by
  cases a with
  | advance i input =>
    intro id changes current hi hfind _
    simp only [grantsLocked, hi, hfind, Option.all_some, decide_eq_true_eq] at h
    exact h
  | spawn op =>
    cases op with
    | create fs input =>
      intro path _ _ lockPolicy hlock
      simp only [grantsLocked, Option.mem_def.mp hlock, Option.all_some, decide_eq_true_eq] at h
      exact h
    | get _ | patch _ _ | delete _ | authorize _ => trivial

def lockAndWrite : PatchDirectoryGrant :=
  ⟨some [.write, .read, .write], none, none, some .exclusive, none, none⟩

theorem stored_grants_sound_patched : ∃ p : GrantPool,
    Reaches grantPoolStep GrantsLocked ⟨Store.empty, []⟩ p ∧
    p.shared.grants.map (fun r => (r.value.capabilities, r.value.lockPolicy)) =
      [([.read, .write], .exclusive)] ∧ p.shared.GrantsSound := by
  have hrun : (run (fun p a => if grantsLocked p a then grantPoolStep p a else none)
      ⟨Store.empty, []⟩ (createUnlocked [.read] ++ .spawn (.patch "dir_1" lockAndWrite) ::
        List.replicate 4 (.advance 1 (.proceed "t2")))).map (fun p =>
      p.shared.grants.map fun r => (r.value.capabilities, r.value.lockPolicy)) =
      some [([.read, .write], .exclusive)] := by decide
  obtain ⟨p, hp, hgrants⟩ := Option.map_eq_some_iff.mp hrun
  have hreach := reaches_of_run (fun _ _ => grantsLocked_sound) hp
  exact ⟨p, hreach, hgrants, stored_grants_sound (fun r hr => absurd hr List.not_mem_nil) hreach⟩

/-- A grant with `shell` is stored without a lock. -/
theorem unlockedShell_not_sound : ∃ p : GrantPool,
    run grantPoolStep ⟨Store.empty, []⟩ (createUnlocked [.shell]) = some p ∧
    p.shared.grants.map (fun r => (r.value.capabilities, r.value.lockPolicy)) =
      [([.shell], .none)] ∧ ¬ p.shared.GrantsSound := by
  have hrun : (run grantPoolStep ⟨Store.empty, []⟩ (createUnlocked [.shell])).map (fun p =>
      p.shared.grants.map fun r => (r.value.capabilities, r.value.lockPolicy)) =
      some [([.shell], .none)] := by decide
  obtain ⟨p, hp, hgrants⟩ := Option.map_eq_some_iff.mp hrun
  refine ⟨p, hp, hgrants, fun hsound => ?_⟩
  obtain ⟨r, hr, hcolumns⟩ := List.map_eq_singleton_iff.mp hgrants
  obtain ⟨hcapabilities, hlock⟩ := Prod.mk.inj hcolumns
  have hmem : r ∈ p.shared.grants := by
    rw [hr]
    exact List.mem_singleton_self r
  obtain ⟨-, hshell, -⟩ := (hsound r hmem).unlocked hlock
  change .shell ∉ r.value.capabilities at hshell
  rw [hcapabilities] at hshell
  exact hshell (List.mem_singleton_self _)

end Samples

end OpenDaemon
