import OpenDaemon.DisjointPatches
import OpenDaemon.GrantCreation
import OpenDaemon.GrantPolicies
import OpenDaemon.MergePatch

/-!
# Patches of one row at once

Each `patch` reads a row, merges its values into what it has read and writes all columns back,
in steps of their own. The transaction holds the `UPDATE` only, so that a patch which commits
between the two is written over; run alone, a patch does what the method does
(`run_patchProduct`). No update is lost while every `UPDATE` carries what the patch makes of the
row as it stands.
-/

namespace OpenDaemon

open Runs Interleaving DisjointPatches RowTable Store

section Products

inductive ProductStep
  | clock
  | selectProduct (id : String)
  | updateProduct (id : String) (updated : Product)

namespace ProductStep

@[reducible] def Row : ProductStep → Type
  | .clock => String
  | .selectProduct _ => Option Product
  | .updateProduct .. => Unit

@[reducible] def Answer (q : ProductStep) : Type := Except SqlError q.Row

def attempt (now : String) : (q : ProductStep) → ProductDb → q.Row × ProductDb
  | .clock, db => (now, db)
  | .selectProduct id, db => (db.findProduct id, db)
  | .updateProduct id updated, db => ((), db.updateProduct id updated)

def exec (q : ProductStep) (input : DbStep.Input) (db : ProductDb) : q.Answer × ProductDb :=
  match input with
  | .ioError => (.error .failure, db)
  | .proceed now => (.ok (q.attempt now db).1, (q.attempt now db).2)

end ProductStep

abbrev ProductCall (α : Type) : Type := Call ProductStep ProductStep.Answer ProductStoreError α

namespace ProductCalls

def send (q : ProductStep) : ProductCall q.Row :=
  .step q fun
    | .ok row => .ret row
    | .error _ => .fail .store

def getProduct (productId : String) : ProductCall Product := do
  match ← send (.selectProduct productId) with
  | some product => return product
  | none => .fail (.product .productNotFound)

def patchProduct (productId : String) (patch : PatchProduct) : ProductCall Product := do
  Call.ofExcept (patch.validate.mapError .product)
  let current ← getProduct productId
  let now ← send .clock
  send (.updateProduct productId (patch.apply current now))
  getProduct productId

theorem run_patchProduct (productId : String) (patch : PatchProduct) (now : String)
    (db : ProductDb) :
    (patchProduct productId patch).run ProductStep.exec (fun _ => .proceed now) db =
      ⟨(ProductStore.patchProduct productId patch now db).1,
        (ProductStore.patchProduct productId patch now db).2, fun _ => .proceed now⟩ := by
  unfold patchProduct
  cases hvalid : patch.validate with
  | error e =>
    have hmethod : ProductStore.patchProduct productId patch now db =
        (.error (.product e), db) := by
      simp [ProductStore.patchProduct, hvalid]
    rw [hmethod]
    rfl
  | ok _ =>
    cases hfind : db.findProduct productId with
    | none =>
      have hmethod : ProductStore.patchProduct productId patch now db =
          (.error (.product .productNotFound), db) := by
        simp [ProductStore.patchProduct, ProductStore.getProduct, hvalid, hfind]
      rw [hmethod]
      simp [Call.ofExcept, getProduct, send, Call.run_step, ProductStep.exec, ProductStep.attempt,
        hfind]
    | some current =>
      have hread := findProduct_patched hfind (patch.apply current now)
      rw [patchProduct_ok hvalid hfind]
      simp [Call.ofExcept, getProduct, send, Call.run_step, ProductStep.exec, ProductStep.attempt,
        hfind, hread]

end ProductCalls

end Products

section Reads

def DbStep.Reads : DbStep → Prop
  | .clock | .selectGrant _ | .selectProfile _ => True
  | _ => False

theorem reads_exec (q : DbStep) (hq : q.Reads) (input : DbStep.Input) (s : Store) :
    (q.exec input s).2 = s := by
  cases input with
  | ioError => rfl
  | proceed now =>
    cases q with
    | clock | selectGrant _ | selectProfile _ => rfl
    | _ => exact hq.elim

theorem reads_query {ε : Type} {q : DbStep} (hq : q.Reads) (onError : SqlError → ε) :
    (q.query onError).Uses DbStep.Reads := by
  refine ⟨hq, fun answer => ?_⟩
  cases answer with
  | ok row => trivial
  | error e => trivial

theorem reads_clock {ε : Type} (onError : SqlError → ε) :
    (DbStep.clock.query onError).Uses DbStep.Reads := by
  refine reads_query ?_ onError
  trivial

theorem reads_getGrant (id : String) : (GrantStore.get id).Uses DbStep.Reads := by
  refine (reads_query (q := .selectGrant id) trivial _).bind fun row => ?_
  cases row with
  | none => trivial
  | some grant => trivial

theorem reads_getProfile (id : String) : (ProfileStore.get id).Uses DbStep.Reads := by
  refine (reads_query (q := .selectProfile id) trivial _).bind fun row => ?_
  cases row with
  | none => trivial
  | some profile => trivial

theorem result_query {ε α : Type} {q : DbStep} {onError : SqlError → ε}
    {f : q.Row → Call DbStep DbStep.Answer ε α} {inputs : ℕ → DbStep.Input} {s : Store} {a : α}
    (h : ((q.query onError >>= f).run DbStep.exec inputs s).result = .ok a) :
    ∃ now row t rest, q.attempt now s = .ok (row, t) ∧
      ((f row).run DbStep.exec rest t).result = .ok a := by
  unfold DbStep.query at h
  rw [Call.step_bind, Call.run_step] at h
  obtain ⟨e, he⟩ | ⟨now, row, t, hattempt, he⟩ := exec_cases q (inputs 0) s
  · rw [he] at h
    cases h
  · rw [he] at h
    exact ⟨now, row, t, _, hattempt, h⟩

theorem mem_steps_query {ε : Type} {q : DbStep} {onError : SqlError → ε}
    {inputs : ℕ → DbStep.Input} {s : Store} {x : DbStep × Store}
    (hx : x ∈ (q.query onError).steps DbStep.exec inputs s) : x = (q, s) := by
  refine mem_steps_single (fun answer => ?_) hx
  cases answer with
  | ok row => trivial
  | error e => trivial

end Reads

section Grants
variable {s : Store} {directoryId now : String} {changes other : PatchDirectoryGrant}
  {policy : DirectoryGrantPolicy} {grant : DirectoryGrant}

/-- The patches set different fields. -/
structure PatchDirectoryGrant.Apart (changes other : PatchDirectoryGrant) : Prop where
  capabilities : DisjointPatches.Apart changes.capabilities other.capabilities
  workspaceModes : DisjointPatches.Apart changes.workspaceModes other.workspaceModes
  defaultWorkspaceMode :
    DisjointPatches.Apart changes.defaultWorkspaceMode other.defaultWorkspaceMode
  lockPolicy : DisjointPatches.Apart changes.lockPolicy other.lockPolicy
  directModeRequiresExplicitTaskOptIn :
    DisjointPatches.Apart changes.directModeRequiresExplicitTaskOptIn
      other.directModeRequiresExplicitTaskOptIn
  allowRemoteExecution :
    DisjointPatches.Apart changes.allowRemoteExecution other.allowRemoteExecution

/-- The grant has the value of each field that the patch sets; lists are stored as sets. -/
structure PatchDirectoryGrant.Applied (changes : PatchDirectoryGrant) (grant : DirectoryGrant) :
    Prop where
  capabilities : Has collectCapabilities changes.capabilities grant.capabilities
  workspaceModes : Has collectWorkspaceModes changes.workspaceModes grant.workspaceModes
  defaultWorkspaceMode : Has id changes.defaultWorkspaceMode grant.defaultWorkspaceMode
  lockPolicy : Has id changes.lockPolicy grant.lockPolicy
  directModeRequiresExplicitTaskOptIn : Has id changes.directModeRequiresExplicitTaskOptIn
    grant.directModeRequiresExplicitTaskOptIn
  allowRemoteExecution : Has id changes.allowRemoteExecution grant.allowRemoteExecution

theorem collectCapabilities_collectCapabilities (capabilities : List DirectoryCapability) :
    collectCapabilities (collectCapabilities capabilities) = collectCapabilities capabilities := by
  refine List.filter_congr fun c _ => ?_
  simp

theorem collectWorkspaceModes_collectWorkspaceModes (modes : List WorkspaceMode) :
    collectWorkspaceModes (collectWorkspaceModes modes) = collectWorkspaceModes modes := by
  refine List.filter_congr fun m _ => ?_
  simp

theorem applied_withPolicy (h : changes.apply grant.policy = .ok policy) :
    changes.Applied (grant.withPolicy policy now) := by
  obtain ⟨-, rfl⟩ := DirectoryGrantPolicy.new_eq_ok_iff.mp h
  exact ⟨has_written, has_written, has_written, has_written, has_written, has_written⟩

theorem applied_kept (h : other.Applied grant) (hapart : other.Apart changes)
    (happly : changes.apply grant.policy = .ok policy) :
    other.Applied (grant.withPolicy policy now) := by
  obtain ⟨-, rfl⟩ := DirectoryGrantPolicy.new_eq_ok_iff.mp happly
  exact {
    capabilities := h.capabilities.kept hapart.capabilities collectCapabilities_collectCapabilities
    workspaceModes :=
      h.workspaceModes.kept hapart.workspaceModes collectWorkspaceModes_collectWorkspaceModes
    defaultWorkspaceMode :=
      h.defaultWorkspaceMode.kept hapart.defaultWorkspaceMode fun _ => rfl
    lockPolicy := h.lockPolicy.kept hapart.lockPolicy fun _ => rfl
    directModeRequiresExplicitTaskOptIn := h.directModeRequiresExplicitTaskOptIn.kept
      hapart.directModeRequiresExplicitTaskOptIn fun _ => rfl
    allowRemoteExecution := h.allowRemoteExecution.kept hapart.allowRemoteExecution fun _ => rfl }

/-- The `UPDATE` of a patch carries what the patch makes of the row as it stands. -/
def GrantOp.WritesCurrent (s : Store) : GrantOp → DbStep → Prop
  | .patch id changes, .updateGrant _ policy _ =>
    ∃ current, s.findGrant id = some current ∧ changes.apply current.policy = .ok policy
  | _, _ => True

theorem findGrant_patched (hfind : s.findGrant directoryId = some grant)
    (policy : DirectoryGrantPolicy) (now : String) :
    (s.updateGrant directoryId policy now).findGrant directoryId =
      some (grant.withPolicy policy now) := by
  rw [findGrant_updateGrant, hfind]
  simp [findGrant_id hfind]

theorem PatchDirectoryGrant.Apart.symm (h : changes.Apart other) : other.Apart changes :=
  ⟨h.1.symm, h.2.symm, h.3.symm, h.4.symm, h.5.symm, h.6.symm⟩

theorem patchGrant_injective : Function.Injective (GrantOp.patch directoryId) := by
  intro changes other h
  exact (GrantOp.patch.inj h).2

theorem safe_patchGrant {patches : List PatchDirectoryGrant}
    (hapart : patches.Pairwise PatchDirectoryGrant.Apart) {i : ℕ} (hi : patches[i]? = some changes) :
    SafePatch DbStep.exec (GrantOp.patch directoryId) (fun s => s.findGrant directoryId)
      PatchDirectoryGrant.Applied GrantOp.WritesCurrent patches changes i
      (GrantStore.patch directoryId changes) := by
  unfold GrantStore.patch
  split
  · intro s g _ _ a ha
    cases ha
  · refine safe_read ((reads_getGrant directoryId).mono reads_exec) fun current =>
      safe_check fun policy => safe_read ((reads_clock _).mono reads_exec) fun now => ?_
    refine safe_overwrite patchGrant_injective hapart (fun _ _ => .symm) hi ?_ ?_
    · rintro s input ⟨row, hfind, happly⟩
      cases input with
      | ioError => exact .inl ⟨rfl, _, rfl⟩
      | proceed at_ =>
        exact .inr ⟨row, _, hfind, findGrant_patched hfind policy now, applied_withPolicy happly,
          fun other hother h => applied_kept h hother happly⟩
    · intro answer
      cases answer with
      | ok row => exact (reads_getGrant directoryId).mono reads_exec
      | error e => trivial

theorem result_getGrant {inputs : ℕ → DbStep.Input}
    (h : ((GrantStore.get directoryId).run DbStep.exec inputs s).result = .ok grant) :
    s.findGrant directoryId = some grant := by
  obtain ⟨now, row, t, rest, hread, hrest⟩ := result_query h
  obtain ⟨rfl, rfl⟩ := Prod.mk.inj (Except.ok.inj hread)
  cases hfind : s.findGrant directoryId with
  | none =>
    rw [hfind] at hrest
    cases hrest
  | some found =>
    rw [hfind] at hrest
    rw [Except.ok.inj hrest]

theorem grant_writesCurrent_of_reads {q : DbStep} (hq : q.Reads) :
    GrantOp.WritesCurrent s (.patch directoryId changes) q := by
  cases q with
  | updateGrant _ _ _ => exact hq.elim
  | _ => trivial

theorem patchGrant_alone {inputs : ℕ → DbStep.Input} :
    ∀ x ∈ (GrantStore.patch directoryId changes).steps DbStep.exec inputs s,
      GrantOp.WritesCurrent x.2 (.patch directoryId changes) x.1 := by
  intro x hx
  unfold GrantStore.patch at hx
  split at hx
  · cases hx
  · obtain hread | ⟨current, _, hget, hx⟩ :=
      mem_steps_read ((reads_getGrant directoryId).mono reads_exec) hx
    · exact grant_writesCurrent_of_reads ((reads_getGrant directoryId).of_mem_steps hread)
    · obtain ⟨policy, hpolicy, hx⟩ := mem_steps_check hx
      obtain hread | ⟨now, _, -, hx⟩ := mem_steps_read ((reads_clock _).mono reads_exec) hx
      · exact grant_writesCurrent_of_reads ((reads_clock _).of_mem_steps hread)
      · obtain hwrite | ⟨_, t, _, -, hread⟩ := Call.mem_steps_bind hx
        · obtain rfl := mem_steps_query hwrite
          exact ⟨current, result_getGrant hget, Call.mapError_eq_ok.mp hpolicy⟩
        · exact grant_writesCurrent_of_reads ((reads_getGrant directoryId).of_mem_steps hread)

end Grants

section Profiles
variable {s : Store} {agentId now : String} {changes other : PatchAgentProfile}
  {profile : AgentProfile}

structure PatchAgentProfile.Apart (changes other : PatchAgentProfile) : Prop where
  name : DisjointPatches.Apart changes.name other.name
  providerId : DisjointPatches.Apart changes.providerId other.providerId
  model : DisjointPatches.Apart changes.model other.model
  instructions : DisjointPatches.Apart changes.instructions other.instructions
  executionPolicy : DisjointPatches.Apart changes.executionPolicy other.executionPolicy
  providerConfig : DisjointPatches.Apart changes.providerConfig other.providerConfig

structure PatchAgentProfile.Applied (changes : PatchAgentProfile) (profile : AgentProfile) :
    Prop where
  name : Has id changes.name profile.name
  providerId : Has id changes.providerId profile.providerId
  model : Has id changes.model profile.model
  instructions : Has id changes.instructions profile.instructions
  executionPolicy : Has id changes.executionPolicy profile.executionPolicy
  providerConfig : Has id changes.providerConfig profile.providerConfig

theorem applied_withColumns : changes.Applied (profile.withColumns (changes.apply profile) now) :=
  ⟨has_written, has_written, has_written, has_written, has_written, has_written⟩

theorem applied_withColumns_kept (h : other.Applied profile) (hapart : other.Apart changes) :
    other.Applied (profile.withColumns (changes.apply profile) now) where
  name := h.name.kept hapart.name fun _ => rfl
  providerId := h.providerId.kept hapart.providerId fun _ => rfl
  model := h.model.kept hapart.model fun _ => rfl
  instructions := h.instructions.kept hapart.instructions fun _ => rfl
  executionPolicy := h.executionPolicy.kept hapart.executionPolicy fun _ => rfl
  providerConfig := h.providerConfig.kept hapart.providerConfig fun _ => rfl

def ProfileOp.WritesCurrent (s : Store) : ProfileOp → DbStep → Prop
  | .patch id changes, .updateProfile _ next _ =>
    ∃ current, s.findProfile id = some current ∧ changes.apply current = next
  | _, _ => True

theorem PatchAgentProfile.Apart.symm (h : changes.Apart other) : other.Apart changes :=
  ⟨h.1.symm, h.2.symm, h.3.symm, h.4.symm, h.5.symm, h.6.symm⟩

theorem patchProfile_injective : Function.Injective (ProfileOp.patch agentId) := by
  intro changes other h
  exact (ProfileOp.patch.inj h).2

theorem safe_patchProfile {patches : List PatchAgentProfile}
    (hapart : patches.Pairwise PatchAgentProfile.Apart) {i : ℕ} (hi : patches[i]? = some changes) :
    SafePatch DbStep.exec (ProfileOp.patch agentId) (fun s => s.findProfile agentId)
      PatchAgentProfile.Applied ProfileOp.WritesCurrent patches changes i
      (ProfileStore.patch agentId changes) := by
  unfold ProfileStore.patch
  split
  · intro s g _ _ a ha
    cases ha
  · refine safe_read ((reads_getProfile agentId).mono reads_exec) fun current =>
      safe_check fun _ => safe_read ((reads_clock _).mono reads_exec) fun now => ?_
    refine safe_overwrite patchProfile_injective hapart (fun _ _ => .symm) hi ?_ ?_
    · rintro s input ⟨row, hfind, hnext⟩
      rw [← hnext]
      cases input with
      | ioError => exact .inl ⟨rfl, _, rfl⟩
      | proceed at_ =>
        exact .inr ⟨row, _, hfind, findProfile_patched hfind, applied_withColumns,
          fun other hother h => applied_withColumns_kept h hother⟩
    · intro answer
      cases answer with
      | ok row => exact (reads_getProfile agentId).mono reads_exec
      | error e => trivial

theorem result_getProfile {inputs : ℕ → DbStep.Input}
    (h : ((ProfileStore.get agentId).run DbStep.exec inputs s).result = .ok profile) :
    s.findProfile agentId = some profile := by
  obtain ⟨now, row, t, rest, hread, hrest⟩ := result_query h
  obtain ⟨rfl, rfl⟩ := Prod.mk.inj (Except.ok.inj hread)
  cases hfind : s.findProfile agentId with
  | none =>
    rw [hfind] at hrest
    cases hrest
  | some found =>
    rw [hfind] at hrest
    rw [Except.ok.inj hrest]

theorem profile_writesCurrent_of_reads {q : DbStep} (hq : q.Reads) :
    ProfileOp.WritesCurrent s (.patch agentId changes) q := by
  cases q with
  | updateProfile _ _ _ => exact hq.elim
  | _ => trivial

theorem patchProfile_alone {inputs : ℕ → DbStep.Input} :
    ∀ x ∈ (ProfileStore.patch agentId changes).steps DbStep.exec inputs s,
      ProfileOp.WritesCurrent x.2 (.patch agentId changes) x.1 := by
  intro x hx
  unfold ProfileStore.patch at hx
  split at hx
  · cases hx
  · obtain hread | ⟨current, _, hget, hx⟩ :=
      mem_steps_read ((reads_getProfile agentId).mono reads_exec) hx
    · exact profile_writesCurrent_of_reads ((reads_getProfile agentId).of_mem_steps hread)
    · obtain ⟨_, -, hx⟩ := mem_steps_check hx
      obtain hread | ⟨now, _, -, hx⟩ := mem_steps_read ((reads_clock _).mono reads_exec) hx
      · exact profile_writesCurrent_of_reads ((reads_clock _).of_mem_steps hread)
      · obtain hwrite | ⟨_, t, _, -, hread⟩ := Call.mem_steps_bind hx
        · obtain rfl := mem_steps_query hwrite
          exact ⟨current, result_getProfile hget, rfl⟩
        · exact profile_writesCurrent_of_reads ((reads_getProfile agentId).of_mem_steps hread)

end Profiles

section ProductRows
variable {db : ProductDb} {productId now : String} {changes other : PatchProduct}
  {product : Product}

structure ProductPatch where
  productId : String
  patch : PatchProduct

def ProductPatch.program (op : ProductPatch) : ProductCall Product :=
  ProductCalls.patchProduct op.productId op.patch

abbrev ProductPool : Type :=
  Pool ProductDb ProductStep.Answer ProductStoreError fun _ : ProductPatch => Product

abbrev ProductAction : Type := Action ProductPatch DbStep.Input

def productPoolStep : ProductPool → ProductAction → Option ProductPool :=
  step ProductPatch.program ProductStep.exec

structure PatchProduct.Apart (changes other : PatchProduct) : Prop where
  displayName : DisjointPatches.Apart changes.displayName other.displayName
  description : DisjointPatches.Apart changes.description other.description
  status : DisjointPatches.Apart changes.status other.status

structure PatchProduct.Applied (changes : PatchProduct) (product : Product) : Prop where
  displayName : Has id changes.displayName product.displayName
  description : Has id changes.description product.description
  status : Has id changes.status product.status

theorem applied_product : changes.Applied (product.withColumns (changes.apply product now)) :=
  ⟨has_written, has_written, has_written⟩

theorem applied_product_kept (h : other.Applied product) (hapart : other.Apart changes) :
    other.Applied (product.withColumns (changes.apply product now)) where
  displayName := h.displayName.kept hapart.displayName fun _ => rfl
  description := h.description.kept hapart.description fun _ => rfl
  status := h.status.kept hapart.status fun _ => rfl

def ProductPatch.WritesCurrent (db : ProductDb) (op : ProductPatch) : ProductStep → Prop
  | .updateProduct _ updated => ∃ current, db.findProduct op.productId = some current ∧
      updated = op.patch.apply current updated.updatedAt
  | _ => True

theorem PatchProduct.Apart.symm (h : changes.Apart other) : other.Apart changes :=
  ⟨h.1.symm, h.2.symm, h.3.symm⟩

theorem productPatch_injective : Function.Injective (ProductPatch.mk productId) := by
  intro changes other h
  exact (ProductPatch.mk.inj h).2

def ProductStep.Reads : ProductStep → Prop
  | .clock | .selectProduct _ => True
  | .updateProduct .. => False

theorem product_reads_exec (q : ProductStep) (hq : q.Reads) (input : DbStep.Input)
    (db : ProductDb) : (q.exec input db).2 = db := by
  cases input with
  | ioError => rfl
  | proceed now =>
    cases q with
    | clock | selectProduct _ => rfl
    | updateProduct _ _ => exact hq.elim

theorem reads_sendProduct {q : ProductStep} (hq : q.Reads) :
    (ProductCalls.send q).Uses ProductStep.Reads := by
  refine ⟨hq, fun answer => ?_⟩
  cases answer with
  | ok row => trivial
  | error e => trivial

theorem reads_getProduct (productId : String) :
    (ProductCalls.getProduct productId).Uses ProductStep.Reads := by
  refine (reads_sendProduct (q := .selectProduct productId) trivial).bind fun row => ?_
  cases row with
  | none => trivial
  | some product => trivial

theorem reads_productClock : (ProductCalls.send .clock).Uses ProductStep.Reads := by
  refine reads_sendProduct ?_
  trivial

theorem mem_steps_sendProduct {q : ProductStep} {inputs : ℕ → DbStep.Input}
    {x : ProductStep × ProductDb}
    (hx : x ∈ (ProductCalls.send q).steps ProductStep.exec inputs db) : x = (q, db) := by
  refine mem_steps_single (fun answer => ?_) hx
  cases answer with
  | ok row => trivial
  | error e => trivial

theorem safe_patchProduct {patches : List PatchProduct}
    (hapart : patches.Pairwise PatchProduct.Apart) {i : ℕ} (hi : patches[i]? = some changes) :
    SafePatch ProductStep.exec (ProductPatch.mk productId) (fun db => db.findProduct productId)
      PatchProduct.Applied ProductPatch.WritesCurrent patches changes i
      (ProductCalls.patchProduct productId changes) := by
  unfold ProductCalls.patchProduct
  refine safe_check fun _ => safe_read ((reads_getProduct productId).mono product_reads_exec)
    fun current => safe_read (reads_productClock.mono product_reads_exec) fun now => ?_
  refine safe_overwrite productPatch_injective hapart (fun _ _ => .symm) hi ?_ ?_
  · rintro db input ⟨row, hfind, hupdated⟩
    rw [hupdated]
    cases input with
    | ioError => exact .inl ⟨rfl, _, rfl⟩
    | proceed at_ =>
      exact .inr ⟨row, _, hfind, findProduct_patched hfind _, applied_product,
        fun other hother h => applied_product_kept h hother⟩
  · intro answer
    cases answer with
    | ok row => exact (reads_getProduct productId).mono product_reads_exec
    | error e => trivial

theorem result_getProduct {inputs : ℕ → DbStep.Input}
    (h : ((ProductCalls.getProduct productId).run ProductStep.exec inputs db).result =
      .ok product) : db.findProduct productId = some product := by
  unfold ProductCalls.getProduct ProductCalls.send at h
  rw [Call.step_bind, Call.run_step] at h
  cases hinput : inputs 0 with
  | ioError =>
    rw [hinput] at h
    cases h
  | proceed now =>
    have hexec : (ProductStep.selectProduct productId).exec (.proceed now) db =
        (.ok (db.findProduct productId), db) := rfl
    rw [hinput, hexec] at h
    cases hfind : db.findProduct productId with
    | none =>
      rw [hfind] at h
      cases h
    | some found =>
      rw [hfind] at h
      rw [Except.ok.inj h]

theorem product_writesCurrent_of_reads {q : ProductStep} (hq : q.Reads) (op : ProductPatch) :
    op.WritesCurrent db q := by
  cases q with
  | updateProduct _ _ => exact hq.elim
  | _ => trivial

theorem patchProduct_alone {inputs : ℕ → DbStep.Input} :
    ∀ x ∈ (ProductCalls.patchProduct productId changes).steps ProductStep.exec inputs db,
      ProductPatch.WritesCurrent x.2 ⟨productId, changes⟩ x.1 := by
  intro x hx
  unfold ProductCalls.patchProduct at hx
  obtain ⟨_, -, hx⟩ := mem_steps_check hx
  obtain hread | ⟨current, _, hget, hx⟩ :=
    mem_steps_read ((reads_getProduct productId).mono product_reads_exec) hx
  · exact product_writesCurrent_of_reads ((reads_getProduct productId).of_mem_steps hread) _
  · obtain hread | ⟨now, _, -, hx⟩ := mem_steps_read (reads_productClock.mono product_reads_exec) hx
    · exact product_writesCurrent_of_reads (reads_productClock.of_mem_steps hread) _
    · obtain hwrite | ⟨_, t, _, -, hread⟩ := Call.mem_steps_bind hx
      · obtain rfl := mem_steps_sendProduct hwrite
        exact ⟨current, result_getProduct hget, rfl⟩
      · exact product_writesCurrent_of_reads ((reads_getProduct productId).of_mem_steps hread) _

end ProductRows

abbrev ProfilePool : Type := Pool Store DbStep.Answer AgentStoreError ProfileOp.Result

abbrev ProfileAction : Type := Action ProfileOp DbStep.Input

def profilePoolStep : ProfilePool → ProfileAction → Option ProfilePool :=
  step ProfileOp.program DbStep.exec

/-- In every interleaving of patches that set different fields of one row, as long as each is
written over the row as it stands, the row has the values of every patch that has returned. -/
theorem concurrent_patches_kept (s : Store) (db : ProductDb)
    (directoryId agentId productId : String) (grantPatches : List PatchDirectoryGrant)
    (profilePatches : List PatchAgentProfile) (productPatches : List PatchProduct) :
    (grantPatches.Pairwise PatchDirectoryGrant.Apart → ∀ p : GrantPool,
      Reaches grantPoolStep (Advances GrantOp.WritesCurrent)
        (started GrantOp.program s (grantPatches.map (.patch directoryId))) p →
      ∀ (i : ℕ) changes grant,
        p.threads[i]? = some ⟨.patch directoryId changes, .ret grant⟩ →
        ∃ row, p.shared.findGrant directoryId = some row ∧ changes.Applied row) ∧
    (profilePatches.Pairwise PatchAgentProfile.Apart → ∀ p : ProfilePool,
      Reaches profilePoolStep (Advances ProfileOp.WritesCurrent)
        (started ProfileOp.program s (profilePatches.map (.patch agentId))) p →
      ∀ (i : ℕ) changes profile,
        p.threads[i]? = some ⟨.patch agentId changes, .ret profile⟩ →
        ∃ row, p.shared.findProfile agentId = some row ∧ changes.Applied row) ∧
    (productPatches.Pairwise PatchProduct.Apart → ∀ p : ProductPool,
      Reaches productPoolStep (Advances ProductPatch.WritesCurrent)
        (started ProductPatch.program db (productPatches.map (.mk productId))) p →
      ∀ (i : ℕ) changes product,
        p.threads[i]? = some ⟨.mk productId changes, .ret product⟩ →
        ∃ row, p.shared.findProduct productId = some row ∧ changes.Applied row) := by
  refine ⟨?_, ?_, ?_⟩
  · intro hapart p hreach i changes grant hi
    exact applied_of_returned (fun j k hk => safe_patchGrant hapart hk) hreach hi
  · intro hapart p hreach i changes profile hi
    exact applied_of_returned (fun j k hk => safe_patchProfile hapart hk) hreach hi
  · intro hapart p hreach i changes product hi
    exact applied_of_returned (fun j k hk => safe_patchProduct hapart hk) hreach hi

section Samples

def acmeProducts : ProductDb := ⟨[⟨"acme", "Acme", .active, none, "t0", "t0"⟩], []⟩

def disableProduct : PatchProduct := ⟨none, none, some .disabled⟩

def describeProduct : PatchProduct := ⟨none, some (some "Tools"), none⟩

def disabledProduct : Product := ⟨"acme", "Acme", .disabled, none, "t0", "t1"⟩

def describedProduct : Product := ⟨"acme", "Acme", .disabled, some "Tools", "t0", "t2"⟩

theorem products_patched : Reaches productPoolStep (Advances ProductPatch.WritesCurrent)
    (started ProductPatch.program acmeProducts ([disableProduct, describeProduct].map (.mk "acme")))
    ⟨⟨[describedProduct], []⟩, [⟨.mk "acme" disableProduct, .ret disabledProduct⟩,
      ⟨.mk "acme" describeProduct, .ret describedProduct⟩]⟩ := by
  refine (reaches_alone 0 (fun _ => .proceed "t1") rfl patchProduct_alone).trans ?_
  refine (reaches_alone 1 (fun _ => .proceed "t2") rfl patchProduct_alone).trans ?_
  exact .refl

def withdrawDirect : PatchDirectoryGrant := ⟨none, some [.worktree], none, none, none, none⟩

def allowRemote : PatchDirectoryGrant := ⟨none, none, none, none, none, some true⟩

def bothModesGrant : DirectoryGrant :=
  { sampleGrant with workspaceModes := [.worktree, .direct] }

def twoModesStore : Store := { Store.empty with grants := [⟨1, bothModesGrant⟩] }

def worktreeGrant : DirectoryGrant := { sampleGrant with updatedAt := "t1" }

def remoteGrant : DirectoryGrant :=
  { sampleGrant with allowRemoteExecution := true, updatedAt := "t2" }

theorem grants_patched : Reaches grantPoolStep (Advances GrantOp.WritesCurrent)
    (started GrantOp.program twoModesStore ([withdrawDirect, allowRemote].map (.patch "dir_1")))
    ⟨{ Store.empty with grants := [⟨1, remoteGrant⟩] },
      [⟨.patch "dir_1" withdrawDirect, .ret worktreeGrant⟩,
        ⟨.patch "dir_1" allowRemote, .ret remoteGrant⟩]⟩ := by
  refine (reaches_alone 0 (fun _ => .proceed "t1") rfl patchGrant_alone).trans ?_
  refine (reaches_alone 1 (fun _ => .proceed "t2") rfl patchGrant_alone).trans ?_
  exact .refl

def renameAgent : PatchAgentProfile := ⟨some "Auditor", none, none, none, none, none⟩

def instructAgent : PatchAgentProfile := ⟨none, none, none, some (some "Be brief."), none, none⟩

def reviewerStore : Store := { Store.empty with profiles := [sampleProfile] }

def renamedProfile : AgentProfile :=
  { sampleProfile with name := "Auditor", updatedAt := "t1" }

def auditorProfile : AgentProfile :=
  { sampleProfile with name := "Auditor", instructions := some "Be brief.", updatedAt := "t2" }

theorem profiles_patched : Reaches profilePoolStep (Advances ProfileOp.WritesCurrent)
    (started ProfileOp.program reviewerStore ([renameAgent, instructAgent].map (.patch "reviewer")))
    ⟨{ Store.empty with profiles := [auditorProfile] },
      [⟨.patch "reviewer" renameAgent, .ret renamedProfile⟩,
        ⟨.patch "reviewer" instructAgent, .ret auditorProfile⟩]⟩ := by
  refine (reaches_alone 0 (fun _ => .proceed "t1") rfl patchProfile_alone).trans ?_
  refine (reaches_alone 1 (fun _ => .proceed "t2") rfl patchProfile_alone).trans ?_
  exact .refl

theorem withdrawDirect_apart :
    [withdrawDirect, allowRemote].Pairwise PatchDirectoryGrant.Apart := by
  refine List.pairwise_pair.mpr ?_
  exact ⟨.inl rfl, .inr rfl, .inl rfl, .inl rfl, .inl rfl, .inl rfl⟩

theorem concurrent_patches_kept_samples :
    withdrawDirect.Applied remoteGrant ∧ renameAgent.Applied auditorProfile ∧
      disableProduct.Applied describedProduct := by
  have hrename : [renameAgent, instructAgent].Pairwise PatchAgentProfile.Apart :=
    List.pairwise_pair.mpr ⟨.inr rfl, .inl rfl, .inl rfl, .inl rfl, .inl rfl, .inl rfl⟩
  have hdisable : [disableProduct, describeProduct].Pairwise PatchProduct.Apart :=
    List.pairwise_pair.mpr ⟨.inl rfl, .inl rfl, .inr rfl⟩
  refine ⟨?_, ?_, ?_⟩
  · obtain ⟨hgrants, -⟩ := concurrent_patches_kept twoModesStore acmeProducts "dir_1" "reviewer"
      "acme" [withdrawDirect, allowRemote] [] []
    obtain ⟨row, hrow, happlied⟩ := hgrants withdrawDirect_apart _ grants_patched 0
      withdrawDirect worktreeGrant rfl
    obtain rfl := Option.some.inj hrow
    exact happlied
  · obtain ⟨-, hprofiles, -⟩ := concurrent_patches_kept reviewerStore acmeProducts "dir_1"
      "reviewer" "acme" [] [renameAgent, instructAgent] []
    obtain ⟨row, hrow, happlied⟩ := hprofiles hrename _ profiles_patched 0 renameAgent
      renamedProfile rfl
    obtain rfl := Option.some.inj hrow
    exact happlied
  · obtain ⟨-, -, hproducts⟩ := concurrent_patches_kept Store.empty acmeProducts "dir_1"
      "reviewer" "acme" [] [] [disableProduct, describeProduct]
    obtain ⟨row, hrow, happlied⟩ := hproducts hdisable _ products_patched 0 disableProduct
      disabledProduct rfl
    obtain rfl := Option.some.inj hrow
    exact happlied

/-- Both patches read, then both write: the direct mode that was withdrawn is back. -/
theorem withdrawn_mode_restored : ∃ (p : GrantPool) (granted remote row : DirectoryGrant),
    Reaches grantPoolStep (Advances fun _ _ _ => True)
      (started GrantOp.program twoModesStore ([withdrawDirect, allowRemote].map (.patch "dir_1"))) p ∧
    p.threads = [⟨.patch "dir_1" withdrawDirect, .ret granted⟩,
      ⟨.patch "dir_1" allowRemote, .ret remote⟩] ∧
    withdrawDirect.Apart allowRemote ∧
    p.shared.findGrant "dir_1" = some row ∧ ¬ withdrawDirect.Applied row := by
  have hapart : withdrawDirect.Apart allowRemote := List.pairwise_pair.mp withdrawDirect_apart
  let restored : DirectoryGrant :=
    { bothModesGrant with allowRemoteExecution := true, updatedAt := "t2" }
  refine ⟨⟨{ Store.empty with grants := [⟨1, restored⟩] },
    [⟨.patch "dir_1" withdrawDirect, .ret worktreeGrant⟩,
      ⟨.patch "dir_1" allowRemote, .ret restored⟩]⟩, _, _, restored, ?_, rfl, hapart, rfl, ?_⟩
  · refine reaches_advance 0 (.proceed "t1") rfl trivial ?_
    refine reaches_advance 1 (.proceed "t1") rfl trivial ?_
    refine reaches_advance 0 (.proceed "t1") rfl trivial ?_
    refine reaches_advance 0 (.proceed "t1") rfl trivial ?_
    refine reaches_advance 0 (.proceed "t1") rfl trivial ?_
    refine reaches_advance 1 (.proceed "t2") rfl trivial ?_
    refine reaches_advance 1 (.proceed "t2") rfl trivial ?_
    refine reaches_advance 1 (.proceed "t2") rfl trivial ?_
    exact .refl
  · intro happlied
    have hmodes := happlied.workspaceModes [.worktree] rfl
    revert hmodes
    decide

end Samples

end OpenDaemon
