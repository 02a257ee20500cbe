import OpenDaemon.CallRefinement
import OpenDaemon.StoreCalls

/-!
# Administrative calls run alone

What the creating, patching and deleting calls of the grant store and of the
profile store return and leave. None of them touches tasks, events or locks.
-/

namespace OpenDaemon

open RowTable Store

section Grants
variable {s : Store} {now : String}

def Store.GrantKeys (s : Store) : Prop := Keyed DirectoryGrant.id (rowKey "dir_") s.grants

def CreateDirectoryGrant.toGrant (input : CreateDirectoryGrant) (path : String)
    (policy : DirectoryGrantPolicy) (now : String) (rowid : ℕ) : DirectoryGrant :=
  ⟨rowKey "dir_" rowid, input.productId, input.agentId, path, policy.capabilities,
    policy.workspaceModes, policy.defaultWorkspaceMode, policy.lockPolicy,
    policy.directModeRequiresExplicitTaskOptIn, policy.allowRemoteExecution, now, now⟩

def grantDecision (fs : Filesystem) (input : CreateDirectoryGrant) :
    Except DirectoryStoreError (String × DirectoryGrantPolicy) := do
  let canonicalPath ← (canonicalizeGrantPath fs input.path).mapError .path
  let policy ← policyFromCreate input (isGitRepository fs canonicalPath)
  return (fs.toStringLossy canonicalPath, policy)

def Store.withGrant (s : Store) (mk : ℕ → DirectoryGrant) : Store :=
  { s with grants := insert s.grants mk }

theorem findGrant_id {id : String} {grant : DirectoryGrant} (h : s.findGrant id = some grant) :
    grant.id = id := by
  obtain ⟨-, -, -, hid⟩ := lookup_mem h
  simpa using hid

theorem findGrant_next (hs : s.GrantKeys) :
    s.findGrant (rowKey "dir_" (nextRowid s.grants)) = none := by
  refine lookup_none.mpr fun r hr => ?_
  have hne := hs.next_fresh (rowKey_injective _) hr
  simpa using hne

theorem findGrant_withGrant (hs : s.GrantKeys) {mk : ℕ → DirectoryGrant}
    (hmk : ∀ n, (mk n).id = rowKey "dir_" n) (id : String) :
    (s.withGrant mk).findGrant id = if id = rowKey "dir_" (nextRowid s.grants)
      then some (mk (nextRowid s.grants)) else s.findGrant id := by
  simp only [findGrant, Store.withGrant, lookup_insert, hmk]
  by_cases hid : id = rowKey "dir_" (nextRowid s.grants)
  · have hnone := findGrant_next hs
    simp only [findGrant] at hnone
    simp [hid, hnone]
  · have hne : ¬ rowKey "dir_" (nextRowid s.grants) = id := fun he => hid he.symm
    simp [hid, hne]

theorem runAlone_createGrant_eq (fs : Filesystem) (input : CreateDirectoryGrant) (now : String)
    (s : Store) :
    runAlone (GrantStore.create fs input) now s = match grantDecision fs input with
      | .error e => (.error e, s)
      | .ok (path, policy) =>
        match s.insertGrant input.productId input.agentId path policy now with
        | .error _ => (.error .store, s)
        | .ok (id, t) => runAlone (GrantStore.get id) now t := by
  have hclock : runAlone (GrantStore.send .clock) now s = (.ok now, s) := runAlone_query_ok rfl
  simp only [GrantStore.create, grantDecision, runAlone_ofExcept_bind, runAlone_bind_ok hclock]
  cases canonicalizeGrantPath fs input.path with
  | error e => rfl
  | ok path =>
    simp only [Call.mapError_ok, Call.ok_bind]
    cases policyFromCreate input (isGitRepository fs path) with
    | error e => rfl
    | ok policy =>
      simp only [Call.ok_bind, pure, Except.pure]
      cases hinsert : s.insertGrant input.productId input.agentId (fs.toStringLossy path) policy
          now with
      | error e =>
        have hsend : runAlone (GrantStore.send (.insertGrant input.productId input.agentId
            (fs.toStringLossy path) policy now)) now s = (.error .store, s) :=
          runAlone_query_error hinsert
        rw [runAlone_bind_error hsend]
      | ok inserted =>
        have hsend : runAlone (GrantStore.send (.insertGrant input.productId input.agentId
            (fs.toStringLossy path) policy now)) now s = (.ok inserted.1, inserted.2) :=
          runAlone_query_ok hinsert
        rw [runAlone_bind_ok hsend]

theorem insertGrant_eq (hs : s.GrantKeys) (input : CreateDirectoryGrant) (path : String)
    (policy : DirectoryGrantPolicy) :
    s.insertGrant input.productId input.agentId path policy now =
      .ok (rowKey "dir_" (nextRowid s.grants), s.withGrant (input.toGrant path policy now)) := by
  have hfresh : ¬ s.grants.any (fun r => decide (r.value.id = "" ∨
      r.value.id = rowKey "dir_" (nextRowid s.grants))) := by
    rw [List.any_eq_true]
    rintro ⟨r, hr, hid⟩
    rcases of_decide_eq_true hid with hid | hid
    · exact rowKey_ne_empty (by decide) r.rowid ((hs.derived r hr).symm.trans hid)
    · exact hs.next_fresh (rowKey_injective _) hr hid
  simp only [Store.insertGrant, if_neg hfresh]
  rfl

theorem runAlone_createGrant (hs : s.GrantKeys) (fs : Filesystem) (input : CreateDirectoryGrant) :
    runAlone (GrantStore.create fs input) now s = match grantDecision fs input with
      | .error e => (.error e, s)
      | .ok (path, policy) => (.ok (input.toGrant path policy now (nextRowid s.grants)),
          s.withGrant (input.toGrant path policy now)) := by
  rw [runAlone_createGrant_eq]
  cases grantDecision fs input with
  | error e => rfl
  | ok decision =>
    have hid : ∀ n, (input.toGrant decision.1 decision.2 now n).id = rowKey "dir_" n := fun _ => rfl
    simp only [insertGrant_eq hs, runAlone_getGrant, findGrant_withGrant hs hid, if_true]

theorem runAlone_deleteGrant (id : String) : runAlone (GrantStore.delete id) now s =
    (if (s.findGrant id).isSome then .ok () else .error .notFound, s.deleteGrant id) := by
  have hq : runAlone (GrantStore.send (.deleteGrant id)) now s =
      (.ok (s.findGrant id).isSome, s.deleteGrant id) := runAlone_query_ok rfl
  rw [GrantStore.delete, runAlone_bind_ok hq]
  split
  · rfl
  · rfl

theorem runAlone_getGrant_state (id : String) : (runAlone (GrantStore.get id) now s).2 = s := by
  rw [runAlone_getGrant]
  cases s.findGrant id <;> rfl

theorem createGrant_cases (fs : Filesystem) (input : CreateDirectoryGrant) (now : String)
    (s : Store) :
    (runAlone (GrantStore.create fs input) now s).2 = s ∨
    ∃ mk, (runAlone (GrantStore.create fs input) now s).2 = s.withGrant mk := by
  rw [runAlone_createGrant_eq]
  cases grantDecision fs input with
  | error e => exact .inl rfl
  | ok decision =>
    dsimp only
    cases hinsert : s.insertGrant input.productId input.agentId decision.1 decision.2 now with
    | error e => exact .inl rfl
    | ok inserted =>
      obtain ⟨mk, ht⟩ := insertGrant_ok hinsert
      exact .inr ⟨mk, (runAlone_getGrant_state _).trans ht⟩

theorem findGrant_updateGrant (id id' : String) (policy : DirectoryGrantPolicy) (now : String) :
    (s.updateGrant id policy now).findGrant id' = (s.findGrant id').map fun grant =>
      if grant.id = id then grant.withPolicy policy now else grant := by
  have hkey : ∀ grant : DirectoryGrant, (grant.withPolicy policy now).id = grant.id := fun _ => rfl
  exact lookup_update hkey s.grants

theorem runAlone_patchGrant (id : String) (changes : PatchDirectoryGrant) (now : String)
    (s : Store) :
    (∃ e, runAlone (GrantStore.patch id changes) now s = (.error e, s)) ∨
    ∃ grant policy, s.findGrant id = some grant ∧ changes.apply grant.policy = .ok policy ∧
      runAlone (GrantStore.patch id changes) now s =
        (.ok (grant.withPolicy policy now), s.updateGrant id policy now) := by
  rw [GrantStore.patch]
  split
  · exact .inl ⟨_, rfl⟩
  · have hget := runAlone_getGrant id now s
    cases hfind : s.findGrant id with
    | none =>
      rw [hfind] at hget
      exact .inl ⟨_, runAlone_bind_error hget⟩
    | some grant =>
      rw [hfind] at hget
      rw [runAlone_bind_ok hget, runAlone_ofExcept_bind]
      cases happly : changes.apply grant.policy with
      | error e => exact .inl ⟨_, rfl⟩
      | ok policy =>
        have hclock : runAlone (GrantStore.send .clock) now s = (.ok now, s) :=
          runAlone_query_ok rfl
        have hupdate : runAlone (GrantStore.send (.updateGrant id policy now)) now s =
            (.ok (), s.updateGrant id policy now) := runAlone_query_ok rfl
        have hread : (s.updateGrant id policy now).findGrant id =
            some (grant.withPolicy policy now) := by
          rw [findGrant_updateGrant, hfind]
          simp [findGrant_id hfind]
        simp only [Call.mapError_ok]
        rw [runAlone_bind_ok hclock, runAlone_bind_ok hupdate, runAlone_getGrant, hread]
        exact .inr ⟨grant, policy, rfl, happly, rfl⟩

theorem patchGrant_cases (id : String) (changes : PatchDirectoryGrant) (now : String)
    (s : Store) :
    (runAlone (GrantStore.patch id changes) now s).2 = s ∨
    ∃ grant policy, s.findGrant id = some grant ∧ changes.apply grant.policy = .ok policy ∧
      (runAlone (GrantStore.patch id changes) now s).2 = s.updateGrant id policy now := by
  obtain ⟨e, hr⟩ | ⟨grant, policy, hfind, happly, hr⟩ := runAlone_patchGrant id changes now s
  · exact .inl (by rw [hr])
  · exact .inr ⟨grant, policy, hfind, happly, by rw [hr]⟩

theorem grantOp_cases (op : GrantOp) (now : String) (s : Store) :
    (runAlone op.program now s).2 = s ∨
    (∃ mk, (runAlone op.program now s).2 = s.withGrant mk) ∨
    (∃ id changes grant policy, op = .patch id changes ∧ s.findGrant id = some grant ∧
      changes.apply grant.policy = .ok policy ∧
      (runAlone op.program now s).2 = s.updateGrant id policy now) ∨
    ∃ id, op = .delete id ∧ (runAlone op.program now s).2 = s.deleteGrant id := by
  cases op with
  | get id => exact .inl (runAlone_getGrant_state id)
  | authorize request =>
    left
    simp only [GrantOp.program, runAlone_authorizeGrant]
    split
    · rfl
    · split <;> rfl
  | create fs input =>
    rcases createGrant_cases fs input now s with hs | hs
    · exact .inl hs
    · exact .inr (.inl hs)
  | patch id changes =>
    rcases patchGrant_cases id changes now s with hs | ⟨grant, policy, hgrant, happly, hs⟩
    · exact .inl hs
    · exact .inr (.inr (.inl ⟨id, changes, grant, policy, rfl, hgrant, happly, hs⟩))
  | delete id =>
    refine .inr (.inr (.inr ⟨id, rfl, ?_⟩))
    rw [GrantOp.program, runAlone_deleteGrant]

end Grants

section Profiles
variable {s : Store} {now : String}

theorem runAlone_getProfile_state (id : String) :
    (runAlone (ProfileStore.get id) now s).2 = s := by
  rw [runAlone_getProfile]
  cases s.findProfile id <;> rfl

theorem findProfile_updateProfile (id id' : String) (next : CreateAgentProfile) (now : String) :
    (s.updateProfile id next now).findProfile id' = (s.findProfile id').map fun profile =>
      if profile.id = id then profile.withColumns next now else profile := by
  have hkey : (fun profile : AgentProfile => decide (profile.id = id')) ∘ (fun profile =>
      if profile.id = id then profile.withColumns next now else profile) =
      fun profile => decide (profile.id = id') := by
    funext profile
    by_cases hid : profile.id = id
    · simp [hid, AgentProfile.withColumns]
    · simp [hid]
  simp only [findProfile, updateProfile]
  rw [List.find?_map, hkey]

theorem findProfile_id {id : String} {profile : AgentProfile}
    (h : s.findProfile id = some profile) : profile.id = id := by
  simpa using List.find?_some h

theorem findProfile_inserted {profile : AgentProfile}
    (hfresh : ∀ p ∈ s.profiles, p.id ≠ profile.id) :
    Store.findProfile { s with profiles := s.profiles ++ [profile] } profile.id = some profile := by
  have hold : s.profiles.find? (fun p => decide (p.id = profile.id)) = none :=
    List.find?_eq_none.mpr fun p hp => by simpa using hfresh p hp
  simp [Store.findProfile, List.find?_append, hold]

theorem runAlone_createProfile (input : CreateAgentProfile) (now : String) (s : Store) :
    (∃ e, runAlone (ProfileStore.create input) now s = (.error e, s)) ∨
    (∀ p ∈ s.profiles, p.id ≠ input.id) ∧ runAlone (ProfileStore.create input) now s =
      (.ok (input.intoProfile now now),
        { s with profiles := s.profiles ++ [input.intoProfile now now] }) := by
  rw [ProfileStore.create, runAlone_ofExcept_bind]
  split
  · have hclock : runAlone (ProfileStore.send .clock) now s = (.ok now, s) := runAlone_query_ok rfl
    rw [runAlone_bind_ok hclock]
    have hid : (input.intoProfile now now).id = input.id := rfl
    generalize input.intoProfile now now = profile at hid ⊢
    rw [← hid]
    cases hins : (DbStep.insertProfile profile).attempt now s with
    | error e => exact .inl ⟨_, runAlone_bind_error (runAlone_query_error hins)⟩
    | ok inserted =>
      have hsend : runAlone ((DbStep.insertProfile profile).query
          ProfileStore.mapSqliteWriteError) now s = (.ok inserted.1, inserted.2) :=
        runAlone_query_ok hins
      obtain ⟨t, ht, rfl⟩ := map_eq_ok.mp hins
      have hfresh := insertProfile_fresh ht
      obtain rfl := insertProfile_ok ht
      refine .inr ⟨hfresh, ?_⟩
      rw [runAlone_bind_ok hsend, runAlone_getProfile, findProfile_inserted hfresh]
  · exact .inl ⟨_, rfl⟩

theorem createProfile_cases (input : CreateAgentProfile) (now : String) (s : Store) :
    (runAlone (ProfileStore.create input) now s).2 = s ∨
    ∃ profile, (runAlone (ProfileStore.create input) now s).2 =
      { s with profiles := s.profiles ++ [profile] } := by
  obtain ⟨e, hr⟩ | ⟨-, hr⟩ := runAlone_createProfile input now s
  · exact .inl (by rw [hr])
  · exact .inr ⟨_, by rw [hr]⟩

theorem findProfile_patched {id : String} {next : CreateAgentProfile} {current : AgentProfile}
    (hfind : s.findProfile id = some current) :
    (s.updateProfile id next now).findProfile id = some (current.withColumns next now) := by
  rw [findProfile_updateProfile, hfind]
  simp [findProfile_id hfind]

theorem runAlone_patchProfile_ok {id : String} {changes : PatchAgentProfile}
    {profile : AgentProfile} (hchanges : changes.isEmpty = false)
    (hfind : s.findProfile id = some profile)
    (hvalid : (changes.apply profile).validate = .ok ()) :
    runAlone (ProfileStore.patch id changes) now s =
      (.ok (profile.withColumns (changes.apply profile) now),
        s.updateProfile id (changes.apply profile) now) := by
  have hget := runAlone_getProfile id now s
  rw [hfind] at hget
  have hclock : runAlone (ProfileStore.send .clock) now s = (.ok now, s) := runAlone_query_ok rfl
  have hupdate : runAlone (ProfileStore.send (.updateProfile id (changes.apply profile) now))
      now s = (.ok (), s.updateProfile id (changes.apply profile) now) :=
    runAlone_query_ok rfl
  rw [ProfileStore.patch, if_neg (by simp [hchanges]), runAlone_bind_ok hget]
  dsimp only
  rw [runAlone_ofExcept_bind, hvalid]
  dsimp only [Except.mapError]
  rw [runAlone_bind_ok hclock, runAlone_bind_ok hupdate, runAlone_getProfile,
    findProfile_patched hfind]

theorem patchProfile_outcome (id : String) (changes : PatchAgentProfile) (now : String)
    (s : Store) :
    (∃ e, runAlone (ProfileStore.patch id changes) now s = (.error e, s)) ∨
    ∃ profile, changes.isEmpty = false ∧ s.findProfile id = some profile ∧
      (changes.apply profile).validate = .ok () := by
  have hget := runAlone_getProfile id now s
  cases hchanges : changes.isEmpty with
  | true =>
    rw [ProfileStore.patch, if_pos hchanges]
    exact .inl ⟨_, rfl⟩
  | false =>
    cases hfind : s.findProfile id with
    | none =>
      rw [hfind] at hget
      rw [ProfileStore.patch, if_neg (by simp [hchanges])]
      exact .inl ⟨_, runAlone_bind_error hget⟩
    | some profile =>
      rw [hfind] at hget
      cases hvalid : (changes.apply profile).validate with
      | ok _ => exact .inr ⟨profile, rfl, rfl, hvalid⟩
      | error e =>
        rw [ProfileStore.patch, if_neg (by simp [hchanges]), runAlone_bind_ok hget]
        dsimp only
        rw [runAlone_ofExcept_bind, hvalid]
        exact .inl ⟨_, rfl⟩

theorem runAlone_patchProfile (id : String) (changes : PatchAgentProfile) (now : String)
    (s : Store) :
    (∃ e, runAlone (ProfileStore.patch id changes) now s = (.error e, s)) ∨
    ∃ profile, s.findProfile id = some profile ∧
      runAlone (ProfileStore.patch id changes) now s =
        (.ok (profile.withColumns (changes.apply profile) now),
          s.updateProfile id (changes.apply profile) now) := by
  obtain herror | ⟨profile, hchanges, hfind, hvalid⟩ := patchProfile_outcome id changes now s
  · exact .inl herror
  · exact .inr ⟨profile, hfind, runAlone_patchProfile_ok hchanges hfind hvalid⟩

theorem runAlone_patchProfile_eq_ok {id : String} {changes : PatchAgentProfile}
    {agent : AgentProfile} {t : Store} :
    runAlone (ProfileStore.patch id changes) now s = (.ok agent, t) ↔
      ∃ profile, changes.isEmpty = false ∧ s.findProfile id = some profile ∧
        (changes.apply profile).validate = .ok () ∧
        agent = profile.withColumns (changes.apply profile) now ∧
        t = s.updateProfile id (changes.apply profile) now := by
  constructor
  · intro h
    obtain ⟨e, herror⟩ | ⟨profile, hchanges, hfind, hvalid⟩ := patchProfile_outcome id changes now s
    · rw [herror] at h
      cases h
    · rw [runAlone_patchProfile_ok hchanges hfind hvalid] at h
      obtain ⟨hagent, hstore⟩ := Prod.mk.inj h
      exact ⟨profile, hchanges, hfind, hvalid, (Except.ok.inj hagent).symm, hstore.symm⟩
  · rintro ⟨profile, hchanges, hfind, hvalid, rfl, rfl⟩
    exact runAlone_patchProfile_ok hchanges hfind hvalid

theorem patchProfile_cases (id : String) (changes : PatchAgentProfile) (now : String)
    (s : Store) :
    (runAlone (ProfileStore.patch id changes) now s).2 = s ∨
    ∃ profile, s.findProfile id = some profile ∧
      (runAlone (ProfileStore.patch id changes) now s).2 =
        s.updateProfile id (changes.apply profile) now := by
  obtain ⟨e, hr⟩ | ⟨profile, hfind, hr⟩ := runAlone_patchProfile id changes now s
  · exact .inl (by rw [hr])
  · exact .inr ⟨profile, hfind, by rw [hr]⟩

theorem deleteProfile_state (id : String) :
    (runAlone (ProfileStore.delete id) now s).2 = s.deleteProfile id := by
  have hq : runAlone (ProfileStore.send (.deleteProfile id)) now s =
      (.ok (s.findProfile id).isSome, s.deleteProfile id) := runAlone_query_ok rfl
  rw [ProfileStore.delete, runAlone_bind_ok hq]
  split
  · rfl
  · rfl

theorem profileOp_cases (op : ProfileOp) (now : String) (s : Store) :
    (runAlone op.program now s).2 = s ∨
    (∃ profile, (runAlone op.program now s).2 = { s with profiles := s.profiles ++ [profile] }) ∨
    (∃ id changes profile, op = .patch id changes ∧ s.findProfile id = some profile ∧
      (runAlone op.program now s).2 = s.updateProfile id (changes.apply profile) now) ∨
    ∃ id, op = .delete id ∧ (runAlone op.program now s).2 = s.deleteProfile id := by
  cases op with
  | get id => exact .inl (runAlone_getProfile_state id)
  | authorize request =>
    left
    simp only [ProfileOp.program, runAlone_authorizeProfile]
    split
    · rfl
    · split <;> rfl
  | create input =>
    rcases createProfile_cases input now s with hs | hs
    · exact .inl hs
    · exact .inr (.inl hs)
  | patch id changes =>
    rcases patchProfile_cases id changes now s with hs | ⟨profile, hprofile, hs⟩
    · exact .inl hs
    · exact .inr (.inr (.inl ⟨id, changes, profile, rfl, hprofile, hs⟩))
  | delete id => exact .inr (.inr (.inr ⟨id, rfl, deleteProfile_state id⟩))

theorem findProfile_deleteProfile {id id' : String} (hne : id ≠ id') :
    (s.deleteProfile id).findProfile id' = s.findProfile id' := by
  simp only [findProfile, deleteProfile, List.find?_filter]
  congr 1
  funext profile
  by_cases hid : profile.id = id'
  · simp [hid, Ne.symm hne]
  · simp [hid]

end Profiles

section Tasks

structure Store.SameTasks (s s' : Store) : Prop where
  tasks : s'.tasks = s.tasks
  events : s'.events = s.events
  permissionRequests : s'.permissionRequests = s.permissionRequests
  locks : s'.locks = s.locks
  published : s'.published = s.published

theorem sameTasks_grantOp (op : GrantOp) (now : String) (s : Store) :
    s.SameTasks (runAlone op.program now s).2 := by
  obtain hs | ⟨_, hs⟩ | ⟨_, _, _, _, _, _, _, hs⟩ | ⟨_, _, hs⟩ := grantOp_cases op now s
  all_goals
    rw [hs]
    exact ⟨rfl, rfl, rfl, rfl, rfl⟩

theorem sameTasks_profileOp (op : ProfileOp) (now : String) (s : Store) :
    s.SameTasks (runAlone op.program now s).2 := by
  obtain hs | ⟨_, hs⟩ | ⟨_, _, _, _, _, hs⟩ | ⟨_, _, hs⟩ := profileOp_cases op now s
  all_goals
    rw [hs]
    exact ⟨rfl, rfl, rfl, rfl, rfl⟩

theorem Store.SameTasks.refl (s : Store) : s.SameTasks s := ⟨rfl, rfl, rfl, rfl, rfl⟩

theorem Store.SameTasks.trans {s t u : Store} (h : s.SameTasks t) (k : t.SameTasks u) :
    s.SameTasks u :=
  ⟨k.tasks.trans h.tasks, k.events.trans h.events,
    k.permissionRequests.trans h.permissionRequests, k.locks.trans h.locks,
    k.published.trans h.published⟩

end Tasks

section Uses
variable {P : DbStep → Prop} {ε : Type}

theorem GrantOp.uses (hclock : P .clock) (hselect : ∀ id, P (.selectGrant id))
    (hinsert : ∀ productId agentId path policy now,
      P (.insertGrant productId agentId path policy now))
    (hupdate : ∀ id policy now, P (.updateGrant id policy now)) (hdelete : ∀ id, P (.deleteGrant id))
    (op : GrantOp) : op.program.Uses P := by
  have hget : ∀ id, (GrantStore.get id).Uses P := by
    refine fun id => Call.Uses.bind (DbStep.uses_query (hselect id) _) fun row => ?_
    cases row <;> trivial
  cases op with
  | get id => exact hget id
  | create fs input =>
    exact (Call.uses_check _).bind fun path => (Call.uses_check _).bind fun policy =>
      Call.Uses.bind (DbStep.uses_query hclock _) fun now =>
      Call.Uses.bind (DbStep.uses_query (hinsert ..) _) fun id => hget id
  | patch id changes =>
    change (GrantStore.patch id changes).Uses _
    unfold GrantStore.patch
    split
    · trivial
    · exact (hget id).bind fun current => (Call.uses_check _).bind fun policy =>
        Call.Uses.bind (DbStep.uses_query hclock _) fun now =>
        Call.Uses.bind (DbStep.uses_query (hupdate ..) _) fun _ => hget id
  | delete id =>
    refine Call.Uses.bind (DbStep.uses_query (hdelete id) _) fun changed => ?_
    cases changed <;> trivial
  | authorize request =>
    exact (hget request.directoryId).bind fun _ => (Call.uses_check _).bind fun _ => trivial

theorem ProfileOp.uses (hclock : P .clock) (hselect : ∀ id, P (.selectProfile id))
    (hinsert : ∀ profile, P (.insertProfile profile))
    (hupdate : ∀ id next updatedAt, P (.updateProfile id next updatedAt))
    (hdelete : ∀ id, P (.deleteProfile id)) (op : ProfileOp) : op.program.Uses P := by
  have hget : ∀ id, (ProfileStore.get id).Uses P := by
    refine fun id => Call.Uses.bind (DbStep.uses_query (hselect id) _) fun row => ?_
    cases row <;> trivial
  cases op with
  | get id => exact hget id
  | create input =>
    exact (Call.uses_check _).bind fun _ =>
      Call.Uses.bind (DbStep.uses_query hclock _) fun now =>
      Call.Uses.bind (DbStep.uses_query (hinsert _) _) fun _ => hget _
  | patch id changes =>
    change (ProfileStore.patch id changes).Uses _
    unfold ProfileStore.patch
    split
    · trivial
    · exact (hget id).bind fun current => (Call.uses_check _).bind fun _ =>
        Call.Uses.bind (DbStep.uses_query hclock _) fun now =>
        Call.Uses.bind (DbStep.uses_query (hupdate ..) _) fun _ => hget id
  | delete id =>
    refine Call.Uses.bind (DbStep.uses_query (hdelete id) _) fun changed => ?_
    cases changed <;> trivial
  | authorize request =>
    exact (hget request.agentId).bind fun _ => (Call.uses_check _).bind fun _ => trivial

end Uses

end OpenDaemon
