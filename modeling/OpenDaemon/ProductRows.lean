import OpenDaemon.TaskFrame

/-!
# Rows and the product that owns them

A task, a profile and a grant name their product; an event and a permission
request belong to the product of their task. Everything that a handled request
can do to the store is one of a few changes, and each of them is confined to the
rows of one product.
-/

namespace OpenDaemon

open RowTable Store SequencedLog

namespace Store

def Owns (s : Store) (productId taskId : String) : Prop :=
  ∃ task, s.findTask taskId = some task ∧ task.ownerProductId = productId

/-- Every row that stands in one of the two stores only is owned there. -/
def OwnedChanges {α : Type} (owned : Store → α → Prop) (rows : Store → List α) (s s' : Store) :
    Prop :=
  (∀ r ∈ rows s, r ∉ rows s' → owned s r) ∧ ∀ r ∈ rows s', r ∉ rows s → owned s' r

/-- What is inserted, updated or deleted between the two stores is the product's, before and
after. -/
structure Confined (productId : String) (s s' : Store) : Prop where
  tasks : OwnedChanges (fun _ r => r.value.ownerProductId = productId) Store.tasks s s'
  events : OwnedChanges (fun s event => s.Owns productId event.taskId) Store.events s s'
  permissionRequests : OwnedChanges (fun s request => s.Owns productId request.taskId)
    Store.permissionRequests s s'
  profiles : OwnedChanges (fun _ profile => profile.ownerProductId = productId)
    Store.profiles s s'
  grants : OwnedChanges (fun _ r => r.value.productId = productId) Store.grants s s'

/-- The keys of the tables that requests write by key. -/
structure Consistent (s : Store) : Prop where
  wellFormed : s.WellFormed
  grantKeys : s.GrantKeys
  profileIds : (s.profiles.map AgentProfile.id).Nodup

structure Backs (s : Store) (row : NewTask) : Prop where
  profile : ∃ profile, s.findProfile row.agentId = some profile ∧
    profile.ownerProductId = row.ownerProductId
  grant : ∃ grant, s.findGrant row.directoryId = some grant ∧
    grant.productId = row.ownerProductId

inductive Change (productId : String) (s : Store) : Store → Prop
  | same : Change productId s s
  | createdTask {row : NewTask} {now : String} (owner : row.ownerProductId = productId)
      (backs : s.Backs row) : Change productId s (s.created row now)
  | touchedTask {s' : Store} {id : String} (owned : s.Owns productId id)
      (touched : s.Touched s' id) (wellFormed : s'.WellFormed) : Change productId s s'
  | createdProfile {profile : AgentProfile} (owner : profile.ownerProductId = productId)
      (fresh : ∀ p ∈ s.profiles, p.id ≠ profile.id) :
      Change productId s { s with profiles := s.profiles ++ [profile] }
  | patchedProfile {id now : String} {current : AgentProfile} {next : CreateAgentProfile}
      (found : s.findProfile id = some current) (owner : current.ownerProductId = productId) :
      Change productId s (s.updateProfile id next now)
  | deletedProfile {id : String} {current : AgentProfile} (found : s.findProfile id = some current)
      (owner : current.ownerProductId = productId) : Change productId s (s.deleteProfile id)
  | createdGrant {mk : ℕ → DirectoryGrant} (key : ∀ n, (mk n).id = rowKey "dir_" n)
      (owner : ∀ n, (mk n).productId = productId) : Change productId s (s.withGrant mk)
  | patchedGrant {id now : String} {current : DirectoryGrant} {policy : DirectoryGrantPolicy}
      (found : s.findGrant id = some current) (owner : current.productId = productId) :
      Change productId s (s.updateGrant id policy now)
  | deletedGrant {id : String} {current : DirectoryGrant} (found : s.findGrant id = some current)
      (owner : current.productId = productId) : Change productId s (s.deleteGrant id)

end Store

section Rows
variable {s s' : Store} {productId id : String}

theorem ownedChanges_same {α : Type} {owned : Store → α → Prop} {rows : Store → List α}
    (h : rows s' = rows s) : OwnedChanges owned rows s s' := by
  refine ⟨fun r hr hn => absurd ?_ hn, fun r hr hn => absurd ?_ hn⟩
  · rwa [h]
  · rwa [← h]

theorem ownedChanges_append {α : Type} {owned : Store → α → Prop} {rows : Store → List α} {r : α}
    (h : rows s' = rows s ++ [r]) (howned : owned s' r) : OwnedChanges owned rows s s' := by
  refine ⟨fun q hq hn => absurd ?_ hn, fun q hq hn => ?_⟩
  · rw [h]
    exact List.mem_append_left _ hq
  · rw [h] at hq
    rcases List.mem_append.mp hq with hq | hq
    · exact absurd hq hn
    · rw [List.mem_singleton.mp hq]
      exact howned

theorem Confined.of_profiles (htasks : s'.tasks = s.tasks) (hevents : s'.events = s.events)
    (hrequests : s'.permissionRequests = s.permissionRequests) (hgrants : s'.grants = s.grants)
    (hprofiles : OwnedChanges (fun _ profile => profile.ownerProductId = productId)
      Store.profiles s s') : s.Confined productId s' :=
  ⟨ownedChanges_same htasks, ownedChanges_same hevents, ownedChanges_same hrequests, hprofiles,
    ownedChanges_same hgrants⟩

theorem Confined.of_grants (htasks : s'.tasks = s.tasks) (hevents : s'.events = s.events)
    (hrequests : s'.permissionRequests = s.permissionRequests)
    (hprofiles : s'.profiles = s.profiles)
    (hgrants : OwnedChanges (fun _ r => r.value.productId = productId) Store.grants s s') :
    s.Confined productId s' :=
  ⟨ownedChanges_same htasks, ownedChanges_same hevents, ownedChanges_same hrequests,
    ownedChanges_same hprofiles, hgrants⟩

theorem mem_tasks_of_findTask (hs : s.WellFormed) (hs' : s'.WellFormed) {r : Row Task}
    (hr : r ∈ s.tasks) (hfind : s'.findTask r.value.id = some r.value) : r ∈ s'.tasks := by
  obtain ⟨q, hq, hvalue, -⟩ := lookup_mem hfind
  have hid : q.rowid = r.rowid := by
    refine rowKey_injective "task_" ?_
    rw [← hs'.taskKeys.derived q hq, hvalue, hs.taskKeys.derived r hr]
  obtain ⟨qid, qvalue⟩ := q
  obtain ⟨rid, rvalue⟩ := r
  dsimp only at hid hvalue
  subst hid hvalue
  exact hq

theorem Owns.touched (h : s.Touched s' id) {taskId : String} (hown : s.Owns productId taskId) :
    s'.Owns productId taskId := by
  obtain ⟨task, hfind, howner⟩ := hown
  have hcreation := h.creation taskId
  rw [hfind] at hcreation
  obtain ⟨task', hfind', heq⟩ := Option.map_eq_some_iff.mp hcreation
  have hsame : task'.ownerProductId = task.ownerProductId :=
    congrArg (fun creation => creation.1.ownerProductId) heq
  exact ⟨task', hfind', hsame.trans howner⟩

section Sides
-- each of these is used in both directions, with the two stores swapped
variable (hown : s.Owns productId id)
include hown

theorem owner_of_changed_task (hs : s.WellFormed) (hs' : s'.WellFormed)
    (hsame : ∀ other, other ≠ id → s'.findTask other = s.findTask other) {r : Row Task}
    (hr : r ∈ s.tasks) (hn : r ∉ s'.tasks) : r.value.ownerProductId = productId := by
  have hfind := hs.mem_findTask hr
  by_cases hid : r.value.id = id
  · obtain ⟨task, htask, howner⟩ := hown
    rw [hid, htask] at hfind
    rwa [← Option.some.inj hfind]
  · rw [← hsame _ hid] at hfind
    exact absurd (mem_tasks_of_findTask hs hs' hr hfind) hn

theorem owns_of_changed_event
    (hsame : ∀ other, other ≠ id → s'.eventsOf other = s.eventsOf other) {event : TaskEvent}
    (he : event ∈ s.events) (hn : event ∉ s'.events) : s.Owns productId event.taskId := by
  by_cases hid : event.taskId = id
  · rw [hid]
    exact hown
  · have hmem : event ∈ s.eventsOf event.taskId := mem_entriesOf.mpr ⟨he, rfl⟩
    rw [← hsame _ hid] at hmem
    exact absurd (mem_entriesOf.mp hmem).1 hn

theorem owns_of_changed_request
    (hsame : ∀ other, other ≠ id → s'.requestsOf other = s.requestsOf other)
    {request : PermissionRequestRecord} (hr : request ∈ s.permissionRequests)
    (hn : request ∉ s'.permissionRequests) : s.Owns productId request.taskId := by
  by_cases hid : request.taskId = id
  · rw [hid]
    exact hown
  · have hmem : request ∈ s.requestsOf request.taskId :=
      List.mem_filter.mpr ⟨hr, decide_eq_true rfl⟩
    rw [← hsame _ hid] at hmem
    exact absurd (List.mem_filter.mp hmem).1 hn

end Sides

theorem confined_touched (hs : s.WellFormed) (hs' : s'.WellFormed) (h : s.Touched s' id)
    (hown : s.Owns productId id) : s.Confined productId s' := by
  have hown' : s'.Owns productId id := Owns.touched h hown
  exact
    { tasks :=
        ⟨fun _ => owner_of_changed_task hown hs hs' fun other hne => (h.others other hne).task,
          fun _ => owner_of_changed_task hown' hs' hs fun other hne =>
            (h.others other hne).task.symm⟩
      events :=
        ⟨fun _ => owns_of_changed_event hown fun other hne => (h.others other hne).events,
          fun _ => owns_of_changed_event hown' fun other hne => (h.others other hne).events.symm⟩
      permissionRequests :=
        ⟨fun _ => owns_of_changed_request hown fun other hne => (h.others other hne).requests,
          fun _ => owns_of_changed_request hown' fun other hne =>
            (h.others other hne).requests.symm⟩
      profiles := ownedChanges_same h.profiles
      grants := ownedChanges_same h.grants }

theorem confined_created (hs : s.WellFormed) {row : NewTask} {now : String}
    (howner : row.ownerProductId = productId) : s.Confined productId (s.created row now) where
  tasks := ownedChanges_append rfl howner
  events := by
    refine ownedChanges_append rfl ⟨row.toTask now (nextRowid s.tasks), ?_, howner⟩
    exact (created_findTask hs row _).trans (if_pos rfl)
  permissionRequests := ownedChanges_same rfl
  profiles := ownedChanges_same rfl
  grants := ownedChanges_same rfl

end Rows

section Profiles
variable {s : Store} {productId id now : String} {current : AgentProfile}

theorem eq_of_findProfile (hids : (s.profiles.map AgentProfile.id).Nodup)
    (hfind : s.findProfile id = some current) {profile : AgentProfile}
    (hmem : profile ∈ s.profiles) (hid : profile.id = id) : profile = current :=
  List.inj_on_of_nodup_map hids hmem (List.mem_of_find?_eq_some hfind)
    (hid.trans (findProfile_id hfind).symm)

theorem confined_updateProfile (hids : (s.profiles.map AgentProfile.id).Nodup)
    (hfind : s.findProfile id = some current) (howner : current.ownerProductId = productId)
    (next : CreateAgentProfile) : s.Confined productId (s.updateProfile id next now) := by
  refine Confined.of_profiles rfl rfl rfl rfl ⟨fun profile hmem hn => ?_, fun profile hmem hn => ?_⟩
  · dsimp only
    by_cases hid : profile.id = id
    · rw [eq_of_findProfile hids hfind hmem hid]
      exact howner
    · refine absurd ?_ hn
      have hkept := List.mem_map_of_mem (f := fun profile : AgentProfile =>
        if profile.id = id then profile.withColumns next now else profile) hmem
      rwa [if_neg hid] at hkept
  · obtain ⟨old, hold, rfl⟩ := List.mem_map.mp hmem
    by_cases hid : old.id = id
    · rw [if_pos hid, eq_of_findProfile hids hfind hold hid]
      exact howner
    · rw [if_neg hid] at hn
      exact absurd hold hn

theorem confined_deleteProfile (hids : (s.profiles.map AgentProfile.id).Nodup)
    (hfind : s.findProfile id = some current) (howner : current.ownerProductId = productId) :
    s.Confined productId (s.deleteProfile id) := by
  refine Confined.of_profiles rfl rfl rfl rfl ⟨fun profile hmem hn => ?_, fun profile hmem hn => ?_⟩
  · dsimp only
    by_cases hid : profile.id = id
    · rw [eq_of_findProfile hids hfind hmem hid]
      exact howner
    · refine absurd ?_ hn
      exact List.mem_filter.mpr ⟨hmem, by simpa using hid⟩
  · exact absurd (List.mem_filter.mp hmem).1 hn

end Profiles

section Grants
variable {s : Store} {productId id now : String} {current : DirectoryGrant}

theorem eq_of_findGrant (hkeys : s.GrantKeys) (hfind : s.findGrant id = some current)
    {r : Row DirectoryGrant} (hr : r ∈ s.grants) (hid : r.value.id = id) : r.value = current := by
  obtain ⟨q, hq, rfl, hq'⟩ := lookup_mem hfind
  have hkey : r.value.id = q.value.id := hid.trans (of_decide_eq_true hq').symm
  rw [hkeys.unique (rowKey_injective _) hr hq hkey]

theorem mem_updateGrant {policy : DirectoryGrantPolicy} {r : Row DirectoryGrant} :
    r ∈ (s.updateGrant id policy now).grants ↔ ∃ q ∈ s.grants,
      r = if q.value.id = id then ⟨q.rowid, q.value.withPolicy policy now⟩ else q := by
  simp only [Store.updateGrant, mem_update, decide_eq_true_eq]

theorem confined_updateGrant (hkeys : s.GrantKeys) (hfind : s.findGrant id = some current)
    (howner : current.productId = productId) (policy : DirectoryGrantPolicy) :
    s.Confined productId (s.updateGrant id policy now) := by
  refine Confined.of_grants rfl rfl rfl rfl ⟨fun r hr hn => ?_, fun r hr hn => ?_⟩
  · dsimp only
    by_cases hid : r.value.id = id
    · rw [eq_of_findGrant hkeys hfind hr hid]
      exact howner
    · exact absurd (mem_updateGrant.mpr ⟨r, hr, (if_neg hid).symm⟩) hn
  · obtain ⟨old, hold, rfl⟩ := mem_updateGrant.mp hr
    by_cases hid : old.value.id = id
    · rw [if_pos hid]
      change old.value.productId = productId
      rw [eq_of_findGrant hkeys hfind hold hid]
      exact howner
    · rw [if_neg hid] at hn
      exact absurd hold hn

theorem confined_deleteGrant (hkeys : s.GrantKeys) (hfind : s.findGrant id = some current)
    (howner : current.productId = productId) : s.Confined productId (s.deleteGrant id) := by
  refine Confined.of_grants rfl rfl rfl rfl ⟨fun r hr hn => ?_, fun r hr hn => ?_⟩
  · dsimp only
    by_cases hid : r.value.id = id
    · rw [eq_of_findGrant hkeys hfind hr hid]
      exact howner
    · refine absurd ?_ hn
      exact List.mem_filter.mpr ⟨hr, by simpa using hid⟩
  · exact absurd (List.mem_filter.mp hr).1 hn

end Grants

section Changes
variable {s s' : Store} {productId : String}

theorem Store.Change.confined (hs : s.Consistent) (h : s.Change productId s') :
    s.Confined productId s' := by
  cases h with
  | same => exact Confined.of_profiles rfl rfl rfl rfl (ownedChanges_same rfl)
  | createdTask owner backs => exact confined_created hs.wellFormed owner
  | touchedTask owned touched wellFormed =>
    exact confined_touched hs.wellFormed wellFormed touched owned
  | createdProfile owner fresh =>
    exact Confined.of_profiles rfl rfl rfl rfl (ownedChanges_append rfl owner)
  | patchedProfile found owner => exact confined_updateProfile hs.profileIds found owner _
  | deletedProfile found owner => exact confined_deleteProfile hs.profileIds found owner
  | createdGrant key owner =>
    exact Confined.of_grants rfl rfl rfl rfl (ownedChanges_append rfl (owner _))
  | patchedGrant found owner => exact confined_updateGrant hs.grantKeys found owner _
  | deletedGrant found owner => exact confined_deleteGrant hs.grantKeys found owner

theorem Store.Change.consistent (hs : s.Consistent) (h : s.Change productId s') :
    s'.Consistent := by
  cases h with
  | same => exact hs
  | createdTask owner backs =>
    exact ⟨wellFormed_created hs.wellFormed _, hs.grantKeys, hs.profileIds⟩
  | touchedTask owned touched wellFormed =>
    refine ⟨wellFormed, ?_, ?_⟩
    · rw [Store.GrantKeys, touched.grants]
      exact hs.grantKeys
    · rw [touched.profiles]
      exact hs.profileIds
  | createdProfile owner fresh =>
    refine ⟨wellFormed_of_same hs.wellFormed rfl rfl, hs.grantKeys, ?_⟩
    rw [List.map_append, List.nodup_append]
    refine ⟨hs.profileIds, by simp, ?_⟩
    intro id hold id' hnew heq
    obtain ⟨p, hp, rfl⟩ := List.mem_map.mp hold
    exact fresh p hp (heq.trans (by simpa using hnew))
  | patchedProfile found owner =>
    refine ⟨wellFormed_of_same hs.wellFormed rfl rfl, hs.grantKeys, ?_⟩
    have hids := hs.profileIds
    simp only [Store.updateProfile, List.map_map]
    refine (List.map_congr_left fun profile _ => ?_) ▸ hids
    simp only [Function.comp]
    split <;> rfl
  | deletedProfile found owner =>
    refine ⟨wellFormed_of_same hs.wellFormed rfl rfl, hs.grantKeys, ?_⟩
    exact hs.profileIds.sublist ((List.filter_sublist).map _)
  | createdGrant key owner =>
    exact ⟨wellFormed_of_same hs.wellFormed rfl rfl, hs.grantKeys.insert key, hs.profileIds⟩
  | patchedGrant found owner =>
    refine ⟨wellFormed_of_same hs.wellFormed rfl rfl, ?_, hs.profileIds⟩
    simp only [Store.GrantKeys, Store.updateGrant]
    exact hs.grantKeys.update fun _ => rfl
  | deletedGrant found owner =>
    refine ⟨wellFormed_of_same hs.wellFormed rfl rfl, ?_, hs.profileIds⟩
    simp only [Store.GrantKeys, Store.deleteGrant]
    exact hs.grantKeys.delete

theorem Store.Change.origin (hs : s.WellFormed) (h : s.Change productId s') {id : String}
    {task : Task} (hfind : s'.findTask id = some task) :
    (∃ old, s.findTask id = some old ∧ old.creation = task.creation) ∨
      s.findTask id = none ∧ s.Backs task.creation.1 := by
  have hsame : s'.tasks = s.tasks → ∃ old, s.findTask id = some old ∧
      old.creation = task.creation := by
    intro htasks
    rw [findTask_congr htasks] at hfind
    exact ⟨task, hfind, rfl⟩
  cases h with
  | createdTask owner backs =>
    rw [created_findTask hs] at hfind
    split at hfind
    · rename_i hid
      obtain rfl := Option.some.inj hfind
      right
      rw [hid]
      exact ⟨findTask_next hs, backs⟩
    · exact .inl ⟨task, hfind, rfl⟩
  | touchedTask owned touched wellFormed =>
    have hcreation := touched.creation id
    rw [hfind] at hcreation
    obtain ⟨old, hold, heq⟩ := Option.map_eq_some_iff.mp hcreation.symm
    exact .inl ⟨old, hold, heq⟩
  | same => exact .inl (hsame rfl)
  | createdProfile _ _ | patchedProfile _ _ | deletedProfile _ _ => exact .inl (hsame rfl)
  | createdGrant _ _ | patchedGrant _ _ | deletedGrant _ _ => exact .inl (hsame rfl)

theorem Store.Change.owns (hs : s.WellFormed) (h : s.Change productId s') {owner taskId : String}
    (hown : s.Owns owner taskId) : s'.Owns owner taskId := by
  cases h with
  | createdTask _ _ =>
    obtain ⟨task, hfind, howner⟩ := hown
    refine ⟨task, ?_, howner⟩
    rw [created_findTask hs, if_neg]
    · exact hfind
    · rintro rfl
      rw [findTask_next hs] at hfind
      cases hfind
  | touchedTask _ touched _ => exact Owns.touched touched hown
  | same => exact hown
  | createdProfile _ _ | patchedProfile _ _ | deletedProfile _ _ => exact hown
  | createdGrant _ _ | patchedGrant _ _ | deletedGrant _ _ => exact hown

end Changes

end OpenDaemon
