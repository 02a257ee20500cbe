import Mathlib.Order.Bounds.Basic
import OpenDaemon.PolicyCalls
import OpenDaemon.Runs

/-!
# Identity of directory grants

A grant id is derived from a rowid, and a rowid is free again once its row and
all rows above it are deleted. The ids issued so far are always the numbers up
to the highest one, so a new id repeats none of them exactly when the grant with
the highest id is still stored.
-/

namespace OpenDaemon

open Runs RowTable Store

structure GrantHistory where
  store : Store
  issued : List String

inductive GrantCommand
  | create (fs : Filesystem) (input : CreateDirectoryGrant)
  | delete (id : String)

def grantStep (h : GrantHistory) : GrantCommand × String → Option GrantHistory
  | (.create fs input, now) =>
    match runAlone (GrantStore.create fs input) now h.store with
    | (.ok grant, s) => some ⟨s, h.issued ++ [grant.id]⟩
    | (.error _, s) => some ⟨s, h.issued⟩
  | (.delete id, now) => some ⟨(runAlone (GrantStore.delete id) now h.store).2, h.issued⟩

def GrantReaches (h : GrantHistory) : Prop :=
  Reaches grantStep (fun _ _ => True) ⟨Store.empty, []⟩ h

structure IssuedUpTo (h : GrantHistory) (m : ℕ) : Prop where
  keys : h.store.GrantKeys
  rows : Within h.store.grants m
  issued : ∀ n, rowKey "dir_" n ∈ h.issued ↔ 1 ≤ n ∧ n ≤ m

section Steps
variable {h h' : GrantHistory} {m : ℕ}

theorem IssuedUpTo.create (hm : IssuedUpTo h m) {mk : ℕ → DirectoryGrant}
    (hmk : ∀ n, (mk n).id = rowKey "dir_" n) :
    IssuedUpTo ⟨h.store.withGrant mk, h.issued ++ [rowKey "dir_" (nextRowid h.store.grants)]⟩
      (max m (nextRowid h.store.grants)) where
  keys := Keyed.insert hm.keys hmk
  rows := hm.rows.insert mk
  issued := by
    intro n
    have hle : maxRowid h.store.grants ≤ m := hm.rows.maxRowid_le
    have hnext : nextRowid h.store.grants = maxRowid h.store.grants + 1 := rfl
    rw [List.mem_append, List.mem_singleton, hm.issued, (rowKey_injective "dir_").eq_iff]
    omega

theorem IssuedUpTo.delete (hm : IssuedUpTo h m) (id : String) :
    IssuedUpTo ⟨h.store.deleteGrant id, h.issued⟩ m where
  keys := Keyed.delete (p := fun grant : DirectoryGrant => decide (grant.id = id)) hm.keys
  rows := hm.rows.delete fun grant => decide (grant.id = id)
  issued := hm.issued

theorem grantStep_create (hk : h.store.GrantKeys) {fs : Filesystem} {input : CreateDirectoryGrant}
    {now : String} (hs : grantStep h (.create fs input, now) = some h') :
    h' = h ∨ ∃ mk : ℕ → DirectoryGrant, (∀ n, (mk n).id = rowKey "dir_" n) ∧
      h' = ⟨h.store.withGrant mk, h.issued ++ [rowKey "dir_" (nextRowid h.store.grants)]⟩ := by
  simp only [grantStep, runAlone_createGrant hk] at hs
  cases hdecision : grantDecision fs input with
  | error e =>
    rw [hdecision] at hs
    exact .inl (Option.some.inj hs).symm
  | ok decision =>
    rw [hdecision] at hs
    exact .inr ⟨input.toGrant decision.1 decision.2 now, fun _ => rfl, (Option.some.inj hs).symm⟩

theorem issuedUpTo_step {call : GrantCommand × String} (hm : IssuedUpTo h m)
    (hs : grantStep h call = some h') : ∃ m', IssuedUpTo h' m' := by
  obtain ⟨command, now⟩ := call
  cases command with
  | create fs input =>
    rcases grantStep_create hm.keys hs with rfl | ⟨mk, hmk, rfl⟩
    · exact ⟨m, hm⟩
    · exact ⟨_, hm.create hmk⟩
  | delete id =>
    simp only [grantStep, runAlone_deleteGrant] at hs
    obtain rfl := Option.some.inj hs
    exact ⟨m, hm.delete id⟩

theorem issuedUpTo_of_reaches (hr : GrantReaches h) : ∃ m, IssuedUpTo h m := by
  refine hr.invariant (I := fun h => ∃ m, IssuedUpTo h m) ?_
    fun _ _ _ ⟨_, hm⟩ _ hs => issuedUpTo_step hm hs
  refine ⟨0, ⟨Keyed.nil, fun r hr => (by cases hr), fun n => ?_⟩⟩
  simp only [List.not_mem_nil, false_iff]
  omega

end Steps

def HighestStored (h : GrantHistory) : Prop :=
  ∀ n, IsGreatest {n | rowKey "dir_" n ∈ h.issued} n →
    (h.store.findGrant (rowKey "dir_" n)).isSome

theorem IssuedUpTo.highestStored_iff {h : GrantHistory} {m : ℕ} (hm : IssuedUpTo h m) :
    HighestStored h ↔ m < nextRowid h.store.grants := by
  rw [hm.rows.lt_nextRowid_iff]
  -- ids are issued without gaps, so the greatest one is the last one
  have hgreatest : ∀ n, IsGreatest {n | rowKey "dir_" n ∈ h.issued} n ↔ 1 ≤ n ∧ n = m := by
    intro n
    constructor
    · rintro ⟨hn, hub⟩
      have hle := (hm.issued n).mp hn
      have hge : m ≤ n := hub ((hm.issued m).mpr ⟨by omega, le_rfl⟩)
      omega
    · rintro ⟨h1, rfl⟩
      exact ⟨(hm.issued n).mpr ⟨h1, le_rfl⟩, fun k hk => ((hm.issued k).mp hk).2⟩
  have hfind : ∀ n, (h.store.findGrant (rowKey "dir_" n)).isSome ↔
      ∃ r ∈ h.store.grants, r.rowid = n := by
    intro n
    rw [Option.isSome_iff_ne_none, ne_eq, findGrant, lookup_none]
    simp only [decide_eq_false_iff_not, not_forall, not_not]
    constructor
    · rintro ⟨r, hr, hid⟩
      exact ⟨r, hr, rowKey_injective "dir_" ((hm.keys.derived r hr).symm.trans hid)⟩
    · rintro ⟨r, hr, rfl⟩
      exact ⟨r, hr, hm.keys.derived r hr⟩
  constructor
  · intro hstored
    by_cases h0 : m = 0
    · exact .inl h0
    · exact .inr ((hfind m).mp (hstored m ((hgreatest m).mpr ⟨by omega, rfl⟩)))
  · rintro hm' n hn
    obtain ⟨h1, rfl⟩ := (hgreatest n).mp hn
    rcases hm' with h0 | hr
    · omega
    · exact (hfind n).mpr hr

/-- A new id is not the id of a stored grant, and it repeats none issued before exactly
when the grant with the highest id is still stored. -/
theorem grant_id_fresh_iff (h : GrantHistory) (hr : GrantReaches h) (fs : Filesystem)
    (input : CreateDirectoryGrant) (now : String) (grant : DirectoryGrant)
    (hok : (runAlone (GrantStore.create fs input) now h.store).1 = .ok grant) :
    h.store.findGrant grant.id = none ∧ (grant.id ∉ h.issued ↔ HighestStored h) := by
  obtain ⟨m, hm⟩ := issuedUpTo_of_reaches hr
  rw [runAlone_createGrant hm.keys] at hok
  cases hdecision : grantDecision fs input with
  | error e =>
    rw [hdecision] at hok
    cases hok
  | ok decision =>
    rw [hdecision] at hok
    obtain rfl := Except.ok.inj hok
    refine ⟨findGrant_next hm.keys, ?_⟩
    rw [hm.highestStored_iff]
    change rowKey "dir_" (nextRowid h.store.grants) ∉ h.issued ↔ _
    have hnext : nextRowid h.store.grants = maxRowid h.store.grants + 1 := rfl
    rw [hm.issued]
    omega

def sampleFilesystem : Filesystem :=
  ⟨fun path => if path = "/srv/repo" then some path else none,
    fun path => decide (path = "/srv/repo"), fun path => decide (path = "/srv/repo/.git"),
    id⟩

def sampleGrantRequest : CreateDirectoryGrant :=
  ⟨"acme", "reviewer", "/srv/repo", [.read, .write], none, none, none, none, none⟩

def sampleCreate : GrantCommand × String := (.create sampleFilesystem sampleGrantRequest, "t1")

def grantRun (calls : List (GrantCommand × String)) : Option GrantHistory :=
  Runs.run (fun h call => if true then grantStep h call else none) ⟨Store.empty, []⟩ calls

theorem grant_id_fresh_iff_third : ∃ h, h.issued = ["dir_1", "dir_2"] ∧
    h.store.findGrant "dir_3" = none ∧ ("dir_3" ∉ h.issued ↔ HighestStored h) := by
  have hrun : (grantRun [sampleCreate, sampleCreate, (.delete "dir_1", "t2")]).map (fun h =>
      (h.issued,
        (runAlone (GrantStore.create sampleFilesystem sampleGrantRequest) "t3" h.store).1)) =
      some (["dir_1", "dir_2"], .ok ⟨"dir_3", "acme", "reviewer", "/srv/repo", [.read, .write],
        [.worktree], .worktree, .exclusive, true, false, "t3", "t3"⟩) := by decide
  obtain ⟨h, hh, hresult⟩ := Option.map_eq_some_iff.mp hrun
  simp only [Prod.mk.injEq] at hresult
  obtain ⟨hissued, hok⟩ := hresult
  have hreach : GrantReaches h := reaches_of_run (fun _ _ _ => trivial) hh
  exact ⟨h, hissued, grant_id_fresh_iff h hreach sampleFilesystem sampleGrantRequest "t3" _ hok⟩

/-- The only grant is deleted and its id is issued again. -/
theorem grant_id_reissued : ∃ h grant, GrantReaches h ∧
    (runAlone (GrantStore.create sampleFilesystem sampleGrantRequest) "t3" h.store).1 =
      .ok grant ∧ grant.id ∈ h.issued := by
  have hrun : (grantRun [sampleCreate, (.delete "dir_1", "t2")]).map (fun h => (h.issued,
        (runAlone (GrantStore.create sampleFilesystem sampleGrantRequest) "t3" h.store).1)) =
      some (["dir_1"], .ok ⟨"dir_1", "acme", "reviewer", "/srv/repo", [.read, .write],
        [.worktree], .worktree, .exclusive, true, false, "t3", "t3"⟩) := by decide
  obtain ⟨h, hh, hresult⟩ := Option.map_eq_some_iff.mp hrun
  simp only [Prod.mk.injEq] at hresult
  refine ⟨h, _, reaches_of_run (fun _ _ _ => trivial) hh, hresult.2, ?_⟩
  rw [hresult.1]
  exact List.mem_cons_self

end OpenDaemon
