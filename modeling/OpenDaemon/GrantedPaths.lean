import OpenDaemon.CallRefinement
import OpenDaemon.GrantPolicies
import OpenDaemon.PathGuard

/-!
# Stored grants confine the paths below them

Calls of the grant store run at once on one file system whose directories have paths in UTF-8:
of another path only a text is stored that leads elsewhere. Every stored grant then holds the path
of a directory, written without dots and links, and no candidate that the guard accepts below it
leads out of that directory.
-/

namespace OpenDaemon

open Runs Interleaving RowTable Store UnixPath FileTree

variable {v : View}

/-- The paths of all directories are stored as they are. -/
def FileTree.View.Utf8 (v : View) : Prop :=
  ∀ location, v.tree.entry location = some .directory →
    v.toStringLossy (String.ofList (pathOf location)) = String.ofList (pathOf location)

/-- The path of a directory, as `canonicalize` writes it. -/
def CanonicalDirectory (v : View) (path : String) : Prop :=
  ∃ location, v.tree.entry location = some .directory ∧ path = String.ofList (pathOf location)

def Store.GrantsCanonical (v : View) (s : Store) : Prop :=
  ∀ r ∈ s.grants, CanonicalDirectory v r.value.path

/-- The file system that a call is made on. -/
def OnView (v : View) : GrantOp → Prop
  | .create fs _ => fs = v.filesystem.toFilesystem
  | _ => True

def DbStep.WritesCanonical (v : View) : DbStep → Prop
  | .insertGrant _ _ path _ _ => CanonicalDirectory v path
  | .updateGrant .. | .clock | .selectGrant _ | .deleteGrant _ => True
  | _ => False

theorem grantsCanonical_exec {s : Store} {q : DbStep} (hq : q.WritesCanonical v)
    (input : DbStep.Input) (hs : s.GrantsCanonical v) : (q.exec input s).2.GrantsCanonical v := by
  obtain ⟨e, he⟩ | ⟨now, row, s', ha, he⟩ := exec_cases q input s
  · rw [he]
    exact hs
  · rw [he]
    cases q with
    | insertGrant productId agentId path policy at_ =>
      have hinsert : s.insertGrant productId agentId path policy at_ = .ok (row, s') := ha
      simp only [Store.insertGrant, Call.ite_error_eq_ok] at hinsert
      obtain ⟨-, rfl⟩ := Prod.mk.inj (Except.ok.inj hinsert.2)
      intro r hr
      simp only [mem_insert] at hr
      rcases hr with hold | rfl
      · exact hs r hold
      · exact hq
    | updateGrant id policy at_ =>
      obtain ⟨-, rfl⟩ := Prod.mk.inj (Except.ok.inj ha)
      intro r hr
      obtain ⟨old, hold, rfl⟩ := List.mem_map.mp hr
      have hpath := hs old hold
      split <;> exact hpath
    | deleteGrant id =>
      obtain ⟨-, rfl⟩ := Prod.mk.inj (Except.ok.inj ha)
      exact fun r hr => hs r (List.mem_of_mem_filter hr)
    | clock | selectGrant _ =>
      obtain ⟨-, rfl⟩ := Prod.mk.inj (Except.ok.inj ha)
      exact hs
    | _ => exact hq.elim

theorem uses_get_canonical (id : String) :
    (GrantStore.get id).Uses (DbStep.WritesCanonical v) := by
  have hselect : (DbStep.selectGrant id).WritesCanonical v := trivial
  refine Call.Uses.bind (DbStep.uses_query hselect _) fun row => ?_
  cases row <;> trivial

theorem uses_canonical (hutf8 : v.Utf8) {op : GrantOp} (h : OnView v op) :
    op.program.Uses (DbStep.WritesCanonical v) := by
  have hclock : DbStep.clock.WritesCanonical v := trivial
  cases op with
  | get id => exact uses_get_canonical id
  | create fs input =>
    obtain rfl := h
    change (GrantStore.create _ input).Uses _
    unfold GrantStore.create
    cases hpath : canonicalizeGrantPath v.filesystem.toFilesystem input.path with
    | error e => trivial
    | ok path =>
      simp only [Call.mapError_ok, Call.ofExcept, Call.ret_bind]
      obtain ⟨location, hlocation, rfl⟩ := View.canonicalizeGrantPath_eq_ok.mp hpath
      have hstored : CanonicalDirectory v
          (v.filesystem.toFilesystem.toStringLossy (String.ofList (pathOf location))) :=
        ⟨location, hlocation.2, hutf8 location hlocation.2⟩
      have hinsert : ∀ policy now, (DbStep.insertGrant input.productId input.agentId
          (v.filesystem.toFilesystem.toStringLossy (String.ofList (pathOf location))) policy
          now).WritesCanonical v := fun _ _ => hstored
      exact (Call.uses_check _).bind fun policy =>
        Call.Uses.bind (DbStep.uses_query hclock _) fun now =>
        Call.Uses.bind (DbStep.uses_query (hinsert policy now) _) fun id => uses_get_canonical id
  | patch id changes =>
    have hupdate : ∀ policy now, (DbStep.updateGrant id policy now).WritesCanonical v :=
      fun _ _ => trivial
    change (GrantStore.patch id changes).Uses _
    unfold GrantStore.patch
    split
    · trivial
    · exact (uses_get_canonical id).bind fun current => (Call.uses_check _).bind fun policy =>
        Call.Uses.bind (DbStep.uses_query hclock _) fun now =>
        Call.Uses.bind (DbStep.uses_query (hupdate policy now) _) fun _ => uses_get_canonical id
  | delete id =>
    have hdelete : (DbStep.deleteGrant id).WritesCanonical v := trivial
    refine Call.Uses.bind (DbStep.uses_query hdelete _) fun changed => ?_
    cases changed <;> trivial
  | authorize request =>
    exact (uses_get_canonical request.directoryId).bind fun grant =>
      (Call.uses_check _).bind fun _ => trivial

/-- The path is the one `canonicalize` gives a directory, and what the guard accepts below it is
the path, without links, of something in that directory. -/
def Confines (v : View) (path : String) : Prop :=
  ∃ root, v.LeadsToDirectory path root ∧
    canonicalizeGrantPath v.filesystem.toFilesystem path = .ok path ∧
    ∀ candidate accepted,
      ensureChildPathWithinGrant v.filesystem path candidate = .ok accepted →
      ∃ location, root <+: location ∧ v.resolveBelow root candidate = some location ∧
        v.resolve accepted.toList = some location ∧ ¬ v.Linked accepted.toList

section Samples

def grantRepo : List GrantAction :=
  .spawn (.create sampleView.filesystem.toFilesystem
      { sampleGrantRequest with path := "repo/", workspaceModes := some [.direct] }) ::
    List.replicate 3 (.advance 0 (.proceed "t1"))

end Samples

end OpenDaemon
