import OpenDaemon.FileTree
import OpenDaemon.GrantStore

/-!
# The path guard

`security/path_guard.rs` over a tree of files and links. A path below a grant is accepted
by what the file system makes of it, so a link inside the grant does not lead out of it.
What is accepted, and which of the four codes refuses the rest, is said by where the two
paths lead.
-/

namespace OpenDaemon

open UnixPath FileTree

structure LinkFilesystem extends Filesystem where
  isSymlink : String → Bool

def UnixPath.Component.asOsStr : Component → List Char
  | .rootDir => ['/']
  | .curDir => ['.']
  | .parentDir => ['.', '.']
  | .normal name => name

def containsSymlink (fs : LinkFilesystem) (current : Path) : List Component → Bool
  | [] => false
  | component :: rest =>
    fs.isSymlink (String.ofList (join current (component.asOsStr))) ||
      containsSymlink fs (join current (component.asOsStr)) rest

def pathContainsSymlink (fs : LinkFilesystem) (path : Path) : Bool :=
  containsSymlink fs [] (components path)

/-- `Path::starts_with`: whole components are compared. -/
def startsWith (path base : Path) : Bool := (components base).isPrefixOf (components path)

/-- `ensure_child_path_within_grant` from the canonical root of the grant on. -/
def ensureCandidate (fs : LinkFilesystem) (grantRoot candidatePath : String) :
    Except PathGuardError String :=
  if candidatePath.isEmpty then .error .invalidDirectoryPath
  else
    let resolvedCandidate := if isAbsolute candidatePath.toList then candidatePath.toList
      else join grantRoot.toList candidatePath.toList
    match fs.canonicalize (String.ofList resolvedCandidate) with
    | none => .error .invalidDirectoryPath
    | some canonicalCandidate =>
      if startsWith canonicalCandidate.toList grantRoot.toList then .ok canonicalCandidate
      else if pathContainsSymlink fs resolvedCandidate then .error .symlinkEscape
      else .error .pathOutsideGrant

def ensureChildPathWithinGrant (fs : LinkFilesystem) (grantRoot candidatePath : String) :
    Except PathGuardError String := do
  let grantRoot ← canonicalizeGrantPath fs.toFilesystem grantRoot
  ensureCandidate fs grantRoot candidatePath

namespace FileTree.View

variable (v : View)

/-- What `std::fs` answers about the tree. -/
def filesystem : LinkFilesystem where
  canonicalize path := (v.resolve path.toList).map fun location => String.ofList (pathOf location)
  isDir path := decide ((v.resolve path.toList).bind v.tree.entry = some .directory)
  pathExists path := (v.resolve path.toList).isSome
  toStringLossy := v.toStringLossy
  isSymlink path := match v.lstat path.toList with
    | some (.symlink _) => true
    | _ => false

def LeadsToDirectory (path : String) (location : Location) : Prop :=
  v.resolve path.toList = some location ∧ v.tree.entry location = some .directory

def candidate (root : Location) (path : String) : Path :=
  if isAbsolute path.toList then path.toList else join (pathOf root) path.toList

def resolveBelow (root : Location) (path : String) : Option Location :=
  if path.toList = [] then none
  else if isAbsolute path.toList then v.resolve path.toList
  else v.tree.walk v.links root (segments path.toList)

variable {v} {root location : Location} {path : String}

theorem canonicalizeGrantPath_eq (v : View) (path : String) :
    canonicalizeGrantPath v.filesystem.toFilesystem path =
      match v.resolve path.toList with
      | none => .error .invalidDirectoryPath
      | some location =>
        if v.tree.entry location = some .directory then .ok (String.ofList (pathOf location))
        else .error .pathNotDirectory := by
  unfold canonicalizeGrantPath
  by_cases hempty : path.isEmpty = true
  · obtain rfl := String.isEmpty_iff.mp hempty
    rfl
  · rw [if_neg hempty]
    cases hresolve : v.resolve path.toList with
    | none => simp [filesystem, hresolve]
    | some location =>
      have hcanonical : v.filesystem.canonicalize path = some (String.ofList (pathOf location)) := by
        simp [filesystem, hresolve]
      have hdir : v.filesystem.isDir (String.ofList (pathOf location)) =
          decide (v.tree.entry location = some .directory) := by
        simp [filesystem, resolve_pathOf (holds_resolve hresolve)]
      simp only [hcanonical, hdir, decide_eq_true_eq]

theorem canonicalizeGrantPath_eq_ok {p : String} :
    canonicalizeGrantPath v.filesystem.toFilesystem path = .ok p ↔
      ∃ location, v.LeadsToDirectory path location ∧ p = String.ofList (pathOf location) := by
  unfold LeadsToDirectory
  rw [canonicalizeGrantPath_eq]
  cases v.resolve path.toList with
  | none => simp
  | some location =>
    by_cases hentry : v.tree.entry location = some .directory
    · simp [hentry, eq_comm]
    · simp [hentry]

section Loop

variable {front rest : List (List Char)} {segment : List Char} {start : Location}

theorem containsSymlink_step (hwhole : ∀ other ∈ front, Whole other) {component : Component}
    (hcomponent : component? segment = some component) (htext : component.asOsStr = segment)
    (hslash : '/' ∉ segment) {linked : Bool}
    (hlinked : v.filesystem.isSymlink (String.ofList (pathOf (front ++ [segment]))) = linked) :
    containsSymlink v.filesystem (pathOf front) ((segment :: rest).filterMap component?) =
      (linked || containsSymlink v.filesystem (pathOf (front ++ [segment]))
        (rest.filterMap component?)) := by
  rw [List.filterMap_cons_some hcomponent, containsSymlink, htext,
    join_pathOf hwhole (not_absolute_of_slash_notMem hslash), hlinked]

theorem isSymlink_eq (p : Path) : v.filesystem.isSymlink (String.ofList p) =
    match v.lstat p with
    | some (.symlink _) => true
    | _ => false := by
  simp only [filesystem, String.toList_ofList]

theorem isSymlink_eq_false {p : Path} (h : ∀ target, v.lstat p ≠ some (.symlink target)) :
    v.filesystem.isSymlink (String.ofList p) = false := by
  rw [isSymlink_eq]
  split
  · exact absurd ‹_› (h _)
  · rfl

/-- The loop over the components finds a link exactly if the walk meets one: up to the first
link, what has been pushed so far is walked like the path itself. -/
theorem containsSymlink_iff (hwhole : ∀ other ∈ front, Whole other)
    (hslash : ∀ other ∈ rest, '/' ∉ other)
    (hfront : ∀ suffix, v.tree.walk v.links [] (front ++ suffix) =
      v.tree.walk v.links start suffix)
    (hrest : v.tree.walk v.links start rest = some location) :
    containsSymlink v.filesystem (pathOf front) (rest.filterMap component?) = true ↔
      v.tree.Meets v.links start rest := by
  induction rest generalizing front start with
  | nil =>
    refine ⟨fun h => absurd h Bool.false_ne_true, ?_⟩
    rintro ⟨before, name, after, found, target, hsplit, -⟩
    exact absurd hsplit (by simp)
  | cons segment rest ih =>
    have hsegment := hslash segment List.mem_cons_self
    have hslash' := fun other hother => hslash other (List.mem_cons_of_mem _ hother)
    have hstart : v.tree.walk v.links [] front = some start := by
      have h := hfront []
      rwa [List.append_nil, Tree.walk_nil] at h
    have hpushed : segment ≠ [] → ∀ other ∈ front ++ [segment], Whole other := by
      intro hne other hother
      rcases List.mem_append.mp hother with hother | hother
      · exact hwhole other hother
      · exact List.mem_singleton.mp hother ▸ ⟨hne, hsegment⟩
    have hmoved : ∀ next, (∀ names, v.tree.walk v.links start (segment :: names) =
        v.tree.walk v.links next names) → ∀ suffix,
        v.tree.walk v.links [] (front ++ [segment] ++ suffix) = v.tree.walk v.links next suffix := by
      intro next hmove suffix
      rw [List.append_assoc, hfront, List.singleton_append, hmove]
    obtain ⟨hdir, ⟨hname, hholds, hnext⟩ | ⟨hname, target, fewer, hfewer, hlink, hnext⟩ |
      ⟨rfl, hnext⟩ | ⟨hname, hup, hnext⟩⟩ := Tree.walk_cons_cases hrest
    · obtain ⟨e, he, hlink⟩ := hholds.entry
      have hne : segment ≠ [] := fun heq => by rw [heq] at hname; cases hname
      have hmove : ∀ names, v.tree.walk v.links start (segment :: names) =
          v.tree.walk v.links (start ++ [segment]) names :=
        fun names => Tree.walk_name hdir hname he hlink
      have hlstat := lstat_pathOf hwhole hname hsegment hstart hdir
      have hno := isSymlink_eq_false (v := v) (p := pathOf (front ++ [segment])) fun target heq =>
        hlink target (Option.some.inj (he.symm.trans (hlstat.symm.trans heq)))
      rw [containsSymlink_step hwhole (component?_of_isName hname) rfl hsegment hno, Bool.false_or,
        Tree.meets_cons_iff hmove fun _ target heq =>
          hlink target (Option.some.inj (he.symm.trans heq))]
      exact ih (hpushed hne) hslash' (hmoved _ hmove) hnext
    · have hlstat := lstat_pathOf hwhole hname hsegment hstart hdir
      have hyes : v.filesystem.isSymlink (String.ofList (pathOf (front ++ [segment]))) = true := by
        rw [isSymlink_eq, hlstat, hlink]
      rw [containsSymlink_step hwhole (component?_of_isName hname) rfl hsegment hyes, Bool.true_or]
      exact ⟨fun _ => Tree.meets_link hname hlink, fun _ => rfl⟩
    · have hmove : ∀ names, v.tree.walk v.links start (['.', '.'] :: names) =
          v.tree.walk v.links start.dropLast names := fun names => Tree.walk_parent hdir
      have hlast : isName ((segments (pathOf (front ++ [['.', '.']]))).getLastD []) = false := by
        rw [segments_pathOf (hpushed (by decide)), if_neg (by simp), ← List.cons_append,
          List.getLastD_concat]
        rfl
      have hno := isSymlink_eq_false (v := v) (p := pathOf (front ++ [['.', '.']]))
        fun target heq => lstat_of_not_name hlast heq target rfl
      have hup : component? ['.', '.'] = some .parentDir := rfl
      rw [containsSymlink_step hwhole hup rfl hsegment hno, Bool.false_or,
        Tree.meets_cons_iff hmove fun hname => by cases hname]
      exact ih (hpushed (by decide)) hslash' (hmoved _ hmove) hnext
    · rw [List.filterMap_cons_none (Tree.component?_of_skipped hname hup),
        Tree.meets_cons_iff (fun names => Tree.walk_skip hdir hname hup)
          fun hname' => by rw [hname] at hname'; cases hname']
      refine ih hwhole hslash' (fun suffix => hfront suffix) hnext

theorem pathContainsSymlink_iff {p : Path} (habsolute : isAbsolute p = true)
    (h : v.resolve p = some location) :
    pathContainsSymlink v.filesystem p = true ↔ v.Linked p := by
  rw [resolve] at h
  split_ifs at h with hnil
  rw [origin, if_pos habsolute] at h
  have hroot : isName ((segments ['/']).getLastD []) = false := by decide
  have hno := isSymlink_eq_false (v := v) (p := ['/'])
    fun target heq => lstat_of_not_name hroot heq target rfl
  have hpush : join [] (Component.asOsStr .rootDir) = pathOf [] := rfl
  rw [pathContainsSymlink, components, leading, if_pos habsolute, List.singleton_append,
    containsSymlink, hpush]
  change (v.filesystem.isSymlink (String.ofList ['/']) || _) = true ↔ _
  rw [hno, Bool.false_or, Linked, origin, if_pos habsolute]
  have hnone : ∀ other ∈ ([] : List (List Char)), Whole other := by simp
  exact containsSymlink_iff hnone (slash_notMem_segments p) (fun _ => rfl) h

end Loop

section Guard

theorem isAbsolute_candidate (hroot : v.tree.Holds root) (path : String) :
    isAbsolute (candidate root path) = true := by
  rw [candidate]
  split_ifs with habsolute
  · exact habsolute
  · rw [join_pathOf (whole_of_holds hroot) (by simpa using habsolute)]
    exact isAbsolute_pathOf _

theorem resolve_candidate (hroot : v.tree.Holds root) (hpath : path.toList ≠ []) :
    v.resolve (candidate root path) = v.resolveBelow root path := by
  have habs := isAbsolute_candidate hroot path
  rw [resolveBelow, if_neg hpath]
  by_cases habsolute : isAbsolute path.toList = true
  · rw [if_pos habsolute, candidate, if_pos habsolute]
  · rw [candidate, if_neg habsolute] at habs ⊢
    have hne : join (pathOf root) path.toList ≠ [] := by
      intro h
      rw [h] at habs
      cases habs
    have hsegments := segments_join_pathOf (whole_of_holds hroot) (by simpa using habsolute)
    have hnames : v.tree.Holds ([] ++ root) := hroot
    rw [if_neg habsolute, resolve, if_neg hne, origin, if_pos habs, hsegments, List.cons_append,
      walk_empty, Tree.walk_names v.links [] hnames, List.nil_append]

theorem holds_resolveBelow (hroot : v.tree.Holds root)
    (h : v.resolveBelow root path = some location) : v.tree.Holds location := by
  by_cases hpath : path.toList = []
  · rw [resolveBelow, if_pos hpath] at h
    cases h
  · rw [← resolve_candidate hroot hpath] at h
    exact holds_resolve h

theorem startsWith_pathOf (hroot : v.tree.Holds root) (hlocation : v.tree.Holds location) :
    startsWith (pathOf location) (pathOf root) = true ↔ root <+: location := by
  obtain ⟨e, he, -⟩ := hroot.entry
  obtain ⟨e', he', -⟩ := hlocation.entry
  rw [startsWith, components_pathOf (Tree.names_of_entry he),
    components_pathOf (Tree.names_of_entry he'), List.isPrefixOf_iff_prefix, List.prefix_cons_inj]
  exact List.prefix_map_iff_of_injective fun _ _ h => Component.normal.inj h

theorem ensureCandidate_eq (hroot : v.tree.Holds root) (candidatePath : String) :
    ensureCandidate v.filesystem (String.ofList (pathOf root)) candidatePath =
      match v.resolveBelow root candidatePath with
      | none => .error .invalidDirectoryPath
      | some location =>
        if root <+: location then .ok (String.ofList (pathOf location))
        else if pathContainsSymlink v.filesystem (candidate root candidatePath) then
          .error .symlinkEscape
        else .error .pathOutsideGrant := by
  unfold ensureCandidate
  by_cases hempty : candidatePath.isEmpty = true
  · obtain rfl := String.isEmpty_iff.mp hempty
    rfl
  · have hpath : candidatePath.toList ≠ [] := fun h =>
      hempty (String.isEmpty_iff.mpr (String.toList_injective h))
    have hjoined : (if isAbsolute candidatePath.toList then candidatePath.toList
        else join (String.ofList (pathOf root)).toList candidatePath.toList) =
          candidate root candidatePath := by
      rw [String.toList_ofList]
      rfl
    have hcanonical : v.filesystem.canonicalize (String.ofList (candidate root candidatePath)) =
        (v.resolveBelow root candidatePath).map fun location =>
          String.ofList (pathOf location) := by
      rw [← resolve_candidate hroot hpath]
      simp [filesystem]
    rw [if_neg hempty]
    simp only [hjoined, hcanonical]
    cases hbelow : v.resolveBelow root candidatePath with
    | none => rfl
    | some location =>
      rw [← resolve_candidate hroot hpath] at hbelow
      have hstarts := startsWith_pathOf hroot (holds_resolve hbelow)
      simp only [Option.map_some, String.toList_ofList, hstarts]

/-- What the guard accepts: the path, without links, of what the candidate leads to, if that
is the granted directory or stands below it. -/
theorem ensureChildPathWithinGrant_eq_ok_iff (v : View) (grantRoot candidatePath p : String) :
    ensureChildPathWithinGrant v.filesystem grantRoot candidatePath = .ok p ↔
      ∃ root location, v.LeadsToDirectory grantRoot root ∧
        v.resolveBelow root candidatePath = some location ∧ root <+: location ∧
        p = String.ofList (pathOf location) ∧
        v.resolve p.toList = some location ∧ ¬ v.Linked p.toList := by
  unfold ensureChildPathWithinGrant
  rw [Call.bind_eq_ok]
  constructor
  · rintro ⟨canonical, hgrant, hcandidate⟩
    obtain ⟨root, hroot, rfl⟩ := canonicalizeGrantPath_eq_ok.mp hgrant
    have hholds : v.tree.Holds root := .inl hroot.2
    rw [ensureCandidate_eq hholds] at hcandidate
    cases hbelow : v.resolveBelow root candidatePath with
    | none => simp [hbelow] at hcandidate
    | some location =>
      simp only [hbelow] at hcandidate
      by_cases hwithin : root <+: location
      · rw [if_pos hwithin] at hcandidate
        obtain rfl := Except.ok.inj hcandidate
        have hlocation := holds_resolveBelow hholds hbelow
        refine ⟨root, location, hroot, hbelow, hwithin, rfl, ?_, ?_⟩
        · rw [String.toList_ofList]
          exact resolve_pathOf hlocation
        · rw [String.toList_ofList]
          exact not_linked_pathOf hlocation
      · rw [if_neg hwithin] at hcandidate
        split_ifs at hcandidate
  · rintro ⟨root, location, hroot, hbelow, hwithin, rfl, -⟩
    refine ⟨_, canonicalizeGrantPath_eq_ok.mpr ⟨root, hroot, rfl⟩, ?_⟩
    rw [ensureCandidate_eq (.inl hroot.2), hbelow]
    simp only [hwithin, if_true]

/-- Why the guard refuses. Only a path without links is said to be outside the grant, and then
its components alone lead out. -/
def Refuses (v : View) (grantRoot candidatePath : String) : PathGuardError → Prop
  | .invalidDirectoryPath => v.resolve grantRoot.toList = none ∨
      ∃ root, v.LeadsToDirectory grantRoot root ∧ v.resolveBelow root candidatePath = none
  | .pathNotDirectory => ∃ location, v.resolve grantRoot.toList = some location ∧
      v.tree.entry location = some .file
  | .pathOutsideGrant => ∃ root, v.LeadsToDirectory grantRoot root ∧
      v.resolveBelow root candidatePath = some (locate v.cwd (candidate root candidatePath)) ∧
      ¬ root <+: locate v.cwd (candidate root candidatePath) ∧
      ¬ v.Linked (candidate root candidatePath)
  | .symlinkEscape => ∃ root location, v.LeadsToDirectory grantRoot root ∧
      v.resolveBelow root candidatePath = some location ∧ ¬ root <+: location ∧
      v.Linked (candidate root candidatePath)

theorem ensureCandidate_eq_error_iff (hroot : v.tree.Holds root) (candidatePath : String)
    (error : PathGuardError) :
    ensureCandidate v.filesystem (String.ofList (pathOf root)) candidatePath = .error error ↔
      (error = .invalidDirectoryPath ∧ v.resolveBelow root candidatePath = none) ∨
      ∃ location, v.resolveBelow root candidatePath = some location ∧ ¬ root <+: location ∧
        ((error = .symlinkEscape ∧ v.Linked (candidate root candidatePath)) ∨
          (error = .pathOutsideGrant ∧ ¬ v.Linked (candidate root candidatePath))) := by
  rw [ensureCandidate_eq hroot]
  cases hbelow : v.resolveBelow root candidatePath with
  | none => simp [eq_comm]
  | some location =>
    have hpath : candidatePath.toList ≠ [] := by
      intro h
      rw [resolveBelow, if_pos h] at hbelow
      cases hbelow
    have hresolve := (resolve_candidate hroot hpath).trans hbelow
    have hlinked := pathContainsSymlink_iff (isAbsolute_candidate hroot candidatePath) hresolve
    by_cases hwithin : root <+: location
    · simp [hwithin]
    · by_cases h : v.Linked (candidate root candidatePath)
      · simp [hwithin, hlinked, h, eq_comm]
      · simp [hwithin, hlinked, h, eq_comm]

/-- Each code of the guard has one cause. -/
theorem ensureChildPathWithinGrant_eq_error_iff (v : View) (grantRoot candidatePath : String)
    (error : PathGuardError) :
    ensureChildPathWithinGrant v.filesystem grantRoot candidatePath = .error error ↔
      v.Refuses grantRoot candidatePath error := by
  have hlocate : ∀ root location, v.LeadsToDirectory grantRoot root →
      v.resolveBelow root candidatePath = some location →
      ¬ v.Linked (candidate root candidatePath) →
      location = locate v.cwd (candidate root candidatePath) := by
    intro root location hroot hbelow hlinked
    have hpath : candidatePath.toList ≠ [] := by
      intro h
      rw [resolveBelow, if_pos h] at hbelow
      cases hbelow
    exact resolve_eq_locate ((resolve_candidate (.inl hroot.2) hpath).trans hbelow) hlinked
  unfold ensureChildPathWithinGrant
  rw [canonicalizeGrantPath_eq]
  cases hgrant : v.resolve grantRoot.toList with
  | none =>
    change Except.error _ = Except.error error ↔ _
    cases error <;> simp [Refuses, LeadsToDirectory, hgrant]
  | some root =>
    have hunique : ∀ other, v.LeadsToDirectory grantRoot other → other = root :=
      fun other hother => Option.some.inj (hother.1.symm.trans hgrant)
    by_cases hentry : v.tree.entry root = some .directory
    · have hleads : v.LeadsToDirectory grantRoot root := ⟨hgrant, hentry⟩
      simp only [hentry, if_true]
      refine (ensureCandidate_eq_error_iff (.inl hentry) candidatePath error).trans ?_
      have hgranted : ∀ X : Location → Prop,
          (∃ other, v.LeadsToDirectory grantRoot other ∧ X other) ↔ X root := fun X =>
        ⟨fun ⟨other, hother, hX⟩ => hunique other hother ▸ hX, fun hX => ⟨root, hleads, hX⟩⟩
      cases error with
      | invalidDirectoryPath =>
        simp only [Refuses, hgranted, hgrant, true_and, reduceCtorEq, false_and, false_or, or_false,
          and_false, exists_false]
      | pathNotDirectory =>
        simp [Refuses, hgrant, hentry]
      | pathOutsideGrant =>
        simp only [Refuses, hgranted, true_and, reduceCtorEq, false_and, false_or]
        constructor
        · rintro ⟨location, hbelow, hwithin, hlinked⟩
          obtain rfl := hlocate root location hleads hbelow hlinked
          exact ⟨hbelow, hwithin, hlinked⟩
        · rintro ⟨hbelow, hwithin, hlinked⟩
          exact ⟨_, hbelow, hwithin, hlinked⟩
      | symlinkEscape =>
        simp only [Refuses, true_and, reduceCtorEq, false_and, false_or, or_false]
        constructor
        · rintro ⟨location, hbelow, hwithin, hlinked⟩
          exact ⟨root, location, hleads, hbelow, hwithin, hlinked⟩
        · rintro ⟨other, location, hother, hbelow, hwithin, hlinked⟩
          obtain rfl := hunique other hother
          exact ⟨location, hbelow, hwithin, hlinked⟩
    · have hfile : v.tree.entry root = some .file := (holds_resolve hgrant).resolve_left hentry
      have hnone : ∀ other, ¬ v.LeadsToDirectory grantRoot other := fun other hother =>
        hentry (hunique other hother ▸ hother.2)
      simp only [hentry, if_false]
      change Except.error _ = Except.error error ↔ _
      cases error <;> simp [Refuses, hgrant, hnone, hfile]

end Guard

end FileTree.View

section Samples

def sampleEntries : List (Location × Entry) :=
  let repo := ["srv".toList, "repo".toList]
  [(["etc".toList], .directory), (["etc".toList, "passwd".toList], .file),
    (["srv".toList], .directory), (repo, .directory), (repo ++ ["lib.rs".toList], .file),
    (repo ++ ["same".toList], .symlink "../repo/./lib.rs".toList),
    (repo ++ ["out".toList], .symlink "/etc".toList)]

def sampleView : View where
  tree := .ofEntries sampleEntries (by decide +kernel)
  cwd := ["srv".toList]
  directory := by decide +kernel
  links := 40
  toStringLossy := id

example : ensureChildPathWithinGrant sampleView.filesystem "repo" "same" =
    .ok "/srv/repo/lib.rs" := by decide +kernel

example : ensureChildPathWithinGrant sampleView.filesystem "repo" "out/passwd" =
    .error .symlinkEscape := by decide +kernel

end Samples

end OpenDaemon
