import OpenDaemon.UnixPath
import Mathlib.Data.List.Induction

/-!
# Files, directories and symbolic links

A tree says what stands at each location. A path is walked segment by segment, from the
root or from a working directory; a link on the way is replaced by the path it holds, and
only so many links are followed. The path of a location is the one without dots and links
that leads there.
-/

namespace OpenDaemon.FileTree

open UnixPath

inductive Entry
  | directory
  | file
  | symlink (target : Path)
  deriving DecidableEq, Repr

/-- Every entry but the root stands under a name in a directory. -/
structure Tree where
  entry : Location → Option Entry
  root : entry [] = some .directory
  parent : ∀ location name e, entry (location ++ [name]) = some e →
    entry location = some .directory
  named : ∀ location name e, entry (location ++ [name]) = some e →
    isName name = true ∧ '/' ∉ name

/-- A tree as a process sees it: where it stands, how many links a walk may follow, and the text
that it makes of a path, in which names that are no UTF-8 are changed. -/
structure View where
  tree : Tree
  cwd : Location
  directory : tree.entry cwd = some .directory
  links : ℕ
  toStringLossy : String → String

namespace Tree

section Entries

def lookup (entries : List (Location × Entry)) (location : Location) : Option Entry :=
  if location = [] then some .directory else entries.lookup location

def Proper (entries : List (Location × Entry)) : Prop :=
  ∀ x ∈ entries, lookup entries x.1.dropLast = some .directory ∧
    isName (x.1.getLastD []) = true ∧ '/' ∉ x.1.getLastD []

instance (entries : List (Location × Entry)) : Decidable (Proper entries) :=
  inferInstanceAs (Decidable (∀ x ∈ entries, _))

theorem Proper.of_lookup {entries : List (Location × Entry)} (h : Proper entries)
    {location : Location} {name : List Char} {e : Entry}
    (he : lookup entries (location ++ [name]) = some e) :
    lookup entries location = some .directory ∧ isName name = true ∧ '/' ∉ name := by
  rw [lookup, if_neg (by simp)] at he
  obtain ⟨before, after, hsplit, -⟩ := List.lookup_eq_some_iff.mp he
  have hentry := h (location ++ [name], e) (by simp [hsplit])
  simpa using hentry

def ofEntries (entries : List (Location × Entry)) (h : Proper entries) : Tree where
  entry := lookup entries
  root := rfl
  parent _ _ _ he := (h.of_lookup he).1
  named _ _ _ he := (h.of_lookup he).2

end Entries

variable (t : Tree)

def Holds (location : Location) : Prop :=
  t.entry location = some .directory ∨ t.entry location = some .file

/-- The walk below `location`; `follow` goes on where a link leads. -/
def walkSegments (follow : Location → List (List Char) → Option Location) :
    Location → List (List Char) → Option Location
  | location, [] => some location
  | location, segment :: rest =>
    if t.entry location ≠ some .directory then none
    else if isName segment then
      match t.entry (location ++ [segment]) with
      | none => none
      | some (.symlink target) =>
        follow (if isAbsolute target then [] else location) (segments target ++ rest)
      | some _ => walkSegments follow (location ++ [segment]) rest
    else if segment = ['.', '.'] then walkSegments follow location.dropLast rest
    else walkSegments follow location rest

def walk : ℕ → Location → List (List Char) → Option Location
  | 0 => t.walkSegments fun _ _ => none
  | links + 1 => t.walkSegments (walk links)

variable {t} {links : ℕ} {location location' : Location} {segment : List Char}
  {rest names : List (List Char)}

theorem walk_eq_walkSegments (links : ℕ) :
    ∃ follow, t.walk links = t.walkSegments follow ∧
      ∀ start rest location, follow start rest = some location →
        ∃ fewer < links, t.walk fewer start rest = some location := by
  cases links with
  | zero => exact ⟨_, rfl, fun _ _ _ h => by cases h⟩
  | succ links => exact ⟨_, rfl, fun _ _ _ h => ⟨links, links.lt_succ_self, h⟩⟩

theorem walk_nil (links : ℕ) (location : Location) : t.walk links location [] = some location := by
  cases links <;> rfl

theorem directory_of_walk (h : t.walk links location (segment :: rest) = some location') :
    t.entry location = some .directory := by
  by_contra hnot
  cases links <;> simp [walk, walkSegments, hnot] at h

theorem walk_name (hdir : t.entry location = some .directory) (hname : isName segment = true)
    {e : Entry} (he : t.entry (location ++ [segment]) = some e)
    (hlink : ∀ target, e ≠ .symlink target) :
    t.walk links location (segment :: rest) = t.walk links (location ++ [segment]) rest := by
  cases e with
  | symlink target => exact absurd rfl (hlink target)
  | directory | file => cases links <;> simp [walk, walkSegments, hdir, hname, he]

theorem walk_parent (hdir : t.entry location = some .directory) :
    t.walk links location (['.', '.'] :: rest) = t.walk links location.dropLast rest := by
  have hname : isName ['.', '.'] = false := by decide
  cases links <;> simp [walk, walkSegments, hdir, hname]

theorem walk_skip (hdir : t.entry location = some .directory) (hname : isName segment = false)
    (hup : segment ≠ ['.', '.']) :
    t.walk links location (segment :: rest) = t.walk links location rest := by
  cases links <;> simp [walk, walkSegments, hdir, hname, hup]

theorem walk_cons_cases (h : t.walk links location (segment :: rest) = some location') :
    t.entry location = some .directory ∧
    ((isName segment = true ∧ t.Holds (location ++ [segment]) ∧
        t.walk links (location ++ [segment]) rest = some location') ∨
      (isName segment = true ∧ ∃ target fewer, fewer < links ∧
        t.entry (location ++ [segment]) = some (.symlink target) ∧
        t.walk fewer (if isAbsolute target then [] else location) (segments target ++ rest) =
          some location') ∨
      (segment = ['.', '.'] ∧ t.walk links location.dropLast rest = some location') ∨
      (isName segment = false ∧ segment ≠ ['.', '.'] ∧
        t.walk links location rest = some location')) := by
  have hdir := directory_of_walk h
  refine ⟨hdir, ?_⟩
  by_cases hname : isName segment = true
  · cases he : t.entry (location ++ [segment]) with
    | none => cases links <;> simp [walk, walkSegments, hdir, hname, he] at h
    | some e =>
      cases e with
      | directory =>
        rw [walk_name hdir hname he (by simp)] at h
        exact .inl ⟨hname, .inl he, h⟩
      | file =>
        rw [walk_name hdir hname he (by simp)] at h
        exact .inl ⟨hname, .inr he, h⟩
      | symlink target =>
        obtain ⟨follow, hwalk, hfollow⟩ := walk_eq_walkSegments (t := t) links
        have hnext : follow (if isAbsolute target then [] else location)
            (segments target ++ rest) = some location' := by
          rw [hwalk] at h
          simpa [walkSegments, hdir, hname, he] using h
        obtain ⟨fewer, hfewer, hrest⟩ := hfollow _ _ _ hnext
        exact .inr (.inl ⟨hname, target, fewer, hfewer, rfl, hrest⟩)
  · rw [Bool.not_eq_true] at hname
    by_cases hup : segment = ['.', '.']
    · subst hup
      rw [walk_parent hdir] at h
      exact .inr (.inr (.inl ⟨rfl, h⟩))
    · rw [walk_skip hdir hname hup] at h
      exact .inr (.inr (.inr ⟨hname, hup, h⟩))

theorem directory_prefix {front : Location} {e : Entry} (h : t.entry (front ++ names) = some e)
    (hnames : names ≠ []) : t.entry front = some .directory := by
  induction names using List.reverseRecOn generalizing e with
  | nil => exact absurd rfl hnames
  | append_singleton names name ih =>
    rw [← List.append_assoc] at h
    have hparent := t.parent _ _ _ h
    by_cases hnil : names = []
    · subst hnil
      rwa [List.append_nil] at hparent
    · exact ih hparent hnil

theorem directory_dropLast (h : t.entry location = some .directory) :
    t.entry location.dropLast = some .directory := by
  rcases List.eq_nil_or_concat' location with rfl | ⟨front, name, rfl⟩
  · exact h
  · rw [List.dropLast_concat]
    exact t.parent _ _ _ h

theorem names_of_entry {e : Entry} (h : t.entry location = some e) :
    ∀ name ∈ location, isName name = true ∧ '/' ∉ name := by
  induction location using List.reverseRecOn generalizing e with
  | nil => simp
  | append_singleton front name ih =>
    intro other hother
    rcases List.mem_append.mp hother with hother | hother
    · exact ih (t.parent _ _ _ h) other hother
    · rw [List.mem_singleton.mp hother]
      exact t.named _ _ _ h

theorem Holds.entry (h : t.Holds location) :
    ∃ e, t.entry location = some e ∧ ∀ target, e ≠ .symlink target := by
  rcases h with h | h <;> exact ⟨_, h, by simp⟩

theorem Holds.entry_prefix {front : Location} (h : t.Holds (front ++ names)) :
    ∃ e, t.entry front = some e ∧ ∀ target, e ≠ .symlink target := by
  obtain ⟨e, he, hlink⟩ := h.entry
  by_cases hnil : names = []
  · subst hnil
    rw [List.append_nil] at he
    exact ⟨e, he, hlink⟩
  · exact ⟨_, directory_prefix he hnil, by simp⟩

theorem holds_of_walk (h : t.walk links location names = some location')
    (hstart : t.Holds location) : t.Holds location' := by
  induction links using Nat.strongRecOn generalizing location names with
  | _ links ih =>
    induction names generalizing location with
    | nil =>
      rw [walk_nil] at h
      exact Option.some.inj h ▸ hstart
    | cons segment rest ih_rest =>
      obtain ⟨hdir, ⟨-, hholds, hnext⟩ | ⟨-, target, fewer, hfewer, -, hnext⟩ | ⟨-, hnext⟩ |
        ⟨-, -, hnext⟩⟩ := walk_cons_cases h
      · exact ih_rest hnext hholds
      · refine ih fewer hfewer hnext ?_
        split_ifs
        · exact .inl t.root
        · exact hstart
      · exact ih_rest hnext (.inl (directory_dropLast hdir))
      · exact ih_rest hnext hstart

theorem walk_names (links : ℕ) (front : Location) (h : t.Holds (front ++ names)) :
    t.walk links front (names ++ rest) = t.walk links (front ++ names) rest := by
  induction names generalizing front with
  | nil => rw [List.append_nil, List.nil_append]
  | cons name names ih =>
    have hsplit : front ++ name :: names = front ++ [name] ++ names := by simp
    obtain ⟨e, he, -⟩ := h.entry
    have hdir := directory_prefix he (List.cons_ne_nil _ _)
    have hname := (names_of_entry he name (by simp)).1
    rw [hsplit] at h ⊢
    obtain ⟨e', he', hlink'⟩ := h.entry_prefix
    rw [List.cons_append, walk_name hdir hname he' hlink']
    exact ih _ h

def Meets (t : Tree) (links : ℕ) (start : Location) (names : List (List Char)) : Prop :=
  ∃ front name rest location target, names = front ++ name :: rest ∧ isName name = true ∧
    t.walk links start front = some location ∧
    t.entry (location ++ [name]) = some (.symlink target)

theorem meets_link (hname : isName segment = true) {target : Path}
    (hlink : t.entry (location ++ [segment]) = some (.symlink target)) :
    t.Meets links location (segment :: rest) :=
  ⟨[], segment, rest, location, target, rfl, hname, walk_nil _ _, hlink⟩

theorem meets_cons_iff {next : Location}
    (hmove : ∀ names, t.walk links location (segment :: names) = t.walk links next names)
    (hsegment : isName segment = true →
      ∀ target, t.entry (location ++ [segment]) ≠ some (.symlink target)) :
    t.Meets links location (segment :: rest) ↔ t.Meets links next rest := by
  constructor
  · rintro ⟨front, name, rest', found, target, hsplit, hname, hwalk, hlink⟩
    cases front with
    | nil =>
      obtain ⟨rfl, rfl⟩ := List.cons.inj hsplit
      rw [walk_nil] at hwalk
      obtain rfl := Option.some.inj hwalk
      exact absurd hlink (hsegment hname target)
    | cons first front =>
      obtain ⟨rfl, hrest⟩ := List.cons.inj hsplit
      rw [hmove] at hwalk
      exact ⟨front, name, rest', found, target, hrest, hname, hwalk, hlink⟩
  · rintro ⟨front, name, rest', found, target, hsplit, hname, hwalk, hlink⟩
    refine ⟨segment :: front, name, rest', found, target, by rw [hsplit]; rfl, hname, ?_, hlink⟩
    rw [hmove]
    exact hwalk

theorem not_meets_names {front : Location} (h : t.Holds (front ++ names)) :
    ¬ t.Meets links front names := by
  induction names generalizing front with
  | nil =>
    rintro ⟨before, name, rest, found, target, hsplit, -⟩
    exact absurd hsplit (by simp)
  | cons name names ih =>
    have hsplit : front ++ name :: names = front ++ [name] ++ names := by simp
    obtain ⟨e, he, -⟩ := h.entry
    have hdir := directory_prefix he (List.cons_ne_nil _ _)
    have hname := (names_of_entry he name (by simp)).1
    rw [hsplit] at h
    obtain ⟨e', he', hlink'⟩ := h.entry_prefix
    rw [meets_cons_iff (fun names => walk_name hdir hname he' hlink')
      fun _ target heq => hlink' target (Option.some.inj (he'.symm.trans heq))]
    exact ih h

theorem component?_of_skipped (hname : isName segment = false) (hup : segment ≠ ['.', '.']) :
    component? segment = none := by
  rw [isName, Bool.not_eq_false', Bool.or_eq_true, Bool.or_eq_true] at hname
  rcases hname with (hempty | hdot) | hdots
  · simp [component?, List.isEmpty_iff.mp hempty]
  · simp [component?, beq_iff_eq.mp hdot]
  · exact absurd (beq_iff_eq.mp hdots) hup

/-- Without a link on the way the walk follows the components alone. -/
theorem walk_eq_foldl (h : t.walk links location names = some location')
    (straight : ¬ t.Meets links location names) :
    location' = (names.filterMap component?).foldl Component.follow location := by
  induction names generalizing location with
  | nil =>
    rw [walk_nil] at h
    exact (Option.some.inj h).symm
  | cons segment rest ih =>
    obtain ⟨hdir, ⟨hname, hholds, hnext⟩ | ⟨hname, target, fewer, hfewer, hlink, hnext⟩ |
      ⟨rfl, hnext⟩ | ⟨hname, hup, hnext⟩⟩ := walk_cons_cases h
    · obtain ⟨e, he, hlink⟩ := hholds.entry
      rw [meets_cons_iff (fun names => walk_name hdir hname he hlink)
        fun _ target heq => hlink target (Option.some.inj (he.symm.trans heq))] at straight
      rw [List.filterMap_cons_some (component?_of_isName hname), List.foldl_cons]
      exact ih hnext straight
    · exact absurd (meets_link hname hlink) straight
    · rw [meets_cons_iff (fun names => walk_parent hdir) fun hname => by cases hname] at straight
      rw [List.filterMap_cons_some (b := .parentDir) (by decide), List.foldl_cons]
      exact ih hnext straight
    · rw [meets_cons_iff (fun names => walk_skip hdir hname hup)
        fun hname' => by rw [hname] at hname'; cases hname'] at straight
      rw [List.filterMap_cons_none (component?_of_skipped hname hup)]
      exact ih hnext straight

end Tree

section Path

def pathOf (location : Location) : Path :=
  if location = [] then ['/'] else location.flatMap ('/' :: ·)

def Whole (segment : List Char) : Prop := segment ≠ [] ∧ '/' ∉ segment

variable {location location' : Location} {segment : List Char}

theorem segments_flatMap (hwhole : ∀ other ∈ location, Whole other) (hsegment : '/' ∉ segment) :
    segments (segment ++ location.flatMap ('/' :: ·)) = segment :: location := by
  induction location generalizing segment with
  | nil =>
    rw [List.flatMap_nil, List.append_nil]
    exact List.splitOn_eq_singleton hsegment
  | cons name names ih =>
    rw [List.flatMap_cons, List.cons_append]
    refine (List.splitOn_append_cons_self_of_not_mem hsegment _).trans ?_
    rw [List.cons.injEq]
    exact ⟨rfl, ih (fun other hother => hwhole other (List.mem_cons_of_mem _ hother))
      (hwhole name List.mem_cons_self).2⟩

theorem slash_notMem_segments (path : Path) : ∀ other ∈ segments path, '/' ∉ other := by
  induction path with
  | nil => simp [segments]
  | cons c path ih =>
    have hcons : segments (c :: path) =
        if c == '/' then [] :: segments path else (segments path).modifyHead (List.cons c) :=
      List.splitOn_cons_eq_if_modifyHead c path
    obtain ⟨first, others, hpath⟩ := List.exists_cons_of_ne_nil (segments_ne_nil path)
    rw [hpath] at ih hcons
    rw [hcons]
    intro other hother
    split_ifs at hother with hc
    · rcases List.mem_cons.mp hother with rfl | hother
      · exact List.not_mem_nil
      · exact ih other hother
    · rcases List.mem_cons.mp hother with rfl | hother
      · have hne : '/' ≠ c := fun heq => hc (by rw [heq]; exact beq_self_eq_true c)
        exact List.not_mem_cons_of_ne_of_not_mem hne (ih first List.mem_cons_self)
      · exact ih other (List.mem_cons_of_mem _ hother)

theorem segments_pathOf (hwhole : ∀ other ∈ location, Whole other) :
    segments (pathOf location) = if location = [] then [[], []] else [] :: location := by
  rw [pathOf]
  split_ifs with hnil
  · rfl
  · have hsegments := segments_flatMap hwhole (List.not_mem_nil (a := '/'))
    rwa [List.nil_append] at hsegments

theorem isAbsolute_pathOf (location : Location) : isAbsolute (pathOf location) = true := by
  rw [pathOf]
  split_ifs with hnil
  · rfl
  · obtain ⟨name, names, rfl⟩ := List.exists_cons_of_ne_nil hnil
    rfl

theorem pathOf_ne_nil (location : Location) : pathOf location ≠ [] := by
  intro h
  have habsolute := isAbsolute_pathOf location
  rw [h] at habsolute
  cases habsolute

theorem components_pathOf (hnames : ∀ name ∈ location, isName name = true ∧ '/' ∉ name) :
    components (pathOf location) = .rootDir :: location.map .normal := by
  have hwhole : ∀ name ∈ location, Whole name := by
    intro name hname
    refine ⟨?_, (hnames name hname).2⟩
    rintro rfl
    exact absurd (hnames [] hname).1 (by decide)
  have hmap : location.filterMap component? = location.map .normal := by
    rw [← List.filterMap_eq_map]
    exact List.filterMap_congr fun name hname => component?_of_isName (hnames name hname).1
  rw [components, leading, if_pos (isAbsolute_pathOf location), segments_pathOf hwhole]
  split_ifs with hnil
  · subst hnil
    rfl
  · rw [List.filterMap_cons_none (by rfl), hmap]
    rfl

theorem not_absolute_of_slash_notMem (h : '/' ∉ segment) : isAbsolute segment = false := by
  cases segment with
  | nil => rfl
  | cons c rest =>
    have hc : c ≠ '/' := fun heq => h (heq ▸ List.mem_cons_self)
    simp [isAbsolute, hc]

theorem join_pathOf (hwhole : ∀ other ∈ location, Whole other)
    (hsegment : isAbsolute segment = false) :
    join (pathOf location) segment = pathOf (location ++ [segment]) := by
  rw [join, if_neg (by simp [hsegment])]
  rcases List.eq_nil_or_concat' location with rfl | ⟨front, name, rfl⟩
  · simp [pathOf]
  · obtain ⟨text, last, rfl⟩ := (List.eq_nil_or_concat' name).resolve_left
      (hwhole name (by simp)).1
    have hlast : last ≠ '/' := by
      rintro rfl
      exact (hwhole (text ++ ['/']) (by simp)).2 (by simp)
    have hpath : pathOf (front ++ [text ++ [last]]) =
        front.flatMap ('/' :: ·) ++ '/' :: text ++ [last] := by simp [pathOf]
    rw [hpath, List.getLast?_concat]
    simp [hlast, pathOf]

theorem segments_join_pathOf (hwhole : ∀ other ∈ location, Whole other) {path : Path}
    (hpath : isAbsolute path = false) :
    segments (join (pathOf location) path) = [] :: location ++ segments path := by
  have hfront : segments (location.flatMap ('/' :: ·)) = [] :: location := by
    have h := segments_flatMap hwhole (List.not_mem_nil (a := '/'))
    rwa [List.nil_append] at h
  have hflat : pathOf (location ++ [path]) = location.flatMap ('/' :: ·) ++ '/' :: path := by
    simp [pathOf]
  rw [join_pathOf hwhole hpath, hflat, segments_append, hfront]

end Path

namespace View

variable (v : View)

def origin (path : Path) : Location := if isAbsolute path then [] else v.cwd

/-- Where the path leads; the empty path leads nowhere. -/
def resolve (path : Path) : Option Location :=
  if path = [] then none else v.tree.walk v.links (v.origin path) (segments path)

/-- `lstat`: a link in the last place is not followed. -/
def lstat (path : Path) : Option Entry :=
  if path = [] then none
  else if isName ((segments path).getLastD []) then
    (v.tree.walk v.links (v.origin path) (segments path).dropLast).bind fun location =>
      if v.tree.entry location = some .directory then
        v.tree.entry (location ++ [(segments path).getLastD []])
      else none
  else (v.resolve path).bind v.tree.entry

def Linked (path : Path) : Prop := v.tree.Meets v.links (v.origin path) (segments path)

variable {v} {path : Path} {location : Location}

theorem holds_origin (path : Path) : v.tree.Holds (v.origin path) := by
  rw [origin]
  split_ifs
  · exact .inl v.tree.root
  · exact .inl v.directory

theorem holds_resolve (h : v.resolve path = some location) : v.tree.Holds location := by
  rw [resolve] at h
  split_ifs at h
  exact Tree.holds_of_walk h (holds_origin path)

theorem whole_of_holds (h : v.tree.Holds location) : ∀ name ∈ location, Whole name := by
  obtain ⟨e, he, -⟩ := h.entry
  intro name hname
  obtain ⟨hisName, hslash⟩ := Tree.names_of_entry he name hname
  refine ⟨?_, hslash⟩
  rintro rfl
  exact absurd hisName (by decide)

theorem walk_empty (v : View) (rest : List (List Char)) :
    v.tree.walk v.links [] ([] :: rest) = v.tree.walk v.links [] rest :=
  Tree.walk_skip v.tree.root (by decide) (by decide)

theorem resolve_pathOf (h : v.tree.Holds location) : v.resolve (pathOf location) = some location := by
  have hroot : v.tree.walk v.links [] location = some location := by
    have hwalk : v.tree.walk v.links [] (location ++ []) = _ := Tree.walk_names v.links [] h
    rwa [List.append_nil, List.nil_append, Tree.walk_nil] at hwalk
  rw [resolve, if_neg (pathOf_ne_nil location), origin, if_pos (isAbsolute_pathOf location),
    segments_pathOf (whole_of_holds h)]
  split_ifs with hnil
  · subst hnil
    rw [walk_empty, walk_empty, Tree.walk_nil]
  · rw [walk_empty, hroot]

theorem not_linked_pathOf (h : v.tree.Holds location) : ¬ v.Linked (pathOf location) := by
  have hskip : ∀ rest, v.tree.Meets v.links [] ([] :: rest) ↔ v.tree.Meets v.links [] rest :=
    fun rest => Tree.meets_cons_iff (fun names => walk_empty v names) fun hname => by cases hname
  rw [Linked, origin, if_pos (isAbsolute_pathOf location), segments_pathOf (whole_of_holds h)]
  split_ifs with hnil
  · subst hnil
    rw [hskip, hskip]
    exact Tree.not_meets_names h
  · rw [hskip]
    exact Tree.not_meets_names h

theorem locate_eq (cwd : Location) (path : Path) :
    locate cwd path = ((segments path).filterMap component?).foldl Component.follow
      (if isAbsolute path then [] else cwd) := by
  rw [locate, components, leading]
  split_ifs <;> rfl

theorem resolve_eq_locate (h : v.resolve path = some location) (hlinked : ¬ v.Linked path) :
    location = locate v.cwd path := by
  rw [resolve] at h
  split_ifs at h
  rw [locate_eq]
  exact Tree.walk_eq_foldl h hlinked

theorem lstat_of_not_name (hname : isName ((segments path).getLastD []) = false) {e : Entry}
    (h : v.lstat path = some e) : ∀ target, e ≠ .symlink target := by
  rw [lstat] at h
  split_ifs at h with hnil hlast
  · rw [hname] at hlast
    cases hlast
  · obtain ⟨location, hresolve, hentry⟩ := Option.bind_eq_some_iff.mp h
    obtain ⟨e', he', hlink⟩ := (holds_resolve hresolve).entry
    obtain rfl := Option.some.inj (he'.symm.trans hentry)
    exact hlink

theorem lstat_pathOf {front : List (List Char)} {name : List Char}
    (hwhole : ∀ other ∈ front, Whole other) (hname : isName name = true) (hslash : '/' ∉ name)
    (hwalk : v.tree.walk v.links [] front = some location)
    (hdir : v.tree.entry location = some .directory) :
    v.lstat (pathOf (front ++ [name])) = v.tree.entry (location ++ [name]) := by
  have hwhole' : ∀ other ∈ front ++ [name], Whole other := by
    intro other hother
    rcases List.mem_append.mp hother with hother | hother
    · exact hwhole other hother
    · obtain rfl := List.mem_singleton.mp hother
      refine ⟨?_, hslash⟩
      rintro rfl
      exact absurd hname (by decide)
  have hsegments : segments (pathOf (front ++ [name])) = [] :: front ++ [name] := by
    rw [segments_pathOf hwhole', if_neg (by simp)]
    rfl
  rw [lstat, if_neg (pathOf_ne_nil _), hsegments, List.getLastD_concat, if_pos hname,
    List.dropLast_concat, origin, if_pos (isAbsolute_pathOf _), walk_empty, hwalk, Option.bind_some,
    if_pos hdir]

end View

end OpenDaemon.FileTree
