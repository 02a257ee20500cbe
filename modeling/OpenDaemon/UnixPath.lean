import Mathlib.Data.List.Basic
import Mathlib.Tactic.Common

/-!
# Paths on Unix

A path is a text in which slashes separate segments. Its components say where it leads:
from the root or from the working directory, down to a name or up to the parent. A path
whose segments are all names leads strictly below any directory it is joined to.
-/

namespace OpenDaemon.UnixPath

abbrev Path : Type := List Char

abbrev Location : Type := List (List Char)

inductive Component
  | rootDir
  | curDir
  | parentDir
  | normal (name : List Char)
  deriving DecidableEq, Repr

def isAbsolute (path : Path) : Bool := path.head? == some '/'

def segments (path : Path) : List (List Char) := path.splitOn '/'

/-- An empty segment and a dot name nothing. -/
def component? (segment : List Char) : Option Component :=
  if segment = [] ∨ segment = ['.'] then none
  else if segment = ['.', '.'] then some .parentDir
  else some (.normal segment)

/-- A dot is a component at the start of a relative path only. -/
def leading (path : Path) : List Component :=
  if isAbsolute path then [.rootDir]
  else if (segments path).head? = some ['.'] then [.curDir]
  else []

def components (path : Path) : List Component :=
  leading path ++ (segments path).filterMap component?

/-- `PathBuf::push`: an absolute path takes the place of the base. -/
def join (base path : Path) : Path :=
  if isAbsolute path then path
  else match base.getLast? with
    | none => path
    | some last => if last = '/' then base ++ path else base ++ '/' :: path

def Component.follow (location : Location) : Component → Location
  | .rootDir => []
  | .curDir => location
  | .parentDir => location.dropLast
  | .normal name => location ++ [name]

/-- Where the path leads if no name on it is a symbolic link. -/
def locate (cwd : Location) (path : Path) : Location := (components path).foldl Component.follow cwd

def isName (segment : List Char) : Bool :=
  !(segment.isEmpty || segment == ['.'] || segment == ['.', '.'])

def Plain (path : Path) : Prop := ∀ segment ∈ segments path, isName segment = true

variable {path base front : Path} {segment : List Char}

theorem component?_of_isName (h : isName segment = true) :
    component? segment = some (.normal segment) := by
  simp only [isName, Bool.not_eq_true', Bool.or_eq_false_iff, List.isEmpty_eq_false_iff,
    beq_eq_false_iff_ne, ne_eq] at h
  rw [component?, if_neg (not_or.mpr ⟨h.1.1, h.1.2⟩), if_neg h.2]

theorem segments_ne_nil (path : Path) : segments path ≠ [] := List.splitOn_ne_nil _ _

theorem segments_append (path path' : Path) :
    segments (path ++ '/' :: path') = segments path ++ segments path' :=
  List.splitOn_append_cons_self path path'

namespace Plain

variable (h : Plain path)

include h

theorem ne_nil : path ≠ [] := by
  rintro rfl
  exact absurd (h [] (by simp [segments])) (by decide)

theorem not_absolute : isAbsolute path = false := by
  cases path with
  | nil => rfl
  | cons c rest =>
    by_cases hc : c = '/'
    · subst hc
      have hempty : [] ∈ segments ('/' :: rest) := by
        rw [← List.nil_append ('/' :: rest), segments_append]
        simp [segments]
      exact absurd (h [] hempty) (by decide)
    · simp [isAbsolute, hc]

theorem filterMap : (segments path).filterMap component? = (segments path).map .normal := by
  rw [← List.filterMap_eq_map]
  exact List.filterMap_congr fun segment hsegment => component?_of_isName (h segment hsegment)

theorem components_eq : components path = (segments path).map .normal := by
  have hleading : leading path = [] := by
    rw [leading, if_neg (by simp [h.not_absolute]), if_neg]
    intro hdot
    exact absurd (h _ (List.mem_of_mem_head? hdot)) (by decide)
  rw [components, hleading, List.nil_append, h.filterMap]

end Plain

theorem leading_append (hfront : front ≠ []) : leading (front ++ '/' :: path) = leading front := by
  have habsolute : isAbsolute (front ++ '/' :: path) = isAbsolute front := by
    rw [isAbsolute, isAbsolute, List.head?_append_of_ne_nil front hfront]
  have hhead : (segments (front ++ '/' :: path)).head? = (segments front).head? := by
    rw [segments_append, List.head?_append_of_ne_nil _ (segments_ne_nil front)]
  rw [leading, leading, habsolute, hhead]

theorem leading_slash (front path path' : Path) :
    leading (front ++ '/' :: path) = leading (front ++ '/' :: path') := by
  by_cases hfront : front = []
  · subst hfront
    rfl
  · rw [leading_append hfront, leading_append hfront]

theorem components_join (base : Path) (h : Plain path) :
    components (join base path) = components base ++ (segments path).map .normal := by
  have hjoin : ∀ front, components (front ++ '/' :: path) =
      leading (front ++ ['/']) ++ (segments front).filterMap component? ++
        (segments path).map .normal := by
    intro front
    rw [components, leading_slash front path [], segments_append, List.filterMap_append,
      h.filterMap, List.append_assoc]
  unfold join
  rw [if_neg (by simp [h.not_absolute])]
  rcases List.eq_nil_or_concat' base with rfl | ⟨front, last, rfl⟩
  · exact h.components_eq
  simp only [List.getLast?_concat]
  split_ifs with hlast
  · subst hlast
    have hbase : components (front ++ ['/']) =
        leading (front ++ ['/']) ++ (segments front).filterMap component? := by
      rw [components, segments_append, List.filterMap_append]
      simp [segments, component?]
    rw [List.append_assoc, List.singleton_append, hjoin, hbase]
  · rw [hjoin, components]
    congr 2
    exact leading_append (by simp)

theorem foldl_follow_normal (location : Location) (names : List (List Char)) :
    (names.map Component.normal).foldl Component.follow location = location ++ names := by
  induction names generalizing location with
  | nil => simp
  | cons name names ih =>
    rw [List.map_cons, List.foldl_cons, ih, Component.follow, List.append_assoc,
      List.singleton_append]

theorem locate_join (cwd : Location) (base : Path) (h : Plain path) :
    locate cwd (join base path) = locate cwd base ++ segments path := by
  rw [locate, components_join base h, List.foldl_append, foldl_follow_normal]
  rfl

end OpenDaemon.UnixPath
