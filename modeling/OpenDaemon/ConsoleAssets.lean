import OpenDaemon.UnixPath

/-!
# The files the console is served from

The path of a request names a file below the directory of the built assets (`asset_below`),
or the index is served in its place.
-/

namespace OpenDaemon.Console

open UnixPath

def sanitizePath (path : String) : Option Path :=
  let trimmed := path.toList.dropWhile (· == '/')
  if trimmed.isEmpty || (trimmed.splitOn '/').any (fun segment =>
      segment.isEmpty || segment == ['.'] || segment == ['.', '.']) then none
  else some trimmed

def asset (dist : Path) (isFile : Path → Bool) (path : String) : Option Path :=
  ((sanitizePath path).map (join dist)).filter isFile

section Sanitize

variable {path : String} {p : Path}

theorem plain_of_sanitizePath (h : sanitizePath path = some p) : Plain p := by
  simp only [sanitizePath, Option.ite_none_left_eq_some, Option.some.injEq] at h
  obtain ⟨hclean, rfl⟩ := h
  intro segment hsegment
  rw [isName, Bool.not_eq_true']
  rw [Bool.not_eq_true, Bool.or_eq_false_iff, List.any_eq_false] at hclean
  exact eq_false_of_ne_true (hclean.2 segment hsegment)

theorem sanitizePath_plain (n : ℕ) (h : Plain p) :
    sanitizePath (String.ofList (List.replicate n '/' ++ p)) = some p := by
  have hstart : p.dropWhile (· == '/') = p := by
    cases p with
    | nil => rfl
    | cons c rest =>
      have hc : c ≠ '/' := by
        simpa [isAbsolute] using h.not_absolute
      rw [List.dropWhile_cons_of_neg (by simpa using hc)]
  have htrimmed : (List.replicate n '/' ++ p).dropWhile (· == '/') = p := by
    rw [List.dropWhile_append_of_pos (by simp), hstart]
  have hempty : p.isEmpty = false := List.isEmpty_eq_false_iff.mpr h.ne_nil
  have hnone : (p.splitOn '/').any (fun segment =>
      segment.isEmpty || segment == ['.'] || segment == ['.', '.']) = false := by
    rw [List.any_eq_false]
    intro segment hsegment
    simpa [isName] using h segment hsegment
  simp only [sanitizePath, String.toList_ofList, htrimmed, hempty, hnone, Bool.or_self,
    Bool.false_eq_true, if_false]

end Sanitize

/-- The path is relative, and its components are its segments: none is empty, a dot or two. -/
structure NormalRelative (p : Path) : Prop where
  relative : isAbsolute p = false
  components : components p = (segments p).map .normal

theorem normalRelative_of_plain {p : Path} (h : Plain p) : NormalRelative p :=
  ⟨h.not_absolute, h.components_eq⟩

/-- Joined to the directory, the path leads strictly below it, wherever that is. -/
def StaysBelow (p : Path) : Prop :=
  ∀ (cwd : Location) (dist : Path), ∃ names ≠ [], locate cwd (join dist p) = locate cwd dist ++ names

theorem staysBelow_of_plain {p : Path} (h : Plain p) : StaysBelow p :=
  fun cwd dist => ⟨segments p, segments_ne_nil p, locate_join cwd dist h⟩

/-- What passes is relative and normal and stays below the directory; and every relative path of
names passes, as it is, behind any number of slashes. -/
theorem sanitizePath_spec :
    (∀ path p, sanitizePath path = some p → NormalRelative p ∧ StaysBelow p) ∧
    ∀ n p, (∀ segment ∈ segments p, segment ≠ [] ∧ segment ≠ ['.'] ∧ segment ≠ ['.', '.']) →
      sanitizePath (String.ofList (List.replicate n '/' ++ p)) = some p := by
  constructor
  · intro path p h
    have hplain := plain_of_sanitizePath h
    exact ⟨normalRelative_of_plain hplain, staysBelow_of_plain hplain⟩
  · intro n p h
    refine sanitizePath_plain n fun segment hsegment => ?_
    obtain ⟨hempty, hdot, hdots⟩ := h segment hsegment
    simp [isName, hempty, hdot, hdots]

/-- Whatever is requested, an asset that is read lies below the directory. -/
theorem asset_below {dist asset : Path} {isFile : Path → Bool} {path : String}
    (h : Console.asset dist isFile path = some asset) (cwd : Location) :
    ∃ names ≠ [], locate cwd asset = locate cwd dist ++ names := by
  obtain ⟨hmap, -⟩ := Option.filter_eq_some_iff.mp h
  obtain ⟨p, hp, rfl⟩ := Option.map_eq_some_iff.mp hmap
  exact staysBelow_of_plain (plain_of_sanitizePath hp) cwd dist

end OpenDaemon.Console
