import Mathlib.Data.List.Induction
import Mathlib.Data.List.Sort
import Mathlib.Tactic.Common

/-!
# Lists ordered by a key

An entry that arrives takes the place of the one with its key. After any number of
arrivals the list is determined by them: it holds, for each key, the last entry that
came with it, and it is ordered by the key.
-/

namespace OpenDaemon.LatestEntries

variable {α κ : Type*} [LinearOrder κ] (key : α → κ)

def sortByKey (entries : List α) : List α := entries.mergeSort fun a b => decide (key a ≤ key b)

def upsert (entries : List α) (next : α) : List α :=
  sortByKey key (entries.filter (fun e => decide (key e ≠ key next)) ++ [next])

def latest (arrivals : List α) (k : κ) : Option α :=
  arrivals.reverse.find? fun e => decide (key e = k)

def Ordered (entries : List α) : Prop := entries.Pairwise fun a b => key a < key b

/-- The list holds the last arrival for each key, in the order of the keys. -/
structure Holds (arrivals entries : List α) : Prop where
  ordered : Ordered key entries
  mem_iff : ∀ e, e ∈ entries ↔ latest key arrivals (key e) = some e

variable {key}
variable {arrivals arrivals' entries entries' : List α} {e next : α} {k : κ}

section Sorting

theorem sortByKey_perm (entries : List α) : (sortByKey key entries).Perm entries :=
  List.mergeSort_perm entries _

theorem sortByKey_pairwise (entries : List α) :
    (sortByKey key entries).Pairwise fun a b => key a ≤ key b := by
  have hsorted : (sortByKey key entries).Pairwise fun a b => decide (key a ≤ key b) = true := by
    refine List.pairwise_mergeSort ?_ ?_ entries
    · intro a b c hab hbc
      exact decide_eq_true (le_trans (of_decide_eq_true hab) (of_decide_eq_true hbc))
    · intro a b
      simpa using le_total (key a) (key b)
  exact hsorted.imp of_decide_eq_true

theorem mem_sortByKey : e ∈ sortByKey key entries ↔ e ∈ entries :=
  (sortByKey_perm entries).mem_iff

theorem ordered_of_nodup (hsorted : entries.Pairwise fun a b => key a ≤ key b)
    (hnodup : (entries.map key).Nodup) : Ordered key entries := by
  have hne : entries.Pairwise fun a b => key a ≠ key b := List.pairwise_map.mp hnodup
  exact hsorted.imp₂ (fun _ _ hle hne => lt_of_le_of_ne hle hne) hne

theorem Ordered.nodup (h : Ordered key entries) : (entries.map key).Nodup :=
  List.pairwise_map.mpr (h.imp ne_of_lt)

theorem ordered_sortByKey (hnodup : (entries.map key).Nodup) :
    Ordered key (sortByKey key entries) :=
  ordered_of_nodup (sortByKey_pairwise entries)
    (((sortByKey_perm entries).map key).nodup_iff.mpr hnodup)

end Sorting

section Latest

@[simp] theorem latest_nil : latest key [] k = none := rfl

theorem latest_concat : latest key (arrivals ++ [next]) k =
    if key next = k then some next else latest key arrivals k := by
  by_cases h : key next = k <;> simp [latest, h]

theorem latest_append : latest key (arrivals ++ arrivals') k =
    (latest key arrivals' k).or (latest key arrivals k) := by
  simp [latest, List.find?_append]

theorem latest_eq_none_iff : latest key arrivals k = none ↔ ∀ e ∈ arrivals, key e ≠ k := by
  simp [latest]

theorem key_of_latest (h : latest key arrivals k = some e) : key e = k := by
  simpa using List.find?_some h

theorem mem_of_latest (h : latest key arrivals k = some e) : e ∈ arrivals := by
  simpa using List.mem_of_find?_eq_some h

theorem latest_eq_some_iff : latest key arrivals k = some e ↔ key e = k ∧
    ∃ before after, arrivals = before ++ e :: after ∧ ∀ x ∈ after, key x ≠ k := by
  constructor
  · intro h
    refine ⟨key_of_latest h, ?_⟩
    obtain ⟨-, later, earlier, hreverse, hlater⟩ := List.find?_eq_some_iff_append.mp h
    have harrivals : arrivals = earlier.reverse ++ e :: later.reverse := by
      rw [← List.reverse_reverse arrivals, hreverse]
      simp
    refine ⟨earlier.reverse, later.reverse, harrivals, fun x hx => ?_⟩
    simpa using hlater x (List.mem_reverse.mp hx)
  · rintro ⟨hkey, before, after, rfl, hafter⟩
    have hnone : latest key after k = none := latest_eq_none_iff.mpr hafter
    have hcons : before ++ e :: after = (before ++ [e]) ++ after := by simp
    rw [hcons, latest_append, hnone, latest_concat, if_pos hkey]
    rfl

theorem exists_latest (h : e ∈ arrivals) : ∃ e', latest key arrivals (key e) = some e' := by
  cases hlatest : latest key arrivals (key e) with
  | none => exact absurd rfl (latest_eq_none_iff.mp hlatest e h)
  | some e' => exact ⟨e', rfl⟩

theorem latest_of_nodup (hnodup : (arrivals.map key).Nodup) :
    latest key arrivals (key e) = some e ↔ e ∈ arrivals := by
  constructor
  · exact mem_of_latest
  · intro hmem
    obtain ⟨e', he'⟩ : ∃ e', latest key arrivals (key e) = some e' := exists_latest hmem
    have hsame : e' = e :=
      List.inj_on_of_nodup_map hnodup (mem_of_latest he') hmem (key_of_latest he')
    rw [he', hsame]

theorem latest_replay (h : arrivals' <:+ arrivals) :
    latest key (arrivals ++ arrivals') k = latest key arrivals k := by
  obtain ⟨before, rfl⟩ := h
  rw [latest_append, latest_append]
  cases latest key arrivals' k <;> rfl

end Latest

section Fold

theorem holds_nil : Holds key [] [] := by
  refine ⟨List.Pairwise.nil, fun e => ?_⟩
  simp

theorem nodup_upsert (h : Ordered key entries) :
    ((entries.filter (fun e => decide (key e ≠ key next)) ++ [next]).map key).Nodup := by
  rw [List.map_append, List.nodup_append]
  refine ⟨?_, by simp, ?_⟩
  · exact (List.filter_sublist.map key).nodup h.nodup
  · intro k hk k' hk'
    obtain ⟨e, he, rfl⟩ := List.mem_map.mp hk
    obtain rfl : k' = key next := by simpa using hk'
    simpa using List.of_mem_filter he

theorem ordered_upsert (h : Ordered key entries) : Ordered key (upsert key entries next) :=
  ordered_sortByKey (nodup_upsert h)

theorem mem_upsert : e ∈ upsert key entries next ↔ (e ∈ entries ∧ key e ≠ key next) ∨ e = next := by
  rw [upsert, mem_sortByKey]
  simp

theorem Holds.upsert (h : Holds key arrivals entries) :
    Holds key (arrivals ++ [next]) (LatestEntries.upsert key entries next) := by
  refine ⟨ordered_upsert h.ordered, fun e => ?_⟩
  rw [mem_upsert, latest_concat]
  by_cases hkey : key next = key e
  · simp [hkey, eq_comm]
  · have hne : e ≠ next := fun heq => hkey (by rw [heq])
    simp [hkey, hne, Ne.symm hkey, h.mem_iff]

theorem holds_foldl (arrivals : List α) :
    Holds key arrivals (arrivals.foldl (LatestEntries.upsert key) []) := by
  induction arrivals using List.reverseRecOn with
  | nil => exact holds_nil
  | append_singleton arrivals next ih =>
    rw [List.foldl_append]
    exact ih.upsert

theorem Holds.foldl (h : Holds key arrivals entries) (next : List α) :
    Holds key (arrivals ++ next) (next.foldl (LatestEntries.upsert key) entries) := by
  induction next generalizing arrivals entries with
  | nil => simpa using h
  | cons e next ih => simpa using ih h.upsert

theorem Holds.find?_eq (h : Holds key arrivals entries) (k : κ) :
    entries.find? (fun e => decide (key e = k)) = latest key arrivals k := by
  cases hfind : entries.find? fun e => decide (key e = k) with
  | some e =>
    have hkey : key e = k := by simpa using List.find?_some hfind
    rw [← hkey, (h.mem_iff e).mp (List.mem_of_find?_eq_some hfind)]
  | none =>
    symm
    by_contra hne
    obtain ⟨e, he⟩ := Option.ne_none_iff_exists'.mp hne
    obtain rfl := key_of_latest he
    have hmem : e ∈ entries := (h.mem_iff e).mpr he
    exact List.find?_eq_none.mp hfind e hmem (decide_eq_true rfl)

theorem Holds.eq_of_latest (h : Holds key arrivals entries) (h' : Holds key arrivals' entries')
    (hlatest : ∀ k, latest key arrivals k = latest key arrivals' k) : entries = entries' := by
  have hirrefl : Std.Irrefl fun a b : α => key a < key b := ⟨fun a => lt_irrefl (key a)⟩
  have hantisymm : Std.Antisymm fun a b : α => key a < key b :=
    ⟨fun a b hab hba => absurd hab (lt_asymm hba)⟩
  refine List.Pairwise.eq_of_mem_iff h.ordered h'.ordered fun e => ?_
  rw [h.mem_iff, h'.mem_iff, hlatest]

theorem latest_perm (hperm : arrivals.Perm arrivals') (hnodup : (arrivals.map key).Nodup) (k : κ) :
    latest key arrivals k = latest key arrivals' k := by
  have hnodup' : (arrivals'.map key).Nodup := (hperm.map key).nodup_iff.mp hnodup
  cases h : latest key arrivals k with
  | none =>
    symm
    rw [latest_eq_none_iff] at h ⊢
    exact fun e he => h e (hperm.mem_iff.mpr he)
  | some e =>
    obtain rfl := key_of_latest h
    symm
    exact (latest_of_nodup hnodup').mpr (hperm.mem_iff.mp (mem_of_latest h))

/-- A list that is only kept sorted holds the last arrivals exactly when no key came twice. -/
theorem holds_sorted_iff (hperm : entries.Perm arrivals)
    (hsorted : entries.Pairwise fun a b => key a ≤ key b) :
    Holds key arrivals entries ↔ (arrivals.map key).Nodup := by
  have hkeys := (hperm.map key).nodup_iff
  constructor
  · intro h
    exact hkeys.mp h.ordered.nodup
  · intro hnodup
    refine ⟨ordered_of_nodup hsorted (hkeys.mpr hnodup), fun e => ?_⟩
    rw [latest_of_nodup hnodup, hperm.mem_iff]

end Fold

end OpenDaemon.LatestEntries
