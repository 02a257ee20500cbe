import Mathlib.Data.List.Pairwise
import Mathlib.Order.Lattice
import Mathlib.Tactic.Common

/-!
# Tables with integer row ids

A table is the list of its rows in rowid order. A new row takes the largest
rowid present plus one, and one in an empty table, so a rowid can be assigned
again after its row was deleted. A keyed table derives the key of each row
from its rowid by an injective function; then a key names at most one row.
-/

namespace OpenDaemon.RowTable

variable {α κ : Type*}

structure Row (α : Type*) where
  rowid : ℕ
  value : α

def maxRowid (rows : List (Row α)) : ℕ := (rows.map Row.rowid).foldr max 0

def nextRowid (rows : List (Row α)) : ℕ := maxRowid rows + 1

def insert (rows : List (Row α)) (mk : ℕ → α) : List (Row α) :=
  rows ++ [⟨nextRowid rows, mk (nextRowid rows)⟩]

def lookup (rows : List (Row α)) (p : α → Bool) : Option α :=
  (rows.find? fun r => p r.value).map Row.value

def update (rows : List (Row α)) (p : α → Bool) (f : α → α) : List (Row α) :=
  rows.map fun r => if p r.value then ⟨r.rowid, f r.value⟩ else r

def delete (rows : List (Row α)) (p : α → Bool) : List (Row α) :=
  rows.filter fun r => !p r.value

theorem le_maxRowid {rows : List (Row α)} {r : Row α} (h : r ∈ rows) : r.rowid ≤ maxRowid rows := by
  induction rows with
  | nil => cases h
  | cons q rows ih =>
    simp only [maxRowid, List.map_cons, List.foldr_cons]
    rcases List.mem_cons.mp h with rfl | h
    · exact le_max_left _ _
    · exact (ih h).trans (le_max_right _ _)

theorem lt_nextRowid {rows : List (Row α)} {r : Row α} (h : r ∈ rows) :
    r.rowid < nextRowid rows :=
  Nat.lt_succ_of_le (le_maxRowid h)

theorem maxRowid_mem {rows : List (Row α)} (h : rows ≠ []) :
    ∃ r ∈ rows, r.rowid = maxRowid rows := by
  induction rows with
  | nil => cases h rfl
  | cons q rows ih =>
    simp only [maxRowid, List.map_cons, List.foldr_cons]
    by_cases hr : rows = []
    · subst hr
      exact ⟨q, List.mem_cons_self, by simp⟩
    · obtain ⟨r, hmem, heq⟩ := ih hr
      rcases le_total q.rowid r.rowid with hle | hle
      · refine ⟨r, List.mem_cons_of_mem _ hmem, ?_⟩
        change r.rowid = max q.rowid (maxRowid rows)
        omega
      · refine ⟨q, List.mem_cons_self, ?_⟩
        change q.rowid = max q.rowid (maxRowid rows)
        omega

theorem mem_insert {rows : List (Row α)} {mk : ℕ → α} {r : Row α} :
    r ∈ insert rows mk ↔ r ∈ rows ∨ r = ⟨nextRowid rows, mk (nextRowid rows)⟩ := by
  simp [insert]

theorem mem_update {rows : List (Row α)} {p : α → Bool} {f : α → α} {r : Row α} :
    r ∈ update rows p f ↔
      ∃ q ∈ rows, r = if p q.value then ⟨q.rowid, f q.value⟩ else q := by
  simp only [update, List.mem_map]
  exact exists_congr fun q => and_congr_right fun _ => eq_comm

theorem map_value_update (rows : List (Row α)) (p : α → Bool) (f : α → α) :
    (update rows p f).map Row.value =
      (rows.map Row.value).map fun v => if p v then f v else v := by
  simp only [update, List.map_map]
  refine List.map_congr_left fun r _ => ?_
  simp only [Function.comp]
  split <;> rfl

theorem lookup_mem {rows : List (Row α)} {p : α → Bool} {v : α} (h : lookup rows p = some v) :
    ∃ r ∈ rows, r.value = v ∧ p v = true := by
  obtain ⟨r, hr, rfl⟩ := Option.map_eq_some_iff.mp h
  exact ⟨r, List.mem_of_find?_eq_some hr, rfl, by simpa using List.find?_some hr⟩

theorem lookup_none {rows : List (Row α)} {p : α → Bool} :
    lookup rows p = none ↔ ∀ r ∈ rows, p r.value = false := by
  simp [lookup]

theorem lookup_insert {rows : List (Row α)} {mk : ℕ → α} {p : α → Bool} :
    lookup (insert rows mk) p = (lookup rows p).or
      (if p (mk (nextRowid rows)) then some (mk (nextRowid rows)) else none) := by
  simp only [lookup, insert, List.find?_append]
  cases hfind : rows.find? fun r => p r.value with
  | some r => simp
  | none =>
    by_cases hp : p (mk (nextRowid rows))
    · simp [hp]
    · simp [hp]

theorem lookup_update [DecidableEq κ] {key : α → κ} {f : α → α} {k k' : κ}
    (hf : ∀ v, key (f v) = key v) (rows : List (Row α)) :
    lookup (update rows (fun v => decide (key v = k)) f) (fun v => decide (key v = k')) =
      (lookup rows fun v => decide (key v = k')).map fun v => if key v = k then f v else v := by
  induction rows with
  | nil => rfl
  | cons r rows ih =>
    simp only [lookup, update, List.map_cons, List.find?_cons] at ih ⊢
    by_cases hk : key r.value = k
    · by_cases hk' : k = k'
      · simp [hk, hk', hf]
      · simpa [hk, hk', hf] using ih
    · by_cases hk' : key r.value = k'
      · simp [hk', show k' ≠ k from fun h => hk (hk'.trans h)]
      · simpa [hk, hk'] using ih

theorem lookup_delete {rows : List (Row α)} {p p' : α → Bool} (h : ∀ v, p' v → ¬ p v) :
    lookup (delete rows p) p' = lookup rows p' := by
  induction rows with
  | nil => rfl
  | cons r rows ih =>
    simp only [lookup, delete] at ih ⊢
    by_cases hp : p r.value
    · have hp' : p' r.value = false := by
        by_contra hn
        exact h r.value (by simpa using hn) hp
      simpa [hp, hp'] using ih
    · by_cases hp' : p' r.value
      · simp [hp, hp']
      · simpa [hp, hp'] using ih

def Within (rows : List (Row α)) (m : ℕ) : Prop := ∀ r ∈ rows, 1 ≤ r.rowid ∧ r.rowid ≤ m

theorem Within.maxRowid_le {rows : List (Row α)} {m : ℕ} (h : Within rows m) :
    maxRowid rows ≤ m := by
  by_cases hr : rows = []
  · subst hr
    exact Nat.zero_le m
  · obtain ⟨r, hmem, heq⟩ := maxRowid_mem hr
    exact heq ▸ (h r hmem).2

theorem Within.insert {rows : List (Row α)} {m : ℕ} (h : Within rows m) (mk : ℕ → α) :
    Within (insert rows mk) (max m (nextRowid rows)) := by
  intro r hr
  rcases mem_insert.mp hr with hr | rfl
  · obtain ⟨h1, hm⟩ := h r hr
    omega
  · exact ⟨Nat.le_add_left 1 _, le_max_right _ _⟩

theorem Within.delete {rows : List (Row α)} {m : ℕ} (h : Within rows m) (p : α → Bool) :
    Within (delete rows p) m :=
  fun r hr => h r (List.mem_filter.mp hr).1

theorem Within.lt_nextRowid_iff {rows : List (Row α)} {m : ℕ} (h : Within rows m) :
    m < nextRowid rows ↔ m = 0 ∨ ∃ r ∈ rows, r.rowid = m := by
  constructor
  · intro hlt
    have hle := h.maxRowid_le
    have hmax : maxRowid rows = m := by
      unfold nextRowid at hlt
      omega
    by_cases hr : rows = []
    · subst hr
      exact .inl hmax.symm
    · obtain ⟨r, hmem, heq⟩ := maxRowid_mem hr
      exact .inr ⟨r, hmem, heq.trans hmax⟩
  · rintro (rfl | ⟨r, hmem, rfl⟩)
    · exact Nat.succ_pos _
    · exact lt_nextRowid hmem

section Keyed
variable {key : α → κ} {keyOf : ℕ → κ}

/-- Rows in increasing rowid order whose keys are derived from their rowids. -/
structure Keyed (key : α → κ) (keyOf : ℕ → κ) (rows : List (Row α)) : Prop where
  derived : ∀ r ∈ rows, key r.value = keyOf r.rowid
  ordered : rows.Pairwise fun r q => r.rowid < q.rowid

theorem Keyed.nil : Keyed key keyOf ([] : List (Row α)) :=
  ⟨by simp, List.Pairwise.nil⟩

theorem Keyed.insert {rows : List (Row α)} {mk : ℕ → α} (h : Keyed key keyOf rows)
    (hmk : ∀ n, key (mk n) = keyOf n) : Keyed key keyOf (insert rows mk) := by
  refine ⟨fun r hr => ?_, ?_⟩
  · rcases mem_insert.mp hr with hr | rfl
    · exact h.derived r hr
    · exact hmk _
  · refine List.pairwise_append.mpr ⟨h.ordered, List.pairwise_singleton _ _, ?_⟩
    intro r hr q hq
    obtain rfl := List.mem_singleton.mp hq
    exact lt_nextRowid hr

theorem Keyed.update {rows : List (Row α)} {p : α → Bool} {f : α → α}
    (h : Keyed key keyOf rows) (hf : ∀ v, key (f v) = key v) :
    Keyed key keyOf (update rows p f) := by
  refine ⟨fun r hr => ?_, ?_⟩
  · obtain ⟨q, hq, rfl⟩ := mem_update.mp hr
    split
    · exact (hf _).trans (h.derived q hq)
    · exact h.derived q hq
  · refine List.pairwise_map.mpr (h.ordered.imp ?_)
    intro r q hlt
    split <;> split <;> exact hlt

theorem Keyed.delete {rows : List (Row α)} {p : α → Bool} (h : Keyed key keyOf rows) :
    Keyed key keyOf (delete rows p) :=
  ⟨fun r hr => h.derived r (List.mem_filter.mp hr).1, h.ordered.filter _⟩

theorem Keyed.next_fresh {rows : List (Row α)} (inj : Function.Injective keyOf)
    (h : Keyed key keyOf rows) {r : Row α} (hr : r ∈ rows) :
    key r.value ≠ keyOf (nextRowid rows) := by
  intro he
  have hlt := lt_nextRowid hr
  have heq := inj ((h.derived r hr).symm.trans he)
  omega

theorem Keyed.unique {rows : List (Row α)} (inj : Function.Injective keyOf)
    (h : Keyed key keyOf rows) {r q : Row α} (hr : r ∈ rows) (hq : q ∈ rows)
    (he : key r.value = key q.value) : r = q := by
  have hid : r.rowid = q.rowid := inj (by rw [← h.derived r hr, ← h.derived q hq, he])
  by_contra hne
  have : Std.Symm fun a b : Row α => a.rowid ≠ b.rowid := ⟨fun _ _ hab => hab.symm⟩
  have hsep : rows.Pairwise fun a b => a.rowid ≠ b.rowid := h.ordered.imp Nat.ne_of_lt
  exact hsep.forall hr hq hne hid

theorem Keyed.nodup {rows : List (Row α)} (inj : Function.Injective keyOf)
    (h : Keyed key keyOf rows) : (rows.map fun r => key r.value).Nodup := by
  refine List.pairwise_map.mpr (h.ordered.imp_of_mem ?_)
  intro r q hr hq hlt he
  have hid := congrArg Row.rowid (h.unique inj hr hq he)
  omega

theorem Keyed.lookup_eq [DecidableEq κ] {rows : List (Row α)} (inj : Function.Injective keyOf)
    (h : Keyed key keyOf rows) {r : Row α} (hr : r ∈ rows) :
    lookup rows (fun v => decide (key v = key r.value)) = some r.value := by
  cases hl : lookup rows (fun v => decide (key v = key r.value)) with
  | none => simpa using lookup_none.mp hl r hr
  | some v =>
    obtain ⟨q, hq, rfl, hk⟩ := lookup_mem hl
    rw [h.unique inj hr hq (of_decide_eq_true hk).symm]

end Keyed

def rowKey (label : String) (n : ℕ) : String := label ++ toString n

theorem rowKey_injective (label : String) : Function.Injective (rowKey label) := by
  intro m n h
  have hr : Nat.repr m = Nat.repr n := by simpa [rowKey] using h
  have hd : Nat.toDigits 10 m = Nat.toDigits 10 n := by
    simpa [Nat.toList_repr] using congrArg String.toList hr
  have hv := congrArg (fun l => Nat.ofDigitChars 10 l 0) hd
  simpa using hv

theorem rowKey_ne_empty {label : String} (h : label ≠ "") (n : ℕ) : rowKey label n ≠ "" := by
  intro he
  have hl : label.toList ++ (toString n).toList = [] := by
    simpa [rowKey] using congrArg String.toList he
  exact h (String.toList_injective (List.append_eq_nil_iff.mp hl).1)

theorem append_sep_injective {β : Type*} {c : β} {a b x y : List β} (hx : c ∉ x) (hy : c ∉ y)
    (h : a ++ c :: x = b ++ c :: y) : a = b ∧ x = y := by
  rcases List.append_eq_append_iff.mp h with ⟨d, rfl, hd⟩ | ⟨d, rfl, hd⟩
  · cases d with
    | nil => simpa using hd
    | cons e d =>
      obtain ⟨-, rfl⟩ := List.cons.inj hd
      exact absurd (List.mem_append_right d List.mem_cons_self) hx
  · cases d with
    | nil => simpa using hd.symm
    | cons e d =>
      obtain ⟨-, rfl⟩ := List.cons.inj hd
      exact absurd (List.mem_append_right d List.mem_cons_self) hy

theorem pairKey_injective {label name name' : String} {m n : ℕ}
    (h : label ++ name ++ "_" ++ toString m = label ++ name' ++ "_" ++ toString n) :
    name = name' ∧ m = n := by
  have hl := congrArg String.toList h
  simp only [String.toList_append, List.append_assoc, List.append_cancel_left_eq] at hl
  have hdigits : ∀ k : ℕ, '_' ∉ (toString k).toList := by
    intro k hk
    rw [show (toString k).toList = Nat.toDigits 10 k from Nat.toList_repr] at hk
    exact Nat.underscore_not_in_toDigits hk
  obtain ⟨hname, hnum⟩ := append_sep_injective (hdigits m) (hdigits n) hl
  exact ⟨String.toList_injective hname,
    rowKey_injective "" (by simpa [rowKey] using String.toList_injective hnum)⟩

end OpenDaemon.RowTable
