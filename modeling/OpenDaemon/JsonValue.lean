import Mathlib.Data.List.Basic
import Mathlib.Tactic.Common

/-!
# JSON values and text predicates of the source

`Value` follows `serde_json::Value`. A number is kept as its literal, since no
modelled function computes with it. An object is the list of its entries; a
lookup takes the first entry of a key and an insertion leaves one entry for it.
-/

namespace OpenDaemon

inductive Value
  | null
  | bool (b : Bool)
  | number (literal : String)
  | string (s : String)
  | array (items : List Value)
  | object (entries : List (String × Value))

namespace Value

def emptyObject : Value := .object []

def get? : Value → String → Option Value
  | .object entries, key => entries.lookup key
  | _, _ => none

/-- `value[key]`: a missing key, or a value that is no object, gives `null`. -/
def index (v : Value) (key : String) : Value := (v.get? key).getD .null

def asBool : Value → Option Bool
  | .bool b => some b
  | _ => none

def asStr : Value → Option String
  | .string s => some s
  | _ => none

def strAt (v : Value) (key : String) : Option String := (v.get? key).bind asStr

def isObject : Value → Bool
  | .object _ => true
  | _ => false

def insertEntry (entries : List (String × Value)) (key : String) (v : Value) :
    List (String × Value) :=
  (key, v) :: entries.filter fun entry => entry.1 ≠ key

@[simp] theorem get?_insertEntry (entries : List (String × Value)) (key : String) (v : Value) :
    (object (insertEntry entries key v)).get? key = some v := by
  simp [get?, insertEntry]

theorem get?_insertEntry_ne (entries : List (String × Value)) {key other : String} (v : Value)
    (hne : other ≠ key) : (object (insertEntry entries key v)).get? other =
      (object entries).get? other := by
  have hrest : (entries.filter fun entry => decide (entry.1 ≠ key)).lookup other =
      entries.lookup other := by
    induction entries with
    | nil => rfl
    | cons entry entries ih =>
      obtain ⟨name, value⟩ := entry
      by_cases hname : name = key
      · have hother : (other == name) = false := by
          rw [hname]
          exact beq_eq_false_iff_ne.mpr hne
        rw [List.filter_cons_of_neg (by simp [hname]), List.lookup_cons, hother]
        exact ih
      · rw [List.filter_cons_of_pos (by simp [hname]), List.lookup_cons, List.lookup_cons]
        cases other == name with
        | true => rfl
        | false => exact ih
  have hhead : (other == key) = false := beq_eq_false_iff_ne.mpr hne
  simp only [get?, insertEntry, List.lookup_cons, hhead]
  exact hrest

def ofOption {α : Type} (f : α → Value) : Option α → Value
  | some a => f a
  | none => .null

mutual

def depth : Value → ℕ
  | .array items => depthOfItems items + 1
  | .object entries => depthOfEntries entries + 1
  | _ => 0

def depthOfItems : List Value → ℕ
  | [] => 0
  | v :: items => max (depth v) (depthOfItems items)

def depthOfEntries : List (String × Value) → ℕ
  | [] => 0
  | (_, v) :: entries => max (depth v) (depthOfEntries entries)

end

/-- The `remaining_depth` with which `serde_json` starts to read a text; at zero it gives up. -/
def recursionLimit : ℕ := 128

def readable (v : Value) : Bool := decide (v.depth < recursionLimit)

theorem readable_iff {v : Value} : v.readable = true ↔ v.depth < recursionLimit :=
  decide_eq_true_iff

theorem depthOfItems_lt {items : List Value} {n : ℕ} (hn : 0 < n) :
    depthOfItems items < n ↔ ∀ v ∈ items, v.depth < n := by
  induction items with
  | nil => simpa [depthOfItems] using hn
  | cons v items ih => rw [depthOfItems, Nat.max_lt, ih, List.forall_mem_cons]

theorem depthOfEntries_lt {entries : List (String × Value)} {n : ℕ} (hn : 0 < n) :
    depthOfEntries entries < n ↔ ∀ entry ∈ entries, entry.2.depth < n := by
  induction entries with
  | nil => simpa [depthOfEntries] using hn
  | cons entry entries ih =>
    obtain ⟨name, v⟩ := entry
    rw [depthOfEntries, Nat.max_lt, ih, List.forall_mem_cons]

theorem depth_le_of_lookup {entries : List (String × Value)} {key : String} {v : Value}
    (h : entries.lookup key = some v) : v.depth ≤ depthOfEntries entries := by
  induction entries with
  | nil => cases h
  | cons entry entries ih =>
    obtain ⟨name, w⟩ := entry
    rw [depthOfEntries]
    rw [List.lookup_cons] at h
    split at h
    · obtain rfl := Option.some.inj h
      exact Nat.le_max_left _ _
    · exact Nat.le_trans (ih h) (Nat.le_max_right _ _)

theorem depth_get?_lt {v w : Value} {key : String} (h : v.get? key = some w) :
    w.depth < v.depth := by
  cases v with
  | object entries => exact Nat.lt_succ_of_le (depth_le_of_lookup h)
  | _ => cases h

theorem readable_object {entries : List (String × Value)} :
    (object entries).readable = true ↔ ∀ entry ∈ entries, entry.2.depth < recursionLimit - 1 := by
  have hlimit : 0 < recursionLimit - 1 := by decide
  rw [readable_iff, depth, ← Nat.lt_sub_iff_add_lt, depthOfEntries_lt hlimit]

end Value

/-- The Unicode `White_Space` characters, which `str::trim` removes. -/
def isWhiteSpace (c : Char) : Bool :=
  let n := c.toNat
  (9 ≤ n && n ≤ 13) || n == 0x20 || n == 0x85 || n == 0xA0 || n == 0x1680 ||
    (0x2000 ≤ n && n ≤ 0x200A) || n == 0x2028 || n == 0x2029 || n == 0x202F ||
    n == 0x205F || n == 0x3000

def isBlank (text : String) : Bool := text.toList.all isWhiteSpace

end OpenDaemon
