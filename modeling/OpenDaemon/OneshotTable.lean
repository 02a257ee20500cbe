import Mathlib.Logic.Function.Basic
import Mathlib.Tactic.Common

/-!
# One-shot channels kept under keys

A table keeps the senders of one-shot channels, at most one under a key. A receiver is ready
as soon as its sender has sent or is gone, and a sender that is replaced or removed is gone.
-/

namespace OpenDaemon.Oneshot

inductive Sender
  | held
  | sent
  | dropped
  deriving DecidableEq, Repr

/-- Channels are numbered in the order in which they are made. -/
structure Table (κ : Type) where
  entry : κ → Option ℕ
  sender : ℕ → Sender
  receiving : ℕ → Bool
  next : ℕ

namespace Table

variable {κ : Type}

def empty : Table κ := ⟨fun _ => none, fun _ => .dropped, fun _ => false, 0⟩

def dropEntry (t : Table κ) (k : κ) : Table κ :=
  match t.entry k with
  | some c => { t with sender := Function.update t.sender c .dropped }
  | none => t

section Operations

variable [DecidableEq κ]

/-- A new channel, whose sender takes the place of the one under the key. -/
def register (t : Table κ) (k : κ) : ℕ × Table κ :=
  (t.next, { t.dropEntry k with
    entry := Function.update t.entry k (some t.next)
    sender := Function.update (t.dropEntry k).sender t.next .held
    receiving := Function.update t.receiving t.next true
    next := t.next + 1 })

def unregister (t : Table κ) (k : κ) : Table κ :=
  { t.dropEntry k with entry := Function.update t.entry k none }

def take (t : Table κ) (k : κ) : Option ℕ × Table κ :=
  (t.entry k, { t with entry := Function.update t.entry k none })

end Operations

def send (t : Table κ) (c : ℕ) : Bool × Table κ :=
  (t.receiving c, { t with
    sender := Function.update t.sender c (if t.receiving c then .sent else .dropped) })

def close (t : Table κ) (c : ℕ) : Table κ :=
  { t with receiving := Function.update t.receiving c false }

def ready (t : Table κ) (c : ℕ) : Bool := t.sender c != .held

/-- Every sender in the table is still to be used, and stands under the key of its channel. -/
structure Sound (t : Table κ) (key : ℕ → κ) : Prop where
  next : ∀ k c, t.entry k = some c → c < t.next
  held : ∀ k c, t.entry k = some c → t.sender c = .held
  key : ∀ k c, t.entry k = some c → key c = k

variable {t : Table κ} {key : ℕ → κ} {k : κ} {c : ℕ}

theorem sound_empty (key : ℕ → κ) : (empty : Table κ).Sound key where
  next _ _ h := by cases h
  held _ _ h := by cases h
  key _ _ h := by cases h

@[simp] theorem dropEntry_entry : (t.dropEntry k).entry = t.entry := by
  unfold dropEntry
  split <;> rfl

@[simp] theorem dropEntry_receiving : (t.dropEntry k).receiving = t.receiving := by
  unfold dropEntry
  split <;> rfl

@[simp] theorem dropEntry_next : (t.dropEntry k).next = t.next := by
  unfold dropEntry
  split <;> rfl

theorem dropEntry_sender (c : ℕ) :
    (t.dropEntry k).sender c = if t.entry k = some c then .dropped else t.sender c := by
  unfold dropEntry
  split
  · rename_i c' hc'
    by_cases h : c = c'
    · subst h
      simp [hc']
    · have hne : ¬ c' = c := fun heq => h heq.symm
      simp [hc', h, hne]
  · rename_i hnone
    simp [hnone]

theorem Sound.send (h : t.Sound key) (hc : ∀ k, t.entry k ≠ some c) : (t.send c).2.Sound key := by
  refine ⟨h.next, fun k c' hc' => ?_, h.key⟩
  have hne : c' ≠ c := by
    rintro rfl
    exact hc k hc'
  simp only [Table.send, Function.update_of_ne hne]
  exact h.held k c' hc'

theorem Sound.close (h : t.Sound key) (c : ℕ) : (t.close c).Sound key := ⟨h.next, h.held, h.key⟩

theorem Sound.dropEntry_sender_of_ne (h : t.Sound key) (hne : key c ≠ k) :
    (t.dropEntry k).sender c = t.sender c := by
  rw [dropEntry_sender, if_neg]
  exact fun hentry => hne (h.key k c hentry)

variable [DecidableEq κ]

@[simp] theorem unregister_next : (t.unregister k).next = t.next := dropEntry_next

@[simp] theorem unregister_receiving : (t.unregister k).receiving = t.receiving :=
  dropEntry_receiving

theorem register_sender_of_ne (hne : c ≠ t.next) :
    (t.register k).2.sender c = (t.dropEntry k).sender c :=
  Function.update_of_ne hne _ _

@[simp] theorem register_sender_next : (t.register k).2.sender t.next = .held :=
  Function.update_self _ _ _

theorem Sound.register (h : t.Sound key) (k : κ) :
    (t.register k).2.Sound (Function.update key t.next k) := by
  have hold : ∀ k' c, k' ≠ k → t.entry k' = some c →
      c < t.next ∧ (t.register k).2.sender c = .held ∧ Function.update key t.next k c = k' := by
    intro k' c hk hc
    have hlt := h.next k' c hc
    have hkey := h.key k' c hc
    have hne : c ≠ t.next := Nat.ne_of_lt hlt
    refine ⟨hlt, ?_, ?_⟩
    · have hdrop := h.dropEntry_sender_of_ne (k := k) (hkey ▸ hk)
      simp only [Table.register, Function.update_of_ne hne, hdrop]
      exact h.held k' c hc
    · rw [Function.update_of_ne hne]
      exact hkey
  have hcases : ∀ k' c, (t.register k).2.entry k' = some c →
      (k' = k ∧ c = t.next) ∨ (k' ≠ k ∧ t.entry k' = some c) := by
    intro k' c hc
    by_cases hk : k' = k
    · subst hk
      simp only [Table.register, Function.update_self] at hc
      exact .inl ⟨rfl, (Option.some.inj hc).symm⟩
    · simp only [Table.register, Function.update_of_ne hk] at hc
      exact .inr ⟨hk, hc⟩
  constructor
  · intro k' c hc
    obtain ⟨-, rfl⟩ | ⟨hk, hc⟩ := hcases k' c hc
    · exact Nat.lt_succ_self _
    · exact Nat.lt_succ_of_lt (hold k' c hk hc).1
  · intro k' c hc
    obtain ⟨-, rfl⟩ | ⟨hk, hc⟩ := hcases k' c hc
    · simp [Table.register]
    · exact (hold k' c hk hc).2.1
  · intro k' c hc
    obtain ⟨rfl, rfl⟩ | ⟨hk, hc⟩ := hcases k' c hc
    · rw [Function.update_self]
    · exact (hold k' c hk hc).2.2

theorem Sound.remove (h : t.Sound key) {k : κ} {sender : ℕ → Sender}
    (hsender : ∀ c, key c ≠ k → sender c = t.sender c) :
    ({ t with entry := Function.update t.entry k none, sender := sender } : Table κ).Sound key := by
  have hold : ∀ k' c, Function.update t.entry k none k' = some c → k' ≠ k ∧ t.entry k' = some c := by
    intro k' c hc
    by_cases hk : k' = k
    · subst hk
      rw [Function.update_self] at hc
      cases hc
    · rw [Function.update_of_ne hk] at hc
      exact ⟨hk, hc⟩
  constructor
  · intro k' c hc
    exact h.next k' c (hold k' c hc).2
  · intro k' c hc
    obtain ⟨hk, hentry⟩ := hold k' c hc
    refine (hsender c ?_).trans (h.held k' c hentry)
    rwa [h.key k' c hentry]
  · intro k' c hc
    exact h.key k' c (hold k' c hc).2

theorem Sound.unregister (h : t.Sound key) (k : κ) : (t.unregister k).Sound key := by
  have hremove : ({ t with
      entry := Function.update t.entry k none
      sender := (t.dropEntry k).sender } : Table κ).Sound key :=
    h.remove fun c hc => h.dropEntry_sender_of_ne hc
  refine ⟨fun k' c hc => ?_, hremove.held, hremove.key⟩
  simpa [Table.unregister] using hremove.next k' c hc

theorem Sound.take (h : t.Sound key) (k : κ) : (t.take k).2.Sound key :=
  h.remove fun _ _ => rfl

end Table

end OpenDaemon.Oneshot
