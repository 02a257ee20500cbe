import Mathlib.Data.List.Nodup
import Mathlib.Data.List.Pairwise
import Mathlib.Order.Lattice
import Mathlib.Tactic.Common

/-!
# Append-only logs with a sequence number for each key

Writers number their entries optimistically: the number is one more than the
largest present when it was read, and a commit is refused when the key already
has an entry with that number. The log of a key stays numbered `1, 2, …, n`
because a number read earlier either is taken by now or is still the next one.
-/

namespace OpenDaemon.SequencedLog

variable {ε κ : Type*} [DecidableEq κ] (key : ε → κ) (seq : ε → ℕ)

def entriesOf (log : List ε) (k : κ) : List ε := log.filter fun e => decide (key e = k)

def nextSeq (log : List ε) (k : κ) : ℕ := (((entriesOf key log k).map seq).max?).getD 0 + 1

def Contiguous (log : List ε) (k : κ) : Prop :=
  (entriesOf key log k).map seq = List.range' 1 (entriesOf key log k).length

variable {key seq}
variable {log : List ε} {k : κ} {e : ε} {s : ℕ}

theorem mem_entriesOf : e ∈ entriesOf key log k ↔ e ∈ log ∧ key e = k := by
  simp [entriesOf]

theorem entriesOf_append_same (h : key e = k) :
    entriesOf key (log ++ [e]) k = entriesOf key log k ++ [e] := by
  simp [entriesOf, List.filter_append, h]

theorem entriesOf_append_other (h : key e ≠ k) :
    entriesOf key (log ++ [e]) k = entriesOf key log k := by
  simp [entriesOf, List.filter_append, h]

theorem entriesOf_eq_nil (h : ∀ e ∈ log, key e ≠ k) : entriesOf key log k = [] := by
  simpa [entriesOf] using h

theorem one_le_nextSeq : 1 ≤ nextSeq key seq log k := Nat.le_add_left 1 _

theorem seq_lt_nextSeq (he : e ∈ log) (hk : key e = k) : seq e < nextSeq key seq log k := by
  have hmem : seq e ∈ (entriesOf key log k).map seq :=
    List.mem_map_of_mem (mem_entriesOf.mpr ⟨he, hk⟩)
  cases hmax : ((entriesOf key log k).map seq).max? with
  | none =>
    rw [List.max?_eq_none_iff] at hmax
    simp [hmax] at hmem
  | some m =>
    have hle := (List.max?_eq_some_iff.mp hmax).2 _ hmem
    simp only [nextSeq, hmax, Option.getD_some]
    omega

theorem nextSeq_le (hs : 1 ≤ s) (h : ∀ e ∈ log, key e = k → seq e < s) :
    nextSeq key seq log k ≤ s := by
  cases hmax : ((entriesOf key log k).map seq).max? with
  | none =>
    simp only [nextSeq, hmax, Option.getD_none]
    omega
  | some m =>
    obtain ⟨e, he, rfl⟩ := List.mem_map.mp (List.max?_eq_some_iff.mp hmax).1
    obtain ⟨hlog, hk⟩ := mem_entriesOf.mp he
    have hlt := h e hlog hk
    simp only [nextSeq, hmax, Option.getD_some]
    omega

theorem nextSeq_mono {log' : List ε} (h : log ⊆ log') :
    nextSeq key seq log k ≤ nextSeq key seq log' k :=
  nextSeq_le one_le_nextSeq fun _ he hk => seq_lt_nextSeq (h he) hk

theorem nextSeq_lt_append (h : key e = k) (hs : nextSeq key seq log k ≤ seq e) :
    nextSeq key seq log k < nextSeq key seq (log ++ [e]) k :=
  Nat.lt_of_le_of_lt hs (seq_lt_nextSeq (by simp) h)

theorem entriesOf_initial {log' : List ε} (h : log <+: log') :
    entriesOf key log k <+: entriesOf key log' k :=
  h.filter _

namespace Contiguous

theorem of_empty (h : ∀ e ∈ log, key e ≠ k) : Contiguous key seq log k := by
  simp [Contiguous, entriesOf_eq_nil h]

theorem mem_iff (hc : Contiguous key seq log k) :
    (∃ e ∈ log, key e = k ∧ seq e = s) ↔ 1 ≤ s ∧ s ≤ (entriesOf key log k).length := by
  have hmem : s ∈ (entriesOf key log k).map seq ↔ 1 ≤ s ∧ s < 1 + (entriesOf key log k).length := by
    rw [hc]
    simp [List.mem_range'_1]
  constructor
  · rintro ⟨e, he, hk, rfl⟩
    have := hmem.mp (List.mem_map_of_mem (mem_entriesOf.mpr ⟨he, hk⟩))
    omega
  · rintro ⟨h1, h2⟩
    obtain ⟨e, he, hs⟩ := List.mem_map.mp (hmem.mpr ⟨h1, by omega⟩)
    obtain ⟨hlog, hk⟩ := mem_entriesOf.mp he
    exact ⟨e, hlog, hk, hs⟩

theorem nextSeq_eq (hc : Contiguous key seq log k) :
    nextSeq key seq log k = (entriesOf key log k).length + 1 := by
  apply Nat.le_antisymm
  · refine nextSeq_le (by omega) fun e he hk => ?_
    have := hc.mem_iff.mp ⟨e, he, hk, rfl⟩
    omega
  · cases hn : (entriesOf key log k).length with
    | zero => exact one_le_nextSeq
    | succ n =>
      obtain ⟨e, he, hk, hs⟩ := hc.mem_iff.mpr ⟨show 1 ≤ n + 1 by omega, by omega⟩
      have hlt : seq e < nextSeq key seq log k := seq_lt_nextSeq he hk
      omega

theorem append_same (hc : Contiguous key seq log k) (h : key e = k)
    (hs : seq e = nextSeq key seq log k) : Contiguous key seq (log ++ [e]) k := by
  rw [hc.nextSeq_eq] at hs
  unfold Contiguous at hc ⊢
  rw [entriesOf_append_same h, List.map_append, hc, List.length_append, List.length_singleton,
    List.range'_concat]
  simp [hs, Nat.add_comm]

theorem append_other (hc : Contiguous key seq log k) (h : key e ≠ k) :
    Contiguous key seq (log ++ [e]) k := by
  unfold Contiguous
  rw [entriesOf_append_other h]
  exact hc

/-- An unused number that was the next one at some earlier time is the next one now. -/
theorem stale_eq_next (hc : Contiguous key seq log k) (h1 : 1 ≤ s)
    (hle : s ≤ nextSeq key seq log k) (unused : ∀ e ∈ log, key e = k → seq e ≠ s) :
    s = nextSeq key seq log k := by
  by_contra hne
  rw [hc.nextSeq_eq] at hle hne
  obtain ⟨e, he, hk, hs⟩ := hc.mem_iff.mpr ⟨h1, show s ≤ _ by omega⟩
  exact unused e he hk hs

theorem pairwise (hc : Contiguous key seq log k) :
    (entriesOf key log k).Pairwise fun a b => seq a < seq b := by
  rw [← List.pairwise_map, hc]
  exact List.pairwise_lt_range'

theorem eq_of_seq (hc : Contiguous key seq log k) {e' : ε} (he : e ∈ log) (hk : key e = k)
    (he' : e' ∈ log) (hk' : key e' = k) (hs : seq e = seq e') : e = e' := by
  have hnodup : ((entriesOf key log k).map seq).Nodup := by
    rw [hc]
    exact List.nodup_range'
  exact List.inj_on_of_nodup_map hnodup (mem_entriesOf.mpr ⟨he, hk⟩)
    (mem_entriesOf.mpr ⟨he', hk'⟩) hs

theorem lt_of_new {log' : List ε} (hc : Contiguous key seq log' k) (h : log <+: log') {e' : ε}
    (he : e ∈ log) (hk : key e = k) (he' : e' ∈ log') (hk' : key e' = k) (hnew : e' ∉ log) :
    seq e < seq e' := by
  have hinit : entriesOf key log k <+: entriesOf key log' k := entriesOf_initial h
  obtain ⟨added, hadded⟩ := hinit
  have hsorted := hc.pairwise
  rw [← hadded] at hsorted
  have hmem' : e' ∈ entriesOf key log' k := mem_entriesOf.mpr ⟨he', hk'⟩
  rw [← hadded] at hmem'
  rcases List.mem_append.mp hmem' with hold | hnew'
  · exact absurd (mem_entriesOf.mp hold).1 hnew
  · exact (List.pairwise_append.mp hsorted).2.2 e (mem_entriesOf.mpr ⟨he, hk⟩) e' hnew'

end Contiguous

section Prefix
variable {l l' : List ε}

theorem mem_take_of_lt (hsorted : l.Pairwise fun a b => seq a < seq b) (h : l' <+: l) {n : ℕ}
    {x : ε} (hn : l'[n]? = some e) (hx : x ∈ l) (hlt : seq x < seq e) : x ∈ l'.take n := by
  obtain ⟨rest, rfl⟩ := h
  obtain ⟨hlen, hget⟩ := List.getElem?_eq_some_iff.mp hn
  have hsplit : l' ++ rest = l'.take n ++ e :: (l'.drop (n + 1) ++ rest) := by
    rw [← hget, ← List.cons_append, ← List.drop_eq_getElem_cons hlen, ← List.append_assoc,
      List.take_append_drop]
  rw [hsplit] at hx hsorted
  rcases List.mem_append.mp hx with hx | hx
  · exact hx
  · rcases List.mem_cons.mp hx with rfl | hx
    · exact absurd hlt (Nat.lt_irrefl _)
    · have hafter := List.rel_of_pairwise_cons (List.pairwise_append.mp hsorted).2.1 hx
      omega

theorem prefix_concat (hsorted : l.Pairwise fun a b => seq a < seq b) (h : l' <+: l) (he : e ∈ l)
    (hnew : e ∉ l') (hfirst : ∀ x ∈ l, seq x < seq e → x ∈ l') : l' ++ [e] <+: l := by
  obtain ⟨rest, rfl⟩ := h
  rcases List.mem_append.mp he with he | he
  · exact absurd he hnew
  · cases rest with
    | nil => cases he
    | cons x rest =>
      rcases List.mem_cons.mp he with rfl | he
      · exact ⟨rest, by rw [List.append_assoc]; rfl⟩
      · -- the entry before it would be missing from the prefix
        have htail := (List.pairwise_append.mp hsorted).2.1
        have hlt := List.rel_of_pairwise_cons htail he
        have hx := hfirst x (List.mem_append_right _ List.mem_cons_self) hlt
        have hself := (List.pairwise_append.mp hsorted).2.2 x hx x List.mem_cons_self
        omega

theorem prefix_eq_of_last (hsorted : l.Pairwise fun a b => seq a < seq b) (h : l' <+: l)
    (he : e ∈ l') (hlast : ∀ x ∈ l, seq x ≤ seq e) : l' = l := by
  obtain ⟨rest, rfl⟩ := h
  cases rest with
  | nil => rw [List.append_nil]
  | cons x rest =>
    have hlt := (List.pairwise_append.mp hsorted).2.2 e he x List.mem_cons_self
    have hle := hlast x (List.mem_append_right _ List.mem_cons_self)
    omega

end Prefix

end OpenDaemon.SequencedLog
