import OpenDaemon.CallRefinement
import OpenDaemon.Interleaving

/-!
# Calls under a contract

A contract says which steps may be made and what their answers are trusted to
be. A call that keeps it makes allowed steps only, as long as it is answered as
agreed, and is known to return certain values only. Calls at once keep an
invariant if allowed steps keep it and the invariant makes every answer as
agreed; no call needs to know what the others do.
-/

namespace OpenDaemon.Call

structure Contract (S : Type) (A : S → Type) where
  allowed : S → Prop
  trusted : (q : S) → A q → Prop

variable {S T ε ε' α β : Type} {A : S → Type} {B : T → Type}

def Keeps (C : Contract S A) (post : α → Prop) : Call S A ε α → Prop
  | .ret a => post a
  | .fail _ => True
  | .step q k => C.allowed q ∧ ∀ a, C.trusted q a → Keeps C post (k a)

section Rules
variable {C : Contract S A} {post : α → Prop} {post' : β → Prop}

theorem keeps_bind {c : Call S A ε α} {f : α → Call S A ε β} (hc : c.Keeps C post)
    (hf : ∀ a, post a → (f a).Keeps C post') : (c >>= f).Keeps C post' := by
  induction c with
  | ret a => exact hf a hc
  | fail e => trivial
  | step q k ih => exact ⟨hc.1, fun a ha => ih a (hc.2 a ha)⟩

theorem keeps_seq {c : Call S A ε α} {f : α → Call S A ε β} (hc : c.Keeps C fun _ => True)
    (hf : ∀ a, (f a).Keeps C post') : (c >>= f).Keeps C post' :=
  keeps_bind hc fun a _ => hf a

theorem keeps_check {r : Except ε α} {f : α → Call S A ε β}
    (h : ∀ a, r = .ok a → (f a).Keeps C post') : (ofExcept r >>= f).Keeps C post' := by
  cases r with
  | ok a => exact h a rfl
  | error e => trivial

theorem keeps_checkError {r : Except ε' α} {g : ε' → ε} {f : α → Call S A ε β}
    (h : ∀ a, r = .ok a → (f a).Keeps C post') :
    (ofExcept (r.mapError g) >>= f).Keeps C post' :=
  keeps_check fun a ha => h a (mapError_eq_ok.mp ha)

theorem Keeps.weaken {post' : α → Prop} {c : Call S A ε α} (hc : c.Keeps C post)
    (weaker : ∀ a, post a → post' a) : c.Keeps C post' := by
  induction c with
  | ret a => exact weaker a hc
  | fail e => trivial
  | step q k ih => exact ⟨hc.1, fun a ha => ih a (hc.2 a ha)⟩

theorem Keeps.mapError {c : Call S A ε α} (hc : c.Keeps C post) (g : ε → ε') :
    (c.mapError g).Keeps C post := by
  induction c with
  | ret a => exact hc
  | fail e => trivial
  | step q k ih => exact ⟨hc.1, fun a ha => ih a (hc.2 a ha)⟩

theorem Keeps.attempt {c : Call S A ε α} (hc : c.Keeps C post) :
    (c.attempt : Call S A ε' (Except ε α)).Keeps C fun r => ∀ a, r = .ok a → post a := by
  induction c with
  | ret a => exact fun a' ha => (Except.ok.inj ha) ▸ hc
  | fail e =>
    intro a ha
    cases ha
  | step q k ih => exact ⟨hc.1, fun a ha => ih a (hc.2 a ha)⟩

theorem Keeps.of_uses {c : Call S A ε α} (hc : c.Uses C.allowed) : c.Keeps C fun _ => True := by
  induction c with
  | ret a => trivial
  | fail e => trivial
  | step q k ih => exact ⟨hc.1, fun a _ => ih a (hc.2 a)⟩

theorem keeps_any (c : Call S A ε α) : c.Keeps ⟨fun _ => True, fun _ _ => True⟩ fun _ => True := by
  induction c with
  | ret a => trivial
  | fail e => trivial
  | step q k ih => exact ⟨trivial, fun a _ => ih a⟩

theorem Keeps.embed {f : S → T} {view : (q : S) → B (f q) → A q} {g : ε → ε'} {D : Contract T B}
    (allowed : ∀ q, C.allowed q → D.allowed (f q))
    (trusted : ∀ q b, D.trusted (f q) b → C.trusted q (view q b)) {c : Call S A ε α}
    (hc : c.Keeps C post) : (c.embed f view g).Keeps D post := by
  induction c with
  | ret a => exact hc
  | fail e => trivial
  | step q k ih => exact ⟨allowed q hc.1, fun b hb => ih _ (hc.2 _ (trusted q b hb))⟩

/-- A contract on large steps is kept by their small steps, if each large step that is allowed
keeps the contract on small steps and returns what is agreed. -/
theorem Keeps.unfoldSteps {f : (q : S) → Call T B ε (A q)} {D : Contract T B}
    (steps : ∀ q, C.allowed q → (f q).Keeps D (C.trusted q)) {c : Call S A ε α}
    (hc : c.Keeps C post) : (c.unfoldSteps f).Keeps D post := by
  induction c with
  | ret a => exact hc
  | fail e => trivial
  | step q k ih => exact keeps_bind (steps q hc.1) fun a ha => ih a (hc.2 a ha)

end Rules

end OpenDaemon.Call

namespace OpenDaemon.Interleaving

open Runs Call

variable {S : Type} {A : S → Type} {ε O : Type} {B : O → Type} {σ ι : Type}
  {program : (op : O) → Call S A ε (B op)} {exec : (q : S) → ι → σ → A q × σ}

def Keeping (admits : O → Prop) (allowed : O → S → Prop) (trusted : (q : S) → A q → Prop)
    (t : Thread A ε B) : Prop :=
  admits t.op ∧ t.rest.Keeps ⟨allowed t.op, trusted⟩ fun _ => True

section Invariant
variable {admits : O → Prop} {allowed : O → S → Prop} {trusted : (q : S) → A q → Prop}
  {I : σ → Prop} {p p' : Pool σ A ε B} {a : Action O ι}

/-- Each call has its own allowed steps; what answers are trusted to be is common to all. -/
theorem keeping_step
    (keeps : ∀ op, admits op → (program op).Keeps ⟨allowed op, trusted⟩ fun _ => True)
    (answered : ∀ q input s, I s → trusted q (exec q input s).1)
    (kept : ∀ op, admits op → ∀ q, allowed op q → ∀ input s, I s → I (exec q input s).2)
    (hp : I p.shared ∧ ∀ t ∈ p.threads, Keeping admits allowed trusted t)
    (ha : ∀ op, a = .spawn op → admits op) (hstep : step program exec p a = some p') :
    I p'.shared ∧ ∀ t ∈ p'.threads, Keeping admits allowed trusted t := by
  obtain ⟨op, rfl, rfl⟩ | ⟨i, input, op, q, k, rfl, hi, rfl⟩ := step_cases hstep
  · refine ⟨hp.1, fun t ht => ?_⟩
    rcases List.mem_append.mp ht with hold | hnew
    · exact hp.2 t hold
    · rw [List.mem_singleton.mp hnew]
      exact ⟨ha op rfl, keeps op (ha op rfl)⟩
  · obtain ⟨hop, hq, hrest⟩ := hp.2 _ (List.mem_of_getElem? hi)
    refine ⟨kept op hop q hq input _ hp.1, fun t ht => ?_⟩
    rcases List.mem_or_eq_of_mem_set ht with hold | rfl
    · exact hp.2 t hold
    · exact ⟨hop, hrest _ (answered q input _ hp.1)⟩

theorem invariant_of_keeps
    (keeps : ∀ op, admits op → (program op).Keeps ⟨allowed op, trusted⟩ fun _ => True)
    (answered : ∀ q input s, I s → trusted q (exec q input s).1)
    (kept : ∀ op, admits op → ∀ q, allowed op q → ∀ input s, I s → I (exec q input s).2)
    {s₀ : σ} (initial : I s₀)
    (h : Reaches (step program exec) (fun _ a => ∀ op, a = .spawn op → admits op) ⟨s₀, []⟩ p) :
    I p.shared := by
  have hinv : I p.shared ∧ ∀ t ∈ p.threads, Keeping admits allowed trusted t := by
    refine h.invariant (I := fun p => I p.shared ∧ ∀ t ∈ p.threads,
      Keeping admits allowed trusted t) ⟨initial, by simp⟩ fun p a p' hp ha hstep => ?_
    exact keeping_step keeps answered kept hp ha hstep
  exact hinv.1

end Invariant

section Safety
variable {γ α : Type} {D : Discipline S O σ γ} {C : Contract S A} {P : σ → γ → Prop}
  {post : α → Prop} {op : O} {i : ℕ}

/-- Where all steps are tolerated and keep an assertion, a contract is all that is left of it. -/
theorem safe_of_keeps (stable : Stable D i P) (needs : ∀ q s g, D.needs i op q s g)
    (kept : ∀ q input s g, D.inv s g → P s g → ∃ g', D.inv (exec q input s).2 g' ∧
      (∀ j, D.rely j s g (exec q input s).2 g') ∧ P (exec q input s).2 g' ∧
      C.trusted q (exec q input s).1)
    {c : Call S A ε α} (hc : c.Keeps C post) :
    Safe D exec op i c P fun r s g => P s g ∧ ∀ a, r = .ok a → post a := by
  induction c with
  | ret a =>
    intro s g _ hp
    exact ⟨hp, fun b hb => Except.ok.inj hb ▸ hc⟩
  | fail e => exact fun s g _ hp => ⟨hp, nofun⟩
  | step q k ih =>
    refine fun s g hI hp => ⟨needs q s g, fun _ input => ?_⟩
    obtain ⟨g', hI', hrely, hp', htrusted⟩ := kept q input s g hI hp
    exact ⟨g', hI', fun j _ => hrely j, P, stable, hp', ih _ (hc.2 _ htrusted)⟩

end Safety

end OpenDaemon.Interleaving
