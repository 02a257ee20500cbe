import Mathlib.Data.List.Basic
import Mathlib.Tactic.Common

/-!
# Runs of a partial step function

A system is a step function `σ → α → Option σ`; an action that is not enabled
has no successor. Runs are finite and may be restricted to steps that meet a
guard on the state before the step.
-/

namespace OpenDaemon.Runs

variable {σ α : Type*}

def run (step : σ → α → Option σ) : σ → List α → Option σ
  | s, [] => some s
  | s, a :: as => (step s a).bind fun t => run step t as

/-- States reached from `s₀` by steps that all meet the guard `ok`. -/
inductive Reaches (step : σ → α → Option σ) (ok : σ → α → Prop) (s₀ : σ) : σ → Prop
  | refl : Reaches step ok s₀ s₀
  | tail {s t : σ} {a : α} : Reaches step ok s₀ s → ok s a → step s a = some t →
      Reaches step ok s₀ t

variable {step : σ → α → Option σ} {ok : σ → α → Prop} {s₀ s t : σ}

theorem Reaches.invariant {I : σ → Prop} (h : Reaches step ok s₀ s) (initial : I s₀)
    (preserved : ∀ s a t, I s → ok s a → step s a = some t → I t) : I s := by
  induction h with
  | refl => exact initial
  | tail _ hok hs ih => exact preserved _ _ _ ih hok hs

theorem Reaches.mono {ok' : σ → α → Prop} (h : Reaches step ok s₀ s)
    (weaker : ∀ s a, ok s a → ok' s a) : Reaches step ok' s₀ s := by
  induction h with
  | refl => exact .refl
  | tail _ hok hs ih => exact .tail ih (weaker _ _ hok) hs

theorem Reaches.trans (h : Reaches step ok s₀ s) (k : Reaches step ok s t) :
    Reaches step ok s₀ t := by
  induction k with
  | refl => exact h
  | tail _ hok hs ih => exact .tail ih hok hs

section Records
variable {τ : Type*}

/-- The system with a record of its run; `note` is what a step adds to it. -/
def recorded (step : σ → α → Option σ) (note : σ → α → σ → List τ) (x : σ × List τ) (a : α) :
    Option (σ × List τ) :=
  (step x.1 a).map fun t => (t, x.2 ++ note x.1 a t)

variable {note : σ → α → σ → List τ} {x₀ x : σ × List τ}

theorem recorded_eq_some {y : σ × List τ} {a : α} (h : recorded step note x a = some y) :
    ∃ t, step x.1 a = some t ∧ y = (t, x.2 ++ note x.1 a t) := by
  obtain ⟨t, ht, rfl⟩ := Option.map_eq_some_iff.mp h
  exact ⟨t, ht, rfl⟩

theorem Reaches.record (h : Reaches step ok s₀ s) (note : σ → α → σ → List τ) :
    ∃ l, Reaches (recorded step note) (fun x => ok x.1) (s₀, []) (s, l) := by
  induction h with
  | refl => exact ⟨[], .refl⟩
  | @tail s t a _ hok hs ih =>
    obtain ⟨l, hl⟩ := ih
    exact ⟨l ++ note s a t, .tail hl hok (by simp [recorded, hs])⟩

end Records

/-- Every step that the run makes meets `ok` in the state before it. -/
def Guarded (step : σ → α → Option σ) (ok : σ → α → Prop) : σ → List α → Prop
  | _, [] => True
  | s, a :: actions => ∀ t, step s a = some t → ok s a ∧ Guarded step ok t actions

/-- `P` holds in every state of the run, the first and the last included. -/
def Always (step : σ → α → Option σ) (P : σ → Prop) : σ → List α → Prop
  | s, [] => P s
  | s, a :: actions => P s ∧ ∀ t, step s a = some t → Always step P t actions

theorem Always.head {P : σ → Prop} {actions : List α} (h : Always step P s actions) : P s := by
  cases actions with
  | nil => exact h
  | cons a actions => exact h.1

/-- If `ok` says exactly when one step keeps `P`, it says so for whole runs. -/
theorem always_iff_guarded {P : σ → Prop}
    (exact_step : ∀ s a t, P s → step s a = some t → (P t ↔ ok s a)) (hs : P s)
    (actions : List α) : Always step P s actions ↔ Guarded step ok s actions := by
  induction actions generalizing s with
  | nil => exact ⟨fun _ => trivial, fun _ => hs⟩
  | cons a actions ih =>
    constructor
    · rintro ⟨-, hnext⟩ t ht
      have hP := (hnext t ht).head
      exact ⟨(exact_step s a t hs ht).mp hP, (ih hP).mp (hnext t ht)⟩
    · intro hg
      refine ⟨hs, fun t ht => ?_⟩
      have hP := (exact_step s a t hs ht).mpr (hg t ht).1
      exact (ih hP).mpr (hg t ht).2

theorem reaches_of_run {check : σ → α → Bool} (checked : ∀ s a, check s a → ok s a)
    {actions : List α}
    (h : run (fun s a => if check s a then step s a else none) s actions = some t) :
    Reaches step ok s t := by
  induction actions generalizing s with
  | nil =>
    obtain rfl : s = t := by simpa [run] using h
    exact .refl
  | cons a actions ih =>
    obtain ⟨u, hu, ht⟩ := Option.bind_eq_some_iff.mp h
    change (if check s a then step s a else none) = some u at hu
    by_cases hc : check s a
    · rw [if_pos hc] at hu
      exact (Reaches.tail .refl (checked s a hc) hu).trans (ih ht)
    · rw [if_neg hc] at hu
      cases hu

theorem reaches_of_actions {actions : List α} (h : run step s actions = some t)
    (allowed : ∀ a ∈ actions, ∀ s, ok s a) : Reaches step ok s t := by
  induction actions generalizing s with
  | nil =>
    obtain rfl : s = t := by simpa [run] using h
    exact .refl
  | cons a actions ih =>
    obtain ⟨u, hu, ht⟩ := Option.bind_eq_some_iff.mp h
    have hrest := ih ht fun b hb => allowed b (List.mem_cons_of_mem _ hb)
    exact (Reaches.tail .refl (allowed a List.mem_cons_self s) hu).trans hrest

end OpenDaemon.Runs
