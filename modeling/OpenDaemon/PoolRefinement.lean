import OpenDaemon.CallContracts

/-!
# Pools on two states

The same calls run on a state and on what represents it. Each step does the same on both, gives
the same answer and leaves again what represents the state. So a run of the pool on one is the
image of the run on the other, in every order of the steps.
-/

namespace OpenDaemon.Interleaving

open Call Runs

variable {S : Type} {A : S → Type} {ε O : Type} {B : O → Type} {σ τ ι : Type}
  {program : (op : O) → Call S A ε (B op)}
  {exec : (q : S) → ι → σ → A q × σ} {exec' : (q : S) → ι → τ → A q × τ} {rep : σ → τ}

def Pool.mapShared (rep : σ → τ) (p : Pool σ A ε B) : Pool τ A ε B := ⟨rep p.shared, p.threads⟩

def Agrees (exec : (q : S) → ι → σ → A q × σ) (exec' : (q : S) → ι → τ → A q × τ)
    (rep : σ → τ) (s : σ) (q : S) : Prop :=
  ∀ input, exec' q input (rep s) = ((exec q input s).1, rep (exec q input s).2)

section Run
variable {p : Pool σ A ε B}

theorem step_mapShared {a : Action O ι}
    (agrees : ∀ (i : ℕ) (op : O) (q : S) (k : A q → Call S A ε (B op)),
      p.threads[i]? = some ⟨op, .step q k⟩ →
      Agrees exec exec' rep p.shared q) :
    step program exec' (p.mapShared rep) a = (step program exec p a).map (Pool.mapShared rep) := by
  cases a with
  | spawn op => rfl
  | advance i input =>
    simp only [step, Pool.mapShared]
    cases hi : p.threads[i]? with
    | none => rfl
    | some t =>
      obtain ⟨op, c⟩ := t
      cases c with
      | ret a => rfl
      | fail e => rfl
      | step q k =>
        dsimp only
        rw [agrees i op q k hi input]
        rfl

/-- If all steps agree on all states, what is reached is the image of what is reached. -/
theorem reaches_of_mapShared (agrees : ∀ s q, Agrees exec exec' rep s q)
    {ok : Pool τ A ε B → Action O ι → Prop} {p' : Pool τ A ε B}
    (h : Reaches (step program exec') ok (p.mapShared rep) p') :
    ∃ q, Reaches (step program exec) (fun p a => ok (p.mapShared rep) a) p q ∧
      q.mapShared rep = p' := by
  induction h with
  | refl => exact ⟨p, .refl, rfl⟩
  | @tail _ _ a _ hok hstep ih =>
    obtain ⟨q, hreach, rfl⟩ := ih
    have hmap : step program exec' (q.mapShared rep) a =
        (step program exec q a).map (Pool.mapShared rep) :=
      step_mapShared fun _ _ _ _ _ => agrees _ _
    rw [hmap] at hstep
    obtain ⟨q', hnext, rfl⟩ := Option.map_eq_some_iff.mp hstep
    exact ⟨q', hreach.tail hok hnext, rfl⟩

/-- Calls that keep a contract need the agreement for the steps that it allows, on the states of
an invariant that these steps preserve. -/
theorem run_mapShared {admits : O → Prop} {allowed : O → S → Prop}
    {trusted : (q : S) → A q → Prop} {I : σ → Prop}
    (keeps : ∀ op, admits op → (program op).Keeps ⟨allowed op, trusted⟩ fun _ => True)
    (answered : ∀ q input s, I s → trusted q (exec q input s).1)
    (kept : ∀ op, admits op → ∀ q, allowed op q → ∀ input s, I s → I (exec q input s).2)
    (agrees : ∀ op q, allowed op q → ∀ s, I s → Agrees exec exec' rep s q)
    (hp : I p.shared ∧ ∀ t ∈ p.threads, Keeping admits allowed trusted t)
    {actions : List (Action O ι)} (ha : ∀ op, .spawn op ∈ actions → admits op) :
    Runs.run (step program exec') (p.mapShared rep) actions =
      (Runs.run (step program exec) p actions).map (Pool.mapShared rep) := by
  induction actions generalizing p with
  | nil => rfl
  | cons a actions ih =>
    have hstep : step program exec' (p.mapShared rep) a =
        (step program exec p a).map (Pool.mapShared rep) := by
      refine step_mapShared fun i op q k hi => ?_
      exact agrees op q (hp.2 _ (List.mem_of_getElem? hi)).2.1 p.shared hp.1
    rw [Runs.run, Runs.run, hstep]
    cases hnext : step program exec p a with
    | none => rfl
    | some p' =>
      have hspawn : ∀ op, a = .spawn op → admits op := by
        rintro op rfl
        exact ha op List.mem_cons_self
      exact ih (keeping_step keeps answered kept hp hspawn hnext)
        fun op hop => ha op (List.mem_cons_of_mem a hop)

end Run

end OpenDaemon.Interleaving
