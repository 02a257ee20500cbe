import Mathlib.Data.List.Basic
import Mathlib.Tactic.Common

/-!
# Calls as sequences of atomic steps

A call is a tree: it returns, it fails, or it performs one atomic step and goes
on with the answer. The steps are data, so one definition of a call can be run
alone or interleaved with other calls. An error does not undo the steps made
before it. What a step reads from outside (a clock, an I/O fault) is an input
of the step.
-/

namespace OpenDaemon

/-- Calls that perform steps `S` with answers `A`, fail with `ε` or return `α`. -/
inductive Call (S : Type) (A : S → Type) (ε α : Type) : Type
  | ret (a : α)
  | fail (e : ε)
  | step (s : S) (k : A s → Call S A ε α)

namespace Call

variable {S : Type} {A : S → Type} {ε ε' α β : Type}

def andThen : Call S A ε α → (α → Call S A ε β) → Call S A ε β
  | .ret a, f => f a
  | .fail e, _ => .fail e
  | .step s k, f => .step s fun a => andThen (k a) f

instance : Monad (Call S A ε) where
  pure := .ret
  bind := andThen

def mapError (g : ε → ε') : Call S A ε α → Call S A ε' α
  | .ret a => .ret a
  | .fail e => .fail (g e)
  | .step s k => .step s fun a => mapError g (k a)

/-- The call as a part of a larger system, whose steps and errors include its own. -/
def embed {T : Type} {B : T → Type} (f : S → T) (view : (q : S) → B (f q) → A q) (g : ε → ε') :
    Call S A ε α → Call T B ε' α
  | .ret a => .ret a
  | .fail e => .fail (g e)
  | .step q k => .step (f q) fun b => embed f view g (k (view q b))

def perform (s : S) : Call S A ε (A s) := .step s .ret

def ofExcept : Except ε α → Call S A ε α
  | .ok a => .ret a
  | .error e => .fail e

section Results

@[simp] theorem ok_bind (a : α) (f : α → Except ε β) : (Except.ok a >>= f) = f a := rfl

@[simp] theorem error_bind (e : ε) (f : α → Except ε β) : (Except.error e >>= f) = .error e := rfl

@[simp] theorem mapError_ok (a : α) (g : ε → ε') :
    (Except.ok a : Except ε α).mapError g = .ok a := rfl

@[simp] theorem mapError_error (e : ε) (g : ε → ε') :
    (Except.error e : Except ε α).mapError g = .error (g e) := rfl

theorem bind_eq_ok {r : Except ε α} {f : α → Except ε β} {b : β} :
    (r >>= f) = .ok b ↔ ∃ a, r = .ok a ∧ f a = .ok b := by
  cases r with
  | ok a => simp
  | error e => simp

theorem mapError_eq_ok {r : Except ε α} {g : ε → ε'} {a : α} :
    r.mapError g = .ok a ↔ r = .ok a := by
  cases r with
  | ok a => simp
  | error e => simp

theorem toOption_eq_some {r : Except ε α} {a : α} : r.toOption = some a ↔ r = .ok a := by
  cases r with
  | ok a => simp [Except.toOption]
  | error e => simp [Except.toOption]

theorem ite_error_eq_ok {c : Prop} [Decidable c] {e : ε} {r : Except ε α} {a : α} :
    (if c then .error e else r) = .ok a ↔ ¬ c ∧ r = .ok a := by
  by_cases hc : c
  · simp [hc]
  · simp [hc]

end Results

@[simp] theorem ret_bind (a : α) (f : α → Call S A ε β) : (Call.ret a >>= f) = f a := rfl

@[simp] theorem pure_eq (a : α) : (pure a : Call S A ε α) = .ret a := rfl

@[simp] theorem fail_bind (e : ε) (f : α → Call S A ε β) : (Call.fail e >>= f) = .fail e := rfl

@[simp] theorem step_bind (s : S) (k : A s → Call S A ε α) (f : α → Call S A ε β) :
    (Call.step s k >>= f) = .step s fun a => k a >>= f := rfl

theorem embed_bind {T : Type} {B : T → Type} {f : S → T} {view : (q : S) → B (f q) → A q}
    {g : ε → ε'} (c : Call S A ε α) (k : α → Call S A ε β) :
    (c >>= k).embed f view g = c.embed f view g >>= fun a => (k a).embed f view g := by
  induction c with
  | ret a => rfl
  | fail e => rfl
  | step q k' ih => exact congrArg (Call.step (f q)) (funext fun b => ih (view q b))

section Alone
variable {σ ι : Type} (exec : (s : S) → ι → σ → A s × σ)

structure Outcome (σ ι ε α : Type) where
  result : Except ε α
  state : σ
  inputs : ℕ → ι

def run : Call S A ε α → (ℕ → ι) → σ → Outcome σ ι ε α
  | .ret a, inputs, s => ⟨.ok a, s, inputs⟩
  | .fail e, inputs, s => ⟨.error e, s, inputs⟩
  | .step q k, inputs, s =>
    run (k (exec q (inputs 0) s).1) (fun n => inputs (n + 1)) (exec q (inputs 0) s).2

variable {exec}
variable {inputs : ℕ → ι} {s : σ}

@[simp] theorem run_ret (a : α) :
    run exec (.ret a : Call S A ε α) inputs s = ⟨.ok a, s, inputs⟩ := rfl

@[simp] theorem run_fail (e : ε) :
    run exec (.fail e : Call S A ε α) inputs s = ⟨.error e, s, inputs⟩ := rfl

theorem run_step (q : S) (k : A q → Call S A ε α) : run exec (.step q k) inputs s =
    run exec (k (exec q (inputs 0) s).1) (fun n => inputs (n + 1)) (exec q (inputs 0) s).2 := rfl

theorem run_bind (c : Call S A ε α) (f : α → Call S A ε β) (inputs : ℕ → ι) (s : σ) :
    run exec (c >>= f) inputs s = match run exec c inputs s with
      | ⟨.ok a, t, rest⟩ => run exec (f a) rest t
      | ⟨.error e, t, rest⟩ => ⟨.error e, t, rest⟩ := by
  induction c generalizing inputs s with
  | ret a => rfl
  | fail e => rfl
  | step q k ih =>
    rw [step_bind, run_step, run_step]
    exact ih _ _ _

theorem run_mapError (g : ε → ε') (c : Call S A ε α) (inputs : ℕ → ι) (s : σ) :
    run exec (mapError g c) inputs s =
      ⟨(run exec c inputs s).result.mapError g, (run exec c inputs s).state,
        (run exec c inputs s).inputs⟩ := by
  induction c generalizing inputs s with
  | ret a => rfl
  | fail e => rfl
  | step q k ih =>
    simp only [mapError, run_step]
    exact ih _ _ _

def Uses (P : S → Prop) : Call S A ε α → Prop
  | .ret _ => True
  | .fail _ => True
  | .step q k => P q ∧ ∀ a, Uses P (k a)

theorem Uses.bind {P : S → Prop} {c : Call S A ε α} {f : α → Call S A ε β} (hc : c.Uses P)
    (hf : ∀ a, (f a).Uses P) : (c >>= f).Uses P := by
  induction c with
  | ret a => exact hf a
  | fail e => trivial
  | step q k ih => exact ⟨hc.1, fun a => ih a (hc.2 a)⟩

theorem Uses.mono {P Q : S → Prop} {c : Call S A ε α} (hc : c.Uses P) (h : ∀ q, P q → Q q) :
    c.Uses Q := by
  induction c with
  | ret a => trivial
  | fail e => trivial
  | step q k ih => exact ⟨h q hc.1, fun a => ih a (hc.2 a)⟩

theorem Uses.run_invariant {P : S → Prop} {I : σ → Prop}
    (preserved : ∀ q input s, P q → I s → I (exec q input s).2) {c : Call S A ε α} (hc : c.Uses P)
    (inputs : ℕ → ι) {s : σ} (hs : I s) : I (run exec c inputs s).state := by
  induction c generalizing inputs s with
  | ret a => exact hs
  | fail e => exact hs
  | step q k ih => exact ih _ (hc.2 _) _ (preserved q _ s hc.1 hs)

theorem Uses.mapError {P : S → Prop} {c : Call S A ε α} (hc : c.Uses P) (g : ε → ε') :
    (c.mapError g).Uses P := by
  induction c with
  | ret a => trivial
  | fail e => trivial
  | step q k ih => exact ⟨hc.1, fun a => ih a (hc.2 a)⟩

def FailsWith (P : ε → Prop) : Call S A ε α → Prop
  | .ret _ => True
  | .fail e => P e
  | .step _ k => ∀ a, FailsWith P (k a)

theorem FailsWith.bind {P : ε → Prop} {c : Call S A ε α} {f : α → Call S A ε β}
    (hc : c.FailsWith P) (hf : ∀ a, (f a).FailsWith P) : (c >>= f).FailsWith P := by
  induction c with
  | ret a => exact hf a
  | fail e => exact hc
  | step q k ih => exact fun a => ih a (hc a)

theorem failsWith_mapError {P : ε' → Prop} {g : ε → ε'} (hg : ∀ e, P (g e)) (c : Call S A ε α) :
    (c.mapError g).FailsWith P := by
  induction c with
  | ret a => trivial
  | fail e => exact hg e
  | step q k ih => exact ih

theorem failsWith_embed {T : Type} {B : T → Type} {f : S → T} {view : (q : S) → B (f q) → A q}
    {P : ε' → Prop} {g : ε → ε'} (hg : ∀ e, P (g e)) (c : Call S A ε α) :
    (c.embed f view g).FailsWith P := by
  induction c with
  | ret a => trivial
  | fail e => exact hg e
  | step q k ih => exact fun b => ih (view q b)

def UsesGiven (R : (q : S) → A q → Prop) (P : S → Prop) : Call S A ε α → Prop
  | .ret _ => True
  | .fail _ => True
  | .step q k => P q ∧ ∀ a, R q a → UsesGiven R P (k a)

theorem Uses.given {R : (q : S) → A q → Prop} {P : S → Prop} {c : Call S A ε α} (hc : c.Uses P) :
    c.UsesGiven R P := by
  induction c with
  | ret a => trivial
  | fail e => trivial
  | step q k ih => exact ⟨hc.1, fun a _ => ih a (hc.2 a)⟩

theorem UsesGiven.bind {R : (q : S) → A q → Prop} {P : S → Prop} {c : Call S A ε α}
    {f : α → Call S A ε β} (hc : c.UsesGiven R P) (hf : ∀ a, (f a).UsesGiven R P) :
    (c >>= f).UsesGiven R P := by
  induction c with
  | ret a => exact hf a
  | fail e => trivial
  | step q k ih => exact ⟨hc.1, fun a ha => ih a (hc.2 a ha)⟩

variable (exec) in
/-- The steps that the call makes when it is run alone, each with the state before it. -/
def steps : Call S A ε α → (ℕ → ι) → σ → List (S × σ)
  | .ret _, _, _ => []
  | .fail _, _, _ => []
  | .step q k, inputs, s => (q, s) ::
    steps (k (exec q (inputs 0) s).1) (fun n => inputs (n + 1)) (exec q (inputs 0) s).2

theorem Uses.of_mem_steps {P : S → Prop} {c : Call S A ε α} (hc : c.Uses P) {x : S × σ}
    (hx : x ∈ steps exec c inputs s) : P x.1 := by
  induction c generalizing inputs s with
  | ret a => cases hx
  | fail e => cases hx
  | step q k ih =>
    rcases List.mem_cons.mp hx with rfl | hx
    · exact hc.1
    · exact ih _ (hc.2 _) hx

theorem mem_steps_bind {c : Call S A ε α} {f : α → Call S A ε β} {x : S × σ}
    (hx : x ∈ steps exec (c >>= f) inputs s) : x ∈ steps exec c inputs s ∨
      ∃ a t rest, run exec c inputs s = ⟨.ok a, t, rest⟩ ∧ x ∈ steps exec (f a) rest t := by
  induction c generalizing inputs s with
  | ret a => exact .inr ⟨a, s, inputs, rfl, hx⟩
  | fail e => cases hx
  | step q k ih =>
    rcases List.mem_cons.mp hx with rfl | hx
    · exact .inl List.mem_cons_self
    · rcases ih _ hx with h | h
      · exact .inl (List.mem_cons_of_mem _ h)
      · exact .inr h

section Triples
variable {env : ι → Prop} {P : σ → Prop} {Q : Except ε α → σ → Prop} {R : Except ε β → σ → Prop}

variable (exec) in
/-- Run alone from `P`, with inputs that all satisfy `env`, the call ends in `Q`. -/
def Triple (env : ι → Prop) (P : σ → Prop) (c : Call S A ε α) (Q : Except ε α → σ → Prop) : Prop :=
  ∀ inputs s, (∀ n, env (inputs n)) → P s →
    Q (run exec c inputs s).result (run exec c inputs s).state

theorem triple_ret {a : α} (h : ∀ s, P s → Q (.ok a) s) :
    Triple exec env P (.ret a : Call S A ε α) Q :=
  fun _ s _ hp => h s hp

theorem triple_fail {e : ε} (h : ∀ s, P s → Q (.error e) s) :
    Triple exec env P (.fail e : Call S A ε α) Q :=
  fun _ s _ hp => h s hp

theorem triple_step {q : S} {k : A q → Call S A ε α} (P' : A q → σ → Prop)
    (effect : ∀ input s, env input → P s → P' (exec q input s).1 (exec q input s).2)
    (next : ∀ a, Triple exec env (P' a) (k a) Q) : Triple exec env P (.step q k) Q := by
  intro inputs s henv hp
  rw [run_step]
  exact next _ _ _ (fun n => henv (n + 1)) (effect _ s (henv 0) hp)

theorem Triple.weaken {P' : σ → Prop} {c : Call S A ε α} (h : Triple exec env P c Q)
    (hp : ∀ s, P' s → P s) : Triple exec env P' c Q :=
  fun inputs s henv hp' => h inputs s henv (hp s hp')

theorem Triple.post {Q' : Except ε α → σ → Prop} {c : Call S A ε α} (h : Triple exec env P c Q)
    (hq : ∀ r s, Q r s → Q' r s) : Triple exec env P c Q' :=
  fun inputs s henv hp => hq _ _ (h inputs s henv hp)

theorem triple_pure {p : Prop} {c : Call S A ε α} (h : p → Triple exec env P c Q) :
    Triple exec env (fun s => p ∧ P s) c Q :=
  fun inputs s henv hp => h hp.1 inputs s henv hp.2

theorem run_inputs_env {c : Call S A ε α} (h : ∀ n, env (inputs n)) (n : ℕ) :
    env ((run exec c inputs s).inputs n) := by
  induction c generalizing inputs s with
  | ret a => exact h n
  | fail e => exact h n
  | step q k ih => exact ih _ fun n => h (n + 1)

theorem Triple.bind {c : Call S A ε α} {f : α → Call S A ε β} (hc : Triple exec env P c Q)
    (hf : ∀ a, Triple exec env (Q (.ok a)) (f a) R) (he : ∀ e s, Q (.error e) s → R (.error e) s) :
    Triple exec env P (c >>= f) R := by
  intro inputs s henv hp
  have hq := hc inputs s henv hp
  have hrest : ∀ n, env ((run exec c inputs s).inputs n) := run_inputs_env henv
  rw [run_bind]
  cases hrun : run exec c inputs s with
  | mk result state rest =>
    rw [hrun] at hq hrest
    cases result with
    | ok a => exact hf a rest state hrest hq
    | error e => exact he e state hq

theorem Triple.mapError {c : Call S A ε α} {g : ε → ε'} {Q : Except ε' α → σ → Prop}
    (h : Triple exec env P c fun r s => Q (r.mapError g) s) :
    Triple exec env P (c.mapError g) Q := by
  intro inputs s henv hp
  rw [run_mapError]
  exact h inputs s henv hp

variable (exec) in
def Returns (env : ι → Prop) (P : σ → Prop) (c : Call S A ε α) (Q : α → σ → Prop) : Prop :=
  Triple exec env P c fun r s => ∃ a, r = .ok a ∧ Q a s

variable (exec) in
def Fails (env : ι → Prop) (P : σ → Prop) (c : Call S A ε α) (Q : σ → Prop) : Prop :=
  Triple exec env P c fun r s => (∃ e, r = .error e) ∧ Q s

theorem returns_ret {a : α} {Q : α → σ → Prop} (h : ∀ s, P s → Q a s) :
    Returns exec env P (.ret a : Call S A ε α) Q :=
  triple_ret fun s hp => ⟨a, rfl, h s hp⟩

theorem fails_fail {e : ε} {Q : σ → Prop} (h : ∀ s, P s → Q s) :
    Fails exec env P (.fail e : Call S A ε α) Q :=
  triple_fail fun s hp => ⟨⟨e, rfl⟩, h s hp⟩

theorem Returns.bind {c : Call S A ε α} {f : α → Call S A ε β} {Q : α → σ → Prop}
    (hc : Returns exec env P c Q) (hf : ∀ a, Triple exec env (Q a) (f a) R) :
    Triple exec env P (c >>= f) R := by
  refine Triple.bind hc (fun a => (hf a).weaken fun s hs => ?_) fun e s hs => ?_
  · obtain ⟨b, hb, hq⟩ := hs
    obtain rfl := Except.ok.inj hb
    exact hq
  · obtain ⟨b, hb, -⟩ := hs
    cases hb

theorem Fails.bind {c : Call S A ε α} {Q : σ → Prop} (hc : Fails exec env P c Q)
    (f : α → Call S A ε β) : Fails exec env P (c >>= f) Q := by
  refine Triple.bind hc (fun a => ?_) fun e s hs => ⟨⟨e, rfl⟩, hs.2⟩
  intro inputs s _ hs
  obtain ⟨⟨e, he⟩, -⟩ := hs
  cases he

theorem Returns.mapError {c : Call S A ε α} {Q : α → σ → Prop} (hc : Returns exec env P c Q)
    (g : ε → ε') : Returns exec env P (c.mapError g) Q := by
  refine Triple.mapError (hc.post fun r s hr => ?_)
  obtain ⟨a, rfl, hq⟩ := hr
  exact ⟨a, rfl, hq⟩

theorem Fails.mapError {c : Call S A ε α} {Q : σ → Prop} (hc : Fails exec env P c Q)
    (g : ε → ε') : Fails exec env P (c.mapError g) Q := by
  refine Triple.mapError (hc.post fun r s hr => ?_)
  obtain ⟨⟨e, rfl⟩, hq⟩ := hr
  exact ⟨⟨g e, rfl⟩, hq⟩

end Triples

section Monitors
variable {τ : Type} {next : τ → (q : S) → A q → τ} {ok : τ → S → Prop}

/-- A monitor that sees every step with its answer allows each step the call makes, whatever
the answers are, and is in a state allowed by `post` when the call returns. -/
def Monitored (next : τ → (q : S) → A q → τ) (ok : τ → S → Prop) (post : τ → α → Prop) :
    τ → Call S A ε α → Prop
  | m, .ret a => post m a
  | _, .fail _ => True
  | m, .step q k => ok m q ∧ ∀ a, Monitored next ok post (next m q a) (k a)

theorem Monitored.bind {post : τ → β → Prop} {c : Call S A ε α} {f : α → Call S A ε β} {m : τ}
    (h : Monitored next ok (fun m a => Monitored next ok post m (f a)) m c) :
    Monitored next ok post m (c >>= f) := by
  induction c generalizing m with
  | ret a => exact h
  | fail e => trivial
  | step q k ih => exact ⟨h.1, fun a => ih a (h.2 a)⟩

theorem Monitored.post {post post' : τ → α → Prop} {c : Call S A ε α} {m : τ}
    (h : Monitored next ok post m c) (weaker : ∀ m a, post m a → post' m a) :
    Monitored next ok post' m c := by
  induction c generalizing m with
  | ret a => exact weaker m a h
  | fail e => trivial
  | step q k ih => exact ⟨h.1, fun a => ih a (h.2 a)⟩

theorem Monitored.mapError {post : τ → α → Prop} {c : Call S A ε α} {m : τ}
    (h : Monitored next ok post m c) (g : ε → ε') : Monitored next ok post m (c.mapError g) := by
  induction c generalizing m with
  | ret a => exact h
  | fail e => trivial
  | step q k ih => exact ⟨h.1, fun a => ih a (h.2 a)⟩

theorem Monitored.of_uses {P : S → Prop} {post : τ → α → Prop} {J : τ → Prop}
    (kept : ∀ m q a, J m → J (next m q a)) (allowed : ∀ m q, J m → P q → ok m q)
    (ends : ∀ m a, J m → post m a) {c : Call S A ε α} (hc : c.Uses P) {m : τ} (hm : J m) :
    Monitored next ok post m c := by
  induction c generalizing m with
  | ret a => exact ends m a hm
  | fail e => trivial
  | step q k ih => exact ⟨allowed m q hm hc.1, fun a => ih a (hc.2 a) (kept m q a hm)⟩

theorem Monitored.embed {T : Type} {B : T → Type} {f : S → T} {view : (q : S) → B (f q) → A q}
    {g : ε → ε'} {next' : τ → (q : T) → B q → τ} {ok' : τ → T → Prop} {post : τ → α → Prop}
    (follows : ∀ m q b, next' m (f q) b = next m q (view q b))
    (allowed : ∀ m q, ok m q → ok' m (f q)) {c : Call S A ε α} {m : τ}
    (h : Monitored next ok post m c) : Monitored next' ok' post m (c.embed f view g) := by
  induction c generalizing m with
  | ret a => exact h
  | fail e => trivial
  | step q k ih =>
    refine ⟨allowed m q h.1, fun b => ?_⟩
    rw [follows]
    exact ih _ (h.2 _)

end Monitors

end Alone

end Call

end OpenDaemon
