import OpenDaemon.Call

/-!
# Calls with their steps unfolded

A step of a call may itself be a call, made to the end where nothing comes in between. The
unfolded call makes the smaller steps one by one, so that others can be interleaved with them.
Run alone the two do the same.
-/

namespace OpenDaemon.Call

variable {S T : Type} {A : S → Type} {B : T → Type} {ε ε' α β : Type}

def attempt : Call S A ε α → Call S A ε' (Except ε α)
  | .ret a => .ret (.ok a)
  | .fail e => .ret (.error e)
  | .step q k => .step q fun a => attempt (k a)

/-- Each step is replaced by the call that gives its answer. -/
def unfoldSteps (f : (q : S) → Call T B ε (A q)) : Call S A ε α → Call T B ε α
  | .ret a => .ret a
  | .fail e => .fail e
  | .step q k => f q >>= fun a => unfoldSteps f (k a)

theorem uses_check {P : S → Prop} (r : Except ε α) : (ofExcept r : Call S A ε α).Uses P := by
  cases r with
  | ok a => trivial
  | error e => trivial

theorem check_eq_step {r : Except ε α} {g : α → Call S A ε β} {q : S} {k : A q → Call S A ε β}
    (h : ofExcept r >>= g = .step q k) : ∃ a, r = .ok a ∧ g a = .step q k := by
  cases r with
  | ok a => exact ⟨a, rfl, h⟩
  | error e => cases h

section Laws
variable {f : (q : S) → Call T B ε (A q)}

theorem bind_assoc {γ : Type} (c : Call S A ε α) (g : α → Call S A ε β) (h : β → Call S A ε γ) :
    (c >>= g) >>= h = c >>= fun a => g a >>= h := by
  induction c with
  | ret a => rfl
  | fail e => rfl
  | step q k ih => exact congrArg (Call.step q) (funext ih)

theorem unfoldSteps_bind (c : Call S A ε α) (g : α → Call S A ε β) :
    (c >>= g).unfoldSteps f = c.unfoldSteps f >>= fun a => (g a).unfoldSteps f := by
  induction c with
  | ret a => rfl
  | fail e => rfl
  | step q k ih =>
    rw [step_bind, unfoldSteps, unfoldSteps, bind_assoc]
    exact congrArg (f q >>= ·) (funext ih)

theorem unfoldSteps_ofExcept (r : Except ε α) :
    (ofExcept r : Call S A ε α).unfoldSteps f = ofExcept r := by
  cases r with
  | ok a => rfl
  | error e => rfl

theorem attempt_bind_elim {g : ε → ε'} {k : Except ε α → Call S A ε' α}
    (hok : ∀ a, k (.ok a) = .ret a) (herror : ∀ e, k (.error e) = .fail (g e))
    (c : Call S A ε α) : c.attempt >>= k = c.mapError g := by
  induction c with
  | ret a => exact hok a
  | fail e => exact herror e
  | step q k' ih => exact congrArg (Call.step q) (funext ih)

end Laws

section Alone
variable {σ τ ι κ : Type} {exec : (q : S) → ι → σ → A q × σ} {exec' : (q : T) → κ → τ → B q × τ}

theorem run_inputs_const (c : Call S A ε α) (input : ι) (s : σ) :
    (run exec c (fun _ => input) s).inputs = fun _ => input := by
  induction c generalizing s with
  | ret a => rfl
  | fail e => rfl
  | step q k ih => exact ih _ _

theorem run_attempt (c : Call S A ε α) (inputs : ℕ → ι) (s : σ) :
    run exec (c.attempt : Call S A ε' (Except ε α)) inputs s =
      ⟨.ok (run exec c inputs s).result, (run exec c inputs s).state,
        (run exec c inputs s).inputs⟩ := by
  induction c generalizing inputs s with
  | ret a => rfl
  | fail e => rfl
  | step q k ih => exact ih _ _ _

theorem run_unfoldSteps {f : (q : S) → Call T B ε (A q)} {P : S → Prop} {get : σ → τ} {input : ι}
    {input' : κ} (steps : ∀ q s, P q → run exec' (f q) (fun _ => input') (get s) =
      ⟨.ok (exec q input s).1, get (exec q input s).2, fun _ => input'⟩)
    {c : Call S A ε α} (hc : c.Uses P) (s : σ) :
    run exec' (c.unfoldSteps f) (fun _ => input') (get s) =
      ⟨(run exec c (fun _ => input) s).result, get (run exec c (fun _ => input) s).state,
        fun _ => input'⟩ := by
  induction c generalizing s with
  | ret a => rfl
  | fail e => rfl
  | step q k ih =>
    rw [unfoldSteps, run_bind, steps q s hc.1]
    exact ih _ (hc.2 _) _

end Alone

end OpenDaemon.Call
