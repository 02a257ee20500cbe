import OpenDaemon.Runs
import OpenDaemon.Call

/-!
# Interleaved calls over one shared state

A pool holds a shared state and any number of calls in progress; each action
starts a call or lets one of them perform its next atomic step. The proof rule
is rely-guarantee with auxiliary state: a call is checked against its own text,
with assertions that the steps of the other calls cannot falsify, and every
step it makes must be one that the other calls tolerate.
-/

namespace OpenDaemon.Interleaving

open Runs

variable {S : Type} {A : S → Type} {ε O : Type} {B : O → Type} {σ ι γ α β : Type}

/-- A call in progress: which operation it is and what remains of it. -/
structure Thread (A : S → Type) (ε : Type) (B : O → Type) where
  op : O
  rest : Call S A ε (B op)

structure Pool (σ : Type) (A : S → Type) (ε : Type) (B : O → Type) where
  shared : σ
  threads : List (Thread A ε B)

inductive Action (O ι : Type)
  | spawn (op : O)
  | advance (i : ℕ) (input : ι)

def Action.thread (p : Pool σ A ε B) : Action O ι → ℕ
  | .spawn _ => p.threads.length
  | .advance i _ => i

section Step
variable (program : (op : O) → Call S A ε (B op)) (exec : (q : S) → ι → σ → A q × σ)

def step (p : Pool σ A ε B) : Action O ι → Option (Pool σ A ε B)
  | .spawn op => some ⟨p.shared, p.threads ++ [⟨op, program op⟩]⟩
  | .advance i input =>
    match p.threads[i]? with
    | some ⟨op, .step q k⟩ =>
      some ⟨(exec q input p.shared).2, p.threads.set i ⟨op, k (exec q input p.shared).1⟩⟩
    | _ => none

variable {program exec}
variable {p p' : Pool σ A ε B} {a : Action O ι}

theorem step_cases (h : step program exec p a = some p') :
    (∃ op, a = .spawn op ∧ p' = ⟨p.shared, p.threads ++ [⟨op, program op⟩]⟩) ∨
    ∃ i input op q k, a = .advance i input ∧ p.threads[i]? = some ⟨op, .step q k⟩ ∧
      p' = ⟨(exec q input p.shared).2,
        p.threads.set i ⟨op, k (exec q input p.shared).1⟩⟩ := by
  cases a with
  | spawn op => exact .inl ⟨op, rfl, by simpa [step] using h.symm⟩
  | advance i input =>
    simp only [step] at h
    split at h
    · rename_i op q k ht
      exact .inr ⟨i, input, op, q, k, rfl, ht, by simpa using h.symm⟩
    · cases h

theorem step_advance {i : ℕ} {input : ι} {op : O} {q : S} {k : A q → Call S A ε (B op)} {a : A q}
    {s : σ} (hi : p.threads[i]? = some ⟨op, .step q k⟩) (hexec : exec q input p.shared = (a, s)) :
    step program exec p (.advance i input) = some ⟨s, p.threads.set i ⟨op, k a⟩⟩ := by
  simp only [step, hi, hexec]

end Step

section Threads
variable {threads : List (Thread A ε B)} {t u : Thread A ε B} {i j : ℕ}

/-- A thread after a spawn was there before, or it is the new one; so it is in any list. -/
theorem getElem?_spawned {τ : Type} {l : List τ} {t u : τ} (h : (l ++ [u])[i]? = some t) :
    l[i]? = some t ∨ i = l.length ∧ t = u := by
  rw [List.getElem?_append] at h
  split at h
  · exact .inl h
  · rw [List.getElem?_singleton] at h
    split at h
    · exact .inr ⟨by omega, (Option.some.inj h).symm⟩
    · cases h

theorem getElem?_kept (h : threads[i]? = some t) : (threads ++ [u])[i]? = some t := by
  rw [List.getElem?_append_left (List.getElem?_eq_some_iff.mp h).1]
  exact h

theorem getElem?_moved (h : (threads.set i u)[j]? = some t) :
    i = j ∧ t = u ∨ i ≠ j ∧ threads[j]? = some t := by
  rw [List.getElem?_set] at h
  split at h
  · split at h
    · exact .inl ⟨‹_›, (Option.some.inj h).symm⟩
    · cases h
  · exact .inr ⟨‹_›, h⟩

variable {op op' : O} {c c₁ : Call S A ε (B op)} {c' : Call S A ε (B op')}

theorem op_before_move (hi : threads[i]? = some ⟨op, c⟩)
    (hj : (threads.set i ⟨op, c₁⟩)[j]? = some ⟨op', c'⟩) :
    ∃ c₂, threads[j]? = some ⟨op', c₂⟩ := by
  obtain ⟨rfl, hsame⟩ | ⟨-, hold⟩ := getElem?_moved hj
  · cases hsame
    exact ⟨c, hi⟩
  · exact ⟨c', hold⟩

theorem op_after_move (hi : threads[i]? = some ⟨op, c⟩) (hj : threads[j]? = some ⟨op', c'⟩) :
    ∃ c₂, (threads.set i ⟨op, c₁⟩)[j]? = some ⟨op', c₂⟩ := by
  by_cases hij : i = j
  · subst hij
    rw [hi] at hj
    cases hj
    exact ⟨c₁, List.getElem?_set_self (List.getElem?_eq_some_iff.mp hi).1⟩
  · exact ⟨c', (List.getElem?_set_ne hij).trans hj⟩

end Threads

/-- The assertions of a proof outline: an invariant of the shared and auxiliary
state, what each thread tolerates from the others, which operations may start,
the condition under which a step is allowed, and what a thread must know before
each step it makes. -/
structure Discipline (S O σ γ : Type) where
  inv : σ → γ → Prop
  rely : ℕ → σ → γ → σ → γ → Prop
  admits : O → Prop
  guard : σ → O → S → Prop
  needs : ℕ → O → S → σ → γ → Prop

variable (D : Discipline S O σ γ) (exec : (q : S) → ι → σ → A q × σ)

/-- An assertion of thread `i` that no step of another thread falsifies. -/
def Stable (i : ℕ) (P : σ → γ → Prop) : Prop :=
  ∀ s g s' g', D.inv s g → D.inv s' g' → D.rely i s g s' g' → P s g → P s' g'

/-- The rest of thread `i` may be run from `P` and ends in `Q`. -/
def Safe (op : O) (i : ℕ) :
    Call S A ε α → (σ → γ → Prop) → (Except ε α → σ → γ → Prop) → Prop
  | .ret a, P, Q => ∀ s g, D.inv s g → P s g → Q (.ok a) s g
  | .fail e, P, Q => ∀ s g, D.inv s g → P s g → Q (.error e) s g
  | .step q k, P, Q => ∀ s g, D.inv s g → P s g → D.needs i op q s g ∧
      (D.guard s op q → ∀ input, ∃ g', D.inv (exec q input s).2 g' ∧
        (∀ j, j ≠ i → D.rely j s g (exec q input s).2 g') ∧
        ∃ P', Stable D i P' ∧ P' (exec q input s).2 g' ∧
          Safe op i (k (exec q input s).1) P' Q)

section Rules
variable {D exec}
variable {op : O} {i : ℕ} {P P' : σ → γ → Prop} {Q Q' : Except ε α → σ → γ → Prop}

theorem safe_weaken {c : Call S A ε α} (h : Safe D exec op i c P Q)
    (hP : ∀ s g, D.inv s g → P' s g → P s g) : Safe D exec op i c P' Q := by
  cases c with
  | ret a => exact fun s g hI hp => h s g hI (hP s g hI hp)
  | fail e => exact fun s g hI hp => h s g hI (hP s g hI hp)
  | step q k => exact fun s g hI hp => h s g hI (hP s g hI hp)

theorem safe_pure {p : Prop} {c : Call S A ε α} (h : p → Safe D exec op i c P Q) :
    Safe D exec op i c (fun s g => p ∧ P s g) Q := by
  cases c with
  | ret a => exact fun s g hI hp => h hp.1 s g hI hp.2
  | fail e => exact fun s g hI hp => h hp.1 s g hI hp.2
  | step q k => exact fun s g hI hp => h hp.1 s g hI hp.2

theorem safe_exists {τ : Type} {c : Call S A ε α} {P : τ → σ → γ → Prop}
    (h : ∀ x, Safe D exec op i c (P x) Q) : Safe D exec op i c (fun s g => ∃ x, P x s g) Q := by
  cases c with
  | ret a =>
    rintro s g hI ⟨x, hp⟩
    exact h x s g hI hp
  | fail e =>
    rintro s g hI ⟨x, hp⟩
    exact h x s g hI hp
  | step q k =>
    rintro s g hI ⟨x, hp⟩
    exact h x s g hI hp

theorem safe_post {c : Call S A ε α} (h : Safe D exec op i c P Q)
    (hQ : ∀ r s g, D.inv s g → Q r s g → Q' r s g) : Safe D exec op i c P Q' := by
  induction c generalizing P with
  | ret a => exact fun s g hI hp => hQ _ s g hI (h s g hI hp)
  | fail e => exact fun s g hI hp => hQ _ s g hI (h s g hI hp)
  | step q k ih =>
    intro s g hI hp
    obtain ⟨hn, hs⟩ := h s g hI hp
    refine ⟨hn, fun hg input => ?_⟩
    obtain ⟨g', hI', hr, P', hst, hp', hsafe⟩ := hs hg input
    exact ⟨g', hI', hr, P', hst, hp', ih _ hsafe⟩

theorem safe_bind {c : Call S A ε α} {f : α → Call S A ε β} {R : Except ε β → σ → γ → Prop}
    (hc : Safe D exec op i c P Q) (hf : ∀ a, Safe D exec op i (f a) (Q (.ok a)) R)
    (he : ∀ e s g, D.inv s g → Q (.error e) s g → R (.error e) s g) :
    Safe D exec op i (c >>= f) P R := by
  induction c generalizing P with
  | ret a => exact safe_weaken (hf a) hc
  | fail e => exact fun s g hI hp => he e s g hI (hc s g hI hp)
  | step q k ih =>
    intro s g hI hp
    obtain ⟨hn, hs⟩ := hc s g hI hp
    refine ⟨hn, fun hg input => ?_⟩
    obtain ⟨g', hI', hr, P', hst, hp', hsafe⟩ := hs hg input
    exact ⟨g', hI', hr, P', hst, hp', ih _ hsafe⟩

theorem safe_mapError {ε' : Type} {c : Call S A ε α} {f : ε → ε'}
    {R : Except ε' α → σ → γ → Prop}
    (h : Safe D exec op i c P fun r s g => R (r.mapError f) s g) :
    Safe D exec op i (c.mapError f) P R := by
  induction c generalizing P with
  | ret a => exact h
  | fail e => exact h
  | step q k ih =>
    intro s g hI hp
    obtain ⟨hn, hs⟩ := h s g hI hp
    refine ⟨hn, fun hg input => ?_⟩
    obtain ⟨g', hI', hr, P', hst, hp', hsafe⟩ := hs hg input
    exact ⟨g', hI', hr, P', hst, hp', ih _ hsafe⟩

theorem safe_step {q : S} {k : A q → Call S A ε α} (P' : A q → σ → γ → Prop)
    (stable : ∀ a, Stable D i (P' a))
    (needs : ∀ s g, D.inv s g → P s g → D.needs i op q s g)
    (effect : ∀ s g input, D.inv s g → P s g → D.guard s op q →
      ∃ g', D.inv (exec q input s).2 g' ∧ (∀ j, j ≠ i → D.rely j s g (exec q input s).2 g') ∧
        P' (exec q input s).1 (exec q input s).2 g')
    (next : ∀ a, Safe D exec op i (k a) (P' a) Q) :
    Safe D exec op i (.step q k) P Q := by
  intro s g hI hp
  refine ⟨needs s g hI hp, fun hg input => ?_⟩
  obtain ⟨g', hI', hr, hp'⟩ := effect s g input hI hp hg
  exact ⟨g', hI', hr, _, stable _, hp', next _⟩

theorem Safe.run {c : Call S A ε α} (h : Safe D exec op i c P Q) (guard : ∀ s q, D.guard s op q)
    (inputs : ℕ → ι) {s : σ} {g : γ} (hI : D.inv s g) (hp : P s g) :
    ∃ g', D.inv (c.run exec inputs s).state g' ∧
      Q (c.run exec inputs s).result (c.run exec inputs s).state g' := by
  induction c generalizing P inputs s g with
  | ret a => exact ⟨g, hI, h s g hI hp⟩
  | fail e => exact ⟨g, hI, h s g hI hp⟩
  | step q k ih =>
    obtain ⟨g', hI', -, P', -, hp', hsafe⟩ := (h s g hI hp).2 (guard s q) (inputs 0)
    exact ih _ hsafe _ hI' hp'

end Rules

section Embedding
variable {T : Type} {A' : T → Type} {τ O' ε' : Type}

/-- A discipline over a component and one over a state that contains it, which agree on the
steps of the component. -/
structure Embeds (D : Discipline S O σ γ) (E : Discipline T O' τ γ)
    (exec : (q : S) → ι → σ → A q × σ) (exec' : (q : T) → ι → τ → A' q × τ) (f : S → T)
    (view : (q : S) → A' (f q) → A q) (get : τ → σ) (op : O) (op' : O') : Prop where
  inv : ∀ x g, E.inv x g → D.inv (get x) g
  answer : ∀ q input x, view q (exec' (f q) input x).1 = (exec q input (get x)).1
  guard : ∀ x q, E.guard x op' (f q) → D.guard (get x) op q
  needs : ∀ i q x g, D.needs i op q (get x) g → E.needs i op' (f q) x g
  state : ∀ q input x, get (exec' (f q) input x).2 = (exec q input (get x)).2
  kept : ∀ q input x g g', E.inv x g → D.inv (exec q input (get x)).2 g' →
    E.inv (exec' (f q) input x).2 g'
  gives : ∀ j q input x g g', D.rely j (get x) g (exec q input (get x)).2 g' →
    E.rely j x g (exec' (f q) input x).2 g'
  takes : ∀ i x g y g', E.rely i x g y g' → D.rely i (get x) g (get y) g'

variable {D exec} in
theorem Safe.embed {E : Discipline T O' τ γ} {exec' : (q : T) → ι → τ → A' q × τ} {f : S → T}
    {view : (q : S) → A' (f q) → A q} {get : τ → σ} {op : O} {op' : O'} {i : ℕ} {onError : ε → ε'}
    (h : Embeds D E exec exec' f view get op op') {c : Call S A ε α} {P : σ → γ → Prop}
    {Q : Except ε α → σ → γ → Prop} {Q' : Except ε' α → τ → γ → Prop}
    (hc : Safe D exec op i c P Q)
    (post : ∀ r x g, E.inv x g → Q r (get x) g → Q' (r.mapError onError) x g) :
    Safe E exec' op' i (c.embed f view onError) (fun x g => P (get x) g) Q' := by
  induction c generalizing P with
  | ret a => exact fun x g hI hp => post (.ok a) x g hI (hc _ g (h.inv x g hI) hp)
  | fail e => exact fun x g hI hp => post (.error e) x g hI (hc _ g (h.inv x g hI) hp)
  | step q k ih =>
    intro x g hI hp
    obtain ⟨hneeds, hstep⟩ := hc (get x) g (h.inv x g hI) hp
    refine ⟨h.needs i q x g hneeds, fun hguard input => ?_⟩
    obtain ⟨g', hI', hrely, P', hstable, hp', hsafe⟩ := hstep (h.guard x q hguard) input
    refine ⟨g', h.kept q input x g g' hI hI', fun j hj => h.gives j q input x g g' (hrely j hj),
      fun y g => P' (get y) g, ?_, ?_, ?_⟩
    · exact fun y g₁ z g₂ hy hz hr hpy =>
        hstable _ g₁ _ g₂ (h.inv y g₁ hy) (h.inv z g₂ hz) (h.takes i y g₁ z g₂ hr) hpy
    · change P' (get (exec' (f q) input x).2) g'
      rw [h.state]
      exact hp'
    · have hnext := ih (exec q input (get x)).1 hsafe
      rw [← h.answer] at hnext
      exact hnext

end Embedding

section Soundness
variable {program : (op : O) → Call S A ε (B op)} {p p' : Pool σ A ε B} {a : Action O ι}

def Permitted (p : Pool σ A ε B) : Action O ι → Prop
  | .spawn op => D.admits op
  | .advance i _ => ∀ op q k, p.threads[i]? = some ⟨op, .step q k⟩ → D.guard p.shared op q

/-- Every call in progress is safe, and ends in what `post` says of its operation. -/
def OutlineTo (post : (op : O) → Except ε (B op) → σ → γ → Prop) (p : Pool σ A ε B) : Prop :=
  ∃ g, D.inv p.shared g ∧ ∀ i t, p.threads[i]? = some t →
    ∃ P, Stable D i P ∧ P p.shared g ∧ Safe D exec t.op i t.rest P (post t.op)

def Outline (p : Pool σ A ε B) : Prop :=
  ∃ g, D.inv p.shared g ∧ ∀ i t, p.threads[i]? = some t →
    ∃ P, Stable D i P ∧ P p.shared g ∧ Safe D exec t.op i t.rest P fun _ _ _ => True

variable {D exec}
variable {post : (op : O) → Except ε (B op) → σ → γ → Prop}

/-- One step of thread `i` leaves an assertion for every thread, whatever each has to end in. -/
theorem safe_threads {R : ℕ → (op : O) → Except ε (B op) → σ → γ → Prop} {g : γ} {i : ℕ}
    {op : O} {q : S} {k : A q → Call S A ε (B op)} (hI : D.inv p.shared g)
    (ht : ∀ i t, p.threads[i]? = some t →
      ∃ P, Stable D i P ∧ P p.shared g ∧ Safe D exec t.op i t.rest P (R i t.op))
    (hi : p.threads[i]? = some ⟨op, .step q k⟩) (hg : D.guard p.shared op q) (input : ι) :
    ∃ g', D.inv (exec q input p.shared).2 g' ∧
      (∀ j, j ≠ i → D.rely j p.shared g (exec q input p.shared).2 g') ∧
      ∀ j t, (p.threads.set i ⟨op, k (exec q input p.shared).1⟩)[j]? = some t →
        ∃ P, Stable D j P ∧ P (exec q input p.shared).2 g' ∧
          Safe D exec t.op j t.rest P (R j t.op) := by
  obtain ⟨P, hst, hp, hs⟩ := ht i _ hi
  obtain ⟨g', hI', hr, P', hst', hp', hs'⟩ := (hs p.shared g hI hp).2 hg input
  refine ⟨g', hI', hr, fun j t hj => ?_⟩
  obtain ⟨rfl, rfl⟩ | ⟨hij, hold⟩ := getElem?_moved hj
  · exact ⟨P', hst', hp', hs'⟩
  · obtain ⟨Q, hsQ, hQ, hsafe⟩ := ht j t hold
    exact ⟨Q, hsQ, hsQ _ _ _ _ hI hI' (hr j (Ne.symm hij)) hQ, hsafe⟩

theorem Outline.needs (h : Outline D exec p) :
    ∃ g, D.inv p.shared g ∧ ∀ i op q k, p.threads[i]? = some ⟨op, .step q k⟩ →
      D.needs i op q p.shared g := by
  obtain ⟨g, hI, ht⟩ := h
  refine ⟨g, hI, fun i op q k hi => ?_⟩
  obtain ⟨P, -, hp, hs⟩ := ht i _ hi
  exact (hs p.shared g hI hp).1

theorem OutlineTo.returned {i : ℕ} {op : O} {a : B op} (h : OutlineTo D exec post p)
    (hi : p.threads[i]? = some ⟨op, .ret a⟩) : ∃ g, D.inv p.shared g ∧ post op (.ok a) p.shared g := by
  obtain ⟨g, hI, ht⟩ := h
  obtain ⟨P, -, hp, hs⟩ := ht i _ hi
  exact ⟨g, hI, hs p.shared g hI hp⟩

theorem OutlineTo.failed {i : ℕ} {op : O} {e : ε} (h : OutlineTo D exec post p)
    (hi : p.threads[i]? = some ⟨op, .fail e⟩) :
    ∃ g, D.inv p.shared g ∧ post op (.error e) p.shared g := by
  obtain ⟨g, hI, ht⟩ := h
  obtain ⟨P, -, hp, hs⟩ := ht i _ hi
  exact ⟨g, hI, hs p.shared g hI hp⟩

theorem outlineTo_singleton {s : σ} {g : γ} {op : O} {c : Call S A ε (B op)} {P : σ → γ → Prop}
    (hI : D.inv s g) (stable : Stable D 0 P) (hp : P s g) (hsafe : Safe D exec op 0 c P (post op)) :
    OutlineTo D exec post (⟨s, [⟨op, c⟩]⟩ : Pool σ A ε B) := by
  refine ⟨g, hI, fun i t hi => ?_⟩
  rw [List.getElem?_singleton] at hi
  split at hi
  · obtain rfl : (⟨op, c⟩ : Thread A ε B) = t := by simpa using hi
    subst i
    exact ⟨P, stable, hp, hsafe⟩
  · cases hi

theorem OutlineTo.spawn {op : O} (h : OutlineTo D exec post p)
    (checked : ∀ i, Safe D exec op i (program op) (fun _ _ => True) (post op)) :
    OutlineTo D exec post (⟨p.shared, p.threads ++ [⟨op, program op⟩]⟩ : Pool σ A ε B) := by
  obtain ⟨g, hI, ht⟩ := h
  refine ⟨g, hI, fun i t hi => ?_⟩
  obtain hold | ⟨-, rfl⟩ := getElem?_spawned hi
  · exact ht i t hold
  · exact ⟨_, fun _ _ _ _ _ _ _ h => h, trivial, checked i⟩

theorem OutlineTo.advance {i : ℕ} {input : ι} {op : O} {q : S} {k : A q → Call S A ε (B op)}
    (h : OutlineTo D exec post p) (hi : p.threads[i]? = some ⟨op, .step q k⟩)
    (hg : D.guard p.shared op q) :
    OutlineTo D exec post (⟨(exec q input p.shared).2,
      p.threads.set i ⟨op, k (exec q input p.shared).1⟩⟩ : Pool σ A ε B) := by
  obtain ⟨g, hI, ht⟩ := h
  obtain ⟨g', hI', -, ht'⟩ := safe_threads hI ht hi hg input
  exact ⟨g', hI', ht'⟩

theorem OutlineTo.step (checked : ∀ op, D.admits op → ∀ i,
      Safe D exec op i (program op) (fun _ _ => True) (post op))
    (h : OutlineTo D exec post p) (hg : Permitted D p a)
    (hs : step program exec p a = some p') : OutlineTo D exec post p' := by
  obtain ⟨op, rfl, rfl⟩ | ⟨i, input, op, q, k, rfl, hi, rfl⟩ := step_cases hs
  · exact h.spawn (checked op hg)
  · exact h.advance hi (hg op q k hi)

theorem OutlineTo.of_reaches (checked : ∀ op, D.admits op → ∀ i,
      Safe D exec op i (program op) (fun _ _ => True) (post op))
    {p₀ : Pool σ A ε B} (initial : OutlineTo D exec post p₀)
    (h : Reaches (Interleaving.step program exec) (Permitted D) p₀ p) : OutlineTo D exec post p :=
  h.invariant initial fun _ _ _ => OutlineTo.step checked

theorem outline_of_reaches (checked : ∀ op, D.admits op → ∀ i,
      Safe D exec op i (program op) (fun _ _ => True) fun _ _ _ => True)
    {s₀ : σ} (initial : ∃ g₀, D.inv s₀ g₀)
    (h : Reaches (Interleaving.step program exec) (Permitted D) ⟨s₀, []⟩ p) :
    Outline D exec p := by
  obtain ⟨g₀, hg₀⟩ := initial
  have hempty : OutlineTo D exec (fun _ _ _ _ => True) (⟨s₀, []⟩ : Pool σ A ε B) :=
    ⟨g₀, hg₀, by simp⟩
  exact hempty.of_reaches checked h

end Soundness

section Since
variable (D : Discipline S O σ γ) (exec : (q : S) → ι → σ → A q × σ)

/-- The threads from number `n` on end in what `post` says of their operations. -/
def OutlineSince (n : ℕ) (post : (op : O) → Except ε (B op) → σ → γ → Prop)
    (p : Pool σ A ε B) : Prop :=
  ∃ g, D.inv p.shared g ∧ n ≤ p.threads.length ∧ ∀ i t, p.threads[i]? = some t →
    ∃ P, Stable D i P ∧ P p.shared g ∧
      Safe D exec t.op i t.rest P fun r s g => n ≤ i → post t.op r s g

variable {D exec}
variable {program : (op : O) → Call S A ε (B op)} {p p' : Pool σ A ε B} {a : Action O ι}
  {n i : ℕ} {post : (op : O) → Except ε (B op) → σ → γ → Prop}

theorem Outline.since (h : Outline D exec p) : OutlineSince D exec p.threads.length post p := by
  obtain ⟨g, hI, ht⟩ := h
  refine ⟨g, hI, Nat.le_refl _, fun i t hi => ?_⟩
  obtain ⟨P, hst, hp, hs⟩ := ht i t hi
  have hlt : i < p.threads.length := (List.getElem?_eq_some_iff.mp hi).1
  exact ⟨P, hst, hp, safe_post hs fun _ _ _ _ _ hle => absurd hle (Nat.not_le_of_lt hlt)⟩

theorem OutlineSince.step (checked : ∀ op, D.admits op → ∀ i,
      Safe D exec op i (program op) (fun _ _ => True) (post op))
    (h : OutlineSince D exec n post p) (hg : Permitted D p a)
    (hs : step program exec p a = some p') : OutlineSince D exec n post p' := by
  obtain ⟨g, hI, hn, ht⟩ := h
  obtain ⟨op, rfl, rfl⟩ | ⟨i, input, op, q, k, rfl, hi, rfl⟩ := step_cases hs
  · refine ⟨g, hI, Nat.le_trans hn (by simp), fun i t hi => ?_⟩
    obtain hold | ⟨-, rfl⟩ := getElem?_spawned hi
    · exact ht i t hold
    · exact ⟨_, fun _ _ _ _ _ _ _ h => h, trivial,
        safe_post (checked op hg i) fun _ _ _ _ hpost _ => hpost⟩
  · obtain ⟨g', hI', -, ht'⟩ := safe_threads (R := fun i op r s g => n ≤ i → post op r s g)
      hI ht hi (hg op q k hi) input
    exact ⟨g', hI', by simpa using hn, ht'⟩

theorem OutlineSince.of_reaches (checked : ∀ op, D.admits op → ∀ i,
      Safe D exec op i (program op) (fun _ _ => True) (post op))
    (initial : Outline D exec p) (h : Reaches (Interleaving.step program exec) (Permitted D) p p') :
    OutlineSince D exec p.threads.length post p' :=
  h.invariant initial.since fun _ _ _ => OutlineSince.step checked

theorem OutlineSince.returned {op : O} {a : B op} (h : OutlineSince D exec n post p) (hn : n ≤ i)
    (hi : p.threads[i]? = some ⟨op, .ret a⟩) : ∃ g, D.inv p.shared g ∧ post op (.ok a) p.shared g := by
  obtain ⟨g, hI, -, ht⟩ := h
  obtain ⟨P, -, hp, hs⟩ := ht i _ hi
  exact ⟨g, hI, hs p.shared g hI hp hn⟩

end Since

section Roster
variable {program : (op : O) → Call S A ε (B op)} {p p' : Pool σ A ε B} {a : Action O ι}
  {roster : γ → ℕ → Option O}

/-- An outline whose auxiliary state knows the operation of every thread, and whose conclusions
may be about the number of the thread. -/
structure OutlineAt (roster : γ → ℕ → Option O)
    (post : ℕ → (op : O) → Except ε (B op) → σ → γ → Prop) (p : Pool σ A ε B) (g : γ) : Prop where
  inv : D.inv p.shared g
  known : ∀ i, roster g i = (p.threads[i]?).map Thread.op
  safe : ∀ i t, p.threads[i]? = some t →
    ∃ P, Stable D i P ∧ P p.shared g ∧ Safe D exec t.op i t.rest P (post i t.op)

variable {D exec} {post : ℕ → (op : O) → Except ε (B op) → σ → γ → Prop} {g : γ}

section Threads
variable {i : ℕ} {op : O} (h : OutlineAt D exec roster post p g)
include h

theorem OutlineAt.needs {q : S} {k : A q → Call S A ε (B op)}
    (hi : p.threads[i]? = some ⟨op, .step q k⟩) : D.needs i op q p.shared g := by
  obtain ⟨P, -, hp, hs⟩ := h.safe i _ hi
  exact (hs p.shared g h.inv hp).1

theorem OutlineAt.returned {a : B op} (hi : p.threads[i]? = some ⟨op, .ret a⟩) :
    post i op (.ok a) p.shared g := by
  obtain ⟨P, -, hp, hs⟩ := h.safe i _ hi
  exact hs p.shared g h.inv hp

theorem OutlineAt.failed {e : ε} (hi : p.threads[i]? = some ⟨op, .fail e⟩) :
    post i op (.error e) p.shared g := by
  obtain ⟨P, -, hp, hs⟩ := h.safe i _ hi
  exact hs p.shared g h.inv hp

end Threads

/-- A new thread is entered in the auxiliary state, which the others tolerate, and starts from
an assertion from which its call is safe. -/
def Starts (D : Discipline S O σ γ) (exec : (q : S) → ι → σ → A q × σ)
    (roster : γ → ℕ → Option O) (post : ℕ → (op : O) → Except ε (B op) → σ → γ → Prop)
    (op : O) (c : Call S A ε (B op)) : Prop :=
  ∀ i s g, D.inv s g → roster g i = none → ∃ g', D.inv s g' ∧ roster g' i = some op ∧
    (∀ j, j ≠ i → roster g' j = roster g j) ∧ (∀ j, j ≠ i → D.rely j s g s g') ∧
    ∃ P, Stable D i P ∧ P s g' ∧ Safe D exec op i c P (post i op)

theorem OutlineAt.spawn {op : O} (h : OutlineAt D exec roster post p g)
    (starts : Starts D exec roster post op (program op)) :
    ∃ g', OutlineAt D exec roster post
        (⟨p.shared, p.threads ++ [⟨op, program op⟩]⟩ : Pool σ A ε B) g' ∧
      ∀ j, j ≠ p.threads.length → D.rely j p.shared g p.shared g' := by
  have hnone : roster g p.threads.length = none := by
    rw [h.known, List.getElem?_eq_none (Nat.le_refl _)]
    rfl
  obtain ⟨g', hI', hnew, hold, hrely, hthread⟩ := starts p.threads.length p.shared g h.inv hnone
  refine ⟨g', ⟨hI', fun i => ?_, fun i t hi => ?_⟩, hrely⟩
  · rcases Nat.lt_trichotomy i p.threads.length with hlt | rfl | hgt
    · rw [hold i (Nat.ne_of_lt hlt), h.known, List.getElem?_append_left hlt]
    · simp [hnew]
    · rw [hold i (Nat.ne_of_gt hgt), h.known, List.getElem?_eq_none (Nat.le_of_lt hgt),
        List.getElem?_eq_none (by simpa using Nat.succ_le_of_lt hgt)]
  · obtain hi | ⟨rfl, rfl⟩ := getElem?_spawned hi
    · have hne : i ≠ p.threads.length := Nat.ne_of_lt (List.getElem?_eq_some_iff.mp hi).1
      obtain ⟨P, hst, hp, hs⟩ := h.safe i t hi
      exact ⟨P, hst, hst _ _ _ _ h.inv hI' (hrely i hne) hp, hs⟩
    · exact hthread

theorem OutlineAt.advance {i : ℕ} {input : ι} {op : O} {q : S} {k : A q → Call S A ε (B op)}
    (kept : ∀ i s g s' g', (∀ j, j ≠ i → D.rely j s g s' g') → (roster g i).isSome →
      roster g' = roster g)
    (h : OutlineAt D exec roster post p g) (hi : p.threads[i]? = some ⟨op, .step q k⟩)
    (hg : D.guard p.shared op q) :
    ∃ g', OutlineAt D exec roster post (⟨(exec q input p.shared).2,
        p.threads.set i ⟨op, k (exec q input p.shared).1⟩⟩ : Pool σ A ε B) g' ∧
      ∀ j, j ≠ i → D.rely j p.shared g (exec q input p.shared).2 g' := by
  obtain ⟨g', hI', hr, ht'⟩ := safe_threads h.inv h.safe hi hg input
  have hsame : roster g' = roster g := kept i _ _ _ _ hr (by rw [h.known, hi]; rfl)
  refine ⟨g', ⟨hI', fun j => ?_, ht'⟩, hr⟩
  rw [hsame, h.known, List.getElem?_set]
  split
  · subst j
    rw [hi, if_pos (List.getElem?_eq_some_iff.mp hi).1]
    rfl
  · rfl

/-- Every recorded run of permitted actions from a pool without threads knows its threads, and
what ties the record to the auxiliary state is what the steps of a thread keep that the others
tolerate. -/
theorem outlineAt_of_recorded {τ : Type} {note : Pool σ A ε B → Action O ι → Pool σ A ε B → List τ}
    {C : List τ → σ → γ → Prop}
    (kept : ∀ i s g s' g', (∀ j, j ≠ i → D.rely j s g s' g') → (roster g i).isSome →
      roster g' = roster g)
    (starts : ∀ op, D.admits op → Starts D exec roster post op (program op))
    (tied : ∀ p a p' l g g', D.inv p.shared g → D.inv p'.shared g' →
      (∀ j, j ≠ a.thread p → D.rely j p.shared g p'.shared g') →
      C l p.shared g → C (l ++ note p a p') p'.shared g')
    {s₀ : σ} (initial : ∃ g₀, D.inv s₀ g₀ ∧ (∀ i, roster g₀ i = none) ∧ C [] s₀ g₀)
    {x : Pool σ A ε B × List τ}
    (h : Reaches (recorded (step program exec) note) (fun x => Permitted D x.1)
      (⟨s₀, []⟩, []) x) :
    ∃ g, OutlineAt D exec roster post x.1 g ∧ C x.2 x.1.shared g := by
  obtain ⟨g₀, hg₀, hempty, hC⟩ := initial
  refine h.invariant (I := fun x => ∃ g, OutlineAt D exec roster post x.1 g ∧ C x.2 x.1.shared g)
    ⟨g₀, ⟨hg₀, fun i => by simpa using hempty i, by simp⟩, hC⟩ ?_
  rintro ⟨p, l⟩ a y ⟨g, hp, hl⟩ ha hy
  obtain ⟨p', hs, rfl⟩ := recorded_eq_some hy
  suffices hnext : ∃ g', OutlineAt D exec roster post p' g' ∧
      ∀ j, j ≠ a.thread p → D.rely j p.shared g p'.shared g' by
    obtain ⟨g', hp', hrely⟩ := hnext
    exact ⟨g', hp', tied p a p' l g g' hp.inv hp'.inv hrely hl⟩
  obtain ⟨op, rfl, rfl⟩ | ⟨i, input, op, q, k, rfl, hi, rfl⟩ := step_cases hs
  · exact hp.spawn (starts op ha)
  · exact hp.advance kept hi (ha op q k hi)

end Roster

section Uses
variable {program : (op : O) → Call S A ε (B op)} {exec : (q : S) → ι → σ → A q × σ}
  {p : Pool σ A ε B}

/-- What all steps of the admitted calls keep, holds in every pool reached. -/
theorem invariant_of_uses {admits : O → Prop} {P : S → Prop} {I : σ → Prop}
    (uses : ∀ op, admits op → (program op).Uses P)
    (kept : ∀ q, P q → ∀ input s, I s → I (exec q input s).2) {s₀ : σ} (initial : I s₀)
    (h : Reaches (step program exec) (fun _ a => ∀ op, a = .spawn op → admits op) ⟨s₀, []⟩ p) :
    I p.shared := by
  have hinv : I p.shared ∧ ∀ t ∈ p.threads, t.rest.Uses P := by
    refine h.invariant (I := fun p => I p.shared ∧ ∀ t ∈ p.threads, t.rest.Uses P)
      ⟨initial, by simp⟩ fun p a p' hp ha hstep => ?_
    obtain ⟨op, rfl, rfl⟩ | ⟨i, input, op, q, k, rfl, hi, rfl⟩ := step_cases hstep
    · refine ⟨hp.1, fun t ht => ?_⟩
      rcases List.mem_append.mp ht with hold | hnew
      · exact hp.2 t hold
      · rw [List.mem_singleton.mp hnew]
        exact uses op (ha op rfl)
    · have hthread := hp.2 _ (List.mem_of_getElem? hi)
      refine ⟨kept q hthread.1 input _ hp.1, fun t ht => ?_⟩
      rcases List.mem_or_eq_of_mem_set ht with hold | rfl
      · exact hp.2 t hold
      · exact hthread.2 _
  exact hinv.1

end Uses

end OpenDaemon.Interleaving
