import OpenDaemon.Interleaving

/-!
# Patches that set different columns

A patch gives new values for some columns of a row. Patches that set different columns do
not disturb each other as long as each of them is written over the row as it stands: the
calls of a pool then keep what the others have set. What a column stores of a value is its
normal form.
-/

namespace OpenDaemon.DisjointPatches

open Runs Interleaving

section Columns
variable {α : Type} {norm : α → α} {patch other : Option α} {column : α}

def Has (norm : α → α) (patch : Option α) (column : α) : Prop :=
  ∀ value, patch = some value → column = norm value

def Apart (patch other : Option α) : Prop := patch = none ∨ other = none

theorem Apart.symm (h : Apart patch other) : Apart other patch := Or.symm h

theorem has_written : Has norm patch (norm (patch.getD column)) := by
  intro value hvalue
  rw [hvalue, Option.getD_some]

theorem Has.kept (h : Has norm patch column) (hapart : Apart patch other)
    (idempotent : ∀ value, norm (norm value) = norm value) :
    Has norm patch (norm (other.getD column)) := by
  intro value hvalue
  rcases hapart with hnone | hnone
  · rw [hnone] at hvalue
    cases hvalue
  · rw [hnone, Option.getD_none, h value hvalue, idempotent]

end Columns

section Pool
variable {S : Type} {A : S → Type} {ε O : Type} {B : O → Type} {σ ι α β : Type}

def started (program : (op : O) → Call S A ε (B op)) (s : σ) (ops : List O) : Pool σ A ε B :=
  ⟨s, ops.map fun op => ⟨op, program op⟩⟩

def Advances (allowed : σ → O → S → Prop) (p : Pool σ A ε B) : Action O ι → Prop
  | .spawn _ => False
  | .advance i _ => ∀ op q k, p.threads[i]? = some ⟨op, .step q k⟩ → allowed p.shared op q

def keeping (ops : List O) (has : O → σ → Prop) (allowed : σ → O → S → Prop) :
    Discipline S O σ Unit where
  inv _ _ := True
  rely i s _ s' _ := ∀ op, ops[i]? = some op → has op s → has op s'
  admits _ := False
  guard := allowed
  needs _ _ _ _ _ := True

variable {program : (op : O) → Call S A ε (B op)} {exec : (q : S) → ι → σ → A q × σ}
  {ops : List O} {has : O → σ → Prop} {allowed : σ → O → S → Prop} {op : O} {i : ℕ}

theorem stable_has (hop : ops[i]? = some op) :
    Stable (keeping ops has allowed) i fun s _ => has op s := by
  intro s _ s' _ _ _ hrely hs
  exact hrely op hop hs

theorem stable_true : Stable (keeping ops has allowed) i fun _ _ => True :=
  fun _ _ _ _ _ _ _ _ => trivial

theorem safe_of_uses {P : σ → Unit → Prop} {c : Call S A ε α}
    (hc : c.Uses fun q => ∀ input s, (exec q input s).2 = s)
    (stable : Stable (keeping ops has allowed) i P) :
    Safe (keeping ops has allowed) exec op i c P fun _ s g => P s g := by
  induction c with
  | ret a => exact fun s g _ hp => hp
  | fail e => exact fun s g _ hp => hp
  | step q k ih =>
    refine safe_step (fun _ => P) (fun _ => stable) (fun _ _ _ _ => trivial) ?_
      fun a => ih a (hc.2 a)
    intro s g input _ hp _
    rw [hc.1 input s]
    exact ⟨g, trivial, fun j _ op' _ h => h, hp⟩

/-- What the operation sets is there when it has returned. -/
def Sets (has : O → σ → Prop) (op : O) (r : Except ε α) (s : σ) (_ : Unit) : Prop :=
  ∀ a, r = .ok a → has op s

theorem safe_check {r : Except ε α} {f : α → Call S A ε β} {P : σ → Unit → Prop}
    (h : ∀ a, Safe (keeping ops has allowed) exec op i (f a) P (Sets has op)) :
    Safe (keeping ops has allowed) exec op i (Call.ofExcept r >>= f) P (Sets has op) := by
  cases r with
  | ok a => exact h a
  | error e =>
    intro s g _ _ a ha
    cases ha

theorem safe_read {c : Call S A ε α} {f : α → Call S A ε β}
    (hc : c.Uses fun q => ∀ input s, (exec q input s).2 = s)
    (h : ∀ a, Safe (keeping ops has allowed) exec op i (f a) (fun _ _ => True) (Sets has op)) :
    Safe (keeping ops has allowed) exec op i (c >>= f) (fun _ _ => True) (Sets has op) := by
  refine safe_bind (safe_of_uses hc stable_true) h ?_
  intro e s g _ _ a ha
  cases ha

/-- The call writes, and what follows only reads: the write has to set what the operation sets
and to keep what the others have set. -/
theorem safe_write {q : S} {k : A q → Call S A ε α} (hop : ops[i]? = some op)
    (effect : ∀ s input, allowed s op q →
      (∀ j other, j ≠ i → ops[j]? = some other → has other s → has other (exec q input s).2) ∧
        (has op (exec q input s).2 ∨ ∃ e, k (exec q input s).1 = .fail e))
    (next : ∀ a, (k a).Uses fun q => ∀ input s, (exec q input s).2 = s) :
    Safe (keeping ops has allowed) exec op i (.step q k) (fun _ _ => True) (Sets has op) := by
  intro s g _ _
  refine ⟨trivial, fun hallowed input => ⟨g, trivial, ?_, ?_⟩⟩
  · intro j hj other hother hs
    exact (effect s input hallowed).1 j other hj hother hs
  · rcases (effect s input hallowed).2 with hset | ⟨e, he⟩
    · refine ⟨_, stable_has hop, hset, ?_⟩
      exact safe_post (safe_of_uses (next _) (stable_has hop)) fun _ s g _ hs _ _ => hs
    · refine ⟨_, stable_true, trivial, ?_⟩
      rw [he]
      intro s g _ _ a ha
      cases ha

theorem has_of_returned {s : σ} {p : Pool σ A ε B} {a : B op}
    (checked : ∀ i op, ops[i]? = some op →
      Safe (keeping ops has allowed) exec op i (program op) (fun _ _ => True) (Sets has op))
    (h : Reaches (step program exec) (Advances allowed) (started program s ops) p)
    (hi : p.threads[i]? = some ⟨op, .ret a⟩) : has op p.shared := by
  have hstart : OutlineTo (keeping ops has allowed) exec (fun op => Sets has op)
      (started program s ops : Pool σ A ε B) := by
    refine ⟨(), trivial, fun j t hj => ?_⟩
    simp only [started, List.getElem?_map, Option.map_eq_some_iff] at hj
    obtain ⟨op', hop', rfl⟩ := hj
    exact ⟨_, stable_true, trivial, checked j op' hop'⟩
  have hreach : Reaches (step program exec) (Permitted (keeping ops has allowed))
      (started program s ops) p := by
    refine h.mono ?_
    intro p' action haction
    cases action with
    | spawn op' => exact haction
    | advance j input => exact haction
  have hnone : ∀ op', (keeping ops has allowed).admits op' → ∀ i,
      Safe (keeping ops has allowed) exec op' i (program op') (fun _ _ => True) (Sets has op') :=
    fun op' hadmits => hadmits.elim
  have houtline := hstart.of_reaches hnone hreach
  obtain ⟨_, -, hpost⟩ := houtline.returned hi
  exact hpost a rfl

theorem reaches_advance {p p' : Pool σ A ε B} (i : ℕ) (input : ι) {q : S}
    {k : A q → Call S A ε (B op)} (hi : p.threads[i]? = some ⟨op, .step q k⟩)
    (hallowed : allowed p.shared op q)
    (h : Reaches (step program exec) (Advances allowed)
      ⟨(exec q input p.shared).2, p.threads.set i ⟨op, k (exec q input p.shared).1⟩⟩ p') :
    Reaches (step program exec) (Advances allowed) p p' := by
  have hok : Advances allowed p (.advance i input) := by
    intro op' q' k' hi'
    rw [hi] at hi'
    cases hi'
    exact hallowed
  refine Reaches.trans (.tail .refl hok ?_) h
  simp only [step, hi]

theorem set_same {threads : List (Thread A ε B)} {t : Thread A ε B}
    (hi : threads[i]? = some t) : threads.set i t = threads := by
  obtain ⟨hlt, rfl⟩ := List.getElem?_eq_some_iff.mp hi
  exact List.set_getElem_self hlt

theorem reaches_alone {p : Pool σ A ε B} (i : ℕ) (inputs : ℕ → ι) {c : Call S A ε (B op)}
    (hi : p.threads[i]? = some ⟨op, c⟩)
    (hallowed : ∀ x ∈ c.steps exec inputs p.shared, allowed x.2 op x.1) :
    Reaches (step program exec) (Advances allowed) p ⟨(c.run exec inputs p.shared).state,
      p.threads.set i ⟨op, Call.ofExcept (c.run exec inputs p.shared).result⟩⟩ := by
  induction c generalizing p inputs with
  | ret a =>
    simp only [Call.run_ret, Call.ofExcept, set_same hi]
    exact .refl
  | fail e =>
    simp only [Call.run_fail, Call.ofExcept, set_same hi]
    exact .refl
  | step q k ih =>
    have hlt := (List.getElem?_eq_some_iff.mp hi).1
    let moved : Pool σ A ε B := ⟨(exec q (inputs 0) p.shared).2,
      p.threads.set i ⟨op, k (exec q (inputs 0) p.shared).1⟩⟩
    have hmoved : moved.threads[i]? = some ⟨op, k (exec q (inputs 0) p.shared).1⟩ :=
      List.getElem?_set_self hlt
    refine reaches_advance i (inputs 0) hi (hallowed (q, p.shared) List.mem_cons_self) ?_
    have hrest := ih _ (fun n => inputs (n + 1)) hmoved
      fun x hx => hallowed x (List.mem_cons_of_mem _ hx)
    rw [List.set_set] at hrest
    exact hrest

theorem mem_steps_check {r : Except ε α} {f : α → Call S A ε β} {inputs : ℕ → ι} {s : σ}
    {x : S × σ} (hx : x ∈ (Call.ofExcept r >>= f).steps exec inputs s) :
    ∃ a, r = .ok a ∧ x ∈ (f a).steps exec inputs s := by
  cases r with
  | ok a => exact ⟨a, rfl, hx⟩
  | error e => cases hx

theorem mem_steps_read {c : Call S A ε α} {f : α → Call S A ε β} {inputs : ℕ → ι} {s : σ}
    {x : S × σ} (hc : c.Uses fun q => ∀ input s, (exec q input s).2 = s)
    (hx : x ∈ (c >>= f).steps exec inputs s) :
    x ∈ c.steps exec inputs s ∨ ∃ a rest, (c.run exec inputs s).result = .ok a ∧
      x ∈ (f a).steps exec rest s := by
  obtain hread | ⟨a, t, rest, hrun, hrest⟩ := Call.mem_steps_bind hx
  · exact .inl hread
  · have hstate : (c.run exec inputs s).state = s := by
      refine hc.run_invariant (I := fun t => t = s) ?_ inputs rfl
      intro q input t hq ht
      exact (hq input t).trans ht
    have hsame : t = s := by
      rw [hrun] at hstate
      exact hstate
    rw [hsame] at hrest
    exact .inr ⟨a, rest, by rw [hrun], hrest⟩

theorem mem_steps_single {q : S} {k : A q → Call S A ε α} {inputs : ℕ → ι} {s : σ} {x : S × σ}
    (hk : ∀ a, (k a).Uses fun _ => False) (hx : x ∈ (Call.step q k).steps exec inputs s) :
    x = (q, s) := by
  rcases List.mem_cons.mp hx with rfl | hrest
  · rfl
  · exact ((hk _).of_mem_steps hrest).elim

end Pool

section Row
variable {S : Type} {A : S → Type} {ε O : Type} {B : O → Type} {σ ι α K R : Type}
  {program : (op : O) → Call S A ε (B op)} {exec : (q : S) → ι → σ → A q × σ}
  {mk : K → O} {row : σ → Option R} {applied : K → R → Prop} {apart : K → K → Prop}
  {allowed : σ → O → S → Prop} {patches : List K} {k : K} {i : ℕ}

def InRow (mk : K → O) (row : σ → Option R) (applied : K → R → Prop) (op : O) (s : σ) : Prop :=
  ∀ k, op = mk k → ∃ r, row s = some r ∧ applied k r

/-- Call `i`, which is the patch `k`, ends with its values in the row and keeps those of the other
patches. -/
def SafePatch (exec : (q : S) → ι → σ → A q × σ) (mk : K → O) (row : σ → Option R)
    (applied : K → R → Prop) (allowed : σ → O → S → Prop) (patches : List K) (k : K) (i : ℕ)
    (c : Call S A ε α) : Prop :=
  Safe (keeping (patches.map mk) (InRow mk row applied) allowed) exec (mk k) i c (fun _ _ => True)
    (Sets (InRow mk row applied) (mk k))

theorem apart_of_ne (h : patches.Pairwise apart) (symm : ∀ k l, apart k l → apart l k) {j : ℕ}
    {l : K} (hij : i ≠ j) (hi : patches[i]? = some k) (hj : patches[j]? = some l) : apart k l := by
  obtain ⟨hlt, rfl⟩ := List.getElem?_eq_some_iff.mp hi
  obtain ⟨hlt', rfl⟩ := List.getElem?_eq_some_iff.mp hj
  rcases Nat.lt_or_gt_of_ne hij with hless | hless
  · exact List.pairwise_iff_getElem.mp h i j hlt hlt' hless
  · exact symm _ _ (List.pairwise_iff_getElem.mp h j i hlt' hlt hless)

/-- The write of a patch fails, or it sets the columns of the patch and leaves those of patches
that are apart from it. -/
theorem safe_overwrite {q : S} {next : A q → Call S A ε α} (hmk : Function.Injective mk)
    (hapart : patches.Pairwise apart) (symm : ∀ k l, apart k l → apart l k)
    (hi : patches[i]? = some k)
    (effect : ∀ s input, allowed s (mk k) q →
      ((exec q input s).2 = s ∧ ∃ e, next (exec q input s).1 = .fail e) ∨
        ∃ r r', row s = some r ∧ row (exec q input s).2 = some r' ∧ applied k r' ∧
          ∀ other, apart other k → applied other r → applied other r')
    (hnext : ∀ a, (next a).Uses fun q => ∀ input s, (exec q input s).2 = s) :
    SafePatch exec mk row applied allowed patches k i (.step q next) := by
  have hop : (patches.map mk)[i]? = some (mk k) := by
    rw [List.getElem?_map, hi]
    rfl
  refine safe_write hop ?_ hnext
  intro s input hallowed
  rcases effect s input hallowed with ⟨hsame, hfail⟩ | ⟨r, r', hrow, hrow', hset, hkept⟩
  · rw [hsame]
    exact ⟨fun _ _ _ _ h => h, .inr hfail⟩
  · constructor
    · rintro j op hj hop' hin other rfl
      obtain ⟨old, hold, happlied⟩ := hin other rfl
      obtain rfl := Option.some.inj (hrow.symm.trans hold)
      rw [List.getElem?_map] at hop'
      obtain ⟨l, hl, heq⟩ := Option.map_eq_some_iff.mp hop'
      obtain rfl := hmk heq
      exact ⟨r', hrow', hkept l (apart_of_ne hapart symm hj hl hi) happlied⟩
    · refine .inl ?_
      intro l hl
      obtain rfl := hmk hl
      exact ⟨r', hrow', hset⟩

theorem applied_of_returned {s : σ} {p : Pool σ A ε B} {a : B (mk k)}
    (checked : ∀ i k, patches[i]? = some k →
      SafePatch exec mk row applied allowed patches k i (program (mk k)))
    (h : Reaches (step program exec) (Advances allowed) (started program s (patches.map mk)) p)
    (hi : p.threads[i]? = some ⟨mk k, .ret a⟩) :
    ∃ r, row p.shared = some r ∧ applied k r := by
  have hin : InRow mk row applied (mk k) p.shared := by
    refine has_of_returned ?_ h hi
    intro j op hop
    rw [List.getElem?_map] at hop
    obtain ⟨l, hl, rfl⟩ := Option.map_eq_some_iff.mp hop
    exact checked j l hl
  exact hin k rfl

end Row

end OpenDaemon.DisjointPatches
