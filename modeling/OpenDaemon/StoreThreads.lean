import OpenDaemon.Interleaving
import OpenDaemon.StoreInvariant

/-!
# Concurrent calls of the task store

Any number of store calls run at once, interleaved at their database steps,
and any step may meet an I/O error. The proof outline below is checked once
for every call: a sequence number that a call has read is at most the next one,
because logs only grow, and so a commit that is not refused uses the next one.
-/

namespace OpenDaemon

open Runs Interleaving Store

abbrev StorePool : Type := Pool Store DbStep.Answer TaskStoreError TaskOp.Result

abbrev StoreAction : Type := Action TaskOp DbStep.Input

def storeStep : StorePool → StoreAction → Option StorePool := step TaskOp.program DbStep.exec

def startPool (s : Store) : StorePool := ⟨s, []⟩

def TaskOp.target? : TaskOp → Option (String × TaskStatus)
  | .transition id next _ => some (id, next)
  | .cancel id => some (id, .cancelled)
  | _ => none

/-- All callers of `append_event` pass a `process.*` or `provider.*` type. -/
def TaskOp.isOrdinary : TaskOp → Bool
  | .appendEvent _ eventType _ => eventType.status?.isNone
  | _ => true

def Store.allows (s : Store) (id : String) (next : TaskStatus) : Bool :=
  ((s.findTask id).map Task.status).all fun status =>
    decide (validateTransition status next = .ok .changed)

/-- When a transition call reads the next sequence number, its transition is still allowed. -/
def readsCurrent (s : Store) (op : TaskOp) (q : DbStep) : Bool :=
  match op.target?, q with
  | some (id, next), .nextSequence taskId => !decide (taskId = id) || s.allows id next
  | _, _ => true

namespace StoreThreads

def Issues (op : TaskOp) : DbStep → Prop
  | .insertTask row _ => ∃ input, op = .create input ∧ row = TaskStore.newTask input
  | .updateTaskStatus id next _ _ _ => op.target? = some (id, next)
  | .insertEvent id _ eventType payload _ =>
    op = .appendEvent id eventType payload ∧ eventType.status? = none
  | .resolvePermissionRequest id requestId decision reason _ =>
    op = .resolvePermissionRequest id requestId decision reason
  | _ => True

def Current (s : Store) : DbStep → Prop
  | .updateTaskStatus id next _ sequence _ => sequence = s.nextSequence id → s.allows id next
  | _ => True

/-- With `strict` the outline covers the runs whose sequence reads are current. -/
def discipline (strict : Bool) : Discipline DbStep TaskOp Store Unit where
  inv s _ := s.WellFormed
  rely _ s _ s' _ := s.Extends s'
  admits op := op.isOrdinary
  guard s op q := strict → readsCurrent s op q
  needs _ op q s _ := s.Ready q ∧ Issues op q ∧ (strict → Current s q)

variable {strict : Bool} {op : TaskOp} {i : ℕ} {α β : Type}
variable {P : Store → Prop} {Q : α → Store → Prop}

def Post (Q : α → Store → Prop) : Except TaskStoreError α → Store → Unit → Prop
  | .ok a, s, _ => Q a s
  | .error _, _, _ => True

def Holds (strict : Bool) (op : TaskOp) (i : ℕ) (P : Store → Prop) (c : TaskCall α)
    (Q : α → Store → Prop) : Prop :=
  Safe (discipline strict) DbStep.exec op i c (fun s _ => P s) (Post Q)

def Lasting (P : Store → Prop) : Prop := ∀ s s', Extends s s' → P s → P s'

theorem Lasting.stable (h : Lasting P) : Stable (discipline strict) i fun s _ => P s :=
  fun s _ s' _ _ _ hr hp => h s s' hr hp

theorem Lasting.and {P' : Store → Prop} (h : Lasting P) (h' : Lasting P') :
    Lasting fun s => P s ∧ P' s :=
  fun s s' hr hp => ⟨h s s' hr hp.1, h' s s' hr hp.2⟩

theorem lasting_true : Lasting fun _ => True := fun _ _ _ h => h

theorem lasting_task (id : String) : Lasting fun s => (s.findTask id).isSome :=
  fun _ _ hr h => hr.tasks id h

theorem lasting_sequence (id : String) (sequence : ℕ) :
    Lasting fun s => 1 ≤ sequence ∧ sequence ≤ s.nextSequence id :=
  fun _ _ hr h => ⟨h.1, h.2.trans (hr.sequence id)⟩

theorem lasting_allows (id : String) (next : TaskStatus) (sequence : ℕ) :
    Lasting fun s => sequence ≤ s.nextSequence id ∧
      (sequence = s.nextSequence id → s.allows id next) := by
  intro s s' hr h
  have hle := hr.sequence id
  refine ⟨h.1.trans hle, fun heq => ?_⟩
  have hsame : s'.nextSequence id = s.nextSequence id := by
    have := h.1
    omega
  rw [Store.allows, hr.status id hsame]
  exact h.2 (heq.trans hsame)

theorem holds_ret {a : α} (h : ∀ s, s.WellFormed → P s → Q a s) :
    Holds strict op i P (.ret a) Q :=
  fun s _ hs hp => h s hs hp

theorem holds_fail {e : TaskStoreError} : Holds strict op i P (.fail e : TaskCall α) Q :=
  fun _ _ _ _ => trivial

theorem Holds.bind {c : TaskCall α} {f : α → TaskCall β} {R : β → Store → Prop}
    (hc : Holds strict op i P c Q) (hf : ∀ a, Holds strict op i (Q a) (f a) R) :
    Holds strict op i P (c >>= f) R :=
  safe_bind hc hf fun _ _ _ _ _ => trivial

theorem Holds.weaken {c : TaskCall α} {P' : Store → Prop} (h : Holds strict op i P c Q)
    (hp : ∀ s, P' s → P s) : Holds strict op i P' c Q :=
  safe_weaken h fun s _ _ => hp s

theorem Holds.post {c : TaskCall α} {Q' : α → Store → Prop} (h : Holds strict op i P c Q)
    (hq : ∀ a s, Q a s → Q' a s) : Holds strict op i P c Q' := by
  refine safe_post h fun r s _ _ hr => ?_
  cases r with
  | ok a => exact hq a s hr
  | error e => trivial

theorem holds_send {q : DbStep} {Q : q.Row → Store → Prop} (lasting : ∀ row, Lasting (Q row))
    (needs : ∀ s, s.WellFormed → P s → s.Ready q ∧ Issues op q ∧ (strict → Current s q))
    (answer : ∀ now s s' row, s.WellFormed → P s → (strict → readsCurrent s op q) →
      q.attempt now s = .ok (row, s') → s.Extends s' → Q row s') :
    Holds strict op i P (TaskStore.send q) Q := by
  refine safe_step (fun r s _ => ∀ row, r = .ok row → Q row s) ?_ ?_ ?_ ?_
  · intro r s _ s' _ hs hs' hr h row hrow
    exact (lasting row).stable s () s' () hs hs' hr (h row hrow)
  · exact fun s _ hs hp => needs s hs hp
  · intro s _ input hs hp hg
    obtain ⟨hwf, hext⟩ := effect_spec hs (effect_of_exec q input s) (needs s hs hp).1
    refine ⟨(), hwf, fun _ _ => hext, ?_⟩
    obtain ⟨e, he⟩ | ⟨now, row, s', ha, he⟩ := exec_cases q input s
    · rw [he]
      intro row hrow
      cases hrow
    · rw [he] at hext ⊢
      intro row' hrow
      obtain rfl := Except.ok.inj hrow
      exact answer now s s' row hs hp hg ha hext
  · intro r
    cases r with
    | ok row => exact fun _ _ _ h => h row rfl
    | error e => exact fun _ _ _ _ => trivial

def Free (q : DbStep) : Prop := ∀ s op, Store.Ready s q ∧ Issues op q ∧ Current s q

theorem holds_free {q : DbStep} (hq : Free q) (hP : Lasting P) :
    Holds strict op i P (TaskStore.send q) fun _ => P :=
  holds_send (fun _ => hP) (fun s _ _ => ⟨(hq s op).1, (hq s op).2.1, fun _ => (hq s op).2.2⟩)
    fun _ s s' _ _ hp _ _ hext => hP s s' hext hp

theorem free_clock : Free .clock := fun _ _ => ⟨trivial, trivial, trivial⟩

theorem free_selectEvent (taskId : String) (sequence : ℕ) : Free (.selectEvent taskId sequence) :=
  fun _ _ => ⟨trivial, trivial, trivial⟩

theorem holds_publish (event : TaskEvent) (hP : Lasting P) :
    Holds strict op i P (TaskStore.publishIfConfigured event) fun _ => P :=
  safe_step (fun _ s _ => P s) (fun _ => hP.stable)
    (fun _ _ _ _ => ⟨trivial, trivial, fun _ => trivial⟩)
    (fun s _ input hs hp _ => by
      obtain ⟨hwf, hext⟩ := effect_spec hs (effect_of_exec (.publish event) input s) trivial
      exact ⟨(), hwf, fun _ _ => hext, hP s _ hext hp⟩)
    fun _ => holds_ret fun _ _ h => h

theorem holds_get (id : String) (hP : Lasting P) :
    Holds strict op i P (TaskStore.get id) fun _ s => P s ∧ (s.findTask id).isSome := by
  refine Holds.bind (Q := fun row s => P s ∧ (row.isSome → (s.findTask id).isSome)) ?_ ?_
  · refine holds_send (fun row => hP.and fun s s' hr h hrow => hr.tasks id (h hrow))
      (fun _ _ _ => ⟨trivial, trivial, fun _ => trivial⟩) ?_
    intro now s s' row _ hp _ ha _
    obtain ⟨rfl, rfl⟩ := Prod.mk.inj (Except.ok.inj ha)
    exact ⟨hp, fun h => h⟩
  · intro row
    cases row with
    | none => exact holds_fail
    | some task => exact holds_ret fun s _ h => ⟨h.1, h.2 rfl⟩

theorem holds_nextSequence (id : String) (hP : Lasting P) :
    Holds strict op i P (TaskStore.nextSequence id) fun sequence s => P s ∧
      (1 ≤ sequence ∧ sequence ≤ s.nextSequence id) ∧
      ∀ next, strict → op.target? = some (id, next) →
        sequence ≤ s.nextSequence id ∧ (sequence = s.nextSequence id → s.allows id next) := by
  refine holds_send (fun sequence => hP.and ((lasting_sequence id sequence).and ?_))
    (fun _ _ _ => ⟨trivial, trivial, fun _ => trivial⟩) ?_
  · exact fun s s' hr h next hstrict htarget =>
      lasting_allows id next _ s s' hr (h next hstrict htarget)
  · intro now s s' sequence _ hp hg ha _
    obtain ⟨rfl, rfl⟩ := Prod.mk.inj (Except.ok.inj ha)
    refine ⟨hp, ⟨SequencedLog.one_le_nextSeq, le_rfl⟩,
      fun next hstrict htarget => ⟨le_rfl, fun _ => ?_⟩⟩
    have hcurrent := hg hstrict
    simpa [readsCurrent, htarget] using hcurrent

theorem holds_publishing (taskId : String) (sequence : ℕ) {f : TaskEvent → TaskCall α}
    (hf : ∀ event, Holds strict op i (fun _ => True) (f event) fun _ _ => True) :
    Holds strict op i P (do
      let event ← TaskStore.eventBySequence taskId sequence
      TaskStore.publishIfConfigured event
      f event) fun _ _ => True :=
  ((holds_free (free_selectEvent taskId sequence) lasting_true).bind fun event =>
    (holds_publish event lasting_true).bind fun _ => hf event).weaken fun _ _ => trivial

theorem holds_done {c : TaskCall α} (h : Holds strict op i (fun _ => True) c Q) :
    Holds strict op i (fun _ => True) c fun _ _ => True :=
  h.post fun _ _ _ => trivial

theorem holds_create (input : CreateTask) : Holds strict (.create input) i (fun _ => True)
    (TaskStore.create input) fun _ _ => True := by
  unfold TaskStore.create
  cases hv : input.validate.mapError TaskStoreError.model with
  | error e => exact holds_fail
  | ok _ =>
    refine (holds_free free_clock lasting_true).bind fun now =>
      Holds.bind (Q := fun _ _ => True) ?_ ?_
    · exact holds_send (fun _ => lasting_true)
        (fun _ _ _ => ⟨trivial, ⟨input, rfl, rfl⟩, fun _ => trivial⟩)
        fun _ _ _ _ _ _ _ _ _ => trivial
    · exact fun id => holds_publishing id 1 fun _ => holds_done (holds_get id lasting_true)

theorem holds_transition {id : String} {next : TaskStatus} (payload : Option Value)
    (target : op.target? = some (id, next)) :
    Holds strict op i (fun _ => True) (TaskStore.transition id next payload) fun _ _ => True := by
  refine (holds_get id lasting_true).bind fun current => ?_
  cases validateTransition current.status next with
  | error e => exact holds_fail
  | ok t =>
    cases t with
    | idempotent => exact holds_ret fun _ _ _ => trivial
    | changed =>
      have hlast := lasting_true.and (lasting_task id)
      refine (holds_free free_clock hlast).bind fun now =>
        (holds_nextSequence id hlast).bind fun sequence => Holds.bind (Q := fun _ _ => True) ?_ ?_
      · refine holds_send (fun _ => lasting_true) ?_ fun _ _ _ _ _ _ _ _ _ => trivial
        rintro s - ⟨⟨-, hsome⟩, hseq, hallow⟩
        exact ⟨⟨hsome, hseq⟩, target, fun hstrict => (hallow next hstrict target).2⟩
      · exact fun _ => holds_publishing id sequence fun _ => holds_done (holds_get id lasting_true)

theorem holds_appendEvent (taskId : String) {eventType : TaskEventType} (payload : Value)
    (ordinary : eventType.status? = none) :
    Holds strict (.appendEvent taskId eventType payload) i (fun _ => True)
      (TaskStore.appendEvent taskId eventType payload) fun _ _ => True := by
  have hlast := lasting_true.and (lasting_task taskId)
  refine (holds_get taskId lasting_true).bind fun _ => (holds_free free_clock hlast).bind fun now =>
    (holds_nextSequence taskId hlast).bind fun sequence => Holds.bind (Q := fun _ _ => True) ?_ ?_
  · refine holds_send (fun _ => lasting_true) ?_ fun _ _ _ _ _ _ _ _ _ => trivial
    rintro s - ⟨⟨-, hsome⟩, hseq, -⟩
    exact ⟨⟨hsome, hseq⟩, ⟨rfl, ordinary⟩, fun _ => trivial⟩
  · exact fun _ => holds_publishing taskId sequence fun _ => holds_ret fun _ _ _ => trivial

theorem holds_recordPermissionRequest (taskId : String) (request : PermissionRequestEvent) :
    Holds strict op i (fun _ => True) (TaskStore.recordPermissionRequest taskId request)
      fun _ _ => True := by
  have hlast := lasting_true.and (lasting_task taskId)
  refine (holds_get taskId lasting_true).bind fun _ => (holds_free free_clock hlast).bind fun now =>
    Holds.bind (Q := fun _ _ => True) ?_ ?_
  · exact holds_send (fun _ => lasting_true) (fun s _ h => ⟨h.2, trivial, fun _ => trivial⟩)
      fun _ _ _ _ _ _ _ _ _ => trivial
  · exact fun sequence => holds_publishing taskId sequence fun _ => holds_ret fun _ _ _ => trivial

theorem holds_resolvePermissionRequest (taskId requestId : String) (decision : PermissionDecision)
    (reason : Option String) :
    Holds strict (.resolvePermissionRequest taskId requestId decision reason) i (fun _ => True)
      (TaskStore.resolvePermissionRequest taskId requestId decision reason) fun _ _ => True := by
  have hlast := lasting_true.and (lasting_task taskId)
  refine (holds_get taskId lasting_true).bind fun _ => (holds_free free_clock hlast).bind fun now =>
    Holds.bind (Q := fun _ _ => True) ?_ ?_
  · exact holds_send (fun _ => lasting_true) (fun s _ h => ⟨h.2, rfl, fun _ => trivial⟩)
      fun _ _ _ _ _ _ _ _ _ => trivial
  · intro answer
    rcases answer with e | (resolution | sequence)
    · exact holds_fail
    · exact holds_ret fun _ _ _ => trivial
    · exact holds_publishing taskId sequence fun _ => holds_ret fun _ _ _ => trivial

theorem holds_program (op : TaskOp) (ordinary : op.isOrdinary) :
    Holds strict op i (fun _ => True) op.program fun _ _ => True := by
  cases op with
  | create input => exact holds_create input
  | get id => exact holds_done (holds_get id lasting_true)
  | list filters =>
    exact (holds_free (q := .selectTasks) (fun _ _ => ⟨trivial, trivial, trivial⟩)
      lasting_true).bind fun _ => holds_ret fun _ _ _ => trivial
  | transition id next payload => exact holds_transition payload rfl
  | cancel id => exact holds_transition none rfl
  | saveResult id finalMessage changedFiles =>
    refine (holds_done (holds_get id lasting_true)).bind fun task =>
      (holds_free free_clock lasting_true).bind fun now => ?_
    exact holds_free (fun _ _ => ⟨trivial, trivial, trivial⟩) lasting_true
  | saveExecutionResult result =>
    exact holds_free (fun _ _ => ⟨trivial, trivial, trivial⟩) lasting_true
  | appendEvent taskId eventType payload =>
    exact holds_appendEvent taskId payload (Option.isNone_iff_eq_none.mp ordinary)
  | recordPermissionRequest taskId request => exact holds_recordPermissionRequest taskId request
  | resolvePermissionRequest taskId requestId decision reason =>
    exact holds_resolvePermissionRequest taskId requestId decision reason
  | acquireLock request =>
    refine (holds_free (q := .selectHeldLocks request.directoryId)
      (fun _ _ => ⟨trivial, trivial, trivial⟩) lasting_true).bind fun active => ?_
    split
    · exact holds_ret fun _ _ _ => trivial
    · exact (holds_free free_clock lasting_true).bind fun now =>
        (holds_free (q := .replaceLock request now) (fun _ _ => ⟨trivial, trivial, trivial⟩)
          lasting_true).bind fun _ => holds_ret fun _ _ _ => trivial
  | releaseLocks taskId =>
    exact (holds_free free_clock lasting_true).bind fun now =>
      holds_free (fun _ _ => ⟨trivial, trivial, trivial⟩) lasting_true

end StoreThreads

def StoreGuard (strict : Bool) : StorePool → StoreAction → Prop :=
  Permitted (StoreThreads.discipline strict)

def StoreReaches (strict : Bool) (s : Store) (p : StorePool) : Prop :=
  Reaches storeStep (StoreGuard strict) (startPool s) p

variable {strict : Bool} {s : Store} {p p' : StorePool} {a : StoreAction}

theorem outline_of_storeReaches (hs : s.WellFormed) (h : StoreReaches strict s p) :
    Outline (StoreThreads.discipline strict) DbStep.exec p := by
  refine outline_of_reaches (fun op hop i => ?_) ⟨(), hs⟩ h
  exact safe_post (StoreThreads.holds_program op hop) fun _ _ _ _ _ => trivial

def permits (strict : Bool) (p : StorePool) : StoreAction → Bool
  | .spawn op => op.isOrdinary
  | .advance i _ =>
    match p.threads[i]? with
    | some ⟨op, .step q _⟩ => !strict || readsCurrent p.shared op q
    | _ => true

theorem guard_of_permits (h : permits strict p a) : StoreGuard strict p a := by
  cases a with
  | spawn op => exact h
  | advance i input =>
    intro op q k hi hstrict
    simpa [permits, hi, hstrict] using h

def storeRun (strict : Bool) (s : Store) (actions : List StoreAction) : Option StorePool :=
  run (fun p a => if permits strict p a then storeStep p a else none) (startPool s) actions

theorem storeReaches_of_run {actions : List StoreAction} {β : Type} {f : StorePool → β} {b : β}
    (h : (storeRun strict s actions).map f = some b) : ∃ p, StoreReaches strict s p ∧ f p = b := by
  obtain ⟨p, hp, rfl⟩ := Option.map_eq_some_iff.mp h
  exact ⟨p, reaches_of_run (fun _ _ => guard_of_permits) hp, rfl⟩

theorem storeStep_cases (hs : s.WellFormed) (h : StoreReaches strict s p)
    (hstep : storeStep p a = some p') :
    p'.shared = p.shared ∨ ∃ i input op q k, a = .advance i input ∧
      p.threads[i]? = some ⟨op, .step q k⟩ ∧ p'.shared = (q.exec input p.shared).2 ∧
      p.shared.WellFormed ∧ p.shared.Ready q ∧ StoreThreads.Issues op q ∧
      (strict → StoreThreads.Current p.shared q) := by
  obtain ⟨op, rfl, rfl⟩ | ⟨i, input, op, q, k, rfl, hi, rfl⟩ := step_cases hstep
  · exact .inl rfl
  · obtain ⟨_, hwf, hneeds⟩ := (outline_of_storeReaches hs h).needs
    obtain ⟨hready, hissues, hcurrent⟩ := hneeds i op q k hi
    exact .inr ⟨i, input, op, q, k, rfl, hi, rfl, hwf, hready, hissues, hcurrent⟩

theorem wellFormed_of_storeReaches (hs : s.WellFormed) (h : StoreReaches strict s p) :
    p.shared.WellFormed := by
  obtain ⟨_, hwf, _⟩ := outline_of_storeReaches hs h
  exact hwf

theorem storeReaches_invariant {I : Store → Prop} (hs : s.WellFormed) (h : StoreReaches strict s p)
    (initial : I s) (preserved : ∀ op q t t', t.WellFormed → I t → t.Ready q →
      StoreThreads.Issues op q → (strict → StoreThreads.Current t q) → Effect t t' q → I t') :
    I p.shared := by
  induction h with
  | refl => exact initial
  | tail hr hok hstep ih =>
    obtain hsame | ⟨i, input, op, q, k, -, -, heq, hwf, hready, hissues, hcurrent⟩ :=
      storeStep_cases hs hr hstep
    · rw [hsame]
      exact ih
    · rw [heq]
      exact preserved op q _ _ hwf ih hready hissues hcurrent (effect_of_exec q input _)

end OpenDaemon
