import OpenDaemon.EventService
import OpenDaemon.StoreThreads

/-!
# Concurrent calls of the event service

Store calls and permission calls run at once, interleaved at their steps. What
holds of the store calls by themselves holds here too, since the waiters are no
part of the store. Every event on the bus is a committed one: a call publishes
only what it has read back from the store.
-/

namespace OpenDaemon

open Runs Interleaving Store Call

namespace EventThreads

def learns (m : List TaskEvent) : (q : DbStep) → q.Answer → List TaskEvent
  | .selectEvent .., .ok event => event :: m
  | .resolvePermissionRequest .., .ok (.ok (.inl resolution)) => resolution.event :: m
  | _, _ => m

def PublishesKnown (m : List TaskEvent) (q : DbStep) : Prop :=
  ∀ event, q = .publish event → event ∈ m

section Store
variable {ε α β : Type} {m : List TaskEvent}

def Silent (q : DbStep) : Prop := ∀ event, q ≠ .publish event

theorem uses_send {q : DbStep} (hq : Silent q) : (TaskStore.send q).Uses Silent :=
  DbStep.uses_query hq _

theorem uses_get (id : String) : (TaskStore.get id).Uses Silent := by
  refine (uses_send fun _ h => by cases h).bind fun row => ?_
  cases row <;> trivial

theorem monitored_silent {c : TaskCall α} (hc : c.Uses Silent) :
    Monitored learns PublishesKnown (fun _ _ => True) m c :=
  .of_uses (J := fun _ => True) (fun _ _ _ _ => trivial)
    (fun _ _ _ hq event he => absurd he (hq event)) (fun _ _ _ => trivial) hc trivial

theorem monitored_silent_bind {c : TaskCall α} {f : α → TaskCall β} {post : List TaskEvent → β → Prop}
    (hc : c.Uses Silent) (hf : ∀ m a, Monitored learns PublishesKnown post m (f a)) :
    Monitored learns PublishesKnown post m (c >>= f) :=
  Monitored.bind ((monitored_silent hc).post fun m a _ => hf m a)

theorem monitored_publishing (taskId : String) (sequence : ℕ) {f : TaskEvent → TaskCall α}
    {post : List TaskEvent → α → Prop}
    (hf : ∀ event, Monitored learns PublishesKnown post (event :: m) (f event)) :
    Monitored learns PublishesKnown post m (do
      let event ← TaskStore.eventBySequence taskId sequence
      TaskStore.publishIfConfigured event
      f event) := by
  refine ⟨fun event h => (by cases h), fun answer => ?_⟩
  cases answer with
  | error e => trivial
  | ok event =>
    refine ⟨fun published h => ?_, fun _ => hf event⟩
    obtain rfl := DbStep.publish.inj h
    exact List.mem_cons_self

theorem monitored_transition (id : String) (next : TaskStatus) (payload : Option Value) :
    Monitored learns PublishesKnown (fun _ _ => True) m (TaskStore.transition id next payload) := by
  refine monitored_silent_bind (uses_get id) fun m current => ?_
  cases validateTransition current.status next with
  | error e => trivial
  | ok t =>
    cases t with
    | idempotent => trivial
    | changed =>
      refine monitored_silent_bind (uses_send fun _ h => by cases h) fun m now =>
        monitored_silent_bind (uses_send fun _ h => by cases h) fun m sequence =>
        monitored_silent_bind (uses_send fun _ h => by cases h) fun m _ => ?_
      exact monitored_publishing id sequence fun event => monitored_silent (uses_get id)

theorem monitored_resolvePermissionRequest (taskId requestId : String)
    (decision : PermissionDecision) (reason : Option String) :
    Monitored learns PublishesKnown (fun m resolution => resolution.event ∈ m) m
      (TaskStore.resolvePermissionRequest taskId requestId decision reason) := by
  refine monitored_silent_bind (uses_get taskId) fun m _ =>
    monitored_silent_bind (uses_send fun _ h => by cases h) fun m now =>
    ⟨fun event h => (by cases h), fun answer => ?_⟩
  rcases answer with e | e | resolution | sequence
  · trivial
  · trivial
  · exact List.mem_cons_self
  · exact monitored_publishing taskId sequence fun event => List.mem_cons_self

theorem monitored_taskOp (op : TaskOp) :
    Monitored learns PublishesKnown (fun _ _ => True) m op.program := by
  cases op with
  | get id => exact monitored_silent (uses_get id)
  | list filters =>
    exact monitored_silent ((uses_send fun _ h => by cases h).bind fun _ => trivial)
  | transition id next payload => exact monitored_transition id next payload
  | cancel id => exact monitored_transition id .cancelled none
  | resolvePermissionRequest taskId requestId decision reason =>
    exact (monitored_resolvePermissionRequest taskId requestId decision reason).post
      fun _ _ _ => trivial
  | create input =>
    change Monitored learns PublishesKnown (fun _ _ => True) m (TaskStore.create input)
    unfold TaskStore.create
    cases input.validate.mapError TaskStoreError.model with
    | error e => trivial
    | ok _ =>
      refine monitored_silent_bind trivial fun m _ =>
        monitored_silent_bind (uses_send fun _ h => by cases h) fun m now =>
        monitored_silent_bind (uses_send fun _ h => by cases h) fun m id => ?_
      exact monitored_publishing id 1 fun event => monitored_silent (uses_get id)
  | appendEvent taskId eventType payload =>
    refine monitored_silent_bind (uses_get taskId) fun m _ =>
      monitored_silent_bind (uses_send fun _ h => by cases h) fun m now =>
      monitored_silent_bind (uses_send fun _ h => by cases h) fun m sequence =>
      monitored_silent_bind (uses_send fun _ h => by cases h) fun m _ => ?_
    exact monitored_publishing taskId sequence fun event => trivial
  | recordPermissionRequest taskId request =>
    refine monitored_silent_bind (uses_get taskId) fun m _ =>
      monitored_silent_bind (uses_send fun _ h => by cases h) fun m now =>
      monitored_silent_bind (uses_send fun _ h => by cases h) fun m sequence => ?_
    exact monitored_publishing taskId sequence fun event => trivial
  | saveResult id finalMessage changedFiles =>
    refine monitored_silent ((uses_get id).bind fun task =>
      (uses_send fun _ h => by cases h).bind fun now => ?_)
    exact uses_send fun _ h => by cases h
  | saveExecutionResult result => exact monitored_silent (uses_send fun _ h => by cases h)
  | acquireLock request =>
    refine monitored_silent ((uses_send fun _ h => by cases h).bind fun active => ?_)
    split
    · trivial
    · exact (uses_send fun _ h => by cases h).bind fun now =>
        (uses_send fun _ h => by cases h).bind fun _ => trivial
  | releaseLocks taskId =>
    refine monitored_silent ((uses_send fun _ h => by cases h).bind fun now => ?_)
    exact uses_send fun _ h => by cases h

end Store

section Service
variable {α β : Type} {m : List TaskEvent}

def learnsEvents (m : List TaskEvent) : (q : EventStep) → q.Answer → List TaskEvent
  | .db q, answer => learns m q answer
  | _, _ => m

def PublishesRead (m : List TaskEvent) (q : EventStep) : Prop :=
  ∀ event, q = .db (.publish event) → event ∈ m

theorem monitored_store {c : TaskCall α} {post : List TaskEvent → α → Prop}
    (h : Monitored learns PublishesKnown post m c) :
    Monitored learnsEvents PublishesRead post m (TaskEventService.store c) :=
  Monitored.embed (f := EventStep.db) (fun _ _ _ => rfl)
    (fun _ _ hok event he => hok event (EventStep.db.inj he)) h

theorem monitored_ask {q : EventStep} {f : q.Answer → EventCall β} {post : List TaskEvent → β → Prop}
    (hq : ∀ q', q ≠ .db q') (hf : ∀ answer, Monitored learnsEvents PublishesRead post m (f answer)) :
    Monitored learnsEvents PublishesRead post m (TaskEventService.ask q >>= f) := by
  refine ⟨fun event h => absurd h (hq _), fun answer => ?_⟩
  have hsame : learnsEvents m q answer = m := by
    cases q with
    | db q' => exact absurd rfl (hq q')
    | _ => rfl
  rw [hsame]
  exact hf answer

theorem monitored_getPermissionRequest (taskId requestId : String)
    {f : PermissionRequestRecord → EventCall β} {post : List TaskEvent → β → Prop}
    (hf : ∀ m request, Monitored learnsEvents PublishesRead post m (f request)) :
    Monitored learnsEvents PublishesRead post m
      (TaskEventService.getPermissionRequest TaskEventService.steps taskId requestId >>= f) := by
  refine Monitored.bind (Monitored.bind ((monitored_store (monitored_silent (uses_get taskId))).post
    fun m _ _ => monitored_ask (fun _ h => by cases h) fun answer => ?_))
  rcases answer with e | (_ | request)
  · trivial
  · trivial
  · exact hf m request

theorem monitored_announceResolution (taskId : String) {resolution : PermissionResolution}
    (h : resolution.event ∈ m) :
    Monitored learnsEvents PublishesRead (fun _ _ => True) m
      (TaskEventService.announceResolution TaskEventService.steps taskId resolution) := by
  unfold TaskEventService.announceResolution
  cases PermissionDecisionEvent.fromValue resolution.event.payload with
  | none => trivial
  | some decided =>
    have hnotify : ∀ m, Monitored learnsEvents PublishesRead (fun _ _ => True) m (do
        TaskEventService.ask (.notifyPermissionResolution taskId decided)
        return resolution) := fun m => monitored_ask (fun _ h => by cases h) fun _ => trivial
    dsimp only
    split
    · exact hnotify m
    · refine ⟨fun event he => ?_, fun _ => hnotify _⟩
      obtain rfl := DbStep.publish.inj (EventStep.db.inj he)
      exact h

theorem monitored_eventOp (op : EventOp) :
    Monitored learnsEvents PublishesRead (fun _ _ => True) m op.program := by
  cases op with
  | store op => exact monitored_store (monitored_taskOp op)
  | awaitPermissionDecision taskId requestId =>
    refine monitored_getPermissionRequest taskId requestId fun m request => ?_
    split
    · cases request.response <;> trivial
    · refine monitored_ask (fun _ h => by cases h) fun receiver =>
        monitored_ask (fun _ h => by cases h) fun answer => ?_
      cases answer <;> trivial
  | resolvePermissionResponse taskId response =>
    refine monitored_getPermissionRequest taskId response.requestId fun m existing => ?_
    have hresolve : ∀ m (supported : Bool), Monitored learnsEvents PublishesRead (fun _ _ => True) m
        (if supported then do
          let resolution ← TaskEventService.store (TaskStore.resolvePermissionRequest taskId
            response.requestId response.decision response.reason)
          TaskEventService.announceResolution TaskEventService.steps taskId resolution
        else .fail .permissionResponseNotSupported) := by
      intro m supported
      cases supported with
      | false => trivial
      | true => exact Monitored.bind ((monitored_store (monitored_resolvePermissionRequest ..)).post
          fun m resolution h => monitored_announceResolution taskId h)
    dsimp only
    split
    · exact ⟨fun event h => (by cases h), fun supported => hresolve _ supported⟩
    · exact hresolve m true

end Service

section Outline
variable {op : EventOp} {i : ℕ} {α β : Type}

def discipline : Discipline EventStep EventOp EventState Unit where
  inv x _ := x.store.WellFormed
  rely _ x _ y _ := x.store.Extends y.store
  admits _ := True
  guard _ _ _ := True
  needs _ _ q x _ := ∀ q', q = .db q' → x.store.Ready q'

def Holds (op : EventOp) (i : ℕ) (c : EventCall α) : Prop :=
  Safe discipline EventStep.exec op i c (fun _ _ => True) fun _ _ _ => True

theorem Holds.bind {c : EventCall α} {f : α → EventCall β} (hc : Holds op i c)
    (hf : ∀ a, Holds op i (f a)) : Holds op i (c >>= f) :=
  safe_bind hc hf fun _ _ _ _ _ => trivial

theorem holds_ret (a : α) : Holds op i (.ret a : EventCall α) := fun _ _ _ _ => trivial

theorem holds_fail (e : TaskEventServiceError) : Holds op i (.fail e : EventCall α) :=
  fun _ _ _ _ => trivial

theorem embeds_store (taskOp : TaskOp) (op : EventOp) :
    Embeds (StoreThreads.discipline false) discipline DbStep.exec EventStep.exec EventStep.db
      (fun _ answer => answer) EventState.store taskOp op where
  inv _ _ h := h
  answer _ _ _ := rfl
  guard _ _ _ h := by cases h
  needs _ _ _ _ h q' hq := EventStep.db.inj hq ▸ h.1
  state _ _ _ := rfl
  kept _ _ _ _ _ _ h := h
  gives _ _ _ _ _ _ h := h
  takes _ _ _ _ _ h := h

theorem holds_store (taskOp : TaskOp) {c : TaskCall α}
    (h : StoreThreads.Holds false taskOp i (fun _ => True) c fun _ _ => True) :
    Holds op i (TaskEventService.store c) :=
  h.embed (embeds_store taskOp op) fun _ _ _ _ _ => trivial

theorem holds_store_bind (taskOp : TaskOp) {P : Store → Prop} {Q : α → Store → Prop}
    {c : TaskCall α} {f : α → TaskCall β} (h : StoreThreads.Holds false taskOp i P c Q)
    (hf : ∀ a, Safe discipline EventStep.exec op i (TaskEventService.store (f a))
      (fun x _ => Q a x.store) fun _ _ _ => True) :
    Safe discipline EventStep.exec op i (TaskEventService.store (c >>= f))
      (fun x _ => P x.store) fun _ _ _ => True := by
  rw [TaskEventService.store, Call.embed_bind]
  have hc : Safe discipline EventStep.exec op i (TaskEventService.store c)
      (fun x _ => P x.store) fun r x _ => ∀ a, r = .ok a → Q a x.store := by
    refine h.embed (embeds_store taskOp op) fun r x _ _ hr => ?_
    cases r with
    | ok a =>
      intro b hb
      obtain rfl := Except.ok.inj hb
      exact hr
    | error e =>
      intro b hb
      cases hb
  exact safe_bind hc (fun a => safe_weaken (hf a) fun x _ _ hx => hx a rfl)
    fun _ _ _ _ _ => trivial

theorem holds_appendEvent (taskId : String) (eventType : TaskEventType) (payload : Value) :
    Holds op i (TaskEventService.store (TaskStore.appendEvent taskId eventType payload)) := by
  have hlast := StoreThreads.lasting_true.and (StoreThreads.lasting_task taskId)
  refine holds_store_bind (.get taskId) (StoreThreads.holds_get taskId StoreThreads.lasting_true)
    fun _ => holds_store_bind (.get taskId) (StoreThreads.holds_free StoreThreads.free_clock hlast)
    fun now => holds_store_bind (.get taskId) (StoreThreads.holds_nextSequence taskId hlast)
    fun sequence => ?_
  refine safe_step (fun _ _ _ => True) (fun _ _ _ _ _ _ _ _ h => h) ?_ ?_ fun answer => ?_
  · rintro x _ _ ⟨⟨-, hsome⟩, hseq, -⟩ q' hq
    obtain rfl := EventStep.db.inj hq
    exact ⟨hsome, hseq⟩
  · rintro x _ input hwf ⟨⟨-, hsome⟩, hseq, -⟩ -
    obtain ⟨hwf', hext⟩ := effect_spec hwf (effect_of_exec (.insertEvent taskId sequence eventType
      payload now) input x.store) ⟨hsome, hseq⟩
    exact ⟨(), hwf', fun _ _ => hext, trivial⟩
  · cases answer with
    | error e => exact holds_fail _
    | ok _ => exact holds_store (.get taskId) (StoreThreads.holds_publishing taskId sequence
        fun event => StoreThreads.holds_ret fun _ _ _ => trivial)

theorem store_of_not_db {q : EventStep} (hq : ∀ q', q ≠ .db q') (input : DbStep.Input)
    (x : EventState) : (q.exec input x).2.store = x.store := by
  cases q with
  | db q' => exact absurd rfl (hq q')
  | selectPermissionRequest taskId requestId => cases input <;> rfl
  | hasWaiter taskId requestId => rfl
  | registerWaiter taskId requestId =>
    simp only [EventStep.exec, EventState.registerWaiter]
    split <;> rfl
  | receive channel => rfl
  | notifyPermissionResolution taskId decision =>
    simp only [EventStep.exec, EventState.notifyPermissionResolution]
    split <;> rfl

theorem holds_ask {q : EventStep} (hq : ∀ q', q ≠ .db q') :
    Holds op i (TaskEventService.ask q) := by
  refine safe_step (fun _ _ _ => True) (fun _ _ _ _ _ _ _ _ h => h)
    (fun _ _ _ _ q' h => absurd h (hq q')) (fun x _ input hwf _ _ => ?_) holds_ret
  have hsame := store_of_not_db hq input x
  refine ⟨(), ?_, fun _ _ => ?_, trivial⟩
  · change (q.exec input x).2.store.WellFormed
    rw [hsame]
    exact hwf
  · change x.store.Extends (q.exec input x).2.store
    rw [hsame]
    exact .refl x.store

theorem holds_getPermissionRequest (taskId requestId : String) :
    Holds op i (TaskEventService.getPermissionRequest TaskEventService.steps taskId requestId) := by
  refine Holds.bind (holds_store (.get taskId) (StoreThreads.holds_done
    (StoreThreads.holds_get taskId StoreThreads.lasting_true))) fun _ =>
    Holds.bind (holds_ask fun _ h => by cases h) fun answer => ?_
  rcases answer with e | (_ | request)
  · exact holds_fail _
  · exact holds_fail _
  · exact holds_ret request

theorem holds_announceResolution (taskId : String) (resolution : PermissionResolution) :
    Holds op i (TaskEventService.announceResolution TaskEventService.steps taskId resolution) := by
  unfold TaskEventService.announceResolution
  cases PermissionDecisionEvent.fromValue resolution.event.payload with
  | none => exact holds_fail _
  | some decided =>
    have hnotify : Holds op i (do
        TaskEventService.ask (.notifyPermissionResolution taskId decided)
        return resolution) := (holds_ask fun _ h => by cases h).bind fun _ => holds_ret resolution
    dsimp only
    split
    · exact hnotify
    · exact (holds_store (.get taskId) (StoreThreads.holds_publish resolution.event
        StoreThreads.lasting_true)).bind fun _ => hnotify

theorem holds_program (op : EventOp) : Holds op i op.program := by
  cases op with
  | store op =>
    by_cases hop : op.isOrdinary
    · exact holds_store op (StoreThreads.holds_program op hop)
    · cases op with
      | appendEvent taskId eventType payload => exact holds_appendEvent taskId eventType payload
      | _ => exact absurd rfl hop
  | awaitPermissionDecision taskId requestId =>
    refine (holds_getPermissionRequest taskId requestId).bind fun request => ?_
    split
    · cases request.response with
      | none => exact holds_fail _
      | some response => exact holds_ret response
    · refine (holds_ask fun _ h => by cases h).bind fun receiver =>
        (holds_ask fun _ h => by cases h).bind fun answer => ?_
      cases answer with
      | none => exact holds_fail _
      | some decision => exact holds_ret decision
  | resolvePermissionResponse taskId response =>
    refine (holds_getPermissionRequest taskId response.requestId).bind fun existing => ?_
    have hresolve : ∀ supported : Bool, Holds (.resolvePermissionResponse taskId response) i
        (if supported then do
          let resolution ← TaskEventService.store (TaskStore.resolvePermissionRequest taskId
            response.requestId response.decision response.reason)
          TaskEventService.announceResolution TaskEventService.steps taskId resolution
        else .fail .permissionResponseNotSupported) := by
      intro supported
      cases supported with
      | false => exact holds_fail _
      | true => exact (holds_store _
          (StoreThreads.holds_resolvePermissionRequest _ _ _ _)).bind fun resolution =>
          holds_announceResolution taskId resolution
    dsimp only
    split
    · exact (holds_ask fun _ h => by cases h).bind hresolve
    · exact hresolve true

end Outline

end EventThreads

structure Store.Grows (s s' : Store) : Prop where
  events : s.events <+: s'.events
  published : s.published <+: s'.published

theorem Store.Grows.refl (s : Store) : s.Grows s := ⟨List.prefix_rfl, List.prefix_rfl⟩

section Bus
variable {s s' : Store} {now : String}

theorem published_of_writes {q : DbStep} (h : Writes s q s') :
    s'.published = s.published ∨
      ∃ event, q = .publish event ∧ s'.published = s.published ++ [event] := by
  cases h with
  | publish event => exact .inr ⟨event, rfl, rfl⟩
  | _ => exact .inl rfl

theorem published_exec (q : DbStep) (input : DbStep.Input) :
    (q.exec input s).2.published = s.published ∨
      ∃ event, q = .publish event ∧ (q.exec input s).2.published = s.published ++ [event] :=
  published_of_writes (writes_of_exec q input s)

theorem mem_of_selectEvent {taskId : String} {sequence : ℕ} {event : TaskEvent}
    (h : (DbStep.selectEvent taskId sequence).attempt now s = .ok (event, s')) :
    event ∈ s.events := by
  simp only [DbStep.attempt] at h
  split at h
  · rename_i found hfind
    obtain ⟨rfl, -⟩ := Prod.mk.inj (Except.ok.inj h)
    exact (SequencedLog.mem_entriesOf.mp (List.mem_of_find?_eq_some hfind)).1
  · cases h

theorem mem_of_recalled {taskId requestId : String} {decision : PermissionDecision}
    {reason : Option String} {resolution : PermissionResolution}
    (h : s.resolvePermissionRequest taskId requestId decision reason now =
      .ok (.ok (.inl resolution), s')) : resolution.event ∈ s.events := by
  obtain ⟨-, hanswer, -⟩ | ⟨request, -, ⟨-, hanswer, -⟩ | ⟨-, -, hanswer, -⟩⟩ :=
    resolvePermissionRequest_cases h
  · cases hanswer
  · unfold recallResolution at hanswer
    split at hanswer
    · cases hanswer
    · split at hanswer
      · split at hanswer
        · cases hanswer
        · rename_i event hfind
          obtain rfl := Sum.inl.inj (Except.ok.inj hanswer)
          exact (SequencedLog.mem_entriesOf.mp (List.mem_of_find?_eq_some hfind)).1
      · cases hanswer
  · cases hanswer

theorem mem_events_of_learns {q : DbStep} {input : DbStep.Input} {m : List TaskEvent}
    (hm : ∀ event ∈ m, event ∈ s.events) :
    ∀ event ∈ EventThreads.learns m q (q.exec input s).1, event ∈ s.events := by
  intro event hevent
  obtain ⟨e, he⟩ | ⟨now, row, s', ha, he⟩ := exec_cases q input s
  · rw [he] at hevent
    cases q <;> exact hm event hevent
  · rw [he] at hevent
    cases q with
    | selectEvent taskId sequence =>
      rcases List.mem_cons.mp hevent with rfl | hevent
      · exact mem_of_selectEvent ha
      · exact hm event hevent
    | resolvePermissionRequest taskId requestId decision reason at_ =>
      rcases row with e | resolution | sequence
      · exact hm event hevent
      · rcases List.mem_cons.mp hevent with rfl | hevent
        · exact mem_of_recalled ha
        · exact hm event hevent
      · exact hm event hevent
    | _ => exact hm event hevent

end Bus

/-- Stores and calls in progress that only publish what is committed. -/
structure EventPool.Intact (p : EventPool) : Prop where
  outline : Outline EventThreads.discipline EventStep.exec p
  committed : ∀ event ∈ p.shared.store.published, event ∈ p.shared.store.events
  known : ∀ t ∈ p.threads, ∃ m, Monitored EventThreads.learnsEvents EventThreads.PublishesRead
    (fun _ _ => True) m t.rest ∧ ∀ event ∈ m, event ∈ p.shared.store.events

theorem EventPool.Intact.wellFormed {p : EventPool} (h : p.Intact) : p.shared.store.WellFormed := by
  obtain ⟨_, hwf, -⟩ := h.outline
  exact hwf

theorem step_of_eventStep {p p' : EventPool} {a : EventAction} (h : eventStep p a = some p') :
    step EventOp.program EventStep.exec p a = some p' := by
  unfold eventStep at h
  split at h
  · cases h
  · exact h

section Step
variable {p p' : EventPool} {a : EventAction}

theorem grows_exec {q : EventStep} {input : DbStep.Input} {x : EventState}
    (hwf : x.store.WellFormed) (hready : ∀ q', q = .db q' → x.store.Ready q') :
    x.store.Grows (q.exec input x).2.store := by
  by_cases hq : ∃ q', q = .db q'
  · obtain ⟨q', rfl⟩ := hq
    obtain ⟨-, hext⟩ := effect_spec hwf (effect_of_exec q' input x.store) (hready q' rfl)
    refine ⟨hext.events, ?_⟩
    obtain hsame | ⟨event, -, happend⟩ := published_exec q' input
    · exact hsame ▸ List.prefix_rfl
    · exact happend ▸ List.prefix_append _ _
  · rw [EventThreads.store_of_not_db (fun q' h => hq ⟨q', h⟩)]
    exact .refl x.store

theorem mem_events_of_learnsEvents {q : EventStep} {input : DbStep.Input} {x : EventState}
    {m : List TaskEvent} (hm : ∀ event ∈ m, event ∈ x.store.events) :
    ∀ event ∈ EventThreads.learnsEvents m q (q.exec input x).1, event ∈ x.store.events := by
  cases q with
  | db q => exact mem_events_of_learns hm
  | _ => exact hm

theorem EventPool.Intact.committed_exec {i : ℕ} {op : EventOp} {q : EventStep}
    {k : q.Answer → EventCall op.Result} (h : p.Intact)
    (hi : p.threads[i]? = some ⟨op, .step q k⟩) (input : DbStep.Input) :
    ∀ event ∈ (q.exec input p.shared).2.store.published, event ∈ p.shared.store.events := by
  obtain ⟨m, ⟨hpublishes, -⟩, hm⟩ := h.known _ (List.mem_of_getElem? hi)
  intro event hevent
  by_cases hq : ∃ q', q = .db q'
  · obtain ⟨q', rfl⟩ := hq
    obtain hsame | ⟨sent, rfl, happend⟩ := published_exec (s := p.shared.store) q' input
    · exact h.committed event (hsame ▸ hevent)
    · change event ∈ ((DbStep.publish sent).exec input p.shared.store).2.published at hevent
      rw [happend] at hevent
      rcases List.mem_append.mp hevent with hevent | hevent
      · exact h.committed event hevent
      · obtain rfl := List.mem_singleton.mp hevent
        exact hm _ (hpublishes _ rfl)
  · rw [EventThreads.store_of_not_db fun q' h => hq ⟨q', h⟩] at hevent
    exact h.committed event hevent

theorem EventPool.Intact.step (h : p.Intact) (hstep : eventStep p a = some p') :
    p'.Intact ∧ p.shared.store.Grows p'.shared.store := by
  have houtline : Outline EventThreads.discipline EventStep.exec p' := by
    refine OutlineTo.step (fun op _ i => EventThreads.holds_program op) h.outline ?_
      (step_of_eventStep hstep)
    cases a with
    | spawn op => trivial
    | advance i input => exact fun _ _ _ _ => trivial
  obtain ⟨op, rfl, rfl⟩ | ⟨i, input, op, q, k, rfl, hi, rfl⟩ := step_cases (step_of_eventStep hstep)
  · refine ⟨⟨houtline, h.committed, fun t ht => ?_⟩, .refl _⟩
    rcases List.mem_append.mp ht with ht | ht
    · exact h.known t ht
    · obtain rfl := List.mem_singleton.mp ht
      exact ⟨[], EventThreads.monitored_eventOp op, fun _ hm => (by cases hm)⟩
  · obtain ⟨_, hwf, hneeds⟩ := h.outline.needs
    have hgrows : p.shared.store.Grows (q.exec input p.shared).2.store :=
      grows_exec hwf (hneeds i op q k hi)
    refine ⟨⟨houtline, fun event hevent => ?_, fun t ht => ?_⟩, hgrows⟩
    · exact hgrows.events.subset (h.committed_exec hi input event hevent)
    · rcases List.mem_or_eq_of_mem_set ht with ht | rfl
      · obtain ⟨m, hmonitored, hm⟩ := h.known t ht
        exact ⟨m, hmonitored, fun event hevent => hgrows.events.subset (hm event hevent)⟩
      · obtain ⟨m, ⟨-, hnext⟩, hm⟩ := h.known _ (List.mem_of_getElem? hi)
        exact ⟨_, hnext _, fun event hevent =>
          hgrows.events.subset (mem_events_of_learnsEvents hm event hevent)⟩

theorem EventPool.Intact.published_step (h : p.Intact) (hstep : eventStep p a = some p') :
    p'.shared.store.published = p.shared.store.published ∨
      ∃ event, nextStep? p a = some (.db (.publish event)) ∧ event ∈ p.shared.store.events ∧
        p'.shared.store.published = p.shared.store.published ++ [event] := by
  obtain ⟨op, rfl, rfl⟩ | ⟨i, input, op, q, k, rfl, hi, rfl⟩ := step_cases (step_of_eventStep hstep)
  · exact .inl rfl
  · by_cases hq : ∃ q', q = .db q'
    · obtain ⟨q', rfl⟩ := hq
      have hcommitted := h.committed_exec hi input
      obtain hsame | ⟨event, rfl, happend⟩ := published_exec (s := p.shared.store) q' input
      · exact .inl hsame
      · refine .inr ⟨event, by simp only [nextStep?, hi], hcommitted event ?_, happend⟩
        change event ∈ ((DbStep.publish event).exec input p.shared.store).2.published
        rw [happend]
        exact List.mem_append_right _ List.mem_cons_self
    · left
      rw [EventThreads.store_of_not_db fun q' h => hq ⟨q', h⟩]

end Step

theorem intact_start {s : Store} (hs : s.WellFormed) (hpublished : s.published = []) :
    EventPool.Intact ⟨.start s, []⟩ := by
  refine ⟨⟨(), hs, fun i t hi => (by cases hi)⟩, fun event hevent => ?_, fun t ht => (by cases ht)⟩
  change event ∈ s.published at hevent
  rw [hpublished] at hevent
  cases hevent

end OpenDaemon
