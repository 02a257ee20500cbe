import OpenDaemon.PermissionDecisions
import OpenDaemon.EventThreads

/-!
# Permission waiters

A provider session awaits the decision of a request while any number of calls
respond to it. A response is stored only when a waiter is registered or the
request has been resolved before, so the record stays pending until the session
waits; the call that stores a decision sends it afterwards, and a duplicate may
send it first. Until one of them has sent it, one of them is still about to.
-/

namespace OpenDaemon

open Runs Interleaving Store Call

namespace EventState

section Waiters
variable {x : EventState} {id rid id' rid' : String} {n : ℕ}

theorem waiter?_removeWaiter : (x.removeWaiter id rid).waiter? id' rid' =
    if id' = id ∧ rid' = rid then none else x.waiter? id' rid' := by
  unfold removeWaiter waiter?
  induction x.waiters with
  | nil => simp
  | cons entry waiters ih =>
    obtain ⟨⟨task, request⟩, channel⟩ := entry
    simp only [List.filter_cons, List.lookup_cons]
    by_cases hkey : (task, request) = (id, rid)
    · simp only [hkey, ne_eq, not_true, decide_false, Bool.false_eq_true, if_false, ih]
      obtain ⟨rfl, rfl⟩ := Prod.mk.inj hkey
      by_cases hsame : id' = task ∧ rid' = request
      · rw [if_pos hsame, if_pos hsame]
      · have hne : ((id', rid') == (task, request)) = false := by simpa using hsame
        rw [if_neg hsame, if_neg hsame, hne]
    · simp only [ne_eq, hkey, not_false_eq_true, decide_true, if_true, List.lookup_cons, ih]
      by_cases hhit : (id', rid') = (task, request)
      · obtain ⟨rfl, rfl⟩ := Prod.mk.inj hhit
        have hne : ¬ (id' = id ∧ rid' = rid) := fun h => hkey (Prod.ext h.1 h.2)
        simp [hne]
      · have hne : ((id', rid') == (task, request)) = false := by simpa using hhit
        rw [hne]

theorem length_dropSender : (x.dropSender n).channels.length = x.channels.length :=
  List.length_modify _ _ _

theorem registerWaiter_fst : (x.registerWaiter id rid).1 = x.channels.length := by
  unfold registerWaiter
  split
  · exact length_dropSender
  · rfl

theorem waiter?_registerWaiter : (x.registerWaiter id rid).2.waiter? id' rid' =
    if id' = id ∧ rid' = rid then some x.channels.length else x.waiter? id' rid' := by
  have hcons : ∀ y : EventState, y.channels.length = x.channels.length →
      (¬ (id' = id ∧ rid' = rid) → y.waiter? id' rid' = x.waiter? id' rid') →
      (((id, rid), y.channels.length) :: y.waiters).lookup (id', rid') =
        if id' = id ∧ rid' = rid then some x.channels.length else x.waiter? id' rid' := by
    intro y hlength hother
    rw [List.lookup_cons]
    by_cases hsame : id' = id ∧ rid' = rid
    · obtain ⟨rfl, rfl⟩ := hsame
      simp [hlength]
    · have hne : ((id', rid') == (id, rid)) = false := by simpa using hsame
      rw [hne, if_neg hsame]
      exact hother hsame
  unfold registerWaiter
  split
  · exact hcons _ length_dropSender fun hne => by rw [waiter?_removeWaiter, if_neg hne]; rfl
  · exact hcons x rfl fun _ => rfl

theorem channels_registerWaiter (hn : n < x.channels.length) (hother : x.waiter? id rid ≠ some n) :
    (x.registerWaiter id rid).2.channels[n]? = x.channels[n]? := by
  unfold registerWaiter
  split
  · rename_i channel hchannel
    have hne : channel ≠ n := fun h => hother (h ▸ hchannel)
    change (x.channels.modify channel _ ++ [Mailbox.waiting])[n]? = _
    rw [List.getElem?_append_left (by rw [List.length_modify]; exact hn),
      List.getElem?_modify_ne _ _ hne]
  · exact List.getElem?_append_left hn

theorem channels_registerWaiter_new :
    (x.registerWaiter id rid).2.channels[x.channels.length]? = some .waiting := by
  unfold registerWaiter
  split
  · rename_i channel _
    change (x.channels.modify channel _ ++ [Mailbox.waiting])[x.channels.length]? = _
    rw [List.getElem?_append_right (by rw [List.length_modify]), List.length_modify, Nat.sub_self]
    rfl
  · exact List.getElem?_concat_length

theorem waiter?_notify {decision : PermissionDecisionEvent} :
    (x.notifyPermissionResolution id decision).waiter? id' rid' =
      if id' = id ∧ rid' = decision.requestId then none else x.waiter? id' rid' := by
  unfold notifyPermissionResolution
  split
  · exact waiter?_removeWaiter
  · rename_i hnone
    by_cases hsame : id' = id ∧ rid' = decision.requestId
    · rw [if_pos hsame, hsame.1, hsame.2]
      exact hnone
    · rw [if_neg hsame]

theorem channels_notify {decision : PermissionDecisionEvent}
    (hother : x.waiter? id decision.requestId ≠ some n) :
    (x.notifyPermissionResolution id decision).channels[n]? = x.channels[n]? := by
  unfold notifyPermissionResolution
  split
  · rename_i channel hchannel
    have hne : channel ≠ n := fun h => hother (h ▸ hchannel)
    exact List.getElem?_set_ne hne
  · rfl

end Waiters

/-- Every registered waiter has a channel of its own, and nothing has been sent on it. -/
structure Registry (x : EventState) : Prop where
  waits : ∀ id rid n, x.waiter? id rid = some n → x.channels[n]? = some .waiting
  distinct : ∀ id rid id' rid' n, x.waiter? id rid = some n → x.waiter? id' rid' = some n →
    id = id' ∧ rid = rid'

theorem Registry.lt {x : EventState} (h : x.Registry) {id rid : String} {n : ℕ}
    (hn : x.waiter? id rid = some n) : n < x.channels.length :=
  (List.getElem?_eq_some_iff.mp (h.waits id rid n hn)).1

theorem registry_start (s : Store) : (start s).Registry :=
  ⟨fun _ _ _ h => (by cases h), fun _ _ _ _ _ h => (by cases h)⟩

theorem Registry.registerWaiter {x : EventState} (h : x.Registry) (id rid : String) :
    (x.registerWaiter id rid).2.Registry := by
  refine ⟨fun task request n hn => ?_, fun task request task' request' n hn hn' => ?_⟩
  · rw [waiter?_registerWaiter] at hn
    split at hn
    · obtain rfl := Option.some.inj hn
      exact channels_registerWaiter_new
    · rename_i hother
      rw [channels_registerWaiter (h.lt hn) fun hsame => hother (h.distinct _ _ _ _ n hn hsame)]
      exact h.waits task request n hn
  · rw [waiter?_registerWaiter] at hn hn'
    split at hn
    · rename_i hself
      obtain rfl := Option.some.inj hn
      split at hn'
      · rename_i hself'
        exact ⟨hself.1.trans hself'.1.symm, hself.2.trans hself'.2.symm⟩
      · exact absurd (h.lt hn') (Nat.lt_irrefl _)
    · split at hn'
      · obtain rfl := Option.some.inj hn'
        exact absurd (h.lt hn) (Nat.lt_irrefl _)
      · exact h.distinct _ _ _ _ n hn hn'

theorem Registry.notify {x : EventState} (h : x.Registry) (id : String)
    (decision : PermissionDecisionEvent) : (x.notifyPermissionResolution id decision).Registry := by
  refine ⟨fun task request n hn => ?_, fun task request task' request' n hn hn' => ?_⟩
  · rw [waiter?_notify] at hn
    split at hn
    · cases hn
    · rename_i hother
      rw [channels_notify fun hsame => hother (h.distinct _ _ _ _ n hn hsame)]
      exact h.waits task request n hn
  · rw [waiter?_notify] at hn hn'
    split at hn
    · cases hn
    · split at hn'
      · cases hn'
      · exact h.distinct _ _ _ _ n hn hn'

theorem Registry.exec {x : EventState} (h : x.Registry) (q : EventStep) (input : DbStep.Input) :
    (q.exec input x).2.Registry := by
  cases q with
  | db q => exact ⟨h.waits, h.distinct⟩
  | selectPermissionRequest id rid => cases input <;> exact h
  | hasWaiter id rid => exact h
  | registerWaiter id rid => exact h.registerWaiter id rid
  | receive channel => exact h
  | notifyPermissionResolution id decision => exact h.notify id decision

end EventState

/-- A pool together with the decisions sent so far to the waiter of one request. -/
structure Handoff where
  pool : EventPool
  sent : List PermissionDecisionEvent

def EventStep.sends (taskId requestId : String) (x : EventState) :
    EventStep → List PermissionDecisionEvent
  | .notifyPermissionResolution id decision =>
    if (id = taskId ∧ decision.requestId = requestId) ∧ (x.waiter? taskId requestId).isSome then
      [decision]
    else []
  | _ => []

def handoffStep (taskId requestId : String) (x : Handoff) (a : EventAction) : Option Handoff :=
  (eventStep x.pool a).map fun p => ⟨p, x.sent ++
    ((nextStep? x.pool a).map (EventStep.sends taskId requestId x.pool.shared)).getD []⟩

def startHandoff (s : Store) : Handoff := ⟨⟨.start s, []⟩, []⟩

def EventOp.concerns (taskId requestId : String) : EventOp → Prop
  | .awaitPermissionDecision id rid => id = taskId ∧ rid = requestId
  | .resolvePermissionResponse id response => id = taskId ∧ response.requestId = requestId
  | .store _ => False

/-- The step decides the request, or acts on its waiter. -/
def EventStep.Meddles (taskId requestId : String) (x : EventState) : EventStep → Prop
  | .db q => (∃ decision reason now,
        q = .resolvePermissionRequest taskId requestId decision reason now) ∨
      ∃ sequence payload now,
        q = .insertEvent taskId sequence .providerPermissionDecided payload now ∧
        (payload.get? "request_id").bind Value.asStr = some requestId ∧
        ∀ request, x.store.findPermissionRequest taskId requestId = some request →
          request.status = .pending
  | .registerWaiter id rid => id = taskId ∧ rid = requestId
  | .notifyPermissionResolution id decision => id = taskId ∧ decision.requestId = requestId
  | _ => False

/-- No I/O errors; the request is awaited once, and no call other than that one and the
responses to the request meddles with it. -/
def HandoffGuard (taskId requestId : String) (x : Handoff) : EventAction → Prop
  | .spawn op => op = .awaitPermissionDecision taskId requestId → ∀ t ∈ x.pool.threads, t.op ≠ op
  | .advance i input => input ≠ .ioError ∧ ∀ op q k, x.pool.threads[i]? = some ⟨op, .step q k⟩ →
      op.concerns taskId requestId ∨ ¬ q.Meddles taskId requestId x.pool.shared

/-- The steps that a response makes between its resolution in the store and the end of its
notification. -/
def EventStep.announces : EventStep → Bool
  | .db (.selectEvent ..) => true
  | .db (.publish _) => true
  | .notifyPermissionResolution .. => true
  | _ => false

/-- How far the handoff has come: the number is that of the awaiting call's channel. -/
inductive Stage
  | unregistered
  | waiting (channel : ℕ)
  | notified (channel : ℕ)

def Stage.Holds (taskId requestId : String) (x : EventState) (v : Option Verdict)
    (sent : List PermissionDecisionEvent) : Stage → Prop
  | .unregistered => x.waiter? taskId requestId = none ∧ v = none ∧ sent = []
  | .waiting channel => x.waiter? taskId requestId = some channel ∧ sent = []
  | .notified channel => x.waiter? taskId requestId = none ∧
      ∃ w, v = some w ∧ x.channels[channel]? = some (.sent w.response) ∧ sent = [w.response]

inductive Stage.Passes : Stage → Stage → Prop
  | refl (stage : Stage) : Passes stage stage
  | registers (channel : ℕ) : Passes .unregistered (.waiting channel)
  | notifies (channel : ℕ) : Passes (.waiting channel) (.notified channel)

theorem Stage.Passes.registered {stage stage' : Stage} (h : Passes stage stage')
    (hregistered : stage ≠ .unregistered) : stage' ≠ .unregistered := by
  cases h with
  | refl => exact hregistered
  | registers _ => exact absurd rfl hregistered
  | notifies _ => exact fun h => (by cases h)

theorem Stage.Holds.registered {taskId requestId : String} {x : EventState} {w : Verdict}
    {sent : List PermissionDecisionEvent} {stage : Stage}
    (h : stage.Holds taskId requestId x (some w) sent) : stage ≠ .unregistered := by
  rintro rfl
  cases h.2.1

namespace Awaiting

section Residuals
variable (taskId requestId : String)

inductive Receives (channel : ℕ) : EventCall PermissionDecisionEvent → Prop
  | intro {k : Option PermissionDecisionEvent → EventCall PermissionDecisionEvent}
      (h : ∀ decision, k (some decision) = .ret decision) :
      Receives channel (.step (.receive channel) k)

inductive Approaches : EventCall PermissionDecisionEvent → Prop
  | failed (e : TaskEventServiceError) : Approaches (.fail e)
  | reads {k : DbStep.Answer (.selectTask taskId) → EventCall PermissionDecisionEvent}
      (next : ∀ answer, Approaches (k answer)) : Approaches (.step (.db (.selectTask taskId)) k)
  | looks {k : EventStep.Answer (.selectPermissionRequest taskId requestId) →
        EventCall PermissionDecisionEvent}
      (missing : Approaches (k (.ok none)))
      (pending : ∀ request : PermissionRequestRecord, request.status = .pending →
        Approaches (k (.ok (some request)))) :
      Approaches (.step (.selectPermissionRequest taskId requestId) k)
  | registers {k : ℕ → EventCall PermissionDecisionEvent}
      (next : ∀ channel, Receives channel (k channel)) :
      Approaches (.step (.registerWaiter taskId requestId) k)

inductive Stands (v : Option Verdict) : Stage → EventCall PermissionDecisionEvent → Prop
  | approaches {c : EventCall PermissionDecisionEvent} (h : Approaches taskId requestId c) :
      Stands v .unregistered c
  | waits {channel : ℕ} {c : EventCall PermissionDecisionEvent} (h : Receives channel c) :
      Stands v (.waiting channel) c
  | receives {channel : ℕ} {c : EventCall PermissionDecisionEvent} (h : Receives channel c) :
      Stands v (.notified channel) c
  | returned {channel : ℕ} {w : Verdict} (hv : v = some w) :
      Stands v (.notified channel) (.ret w.response)

end Residuals

theorem approaches_program (taskId requestId : String) : Approaches taskId requestId
    (TaskEventService.awaitPermissionDecision TaskEventService.steps taskId requestId) := by
  refine .reads fun answer => ?_
  rcases answer with e | (_ | task)
  · exact .failed _
  · exact .failed _
  · refine .looks (.failed _) fun request hpending => ?_
    change Approaches taskId requestId (ite (request.status ≠ .pending) _ _)
    rw [if_neg (fun h => h hpending)]
    exact .registers fun channel => .intro fun decision => rfl

section Step
variable {taskId requestId : String} {v v' : Option Verdict} {stage stage' : Stage}
variable {x : EventState} {sent : List PermissionDecisionEvent}

theorem Approaches.step {q : EventStep} {k : q.Answer → EventCall PermissionDecisionEvent}
    (h : Approaches taskId requestId (.step q k)) (hs : Undecided x.store taskId requestId)
    (hnone : x.waiter? taskId requestId = none) (now : String) :
    (q.exec (.proceed now) x).2.store = x.store ∧ q.sends taskId requestId x = [] ∧
    ((q.exec (.proceed now) x).2.waiter? taskId requestId = none ∧
        Approaches taskId requestId (k (q.exec (.proceed now) x).1) ∨
      ∃ channel, (q.exec (.proceed now) x).2.waiter? taskId requestId = some channel ∧
        Receives channel (k (q.exec (.proceed now) x).1)) := by
  cases h with
  | reads next => exact ⟨rfl, rfl, .inl ⟨hnone, next _⟩⟩
  | @looks k missing pending =>
    refine ⟨rfl, rfl, .inl ⟨hnone, ?_⟩⟩
    change Approaches taskId requestId (k (.ok (x.store.findPermissionRequest taskId requestId)))
    cases hfound : x.store.findPermissionRequest taskId requestId with
    | none => exact missing
    | some request => exact pending request (hs.pending request hfound)
  | @registers k next =>
    refine ⟨?_, rfl, .inr ⟨x.channels.length, ?_, ?_⟩⟩
    · exact EventThreads.store_of_not_db (fun _ h => (by cases h)) _ x
    · change (x.registerWaiter taskId requestId).2.waiter? taskId requestId = _
      rw [EventState.waiter?_registerWaiter, if_pos ⟨rfl, rfl⟩]
    · change Receives _ (k (x.registerWaiter taskId requestId).1)
      rw [EventState.registerWaiter_fst]
      exact next _

theorem Receives.step {q : EventStep} {k : q.Answer → EventCall PermissionDecisionEvent}
    {channel : ℕ} {response : PermissionDecisionEvent} (h : Receives channel (.step q k))
    (hsent : x.channels[channel]? = some (.sent response)) (now : String) :
    (q.exec (.proceed now) x).2 = x ∧ q.sends taskId requestId x = [] ∧
      k (q.exec (.proceed now) x).1 = .ret response := by
  cases h with
  | @intro k hk =>
    refine ⟨rfl, rfl, ?_⟩
    change k (x.received channel) = .ret response
    rw [EventState.received, hsent]
    exact hk response

theorem Receives.blocked {q : EventStep} {k : q.Answer → EventCall PermissionDecisionEvent}
    {channel : ℕ} (h : Receives channel (.step q k)) (hwaits : x.channels[channel]? = some .waiting) :
    q.blocked x := by
  cases h
  exact decide_eq_true hwaits

theorem Stands.step {q : EventStep} {k : q.Answer → EventCall PermissionDecisionEvent}
    (h : Stands taskId requestId v stage (.step q k)) (hregistry : x.Registry)
    (hs : Settled x.store taskId requestId v) (hstage : stage.Holds taskId requestId x v sent)
    (hfree : ¬ q.blocked x) (now : String) : ∃ stage', stage.Passes stage' ∧
      (q.exec (.proceed now) x).2.store = x.store ∧
      stage'.Holds taskId requestId (q.exec (.proceed now) x).2 v
        (sent ++ q.sends taskId requestId x) ∧
      Stands taskId requestId v stage' (k (q.exec (.proceed now) x).1) := by
  cases h with
  | approaches h =>
    obtain ⟨hnone, rfl, rfl⟩ := hstage
    obtain ⟨hstore, hsends, ⟨hnone', hnext⟩ | ⟨channel, hchannel, hnext⟩⟩ :=
      h.step hs hnone now
    · exact ⟨.unregistered, .refl _, hstore, ⟨hnone', rfl, hsends⟩, .approaches hnext⟩
    · exact ⟨.waiting channel, .registers channel, hstore, ⟨hchannel, hsends⟩, .waits hnext⟩
  | waits h => exact absurd (h.blocked (hregistry.waits _ _ _ hstage.1)) hfree
  | receives h =>
    obtain ⟨hnone, w, rfl, hsent, rfl⟩ := hstage
    obtain ⟨hsame, hsends, hnext⟩ := h.step hsent now
    refine ⟨.notified _, .refl _, by rw [hsame], ?_, ?_⟩
    · rw [hsame, hsends]
      exact ⟨hnone, w, rfl, hsent, rfl⟩
    · rw [hnext]
      exact .returned rfl

theorem Stands.other {c : EventCall PermissionDecisionEvent} {i : ℕ}
    (h : Stands taskId requestId v stage c) (hv : Resolving.Advances i v v')
    (hstage : stage' = stage ∨ ∃ channel, stage = .waiting channel ∧ stage' = .notified channel) :
    Stands taskId requestId v' stage' c := by
  cases h with
  | approaches h =>
    obtain rfl | ⟨channel, hwaiting, -⟩ := hstage
    · exact .approaches h
    · cases hwaiting
  | waits h =>
    obtain rfl | ⟨channel, hwaiting, rfl⟩ := hstage
    · exact .waits h
    · obtain rfl := Stage.waiting.inj hwaiting
      exact .receives h
  | receives h =>
    obtain rfl | ⟨channel, hwaiting, -⟩ := hstage
    · exact .receives h
    · cases hwaiting
  | returned hw =>
    obtain rfl | ⟨channel, hwaiting, -⟩ := hstage
    · obtain rfl | ⟨hnone, -⟩ := hv
      · exact .returned hw
      · rw [hw] at hnone
        cases hnone
    · cases hwaiting

end Step

end Awaiting

namespace Responding

section Residuals
variable (taskId requestId : String) (decision : PermissionDecision) (reason : Option String)

def storing (c : TaskCall PermissionResolution) : EventCall PermissionResolution :=
  TaskEventService.store c >>= TaskEventService.announceResolution TaskEventService.steps taskId

/-- What is left of a responding call before its resolution is stored. -/
inductive Checks : EventCall PermissionResolution → Prop
  | failed (e : TaskEventServiceError) : Checks (.fail e)
  | reads {k : DbStep.Answer (.selectTask taskId) → EventCall PermissionResolution}
      (next : ∀ answer, Checks (k answer)) : Checks (.step (.db (.selectTask taskId)) k)
  | looks {k : EventStep.Answer (.selectPermissionRequest taskId requestId) →
        EventCall PermissionResolution}
      (missing : Checks (k (.ok none)))
      (pending : ∀ request : PermissionRequestRecord, request.status = .pending →
        Checks (k (.ok (some request))))
      (resolved : ∀ request : PermissionRequestRecord, request.status ≠ .pending →
        k (.ok (some request)) =
          storing taskId (TaskStore.resolvePermissionRequest taskId requestId decision reason)) :
      Checks (.step (.selectPermissionRequest taskId requestId) k)
  | asks {k : Bool → EventCall PermissionResolution} (unsupported : Checks (k false))
      (supported : k true =
        storing taskId (TaskStore.resolvePermissionRequest taskId requestId decision reason)) :
      Checks (.step (.hasWaiter taskId requestId) k)

/-- What is left of a call that has a resolution and is to send its response. -/
inductive Announces (response : PermissionDecisionEvent) : EventCall PermissionResolution → Prop
  | publishes {event : TaskEvent}
      {k : DbStep.Answer (.publish event) → EventCall PermissionResolution}
      (next : ∀ answer, Announces response (k answer)) :
      Announces response (.step (.db (.publish event)) k)
  | notifies {found : PermissionResolution} {k : Unit → EventCall PermissionResolution}
      (next : ∀ answer, k answer = .ret found) :
      Announces response (.step (.notifyPermissionResolution taskId response) k)

inductive Stands (i : ℕ) (v : Option Verdict) (stage : Stage) :
    EventCall PermissionResolution → Prop
  | checks {c : EventCall PermissionResolution} (other : ∀ w, v = some w → w.caller ≠ i)
      (h : Checks taskId requestId decision reason c) : Stands i v stage c
  | stores {q : DbStep} {k : q.Answer → TaskCall PermissionResolution}
      (registered : stage ≠ .unregistered)
      (h : Resolving.Stands taskId requestId decision reason False i v (.step q k)) :
      Stands i v stage (.step (.db q) fun answer => storing taskId (k answer))
  | announces {w : Verdict} {c : EventCall PermissionResolution} (hv : v = some w)
      (h : Announces taskId w.response c) : Stands i v stage c
  | returned {channel : ℕ} (found : PermissionResolution) (notified : stage = .notified channel) :
      Stands i v stage (.ret found)

end Residuals

section Step
variable {taskId requestId : String} {decision : PermissionDecision} {reason : Option String}
variable {i : ℕ} {v v' : Option Verdict} {stage stage' : Stage} {s : Store}

theorem checks_program (taskId : String) (response : PermissionResponseRequest) :
    Checks taskId response.requestId response.decision response.reason
      (TaskEventService.resolvePermissionResponse TaskEventService.steps taskId response) := by
  refine .reads fun answer => ?_
  rcases answer with e | (_ | task)
  · exact .failed _
  · exact .failed _
  · refine .looks (.failed _) (fun request hpending => ?_) fun request hresolved => ?_
    · change Checks _ _ _ _ (ite (request.status = .pending) _ _)
      rw [if_pos hpending]
      exact .asks (.failed _) rfl
    · change ite (request.status = .pending) _ _ = _
      rw [if_neg hresolved]
      rfl

theorem announces_announceResolution {found : PermissionResolution}
    {response : PermissionDecisionEvent} (hpayload : found.event.payload = response.toValue) :
    Announces taskId response
      (TaskEventService.announceResolution TaskEventService.steps taskId found) := by
  unfold TaskEventService.announceResolution
  rw [hpayload, PermissionDecisionEvent.fromValue_toValue]
  dsimp only
  split
  · exact .notifies fun _ => rfl
  · exact .publishes fun _ => .notifies fun _ => rfl

theorem stands_storing {c : TaskCall PermissionResolution} (registered : stage ≠ .unregistered)
    (hs : Settled s taskId requestId v)
    (h : Resolving.Stands taskId requestId decision reason False i v c) :
    Stands taskId requestId decision reason i v stage (storing taskId c) := by
  cases c with
  | step q k => exact .stores registered h
  | fail e =>
    cases h with
    | attempts other _ => exact .checks other (.failed _)
    | concludes _ _ _ h =>
      cases h with
      | unread lost => exact lost.elim
  | ret found =>
    cases h with
    | attempts _ h => cases h
    | recalled hv _ _ =>
      subst hv
      exact .announces rfl (announces_announceResolution hs.payload)
    | concludes hv _ _ h =>
      subst hv
      cases h
      exact .announces rfl (announces_announceResolution hs.payload)

variable {x : EventState} {sent : List PermissionDecisionEvent}

theorem Checks.step {q : EventStep} {k : q.Answer → EventCall PermissionResolution}
    (h : Checks taskId requestId decision reason (.step q k))
    (other : ∀ w, v = some w → w.caller ≠ i) (hs : Settled x.store taskId requestId v)
    (hstage : stage.Holds taskId requestId x v sent) (now : String) :
    (q.exec (.proceed now) x).2 = x ∧ q.sends taskId requestId x = [] ∧
      Stands taskId requestId decision reason i v stage (k (q.exec (.proceed now) x).1) := by
  have hstart : stage ≠ .unregistered → Stands taskId requestId decision reason i v stage (storing
      taskId (TaskStore.resolvePermissionRequest taskId requestId decision reason)) := fun h =>
    stands_storing h hs (.attempts other (Resolving.attempts_program False _ _ _ _))
  cases h with
  | reads next => exact ⟨rfl, rfl, .checks other (next _)⟩
  | @looks k missing pending resolved =>
    refine ⟨rfl, rfl, ?_⟩
    change Stands taskId requestId decision reason i v stage
      (k (.ok (x.store.findPermissionRequest taskId requestId)))
    cases hfound : x.store.findPermissionRequest taskId requestId with
    | none => exact .checks other missing
    | some request =>
      by_cases hpending : request.status = .pending
      · exact .checks other (pending request hpending)
      · -- the record has been resolved, so the waiter has been registered
        rw [resolved request hpending]
        obtain ⟨w, rfl, -⟩ := Resolving.Settled.found hs hfound hpending
        exact hstart hstage.registered
  | @asks k unsupported supported =>
    refine ⟨rfl, rfl, ?_⟩
    change Stands taskId requestId decision reason i v stage
      (k (x.waiter? taskId requestId).isSome)
    cases hwaiter : (x.waiter? taskId requestId).isSome with
    | false => exact .checks other unsupported
    | true =>
      rw [supported]
      refine hstart ?_
      rintro rfl
      rw [hstage.1] at hwaiter
      cases hwaiter

theorem holds_db {s' : Store} (hstage : stage.Holds taskId requestId x v sent)
    (registered : stage ≠ .unregistered) (hv : Resolving.Advances i v v') :
    stage.Holds taskId requestId { x with store := s' } v' sent := by
  cases stage with
  | unregistered => exact absurd rfl registered
  | waiting channel => exact hstage
  | notified channel =>
    obtain ⟨hnone, w, rfl, hsent, rfl⟩ := hstage
    obtain rfl | ⟨hopen, -⟩ := hv
    · exact ⟨hnone, w, rfl, hsent, rfl⟩
    · cases hopen

theorem holds_notify {w : Verdict} (hstage : stage.Holds taskId requestId x (some w) sent)
    (hregistry : x.Registry) (hname : w.response.requestId = requestId) :
    ∃ channel, (.notified channel = stage ∨ stage = .waiting channel) ∧
      (Stage.notified channel).Holds taskId requestId
        (x.notifyPermissionResolution taskId w.response) (some w)
        (sent ++
          (EventStep.notifyPermissionResolution taskId w.response).sends taskId requestId x) := by
  subst hname
  cases stage with
  | unregistered => exact absurd rfl hstage.registered
  | waiting channel =>
    obtain ⟨hwaiter, rfl⟩ := hstage
    refine ⟨channel, .inr rfl, ?_, w, rfl, ?_, ?_⟩
    · rw [EventState.waiter?_notify, if_pos ⟨rfl, rfl⟩]
    · have hlt := hregistry.lt hwaiter
      simp only [EventState.notifyPermissionResolution, hwaiter]
      exact List.getElem?_set_self hlt
    · simp only [EventStep.sends, hwaiter, Option.isSome_some, and_self, if_true, List.nil_append]
  | notified channel =>
    obtain ⟨hnone, w', hw, hsent, rfl⟩ := hstage
    obtain rfl := Option.some.inj hw
    refine ⟨channel, .inl rfl, ?_, w, rfl, ?_, ?_⟩
    · rw [EventState.waiter?_notify, if_pos ⟨rfl, rfl⟩]
    · rw [EventState.channels_notify (by rw [hnone]; exact fun h => (by cases h))]
      exact hsent
    · simp only [EventStep.sends, hnone, Option.isSome_none, Bool.false_eq_true, and_false, if_false,
        List.append_nil]

theorem Announces.step {w : Verdict} {q : EventStep}
    {k : q.Answer → EventCall PermissionResolution} (h : Announces taskId w.response (.step q k))
    (hregistry : x.Registry) (hs : Settled x.store taskId requestId (some w))
    (hstage : stage.Holds taskId requestId x (some w) sent) (now : String) :
    ∃ stage', (stage' = stage ∨ ∃ channel, stage = .waiting channel ∧ stage' = .notified channel) ∧
      Settled (q.exec (.proceed now) x).2.store taskId requestId (some w) ∧
      stage'.Holds taskId requestId (q.exec (.proceed now) x).2 (some w)
        (sent ++ q.sends taskId requestId x) ∧
      Stands taskId requestId decision reason i (some w) stage' (k (q.exec (.proceed now) x).1) := by
  cases h with
  | publishes next =>
    refine ⟨stage, .inl rfl, Decided.exec hs _ _, ?_, .announces rfl (next _)⟩
    rw [show EventStep.sends taskId requestId x (.db _) = [] from rfl, List.append_nil]
    exact holds_db hstage hstage.registered (i := i) (.inl rfl)
  | notifies next =>
    obtain ⟨channel, hchannel, hnotified⟩ := holds_notify hstage hregistry hs.named
    refine ⟨.notified channel, ?_, ?_, hnotified, ?_⟩
    · exact hchannel.imp id fun hwaiting => ⟨channel, hwaiting, rfl⟩
    · rw [EventThreads.store_of_not_db fun _ h => (by cases h)]
      exact hs
    · rw [next]
      exact .returned _ rfl

theorem Stands.step {q : EventStep} {k : q.Answer → EventCall PermissionResolution}
    (h : Stands taskId requestId decision reason i v stage (.step q k)) (hregistry : x.Registry)
    (hwf : x.store.WellFormed) (hs : Settled x.store taskId requestId v)
    (hstage : stage.Holds taskId requestId x v sent) (now : String) :
    ∃ v' stage', Resolving.Advances i v v' ∧
      (stage' = stage ∨ ∃ channel, stage = .waiting channel ∧ stage' = .notified channel) ∧
      Settled (q.exec (.proceed now) x).2.store taskId requestId v' ∧
      stage'.Holds taskId requestId (q.exec (.proceed now) x).2 v'
        (sent ++ q.sends taskId requestId x) ∧
      Stands taskId requestId decision reason i v' stage' (k (q.exec (.proceed now) x).1) := by
  cases h with
  | checks other h =>
    obtain ⟨hsame, hsends, hnext⟩ := h.step other hs hstage now
    refine ⟨v, stage, .inl rfl, .inl rfl, ?_, ?_, hnext⟩
    · rw [hsame]
      exact hs
    · rw [hsame, hsends, List.append_nil]
      exact hstage
  | @stores q k registered h =>
    obtain ⟨v', hsettled, hv, hnext⟩ := h.step hwf hs
      fun _ _ (hio : DbStep.Input.proceed now = .ioError) => (by cases hio)
    refine ⟨v', stage, hv, .inl rfl, hsettled, ?_, stands_storing registered hsettled hnext⟩
    rw [show EventStep.sends taskId requestId x (.db q) = [] from rfl, List.append_nil]
    exact holds_db hstage registered hv
  | announces hv h =>
    subst hv
    obtain ⟨stage', hpasses, hsettled, hholds, hnext⟩ := h.step hregistry hs hstage now
    exact ⟨some _, stage', .inl rfl, hpasses, hsettled, hholds, hnext⟩

theorem Stands.other {j : ℕ} {c : EventCall PermissionResolution}
    (h : Stands taskId requestId decision reason i v stage c) (hne : j ≠ i)
    (hv : Resolving.Advances j v v') (hstage : stage.Passes stage') :
    Stands taskId requestId decision reason i v' stage' c := by
  cases h with
  | checks other h =>
    refine .checks (fun w hw => ?_) h
    obtain rfl | ⟨rfl, w', rfl, hcaller⟩ := hv
    · exact other w hw
    · obtain rfl := Option.some.inj hw
      exact hcaller ▸ hne
  | stores registered h => exact .stores (hstage.registered registered) (h.other hne hv)
  | announces hw h =>
    obtain rfl | ⟨rfl, -⟩ := hv
    · exact .announces hw h
    · cases hw
  | returned found notified =>
    subst notified
    cases hstage
    exact .returned found rfl

theorem Stands.own {w : Verdict} {c : EventCall PermissionResolution}
    (h : Stands taskId requestId decision reason i (some w) stage c) (hcaller : w.caller = i) :
    (∃ q k, c = .step q k ∧ q.announces) ∨ ∃ channel, stage = .notified channel := by
  cases h with
  | checks other _ => exact absurd hcaller (other w rfl)
  | stores _ h =>
    left
    cases (h.own hcaller).2 with
    | publishes _ => exact ⟨_, _, rfl, rfl⟩
    | reads _ _ => exact ⟨_, _, rfl, rfl⟩
  | announces _ h =>
    left
    cases h with
    | publishes _ => exact ⟨_, _, rfl, rfl⟩
    | notifies _ => exact ⟨_, _, rfl, rfl⟩
  | returned _ notified => exact .inr ⟨_, notified⟩

end Step

end Responding

section Foreign
variable {taskId requestId : String} {v : Option Verdict} {stage : Stage} {x : EventState}
variable {sent : List PermissionDecisionEvent}

theorem Stage.Holds.keeps {x' : EventState} (h : stage.Holds taskId requestId x v sent)
    (hregistry : x.Registry)
    (hsame : x'.waiter? taskId requestId = x.waiter? taskId requestId)
    (hchannels : ∀ channel < x.channels.length, (∀ id rid, x.waiter? id rid ≠ some channel) →
      x'.channels[channel]? = x.channels[channel]?) : stage.Holds taskId requestId x' v sent := by
  cases stage with
  | unregistered => exact ⟨hsame.trans h.1, h.2⟩
  | waiting channel => exact ⟨hsame.trans h.1, h.2⟩
  | notified channel =>
    obtain ⟨hnone, w, hw, hsent, hlist⟩ := h
    refine ⟨hsame.trans hnone, w, hw, ?_, hlist⟩
    rw [hchannels channel (List.getElem?_eq_some_iff.mp hsent).1]
    · exact hsent
    · intro id rid hwaiter
      rw [hregistry.waits _ _ _ hwaiter] at hsent
      cases hsent

theorem Stage.Holds.registerWaiter {id rid : String} (h : stage.Holds taskId requestId x v sent)
    (hregistry : x.Registry) (hne : ¬ (id = taskId ∧ rid = requestId)) :
    stage.Holds taskId requestId (x.registerWaiter id rid).2 v sent := by
  refine h.keeps hregistry ?_ fun channel hlt hfree =>
    EventState.channels_registerWaiter hlt (hfree id rid)
  rw [EventState.waiter?_registerWaiter, if_neg fun h => hne ⟨h.1.symm, h.2.symm⟩]

theorem Stage.Holds.notify {id : String} {decision : PermissionDecisionEvent}
    (h : stage.Holds taskId requestId x v sent) (hregistry : x.Registry)
    (hne : ¬ (id = taskId ∧ decision.requestId = requestId)) :
    stage.Holds taskId requestId (x.notifyPermissionResolution id decision) v sent := by
  refine h.keeps hregistry ?_ fun channel _ hfree =>
    EventState.channels_notify (hfree id decision.requestId)
  rw [EventState.waiter?_notify, if_neg fun h => hne ⟨h.1.symm, h.2.symm⟩]

theorem foreign_exec {q : EventStep} (hq : ¬ q.Meddles taskId requestId x)
    (hregistry : x.Registry) (hs : Settled x.store taskId requestId v)
    (hstage : stage.Holds taskId requestId x v sent) (now : String) :
    Settled (q.exec (.proceed now) x).2.store taskId requestId v ∧
      stage.Holds taskId requestId (q.exec (.proceed now) x).2 v
        (sent ++ q.sends taskId requestId x) := by
  cases q with
  | db q =>
    constructor
    · refine Settled.other hs (fun decision reason at_ hresolve => ?_) ?_
      · exact hq (.inl ⟨decision, reason, at_, hresolve⟩)
      · intro sequence payload at_ hinsert hname _
        by_contra hnone
        refine hq (.inr ⟨sequence, payload, at_, hinsert, hname, fun request hfound => ?_⟩)
        by_contra hresolved
        exact hnone ⟨request, hfound, hresolved⟩
    · rw [show EventStep.sends taskId requestId x (.db q) = [] from rfl, List.append_nil]
      cases stage <;> exact hstage
  | selectPermissionRequest id rid => exact ⟨hs, (List.append_nil sent).symm ▸ hstage⟩
  | hasWaiter id rid => exact ⟨hs, (List.append_nil sent).symm ▸ hstage⟩
  | receive channel => exact ⟨hs, (List.append_nil sent).symm ▸ hstage⟩
  | registerWaiter id rid =>
    refine ⟨?_, (List.append_nil sent).symm ▸ hstage.registerWaiter hregistry hq⟩
    rw [EventThreads.store_of_not_db fun _ h => (by cases h)]
    exact hs
  | notifyPermissionResolution id decision =>
    constructor
    · rw [EventThreads.store_of_not_db fun _ h => (by cases h)]
      exact hs
    · have hsends : EventStep.sends taskId requestId x (.notifyPermissionResolution id decision) =
          [] := if_neg fun h => hq h.1
      rw [hsends, List.append_nil]
      exact hstage.notify hregistry hq

end Foreign

/-- The invariant of the handoff of one request. -/
structure Handoff.Tracked (taskId requestId : String) (v : Option Verdict) (stage : Stage)
    (x : Handoff) : Prop where
  outline : Outline EventThreads.discipline EventStep.exec x.pool
  registry : x.pool.shared.Registry
  settled : Settled x.pool.shared.store taskId requestId v
  holds : stage.Holds taskId requestId x.pool.shared v x.sent
  awaiting : ∀ (i : ℕ) (c : EventCall PermissionDecisionEvent),
    x.pool.threads[i]? = some ⟨.awaitPermissionDecision taskId requestId, c⟩ →
    Awaiting.Stands taskId requestId v stage c
  single : ∀ (i j : ℕ) (c c' : EventCall PermissionDecisionEvent),
    x.pool.threads[i]? = some ⟨.awaitPermissionDecision taskId requestId, c⟩ →
    x.pool.threads[j]? = some ⟨.awaitPermissionDecision taskId requestId, c'⟩ → i = j
  awaited : stage ≠ .unregistered → ∃ i : ℕ, ∃ c : EventCall PermissionDecisionEvent,
    x.pool.threads[i]? = some ⟨.awaitPermissionDecision taskId requestId, c⟩
  responding : ∀ (i : ℕ) response (c : EventCall PermissionResolution), response.requestId = requestId →
    x.pool.threads[i]? = some ⟨.resolvePermissionResponse taskId response, c⟩ →
    Responding.Stands taskId requestId response.decision response.reason i v stage c
  decider : ∀ w, v = some w → ∃ response, ∃ c : EventCall PermissionResolution,
    response.requestId = requestId ∧
    x.pool.threads[w.caller]? = some ⟨.resolvePermissionResponse taskId response, c⟩

section Tracking
variable {taskId requestId : String} {v v' : Option Verdict} {stage stage' : Stage}
variable {x y : Handoff} {a : EventAction}

theorem handoffStep_cases (h : handoffStep taskId requestId x a = some y) :
    (∃ op, a = .spawn op ∧
      y = ⟨⟨x.pool.shared, x.pool.threads ++ [⟨op, op.program⟩]⟩, x.sent⟩) ∨
    ∃ i input op q k, a = .advance i input ∧ x.pool.threads[i]? = some ⟨op, .step q k⟩ ∧
      ¬ q.blocked x.pool.shared ∧
      y = ⟨⟨(q.exec input x.pool.shared).2,
          x.pool.threads.set i ⟨op, k (q.exec input x.pool.shared).1⟩⟩,
        x.sent ++ q.sends taskId requestId x.pool.shared⟩ := by
  obtain ⟨p, hp, rfl⟩ := Option.map_eq_some_iff.mp h
  obtain ⟨op, rfl, rfl⟩ | ⟨i, input, op, q, k, rfl, hi, rfl⟩ := step_cases (step_of_eventStep hp)
  · refine .inl ⟨op, rfl, ?_⟩
    simp only [nextStep?, Option.map_none, Option.getD_none, List.append_nil]
  · have hnext : nextStep? x.pool (.advance i input) = some q := by simp only [nextStep?, hi]
    refine .inr ⟨i, input, op, q, k, rfl, hi, fun hblocked => ?_, ?_⟩
    · rw [eventStep, hnext, Option.any_some, if_pos hblocked] at hp
      cases hp
    · rw [hnext]
      rfl

theorem Handoff.Tracked.lt_length (h : x.Tracked taskId requestId v stage) {w : Verdict}
    (hw : v = some w) : w.caller < x.pool.threads.length := by
  obtain ⟨response, c, -, hc⟩ := h.decider w hw
  exact (List.getElem?_eq_some_iff.mp hc).1

theorem Handoff.Tracked.spawn (h : x.Tracked taskId requestId v stage) {op : EventOp}
    (hguard : op = .awaitPermissionDecision taskId requestId → ∀ t ∈ x.pool.threads, t.op ≠ op)
    (houtline : Outline EventThreads.discipline EventStep.exec
      (⟨x.pool.shared, x.pool.threads ++ [⟨op, op.program⟩]⟩ : EventPool)) :
    Handoff.Tracked taskId requestId v stage
      ⟨⟨x.pool.shared, x.pool.threads ++ [⟨op, op.program⟩]⟩, x.sent⟩ := by
  refine ⟨houtline, h.registry, h.settled, h.holds, fun i c hi => ?_, fun i j c c' hi hj => ?_,
    fun hstage => ?_, fun i response c hname hi => ?_, fun w hw => ?_⟩
  · obtain hold | ⟨-, hnew⟩ := getElem?_spawned hi
    · exact h.awaiting i c hold
    · cases hnew
      -- no other call awaits the request, so nothing has been registered
      have hstage : stage = .unregistered := by
        by_contra hne
        obtain ⟨j, c, hj⟩ := h.awaited hne
        exact hguard rfl _ (List.mem_of_getElem? hj) rfl
      subst hstage
      exact .approaches (Awaiting.approaches_program taskId requestId)
  · obtain hold | ⟨hi, hnew⟩ := getElem?_spawned hi
    · obtain hold' | ⟨-, hnew'⟩ := getElem?_spawned hj
      · exact h.single i j c c' hold hold'
      · cases hnew'
        exact absurd rfl (hguard rfl _ (List.mem_of_getElem? hold))
    · obtain hold' | ⟨hj, -⟩ := getElem?_spawned hj
      · cases hnew
        exact absurd rfl (hguard rfl _ (List.mem_of_getElem? hold'))
      · exact hi.trans hj.symm
  · obtain ⟨i, c, hi⟩ := h.awaited hstage
    exact ⟨i, c, getElem?_kept hi⟩
  · obtain hold | ⟨hlast, hnew⟩ := getElem?_spawned hi
    · exact h.responding i response c hname hold
    · cases hnew
      subst hname
      refine .checks (fun w hw hcaller => ?_) (Responding.checks_program taskId response)
      have hlt := h.lt_length hw
      omega
  · obtain ⟨response, c, hname, hc⟩ := h.decider w hw
    exact ⟨response, c, hname, getElem?_kept hc⟩

theorem Handoff.Tracked.set {i : ℕ} {op : EventOp} {c c' : EventCall op.Result} {z : EventState}
    {sent : List PermissionDecisionEvent} (h : x.Tracked taskId requestId v stage)
    (hi : x.pool.threads[i]? = some ⟨op, c⟩)
    (houtline : Outline EventThreads.discipline EventStep.exec
      (⟨z, x.pool.threads.set i ⟨op, c'⟩⟩ : EventPool))
    (hregistry : z.Registry) (hs : Settled z.store taskId requestId v')
    (hholds : stage'.Holds taskId requestId z v' sent) (hv : Resolving.Advances i v v')
    (hpasses : stage.Passes stage')
    (hothers : op ≠ .awaitPermissionDecision taskId requestId →
      stage' = stage ∨ ∃ channel, stage = .waiting channel ∧ stage' = .notified channel)
    (hawaiting : ∀ c₁ : EventCall PermissionDecisionEvent, (⟨op, c'⟩ : EventThread) =
        ⟨.awaitPermissionDecision taskId requestId, c₁⟩ →
      Awaiting.Stands taskId requestId v' stage' c₁)
    (hresponding : ∀ response (c₁ : EventCall PermissionResolution),
      response.requestId = requestId →
      (⟨op, c'⟩ : EventThread) = ⟨.resolvePermissionResponse taskId response, c₁⟩ →
      Responding.Stands taskId requestId response.decision response.reason i v' stage' c₁)
    (hdecider : ∀ w, v' = some w → w.caller = i → ∃ response : PermissionResponseRequest,
      response.requestId = requestId ∧ op = .resolvePermissionResponse taskId response) :
    Handoff.Tracked taskId requestId v' stage' ⟨⟨z, x.pool.threads.set i ⟨op, c'⟩⟩, sent⟩ := by
  have hlt : i < x.pool.threads.length := (List.getElem?_eq_some_iff.mp hi).1
  refine ⟨houtline, hregistry, hs, hholds, fun j c₁ hj => ?_, fun j j' c₁ c₂ hj hj' => ?_,
    fun hstage => ?_, fun j response c₁ hname hj => ?_, fun w hw => ?_⟩
  · obtain ⟨rfl, hself⟩ | ⟨hij, hold⟩ := getElem?_moved hj
    · exact hawaiting c₁ hself.symm
    · refine (h.awaiting j c₁ hold).other hv (hothers ?_)
      rintro rfl
      exact hij (h.single i j _ _ hi hold)
  · obtain ⟨_, hold⟩ := op_before_move hi hj
    obtain ⟨_, hold'⟩ := op_before_move hi hj'
    exact h.single j j' _ _ hold hold'
  · have hold : ∃ j : ℕ, ∃ c : EventCall PermissionDecisionEvent,
        x.pool.threads[j]? = some ⟨.awaitPermissionDecision taskId requestId, c⟩ := by
      by_cases hop : op = .awaitPermissionDecision taskId requestId
      · subst hop
        exact ⟨i, c, hi⟩
      · refine h.awaited ?_
        obtain rfl | ⟨channel, rfl, -⟩ := hothers hop
        · exact hstage
        · exact fun h => (by cases h)
    obtain ⟨j, c₁, hj⟩ := hold
    obtain ⟨c₂, hj'⟩ := op_after_move hi hj
    exact ⟨j, c₂, hj'⟩
  · obtain ⟨rfl, hself⟩ | ⟨hij, hold⟩ := getElem?_moved hj
    · exact hresponding response c₁ hname hself.symm
    · exact (h.responding j response c₁ hname hold).other hij hv hpasses
  · by_cases hown : w.caller = i
    · obtain ⟨response, hname, rfl⟩ := hdecider w hw hown
      refine ⟨response, c', hname, ?_⟩
      rw [hown]
      exact List.getElem?_set_self hlt
    · obtain rfl | ⟨rfl, w', rfl, hcaller⟩ := hv
      · obtain ⟨response, c₁, hname, hc⟩ := h.decider w hw
        exact ⟨response, c₁, hname, (List.getElem?_set_ne (Ne.symm hown)).trans hc⟩
      · obtain rfl := Option.some.inj hw
        exact absurd hcaller hown

theorem Handoff.Tracked.step (h : x.Tracked taskId requestId v stage)
    (hguard : HandoffGuard taskId requestId x a)
    (hstep : handoffStep taskId requestId x a = some y) :
    ∃ v' stage', y.Tracked taskId requestId v' stage' := by
  have houtline : Outline EventThreads.discipline EventStep.exec y.pool := by
    obtain ⟨p, hp, rfl⟩ := Option.map_eq_some_iff.mp hstep
    refine OutlineTo.step (fun op _ i => EventThreads.holds_program op) h.outline ?_
      (step_of_eventStep hp)
    cases a with
    | spawn op => trivial
    | advance i input => exact fun _ _ _ _ => trivial
  obtain ⟨op, rfl, rfl⟩ | ⟨i, input, op, q, k, rfl, hi, hfree, rfl⟩ := handoffStep_cases hstep
  · exact ⟨v, stage, h.spawn hguard houtline⟩
  · obtain ⟨hinput, hforeign⟩ := hguard
    obtain ⟨now, rfl⟩ : ∃ now, input = .proceed now := by
      cases input with
      | proceed now => exact ⟨now, rfl⟩
      | ioError => exact absurd rfl hinput
    obtain ⟨_, hwf, -⟩ := h.outline
    have hregistry := h.registry.exec q (.proceed now)
    by_cases hconcerns : op.concerns taskId requestId
    · cases op with
      | store op => exact hconcerns.elim
      | awaitPermissionDecision id rid =>
        obtain ⟨rfl, rfl⟩ := hconcerns
        obtain ⟨stage', hpasses, hstore, hholds, hnext⟩ :=
          (h.awaiting i _ hi).step h.registry h.settled h.holds hfree now
        refine ⟨v, stage', h.set hi houtline hregistry ?_ hholds (.inl rfl) hpasses
          (fun hne => absurd rfl hne) (fun c₁ heq => ?_) (fun response c₁ _ heq => ?_)
          fun w hw hcaller => ?_⟩
        · rw [hstore]
          exact h.settled
        · cases heq
          exact hnext
        · cases heq
        · obtain ⟨response, c, -, hc⟩ := h.decider w hw
          rw [hcaller, hi] at hc
          cases hc
      | resolvePermissionResponse id response =>
        obtain ⟨rfl, rfl⟩ := hconcerns
        obtain ⟨v', stage', hv, hstage, hsettled, hholds, hnext⟩ :=
          (h.responding i response _ rfl hi).step h.registry hwf h.settled h.holds now
        refine ⟨v', stage', h.set hi houtline hregistry hsettled hholds hv ?_ (fun _ => hstage)
          (fun c₁ heq => ?_) (fun response' c₁ _ heq => ?_) fun w hw hcaller => ?_⟩
        · obtain rfl | ⟨channel, rfl, rfl⟩ := hstage
          · exact .refl _
          · exact .notifies channel
        · cases heq
        · cases heq
          exact hnext
        · exact ⟨response, rfl, rfl⟩
    · have hq := (hforeign op q k hi).resolve_left hconcerns
      obtain ⟨hsettled, hholds⟩ := foreign_exec hq h.registry h.settled h.holds now
      refine ⟨v, stage, h.set hi houtline hregistry hsettled hholds (.inl rfl) (.refl _)
        (fun _ => .inl rfl) (fun c₁ heq => ?_) (fun response c₁ hname heq => ?_)
        fun w hw hcaller => ?_⟩
      · cases heq
        exact absurd ⟨rfl, rfl⟩ hconcerns
      · cases heq
        exact absurd ⟨rfl, hname⟩ hconcerns
      · obtain ⟨response, c, hname, hc⟩ := h.decider w hw
        rw [hcaller, hi] at hc
        cases hc
        exact ⟨response, hname, rfl⟩

theorem tracked_of_reaches {s : Store} (hs : s.WellFormed) (hu : Undecided s taskId requestId)
    (h : Reaches (handoffStep taskId requestId) (HandoffGuard taskId requestId) (startHandoff s) x) :
    ∃ v stage, x.Tracked taskId requestId v stage := by
  refine h.invariant (I := fun x => ∃ v stage, x.Tracked taskId requestId v stage) ?_ ?_
  · refine ⟨none, .unregistered, ⟨(), hs, fun i t hi => (by cases hi)⟩,
      EventState.registry_start s, hu, ⟨rfl, rfl, rfl⟩, fun _ _ hi => (by cases hi),
      fun _ _ _ _ hi => (by cases hi), fun hne => absurd rfl hne, fun _ _ _ _ hi => (by cases hi),
      fun _ hw => (by cases hw)⟩
  · rintro x a y ⟨v, stage, hx⟩ hguard hstep
    exact hx.step hguard hstep

end Tracking

namespace Handoff

/-- The waiter is registered, or it was and has been notified. -/
def Registered (taskId requestId : String) (x : Handoff) : Prop :=
  (x.pool.shared.waiter? taskId requestId).isSome ∨ x.sent ≠ []

/-- No response to the request is between its resolution and its notification. -/
def Quiet (taskId requestId : String) (x : Handoff) : Prop :=
  ∀ (i : ℕ) response q k, response.requestId = requestId →
    x.pool.threads[i]? = some ⟨.resolvePermissionResponse taskId response, .step q k⟩ →
    ¬ q.announces

/-- The awaiting call has the decision in its channel, or has returned it. -/
def Reached (taskId requestId : String) (x : Handoff) (decision : PermissionDecisionEvent) : Prop :=
  ∃ i : ℕ, (∃ channel k, x.pool.threads[i]? =
      some ⟨.awaitPermissionDecision taskId requestId, .step (.receive channel) k⟩ ∧
    x.pool.shared.channels[channel]? = some (.sent decision)) ∨
    x.pool.threads[i]? = some ⟨.awaitPermissionDecision taskId requestId, .ret decision⟩

structure Sound (taskId requestId : String) (x : Handoff) : Prop where
  registered : ∀ request, x.pool.shared.store.findPermissionRequest taskId requestId =
    some request → request.status ≠ .pending → x.Registered taskId requestId
  delivered : ∀ request, x.pool.shared.store.findPermissionRequest taskId requestId =
    some request → request.status ≠ .pending → x.Quiet taskId requestId →
    ∃ response, request.response = some response ∧ x.sent = [response] ∧
      x.Reached taskId requestId response
  stored : ∀ decision, decision ∈ x.sent ∨ x.Reached taskId requestId decision →
    ∃ request, x.pool.shared.store.findPermissionRequest taskId requestId = some request ∧
      request.response = some decision

variable {taskId requestId : String} {v : Option Verdict} {stage : Stage} {x : Handoff}

theorem Tracked.reached {w : Verdict} {channel : ℕ}
    (h : x.Tracked taskId requestId (some w) (.notified channel)) :
    x.Reached taskId requestId w.response := by
  obtain ⟨-, w', hw, hsent, -⟩ := h.holds
  obtain rfl := Option.some.inj hw
  obtain ⟨i, c, hi⟩ := h.awaited fun h => (by cases h)
  cases h.awaiting i c hi with
  | receives hreceives =>
    obtain ⟨hk⟩ := hreceives
    exact ⟨i, .inl ⟨channel, _, hi, hsent⟩⟩
  | returned hw =>
    obtain rfl := Option.some.inj hw
    exact ⟨i, .inr hi⟩

theorem Tracked.notified {w : Verdict} (h : x.Tracked taskId requestId (some w) stage)
    (hquiet : x.Quiet taskId requestId) : ∃ channel, stage = .notified channel := by
  obtain ⟨response, c, hname, hc⟩ := h.decider w rfl
  obtain ⟨q, k, rfl, hannounces⟩ | hnotified := (h.responding _ response c hname hc).own rfl
  · exact absurd hannounces (hquiet _ _ _ _ hname hc)
  · exact hnotified

theorem Tracked.sound (h : x.Tracked taskId requestId v stage) : x.Sound taskId requestId := by
  refine ⟨fun request hfound hresolved => ?_, fun request hfound hresolved hquiet => ?_,
    fun decision hdecision => ?_⟩
  · obtain ⟨w, rfl, -⟩ := Resolving.Settled.found h.settled hfound hresolved
    cases stage with
    | unregistered => exact absurd rfl h.holds.registered
    | waiting channel =>
      left
      rw [h.holds.1]
      rfl
    | notified channel =>
      obtain ⟨-, w', -, -, hsent⟩ := h.holds
      right
      rw [hsent]
      exact List.cons_ne_nil _ _
  · obtain ⟨w, rfl, rfl, hdecided⟩ := Resolving.Settled.found h.settled hfound hresolved
    obtain ⟨channel, rfl⟩ := h.notified hquiet
    obtain ⟨-, w', hw, -, hsent⟩ := h.holds
    obtain rfl := Option.some.inj hw
    exact ⟨w.response, hdecided.stored, hsent, h.reached⟩
  · have hresponse : ∃ w : Verdict, v = some w ∧ decision = w.response := by
      rcases hdecision with hmem | ⟨i, ⟨channel, k, hi, hchannel⟩ | hi⟩
      · cases stage with
        | unregistered =>
          rw [h.holds.2.2] at hmem
          cases hmem
        | waiting channel =>
          rw [h.holds.2] at hmem
          cases hmem
        | notified channel =>
          obtain ⟨-, w, hw, -, hsent⟩ := h.holds
          rw [hsent] at hmem
          exact ⟨w, hw, List.mem_singleton.mp hmem⟩
      · cases h.awaiting i _ hi with
        | approaches h => cases h
        | waits hreceives =>
          cases hreceives
          rw [h.registry.waits _ _ _ h.holds.1] at hchannel
          cases hchannel
        | receives hreceives =>
          cases hreceives
          obtain ⟨-, w, hw, hsent, -⟩ := h.holds
          rw [hsent] at hchannel
          exact ⟨w, hw, (Mailbox.sent.inj (Option.some.inj hchannel)).symm⟩
      · cases h.awaiting i _ hi with
        | approaches h => cases h
        | waits hreceives => cases hreceives
        | receives hreceives => cases hreceives
        | returned hw => exact ⟨_, hw, rfl⟩
    obtain ⟨w, rfl, rfl⟩ := hresponse
    exact ⟨w.request, h.settled.found, h.settled.stored⟩

end Handoff

/-- No wake-up is lost: a resolved request has had its waiter registered, and once no response
is about to be sent, exactly the stored one has been. -/
theorem permission_handoff_sound {s : Store} {taskId requestId : String} {x : Handoff}
    (hs : s.WellFormed) (hu : Undecided s taskId requestId)
    (h : Reaches (handoffStep taskId requestId) (HandoffGuard taskId requestId) (startHandoff s) x) :
    x.Sound taskId requestId := by
  obtain ⟨v, stage, htracked⟩ := tracked_of_reaches hs hu h
  exact htracked.sound

def isForeign : EventStep → Bool
  | .db (.resolvePermissionRequest ..) => false
  | .db (.insertEvent ..) => false
  | .db _ => true
  | _ => false

theorem not_meddles_of_isForeign {taskId requestId : String} {x : EventState} {q : EventStep}
    (h : isForeign q) : ¬ q.Meddles taskId requestId x := by
  intro hmeddles
  unfold isForeign at h
  split at h
  · cases h
  · cases h
  · rename_i hresolve hinsert
    obtain ⟨decision, reason, now, rfl⟩ | ⟨sequence, payload, now, rfl, -⟩ := hmeddles
    · exact hresolve _ _ _ _ _ rfl
    · exact hinsert _ _ _ _ _ rfl
  · cases h

def EventOp.isAwait : EventOp → Bool
  | .awaitPermissionDecision .. => true
  | _ => false

def handoffPermits (taskId requestId : String) (x : Handoff) : EventAction → Bool
  | .spawn op => !op.isAwait || x.pool.threads.all fun t => !t.op.isAwait
  | .advance _ .ioError => false
  | .advance i (.proceed _) =>
    match x.pool.threads[i]? with
    | some ⟨.awaitPermissionDecision id rid, _⟩ => decide (id = taskId ∧ rid = requestId)
    | some ⟨.resolvePermissionResponse id response, _⟩ =>
      decide (id = taskId ∧ response.requestId = requestId)
    | some ⟨_, .step q _⟩ => isForeign q
    | _ => true

theorem handoffGuard_of_permits {taskId requestId : String} {x : Handoff} {a : EventAction}
    (h : handoffPermits taskId requestId x a) : HandoffGuard taskId requestId x a := by
  cases a with
  | spawn op =>
    rintro rfl t ht heq
    have hnone : (x.pool.threads.all fun t => !t.op.isAwait) = true := h
    have hthread := List.all_eq_true.mp hnone t ht
    rw [heq] at hthread
    cases hthread
  | advance i input =>
    cases input with
    | ioError => cases h
    | proceed now =>
      refine ⟨fun h => (by cases h), fun op q k hi => ?_⟩
      simp only [handoffPermits, hi] at h
      cases op with
      | store op => exact .inr (not_meddles_of_isForeign h)
      | awaitPermissionDecision id rid =>
        have hkey : id = taskId ∧ rid = requestId := of_decide_eq_true h
        exact .inl hkey
      | resolvePermissionResponse id response =>
        have hkey : id = taskId ∧ response.requestId = requestId := of_decide_eq_true h
        exact .inl hkey

def eventAdvances (i n : ℕ) (now : String) : List EventAction :=
  List.replicate n (.advance i (.proceed now))

def respond (decision : PermissionDecision) (reason : Option String) : EventAction :=
  .spawn (.resolvePermissionResponse "task_1" ⟨"perm_1", decision, reason⟩)

/-- The second response finds the request resolved and is the one that wakes the session; the
denial is refused. -/
def duplicateWakes : List EventAction :=
  .spawn (.store (.create sampleTask)) :: eventAdvances 0 5 "t0" ++
  .spawn (.store (.recordPermissionRequest "task_1" sampleRequest)) :: eventAdvances 1 5 "t1" ++
  .spawn (.awaitPermissionDecision "task_1" "perm_1") :: eventAdvances 2 3 "t2" ++
  respond .approve (some "looks fine") :: respond .approve none :: respond .deny none ::
  eventAdvances 3 6 "t3" ++ eventAdvances 4 6 "t4" ++ eventAdvances 5 5 "t5" ++
  eventAdvances 2 1 "t6" ++ eventAdvances 3 4 "t7"

set_option maxRecDepth 20000 in
theorem permission_handoff_sound_duplicateWakes : ∃ x : Handoff,
    x.sent = [⟨"perm_1", .approve, some "looks fine"⟩] ∧ x.Sound "task_1" "perm_1" := by
  have hrun : (run (fun x a => if handoffPermits "task_1" "perm_1" x a then
      handoffStep "task_1" "perm_1" x a else none) (startHandoff .empty) duplicateWakes).map
        Handoff.sent = some [⟨"perm_1", .approve, some "looks fine"⟩] := by decide
  obtain ⟨x, hx, hsent⟩ := Option.map_eq_some_iff.mp hrun
  exact ⟨x, hsent, permission_handoff_sound wellFormed_empty (undecided_empty _ _)
    (reaches_of_run (fun _ _ => handoffGuard_of_permits) hx)⟩

end OpenDaemon
