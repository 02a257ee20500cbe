import OpenDaemon.EventLog
import OpenDaemon.EventService

/-!
# Permission decisions

Any number of calls resolve a permission request at once. The transaction of the
first one decides the request; the others find the record decided and either
recall the decision, with the event found again in the log, or are refused. Other
calls of the store run in between, and may append events of the same type for a
request once it has been decided.
-/

namespace OpenDaemon

open Runs Interleaving Store SequencedLog

def TaskEvent.decides (event : TaskEvent) (requestId : String) : Bool :=
  decide (event.eventType = .providerPermissionDecided ∧
    (event.payload.get? "request_id").bind Value.asStr = some requestId)

structure Decided (s : Store) (taskId requestId : String) (request : PermissionRequestRecord)
    (response : PermissionDecisionEvent) (event : TaskEvent) : Prop where
  found : s.findPermissionRequest taskId requestId = some request
  status : request.status = .fromDecision response.decision
  stored : request.response = some response
  named : response.requestId = requestId
  logged : s.findPermissionDecisionEvent taskId requestId = some event
  payload : event.payload = response.toValue

structure Undecided (s : Store) (taskId requestId : String) : Prop where
  pending : ∀ request, s.findPermissionRequest taskId requestId = some request →
    request.status = .pending
  unlogged : s.findPermissionDecisionEvent taskId requestId = none

theorem fromDecision_ne_pending (decision : PermissionDecision) :
    PermissionRequestStatus.fromDecision decision ≠ .pending := by
  cases decision <;> exact fun h => by cases h

theorem Decided.not_pending {s : Store} {taskId requestId : String}
    {request : PermissionRequestRecord} {response : PermissionDecisionEvent} {event : TaskEvent}
    (h : Decided s taskId requestId request response event) : request.status ≠ .pending := by
  rw [h.status]
  exact fromDecision_ne_pending _

section Steps
variable {s s' : Store} {taskId requestId : String} {q : DbStep} {input : DbStep.Input}

theorem findPermissionDecisionEvent_eq (s : Store) (taskId requestId : String) :
    s.findPermissionDecisionEvent taskId requestId =
      (s.eventsOf taskId).find? fun event => event.decides requestId := rfl

theorem decides_toValue {event : TaskEvent} {response : PermissionDecisionEvent}
    (hpayload : event.payload = response.toValue) (h : event.decides requestId) :
    response.requestId = requestId := by
  have hname := (of_decide_eq_true h).2
  rw [hpayload] at hname
  exact Option.some.inj hname

theorem decides_effect (taskId requestId : String) (h : Effect s s' q) : s'.events = s.events ∨
    ∃ event, s'.events = s.events ++ [event] ∧ (event.taskId = taskId → event.decides requestId →
      (∃ decision reason now, q = .resolvePermissionRequest taskId requestId decision reason now) ∨
      ∃ sequence payload now, q = .insertEvent taskId sequence .providerPermissionDecided payload
        now ∧ (payload.get? "request_id").bind Value.asStr = some requestId) := by
  cases h with
  | quiet q htasks hevents => exact .inl hevents
  | resulted id result htasks hevents => exact .inl hevents
  | created row now htasks hevents =>
    refine .inr ⟨_, hevents, fun _ hdecides => ?_⟩
    cases (of_decide_eq_true hdecides).1
  | transitioned id next payload sequence now hunused htasks hevents =>
    refine .inr ⟨_, hevents, fun _ hdecides => ?_⟩
    have htype := (of_decide_eq_true hdecides).1
    cases next <;> cases htype
  | logged q event hlogs hunused htasks hevents =>
    refine .inr ⟨event, hevents, fun htask hdecides => ?_⟩
    cases hlogs with
    | insertEvent id sequence eventType payload now =>
      obtain ⟨htype, hname⟩ := of_decide_eq_true hdecides
      obtain rfl : id = taskId := htask
      obtain rfl : eventType = .providerPermissionDecided := htype
      exact .inr ⟨sequence, payload, now, rfl, hname⟩
    | requested id request now => cases (of_decide_eq_true hdecides).1
    | decided id requestId' decision reason now =>
      obtain rfl : id = taskId := htask
      obtain rfl : requestId' = requestId := decides_toValue rfl hdecides
      exact .inl ⟨decision, reason, now, rfl⟩

theorem permissionRequests_exec (q : DbStep) (input : DbStep.Input) (s : Store) :
    (q.exec input s).2.permissionRequests = s.permissionRequests ∨
    (∃ taskId request now, ∃ record : PermissionRequestRecord,
      q = .insertPermissionRequest taskId request now ∧ record.status = .pending ∧
      (q.exec input s).2.permissionRequests = s.permissionRequests ++ [record]) ∨
    ∃ taskId requestId decision reason now request,
      q = .resolvePermissionRequest taskId requestId decision reason now ∧
      s.findPermissionRequest taskId requestId = some request ∧ request.status = .pending ∧
      (q.exec input s).2 = s.decided taskId ⟨requestId, decision, reason⟩ now := by
  have hwrites := writes_of_exec q input s
  generalize (q.exec input s).2 = s' at hwrites ⊢
  cases hwrites with
  | insertPermissionRequest taskId request now _ =>
    exact .inr (.inl ⟨_, _, _, _, rfl, rfl, rfl⟩)
  | resolvePermissionRequest taskId requestId decision reason now request hfound hpending _ =>
    exact .inr (.inr ⟨_, _, _, _, _, request, rfl, hfound, hpending, rfl⟩)
  | _ => exact .inl rfl

def PermissionRequestRecord.decidedBy (request : PermissionRequestRecord)
    (response : PermissionDecisionEvent) (now : String) : PermissionRequestRecord :=
  { request with
    status := .fromDecision response.decision
    response := some response
    respondedAt := some now }

theorem findPermissionRequest_decided (response : PermissionDecisionEvent) (id now : String) :
    (s.decided id response now).findPermissionRequest taskId requestId =
      (s.findPermissionRequest taskId requestId).map fun request =>
        if requestId = response.requestId ∧ taskId = id then request.decidedBy response now
        else request := by
  unfold findPermissionRequest decided
  rw [List.find?_map]
  have hsame : ((fun r : PermissionRequestRecord =>
      decide (r.taskId = taskId ∧ r.requestId = requestId)) ∘ fun r =>
        if r.requestId = response.requestId ∧ r.taskId = id then r.decidedBy response now
        else r) = fun r => decide (r.taskId = taskId ∧ r.requestId = requestId) := by
    funext r
    simp only [Function.comp]
    split <;> rfl
  change ((s.permissionRequests.find? (_ ∘ fun r : PermissionRequestRecord =>
    if r.requestId = response.requestId ∧ r.taskId = id then r.decidedBy response now
    else r)).map _) = _
  rw [hsame]
  refine Option.map_congr fun request hfound => ?_
  have hkey := List.find?_some hfound
  simp only [decide_eq_true_eq] at hkey
  obtain ⟨rfl, rfl⟩ := hkey
  rfl

theorem findPermissionRequest_other {response : PermissionDecisionEvent} {now id : String}
    (hne : ¬ (requestId = response.requestId ∧ taskId = id)) :
    (s.decided id response now).findPermissionRequest taskId requestId =
      s.findPermissionRequest taskId requestId := by
  rw [findPermissionRequest_decided]
  simp only [if_neg hne, Option.map_id']

def DbStep.Spares (taskId requestId : String) : DbStep → Prop
  | .insertPermissionRequest .. => False
  | .resolvePermissionRequest id rid _ _ _ => ¬ (requestId = rid ∧ taskId = id)
  | _ => True

theorem DbStep.Spares.findPermissionRequest (h : q.Spares taskId requestId) (input : DbStep.Input)
    (s : Store) : (q.exec input s).2.findPermissionRequest taskId requestId =
      s.findPermissionRequest taskId requestId := by
  obtain hsame | ⟨_, _, _, _, rfl, -, -⟩ | ⟨_, _, _, _, _, _, rfl, -, -, hstore⟩ :=
    permissionRequests_exec q input s
  · rw [Store.findPermissionRequest, hsame, Store.findPermissionRequest]
  · exact h.elim
  · rw [hstore]
    exact findPermissionRequest_other h

theorem Decided.exec {request : PermissionRequestRecord} {response : PermissionDecisionEvent}
    {event : TaskEvent} (h : Decided s taskId requestId request response event)
    (q : DbStep) (input : DbStep.Input) :
    Decided (q.exec input s).2 taskId requestId request response event := by
  refine ⟨?_, h.status, h.stored, h.named, ?_, h.payload⟩
  · obtain hsame | ⟨-, -, -, record, -, -, happend⟩ | ⟨id, rid, decision, reason, now, found, -,
      hfound, hpending, hstore⟩ := permissionRequests_exec q input s
    · rw [findPermissionRequest, hsame]
      exact h.found
    · rw [findPermissionRequest, happend, List.find?_append,
        show s.permissionRequests.find? _ = _ from h.found]
      rfl
    · rw [hstore, findPermissionRequest_other]
      · exact h.found
      · rintro ⟨rfl, rfl⟩
        rw [h.found] at hfound
        obtain rfl := Option.some.inj hfound
        exact h.not_pending hpending
  · rw [findPermissionDecisionEvent_eq]
    have hevents : s.events <+: (q.exec input s).2.events := by
      obtain hsame | ⟨added, happend, -⟩ :=
        decides_effect taskId requestId (effect_of_exec q input s)
      · exact hsame ▸ List.prefix_rfl
      · exact happend ▸ List.prefix_append _ _
    exact List.IsPrefix.find?_eq_some (entriesOf_initial hevents) h.logged

theorem Undecided.exec (h : Undecided s taskId requestId)
    (hother : ∀ decision reason now,
      q ≠ .resolvePermissionRequest taskId requestId decision reason now)
    (hlate : ∀ sequence payload now,
      q = .insertEvent taskId sequence .providerPermissionDecided payload now →
      (payload.get? "request_id").bind Value.asStr ≠ some requestId) :
    Undecided (q.exec input s).2 taskId requestId := by
  refine ⟨fun request hfound => ?_, ?_⟩
  · obtain hsame | ⟨-, -, -, record, -, hrecord, happend⟩ | ⟨id, rid, decision, reason, now, found,
      hq, -, -, hstore⟩ := permissionRequests_exec q input s
    · rw [findPermissionRequest, hsame] at hfound
      exact h.pending request hfound
    · rw [findPermissionRequest, happend, List.find?_append, Option.or_eq_some_iff] at hfound
      rcases hfound with hfound | ⟨-, hfound⟩
      · exact h.pending request hfound
      · obtain rfl := List.mem_singleton.mp (List.mem_of_find?_eq_some hfound)
        exact hrecord
    · rw [hstore, findPermissionRequest_other] at hfound
      · exact h.pending request hfound
      · rintro ⟨rfl, rfl⟩
        exact hother _ _ _ hq
  · rw [findPermissionDecisionEvent_eq]
    have hnone := h.unlogged
    rw [findPermissionDecisionEvent_eq] at hnone
    obtain hsame | ⟨added, happend, hadded⟩ :=
      decides_effect taskId requestId (effect_of_exec q input s)
    · rw [eventsOf, hsame]
      exact hnone
    · by_cases htask : added.taskId = taskId
      · rw [← htask, eventsOf_append_same happend, List.find?_append, htask, hnone, Option.none_or]
        refine List.find?_eq_none.mpr fun event hevent hdecides => ?_
        obtain rfl := List.mem_singleton.mp hevent
        obtain ⟨decision, reason, now, hq⟩ | ⟨sequence, payload, now, hq, hname⟩ :=
          hadded htask hdecides
        · exact hother _ _ _ hq
        · exact hlate _ _ _ hq hname
      · rw [eventsOf_append_other happend (Ne.symm htask)]
        exact hnone

theorem Undecided.decide (h : Undecided s taskId requestId) {request : PermissionRequestRecord}
    (hfound : s.findPermissionRequest taskId requestId = some request)
    (decision : PermissionDecision) (reason : Option String) (now : String) :
    Decided (s.decided taskId ⟨requestId, decision, reason⟩ now) taskId requestId
      (request.decidedBy ⟨requestId, decision, reason⟩ now) ⟨requestId, decision, reason⟩
      (s.decidedEvent taskId ⟨requestId, decision, reason⟩ now) := by
  refine ⟨?_, rfl, rfl, rfl, ?_, rfl⟩
  · rw [findPermissionRequest_decided, hfound, Option.map_some, if_pos ⟨rfl, rfl⟩]
  · have hnone := h.unlogged
    have hevents : (s.decided taskId ⟨requestId, decision, reason⟩ now).events =
        s.events ++ [s.decidedEvent taskId ⟨requestId, decision, reason⟩ now] := rfl
    have hlog : (s.decided taskId ⟨requestId, decision, reason⟩ now).eventsOf taskId =
        s.eventsOf taskId ++ [s.decidedEvent taskId ⟨requestId, decision, reason⟩ now] :=
      eventsOf_append_same hevents
    rw [findPermissionDecisionEvent_eq] at hnone ⊢
    rw [hlog, List.find?_append, hnone, Option.none_or]
    exact List.find?_cons_of_pos (decide_eq_true ⟨rfl, rfl⟩)

theorem Decided.recall {request : PermissionRequestRecord} {response : PermissionDecisionEvent}
    {event : TaskEvent} (h : Decided s taskId requestId request response event)
    (decision : PermissionDecision) : s.recallResolution taskId requestId decision request =
      if response.decision = decision then .ok (.inl ⟨taskId, requestId, .fromDecision decision,
        decision, event, true⟩)
      else .error .permissionRequestAlreadyResolved := by
  simp only [recallResolution, h.stored, h.logged]

end Steps

/-- The call that decided the request, with the record and the event it left. -/
structure Verdict where
  caller : ℕ
  request : PermissionRequestRecord
  response : PermissionDecisionEvent
  event : TaskEvent

def Settled (s : Store) (taskId requestId : String) : Option Verdict → Prop
  | none => Undecided s taskId requestId
  | some v => Decided s taskId requestId v.request v.response v.event

namespace Resolving

section Residuals
variable (taskId requestId : String) (decision : PermissionDecision) (reason : Option String)

def resolution (event : TaskEvent) (duplicated : Bool) : PermissionResolution :=
  ⟨taskId, requestId, .fromDecision decision, decision, event, duplicated⟩

/-- What is left of the call that has decided the request; `lossy` says whether reading its
event back may have failed. -/
inductive Concludes (lossy : Prop) (event : TaskEvent) : TaskCall PermissionResolution → Prop
  | returned : Concludes lossy event (.ret (resolution taskId requestId decision event false))
  | unread (h : lossy) : Concludes lossy event (.fail .store)
  | publishes {k : DbStep.Answer (.publish event) → TaskCall PermissionResolution}
      (next : ∀ answer, Concludes lossy event (k answer)) :
      Concludes lossy event (.step (.publish event) k)
  | reads {k : DbStep.Answer (.selectEvent taskId event.sequence) → TaskCall PermissionResolution}
      (broken : ∀ e, k (.error e) = .fail .store) (found : Concludes lossy event (k (.ok event))) :
      Concludes lossy event (.step (.selectEvent taskId event.sequence) k)

/-- What is left of a call whose transaction has not decided the request. -/
inductive Attempts (lossy : Prop) : TaskCall PermissionResolution → Prop
  | failed (e : TaskStoreError) : Attempts lossy (.fail e)
  | reads {q : DbStep} {k : q.Answer → TaskCall PermissionResolution}
      (hq : q = .clock ∨ q = .selectTask taskId) (next : ∀ answer, Attempts lossy (k answer)) :
      Attempts lossy (.step q k)
  | transacts {now : String} {k : DbStep.Answer (.resolvePermissionRequest taskId requestId decision
        reason now) → TaskCall PermissionResolution}
      (broken : ∀ e, k (.error e) = .fail .store)
      (refused : ∀ e, k (.ok (.error e)) = .fail e)
      (recalled : ∀ found, k (.ok (.ok (.inl found))) = .ret found)
      (decided : ∀ event : TaskEvent, Concludes taskId requestId decision lossy event
        (k (.ok (.ok (.inr event.sequence))))) :
      Attempts lossy (.step (.resolvePermissionRequest taskId requestId decision reason now) k)

inductive Stands (lossy : Prop) (i : ℕ) (v : Option Verdict) : TaskCall PermissionResolution → Prop
  | attempts {c : TaskCall PermissionResolution} (other : ∀ w, v = some w → w.caller ≠ i)
      (h : Attempts taskId requestId decision reason lossy c) : Stands lossy i v c
  | recalled {w : Verdict} (hv : v = some w) (other : w.caller ≠ i)
      (same : w.response.decision = decision) :
      Stands lossy i v (.ret (resolution taskId requestId decision w.event true))
  | concludes {w : Verdict} {c : TaskCall PermissionResolution} (hv : v = some w)
      (own : w.caller = i) (hresponse : w.response = ⟨requestId, decision, reason⟩)
      (h : Concludes taskId requestId decision lossy w.event c) : Stands lossy i v c

end Residuals

section Step
variable {taskId requestId : String} {decision : PermissionDecision} {reason : Option String}
variable {lossy : Prop} {i : ℕ} {v v' : Option Verdict} {s : Store}

theorem attempts_program (lossy : Prop) (taskId requestId : String) (decision : PermissionDecision)
    (reason : Option String) : Attempts taskId requestId decision reason lossy
      (TaskStore.resolvePermissionRequest taskId requestId decision reason) := by
  refine .reads (.inr rfl) fun answer => ?_
  rcases answer with e | (_ | task)
  · exact .failed _
  · exact .failed _
  · refine .reads (.inl rfl) fun answer => ?_
    rcases answer with e | now
    · exact .failed _
    · refine .transacts (fun _ => rfl) (fun _ => rfl) (fun _ => rfl) fun event => ?_
      exact .reads (fun _ => rfl) (.publishes fun _ => .returned)

/-- Only the transaction of call `i` turns an open request into a decided one. -/
def Advances (i : ℕ) (v v' : Option Verdict) : Prop :=
  v' = v ∨ v = none ∧ ∃ w : Verdict, v' = some w ∧ w.caller = i

theorem exec_reads {q : DbStep} (hq : q = .clock ∨ q = .selectTask taskId) (input : DbStep.Input) :
    (q.exec input s).2 = s := by
  rcases hq with rfl | rfl <;> cases input <;> rfl

theorem Settled.found {request : PermissionRequestRecord} (hs : Settled s taskId requestId v)
    (hfound : s.findPermissionRequest taskId requestId = some request)
    (hresolved : request.status ≠ .pending) : ∃ w, v = some w ∧ w.request = request ∧
      Decided s taskId requestId w.request w.response w.event := by
  cases v with
  | none => exact absurd (hs.pending request hfound) hresolved
  | some w =>
    have hsame := hs.found
    rw [hfound] at hsame
    exact ⟨w, rfl, (Option.some.inj hsame).symm, hs⟩

theorem Settled.open {request : PermissionRequestRecord} (hs : Settled s taskId requestId v)
    (hfound : s.findPermissionRequest taskId requestId = some request)
    (hpending : request.status = .pending) : v = none := by
  cases v with
  | none => rfl
  | some w =>
    have hsame := hs.found
    rw [hfound] at hsame
    obtain rfl := Option.some.inj hsame
    exact absurd hpending hs.not_pending

theorem Attempts.step {q : DbStep} {k : q.Answer → TaskCall PermissionResolution}
    (h : Attempts taskId requestId decision reason lossy (.step q k))
    (other : ∀ w, v = some w → w.caller ≠ i) (hs : Settled s taskId requestId v)
    (input : DbStep.Input) : ∃ v', Settled (q.exec input s).2 taskId requestId v' ∧
      Advances i v v' ∧
      Stands taskId requestId decision reason lossy i v' (k (q.exec input s).1) := by
  cases h with
  | reads hq next =>
    refine ⟨v, ?_, .inl rfl, .attempts other (next _)⟩
    rw [exec_reads hq]
    exact hs
  | transacts broken refused recalled decided =>
    obtain ⟨e, he⟩ | ⟨now, answer, s', ha, he⟩ := exec_cases _ input s
    · rw [he]
      exact ⟨v, hs, .inl rfl, broken e ▸ .attempts other (.failed _)⟩
    · rw [he]
      obtain ⟨-, rfl, rfl⟩ | ⟨request, hfound, ⟨hresolved, rfl, rfl⟩ | ⟨hpending, -, rfl, rfl⟩⟩ :=
        resolvePermissionRequest_cases ha
      · exact ⟨v, hs, .inl rfl, refused _ ▸ .attempts other (.failed _)⟩
      · refine ⟨v, hs, .inl rfl, ?_⟩
        obtain ⟨w, hv, rfl, hdecided⟩ := Settled.found hs hfound hresolved
        rw [hdecided.recall]
        by_cases hsame : w.response.decision = decision
        · rw [if_pos hsame]
          exact recalled _ ▸ .recalled hv (other w hv) hsame
        · rw [if_neg hsame]
          exact refused _ ▸ .attempts other (.failed _)
      · obtain rfl := Settled.open hs hfound hpending
        refine ⟨some ⟨i, _, _, _⟩, Undecided.decide hs hfound decision reason _,
          .inr ⟨rfl, _, rfl, rfl⟩, ?_⟩
        exact .concludes rfl rfl rfl (decided _)

theorem attempt_selectEvent {event : TaskEvent} (hwf : s.WellFormed)
    (hmem : event ∈ s.eventsOf taskId) (now : String) :
    (DbStep.selectEvent taskId event.sequence).attempt now s = .ok (event, s) := by
  simp only [DbStep.attempt]
  obtain ⟨hevent, htask⟩ := mem_entriesOf.mp hmem
  cases hfind : (s.eventsOf taskId).find? fun e => decide (e.sequence = event.sequence) with
  | none =>
    have hnone := List.find?_eq_none.mp hfind event hmem
    exact absurd (decide_eq_true rfl) hnone
  | some found =>
    have hsequence := List.find?_some hfind
    simp only [decide_eq_true_eq] at hsequence
    obtain ⟨hfound, hkey⟩ := mem_entriesOf.mp (List.mem_of_find?_eq_some hfind)
    obtain rfl := (hwf.contiguous taskId).eq_of_seq hfound hkey hevent htask hsequence
    rfl

theorem Concludes.step {event : TaskEvent} {q : DbStep}
    {k : q.Answer → TaskCall PermissionResolution} {input : DbStep.Input}
    (h : Concludes taskId requestId decision lossy event (.step q k)) (hwf : s.WellFormed)
    (hmem : event ∈ s.eventsOf taskId)
    (hread : ∀ sequence, q = .selectEvent taskId sequence → input = .ioError → lossy) :
    Concludes taskId requestId decision lossy event (k (q.exec input s).1) := by
  cases h with
  | publishes next => exact next _
  | @reads k broken found =>
    cases input with
    | ioError =>
      change Concludes taskId requestId decision lossy event (k (.error .failure))
      rw [broken]
      exact .unread (hread _ rfl rfl)
    | proceed now =>
      have hexec : ((DbStep.selectEvent taskId event.sequence).exec (.proceed now) s).1 =
          .ok event := by
        simp only [DbStep.exec, attempt_selectEvent hwf hmem]
      rw [hexec]
      exact found

theorem Stands.step {q : DbStep} {k : q.Answer → TaskCall PermissionResolution}
    {input : DbStep.Input} (h : Stands taskId requestId decision reason lossy i v (.step q k))
    (hwf : s.WellFormed) (hs : Settled s taskId requestId v)
    (hread : ∀ sequence, q = .selectEvent taskId sequence → input = .ioError → lossy) :
    ∃ v', Settled (q.exec input s).2 taskId requestId v' ∧ Advances i v v' ∧
      Stands taskId requestId decision reason lossy i v' (k (q.exec input s).1) := by
  cases h with
  | attempts other h => exact h.step other hs input
  | concludes hv own hresponse h =>
    subst hv
    refine ⟨some _, Decided.exec hs q input, .inl rfl, .concludes rfl own hresponse ?_⟩
    exact h.step hwf (List.mem_of_find?_eq_some hs.logged) hread

theorem Stands.other {j : ℕ} {c : TaskCall PermissionResolution}
    (h : Stands taskId requestId decision reason lossy i v c) (hne : j ≠ i) (hf : Advances j v v') :
    Stands taskId requestId decision reason lossy i v' c := by
  obtain rfl | ⟨rfl, w, rfl, hw⟩ := hf
  · exact h
  · cases h with
    | attempts _ h =>
      refine .attempts (fun w' hw' => ?_) h
      obtain rfl := Option.some.inj hw'
      exact hw ▸ hne
    | recalled hv _ _ => cases hv
    | concludes hv _ _ _ => cases hv

end Step

end Resolving

/-- A decision of the request is appended by itself only when the request has been resolved. -/
def DecidesLate (taskId requestId : String) (p : StorePool) : StoreAction → Prop
  | .advance i (.proceed _) => ∀ op sequence payload now k, p.threads[i]? =
      some ⟨op, .step (.insertEvent taskId sequence .providerPermissionDecided payload now) k⟩ →
      (payload.get? "request_id").bind Value.asStr = some requestId →
      ∃ request, p.shared.findPermissionRequest taskId requestId = some request ∧
        request.status ≠ .pending
  | _ => True

def DecisionGuard (taskId requestId : String) (p : StorePool) (a : StoreAction) : Prop :=
  StoreGuard false p a ∧ DecidesLate taskId requestId p a

/-- The call that has decided the request gets its event back from the database. -/
def ReadsBack (taskId requestId : String) (p : StorePool) : StoreAction → Prop
  | .advance i .ioError => ∀ decision reason sequence k, p.threads[i]? ≠
      some ⟨.resolvePermissionRequest taskId requestId decision reason,
        .step (.selectEvent taskId sequence) k⟩
  | _ => True

def Resolved (taskId requestId : String) (p : StorePool) (i : ℕ) (decision : PermissionDecision)
    (reason : Option String) (resolution : PermissionResolution) : Prop :=
  p.threads[i]? = some ⟨.resolvePermissionRequest taskId requestId decision reason, .ret resolution⟩

structure Tracks (taskId requestId : String) (lossy : Prop) (v : Option Verdict) (p : StorePool) :
    Prop where
  settled : Settled p.shared taskId requestId v
  stands : ∀ i decision reason (c : TaskCall PermissionResolution),
    p.threads[i]? = some ⟨.resolvePermissionRequest taskId requestId decision reason, c⟩ →
    Resolving.Stands taskId requestId decision reason lossy i v c
  decider : ∀ w, v = some w → ∃ c : TaskCall PermissionResolution, p.threads[w.caller]? =
    some ⟨.resolvePermissionRequest taskId requestId w.response.decision w.response.reason, c⟩

section Pool
variable {taskId requestId : String} {lossy : Prop} {v : Option Verdict} {s : Store}
variable {p p' : StorePool} {a : StoreAction}

open Resolving

theorem Settled.other {q : DbStep} {input : DbStep.Input} (hs : Settled s taskId requestId v)
    (hother : ∀ decision reason now,
      q ≠ .resolvePermissionRequest taskId requestId decision reason now)
    (hlate : ∀ sequence payload now, q = .insertEvent taskId sequence .providerPermissionDecided
        payload now → (payload.get? "request_id").bind Value.asStr = some requestId →
      input ≠ .ioError → ∃ request, s.findPermissionRequest taskId requestId = some request ∧
        request.status ≠ .pending) :
    Settled (q.exec input s).2 taskId requestId v := by
  cases v with
  | some w => exact Decided.exec hs q input
  | none =>
    cases input with
    | ioError => exact hs
    | proceed now =>
      refine Undecided.exec hs hother fun sequence payload now' hq hname => ?_
      obtain ⟨request, hfound, hresolved⟩ := hlate sequence payload now' hq hname
        (fun h => by cases h)
      exact hresolved (hs.pending request hfound)

theorem Tracks.spawn (h : Tracks taskId requestId lossy v p) (op : TaskOp) :
    Tracks taskId requestId lossy v ⟨p.shared, p.threads ++ [⟨op, op.program⟩]⟩ := by
  refine ⟨h.settled, fun i decision reason c hi => ?_, fun w hw => ?_⟩
  · obtain hold | ⟨hlast, hnew⟩ := getElem?_spawned hi
    · exact h.stands i decision reason c hold
    · cases hnew
      refine .attempts (fun w hw hcaller => ?_) (attempts_program lossy _ _ _ _)
      obtain ⟨c, hc⟩ := h.decider w hw
      have hlt := (List.getElem?_eq_some_iff.mp hc).1
      omega
  · obtain ⟨c, hc⟩ := h.decider w hw
    exact ⟨c, getElem?_kept hc⟩

theorem Resolving.Stands.own {decision : PermissionDecision} {reason : Option String} {i : ℕ}
    {w : Verdict} {c : TaskCall PermissionResolution}
    (h : Stands taskId requestId decision reason lossy i (some w) c) (hcaller : w.caller = i) :
    w.response = ⟨requestId, decision, reason⟩ ∧
      Concludes taskId requestId decision lossy w.event c := by
  cases h with
  | attempts other _ => exact absurd hcaller (other w rfl)
  | recalled hv other _ =>
    obtain rfl := Option.some.inj hv
    exact absurd hcaller other
  | concludes hv _ hresponse h =>
    obtain rfl := Option.some.inj hv
    exact ⟨hresponse, h⟩

theorem Tracks.set {s' : Store} {v' : Option Verdict} {i : ℕ} {op : TaskOp}
    {c c' : TaskCall op.Result} (h : Tracks taskId requestId lossy v p)
    (hi : p.threads[i]? = some ⟨op, c⟩) (hs : Settled s' taskId requestId v') (hf : Advances i v v')
    (hself : ∀ decision reason (c₁ : TaskCall PermissionResolution), (⟨op, c'⟩ : Thread _ _ _) =
        ⟨.resolvePermissionRequest taskId requestId decision reason, c₁⟩ →
      Stands taskId requestId decision reason lossy i v' c₁)
    (hdecider : ∀ w, v' = some w → w.caller = i → op = .resolvePermissionRequest taskId requestId
      w.response.decision w.response.reason) :
    Tracks taskId requestId lossy v' ⟨s', p.threads.set i ⟨op, c'⟩⟩ := by
  have hlt : i < p.threads.length := (List.getElem?_eq_some_iff.mp hi).1
  refine ⟨hs, fun j decision reason c₁ hj => ?_, fun w hw => ?_⟩
  · obtain ⟨rfl, hmoved⟩ | ⟨hij, hold⟩ := getElem?_moved hj
    · exact hself decision reason c₁ hmoved.symm
    · exact (h.stands j decision reason c₁ hold).other hij hf
  · by_cases hown : w.caller = i
    · obtain rfl := hdecider w hw hown
      refine ⟨c', ?_⟩
      rw [hown]
      exact List.getElem?_set_self hlt
    · obtain rfl | ⟨rfl, w', rfl, hcaller⟩ := hf
      · obtain ⟨c₁, hc₁⟩ := h.decider w hw
        refine ⟨c₁, ?_⟩
        change (p.threads.set i _)[_]? = _
        rw [List.getElem?_set_ne (Ne.symm hown)]
        exact hc₁
      · obtain rfl := Option.some.inj hw
        exact absurd hcaller hown

theorem Tracks.step (hs : s.WellFormed) (hr : StoreReaches false s p)
    (h : Tracks taskId requestId lossy v p) (hlate : DecidesLate taskId requestId p a)
    (hread : lossy ∨ ReadsBack taskId requestId p a) (hstep : storeStep p a = some p') :
    ∃ v', Tracks taskId requestId lossy v' p' := by
  obtain ⟨op, rfl, rfl⟩ | ⟨i, input, op, q, k, rfl, hi, rfl⟩ := step_cases hstep
  · exact ⟨v, h.spawn op⟩
  · obtain ⟨_, hwf, hneeds⟩ := (outline_of_storeReaches hs hr).needs
    obtain ⟨-, hissues, -⟩ := hneeds i op q k hi
    by_cases hop : ∃ decision reason,
        op = .resolvePermissionRequest taskId requestId decision reason
    · obtain ⟨decision, reason, rfl⟩ := hop
      have hstands := h.stands i decision reason _ hi
      have hback : ∀ sequence, q = .selectEvent taskId sequence → input = .ioError → lossy := by
        rintro sequence rfl rfl
        exact hread.resolve_right fun hb => hb decision reason sequence k hi
      obtain ⟨v', hsettled, hf, hnext⟩ := hstands.step hwf h.settled hback
      refine ⟨v', h.set hi hsettled hf (fun decision' reason' c₁ heq => ?_) fun w hw hcaller => ?_⟩
      · cases heq
        exact hnext
      · subst hw
        rw [(hnext.own hcaller).1]
    · refine ⟨v, h.set hi (h.settled.other ?_ ?_) (.inl rfl) (fun decision reason c₁ heq => ?_)
        fun w hw hcaller => ?_⟩
      · rintro decision reason now rfl
        exact hop ⟨decision, reason, hissues⟩
      · rintro sequence payload now rfl hname hinput
        cases input with
        | ioError => exact absurd rfl hinput
        | proceed _ => exact hlate op sequence payload now k hi hname
      · cases heq
        exact absurd ⟨decision, reason, rfl⟩ hop
      · obtain ⟨c, hc⟩ := h.decider w hw
        rw [hcaller, hi] at hc
        cases hc
        rfl

theorem tracks_of_reaches {ok : StorePool → StoreAction → Prop} (hs : s.WellFormed)
    (hu : Undecided s taskId requestId) (guard : ∀ p a, ok p a → DecisionGuard taskId requestId p a)
    (hread : ∀ p a, ok p a → lossy ∨ ReadsBack taskId requestId p a)
    (h : Reaches storeStep ok (startPool s) p) : ∃ v, Tracks taskId requestId lossy v p := by
  induction h with
  | refl =>
    exact ⟨none, hu, fun _ _ _ _ hi => (by cases hi), fun _ hw => (by cases hw)⟩
  | tail hr hok hstep ih =>
    obtain ⟨v, hv⟩ := ih
    have hreach : StoreReaches false s _ := hr.mono fun p a hok => (guard p a hok).1
    exact hv.step hs hreach (guard _ _ hok).2 (hread _ _ hok) hstep

theorem Tracks.resolved {i : ℕ} {decision : PermissionDecision} {reason : Option String}
    {found : PermissionResolution} (h : Tracks taskId requestId lossy v p)
    (hi : Resolved taskId requestId p i decision reason found) : ∃ w, v = some w ∧
      decision = w.response.decision ∧ (found.duplicated = false → w.caller = i) ∧
      found = resolution taskId requestId w.response.decision w.event found.duplicated := by
  cases h.stands i decision reason _ hi with
  | attempts _ h => cases h
  | recalled hv other same =>
    subst same
    exact ⟨_, hv, rfl, fun hnew => (by cases hnew), rfl⟩
  | @concludes w c hv own hresponse h =>
    obtain rfl : decision = w.response.decision := by rw [hresponse]
    cases h
    exact ⟨w, hv, rfl, fun _ => own, rfl⟩

theorem decided_unique {request request' : PermissionRequestRecord}
    {response response' : PermissionDecisionEvent} {event event' : TaskEvent}
    (h : Decided s taskId requestId request response event)
    (h' : Decided s taskId requestId request' response' event') :
    request' = request ∧ response' = response ∧ event' = event := by
  obtain rfl := Option.some.inj (h'.found.symm.trans h.found)
  obtain rfl := Option.some.inj (h'.stored.symm.trans h.stored)
  exact ⟨rfl, rfl, Option.some.inj (h'.logged.symm.trans h.logged)⟩

theorem Decided.reaches {ok : StorePool → StoreAction → Prop} {request : PermissionRequestRecord}
    {response : PermissionDecisionEvent} {event : TaskEvent}
    (h : Decided p.shared taskId requestId request response event) (hr : Reaches storeStep ok p p') :
    Decided p'.shared taskId requestId request response event := by
  refine hr.invariant (I := fun p => Decided p.shared taskId requestId request response event) h
    fun p a p' hp _ hstep => ?_
  obtain ⟨op, rfl, rfl⟩ | ⟨i, input, op, q, k, rfl, hi, rfl⟩ := step_cases hstep
  · exact hp
  · exact hp.exec q input

theorem Tracks.refused {w : Verdict} {i : ℕ} {decision : PermissionDecision}
    {reason : Option String} {q : DbStep} {k : q.Answer → TaskCall PermissionResolution}
    (h : Tracks taskId requestId lossy (some w) p) (hne : decision ≠ w.response.decision)
    (hi : p.threads[i]? =
      some ⟨.resolvePermissionRequest taskId requestId decision reason, .step q k⟩)
    (input : DbStep.Input) : (q.exec input p.shared).2 = p.shared ∧
      ∀ at_ now, q = .resolvePermissionRequest taskId requestId decision reason at_ →
        input = .proceed now →
        k (q.exec input p.shared).1 = .fail .permissionRequestAlreadyResolved := by
  have hdecided : Decided p.shared taskId requestId w.request w.response w.event := h.settled
  have hresolve : ∀ at_, p.shared.resolvePermissionRequest taskId requestId decision reason at_ =
      .ok (.error .permissionRequestAlreadyResolved, p.shared) := by
    intro at_
    rw [resolvePermissionRequest_resolved hdecided.found hdecided.not_pending, hdecided.recall,
      if_neg (Ne.symm hne)]
  cases h.stands i decision reason _ hi with
  | concludes hv _ hresponse _ =>
    obtain rfl := Option.some.inj hv
    rw [hresponse] at hne
    exact absurd rfl hne
  | attempts _ h =>
    cases h with
    | reads hq next =>
      refine ⟨exec_reads hq input, fun at_ now heq _ => ?_⟩
      rcases hq with rfl | rfl <;> cases heq
    | @transacts at_ k broken refused recalled decided =>
      cases input with
      | ioError => exact ⟨rfl, fun _ _ _ h => (by cases h)⟩
      | proceed now =>
        have hexec : (DbStep.resolvePermissionRequest taskId requestId decision reason at_).exec
            (.proceed now) p.shared =
              (.ok (.error .permissionRequestAlreadyResolved), p.shared) := by
          simp only [DbStep.exec, DbStep.attempt, hresolve]
        rw [hexec]
        exact ⟨rfl, fun _ _ _ _ => refused _⟩

theorem Resolving.Stands.others {i : ℕ} {decision : PermissionDecision} {reason : Option String}
    {q : DbStep} {k : q.Answer → TaskCall PermissionResolution} {id rid : String}
    (h : Stands taskId requestId decision reason lossy i v (.step q k)) (input : DbStep.Input)
    (hne : ¬ (rid = requestId ∧ id = taskId)) :
    (q.exec input s).2.findPermissionRequest id rid = s.findPermissionRequest id rid := by
  have hq : q.Spares id rid := by
    cases h with
    | attempts _ h =>
      cases h with
      | reads hq next =>
        rcases hq with rfl | rfl
        · trivial
        · trivial
      | transacts _ _ _ _ => exact hne
    | concludes _ _ _ h =>
      cases h with
      | publishes _ => trivial
      | reads _ _ => trivial
  exact hq.findPermissionRequest input s

end Pool

/-- What holds of the calls that resolve the request, of its record and of its event. -/
structure DecidedOnce (taskId requestId : String) (p : StorePool) : Prop where
  single : ∀ i j decision decision' reason reason' found found',
    Resolved taskId requestId p i decision reason found →
    Resolved taskId requestId p j decision' reason' found' →
    found.duplicated = false → found'.duplicated = false → i = j
  recorded : ∀ i decision reason found, Resolved taskId requestId p i decision reason found →
    ∃ request, p.shared.findPermissionRequest taskId requestId = some request ∧
      request.status ≠ .pending
  agreed : ∀ request, p.shared.findPermissionRequest taskId requestId = some request →
    request.status ≠ .pending → ∃ response event, ∀ p',
      Reaches storeStep (DecisionGuard taskId requestId) p p' →
      Decided p'.shared taskId requestId request response event ∧
      ∀ i decision reason found, Resolved taskId requestId p' i decision reason found →
        decision = response.decision ∧ found =
          ⟨taskId, requestId, request.status, response.decision, event, found.duplicated⟩
  refused : ∀ request response event, Decided p.shared taskId requestId request response event →
    ∀ i decision reason q k input p', decision ≠ response.decision →
      p.threads[i]? =
        some ⟨.resolvePermissionRequest taskId requestId decision reason, .step q k⟩ →
      storeStep p (.advance i input) = some p' → p'.shared = p.shared ∧
      ∀ at_ now, q = .resolvePermissionRequest taskId requestId decision reason at_ →
        input = .proceed now → p'.threads[i]? =
          some ⟨.resolvePermissionRequest taskId requestId decision reason,
            .fail .permissionRequestAlreadyResolved⟩
  others : ∀ i decision reason c input p' id rid, p.threads[i]? =
      some ⟨.resolvePermissionRequest taskId requestId decision reason, c⟩ →
    storeStep p (.advance i input) = some p' → ¬ (rid = requestId ∧ id = taskId) →
    p'.shared.findPermissionRequest id rid = p.shared.findPermissionRequest id rid

def ResolutionsOver (taskId requestId : String) (p : StorePool) : Prop :=
  ∀ (i : ℕ) decision reason q k, p.threads[i]? ≠
    some ⟨.resolvePermissionRequest taskId requestId decision reason, .step q k⟩

section Once
variable {taskId requestId : String} {s : Store} {p p' : StorePool}

open Resolving

theorem storeStep_advance {i : ℕ} {input : DbStep.Input} {op : TaskOp} {c : TaskCall op.Result}
    (hi : p.threads[i]? = some ⟨op, c⟩) (hstep : storeStep p (.advance i input) = some p') :
    ∃ q k, c = .step q k ∧ p'.shared = (q.exec input p.shared).2 ∧
      p'.threads[i]? = some ⟨op, k (q.exec input p.shared).1⟩ := by
  obtain ⟨_, hspawn, -⟩ | ⟨j, input', op', q, k, ha, hj, rfl⟩ := step_cases hstep
  · cases hspawn
  · cases ha
    rw [hi] at hj
    cases hj
    exact ⟨q, k, rfl, rfl, List.getElem?_set_self (List.getElem?_eq_some_iff.mp hi).1⟩

theorem decidedOnce_of_reaches (hs : s.WellFormed) (hu : Undecided s taskId requestId)
    (h : Reaches storeStep (DecisionGuard taskId requestId) (startPool s) p) :
    DecidedOnce taskId requestId p := by
  have htracks : ∀ p', Reaches storeStep (DecisionGuard taskId requestId) (startPool s) p' →
      ∃ v, Tracks taskId requestId True v p' := fun p' hp' =>
    tracks_of_reaches hs hu (fun _ _ hok => hok) (fun _ _ _ => .inl trivial) hp'
  obtain ⟨v, hv⟩ := htracks p h
  refine ⟨?_, ?_, ?_, ?_, ?_⟩
  · intro i j decision decision' reason reason' found found' hi hj hnew hnew'
    obtain ⟨w, hw, -, hown, -⟩ := hv.resolved hi
    obtain ⟨w', hw', -, hown', -⟩ := hv.resolved hj
    obtain rfl := Option.some.inj (hw.symm.trans hw')
    exact (hown hnew).symm.trans (hown' hnew')
  · intro i decision reason found hi
    obtain ⟨w, rfl, -⟩ := hv.resolved hi
    exact ⟨w.request, hv.settled.found, hv.settled.not_pending⟩
  · intro request hfound hresolved
    obtain ⟨w, -, rfl, hdecided⟩ := Settled.found hv.settled hfound hresolved
    refine ⟨w.response, w.event, fun p' hp' => ⟨hdecided.reaches hp', ?_⟩⟩
    intro i decision reason found hi
    obtain ⟨v', hv'⟩ := htracks p' (h.trans hp')
    obtain ⟨w', rfl, hdecision, -, hres⟩ := hv'.resolved hi
    obtain ⟨-, hresponse, hevent⟩ := decided_unique (hdecided.reaches hp') hv'.settled
    rw [hresponse] at hdecision hres
    rw [hevent] at hres
    exact ⟨hdecision, hdecided.status ▸ hres⟩
  · intro request response event hdecided i decision reason q k input p' hne hi hstep
    obtain ⟨w, rfl, rfl, hw⟩ := Settled.found hv.settled hdecided.found hdecided.not_pending
    obtain ⟨-, hresponse, -⟩ := decided_unique hw hdecided
    rw [hresponse] at hne
    obtain ⟨hsame, hfail⟩ := hv.refused hne hi input
    obtain ⟨q', k', hc, hshared, hthread⟩ := storeStep_advance hi hstep
    cases hc
    refine ⟨hshared.trans hsame, fun at_ now hq hinput => ?_⟩
    rw [hthread, hfail at_ now hq hinput]
  · intro i decision reason c input p' id rid hi hstep hne
    obtain ⟨q, k, rfl, hshared, -⟩ := storeStep_advance hi hstep
    rw [hshared]
    exact (hv.stands i decision reason _ hi).others input hne

theorem exists_unique_of_over (hs : s.WellFormed) (hu : Undecided s taskId requestId)
    (h : Reaches storeStep (fun p a => DecisionGuard taskId requestId p a ∧
      ReadsBack taskId requestId p a) (startPool s) p) (hover : ResolutionsOver taskId requestId p)
    (hok : ∃ i decision reason found, Resolved taskId requestId p i decision reason found) :
    ∃! i, ∃ decision reason found, Resolved taskId requestId p i decision reason found ∧
      found.duplicated = false := by
  obtain ⟨v, hv⟩ : ∃ v, Tracks taskId requestId False v p :=
    tracks_of_reaches hs hu (fun _ _ hok => hok.1) (fun _ _ hok => .inr hok.2) h
  obtain ⟨i, decision, reason, found, hi⟩ := hok
  obtain ⟨w, rfl, -⟩ := hv.resolved hi
  obtain ⟨c, hc⟩ := hv.decider w rfl
  refine ⟨w.caller, ?_, fun j hj => ?_⟩
  · obtain ⟨-, hconcludes⟩ := (hv.stands _ _ _ c hc).own rfl
    cases hconcludes with
    | returned => exact ⟨_, _, _, hc, rfl⟩
    | unread hlost => exact absurd hlost id
    | publishes _ => exact absurd hc (hover _ _ _ _ _)
    | reads _ _ => exact absurd hc (hover _ _ _ _ _)
  · obtain ⟨decision', reason', found', hj, hnew⟩ := hj
    obtain ⟨w', hw', -, hown, -⟩ := hv.resolved hj
    obtain rfl := Option.some.inj hw'
    exact (hown hnew).symm

end Once

/-- A request is decided at most once, and every later answer is the first one again. Exactly
one call says that it decided it, unless that call could not read its event back. -/
theorem permission_decided_once {s : Store} {taskId requestId : String} (hs : s.WellFormed)
    (hu : Undecided s taskId requestId) :
    (∀ p, Reaches storeStep (DecisionGuard taskId requestId) (startPool s) p →
      DecidedOnce taskId requestId p) ∧
    ∀ p, Reaches storeStep (fun p a => DecisionGuard taskId requestId p a ∧
        ReadsBack taskId requestId p a) (startPool s) p →
      ResolutionsOver taskId requestId p →
      (∃ i decision reason found, Resolved taskId requestId p i decision reason found) →
      ∃! i, ∃ decision reason found, Resolved taskId requestId p i decision reason found ∧
        found.duplicated = false :=
  ⟨fun _ h => decidedOnce_of_reaches hs hu h, fun _ h => exists_unique_of_over hs hu h⟩

def duplicated? (taskId requestId : String) :
    Thread DbStep.Answer TaskStoreError TaskOp.Result → Option Bool
  | ⟨.resolvePermissionRequest id rid _ _, .ret found⟩ =>
    if id = taskId ∧ rid = requestId then some found.duplicated else none
  | _ => none

theorem resolved_iff {taskId requestId : String} {p : StorePool} {i : ℕ} {duplicated : Bool} :
    (∃ decision reason found, Resolved taskId requestId p i decision reason found ∧
        found.duplicated = duplicated) ↔
      (p.threads.map (duplicated? taskId requestId))[i]? = some (some duplicated) := by
  rw [List.getElem?_map]
  constructor
  · rintro ⟨decision, reason, found, hi, rfl⟩
    rw [hi, Option.map_some, duplicated?, if_pos ⟨rfl, rfl⟩]
  · intro h
    obtain ⟨t, ht, hreturned⟩ := Option.map_eq_some_iff.mp h
    unfold duplicated? at hreturned
    split at hreturned
    · split at hreturned
      · rename_i hkey
        obtain ⟨rfl, rfl⟩ := hkey
        exact ⟨_, _, _, ht, Option.some.inj hreturned⟩
      · cases hreturned
    · cases hreturned

def isOver : Thread DbStep.Answer TaskStoreError TaskOp.Result → Bool
  | ⟨_, .step _ _⟩ => false
  | _ => true

theorem resolutionsOver_of_isOver {taskId requestId : String} {p : StorePool}
    (h : p.threads.all isOver) : ResolutionsOver taskId requestId p := by
  intro i decision reason q k hi
  have hover := List.all_eq_true.mp h _ (List.mem_of_getElem? hi)
  cases hover

def appendsNone (p : StorePool) : StoreAction → Bool
  | .spawn _ => true
  | .advance i _ =>
    match p.threads[i]? with
    | some ⟨_, .step (.insertEvent ..) _⟩ => false
    | _ => true

theorem decisionGuard_of_appendsNone {taskId requestId : String} {p : StorePool} {a : StoreAction}
    (h : permits false p a && appendsNone p a) : DecisionGuard taskId requestId p a := by
  rw [Bool.and_eq_true] at h
  refine ⟨guard_of_permits h.1, ?_⟩
  cases a with
  | spawn op => trivial
  | advance i input =>
    cases input with
    | ioError => trivial
    | proceed now =>
      intro op sequence payload at_ k hi _
      have hnone := h.2
      simp only [appendsNone, hi] at hnone
      cases hnone

def proceeds : StoreAction → Bool
  | .advance _ .ioError => false
  | _ => true

theorem readsBack_of_proceeds {taskId requestId : String} {p : StorePool} {a : StoreAction}
    (h : proceeds a) : ReadsBack taskId requestId p a := by
  cases a with
  | spawn op => trivial
  | advance i input =>
    cases input with
    | ioError => cases h
    | proceed now => trivial

theorem undecided_empty (taskId requestId : String) : Undecided .empty taskId requestId :=
  ⟨fun _ h => (by cases h), rfl⟩

def sampleRequest : PermissionRequestEvent where
  requestId := "perm_1"
  providerId := "codex"
  permissionKind := "command"
  summary := "run the tests"
  details := none
  options := [.approve, .deny]
  expiresAt := none

def recordRequest : List StoreAction :=
  .spawn (.create sampleTask) :: advances 0 5 "t0" ++
  .spawn (.recordPermissionRequest "task_1" sampleRequest) :: advances 1 5 "t1"

def resolve (decision : PermissionDecision) (reason : Option String) : StoreAction :=
  .spawn (.resolvePermissionRequest "task_1" "perm_1" decision reason)

def decisionRace : List StoreAction :=
  recordRequest ++ resolve .approve (some "looks fine") :: resolve .approve none ::
  resolve .deny none :: advances 2 2 "t2" ++ advances 4 2 "t3" ++ advances 3 3 "t4" ++
  advances 4 1 "t5" ++ advances 2 1 "t6" ++ advances 3 2 "t7"

def decisionRun (check : StorePool → StoreAction → Bool) (actions : List StoreAction) :
    Option StorePool :=
  run (fun p a => if permits false p a && appendsNone p a && check p a then storeStep p a else none)
    (startPool .empty) actions

theorem reaches_of_decisionRun {check : StorePool → StoreAction → Bool}
    (ok : StorePool → StoreAction → Prop) (checked : ∀ p a, check p a → ok p a)
    {actions : List StoreAction} {p : StorePool} (h : decisionRun check actions = some p) :
    Reaches storeStep (fun p a => DecisionGuard "task_1" "perm_1" p a ∧ ok p a)
      (startPool .empty) p := by
  refine reaches_of_run (fun p a hok => ?_) h
  rw [Bool.and_eq_true] at hok
  exact ⟨decisionGuard_of_appendsNone hok.1, checked p a hok.2⟩

set_option maxRecDepth 20000 in
theorem permission_decided_once_decisionRace : ∃ p : StorePool,
    p.threads.map (duplicated? "task_1" "perm_1") = [none, none, some true, some false, none] ∧
    DecidedOnce "task_1" "perm_1" p ∧
    ∃! i, ∃ decision reason found, Resolved "task_1" "perm_1" p i decision reason found ∧
      found.duplicated = false := by
  have hrun : (decisionRun (fun _ => proceeds) decisionRace).map (fun p =>
      (p.threads.map (duplicated? "task_1" "perm_1"), p.threads.all isOver)) =
      some ([none, none, some true, some false, none], true) := by decide
  obtain ⟨p, hp, hfacts⟩ := Option.map_eq_some_iff.mp hrun
  obtain ⟨hreturned, hover⟩ := Prod.mk.inj hfacts
  have hreach := reaches_of_decisionRun (ReadsBack "task_1" "perm_1")
    (fun _ _ => readsBack_of_proceeds) hp
  obtain ⟨honce, hunique⟩ :=
    permission_decided_once wellFormed_empty (undecided_empty "task_1" "perm_1")
  obtain ⟨decision, reason, found, hfound, -⟩ := resolved_iff.mpr
    (show (p.threads.map (duplicated? "task_1" "perm_1"))[2]? = some (some true) by
      rw [hreturned]; rfl)
  exact ⟨p, hreturned, honce p (hreach.mono fun _ _ hok => hok.1),
    hunique p hreach (resolutionsOver_of_isOver hover) ⟨2, decision, reason, found, hfound⟩⟩

/-- An approval commits and cannot read its event back; the second one finds it decided. -/
def unreadApproval : List StoreAction :=
  recordRequest ++ resolve .approve none :: advances 2 3 "t2" ++ .advance 2 .ioError ::
  resolve .approve none :: advances 3 3 "t3"

set_option maxRecDepth 20000 in
/-- A call has returned a resolution, and no call says that it decided the request. -/
theorem unreadApproval_all_duplicated : ∃ p : StorePool,
    Reaches storeStep (DecisionGuard "task_1" "perm_1") (startPool .empty) p ∧
    ResolutionsOver "task_1" "perm_1" p ∧
    (∃ i decision reason found, Resolved "task_1" "perm_1" p i decision reason found) ∧
    ¬ ∃ i decision reason found, Resolved "task_1" "perm_1" p i decision reason found ∧
      found.duplicated = false := by
  have hrun : (decisionRun (fun _ _ => true) unreadApproval).map (fun p =>
      (p.threads.map (duplicated? "task_1" "perm_1"), p.threads.all isOver)) =
      some ([none, none, none, some true], true) := by decide
  obtain ⟨p, hp, hfacts⟩ := Option.map_eq_some_iff.mp hrun
  obtain ⟨hreturned, hover⟩ := Prod.mk.inj hfacts
  have hreach := reaches_of_decisionRun (fun _ _ => True) (fun _ _ _ => trivial) hp
  obtain ⟨decision, reason, found, hfound, -⟩ := resolved_iff.mpr
    (show (p.threads.map (duplicated? "task_1" "perm_1"))[3]? = some (some true) by
      rw [hreturned]; rfl)
  refine ⟨p, hreach.mono fun _ _ hok => hok.1, resolutionsOver_of_isOver hover,
    ⟨3, decision, reason, found, hfound⟩, fun hnew => ?_⟩
  obtain ⟨i, hi⟩ := hnew
  have hmem := List.mem_of_getElem? (resolved_iff.mp hi)
  rw [hreturned] at hmem
  revert hmem
  decide

end OpenDaemon
