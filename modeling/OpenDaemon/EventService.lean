import OpenDaemon.StoreThreads

/-!
# The task event service

`task/service.rs`: the event bus with its permission waiters, and the two calls
that hand a decision from the daemon's API to the provider session that waits
for it. The messages sent on the bus so far are `Store.published`; a waiter is a
one-shot channel kept under its task and request. A call that receives blocks
until its channel has been sent to or dropped.
-/

namespace OpenDaemon

open Runs Interleaving

inductive TaskEventServiceError
  | invalidCursor
  | invalidEventRequest
  | invalidPermissionDecision
  | permissionResponseNotSupported
  | storePayload
  | task (error : TaskStoreError)
  deriving DecidableEq, Repr

structure PermissionResponseRequest where
  requestId : String
  decision : PermissionDecision
  reason : Option String
  deriving DecidableEq, Repr

def PermissionDecision.fromStr : String → Option PermissionDecision
  | "approve" => some .approve
  | "deny" => some .deny
  | _ => none

/-- A unit variant is its name, or an object from its name to `null`. -/
def PermissionDecision.fromValue : Value → Option PermissionDecision
  | .string name => fromStr name
  | .object [(name, .null)] => fromStr name
  | _ => none

def reasonFromValue : Value → Option (Option String)
  | .null => some none
  | .string reason => some (some reason)
  | _ => none

/-- `serde_json::from_value`: an object, where a missing reason is none, or an array of the
three fields. -/
def PermissionDecisionEvent.fromValue : Value → Option PermissionDecisionEvent
  | .object entries => do
    let requestId ← (entries.lookup "request_id").bind Value.asStr
    let decision ← (entries.lookup "decision").bind PermissionDecision.fromValue
    let reason ← reasonFromValue ((entries.lookup "reason").getD .null)
    return ⟨requestId, decision, reason⟩
  | .array [requestId, decision, reason] => do
    return ⟨← requestId.asStr, ← PermissionDecision.fromValue decision, ← reasonFromValue reason⟩
  | _ => none

theorem PermissionDecisionEvent.fromValue_toValue (event : PermissionDecisionEvent) :
    fromValue event.toValue = some event := by
  obtain ⟨requestId, decision, reason⟩ := event
  cases decision <;> cases reason <;> rfl

inductive Mailbox
  | waiting
  | sent (decision : PermissionDecisionEvent)
  | dropped
  deriving DecidableEq, Repr

/-- The store with its bus, and the waiters: the number of the channel that is registered
for a task and a request, and all channels made so far. -/
structure EventState where
  store : Store
  waiters : List ((String × String) × ℕ)
  channels : List Mailbox

namespace EventState

def start (s : Store) : EventState := ⟨s, [], []⟩

def waiter? (x : EventState) (taskId requestId : String) : Option ℕ :=
  x.waiters.lookup (taskId, requestId)

def dropSender (x : EventState) (channel : ℕ) : EventState :=
  { x with channels := x.channels.modify channel fun mailbox =>
      match mailbox with
      | .waiting => .dropped
      | other => other }

def removeWaiter (x : EventState) (taskId requestId : String) : EventState :=
  { x with waiters := x.waiters.filter fun entry => decide (entry.1 ≠ (taskId, requestId)) }

/-- `HashMap::insert` of a new sender; the one it replaces is dropped. -/
def registerWaiter (x : EventState) (taskId requestId : String) : ℕ × EventState :=
  let y := match x.waiter? taskId requestId with
    | some channel => (x.dropSender channel).removeWaiter taskId requestId
    | none => x
  (y.channels.length, { y with
    waiters := ((taskId, requestId), y.channels.length) :: y.waiters
    channels := y.channels ++ [.waiting] })

def notifyPermissionResolution (x : EventState) (taskId : String)
    (decision : PermissionDecisionEvent) : EventState :=
  match x.waiter? taskId decision.requestId with
  | some channel => { x.removeWaiter taskId decision.requestId with
      channels := x.channels.set channel (.sent decision) }
  | none => x

/-- What `receiver.await` gives once it is ready; `none` if the sender was dropped. -/
def received (x : EventState) (channel : ℕ) : Option PermissionDecisionEvent :=
  match x.channels[channel]? with
  | some (.sent decision) => some decision
  | _ => none

end EventState

inductive EventStep
  | db (q : DbStep)
  | selectPermissionRequest (taskId requestId : String)
  | hasWaiter (taskId requestId : String)
  | registerWaiter (taskId requestId : String)
  | receive (channel : ℕ)
  | notifyPermissionResolution (taskId : String) (decision : PermissionDecisionEvent)

namespace EventStep

@[reducible] def Answer : EventStep → Type
  | .db q => q.Answer
  | .selectPermissionRequest .. => Except SqlError (Option PermissionRequestRecord)
  | .hasWaiter .. => Bool
  | .registerWaiter .. => ℕ
  | .receive _ => Option PermissionDecisionEvent
  | .notifyPermissionResolution .. => Unit

def exec (q : EventStep) (input : DbStep.Input) (x : EventState) : q.Answer × EventState :=
  match q with
  | .db q => ((q.exec input x.store).1, { x with store := (q.exec input x.store).2 })
  | .selectPermissionRequest taskId requestId =>
    match input with
    | .ioError => (.error .failure, x)
    | .proceed _ => (.ok (x.store.findPermissionRequest taskId requestId), x)
  | .hasWaiter taskId requestId => ((x.waiter? taskId requestId).isSome, x)
  | .registerWaiter taskId requestId => x.registerWaiter taskId requestId
  | .receive channel => (x.received channel, x)
  | .notifyPermissionResolution taskId decision =>
    ((), x.notifyPermissionResolution taskId decision)

def blocked (x : EventState) : EventStep → Bool
  | .receive channel => decide (x.channels[channel]? = some .waiting)
  | _ => false

end EventStep

/-- How the service reaches the store and the bus: a store call is made of its database steps,
or it is one step of a larger system. -/
structure Access (S : Type) (A : S → Type) where
  tasks : (op : TaskOp) → Call S A TaskEventServiceError op.Result
  ask : (q : EventStep) → Call S A TaskEventServiceError q.Answer

abbrev EventCall (α : Type) : Type := Call EventStep EventStep.Answer TaskEventServiceError α

namespace TaskEventService

section Calls
variable {S : Type} {A : S → Type} (io : Access S A)

def getPermissionRequest (taskId requestId : String) :
    Call S A TaskEventServiceError PermissionRequestRecord := do
  let _ ← io.tasks (.get taskId)
  match ← io.ask (.selectPermissionRequest taskId requestId) with
  | .ok (some request) => return request
  | .ok none => .fail (.task .permissionRequestNotFound)
  | .error _ => .fail (.task .store)

def awaitPermissionDecision (taskId requestId : String) :
    Call S A TaskEventServiceError PermissionDecisionEvent := do
  let request ← getPermissionRequest io taskId requestId
  if request.status ≠ .pending then
    match request.response with
    | some response => return response
    | none => .fail (.task .permissionRequestNotPending)
  else do
    let receiver ← io.ask (.registerWaiter taskId requestId)
    match ← io.ask (.receive receiver) with
    | some decision => return decision
    | none => .fail .permissionResponseNotSupported

/-- The part of `resolve_permission_response` after the resolution is stored. -/
def announceResolution (taskId : String) (resolution : PermissionResolution) :
    Call S A TaskEventServiceError PermissionResolution :=
  match PermissionDecisionEvent.fromValue resolution.event.payload with
  | none => .fail .storePayload
  | some decided => do
    if resolution.duplicated then pure ()
    else do
      let _ ← io.ask (.db (.publish resolution.event))
    io.ask (.notifyPermissionResolution taskId decided)
    return resolution

def resolvePermissionResponse (taskId : String) (response : PermissionResponseRequest) :
    Call S A TaskEventServiceError PermissionResolution := do
  let existing ← getPermissionRequest io taskId response.requestId
  let supported ← if existing.status = .pending then io.ask (.hasWaiter taskId response.requestId)
    else pure true
  if supported then do
    let resolution ← io.tasks (.resolvePermissionRequest taskId response.requestId
      response.decision response.reason)
    announceResolution io taskId resolution
  else .fail .permissionResponseNotSupported

end Calls

def store {α : Type} : TaskCall α → EventCall α :=
  Call.embed EventStep.db (fun _ answer => answer) .task

def ask (q : EventStep) : EventCall q.Answer := Call.perform q

def steps : Access EventStep EventStep.Answer := ⟨fun op => store op.program, ask⟩

end TaskEventService

inductive EventOp
  | store (op : TaskOp)
  | awaitPermissionDecision (taskId requestId : String)
  | resolvePermissionResponse (taskId : String) (response : PermissionResponseRequest)

@[reducible] def EventOp.Result : EventOp → Type
  | .store op => op.Result
  | .awaitPermissionDecision .. => PermissionDecisionEvent
  | .resolvePermissionResponse .. => PermissionResolution

def EventOp.program : (op : EventOp) → EventCall op.Result
  | .store op => TaskEventService.store op.program
  | .awaitPermissionDecision taskId requestId =>
    TaskEventService.awaitPermissionDecision TaskEventService.steps taskId requestId
  | .resolvePermissionResponse taskId response =>
    TaskEventService.resolvePermissionResponse TaskEventService.steps taskId response

abbrev EventThread : Type := Thread EventStep.Answer TaskEventServiceError EventOp.Result

abbrev EventPool : Type := Pool EventState EventStep.Answer TaskEventServiceError EventOp.Result

abbrev EventAction : Type := Action EventOp DbStep.Input

def nextStep? (p : EventPool) : EventAction → Option EventStep
  | .spawn _ => none
  | .advance i _ =>
    match p.threads[i]? with
    | some ⟨_, .step q _⟩ => some q
    | _ => none

/-- A call that waits for its channel does not advance. -/
def eventStep (p : EventPool) (a : EventAction) : Option EventPool :=
  if (nextStep? p a).any (EventStep.blocked p.shared) then none
  else step EventOp.program EventStep.exec p a

end OpenDaemon
