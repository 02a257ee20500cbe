import OpenDaemon.EventService

/-!
# One event stream

`TaskEventService::stream` as a machine that reads the store and the bus: it
reads the status, subscribes, queries the replay, sends it, and then follows the
bus until a terminal event. Each step is atomic, and writers may come between
any two of them. A receiver that has fallen behind the 256 messages that the
channel retains is told so, goes on with the oldest of them and queries the
store for what it has missed.
-/

namespace OpenDaemon

open Store

def isTerminalEventType : TaskEventType → Bool
  | .completed | .failed | .cancelled | .timedOut => true
  | _ => false

def parseDigits (digits : List Char) : Option ℕ :=
  if digits.isEmpty || !digits.all Char.isDigit then none
  else some (digits.foldl (fun n c => 10 * n + (c.toNat - '0'.toNat)) 0)

def i64Bound : ℕ := 9223372036854775808

/-- `str::parse::<i64>`: an optional sign and decimal digits, within the range of the type. -/
def parseI64 (raw : String) : Option ℤ :=
  match raw.toList with
  | '-' :: digits => ((parseDigits digits).filter fun n => decide (n ≤ i64Bound)).map fun n => -(n : ℤ)
  | '+' :: digits => ((parseDigits digits).filter fun n => decide (n < i64Bound)).map fun n => (n : ℤ)
  | digits => ((parseDigits digits).filter fun n => decide (n < i64Bound)).map fun n => (n : ℤ)

def TaskEventService.parseCursor (cursor lastEventId : Option String) :
    Except TaskEventServiceError ℕ :=
  match (parseI64 ((cursor.or lastEventId).getD "0")).filter fun value => decide (0 ≤ value) with
  | some value => .ok value.toNat
  | none => .error .invalidCursor

/-- The events of a task are kept in sequence order, the order that the query asks for. -/
def Store.listEventsAfter (s : Store) (taskId : String) (cursor : ℕ) : List TaskEvent :=
  (s.eventsOf taskId).filter fun event => decide (cursor < event.sequence)

def busCapacity : ℕ := 256

inductive TaskStreamFrame
  | event (event : TaskEvent)
  | heartbeat

def TaskStreamFrame.event? : TaskStreamFrame → Option TaskEvent
  | .event e => some e
  | .heartbeat => none

inductive StreamPhase
  | reading
  | subscribing (ended : Bool)
  | querying (ended : Bool)
  | replaying (pending : List TaskEvent) (shouldTail : Bool)
  | tailing
  | lagged
  | recovering (pending : List TaskEvent)
  | closed

structure Stream where
  taskId : String
  cursor : ℕ
  phase : StreamPhase
  position : ℕ
  highest : ℕ
  sent : List TaskStreamFrame

namespace Stream

def start (taskId : String) (cursor : ℕ) : Stream := ⟨taskId, cursor, .reading, 0, cursor, []⟩

def frames (st : Stream) : List TaskEvent := st.sent.filterMap TaskStreamFrame.event?

def send (st : Stream) (event : TaskEvent) (phase : StreamPhase) : Stream :=
  { st with phase := phase, highest := event.sequence, sent := st.sent ++ [.event event] }

/-- The phase after an event of the tail was sent: a terminal event ends the stream. -/
def after (event : TaskEvent) (phase : StreamPhase) : StreamPhase :=
  if isTerminalEventType event.eventType then .closed else phase

def query (st : Stream) (s : Store) (ended : Bool) : Stream :=
  let replay := s.listEventsAfter st.taskId st.cursor
  { st with
    highest := st.cursor
    phase := .replaying replay
      (!ended && !replay.getLast?.any fun event => isTerminalEventType event.eventType) }

def receive (st : Stream) (s : Store) : Option Stream :=
  if st.position + busCapacity < s.published.length then
    some { st with position := s.published.length - busCapacity, phase := .lagged }
  else
    match s.published[st.position]? with
    | none => none
    | some event =>
      if event.taskId ≠ st.taskId ∨ event.sequence ≤ st.highest then
        some { st with position := st.position + 1 }
      else some ({ st with position := st.position + 1 }.send event (after event .tailing))

def advance (st : Stream) (s : Store) : Option Stream :=
  match st.phase with
  | .reading =>
    match s.findTask st.taskId with
    | some task => some { st with phase := .subscribing task.status.isTerminal }
    | none => some { st with phase := .closed }
  | .subscribing ended => some { st with phase := .querying ended, position := s.published.length }
  | .querying ended => some (st.query s ended)
  | .replaying [] shouldTail => some { st with phase := if shouldTail then .tailing else .closed }
  | .replaying (event :: pending) shouldTail => some (st.send event (.replaying pending shouldTail))
  | .tailing => st.receive s
  | .lagged => some { st with phase := .recovering (s.listEventsAfter st.taskId st.highest) }
  | .recovering [] => some { st with phase := .tailing }
  | .recovering (event :: pending) =>
    if event.sequence ≤ st.highest then some { st with phase := .recovering pending }
    else some (st.send event (after event (.recovering pending)))
  | .closed => none

end Stream

/-- A step of the stream: its next one, a heartbeat, or its end because the client is gone, a
query failed or the bus is closed. -/
inductive StreamAction
  | advance
  | heartbeat
  | stop
  deriving DecidableEq, Repr

def streamStep (s : Store) (st : Stream) : StreamAction → Option Stream
  | .advance => st.advance s
  | .heartbeat =>
    match st.phase with
    | .tailing => some { st with sent := st.sent ++ [.heartbeat] }
    | _ => none
  | .stop => some { st with phase := .closed }

end OpenDaemon
