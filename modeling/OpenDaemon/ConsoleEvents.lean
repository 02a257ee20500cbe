import OpenDaemon.JsonValue
import OpenDaemon.LatestEntries

/-!
# The events of a task in the console

The console keeps the events it has received of a task in two places: the list that
`apply_sse_event` maintains and the transcript of the user interface. The stream
replays events after a reconnect, so an event may arrive again and in any order.
-/

namespace OpenDaemon.Console

open LatestEntries

/-- The console's own view of an event: the type is a text here. -/
structure TaskEventView where
  taskId : String
  sequence : ℕ
  type : String
  payload : Value
  createdAt : String

structure EventCursor where
  latestSequence : Option ℕ
  deriving DecidableEq, Repr

def EventCursor.default : EventCursor := ⟨none⟩

def EventCursor.observe (cursor : EventCursor) (event : TaskEventView) : EventCursor :=
  ⟨some (cursor.latestSequence.elim event.sequence fun current => max current event.sequence)⟩

def applySseEvent (events : List TaskEventView) (next : TaskEventView) : List TaskEventView :=
  let retained := events.filter fun event => decide (event.sequence ≠ next.sequence)
  sortByKey TaskEventView.sequence (retained ++ [next])

structure TaskTranscript where
  events : List TaskEventView
  cursor : EventCursor

namespace TaskTranscript

def default : TaskTranscript := ⟨[], .default⟩

def apply (transcript : TaskTranscript) (event : TaskEventView) : TaskTranscript where
  events := sortByKey TaskEventView.sequence (transcript.events ++ [event])
  cursor := transcript.cursor.observe event

def latestCursor (transcript : TaskTranscript) : Option ℕ := transcript.cursor.latestSequence

end TaskTranscript

def received (arrivals : List TaskEventView) : List TaskEventView :=
  arrivals.foldl applySseEvent []

def transcribed (arrivals : List TaskEventView) : TaskTranscript :=
  arrivals.foldl TaskTranscript.apply .default

section Received

variable {arrivals arrivals' : List TaskEventView}

theorem holds_received (arrivals : List TaskEventView) :
    Holds TaskEventView.sequence arrivals (received arrivals) := holds_foldl arrivals

theorem received_append (arrivals arrivals' : List TaskEventView) :
    received (arrivals ++ arrivals') = arrivals'.foldl applySseEvent (received arrivals) :=
  List.foldl_append

/-- The event list is ordered and holds the last event of each sequence. It does not depend on
the order in which events of different sequences arrive, and a replay changes nothing. -/
theorem received_spec (arrivals : List TaskEventView) :
    (received arrivals).Pairwise (fun a b => a.sequence < b.sequence) ∧
    (∀ event, event ∈ received arrivals ↔ ∃ before after,
      arrivals = before ++ event :: after ∧ ∀ e ∈ after, e.sequence ≠ event.sequence) ∧
    (∀ event ∈ arrivals, ∃ e ∈ received arrivals, e.sequence = event.sequence) ∧
    (∀ arrivals', arrivals.Perm arrivals' → (arrivals.map TaskEventView.sequence).Nodup →
      received arrivals' = received arrivals) ∧
    ∀ replayed, replayed <:+ arrivals →
      replayed.foldl applySseEvent (received arrivals) = received arrivals := by
  have h := holds_received arrivals
  refine ⟨h.ordered, ?_, ?_, ?_, ?_⟩
  · intro event
    rw [h.mem_iff, latest_eq_some_iff]
    exact ⟨fun hlast => hlast.2, fun hlast => ⟨rfl, hlast⟩⟩
  · intro event hevent
    obtain ⟨e, he⟩ : ∃ e, latest TaskEventView.sequence arrivals event.sequence = some e :=
      exists_latest hevent
    have hsame := key_of_latest he
    refine ⟨e, (h.mem_iff e).mpr ?_, hsame⟩
    rw [hsame]
    exact he
  · intro arrivals' hperm hnodup
    refine (holds_received arrivals').eq_of_latest h fun k => ?_
    exact (latest_perm hperm hnodup k).symm
  · intro replayed hreplayed
    rw [← received_append]
    exact (holds_received _).eq_of_latest h fun k => latest_replay hreplayed

def startedEvent : TaskEventView := ⟨"task_1", 1, "task.running", .emptyObject, "t1"⟩

def outputEvent : TaskEventView := ⟨"task_1", 2, "process.stdout", .emptyObject, "t2"⟩

theorem received_swapped :
    received [startedEvent, outputEvent] = received [outputEvent, startedEvent] ∧
    [startedEvent].foldl applySseEvent (received [outputEvent, startedEvent]) =
      received [outputEvent, startedEvent] := by
  obtain ⟨-, -, -, hperm, hreplay⟩ := received_spec [outputEvent, startedEvent]
  exact ⟨hperm _ (.swap startedEvent outputEvent []) (by decide),
    hreplay _ ⟨[outputEvent], rfl⟩⟩

end Received

section Transcribed

theorem transcribed_concat (arrivals : List TaskEventView) (event : TaskEventView) :
    transcribed (arrivals ++ [event]) = (transcribed arrivals).apply event := by
  simp [transcribed, List.foldl_append]

theorem transcribed_perm (arrivals : List TaskEventView) :
    (transcribed arrivals).events.Perm arrivals := by
  induction arrivals using List.reverseRecOn with
  | nil => exact .refl []
  | append_singleton arrivals event ih =>
    rw [transcribed_concat]
    exact (sortByKey_perm _).trans (ih.append_right [event])

theorem transcribed_sorted (arrivals : List TaskEventView) :
    (transcribed arrivals).events.Pairwise fun a b => a.sequence ≤ b.sequence := by
  induction arrivals using List.reverseRecOn with
  | nil => exact List.Pairwise.nil
  | append_singleton arrivals event ih =>
    rw [transcribed_concat]
    exact sortByKey_pairwise _

theorem max?_concat (l : List ℕ) (n : ℕ) :
    (l ++ [n]).max? = some (l.max?.elim n fun m => max m n) := by
  cases l with
  | nil => rfl
  | cons m l =>
    rw [List.cons_append, List.max?_cons', List.max?_cons', List.foldl_append]
    rfl

theorem latestCursor_transcribed (arrivals : List TaskEventView) :
    (transcribed arrivals).latestCursor = (arrivals.map TaskEventView.sequence).max? := by
  induction arrivals using List.reverseRecOn with
  | nil => rfl
  | append_singleton arrivals event ih =>
    rw [transcribed_concat, List.map_append, List.map_singleton, max?_concat, ← ih]
    rfl

/-- The transcript agrees with the event list exactly when no sequence arrives twice: it keeps
what is replayed a second time. -/
theorem transcribed_agrees_iff (arrivals : List TaskEventView) :
    ((transcribed arrivals).events = received arrivals ∧
      (transcribed arrivals).latestCursor = (arrivals.map TaskEventView.sequence).max?) ↔
      (arrivals.map TaskEventView.sequence).Nodup := by
  have hiff := holds_sorted_iff (transcribed_perm arrivals) (transcribed_sorted arrivals)
  constructor
  · rintro ⟨hevents, -⟩
    rw [← hiff, hevents]
    exact holds_received arrivals
  · intro hnodup
    refine ⟨?_, latestCursor_transcribed arrivals⟩
    exact (hiff.mpr hnodup).eq_of_latest (holds_received arrivals) fun _ => rfl

theorem replayed_event_kept :
    ¬ ∀ arrivals, (transcribed arrivals).events = received arrivals ∧
      (transcribed arrivals).latestCursor = (arrivals.map TaskEventView.sequence).max? := by
  intro hall
  have hevents := (hall [startedEvent, startedEvent]).1
  have hlength := congrArg List.length hevents
  have htwo : (transcribed [startedEvent, startedEvent]).events.length = 2 :=
    (transcribed_perm _).length_eq
  have hone : received [startedEvent, startedEvent] = [startedEvent] := by
    simp [received, applySseEvent, sortByKey]
  rw [htwo, hone] at hlength
  simp at hlength

end Transcribed

end OpenDaemon.Console
