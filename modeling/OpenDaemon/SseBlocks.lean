import OpenDaemon.ByteText
import OpenDaemon.ConsoleEvents
import OpenDaemon.MergePatch

/-!
# Blocks of the event stream

The daemon writes an event as a block of fields, a line each, with the JSON text of the
event as its data. The console reads the lines of a block back, by a type of its own for
the event. What prints and parses JSON is a parameter.
-/

namespace OpenDaemon

open ByteText

def TaskEventType.asStr : TaskEventType → String
  | .queued => "task.queued"
  | .waitingDirectoryLock => "task.waiting_directory_lock"
  | .preparing => "task.preparing"
  | .running => "task.running"
  | .completed => "task.completed"
  | .failed => "task.failed"
  | .cancelled => "task.cancelled"
  | .timedOut => "task.timed_out"
  | .processStdout => "process.stdout"
  | .processStderr => "process.stderr"
  | .providerPermissionRequested => "provider.permission_requested"
  | .providerPermissionDecided => "provider.permission_decided"

/-- The `TaskEventView` of the daemon as a JSON value. -/
def TaskEvent.view (event : TaskEvent) : Value :=
  .object [("task_id", .string event.taskId), ("sequence", .number (toString event.sequence)),
    ("type", .string event.eventType.asStr), ("payload", event.payload),
    ("created_at", .string event.createdAt)]

/-- `to_string` and `from_str` of `serde_json`, and its complaint about a value of another
shape. -/
structure Serde where
  print : Value → String
  parse : String → Except String Value
  shapeError : Value → String

/-- The object is printed in compact form, on one line and with no white space in front, and its
text is parsed back. -/
structure Serde.Prints (serde : Serde) (object : Value) : Prop where
  parse_print : serde.parse (serde.print object) = .ok object
  noLineFeed : '\n' ∉ (serde.print object).toList
  noReturn : '\r' ∉ (serde.print object).toList
  compact : ∀ c ∈ (serde.print object).toList.head?, isWhiteSpace c = false

section Daemon

/-- A field as `axum` writes it. -/
def sseField (name : String) (value : List Char) : List Char :=
  (name.toList ++ ':' :: ' ' :: value) ++ ['\n']

def sseBlock (serde : Serde) : TaskStreamFrame → List Char
  | .event event =>
    sseField "id" (toString event.sequence).toList ++
    sseField "event" event.eventType.asStr.toList ++
    ((serde.print event.view).toList.splitOn '\n').flatMap (sseField "data") ++ ['\n']
  | .heartbeat => sseField "" "keep-alive".toList ++ ['\n']

end Daemon

namespace Console

def TaskEventView.fieldNames : List String :=
  ["task_id", "sequence", "type", "payload", "created_at"]

def TaskEventView.fromBody (body : Value) : Option TaskEventView :=
  if ProductsApi.repeatsField fieldNames body then none
  else
    match body.structFields fieldNames with
    | some [taskId, sequence, type, payload, createdAt] => do
      return {
        taskId := ← taskId.bind Value.asStr
        sequence := ← sequence.bind Value.asU64
        type := ← type.bind Value.asStr
        payload := ← payload
        createdAt := ← createdAt.bind Value.asStr }
    | _ => none

def decodeEvent (serde : Serde) (text : String) : Except String TaskEventView :=
  match serde.parse text with
  | .error error => .error error
  | .ok body =>
    match TaskEventView.fromBody body with
    | some view => .ok view
    | none => .error (serde.shapeError body)

def dataOf (line : List Char) : Option (List Char) :=
  if line.isEmpty || ":".toList.isPrefixOf line || "event:".toList.isPrefixOf line then none
  else if "data:".toList.isPrefixOf line then
    some ((line.drop "data:".length).dropWhile isWhiteSpace)
  else none

/-- The errors are the texts in `ConsoleApiError::Decode`. -/
def parseSseBlock (serde : Serde) (block : List Char) : Except String (Option TaskEventView) :=
  match (splitLines '\n' '\r' block).filterMap dataOf with
  | [] => .ok none
  | data => (decodeEvent serde (String.ofList (['\n'].intercalate data))).map some

section RoundTrip

variable {serde : Serde} {event : TaskEvent}

theorem isDigit_of_mem_toString {n : ℕ} {c : Char} (hc : c ∈ (toString n).toList) : c.isDigit := by
  rw [Nat.toString_eq_repr, Nat.toList_repr] at hc
  exact Nat.isDigit_of_mem_toDigits (by decide) (by decide) hc

theorem parseDigits_toString (n : ℕ) : parseDigits (toString n).toList = some n := by
  rw [Nat.toString_eq_repr, Nat.toList_repr]
  have hne : (Nat.toDigits 10 n).isEmpty = false :=
    List.isEmpty_eq_false_iff.mpr Nat.toDigits_ne_nil
  have hdigits : (Nat.toDigits 10 n).all Char.isDigit = true :=
    List.all_eq_true.mpr fun c hc => Nat.isDigit_of_mem_toDigits (by decide) (by decide) hc
  rw [parseDigits, hne, hdigits]
  exact congrArg some Nat.ofDigitChars_ten_toDigits

theorem fromBody_view (hseq : event.sequence < i64Bound) :
    TaskEventView.fromBody event.view =
      some ⟨event.taskId, event.sequence, event.eventType.asStr, event.payload,
        event.createdAt⟩ := by
  have hu64 : event.sequence < UInt64.size := Nat.lt_trans hseq (by decide)
  have hsequence : Value.asU64 (.number (toString event.sequence)) = some event.sequence := by
    rw [Value.asU64, parseDigits_toString, Option.filter_some, if_pos (decide_eq_true hu64)]
  have hrepeats : ProductsApi.repeatsField TaskEventView.fieldNames event.view = false := by
    rfl
  have hfields : event.view.structFields TaskEventView.fieldNames =
      some [some (.string event.taskId), some (.number (toString event.sequence)),
        some (.string event.eventType.asStr), some event.payload,
        some (.string event.createdAt)] := by
    rfl
  rw [TaskEventView.fromBody, hrepeats, hfields]
  simp only [Bool.false_eq_true, if_false, Option.bind_some, hsequence, Value.asStr]
  rfl

def eventLines (serde : Serde) (event : TaskEvent) : List (List Char) :=
  ["id: ".toList ++ (toString event.sequence).toList,
    "event: ".toList ++ event.eventType.asStr.toList,
    "data: ".toList ++ (serde.print event.view).toList, []]

theorem sseBlock_event (h : serde.Prints event.view) :
    sseBlock serde (.event event) = (eventLines serde event).flatMap (· ++ ['\n']) := by
  rw [sseBlock, List.splitOn_eq_singleton h.noLineFeed]
  simp [eventLines, sseField]

theorem not_mem_asStr (type : TaskEventType) :
    '\n' ∉ type.asStr.toList ∧ '\r' ∉ type.asStr.toList := by
  cases type <;> decide

theorem not_mem_toString {n : ℕ} {c : Char} (hc : c.isDigit = false) :
    c ∉ (toString n).toList := by
  intro hmem
  rw [isDigit_of_mem_toString hmem] at hc
  cases hc

theorem splitLines_sseBlock (h : serde.Prints event.view) :
    splitLines '\n' '\r' (sseBlock serde (.event event)) = eventLines serde event := by
  rw [sseBlock_event h]
  refine splitLines_flatMap ?_
  have hclean : ∀ line ∈ eventLines serde event, '\n' ∉ line ∧ '\r' ∉ line := by
    have htype := not_mem_asStr event.eventType
    simp only [eventLines, List.forall_mem_cons, List.mem_append, not_or]
    refine ⟨⟨⟨by decide, not_mem_toString (by decide)⟩, by decide, not_mem_toString (by decide)⟩,
      ⟨⟨by decide, htype.1⟩, by decide, htype.2⟩,
      ⟨⟨by decide, h.noLineFeed⟩, by decide, h.noReturn⟩, by simp⟩
  intro line hline
  obtain ⟨hlf, hcr⟩ := hclean line hline
  exact ⟨hlf, fun hlast => hcr (List.mem_of_getLast? hlast)⟩

theorem filterMap_eventLines (h : serde.Prints event.view) :
    (eventLines serde event).filterMap dataOf = [(serde.print event.view).toList] := by
  have hid : dataOf ("id: ".toList ++ (toString event.sequence).toList) = none := rfl
  have hevent : dataOf ("event: ".toList ++ event.eventType.asStr.toList) = none := rfl
  have hdata : dataOf ("data: ".toList ++ (serde.print event.view).toList) =
      some ((' ' :: (serde.print event.view).toList).dropWhile isWhiteSpace) := rfl
  have hempty : dataOf [] = none := rfl
  have htrim : (' ' :: (serde.print event.view).toList).dropWhile isWhiteSpace =
      (serde.print event.view).toList := by
    rw [List.dropWhile_cons_of_pos (by decide)]
    have hcompact := h.compact
    cases htext : (serde.print event.view).toList with
    | nil => rfl
    | cons c rest =>
      have hc : isWhiteSpace c = false := hcompact c (by simp [htext])
      rw [List.dropWhile_cons_of_neg (by simp [hc])]
  simp only [eventLines, List.filterMap_cons, hid, hevent, hdata, hempty, htrim,
    List.filterMap_nil]

/-- What the daemon writes of an event is read by the console as the same event, and what it
writes to keep the connection alive as none. -/
theorem parseSseBlock_sseBlock (hseq : event.sequence < i64Bound)
    (hserde : serde.Prints event.view) :
    (∃ view, parseSseBlock serde (sseBlock serde (.event event)) = .ok (some view) ∧
      view.taskId = event.taskId ∧ view.sequence = event.sequence ∧
      view.type = event.eventType.asStr ∧ view.payload = event.payload ∧
      view.createdAt = event.createdAt) ∧
    parseSseBlock serde (sseBlock serde .heartbeat) = .ok none := by
  constructor
  · refine ⟨⟨event.taskId, event.sequence, event.eventType.asStr, event.payload,
      event.createdAt⟩, ?_, rfl, rfl, rfl, rfl, rfl⟩
    rw [parseSseBlock, splitLines_sseBlock hserde, filterMap_eventLines hserde]
    simp only [List.intercalate_singleton, String.ofList_toList, decodeEvent,
      hserde.parse_print, fromBody_view hseq]
    rfl
  · rfl

end RoundTrip

def sampleEvent : TaskEvent where
  id := "event_1"
  taskId := "task_1"
  sequence := 7
  eventType := .processStdout
  payload := .object [("text", .string " a:\r\nb")]
  createdAt := "2026-06-16T00:00:00Z"

def sampleEventText : String :=
  "\x7b\"task_id\":\"task_1\",\"sequence\":7,\"type\":\"process.stdout\"," ++
    "\"payload\":\x7b\"text\":\" a:\\r\\nb\"\x7d,\"created_at\":\"2026-06-16T00:00:00Z\"\x7d"

def sampleSerde : Serde where
  print _ := sampleEventText
  parse text := if text = sampleEventText then .ok sampleEvent.view else .error "expected value"
  shapeError _ := "invalid type"

theorem sampleSerde_prints : sampleSerde.Prints sampleEvent.view where
  parse_print := rfl
  noLineFeed := by decide +kernel
  noReturn := by decide +kernel
  compact c hc := by
    have hhead : (sampleSerde.print sampleEvent.view).toList.head? = some '{' := by
      decide +kernel
    rw [hhead] at hc
    obtain rfl := Option.some.inj hc
    rfl

theorem parseSseBlock_sampleEvent :
    (∃ view, parseSseBlock sampleSerde (sseBlock sampleSerde (.event sampleEvent)) =
        .ok (some view) ∧
      view.taskId = "task_1" ∧ view.sequence = 7 ∧ view.type = "process.stdout" ∧
      view.payload = sampleEvent.payload ∧ view.createdAt = "2026-06-16T00:00:00Z") ∧
    parseSseBlock sampleSerde (sseBlock sampleSerde .heartbeat) = .ok none :=
  parseSseBlock_sseBlock (by decide) sampleSerde_prints

end Console

end OpenDaemon
