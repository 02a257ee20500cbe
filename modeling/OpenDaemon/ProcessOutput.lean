import OpenDaemon.AcpSession
import OpenDaemon.ProviderCommand
import OpenDaemon.Utf8

/-!
# Recorded process output

What a provider writes becomes events. The CLI adapter reads each stream to its end,
keeps the first 64 KiB of it and decodes them, with a replacement character for what is
not UTF-8. The ACP adapter makes one event of each line of the error stream and of each
message, whatever its length; `run_readStderr` has the session read them one by one.
-/

namespace OpenDaemon

open ByteText Utf8 Runs

def maxEventBytes : ℕ := 64 * 1024

namespace LocalCliAdapter

def cappedText (bytes : List UInt8) : String :=
  String.ofList (decodeLossy (bytes.take (min bytes.length maxEventBytes)))

def outputEvent (kind : TaskEventType) (stream : String) (bytes : List UInt8) :
    List RuntimeOutputEvent :=
  if bytes.isEmpty then []
  else [⟨kind, .object [("text", .string (cappedText bytes)), ("stream", .string stream)]⟩]

def outputEvents (stdout stderr : List UInt8) : List RuntimeOutputEvent :=
  outputEvent .processStdout "stdout" stdout ++ outputEvent .processStderr "stderr" stderr

end LocalCliAdapter

namespace Acp

def stderrEvent (line : String) : RuntimeOutputEvent :=
  ⟨.processStderr, .object [("text", .string line), ("stream", .string "stderr")]⟩

/-- What `next_line` yields, up to the first line that is not UTF-8. -/
def readText : List (List UInt8) → List String
  | [] => []
  | line :: lines =>
    match decode line with
    | none => []
    | some text => String.ofList text :: readText lines

def outputLines (bytes : List UInt8) : List (List UInt8) := splitLines 0x0A 0x0D bytes

def readStderr (bytes : List UInt8) : List RuntimeOutputEvent :=
  (readText (outputLines bytes)).map stderrEvent

/-- A session that reads these lines gets these events. -/
theorem run_readStderr {setup : Setup} {x : Session} (lines : List String)
    (hopen : x.stderrOpen = true) :
    run (sessionStep setup) x (lines.map fun line => .readStderr (some line)) =
      some { x with stderr := x.stderr ++ lines.map stderrEvent } := by
  induction lines generalizing x with
  | nil => simp [run]
  | cons line lines ih =>
    have hstep : sessionStep setup x (.readStderr (some line)) =
        some { x with stderr := x.stderr ++ [stderrEvent line] } := by
      simp only [sessionStep, hopen, if_true]
      rfl
    rw [List.map_cons, run, hstep, Option.bind_some]
    refine (ih (x := { x with stderr := x.stderr ++ [stderrEvent line] }) hopen).trans ?_
    simp

end Acp

section Cap

def RuntimeOutputEvent.Capped (event : RuntimeOutputEvent) : Prop :=
  (event.kind = .processStdout ∨ event.kind = .processStderr) →
    ∀ text, event.payload.strAt "text" = some text → byteLength text.toList ≤ maxEventBytes

/-- The text of output of this kind is the start of the output, if that is text. -/
def RuntimeOutputEvent.Starts (event : RuntimeOutputEvent) (kind : TaskEventType)
    (output : List UInt8) : Prop :=
  event.kind = kind → Valid output →
    ∀ text, event.payload.strAt "text" = some text → encode text.toList <+: output

/-- The replacements do not lengthen what is kept beyond the cap, and the cap does not cut a
character of a text. -/
structure FitsCap (output : List UInt8) : Prop where
  replaced : (output.take maxEventBytes).length + 3 * (illFormed (output.take maxEventBytes)).length ≤
    maxEventBytes + (illFormed (output.take maxEventBytes)).flatten.length
  whole : Valid output → Valid (output.take maxEventBytes)

theorem toList_cappedText (output : List UInt8) :
    (LocalCliAdapter.cappedText output).toList = decodeLossy (output.take maxEventBytes) := by
  rw [LocalCliAdapter.cappedText, String.toList_ofList, Nat.min_comm, ← List.take_eq_take_min]

theorem byteLength_cappedText_le_iff (output : List UInt8) :
    byteLength (LocalCliAdapter.cappedText output).toList ≤ maxEventBytes ↔
      (output.take maxEventBytes).length + 3 * (illFormed (output.take maxEventBytes)).length ≤
        maxEventBytes + (illFormed (output.take maxEventBytes)).flatten.length := by
  have hlength := byteLength_decodeLossy (output.take maxEventBytes)
  rw [toList_cappedText]
  omega

theorem encode_cappedText (output : List UInt8) (h : Valid (output.take maxEventBytes)) :
    encode (LocalCliAdapter.cappedText output).toList = output.take maxEventBytes := by
  rw [toList_cappedText]
  obtain ⟨text, htext⟩ := h
  rw [htext, decodeLossy_encode]

/-- Where the cap cuts a character, the text grows by the replacement character or differs from
the output: the part of a character of four bytes is not longer than the replacement, but no
such character starts like it. -/
theorem cut_not_faithful {text : List Char} (hcut : ¬ Valid ((encode text).take maxEventBytes))
    (hcapped : byteLength (LocalCliAdapter.cappedText (encode text)).toList ≤ maxEventBytes) :
    ¬ encode (LocalCliAdapter.cappedText (encode text)).toList <+: encode text := by
  rcases exists_cut text maxEventBytes with ⟨before, after, -, hbefore⟩ |
    ⟨before, c, after, part, rest, htext, hsplit, hpart, hrest, hbefore⟩
  · exact absurd ⟨before, hbefore⟩ hcut
  · have hencoded : encode text = encode before ++ (part ++ (rest ++ encode after)) := by
      rw [htext, encode_append, encode_cons, hsplit, List.append_assoc]
    have hpos := List.length_pos_of_ne_nil hrest
    have hfull : byteLength before + part.length = maxEventBytes := by
      have htake := congrArg List.length hbefore
      rw [hencoded] at htake
      simp only [List.length_take, List.length_append, length_encode] at htake
      omega
    rw [toList_cappedText, hbefore, decodeLossy_cut before hsplit hpart hrest] at hcapped ⊢
    have hreplacement : byteLength [Char.ofNat 0xFFFD] = 3 := by decide
    rw [byteLength_append, hreplacement] at hcapped
    obtain ⟨first, second, third, part, rfl⟩ :
        ∃ first second third more, part = first :: second :: third :: more := by
      match part, hpart with
      | [_], _ | [_, _], _ =>
        simp only [List.length_cons, List.length_nil] at hfull
        omega
      | first :: second :: third :: more, _ => exact ⟨first, second, third, more, rfl⟩
    obtain ⟨fourth, rest', hfour⟩ : ∃ fourth rest', part ++ rest = fourth :: rest' :=
      List.exists_cons_of_ne_nil (by simp [hrest])
    have hbytes : String.utf8EncodeChar c = first :: second :: third :: fourth :: rest' := by
      rw [hsplit]
      simp [hfour]
    have hlead := continues_of_encodeChar hbytes
    rw [encode_append, hencoded, List.prefix_append_right_inj]
    rintro ⟨more, hmore⟩
    obtain rfl : 0xEF = first := (List.cons.inj hmore).1
    simp at hlead

theorem cappedText_iff (output : List UInt8) :
    (byteLength (LocalCliAdapter.cappedText output).toList ≤ maxEventBytes ∧
      (Valid output → encode (LocalCliAdapter.cappedText output).toList <+: output)) ↔
      FitsCap output := by
  constructor
  · rintro ⟨hcapped, hstarts⟩
    refine ⟨(byteLength_cappedText_le_iff output).mp hcapped, ?_⟩
    rintro ⟨text, rfl⟩
    by_contra hcut
    exact cut_not_faithful hcut hcapped (hstarts ⟨text, rfl⟩)
  · rintro ⟨hreplaced, hwhole⟩
    refine ⟨(byteLength_cappedText_le_iff output).mpr hreplaced, fun hvalid => ?_⟩
    rw [encode_cappedText output (hwhole hvalid)]
    exact List.take_prefix maxEventBytes output

theorem forall_outputEvent {P : RuntimeOutputEvent → Prop} {kind : TaskEventType} {stream : String}
    {output : List UInt8} :
    (∀ event ∈ LocalCliAdapter.outputEvent kind stream output, P event) ↔
      (output ≠ [] → P ⟨kind, .object [("text", .string (LocalCliAdapter.cappedText output)),
        ("stream", .string stream)]⟩) := by
  unfold LocalCliAdapter.outputEvent
  cases output with
  | nil => simp
  | cons byte output => simp

theorem fitsCap_nil : FitsCap [] := by
  have hnone : illFormed [] = [] := illFormed_encode []
  constructor
  · rw [List.take_nil, hnone]
    simp
  · intro hvalid
    rw [List.take_nil]
    exact hvalid

theorem strAt_text (text : String) (rest : List (String × Value)) :
    (Value.object (("text", .string text) :: rest)).strAt "text" = some text := rfl

theorem outputEvent_iff {kind : TaskEventType} {stream : String} {output : List UInt8}
    (hkind : kind = .processStdout ∨ kind = .processStderr) :
    (∀ event ∈ LocalCliAdapter.outputEvent kind stream output,
      event.Capped ∧ event.Starts kind output) ↔ FitsCap output := by
  rw [forall_outputEvent]
  by_cases hempty : output = []
  · subst hempty
    simp [fitsCap_nil]
  · simp only [ne_eq, hempty, not_false_eq_true, forall_true_left, RuntimeOutputEvent.Capped,
      RuntimeOutputEvent.Starts, hkind, strAt_text, Option.some.injEq, forall_eq',
      ← cappedText_iff]

theorem kind_of_mem_outputEvent {kind : TaskEventType} {stream : String} {output : List UInt8}
    {event : RuntimeOutputEvent}
    (h : event ∈ LocalCliAdapter.outputEvent kind stream output) : event.kind = kind := by
  unfold LocalCliAdapter.outputEvent at h
  split_ifs at h
  · cases h
  · rw [List.mem_singleton.mp h]

theorem starts_of_kind_ne {event : RuntimeOutputEvent} {kind : TaskEventType}
    {output : List UInt8} (h : event.kind ≠ kind) : event.Starts kind output :=
  fun hkind => absurd hkind h

theorem forall_readText (lines : List (List UInt8)) :
    (∀ text ∈ Acp.readText lines, byteLength text.toList ≤ maxEventBytes) ↔
      ∀ line ∈ lines.takeWhile (fun line => (decode line).isSome), line.length ≤ maxEventBytes := by
  induction lines with
  | nil => simp [Acp.readText]
  | cons line lines ih =>
    cases hline : decode line with
    | none => simp [Acp.readText, hline]
    | some text =>
      have hlength : line.length = byteLength text := by
        rw [eq_encode_of_decode hline, length_encode]
      simp [Acp.readText, hline, ih, hlength]

theorem stderrEvent_capped_iff (line : String) :
    (Acp.stderrEvent line).Capped ↔ byteLength line.toList ≤ maxEventBytes := by
  simp [RuntimeOutputEvent.Capped, Acp.stderrEvent, strAt_text]

theorem normalizeAcpEvent_capped_iff (frame : Value) :
    (∀ event, Acp.normalizeAcpEvent frame = some event → event.Capped) ↔
      (frame.strAt "type" = some "message.delta" →
        ∀ text, frame.strAt "text" = some text → byteLength text.toList ≤ maxEventBytes) := by
  unfold Acp.normalizeAcpEvent
  split
  · rename_i htype
    simp only [Option.some.injEq, forall_eq', RuntimeOutputEvent.Capped, strAt_text, htype,
      true_or, forall_true_left]
    cases hframe : frame.strAt "text" with
    | none => simp [byteLength]
    | some text => simp
  · rename_i htype
    simp [RuntimeOutputEvent.Capped, htype]
  · rename_i hdelta _
    simp only [reduceCtorEq, false_implies, implies_true, true_iff]
    exact fun htype => absurd htype hdelta

/-- Recorded output is capped, and faithful for the CLI adapter, exactly when each stream of the
CLI adapter fits into the cap and no line or message of the ACP adapter is longer than it. -/
theorem recorded_output_iff (stdout stderr acpStderr : List UInt8) (frame : Value) :
    ((∀ event ∈ LocalCliAdapter.outputEvents stdout stderr, event.Capped ∧
        event.Starts .processStdout stdout ∧ event.Starts .processStderr stderr) ∧
      (∀ event ∈ Acp.readStderr acpStderr, event.Capped) ∧
      ∀ event, Acp.normalizeAcpEvent frame = some event → event.Capped) ↔
    (FitsCap stdout ∧ FitsCap stderr) ∧
      (∀ line ∈ (Acp.outputLines acpStderr).takeWhile (fun line => (decode line).isSome),
        line.length ≤ maxEventBytes) ∧
      (frame.strAt "type" = some "message.delta" →
        ∀ text, frame.strAt "text" = some text → byteLength text.toList ≤ maxEventBytes) := by
  refine and_congr ?_ (and_congr ?_ (normalizeAcpEvent_capped_iff frame))
  · rw [LocalCliAdapter.outputEvents, List.forall_mem_append]
    refine and_congr ?_ ?_
    · refine Iff.trans (forall₂_congr fun event hevent => ?_) (outputEvent_iff (.inl rfl))
      have hother : event.Starts .processStderr stderr :=
        starts_of_kind_ne (by rw [kind_of_mem_outputEvent hevent]; decide)
      simp [hother]
    · refine Iff.trans (forall₂_congr fun event hevent => ?_) (outputEvent_iff (.inr rfl))
      have hother : event.Starts .processStdout stdout :=
        starts_of_kind_ne (by rw [kind_of_mem_outputEvent hevent]; decide)
      simp [hother]
  · simp only [Acp.readStderr, List.forall_mem_map, stderrEvent_capped_iff]
    exact forall_readText _

/-- Letters up to one byte before the cap, and then an `é`, which takes two bytes. -/
def cutOutput : List UInt8 := encode (List.replicate 65535 'a' ++ ['é'])

theorem not_fitsCap_cutOutput : ¬ FitsCap cutOutput := by
  intro hfits
  have hsplit : String.utf8EncodeChar 'é' = [0xC3] ++ [0xA9] := by decide
  have hlength : (encode (List.replicate 65535 'a')).length = 65535 := by
    rw [length_encode, byteLength, List.map_replicate, List.sum_replicate_nat]
    rfl
  have htake : cutOutput.take maxEventBytes = encode (List.replicate 65535 'a') ++ [0xC3] := by
    rw [cutOutput, encode_append, encode_cons, hsplit, List.take_append, hlength,
      List.take_of_length_le (by rw [hlength]; decide)]
    rfl
  have hvalid := hfits.whole ⟨_, rfl⟩
  rw [htake] at hvalid
  exact not_valid_cut _ hsplit (by simp) (by simp) hvalid

theorem cut_output_recorded :
    ¬ ∀ (stdout stderr acpStderr : List UInt8) (frame : Value),
      (∀ event ∈ LocalCliAdapter.outputEvents stdout stderr, event.Capped ∧
        event.Starts .processStdout stdout ∧ event.Starts .processStderr stderr) ∧
      (∀ event ∈ Acp.readStderr acpStderr, event.Capped) ∧
      ∀ event, Acp.normalizeAcpEvent frame = some event → event.Capped := by
  intro hall
  have hevents := (hall cutOutput [] [] .null).1
  apply not_fitsCap_cutOutput
  rw [← outputEvent_iff (.inl rfl)]
  intro event hevent
  obtain ⟨hcapped, hstarts, -⟩ := hevents event (List.mem_append_left _ hevent)
  exact ⟨hcapped, hstarts⟩

end Cap

end OpenDaemon
