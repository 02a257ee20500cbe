import OpenDaemon.EventStream
import OpenDaemon.EventThreads

/-!
# What a stream sends

The frames come from the replay, from the bus and from the query after a lag,
and one high-water mark keeps them in order. Writers only add to the logs and
to the bus, so the facts below survive any number of their steps between two
steps of the stream.
-/

namespace OpenDaemon

open Store SequencedLog

namespace Stream

@[simp] theorem frames_send (st : Stream) (event : TaskEvent) (phase : StreamPhase) :
    (st.send event phase).frames = st.frames ++ [event] := by
  simp [frames, send, TaskStreamFrame.event?]

theorem frames_heartbeat (st : Stream) :
    { st with sent := st.sent ++ [TaskStreamFrame.heartbeat] }.frames = st.frames := by
  simp [frames, TaskStreamFrame.event?]

theorem query_eq {st : Stream} (h : st.highest = st.cursor) (s : Store) (ended : Bool) :
    st.query s ended = { st with phase := (st.query s ended).phase } := by
  obtain ⟨taskId, cursor, phase, position, highest, sent⟩ := st
  obtain rfl : highest = cursor := h
  rfl

@[simp] theorem highest_send (st : Stream) (event : TaskEvent) (phase : StreamPhase) :
    (st.send event phase).highest = event.sequence := rfl

inductive Moves (s : Store) (st : Stream) : StreamAction → Stream → Prop
  | readStatus (task : Task) (phase : st.phase = .reading)
      (found : s.findTask st.taskId = some task) :
      Moves s st .advance { st with phase := .subscribing task.status.isTerminal }
  | missing (phase : st.phase = .reading) (missing : s.findTask st.taskId = none) :
      Moves s st .advance { st with phase := .closed }
  | subscribe (ended : Bool) (phase : st.phase = .subscribing ended) :
      Moves s st .advance { st with phase := .querying ended, position := s.published.length }
  | query (ended : Bool) (phase : st.phase = .querying ended) :
      Moves s st .advance (st.query s ended)
  | replay (event : TaskEvent) (pending : List TaskEvent) (shouldTail : Bool)
      (phase : st.phase = .replaying (event :: pending) shouldTail) :
      Moves s st .advance (st.send event (.replaying pending shouldTail))
  | tail (phase : st.phase = .replaying [] true) :
      Moves s st .advance { st with phase := .tailing }
  | finish (phase : st.phase = .replaying [] false) :
      Moves s st .advance { st with phase := .closed }
  | lag (phase : st.phase = .tailing) (behind : st.position + busCapacity < s.published.length) :
      Moves s st .advance { st with position := s.published.length - busCapacity, phase := .lagged }
  | skip (event : TaskEvent) (phase : st.phase = .tailing)
      (received : s.published[st.position]? = some event)
      (skipped : event.taskId ≠ st.taskId ∨ event.sequence ≤ st.highest) :
      Moves s st .advance { st with position := st.position + 1 }
  | receive (event : TaskEvent) (phase : st.phase = .tailing)
      (received : s.published[st.position]? = some event) (task : event.taskId = st.taskId)
      (above : st.highest < event.sequence)
      (current : s.published.length ≤ st.position + busCapacity) :
      Moves s st .advance
        ({ st with position := st.position + 1 }.send event (after event .tailing))
  | requery (phase : st.phase = .lagged) :
      Moves s st .advance { st with phase := .recovering (s.listEventsAfter st.taskId st.highest) }
  | recovered (phase : st.phase = .recovering []) :
      Moves s st .advance { st with phase := .tailing }
  | passOver (event : TaskEvent) (pending : List TaskEvent)
      (phase : st.phase = .recovering (event :: pending)) (below : event.sequence ≤ st.highest) :
      Moves s st .advance { st with phase := .recovering pending }
  | catchUp (event : TaskEvent) (pending : List TaskEvent)
      (phase : st.phase = .recovering (event :: pending)) (above : st.highest < event.sequence) :
      Moves s st .advance (st.send event (after event (.recovering pending)))
  | heartbeat (phase : st.phase = .tailing) :
      Moves s st .heartbeat { st with sent := st.sent ++ [.heartbeat] }
  | stop : Moves s st .stop { st with phase := .closed }

section Inversion
variable {s : Store} {st st' : Stream}

theorem moves_of_receive (hphase : st.phase = .tailing) (h : st.receive s = some st') :
    st.Moves s .advance st' := by
  unfold receive at h
  split at h
  · rename_i hbehind
    obtain rfl := Option.some.inj h
    exact .lag hphase hbehind
  · rename_i hcurrent
    split at h
    · cases h
    · rename_i event hevent
      split at h
      · rename_i hskip
        obtain rfl := Option.some.inj h
        exact .skip event hphase hevent hskip
      · rename_i hsend
        rw [not_or, not_not, Nat.not_le] at hsend
        obtain rfl := Option.some.inj h
        exact .receive event hphase hevent hsend.1 hsend.2 (Nat.not_lt.mp hcurrent)

theorem moves_of_advance (h : st.advance s = some st') : st.Moves s .advance st' := by
  unfold advance at h
  split at h
  · rename_i hphase
    split at h
    · rename_i task hfind
      obtain rfl := Option.some.inj h
      exact .readStatus task hphase hfind
    · rename_i hmissing
      obtain rfl := Option.some.inj h
      exact .missing hphase hmissing
  · obtain rfl := Option.some.inj h
    exact .subscribe _ ‹_›
  · obtain rfl := Option.some.inj h
    exact .query _ ‹_›
  · rename_i shouldTail hphase
    obtain rfl := Option.some.inj h
    cases shouldTail with
    | false => exact .finish hphase
    | true => exact .tail hphase
  · obtain rfl := Option.some.inj h
    exact .replay _ _ _ ‹_›
  · exact moves_of_receive ‹_› h
  · obtain rfl := Option.some.inj h
    exact .requery ‹_›
  · obtain rfl := Option.some.inj h
    exact .recovered ‹_›
  · rename_i event pending hphase
    split at h
    · rename_i hbelow
      obtain rfl := Option.some.inj h
      exact .passOver event pending hphase hbelow
    · rename_i habove
      obtain rfl := Option.some.inj h
      exact .catchUp event pending hphase (Nat.not_le.mp habove)
  · cases h

theorem moves_of_step {a : StreamAction} (h : streamStep s st a = some st') :
    st.Moves s a st' := by
  cases a with
  | advance => exact moves_of_advance h
  | stop =>
    obtain rfl := Option.some.inj h
    exact .stop
  | heartbeat =>
    simp only [streamStep] at h
    split at h
    · obtain rfl := Option.some.inj h
      exact .heartbeat ‹_›
    · cases h

end Inversion

end Stream

section Queries
variable {s s' : Store} {taskId : String} {cursor : ℕ} {event : TaskEvent}

theorem mem_listEventsAfter : event ∈ s.listEventsAfter taskId cursor ↔
    event ∈ s.events ∧ event.taskId = taskId ∧ cursor < event.sequence := by
  rw [listEventsAfter, List.mem_filter, eventsOf, mem_entriesOf, decide_eq_true_eq, and_assoc]

theorem listEventsAfter_sorted (hs : s.WellFormed) (taskId : String) (cursor : ℕ) :
    (s.listEventsAfter taskId cursor).Pairwise fun a b => a.sequence < b.sequence :=
  (hs.contiguous taskId).pairwise.filter _

theorem listEventsAfter_initial (h : s.events <+: s'.events) (taskId : String) (cursor : ℕ) :
    s.listEventsAfter taskId cursor <+: s'.listEventsAfter taskId cursor :=
  (entriesOf_initial h).filter _

end Queries

namespace StreamPhase

def pending : StreamPhase → List TaskEvent
  | .replaying pending _ | .recovering pending => pending
  | _ => []

def opening : StreamPhase → Bool
  | .reading | .subscribing _ | .querying _ => true
  | _ => false

end StreamPhase

/-- The events sent and those still pending ascend from the cursor and are committed; the mark
is the last one sent. -/
structure Stream.Sound (s : Store) (st : Stream) : Prop where
  fresh : st.phase.opening → st.frames = []
  mark : st.highest = (st.frames.getLast?.map TaskEvent.sequence).getD st.cursor
  sorted : (st.frames ++ st.phase.pending).Pairwise fun a b => a.sequence < b.sequence
  above : ∀ event ∈ st.frames ++ st.phase.pending, st.cursor < event.sequence
  committed : ∀ event ∈ st.frames ++ st.phase.pending,
    event ∈ s.events ∧ event.taskId = st.taskId

namespace Stream.Sound

variable {s s' : Store} {st st' : Stream} {event : TaskEvent} {pending : List TaskEvent}

theorem start (s : Store) (taskId : String) (cursor : ℕ) : Sound s (.start taskId cursor) :=
  ⟨fun _ => rfl, rfl, List.Pairwise.nil, fun _ h => (by cases h), fun _ h => (by cases h)⟩

theorem le_highest (h : Sound s st) (hevent : event ∈ st.frames) :
    event.sequence ≤ st.highest := by
  obtain ⟨frames, last, hframes⟩ := List.eq_nil_or_concat st.frames |>.resolve_left
    (List.ne_nil_of_mem hevent)
  have hmark := h.mark
  have hsorted := (List.pairwise_append.mp h.sorted).1
  rw [hframes] at hmark hevent hsorted
  rw [List.concat_eq_append, List.getLast?_append, List.getLast?_singleton] at hmark
  rw [List.concat_eq_append, List.mem_append, List.mem_singleton] at hevent
  rw [List.concat_eq_append] at hsorted
  rcases hevent with hevent | rfl
  · have hlt := (List.pairwise_append.mp hsorted).2.2 event hevent last List.mem_cons_self
    exact (Nat.le_of_lt hlt).trans_eq hmark.symm
  · exact hmark.ge

theorem cursor_le (h : Sound s st) : st.cursor ≤ st.highest := by
  rw [h.mark]
  cases hlast : st.frames.getLast? with
  | none => exact Nat.le_refl _
  | some last =>
    exact Nat.le_of_lt (h.above last (List.mem_append_left _ (List.mem_of_getLast? hlast)))

theorem highest_cases (h : Sound s st) : st.highest = st.cursor ∨
    ∃ event ∈ st.frames, st.highest = event.sequence := by
  rw [h.mark]
  cases hlast : st.frames.getLast? with
  | none => exact .inl rfl
  | some last => exact .inr ⟨last, List.mem_of_getLast? hlast, rfl⟩

theorem highest_lt_pending (h : Sound s st) (hevent : event ∈ st.phase.pending) :
    st.highest < event.sequence := by
  rcases h.highest_cases with hmark | ⟨last, hlast, hmark⟩
  · rw [hmark]
    exact h.above event (List.mem_append_right _ hevent)
  · rw [hmark]
    exact (List.pairwise_append.mp h.sorted).2.2 last hlast event hevent

theorem write (h : Sound s st) (hevents : s.events <+: s'.events) : Sound s' st :=
  ⟨h.fresh, h.mark, h.sorted, h.above, fun event hevent =>
    ⟨hevents.subset (h.committed event hevent).1, (h.committed event hevent).2⟩⟩

theorem rephase (h : Sound s st) (phase : StreamPhase) (position : ℕ)
    (hopening : phase.opening → st.phase.opening) (hpending : phase.pending <+: st.phase.pending) :
    Sound s { st with phase := phase, position := position } := by
  have hinit : st.frames ++ phase.pending <+: st.frames ++ st.phase.pending :=
    (List.prefix_append_right_inj st.frames).mpr hpending
  exact ⟨fun hop => h.fresh (hopening hop), h.mark, h.sorted.sublist hinit.sublist,
    fun event hevent => h.above event (hinit.subset hevent),
    fun event hevent => h.committed event (hinit.subset hevent)⟩

theorem send_pending (h : Sound s st) (hpending : st.phase.pending = event :: pending)
    (phase : StreamPhase) (hopening : phase.opening = false) (hphase : phase.pending <+: pending) :
    Sound s (st.send event phase) := by
  have hinit : (st.send event phase).frames ++ (st.send event phase).phase.pending <+:
      st.frames ++ st.phase.pending := by
    rw [frames_send, hpending, List.append_assoc]
    exact (List.prefix_append_right_inj st.frames).mpr
      ((List.prefix_append_right_inj [event]).mpr hphase)
  refine ⟨fun hop => ?_, ?_, h.sorted.sublist hinit.sublist,
    fun e he => h.above e (hinit.subset he), fun e he => h.committed e (hinit.subset he)⟩
  · rw [show (st.send event phase).phase = phase from rfl, hopening] at hop
    cases hop
  · rw [frames_send, List.getLast?_append, List.getLast?_singleton]
    rfl

theorem queried (h : Sound s st) (hs : s.WellFormed) (phase : StreamPhase)
    (hopening : phase.opening = false)
    (hpending : phase.pending = s.listEventsAfter st.taskId st.highest) :
    Sound s { st with phase := phase } := by
  have hframes := (List.pairwise_append.mp h.sorted).1
  refine ⟨fun hop => ?_, h.mark, ?_, fun event hevent => ?_, fun event hevent => ?_⟩
  · rw [hopening] at hop
    cases hop
  · rw [hpending]
    refine List.pairwise_append.mpr ⟨hframes, listEventsAfter_sorted hs _ _, fun a ha b hb => ?_⟩
    exact (h.le_highest ha).trans_lt (mem_listEventsAfter.mp hb).2.2
  · rw [hpending] at hevent
    rcases List.mem_append.mp hevent with hevent | hevent
    · exact h.above event (List.mem_append_left _ hevent)
    · exact h.cursor_le.trans_lt (mem_listEventsAfter.mp hevent).2.2
  · rw [hpending] at hevent
    rcases List.mem_append.mp hevent with hevent | hevent
    · exact h.committed event (List.mem_append_left _ hevent)
    · exact ⟨(mem_listEventsAfter.mp hevent).1, (mem_listEventsAfter.mp hevent).2.1⟩

theorem opening_after (event : TaskEvent) (phase : StreamPhase) (h : phase.opening = false) :
    (after event phase).opening = false := by
  unfold after
  split
  · rfl
  · exact h

theorem pending_after (event : TaskEvent) (phase : StreamPhase) :
    (after event phase).pending <+: phase.pending := by
  unfold after
  split
  · exact List.nil_prefix
  · exact List.prefix_rfl

theorem receive (h : Sound s st) (hevent : event ∈ s.events)
    (htask : event.taskId = st.taskId) (habove : st.highest < event.sequence) :
    Sound s ({ st with position := st.position + 1 }.send event (after event .tailing)) := by
  -- the event counts as pending first, and is then sent like one
  have hwaiting : Sound s { st with phase := .recovering [event], position := st.position + 1 } := by
    have hframes := (List.pairwise_append.mp h.sorted).1
    refine ⟨fun hop => (by cases hop), h.mark, ?_, fun e he => ?_, fun e he => ?_⟩
    · refine List.pairwise_append.mpr ⟨hframes, List.pairwise_singleton _ _, fun a ha b hb => ?_⟩
      obtain rfl := List.mem_singleton.mp hb
      exact (h.le_highest ha).trans_lt habove
    · rcases List.mem_append.mp he with he | he
      · exact h.above e (List.mem_append_left _ he)
      · obtain rfl := List.mem_singleton.mp he
        exact h.cursor_le.trans_lt habove
    · rcases List.mem_append.mp he with he | he
      · exact h.committed e (List.mem_append_left _ he)
      · obtain rfl := List.mem_singleton.mp he
        exact ⟨hevent, htask⟩
  have hsent := hwaiting.send_pending rfl (after event .tailing) (opening_after event _ rfl)
    (pending_after event .tailing)
  exact hsent

theorem moves (h : Sound s st) (hs : s.WellFormed)
    (hpublished : ∀ event ∈ s.published, event ∈ s.events) {a : StreamAction}
    (hmove : st.Moves s a st') :
    Sound s st' := by
  cases hmove with
  | readStatus task hphase =>
    exact h.rephase _ st.position (fun _ => hphase ▸ rfl) List.nil_prefix
  | missing hphase => exact h.rephase _ st.position (fun hop => (by cases hop)) List.nil_prefix
  | subscribe ended hphase => exact h.rephase _ _ (fun _ => hphase ▸ rfl) List.nil_prefix
  | query ended hphase =>
    have hfresh := h.fresh (hphase ▸ rfl)
    have hmark : st.highest = st.cursor := by
      rw [h.mark, hfresh]
      rfl
    rw [query_eq hmark]
    exact h.queried hs _ rfl (by rw [hmark]; rfl)
  | replay event pending shouldTail hphase =>
    exact h.send_pending (by rw [hphase]; rfl) _ rfl List.prefix_rfl
  | tail hphase => exact h.rephase _ st.position (fun hop => (by cases hop)) List.nil_prefix
  | finish hphase => exact h.rephase _ st.position (fun hop => (by cases hop)) List.nil_prefix
  | lag hphase => exact h.rephase _ _ (fun hop => (by cases hop)) List.nil_prefix
  | skip event hphase =>
    exact h.rephase st.phase _ (fun hop => hop) List.prefix_rfl
  | receive event hphase hreceived htask habove =>
    exact h.receive (hpublished event (List.mem_of_getElem? hreceived)) htask habove
  | requery hphase => exact h.queried hs _ rfl rfl
  | recovered hphase => exact h.rephase _ st.position (fun hop => (by cases hop)) List.nil_prefix
  | passOver event pending hphase hbelow =>
    -- what a query returned lies above the mark
    have habove := h.highest_lt_pending (hphase ▸ List.mem_cons_self : event ∈ st.phase.pending)
    exact absurd hbelow (Nat.not_le.mpr habove)
  | catchUp event pending hphase =>
    exact h.send_pending (by rw [hphase]; rfl) _ (opening_after event _ rfl) (pending_after event _)
  | heartbeat hphase =>
    have hframes := st.frames_heartbeat
    refine ⟨fun hop => hframes.trans (h.fresh hop), ?_, ?_, ?_, ?_⟩
    · rw [hframes]
      exact h.mark
    · rw [hframes]
      exact h.sorted
    · rw [hframes]
      exact h.above
    · rw [hframes]
      exact h.committed
  | stop => exact h.rephase _ st.position (fun hop => (by cases hop)) List.nil_prefix

end Stream.Sound

def StreamPhase.following : StreamPhase → Bool
  | .replaying _ _ | .tailing | .recovering _ => true
  | _ => false

/-- No message that the receiver has passed is still missing. -/
structure Stream.Follows (s : Store) (st : Stream) : Prop where
  position : st.position ≤ s.published.length
  consumed : st.phase.following → ∀ event ∈ s.published.take st.position,
    event.taskId = st.taskId → event.sequence ≤ st.highest ∨ event ∈ st.phase.pending

namespace Stream.Follows

variable {s s' : Store} {st st' : Stream} {event : TaskEvent} {pending : List TaskEvent}

theorem start (s : Store) (taskId : String) (cursor : ℕ) : Follows s (.start taskId cursor) :=
  ⟨Nat.zero_le _, fun h => (by cases h)⟩

theorem write (h : Follows s st) (hpublished : s.published <+: s'.published) : Follows s' st := by
  refine ⟨h.position.trans hpublished.length_le, fun hphase => ?_⟩
  obtain ⟨sent, hsent⟩ := hpublished
  rw [← hsent, List.take_append_of_le_length h.position]
  exact h.consumed hphase

theorem queried (h : Follows s st) (hpublished : ∀ event ∈ s.published, event ∈ s.events)
    (phase : StreamPhase) (hpending : phase.pending = s.listEventsAfter st.taskId st.highest) :
    Follows s { st with phase := phase } := by
  refine ⟨h.position, fun _ event hevent htask => ?_⟩
  rcases Nat.lt_or_ge st.highest event.sequence with habove | hbelow
  · right
    rw [hpending]
    exact mem_listEventsAfter.mpr ⟨hpublished event (List.mem_of_mem_take hevent), htask, habove⟩
  · exact .inl hbelow

theorem send_pending (h : Follows s st) (hsound : Sound s st) (hfollowing : st.phase.following)
    (hpending : st.phase.pending = event :: pending) (phase : StreamPhase)
    (hphase : phase.following → phase.pending = pending) : Follows s (st.send event phase) := by
  have habove : st.highest < event.sequence :=
    hsound.highest_lt_pending (hpending ▸ List.mem_cons_self)
  refine ⟨h.position, fun hf e he htask => ?_⟩
  rcases h.consumed hfollowing e he htask with hbelow | hmem
  · exact .inl (hbelow.trans (Nat.le_of_lt habove))
  · rw [hpending] at hmem
    rcases List.mem_cons.mp hmem with rfl | hmem
    · exact .inl (Nat.le_refl _)
    · exact .inr (hphase hf ▸ hmem)

theorem rephase (h : Follows s st) (phase : StreamPhase) (hfollowing : phase.following →
    st.phase.following ∧ phase.pending = st.phase.pending) :
    Follows s { st with phase := phase } := by
  refine ⟨h.position, fun hf e he htask => ?_⟩
  have hsame := hfollowing hf
  rcases h.consumed hsame.1 e he htask with hbelow | hmem
  · exact .inl hbelow
  · exact .inr (hsame.2 ▸ hmem)

theorem take (h : Follows s st) (hphase : st.phase = .tailing)
    (hreceived : s.published[st.position]? = some event) {highest : ℕ}
    (hmark : st.highest ≤ highest) (hevent : event.taskId = st.taskId → event.sequence ≤ highest)
    (phase : StreamPhase) (sent : List TaskStreamFrame) :
    Follows s { st with
      position := st.position + 1, highest := highest, phase := phase, sent := sent } := by
  obtain ⟨hlen, hget⟩ := List.getElem?_eq_some_iff.mp hreceived
  refine ⟨hlen, fun _ e he htask => .inl ?_⟩
  rw [List.take_add_one, hreceived] at he
  rcases List.mem_append.mp he with he | he
  · rcases h.consumed (hphase ▸ rfl) e he htask with hbelow | hmem
    · exact hbelow.trans hmark
    · rw [hphase] at hmem
      cases hmem
  · obtain rfl := List.mem_singleton.mp he
    exact hevent htask

theorem following_after (event : TaskEvent) (phase : StreamPhase)
    (h : (after event phase).following) : (after event phase).pending = phase.pending := by
  unfold after at h ⊢
  split at h
  · cases h
  · rename_i hordinary
    rw [if_neg hordinary]

theorem moves (h : Follows s st) (hsound : Sound s st)
    (hpublished : ∀ event ∈ s.published, event ∈ s.events) {a : StreamAction}
    (hmove : st.Moves s a st') :
    Follows s st' := by
  cases hmove with
  | readStatus task hphase => exact h.rephase _ fun hf => (by cases hf)
  | missing hphase => exact h.rephase _ fun hf => (by cases hf)
  | subscribe ended hphase => exact ⟨Nat.le_refl _, fun hf => (by cases hf)⟩
  | query ended hphase =>
    have hmark : st.highest = st.cursor := by
      rw [hsound.mark, hsound.fresh (hphase ▸ rfl)]
      rfl
    rw [query_eq hmark]
    exact h.queried hpublished _ (by rw [hmark]; rfl)
  | replay event pending shouldTail hphase =>
    exact h.send_pending hsound (hphase ▸ rfl) (hphase ▸ rfl) _ fun _ => rfl
  | tail hphase => exact h.rephase _ fun _ => hphase ▸ ⟨rfl, rfl⟩
  | finish hphase => exact h.rephase _ fun hf => (by cases hf)
  | lag hphase hbehind => exact ⟨Nat.sub_le _ _, fun hf => (by cases hf)⟩
  | skip event hphase hreceived hskip =>
    exact h.take hphase hreceived (Nat.le_refl _) (fun htask => hskip.resolve_left (not_not.mpr htask))
      st.phase st.sent
  | receive event hphase hreceived htask habove =>
    exact h.take hphase hreceived (Nat.le_of_lt habove) (fun _ => Nat.le_refl _) _ _
  | requery hphase => exact h.queried hpublished _ rfl
  | recovered hphase => exact h.rephase _ fun _ => hphase ▸ ⟨rfl, rfl⟩
  | passOver event pending hphase hbelow =>
    have habove := hsound.highest_lt_pending (hphase ▸ List.mem_cons_self : event ∈ st.phase.pending)
    exact absurd hbelow (Nat.not_le.mpr habove)
  | catchUp event pending hphase =>
    exact h.send_pending hsound (hphase ▸ rfl) (hphase ▸ rfl) _ (following_after event _)
  | heartbeat hphase => exact ⟨h.position, h.consumed⟩
  | stop => exact h.rephase _ fun hf => (by cases hf)

end Stream.Follows

end OpenDaemon
