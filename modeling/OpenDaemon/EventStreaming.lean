import OpenDaemon.EventLog
import OpenDaemon.StreamInvariant

/-!
# A stream among concurrent writers

One stream and any number of calls of the event service run at once. The frames
are always sound; they have no gaps as long as the events of the task are
published in the order of their sequence numbers, which nothing in the code
ensures: commit and publish are separate steps, and the stream drops whatever
arrives below its mark.
-/

namespace OpenDaemon

open Runs Interleaving Store SequencedLog

structure Streaming where
  pool : EventPool
  stream : Stream

inductive StreamingAction
  | writer (a : EventAction)
  | stream (a : StreamAction)

def streamingStep (x : Streaming) : StreamingAction → Option Streaming
  | .writer a => (eventStep x.pool a).map fun p => ⟨p, x.stream⟩
  | .stream a => (streamStep x.pool.shared.store x.stream a).map fun st => ⟨x.pool, st⟩

def startStreaming (taskId : String) (cursor : ℕ) : Streaming :=
  ⟨⟨.start Store.empty, []⟩, .start taskId cursor⟩

def Streaming.store (x : Streaming) : Store := x.pool.shared.store

theorem streamingStep_cases {x y : Streaming} {a : StreamingAction} (hx : x.pool.Intact)
    (h : streamingStep x a = some y) : y.pool.Intact ∧
    ((∃ b, a = .writer b ∧ eventStep x.pool b = some y.pool ∧ x.store.Grows y.store ∧
        y.stream = x.stream) ∨
      ∃ b, a = .stream b ∧ y.pool = x.pool ∧ x.stream.Moves x.store b y.stream) := by
  cases a with
  | writer b =>
    obtain ⟨p, hp, rfl⟩ := Option.map_eq_some_iff.mp h
    obtain ⟨hintact, hgrows⟩ := hx.step hp
    exact ⟨hintact, .inl ⟨b, rfl, hp, hgrows, rfl⟩⟩
  | stream b =>
    obtain ⟨st, hst, rfl⟩ := Option.map_eq_some_iff.mp h
    exact ⟨hx, .inr ⟨b, rfl, rfl, Stream.moves_of_step hst⟩⟩

theorem Stream.Moves.same {s : Store} {st st' : Stream} {a : StreamAction}
    (h : st.Moves s a st') :
    st'.taskId = st.taskId ∧ st'.cursor = st.cursor := by
  cases h <;> exact ⟨rfl, rfl⟩

structure Streaming.Delivers (taskId : String) (cursor : ℕ) (x : Streaming) : Prop where
  intact : x.pool.Intact
  task : x.stream.taskId = taskId
  cursor : x.stream.cursor = cursor
  sound : x.stream.Sound x.store
  follows : x.stream.Follows x.store

section Delivery
variable {taskId : String} {cursor : ℕ} {x y : Streaming} {a : StreamingAction}

theorem delivers_start (taskId : String) (cursor : ℕ) :
    (startStreaming taskId cursor).Delivers taskId cursor :=
  ⟨intact_start wellFormed_empty rfl, rfl, rfl, .start _ _ _, .start _ _ _⟩

theorem delivers_step (hx : x.Delivers taskId cursor)
    (h : streamingStep x a = some y) : y.Delivers taskId cursor := by
  obtain ⟨hintact, ⟨b, -, -, hgrows, hstream⟩ | ⟨b, -, hpool, hmoves⟩⟩ :=
    streamingStep_cases hx.intact h
  · refine ⟨hintact, hstream ▸ hx.task, hstream ▸ hx.cursor, ?_, ?_⟩
    · rw [hstream]
      exact hx.sound.write hgrows.events
    · rw [hstream]
      exact hx.follows.write hgrows.published
  · have hstore : y.store = x.store := by rw [Streaming.store, hpool, Streaming.store]
    refine ⟨hintact, hmoves.same.1.trans hx.task, hmoves.same.2.trans hx.cursor, ?_, ?_⟩
    · rw [hstore]
      exact hx.sound.moves hx.intact.wellFormed hx.intact.committed hmoves
    · rw [hstore]
      exact hx.follows.moves hx.sound hx.intact.committed hmoves

theorem delivers_of_reaches {ok : Streaming → StreamingAction → Prop}
    (h : Reaches streamingStep ok (startStreaming taskId cursor) x) : x.Delivers taskId cursor :=
  h.invariant (delivers_start taskId cursor) fun _ _ _ hx _ hstep => delivers_step hx hstep

end Delivery

/-- The frames ascend from the cursor, and each is a committed event of the task. -/
structure FramesSound (taskId : String) (cursor : ℕ) (s : Store) (frames : List TaskEvent) :
    Prop where
  increasing : frames.Pairwise fun a b => a.sequence < b.sequence
  above : ∀ event ∈ frames, cursor < event.sequence
  committed : ∀ event ∈ frames, event ∈ s.events ∧ event.taskId = taskId

/-- In every interleaving of a stream with any writers its frames are sound. -/
theorem stream_frames_sound {taskId : String} {cursor : ℕ} {x : Streaming}
    (h : Reaches streamingStep (fun _ _ => True) (startStreaming taskId cursor) x) :
    FramesSound taskId cursor x.store x.stream.frames := by
  have hx := delivers_of_reaches h
  refine ⟨(List.pairwise_append.mp hx.sound.sorted).1, fun event hevent => ?_,
    fun event hevent => ?_⟩
  · rw [← hx.cursor]
    exact hx.sound.above event (List.mem_append_left _ hevent)
  · rw [← hx.task]
    exact hx.sound.committed event (List.mem_append_left _ hevent)

def publishes? (x : Streaming) : StreamingAction → Option TaskEvent
  | .writer a =>
    match nextStep? x.pool a with
    | some (.db (.publish event)) => some event
    | _ => none
  | .stream _ => none

/-- An event of the task is published only when every committed event of the task with a
smaller sequence has been published. -/
def PublishesInOrder (taskId : String) (x : Streaming) (a : StreamingAction) : Prop :=
  ∀ event, publishes? x a = some event → event.taskId = taskId →
    ∀ earlier ∈ x.store.events, earlier.taskId = taskId → earlier.sequence < event.sequence →
      ∃ sent ∈ x.store.published, sent.taskId = taskId ∧ sent.sequence = earlier.sequence

/-- Each frame was sent after every committed event between the cursor and itself. -/
def NoGaps (s : Store) (st : Stream) : Prop :=
  ∀ n event, st.frames[n]? = some event → ∀ earlier ∈ s.events, earlier.taskId = st.taskId →
    st.cursor < earlier.sequence → earlier.sequence < event.sequence →
    earlier ∈ st.frames.take n

def BusOrdered (taskId : String) (s : Store) : Prop :=
  ∀ i event, s.published[i]? = some event → event.taskId = taskId →
    ∀ earlier ∈ s.events, earlier.taskId = taskId → earlier.sequence < event.sequence →
      ∃ sent ∈ s.published.take i, sent.taskId = taskId ∧ sent.sequence = earlier.sequence

def Gapless (s : Store) (st : Stream) : Prop :=
  st.frames ++ st.phase.pending <+: s.listEventsAfter st.taskId st.cursor

section Gaps
variable {s s' : Store} {st st' : Stream}

theorem Gapless.noGaps (hs : s.WellFormed) (h : Gapless s st) : NoGaps s st := by
  intro n event hn earlier hearlier htask habove hlt
  have hinit : st.frames <+: s.listEventsAfter st.taskId st.cursor :=
    (List.prefix_append _ _).trans h
  exact mem_take_of_lt (listEventsAfter_sorted hs _ _) hinit hn
    (mem_listEventsAfter.mpr ⟨hearlier, htask, habove⟩) hlt

theorem Gapless.write (h : Gapless s st) (hevents : s.events <+: s'.events) : Gapless s' st :=
  h.trans (listEventsAfter_initial hevents _ _)

/-- What has been sent, and what a query above the mark returns, is all there is. -/
theorem Gapless.requeried (hs : s.WellFormed) (hsound : st.Sound s) (h : Gapless s st) :
    st.frames ++ s.listEventsAfter st.taskId st.highest =
      s.listEventsAfter st.taskId st.cursor := by
  obtain ⟨rest, hrest⟩ := (List.prefix_append _ _).trans h
  have hsorted := listEventsAfter_sorted hs st.taskId st.cursor
  have hquery : s.listEventsAfter st.taskId st.highest =
      (s.listEventsAfter st.taskId st.cursor).filter fun event =>
        decide (st.highest < event.sequence) := by
    rw [listEventsAfter, listEventsAfter, List.filter_filter]
    refine List.filter_congr fun event _ => ?_
    have hle := hsound.cursor_le
    by_cases hlt : st.highest < event.sequence
    · simp [hlt, hle.trans_lt hlt]
    · simp [hlt]
  have hframes : st.frames.filter (fun event => decide (st.highest < event.sequence)) = [] := by
    refine List.filter_eq_nil_iff.mpr fun event hevent => ?_
    simpa using hsound.le_highest hevent
  have hnew : rest.filter (fun event => decide (st.highest < event.sequence)) = rest := by
    refine List.filter_eq_self.mpr fun event hevent => decide_eq_true ?_
    rw [← hrest] at hsorted
    rcases hsound.highest_cases with hmark | ⟨last, hlast, hmark⟩
    · rw [hmark]
      have hmem : event ∈ s.listEventsAfter st.taskId st.cursor :=
        hrest ▸ List.mem_append_right _ hevent
      exact (mem_listEventsAfter.mp hmem).2.2
    · rw [hmark]
      exact (List.pairwise_append.mp hsorted).2.2 last hlast event hevent
  rw [hquery, ← hrest, List.filter_append, hframes, hnew, List.nil_append]

theorem Gapless.rephase (h : Gapless s st) (phase : StreamPhase) (position : ℕ)
    (hpending : phase.pending <+: st.phase.pending) :
    Gapless s { st with phase := phase, position := position } :=
  ((List.prefix_append_right_inj st.frames).mpr hpending).trans h

theorem Gapless.send_pending {event : TaskEvent} {pending : List TaskEvent} (h : Gapless s st)
    (hpending : st.phase.pending = event :: pending) (phase : StreamPhase)
    (hphase : phase.pending <+: pending) : Gapless s (st.send event phase) := by
  unfold Gapless at h ⊢
  rw [Stream.frames_send, List.append_assoc]
  rw [hpending] at h
  exact ((List.prefix_append_right_inj st.frames).mpr
    ((List.prefix_append_right_inj [event]).mpr hphase)).trans h

/-- With an ordered bus the next live event above the mark is the next one of the log. -/
theorem Gapless.receive {event : TaskEvent} (hs : s.WellFormed) (hsound : st.Sound s)
    (hfollows : st.Follows s) (hordered : BusOrdered st.taskId s)
    (hpublished : ∀ event ∈ s.published, event ∈ s.events) (h : Gapless s st)
    (hphase : st.phase = .tailing) (hreceived : s.published[st.position]? = some event)
    (htask : event.taskId = st.taskId) (habove : st.highest < event.sequence) :
    st.frames ++ [event] <+: s.listEventsAfter st.taskId st.cursor := by
  have hmem : event ∈ s.events := hpublished event (List.mem_of_getElem? hreceived)
  refine prefix_concat (listEventsAfter_sorted hs _ _) ((List.prefix_append _ _).trans h)
    (mem_listEventsAfter.mpr ⟨hmem, htask, hsound.cursor_le.trans_lt habove⟩) ?_ ?_
  · intro hframe
    exact absurd (hsound.le_highest hframe) (Nat.not_le.mpr habove)
  · intro earlier hearlier hlt
    have hquery := mem_listEventsAfter.mp hearlier
    obtain ⟨sent, hsent, hsenttask, hseq⟩ :=
      hordered st.position event hreceived htask earlier hquery.1 hquery.2.1 hlt
    -- the earlier event has been taken from the bus, so it is below the mark
    have hbelow : earlier.sequence ≤ st.highest := by
      rcases hfollows.consumed (hphase ▸ rfl) sent hsent hsenttask with hbelow | hpending
      · rwa [hseq] at hbelow
      · rw [hphase] at hpending
        cases hpending
    have hall := h.requeried hs hsound
    rw [← hall] at hearlier
    rcases List.mem_append.mp hearlier with hframe | hnew
    · exact hframe
    · exact absurd hbelow (Nat.not_le.mpr (mem_listEventsAfter.mp hnew).2.2)

theorem Gapless.moves (hs : s.WellFormed) (hsound : st.Sound s) (hfollows : st.Follows s)
    (hordered : BusOrdered st.taskId s) (hpublished : ∀ event ∈ s.published, event ∈ s.events)
    (h : Gapless s st) {a : StreamAction} (hmove : st.Moves s a st') : Gapless s st' := by
  cases hmove with
  | readStatus task hphase => exact h.rephase _ st.position List.nil_prefix
  | missing hphase => exact h.rephase _ st.position List.nil_prefix
  | subscribe ended hphase => exact h.rephase _ _ List.nil_prefix
  | query ended hphase =>
    have hfresh := hsound.fresh (hphase ▸ rfl)
    change st.frames ++ s.listEventsAfter st.taskId st.cursor <+: _
    rw [hfresh]
    exact List.prefix_rfl
  | replay event pending shouldTail hphase =>
    exact h.send_pending (hphase ▸ rfl) _ List.prefix_rfl
  | tail hphase => exact h.rephase _ st.position List.nil_prefix
  | finish hphase => exact h.rephase _ st.position List.nil_prefix
  | lag hphase hbehind => exact h.rephase _ _ List.nil_prefix
  | skip event hphase hreceived hskip => exact h.rephase st.phase _ List.prefix_rfl
  | receive event hphase hreceived htask habove =>
    have hnext := h.receive hs hsound hfollows hordered hpublished hphase hreceived htask habove
    have hnil : (Stream.after event .tailing).pending = [] :=
      List.prefix_nil.mp (Stream.Sound.pending_after event .tailing)
    unfold Gapless
    rw [Stream.frames_send]
    change st.frames ++ [event] ++ (Stream.after event .tailing).pending <+: _
    rw [hnil, List.append_nil]
    exact hnext
  | requery hphase =>
    have hall := h.requeried hs hsound
    exact ⟨[], (List.append_nil _).trans hall⟩
  | recovered hphase => exact h.rephase _ st.position List.nil_prefix
  | passOver event pending hphase hbelow =>
    have habove := hsound.highest_lt_pending (hphase ▸ List.mem_cons_self : event ∈ st.phase.pending)
    exact absurd hbelow (Nat.not_le.mpr habove)
  | catchUp event pending hphase =>
    exact h.send_pending (hphase ▸ rfl) _ (Stream.Sound.pending_after event _)
  | heartbeat hphase =>
    unfold Gapless
    rw [Stream.frames_heartbeat]
    exact h
  | stop => exact h.rephase _ st.position List.nil_prefix

end Gaps

namespace BusOrdered

variable {taskId : String} {s s' : Store}

theorem earlier_mem (hs' : s'.WellFormed) (hevents : s.events <+: s'.events)
    {event earlier : TaskEvent} (hevent : event ∈ s.events) (htask : event.taskId = taskId)
    (hearlier : earlier ∈ s'.events) (htask' : earlier.taskId = taskId)
    (hlt : earlier.sequence < event.sequence) : earlier ∈ s.events := by
  by_contra hnew
  have hgt : event.sequence < earlier.sequence :=
    (hs'.contiguous taskId).lt_of_new hevents hevent htask hearlier htask' hnew
  omega

theorem write (h : BusOrdered taskId s) (hs' : s'.WellFormed) (hevents : s.events <+: s'.events)
    (hcommitted : ∀ event ∈ s.published, event ∈ s.events)
    (hsame : s'.published = s.published) : BusOrdered taskId s' := by
  intro i event hi htask earlier hearlier htask' hlt
  rw [hsame] at hi ⊢
  have hevent := hcommitted event (List.mem_of_getElem? hi)
  exact h i event hi htask earlier (earlier_mem hs' hevents hevent htask hearlier htask' hlt)
    htask' hlt

theorem publish {sent : TaskEvent} (h : BusOrdered taskId s) (hs' : s'.WellFormed)
    (hevents : s.events <+: s'.events) (hcommitted : ∀ event ∈ s.published, event ∈ s.events)
    (happend : s'.published = s.published ++ [sent])
    (hsent : sent.taskId = taskId → ∀ earlier ∈ s'.events, earlier.taskId = taskId →
      earlier.sequence < sent.sequence →
        ∃ m ∈ s.published, m.taskId = taskId ∧ m.sequence = earlier.sequence) :
    BusOrdered taskId s' := by
  intro i event hi htask earlier hearlier htask' hlt
  rw [happend, List.getElem?_append] at hi
  split at hi
  · rename_i hlen
    have hevent := hcommitted event (List.mem_of_getElem? hi)
    rw [happend, List.take_append_of_le_length (Nat.le_of_lt hlen)]
    exact h i event hi htask earlier (earlier_mem hs' hevents hevent htask hearlier htask' hlt)
      htask' hlt
  · rename_i hlen
    rw [List.getElem?_singleton] at hi
    split at hi
    · obtain rfl := Option.some.inj hi
      have hend : i = s.published.length := by omega
      obtain ⟨m, hm, hfound⟩ := hsent htask earlier hearlier htask' hlt
      refine ⟨m, ?_, hfound⟩
      rw [happend, hend, List.take_left]
      exact hm
    · cases hi

end BusOrdered

section Order
variable {taskId : String} {cursor : ℕ} {x y : Streaming} {a : StreamingAction}

theorem publishes?_writer {b : EventAction} {event : TaskEvent}
    (h : nextStep? x.pool b = some (.db (.publish event))) :
    publishes? x (.writer b) = some event := by
  simp only [publishes?, h]

theorem busOrdered_step (hx : x.pool.Intact) (hordered : BusOrdered taskId x.store)
    (hok : PublishesInOrder taskId x a)
    (h : streamingStep x a = some y) : BusOrdered taskId y.store := by
  obtain ⟨hintact, ⟨b, rfl, hstep, hgrows, -⟩ | ⟨-, -, hpool, -⟩⟩ := streamingStep_cases hx h
  · obtain hsame | ⟨sent, hnext, hsent, happend⟩ := hx.published_step hstep
    · exact hordered.write hintact.wellFormed hgrows.events hx.committed hsame
    · refine hordered.publish hintact.wellFormed hgrows.events hx.committed happend
        fun htask earlier hearlier htask' hlt => ?_
      exact hok sent (publishes?_writer hnext) htask earlier
        (BusOrdered.earlier_mem hintact.wellFormed hgrows.events hsent htask hearlier htask' hlt)
        htask' hlt
  · have hstore : y.store = x.store := by rw [Streaming.store, hpool, Streaming.store]
    rw [hstore]
    exact hordered

end Order

/-- In every interleaving that publishes the events of the task in order, the frames of its
streams have no gaps. -/
theorem stream_no_gaps {taskId : String} {cursor : ℕ} {x : Streaming}
    (h : Reaches streamingStep (PublishesInOrder taskId) (startStreaming taskId cursor) x) :
    NoGaps x.store x.stream := by
  let I (x : Streaming) : Prop :=
    x.Delivers taskId cursor ∧ BusOrdered taskId x.store ∧ Gapless x.store x.stream
  have hI : I x := by
    refine h.invariant ⟨delivers_start taskId cursor, fun i event hi => (by cases hi),
      List.prefix_rfl⟩ fun x a y hx hok hstep => ?_
    obtain ⟨hdelivers, hordered, hgapless⟩ := hx
    have hnext := delivers_step hdelivers hstep
    refine ⟨hnext, busOrdered_step hdelivers.intact hordered hok hstep, ?_⟩
    obtain ⟨-, ⟨b, -, -, hgrows, hstream⟩ | ⟨b, -, hpool, hmoves⟩⟩ :=
      streamingStep_cases hdelivers.intact hstep
    · rw [hstream]
      exact hgapless.write hgrows.events
    · have hstore : y.store = x.store := by rw [Streaming.store, hpool, Streaming.store]
      rw [hstore]
      exact hgapless.moves hdelivers.intact.wellFormed hdelivers.sound hdelivers.follows
        (hdelivers.task.symm ▸ hordered) hdelivers.intact.committed hmoves
  exact hI.2.2.noGaps hI.1.intact.wellFormed

def publishesInOrder (taskId : String) (x : Streaming) (a : StreamingAction) : Bool :=
  (publishes? x a).all fun event => !decide (event.taskId = taskId) ||
    x.store.events.all fun earlier => !decide (earlier.taskId = taskId) ||
      !decide (earlier.sequence < event.sequence) || x.store.published.any fun sent =>
        decide (sent.taskId = taskId) && decide (sent.sequence = earlier.sequence)

theorem publishesInOrder_sound {taskId : String} {x : Streaming} {a : StreamingAction}
    (h : publishesInOrder taskId x a) : PublishesInOrder taskId x a := by
  intro event hevent htask earlier hearlier htask' hlt
  rw [publishesInOrder, hevent, Option.all_some] at h
  simp only [htask, decide_true, Bool.not_true, Bool.false_or, List.all_eq_true] at h
  have hsent := h earlier hearlier
  simp only [htask', hlt, decide_true, Bool.not_true, Bool.false_or, List.any_eq_true,
    Bool.and_eq_true, decide_eq_true_eq] at hsent
  exact hsent

def writerSteps (i n : ℕ) : List StreamingAction :=
  List.replicate n (.writer (.advance i (.proceed "t1")))

def appendOutput : StreamingAction :=
  .writer (.spawn (.store (.appendEvent "task_1" .processStdout .emptyObject)))

def openStream : List StreamingAction :=
  .writer (.spawn (.store (.create sampleTask))) :: writerSteps 0 5 ++
    List.replicate 5 (.stream .advance)

/-- Two outputs are committed one after the other and published the other way round. -/
def publishSwapped : List StreamingAction :=
  openStream ++ appendOutput :: writerSteps 1 5 ++ appendOutput :: writerSteps 2 6 ++
    [.stream .advance] ++ writerSteps 1 1 ++ [.stream .advance]

def streamingRun (cursor : ℕ) (check : Streaming → StreamingAction → Bool)
    (actions : List StreamingAction) :
    Option Streaming :=
  Runs.run (fun x a => if check x a then streamingStep x a else none)
    (startStreaming "task_1" cursor) actions

set_option maxRecDepth 10000 in
theorem stream_frames_sound_swapped : ∃ x : Streaming,
    x.store.published.map TaskEvent.sequence = [1, 3, 2] ∧
    x.stream.frames.map TaskEvent.sequence = [1, 3] ∧
    FramesSound "task_1" 0 x.store x.stream.frames := by
  have hrun : (streamingRun 0 (fun _ _ => true) publishSwapped).map (fun x =>
      (x.store.published.map TaskEvent.sequence, x.stream.frames.map TaskEvent.sequence)) =
      some ([1, 3, 2], [1, 3]) := by decide
  obtain ⟨x, hx, hfacts⟩ := Option.map_eq_some_iff.mp hrun
  rw [Prod.mk.injEq] at hfacts
  exact ⟨x, hfacts.1, hfacts.2,
    stream_frames_sound (reaches_of_run (fun _ _ _ => trivial) hx)⟩

set_option maxRecDepth 10000 in
theorem stream_no_gaps_ordered : ∃ x : Streaming,
    x.stream.frames.map TaskEvent.sequence = [1, 2] ∧ NoGaps x.store x.stream := by
  have hrun : (streamingRun 0 (publishesInOrder "task_1")
      (openStream ++ appendOutput :: writerSteps 1 6 ++ [.stream .advance])).map (fun x =>
        x.stream.frames.map TaskEvent.sequence) = some [1, 2] := by decide
  obtain ⟨x, hx, hframes⟩ := Option.map_eq_some_iff.mp hrun
  exact ⟨x, hframes, stream_no_gaps (reaches_of_run (fun _ _ => publishesInOrder_sound) hx)⟩

set_option maxRecDepth 10000 in
/-- The stream sends the third event and never the second one. -/
theorem publishSwapped_has_gap : ∃ x : Streaming,
    Reaches streamingStep (fun _ _ => True) (startStreaming "task_1" 0) x ∧
    ¬ NoGaps x.store x.stream := by
  have hrun : (streamingRun 0 (fun _ _ => true) publishSwapped).map (fun x =>
      (x.stream.frames.map TaskEvent.sequence, x.stream.taskId, x.stream.cursor,
        x.store.events.map fun event => (event.taskId, event.sequence))) =
      some ([1, 3], "task_1", 0, [("task_1", 1), ("task_1", 2), ("task_1", 3)]) := by decide
  obtain ⟨x, hx, hfacts⟩ := Option.map_eq_some_iff.mp hrun
  simp only [Prod.mk.injEq] at hfacts
  obtain ⟨hframes, htask, hcursor, hevents⟩ := hfacts
  refine ⟨x, reaches_of_run (fun _ _ _ => trivial) hx, fun hgaps => ?_⟩
  have hmissing : ("task_1", 2) ∈ x.store.events.map fun event => (event.taskId, event.sequence) := by
    rw [hevents]
    decide
  obtain ⟨missing, hmem, hmissing⟩ := List.mem_map.mp hmissing
  rw [Prod.mk.injEq] at hmissing
  obtain ⟨first, rest, hlist, hfirst, hrest⟩ := List.map_eq_cons_iff.mp hframes
  obtain ⟨last, rest, rfl, hlast, -⟩ := List.map_eq_cons_iff.mp hrest
  have hsent := hgaps 1 last (by rw [hlist]; rfl) missing hmem (hmissing.1.trans htask.symm)
    (by omega) (by omega)
  rw [hlist] at hsent
  obtain rfl := List.mem_singleton.mp hsent
  omega

end OpenDaemon
