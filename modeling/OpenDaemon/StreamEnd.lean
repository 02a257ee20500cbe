import OpenDaemon.EventStreaming

/-!
# The end of a stream

A stream closes when the status read at its start is terminal, when the last
replayed event is, or when a terminal event above its mark arrives. It misses
the end of its task in three ways: the terminal event is not above the cursor,
another event was committed after it before the replay was queried, or another
event overtook it on the bus.
-/

namespace OpenDaemon

open Runs Interleaving Store SequencedLog

def TaskEvent.ends (event : TaskEvent) (taskId : String) : Bool :=
  decide (event.taskId = taskId) && isTerminalEventType event.eventType

/-- The stream waits for the bus, has taken every message of it, and its task is over. -/
def Outlives (x : Streaming) : Prop :=
  x.stream.phase = .tailing ∧ x.store.published.length ≤ x.stream.position ∧
    ∃ event ∈ x.store.published, event.ends x.stream.taskId

def StreamPhase.tails : StreamPhase → Bool
  | .replaying _ shouldTail => shouldTail
  | .tailing | .lagged | .recovering _ => true
  | _ => false

def takes? (x : Streaming) : StreamingAction → Option TaskEvent
  | .stream .advance =>
    match x.stream.phase with
    | .tailing =>
      if x.stream.position + busCapacity < x.store.published.length then none
      else x.store.published[x.stream.position]?
    | _ => none
  | _ => none

/-- The replay that the action queries for a task whose status was not terminal. -/
def replays? (x : Streaming) : StreamingAction → Option (List TaskEvent)
  | .stream .advance =>
    match x.stream.phase with
    | .querying false => some (x.store.listEventsAfter x.stream.taskId x.stream.cursor)
    | _ => none
  | _ => none

/-- No step of the stream misses the end of its task. -/
structure NoticesEnd (taskId : String) (cursor : ℕ) (x : Streaming) (a : StreamingAction) :
    Prop where
  ahead : x.stream.phase.tails → ∀ last ∈ x.store.events, last.ends taskId →
    cursor < last.sequence
  replayed : ∀ replay, replays? x a = some replay → ∀ last ∈ replay, last.ends taskId →
    replay.getLast?.any fun event => event.ends taskId
  taken : ∀ event, takes? x a = some event → event.taskId = taskId →
    ∀ last ∈ x.store.events, last.ends taskId → last.sequence < event.sequence →
      event.ends taskId ∨ ∃ sent ∈ x.store.published.take x.stream.position,
        sent.taskId = taskId ∧ sent.sequence = last.sequence

/-- A terminal event above the cursor is still to come. -/
structure Stream.Awaits (s : Store) (st : Stream) : Prop where
  unsent : ∀ last ∈ s.events, last.ends st.taskId → st.cursor < last.sequence →
    st.highest < last.sequence
  pending : ∀ last ∈ s.events, last.ends st.taskId → st.cursor < last.sequence →
    ∀ event ∈ st.phase.pending, last.sequence ≤ event.sequence → last ∈ st.phase.pending
  replayed : ∀ replay, st.phase = .replaying replay true → ∀ event ∈ replay,
    ¬ event.ends st.taskId

namespace Stream.Awaits

variable {s s' : Store} {st st' : Stream} {event : TaskEvent} {pending : List TaskEvent}

theorem ends_iff {taskId : String} :
    event.ends taskId ↔ event.taskId = taskId ∧ isTerminalEventType event.eventType := by
  rw [TaskEvent.ends, Bool.and_eq_true, decide_eq_true_eq]

theorem write (h : Awaits s st) (hs' : s'.WellFormed) (hsound : st.Sound s)
    (hevents : s.events <+: s'.events) : Awaits s' st := by
  have hnew : ∀ last ∈ s'.events, last.ends st.taskId → last ∉ s.events →
      ∀ event ∈ st.frames ++ st.phase.pending, event.sequence < last.sequence := by
    intro last hlast hends hnew event hevent
    have hcommitted := hsound.committed event hevent
    exact (hs'.contiguous st.taskId).lt_of_new hevents hcommitted.1 hcommitted.2 hlast
      (ends_iff.mp hends).1 hnew
  refine ⟨fun last hlast hends hcursor => ?_, fun last hlast hends hcursor event hevent hle => ?_,
    h.replayed⟩
  · by_cases hold : last ∈ s.events
    · exact h.unsent last hold hends hcursor
    · rcases hsound.highest_cases with hmark | ⟨sent, hsent, hmark⟩
      · rwa [hmark]
      · rw [hmark]
        exact hnew last hlast hends hold sent (List.mem_append_left _ hsent)
  · by_cases hold : last ∈ s.events
    · exact h.pending last hold hends hcursor event hevent hle
    · have hlt := hnew last hlast hends hold event (List.mem_append_right _ hevent)
      omega

theorem rephase (h : Awaits s st) (phase : StreamPhase) (position : ℕ)
    (hphase : phase.pending = []) :
    Awaits s { st with phase := phase, position := position } := by
  refine ⟨h.unsent, fun last _ _ _ event hevent => ?_, fun replay hreplay event hevent => ?_⟩
  · rw [show ({ st with phase := phase, position := position } : Stream).phase = phase from rfl,
      hphase] at hevent
    cases hevent
  · have hsame : phase.pending = replay := by
      rw [show phase = _ from hreplay]
      rfl
    rw [← hsame, hphase] at hevent
    cases hevent

theorem ends_of_listed {cursor : ℕ} (hlisted : event ∈ s.listEventsAfter st.taskId cursor) :
    event.ends st.taskId = isTerminalEventType event.eventType := by
  rw [TaskEvent.ends, decide_eq_true (mem_listEventsAfter.mp hlisted).2.1, Bool.true_and]

theorem queried {ended : Bool} (hreplay : ended = false →
      ∀ last ∈ s.listEventsAfter st.taskId st.cursor, last.ends st.taskId →
      (s.listEventsAfter st.taskId st.cursor).getLast?.any fun event => event.ends st.taskId)
    (htails : (st.query s ended).phase.tails) : Awaits s (st.query s ended) := by
  have htail : ended = false ∧ ¬ (s.listEventsAfter st.taskId st.cursor).getLast?.any
      fun event => isTerminalEventType event.eventType := by
    simpa [Stream.query, StreamPhase.tails] using htails
  have hnone : ∀ event ∈ s.listEventsAfter st.taskId st.cursor, ¬ event.ends st.taskId := by
    intro event hevent hends
    have hlast := hreplay htail.1 event hevent hends
    cases hget : (s.listEventsAfter st.taskId st.cursor).getLast? with
    | none =>
      rw [hget] at hlast
      cases hlast
    | some last =>
      have hmem := List.mem_of_getLast? hget
      have hordinary := htail.2
      rw [hget, Option.any_some] at hlast hordinary
      rw [ends_of_listed hmem] at hlast
      exact hordinary hlast
  refine ⟨fun last _ _ hcursor => hcursor, fun last hlast hends hcursor => ?_,
    fun replay hphase event hevent => ?_⟩
  · have hlisted := mem_listEventsAfter.mpr ⟨hlast, (ends_iff.mp hends).1, hcursor⟩
    exact absurd hends (hnone last hlisted)
  · have hsame : s.listEventsAfter st.taskId st.cursor = replay :=
      congrArg StreamPhase.pending hphase
    exact hnone event (hsame ▸ hevent)

theorem send_pending (h : Awaits s st) (hsound : st.Sound s)
    (hpending : st.phase.pending = event :: pending) (hordinary : ¬ event.ends st.taskId)
    (phase : StreamPhase) (hphase : phase.pending = pending)
    (hreplay : ∀ replay, phase = .replaying replay true →
      st.phase = .replaying (event :: replay) true) :
    Awaits s (st.send event phase) := by
  have hsorted := (List.pairwise_append.mp hsound.sorted).2.1
  rw [hpending] at hsorted
  have hrest : ∀ last ∈ s.events, last.ends st.taskId → st.cursor < last.sequence →
      ∀ e ∈ event :: pending, last.sequence ≤ e.sequence → last ∈ pending := by
    intro last hlast hends hcursor e he hle
    have hmem := h.pending last hlast hends hcursor e (hpending ▸ he) hle
    rw [hpending] at hmem
    rcases List.mem_cons.mp hmem with rfl | hmem
    · exact absurd hends hordinary
    · exact hmem
  refine ⟨fun last hlast hends hcursor => ?_, fun last hlast hends hcursor e he hle => ?_,
    fun replay hreplaying e he => ?_⟩
  · change event.sequence < last.sequence
    by_contra hle
    have hmem := hrest last hlast hends hcursor event List.mem_cons_self (Nat.not_lt.mp hle)
    exact hle ((List.pairwise_cons.mp hsorted).1 last hmem)
  · change e ∈ phase.pending at he
    change last ∈ phase.pending
    rw [hphase] at he ⊢
    exact hrest last hlast hends hcursor e (List.mem_cons_of_mem _ he) hle
  · exact h.replayed _ (hreplay replay hreplaying) e (List.mem_cons_of_mem _ he)

theorem receive (h : Awaits s st) (hs : s.WellFormed) (hfollows : st.Follows s)
    (hphase : st.phase = .tailing) (hevent : event ∈ s.events) (htask : event.taskId = st.taskId)
    (hordinary : ¬ event.ends st.taskId)
    (htaken : ∀ last ∈ s.events, last.ends st.taskId → last.sequence < event.sequence →
      ∃ sent ∈ s.published.take st.position,
        sent.taskId = st.taskId ∧ sent.sequence = last.sequence) :
    Awaits s ({ st with position := st.position + 1 }.send event .tailing) := by
  refine ⟨fun last hlast hends hcursor => ?_, fun last _ _ _ e he => (by cases he),
    fun replay hreplay => (by cases hreplay)⟩
  change event.sequence < last.sequence
  have hunsent := h.unsent last hlast hends hcursor
  rcases Nat.lt_trichotomy last.sequence event.sequence with hlt | heq | hgt
  · obtain ⟨sent, hsent, hsenttask, hseq⟩ := htaken last hlast hends hlt
    rcases hfollows.consumed (hphase ▸ rfl) sent hsent hsenttask with hbelow | hpending
    · omega
    · rw [hphase] at hpending
      cases hpending
  · have hsame := (hs.contiguous st.taskId).eq_of_seq hlast (ends_iff.mp hends).1 hevent htask heq
    exact absurd (hsame ▸ hends) hordinary
  · exact hgt

theorem after_tails {phase : StreamPhase} (h : (after event phase).tails) :
    ¬ isTerminalEventType event.eventType ∧ after event phase = phase := by
  unfold after at h ⊢
  split at h
  · cases h
  · rename_i hordinary
    exact ⟨hordinary, if_neg hordinary⟩

theorem moves (hs : s.WellFormed) (hsound : st.Sound s) (hfollows : st.Follows s)
    (hpublished : ∀ event ∈ s.published, event ∈ s.events)
    (h : st.phase.tails → Awaits s st)
    (hreplayed : st.phase = .querying false →
      ∀ last ∈ s.listEventsAfter st.taskId st.cursor, last.ends st.taskId →
      (s.listEventsAfter st.taskId st.cursor).getLast?.any fun event => event.ends st.taskId)
    (htaken : ∀ event, st.phase = .tailing → s.published.length ≤ st.position + busCapacity →
      s.published[st.position]? = some event → event.taskId = st.taskId →
      ∀ last ∈ s.events, last.ends st.taskId → last.sequence < event.sequence →
        event.ends st.taskId ∨ ∃ sent ∈ s.published.take st.position,
          sent.taskId = st.taskId ∧ sent.sequence = last.sequence)
    (hmove : st.Moves s .advance st') (htails : st'.phase.tails) : Awaits s st' := by
  cases hmove with
  | readStatus task hphase => cases htails
  | missing hphase => cases htails
  | subscribe ended hphase => cases htails
  | query ended hphase =>
    refine queried (fun hended => ?_) htails
    rw [hended] at hphase
    exact hreplayed hphase
  | replay event pending shouldTail hphase =>
    obtain rfl : shouldTail = true := htails
    have hawaits := h (by rw [hphase]; rfl)
    have hordinary := hawaits.replayed _ hphase event List.mem_cons_self
    refine hawaits.send_pending hsound (by rw [hphase]; rfl) hordinary _ rfl fun replay hsame => ?_
    obtain ⟨rfl, -⟩ := StreamPhase.replaying.inj hsame
    exact hphase
  | tail hphase => exact (h (by rw [hphase]; rfl)).rephase _ st.position rfl
  | finish hphase => cases htails
  | lag hphase hbehind => exact (h (by rw [hphase]; rfl)).rephase _ _ rfl
  | skip event hphase hreceived hskip =>
    exact (h (by rw [hphase]; rfl)).rephase st.phase _ (by rw [hphase]; rfl)
  | receive event hphase hreceived htask habove hcurrent =>
    obtain ⟨hterminal, hafter⟩ := after_tails htails
    have hordinary : ¬ event.ends st.taskId := fun hends => hterminal (ends_iff.mp hends).2
    rw [hafter]
    refine (h (by rw [hphase]; rfl)).receive hs hfollows hphase
      (hpublished event (List.mem_of_getElem? hreceived)) htask hordinary fun last hlast hends hlt => ?_
    exact (htaken event hphase hcurrent hreceived htask last hlast hends hlt).resolve_left hordinary
  | requery hphase =>
    have hawaits := h (by rw [hphase]; rfl)
    refine ⟨hawaits.unsent, fun last hlast hends hcursor event _ _ => ?_,
      fun replay hreplay => (by cases hreplay)⟩
    exact mem_listEventsAfter.mpr
      ⟨hlast, (ends_iff.mp hends).1, hawaits.unsent last hlast hends hcursor⟩
  | recovered hphase => exact (h (by rw [hphase]; rfl)).rephase _ st.position rfl
  | passOver event pending hphase hbelow =>
    have habove := hsound.highest_lt_pending (hphase ▸ List.mem_cons_self : event ∈ st.phase.pending)
    exact absurd hbelow (Nat.not_le.mpr habove)
  | catchUp event pending hphase =>
    obtain ⟨hterminal, hafter⟩ := after_tails htails
    rw [hafter]
    refine (h (by rw [hphase]; rfl)).send_pending hsound (by rw [hphase]; rfl)
      (fun hends => hterminal (ends_iff.mp hends).2) _ rfl fun replay hsame => ?_
    cases hsame

end Stream.Awaits

structure Streaming.Watches (taskId : String) (cursor : ℕ) (x : Streaming) : Prop where
  delivers : x.Delivers taskId cursor
  awaits : x.stream.phase.tails → x.stream.Awaits x.store
  ahead : x.stream.phase = .tailing → ∀ last ∈ x.store.published, last.ends taskId →
    cursor < last.sequence

section Watching
variable {taskId : String} {cursor : ℕ} {x y : Streaming} {a : StreamingAction}

theorem watches_start (taskId : String) (cursor : ℕ) :
    (startStreaming taskId cursor).Watches taskId cursor :=
  ⟨delivers_start taskId cursor, fun h => (by cases h), fun h => (by cases h)⟩

theorem watches_writer {b : EventAction} (hx : x.Watches taskId cursor)
    (hok : NoticesEnd taskId cursor x (.writer b))
    (hstep : streamingStep x (.writer b) = some y) (hnext : eventStep x.pool b = some y.pool)
    (hgrows : x.store.Grows y.store) (hstream : y.stream = x.stream) : y.Watches taskId cursor := by
  have hdelivers := delivers_step hx.delivers hstep
  refine ⟨hdelivers, fun htails => ?_, fun hphase last hlast hends => ?_⟩
  · rw [hstream] at htails ⊢
    exact (hx.awaits htails).write hdelivers.intact.wellFormed hx.delivers.sound hgrows.events
  · rw [hstream] at hphase
    refine hok.ahead (by rw [hphase]; rfl) last ?_ hends
    obtain hsame | ⟨sent, -, hsent, happend⟩ := hx.delivers.intact.published_step hnext
    · rw [show y.store.published = x.store.published from hsame] at hlast
      exact hx.delivers.intact.committed last hlast
    · rw [show y.store.published = x.store.published ++ [sent] from happend] at hlast
      rcases List.mem_append.mp hlast with hlast | hlast
      · exact hx.delivers.intact.committed last hlast
      · obtain rfl := List.mem_singleton.mp hlast
        exact hsent

theorem Stream.Moves.tails {s : Store} {st st' : Stream} {a : StreamAction} (h : st.Moves s a st')
    (hphase : st'.phase = .tailing) : st.phase.tails := by
  cases h with
  | query ended => cases hphase
  | tail hbefore => rw [hbefore]; rfl
  | skip event hbefore => rw [hbefore]; rfl
  | receive event hbefore => rw [hbefore]; rfl
  | recovered hbefore => rw [hbefore]; rfl
  | catchUp event pending hbefore => rw [hbefore]; rfl
  | heartbeat hbefore => rw [hbefore]; rfl
  | _ => cases hphase

theorem watches_stream (hx : x.Watches taskId cursor)
    (hok : NoticesEnd taskId cursor x (.stream .advance))
    (hstep : streamingStep x (.stream .advance) = some y) (hpool : y.pool = x.pool)
    (hmoves : x.stream.Moves x.store .advance y.stream) : y.Watches taskId cursor := by
  have hstore : y.store = x.store := by rw [Streaming.store, hpool, Streaming.store]
  have htask := hx.delivers.task
  have hcursor := hx.delivers.cursor
  refine ⟨delivers_step hx.delivers hstep, fun htails => ?_, fun hphase last hlast hends => ?_⟩
  · rw [hstore]
    refine Stream.Awaits.moves hx.delivers.intact.wellFormed hx.delivers.sound
      hx.delivers.follows hx.delivers.intact.committed hx.awaits ?_ ?_ hmoves htails
    · intro hquery
      rw [htask, hcursor]
      refine hok.replayed _ ?_
      rw [replays?, hquery, htask, hcursor]
    · intro event htail hcurrent hreceived hevent last hlast hends hlt
      rw [htask] at hevent hends ⊢
      refine hok.taken event ?_ hevent last hlast hends hlt
      rw [takes?, htail]
      exact (if_neg (Nat.not_lt.mpr hcurrent)).trans hreceived
  · rw [hstore] at hlast
    exact hok.ahead (hmoves.tails hphase) last (hx.delivers.intact.committed last hlast) hends

theorem watches_step (hx : x.Watches taskId cursor) (hok : NoticesEnd taskId cursor x a)
    (hstep : streamingStep x a = some y) : y.Watches taskId cursor := by
  obtain ⟨-, ⟨b, rfl, hnext, hgrows, hstream⟩ | ⟨b, rfl, hpool, hmoves⟩⟩ :=
    streamingStep_cases hx.delivers.intact hstep
  · exact watches_writer hx hok hstep hnext hgrows hstream
  · cases b with
    | advance => exact watches_stream hx hok hstep hpool hmoves
    | stop =>
      have hdelivers := delivers_step hx.delivers hstep
      obtain ⟨pool, stream⟩ := y
      cases hmoves
      exact ⟨hdelivers, fun h => (by cases h), fun h => (by cases h)⟩
    | heartbeat =>
      have hdelivers := delivers_step hx.delivers hstep
      obtain ⟨pool, stream⟩ := y
      obtain rfl : pool = x.pool := hpool
      cases hmoves with
      | heartbeat hphase =>
        have hawaits := hx.awaits (by rw [hphase]; rfl)
        exact ⟨hdelivers, fun _ => ⟨hawaits.unsent, hawaits.pending, hawaits.replayed⟩, hx.ahead⟩

end Watching

/-- In every run whose steps notice the end of the task, the stream does not outlive it. -/
theorem stream_not_outlives {taskId : String} {cursor : ℕ} {x : Streaming}
    (h : Reaches streamingStep (NoticesEnd taskId cursor) (startStreaming taskId cursor) x) :
    ¬ Outlives x := by
  have hx : x.Watches taskId cursor :=
    h.invariant (watches_start taskId cursor) fun _ _ _ hx hok hstep => watches_step hx hok hstep
  rintro ⟨hphase, hconsumed, last, hlast, hends⟩
  have hends' : last.ends taskId := hx.delivers.task ▸ hends
  have hcursor : x.stream.cursor < last.sequence :=
    hx.delivers.cursor.symm ▸ hx.ahead hphase last hlast hends'
  have hunsent : x.stream.highest < last.sequence :=
    (hx.awaits (by rw [hphase]; rfl)).unsent last (hx.delivers.intact.committed last hlast) hends
      hcursor
  -- every message has been taken, so the terminal one is not above the mark
  have htaken : last ∈ x.store.published.take x.stream.position := by
    rwa [List.take_of_length_le hconsumed]
  rcases hx.delivers.follows.consumed (hphase ▸ rfl) last htaken
    (Stream.Awaits.ends_iff.mp hends).1 with hbelow | hpending
  · omega
  · rw [hphase] at hpending
    cases hpending

def noticesEnd (taskId : String) (cursor : ℕ) (x : Streaming) (a : StreamingAction) : Bool :=
  let ended := x.store.events.filter fun event => event.ends taskId
  (!x.stream.phase.tails || ended.all fun last => decide (cursor < last.sequence)) &&
  ((replays? x a).all fun replay => !(replay.any fun event => event.ends taskId) ||
    replay.getLast?.any fun event => event.ends taskId) &&
  (takes? x a).all fun event => !decide (event.taskId = taskId) || ended.all fun last =>
    !decide (last.sequence < event.sequence) || event.ends taskId ||
      (x.store.published.take x.stream.position).any fun sent =>
        decide (sent.taskId = taskId) && decide (sent.sequence = last.sequence)

theorem noticesEnd_sound {taskId : String} {cursor : ℕ} {x : Streaming} {a : StreamingAction}
    (h : noticesEnd taskId cursor x a) : NoticesEnd taskId cursor x a := by
  simp only [noticesEnd, Bool.and_eq_true] at h
  obtain ⟨⟨hahead, hreplayed⟩, htaken⟩ := h
  refine ⟨fun htails last hlast hends => ?_, fun replay hreplay last hlast hends => ?_,
    fun event hevent htask last hlast hends hlt => ?_⟩
  · simp only [htails, Bool.not_true, Bool.false_or, List.all_eq_true, List.mem_filter,
      decide_eq_true_eq, and_imp] at hahead
    exact hahead last hlast hends
  · rw [hreplay, Option.all_some, Bool.or_eq_true, Bool.not_eq_true'] at hreplayed
    refine hreplayed.resolve_left fun hnone => ?_
    rw [List.any_eq_false] at hnone
    exact hnone last hlast hends
  · rw [hevent, Option.all_some] at htaken
    simp only [htask, decide_true, Bool.not_true, Bool.false_or, List.all_eq_true,
      List.mem_filter, and_imp] at htaken
    have hsent := htaken last hlast hends
    simp only [hlt, decide_true, Bool.not_true, Bool.false_or, Bool.or_eq_true, List.any_eq_true,
      Bool.and_eq_true, decide_eq_true_eq] at hsent
    exact hsent

def StreamPhase.isTailing : StreamPhase → Bool
  | .tailing => true
  | _ => false

theorem StreamPhase.isTailing_iff {phase : StreamPhase} : phase.isTailing ↔ phase = .tailing := by
  cases phase <;> simp [isTailing]

def cancelTask : StreamingAction := .writer (.spawn (.store (.cancel "task_1")))

def openBeyond : List StreamingAction :=
  .writer (.spawn (.store (.create sampleTask))) :: writerSteps 0 5 ++
    List.replicate 4 (.stream .advance)

set_option maxRecDepth 10000 in
theorem stream_not_outlives_cancel : ∃ x : Streaming,
    (x.store.published.map fun event => event.ends "task_1") = [false, true] ∧
    x.stream.frames.map TaskEvent.sequence = [1, 2] ∧ ¬ Outlives x := by
  have hrun : (streamingRun 0 (noticesEnd "task_1" 0)
      (openStream ++ cancelTask :: writerSteps 1 7 ++ [.stream .advance])).map (fun x =>
        (x.store.published.map fun event => event.ends "task_1",
          x.stream.frames.map TaskEvent.sequence)) = some ([false, true], [1, 2]) := by decide
  obtain ⟨x, hx, hfacts⟩ := Option.map_eq_some_iff.mp hrun
  rw [Prod.mk.injEq] at hfacts
  exact ⟨x, hfacts.1, hfacts.2,
    stream_not_outlives (reaches_of_run (fun _ _ => noticesEnd_sound) hx)⟩

set_option maxRecDepth 10000 in
/-- The cursor is accepted, the terminal event is below it, and the stream waits for ever. -/
theorem openBeyond_outlives : ∃ (cursor : ℕ) (x : Streaming),
    TaskEventService.parseCursor (some "7") none = .ok cursor ∧
    Reaches streamingStep (fun _ _ => True) (startStreaming "task_1" cursor) x ∧ Outlives x := by
  have hrun : (streamingRun 7 (fun _ _ => true)
      (openBeyond ++ cancelTask :: writerSteps 1 7 ++ [.stream .advance])).map (fun x =>
        (x.stream.phase.isTailing, decide (x.store.published.length ≤ x.stream.position),
          x.store.published.any fun event => event.ends x.stream.taskId)) =
      some (true, true, true) := by decide
  obtain ⟨x, hx, hfacts⟩ := Option.map_eq_some_iff.mp hrun
  rw [Prod.mk.injEq, Prod.mk.injEq, StreamPhase.isTailing_iff, decide_eq_true_eq,
    List.any_eq_true] at hfacts
  exact ⟨7, x, by decide, reaches_of_run (fun _ _ _ => trivial) hx, hfacts⟩

end OpenDaemon
