import OpenDaemon.StreamEnd
import OpenDaemon.TaskRun

/-!
# Live tail and replay

A stream that is opened when its task was just created and one that is opened
after the run should deliver the same events. The live one stops at a terminal
event, and the later one returns the whole log, so they agree as long as no
event is committed after a terminal one.
-/

namespace OpenDaemon

open Runs Interleaving Store SequencedLog

/-- The log of a task as its streams rely on it: every event has been published, in order, and
nothing follows a terminal one. -/
structure Store.Streamable (taskId : String) (s : Store) : Prop where
  wellFormed : s.WellFormed
  committed : ∀ event ∈ s.published, event ∈ s.events
  logged : ∃ event ∈ s.events, event.taskId = taskId
  prompt : ∀ event ∈ s.events, event.taskId = taskId → event ∈ s.published
  ordered : BusOrdered taskId s
  ended : ∀ status, s.statusOf taskId = some status → status.isTerminal →
    ∃ last ∈ s.events, last.ends taskId
  last : ∀ last ∈ s.events, last.ends taskId → ∀ event ∈ s.events, event.taskId = taskId →
    event.sequence ≤ last.sequence

namespace Store.Streamable

variable {taskId : String} {s s' : Store}

theorem isTerminal_of_status {eventType : TaskEventType} {status : TaskStatus}
    (h : eventType.status? = some status) (hterm : status.isTerminal) :
    isTerminalEventType eventType := by
  cases eventType <;> cases h <;> first | rfl | cases hterm

theorem ordered_publish {sent : TaskEvent} (h : s.Streamable taskId) (hs' : s'.WellFormed)
    (hevents : s.events <+: s'.events) (happend : s'.published = s.published ++ [sent])
    (hsent : ∀ event ∈ s'.events, event ∈ s.events ∨ event = sent) : BusOrdered taskId s' := by
  refine h.ordered.publish hs' hevents h.committed happend fun _ earlier hearlier htask hlt => ?_
  rcases hsent earlier hearlier with hold | rfl
  · exact ⟨earlier, h.prompt earlier hold htask, htask, rfl⟩
  · omega

theorem record {event : TaskEvent} (h : s.Streamable taskId) (hs' : s'.WellFormed)
    (hquiet : (∃ last ∈ s.events, last.ends taskId) → event.taskId ≠ taskId)
    (hevents : s'.events = s.events ++ [event])
    (hpublished : s'.published = s.published ++ [event])
    (hstatus : s'.statusOf taskId = s.statusOf taskId ∨
      event.taskId = taskId ∧ s'.statusOf taskId = event.eventType.status?) :
    s'.Streamable taskId := by
  have hinit : s.events <+: s'.events := hevents ▸ List.prefix_append _ _
  have hcases : ∀ e ∈ s'.events, e ∈ s.events ∨ e = event := by
    intro e he
    rw [hevents] at he
    exact (List.mem_append.mp he).imp_right List.mem_singleton.mp
  have hevent : event ∈ s'.events := hevents ▸ List.mem_append_right _ List.mem_cons_self
  refine ⟨hs', fun e he => ?_, ?_, fun e he htask => ?_,
    h.ordered_publish hs' hinit hpublished hcases, fun status hs hterm => ?_,
    fun last hlast hends e he htask => ?_⟩
  · rw [hpublished] at he
    rcases List.mem_append.mp he with he | he
    · exact hinit.subset (h.committed e he)
    · exact List.mem_singleton.mp he ▸ hevent
  · obtain ⟨e, he, htask⟩ := h.logged
    exact ⟨e, hinit.subset he, htask⟩
  · rw [hpublished]
    rcases hcases e he with he | rfl
    · exact List.mem_append_left _ (h.prompt e he htask)
    · exact List.mem_append_right _ List.mem_cons_self
  · rcases hstatus with hsame | ⟨htask, hnew⟩
    · obtain ⟨last, hlast, hends⟩ := h.ended status (hsame ▸ hs) hterm
      exact ⟨last, hinit.subset hlast, hends⟩
    · exact ⟨event, hevent, Stream.Awaits.ends_iff.mpr
        ⟨htask, isTerminal_of_status (hnew.symm.trans hs) hterm⟩⟩
  · have hlasttask := (Stream.Awaits.ends_iff.mp hends).1
    by_cases hold : last ∈ s.events
    · rcases hcases e he with he | rfl
      · exact h.last last hold hends e he htask
      · exact absurd htask (hquiet ⟨last, hold, hends⟩)
    · by_cases hbefore : e ∈ s.events
      · exact Nat.le_of_lt ((hs'.contiguous taskId).lt_of_new hinit hbefore htask hlast hlasttask
          hold)
      · have he' := (hcases e he).resolve_left hbefore
        have hlast' := (hcases last hlast).resolve_left hold
        rw [he', hlast']

theorem proceed (h : s.Streamable taskId) (hs' : s'.WellFormed) (hproceeds : s.Proceeds s')
    (hquiet : (∃ last ∈ s.events, last.ends taskId) →
      ∀ event ∈ s'.events.drop s.events.length, event.taskId ≠ taskId) : s'.Streamable taskId := by
  cases hproceeds with
  | call hrecords =>
    cases hrecords with
    | quiet hevents hpublished hstatuses =>
      refine ⟨hs', ?_, ?_, ?_, ?_, ?_, ?_⟩
      · rw [hevents, hpublished]
        exact h.committed
      · rw [hevents]
        exact h.logged
      · rw [hevents, hpublished]
        exact h.prompt
      · exact h.ordered.write hs' (hevents ▸ List.prefix_rfl) h.committed hpublished
      · rw [hevents, hstatuses]
        exact h.ended
      · rw [hevents]
        exact h.last
    | logged event hevents hpublished hstatuses =>
      refine h.record hs' (fun hends => hquiet hends event ?_) hevents hpublished (hstatuses taskId)
      rw [hevents, List.drop_left]
      exact List.mem_cons_self
  | republish event hevent hstore =>
    subst hstore
    refine ⟨hs', fun e he => ?_, h.logged, fun e he htask => ?_,
      h.ordered_publish hs' List.prefix_rfl rfl fun e he => .inl he, h.ended, h.last⟩
    · rcases List.mem_append.mp he with he | he
      · exact h.committed e he
      · exact List.mem_singleton.mp he ▸ hevent
    · exact List.mem_append_left _ (h.prompt e he htask)

end Store.Streamable

/-- A stream that closes, or will after its replay, has a terminal event to send or has sent it. -/
def Stream.Closing (s : Store) (st : Stream) : Prop :=
  match st.phase with
  | .subscribing true | .querying true => ∃ last ∈ s.events, last.ends st.taskId
  | .replaying _ false | .closed => ∃ last ∈ st.frames ++ st.phase.pending, last.ends st.taskId
  | _ => True

namespace Stream.Closing

variable {s s' : Store} {st st' : Stream}

theorem write (h : Closing s st) (hevents : s.events <+: s'.events) : Closing s' st := by
  unfold Closing at h ⊢
  split
  all_goals simp_all only
  · obtain ⟨last, hlast, hends⟩ := h
    exact ⟨last, hevents.subset hlast, hends⟩
  · obtain ⟨last, hlast, hends⟩ := h
    exact ⟨last, hevents.subset hlast, hends⟩

theorem of_tails (h : st.phase.tails) : Closing s st := by
  unfold Closing
  split
  · rename_i hphase
    rw [hphase] at h
    cases h
  · rename_i hphase
    rw [hphase] at h
    cases h
  · rename_i hphase
    rw [hphase] at h
    cases h
  · rename_i hphase
    rw [hphase] at h
    cases h
  · trivial

theorem send_after {event : TaskEvent} {phase : StreamPhase} (htask : event.taskId = st.taskId)
    (htails : phase.tails) : Closing s (st.send event (after event phase)) := by
  by_cases hterm : isTerminalEventType event.eventType
  · have hclosed : after event phase = .closed := if_pos hterm
    rw [hclosed]
    refine ⟨event, List.mem_append_left _ ?_, Awaits.ends_iff.mpr ⟨htask, hterm⟩⟩
    rw [frames_send]
    exact List.mem_append_right _ List.mem_cons_self
  · have hopen : after event phase = phase := if_neg hterm
    rw [hopen]
    exact of_tails htails

theorem queried (h : Closing s st) (hs : s.WellFormed) (hcursor : st.cursor = 0) {ended : Bool}
    (hphase : st.phase = .querying ended) : Closing s (st.query s ended) := by
  by_cases htails : (st.query s ended).phase.tails
  · exact of_tails htails
  · have hends : ∃ last ∈ s.listEventsAfter st.taskId st.cursor, last.ends st.taskId := by
      cases ended with
      | true =>
        unfold Closing at h
        rw [hphase] at h
        obtain ⟨last, hlast, hends⟩ := h
        have htask := (Awaits.ends_iff.mp hends).1
        have hpositive := (hs.contiguous st.taskId).mem_iff.mp ⟨last, hlast, htask, rfl⟩
        exact ⟨last, mem_listEventsAfter.mpr ⟨hlast, htask, by omega⟩, hends⟩
      | false =>
        have hlast : (s.listEventsAfter st.taskId st.cursor).getLast?.any
            fun event => isTerminalEventType event.eventType := by
          simpa [Stream.query, StreamPhase.tails] using htails
        obtain ⟨last, hget, hterm⟩ := (Option.any_eq_true _ _).mp hlast
        have hlisted := List.mem_of_getLast? hget
        exact ⟨last, hlisted, (Awaits.ends_of_listed hlisted).trans hterm⟩
    have hreplay : (st.query s ended).phase =
        .replaying (s.listEventsAfter st.taskId st.cursor) false := by
      simpa [Stream.query, StreamPhase.tails] using htails
    obtain ⟨last, hlast, hlastends⟩ := hends
    unfold Closing
    rw [hreplay]
    exact ⟨last, List.mem_append_right _ hlast, hlastends⟩

theorem moves (h : Closing s st) (hs : s.Streamable st.taskId) (hcursor : st.cursor = 0)
    (hsound : st.Sound s) {a : StreamAction} (ha : a ≠ .stop) (hmove : st.Moves s a st') :
    Closing s st' := by
  cases hmove with
  | readStatus task hphase hfound =>
    cases hterm : task.status.isTerminal with
    | false => trivial
    | true =>
      exact hs.ended task.status (by rw [Store.statusOf, hfound]; rfl) hterm
  | missing hphase hmissing =>
    obtain ⟨event, hevent, htask⟩ := hs.logged
    have hfound := hs.wellFormed.eventTasks event hevent
    rw [htask, hmissing] at hfound
    cases hfound
  | subscribe ended hphase =>
    unfold Closing at h
    rw [hphase] at h
    cases ended with
    | false => trivial
    | true => exact h
  | query ended hphase => exact h.queried hs.wellFormed hcursor hphase
  | replay event pending shouldTail hphase =>
    unfold Closing at h
    rw [hphase] at h
    cases shouldTail with
    | true => trivial
    | false =>
      obtain ⟨last, hlast, hends⟩ := h
      refine ⟨last, ?_, hends⟩
      rw [frames_send, List.append_assoc]
      exact hlast
  | tail hphase => trivial
  | finish hphase =>
    unfold Closing at h
    rw [hphase] at h
    exact h
  | lag hphase hbehind => trivial
  | skip event hphase hreceived hskip => exact of_tails (hphase ▸ rfl)
  | receive event hphase hreceived htask habove hcurrent => exact send_after htask rfl
  | requery hphase => trivial
  | recovered hphase => trivial
  | passOver event pending hphase hbelow => trivial
  | catchUp event pending hphase habove =>
    have hmem : event ∈ st.frames ++ st.phase.pending := by
      rw [hphase]
      exact List.mem_append_right _ List.mem_cons_self
    exact send_after (hsound.committed event hmem).2 rfl
  | heartbeat hphase => exact of_tails (hphase ▸ rfl)
  | stop => exact absurd rfl ha

end Stream.Closing

structure Stream.Serves (taskId : String) (s : Store) (st : Stream) : Prop where
  task : st.taskId = taskId
  cursor : st.cursor = 0
  sound : st.Sound s
  follows : st.Follows s
  gapless : Gapless s st
  closing : st.Closing s

/-- The stream has closed, or it has taken every message of the bus and waits. -/
def Delivered (s : Store) (st : Stream) : Prop :=
  st.phase = .closed ∨ st.phase = .tailing ∧ s.published.length ≤ st.position

namespace Stream.Serves

variable {taskId : String} {s s' : Store} {st st' : Stream}

theorem start (taskId : String) (s : Store) : Serves taskId s (.start taskId 0) :=
  ⟨rfl, rfl, .start s taskId 0, .start s taskId 0, List.nil_prefix, trivial⟩

theorem write (h : Serves taskId s st) (hevents : s.events <+: s'.events)
    (hpublished : s.published <+: s'.published) : Serves taskId s' st :=
  ⟨h.task, h.cursor, h.sound.write hevents, h.follows.write hpublished, h.gapless.write hevents,
    h.closing.write hevents⟩

theorem moves (h : Serves taskId s st) (hs : s.Streamable taskId) {a : StreamAction}
    (ha : a ≠ .stop) (hmove : st.Moves s a st') : Serves taskId s st' := by
  have hordered : BusOrdered st.taskId s := h.task.symm ▸ hs.ordered
  exact ⟨hmove.same.1.trans h.task, hmove.same.2.trans h.cursor,
    h.sound.moves hs.wellFormed hs.committed hmove, h.follows.moves h.sound hs.committed hmove,
    h.gapless.moves hs.wellFormed h.sound h.follows hordered hs.committed hmove,
    h.closing.moves (h.task.symm ▸ hs) h.cursor h.sound ha hmove⟩

theorem delivered (h : Serves taskId s st) (hs : s.Streamable taskId) (hdone : Delivered s st) :
    st.frames = s.listEventsAfter taskId 0 := by
  rcases hdone with hclosed | ⟨htail, hconsumed⟩
  · have hclosing := h.closing
    have hinit := h.gapless
    unfold Closing at hclosing
    unfold Gapless at hinit
    rw [hclosed] at hclosing hinit
    rw [h.task, h.cursor] at hinit
    rw [h.task] at hclosing
    obtain ⟨last, hlast, hends⟩ := hclosing
    have hnil : st.frames ++ StreamPhase.closed.pending = st.frames := List.append_nil _
    rw [hnil] at hinit hlast
    have hlisted := mem_listEventsAfter.mp (hinit.subset hlast)
    refine prefix_eq_of_last (listEventsAfter_sorted hs.wellFormed taskId 0) hinit hlast
      fun event hevent => ?_
    have hevent' := mem_listEventsAfter.mp hevent
    exact hs.last last hlisted.1 hends event hevent'.1 hevent'.2.1
  · have hnone : s.listEventsAfter st.taskId st.highest = [] := by
      refine List.eq_nil_iff_forall_not_mem.mpr fun event hevent => ?_
      obtain ⟨hmem, htask, habove⟩ := mem_listEventsAfter.mp hevent
      have hpublished := hs.prompt event hmem (htask.trans h.task)
      rw [← List.take_of_length_le hconsumed] at hpublished
      rcases h.follows.consumed (htail ▸ rfl) event hpublished htask with hbelow | hpending
      · omega
      · rw [htail] at hpending
        cases hpending
    have hall := h.gapless.requeried hs.wellFormed h.sound
    rwa [hnone, List.append_nil, h.task, h.cursor] at hall

end Stream.Serves

structure LiveRun where
  pool : RunPool
  live : Stream

inductive LiveAction
  | writer (a : RunAction)
  | stream (a : StreamAction)

def liveStep (config : SchedulerConfig) (taskId : String) (x : LiveRun) :
    LiveAction → Option LiveRun
  | .writer a => (runPoolStep config taskId x.pool a).map fun p => ⟨p, x.live⟩
  | .stream a => (streamStep x.pool.shared.store x.live a).map fun st => ⟨x.pool, st⟩

def startLive (s : Store) (taskId : String) : LiveRun := ⟨⟨.start s, []⟩, .start taskId 0⟩

namespace LiveRun

def store (x : LiveRun) : Store := x.pool.shared.store

def commits (x : LiveRun) : LiveAction → List TaskEvent
  | .writer (.advance i input) =>
    match x.pool.threads[i]? with
    | some ⟨_, .step q _⟩ =>
      (q.exec input x.pool.shared).2.store.events.drop x.store.events.length
    | _ => []
  | _ => []

end LiveRun

def Unstopped (a : LiveAction) : Prop := a ≠ .stream .stop

/-- No event of the task is committed after a terminal one. -/
def QuietAfterEnd (taskId : String) (x : LiveRun) (a : LiveAction) : Prop :=
  (∃ last ∈ x.store.events, last.ends taskId) → ∀ event ∈ x.commits a, event.taskId ≠ taskId

section Runs
variable {config : SchedulerConfig} {taskId : String} {x y : LiveRun} {a : LiveAction}

theorem commits_writer {b : RunAction} {p : RunPool}
    (h : runPoolStep config taskId x.pool b = some p) :
    p.shared.store.events.drop x.store.events.length = x.commits (.writer b) := by
  unfold runPoolStep at h
  split at h
  · cases h
  · obtain ⟨op, rfl, rfl⟩ | ⟨i, input, op, q, k, rfl, hi, rfl⟩ := step_cases h
    · exact List.drop_length
    · simp only [LiveRun.commits, hi]

theorem agrees_step (hintact : x.pool.Intact) (hlog : x.store.Streamable taskId)
    (hlive : x.live.Serves taskId x.store) (hok : Unstopped a ∧ QuietAfterEnd taskId x a)
    (h : liveStep config taskId x a = some y) :
    y.pool.Intact ∧ y.store.Streamable taskId ∧ y.live.Serves taskId y.store := by
  cases a with
  | writer b =>
    obtain ⟨p, hp, rfl⟩ := Option.map_eq_some_iff.mp h
    obtain ⟨hintact', hproceeds⟩ := hintact.step hp
    refine ⟨hintact', hlog.proceed hintact'.wellFormed hproceeds fun hends => ?_,
      hlive.write hproceeds.events_initial hproceeds.published_initial⟩
    have hcommits := commits_writer hp
    change ∀ event ∈ p.shared.store.events.drop x.store.events.length, event.taskId ≠ taskId
    rw [hcommits]
    exact hok.2 hends
  | stream b =>
    obtain ⟨st, hst, rfl⟩ := Option.map_eq_some_iff.mp h
    have hb : b ≠ .stop := fun hstop => hok.1 (congrArg LiveAction.stream hstop)
    exact ⟨hintact, hlog, hlive.moves hlog hb (Stream.moves_of_step hst)⟩

end Runs

theorem streamable_created {s : Store} (hs : s.WellFormed)
    (hbus : ∀ event ∈ s.published, event ∈ s.events) (row : NewTask) (now : String) :
    (s.created row now).Streamable (RowTable.rowKey "task_" (RowTable.nextRowid s.tasks)) := by
  have hfirst : ∀ event ∈ (s.created row now).events,
      event.taskId = RowTable.rowKey "task_" (RowTable.nextRowid s.tasks) →
        event = s.firstEvent now := by
    intro event hevent htask
    rcases List.mem_append.mp hevent with hevent | hevent
    · exact absurd htask (not_mem_events_next hs event hevent)
    · exact List.mem_singleton.mp hevent
  have hcommitted : ∀ event ∈ (s.created row now).published, event ∈ (s.created row now).events := by
    intro event hevent
    rcases List.mem_append.mp hevent with hevent | hevent
    · exact List.mem_append_left _ (hbus event hevent)
    · exact List.mem_append_right _ hevent
  refine ⟨wellFormed_created hs row, hcommitted,
    ⟨s.firstEvent now, List.mem_append_right _ List.mem_cons_self, rfl⟩, fun event hevent htask => ?_,
    fun i event hi htask earlier hearlier htask' hlt => ?_, fun status hstatus hterm => ?_,
    fun last hlast hends => ?_⟩
  · rw [hfirst event hevent htask]
    exact List.mem_append_right _ List.mem_cons_self
  · rw [hfirst event (hcommitted event (List.mem_of_getElem? hi)) htask,
      hfirst earlier hearlier htask'] at hlt
    exact absurd hlt (Nat.lt_irrefl _)
  · rw [Store.statusOf, created_findTask hs, if_pos rfl] at hstatus
    obtain rfl := Option.some.inj hstatus
    cases hterm
  · obtain ⟨htask, hterm⟩ := Stream.Awaits.ends_iff.mp hends
    rw [hfirst last hlast htask] at hterm
    cases hterm

/-- In every run that commits nothing after the end of the task, a stream that was opened when
the task was created and one that is opened afterwards deliver the same events. -/
theorem live_agrees_with_replay {config : SchedulerConfig} (s : StoreState) {t : Store}
    {input : CreateTask} {now : String} {task : Task}
    (hbus : ∀ event ∈ s.store.published, event ∈ s.store.events)
    (hcreate : runAlone (TaskStore.create input) now s.store = (.ok task, t)) {x : LiveRun}
    (h : Reaches (liveStep config task.id)
      (fun x a => Unstopped a ∧ QuietAfterEnd task.id x a) (startLive t task.id) x)
    (hlive : Delivered x.store x.live) {replay : Stream}
    (hreplay : Reaches (streamStep x.store) (fun _ a => a ≠ .stop) (.start task.id 0) replay)
    (hdone : Delivered x.store replay) : x.live.frames = replay.frames := by
  have hcreated : t.Streamable task.id := by
    rw [runAlone_create s.wellFormed] at hcreate
    cases hv : input.validate with
    | error e =>
      simp only [hv] at hcreate
      cases hcreate
    | ok _ =>
      simp only [hv] at hcreate
      obtain ⟨hok, rfl⟩ := Prod.mk.inj hcreate
      obtain rfl := Except.ok.inj hok
      exact streamable_created s.wellFormed hbus _ now
  let I (x : LiveRun) : Prop :=
    x.pool.Intact ∧ x.store.Streamable task.id ∧ x.live.Serves task.id x.store
  have hI : I x := by
    refine h.invariant ⟨⟨hcreated.wellFormed, hcreated.committed, fun t ht => (by cases ht)⟩,
      hcreated, .start task.id t⟩ fun x a y hx hok hstep => ?_
    exact agrees_step hx.1 hx.2.1 hx.2.2 hok hstep
  have hserves : replay.Serves task.id x.store :=
    hreplay.invariant (.start task.id x.store) fun st a st' hst ha hstep =>
      hst.moves hI.2.1 ha (Stream.moves_of_step hstep)
  rw [hI.2.2.delivered hI.2.1 hlive, hserves.delivered hI.2.1 hdone]

def RunPool.Over (p : RunPool) : Prop := ∀ t ∈ p.threads, ∀ q k, t.rest ≠ .step q k

/-- The bus retains every message that the live stream has not taken. -/
def KeepsUp (x : LiveRun) : Prop :=
  x.live.phase = .tailing → x.store.published.length ≤ x.live.position + busCapacity

def delivered (s : Store) (st : Stream) : Bool :=
  match st.phase with
  | .closed => true
  | .tailing => decide (s.published.length ≤ st.position)
  | _ => false

theorem delivered_sound {s : Store} {st : Stream} (h : delivered s st) : Delivered s st := by
  unfold delivered at h
  split at h
  · exact .inl ‹_›
  · exact .inr ⟨‹_›, of_decide_eq_true h⟩
  · cases h

def finished (t : Thread RunStep.Answer RunError RunOp.Result) : Bool :=
  match t.rest with
  | .step _ _ => false
  | _ => true

theorem over_of_finished {p : RunPool} (h : p.threads.all finished) : p.Over := by
  intro t ht q k hrest
  have hfinished := List.all_eq_true.mp h t ht
  unfold finished at hfinished
  rw [hrest] at hfinished
  cases hfinished

def quietAfterEnd (taskId : String) (x : LiveRun) (a : LiveAction) : Bool :=
  !(x.store.events.any fun event => event.ends taskId) ||
    (x.commits a).all fun event => decide (event.taskId ≠ taskId)

theorem quietAfterEnd_sound {taskId : String} {x : LiveRun} {a : LiveAction}
    (h : quietAfterEnd taskId x a) : QuietAfterEnd taskId x a := by
  rintro ⟨last, hlast, hends⟩ event hevent
  have hsome : (x.store.events.any fun event => event.ends taskId) = true :=
    List.any_eq_true.mpr ⟨last, hlast, hends⟩
  rw [quietAfterEnd, hsome, Bool.not_true, Bool.false_or] at h
  exact of_decide_eq_true (List.all_eq_true.mp h event hevent)

def isUnstopped : LiveAction → Bool
  | .stream a => decide (a ≠ .stop)
  | .writer _ => true

theorem isUnstopped_sound {a : LiveAction} (h : isUnstopped a) : Unstopped a := by
  rintro rfl
  cases h

def keepsUp (x : LiveRun) : Bool :=
  decide (x.store.published.length ≤ x.live.position + busCapacity)

def createdTask : Task := (TaskStore.newTask sampleTask).toTask "t0" 1

def createdStore : Store := sampleStore.store.created (TaskStore.newTask sampleTask) "t0"

def printingInput : ServiceStep.Input :=
  { executionInput with outcome := { sampleOutcome with events := [⟨.processStdout, .emptyObject⟩] } }

def runSteps (i n : ℕ) : List LiveAction := List.replicate n (.writer (.advance i printingInput))

def executeToAdapter : List LiveAction :=
  List.replicate 5 (.stream .advance) ++ .writer (.spawn .execute) :: runSteps 0 16

/-- The task is cancelled while its adapter runs, which then returns its output. -/
def outputAfterCancel : List LiveAction :=
  executeToAdapter ++ .writer (.spawn .cancel) :: runSteps 1 2 ++ runSteps 0 3 ++
    List.replicate 4 (.stream .advance)

def liveRun (check : LiveRun → LiveAction → Bool) (actions : List LiveAction) : Option LiveRun :=
  Runs.run (fun x a => if check x a then liveStep ⟨2, false⟩ createdTask.id x a else none)
    (startLive createdStore createdTask.id) actions

def replayed (s : Store) : Option Stream :=
  Runs.run (fun st a => if decide (a ≠ .stop) then streamStep s st a else none)
    (.start createdTask.id 0) (List.replicate 10 .advance)

theorem reaches_of_replayed {s : Store} {st : Stream} (h : replayed s = some st) :
    Reaches (streamStep s) (fun _ a => a ≠ .stop) (.start createdTask.id 0) st :=
  reaches_of_run (fun _ _ => of_decide_eq_true) h

set_option maxRecDepth 20000 in
theorem live_agrees_with_replay_completed : ∃ (x : LiveRun) (replay : Stream),
    x.live.frames.map TaskEvent.sequence = [1, 2, 3, 4, 5, 6] ∧
    x.live.frames = replay.frames := by
  have hrun : (liveRun (fun x a => isUnstopped a && quietAfterEnd createdTask.id x a)
      (executeToAdapter ++ runSteps 0 7 ++ List.replicate 5 (.stream .advance))).bind (fun x =>
        (replayed x.store).map fun replay => (x.live.frames.map TaskEvent.sequence,
          delivered x.store x.live, delivered x.store replay)) =
      some ([1, 2, 3, 4, 5, 6], true, true) := by decide
  obtain ⟨x, hx, hrest⟩ := Option.bind_eq_some_iff.mp hrun
  obtain ⟨replay, hreplay, hfacts⟩ := Option.map_eq_some_iff.mp hrest
  rw [Prod.mk.injEq, Prod.mk.injEq] at hfacts
  have hreach : Reaches (liveStep ⟨2, false⟩ createdTask.id)
      (fun x a => Unstopped a ∧ QuietAfterEnd createdTask.id x a)
      (startLive createdStore createdTask.id) x := by
    refine reaches_of_run (fun x a hok => ?_) hx
    rw [Bool.and_eq_true] at hok
    exact ⟨isUnstopped_sound hok.1, quietAfterEnd_sound hok.2⟩
  exact ⟨x, replay, hfacts.1, live_agrees_with_replay sampleStore (fun event h => (by cases h))
    (runAlone_create sampleStore.wellFormed sampleTask) hreach (delivered_sound hfacts.2.1)
    (reaches_of_replayed hreplay) (delivered_sound hfacts.2.2)⟩

set_option maxRecDepth 20000 in
/-- The live stream stops at the cancellation, and the later one delivers the output after it. -/
theorem outputAfterCancel_disagrees : ∃ (x : LiveRun) (replay : Stream),
    runAlone (TaskStore.create sampleTask) "t0" sampleStore.store = (.ok createdTask, createdStore) ∧
    Reaches (liveStep ⟨2, false⟩ createdTask.id) (fun x a => Unstopped a ∧ KeepsUp x)
      (startLive createdStore createdTask.id) x ∧ x.pool.Over ∧ Delivered x.store x.live ∧
    Reaches (streamStep x.store) (fun _ a => a ≠ .stop) (.start createdTask.id 0) replay ∧
    Delivered x.store replay ∧ x.live.frames ≠ replay.frames := by
  have hrun : (liveRun (fun x a => isUnstopped a && keepsUp x) outputAfterCancel).bind (fun x =>
      (replayed x.store).map fun replay => (x.live.frames.length, replay.frames.length,
        x.pool.threads.all finished, delivered x.store x.live, delivered x.store replay)) =
      some (5, 6, true, true, true) := by decide
  obtain ⟨x, hx, hrest⟩ := Option.bind_eq_some_iff.mp hrun
  obtain ⟨replay, hreplay, hfacts⟩ := Option.map_eq_some_iff.mp hrest
  simp only [Prod.mk.injEq] at hfacts
  obtain ⟨hlive, hlater, hover, hdone, hdone'⟩ := hfacts
  refine ⟨x, replay, runAlone_create sampleStore.wellFormed sampleTask, ?_, over_of_finished hover,
    delivered_sound hdone, reaches_of_replayed hreplay, delivered_sound hdone', fun hsame => ?_⟩
  · refine reaches_of_run (fun x a hok => ?_) hx
    rw [Bool.and_eq_true] at hok
    exact ⟨isUnstopped_sound hok.1, fun _ => of_decide_eq_true hok.2⟩
  · rw [hsame, hlater] at hlive
    omega

end OpenDaemon
