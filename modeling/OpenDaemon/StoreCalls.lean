import OpenDaemon.GrantStore
import OpenDaemon.ProfileStore
import OpenDaemon.StoreInvariant

/-!
# Store calls run alone

What a call of a store returns and leaves when no other call runs in between,
no I/O error occurs and every row that is read can be decoded. On a well-formed
store the sequence number that a writing call has read is still free, so its
commit is never refused.
-/

namespace OpenDaemon

open RowTable SequencedLog Store

section Run
variable {ε α : Type}

/-- The result and the store after a call that runs alone at the time `now`. -/
def runAlone (c : Call DbStep DbStep.Answer ε α) (now : String) (s : Store) : Except ε α × Store :=
  let o := c.run DbStep.exec (fun _ => .proceed now) s
  (o.result, o.state)

variable {β : Type} {c : Call DbStep DbStep.Answer ε α} {f : α → Call DbStep DbStep.Answer ε β}
  {now : String} {s t : Store}

@[simp] theorem runAlone_ret (a : α) :
    runAlone (.ret a : Call DbStep DbStep.Answer ε α) now s = (.ok a, s) := rfl

@[simp] theorem runAlone_fail (e : ε) :
    runAlone (.fail e : Call DbStep DbStep.Answer ε α) now s = (.error e, s) := rfl

theorem run_inputs (c : Call DbStep DbStep.Answer ε α) (now : String) (s : Store) :
    (c.run DbStep.exec (fun _ => .proceed now) s).inputs = fun _ => .proceed now := by
  induction c generalizing s with
  | ret a => rfl
  | fail e => rfl
  | step q k ih => exact ih _ _

theorem runAlone_bind_ok {a : α} (h : runAlone c now s = (.ok a, t)) :
    runAlone (c >>= f) now s = runAlone (f a) now t := by
  obtain ⟨hr, hs⟩ := Prod.mk.inj h
  have hi := run_inputs c now s
  simp only [runAlone, Call.run_bind]
  cases ho : c.run DbStep.exec (fun _ => .proceed now) s with
  | mk r u inputs =>
    rw [ho] at hr hs hi
    subst hr hs hi
    rfl

theorem runAlone_bind_error {e : ε} (h : runAlone c now s = (.error e, t)) :
    runAlone (c >>= f) now s = (.error e, t) := by
  obtain ⟨hr, hs⟩ := Prod.mk.inj h
  simp only [runAlone, Call.run_bind]
  cases ho : c.run DbStep.exec (fun _ => .proceed now) s with
  | mk r u inputs =>
    rw [ho] at hr hs
    subst hr hs
    rfl

theorem runAlone_ofExcept_bind (r : Except ε α) : runAlone (Call.ofExcept r >>= f) now s =
    match r with
    | .ok a => runAlone (f a) now s
    | .error e => (.error e, s) := by
  cases r with
  | ok a => rfl
  | error e => rfl

theorem runAlone_query_ok {q : DbStep} {onError : SqlError → ε} {row : q.Row}
    (h : q.attempt now s = .ok (row, t)) :
    runAlone (q.query onError) now s = (.ok row, t) := by
  simp [runAlone, DbStep.query, Call.run_step, DbStep.exec, h]

theorem runAlone_query_error {q : DbStep} {onError : SqlError → ε} {e : SqlError}
    (h : q.attempt now s = .error e) :
    runAlone (q.query onError) now s = (.error (onError e), s) := by
  simp [runAlone, DbStep.query, Call.run_step, DbStep.exec, h]

end Run

theorem eventId_injective {taskId taskId' : String} {sequence sequence' : ℕ}
    (h : eventId taskId sequence = eventId taskId' sequence') :
    taskId = taskId' ∧ sequence = sequence' :=
  pairKey_injective h

section Tasks
variable {s : Store} {id now : String}

theorem insertEvent_next (hs : s.WellFormed) (s₁ : Store) (hev : s₁.events = s.events)
    (id : String) (eventType : TaskEventType) (payload : Value) (now : String) :
    s₁.insertEvent id (s.nextSequence id) eventType payload now = .ok { s₁ with
      events := s₁.events ++
        [⟨eventId id (s.nextSequence id), id, s.nextSequence id, eventType, payload, now⟩] } := by
  unfold Store.insertEvent
  split
  · rename_i hany
    rw [hev, List.any_eq_true] at hany
    obtain ⟨event, hmem, hclash⟩ := hany
    have hkey : event.taskId = id ∧ event.sequence = s.nextSequence id := by
      rcases of_decide_eq_true hclash with hid | hkey
      · exact eventId_injective ((hs.eventIds event hmem).symm.trans hid)
      · exact hkey
    have hlt : event.sequence < s.nextSequence id := seq_lt_nextSeq hmem hkey.1
    omega
  · rfl

def Store.logged (s : Store) (event : TaskEvent) : Store :=
  { s with events := s.events ++ [event], published := s.published ++ [event] }

def Store.nextEvent (s : Store) (id : String) (eventType : TaskEventType) (payload : Value)
    (now : String) : TaskEvent :=
  ⟨eventId id (s.nextSequence id), id, s.nextSequence id, eventType, payload, now⟩

def Store.moved (s : Store) (id : String) (next : TaskStatus) (payload : Option Value)
    (now : String) : Store :=
  let s' := (s.updateTask id fun task => task.afterTransition next now).logged
    (s.nextEvent id (eventTypeForStatus next) (payload.getD .emptyObject) now)
  if next.isTerminal then s'.releaseLocks id now else s'

theorem runAlone_get (id : String) (now : String) (s : Store) :
    runAlone (TaskStore.get id) now s = match s.findTask id with
      | some task => (.ok task, s)
      | none => (.error .notFound, s) := by
  have hq : runAlone (TaskStore.send (.selectTask id)) now s = (.ok (s.findTask id), s) :=
    runAlone_query_ok rfl
  rw [TaskStore.get, runAlone_bind_ok hq]
  cases s.findTask id with
  | none => rfl
  | some task => rfl

theorem runAlone_get_some {task : Task} (h : s.findTask id = some task) :
    runAlone (TaskStore.get id) now s = (.ok task, s) := by
  rw [runAlone_get, h]

theorem runAlone_get_none (h : s.findTask id = none) :
    runAlone (TaskStore.get id) now s = (.error .notFound, s) := by
  rw [runAlone_get, h]

theorem find_selectEvent_last (s₁ : Store) (event : TaskEvent)
    (hseq : event.sequence = s.nextSequence event.taskId) (hev : s₁.events = s.events ++ [event]) :
    ((s₁.eventsOf event.taskId).find? fun e => decide (e.sequence = event.sequence)) =
      some event := by
  have hlog : s₁.eventsOf event.taskId = s.eventsOf event.taskId ++ [event] := by
    rw [Store.eventsOf, hev]
    exact entriesOf_append_same rfl
  have hold : (s.eventsOf event.taskId).find?
      (fun e => decide (e.sequence = event.sequence)) = none := by
    rw [List.find?_eq_none]
    intro e he hsame
    obtain ⟨hmem, hkey⟩ := mem_entriesOf.mp he
    have hlt : e.sequence < s.nextSequence event.taskId := seq_lt_nextSeq hmem hkey
    have heq := of_decide_eq_true hsame
    omega
  simp [hlog, List.find?_append, hold]

theorem attempt_selectEvent_last (s₁ : Store) (event : TaskEvent) (now : String)
    (hseq : event.sequence = s.nextSequence event.taskId) (hev : s₁.events = s.events ++ [event]) :
    (DbStep.selectEvent event.taskId event.sequence).attempt now s₁ = .ok (event, s₁) := by
  simp only [DbStep.attempt, find_selectEvent_last s₁ event hseq hev]

theorem runAlone_publish {α : Type} (event : TaskEvent) (c : TaskCall α) :
    runAlone (TaskStore.publishIfConfigured event >>= fun _ => c) now s =
      runAlone c now { s with published := s.published ++ [event] } := rfl

theorem attempt_updateTaskStatus (hs : s.WellFormed) (next : TaskStatus)
    (payload : Option Value) :
    (DbStep.updateTaskStatus id next payload (s.nextSequence id) now).attempt now s =
      .ok ((), { s.moved id next payload now with published := s.published }) := by
  have hins := insertEvent_next hs (s.updateTask id fun task => task.afterTransition next now) rfl
    id (eventTypeForStatus next) (payload.getD .emptyObject) now
  simp only [DbStep.attempt, Store.updateTaskStatus, hins, Except.map]
  unfold Store.moved
  split <;> rfl

theorem moved_events (next : TaskStatus) (payload : Option Value) :
    (s.moved id next payload now).events = s.events ++
      [s.nextEvent id (eventTypeForStatus next) (payload.getD .emptyObject) now] := by
  unfold Store.moved
  split <;> rfl

theorem moved_published (next : TaskStatus) (payload : Option Value) :
    (s.moved id next payload now).published = s.published ++
      [s.nextEvent id (eventTypeForStatus next) (payload.getD .emptyObject) now] := by
  unfold Store.moved
  split <;> rfl

theorem moved_tasks (next : TaskStatus) (payload : Option Value) :
    (s.moved id next payload now).tasks =
      (s.updateTask id fun task => task.afterTransition next now).tasks := by
  unfold Store.moved
  split <;> rfl

theorem moved_locks (next : TaskStatus) (payload : Option Value) :
    (s.moved id next payload now).locks =
      if next.isTerminal then (s.releaseLocks id now).locks else s.locks := by
  unfold Store.moved
  split <;> rfl

theorem moved_findTask (next : TaskStatus) (payload : Option Value) :
    (s.moved id next payload now).findTask id =
      (s.findTask id).map fun task => task.afterTransition next now := by
  rw [findTask_congr (moved_tasks next payload)]
  exact findTask_updateTask_self (fun task => task.afterTransition_id next now) id

theorem moved_findTask_ne {id' : String} (hne : id' ≠ id) (next : TaskStatus)
    (payload : Option Value) :
    (s.moved id next payload now).findTask id' = s.findTask id' := by
  rw [findTask_congr (moved_tasks next payload)]
  exact findTask_updateTask_ne (fun task => task.afterTransition_id next now) hne

theorem wellFormed_of_same {s' : Store} (hs : s.WellFormed) (htasks : s'.tasks = s.tasks)
    (hevents : s'.events = s.events) : s'.WellFormed :=
  (effect_spec hs (.quiet .clock htasks hevents) trivial).1

theorem wellFormed_moved (hs : s.WellFormed) (hfind : (s.findTask id).isSome)
    (next : TaskStatus) (payload : Option Value) : (s.moved id next payload now).WellFormed := by
  have heffect : Effect s { s.moved id next payload now with published := s.published }
      (.updateTaskStatus id next payload (s.nextSequence id) now) :=
    effect_of_writes (writes_of_attempt (attempt_updateTaskStatus hs next payload))
  have hready : s.Ready (.updateTaskStatus id next payload (s.nextSequence id) now) :=
    ⟨hfind, one_le_nextSeq, le_rfl⟩
  exact wellFormed_of_same (effect_spec hs heffect hready).1 rfl rfl

/-- `transition` alone: refused, idempotent, or one new event with the new row. -/
theorem runAlone_transition (hs : s.WellFormed) (next : TaskStatus) (payload : Option Value) :
    runAlone (TaskStore.transition id next payload) now s = match s.findTask id with
      | none => (.error .notFound, s)
      | some task =>
        match validateTransition task.status next with
        | .error e => (.error (.state e), s)
        | .ok .idempotent => (.ok task, s)
        | .ok .changed => (.ok (task.afterTransition next now), s.moved id next payload now) := by
  unfold TaskStore.transition
  cases hfind : s.findTask id with
  | none =>
    refine runAlone_bind_error ?_
    rw [runAlone_get, hfind]
  | some task =>
    rw [runAlone_bind_ok (runAlone_get_some hfind)]
    cases hv : validateTransition task.status next with
    | error e => simp only [hv, runAlone_fail]
    | ok t =>
      cases t with
      | idempotent => simp only [hv, Call.pure_eq, runAlone_ret]
      | changed =>
        simp only [hv]
        have hclock : runAlone TaskStore.nowRfc3339 now s = (.ok now, s) := runAlone_query_ok rfl
        have hseq : runAlone (TaskStore.nextSequence id) now s = (.ok (s.nextSequence id), s) :=
          runAlone_query_ok rfl
        have hcommit : runAlone (TaskStore.send (.updateTaskStatus id next payload
            (s.nextSequence id) now)) now s =
            (.ok (), { s.moved id next payload now with published := s.published }) :=
          runAlone_query_ok (attempt_updateTaskStatus hs next payload)
        have hread : runAlone (TaskStore.eventBySequence id (s.nextSequence id)) now
            { s.moved id next payload now with published := s.published } = _ :=
          runAlone_query_ok (attempt_selectEvent_last _ (s.nextEvent id (eventTypeForStatus next)
            (payload.getD .emptyObject) now) now rfl (moved_events next payload))
        rw [runAlone_bind_ok hclock, runAlone_bind_ok hseq, runAlone_bind_ok hcommit,
          runAlone_bind_ok hread, runAlone_publish]
        have hstate : { s.moved id next payload now with
            published := s.published ++ [s.nextEvent id (eventTypeForStatus next)
              (payload.getD .emptyObject) now] } = s.moved id next payload now := by
          rw [← moved_published]
        refine (congrArg (runAlone (TaskStore.get id) now) hstate).trans (runAlone_get_some ?_)
        rw [moved_findTask, hfind]
        rfl

theorem transition_cases (hs : s.WellFormed) (id : String) (next : TaskStatus)
    (payload : Option Value) (now : String) :
    (∃ e, runAlone (TaskStore.transition id next payload) now s = (.error e, s)) ∨
    (∃ task, s.findTask id = some task ∧ task.status = next ∧ next.isTerminal ∧
      runAlone (TaskStore.transition id next payload) now s = (.ok task, s)) ∨
    ∃ task, s.findTask id = some task ∧ transitionAllowed task.status next ∧
      runAlone (TaskStore.transition id next payload) now s =
        (.ok (task.afterTransition next now), s.moved id next payload now) := by
  rw [runAlone_transition hs]
  cases hfind : s.findTask id with
  | none => exact .inl ⟨_, rfl⟩
  | some task =>
    cases hv : validateTransition task.status next with
    | error e => exact .inl ⟨.state e, by simp only [hv]⟩
    | ok t =>
      cases t with
      | idempotent =>
        obtain ⟨hsame, hterm⟩ := validateTransition_idempotent_iff.mp hv
        exact .inr (.inl ⟨task, rfl, hsame, hsame ▸ hterm, by simp only [hv]⟩)
      | changed =>
        have hallowed := validateTransition_changed_iff.mp hv
        exact .inr (.inr ⟨task, rfl, hallowed, by simp only [hv]⟩)

def Store.firstEvent (s : Store) (now : String) : TaskEvent :=
  ⟨eventId (rowKey "task_" (nextRowid s.tasks)) 1, rowKey "task_" (nextRowid s.tasks), 1, .queued,
    .emptyObject, now⟩

def Store.created (s : Store) (row : NewTask) (now : String) : Store :=
  { s with tasks := insert s.tasks (row.toTask now) }.logged (s.firstEvent now)

theorem attempt_insertTask (hs : s.WellFormed) (row : NewTask) :
    (DbStep.insertTask row now).attempt now s = .ok (rowKey "task_" (nextRowid s.tasks),
      { s.created row now with published := s.published }) := by
  have hfresh : ¬ s.tasks.any (fun r => decide (r.value.id = "" ∨
      r.value.id = rowKey "task_" (nextRowid s.tasks))) := by
    rw [List.any_eq_true]
    rintro ⟨r, hr, hid⟩
    rcases of_decide_eq_true hid with hid | hid
    · exact rowKey_ne_empty (by decide) r.rowid ((hs.taskKeys.derived r hr).symm.trans hid)
    · exact hs.taskKeys.next_fresh (rowKey_injective _) hr hid
  have hins := insertEvent_next hs { s with tasks := insert s.tasks (row.toTask now) } rfl
    (rowKey "task_" (nextRowid s.tasks)) .queued .emptyObject now
  rw [nextSequence_next hs] at hins
  simp only [DbStep.attempt, Store.insertTask, if_neg hfresh, hins, Except.map]
  rfl

theorem created_findTask (hs : s.WellFormed) (row : NewTask) (id : String) :
    (s.created row now).findTask id = if id = rowKey "task_" (nextRowid s.tasks)
      then some (row.toTask now (nextRowid s.tasks)) else s.findTask id :=
  findTask_created hs rfl id

theorem wellFormed_created (hs : s.WellFormed) (row : NewTask) :
    (s.created row now).WellFormed :=
  (effect_spec hs (.created row now rfl rfl) trivial).1

theorem runAlone_create (hs : s.WellFormed) (input : CreateTask) :
    runAlone (TaskStore.create input) now s = match input.validate with
      | .error e => (.error (.model e), s)
      | .ok _ => (.ok ((TaskStore.newTask input).toTask now (nextRowid s.tasks)),
          s.created (TaskStore.newTask input) now) := by
  unfold TaskStore.create
  cases hv : input.validate with
  | error e => rfl
  | ok _ =>
    have hclock : runAlone TaskStore.nowRfc3339 now s = (.ok now, s) := runAlone_query_ok rfl
    have hcommit : runAlone (TaskStore.send (.insertTask (TaskStore.newTask input) now)) now s =
        (.ok _, _) := runAlone_query_ok (attempt_insertTask hs _)
    have hread : runAlone (TaskStore.eventBySequence (rowKey "task_" (nextRowid s.tasks)) 1) now
        { s.created (TaskStore.newTask input) now with published := s.published } =
          (.ok (s.firstEvent now),
            { s.created (TaskStore.newTask input) now with published := s.published }) :=
      runAlone_query_ok (attempt_selectEvent_last _ (s.firstEvent now) now
        (nextSequence_next hs).symm rfl)
    change runAlone (TaskStore.nowRfc3339 >>= _) now s = _
    rw [runAlone_bind_ok hclock, runAlone_bind_ok hcommit, runAlone_bind_ok hread, runAlone_publish]
    refine runAlone_get_some ?_
    exact (created_findTask hs (TaskStore.newTask input) _).trans (if_pos rfl)

theorem runAlone_list (filters : TaskFilters) : runAlone (TaskStore.list filters) now s =
    (.ok ((s.tasks.map Row.value).filter filters.matches), s) := by
  have hq : runAlone TaskStore.all now s = (.ok (s.tasks.map Row.value), s) := runAlone_query_ok rfl
  rw [TaskStore.list, runAlone_bind_ok hq]
  rfl

theorem runAlone_list_unfiltered : runAlone (TaskStore.list ⟨none, none, none, none⟩) now s =
    (.ok (s.tasks.map Row.value), s) := by
  have hall : ∀ task : Task, TaskFilters.matches ⟨none, none, none, none⟩ task = true :=
    fun _ => rfl
  rw [runAlone_list, List.filter_eq_self.mpr fun task _ => hall task]

theorem wellFormed_updateTaskResult (hs : s.WellFormed) (result : TaskResult) :
    (s.updateTaskResult id result).WellFormed :=
  (effect_spec hs (.resulted id result rfl rfl) trivial).1

theorem runAlone_saveExecutionResult (result : TaskResult) :
    runAlone (TaskStore.saveExecutionResult result) now s =
      (.ok (), s.updateTaskResult result.taskId result) := rfl

theorem runAlone_acquireLock (request : LockRequest) :
    runAlone (TaskStore.acquireLock request) now s =
      if TaskStore.conflicts (s.heldLocks request.directoryId) request.mode then (.ok false, s)
      else (.ok true, s.replaceLock request now) := by
  have hq : runAlone (TaskStore.activeLocks request.directoryId) now s =
      (.ok (s.heldLocks request.directoryId), s) := runAlone_query_ok rfl
  rw [TaskStore.acquireLock, runAlone_bind_ok hq]
  split
  · rfl
  · rfl

theorem runAlone_saveResult (finalMessage : String) (changedFiles : List String) :
    runAlone (TaskStore.saveResult id finalMessage changedFiles) now s = (.error .notFound, s) ∨
    ∃ result, runAlone (TaskStore.saveResult id finalMessage changedFiles) now s =
      (.ok (), s.updateTaskResult id result) := by
  unfold TaskStore.saveResult
  cases hfind : s.findTask id with
  | none =>
    refine .inl (runAlone_bind_error ?_)
    rw [runAlone_get, hfind]
  | some task =>
    rw [runAlone_bind_ok (runAlone_get_some hfind)]
    exact .inr ⟨_, rfl⟩

theorem wellFormed_logged (hs : s.WellFormed) (hfind : (s.findTask id).isSome)
    (eventType : TaskEventType) (payload : Value) :
    (s.logged (s.nextEvent id eventType payload now)).WellFormed :=
  hs.append rfl rfl rfl hfind (fun _ h => h) hs.taskKeys

theorem runAlone_appendEvent (hs : s.WellFormed) (eventType : TaskEventType) (payload : Value) :
    runAlone (TaskStore.appendEvent id eventType payload) now s = match s.findTask id with
      | none => (.error .notFound, s)
      | some _ => (.ok (s.nextEvent id eventType payload now),
          s.logged (s.nextEvent id eventType payload now)) := by
  unfold TaskStore.appendEvent
  cases hfind : s.findTask id with
  | none =>
    refine runAlone_bind_error ?_
    rw [runAlone_get, hfind]
  | some task =>
    rw [runAlone_bind_ok (runAlone_get_some hfind)]
    have hclock : runAlone TaskStore.nowRfc3339 now s = (.ok now, s) := runAlone_query_ok rfl
    have hseq : runAlone (TaskStore.nextSequence id) now s = (.ok (s.nextSequence id), s) :=
      runAlone_query_ok rfl
    have hins : (DbStep.insertEvent id (s.nextSequence id) eventType payload now).attempt now s =
        .ok ((), { s.logged (s.nextEvent id eventType payload now) with
          published := s.published }) := by
      simp only [DbStep.attempt, insertEvent_next hs s rfl, Except.map]
      rfl
    have hcommit : runAlone (TaskStore.send (.insertEvent id (s.nextSequence id) eventType payload
        now)) now s = (.ok (), _) := runAlone_query_ok hins
    have hread : runAlone (TaskStore.eventBySequence id (s.nextSequence id)) now
        { s.logged (s.nextEvent id eventType payload now) with published := s.published } =
          (.ok (s.nextEvent id eventType payload now), _) :=
      runAlone_query_ok (attempt_selectEvent_last _ (s.nextEvent id eventType payload now) now rfl
        rfl)
    rw [runAlone_bind_ok hclock, runAlone_bind_ok hseq, runAlone_bind_ok hcommit,
      runAlone_bind_ok hread, runAlone_publish]
    rfl

end Tasks

section Policies
variable {s : Store} {now : String}

theorem runAlone_getGrant (id now : String) (s : Store) :
    runAlone (GrantStore.get id) now s = match s.findGrant id with
      | some grant => (.ok grant, s)
      | none => (.error .notFound, s) := by
  have hq : runAlone (GrantStore.send (.selectGrant id)) now s = (.ok (s.findGrant id), s) :=
    runAlone_query_ok rfl
  rw [GrantStore.get, runAlone_bind_ok hq]
  cases s.findGrant id with
  | none => rfl
  | some grant => rfl

theorem runAlone_authorizeGrant (request : DirectoryAuthorizationRequest) :
    runAlone (GrantStore.authorize request) now s = match s.findGrant request.directoryId with
      | none => (.error .notFound, s)
      | some grant =>
        match grant.authorize request with
        | .ok _ => (.ok grant, s)
        | .error e => (.error (.security e), s) := by
  have hg := runAlone_getGrant request.directoryId now s
  unfold GrantStore.authorize
  cases hfind : s.findGrant request.directoryId with
  | none =>
    rw [hfind] at hg
    exact runAlone_bind_error hg
  | some grant =>
    rw [hfind] at hg
    rw [runAlone_bind_ok hg]
    cases ha : grant.authorize request with
    | ok _ => simp only [ha]; rfl
    | error e => simp only [ha]; rfl

theorem runAlone_getProfile (id now : String) (s : Store) :
    runAlone (ProfileStore.get id) now s = match s.findProfile id with
      | some profile => (.ok profile, s)
      | none => (.error (.profile .agentNotFound), s) := by
  have hq : runAlone (ProfileStore.send (.selectProfile id)) now s = (.ok (s.findProfile id), s) :=
    runAlone_query_ok rfl
  rw [ProfileStore.get, runAlone_bind_ok hq]
  cases s.findProfile id with
  | none => rfl
  | some profile => rfl

theorem runAlone_authorizeProfile (request : AgentAuthorizationRequest) :
    runAlone (ProfileStore.authorize request) now s = match s.findProfile request.agentId with
      | none => (.error (.profile .agentNotFound), s)
      | some profile =>
        match ProfileStore.check profile request with
        | .ok _ => (.ok profile, s)
        | .error e => (.error (.profile e), s) := by
  have hg := runAlone_getProfile request.agentId now s
  unfold ProfileStore.authorize
  cases hfind : s.findProfile request.agentId with
  | none =>
    rw [hfind] at hg
    exact runAlone_bind_error hg
  | some profile =>
    rw [hfind] at hg
    rw [runAlone_bind_ok hg]
    cases ha : ProfileStore.check profile request with
    | ok _ => simp only [ha]; rfl
    | error e => simp only [ha]; rfl

end Policies

end OpenDaemon
