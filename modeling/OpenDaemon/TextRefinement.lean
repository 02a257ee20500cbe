import OpenDaemon.MappedTables
import OpenDaemon.TextDatabase

/-!
# The text tables and the rows they hold

Each statement on the text tables does what the statement on the rows does. A
query needs that the rows it returns can be read back; a statement that writes
needs nothing.
-/

namespace OpenDaemon

open RowTable SequencedLog

structure Store.Exact (s : Store) : Prop where
  tasks : ∀ r ∈ s.tasks, r.value.Exact
  events : ∀ event ∈ s.events, event.Exact
  permissionRequests : ∀ record ∈ s.permissionRequests, record.request.Exact
  profiles : ∀ profile ∈ s.profiles, profile.providerConfig.Exact

theorem except_map_map {ε α β γ : Type} (e : Except ε α) (f : α → β) (g : β → γ) :
    (e.map f).map g = e.map fun a => g (f a) := by
  cases e <;> rfl

theorem refused_map {ε α β : Type} {c c' : Bool} {e : ε} {r : Except ε α} {r' : Except ε β}
    {f : α → β} (hc : c' = c) (hr : r' = r.map f) :
    (if c' then .error e else r') = (if c then .error e else r).map f := by
  subst hc hr
  cases c' <;> rfl

section Reading
variable {α β : Type} {encode : α → β} {read : β → Option α}

theorem readOptional_map {o : Option α} (h : ∀ a ∈ o, read (encode a) = some a) :
    readOptional read (o.map encode) = .ok o := by
  cases o with
  | none => rfl
  | some a =>
    simp only [Option.map_some, readOptional, h a rfl]
    rfl

theorem readAll_map {rows : List α} (h : ∀ a ∈ rows, read (encode a) = some a) :
    readAll read (rows.map encode) = .ok rows := by
  rw [readAll, mapM_encoded h]
  rfl

end Reading

section Writing
variable {json : ColumnText} {s : Store}

theorem toText_insertEvent (taskId : String) (sequence : ℕ) (eventType : TaskEventType)
    (payload : Value) (now : String) :
    (s.toText json).insertEvent json taskId sequence eventType payload now =
      (s.insertEvent taskId sequence eventType payload now).map (Store.toText json) := by
  refine refused_map (any_encoded fun _ => rfl) ?_
  simp only [Except.map, Store.toText, List.map_append]
  rfl

theorem toText_updateTask {f : Task → Task} {g : TaskColumns → TaskColumns} (id : String)
    (hg : ∀ task, g (task.toColumns json) = (f task).toColumns json) :
    { s.toText json with
      tasks := update (s.toText json).tasks (fun row => decide (row.id = id)) g } =
      (s.updateTask id f).toText json :=
  congrArg (fun tasks => { s.toText json with tasks := tasks })
    (update_map (fun _ => rfl) hg)

theorem held_toColumns (lock : DirectoryLock) :
    (lock.toColumns json).status = "held" ↔ lock.status = .held := by
  cases hstatus : lock.status <;> simp [DirectoryLock.toColumns, hstatus, LockStatus.asStr]

theorem toText_releaseLocks (taskId now : String) :
    (s.toText json).releaseLocks taskId now = (s.releaseLocks taskId now).toText json := by
  refine congrArg (fun locks => { s.toText json with locks := locks })
    (map_encoded fun lock => ?_)
  have hheld : (lock.toColumns json).status = "held" ↔ lock.status = .held :=
    held_toColumns lock
  by_cases h : lock.taskId = taskId ∧ lock.status = .held
  · rw [if_pos h]
    exact if_pos ⟨h.1, hheld.mpr h.2⟩
  · rw [if_neg h]
    exact if_neg fun h' => h ⟨h'.1, hheld.mp h'.2⟩

theorem toText_insertTask (row : NewTask) (now : String) :
    (s.toText json).insertTask json row now =
      (s.insertTask row now).map fun r => (r.1, r.2.toText json) := by
  have hid : nextRowid (s.toText json).tasks = nextRowid s.tasks := nextRowid_map
  have htasks : { s.toText json with
      tasks := insert (s.toText json).tasks (TextStore.newTaskColumns json row now) } =
      Store.toText json { s with tasks := insert s.tasks (row.toTask now) } := by
    refine congrArg (fun tasks => { s.toText json with tasks := tasks }) (insert_map ?_)
    exact fun _ => rfl
  unfold TextStore.insertTask Store.insertTask
  dsimp only
  rw [hid, htasks, toText_insertEvent]
  refine refused_map (any_encoded fun _ => rfl) ?_
  rw [except_map_map, except_map_map]

theorem toText_updateTaskStatus (id : String) (next : TaskStatus) (payload : Option Value)
    (sequence : ℕ) (now : String) :
    (s.toText json).updateTaskStatus json id next payload sequence now =
      (s.updateTaskStatus id next payload sequence now).map (Store.toText json) := by
  unfold TextStore.updateTaskStatus Store.updateTaskStatus
  rw [toText_updateTask (f := fun task => task.afterTransition next now) id fun _ => rfl,
    toText_insertEvent, except_map_map, except_map_map]
  refine congrArg (Except.map · _) (funext fun t => ?_)
  cases next.isTerminal with
  | true => exact toText_releaseLocks id now
  | false => rfl

theorem toText_updateTaskResult (id : String) (result : TaskResult) :
    (s.toText json).updateTaskResult json id result =
      (s.updateTaskResult id result).toText json :=
  toText_updateTask (f := fun task => task.withResult result) id fun _ => rfl

theorem toText_nextSequence (taskId : String) :
    (s.toText json).nextSequence taskId = s.nextSequence taskId :=
  nextSeq_map (fun _ => rfl) (fun _ => rfl) taskId

theorem toText_eventsOf (taskId : String) :
    (s.toText json).eventsOf taskId = (s.eventsOf taskId).map (TaskEvent.toColumns json) :=
  entriesOf_map (fun _ => rfl) taskId

theorem toText_insertPermissionRequest (taskId : String) (request : PermissionRequestEvent)
    (now : String) :
    (s.toText json).insertPermissionRequest json taskId request now =
      (s.insertPermissionRequest taskId request now).map fun r => (r.1, r.2.toText json) := by
  unfold TextStore.insertPermissionRequest Store.insertPermissionRequest
  dsimp only
  rw [toText_nextSequence, toText_insertEvent]
  refine refused_map (any_encoded fun _ => rfl) ?_
  rw [except_map_map, except_map_map]
  refine congrArg (Except.map · _) (funext fun t => ?_)
  simp only [Store.toText, List.map_append]
  rfl

theorem toText_replaceLock (request : LockRequest) (now : String) :
    (s.toText json).replaceLock json request now = (s.replaceLock request now).toText json := by
  refine congrArg (fun locks => { s.toText json with locks := locks }) ?_
  refine Eq.trans ?_ List.map_append.symm
  refine congrArg (· ++ _) (filter_encoded ?_)
  exact fun _ => rfl

theorem toText_withGrants {rows : List (Row GrantColumns)} {grants : List (Row DirectoryGrant)}
    (h : rows = grants.map (Row.map (DirectoryGrant.toColumns json))) :
    { s.toText json with grants := rows } = Store.toText json { s with grants := grants } := by
  rw [h]
  rfl

theorem toText_insertGrant (productId agentId path : String) (policy : DirectoryGrantPolicy)
    (now : String) :
    (s.toText json).insertGrant json productId agentId path policy now =
      (s.insertGrant productId agentId path policy now).map fun r => (r.1, r.2.toText json) := by
  have hid : nextRowid (s.toText json).grants = nextRowid s.grants := nextRowid_map
  unfold TextStore.insertGrant Store.insertGrant
  dsimp only
  rw [hid]
  refine refused_map (any_encoded fun _ => rfl) ?_
  exact congrArg (fun x => Except.ok (rowKey "dir_" (nextRowid s.grants), x))
    (toText_withGrants (insert_map fun _ => rfl))

theorem toText_updateGrant (id : String) (policy : DirectoryGrantPolicy) (now : String) :
    (s.toText json).updateGrant json id policy now = (s.updateGrant id policy now).toText json :=
  toText_withGrants (update_map (fun _ => rfl) fun _ => rfl)

theorem toText_deleteGrant (id : String) :
    (s.toText json).deleteGrant id = (s.deleteGrant id).toText json :=
  toText_withGrants (delete_map fun _ => rfl)

theorem toText_insertProfile (profile : AgentProfile) :
    (s.toText json).insertProfile json profile =
      (s.insertProfile profile).map (Store.toText json) := by
  refine refused_map (any_encoded fun _ => rfl) ?_
  simp only [Except.map, Store.toText, List.map_append]
  rfl

theorem toText_updateProfile (id : String) (next : CreateAgentProfile) (updatedAt : String) :
    (s.toText json).updateProfile json id next updatedAt =
      (s.updateProfile id next updatedAt).toText json := by
  refine congrArg (fun profiles => { s.toText json with profiles := profiles })
    (map_encoded fun profile => ?_)
  by_cases h : profile.id = id
  · rw [if_pos h]
    exact if_pos h
  · rw [if_neg h]
    exact if_neg h

theorem toText_deleteProfile (id : String) :
    (s.toText json).deleteProfile id = (s.deleteProfile id).toText json := by
  refine congrArg (fun profiles => { s.toText json with profiles := profiles })
    (filter_encoded ?_)
  exact fun _ => rfl

end Writing

section Queries
variable {json : ColumnText} {s : Store}

theorem toText_findTask (id : String) :
    (s.toText json).findTask id = (s.findTask id).map (Task.toColumns json) :=
  lookup_map fun _ => rfl

theorem toText_findGrant (id : String) :
    (s.toText json).findGrant id = (s.findGrant id).map (DirectoryGrant.toColumns json) :=
  lookup_map fun _ => rfl

theorem toText_findProfile (id : String) :
    (s.toText json).findProfile id = (s.findProfile id).map (AgentProfile.toColumns json) :=
  find?_encoded fun _ _ => rfl

theorem toText_heldLocks (directoryId : String) :
    (s.toText json).heldLocks directoryId =
      (s.heldLocks directoryId).map (DirectoryLock.toColumns json) := by
  refine filter_encoded fun lock => congrArg (_ && ·) ?_
  exact decide_eq_decide.mpr (held_toColumns lock)

theorem toText_findPermissionRequest (taskId requestId : String) :
    (s.toText json).findPermissionRequest taskId requestId =
      (s.findPermissionRequest taskId requestId).map (PermissionRequestRecord.toColumns json) :=
  find?_encoded fun _ _ => rfl

theorem toText_findPermissionDecisionEvent (hjson : json.Reads) (hs : s.Exact)
    (taskId requestId : String) :
    (s.toText json).findPermissionDecisionEvent json taskId requestId =
      (s.findPermissionDecisionEvent taskId requestId).map (TaskEvent.toColumns json) := by
  unfold TextStore.findPermissionDecisionEvent Store.findPermissionDecisionEvent
  rw [toText_eventsOf]
  refine find?_encoded fun event hevent => decide_eq_decide.mpr ?_
  have hexact := hs.events event (mem_entriesOf.mp hevent).1
  have hid : event.eventType = .providerPermissionDecided →
      json.requestIdOf (event.toColumns json).payloadJson = event.payload.strAt "request_id" :=
    fun hdecided => hjson.requestIdOf_print _ hexact.payload (hexact.decision hdecided)
  have htype : (event.toColumns json).eventType =
      json.serializeJson (.string TaskEventType.providerPermissionDecided.asStr) ↔
        event.eventType = .providerPermissionDecided :=
    ColumnText.serializeJson_variant_inj hjson TaskEventType.fromValue_asStr
  rw [htype]
  refine and_congr_right fun hdecided => ?_
  rw [hid hdecided]
  rfl

theorem exact_of_findTask (hs : s.Exact) {id : String} {task : Task}
    (h : s.findTask id = some task) : task.Exact := by
  obtain ⟨r, hr, rfl⟩ := Option.map_eq_some_iff.mp h
  exact hs.tasks r (List.mem_of_find?_eq_some hr)

theorem exact_of_findProfile (hs : s.Exact) {id : String} {profile : AgentProfile}
    (h : s.findProfile id = some profile) : profile.providerConfig.Exact :=
  hs.profiles profile (List.mem_of_find?_eq_some h)

theorem toText_resolvePermissionRequest (hjson : json.Reads) (hs : s.Exact)
    (taskId requestId : String) (decision : PermissionDecision) (reason : Option String)
    (now : String) :
    (s.toText json).resolvePermissionRequest json taskId requestId decision reason now =
      (s.resolvePermissionRequest taskId requestId decision reason now).map
        fun r => (r.1, r.2.toText json) := by
  have hread : ∀ record ∈ s.findPermissionRequest taskId requestId,
      rowToPermissionRequest json (record.toColumns json) = some record := fun record hrecord =>
    rowToPermissionRequest_toColumns hjson
      (hs.permissionRequests record (List.mem_of_find?_eq_some hrecord))
  have hevent : ∀ event ∈ s.findPermissionDecisionEvent taskId requestId,
      rowToEvent json (event.toColumns json) = some event := fun event hevent =>
    rowToEvent_toColumns hjson
      (hs.events event (mem_entriesOf.mp (List.mem_of_find?_eq_some hevent)).1)
  unfold TextStore.resolvePermissionRequest Store.resolvePermissionRequest
  rw [toText_findPermissionRequest, readOptional_map hread]
  cases s.findPermissionRequest taskId requestId with
  | none => rfl
  | some request =>
    rw [Call.ok_bind]
    dsimp only
    cases request.status with
    | approved | denied =>
      cases request.response with
      | none => rfl
      | some response =>
        dsimp only
        by_cases hd : response.decision = decision
        · rw [if_pos hd, if_pos hd, toText_findPermissionDecisionEvent hjson hs,
            readOptional_map hevent, Call.ok_bind]
          cases s.findPermissionDecisionEvent taskId requestId with
          | none => rfl
          | some event => rfl
        · rw [if_neg hd, if_neg hd]
          rfl
    | pending =>
      dsimp only
      rw [toText_nextSequence, toText_insertEvent, except_map_map, except_map_map]
      refine congrArg (Except.map · _) (funext fun t => ?_)
      refine congrArg (fun rows => (_, { t.toText json with permissionRequests := rows }))
        (map_encoded fun record => ?_)
      by_cases h : record.requestId = requestId ∧ record.taskId = taskId
      · rw [if_pos h]
        exact if_pos h
      · rw [if_neg h]
        exact if_neg h

end Queries

section Steps
variable {json : ColumnText} {s : Store}

theorem unit_map {e : Except SqlError TextStore} {e' : Except SqlError Store}
    (h : e = e'.map (Store.toText json)) :
    (e.map fun x => ((), x)) = (e'.map fun t => ((), t)).map fun r => (r.1, r.2.toText json) := by
  rw [h, except_map_map, except_map_map]

theorem query_map {α : Type} {e : Except SqlError α} {a : α} (h : e = .ok a) :
    (e.map fun rows => (rows, s.toText json)) =
      (Except.ok (a, s)).map fun r : α × Store => (r.1, r.2.toText json) := by
  rw [h]
  rfl

theorem attempt_toText (hjson : json.Reads) (hs : s.Exact) (now : String) (q : DbStep) :
    TextStore.attempt json now q (s.toText json) =
      (q.attempt now s).map fun r => (r.1, r.2.toText json) := by
  cases q with
  | clock | publish _ => rfl
  | selectTask id =>
    refine query_map ?_
    rw [toText_findTask]
    exact readOptional_map fun task htask =>
      rowToTask_toColumns hjson (exact_of_findTask hs htask)
  | selectTasks =>
    have htasks : (s.toText json).tasks.map Row.value =
        (s.tasks.map Row.value).map (Task.toColumns json) := values_map
    refine query_map ?_
    rw [htasks]
    refine readAll_map fun task htask => ?_
    obtain ⟨r, hr, rfl⟩ := List.mem_map.mp htask
    exact rowToTask_toColumns hjson (hs.tasks r hr)
  | insertTask row at_ => exact toText_insertTask row at_
  | updateTaskStatus id next payload sequence at_ =>
    exact unit_map (toText_updateTaskStatus id next payload sequence at_)
  | updateTaskResult id result =>
    exact congrArg (fun x => Except.ok ((), x)) (toText_updateTaskResult id result)
  | nextSequence taskId =>
    exact congrArg (fun n => Except.ok (n, s.toText json)) (toText_nextSequence taskId)
  | insertEvent taskId sequence eventType payload at_ =>
    exact unit_map (toText_insertEvent taskId sequence eventType payload at_)
  | selectEvent taskId sequence =>
    have hfind : ((s.toText json).eventsOf taskId).find?
        (fun row => decide (row.sequence = sequence)) =
        ((s.eventsOf taskId).find? fun event => decide (event.sequence = sequence)).map
          (TaskEvent.toColumns json) := by
      rw [toText_eventsOf]
      exact find?_encoded fun _ _ => rfl
    simp only [TextStore.attempt, DbStep.attempt, hfind]
    cases hevent : (s.eventsOf taskId).find? fun event => decide (event.sequence = sequence) with
    | none => rfl
    | some event =>
      have hexact := hs.events event (mem_entriesOf.mp (List.mem_of_find?_eq_some hevent)).1
      exact query_map (congrArg orFailure (rowToEvent_toColumns hjson hexact))
  | insertPermissionRequest taskId request at_ =>
    exact toText_insertPermissionRequest taskId request at_
  | resolvePermissionRequest taskId requestId decision reason at_ =>
    exact toText_resolvePermissionRequest hjson hs taskId requestId decision reason at_
  | selectHeldLocks directoryId =>
    refine query_map ?_
    rw [toText_heldLocks]
    exact readAll_map fun lock _ => rowToLock_toColumns hjson lock
  | replaceLock request at_ =>
    exact congrArg (fun x => Except.ok ((), x)) (toText_replaceLock request at_)
  | releaseLocks taskId at_ =>
    exact congrArg (fun x => Except.ok ((), x)) (toText_releaseLocks taskId at_)
  | selectGrant id =>
    refine query_map ?_
    rw [toText_findGrant]
    exact readOptional_map fun grant _ => rowToGrant_toColumns hjson grant
  | insertGrant productId agentId path policy at_ =>
    exact toText_insertGrant productId agentId path policy at_
  | updateGrant id policy at_ =>
    exact congrArg (fun x => Except.ok ((), x)) (toText_updateGrant id policy at_)
  | deleteGrant id =>
    have hfound : ((s.toText json).findGrant id).isSome = (s.findGrant id).isSome := by
      rw [toText_findGrant, Option.isSome_map]
    exact congrArg Except.ok (Prod.ext hfound (toText_deleteGrant id))
  | selectProfile id =>
    refine query_map ?_
    rw [toText_findProfile]
    exact readOptional_map fun profile hprofile =>
      rowToProfile_toColumns hjson (exact_of_findProfile hs hprofile)
  | insertProfile profile => exact unit_map (toText_insertProfile profile)
  | updateProfile id next updatedAt =>
    exact congrArg (fun x => Except.ok ((), x)) (toText_updateProfile id next updatedAt)
  | deleteProfile id =>
    have hfound : ((s.toText json).findProfile id).isSome = (s.findProfile id).isSome := by
      rw [toText_findProfile, Option.isSome_map]
    exact congrArg Except.ok (Prod.ext hfound (toText_deleteProfile id))

theorem toText_listPermissionRequests (hjson : json.Reads) (filters : PermissionRequestFilters) :
    (s.toText json).listPermissionRequests json filters =
      (s.listPermissionRequests filters).map (PermissionRequestRecord.toColumns json) := by
  have hfilter : ((s.toText json).permissionRequests.filter fun row =>
      filters.status.all fun value =>
        decide (row.status = json.serializeJson (.string value.asStr))) =
      (s.permissionRequests.filter fun request => filters.status.all fun value =>
        decide (request.status = value)).map (PermissionRequestRecord.toColumns json) := by
    refine filter_encoded fun request => ?_
    cases filters.status with
    | none => rfl
    | some value =>
      exact decide_eq_decide.mpr
        (ColumnText.serializeJson_variant_inj hjson PermissionRequestStatus.fromValue_asStr)
  have htasks : (s.toText json).tasks.map Row.value =
      (s.tasks.map Row.value).map (Task.toColumns json) := values_map
  unfold TextStore.listPermissionRequests Store.listPermissionRequests
  rw [hfilter, htasks, List.flatMap_map, List.map_flatMap]
  refine List.flatMap_congr fun request _ => ?_
  have hjoined : ((s.tasks.map Row.value).map (Task.toColumns json)).filter (fun task =>
      decide (task.id = (request.toColumns json).taskId) &&
        filters.ownerProductId.all fun value => decide (task.ownerProductId = value)) =
      ((s.tasks.map Row.value).filter fun task => decide (task.id = request.taskId) &&
        filters.ownerProductId.all fun value => decide (task.ownerProductId = value)).map
          (Task.toColumns json) := filter_encoded fun _ => rfl
  rw [hjoined, List.map_map, List.map_map]
  rfl

theorem answer_toText (hjson : json.Reads) (hs : s.Exact) (now : String) (q : StoreStep) :
    TextStore.answer json now q (s.toText json) =
      (q.attempt now s).map fun r => (r.1, r.2.toText json) := by
  cases q with
  | db q => exact attempt_toText hjson hs now q
  | selectPermissionRequest taskId requestId =>
    refine query_map ?_
    rw [toText_findPermissionRequest]
    exact readOptional_map fun record hrecord => rowToPermissionRequest_toColumns hjson
      (hs.permissionRequests record (List.mem_of_find?_eq_some hrecord))
  | listEventsAfter taskId cursor =>
    have hrows : (s.toText json).listEventsAfter taskId cursor =
        (s.listEventsAfter taskId cursor).map (TaskEvent.toColumns json) := by
      unfold TextStore.listEventsAfter Store.listEventsAfter
      rw [toText_eventsOf]
      exact filter_encoded fun _ => rfl
    refine query_map ?_
    rw [hrows]
    exact readAll_map fun event hevent => rowToEvent_toColumns hjson
      (hs.events event (mem_entriesOf.mp (List.mem_filter.mp hevent).1).1)
  | listPermissionRequests filters =>
    refine query_map ?_
    rw [toText_listPermissionRequests hjson]
    refine readAll_map fun record hrecord => rowToPermissionRequest_toColumns hjson ?_
    obtain ⟨request, hrequest, hjoined⟩ := List.mem_flatMap.mp hrecord
    obtain ⟨-, -, rfl⟩ := List.mem_map.mp hjoined
    exact hs.permissionRequests request (List.mem_filter.mp hrequest).1
  | listGrants filters =>
    have hvalues : (s.toText json).grants.map Row.value =
        (s.grants.map Row.value).map (DirectoryGrant.toColumns json) := values_map
    have hrows : (s.toText json).listGrants filters =
        (s.listGrants filters).map (DirectoryGrant.toColumns json) := by
      unfold TextStore.listGrants Store.listGrants
      rw [hvalues]
      exact filter_encoded fun _ => rfl
    refine query_map ?_
    rw [hrows]
    exact readAll_map fun grant _ => rowToGrant_toColumns hjson grant
  | listProfiles filters =>
    have hrows : (s.toText json).listProfiles filters =
        (s.listProfiles filters).map (AgentProfile.toColumns json) := filter_encoded fun _ => rfl
    refine query_map ?_
    rw [hrows]
    exact readAll_map fun profile hprofile => rowToProfile_toColumns hjson
      (hs.profiles profile (List.mem_filter.mp hprofile).1)

/-- A step on the text tables is the step on the rows: the same answer, and then the tables that
hold the rows. -/
theorem exec_toText (hjson : json.Reads) (hs : s.Exact) (q : StoreStep) (input : DbStep.Input) :
    TextStore.exec json q input (s.toText json) =
      ((q.exec input s).1, (q.exec input s).2.toText json) := by
  cases input with
  | ioError => rfl
  | proceed now =>
    simp only [TextStore.exec, StoreStep.exec, answer_toText hjson hs now q]
    cases q.attempt now s with
    | error e => rfl
    | ok r => rfl

theorem read_toText (hjson : json.Reads) (hs : s.Exact) : (s.toText json).read json = some s := by
  have hgrants : (s.grants.map (Row.map (DirectoryGrant.toColumns json))).mapM
      (fun r => (rowToGrant json r.value).map (Row.mk r.rowid)) = some s.grants :=
    mapM_encoded fun r _ => by rw [Row.map_value, rowToGrant_toColumns hjson]; rfl
  have hprofiles : (s.profiles.map (AgentProfile.toColumns json)).mapM (rowToProfile json) =
      some s.profiles :=
    mapM_encoded fun profile hp => rowToProfile_toColumns hjson (hs.profiles profile hp)
  have htasks : (s.tasks.map (Row.map (Task.toColumns json))).mapM
      (fun r => (rowToTask json r.value).map (Row.mk r.rowid)) = some s.tasks :=
    mapM_encoded fun r hr => by rw [Row.map_value, rowToTask_toColumns hjson (hs.tasks r hr)]; rfl
  have hevents : (s.events.map (TaskEvent.toColumns json)).mapM (rowToEvent json) =
      some s.events := mapM_encoded fun event he => rowToEvent_toColumns hjson (hs.events event he)
  have hrequests : (s.permissionRequests.map (PermissionRequestRecord.toColumns json)).mapM
      (rowToPermissionRequest json) = some s.permissionRequests :=
    mapM_encoded fun record hr =>
      rowToPermissionRequest_toColumns hjson (hs.permissionRequests record hr)
  have hlocks : (s.locks.map (DirectoryLock.toColumns json)).mapM (rowToLock json) =
      some s.locks := mapM_encoded fun lock _ => rowToLock_toColumns hjson lock
  simp only [TextStore.read, Store.toText, hgrants, hprofiles, htasks, hevents, hrequests, hlocks,
    Option.bind_eq_bind, Option.bind_some, Option.pure_def]

end Steps

end OpenDaemon
