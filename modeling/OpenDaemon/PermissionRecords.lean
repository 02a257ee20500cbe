import OpenDaemon.PermissionDecisions
import OpenDaemon.ServiceDecoding
import OpenDaemon.TaskRun

/-!
# Permission requests of several tasks

A request is looked up by its task and its request id, and a decision updates
the record of both. The table's primary key is the request id alone: a provider
session that numbers its requests as another session did is refused. A request
whose details nest too deep is recorded, but the call cannot read its event.
-/

namespace OpenDaemon

open Runs Interleaving Store Call

section Record
variable {s : Store} {taskId now : String} {request : PermissionRequestEvent}

def Store.Numbered (s : Store) (requestId : String) : Prop :=
  ∃ record ∈ s.permissionRequests, record.requestId = requestId

theorem numbered_iff {requestId : String} :
    s.Numbered requestId ↔ ∃ id, s.findPermissionRequest id requestId ≠ none := by
  constructor
  · rintro ⟨record, hrecord, hid⟩
    refine ⟨record.taskId, fun hnone => ?_⟩
    have hmiss := List.find?_eq_none.mp hnone record hrecord
    exact hmiss (decide_eq_true ⟨rfl, hid⟩)
  · rintro ⟨id, hsome⟩
    obtain ⟨record, hfound⟩ := Option.ne_none_iff_exists'.mp hsome
    have hkey := List.find?_some hfound
    simp only [decide_eq_true_eq] at hkey
    exact ⟨record, List.mem_of_find?_eq_some hfound, hkey.2⟩

theorem attempt_insertPermissionRequest (hs : s.WellFormed)
    (hfresh : ¬ s.Numbered request.requestId) :
    ∃ s₁, (DbStep.insertPermissionRequest taskId request now).attempt now s =
      .ok (s.nextSequence taskId, s₁) := by
  have hany : ¬ s.permissionRequests.any
      (fun r => decide (r.requestId = request.requestId)) := by
    rw [List.any_eq_true]
    rintro ⟨record, hrecord, hid⟩
    exact hfresh ⟨record, hrecord, of_decide_eq_true hid⟩
  have hinsert := insertEvent_next hs s rfl taskId .providerPermissionRequested request.toValue now
  simp only [DbStep.attempt, insertPermissionRequest, if_neg hany, hinsert, Except.map]
  exact ⟨_, rfl⟩

theorem attempt_insertPermissionRequest_numbered (hused : s.Numbered request.requestId) :
    (DbStep.insertPermissionRequest taskId request now).attempt now s = .error .constraint := by
  obtain ⟨record, hrecord, hid⟩ := hused
  have hany : s.permissionRequests.any (fun r => decide (r.requestId = request.requestId)) :=
    List.any_eq_true.mpr ⟨record, hrecord, decide_eq_true hid⟩
  simp only [DbStep.attempt, insertPermissionRequest, if_pos hany]

theorem runDecoded_record_eq (htask : (s.findTask taskId).isSome) (hrow : s.taskReadable taskId) :
    runDecoded (TaskStore.recordPermissionRequest taskId request) now s = runDecoded (do
      let sequence ← TaskStore.send (.insertPermissionRequest taskId request now)
      let event ← TaskStore.eventBySequence taskId sequence
      TaskStore.publishIfConfigured event
      return event) now s := by
  obtain ⟨task, hfind⟩ := Option.isSome_iff_exists.mp htask
  rw [TaskStore.recordPermissionRequest,
    runDecoded_bind_ok ((runDecoded_get_read hrow now).trans (runAlone_get_some hfind)),
    runDecoded_clock]

theorem recordPermissionRequest_ok_iff (hs : s.WellFormed) (htask : (s.findTask taskId).isSome) :
    (∃ event, (runDecoded (TaskStore.recordPermissionRequest taskId request) now s).1 = .ok event) ↔
      ¬ s.Numbered request.requestId ∧ s.taskReadable taskId ∧ request.toValue.readable := by
  cases hrow : s.taskReadable taskId with
  | false =>
    rw [TaskStore.recordPermissionRequest, runDecoded_bind_error (runDecoded_get_unread hrow now)]
    constructor
    · rintro ⟨event, hok⟩
      cases hok
    · rintro ⟨-, hread, -⟩
      cases hread
  | true =>
  rw [runDecoded_record_eq htask hrow]
  by_cases hused : s.Numbered request.requestId
  · have hsend : runDecoded (TaskStore.send (.insertPermissionRequest taskId request now)) now s =
        (.error .store, s) := (runDecoded_send rfl).trans
          (runAlone_query_error (attempt_insertPermissionRequest_numbered hused))
    rw [runDecoded_bind_error hsend]
    constructor
    · rintro ⟨event, hok⟩
      cases hok
    · exact fun h => absurd hused h.1
  · obtain ⟨s₁, hinsert⟩ : ∃ s₁, (DbStep.insertPermissionRequest taskId request now).attempt now s =
        .ok (s.nextSequence taskId, s₁) := attempt_insertPermissionRequest hs hused
    have hsend : runDecoded (TaskStore.send (.insertPermissionRequest taskId request now)) now s =
        (.ok (s.nextSequence taskId), s₁) := (runDecoded_send rfl).trans (runAlone_query_ok hinsert)
    obtain ⟨-, -, hstore⟩ := insertPermissionRequest_ok hinsert
    have hevents := congrArg Store.events hstore
    rw [runDecoded_bind_ok hsend, runDecoded_publishing (by rfl) hevents]
    change (∃ event, (if request.toValue.readable then _ else _ : Except _ _ × Store).1 = _) ↔ _
    cases hread : request.toValue.readable with
    | true => exact ⟨fun _ => ⟨hused, rfl, rfl⟩, fun _ => ⟨_, rfl⟩⟩
    | false =>
      constructor
      · rintro ⟨event, hok⟩
        cases hok
      · rintro ⟨-, -, hread⟩
        cases hread

end Record

section Resolve
variable {taskId requestId id rid : String}

theorem uses_send_spares {q : DbStep} (hq : q.Spares id rid) :
    (TaskStore.send q).Uses (DbStep.Spares id rid) :=
  DbStep.uses_query hq _

theorem uses_resolvePermissionRequest (hne : ¬ (rid = requestId ∧ id = taskId))
    (decision : PermissionDecision) (reason : Option String) :
    (TaskStore.resolvePermissionRequest taskId requestId decision reason).Uses
      (DbStep.Spares id rid) := by
  refine Uses.bind ((uses_send_spares (q := .selectTask taskId) trivial).bind fun row => ?_) fun _ =>
    (uses_send_spares (q := .clock) trivial).bind fun now =>
    (uses_send_spares (q := .resolvePermissionRequest taskId requestId decision reason now)
      hne).bind fun answer => ?_
  · cases row <;> trivial
  · rcases answer with e | (found | sequence)
    · trivial
    · trivial
    · exact (uses_send_spares (q := .selectEvent taskId sequence) trivial).bind fun event =>
        ⟨trivial, fun _ => trivial⟩

theorem resolvePermissionRequest_spares (hne : ¬ (rid = requestId ∧ id = taskId))
    (decision : PermissionDecision) (reason : Option String) (now : String) (s : Store) :
    (runDecoded (TaskStore.resolvePermissionRequest taskId requestId decision reason) now
      s).2.findPermissionRequest id rid = s.findPermissionRequest id rid :=
  runDecoded_invariant (I := fun t => t.findPermissionRequest id rid = s.findPermissionRequest id rid)
    (fun _ input t hq ht => (hq.findPermissionRequest input t).trans ht)
    (uses_resolvePermissionRequest hne decision reason) rfl

end Resolve

/-- The request can be recorded for the task, and resolving it leaves the request of the same
id of every other task alone. -/
def Independent (s : Store) (taskId : String) (request : PermissionRequestEvent) : Prop :=
  (∀ now, ∃ event,
    (runDecoded (TaskStore.recordPermissionRequest taskId request) now s).1 = .ok event) ∧
  ∀ t id decision reason now, id ≠ taskId →
    (runDecoded (TaskStore.resolvePermissionRequest taskId request.requestId decision reason) now
      t).2.findPermissionRequest id request.requestId = t.findPermissionRequest id request.requestId

/-- The requests of a task are independent of the other tasks exactly if none of these has used
the request id and what the call reads nests no deeper than `serde_json` reads back. -/
theorem permission_requests_independent_iff {p : StorePool} {taskId : String}
    {request : PermissionRequestEvent} (hreach : StoreReaches false .empty p)
    (htask : (p.shared.findTask taskId).isSome)
    (hnew : p.shared.findPermissionRequest taskId request.requestId = none) :
    Independent p.shared taskId request ↔
      (∀ id, id ≠ taskId → p.shared.findPermissionRequest id request.requestId = none) ∧
        p.shared.taskReadable taskId ∧
        ∀ details ∈ request.details, details.depth < Value.recursionLimit - 1 := by
  have hs := wellFormed_of_storeReaches wellFormed_empty hreach
  have hfresh : ¬ p.shared.Numbered request.requestId ↔ ∀ id, id ≠ taskId →
      p.shared.findPermissionRequest id request.requestId = none := by
    rw [numbered_iff]
    constructor
    · intro hnone id _
      by_contra hsome
      exact hnone ⟨id, hsome⟩
    · rintro hothers ⟨id, hsome⟩
      by_cases hid : id = taskId
      · subst hid
        exact hsome hnew
      · exact hsome (hothers id hid)
  rw [← hfresh, ← readable_request]
  constructor
  · rintro ⟨hrecord, -⟩
    exact (recordPermissionRequest_ok_iff hs htask).mp (hrecord "")
  · intro hunused
    refine ⟨fun now => (recordPermissionRequest_ok_iff hs htask).mpr hunused, ?_⟩
    intro t id decision reason now hne
    exact resolvePermissionRequest_spares (fun h => hne h.2) decision reason now t

def twoSessions : List StoreAction :=
  .spawn (.create sampleTask) :: advances 0 5 "t0" ++
  .spawn (.create sampleTask) :: advances 1 5 "t1" ++
  .spawn (.recordPermissionRequest "task_1" sampleRequest) :: advances 2 5 "t2"

theorem twoSessions_reached : ∃ p : StorePool, StoreReaches false .empty p ∧
    (p.shared.findTask "task_2").isSome ∧ p.shared.taskReadable "task_2" ∧
    p.shared.permissionRequests.map (fun r => (r.taskId, r.requestId)) = [("task_1", "perm_1")] := by
  have hrun : (storeRun false .empty twoSessions).map (fun p => ((p.shared.findTask "task_2").isSome,
      p.shared.taskReadable "task_2",
      p.shared.permissionRequests.map fun r => (r.taskId, r.requestId))) =
      some (true, true, [("task_1", "perm_1")]) := by decide
  obtain ⟨p, hp, hf⟩ := storeReaches_of_run hrun
  simp only [Prod.mk.injEq] at hf
  exact ⟨p, hp, hf⟩

theorem findPermissionRequest_of_keys {s : Store} {taskId requestId : String}
    {keys : List (String × String)}
    (h : s.permissionRequests.map (fun r => (r.taskId, r.requestId)) = keys) :
    s.findPermissionRequest taskId requestId = none ↔ (taskId, requestId) ∉ keys := by
  rw [← h, findPermissionRequest, List.find?_eq_none]
  simp only [decide_eq_true_eq, List.mem_map, Prod.mk.injEq, not_exists, not_and]

theorem permission_requests_independent_otherNumber : ∃ p : StorePool,
    StoreReaches false .empty p ∧
    Independent p.shared "task_2" { sampleRequest with requestId := "perm_2" } := by
  obtain ⟨p, hp, htask, hrow, hkeys⟩ := twoSessions_reached
  refine ⟨p, hp, (permission_requests_independent_iff hp htask ?_).mpr
    ⟨fun id _ => ?_, hrow, by decide⟩⟩
  · rw [findPermissionRequest_of_keys hkeys]
    decide
  · rw [findPermissionRequest_of_keys hkeys, List.mem_singleton]
    exact fun h => absurd (Prod.mk.inj h).2 (by decide)

/-- The second provider numbers its first request as the first provider did. -/
theorem sameNumber_not_independent : ∃ p : StorePool, StoreReaches false .empty p ∧
    (p.shared.findTask "task_2").isSome ∧
    p.shared.findPermissionRequest "task_2" sampleRequest.requestId = none ∧
    ¬ Independent p.shared "task_2" sampleRequest := by
  obtain ⟨p, hp, htask, -, hkeys⟩ := twoSessions_reached
  have hs := wellFormed_of_storeReaches wellFormed_empty hp
  refine ⟨p, hp, htask, ?_, fun h => ?_⟩
  · rw [findPermissionRequest_of_keys hkeys]
    decide
  · refine ((recordPermissionRequest_ok_iff hs htask).mp (h.1 "t3")).1 (numbered_iff.mpr ⟨"task_1", ?_⟩)
    rw [Ne, findPermissionRequest_of_keys hkeys]
    decide

end OpenDaemon
