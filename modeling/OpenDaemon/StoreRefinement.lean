import Mathlib.Data.List.TakeWhile
import OpenDaemon.PoolRefinement
import OpenDaemon.StoreEffects
import OpenDaemon.TaskFootprint
import OpenDaemon.TextRefinement

/-!
# The stores on text tables

Calls of the stores that are given values which can be read back from JSON write
only such values. So whatever calls run at once, and however their statements
interleave, the stores on the text tables do what they do on rows: every row that
a query meets can be read back, and each call is answered the same.
-/

namespace OpenDaemon

open RowTable Runs Interleaving Call

/-- What an event of this type may carry. -/
def TaskEventType.Carries (eventType : TaskEventType) (payload : Value) : Prop :=
  Storable payload ∧ (eventType = .providerPermissionDecided → PlainRequestId payload)

/-- What a step writes can be read back. -/
def DbStep.Exact : DbStep → Prop
  | .insertTask row _ => ∀ v ∈ row.metadata, Storable v
  | .updateTaskStatus _ _ payload _ _ => ∀ v ∈ payload, Storable v
  | .updateTaskResult _ result => result.Exact
  | .insertEvent _ _ eventType payload _ => eventType.Carries payload
  | .insertPermissionRequest _ request _ => request.Exact
  | .resolvePermissionRequest _ requestId _ _ _ => Char.ofNat 0 ∉ requestId.toList
  | .insertProfile profile => profile.providerConfig.Exact
  | .updateProfile _ next _ => next.providerConfig.Exact
  | _ => True

section Invariant
variable {s s' : Store} {q : DbStep}

theorem storable_emptyObject : Storable .emptyObject := ⟨.object (by simp) (by simp), rfl⟩

theorem exact_event {event : TaskEvent} (h : Storable event.payload)
    (hother : event.eventType ≠ .providerPermissionDecided) : event.Exact :=
  ⟨h, fun hdecided => absurd hdecided hother⟩

theorem plainRequestId_decision {response : PermissionDecisionEvent}
    (h : Char.ofNat 0 ∉ response.requestId.toList) : PlainRequestId response.toValue := h

theorem eventTypeForStatus_ne_decided (next : TaskStatus) :
    eventTypeForStatus next ≠ .providerPermissionDecided := by
  cases next <;> decide

theorem forall_mem_concat {α : Type} {xs : List α} {x : α} {P : α → Prop}
    (hxs : ∀ y ∈ xs, P y) (hx : P x) : ∀ y ∈ xs ++ [x], P y :=
  List.forall_mem_append.mpr ⟨hxs, List.forall_mem_singleton.mpr hx⟩

theorem forall_mem_map_ite {α : Type} {xs : List α} {c : α → Prop} [DecidablePred c] {f : α → α}
    {P : α → Prop} (hxs : ∀ y ∈ xs, P y) (hf : ∀ y, P y → P (f y)) :
    ∀ y ∈ xs.map fun y => if c y then f y else y, P y := by
  intro y hy
  obtain ⟨old, hold, rfl⟩ := List.mem_map.mp hy
  split
  · exact hf old (hxs old hold)
  · exact hxs old hold

theorem Store.Exact.updateTask (hs : s.Exact) {f : Task → Task}
    (hf : ∀ task, task.Exact → (f task).Exact) (id : String) :
    ∀ r ∈ (s.updateTask id f).tasks, r.value.Exact := by
  intro r hr
  have hrow : r ∈ update s.tasks (fun task => decide (task.id = id)) f := hr
  obtain ⟨old, hold, rfl⟩ := mem_update.mp hrow
  split
  · exact hf old.value (hs.tasks old hold)
  · exact hs.tasks old hold

theorem Store.Exact.transitioned (hs : s.Exact) {id : String} {next : TaskStatus}
    {payload : Option Value} {sequence : ℕ} {now : String}
    (hpayload : ∀ v ∈ payload, Storable v) :
    (s.transitioned id next payload sequence now).Exact where
  tasks := hs.updateTask (f := fun task => task.afterTransition next now)
    (fun _ htask => ⟨htask.metadata, htask.result⟩) id
  events := by
    refine forall_mem_concat hs.events (exact_event ?_ (eventTypeForStatus_ne_decided next))
    cases payload with
    | none => exact storable_emptyObject
    | some v => exact hpayload v rfl
  permissionRequests := hs.permissionRequests
  profiles := hs.profiles

theorem exact_of_writes (hs : s.Exact) (hq : q.Exact) (h : Writes s q s') : s'.Exact := by
  cases h with
  | insertTask row now _ =>
    refine ⟨fun r hr => ?_, forall_mem_concat hs.events (exact_event storable_emptyObject nofun),
      hs.permissionRequests, hs.profiles⟩
    rcases mem_insert.mp hr with hold | rfl
    · exact hs.tasks r hold
    · exact ⟨hq, fun _ hresult => by cases hresult⟩
  | transition id next payload sequence now _ _ => exact hs.transitioned hq
  | finish id next payload sequence now _ _ =>
    have hexact : (s.transitioned id next payload sequence now).Exact := hs.transitioned hq
    exact ⟨hexact.tasks, hexact.events, hexact.permissionRequests, hexact.profiles⟩
  | updateTaskResult id result =>
    refine ⟨hs.updateTask (f := fun task => task.withResult result) (fun task htask =>
      ⟨htask.metadata, fun r hr => ?_⟩) id, hs.events, hs.permissionRequests, hs.profiles⟩
    obtain rfl := Option.mem_some_iff.mp hr
    exact hq
  | insertEvent taskId sequence eventType payload now _ =>
    exact ⟨hs.tasks, forall_mem_concat hs.events ⟨hq.1, hq.2⟩, hs.permissionRequests,
      hs.profiles⟩
  | insertPermissionRequest taskId request now _ =>
    exact ⟨hs.tasks,
      forall_mem_concat hs.events
        (exact_event (PermissionRequestEvent.storable_toValue hq) nofun),
      forall_mem_concat hs.permissionRequests hq, hs.profiles⟩
  | resolvePermissionRequest taskId requestId decision reason now request _ _ _ =>
    exact ⟨hs.tasks,
      forall_mem_concat hs.events
        ⟨PermissionDecisionEvent.storable_toValue _, fun _ => plainRequestId_decision hq⟩,
      forall_mem_map_ite hs.permissionRequests fun _ hrecord => hrecord, hs.profiles⟩
  | insertProfile profile =>
    exact ⟨hs.tasks, hs.events, hs.permissionRequests, forall_mem_concat hs.profiles hq⟩
  | updateProfile id next now =>
    exact ⟨hs.tasks, hs.events, hs.permissionRequests,
      forall_mem_map_ite hs.profiles fun _ _ => hq⟩
  | deleteProfile id =>
    exact ⟨hs.tasks, hs.events, hs.permissionRequests,
      fun profile hp => hs.profiles profile (List.mem_of_mem_filter hp)⟩
  | nothing | publish | replaceLock | releaseLocks | insertGrant | updateGrant | deleteGrant =>
    exact ⟨hs.tasks, hs.events, hs.permissionRequests, hs.profiles⟩

theorem exact_of_exec (hs : s.Exact) (hq : q.Exact) (input : DbStep.Input) :
    (q.exec input s).2.Exact := exact_of_writes hs hq (writes_of_exec q input s)

end Invariant

/-- A profile that was read can be written back. -/
def DbStep.Trusted : (q : DbStep) → q.Answer → Prop
  | .selectProfile _, answer => ∀ profile, answer = .ok (some profile) →
      profile.providerConfig.Exact
  | _, _ => True

def DbStep.exactContract : Contract DbStep DbStep.Answer := ⟨DbStep.Exact, DbStep.Trusted⟩

def StoreStep.Exact : StoreStep → Prop
  | .db q => q.Exact
  | _ => True

def StoreStep.Trusted : (q : StoreStep) → q.Answer → Prop
  | .db q, answer => q.Trusted answer
  | _, _ => True

def StoreStep.exactContract : Contract StoreStep StoreStep.Answer :=
  ⟨StoreStep.Exact, StoreStep.Trusted⟩

def TaskOp.Exact : TaskOp → Prop
  | .create input => ∀ v ∈ input.metadata, Storable v
  | .transition _ _ payload => ∀ v ∈ payload, Storable v
  | .saveExecutionResult result => result.Exact
  | .appendEvent _ eventType payload => eventType.Carries payload
  | .recordPermissionRequest _ request => request.Exact
  | .resolvePermissionRequest _ requestId _ _ => Char.ofNat 0 ∉ requestId.toList
  | _ => True

def ProfileOp.Exact : ProfileOp → Prop
  | .create input => input.providerConfig.Exact
  | .patch _ changes => ∀ config ∈ changes.providerConfig, config.Exact
  | _ => True

/-- The values that a call is given can be kept as JSON text. -/
def StoreOp.Exact : StoreOp → Prop
  | .task op => op.Exact
  | .profile op => op.Exact
  | _ => True

section Calls

theorem TaskOp.exact_issued {op : TaskOp} (h : op.Exact) {q : DbStep} (hq : op.Issues q) :
    q.Exact := by
  cases q with
  | insertTask row now =>
    obtain ⟨input, rfl, rfl⟩ := hq
    exact h
  | updateTaskStatus id next payload sequence now =>
    rcases hq with rfl | ⟨rfl, -, rfl⟩
    · exact h
    · exact fun v hv => by cases hv
  | updateTaskResult id result =>
    rcases hq with rfl | ⟨-, hresult, husage, hartifacts⟩
    · exact h
    · refine ⟨?_, ?_, ?_, ?_⟩
      · exact hresult ▸ kept_none
      · exact husage ▸ kept_none
      · rw [hartifacts]
        exact fun v hv => absurd hv List.not_mem_nil
      · rw [TaskResult.readable_iff, hresult, husage, hartifacts]
        simp
  | insertEvent | insertPermissionRequest | resolvePermissionRequest =>
    obtain rfl := hq
    exact h
  | insertProfile | updateProfile => exact hq.elim
  | clock | publish | selectTask | selectTasks | nextSequence | selectEvent | selectHeldLocks
  | selectGrant | selectProfile | replaceLock | releaseLocks | insertGrant | updateGrant
  | deleteGrant | deleteProfile => trivial

theorem GrantOp.uses_exact (op : GrantOp) : op.program.Uses DbStep.Exact :=
  op.uses trivial (fun _ => trivial) (fun _ _ _ _ _ => trivial) (fun _ _ _ => trivial)
    fun _ => trivial

theorem keeps_sendProfile {q : DbStep} (hq : q.Exact) :
    (ProfileStore.send q).Keeps DbStep.exactContract fun row => q.Trusted (.ok row) := by
  refine ⟨hq, fun answer hanswer => ?_⟩
  cases answer with
  | ok row => exact hanswer
  | error e => trivial

theorem keeps_getProfile (id : String) : (ProfileStore.get id).Keeps DbStep.exactContract
    fun profile => profile.providerConfig.Exact := by
  refine keeps_bind (keeps_sendProfile (q := .selectProfile id) trivial) fun row hrow => ?_
  cases row with
  | none => trivial
  | some profile => exact hrow profile rfl

theorem exact_apply {changes : PatchAgentProfile} {current : AgentProfile}
    (hchanges : ∀ config ∈ changes.providerConfig, config.Exact)
    (hcurrent : current.providerConfig.Exact) :
    (changes.apply current).providerConfig.Exact := by
  unfold PatchAgentProfile.apply
  cases hconfig : changes.providerConfig with
  | none => exact hcurrent
  | some config => exact hchanges config hconfig

theorem ProfileOp.keeps_exact {op : ProfileOp} (h : op.Exact) :
    op.program.Keeps DbStep.exactContract fun _ => True := by
  cases op with
  | get id => exact (keeps_getProfile id).weaken fun _ _ => trivial
  | create input =>
    refine keeps_checkError fun _ _ => keeps_seq ?_ fun now => keeps_seq ?_ fun _ => ?_
    · exact (keeps_sendProfile (q := .clock) trivial).weaken fun _ _ => trivial
    · refine ⟨h, fun answer _ => ?_⟩
      cases answer <;> trivial
    · exact (keeps_getProfile _).weaken fun _ _ => trivial
  | patch id changes =>
    change (ProfileStore.patch id changes).Keeps _ _
    unfold ProfileStore.patch
    split
    · trivial
    · refine keeps_bind (keeps_getProfile id) fun current hcurrent => keeps_checkError fun _ _ =>
        keeps_bind (keeps_sendProfile (q := .clock) trivial) fun now _ => ?_
      have hupdate : (DbStep.updateProfile id (changes.apply current) now).Exact :=
        exact_apply h hcurrent
      exact keeps_bind (keeps_sendProfile hupdate) fun _ _ =>
        (keeps_getProfile id).weaken fun _ _ => trivial
  | delete id =>
    refine keeps_bind (keeps_sendProfile (q := .deleteProfile id) trivial) fun changed _ => ?_
    cases changed <;> trivial
  | authorize request =>
    exact keeps_bind (keeps_getProfile request.agentId) fun profile _ =>
      keeps_checkError fun _ _ => trivial

theorem keeps_ofDb {ε α : Type} {onError : ε → StoreFailure} {c : Call DbStep DbStep.Answer ε α}
    {post : α → Prop} (hc : c.Keeps DbStep.exactContract post) :
    (StoreCall.ofDb onError c).Keeps StoreStep.exactContract post := by
  refine hc.embed ?_ ?_
  · exact fun _ h => h
  · exact fun _ _ h => h

theorem keeps_query {q : StoreStep} (hq : q.Exact) {onError : SqlError → StoreFailure} :
    (q.query onError).Keeps StoreStep.exactContract fun _ => True := by
  refine ⟨hq, fun answer _ => ?_⟩
  cases answer <;> trivial

theorem StoreOp.keeps_exact {op : StoreOp} (h : op.Exact) :
    op.program.Keeps StoreStep.exactContract fun _ => True := by
  cases op with
  | task op => exact keeps_ofDb (.of_uses (op.uses_issued.mono fun _ hq => op.exact_issued h hq))
  | grant op => exact keeps_ofDb (.of_uses op.uses_exact)
  | profile op => exact keeps_ofDb (op.keeps_exact h)
  | getPermissionRequest taskId requestId =>
    have hget : (TaskOp.get taskId).Exact := trivial
    refine keeps_seq (keeps_ofDb (.of_uses ?_)) fun _ => keeps_seq (keeps_query ?_) ?_
    · exact (TaskOp.get taskId).uses_issued.mono fun _ hq => TaskOp.exact_issued hget hq
    · trivial
    · rintro (request | _) <;> trivial
  | listEvents | listEventsAfter | listPermissionRequests | listGrants | listProfiles =>
    refine keeps_query ?_
    trivial

end Calls

section Pools
variable {json : ColumnText} {s : Store}

theorem answered_trusted (q : StoreStep) (input : DbStep.Input) (hs : s.Exact) :
    q.Trusted (q.exec input s).1 := by
  cases q with
  | db q =>
    cases q with
    | selectProfile id =>
      intro profile hprofile
      cases input with
      | ioError => cases hprofile
      | proceed now => exact exact_of_findProfile hs (Except.ok.inj hprofile)
    | _ => trivial
  | _ => trivial

theorem exec_db (q : DbStep) (input : DbStep.Input) (s : Store) :
    (StoreStep.db q).exec input s = q.exec input s := by
  cases input with
  | ioError => rfl
  | proceed now =>
    simp only [StoreStep.exec, StoreStep.attempt, DbStep.exec]
    cases q.attempt now s <;> rfl

theorem exact_of_storeExec {q : StoreStep} (hq : q.Exact) (input : DbStep.Input) (hs : s.Exact) :
    (q.exec input s).2.Exact := by
  cases q with
  | db q => exact exec_db q input s ▸ exact_of_exec hs hq input
  | selectPermissionRequest | listEventsAfter | listPermissionRequests | listGrants
  | listProfiles => cases input <;> exact hs

abbrev AllStoresPool (σ : Type) : Type :=
  Pool σ StoreStep.Answer StoreFailure StoreOp.Result

abbrev AllStoresAction : Type := Action StoreOp DbStep.Input

def rowPoolStep : AllStoresPool Store → AllStoresAction → Option (AllStoresPool Store) :=
  step StoreOp.program StoreStep.exec

def textPoolStep (json : ColumnText) :
    AllStoresPool TextStore → AllStoresAction → Option (AllStoresPool TextStore) :=
  step StoreOp.program (TextStore.exec json)

theorem exact_of_run (hs : s.Exact) {actions : List AllStoresAction}
    (hexact : ∀ op, .spawn op ∈ actions → op.Exact) {p : AllStoresPool Store}
    (h : Runs.run rowPoolStep ⟨s, []⟩ actions = some p) : p.shared.Exact := by
  refine invariant_of_keeps (fun _ hop => StoreOp.keeps_exact hop)
    (fun q input s hs => answered_trusted q input hs)
    (fun op _ q hq input s hs => exact_of_storeExec hq input hs) hs
    (reaches_of_actions h fun a ha _ op hop => hexact op (hop ▸ ha))

end Pools

/-- The reader of `serde_json` has its limit; SQLite gives an array or an object as its text, and
this release ends a text at U+0000. -/
def compactText : ColumnText where
  print v := String.ofList (JsonText.print v)
  parse text := (JsonText.parse text.toList).filter Value.readable
  requestIdOf text := do
    let v ← JsonText.parse text.toList
    match ← v.get? "request_id" with
    | .string s => some (String.ofList (s.toList.takeWhile fun c => decide (c ≠ Char.ofNat 0)))
    | .array items => some (String.ofList (JsonText.print (.array items)))
    | .object entries => some (String.ofList (JsonText.print (.object entries)))
    | _ => none

theorem parse_compact {v : Value} (h : JsonText.Exact v) :
    JsonText.parse (compactText.print v).toList = some v := by
  rw [compactText, String.toList_ofList, JsonText.parse_print h]

theorem compactText_reads : compactText.Reads where
  parse_print v hv := by
    change (JsonText.parse (compactText.print v).toList).filter Value.readable = some v
    rw [parse_compact hv.exact, Option.filter_some, if_pos hv.readable]
  requestIdOf_print v hv hplain := by
    change (JsonText.parse (compactText.print v).toList).bind _ = (v.get? "request_id").bind _
    rw [parse_compact hv.exact, Option.bind_some]
    unfold PlainRequestId at hplain
    cases hid : v.get? "request_id" with
    | none => rfl
    | some w =>
      rw [hid] at hplain
      cases w with
      | string s =>
        have hall : s.toList.takeWhile (fun c => decide (c ≠ Char.ofNat 0)) = s.toList :=
          List.takeWhile_eq_self_iff.mpr fun c hc =>
            decide_eq_true fun hnul => hplain (hnul ▸ hc)
        simp only [Option.bind_eq_bind, Option.bind_some, hall, String.ofList_toList, Value.asStr]
      | array _ | object _ => exact hplain.elim
      | null | bool _ | number _ => rfl

def taskWithMetadata : CreateTask :=
  { sampleTask with metadata := some (.object [("issue", .number (toString (7 : ℤ)))]) }

def listedWhileStarted : List AllStoresAction :=
  let advances (i n : ℕ) (now : String) : List AllStoresAction :=
    List.replicate n (.advance i (.proceed now))
  .spawn (.task (.create taskWithMetadata)) :: advances 0 5 "t0" ++
    .spawn (.task (.transition "task_1" .waitingDirectoryLock none)) :: advances 1 4 "t1" ++
    .spawn (.listEvents "task_1") :: advances 2 1 "t2" ++ advances 1 3 "t3"

end OpenDaemon
