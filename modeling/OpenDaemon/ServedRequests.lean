import OpenDaemon.ApiHandlers
import OpenDaemon.ProductRows
import OpenDaemon.RemoteGate

/-!
# What a handled request does

One request runs alone, from its first check to its answer. Each handler checks
the rows that it has just read, or forces the filter of its query, so what it
writes and what it returns belongs to the product of its token. The rules follow
the shape of a handler: a check, a read, and a last call that may write.
-/

namespace OpenDaemon

open RowTable Store Call Runs

section Rules
variable {ε ε' α β : Type} {x : EventState} {productId : String} {owned : α → Store → Prop}

/-- Run from `x`, the handler makes a change of the product's own and returns what is owned. -/
def Serves (x : EventState) (productId : String) (owned : α → Store → Prop) (c : ApiCall ε α) :
    Prop :=
  Triple ApiStep.exec (fun _ => True) (fun y => y = x) c fun r y =>
    x.store.Change productId y.store ∧ ∀ a, r = .ok a → owned a y.store

theorem serves_ret {a : α} (h : owned a x.store) :
    Serves x productId owned (.ret a : ApiCall ε α) := by
  refine triple_ret fun y hy => ?_
  subst hy
  refine ⟨.same, fun b hb => ?_⟩
  obtain rfl := Except.ok.inj hb
  exact h

theorem serves_fail (e : ε) : Serves x productId owned (.fail e : ApiCall ε α) := by
  refine triple_fail fun y hy => ?_
  subst hy
  exact ⟨.same, fun b hb => by cases hb⟩

theorem serves_check {r : Except ε β} {f : β → ApiCall ε α}
    (h : ∀ b, r = .ok b → Serves x productId owned (f b)) :
    Serves x productId owned (ofExcept r >>= f) := by
  cases r with
  | ok b => exact h b rfl
  | error e => exact serves_fail e

theorem serves_read {q : ApiStep} {k : q.Answer → ApiCall ε α}
    (hstate : ∀ input, (q.exec input x).2 = x)
    (h : ∀ input, Serves x productId owned (k (q.exec input x).1)) :
    Serves x productId owned (.step q k) := by
  intro inputs y henv hy
  subst hy
  rw [run_step, hstate]
  exact h (inputs 0) _ y (fun n => henv (n + 1)) rfl

theorem serves_last {q : ApiStep} {k : q.Answer → ApiCall ε α} {r : ServiceStep.Input → Except ε α}
    (hk : ∀ input, k (q.exec input x).1 = ofExcept (r input))
    (h : ∀ input, x.store.Change productId (q.exec input x).2.store ∧
      ∀ a, r input = .ok a → owned a (q.exec input x).2.store) :
    Serves x productId owned (.step q k) := by
  intro inputs y henv hy
  subst hy
  rw [run_step, hk]
  have hlast := h (inputs 0)
  cases hr : r (inputs 0) with
  | ok a =>
    rw [hr] at hlast
    exact hlast
  | error e =>
    rw [hr] at hlast
    exact hlast

theorem Serves.mapError {c : ApiCall ε α} (h : Serves x productId owned c) (g : ε → ε') :
    Serves x productId owned (c.mapError g) := by
  refine Triple.mapError (h.post fun r y hr => ⟨hr.1, fun a ha => hr.2 a ?_⟩)
  exact mapError_eq_ok.mp ha

theorem run_fromService (c : ServiceCall ε α) (inputs : ℕ → ServiceStep.Input) (x : EventState) :
    ((fromService c).run ApiStep.exec inputs x).result = (runService c inputs x.store).1 ∧
      ((fromService c).run ApiStep.exec inputs x).state =
        { x with store := (runService c inputs x.store).2 } := by
  induction c generalizing inputs x with
  | ret a => exact ⟨rfl, rfl⟩
  | fail e => exact ⟨rfl, rfl⟩
  | step q k ih => exact ih _ _ _

theorem serves_fromService {c : ServiceCall ε α}
    (h : ∀ inputs, x.store.Change productId (runService c inputs x.store).2 ∧
      ∀ a, (runService c inputs x.store).1 = .ok a → owned a (runService c inputs x.store).2) :
    Serves x productId owned (fromService c) := by
  intro inputs y _ hy
  subst hy
  obtain ⟨hresult, hstate⟩ := run_fromService c inputs y
  rw [hresult, hstate]
  exact h inputs

theorem Serves.map {owned : β → Store → Prop} {g : α → β} {c : ApiCall ε α}
    (h : Serves x productId (fun a s => owned (g a) s) c) :
    Serves x productId owned (c >>= fun a => (return g a : ApiCall ε β)) := by
  intro inputs y henv hy
  have hc := h inputs y henv hy
  rw [run_bind]
  cases hrun : c.run ApiStep.exec inputs y with
  | mk result state rest =>
    rw [hrun] at hc
    cases result with
    | error e => exact ⟨hc.1, fun b hb => by cases hb⟩
    | ok a =>
      refine ⟨hc.1, fun b hb => ?_⟩
      obtain rfl := Except.ok.inj hb
      exact hc.2 a rfl

end Rules

section Stores
variable {ε α : Type} {x : EventState} {productId : String} {owned : α → Store → Prop}

theorem serves_reading {q : ServiceStep} {k : q.Answer → ApiCall ε α} {a : q.Answer}
    (hexec : ∀ input, q.exec input x.store = (a, x.store)) (h : Serves x productId owned (k a)) :
    Serves x productId owned (.step (.run (.service q)) k) := by
  refine serves_read (fun input => ?_) fun input => ?_
  · simp only [ApiStep.exec, RunStep.exec, hexec]
  · simp only [ApiStep.exec, RunStep.exec, hexec]
    exact h

theorem serves_getTask {taskId : String} {f : Task → ApiCall ApiError α}
    (h : ∀ task, x.store.findTask taskId = some task → Serves x productId owned (f task)) :
    Serves x productId owned (TasksApi.taskStore (.get taskId) >>= f) := by
  cases hfind : x.store.findTask taskId with
  | none =>
    refine serves_reading (a := .error .notFound) (fun input => ?_) (serves_fail _)
    rw [ServiceStep.exec, TaskOp.program, runAlone_get, hfind]
  | some task =>
    refine serves_reading (a := .ok task) (fun input => ?_) (h task hfind)
    rw [ServiceStep.exec, TaskOp.program, runAlone_get, hfind]

theorem serves_getProfile {agentId : String} {f : AgentProfile → ApiCall AgentsApi.ApiError α}
    (h : ∀ profile, x.store.findProfile agentId = some profile →
      Serves x productId owned (f profile)) :
    Serves x productId owned (AgentsApi.profileStore (.get agentId) >>= f) := by
  cases hfind : x.store.findProfile agentId with
  | none =>
    refine serves_reading (a := .error (.profile .agentNotFound)) (fun input => ?_) (serves_fail _)
    rw [ServiceStep.exec, ProfileOp.program, runAlone_getProfile, hfind]
  | some profile =>
    refine serves_reading (a := .ok profile) (fun input => ?_) (h profile hfind)
    rw [ServiceStep.exec, ProfileOp.program, runAlone_getProfile, hfind]

theorem serves_getGrant {directoryId : String}
    {f : DirectoryGrant → ApiCall DirectoriesApi.ApiError α}
    (h : ∀ grant, x.store.findGrant directoryId = some grant → Serves x productId owned (f grant)) :
    Serves x productId owned (DirectoriesApi.grantStore (.get directoryId) >>= f) := by
  cases hfind : x.store.findGrant directoryId with
  | none =>
    refine serves_reading (a := .error .notFound) (fun input => ?_) (serves_fail _)
    rw [ServiceStep.exec, GrantOp.program, runAlone_getGrant, hfind]
  | some grant =>
    refine serves_reading (a := .ok grant) (fun input => ?_) (h grant hfind)
    rw [ServiceStep.exec, GrantOp.program, runAlone_getGrant, hfind]

theorem serves_profileStore (op : ProfileOp) {owned : op.Result → Store → Prop}
    (h : ∀ now, x.store.Change productId (runAlone op.program now x.store).2 ∧
      ∀ a, (runAlone op.program now x.store).1 = .ok a →
        owned a (runAlone op.program now x.store).2) :
    Serves x productId owned (AgentsApi.profileStore op) := by
  refine serves_last (r := fun input =>
    (runAlone op.program input.now x.store).1.mapError AgentsApi.fromStore) (fun input => ?_)
    fun input => ⟨(h input.now).1, fun a ha => (h input.now).2 a (mapError_eq_ok.mp ha)⟩
  simp only [ApiStep.exec, RunStep.exec, ServiceStep.exec]
  cases (runAlone op.program input.now x.store).1 <;> rfl

theorem serves_grantStore (op : GrantOp) {owned : op.Result → Store → Prop}
    (h : ∀ now, x.store.Change productId (runAlone op.program now x.store).2 ∧
      ∀ a, (runAlone op.program now x.store).1 = .ok a →
        owned a (runAlone op.program now x.store).2) :
    Serves x productId owned (DirectoriesApi.grantStore op) := by
  refine serves_last (r := fun input =>
    (runAlone op.program input.now x.store).1.mapError DirectoriesApi.ApiError.directory)
    (fun input => ?_)
    fun input => ⟨(h input.now).1, fun a ha => (h input.now).2 a (mapError_eq_ok.mp ha)⟩
  simp only [ApiStep.exec, RunStep.exec, ServiceStep.exec]
  cases (runAlone op.program input.now x.store).1 <;> rfl

end Stores

def ApiStep.Within (id : String) : ApiStep → Prop
  | .run (.service (.tasks op)) => op.taskId? = some id ∨ ∃ other, op = .get other
  | .run (.service _) => False
  | .run (.event (.db (.publish _))) => True
  | .run (.event (.db _)) => False
  | _ => True

section Touching
variable {ε α : Type} {x y : EventState} {id : String}

theorem store_notify (taskId : String) (decision : PermissionDecisionEvent) :
    (y.notifyPermissionResolution taskId decision).store = y.store := by
  unfold EventState.notifyPermissionResolution
  split <;> rfl

theorem store_registerWaiter (taskId requestId : String) :
    (y.registerWaiter taskId requestId).2.store = y.store := by
  unfold EventState.registerWaiter
  dsimp only
  split <;> rfl

theorem touched_within {q : ApiStep} (hq : q.Within id) (hy : y.store.WellFormed)
    (input : ServiceStep.Input) : y.store.Touched (q.exec input y).2.store id ∧
      (q.exec input y).2.store.WellFormed := by
  have hsame : ∀ z : EventState, z.store = y.store →
      y.store.Touched z.store id ∧ z.store.WellFormed := by
    intro z hz
    rw [hz]
    exact ⟨Touched.refl _ id, hy⟩
  cases q with
  | run q =>
    cases q with
    | service q =>
      cases q with
      | tasks op =>
        refine ⟨?_, wellFormed_runAlone hy op⟩
        rcases hq with hop | ⟨other, rfl⟩
        · exact touched_runAlone hop input.now y.store
        · have hread : (runAlone (TaskOp.get other).program input.now y.store).2 = y.store :=
            runAlone_reads rfl (fun _ h => by cases h) input.now y.store
          simp only [ApiStep.exec, RunStep.exec, ServiceStep.exec, hread]
          exact Touched.refl _ id
      | grants _ | profiles _ | loadRegistry | getRuntime _ | prepareWorkspace _ _ _
      | executeAdapter _ | clock => exact hq.elim
    | event q =>
      cases q with
      | db q =>
        cases q with
        | publish event =>
          exact ⟨touched_exec (q := .publish event) trivial (.proceed input.now) y.store,
            wellFormed_of_same hy rfl rfl⟩
        | _ => exact hq.elim
      | selectPermissionRequest taskId requestId => exact hsame _ rfl
      | hasWaiter taskId requestId => exact hsame _ rfl
      | registerWaiter taskId requestId => exact hsame _ (store_registerWaiter taskId requestId)
      | receive channel => exact hsame _ rfl
      | notifyPermissionResolution taskId decision => exact hsame _ (store_notify taskId decision)
  | listProfiles _ | listGrants _ | listPermissionRequests _ | subscribe | listEventsAfter _ _ =>
    exact hsame _ rfl

theorem serves_touching {productId : String} {owned : α → Store → Prop} {c : ApiCall ε α}
    (hx : x.store.WellFormed) (hown : x.store.Owns productId id) (hc : c.Uses (ApiStep.Within id))
    (howned : ∀ a s, s.Owns productId id → owned a s) : Serves x productId owned c := by
  intro inputs y _ hy
  subst hy
  have hstep : ∀ (q : ApiStep) (input : ServiceStep.Input) (z : EventState), q.Within id →
      y.store.Touched z.store id ∧ z.store.WellFormed →
      y.store.Touched (q.exec input z).2.store id ∧ (q.exec input z).2.store.WellFormed := by
    intro q input z hq hz
    obtain ⟨htouched, hwf⟩ := touched_within hq hz.2 input
    exact ⟨hz.1.trans htouched, hwf⟩
  have hend := hc.run_invariant hstep inputs ⟨Touched.refl _ id, hx⟩
  exact ⟨.touchedTask hown hend.1 hend.2, fun a _ => howned a _ (Owns.touched hend.1 hown)⟩

theorem uses_handlers_tasks {op : TaskOp} (hop : op.taskId? = some id ∨ ∃ other, op = .get other) :
    (TaskEventService.handlers.tasks op).Uses (ApiStep.Within id) := by
  refine ⟨hop, fun r => ?_⟩
  cases r <;> trivial

theorem uses_handlers_ask {q : EventStep} (hq : ApiStep.Within id (.run (.event q))) :
    (TaskEventService.handlers.ask q).Uses (ApiStep.Within id) :=
  ⟨hq, fun _ => trivial⟩

theorem uses_handlers_getPermissionRequest (requestId : String) :
    (TaskEventService.getPermissionRequest TaskEventService.handlers id requestId).Uses
      (ApiStep.Within id) := by
  refine (uses_handlers_tasks (.inr ⟨id, rfl⟩)).bind fun _ =>
    (uses_handlers_ask (q := .selectPermissionRequest id requestId) trivial).bind fun answer => ?_
  rcases answer with e | found
  · trivial
  · cases found <;> trivial

theorem uses_handlers_announceResolution (resolution : PermissionResolution) :
    (TaskEventService.announceResolution TaskEventService.handlers id resolution).Uses
      (ApiStep.Within id) := by
  unfold TaskEventService.announceResolution
  cases PermissionDecisionEvent.fromValue resolution.event.payload with
  | none => trivial
  | some decided =>
    have hnotify : (TaskEventService.handlers.ask (.notifyPermissionResolution id decided) >>=
        fun _ => (return resolution : ApiCall TaskEventServiceError PermissionResolution)).Uses
          (ApiStep.Within id) :=
      (uses_handlers_ask (q := .notifyPermissionResolution id decided) trivial).bind
        fun _ => trivial
    dsimp only
    split
    · exact hnotify
    · exact (uses_handlers_ask (q := .db (.publish resolution.event)) trivial).bind fun _ => hnotify

theorem uses_handlers_resolve (response : PermissionResponseRequest) :
    (TaskEventService.resolvePermissionResponse TaskEventService.handlers id response).Uses
      (ApiStep.Within id) := by
  refine (uses_handlers_getPermissionRequest _).bind fun existing => ?_
  have hresolve : ∀ supported : Bool, (if supported then do
        let resolution ← TaskEventService.handlers.tasks (.resolvePermissionRequest id
          response.requestId response.decision response.reason)
        TaskEventService.announceResolution TaskEventService.handlers id resolution
      else .fail .permissionResponseNotSupported :
        ApiCall TaskEventServiceError PermissionResolution).Uses (ApiStep.Within id) := by
    intro supported
    cases supported with
    | false => trivial
    | true =>
      exact (uses_handlers_tasks (.inl rfl)).bind fun resolution =>
        uses_handlers_announceResolution resolution
  dsimp only
  split
  · exact (uses_handlers_ask (q := .hasWaiter id response.requestId) trivial).bind hresolve
  · exact hresolve true

end Touching

end OpenDaemon
