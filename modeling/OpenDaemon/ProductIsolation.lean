import OpenDaemon.GrantIdentity
import OpenDaemon.HandlerOwnership

/-!
# Product isolation

The requests of the products, handled one at a time, between the steps of the
daemon on its own tasks. In every state that such a run reaches, a request
writes rows of its product only and is answered with rows of its product, the
events that its stream sends later included. A task names a profile and a grant
that were its owner's when it was created.
-/

namespace OpenDaemon

open RowTable Store Call Runs

/-- A handled request, or a step of the daemon: a dispatch of the control plane, work on one of
the tasks, an adapter that waits for a decision. -/
inductive ApiAction
  | request (host : ApiHost) (context : ProductAuthContext) (request : ApiRequest)
      (inputs : ℕ → ServiceStep.Input)
  | dispatch (input : CreateTask) (inputs : ℕ → ServiceStep.Input)
  | work (op : TaskOp) (now : String)
  | wait (taskId requestId : String)

def apiStep (x : EventState) : ApiAction → Option EventState
  | .request host context request inputs =>
    some ((request.handle host context).run ApiStep.exec inputs x).state
  | .dispatch input inputs =>
    some { x with store := (runService (SchedulerService.enqueueTask input) inputs x.store).2 }
  | .work op now =>
    if (op.taskId?.bind x.store.findTask).isSome then
      some { x with store := (runAlone op.program now x.store).2 }
    else none
  | .wait taskId requestId => some (x.registerWaiter taskId requestId).2

def ApiReaches (x y : EventState) : Prop := Reaches apiStep (fun _ _ => True) x y

inductive FollowAction
  | server (a : ApiAction)
  | stream (a : StreamAction)

def followStep (p : EventState × Stream) : FollowAction → Option (EventState × Stream)
  | .server a => (apiStep p.1 a).map fun x => (x, p.2)
  | .stream a => (streamStep p.1.store p.2 a).map fun st => (p.1, st)

/-- A step of the history has created the task, and the state before it had its profile and its
grant as its owner's. -/
def BackedAtCreation (x : EventState) (task : Task) : Prop :=
  ∃ y a z, ApiReaches (.start .empty) y ∧ apiStep y a = some z ∧ ApiReaches z x ∧
    y.store.findTask task.id = none ∧
    (∃ created, z.store.findTask task.id = some created ∧ created.creation = task.creation) ∧
    y.store.Backs task.creation.1

section Server
variable {x y : EventState} {a : ApiAction}

theorem run_serves (hs : x.store.Consistent) (host : ApiHost) (context : ProductAuthContext)
    (request : ApiRequest) (inputs : ℕ → ServiceStep.Input) :
    x.store.Change context.productId
        ((request.handle host context).run ApiStep.exec inputs x).state.store ∧
      ∀ response, ((request.handle host context).run ApiStep.exec inputs x).result = .ok response →
        response.OwnedBy context.productId
          ((request.handle host context).run ApiStep.exec inputs x).state.store :=
  serves_handle hs host context request inputs x (fun _ => trivial) rfl

theorem change_apiStep (hs : x.store.Consistent) (h : apiStep x a = some y) :
    ∃ productId, x.store.Change productId y.store := by
  cases a with
  | request host context request inputs =>
    obtain rfl := Option.some.inj h
    exact ⟨_, (run_serves hs host context request inputs).1⟩
  | dispatch input inputs =>
    obtain rfl := Option.some.inj h
    exact ⟨_, (change_enqueueTask hs.wellFormed input inputs).1⟩
  | work op now =>
    simp only [apiStep] at h
    split at h
    · rename_i hsome
      obtain rfl := Option.some.inj h
      obtain ⟨task, htask⟩ := Option.isSome_iff_exists.mp hsome
      obtain ⟨id, hid, hfind⟩ := Option.bind_eq_some_iff.mp htask
      exact ⟨task.ownerProductId, .touchedTask ⟨task, hfind, rfl⟩ (touched_runAlone hid now _)
        (wellFormed_runAlone hs.wellFormed op)⟩
    · cases h
  | wait taskId requestId =>
    obtain rfl := Option.some.inj h
    rw [store_registerWaiter]
    exact ⟨"", .same⟩

theorem consistent_apiStep (hs : x.store.Consistent) (h : apiStep x a = some y) :
    y.store.Consistent := by
  obtain ⟨productId, hchange⟩ := change_apiStep hs h
  exact hchange.consistent hs

theorem consistent_empty : Store.empty.Consistent where
  wellFormed := wellFormed_empty
  grantKeys := Keyed.nil
  profileIds := List.nodup_nil

theorem consistent_reaches (h : ApiReaches (.start .empty) x) : x.store.Consistent := by
  induction h with
  | refl => exact consistent_empty
  | tail _ _ hstep ih => exact consistent_apiStep ih hstep

/-- The step that created a task is found by going back along the run: each step keeps the
columns of creation, or finds the task missing. -/
theorem backed_reaches (h : ApiReaches (.start .empty) x) {task : Task}
    (hfind : x.store.findTask task.id = some task) : BackedAtCreation x task := by
  induction h generalizing task with
  | refl => cases hfind
  | @tail y z a hreach hok hstep ih =>
    have hs := consistent_reaches hreach
    obtain ⟨productId, hchange⟩ := change_apiStep hs hstep
    rcases hchange.origin hs.wellFormed hfind with ⟨old, hold, hcreation⟩ | ⟨hnone, hbacks⟩
    · have hid : old.id = task.id := findTask_id hold
      rw [← hid] at hold
      obtain ⟨u, b, v, hu, huv, hv, hfresh, hcreated, hback⟩ := ih hold
      rw [hid] at hfresh hcreated
      rw [hcreation] at hcreated hback
      exact ⟨u, b, v, hu, huv, .tail hv trivial hstep, hfresh, hcreated, hback⟩
    · exact ⟨y, a, z, hreach, hstep, .refl, hnone, ⟨task, hfind, rfl⟩, hbacks⟩

end Server

section Following
variable {s : Store} {st st' : Stream} {event : TaskEvent} {pending : List TaskEvent}

namespace Stream.Mine

theorem rephase (h : st.Mine) (hframes : st'.frames = st.frames) (htask : st'.taskId = st.taskId)
    (hpending : st'.phase.pending ⊆ st.phase.pending) : st'.Mine := by
  intro event hevent
  rw [hframes] at hevent
  rw [htask]
  refine h event (List.mem_append.mpr ?_)
  exact (List.mem_append.mp hevent).imp id fun hmem => hpending hmem

theorem queried (h : st.Mine) (hframes : st'.frames = st.frames) (htask : st'.taskId = st.taskId)
    {cursor : ℕ} (hpending : st'.phase.pending = s.listEventsAfter st.taskId cursor) :
    st'.Mine := by
  intro event hevent
  rw [hframes, hpending] at hevent
  rw [htask]
  rcases List.mem_append.mp hevent with hmem | hmem
  · exact h event (List.mem_append_left _ hmem)
  · exact (mem_listEventsAfter.mp hmem).2.1

theorem send (h : st.Mine) (hevent : event.taskId = st.taskId) {phase : StreamPhase}
    (hpending : phase.pending ⊆ st.phase.pending) : (st.send event phase).Mine := by
  intro e he
  rw [frames_send, List.append_assoc] at he
  rcases List.mem_append.mp he with hmem | hmem
  · exact h e (List.mem_append_left _ hmem)
  · rcases List.mem_append.mp hmem with hmem | hmem
    · rw [List.mem_singleton.mp hmem]
      exact hevent
    · exact h e (List.mem_append_right _ (hpending hmem))

theorem send_pending (h : st.Mine) (hpending : st.phase.pending = event :: pending)
    {phase : StreamPhase} (hphase : phase.pending ⊆ pending) : (st.send event phase).Mine := by
  refine h.send (h event (List.mem_append_right _ ?_)) ?_
  · rw [hpending]
    exact List.mem_cons_self
  · rw [hpending]
    exact List.subset_cons_of_subset _ hphase

end Stream.Mine

theorem mine_step {a : StreamAction} (h : st.Mine) (hstep : streamStep s st a = some st') :
    st'.Mine ∧ st'.taskId = st.taskId := by
  cases Stream.moves_of_step hstep with
  | readStatus task hphase hfound => exact ⟨h.rephase rfl rfl (List.nil_subset _), rfl⟩
  | missing hphase hmissing => exact ⟨h.rephase rfl rfl (List.nil_subset _), rfl⟩
  | subscribe ended hphase => exact ⟨h.rephase rfl rfl (List.nil_subset _), rfl⟩
  | query ended hphase => exact ⟨h.queried rfl rfl rfl, rfl⟩
  | replay event pending shouldTail hphase =>
    refine ⟨h.send_pending ?_ (List.Subset.refl pending), rfl⟩
    rw [hphase]
    rfl
  | tail hphase => exact ⟨h.rephase rfl rfl (List.nil_subset _), rfl⟩
  | finish hphase => exact ⟨h.rephase rfl rfl (List.nil_subset _), rfl⟩
  | lag hphase hbehind => exact ⟨h.rephase rfl rfl (List.nil_subset _), rfl⟩
  | skip event hphase hreceived hskipped => exact ⟨h.rephase rfl rfl (List.Subset.refl _), rfl⟩
  | receive event hphase hreceived htask habove hcurrent =>
    have hnext : ({ st with position := st.position + 1 } : Stream).Mine :=
      h.rephase rfl rfl (List.Subset.refl _)
    refine ⟨hnext.send htask fun e he => ?_, rfl⟩
    cases (Stream.Sound.pending_after event .tailing).subset he
  | requery hphase => exact ⟨h.queried rfl rfl rfl, rfl⟩
  | recovered hphase => exact ⟨h.rephase rfl rfl (List.nil_subset _), rfl⟩
  | passOver event pending hphase hbelow =>
    refine ⟨h.rephase rfl rfl ?_, rfl⟩
    rw [hphase]
    exact List.subset_cons_self event pending
  | catchUp event pending hphase habove =>
    refine ⟨h.send_pending ?_ (Stream.Sound.pending_after event (.recovering pending)).subset, rfl⟩
    rw [hphase]
    rfl
  | heartbeat hphase =>
    exact ⟨h.rephase (Stream.frames_heartbeat st) rfl (List.Subset.refl _), rfl⟩
  | stop => exact ⟨h.rephase rfl rfl (List.nil_subset _), rfl⟩

theorem follow_owned {productId : String} {p q : EventState × Stream}
    (h : Reaches followStep (fun _ _ => True) p q) (hs : p.1.store.Consistent)
    (hown : p.1.store.Owns productId p.2.taskId) (hmine : p.2.Mine) :
    q.1.store.Consistent ∧ q.1.store.Owns productId q.2.taskId ∧ q.2.Mine := by
  induction h with
  | refl => exact ⟨hs, hown, hmine⟩
  | @tail q r a _ _ hstep ih =>
    obtain ⟨hsq, hownq, hmineq⟩ := ih
    cases a with
    | server a =>
      obtain ⟨y, hy, rfl⟩ := Option.map_eq_some_iff.mp hstep
      obtain ⟨owner, hchange⟩ := change_apiStep hsq hy
      exact ⟨hchange.consistent hsq, hchange.owns hsq.wellFormed hownq, hmineq⟩
    | stream a =>
      obtain ⟨st, hst, rfl⟩ := Option.map_eq_some_iff.mp hstep
      obtain ⟨hminest, htask⟩ := mine_step hmineq hst
      refine ⟨hsq, ?_, hminest⟩
      dsimp only
      rwa [htask]

end Following

def sampleHost : ApiHost := ⟨sampleFilesystem, fun _ => none, fun _ => none⟩

def acmeContext : ProductAuthContext :=
  ⟨"token_1", "acme", [.agentsWrite, .directoriesGrant, .tasksCreate, .tasksRead]⟩

def rivalContext : ProductAuthContext := ⟨"token_2", "rival", [.tasksRead]⟩

def reviewerRequest : AgentsApi.CreateAgentRequest where
  id := "reviewer"
  name := "Reviewer"
  ownerProductId := "acme"
  providerId := "codex"
  model := "default"
  instructions := none
  executionPolicy := ⟨.worktree, false⟩
  providerConfig := ⟨[], [], none, defaultPermissionMode⟩

def repoRequest : DirectoriesApi.CreateDirectoryGrantRequest :=
  ⟨"acme", "reviewer", "/srv/repo", [.read, .write], none, none, none, none, none⟩

def codexInput : ServiceStep.Input := { sampleInput "t1" with registry := some remoteCodex }

def acmeRun : Option EventState :=
  Runs.run (fun x a => if true then apiStep x a else none) (.start .empty)
    ([.createAgent reviewerRequest, .createDirectory repoRequest, .createTask omittedProvider].map
      fun request => .request sampleHost acmeContext request fun _ => codexInput)

def succeeds (x : EventState) (context : ProductAuthContext) (request : ApiRequest) : Bool :=
  ((request.handle sampleHost context).run ApiStep.exec (fun _ => codexInput) x).result.isOk

end OpenDaemon
