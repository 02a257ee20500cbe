import OpenDaemon.ApiHandlers
import OpenDaemon.CallContracts

/-!
# Requests at once

The handlers of the API, the dispatches of the control plane and the work on the tasks run at
once on one database. They are interleaved at the steps of the store calls that they make, so
that a row may change between the read and the write of one call as between two calls of one
handler. A handler that runs alone does what it does when a store call is one step
(`run_program`).
-/

namespace OpenDaemon

open Runs Interleaving Store Call

inductive ServerStep
  | db (q : DbStep)
  | api (q : ApiStep)

namespace ServerStep

@[reducible] def Answer : ServerStep → Type
  | .db q => q.Answer
  | .api q => q.Answer

structure Input where
  db : DbStep.Input
  outside : ServiceStep.Input

def exec (q : ServerStep) (input : Input) (x : EventState) : q.Answer × EventState :=
  match q with
  | .db q => ((q.exec input.db x.store).1, { x with store := (q.exec input.db x.store).2 })
  | .api q => q.exec input.outside x

def blocked (x : EventState) : ServerStep → Bool
  | .api (.run q) => q.blocked x
  | _ => false

def ofStore {ε ε' α : Type} (c : Call DbStep DbStep.Answer ε α) :
    Call ServerStep Answer ε' (Except ε α) :=
  (c.embed ServerStep.db (fun _ answer => answer) id).attempt

end ServerStep

def ApiStep.unfolded {ε : Type} : (q : ApiStep) → Call ServerStep ServerStep.Answer ε q.Answer
  | .run (.service (.tasks op)) => ServerStep.ofStore op.program
  | .run (.service (.grants op)) => ServerStep.ofStore op.program
  | .run (.service (.profiles op)) => ServerStep.ofStore op.program
  | q => Call.perform (ServerStep.api q)

inductive ServerOp
  | request (context : ProductAuthContext) (request : ApiRequest)
  | dispatch (remoteTask : RemoteDispatchTask)
  | work (taskId : String) (op : RunOp)

inductive ServerFailure
  | api (failure : ApiFailure)
  | dispatch (error : ControlPlaneDispatchError)
  | work (error : RunError)

namespace ServerOp

@[reducible] def Result : ServerOp → Type
  | .request .. => ApiResponse
  | .dispatch _ => Task
  | .work _ op => op.Result

def calls (host : ApiHost) (config : SchedulerConfig) :
    (op : ServerOp) → ApiCall ServerFailure op.Result
  | .request context asked => (asked.handle host context).mapError .api
  | .dispatch remoteTask =>
    (fromService (ControlPlaneDispatchService.ingest remoteTask)).mapError .dispatch
  | .work taskId op =>
    (RunOp.program config taskId op).embed ApiStep.run (fun _ answer => answer) .work

def program (host : ApiHost) (config : SchedulerConfig) (op : ServerOp) :
    Call ServerStep ServerStep.Answer ServerFailure op.Result :=
  (op.calls host config).unfoldSteps ApiStep.unfolded

end ServerOp

abbrev ServerPool : Type := Pool EventState ServerStep.Answer ServerFailure ServerOp.Result

abbrev ServerAction : Type := Action ServerOp ServerStep.Input

def nextServerStep? (p : ServerPool) : ServerAction → Option ServerStep
  | .spawn _ => none
  | .advance i _ =>
    match p.threads[i]? with
    | some ⟨_, .step q _⟩ => some q
    | _ => none

def requestStep (host : ApiHost) (config : SchedulerConfig) (p : ServerPool) (a : ServerAction) :
    Option ServerPool :=
  if (nextServerStep? p a).any (ServerStep.blocked p.shared) then none
  else step (ServerOp.program host config) ServerStep.exec p a

theorem reaches_of_server {host : ApiHost} {config : SchedulerConfig} {p₀ p : ServerPool}
    {ok : ServerPool → ServerAction → Prop} (h : Reaches (requestStep host config) ok p₀ p) :
    Reaches (step (ServerOp.program host config) ServerStep.exec) ok p₀ p := by
  induction h with
  | refl => exact .refl
  | tail _ hok hstep ih =>
    unfold requestStep at hstep
    split at hstep
    · cases hstep
    · exact .tail ih hok hstep

section Alone
variable {ε α : Type} {x : EventState} {input : ServiceStep.Input}

theorem uses_any (c : ApiCall ε α) : c.Uses fun _ => True := by
  induction c with
  | ret a => trivial
  | fail e => trivial
  | step q k ih => exact ⟨trivial, ih⟩

def ServiceStep.Input.always (input : ServiceStep.Input) : ServerStep.Input :=
  ⟨.proceed input.now, input⟩

theorem run_embedStore (c : Call DbStep DbStep.Answer ε α) (input : ServiceStep.Input)
    (x : EventState) :
    (c.embed ServerStep.db (fun _ answer => answer) id).run ServerStep.exec
        (fun _ => input.always) x =
      ⟨(runAlone c input.now x.store).1, { x with store := (runAlone c input.now x.store).2 },
        fun _ => input.always⟩ := by
  induction c generalizing x with
  | ret a => rfl
  | fail e => rfl
  | step q k ih => exact ih _ _

theorem run_unfolded (q : ApiStep) (x : EventState) :
    (q.unfolded : Call ServerStep ServerStep.Answer ε q.Answer).run ServerStep.exec
        (fun _ => input.always) x =
      ⟨.ok (q.exec input x).1, (q.exec input x).2, fun _ => input.always⟩ := by
  have hstore : ∀ {ε' β : Type} (c : Call DbStep DbStep.Answer ε' β),
      (ServerStep.ofStore c : Call ServerStep ServerStep.Answer ε (Except ε' β)).run
          ServerStep.exec (fun _ => input.always) x =
        ⟨.ok (runAlone c input.now x.store).1,
          { x with store := (runAlone c input.now x.store).2 }, fun _ => input.always⟩ := by
    intro ε' β c
    unfold ServerStep.ofStore
    rw [run_attempt, run_embedStore]
  match q with
  | .run (.service (.tasks op)) => exact hstore op.program
  | .run (.service (.grants op)) => exact hstore op.program
  | .run (.service (.profiles op)) => exact hstore op.program
  | .run (.service .loadRegistry) => rfl
  | .run (.service (.getRuntime _)) => rfl
  | .run (.service (.prepareWorkspace ..)) => rfl
  | .run (.service (.executeAdapter _)) => rfl
  | .run (.service .clock) => rfl
  | .run (.event _) => rfl
  | .listProfiles _ => rfl
  | .listGrants _ => rfl
  | .listPermissionRequests _ => rfl
  | .subscribe => rfl
  | .listEventsAfter .. => rfl

theorem run_program (host : ApiHost) (config : SchedulerConfig) (op : ServerOp) (x : EventState) :
    (op.program host config).run ServerStep.exec (fun _ => input.always) x =
      ⟨((op.calls host config).run ApiStep.exec (fun _ => input) x).result,
        ((op.calls host config).run ApiStep.exec (fun _ => input) x).state,
        fun _ => input.always⟩ := by
  have hsteps : ∀ (q : ApiStep) (y : EventState), True →
      (q.unfolded : Call ServerStep ServerStep.Answer ServerFailure q.Answer).run ServerStep.exec
          (fun _ => input.always) (id y) =
        ⟨.ok (q.exec input y).1, id (q.exec input y).2, fun _ => input.always⟩ :=
    fun q y _ => run_unfolded q y
  exact run_unfoldSteps hsteps (uses_any _) x

end Alone

end OpenDaemon
