import OpenDaemon.AdapterThreads
import OpenDaemon.CallRefinement

/-!
# The calls of the adapters

Every call of the three adapters is checked against the steps it makes: what it needs of
a process before it waits for it or ends it, what it has in hand at each point, and that
it returns with nothing left in hand, on every path.
-/

namespace OpenDaemon

open Runs Interleaving Oneshot Acp AdapterStep

section Rules

variable {tempDir : String} {files : String → Option String} {i n channel process : ℕ}
  {op : AdapterOp} {x : Grip} {s : AdapterState} {g : Ledger} {command : SpawnCommand} {α : Type}
  {Q : Except Panicked α → AdapterState → Ledger → Prop}

theorem Holds.takes_nothing (hI : AdapterInvariant tempDir files s g)
    (h : Holds tempDir i op x s g) (hexec : op.executes = true) (c : ℕ) :
    g.takenBy c ≠ some i := by
  intro hc
  obtain ⟨op', hop, hcancel, -⟩ := (hI.taken c i hc).2.1
  rw [h.mine] at hop
  rw [← Option.some.inj hop, hexec] at hcancel
  cases hcancel

theorem Holds.needs {q : AdapterStep} (hI : AdapterInvariant tempDir files s g)
    (h : Holds tempDir i op x s g) (hexec : op.executes = true) (hq : q.minds = none) :
    Needs i op q s g := by
  refine ⟨fun c hc => absurd hc (h.takes_nothing hI hexec c), ?_⟩
  intro manifest request pid _ hpid
  rw [hq] at hpid
  cases hpid

/-- If the execution is one of the CLI adapter, its process was started with the arguments of
its manifest, rendered with its prompt. -/
def Fed (tempDir : String) (op : AdapterOp) (x : Grip) (process : ℕ) : Prop :=
  ∀ manifest request, op = .execute .localCli manifest request →
    ∃ prompt args, x.process = some (process, ⟨request.executable,
        args ++ request.agentProfile.providerConfig.customArgs,
        request.workspace.workingDirectory⟩) ∧
      CommandTemplate.renderArgs manifest.execution.args
        (LocalCliAdapter.templateValues request prompt) = .ok args ∧
      (manifest.execution.inputMode = .tempFile → ∃ n, x.prompt = some n ∧
        x.content = some request.task.prompt ∧ prompt = promptFile tempDir request.taskId n) ∧
      (manifest.execution.inputMode ≠ .tempFile → prompt = request.task.prompt)

theorem Holds.needs_fed {q : AdapterStep} (hI : AdapterInvariant tempDir files s g)
    (h : Holds tempDir i op x s g) (hexec : op.executes = true) (hfed : Fed tempDir op x process)
    (hq : q.minds = some process) : Needs i op q s g := by
  refine ⟨fun c hc => absurd hc (h.takes_nothing hI hexec c), ?_⟩
  intro manifest request pid hop hpid hcount
  obtain rfl := Option.some.inj (hq.symm.trans hpid)
  obtain ⟨prompt, args, hprocess, hrender, hfile, hplain⟩ := hfed manifest request hop
  obtain ⟨pipes, hchild⟩ := h.process process _ hprocess
  refine ⟨hI.hosts process i ((h.hosts process).mpr ⟨_, hprocess⟩), pipes, prompt, args, hchild,
    hrender, fun hmode => ?_, hplain⟩
  obtain ⟨n, hprompt, hcontent, rfl⟩ := hfile hmode
  have hkept := h.content n _ hprompt hcontent hcount
  rwa [hop] at hkept

theorem safe_act {q : AdapterStep} {k : q.Answer → AdapterCall α} (x' : q.Answer → Grip)
    (needs : ∀ s g, AdapterInvariant tempDir files s g → Holds tempDir i op x s g →
      Needs i op q s g)
    (effect : ∀ s g input, AdapterInvariant tempDir files s g → Holds tempDir i op x s g →
      Moves tempDir files i s g (exec q input s).2
        (Holds tempDir i op (x' (exec q input s).1)))
    (next : ∀ a, Safe (adapterDiscipline tempDir files) exec op i (k a)
      (Holds tempDir i op (x' a)) Q) :
    Safe (adapterDiscipline tempDir files) exec op i (q.act >>= k) (Holds tempDir i op x) Q :=
  safe_step (fun a => Holds tempDir i op (x' a)) (fun _ => stable_holds) needs
    (fun s g input hI h _ => effect s g input hI h) next

variable (hexec : op.executes = true)
include hexec

theorem safe_quiet {q : AdapterStep} {k : q.Answer → AdapterCall α} (hq : q.minds = none)
    (same : ∀ input s, (exec q input s).2 = s)
    (next : ∀ a, Safe (adapterDiscipline tempDir files) exec op i (k a)
      (Holds tempDir i op x) Q) :
    Safe (adapterDiscipline tempDir files) exec op i (q.act >>= k) (Holds tempDir i op x) Q :=
  safe_act (fun _ => x) (fun _ _ hI h => h.needs hI hexec hq)
    (fun s g input hI h => by rw [same]; exact moves_quiet hI h) next

theorem safe_register {k : ℕ → AdapterCall α} (hnone : x.channel = none)
    (next : ∀ channel, Safe (adapterDiscipline tempDir files) exec op i (k channel)
      (Holds tempDir i op { x with
        channel := some channel, listening := true, listed := true }) Q) :
    Safe (adapterDiscipline tempDir files) exec op i ((register op.key).act >>= k)
      (Holds tempDir i op x) Q :=
  safe_act (fun channel => { x with
      channel := some channel, listening := true, listed := true })
    (fun _ _ hI h => h.needs hI hexec rfl) (fun _ _ _ hI h => h.register hI hexec hnone) next

theorem safe_unregister {k : Unit → AdapterCall α}
    (next : Safe (adapterDiscipline tempDir files) exec op i (k ())
      (Holds tempDir i op { x with listening := false, listed := false }) Q) :
    Safe (adapterDiscipline tempDir files) exec op i ((unregister op.key).act >>= k)
      (Holds tempDir i op x) Q :=
  safe_act (fun _ => { x with listening := false, listed := false })
    (fun _ _ hI h => h.needs hI hexec rfl) (fun _ _ _ hI h => h.unregister hI hexec) fun _ => next

theorem safe_closeReceiver {k : Unit → AdapterCall α} (hc : x.channel = some channel)
    (next : Safe (adapterDiscipline tempDir files) exec op i (k ())
      (Holds tempDir i op { x with listening := false }) Q) :
    Safe (adapterDiscipline tempDir files) exec op i ((closeReceiver channel).act >>= k)
      (Holds tempDir i op x) Q :=
  safe_act (fun _ => { x with listening := false })
    (fun _ _ hI h => h.needs hI hexec rfl) (fun _ _ _ hI h => h.closeReceiver hI hc) fun _ => next

theorem safe_nextPromptId {k : ℕ → AdapterCall α} (hnone : x.prompt = none)
    (next : ∀ n, Safe (adapterDiscipline tempDir files) exec op i (k (n % 2 ^ 64))
      (Holds tempDir i op { x with prompt := some n, content := none }) Q) :
    Safe (adapterDiscipline tempDir files) exec op i (nextPromptId.act >>= k)
      (Holds tempDir i op x) Q := by
  refine safe_step (fun a s g => ∃ n, a = n % 2 ^ 64 ∧
    Holds tempDir i op { x with prompt := some n, content := none } s g) ?_ ?_ ?_ ?_
  · rintro a s g s' g' - - hrely ⟨n, ha, h⟩
    exact ⟨n, ha, h.rely hrely⟩
  · exact fun _ _ hI h => h.needs hI hexec rfl
  · intro s g input hI h _
    obtain ⟨g', hI', hrely, h'⟩ := h.nextPromptId hI hexec hnone
    exact ⟨g', hI', hrely, s.nextPromptId, rfl, h'⟩
  · intro a
    refine safe_exists fun n => safe_pure fun ha => ?_
    rw [ha]
    exact next n

theorem safe_spawn {k : Except String (ℕ × Pipes) → AdapterCall α} (hnone : x.process = none)
    (refused : ∀ error, Safe (adapterDiscipline tempDir files) exec op i (k (.error error))
      (Holds tempDir i op x) Q)
    (started : ∀ process pipes, Safe (adapterDiscipline tempDir files) exec op i
      (k (.ok (process, pipes)))
      (Holds tempDir i op { x with process := some (process, command) }) Q) :
    Safe (adapterDiscipline tempDir files) exec op i ((spawn command).act >>= k)
      (Holds tempDir i op x) Q := by
  refine safe_act (fun answer => match answer with
    | .error _ => x
    | .ok (process, _) => { x with process := some (process, command) })
    (fun _ _ hI h => h.needs hI hexec rfl) ?_ ?_
  · intro s g input hI h
    simp only [exec]
    cases input.spawned with
    | error error => exact moves_quiet hI h
    | ok pipes => exact h.spawn hI hexec hnone
  · intro answer
    rcases answer with error | ⟨process, pipes⟩
    · exact refused error
    · exact started process pipes

theorem safe_spawnPiped {k : Except String (ℕ × Pipes) → AdapterCall α}
    (hacp : op.key.1 = .localAcp) (hnone : x.process = none)
    (refused : ∀ error, Safe (adapterDiscipline tempDir files) exec op i (k (.error error))
      (Holds tempDir i op x) Q)
    (unpiped : ∀ process pipes, (pipes.stdin && pipes.stdout) = false →
      Safe (adapterDiscipline tempDir files) exec op i (k (.ok (process, pipes)))
        (Holds tempDir i op x) Q)
    (started : ∀ process pipes, (pipes.stdin && pipes.stdout) = true →
      Safe (adapterDiscipline tempDir files) exec op i (k (.ok (process, pipes)))
        (Holds tempDir i op { x with process := some (process, command) }) Q) :
    Safe (adapterDiscipline tempDir files) exec op i ((spawn command).act >>= k)
      (Holds tempDir i op x) Q := by
  refine safe_act (fun answer => match answer with
    | .error _ => x
    | .ok (process, pipes) =>
      if pipes.stdin && pipes.stdout then { x with process := some (process, command) } else x)
    (fun _ _ hI h => h.needs hI hexec rfl) ?_ ?_
  · intro s g input hI h
    simp only [exec]
    rcases input.spawned with error | pipes
    · exact moves_quiet hI h
    · by_cases hpipes : (pipes.stdin && pipes.stdout) = true
      · simp only [hpipes, if_true]
        exact h.spawn hI hexec hnone
      · simp only [hpipes]
        exact h.spawnUnpiped hI hexec hacp (Bool.eq_false_iff.mpr hpipes)
  · intro answer
    rcases answer with error | ⟨process, pipes⟩
    · exact refused error
    · by_cases hpipes : (pipes.stdin && pipes.stdout) = true
      · simp only [hpipes, if_true]
        exact started process pipes hpipes
      · simp only [hpipes]
        exact unpiped process pipes (Bool.eq_false_iff.mpr hpipes)

theorem safe_writePrompt {text : String} {k : Except String Unit → AdapterCall α}
    (hprompt : x.prompt = some n)
    (failed : ∀ error, Safe (adapterDiscipline tempDir files) exec op i (k (.error error))
      (Holds tempDir i op { x with prompt := none, content := none }) Q)
    (written : Safe (adapterDiscipline tempDir files) exec op i (k (.ok ()))
      (Holds tempDir i op { x with content := some text }) Q) :
    Safe (adapterDiscipline tempDir files) exec op i
      ((writePrompt (promptFile tempDir op.key.2 n) text).act >>= k)
      (Holds tempDir i op x) Q := by
  refine safe_act (fun answer => match answer with
    | .error _ => { x with prompt := none, content := none }
    | .ok _ => { x with content := some text }) (fun _ _ hI h => h.needs hI hexec rfl) ?_ ?_
  · intro s g input hI h
    simp only [exec]
    rcases input.written with ⟨error, left⟩ | _
    · exact h.releasePrompt hI hprompt (fun path hp => Function.update_of_ne hp _ _)
        (.inr List.mem_cons_self) fun path hp => List.mem_cons_of_mem _ hp
    · exact h.writePrompt hI hprompt
  · intro answer
    rcases answer with error | _
    · exact failed error
    · exact written

def Grip.file (tempDir : String) (op : AdapterOp) (x : Grip) : Option String :=
  x.prompt.map (promptFile tempDir op.key.2)

theorem safe_cleanupTempFile {file : Option String} {k : Unit → AdapterCall α}
    (hfile : file = x.file tempDir op)
    (next : Safe (adapterDiscipline tempDir files) exec op i (k ())
      (Holds tempDir i op { x with prompt := none, content := none }) Q) :
    Safe (adapterDiscipline tempDir files) exec op i
      (LocalCliAdapter.cleanupTempFile file >>= k) (Holds tempDir i op x) Q := by
  subst hfile
  cases hprompt : x.prompt with
  | none =>
    rw [Grip.file, hprompt]
    refine safe_weaken next fun s g hI h => { h with prompts := ?_, content := ?_ }
    · intro n
      rw [h.prompts n, hprompt]
    · intro n text hn
      cases hn
  | some n =>
    rw [Grip.file, hprompt]
    refine safe_act (fun _ => { x with prompt := none, content := none })
      (fun _ _ hI h => h.needs hI hexec rfl) (fun s g input hI h => ?_) fun _ => next
    by_cases hremoved : input.removed = true
    · simp only [exec, hremoved, if_true]
      exact h.releasePrompt hI hprompt (fun path hp => Function.update_of_ne hp _ _)
        (.inl (Function.update_self _ _ _)) fun path hp => hp
    · simp only [exec, hremoved]
      exact h.releasePrompt hI hprompt (fun _ _ => rfl) (.inr List.mem_cons_self)
        fun path hp => List.mem_cons_of_mem _ hp

/-! ### The provider process -/

omit hexec in
theorem Holds.cause_of_ready (hI : AdapterInvariant tempDir files s g)
    (h : Holds tempDir i op x s g) (hc : x.channel = some channel) (hlistening : x.listening = true)
    (hready : s.ready channel = true) : Cause s g i := by
  obtain ⟨hlt, howner⟩ := (h.channels channel).mpr hc
  have hsender : s.cancellations.sender channel ≠ .held := by
    simpa [AdapterState.ready, Table.ready] using hready
  rcases hI.caused channel hlt hsender with hreleased | hsent | ⟨i', hne, hother⟩
  · exact absurd hreleased (h.listening channel hc hlistening)
  · exact ⟨channel, hlt, howner, .inl hsent⟩
  · exact ⟨channel, hlt, howner, .inr ⟨i', howner ▸ hne, hother⟩⟩

def Grip.waited (x : Grip) : ChildWait → Grip
  | .exited _ | .waitFailed _ => { x with process := none }
  | .timedOut => x
  | .cancelled => { x with cancelled := true }

theorem safe_waitChild {k : ChildWait → AdapterCall α} (hfed : Fed tempDir op x process)
    (hprocess : x.process = some (process, command)) (hc : x.channel = some channel)
    (hlistening : x.listening = true)
    (next : ∀ wait, Safe (adapterDiscipline tempDir files) exec op i (k wait)
      (Holds tempDir i op (x.waited wait)) Q) :
    Safe (adapterDiscipline tempDir files) exec op i ((waitChild process channel).act >>= k)
      (Holds tempDir i op x) Q := by
  refine safe_act x.waited (fun _ _ hI h => h.needs_fed hI hexec hfed rfl) ?_ next
  intro s g input hI h
  simp only [exec]
  cases input.wait with
  | exited status => exact h.setProcess hI hprocess (by decide)
  | waitFailed error => exact h.setProcess hI hprocess (by decide)
  | timedOut => exact moves_quiet hI h
  | cancelled =>
    by_cases hready : s.ready channel = true
    · simp only [seen, hready, if_true]
      exact moves_quiet hI { h with cancelled := fun _ => h.cause_of_ready hI hc hlistening hready }
    · simp only [seen, hready]
      exact moves_quiet hI h

theorem safe_kill {k : Unit → AdapterCall α} (hfed : Fed tempDir op x process)
    (hprocess : x.process = some (process, command))
    (next : Safe (adapterDiscipline tempDir files) exec op i (k ())
      (Holds tempDir i op { x with process := none }) Q) :
    Safe (adapterDiscipline tempDir files) exec op i ((kill process).act >>= k)
      (Holds tempDir i op x) Q := by
  refine safe_act (fun _ => { x with process := none })
    (fun _ _ hI h => h.needs_fed hI hexec hfed rfl) (fun s g input hI h => ?_) fun _ => next
  refine h.setProcess hI hprocess ?_
  cases input.killed <;> decide

theorem safe_terminateChild {cancelSignal : CancelSignal} {k : Unit → AdapterCall α}
    (hfed : Fed tempDir op x process) (hprocess : x.process = some (process, command))
    (next : Safe (adapterDiscipline tempDir files) exec op i (k ())
      (Holds tempDir i op { x with process := none }) Q) :
    Safe (adapterDiscipline tempDir files) exec op i
      (LocalCliAdapter.terminateChild process cancelSignal >>= k) (Holds tempDir i op x) Q := by
  have hkill : Safe (adapterDiscipline tempDir files) exec op i ((kill process).act >>= k)
      (Holds tempDir i op x) Q := safe_kill hexec hfed hprocess next
  have hgrace : Safe (adapterDiscipline tempDir files) exec op i
      ((do
        if ← (awaitExit process).act then pure ()
        else (kill process).act) >>= k) (Holds tempDir i op x) Q := by
    refine safe_act (fun exited => if exited then { x with process := none } else x)
      (fun _ _ hI h => h.needs_fed hI hexec hfed rfl) (fun s g input hI h => ?_) ?_
    · by_cases hexited : input.exited = true
      · simp only [exec, hexited, if_true]
        exact h.setProcess hI hprocess (by decide)
      · simp only [exec, hexited]
        exact moves_quiet hI h
    · intro exited
      cases exited with
      | false => exact hkill
      | true => exact next
  have hsignal : ∀ signal, Safe (adapterDiscipline tempDir files) exec op i
      ((do
        if ← (sendSignal process signal).act then
          if ← (awaitExit process).act then pure ()
          else (kill process).act
        else (kill process).act) >>= k) (Holds tempDir i op x) Q := by
    intro signal
    refine safe_act (fun _ => x) (fun _ _ hI h => h.needs_fed hI hexec hfed rfl)
      (fun _ _ _ hI h => moves_quiet hI h) fun signalled => ?_
    cases signalled with
    | false => exact hkill
    | true => exact hgrace
  cases cancelSignal with
  | sigterm => exact hsignal .sigterm
  | sigint => exact hsignal .sigint
  | kill => exact hkill
  | none => exact hkill

def isCancelled : ChildWait → Bool
  | .cancelled => true
  | _ => false

theorem safe_waitForChild {cancelSignal : CancelSignal} {k : ChildWait → AdapterCall α}
    (hfed : Fed tempDir op x process) (hprocess : x.process = some (process, command))
    (hc : x.channel = some channel) (hlistening : x.listening = true)
    (next : ∀ wait, Safe (adapterDiscipline tempDir files) exec op i (k wait)
      (Holds tempDir i op { x with
        process := none, listening := false, cancelled := isCancelled wait || x.cancelled }) Q) :
    Safe (adapterDiscipline tempDir files) exec op i
      (LocalCliAdapter.waitForChild process channel cancelSignal >>= k)
      (Holds tempDir i op x) Q := by
  refine safe_waitChild hexec hfed hprocess hc hlistening fun wait => ?_
  have hclose : Safe (adapterDiscipline tempDir files) exec op i
      ((closeReceiver channel).act >>= fun _ => k wait)
      (Holds tempDir i op { x with
        process := none, cancelled := isCancelled wait || x.cancelled }) Q :=
    safe_closeReceiver hexec hc (next wait)
  cases wait with
  | exited status => exact hclose
  | waitFailed error => exact hclose
  | timedOut => exact safe_kill hexec hfed hprocess hclose
  | cancelled =>
    change Safe _ _ _ _ ((LocalCliAdapter.terminateChild process cancelSignal >>= fun _ =>
      (closeReceiver channel).act >>= fun _ => pure .cancelled) >>= k) _ _
    rw [Call.bind_assoc]
    refine safe_terminateChild hexec (x := { x with cancelled := true }) hfed hprocess ?_
    exact hclose

end Rules

section Programs

variable {tempDir : String} {files : String → Option String} {i : ℕ}
  {manifest : AdapterManifest} {request : RuntimeExecutionRequest}

/-- Nothing of the thread is left: no sender in the table, no prompt file and no process. -/
structure CleanedUp (i : ℕ) (s : AdapterState) (g : Ledger) : Prop where
  senders : ∀ c < s.cancellations.next, g.owner c = i → ∀ k, s.cancellations.entry k ≠ some c
  prompts : ∀ n, g.writer n ≠ some i
  hosts : ∀ pid, g.host pid ≠ some i

/-- What is known when a call has returned; none of them fails. -/
def Concluded (i : ℕ) : (op : AdapterOp) → Except Panicked op.Result → AdapterState → Ledger → Prop
  | .execute .., .ok outcome, s, g =>
    CleanedUp i s g ∧ (outcome.status = .cancelled → Cause s g i)
  | .cancel .., .ok answer, s, g => CleanedUp i s g ∧
    (answer.cancelled = true → answer.error = none) ∧
    (answer.cancelled = true ↔ ∃ c, g.takenBy c = some i ∧ s.cancellations.sender c = .sent)
  | _, .error _, _, _ => False

theorem Holds.settled {op : AdapterOp} {x : Grip} {s : AdapterState} {g : Ledger}
    (h : Holds tempDir i op x s g) (hlisted : x.channel = none ∨ x.listed = false)
    (hprompt : x.prompt = none) (hprocess : x.process = none) : CleanedUp i s g where
  senders c hlt howner := by
    have hc := (h.channels c).mp ⟨hlt, howner⟩
    rcases hlisted with hnone | hlisted
    · rw [hnone] at hc
      cases hc
    · exact h.unlisted c hc hlisted
  prompts n hn := by
    rw [h.prompts n, hprompt] at hn
    cases hn
  hosts pid hpid := by
    rw [h.hosts pid, hprocess] at hpid
    obtain ⟨command, hs⟩ := hpid
    cases hs

theorem safe_return {kind : RuntimeKind} {x : Grip} {outcome : RuntimeExecutionOutcome}
    (hlisted : x.channel = none ∨ x.listed = false) (hprompt : x.prompt = none)
    (hprocess : x.process = none)
    (hcancelled : outcome.status = .cancelled → x.cancelled = true) :
    Safe (adapterDiscipline tempDir files) exec (.execute kind manifest request) i
      (.ret outcome) (Holds tempDir i (.execute kind manifest request) x)
      (Concluded i (.execute kind manifest request)) :=
  fun _ _ _ h => ⟨h.settled hlisted hprompt hprocess, fun hs => h.cancelled (hcancelled hs)⟩

def Grip.empty : Grip := ⟨none, false, false, none, none, none, false⟩

section Cli

theorem commandOutcome_cancelled {wait : ChildWait} {events : List RuntimeOutputEvent}
    (h : (LocalCliAdapter.commandOutcome wait events).status = .cancelled) :
    wait = .cancelled := by
  unfold LocalCliAdapter.commandOutcome at h
  cases wait with
  | exited status =>
    dsimp only at h
    split at h <;> cases h
  | timedOut => cases h
  | cancelled => rfl
  | waitFailed error => cases h

def Grip.Feeds (tempDir : String) (manifest : AdapterManifest) (request : RuntimeExecutionRequest)
    (x : Grip) (prompt : String) : Prop :=
  (manifest.execution.inputMode = .tempFile → ∃ n, x.prompt = some n ∧
    x.content = some request.task.prompt ∧ prompt = promptFile tempDir request.taskId n) ∧
  (manifest.execution.inputMode ≠ .tempFile → prompt = request.task.prompt)

theorem safe_runCommand {x : Grip} {prompt : String} {args : List String}
    (hchannel : x.channel = none) (hprocess : x.process = none)
    (hfeeds : x.Feeds tempDir manifest request prompt)
    (hrender : CommandTemplate.renderArgs manifest.execution.args
      (LocalCliAdapter.templateValues request prompt) = .ok args) :
    Safe (adapterDiscipline tempDir files) exec (.execute .localCli manifest request) i
      (LocalCliAdapter.runCommand manifest request
        (x.file tempDir (.execute .localCli manifest request))
        (args ++ request.agentProfile.providerConfig.customArgs))
      (Holds tempDir i (.execute .localCli manifest request) x)
      (Concluded i (.execute .localCli manifest request)) := by
  refine safe_register rfl hchannel fun channel => ?_
  refine safe_spawn rfl hprocess (fun error => ?_) fun process pipes => ?_
  · refine safe_unregister rfl ?_
    refine safe_cleanupTempFile rfl rfl ?_
    refine safe_closeReceiver rfl rfl ?_
    exact safe_return (.inr rfl) rfl hprocess fun hs => (by cases hs)
  · refine safe_waitForChild rfl ?_ rfl rfl rfl fun wait => ?_
    · intro manifest' request' hop
      cases hop
      exact ⟨prompt, args, rfl, hrender, hfeeds⟩
    · refine safe_unregister rfl ?_
      refine safe_cleanupTempFile rfl rfl ?_
      refine safe_quiet rfl rfl (fun _ _ => rfl) fun output => ?_
      refine safe_return (.inr rfl) rfl rfl fun hs => ?_
      rw [commandOutcome_cancelled hs]
      rfl

theorem renderArgs_error {args : List String} {values : TemplateValues} {error : RenderError}
    (h : CommandTemplate.renderArgs args values = .error error) :
    ∃ e, error = .adapter e := by
  induction args generalizing error with
  | nil => cases h
  | cons arg args ih =>
    simp only [CommandTemplate.renderArgs, List.mapM_cons] at h ih
    by_cases hfails : CommandTemplate.ScanFails values arg.toList
    · obtain ⟨message, herror⟩ := CommandTemplate.render_of_scanFails values hfails
      rw [herror] at h
      exact ⟨_, (Except.error.inj h).symm⟩
    · obtain ⟨text, htext⟩ := CommandTemplate.render_of_not_scanFails values hfails
      rw [htext, Call.ok_bind] at h
      cases htail : args.mapM fun arg => CommandTemplate.render arg values with
      | error e =>
        rw [htail] at h
        exact Except.error.inj h ▸ ih htail
      | ok texts =>
        rw [htail] at h
        cases h

theorem safe_runRendered {x : Grip} {prompt : String} {file : Option String}
    (hchannel : x.channel = none) (hprocess : x.process = none)
    (hfeeds : x.Feeds tempDir manifest request prompt)
    (hfile : file = x.file tempDir (.execute .localCli manifest request)) :
    Safe (adapterDiscipline tempDir files) exec (.execute .localCli manifest request) i
      (LocalCliAdapter.runRendered manifest request prompt file)
      (Holds tempDir i (.execute .localCli manifest request) x)
      (Concluded i (.execute .localCli manifest request)) := by
  unfold LocalCliAdapter.runRendered
  cases hrender : CommandTemplate.renderArgs manifest.execution.args
      (LocalCliAdapter.templateValues request prompt) with
  | error error =>
    obtain ⟨e, rfl⟩ := renderArgs_error hrender
    refine safe_cleanupTempFile rfl hfile ?_
    exact safe_return (.inl hchannel) rfl hprocess fun hs => (by cases hs)
  | ok args =>
    rw [hfile]
    exact safe_runCommand hchannel hprocess hfeeds hrender

theorem safe_executeCli : Safe (adapterDiscipline tempDir files) exec
    (.execute .localCli manifest request) i (LocalCliAdapter.execute tempDir manifest request)
    (Holds tempDir i (.execute .localCli manifest request) .empty)
    (Concluded i (.execute .localCli manifest request)) := by
  refine safe_quiet rfl rfl (fun _ _ => rfl) fun isDir => ?_
  cases isDir with
  | false => exact safe_return (.inl rfl) rfl rfl fun hs => (by cases hs)
  | true =>
    have hplain : manifest.execution.inputMode ≠ .tempFile →
        Safe (adapterDiscipline tempDir files) exec (.execute .localCli manifest request) i
          (LocalCliAdapter.runRendered manifest request request.task.prompt none)
          (Holds tempDir i (.execute .localCli manifest request) .empty)
          (Concluded i (.execute .localCli manifest request)) :=
      fun hmode => safe_runRendered rfl rfl ⟨fun hs => absurd hs hmode, fun _ => rfl⟩ rfl
    simp only [if_true, LocalCliAdapter.promptSource]
    cases hmode : manifest.execution.inputMode with
    | arg => exact hplain (by simp [hmode])
    | stdin => exact hplain (by simp [hmode])
    | tempFile =>
      refine safe_nextPromptId rfl rfl fun n => ?_
      refine safe_writePrompt rfl rfl (fun error => ?_) ?_
      · exact safe_return (.inl rfl) rfl rfl fun hs => (by cases hs)
      · exact safe_runRendered rfl rfl
          ⟨fun _ => ⟨n, rfl, rfl, rfl⟩, fun hs => absurd hmode hs⟩ rfl

end Cli

section Others

theorem outcome_cancelled {wait : ChildWait} {stdout : StdoutResult}
    {stderr : List RuntimeOutputEvent} (h : (Acp.outcome wait stdout stderr).status = .cancelled) :
    wait = .cancelled := by
  unfold Acp.outcome at h
  dsimp only at h
  split at h
  · cases h
  · cases wait with
    | exited status =>
      dsimp only at h
      split at h <;> cases h
    | timedOut => cases h
    | cancelled => rfl
    | waitFailed error => cases h

theorem fed_of_acp {x : Grip} {process : ℕ} :
    Fed tempDir (.execute .localAcp manifest request) x process := by
  intro manifest' request' hop
  cases hop

theorem safe_runSession {x : Grip} {channel process : ℕ} {command : SpawnCommand}
    (hchannel : x.channel = some channel) (hlistening : x.listening = true)
    (hprompt : x.prompt = none) (hprocess : x.process = some (process, command)) :
    Safe (adapterDiscipline tempDir files) exec (.execute .localAcp manifest request) i
      (LocalAcpAdapter.runSession request channel process)
      (Holds tempDir i (.execute .localAcp manifest request) x)
      (Concluded i (.execute .localAcp manifest request)) := by
  refine safe_quiet rfl rfl (fun _ _ => rfl) fun written => ?_
  cases written with
  | true =>
    refine safe_waitForChild rfl fed_of_acp hprocess hchannel hlistening fun wait => ?_
    refine safe_unregister rfl ?_
    refine safe_quiet rfl rfl (fun _ _ => rfl) fun session => ?_
    obtain ⟨error | stdout, stderr⟩ := session
    · exact safe_return (.inr rfl) hprompt rfl fun hs => (by cases hs)
    · refine safe_return (.inr rfl) hprompt rfl fun hs => ?_
      rw [outcome_cancelled hs]
      rfl
  | false =>
    refine safe_unregister rfl ?_
    refine safe_kill rfl fed_of_acp hprocess ?_
    refine safe_closeReceiver rfl hchannel ?_
    exact safe_return (.inr rfl) hprompt rfl fun hs => (by cases hs)

theorem safe_giveUp {x : Grip} {channel : ℕ} {outcome : RuntimeExecutionOutcome}
    (hchannel : x.channel = some channel) (hprompt : x.prompt = none) (hprocess : x.process = none)
    (houtcome : outcome.status ≠ .cancelled) :
    Safe (adapterDiscipline tempDir files) exec (.execute .localAcp manifest request) i
      (LocalAcpAdapter.giveUp request channel outcome)
      (Holds tempDir i (.execute .localAcp manifest request) x)
      (Concluded i (.execute .localAcp manifest request)) := by
  refine safe_unregister rfl ?_
  refine safe_closeReceiver rfl hchannel ?_
  exact safe_return (.inr rfl) hprompt hprocess fun hs => absurd hs houtcome

theorem safe_startSession {command : List String} :
    Safe (adapterDiscipline tempDir files) exec (.execute .localAcp manifest request) i
      (LocalAcpAdapter.startSession request command)
      (Holds tempDir i (.execute .localAcp manifest request) .empty)
      (Concluded i (.execute .localAcp manifest request)) := by
  refine safe_register rfl rfl fun channel => ?_
  refine safe_spawnPiped rfl rfl rfl (fun error => ?_) (fun process pipes hpipes => ?_)
    fun process pipes hpipes => ?_
  · exact safe_giveUp rfl rfl rfl fun hs => (by cases hs)
  · dsimp only
    split
    · exact safe_giveUp rfl rfl rfl fun hs => (by cases hs)
    · rename_i hstdin
      rw [Bool.not_eq_false] at hstdin
      rw [hstdin, Bool.true_and] at hpipes
      rw [if_pos hpipes]
      exact safe_giveUp rfl rfl rfl fun hs => (by cases hs)
  · obtain ⟨hstdin, hstdout⟩ := Bool.and_eq_true_iff.mp hpipes
    simp only [hstdin, hstdout]
    exact safe_runSession rfl rfl rfl rfl

theorem safe_executeAcp : Safe (adapterDiscipline tempDir files) exec
    (.execute .localAcp manifest request) i (LocalAcpAdapter.execute manifest request)
    (Holds tempDir i (.execute .localAcp manifest request) .empty)
    (Concluded i (.execute .localAcp manifest request)) := by
  have hrefused : ∀ code message, Safe (adapterDiscipline tempDir files) exec
      (.execute .localAcp manifest request) i (.ret (.failed ⟨code, message⟩ []))
      (Holds tempDir i (.execute .localAcp manifest request) .empty)
      (Concluded i (.execute .localAcp manifest request)) :=
    fun code message => safe_return (.inl rfl) rfl rfl fun hs => (by cases hs)
  unfold LocalAcpAdapter.execute
  cases manifest.acp with
  | none => exact hrefused _ _
  | some acp =>
    dsimp only
    split
    · exact hrefused _ _
    · refine safe_quiet rfl rfl (fun _ _ => rfl) fun isDir => ?_
      cases isDir with
      | false => exact hrefused _ _
      | true =>
        rw [if_pos rfl]
        cases acp.command with
        | none => exact hrefused _ _
        | some command => exact safe_startSession

theorem executeInner_cancelled {manifest : ManifestFile} {listing : RemoteHttpAdapter.Listing}
    {reply : RemoteHttpAdapter.Reply}
    (h : (RemoteHttpAdapter.executeInner manifest request listing reply).2.status = .cancelled) :
    reply = .cancelled := by
  unfold RemoteHttpAdapter.executeInner at h
  cases hhttp : manifest.http with
  | none =>
    rw [hhttp] at h
    cases h
  | some http =>
    rw [hhttp] at h
    cases hpackage : RemoteHttpAdapter.buildWorkspacePackage request listing with
    | error error =>
      simp only [hpackage] at h
      cases h
    | ok package =>
      simp only [hpackage] at h
      cases reply with
      | cancelled => rfl
      | sendFailed error => cases h
      | badStatus error => cases h
      | badBody error => cases h
      | answered providerResult => cases h

theorem safe_sendRequest {x : Grip} {channel : ℕ} {http : HttpConfig} {payload : Value} {α : Type}
    {op : AdapterOp} {k : Option (Except String Unit) → AdapterCall α}
    {Q : Except Panicked α → AdapterState → Ledger → Prop} (hexec : op.executes = true)
    (hc : x.channel = some channel) (hlistening : x.listening = true)
    (next : ∀ sent, Safe (adapterDiscipline tempDir files) exec op i (k sent)
      (Holds tempDir i op { x with cancelled := sent.isNone || x.cancelled }) Q) :
    Safe (adapterDiscipline tempDir files) exec op i
      ((sendRequest channel http payload).act >>= k) (Holds tempDir i op x) Q := by
  refine safe_act (fun sent => { x with cancelled := sent.isNone || x.cancelled })
    (fun _ _ hI h => h.needs hI hexec rfl) (fun s g input hI h => ?_) next
  by_cases hready : s.ready channel = true
  · simp only [exec, hready, if_true]
    exact moves_quiet hI
      { h with cancelled := fun _ => h.cause_of_ready hI hc hlistening hready }
  · simp only [exec, hready]
    exact moves_quiet hI h

theorem safe_executeHttp : Safe (adapterDiscipline tempDir files) exec
    (.execute .remoteHttp manifest request) i (RemoteHttpAdapter.execute manifest request)
    (Holds tempDir i (.execute .remoteHttp manifest request) .empty)
    (Concluded i (.execute .remoteHttp manifest request)) := by
  unfold RemoteHttpAdapter.execute
  cases manifest.http with
  | none => exact safe_return (.inl rfl) rfl rfl fun hs => (by cases hs)
  | some http =>
    refine safe_quiet rfl rfl (fun _ _ => rfl) fun listing => ?_
    cases RemoteHttpAdapter.buildWorkspacePackage request listing with
    | error error => exact safe_return (.inl rfl) rfl rfl fun hs => (by cases hs)
    | ok package =>
      refine safe_register rfl rfl fun channel => ?_
      refine safe_sendRequest rfl rfl rfl fun sent => ?_
      refine safe_unregister rfl ?_
      rcases sent with _ | (error | _)
      · refine safe_closeReceiver rfl rfl ?_
        exact safe_return (.inr rfl) rfl rfl fun _ => rfl
      · refine safe_closeReceiver rfl rfl ?_
        exact safe_return (.inr rfl) rfl rfl fun hs => (by cases executeInner_cancelled hs)
      · refine safe_quiet rfl rfl (fun _ _ => rfl) fun response => ?_
        refine safe_closeReceiver rfl rfl ?_
        refine safe_return (.inr rfl) rfl rfl fun hs => ?_
        have hreply := executeInner_cancelled hs
        cases response <;> cases hreply

end Others

section Cancel

variable {kind : RuntimeKind} {taskId : String} {s : AdapterState} {g : Ledger}

theorem Asks.settled {op : AdapterOp} {taken : Option ℕ} {sender : Sender}
    (h : Asks i op taken sender s g) : CleanedUp i s g where
  senders c hlt howner := absurd howner (h.channels c hlt)
  prompts := h.prompts
  hosts := h.hosts

theorem Asks.needs {taken : Option ℕ} {sender : Sender} {q : AdapterStep}
    (h : Asks i (.cancel kind taskId) taken sender s g) (hunsent : taken = none ∨ sender ≠ .sent) :
    Needs i (.cancel kind taskId) q s g := by
  refine ⟨fun c hc hsent => ?_, fun manifest request process hop => (by cases hop)⟩
  have htaken := (h.took c).mp hc
  rcases hunsent with hnone | hunsent
  · rw [hnone] at htaken
    cases htaken
  · exact hunsent ((h.used c htaken).symm.trans hsent)

theorem safe_cancel : Safe (adapterDiscipline tempDir files) exec (.cancel kind taskId) i
    (cancelExecution kind taskId) (Asks i (.cancel kind taskId) none .held)
    (Concluded i (.cancel kind taskId)) := by
  refine safe_step (fun taken => Asks i (.cancel kind taskId) taken .held)
    (fun _ => stable_asks) (fun _ _ _ h => h.needs (.inl rfl))
    (fun s g _ hI h _ => h.takeSender hI rfl) fun taken => ?_
  cases taken with
  | none =>
    refine fun s g _ h => ⟨h.settled, fun hs => (by cases hs), fun hs => (by cases hs), ?_⟩
    rintro ⟨c, hc, -⟩
    cases (h.took c).mp hc
  | some channel =>
    refine safe_step (fun sent => Asks i (.cancel kind taskId) (some channel)
        (if sent then .sent else .dropped))
      (fun _ => stable_asks) (fun _ _ _ h => h.needs (.inr (by decide)))
      (fun s g _ hI h _ => h.send hI) fun sent => ?_
    refine fun s g _ h => ⟨h.settled, fun _ => rfl, fun hs => ?_, ?_⟩
    · obtain rfl : sent = true := hs
      exact ⟨channel, (h.took channel).mpr rfl, h.used channel rfl⟩
    · rintro ⟨c, hc, hsent⟩
      have hused := h.used c ((h.took c).mp hc)
      cases sent with
      | true => rfl
      | false =>
        rw [hsent] at hused
        cases hused

end Cancel

end Programs

end OpenDaemon
