import OpenDaemon.AdapterCalls

/-!
# What executions and cancellations leave behind

Whatever executions and cancellations are started and however their steps are
interleaved, an execution waits for the provider that it has started itself, which runs with
the execution's own prompt, an execution reports a cancellation only if there was one, and
what is in the tables, in the prompt directory and among the processes belongs to a call that
is in progress.
-/

namespace OpenDaemon

open Runs Interleaving Oneshot AdapterStep

section Pools

abbrev AdapterPool : Type := Pool AdapterState AdapterStep.Answer Panicked AdapterOp.Result

abbrev AdapterAction : Type := Action AdapterOp AdapterStep.Input

def adapterPoolStep (tempDir : String) : AdapterPool → AdapterAction → Option AdapterPool :=
  step (AdapterOp.program tempDir) exec

/-- The calls with a record of the threads that have started the processes, in the order of the
processes. -/
def startedStep (tempDir : String) :
    AdapterPool × List ℕ → AdapterAction → Option (AdapterPool × List ℕ) :=
  recorded (adapterPoolStep tempDir) fun p a p' =>
    List.replicate (p'.shared.processes.length - p.shared.processes.length) (a.thread p)

def AdapterState.initial (files : String → Option String) : AdapterState where
  cancellations := Table.empty
  nextPromptId := 0
  files := files
  faults := []
  processes := []

variable {tempDir : String} {files : String → Option String} {p : AdapterPool}

theorem starts_op (op : AdapterOp) : Starts (adapterDiscipline tempDir files) exec Ledger.op
    Concluded op (op.program tempDir) := by
  intro i s g hI hnone
  obtain ⟨g', hI', hmine, hothers, hrely, hchannels, htaken, hprompts, hhosts⟩ :=
    starts_thread hI hnone op
  refine ⟨g', hI', hmine, hothers, hrely, ?_⟩
  have hempty : Holds tempDir i op .empty s g' :=
    { mine := hmine
      channels := fun c => ⟨fun hc => absurd hc.2 (hchannels c hc.1), fun hc => (by cases hc)⟩
      listening := fun c hc => (by cases hc)
      unlisted := fun c hc => (by cases hc)
      prompts := fun n => ⟨fun hn => absurd hn (hprompts n), fun hn => (by cases hn)⟩
      content := fun n text hn => (by cases hn)
      hosts := fun pid => ⟨fun hpid => absurd hpid (hhosts pid),
        fun hpid => (by obtain ⟨command, hs⟩ := hpid; cases hs)⟩
      process := fun pid command hs => (by cases hs)
      cancelled := fun hs => (by cases hs) }
  cases op with
  | execute kind manifest request =>
    cases kind with
    | localCli => exact ⟨_, stable_holds, hempty, safe_executeCli⟩
    | localAcp => exact ⟨_, stable_holds, hempty, safe_executeAcp⟩
    | remoteHttp => exact ⟨_, stable_holds, hempty, safe_executeHttp⟩
  | cancel kind taskId =>
    refine ⟨_, stable_asks, ?_, safe_cancel⟩
    exact ⟨hmine, hchannels, fun c => ⟨fun hc => absurd hc (htaken c), fun hc => (by cases hc)⟩,
      fun c hc => (by cases hc), hprompts, hhosts⟩

/-- The record knows as many processes as there are, and who the ledger says has started them. -/
structure Attributed (starters : List ℕ) (s : AdapterState) (g : Ledger) : Prop where
  length : starters.length = s.processes.length
  starter : ∀ pid i, g.starter pid = some i → starters[pid]? = some i

/-- The others tolerate a process that is started only if it has a number of its own, and is
attributed to the thread that makes the step. -/
theorem Attributed.step {starters : List ℕ} {i : ℕ} {s s' : AdapterState} {g g' : Ledger}
    (hI : AdapterInvariant tempDir files s' g')
    (hrely : ∀ j, j ≠ i → AdapterRely tempDir j s g s' g') (h : Attributed starters s g) :
    Attributed (starters ++ List.replicate (s'.processes.length - s.processes.length) i) s' g' where
  length := by
    rw [List.length_append, List.length_replicate, h.length]
    exact Nat.add_sub_of_le (hrely (i + 1) (Nat.succ_ne_self i)).children
  starter pid j hpid := by
    have hkept : g.starter pid = some j → (starters ++ List.replicate
        (s'.processes.length - s.processes.length) i)[pid]? = some j := by
      intro hold
      have hlt := (List.getElem?_eq_some_iff.mp (h.starter pid j hold)).1
      rw [List.getElem?_append_left hlt]
      exact h.starter pid j hold
    by_cases hj : j = i
    · subst hj
      rcases (hrely (j + 1) (Nat.succ_ne_self j)).starters pid j hpid with hold | ⟨hle, -⟩
      · exact hkept hold
      · have hlt := hI.started pid j hpid
        rw [List.getElem?_append_right (h.length ▸ hle), List.getElem?_replicate, h.length,
          if_pos (by omega)]
    · rcases (hrely j hj).starters pid j hpid with hold | ⟨-, hne⟩
      · exact hkept hold
      · exact absurd rfl hne

theorem initial_invariant : ∃ g, AdapterInvariant tempDir files (.initial files) g ∧
    (∀ i, g.op i = none) ∧ Attributed [] (.initial files) g := by
  refine ⟨⟨fun _ => none, fun _ => 0, fun _ => (.localCli, ""), fun _ => False, fun _ => none,
    fun _ => none, fun _ => none, fun _ => none⟩, ?_, fun _ => rfl, rfl, fun pid i hpid => ?_⟩
  rotate_left
  · cases hpid
  exact
    { sound := Table.sound_empty _
      channels := fun c hc => absurd hc (Nat.not_lt_zero c)
      once := fun c hc => absurd hc (Nat.not_lt_zero c)
      closed := fun c hc => absurd hc (Nat.not_lt_zero c)
      caused := fun c hc => absurd hc (Nat.not_lt_zero c)
      taken := fun c j hc => (by cases hc)
      takenOnce := fun c c' j hc => (by cases hc)
      writers := fun n j hn => (by cases hn)
      writerOps := fun n j hn => (by cases hn)
      prompts := fun path => .inr (.inl rfl)
      hosts := fun pid j hpid => (by cases hpid)
      started := fun pid j hpid => (by cases hpid)
      starterOps := fun pid j hpid => (by cases hpid)
      processes := fun pid child hchild => (by cases hchild) }

theorem roster_kept {i : ℕ} {s s' : AdapterState} {g g' : Ledger}
    (h : ∀ j, j ≠ i → AdapterRely tempDir j s g s' g') (hsome : (g.op i).isSome) :
    g'.op = g.op := by
  funext j
  by_cases hj : j = i
  · subst hj
    obtain ⟨op, hop⟩ := Option.isSome_iff_exists.mp hsome
    rw [hop]
    exact (h (j + 1) (Nat.succ_ne_self j)).ops j op hop
  · exact (h j hj).op

theorem outline_of_adapters {starters : List ℕ}
    (h : Reaches (startedStep tempDir) (fun _ _ => True) (⟨.initial files, []⟩, [])
      (p, starters)) :
    ∃ g, OutlineAt (adapterDiscipline tempDir files) exec Ledger.op Concluded p g ∧
      Attributed starters p.shared g := by
  refine outlineAt_of_recorded (x := (p, starters)) (fun i s g s' g' => roster_kept)
    (fun op _ => starts_op op) (fun p a p' l g g' _ hI' hrely hl => hl.step hI' hrely)
    initial_invariant (h.mono fun x a _ => ?_)
  cases a with
  | spawn op => trivial
  | advance i input => exact fun _ _ _ _ => trivial

theorem Concluded.settled {i : ℕ} {op : AdapterOp} {r : Except Panicked op.Result}
    {s : AdapterState} {g : Ledger} (h : Concluded i op r s g) : CleanedUp i s g := by
  cases op <;> cases r <;> first | exact h.1 | exact h.elim

structure Accounts (tempDir : String) (files : String → Option String) (p : AdapterPool)
    (g : Ledger) : Prop where
  inv : AdapterInvariant tempDir files p.shared g
  roster : ∀ i, g.op i = (p.threads[i]?).map Thread.op
  needs : ∀ (i : ℕ) op q k, p.threads[i]? = some ⟨op, .step q k⟩ → Needs i op q p.shared g
  returned : ∀ (i : ℕ) op a, p.threads[i]? = some ⟨op, .ret a⟩ → Concluded i op (.ok a) p.shared g
  failed : ∀ (i : ℕ) op e, p.threads[i]? ≠ some ⟨op, .fail e⟩

theorem accounts_of_reaches {starters : List ℕ}
    (h : Reaches (startedStep tempDir) (fun _ _ => True) (⟨.initial files, []⟩, [])
      (p, starters)) :
    ∃ g, Accounts tempDir files p g ∧ Attributed starters p.shared g := by
  obtain ⟨g, hg, hstarters⟩ := outline_of_adapters h
  refine ⟨g, ⟨hg.inv, hg.known, fun i op q k => hg.needs, fun i op a => hg.returned,
    fun i op e hi => ?_⟩, hstarters⟩
  have hfalse := hg.failed hi
  cases op <;> exact hfalse

theorem Accounts.thread {g : Ledger} (h : Accounts tempDir files p g) {i : ℕ} {op : AdapterOp}
    (hop : g.op i = some op) : ∃ rest, p.threads[i]? = some ⟨op, rest⟩ := by
  rw [h.roster] at hop
  obtain ⟨⟨op', rest⟩, hi, rfl⟩ := Option.map_eq_some_iff.mp hop
  exact ⟨rest, hi⟩

theorem Accounts.in_progress {g : Ledger} (h : Accounts tempDir files p g) {i : ℕ}
    {op : AdapterOp} (hop : g.op i = some op) (hleft : ¬ CleanedUp i p.shared g) :
    ∃ q k, p.threads[i]? = some ⟨op, .step q k⟩ := by
  obtain ⟨rest, hi⟩ := h.thread hop
  cases rest with
  | ret a => exact absurd (h.returned i op a hi).settled hleft
  | fail e => exact absurd hi (h.failed i op e)
  | step q k => exact ⟨q, k, hi⟩

theorem Accounts.sent {g : Ledger} (h : Accounts tempDir files p g) {c j : ℕ} {key : CancelKey}
    (htaken : g.takenBy c = some j) (hsent : p.shared.cancellations.sender c = .sent)
    (hkey : g.key c = key) :
    p.threads[j]? = some ⟨.cancel key.1 key.2, .ret ⟨true, none⟩⟩ := by
  obtain ⟨-, ⟨op, hop, hcancel, hopkey⟩, -⟩ := h.inv.taken c j htaken
  obtain ⟨rest, hj⟩ := h.thread hop
  cases op with
  | execute kind manifest request => cases hcancel
  | cancel kind taskId =>
    obtain rfl : (kind, taskId) = key := hopkey.trans hkey
    cases rest with
    | ret answer =>
      obtain ⟨-, herror, hiff⟩ := h.returned j (.cancel kind taskId) answer hj
      have htrue := hiff.mpr ⟨c, htaken, hsent⟩
      obtain rfl : answer = ⟨true, none⟩ := by
        cases answer
        simp only at htrue herror
        rw [htrue, herror htrue]
      exact hj
    | fail e => exact absurd hj (h.failed j _ e)
    | step q k => exact absurd hsent ((h.needs j _ q k hj).1 c htaken)

def promptManifest : AdapterManifest :=
  { sampleManifestFile "test-provider" with
    execution := ⟨⟨[], .tempFile⟩, "test-provider"⟩, cancelSignal := .sigterm }

def willing : AdapterStep.Input where
  isDir := true
  written := .ok ()
  removed := true
  spawned := .ok ⟨false, true, true⟩
  stdinWritten := true
  wait := .cancelled
  signalled := true
  exited := true
  killed := true
  output := ([], [])
  session := (.ok ⟨none, [], none⟩, [])
  listing := .ok []
  sent := .ok ()
  response := .badStatus ""

def executePrompt : AdapterOp :=
  .execute .localCli promptManifest (RemoteHttpAdapter.remoteRequest .workspaceSubset)

def waitingActions : List AdapterAction :=
  .spawn executePrompt :: List.replicate 5 (.advance 0 willing)

def cancelledActions : List AdapterAction :=
  waitingActions ++ .spawn (.cancel .localCli "task_1") ::
    (List.replicate 2 (.advance 1 willing) ++ List.replicate 7 (.advance 0 willing))

def samplePool (actions : List AdapterAction) : Option AdapterPool :=
  Runs.run (adapterPoolStep "/tmp") ⟨.initial fun _ => none, []⟩ actions

def sampleRun (actions : List AdapterAction) : Option (AdapterPool × List ℕ) :=
  Runs.run (startedStep "/tmp") (⟨.initial fun _ => none, []⟩, []) actions

theorem sample_waiting : ∃ p k, sampleRun waitingActions = some (p, [0]) ∧
    p.threads[0]? = some ⟨executePrompt, .step (.waitChild 0 0) k⟩ ∧
    p.shared.nextPromptId = 1 :=
  ⟨_, _, rfl, rfl, rfl⟩

theorem sample_cancelled : ∃ p outcome, samplePool cancelledActions = some p ∧
    p.threads[0]? = some ⟨executePrompt, .ret outcome⟩ ∧ outcome.status = .cancelled :=
  ⟨_, _, rfl, rfl, rfl⟩

def Executing (p : AdapterPool) (i : ℕ) (op : AdapterOp) : Prop :=
  op.executes = true ∧
    ∃ (q : AdapterStep) (k : q.Answer → AdapterCall op.Result),
      p.threads[i]? = some ⟨op, .step q k⟩

theorem Accounts.executing {g : Ledger} (h : Accounts tempDir files p g) {i : ℕ} {op : AdapterOp}
    (hop : g.op i = some op) (hexec : op.executes = true) (hleft : ¬ CleanedUp i p.shared g) :
    Executing p i op :=
  ⟨hexec, h.in_progress hop hleft⟩

/-- No call has failed, and what is there belongs to an execution in progress: a sender in the
tables, a prompt file that the system lets be written and removed, and a provider that has not
been waited for, which belongs to the execution that has started it. The ACP adapter leaves a
child alone that lacks a pipe of the protocol. -/
structure Tidy (tempDir : String) (files : String → Option String) (p : AdapterPool)
    (starters : List ℕ) : Prop where
  failed : ∀ (i : ℕ) op e, p.threads[i]? ≠ some ⟨op, .fail e⟩
  senders : ∀ key c, p.shared.cancellations.entry key = some c →
    ∃ i op, Executing p i op ∧ op.key = key
  prompts : ∀ path, p.shared.files path = none ∨ p.shared.files path = files path ∨
    path ∈ p.shared.faults ∨
    ∃ i op n, Executing p i op ∧ path = promptFile tempDir op.key.2 n
  providers : ∀ (pid : ℕ) (child : Process), p.shared.processes[pid]? = some child →
    child.state = .running → ∃ i, starters[pid]? = some i ∧ ((∃ op, Executing p i op) ∨
      ∃ manifest request rest,
        p.threads[i]? = some ⟨.execute .localAcp manifest request, rest⟩ ∧
        (child.pipes.stdin && child.pipes.stdout) = false)

section Started

variable {starters : List ℕ}
  (h : Reaches (startedStep tempDir) (fun _ _ => True) (⟨.initial files, []⟩, []) (p, starters))
include h

/-- Whenever an execution waits for a process, signals it or kills it, the process is the one it
has started and still runs, with the arguments of its own manifest and request; a prompt file
named there holds the prompt of its task. Prompt ids are 64 bits wide. -/
theorem provider_prompted (hcount : p.shared.nextPromptId ≤ 2 ^ 64) {i process : ℕ}
    {manifest : AdapterManifest} {request : RuntimeExecutionRequest} {q : AdapterStep}
    {k : q.Answer → AdapterCall RuntimeExecutionOutcome}
    (hi : p.threads[i]? = some ⟨.execute .localCli manifest request, .step q k⟩)
    (hq : q.minds = some process) :
    starters[process]? = some i ∧ Prompted p.shared manifest request process := by
  obtain ⟨g, hg, hstarters⟩ := accounts_of_reaches h
  obtain ⟨hstarter, hprompted⟩ := (hg.needs i (.execute .localCli manifest request) q k hi).2
    manifest request process rfl hq hcount
  exact ⟨hstarters.starter process i hstarter, hprompted⟩

omit h in
theorem provider_prompted_waiting : ∃ p, sampleRun waitingActions = some (p, [0]) ∧
    Prompted p.shared promptManifest (RemoteHttpAdapter.remoteRequest .workspaceSubset) 0 := by
  obtain ⟨p, k, hp, hi, hcount⟩ := sample_waiting
  refine ⟨p, hp, ?_⟩
  exact (provider_prompted (reaches_of_actions hp fun _ _ _ => trivial)
    (by rw [hcount]; decide) hi rfl).2

end Started

section Runs

variable (h : Reaches (adapterPoolStep tempDir) (fun _ _ => True) ⟨.initial files, []⟩ p)
include h

def ExecutionOf (p : AdapterPool) (kind : RuntimeKind) (taskId : String) (i : ℕ) : Prop :=
  ∃ manifest request rest, p.threads[i]? = some ⟨.execute kind manifest request, rest⟩ ∧
    request.taskId = taskId

omit h in
theorem Accounts.executionOf {g : Ledger} (h : Accounts tempDir files p g) {i : ℕ} {key : CancelKey}
    (hexec : g.Executes i key) : ExecutionOf p key.1 key.2 i := by
  obtain ⟨op, hop, hexec, rfl⟩ := hexec
  obtain ⟨rest, hi⟩ := h.thread hop
  cases op with
  | execute kind manifest request => exact ⟨manifest, request, rest, hi, rfl⟩
  | cancel kind taskId => cases hexec

/-- An execution that reports a cancellation was the target of a call of `cancel` that has
answered `true`, or the same task was executed twice by the adapter. A cancellation that answers
`true` has a target, and no two have the same. -/
theorem cancellations_accounted :
    (∀ (i : ℕ) kind manifest request outcome,
      p.threads[i]? = some ⟨.execute kind manifest request, .ret outcome⟩ →
      outcome.status = .cancelled →
      (∃ j : ℕ, p.threads[j]? = some ⟨.cancel kind request.taskId, .ret ⟨true, none⟩⟩) ∨
        ∃ j, j ≠ i ∧ ExecutionOf p kind request.taskId j) ∧
    ∃ target : ℕ → ℕ, ∀ (j : ℕ) kind taskId answer,
      p.threads[j]? = some ⟨.cancel kind taskId, .ret answer⟩ → answer.cancelled = true →
      ExecutionOf p kind taskId (target j) ∧
        ∀ (j' : ℕ) kind' taskId' answer', p.threads[j']? = some ⟨.cancel kind' taskId', .ret answer'⟩ →
          answer'.cancelled = true → target j' = target j → j' = j := by
  obtain ⟨starters, hrecord⟩ := h.record fun p a p' =>
    List.replicate (p'.shared.processes.length - p.shared.processes.length) (a.thread p)
  obtain ⟨g, hg, -⟩ := accounts_of_reaches hrecord
  refine ⟨?_, ?_⟩
  · intro i kind manifest request outcome hi hcancelled
    obtain ⟨-, hcause⟩ := hg.returned i (.execute kind manifest request) outcome hi
    obtain ⟨c, hlt, howner, hcause⟩ := hcause hcancelled
    obtain ⟨op, hop, -, hkey⟩ := hg.inv.channels c hlt
    have hkey : g.key c = kind.cancelKey request.taskId := by
      rw [howner, hg.roster, hi] at hop
      obtain rfl := Option.some.inj hop
      exact hkey.symm
    rcases hcause with ⟨j, htaken, hsent⟩ | ⟨j, hne, hexec⟩
    · exact .inl ⟨j, hg.sent htaken hsent hkey⟩
    · rw [hkey] at hexec
      exact .inr ⟨j, hne, hg.executionOf hexec⟩
  · have hchannel : ∀ (j : ℕ) kind taskId answer,
        p.threads[j]? = some ⟨.cancel kind taskId, .ret answer⟩ → answer.cancelled = true →
        ∃ c, g.takenBy c = some j ∧ p.shared.cancellations.sender c = .sent :=
      fun j kind taskId answer hj hanswer =>
        (hg.returned j (.cancel kind taskId) answer hj).2.2.mp hanswer
    classical
    have htarget : ∀ j, ∃ i, ∀ c, g.takenBy c = some j → i = g.owner c := by
      intro j
      by_cases hj : ∃ c, g.takenBy c = some j
      · obtain ⟨c, hc⟩ := hj
        exact ⟨g.owner c, fun c' hc' => by rw [hg.inv.takenOnce c c' j hc hc']⟩
      · exact ⟨0, fun c hc => absurd ⟨c, hc⟩ hj⟩
    choose target htarget using htarget
    refine ⟨target, fun j kind taskId answer hj hanswer => ?_⟩
    obtain ⟨c, htaken, -⟩ := hchannel j kind taskId answer hj hanswer
    obtain ⟨hlt, ⟨op, hop, -, hkey⟩, -⟩ := hg.inv.taken c j htaken
    constructor
    · rw [hg.roster, hj] at hop
      obtain rfl := Option.some.inj hop
      have hexec := hg.inv.channels c hlt
      rw [← hkey] at hexec
      rw [htarget j c htaken]
      exact hg.executionOf hexec
    · intro j' kind' taskId' answer' hj' hanswer' hsame
      obtain ⟨c', htaken', -⟩ := hchannel j' kind' taskId' answer' hj' hanswer'
      have hlt' := (hg.inv.taken c' j' htaken').1
      rw [htarget j c htaken, htarget j' c' htaken'] at hsame
      obtain rfl := hg.inv.once c' hlt' c hlt hsame
      exact Option.some.inj (htaken'.symm.trans htaken)

omit h in
theorem cancellations_accounted_cancelled : ∃ p, samplePool cancelledActions = some p ∧
    ((∃ j : ℕ, p.threads[j]? = some ⟨.cancel .localCli "task_1", .ret ⟨true, none⟩⟩) ∨
      ∃ j, j ≠ 0 ∧ ExecutionOf p .localCli "task_1" j) := by
  obtain ⟨p, outcome, hp, hi, hcancelled⟩ := sample_cancelled
  exact ⟨p, hp, (cancellations_accounted (reaches_of_actions hp fun _ _ _ => trivial)).1 0 _ _ _
    outcome hi hcancelled⟩

end Runs

end Pools

end OpenDaemon
