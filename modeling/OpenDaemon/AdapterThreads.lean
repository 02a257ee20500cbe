import OpenDaemon.Interleaving
import OpenDaemon.RowTable
import OpenDaemon.RuntimeAdapters

/-!
# Concurrent executions and cancellations

Executions and cancellations of the three adapters run at once. Which thread made a
channel, took a sender, keeps a prompt file or waits for a process is auxiliary state.
The steps of one thread leave what the others keep as it is, and a receiver becomes
ready only if its owner gave up, a cancellation sent to it, or another execution of the
same task used its key.
-/

namespace OpenDaemon

open Interleaving Oneshot

/-- Prompt ids wrap at 64 bits. -/
def promptFile (tempDir taskId : String) (n : ℕ) : String :=
  LocalCliAdapter.promptPath tempDir taskId (n % 2 ^ 64)

theorem promptPath_injective {tempDir taskId taskId' : String} {n n' : ℕ}
    (h : LocalCliAdapter.promptPath tempDir taskId n =
      LocalCliAdapter.promptPath tempDir taskId' n') : n = n' := by
  have hname : (taskId ++ "-prompt-" ++ toString n).toList =
      (taskId' ++ "-prompt-" ++ toString n').toList := by
    unfold LocalCliAdapter.promptPath joinPath at h
    have hl := congrArg String.toList h
    split at hl
    all_goals simpa [String.toList_append, List.append_assoc] using hl
  have hdash : ∀ k : ℕ, '-' ∉ (toString k).toList := by
    intro k hk
    rw [show (toString k).toList = Nat.toDigits 10 k from Nat.toList_repr] at hk
    have hdigit := Nat.isDigit_of_mem_toDigits (by decide) (by decide) hk
    exact absurd hdigit (by decide)
  have hsep : ∀ (taskId : String) (k : ℕ), (taskId ++ "-prompt-" ++ toString k).toList =
      (taskId ++ "-prompt").toList ++ '-' :: (toString k).toList := by
    intro taskId k
    simp [String.toList_append]
  rw [hsep, hsep] at hname
  have hnum := (RowTable.append_sep_injective (hdash n) (hdash n') hname).2
  exact RowTable.rowKey_injective "" (by simpa [RowTable.rowKey] using String.toList_injective hnum)

theorem promptFile_injective {tempDir taskId taskId' : String} {n n' : ℕ} (hn : n < 2 ^ 64)
    (hn' : n' < 2 ^ 64) (h : promptFile tempDir taskId n = promptFile tempDir taskId' n') :
    n = n' := by
  have hmod := promptPath_injective h
  rwa [Nat.mod_eq_of_lt hn, Nat.mod_eq_of_lt hn'] at hmod

/-- Who has done what: the operations of the threads, the thread and the key of a channel,
whether its thread still listens, the thread that took its sender, the threads that keep a
prompt file or wait for a process, and the thread that has started a process. -/
structure Ledger where
  op : ℕ → Option AdapterOp
  owner : ℕ → ℕ
  key : ℕ → CancelKey
  released : ℕ → Prop
  takenBy : ℕ → Option ℕ
  writer : ℕ → Option ℕ
  host : ℕ → Option ℕ
  starter : ℕ → Option ℕ

namespace AdapterOp

def key : AdapterOp → CancelKey
  | .execute kind _ request => kind.cancelKey request.taskId
  | .cancel kind taskId => kind.cancelKey taskId

def executes : AdapterOp → Bool
  | .execute .. => true
  | .cancel .. => false

end AdapterOp

namespace Ledger

def Executes (g : Ledger) (i : ℕ) (key : CancelKey) : Prop :=
  ∃ op, g.op i = some op ∧ op.executes = true ∧ op.key = key

def Cancels (g : Ledger) (i : ℕ) (key : CancelKey) : Prop :=
  ∃ op, g.op i = some op ∧ op.executes = false ∧ op.key = key

/-- The ACP adapter gives up a child without both pipes of the protocol. -/
def Abandons (g : Ledger) (i : ℕ) (pipes : Pipes) : Prop :=
  ∃ op, g.op i = some op ∧ op.key.1 = .localAcp ∧ (pipes.stdin && pipes.stdout) = false

end Ledger

section Discipline

variable (tempDir : String) (files : String → Option String)

structure AdapterInvariant (s : AdapterState) (g : Ledger) : Prop where
  sound : s.cancellations.Sound g.key
  channels : ∀ c < s.cancellations.next, g.Executes (g.owner c) (g.key c)
  once : ∀ c < s.cancellations.next, ∀ c' < s.cancellations.next, g.owner c = g.owner c' → c = c'
  closed : ∀ c < s.cancellations.next, s.cancellations.receiving c = false → g.released c
  caused : ∀ c < s.cancellations.next, s.cancellations.sender c ≠ .held → g.released c ∨
    (∃ j, g.takenBy c = some j ∧ s.cancellations.sender c = .sent) ∨
    ∃ i, i ≠ g.owner c ∧ g.Executes i (g.key c)
  taken : ∀ c j, g.takenBy c = some j → c < s.cancellations.next ∧ g.Cancels j (g.key c) ∧
    ∀ k, s.cancellations.entry k ≠ some c
  takenOnce : ∀ c c' j, g.takenBy c = some j → g.takenBy c' = some j → c = c'
  writers : ∀ n i, g.writer n = some i → n < s.nextPromptId
  writerOps : ∀ n i, g.writer n = some i → ∃ op, g.op i = some op ∧ op.executes = true
  prompts : ∀ path, s.files path = none ∨ s.files path = files path ∨ path ∈ s.faults ∨
    ∃ n i op, g.writer n = some i ∧ g.op i = some op ∧ path = promptFile tempDir op.key.2 n
  hosts : ∀ pid i, g.host pid = some i → g.starter pid = some i
  started : ∀ pid i, g.starter pid = some i → pid < s.processes.length
  starterOps : ∀ pid i, g.starter pid = some i → ∃ op, g.op i = some op ∧ op.executes = true
  processes : ∀ pid child, s.processes[pid]? = some child → child.state = .running →
    (∃ i, g.host pid = some i) ∨ ∃ i, g.starter pid = some i ∧ g.Abandons i child.pipes

/-- What thread `i` may rely on when another thread makes a step or starts. -/
structure AdapterRely (i : ℕ) (s : AdapterState) (g : Ledger) (s' : AdapterState)
    (g' : Ledger) : Prop where
  ops : ∀ j op, g.op j = some op → g'.op j = some op
  op : g'.op i = g.op i
  counts : s.cancellations.next ≤ s'.cancellations.next ∧ s.nextPromptId ≤ s'.nextPromptId
  owners : ∀ c < s.cancellations.next, g'.owner c = g.owner c ∧ g'.key c = g.key c
  fresh : ∀ c, s.cancellations.next ≤ c → c < s'.cancellations.next → g'.owner c ≠ i
  released : ∀ c < s.cancellations.next, g.owner c = i → g'.released c → g.released c
  entries : ∀ c < s.cancellations.next, g.owner c = i →
    ∀ k, s'.cancellations.entry k = some c → s.cancellations.entry k = some c
  sent : ∀ c j, g.takenBy c = some j → s.cancellations.sender c = .sent →
    g'.takenBy c = some j ∧ s'.cancellations.sender c = .sent
  taken : ∀ c, g'.takenBy c = some i ↔ g.takenBy c = some i
  senders : ∀ c, g.takenBy c = some i →
    s'.cancellations.sender c = s.cancellations.sender c
  writers : ∀ n, g'.writer n = some i ↔ g.writer n = some i
  files : s'.nextPromptId ≤ 2 ^ 64 → ∀ n, g.writer n = some i →
    ∀ taskId, s'.files (promptFile tempDir taskId n) = s.files (promptFile tempDir taskId n)
  hosts : ∀ pid, g'.host pid = some i ↔ g.host pid = some i
  processes : ∀ pid, g.host pid = some i → s'.processes[pid]? = s.processes[pid]?
  children : s.processes.length ≤ s'.processes.length
  starters : ∀ pid j, g'.starter pid = some j →
    g.starter pid = some j ∨ s.processes.length ≤ pid ∧ j ≠ i

def AdapterStep.minds : AdapterStep → Option ℕ
  | .waitChild process _ | .sendSignal process _ | .awaitExit process | .kill process =>
    some process
  | _ => none

/-- The process runs the request's command, with the prompt itself or the name of a file that
holds it. -/
def Prompted (s : AdapterState) (manifest : AdapterManifest) (request : RuntimeExecutionRequest)
    (process : ℕ) : Prop :=
  ∃ pipes prompt args, s.processes[process]? = some ⟨⟨request.executable,
      args ++ request.agentProfile.providerConfig.customArgs,
      request.workspace.workingDirectory⟩, pipes, .running⟩ ∧
    CommandTemplate.renderArgs manifest.execution.args
      (LocalCliAdapter.templateValues request prompt) = .ok args ∧
    (manifest.execution.inputMode = .tempFile → s.files prompt = some request.task.prompt) ∧
    (manifest.execution.inputMode ≠ .tempFile → prompt = request.task.prompt)

def Needs (i : ℕ) (op : AdapterOp) (q : AdapterStep) (s : AdapterState) (g : Ledger) : Prop :=
  (∀ c, g.takenBy c = some i → s.cancellations.sender c ≠ .sent) ∧
  ∀ manifest request process, op = .execute .localCli manifest request → q.minds = some process →
    s.nextPromptId ≤ 2 ^ 64 →
      g.starter process = some i ∧ Prompted s manifest request process

def adapterDiscipline : Discipline AdapterStep AdapterOp AdapterState Ledger where
  inv := AdapterInvariant tempDir files
  rely := AdapterRely tempDir
  admits _ := True
  guard _ _ _ := True
  needs := Needs

/-- Why an execution of a task can be cancelled: a cancellation has sent to it, or there is
another execution of the task. -/
def Cause (s : AdapterState) (g : Ledger) (i : ℕ) : Prop :=
  ∃ c, c < s.cancellations.next ∧ g.owner c = i ∧
    ((∃ j, g.takenBy c = some j ∧ s.cancellations.sender c = .sent) ∨
      ∃ i', i' ≠ i ∧ g.Executes i' (g.key c))

structure Grip where
  channel : Option ℕ
  listening : Bool
  listed : Bool
  prompt : Option ℕ
  content : Option String
  process : Option (ℕ × SpawnCommand)
  cancelled : Bool

structure Holds (i : ℕ) (op : AdapterOp) (x : Grip) (s : AdapterState)
    (g : Ledger) : Prop where
  mine : g.op i = some op
  channels : ∀ c, (c < s.cancellations.next ∧ g.owner c = i) ↔ x.channel = some c
  listening : ∀ c, x.channel = some c → x.listening = true → ¬ g.released c
  unlisted : ∀ c, x.channel = some c → x.listed = false →
    ∀ k, s.cancellations.entry k ≠ some c
  prompts : ∀ n, g.writer n = some i ↔ x.prompt = some n
  content : ∀ n text, x.prompt = some n → x.content = some text → s.nextPromptId ≤ 2 ^ 64 →
    s.files (promptFile tempDir op.key.2 n) = some text
  hosts : ∀ pid, g.host pid = some i ↔ ∃ command, x.process = some (pid, command)
  process : ∀ pid command, x.process = some (pid, command) →
    ∃ pipes, s.processes[pid]? = some ⟨command, pipes, .running⟩
  cancelled : x.cancelled = true → Cause s g i

end Discipline

section Stability

variable {tempDir : String} {files : String → Option String} {i j : ℕ} {op : AdapterOp}
  {x : Grip} {s s' : AdapterState} {g g' : Ledger} {key : CancelKey}

theorem AdapterRely.executes (h : AdapterRely tempDir j s g s' g') (he : g.Executes i key) :
    g'.Executes i key := by
  obtain ⟨op, hop, hkey⟩ := he
  exact ⟨op, h.ops _ _ hop, hkey⟩

theorem AdapterRely.cause (h : AdapterRely tempDir j s g s' g') (hc : Cause s g i) :
    Cause s' g' i := by
  obtain ⟨c, hlt, howner, hcause⟩ := hc
  obtain ⟨howner', hkey'⟩ := h.owners c hlt
  refine ⟨c, Nat.lt_of_lt_of_le hlt h.counts.1, howner'.trans howner, ?_⟩
  rcases hcause with ⟨j', htaken, hsent⟩ | ⟨i', hne, hexec⟩
  · exact .inl ⟨j', h.sent c j' htaken hsent⟩
  · exact .inr ⟨i', hne, hkey' ▸ h.executes hexec⟩

theorem AdapterRely.channels (h : AdapterRely tempDir i s g s' g') (c : ℕ) :
    (c < s'.cancellations.next ∧ g'.owner c = i) ↔ (c < s.cancellations.next ∧ g.owner c = i) := by
  constructor
  · rintro ⟨hlt, howner⟩
    by_cases hold : c < s.cancellations.next
    · exact ⟨hold, (h.owners c hold).1 ▸ howner⟩
    · exact absurd howner (h.fresh c (Nat.le_of_not_lt hold) hlt)
  · rintro ⟨hlt, howner⟩
    exact ⟨Nat.lt_of_lt_of_le hlt h.counts.1, (h.owners c hlt).1.trans howner⟩

theorem Holds.rely (h : Holds tempDir i op x s g) (hr : AdapterRely tempDir i s g s' g') :
    Holds tempDir i op x s' g' where
  mine := hr.op.trans h.mine
  channels c := (hr.channels c).trans (h.channels c)
  listening c hc hl hreleased :=
    have hmine := (h.channels c).mpr hc
    h.listening c hc hl (hr.released c hmine.1 hmine.2 hreleased)
  unlisted c hc hl k hk :=
    have hmine := (h.channels c).mpr hc
    h.unlisted c hc hl k (hr.entries c hmine.1 hmine.2 k hk)
  prompts n := (hr.writers n).trans (h.prompts n)
  content n text hn htext hcount := by
    rw [hr.files hcount n ((h.prompts n).mpr hn) op.key.2]
    exact h.content n text hn htext (Nat.le_trans hr.counts.2 hcount)
  hosts pid := (hr.hosts pid).trans (h.hosts pid)
  process pid command hp := by
    rw [hr.processes pid ((h.hosts pid).mpr ⟨command, hp⟩)]
    exact h.process pid command hp
  cancelled hx := hr.cause (h.cancelled hx)

theorem stable_holds : Stable (adapterDiscipline tempDir files) i
    (Holds tempDir i op x) :=
  fun _ _ _ _ _ _ hr h => h.rely hr

theorem AdapterRely.refl (tempDir : String) : AdapterRely tempDir i s g s g where
  ops _ _ h := h
  op := rfl
  counts := ⟨Nat.le_refl _, Nat.le_refl _⟩
  owners _ _ := ⟨rfl, rfl⟩
  fresh _ hle hlt := absurd hlt (Nat.not_lt.mpr hle)
  released _ _ _ h := h
  entries _ _ _ _ h := h
  sent _ _ ht hs := ⟨ht, hs⟩
  taken _ := Iff.rfl
  senders _ _ := rfl
  writers _ := Iff.rfl
  files _ _ _ _ := rfl
  hosts _ := Iff.rfl
  processes _ _ := rfl
  children := Nat.le_refl _
  starters _ _ h := .inl h

end Stability

section Updates

variable {α β : Type} [DecidableEq α] {f : α → Option β} {a a' : α} {b b' : β}

theorem update_some_iff : Function.update f a (some b) a' = some b' ↔
    (a' = a ∧ b = b') ∨ (a' ≠ a ∧ f a' = some b') := by
  by_cases h : a' = a
  · subst h
    simp
  · simp [h]

theorem update_none_iff : Function.update f a none a' = some b' ↔ a' ≠ a ∧ f a' = some b' := by
  by_cases h : a' = a
  · subst h
    simp
  · simp [h]

end Updates

section Effects

variable {tempDir : String} {files : String → Option String} {i n channel pid : ℕ}
  {op : AdapterOp} {x : Grip} {s : AdapterState} {g : Ledger} {key : CancelKey}
  {command : SpawnCommand}

def Moves (tempDir : String) (files : String → Option String) (i : ℕ) (s : AdapterState)
    (g : Ledger) (s' : AdapterState) (P : AdapterState → Ledger → Prop) : Prop :=
  ∃ g', AdapterInvariant tempDir files s' g' ∧
    (∀ j, j ≠ i → AdapterRely tempDir j s g s' g') ∧ P s' g'

theorem moves_quiet {P : AdapterState → Ledger → Prop} (hI : AdapterInvariant tempDir files s g)
    (h : P s g) : Moves tempDir files i s g s P :=
  ⟨g, hI, fun _ _ => .refl tempDir, h⟩

/-! ### Prompt files -/

theorem Holds.nextPromptId (hI : AdapterInvariant tempDir files s g)
    (h : Holds tempDir i op x s g) (hexec : op.executes = true) (hnone : x.prompt = none) :
    Moves tempDir files i s g { s with nextPromptId := s.nextPromptId + 1 }
      (Holds tempDir i op { x with prompt := some s.nextPromptId, content := none }) := by
  have hold : ∀ n j, g.writer n = some j → n ≠ s.nextPromptId :=
    fun n j hn => Nat.ne_of_lt (hI.writers n j hn)
  refine ⟨{ g with writer := Function.update g.writer s.nextPromptId (some i) },
    { hI with writers := ?_, writerOps := ?_, prompts := ?_ },
    fun j hj => { AdapterRely.refl tempDir with
      counts := ⟨Nat.le_refl _, Nat.le_succ _⟩, writers := ?_, files := fun _ _ _ _ => rfl },
    { h with prompts := ?_, content := ?_ }⟩
  · intro n j hn
    rcases update_some_iff.mp hn with ⟨rfl, -⟩ | ⟨-, hn⟩
    · exact Nat.lt_succ_self _
    · exact Nat.lt_succ_of_lt (hI.writers n j hn)
  · intro n j hn
    rcases update_some_iff.mp hn with ⟨-, rfl⟩ | ⟨-, hn⟩
    · exact ⟨op, h.mine, hexec⟩
    · exact hI.writerOps n j hn
  · intro path
    rcases hI.prompts path with hp | hp | hp | ⟨n, j, op', hn, hpath⟩
    · exact .inl hp
    · exact .inr (.inl hp)
    · exact .inr (.inr (.inl hp))
    · exact .inr (.inr (.inr ⟨n, j, op', update_some_iff.mpr (.inr ⟨hold n j hn, hn⟩), hpath⟩))
  · intro n
    rw [update_some_iff]
    exact ⟨fun hs => hs.elim (fun hs => absurd hs.2.symm hj) And.right,
      fun hs => .inr ⟨hold n j hs, hs⟩⟩
  · intro n
    rw [update_some_iff, h.prompts n, hnone]
    exact ⟨fun hs => hs.elim (fun hs => congrArg some hs.1.symm) fun hs => (by cases hs.2),
      fun hs => .inl ⟨(Option.some.inj hs).symm, rfl⟩⟩
  · intro n text _ hs
    cases hs

theorem AdapterInvariant.promptFile_ne {taskId taskId' : String} {n' j : ℕ}
    (hI : AdapterInvariant tempDir files s g) (hcount : s.nextPromptId ≤ 2 ^ 64)
    (hn : g.writer n = some i) (hn' : g.writer n' = some j) (hj : j ≠ i) :
    promptFile tempDir taskId' n' ≠ promptFile tempDir taskId n := by
  intro heq
  have hsame := promptFile_injective (Nat.lt_of_lt_of_le (hI.writers n' j hn') hcount)
    (Nat.lt_of_lt_of_le (hI.writers n i hn) hcount) heq
  rw [hsame, hn] at hn'
  exact hj (Option.some.inj hn').symm

section Change

variable {files' : String → Option String} {faults' : List String} {taskId : String}

theorem rely_files {writer : ℕ → Option ℕ} {j : ℕ} (hI : AdapterInvariant tempDir files s g)
    (hn : g.writer n = some i) (hj : j ≠ i)
    (hwriter : ∀ n', writer n' = some j ↔ g.writer n' = some j)
    (hfiles : ∀ path, path ≠ promptFile tempDir taskId n → files' path = s.files path) :
    AdapterRely tempDir j s g { s with files := files', faults := faults' }
      { g with writer := writer } :=
  { AdapterRely.refl tempDir with
    writers := hwriter
    files := fun hcount _ hn' _ => hfiles _ (hI.promptFile_ne hcount hn hn' hj) }

theorem Holds.writePrompt {text : String} (hI : AdapterInvariant tempDir files s g)
    (h : Holds tempDir i op x s g) (hprompt : x.prompt = some n) :
    Moves tempDir files i s g (s.setFile (promptFile tempDir op.key.2 n) (some text))
      (Holds tempDir i op { x with content := some text }) := by
  have hn := (h.prompts n).mpr hprompt
  refine ⟨g, { hI with prompts := ?_ },
    fun j hj => rely_files hI hn hj (fun _ => Iff.rfl) fun path hp => Function.update_of_ne hp _ _,
    { h with content := ?_ }⟩
  · intro path
    by_cases heq : path = promptFile tempDir op.key.2 n
    · exact .inr (.inr (.inr ⟨n, i, op, hn, h.mine, heq⟩))
    · simp only [AdapterState.setFile, Function.update_of_ne heq]
      exact hI.prompts path
  · intro n' text' hn' htext' _
    obtain rfl : n = n' := Option.some.inj (hprompt.symm.trans hn')
    obtain rfl : text = text' := Option.some.inj htext'
    exact Function.update_self _ _ _

theorem Holds.releasePrompt (hI : AdapterInvariant tempDir files s g)
    (h : Holds tempDir i op x s g) (hprompt : x.prompt = some n)
    (hfiles : ∀ path, path ≠ promptFile tempDir op.key.2 n → files' path = s.files path)
    (hgone : files' (promptFile tempDir op.key.2 n) = none ∨
      promptFile tempDir op.key.2 n ∈ faults')
    (hfaults : ∀ path ∈ s.faults, path ∈ faults') :
    Moves tempDir files i s g { s with files := files', faults := faults' }
      (Holds tempDir i op { x with prompt := none, content := none }) := by
  have hn := (h.prompts n).mpr hprompt
  refine ⟨{ g with writer := Function.update g.writer n none },
    { hI with writers := ?_, writerOps := ?_, prompts := ?_ },
    fun j hj => rely_files hI hn hj (fun n' => ?_) hfiles, { h with prompts := ?_, content := ?_ }⟩
  · intro n' j hn'
    exact hI.writers n' j (update_none_iff.mp hn').2
  · intro n' j hn'
    exact hI.writerOps n' j (update_none_iff.mp hn').2
  · intro path
    by_cases heq : path = promptFile tempDir op.key.2 n
    · rcases hgone with hnone | hfault
      · exact .inl (heq ▸ hnone)
      · exact .inr (.inr (.inl (heq ▸ hfault)))
    · rcases hI.prompts path with hp | hp | hp | ⟨n', j, op', hn', hop', hpath⟩
      · exact .inl ((hfiles path heq).trans hp)
      · exact .inr (.inl ((hfiles path heq).trans hp))
      · exact .inr (.inr (.inl (hfaults path hp)))
      · refine .inr (.inr (.inr ⟨n', j, op', update_none_iff.mpr ⟨?_, hn'⟩, hop', hpath⟩))
        rintro rfl
        obtain rfl := Option.some.inj (hn.symm.trans hn')
        obtain rfl := Option.some.inj (h.mine.symm.trans hop')
        exact heq hpath
  · rw [update_none_iff]
    refine ⟨And.right, fun hs => ⟨?_, hs⟩⟩
    rintro rfl
    exact hj (Option.some.inj (hn.symm.trans hs)).symm
  · intro n'
    rw [update_none_iff, h.prompts n', hprompt]
    exact ⟨fun hs => absurd (Option.some.inj hs.2).symm hs.1, fun hs => (by cases hs)⟩
  · intro n' text hs
    cases hs

end Change

/-! ### Channels -/

theorem Holds.channelKey (hI : AdapterInvariant tempDir files s g) (h : Holds tempDir i op x s g)
    (hc : x.channel = some channel) : g.key channel = op.key := by
  obtain ⟨hlt, howner⟩ := (h.channels channel).mpr hc
  obtain ⟨op', hop, -, hkey⟩ := hI.channels channel hlt
  rw [howner, h.mine] at hop
  rw [← hkey, Option.some.inj hop]

/-- Only a channel of the key is dropped when the key is used, so a receiver that becomes ready
by it has another owner or the thread itself. -/
theorem AdapterInvariant.caused_drop (hI : AdapterInvariant tempDir files s g)
    (hexec : g.Executes i key) {c : ℕ} (hlt : c < s.cancellations.next)
    (hready : (s.cancellations.dropEntry key).sender c ≠ .held) :
    s.cancellations.entry key = some c ∧ g.owner c = i ∨ g.released c ∨
      (∃ j, g.takenBy c = some j ∧ (s.cancellations.dropEntry key).sender c = .sent) ∨
      ∃ i', i' ≠ g.owner c ∧ g.Executes i' (g.key c) := by
  rw [Table.dropEntry_sender] at hready ⊢
  by_cases hentry : s.cancellations.entry key = some c
  · by_cases howner : g.owner c = i
    · exact .inl ⟨hentry, howner⟩
    · have hkey := hI.sound.key key c hentry
      exact .inr (.inr (.inr ⟨i, Ne.symm howner, hkey ▸ hexec⟩))
  · rw [if_neg hentry] at hready ⊢
    exact .inr (hI.caused c hlt hready)

theorem AdapterInvariant.taken_drop (hI : AdapterInvariant tempDir files s g) {c j : ℕ}
    (hc : g.takenBy c = some j) (key : CancelKey) :
    (s.cancellations.dropEntry key).sender c = s.cancellations.sender c := by
  rw [Table.dropEntry_sender, if_neg ((hI.taken c j hc).2.2 key)]

theorem Holds.register (hI : AdapterInvariant tempDir files s g) (h : Holds tempDir i op x s g)
    (hexec : op.executes = true) (hnone : x.channel = none) :
    Moves tempDir files i s g
      { s with cancellations := (s.cancellations.register op.key).2 }
      (Holds tempDir i op { x with
        channel := some s.cancellations.next, listening := true, listed := true }) := by
  have hown : ∀ c < s.cancellations.next, g.owner c ≠ i := by
    intro c hlt howner
    have hc := (h.channels c).mp ⟨hlt, howner⟩
    rw [hnone] at hc
    cases hc
  have hmine : g.Executes i op.key := ⟨op, h.mine, hexec, rfl⟩
  have hcases : ∀ c, c < s.cancellations.next + 1 →
      c = s.cancellations.next ∨ c < s.cancellations.next ∧ c ≠ s.cancellations.next := by
    intro c hc
    omega
  have hentry : ∀ c k, c ≠ s.cancellations.next →
      (s.cancellations.register op.key).2.entry k = some c →
      s.cancellations.entry k = some c := by
    intro c k hne hk
    rcases update_some_iff.mp hk with ⟨-, heq⟩ | ⟨-, hk⟩
    · exact absurd heq.symm hne
    · exact hk
  have hsender : ∀ c j, g.takenBy c = some j →
      (s.cancellations.register op.key).2.sender c = s.cancellations.sender c := by
    intro c j hc
    rw [Table.register_sender_of_ne (Nat.ne_of_lt (hI.taken c j hc).1), hI.taken_drop hc]
  refine ⟨{ g with
      owner := Function.update g.owner s.cancellations.next i
      key := Function.update g.key s.cancellations.next op.key
      released := fun c => c ≠ s.cancellations.next ∧ g.released c },
    { hI with
      sound := hI.sound.register op.key, channels := ?_, once := ?_, closed := ?_, caused := ?_,
      taken := ?_ },
    fun j hj => { AdapterRely.refl tempDir with
      counts := ⟨Nat.le_succ _, Nat.le_refl _⟩, owners := ?_, fresh := ?_, released := ?_,
      entries := ?_, sent := ?_, senders := ?_, files := fun _ _ _ _ => rfl },
    { h with channels := ?_, listening := ?_, unlisted := ?_, cancelled := ?_ }⟩
  · intro c hc
    rcases hcases c hc with rfl | ⟨hlt, hne⟩
    · simp only [Function.update_self]
      exact hmine
    · simp only [Function.update_of_ne hne]
      exact hI.channels c hlt
  · intro c hc c' hc' heq
    rcases hcases c hc with rfl | ⟨hlt, hne⟩ <;> rcases hcases c' hc' with rfl | ⟨hlt', hne'⟩
    · rfl
    · simp only [Function.update_self, Function.update_of_ne hne'] at heq
      exact absurd heq.symm (hown c' hlt')
    · simp only [Function.update_self, Function.update_of_ne hne] at heq
      exact absurd heq (hown c hlt)
    · simp only [Function.update_of_ne hne, Function.update_of_ne hne'] at heq
      exact hI.once c hlt c' hlt' heq
  · intro c hc hclosed
    rcases hcases c hc with rfl | ⟨hlt, hne⟩
    · simp [Table.register] at hclosed
    · simp only [Table.register, Function.update_of_ne hne] at hclosed
      exact ⟨hne, hI.closed c hlt hclosed⟩
  · intro c hc hready
    rcases hcases c hc with rfl | ⟨hlt, hne⟩
    · exact absurd Table.register_sender_next hready
    · simp only [Table.register_sender_of_ne hne, Function.update_of_ne hne] at hready ⊢
      rcases hI.caused_drop hmine hlt hready with ⟨-, howner⟩ | hreleased | hsent | hother
      · exact absurd howner (hown c hlt)
      · exact .inl ⟨hne, hreleased⟩
      · exact .inr (.inl hsent)
      · exact .inr (.inr hother)
  · intro c j hc
    obtain ⟨hlt, hcancels, hunlisted⟩ := hI.taken c j hc
    have hne := Nat.ne_of_lt hlt
    refine ⟨Nat.lt_succ_of_lt hlt, ?_, fun k hk => hunlisted k (hentry c k hne hk)⟩
    simp only [Function.update_of_ne hne]
    exact hcancels
  · intro c hlt
    have hne := Nat.ne_of_lt hlt
    exact ⟨Function.update_of_ne hne _ _, Function.update_of_ne hne _ _⟩
  · intro c hle hc
    rcases hcases c hc with rfl | ⟨hlt, -⟩
    · simpa using Ne.symm hj
    · exact absurd hlt (Nat.not_lt.mpr hle)
  · intro c _ _ hreleased
    exact hreleased.2
  · intro c hlt _ k hk
    exact hentry c k (Nat.ne_of_lt hlt) hk
  · intro c j' hc hsent
    exact ⟨hc, (hsender c j' hc).trans hsent⟩
  · intro c hc
    exact hsender c j hc
  · intro c
    constructor
    · rintro ⟨hc, howner⟩
      rcases hcases c hc with rfl | ⟨hlt, hne⟩
      · rfl
      · simp only [Function.update_of_ne hne] at howner
        exact absurd howner (hown c hlt)
    · rintro hc
      obtain rfl := Option.some.inj hc
      exact ⟨Nat.lt_succ_self _, Function.update_self _ _ _⟩
  · rintro c hc - ⟨hne, -⟩
    exact hne (Option.some.inj hc).symm
  · rintro c - hlisted
    cases hlisted
  · intro hx
    obtain ⟨c, hlt, howner, -⟩ := h.cancelled hx
    exact absurd howner (hown c hlt)

theorem Holds.unregister (hI : AdapterInvariant tempDir files s g) (h : Holds tempDir i op x s g)
    (hexec : op.executes = true) :
    Moves tempDir files i s g { s with cancellations := s.cancellations.unregister op.key }
      (Holds tempDir i op { x with listening := false, listed := false }) := by
  have hmine : g.Executes i op.key := ⟨op, h.mine, hexec, rfl⟩
  have hsender : ∀ c j, g.takenBy c = some j →
      (s.cancellations.dropEntry op.key).sender c = s.cancellations.sender c :=
    fun c j hc => hI.taken_drop hc op.key
  have hlt : ∀ c, c < (s.cancellations.unregister op.key).next → c < s.cancellations.next := by
    intro c hc
    rwa [Table.unregister_next] at hc
  refine ⟨{ g with released := fun c =>
      s.cancellations.entry op.key = some c ∧ g.owner c = i ∨ g.released c },
    { hI with
      sound := hI.sound.unregister op.key, channels := ?_, once := ?_, closed := ?_, caused := ?_,
      taken := ?_ },
    fun j hj => { AdapterRely.refl tempDir with
      counts := ⟨?_, Nat.le_refl _⟩, fresh := ?_, released := ?_,
      entries := ?_, sent := ?_, senders := ?_, files := fun _ _ _ _ => rfl },
    { h with channels := ?_, listening := ?_, unlisted := ?_, cancelled := ?_ }⟩
  · exact fun c hc => hI.channels c (hlt c hc)
  · exact fun c hc c' hc' => hI.once c (hlt c hc) c' (hlt c' hc')
  · intro c hc hclosed
    rw [Table.unregister_receiving] at hclosed
    exact .inr (hI.closed c (hlt c hc) hclosed)
  · intro c hc hready
    rcases hI.caused_drop hmine (hlt c hc) hready with hdrop | hreleased | hsent | hother
    · exact .inl (.inl hdrop)
    · exact .inl (.inr hreleased)
    · exact .inr (.inl hsent)
    · exact .inr (.inr hother)
  · intro c j hc
    obtain ⟨hlt', hcancels, hunlisted⟩ := hI.taken c j hc
    refine ⟨by rwa [Table.unregister_next], hcancels, fun k hk => ?_⟩
    exact hunlisted k (update_none_iff.mp hk).2
  · rw [Table.unregister_next]
  · intro c hle hc
    rw [Table.unregister_next] at hc
    exact absurd hc (Nat.not_lt.mpr hle)
  · rintro c - howner (⟨-, hi⟩ | hreleased)
    · exact absurd (howner.symm.trans hi) hj
    · exact hreleased
  · intro c _ _ k hk
    exact (update_none_iff.mp hk).2
  · intro c j' hc hsent
    exact ⟨hc, (hsender c j' hc).trans hsent⟩
  · intro c hc
    exact hsender c j hc
  · intro c
    rw [Table.unregister_next]
    exact h.channels c
  · intro c _ hl
    cases hl
  · intro c hc _ k hk
    obtain ⟨hne, hk⟩ := update_none_iff.mp hk
    exact hne ((hI.sound.key k c hk).symm.trans (h.channelKey hI hc))
  · intro hx
    obtain ⟨c, hlt', howner, hcause⟩ := h.cancelled hx
    refine ⟨c, by rwa [Table.unregister_next], howner, hcause.imp_left ?_⟩
    rintro ⟨j, hc, hsent⟩
    exact ⟨j, hc, (hsender c j hc).trans hsent⟩

theorem Holds.closeReceiver (hI : AdapterInvariant tempDir files s g)
    (h : Holds tempDir i op x s g) (hc : x.channel = some channel) :
    Moves tempDir files i s g { s with cancellations := s.cancellations.close channel }
      (Holds tempDir i op { x with listening := false }) := by
  obtain ⟨-, howner⟩ := (h.channels channel).mpr hc
  refine ⟨{ g with released := fun c => c = channel ∨ g.released c },
    { hI with sound := hI.sound.close channel, closed := ?_, caused := ?_ },
    fun j hj => { AdapterRely.refl tempDir with
      released := ?_, files := fun _ _ _ _ => rfl },
    { h with listening := ?_ }⟩
  · intro c hlt hclosed
    by_cases heq : c = channel
    · exact .inl heq
    · simp only [Table.close, Function.update_of_ne heq] at hclosed
      exact .inr (hI.closed c hlt hclosed)
  · intro c hlt hready
    exact (hI.caused c hlt hready).imp_left .inr
  · rintro c - hj' (rfl | hreleased)
    · exact absurd (hj'.symm.trans howner) hj
    · exact hreleased
  · intro c _ hl
    cases hl

/-! ### Processes -/

def Ledger.start (g : Ledger) (pid i : ℕ) (hosted : Bool) : Ledger :=
  { g with
    host := if hosted then Function.update g.host pid (some i) else g.host
    starter := Function.update g.starter pid (some i) }

theorem AdapterInvariant.start {child : Process} {hosted : Bool}
    (hI : AdapterInvariant tempDir files s g) (hop : g.op i = some op) (hexec : op.executes = true)
    (hchild : hosted = true ∨ g.Abandons i child.pipes) :
    AdapterInvariant tempDir files { s with processes := s.processes ++ [child] }
      (g.start s.processes.length i hosted) := by
  have hold : ∀ pid j, g.starter pid = some j → pid ≠ s.processes.length :=
    fun pid j hpid => Nat.ne_of_lt (hI.started pid j hpid)
  have hkept : ∀ pid j, g.starter pid = some j →
      (g.start s.processes.length i hosted).starter pid = some j :=
    fun pid j hpid => update_some_iff.mpr (.inr ⟨hold pid j hpid, hpid⟩)
  refine { hI with hosts := ?_, started := ?_, starterOps := ?_, processes := ?_ }
  · intro pid j hpid
    cases hosted with
    | false => exact hkept pid j (hI.hosts pid j hpid)
    | true =>
      rcases update_some_iff.mp hpid with hnew | ⟨hne, hpid⟩
      · exact update_some_iff.mpr (.inl hnew)
      · exact hkept pid j (hI.hosts pid j hpid)
  · intro pid j hpid
    rw [List.length_append, List.length_singleton]
    rcases update_some_iff.mp hpid with ⟨rfl, -⟩ | ⟨-, hpid⟩
    · exact Nat.lt_succ_self _
    · exact Nat.lt_succ_of_lt (hI.started pid j hpid)
  · intro pid j hpid
    rcases update_some_iff.mp hpid with ⟨-, rfl⟩ | ⟨-, hpid⟩
    · exact ⟨op, hop, hexec⟩
    · exact hI.starterOps pid j hpid
  · intro pid child' hchild' hrunning
    obtain hpid | ⟨rfl, rfl⟩ := getElem?_spawned hchild'
    · rcases hI.processes pid child' hpid hrunning with ⟨j, hj⟩ | ⟨j, hj, habandons⟩
      · refine .inl ⟨j, ?_⟩
        cases hosted with
        | false => exact hj
        | true => exact update_some_iff.mpr (.inr ⟨hold pid j (hI.hosts pid j hj), hj⟩)
      · exact .inr ⟨j, hkept pid j hj, habandons⟩
    · rcases hchild with rfl | habandons
      · exact .inl ⟨i, Function.update_self _ _ _⟩
      · exact .inr ⟨i, Function.update_self _ _ _, habandons⟩

theorem AdapterInvariant.rely_start {child : Process} {hosted : Bool} {j : ℕ}
    (hI : AdapterInvariant tempDir files s g) (hj : j ≠ i) :
    AdapterRely tempDir j s g { s with processes := s.processes ++ [child] }
      (g.start s.processes.length i hosted) := by
  refine { AdapterRely.refl tempDir with
    hosts := ?_, processes := ?_, children := ?_, starters := ?_, files := fun _ _ _ _ => rfl }
  · intro pid
    cases hosted with
    | false => exact Iff.rfl
    | true =>
      refine update_some_iff.trans ⟨fun hs => hs.elim (fun hs => absurd hs.2.symm hj) And.right,
        fun hs => .inr ⟨?_, hs⟩⟩
      exact Nat.ne_of_lt (hI.started pid j (hI.hosts pid j hs))
  · intro pid hpid
    exact List.getElem?_append_left (hI.started pid j (hI.hosts pid j hpid))
  · rw [List.length_append]
    exact Nat.le_add_right _ _
  · intro pid j' hpid
    rcases update_some_iff.mp hpid with ⟨rfl, rfl⟩ | ⟨-, hpid⟩
    · exact .inr ⟨Nat.le_refl _, Ne.symm hj⟩
    · exact .inl hpid

theorem Holds.spawn {pipes : Pipes} (hI : AdapterInvariant tempDir files s g)
    (h : Holds tempDir i op x s g) (hexec : op.executes = true) (hnone : x.process = none) :
    Moves tempDir files i s g { s with processes := s.processes ++ [⟨command, pipes, .running⟩] }
      (Holds tempDir i op { x with process := some (s.processes.length, command) }) := by
  refine ⟨g.start s.processes.length i true, hI.start h.mine hexec (.inl rfl),
    fun j hj => hI.rely_start hj, { h with hosts := ?_, process := ?_ }⟩
  · intro pid
    refine update_some_iff.trans ?_
    rw [h.hosts pid, hnone]
    constructor
    · rintro (⟨rfl, -⟩ | ⟨-, command', hs⟩)
      · exact ⟨command, rfl⟩
      · cases hs
    · rintro ⟨command', hs⟩
      exact .inl ⟨(Prod.mk.inj (Option.some.inj hs)).1.symm, rfl⟩
  · intro pid command' hs
    obtain ⟨rfl, rfl⟩ := Prod.mk.inj (Option.some.inj hs)
    exact ⟨pipes, by simp⟩

theorem Holds.spawnUnpiped {pipes : Pipes} (hI : AdapterInvariant tempDir files s g)
    (h : Holds tempDir i op x s g) (hexec : op.executes = true) (hacp : op.key.1 = .localAcp)
    (hpipes : (pipes.stdin && pipes.stdout) = false) :
    Moves tempDir files i s g { s with processes := s.processes ++ [⟨command, pipes, .running⟩] }
      (Holds tempDir i op x) := by
  refine ⟨g.start s.processes.length i false,
    hI.start h.mine hexec (.inr ⟨op, h.mine, hacp, hpipes⟩), fun j hj => hI.rely_start hj,
    { h with process := ?_ }⟩
  intro pid command' hprocess
  have hhost := (h.hosts pid).mpr ⟨command', hprocess⟩
  rw [List.getElem?_append_left (hI.started pid i (hI.hosts pid i hhost))]
  exact h.process pid command' hprocess

theorem Holds.releaseProcess {processes : List Process}
    (hI : AdapterInvariant tempDir files s g) (h : Holds tempDir i op x s g)
    (hprocess : x.process = some (pid, command)) (hlength : processes.length = s.processes.length)
    (hsame : ∀ pid', pid' ≠ pid → processes[pid']? = s.processes[pid']?)
    (hreleased : ∀ child, processes[pid]? = some child → child.state ≠ .running) :
    Moves tempDir files i s g { s with processes := processes }
      (Holds tempDir i op { x with process := none }) := by
  have hhost := (h.hosts pid).mpr ⟨command, hprocess⟩
  refine ⟨{ g with host := Function.update g.host pid none },
    { hI with hosts := ?_, started := ?_, processes := ?_ },
    fun j hj => { AdapterRely.refl tempDir with
      hosts := ?_, processes := ?_, children := ?_, files := fun _ _ _ _ => rfl },
    { h with hosts := ?_, process := ?_ }⟩
  · intro pid' j hpid
    exact hI.hosts pid' j (update_none_iff.mp hpid).2
  · intro pid' j hpid
    rw [hlength]
    exact hI.started pid' j hpid
  · intro pid' child hchild hrunning
    by_cases heq : pid' = pid
    · subst heq
      exact absurd hrunning (hreleased child hchild)
    · rw [hsame pid' heq] at hchild
      rcases hI.processes pid' child hchild hrunning with ⟨j, hj⟩ | habandoned
      · exact .inl ⟨j, update_none_iff.mpr ⟨heq, hj⟩⟩
      · exact .inr habandoned
  · intro pid'
    rw [update_none_iff]
    refine ⟨And.right, fun hs => ⟨?_, hs⟩⟩
    rintro rfl
    exact hj (Option.some.inj (hhost.symm.trans hs)).symm
  · intro pid' hpid
    refine hsame pid' ?_
    rintro rfl
    exact hj (Option.some.inj (hhost.symm.trans hpid)).symm
  · exact Nat.le_of_eq hlength.symm
  · intro pid'
    rw [update_none_iff, h.hosts pid', hprocess]
    constructor
    · rintro ⟨hne, command', hs⟩
      exact absurd (Prod.mk.inj (Option.some.inj hs)).1.symm hne
    · rintro ⟨command', hs⟩
      cases hs
  · intro pid' command' hs
    cases hs

theorem Holds.setProcess {state : ProcessState} (hI : AdapterInvariant tempDir files s g)
    (h : Holds tempDir i op x s g) (hprocess : x.process = some (pid, command))
    (hstate : state ≠ .running) :
    Moves tempDir files i s g (s.setProcess pid state)
      (Holds tempDir i op { x with process := none }) := by
  refine h.releaseProcess hI hprocess (List.length_modify _ _ _) (fun pid' hne => ?_) ?_
  · simp [Ne.symm hne]
  · intro child hchild
    rw [List.getElem?_modify] at hchild
    obtain ⟨old, -, rfl⟩ := Option.map_eq_some_iff.mp hchild
    simpa using hstate

end Effects

section Cancellations

variable {tempDir : String} {files : String → Option String} {i channel : ℕ}
  {op : AdapterOp} {s s' : AdapterState} {g g' : Ledger} {taken : Option ℕ} {sender : Sender}

/-- What a cancellation has in hand: the channel whose sender it took, and what became of it. -/
structure Asks (i : ℕ) (op : AdapterOp) (taken : Option ℕ) (sender : Sender) (s : AdapterState)
    (g : Ledger) : Prop where
  mine : g.op i = some op
  channels : ∀ c < s.cancellations.next, g.owner c ≠ i
  took : ∀ c, g.takenBy c = some i ↔ taken = some c
  used : ∀ c, taken = some c → s.cancellations.sender c = sender
  prompts : ∀ n, g.writer n ≠ some i
  hosts : ∀ pid, g.host pid ≠ some i

theorem Asks.rely (h : Asks i op taken sender s g) (hr : AdapterRely tempDir i s g s' g') :
    Asks i op taken sender s' g' where
  mine := hr.op.trans h.mine
  channels c hlt howner :=
    have hmine := (hr.channels c).mp ⟨hlt, howner⟩
    h.channels c hmine.1 hmine.2
  took c := (hr.taken c).trans (h.took c)
  used c hc := (hr.senders c ((h.took c).mpr hc)).trans (h.used c hc)
  prompts n hn := h.prompts n ((hr.writers n).mp hn)
  hosts pid hpid := h.hosts pid ((hr.hosts pid).mp hpid)

theorem stable_asks : Stable (adapterDiscipline tempDir files) i (Asks i op taken sender) :=
  fun _ _ _ _ _ _ hr h => h.rely hr

theorem Asks.takeSender (hI : AdapterInvariant tempDir files s g)
    (h : Asks i op none sender s g) (hcancel : op.executes = false) :
    Moves tempDir files i s g { s with cancellations := (s.cancellations.take op.key).2 }
      (Asks i op (s.cancellations.entry op.key) .held) := by
  cases hentry : s.cancellations.entry op.key with
  | none =>
    have hsame : (s.cancellations.take op.key).2 = s.cancellations := by
      rw [Table.take, ← hentry, Function.update_eq_self]
    rw [hsame]
    exact moves_quiet hI { h with used := fun c hc => (by cases hc) }
  | some c =>
    have hfree : ∀ j, g.takenBy c ≠ some j :=
      fun j hj => (hI.taken c j hj).2.2 op.key hentry
    have hmine : ∀ c', g.takenBy c' ≠ some i := by
      intro c' hc'
      cases (h.took c').mp hc'
    refine ⟨{ g with takenBy := Function.update g.takenBy c (some i) },
      { hI with sound := hI.sound.take op.key, caused := ?_, taken := ?_, takenOnce := ?_ },
      fun j hj => { AdapterRely.refl tempDir with
        entries := ?_, sent := ?_, taken := ?_, files := fun _ _ _ _ => rfl },
      { h with took := ?_, used := ?_ }⟩
    · intro c' hlt hready
      refine (hI.caused c' hlt hready).imp_right (Or.imp_left ?_)
      rintro ⟨j, hj, hsent⟩
      refine ⟨j, update_some_iff.mpr (.inr ⟨?_, hj⟩), hsent⟩
      rintro rfl
      exact hfree j hj
    · intro c' j hj
      rcases update_some_iff.mp hj with ⟨rfl, rfl⟩ | ⟨-, hj⟩
      · refine ⟨hI.sound.next op.key c' hentry,
          ⟨op, h.mine, hcancel, (hI.sound.key op.key c' hentry).symm⟩, fun k hk => ?_⟩
        obtain ⟨hne, hk⟩ := update_none_iff.mp hk
        exact hne ((hI.sound.key k c' hk).symm.trans (hI.sound.key op.key c' hentry))
      · obtain ⟨hlt, hcancels, hunlisted⟩ := hI.taken c' j hj
        exact ⟨hlt, hcancels, fun k hk => hunlisted k (update_none_iff.mp hk).2⟩
    · intro c₁ c₂ j h₁ h₂
      rcases update_some_iff.mp h₁ with ⟨hc₁, rfl⟩ | ⟨-, hold₁⟩ <;>
        rcases update_some_iff.mp h₂ with ⟨hc₂, hj⟩ | ⟨-, hold₂⟩
      · exact hc₁.trans hc₂.symm
      · exact absurd hold₂ (hmine c₂)
      · exact absurd hold₁ (hj ▸ hmine c₁)
      · exact hI.takenOnce c₁ c₂ j hold₁ hold₂
    · intro c' _ _ k hk
      exact (update_none_iff.mp hk).2
    · intro c' j' hj' hsent
      refine ⟨update_some_iff.mpr (.inr ⟨?_, hj'⟩), hsent⟩
      rintro rfl
      exact hfree j' hj'
    · intro c'
      rw [update_some_iff]
      refine ⟨fun hs => hs.elim (fun hs => absurd hs.2.symm hj) And.right,
        fun hs => .inr ⟨?_, hs⟩⟩
      rintro rfl
      exact hfree j hs
    · intro c'
      rw [update_some_iff]
      constructor
      · rintro (⟨rfl, -⟩ | ⟨-, hc'⟩)
        · rfl
        · exact absurd hc' (hmine c')
      · intro hs
        exact .inl ⟨(Option.some.inj hs).symm, rfl⟩
    · intro c' hs
      obtain rfl := Option.some.inj hs
      exact hI.sound.held op.key c hentry

theorem Asks.send (hI : AdapterInvariant tempDir files s g)
    (h : Asks i op (some channel) .held s g) :
    Moves tempDir files i s g { s with cancellations := (s.cancellations.send channel).2 }
      (Asks i op (some channel)
        (if s.cancellations.receiving channel then .sent else .dropped)) := by
  have hmine := (h.took channel).mpr rfl
  have hheld := h.used channel rfl
  have hkept : ∀ c, c ≠ channel →
      (s.cancellations.send channel).2.sender c = s.cancellations.sender c :=
    fun c hne => Function.update_of_ne hne _ _
  refine ⟨g, { hI with
      sound := hI.sound.send (hI.taken channel i hmine).2.2, caused := ?_ },
    fun j hj => { AdapterRely.refl tempDir with
      sent := ?_, senders := ?_, files := fun _ _ _ _ => rfl },
    { h with used := ?_ }⟩
  · intro c hlt hready
    by_cases heq : c = channel
    · subst heq
      by_cases hreceiving : s.cancellations.receiving c = true
      · exact .inr (.inl ⟨i, hmine, by simp [Table.send, hreceiving]⟩)
      · exact .inl (hI.closed c hlt (Bool.eq_false_iff.mpr hreceiving))
    · simp only [hkept c heq] at hready ⊢
      exact hI.caused c hlt hready
  · intro c j' hc hsent
    refine ⟨hc, (hkept c ?_).trans hsent⟩
    rintro rfl
    rw [hheld] at hsent
    cases hsent
  · intro c hc
    refine hkept c ?_
    rintro rfl
    exact hj (Option.some.inj (hmine.symm.trans hc)).symm
  · intro c hc
    obtain rfl := Option.some.inj hc
    exact Function.update_self _ _ _

end Cancellations

section Start

variable {tempDir : String} {files : String → Option String} {i : ℕ} {op : AdapterOp}
  {s : AdapterState} {g : Ledger}

theorem starts_thread (hI : AdapterInvariant tempDir files s g) (hnone : g.op i = none)
    (op : AdapterOp) : ∃ g', AdapterInvariant tempDir files s g' ∧ g'.op i = some op ∧
      (∀ j, j ≠ i → g'.op j = g.op j) ∧ (∀ j, j ≠ i → AdapterRely tempDir j s g s g') ∧
      (∀ c < s.cancellations.next, g'.owner c ≠ i) ∧ (∀ c, g'.takenBy c ≠ some i) ∧
      (∀ n, g'.writer n ≠ some i) ∧ ∀ pid, g'.host pid ≠ some i := by
  have hold : ∀ j op', g.op j = some op' → j ≠ i := by
    rintro j op' hop rfl
    rw [hnone] at hop
    cases hop
  have hkept : ∀ j op', g.op j = some op' → Function.update g.op i (some op) j = some op' := by
    intro j op' hop
    rwa [Function.update_of_ne (hold j op' hop)]
  have hstays : ∀ j, (∃ op', g.op j = some op' ∧ op'.executes = true) →
      ∃ op', Function.update g.op i (some op) j = some op' ∧ op'.executes = true := by
    rintro j ⟨op', hop, hexec⟩
    exact ⟨op', hkept j op' hop, hexec⟩
  refine ⟨{ g with op := Function.update g.op i (some op) },
    { hI with
      channels := ?_, caused := ?_, taken := ?_, prompts := ?_, writerOps := ?_, starterOps := ?_,
      processes := ?_ },
    Function.update_self _ _ _, fun j hj => Function.update_of_ne hj _ _,
    fun j hj => { AdapterRely.refl tempDir with
      ops := hkept, op := Function.update_of_ne hj _ _ }, ?_, ?_, ?_, ?_⟩
  · intro c hlt
    obtain ⟨op', hop, hexec⟩ := hI.channels c hlt
    exact ⟨op', hkept _ op' hop, hexec⟩
  · intro c hlt hready
    refine (hI.caused c hlt hready).imp_right (Or.imp_right ?_)
    rintro ⟨j, hne, op', hop, hexec⟩
    exact ⟨j, hne, op', hkept j op' hop, hexec⟩
  · intro c j hc
    obtain ⟨hlt, ⟨op', hop, hcancel⟩, hunlisted⟩ := hI.taken c j hc
    exact ⟨hlt, ⟨op', hkept j op' hop, hcancel⟩, hunlisted⟩
  · exact fun n j hn => hstays j (hI.writerOps n j hn)
  · intro path
    rcases hI.prompts path with hp | hp | hp | ⟨n, j, op', hn, hop, hpath⟩
    · exact .inl hp
    · exact .inr (.inl hp)
    · exact .inr (.inr (.inl hp))
    · exact .inr (.inr (.inr ⟨n, j, op', hn, hkept j op' hop, hpath⟩))
  · exact fun pid j hpid => hstays j (hI.starterOps pid j hpid)
  · intro pid child hchild hrunning
    refine (hI.processes pid child hchild hrunning).imp_right ?_
    rintro ⟨j, hj, op', hop, habandons⟩
    exact ⟨j, hj, op', hkept j op' hop, habandons⟩
  · intro c hlt
    obtain ⟨op', hop, -⟩ := hI.channels c hlt
    exact hold _ op' hop
  · intro c hc
    obtain ⟨-, ⟨op', hop, -⟩, -⟩ := hI.taken c i hc
    exact hold i op' hop rfl
  · intro n hn
    obtain ⟨op', hop, -⟩ := hI.writerOps n i hn
    exact hold i op' hop rfl
  · intro pid hpid
    obtain ⟨op', hop, -⟩ := hI.starterOps pid i (hI.hosts pid i hpid)
    exact hold i op' hop rfl

end Start

end OpenDaemon
