import OpenDaemon.DetectedRuntimes
import OpenDaemon.PoolRefinement

/-!
# Detections at once

The table of the runtimes holds, for each provider, what was saved of it last, and only
what a probe has found is saved. A history beside the table keeps everything that was
saved, in order. An answer shows the table of one moment between the start of the call and
its end; the answer to a detection shows no provider as it was before; and an execution
is given only programs that a probe of its provider has located.
-/

namespace OpenDaemon

open Runs Interleaving Call LatestEntries RuntimeDetection

/-- The table with everything that was ever saved. -/
structure RuntimeHistory where
  store : RuntimeStore
  saved : List DetectedRuntime

namespace RuntimeStep

def saves : RuntimeStep → List DetectedRuntime
  | .saveAll runtimes => runtimes
  | _ => []

def execRecorded (dir : String) (environment : RuntimeEnvironment) (q : RuntimeStep)
    (input : Input) (s : RuntimeHistory) : q.Answer × RuntimeHistory :=
  ((q.exec dir environment input s.store).1,
    ⟨(q.exec dir environment input s.store).2, s.saved ++ q.saves⟩)

end RuntimeStep

abbrev HistoryPool : Type :=
  Pool RuntimeHistory RuntimeStep.Answer RuntimeFailure RuntimeOp.Result

def historyStep (dir : String) (environment : RuntimeEnvironment) :
    HistoryPool → RuntimeAction → Option HistoryPool :=
  step RuntimeOp.program (RuntimeStep.execRecorded dir environment)

def startHistory : HistoryPool := ⟨⟨⟨[]⟩, []⟩, []⟩

def RuntimeHistory.Table (s : RuntimeHistory) : Prop :=
  LatestEntries.Holds (fun r => r.providerId) s.saved s.store.runtimes

/-- What a probe of a supported provider has found, on some host. -/
def Detected (environment : RuntimeEnvironment) (view : DetectedRuntime) : Prop :=
  ∃ host provider, provider.isSupported = true ∧
    detectProvider host environment provider = some view

def Loads (dir : String) (providers : List ProbedManifest) : Prop :=
  ∃ input, RuntimeStep.loadedManifests dir input = .ok providers

def ProbedEach (environment : RuntimeEnvironment) : List ProbedManifest →
    List DetectedRuntime → Prop :=
  List.Forall₂ fun provider view => ∃ host, detectProvider host environment provider = some view

/-- One probe of each supported provider, in any order. -/
def Probed (environment : RuntimeEnvironment) (providers : List ProbedManifest)
    (own : List DetectedRuntime) : Prop :=
  ∃ runtimes, ProbedEach environment (providers.filter ProbedManifest.isSupported) runtimes ∧
    own.Perm runtimes

/-- One entry for each supported provider: what was saved of it last, if anything was. -/
structure Listed (providers : List ProbedManifest) (saved answer : List DetectedRuntime) :
    Prop where
  ordered : Ordered (fun r => r.providerId) answer
  mem_iff : ∀ view, view ∈ answer ↔ ∃ provider ∈ providers, provider.isSupported = true ∧
    view = (latest (fun r => r.providerId) saved provider.id).getD
      (.notDetectedWithKind provider.id provider.integrationType.runtimeKind)

/-- A probe of the provider has located the program, which reported its version if it had to. -/
def Launchable (environment : RuntimeEnvironment) (providerId : String)
    (integrationType : IntegrationType) (executable : String) : Prop :=
  ∃ host provider version, provider.id = providerId ∧
    provider.integrationType = integrationType ∧
    Located host environment provider executable ∧
    Reports host environment provider executable version

/-- What a call returns that was started when `saved` was saved, and ends when `saved'` is. -/
def Answered (dir : String) (environment : RuntimeEnvironment)
    (saved saved' : List DetectedRuntime) : (op : RuntimeOp) → op.Result → Prop
  | .list _, answer => ∃ providers later, Loads dir providers ∧ saved ++ later <+: saved' ∧
      Listed providers (saved ++ later) answer
  | .detect _, answer => ∃ providers before own after, Loads dir providers ∧
      Probed environment providers own ∧ saved ++ before ++ own ++ after <+: saved' ∧
      Listed providers (saved ++ before ++ own ++ after) answer ∧
      ∀ view ∈ answer, view ∈ own ++ after
  | .selectExecutable providerId manifest, executable => ∃ later view,
      saved ++ later <+: saved' ∧
      latest (fun r => r.providerId) (saved ++ later) providerId = some view ∧
      runtimeAvailable view.toRuntimeView manifest.integrationType = true ∧
      view.executable = some executable

section Probes
variable {host : DetectionHost} {environment : RuntimeEnvironment} {provider : ProbedManifest}

theorem detectProvider_cases {view : DetectedRuntime}
    (h : detectProvider host environment provider = some view) :
    (∃ executable version, view = .availableWithKind provider.id
      provider.integrationType.runtimeKind host.now executable version) ∨
    view.providerId = provider.id ∧ view.status ≠ .available := by
  unfold detectProvider at h
  cases htype : provider.integrationType with
  | cli =>
    simp only [htype, detectCliProvider] at h
    split at h
    · rename_i error _
      obtain rfl := Option.some.inj h
      cases error <;> exact .inr ⟨rfl, nofun⟩
    · split at h
      · obtain rfl := Option.some.inj h
        exact .inl ⟨_, _, rfl⟩
      · obtain ⟨probe, -, rfl⟩ := Option.map_eq_some_iff.mp h
        cases probe with
        | ok version => exact .inl ⟨_, _, rfl⟩
        | error error => exact .inr ⟨rfl, nofun⟩
  | acp =>
    simp only [htype, Option.some.injEq] at h
    subst h
    unfold Acp.detectAcpProvider
    split
    · exact .inr ⟨rfl, nofun⟩
    · split
      · split
        · exact .inr ⟨rfl, nofun⟩
        · split
          · exact .inl ⟨_, _, rfl⟩
          · exact .inr ⟨rfl, nofun⟩
      · split
        · exact .inl ⟨_, _, rfl⟩
        · exact .inr ⟨rfl, nofun⟩
  | http =>
    simp only [htype, Option.some.injEq] at h
    subst h
    unfold detectHttpProvider
    split
    · exact .inr ⟨rfl, nofun⟩
    · split
      · exact .inr ⟨rfl, nofun⟩
      · exact .inl ⟨_, _, rfl⟩
  | native =>
    simp only [htype, Option.some.injEq] at h
    subst h
    exact .inr ⟨rfl, nofun⟩

theorem detectProvider_providerId {view : DetectedRuntime}
    (h : detectProvider host environment provider = some view) : view.providerId = provider.id := by
  obtain ⟨executable, version, rfl⟩ | ⟨hid, -⟩ := detectProvider_cases h
  · rfl
  · exact hid

theorem integrationType_of_available {view : RuntimeView} {integrationType : IntegrationType}
    (hsupported : provider.isSupported = true)
    (hkind : view.kind = provider.integrationType.runtimeKind)
    (h : runtimeAvailable view integrationType = true) :
    provider.integrationType = integrationType := by
  unfold ProbedManifest.isSupported at hsupported
  unfold runtimeAvailable at h
  split at h
  · cases h
  · cases htype : provider.integrationType <;> cases integrationType <;>
      simp_all [IntegrationType.runtimeKind]

theorem status_of_runtimeAvailable {view : RuntimeView} {integrationType : IntegrationType}
    (h : runtimeAvailable view integrationType = true) : view.status = .available := by
  unfold runtimeAvailable at h
  by_contra hne
  rw [if_pos hne] at h
  cases h

theorem Detected.launchable {view : DetectedRuntime} (h : Detected environment view)
    {integrationType : IntegrationType} {executable : String}
    (havailable : runtimeAvailable view.toRuntimeView integrationType = true)
    (hexecutable : view.executable = some executable) :
    Launchable environment view.providerId integrationType executable := by
  obtain ⟨host, provider, hsupported, hdetect⟩ := h
  obtain ⟨executable', version, rfl⟩ | ⟨-, hstatus⟩ := detectProvider_cases hdetect
  · obtain rfl : executable' = executable := Option.some.inj hexecutable
    obtain ⟨hlocated, hreports⟩ := detectProvider_eq_available_iff.mp hdetect
    exact ⟨host, provider, version, rfl,
      integrationType_of_available hsupported rfl havailable, hlocated, hreports⟩
  · exact absurd (status_of_runtimeAvailable havailable) hstatus

end Probes

section Table
variable {dir : String} {environment : RuntimeEnvironment} {q : RuntimeStep}
  {input : RuntimeStep.Input} {s : RuntimeHistory} {providers : List ProbedManifest}
  {saved own answer : List DetectedRuntime}

theorem RuntimeStore.runtimes_saveAll (s : RuntimeStore) (runtimes : List DetectedRuntime) :
    (s.saveAll runtimes).runtimes =
      runtimes.foldl (upsert fun r => r.providerId) s.runtimes := by
  unfold RuntimeStore.saveAll
  induction runtimes generalizing s with
  | nil => rfl
  | cons runtime runtimes ih => exact ih (s.save runtime)

theorem RuntimeHistory.Table.exec (h : s.Table) :
    (q.execRecorded dir environment input s).2.Table := by
  cases q with
  | saveAll runtimes =>
    have hfold := h.foldl runtimes
    rw [← RuntimeStore.runtimes_saveAll] at hfold
    exact hfold
  | loadRegistry | probe | listForProviders | get =>
    change LatestEntries.Holds _ (s.saved ++ []) s.store.runtimes
    rw [List.append_nil]
    exact h

theorem RuntimeHistory.Table.get (h : s.Table) (providerId : String) :
    s.store.get providerId = latest (fun r => r.providerId) s.saved providerId :=
  h.find?_eq providerId

theorem saved_prefix : s.saved <+: (q.execRecorded dir environment input s).2.saved :=
  List.prefix_append _ _

theorem nodup_of_loads (h : Loads dir providers) :
    (providers.map fun provider => provider.id).Nodup := by
  obtain ⟨input, h⟩ := h
  unfold RuntimeStep.loadedManifests at h
  cases hload : loadRegistryFromDir dir input.listing with
  | error error =>
    rw [hload] at h
    cases h
  | ok entries =>
    rw [hload] at h
    obtain rfl := Except.ok.inj h
    simpa [Function.comp_def] using nodup_of_loadRegistryFromDir hload

theorem providerId_getD (provider : ProbedManifest) (kind : RuntimeKind) :
    ((latest (fun r => r.providerId) saved provider.id).getD
      (.notDetectedWithKind provider.id kind)).providerId = provider.id := by
  cases hlatest : latest (fun r => r.providerId) saved provider.id with
  | none => rfl
  | some view => exact (latest_eq_some_iff.mp hlatest).1

theorem listed_listForProviders (h : s.Table) (hloads : Loads dir providers) :
    Listed providers s.saved (s.store.listForProviders providers) := by
  unfold RuntimeStore.listForProviders
  simp only [h.get]
  constructor
  · refine ordered_sortByKey ?_
    simp only [List.map_map, Function.comp_def, providerId_getD]
    exact (List.filter_sublist.map _).nodup (nodup_of_loads hloads)
  · intro view
    rw [mem_sortByKey, List.mem_map]
    simp only [List.mem_filter, and_assoc, eq_comm]

theorem ProbedEach.exists_mem {runtimes : List DetectedRuntime} {provider : ProbedManifest}
    (h : ProbedEach environment providers runtimes) (hmem : provider ∈ providers) :
    ∃ view ∈ runtimes, view.providerId = provider.id := by
  induction h with
  | nil => cases hmem
  | @cons _ view _ _ hview _ ih =>
    obtain ⟨host, hview⟩ := hview
    rcases List.mem_cons.mp hmem with rfl | hmem
    · exact ⟨view, List.mem_cons_self, detectProvider_providerId hview⟩
    · obtain ⟨view', hview', hid⟩ := ih hmem
      exact ⟨view', List.mem_cons_of_mem _ hview', hid⟩

theorem ProbedEach.exists_provider {runtimes : List DetectedRuntime} {view : DetectedRuntime}
    (h : ProbedEach environment providers runtimes) (hmem : view ∈ runtimes) :
    ∃ host, ∃ provider ∈ providers, detectProvider host environment provider = some view := by
  induction h with
  | nil => cases hmem
  | cons hview _ ih =>
    rcases List.mem_cons.mp hmem with rfl | hmem
    · obtain ⟨host, heq⟩ := hview
      exact ⟨host, _, List.mem_cons_self, heq⟩
    · obtain ⟨host, provider, hprovider, heq⟩ := ih hmem
      exact ⟨host, provider, List.mem_cons_of_mem _ hprovider, heq⟩

theorem Probed.detected (h : Probed environment providers own) :
    ∀ view ∈ own, Detected environment view := by
  intro view hview
  obtain ⟨runtimes, hprobed, hperm⟩ := h
  obtain ⟨host, provider, hprovider, hdetect⟩ :=
    hprobed.exists_provider (hperm.mem_iff.mp hview)
  exact ⟨host, provider, (List.mem_filter.mp hprovider).2, hdetect⟩

/-- Where every provider has been probed, the table shows no older entry. -/
theorem Listed.fresh {after : List DetectedRuntime}
    (h : Listed providers (saved ++ own ++ after) answer)
    (hprobed : Probed environment providers own) : ∀ view ∈ answer, view ∈ own ++ after := by
  intro view hview
  obtain ⟨runtimes, hruntimes, hperm⟩ := hprobed
  obtain ⟨provider, hprovider, hsupported, rfl⟩ := (h.mem_iff view).mp hview
  obtain ⟨probed, hmem, hid⟩ :=
    hruntimes.exists_mem (List.mem_filter.mpr ⟨hprovider, hsupported⟩)
  have hown : probed ∈ own ++ after := List.mem_append_left after (hperm.mem_iff.mpr hmem)
  obtain ⟨entry, hentry⟩ : ∃ entry, latest (fun r => r.providerId) (own ++ after)
      probed.providerId = some entry := exists_latest hown
  rw [hid] at hentry
  rw [List.append_assoc, latest_append, hentry]
  exact mem_of_latest hentry

end Table

namespace RuntimeThreads

def discipline (base : List DetectedRuntime) :
    Discipline RuntimeStep RuntimeOp RuntimeHistory Unit where
  inv s _ := s.Table ∧ base <+: s.saved
  rely _ s _ s' _ := s.saved <+: s'.saved
  admits _ := True
  guard _ _ _ := True
  needs _ _ _ _ _ := True

def contract (environment : RuntimeEnvironment) : Contract RuntimeStep RuntimeStep.Answer where
  allowed q := ∀ view ∈ q.saves, Detected environment view
  trusted
    | .probe provider, view => ∃ host, detectProvider host environment provider = view
    | _, _ => True

variable {dir : String} {environment : RuntimeEnvironment} {base : List DetectedRuntime}
  {op : RuntimeOp} {i : ℕ} {α β : Type}
  {P : RuntimeHistory → Prop} {Q : α → RuntimeHistory → Prop}

theorem trusted_exec (q : RuntimeStep) (input : RuntimeStep.Input) (s : RuntimeHistory) :
    (contract environment).trusted q (q.execRecorded dir environment input s).1 := by
  cases q with
  | probe provider => exact ⟨input.host, rfl⟩
  | loadRegistry | saveAll | listForProviders | get => trivial

section Contract

theorem keeps_detectEach (providers : List ProbedManifest) :
    (detectEach providers).Keeps (contract environment) (ProbedEach environment providers) := by
  induction providers with
  | nil => exact List.Forall₂.nil
  | cons provider providers ih =>
    refine ⟨fun view hview => absurd hview List.not_mem_nil, fun answer hanswer => ?_⟩
    cases answer with
    | none => trivial
    | some view =>
      have hrest : (detectEach providers >>= fun runtimes => Call.ret (view :: runtimes)).Keeps
          (contract environment) (ProbedEach environment (provider :: providers)) :=
        keeps_bind ih fun runtimes hruntimes => List.Forall₂.cons hanswer hruntimes
      exact hrest

theorem keeps_detectProviders (providers : List ProbedManifest) :
    (detectProviders providers).Keeps (contract environment) (Probed environment providers) :=
  keeps_bind (keeps_detectEach _) fun runtimes hruntimes =>
    ⟨runtimes, hruntimes, sortByKey_perm runtimes⟩

theorem allowed_of_quiet {q : RuntimeStep} (h : q.saves = []) :
    (contract environment).allowed q := by
  intro view hview
  rw [h] at hview
  cases hview

theorem keeps_loadProviderManifests :
    RuntimesApi.loadProviderManifests.Keeps (contract environment) fun _ => True := by
  refine ⟨allowed_of_quiet rfl, fun answer _ => ?_⟩
  cases answer <;> trivial

theorem keeps_program (op : RuntimeOp) :
    op.program.Keeps (contract environment) fun _ => True := by
  cases op with
  | list auth =>
    exact keeps_checkError fun _ _ => keeps_bind keeps_loadProviderManifests fun providers _ =>
      ⟨allowed_of_quiet rfl, fun _ _ => trivial⟩
  | detect auth =>
    exact keeps_checkError fun _ _ => keeps_bind keeps_loadProviderManifests fun providers _ =>
      keeps_bind (keeps_detectProviders providers) fun own hown =>
        ⟨hown.detected, fun _ _ => ⟨allowed_of_quiet rfl, fun _ _ => trivial⟩⟩
  | selectExecutable providerId manifest =>
    refine ⟨allowed_of_quiet rfl, fun answer _ => ?_⟩
    simp only [Call.andThen]
    split
    · rename_i runtime _
      cases ExecutionService.getExecutable runtime <;> trivial
    · trivial

theorem detected_of_reaches {p : HistoryPool}
    (h : Reaches (historyStep dir environment) (fun _ _ => True) startHistory p) :
    ∀ view ∈ p.shared.saved, Detected environment view := by
  have hkept : ∀ (op : RuntimeOp), True → ∀ q, (contract environment).allowed q →
      ∀ input (s : RuntimeHistory), (∀ view ∈ s.saved, Detected environment view) →
      ∀ view ∈ (q.execRecorded dir environment input s).2.saved, Detected environment view :=
    fun _ _ _ hq _ _ hs => List.forall_mem_append.mpr ⟨hs, hq⟩
  exact invariant_of_keeps (fun op _ => keeps_program op)
    (fun q input s _ => trusted_exec q input s) hkept (by simp) (h.mono fun _ _ _ _ _ => trivial)

end Contract

section Answers

def Lasting (P : RuntimeHistory → Prop) : Prop := ∀ s s', s.saved <+: s'.saved → P s → P s'

def Post (Q : α → RuntimeHistory → Prop) :
    Except RuntimeFailure α → RuntimeHistory → Unit → Prop
  | .ok a, s, _ => Q a s
  | .error _, _, _ => True

def Checked (dir : String) (environment : RuntimeEnvironment) (base : List DetectedRuntime)
    (op : RuntimeOp) (i : ℕ) (P : RuntimeHistory → Prop) (c : RuntimeCall α)
    (Q : α → RuntimeHistory → Prop) : Prop :=
  Safe (discipline base) (RuntimeStep.execRecorded dir environment) op i c (fun s _ => P s)
    (Post Q)

theorem Lasting.stable (h : Lasting P) : Stable (discipline base) i fun s _ => P s :=
  fun s _ s' _ _ _ hr hp => h s s' hr hp

theorem inv_exec {q : RuntimeStep} {input : RuntimeStep.Input} {s : RuntimeHistory}
    (h : s.Table ∧ base <+: s.saved) :
    (q.execRecorded dir environment input s).2.Table ∧
      base <+: (q.execRecorded dir environment input s).2.saved :=
  ⟨h.1.exec, h.2.trans saved_prefix⟩

theorem checked_step {q : RuntimeStep} {k : q.Answer → RuntimeCall α}
    (Q' : q.Answer → RuntimeHistory → Prop) (lasting : ∀ answer, Lasting (Q' answer))
    (answers : ∀ input s, s.Table → base <+: s.saved → P s →
      Q' (q.execRecorded dir environment input s).1 (q.execRecorded dir environment input s).2)
    (next : ∀ answer, Checked dir environment base op i (Q' answer) (k answer) Q) :
    Checked dir environment base op i P (.step q k) Q := by
  refine safe_step (fun answer s _ => Q' answer s) (fun answer => (lasting answer).stable)
    (fun _ _ _ _ => trivial) (fun s g input hI hp _ => ?_) next
  exact ⟨g, inv_exec hI, fun _ _ => saved_prefix, answers input s hI.1 hI.2 hp⟩

theorem Checked.bind {c : RuntimeCall α} {f : α → RuntimeCall β} {R : β → RuntimeHistory → Prop}
    (hc : Checked dir environment base op i P c Q)
    (hf : ∀ a, Checked dir environment base op i (Q a) (f a) R) :
    Checked dir environment base op i P (c >>= f) R :=
  safe_bind hc hf fun _ _ _ _ _ => trivial

theorem checked_check {r : Except AuthError Unit} {f : Unit → RuntimeCall α}
    (h : Checked dir environment base op i P (f ()) Q) :
    Checked dir environment base op i P (ofExcept (r.mapError .auth) >>= f) Q := by
  cases r with
  | ok _ => exact h
  | error e => exact fun _ _ _ _ => trivial

theorem checked_loadProviderManifests :
    Checked dir environment base op i (fun _ => True) RuntimesApi.loadProviderManifests
      fun providers _ => Loads dir providers := by
  refine checked_step (fun answer _ => ∀ providers, answer = .ok providers → Loads dir providers)
    (fun _ _ _ _ h => h) (fun input s _ _ _ providers h => ⟨input, h⟩) ?_
  intro answer
  cases answer with
  | ok providers => exact fun s _ _ h => h providers rfl
  | error e => exact fun _ _ _ _ => trivial

theorem checked_of_keeps {C : Contract RuntimeStep RuntimeStep.Answer} {post : α → Prop}
    (trusted : ∀ q input s, C.trusted q (RuntimeStep.execRecorded dir environment q input s).1)
    (hP : Lasting P) {c : RuntimeCall α} (hc : c.Keeps C post) :
    Checked dir environment base op i P c fun a s => P s ∧ post a := by
  have hkept : ∀ q input s (g : Unit), (discipline base).inv s g → P s →
      ∃ g', (discipline base).inv (RuntimeStep.execRecorded dir environment q input s).2 g' ∧
        (∀ j, (discipline base).rely j s g
          (RuntimeStep.execRecorded dir environment q input s).2 g') ∧
        P (RuntimeStep.execRecorded dir environment q input s).2 ∧
        C.trusted q (RuntimeStep.execRecorded dir environment q input s).1 :=
    fun q input s g hI hp => ⟨g, inv_exec hI, fun _ => saved_prefix, hP s _ saved_prefix hp,
      trusted q input s⟩
  refine safe_post (safe_of_keeps hP.stable (fun _ _ _ => trivial) hkept hc) fun r s _ _ h => ?_
  cases r with
  | ok a => exact ⟨h.1, h.2 a rfl⟩
  | error e => trivial

theorem lasting_answered (op : RuntimeOp) (answer : op.Result) :
    Lasting fun s => Answered dir environment base s.saved op answer := by
  intro s s' hr h
  cases op with
  | list auth =>
    obtain ⟨providers, later, hloads, hprefix, hlisted⟩ := h
    exact ⟨providers, later, hloads, hprefix.trans hr, hlisted⟩
  | detect auth =>
    obtain ⟨providers, before, own, after, hloads, hprobed, hprefix, hlisted⟩ := h
    exact ⟨providers, before, own, after, hloads, hprobed, hprefix.trans hr, hlisted⟩
  | selectExecutable providerId manifest =>
    obtain ⟨later, view, hprefix, hview⟩ := h
    exact ⟨later, view, hprefix.trans hr, hview⟩

theorem checked_list (auth : AuthContext) :
    Checked dir environment base (.list auth) i (fun _ => True) (RuntimesApi.list auth)
      fun answer s => Answered dir environment base s.saved (.list auth) answer := by
  refine checked_check (checked_loadProviderManifests.bind fun providers => ?_)
  refine checked_step (fun answer s => Answered dir environment base s.saved (.list auth) answer)
    (lasting_answered (.list auth)) ?_ fun answer _ _ _ h => h
  rintro input s htable ⟨later, hlater⟩ hloads
  have hsaved : (RuntimeStep.execRecorded dir environment (.listForProviders providers) input
      s).2.saved = base ++ later := (List.append_nil _).trans hlater.symm
  refine ⟨providers, later, hloads, hsaved ▸ List.prefix_rfl, ?_⟩
  rw [hlater]
  exact listed_listForProviders htable hloads

theorem checked_detect (auth : AuthContext) :
    Checked dir environment base (.detect auth) i (fun _ => True) (RuntimesApi.detect auth)
      fun answer s => Answered dir environment base s.saved (.detect auth) answer := by
  refine checked_check (checked_loadProviderManifests.bind fun providers => ?_)
  refine (checked_of_keeps trusted_exec (fun _ _ _ h => h)
    (keeps_detectProviders providers)).bind fun own => ?_
  refine checked_step (fun _ s => (Loads dir providers ∧ Probed environment providers own) ∧
    ∃ before, base ++ before ++ own <+: s.saved) ?_ ?_ fun _ => ?_
  · rintro _ s s' hr ⟨h, before, hprefix⟩
    exact ⟨h, before, hprefix.trans hr⟩
  · rintro input s - ⟨before, hbefore⟩ h
    refine ⟨h, before, ?_⟩
    rw [hbefore]
    exact List.prefix_rfl
  · refine checked_step
      (fun answer s => Answered dir environment base s.saved (.detect auth) answer)
      (lasting_answered (.detect auth)) ?_ fun answer _ _ _ h => h
    rintro input s htable - ⟨⟨hloads, hprobed⟩, before, after, hafter⟩
    have hsaved : (RuntimeStep.execRecorded dir environment (.listForProviders providers) input
        s).2.saved = base ++ before ++ own ++ after := (List.append_nil _).trans hafter.symm
    have hlisted : Listed providers (base ++ before ++ own ++ after)
        (s.store.listForProviders providers) := by
      rw [hafter]
      exact listed_listForProviders htable hloads
    exact ⟨providers, before, own, after, hloads, hprobed, hsaved ▸ List.prefix_rfl, hlisted,
      hlisted.fresh hprobed⟩

theorem checked_selectExecutable (providerId : String) (manifest : ProviderManifest) :
    Checked dir environment base (.selectExecutable providerId manifest) i (fun _ => True)
      (ExecutionService.selectExecutable providerId manifest) fun executable s =>
        Answered dir environment base s.saved (.selectExecutable providerId manifest)
          executable := by
  refine checked_step (fun answer s => ∀ view, answer = some view → ∃ later,
    base ++ later <+: s.saved ∧
      latest (fun r => r.providerId) (base ++ later) providerId = some view) ?_ ?_ fun answer => ?_
  · intro answer s s' hr h view hview
    obtain ⟨later, hprefix, hlatest⟩ := h view hview
    exact ⟨later, hprefix.trans hr, hlatest⟩
  · rintro input s htable ⟨later, hlater⟩ - view hview
    have hsaved : (RuntimeStep.execRecorded dir environment (.get providerId) input s).2.saved =
        base ++ later := (List.append_nil _).trans hlater.symm
    refine ⟨later, hsaved ▸ List.prefix_rfl, ?_⟩
    rw [hlater, ← htable.get]
    exact hview
  · simp only [Call.andThen]
    split
    · rename_i runtime hruntime
      obtain ⟨hmap, havailable⟩ := Option.filter_eq_some_iff.mp hruntime
      obtain ⟨view, rfl, rfl⟩ := Option.map_eq_some_iff.mp hmap
      cases hexecutable : view.executable with
      | none =>
        simp only [ExecutionService.getExecutable, hexecutable]
        exact fun _ _ _ _ => trivial
      | some executable =>
        simp only [ExecutionService.getExecutable, hexecutable]
        intro s _ _ h
        obtain ⟨later, hprefix, hlatest⟩ := h view rfl
        exact ⟨later, view, hprefix, hlatest, havailable, hexecutable⟩
    · exact fun _ _ _ _ => trivial

theorem checked_program (op : RuntimeOp) :
    Checked dir environment base op i (fun _ => True) op.program
      fun answer s => Answered dir environment base s.saved op answer := by
  cases op with
  | list auth => exact checked_list auth
  | detect auth => exact checked_detect auth
  | selectExecutable providerId manifest => exact checked_selectExecutable providerId manifest

end Answers

end RuntimeThreads

/-- Runs of the pool with its history to `q` and on to `q'`. -/
structure RecordedRun (dir : String) (environment : RuntimeEnvironment) (q q' : HistoryPool) :
    Prop where
  start : Reaches (historyStep dir environment) (fun _ _ => True) startHistory q
  later : Reaches (historyStep dir environment) (fun _ _ => True) q q'

structure RuntimesKnown (dir : String) (environment : RuntimeEnvironment) (q q' : HistoryPool) :
    Prop where
  table : q'.shared.Table
  detected : ∀ view ∈ q'.shared.saved, Detected environment view
  answered : ∀ (i : ℕ) op answer, q.threads.length ≤ i →
    q'.threads[i]? = some ⟨op, .ret answer⟩ →
      Answered dir environment q.shared.saved q'.shared.saved op answer
  launchable : ∀ (i : ℕ) providerId manifest executable,
    q'.threads[i]? = some ⟨.selectExecutable providerId manifest, .ret executable⟩ →
      Launchable environment providerId manifest.integrationType executable

section Pools
variable {dir : String} {environment : RuntimeEnvironment} {q q' : HistoryPool}

theorem table_start : startHistory.shared.Table := holds_nil

theorem table_of_reaches
    (h : Reaches (historyStep dir environment) (fun _ _ => True) startHistory q) :
    q.shared.Table := by
  refine h.invariant (I := fun p => p.shared.Table) table_start fun p a p' hp _ hstep => ?_
  obtain ⟨op, rfl, rfl⟩ | ⟨i, input, op, step, k, rfl, -, rfl⟩ := step_cases hstep
  · exact hp
  · exact hp.exec

theorem answered_of_reaches (htable : q.shared.Table)
    (h : Reaches (historyStep dir environment) (fun _ _ => True) q q') {i : ℕ}
    (hi : q.threads.length ≤ i) {op : RuntimeOp} {answer : op.Result}
    (hanswer : q'.threads[i]? = some ⟨op, .ret answer⟩) :
    Answered dir environment q.shared.saved q'.shared.saved op answer := by
  have hinitial : Outline (RuntimeThreads.discipline q.shared.saved)
      (RuntimeStep.execRecorded dir environment) q := by
    refine ⟨(), ⟨htable, List.prefix_rfl⟩, fun j t _ => ?_⟩
    refine ⟨fun _ _ => True, fun _ _ _ _ _ _ _ h => h, trivial, ?_⟩
    exact safe_post (RuntimeThreads.checked_of_keeps (fun _ _ _ => trivial) (fun _ _ _ h => h)
      (keeps_any t.rest)) fun _ _ _ _ _ => trivial
  have houtline : OutlineSince (RuntimeThreads.discipline q.shared.saved)
      (RuntimeStep.execRecorded dir environment) q.threads.length
      (fun op => RuntimeThreads.Post fun answer s =>
        Answered dir environment q.shared.saved s.saved op answer) q' := by
    refine OutlineSince.of_reaches (fun op _ i => RuntimeThreads.checked_program op) hinitial
      (h.mono fun p a _ => ?_)
    cases a with
    | spawn op => trivial
    | advance i input => exact fun _ _ _ _ => trivial
  obtain ⟨_, -, hpost⟩ := houtline.returned hi hanswer
  exact hpost

theorem RecordedRun.known (h : RecordedRun dir environment q q') :
    RuntimesKnown dir environment q q' := by
  have hall : Reaches (historyStep dir environment) (fun _ _ => True) startHistory q' :=
    h.start.trans h.later
  have hdetected := RuntimeThreads.detected_of_reaches hall
  refine ⟨table_of_reaches hall, hdetected, fun i op answer hi hanswer =>
    answered_of_reaches (table_of_reaches h.start) h.later hi hanswer,
    fun i providerId manifest executable hanswer => ?_⟩
  obtain ⟨later, view, hprefix, hlatest, havailable, hexecutable⟩ :=
    answered_of_reaches table_start hall (Nat.zero_le i) hanswer
  have hid : view.providerId = providerId := (latest_eq_some_iff.mp hlatest).1
  have hsaved : view ∈ q'.shared.saved := hprefix.subset (mem_of_latest hlatest)
  exact hid ▸ (hdetected view hsaved).launchable havailable hexecutable

end Pools

def sampleProbed : ProbedManifest := ⟨sampleManifestFile "codex", [], none⟩

def detectionHost : DetectionHost where
  environ := fun _ => none
  isFile := fun _ => false
  mode := fun _ => none
  which := fun command => if command = "test-provider" then some "/usr/bin/test-provider" else none
  whichIn := fun _ _ => none
  spawn := fun _ _ _ => .error "no such file"
  regex := fun _ => none
  now := "2026-01-01T00:00:00Z"

def detectionInput : RuntimeStep.Input :=
  ⟨.ok [.ok (sampleDirEntry "codex")], fun _ => ⟨[], none⟩, detectionHost⟩

def sampleDetected : DetectedRuntime :=
  .availableWithKind "codex" .localCli "2026-01-01T00:00:00Z" "/usr/bin/test-provider" none

def detectedPool : RuntimePool :=
  ⟨⟨[sampleDetected]⟩, [⟨.detect .bootstrap, .ret [sampleDetected]⟩,
    ⟨.selectExecutable "codex" sampleProbed.toProviderManifest, .ret "/usr/bin/test-provider"⟩]⟩

theorem loadedManifests_sample :
    RuntimeStep.loadedManifests "/registry" detectionInput = .ok [sampleProbed] := by
  have hload : loadRegistryFromDir "/registry" (.ok [.ok (sampleDirEntry "codex")]) =
      .ok (sortByKey (fun entry => entry.manifest.id) [sampleProvider "codex"]) :=
    loadRegistryFromDir_eq rfl rfl
  have hsort : sortByKey (fun entry : ProviderEntry => entry.manifest.id)
      [sampleProvider "codex"] = [sampleProvider "codex"] := List.mergeSort_singleton _
  unfold RuntimeStep.loadedManifests detectionInput
  rw [hload, hsort]
  rfl

theorem sortByKey_detected :
    sortByKey (fun r => r.providerId) [sampleDetected] = [sampleDetected] :=
  List.mergeSort_singleton _

theorem exec_saveAll_sample :
    RuntimeStep.exec "/registry" .system (.saveAll (sortByKey (fun r => r.providerId)
      [sampleDetected])) detectionInput ⟨[]⟩ = ((), ⟨[sampleDetected]⟩) := by
  rw [sortByKey_detected]
  exact congrArg (fun runtimes => ((), (⟨runtimes⟩ : RuntimeStore))) sortByKey_detected

theorem exec_list_sample :
    RuntimeStep.exec "/registry" .system (.listForProviders [sampleProbed]) detectionInput
      ⟨[sampleDetected]⟩ = ([sampleDetected], ⟨[sampleDetected]⟩) :=
  congrArg (fun answer => (answer, (⟨[sampleDetected]⟩ : RuntimeStore))) sortByKey_detected

theorem exec_load_sample :
    RuntimeStep.exec "/registry" .system .loadRegistry detectionInput ⟨[]⟩ =
      (.ok [sampleProbed], ⟨[]⟩) :=
  congrArg (fun answer => (answer, (⟨[]⟩ : RuntimeStore))) loadedManifests_sample

theorem exec_probe_sample :
    RuntimeStep.exec "/registry" .system (.probe sampleProbed) detectionInput ⟨[]⟩ =
      (some sampleDetected, ⟨[]⟩) := rfl

theorem exec_get_sample :
    RuntimeStep.exec "/registry" .system (.get "codex") detectionInput ⟨[sampleDetected]⟩ =
      (some sampleDetected, ⟨[sampleDetected]⟩) := rfl

theorem reaches_advance {dir : String} {environment : RuntimeEnvironment} {p p' : RuntimePool}
    {i : ℕ} {input : RuntimeStep.Input} {op : RuntimeOp} {q : RuntimeStep}
    {k : q.Answer → RuntimeCall op.Result} {a : q.Answer} {s : RuntimeStore}
    (h : Reaches (runtimeStep dir environment) (fun _ _ => True) p p')
    (hexec : q.exec dir environment input p'.shared = (a, s))
    (hi : p'.threads[i]? = some ⟨op, .step q k⟩) :
    Reaches (runtimeStep dir environment) (fun _ _ => True) p
      ⟨s, p'.threads.set i ⟨op, k a⟩⟩ :=
  h.tail trivial (step_advance hi hexec)

theorem reaches_detected :
    Reaches (runtimeStep "/registry" .system) (fun _ _ => True) ⟨⟨[]⟩, []⟩ detectedPool := by
  have hspawned : Reaches (runtimeStep "/registry" .system) (fun _ _ => True) ⟨⟨[]⟩, []⟩
      ⟨⟨[]⟩, [⟨.detect .bootstrap, RuntimesApi.detect .bootstrap⟩]⟩ :=
    .tail .refl (a := .spawn (.detect .bootstrap)) trivial rfl
  have hloaded := reaches_advance (i := 0) hspawned exec_load_sample rfl
  have hprobed := reaches_advance (i := 0) hloaded exec_probe_sample rfl
  have hsaved := reaches_advance (i := 0) hprobed exec_saveAll_sample rfl
  have hlisted := reaches_advance (i := 0) hsaved exec_list_sample rfl
  have hselecting := hlisted.tail (a := .spawn (.selectExecutable "codex"
    sampleProbed.toProviderManifest)) trivial rfl
  exact reaches_advance (i := 1) hselecting exec_get_sample rfl

end OpenDaemon
