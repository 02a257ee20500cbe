import OpenDaemon.ProviderManifests

/-!
# The identity of a runtime

The id of a runtime and the name of the variable that overrides its executable are made
from the provider's id, with its letters in one case and every run of other characters
as one underscore. Two ids that differ in nothing else are alike.
-/

namespace OpenDaemon

inductive LetterCase
  | lower
  | upper
  deriving DecidableEq, Repr

def LetterCase.apply : LetterCase → Char → Char
  | .lower, c => c.toLower
  | .upper, c => c.toUpper

def normalizeLoop (letterCase : LetterCase) (lastWasSeparator : Bool) : List Char → List Char
  | [] => []
  | c :: rest =>
    if c.isAlphanum then letterCase.apply c :: normalizeLoop letterCase false rest
    else if lastWasSeparator then normalizeLoop letterCase true rest
    else '_' :: normalizeLoop letterCase true rest

def normalizeProviderId (providerId : String) (letterCase : LetterCase) : String :=
  String.ofList (normalizeLoop letterCase false providerId.toList)

def runtimeId (providerId : String) : String :=
  "rt_" ++ normalizeProviderId providerId .lower ++ "_local_cli"

def acpRuntimeId (providerId : String) : String :=
  "rt_" ++ normalizeProviderId providerId .lower ++ "_local_acp"

def httpRuntimeId (providerId : String) : String :=
  "rt_" ++ normalizeProviderId providerId .lower ++ "_remote_http"

def runtimeIdForKind (providerId : String) : RuntimeKind → String
  | .localCli => runtimeId providerId
  | .localAcp => acpRuntimeId providerId
  | .remoteHttp => httpRuntimeId providerId

def overrideEnvVarName (providerId : String) : String :=
  "OPENDAEMON_PROVIDER_" ++ normalizeProviderId providerId .upper ++ "_PATH"

/-- The kind that `list_for_providers` gives a provider. -/
def IntegrationType.runtimeKind : IntegrationType → RuntimeKind
  | .cli => .localCli
  | .acp => .localAcp
  | .http => .remoteHttp
  | .native => .localCli

/-- Equal but for the case of letters and for which other characters, and how many, stand
between them. -/
inductive Alike : List Char → List Char → Prop
  | nil : Alike [] []
  | letter {c d : Char} {id id' : List Char} (hc : c.isAlphanum) (hd : d.isAlphanum)
      (same : c.toLower = d.toLower) : Alike id id' → Alike (c :: id) (d :: id')
  | separator {c d : Char} {id id' : List Char} (hc : ¬ c.isAlphanum) (hd : ¬ d.isAlphanum) :
      Alike id id' → Alike (c :: id) (d :: id')
  | repeatedLeft {c d : Char} {id id' : List Char} (hc : ¬ c.isAlphanum) (hd : ¬ d.isAlphanum) :
      Alike (d :: id) id' → Alike (c :: d :: id) id'
  | repeatedRight {c d : Char} {id id' : List Char} (hc : ¬ c.isAlphanum) (hd : ¬ d.isAlphanum) :
      Alike id (d :: id') → Alike id (c :: d :: id')

section Normalize

variable {letterCase : LetterCase} {c d : Char} {id id' : List Char}

theorem casing_ascii : ∀ n < 128,
    (Char.ofNat n).toUpper.toLower = (Char.ofNat n).toLower ∧
    (Char.ofNat n).toLower.toUpper = (Char.ofNat n).toUpper ∧
    ((Char.ofNat n).isAlphanum → (Char.ofNat n).toLower ≠ '_' ∧ (Char.ofNat n).toUpper ≠ '_') := by
  decide

theorem casing (hc : c.isAlphanum) : c.toUpper.toLower = c.toLower ∧
    c.toLower.toUpper = c.toUpper ∧ c.toLower ≠ '_' ∧ c.toUpper ≠ '_' := by
  obtain ⟨hlower, hupper, hne⟩ := casing_ascii c.toNat (ByteText.toNat_lt_of_isAlphanum hc)
  rw [Char.ofNat_toNat] at hlower hupper hne
  exact ⟨hlower, hupper, hne hc⟩

theorem apply_eq_iff (hc : c.isAlphanum) (hd : d.isAlphanum) :
    letterCase.apply c = letterCase.apply d ↔ c.toLower = d.toLower := by
  cases letterCase with
  | lower => exact Iff.rfl
  | upper =>
    constructor
    · intro h
      have hlower := congrArg Char.toLower h
      rwa [LetterCase.apply, LetterCase.apply, (casing hc).1, (casing hd).1] at hlower
    · intro h
      have hupper := congrArg Char.toUpper h
      rwa [(casing hc).2.1, (casing hd).2.1] at hupper

theorem apply_ne_underscore (hc : c.isAlphanum) : letterCase.apply c ≠ '_' := by
  cases letterCase with
  | lower => exact (casing hc).2.2.1
  | upper => exact (casing hc).2.2.2

theorem normalizeLoop_letter (hc : c.isAlphanum) (last : Bool) :
    normalizeLoop letterCase last (c :: id) =
      letterCase.apply c :: normalizeLoop letterCase false id := by
  rw [normalizeLoop, if_pos hc]

theorem normalizeLoop_separator (hc : ¬ c.isAlphanum) :
    normalizeLoop letterCase false (c :: id) = '_' :: normalizeLoop letterCase true id := by
  rw [normalizeLoop, if_neg hc, if_neg Bool.false_ne_true]

theorem normalizeLoop_repeated (hc : ¬ c.isAlphanum) :
    normalizeLoop letterCase true (c :: id) = normalizeLoop letterCase true id := by
  rw [normalizeLoop, if_neg hc, if_pos rfl]

theorem normalizeLoop_true (h : ∀ c rest, id = c :: rest → c.isAlphanum) :
    normalizeLoop letterCase true id = normalizeLoop letterCase false id := by
  cases id with
  | nil => rfl
  | cons c rest =>
    have hc := h c rest rfl
    rw [normalizeLoop_letter hc, normalizeLoop_letter hc]

theorem Alike.normalizeLoop_eq (h : Alike id id') (last : Bool) :
    normalizeLoop letterCase last id = normalizeLoop letterCase last id' := by
  induction h generalizing last with
  | nil => rfl
  | letter hc hd same _ ih =>
    rw [normalizeLoop_letter hc, normalizeLoop_letter hd, (apply_eq_iff hc hd).mpr same, ih]
  | separator hc hd _ ih =>
    cases last with
    | false => rw [normalizeLoop_separator hc, normalizeLoop_separator hd, ih]
    | true => rw [normalizeLoop_repeated hc, normalizeLoop_repeated hd, ih]
  | repeatedLeft hc hd _ ih =>
    cases last with
    | false =>
      rw [normalizeLoop_separator hc, normalizeLoop_repeated hd, ← ih, normalizeLoop_separator hd]
    | true => rw [normalizeLoop_repeated hc, ih]
  | repeatedRight hc hd _ ih =>
    cases last with
    | false =>
      rw [normalizeLoop_separator hc, normalizeLoop_repeated hd, ih, normalizeLoop_separator hd]
    | true => rw [normalizeLoop_repeated hc, ih]

theorem normalizeLoop_cons_ne_nil (c : Char) (id : List Char) :
    normalizeLoop letterCase false (c :: id) ≠ [] := by
  by_cases hc : c.isAlphanum
  · rw [normalizeLoop_letter hc]
    exact List.cons_ne_nil _ _
  · rw [normalizeLoop_separator hc]
    exact List.cons_ne_nil _ _

/-- Ids with the same normal form are alike. The induction is on a bound of both lengths, as a
run of separators is shortened from either side; when neither side goes on with another
separator, both are cut after it. -/
theorem alike_of_normalizeLoop_eq (bound : ℕ) (hbound : id.length + id'.length ≤ bound)
    (h : normalizeLoop letterCase false id = normalizeLoop letterCase false id') :
    Alike id id' := by
  induction bound generalizing id id' with
  | zero =>
    obtain rfl : id = [] := List.length_eq_zero_iff.mp (by omega)
    obtain rfl : id' = [] := List.length_eq_zero_iff.mp (by omega)
    exact .nil
  | succ bound ih =>
    match id, id' with
    | [], [] => exact .nil
    | [], d :: id' => exact absurd h.symm (normalizeLoop_cons_ne_nil d id')
    | c :: id, [] => exact absurd h (normalizeLoop_cons_ne_nil c id)
    | c :: id, d :: id' =>
      simp only [List.length_cons] at hbound
      by_cases hc : c.isAlphanum <;> by_cases hd : d.isAlphanum
      · rw [normalizeLoop_letter hc, normalizeLoop_letter hd] at h
        obtain ⟨hhead, htail⟩ := List.cons.inj h
        exact .letter hc hd ((apply_eq_iff hc hd).mp hhead) (ih (by omega) htail)
      · rw [normalizeLoop_letter hc, normalizeLoop_separator hd] at h
        exact absurd (List.cons.inj h).1 (apply_ne_underscore hc)
      · rw [normalizeLoop_separator hc, normalizeLoop_letter hd] at h
        exact absurd (List.cons.inj h).1.symm (apply_ne_underscore hd)
      · by_cases hleft : ∃ c' rest, id = c' :: rest ∧ ¬ c'.isAlphanum
        · obtain ⟨c', rest, rfl, hc'⟩ := hleft
          rw [normalizeLoop_separator hc, normalizeLoop_repeated hc',
            ← normalizeLoop_separator hc'] at h
          exact .repeatedLeft hc hc' (ih (by simp only [List.length_cons] at *; omega) h)
        by_cases hright : ∃ d' rest, id' = d' :: rest ∧ ¬ d'.isAlphanum
        · obtain ⟨d', rest, rfl, hd'⟩ := hright
          rw [normalizeLoop_separator hd, normalizeLoop_repeated hd',
            ← normalizeLoop_separator hd'] at h
          exact .repeatedRight hd hd' (ih (by simp only [List.length_cons] at *; omega) h)
        push Not at hleft hright
        rw [normalizeLoop_separator hc, normalizeLoop_separator hd, normalizeLoop_true hleft,
          normalizeLoop_true hright] at h
        exact .separator hc hd (ih (by omega) (List.cons.inj h).2)

theorem normalizeProviderId_eq_iff (letterCase : LetterCase) (providerId providerId' : String) :
    normalizeProviderId providerId letterCase = normalizeProviderId providerId' letterCase ↔
      Alike providerId.toList providerId'.toList := by
  rw [normalizeProviderId, normalizeProviderId, String.ofList_inj]
  exact ⟨alike_of_normalizeLoop_eq _ le_rfl, fun h => h.normalizeLoop_eq false⟩

end Normalize

section Names

variable {providerId providerId' : String}

theorem overrideEnvVarName_eq_iff : overrideEnvVarName providerId = overrideEnvVarName providerId' ↔
    Alike providerId.toList providerId'.toList := by
  rw [← normalizeProviderId_eq_iff .upper]
  unfold overrideEnvVarName
  rw [String.append_left_inj, String.append_right_inj]

def RuntimeKind.suffix : RuntimeKind → String
  | .localCli => "_local_cli"
  | .localAcp => "_local_acp"
  | .remoteHttp => "_remote_http"

theorem runtimeIdForKind_eq (providerId : String) (kind : RuntimeKind) :
    runtimeIdForKind providerId kind =
      "rt_" ++ normalizeProviderId providerId .lower ++ kind.suffix := by
  cases kind <;> rfl

theorem runtimeIdForKind_kind {kind kind' : RuntimeKind}
    (h : runtimeIdForKind providerId kind = runtimeIdForKind providerId' kind') :
    kind = kind' := by
  rw [runtimeIdForKind_eq, runtimeIdForKind_eq] at h
  have hends := congrArg (fun id => id.toList.reverse.take 3) h
  simp only [String.toList_append, List.reverse_append] at hends
  have htake : ∀ (kind : RuntimeKind) (front : List Char),
      (kind.suffix.toList.reverse ++ front).take 3 = kind.suffix.toList.reverse.take 3 := by
    intro kind front
    rw [List.take_append_of_le_length]
    cases kind <;> decide
  rw [htake, htake] at hends
  cases kind <;> cases kind' <;> first | rfl | exact absurd hends (by decide)

theorem runtimeIdForKind_eq_iff {kind kind' : RuntimeKind} :
    runtimeIdForKind providerId kind = runtimeIdForKind providerId' kind' ↔
      Alike providerId.toList providerId'.toList ∧ kind = kind' := by
  rw [← normalizeProviderId_eq_iff .lower]
  constructor
  · intro h
    obtain rfl := runtimeIdForKind_kind h
    rw [runtimeIdForKind_eq, runtimeIdForKind_eq, String.append_left_inj,
      String.append_right_inj] at h
    exact ⟨h, rfl⟩
  · rintro ⟨hsame, rfl⟩
    rw [runtimeIdForKind_eq, runtimeIdForKind_eq, hsame]

end Names

def ManifestFile.runtimeId (manifest : ManifestFile) : String :=
  runtimeIdForKind manifest.id manifest.integrationType.runtimeKind

def ManifestFile.overrideEnvVarName (manifest : ManifestFile) : String :=
  OpenDaemon.overrideEnvVarName manifest.id

section Registry

variable {dir : String} {listing : Except String (List (Except String RegistryDirEntry))}
  {providers : List ProviderEntry} {p q : ProviderEntry}

/-- Distinct providers of an accepted registry have distinct ids, and their names coincide
exactly if these ids are alike: the override variables then, the runtime ids if the kinds are
the same as well. -/
theorem names_eq_iff_alike (h : loadRegistryFromDir dir listing = .ok providers)
    (hp : p ∈ providers) (hq : q ∈ providers) (hne : p ≠ q) :
    p.manifest.id ≠ q.manifest.id ∧
    (p.manifest.runtimeId = q.manifest.runtimeId ↔
      Alike p.manifest.id.toList q.manifest.id.toList ∧
        p.manifest.integrationType.runtimeKind = q.manifest.integrationType.runtimeKind) ∧
    (p.manifest.overrideEnvVarName = q.manifest.overrideEnvVarName ↔
      Alike p.manifest.id.toList q.manifest.id.toList) := by
  refine ⟨fun hid => ?_, runtimeIdForKind_eq_iff, overrideEnvVarName_eq_iff⟩
  exact hne (List.inj_on_of_nodup_map (nodup_of_loadRegistryFromDir h) hp hq hid)

end Registry

def sampleDirEntry (id : String) : RegistryDirEntry :=
  ⟨"/registry/" ++ id, id, .ok true, .ok (sampleManifestFile id), true, true⟩

def sampleProvider (id : String) : ProviderEntry :=
  ⟨id, "/registry/" ++ id ++ "/manifest.json", sampleManifestFile id⟩

theorem loadRegistryFromDir_sample (id id' : String)
    (hload : loadEntries "/registry" [] [] [.ok (sampleDirEntry id), .ok (sampleDirEntry id')] =
      .ok ([], [sampleProvider id, sampleProvider id']))
    (hids : Validate.duplicateIdErrors [] [sampleProvider id, sampleProvider id'] = []) :
    ∃ providers, loadRegistryFromDir "/registry"
        (.ok [.ok (sampleDirEntry id), .ok (sampleDirEntry id')]) = .ok providers ∧
      sampleProvider id ∈ providers ∧ sampleProvider id' ∈ providers :=
  ⟨_, loadRegistryFromDir_eq hload hids, LatestEntries.mem_sortByKey.mpr (by simp),
    LatestEntries.mem_sortByKey.mpr (by simp)⟩

theorem names_codex_cursor :
    ∃ providers, loadRegistryFromDir "/registry"
        (.ok [.ok (sampleDirEntry "codex"), .ok (sampleDirEntry "cursor")]) = .ok providers ∧
      sampleProvider "codex" ≠ sampleProvider "cursor" ∧
      "codex" ≠ "cursor" ∧
      (runtimeIdForKind "codex" .localCli = runtimeIdForKind "cursor" .localCli ↔
        Alike "codex".toList "cursor".toList ∧ RuntimeKind.localCli = .localCli) ∧
      (overrideEnvVarName "codex" = overrideEnvVarName "cursor" ↔
        Alike "codex".toList "cursor".toList) := by
  obtain ⟨providers, hload, hcodex, hcursor⟩ :=
    loadRegistryFromDir_sample "codex" "cursor" rfl rfl
  have hne : sampleProvider "codex" ≠ sampleProvider "cursor" := by decide
  exact ⟨providers, hload, hne, names_eq_iff_alike hload hcodex hcursor hne⟩

/-- Both ids may be taken in one registry: they differ, so no check complains, and name one
runtime and one variable. -/
theorem hyphen_underscore_one_runtime :
    ¬ ∀ dir listing providers, loadRegistryFromDir dir listing = .ok providers →
      ∀ p ∈ providers, ∀ q ∈ providers, p ≠ q →
        p.manifest.runtimeId ≠ q.manifest.runtimeId ∧
        p.manifest.overrideEnvVarName ≠ q.manifest.overrideEnvVarName := by
  intro hdistinct
  obtain ⟨providers, hload, hp, hq⟩ :=
    loadRegistryFromDir_sample "generic-test" "generic_test" rfl rfl
  have hne : sampleProvider "generic-test" ≠ sampleProvider "generic_test" := by decide
  have hsame : (sampleProvider "generic-test").manifest.runtimeId =
      (sampleProvider "generic_test").manifest.runtimeId :=
    runtimeIdForKind_eq_iff.mpr ⟨(normalizeProviderId_eq_iff .lower _ _).mp (by decide), rfl⟩
  exact (hdistinct _ _ _ hload _ hp _ hq hne).1 hsame

end OpenDaemon
