import OpenDaemon.CommandEnv
import OpenDaemon.LockOwnership
import OpenDaemon.ProviderManifests
import OpenDaemon.Utf8

/-!
# The environment of a provider

A local provider is started with `PATH` and, where the daemon allows it, with the
variables that the agent profile names, less those that the manifest lists. The daemon
reads credentials from its own environment; nothing keeps a profile from naming their
variables.
-/

namespace OpenDaemon

/-- Names and values of variables are bytes on Unix. -/
abbrev OsString := List UInt8

def osString (text : String) : OsString := Utf8.encode text.toList

theorem osString_inj {text text' : String} : osString text = osString text' ↔ text = text' :=
  ⟨fun h => String.toList_injective (Utf8.encode_injective h), congrArg osString⟩

theorem mem_map_osString {text : String} {texts : List String} :
    osString text ∈ texts.map osString ↔ text ∈ texts := by
  refine ⟨fun h => ?_, List.mem_map_of_mem⟩
  obtain ⟨text', hmem, hsame⟩ := List.mem_map.mp h
  exact osString_inj.mp hsame ▸ hmem

/-- The variables that `DaemonConfig` and `ControlPlaneConfig` read a credential from. -/
def daemonSecrets : List String :=
  ["OPENDAEMON_BOOTSTRAP_TOKEN", "OPENDAEMON_CONTROL_PLANE_ENROLLMENT_SECRET"]

def EnvironmentConfig.listed (environment : EnvironmentConfig) : List OsString :=
  (environment.required ++ environment.optional).map osString

def ProviderConfig.envKeys (config : ProviderConfig) : List OsString :=
  config.customEnvKeys.map osString

namespace LocalCliAdapter

open CommandEnv

variable (environ : Environ OsString OsString) (manifest : ManifestFile)
  (agentProfile : AgentProfile) (allowAgentCustomEnv : Bool)

def applyMinimalEnvironment (command : CommandEnv OsString OsString) :
    CommandEnv OsString OsString :=
  let command := envCopy environ command (osString "PATH")
  let command := command.envRemoveAll manifest.environment.listed
  if allowAgentCustomEnv then
    let command := envCopyAll environ command agentProfile.providerConfig.envKeys
    command.envRemoveAll manifest.environment.listed
  else command

/-- What the process that `execute_inner` spawns is given. -/
def childEnvironment : Environ OsString OsString :=
  (applyMinimalEnvironment environ manifest agentProfile allowAgentCustomEnv
    (envClear new)).capture environ

/-- The provider gets nothing but what it may get: values the daemon has, under `PATH` and the
custom names if these are allowed, none that its manifest lists, and no credential. -/
structure Confined (child : Environ OsString OsString) : Prop where
  restricts : ∀ key value, child key = some value → environ key = some value ∧
    (key = osString "PATH" ∨
      allowAgentCustomEnv = true ∧ key ∈ agentProfile.providerConfig.envKeys)
  unlisted : ∀ key ∈ manifest.environment.listed, child key = none
  noSecret : ∀ name ∈ daemonSecrets, child (osString name) = none

theorem childEnvironment_eq (key : OsString) :
    childEnvironment environ manifest agentProfile allowAgentCustomEnv key =
      if key ∈ manifest.environment.listed then none
      else if key = osString "PATH" ∨
          allowAgentCustomEnv = true ∧ key ∈ agentProfile.providerConfig.envKeys then environ key
      else none := by
  unfold childEnvironment applyMinimalEnvironment
  by_cases hlisted : key ∈ manifest.environment.listed
  · cases allowAgentCustomEnv <;> simp [capture_envRemoveAll, hlisted]
  have hpath : (envCopy environ (envClear new) (osString "PATH")).capture environ key =
      if key = osString "PATH" then environ key else none := by
    simp [capture_envCopy, capture_envClear]
  cases allowAgentCustomEnv with
  | false => simp [capture_envRemoveAll, hlisted, hpath]
  | true =>
    by_cases hcustom : key ∈ agentProfile.providerConfig.envKeys
    · cases henviron : environ key <;>
        simp [capture_envRemoveAll, capture_envCopyAll, hlisted, hpath, hcustom, henviron]
    · simp [capture_envRemoveAll, capture_envCopyAll, hlisted, hpath, hcustom]

theorem osString_path_ne {name : String} (h : name ∈ daemonSecrets) :
    osString name ≠ osString "PATH" := by
  intro hsame
  obtain rfl := osString_inj.mp hsame
  exact absurd h (by decide)

/-- A profile that names the variable of a credential gets it, where custom names are allowed,
the daemon has it and the manifest does not happen to list it; in every other case the provider
is confined. -/
theorem confined_iff :
    Confined environ manifest agentProfile allowAgentCustomEnv
        (childEnvironment environ manifest agentProfile allowAgentCustomEnv) ↔
      ∀ name ∈ daemonSecrets, allowAgentCustomEnv = true →
        name ∈ agentProfile.providerConfig.customEnvKeys →
        name ∉ manifest.environment.required → name ∉ manifest.environment.optional →
        environ (osString name) = none := by
  constructor
  · intro hconfined name hname hallow hcustom hrequired hoptional
    have hnone := hconfined.noSecret name hname
    have hlisted : osString name ∉ manifest.environment.listed := by
      rw [EnvironmentConfig.listed, mem_map_osString, List.mem_append]
      exact not_or.mpr ⟨hrequired, hoptional⟩
    rwa [childEnvironment_eq, if_neg hlisted,
      if_pos (.inr ⟨hallow, mem_map_osString.mpr hcustom⟩)] at hnone
  · intro hnone
    constructor
    · intro key value hvalue
      rw [childEnvironment_eq] at hvalue
      split_ifs at hvalue with hlisted hpasses
      exact ⟨hvalue, hpasses⟩
    · intro key hlisted
      rw [childEnvironment_eq, if_pos hlisted]
    · intro name hname
      rw [childEnvironment_eq]
      split_ifs with hlisted hpasses
      · rfl
      · obtain ⟨hallow, hcustom⟩ := hpasses.resolve_left (osString_path_ne hname)
        rw [EnvironmentConfig.listed, mem_map_osString, List.mem_append, not_or] at hlisted
        exact hnone name hname hallow (mem_map_osString.mp hcustom) hlisted.1 hlisted.2
      · rfl

def tokenProfile : AgentProfile :=
  { sampleProfile with
    providerConfig := ⟨[], ["OPENDAEMON_BOOTSTRAP_TOKEN"], none, "provider_default"⟩ }

def tokenEnviron : Environ OsString OsString := fun key =>
  if key = osString "OPENDAEMON_BOOTSTRAP_TOKEN" then some (osString "secret") else none

theorem bootstrap_token_passed :
    ¬ ∀ (environ : Environ OsString OsString) (manifest : ManifestFile)
        (agentProfile : AgentProfile) (allowAgentCustomEnv : Bool),
      agentProfile.providerConfig.validate = .ok () →
      Confined environ manifest agentProfile allowAgentCustomEnv
        (childEnvironment environ manifest agentProfile allowAgentCustomEnv) := by
  intro hall
  have hvalid : tokenProfile.providerConfig.validate = .ok () := by decide
  have hconfined := hall tokenEnviron (sampleManifestFile "codex") tokenProfile true hvalid
  have hnone := hconfined.noSecret "OPENDAEMON_BOOTSTRAP_TOKEN" (by decide)
  have hlisted : osString "OPENDAEMON_BOOTSTRAP_TOKEN" ∉
      (sampleManifestFile "codex").environment.listed := by
    simp [sampleManifestFile, EnvironmentConfig.listed]
  have hcustom : osString "OPENDAEMON_BOOTSTRAP_TOKEN" ∈ tokenProfile.providerConfig.envKeys :=
    List.mem_singleton.mpr rfl
  rw [childEnvironment_eq, if_neg hlisted, if_pos (.inr ⟨rfl, hcustom⟩), tokenEnviron,
    if_pos rfl] at hnone
  cases hnone

end LocalCliAdapter

end OpenDaemon
