import OpenDaemon.ApiHandlers
import OpenDaemon.LatestEntries
import OpenDaemon.RuntimeDetection

/-!
# The detected runtimes

The table of `runtime/store.rs`, the handlers that read it and fill it and the part of
an execution that takes its runtime from it, as calls that run at once. The registry may
change between two calls, and the host between two probes. A call with a probe that never
returns is one that makes no more steps.
-/

namespace OpenDaemon

open Interleaving Call LatestEntries

structure RuntimeStore where
  runtimes : List DetectedRuntime
  deriving DecidableEq, Repr

def ProbedManifest.isSupported (provider : ProbedManifest) : Bool :=
  provider.integrationType matches .cli | .acp | .http

namespace RuntimeStore

def save (s : RuntimeStore) (runtime : DetectedRuntime) : RuntimeStore :=
  ⟨upsert (fun r => r.providerId) s.runtimes runtime⟩

def saveAll (s : RuntimeStore) (runtimes : List DetectedRuntime) : RuntimeStore :=
  runtimes.foldl save s

def get (s : RuntimeStore) (providerId : String) : Option DetectedRuntime :=
  s.runtimes.find? fun r => decide (r.providerId = providerId)

def listForProviders (s : RuntimeStore) (providers : List ProbedManifest) :
    List DetectedRuntime :=
  sortByKey (fun r => r.providerId) ((providers.filter ProbedManifest.isSupported).map
    fun provider => (s.get provider.id).getD
      (.notDetectedWithKind provider.id provider.integrationType.runtimeKind))

end RuntimeStore

inductive RuntimeStep
  | loadRegistry
  | probe (provider : ProbedManifest)
  | saveAll (runtimes : List DetectedRuntime)
  | listForProviders (providers : List ProbedManifest)
  | get (providerId : String)

namespace RuntimeStep

@[reducible] def Answer : RuntimeStep → Type
  | .loadRegistry => Except String (List ProbedManifest)
  | .probe _ => Option DetectedRuntime
  | .saveAll _ => Unit
  | .listForProviders _ => List DetectedRuntime
  | .get _ => Option DetectedRuntime

structure Input where
  listing : Except String (List (Except String RegistryDirEntry))
  settings : String → ProbeSettings
  host : DetectionHost

def loadedManifests (dir : String) (input : Input) : Except String (List ProbedManifest) :=
  (loadRegistryFromDir dir input.listing).map fun entries =>
    entries.map fun entry => ⟨entry.manifest, input.settings entry.manifest.id⟩

def exec (dir : String) (environment : RuntimeEnvironment) (q : RuntimeStep) (input : Input)
    (s : RuntimeStore) : q.Answer × RuntimeStore :=
  match q with
  | .loadRegistry => (loadedManifests dir input, s)
  | .probe provider => (RuntimeDetection.detectProvider input.host environment provider, s)
  | .saveAll runtimes => ((), s.saveAll runtimes)
  | .listForProviders providers => (s.listForProviders providers, s)
  | .get providerId => (s.get providerId, s)

end RuntimeStep

inductive RuntimeFailure
  | auth (error : AuthError)
  | registry (error : String)
  | execution (error : ExecutionError)
  /-- Nothing is answered: a probe waits for ever. -/
  | hangs

abbrev RuntimeCall (α : Type) : Type := Call RuntimeStep RuntimeStep.Answer RuntimeFailure α

namespace RuntimeDetection

def detectEach : List ProbedManifest → RuntimeCall (List DetectedRuntime)
  | [] => return []
  | provider :: providers =>
    .step (.probe provider) fun
      | some runtime => do
        let runtimes ← detectEach providers
        return runtime :: runtimes
      | none => .fail .hangs

def detectProviders (providers : List ProbedManifest) : RuntimeCall (List DetectedRuntime) := do
  let runtimes ← detectEach (providers.filter ProbedManifest.isSupported)
  return sortByKey (fun r => r.providerId) runtimes

end RuntimeDetection

namespace RuntimesApi

def loadProviderManifests : RuntimeCall (List ProbedManifest) :=
  .step .loadRegistry fun
    | .ok providers => .ret providers
    | .error error => .fail (.registry error)

def list (auth : AuthContext) : RuntimeCall (List DetectedRuntime) := do
  ofExcept ((PermissionsApi.requireScope auth .runtimesRead).mapError .auth)
  let providers ← loadProviderManifests
  perform (RuntimeStep.listForProviders providers)

def detect (auth : AuthContext) : RuntimeCall (List DetectedRuntime) := do
  ofExcept ((PermissionsApi.requireScope auth .runtimesRead).mapError .auth)
  let providers ← loadProviderManifests
  let runtimes ← RuntimeDetection.detectProviders providers
  perform (RuntimeStep.saveAll runtimes)
  perform (RuntimeStep.listForProviders providers)

end RuntimesApi

/-- What `execute_task` takes from the table: the program that is started for the provider. -/
def ExecutionService.selectExecutable (providerId : String) (manifest : ProviderManifest) :
    RuntimeCall String := do
  let answer ← perform (RuntimeStep.get providerId)
  match (answer.map DetectedRuntime.toRuntimeView).filter
      (runtimeAvailable · manifest.integrationType) with
  | some runtime => ofExcept ((getExecutable runtime).mapError .execution)
  | none => .fail (.execution .runtimeUnavailable)

inductive RuntimeOp
  | list (auth : AuthContext)
  | detect (auth : AuthContext)
  | selectExecutable (providerId : String) (manifest : ProviderManifest)

namespace RuntimeOp

@[reducible] def Result : RuntimeOp → Type
  | .list _ | .detect _ => List DetectedRuntime
  | .selectExecutable .. => String

def program : (op : RuntimeOp) → RuntimeCall op.Result
  | .list auth => RuntimesApi.list auth
  | .detect auth => RuntimesApi.detect auth
  | .selectExecutable providerId manifest =>
    ExecutionService.selectExecutable providerId manifest

end RuntimeOp

abbrev RuntimePool : Type := Pool RuntimeStore RuntimeStep.Answer RuntimeFailure RuntimeOp.Result

abbrev RuntimeAction : Type := Action RuntimeOp RuntimeStep.Input

def runtimeStep (dir : String) (environment : RuntimeEnvironment) :
    RuntimePool → RuntimeAction → Option RuntimePool :=
  step RuntimeOp.program (RuntimeStep.exec dir environment)

end OpenDaemon
