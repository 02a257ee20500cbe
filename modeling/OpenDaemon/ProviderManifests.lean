import Mathlib.Data.String.Basic
import OpenDaemon.AcpSession
import OpenDaemon.LatestEntries
import OpenDaemon.ProviderCommand

/-!
# Provider manifests and the registry

The manifest of a provider as the registry reads it, with the checks of
`registry/validate.rs` in their order, and the load of a registry directory. A check
adds a message for each thing that is wrong; a registry is accepted when no message
was added.
-/

namespace OpenDaemon

open Acp (AcpTransport)

structure VendorInfo where
  name : String
  homepage : String
  deriving DecidableEq, Repr

structure DetectConfig where
  commands : List String
  deriving DecidableEq, Repr

structure ExecutionSection extends ExecutionConfig where
  command : String
  deriving DecidableEq, Repr

structure ProviderCapabilities where
  remoteExecution : Bool
  deriving DecidableEq, Repr

structure EnvironmentConfig where
  required : List String
  optional : List String
  deriving DecidableEq, Repr

structure SecurityConfig where
  runsLocally : Bool
  sendsCodeToVendor : Bool
  deriving DecidableEq, Repr

structure AcpSection extends Acp.AcpConfig where
  endpoint : Option String
  envAllowlist : List String
  deriving DecidableEq, Repr

def AcpSection.hasCommand (acp : AcpSection) : Bool :=
  acp.command.any fun command => !command.isEmpty

def AcpSection.hasEndpoint (acp : AcpSection) : Bool :=
  acp.endpoint.any fun endpoint => !isBlank endpoint

inductive HttpAuthScheme
  | none
  | bearer
  deriving DecidableEq, Repr

inductive HttpUploadMode
  | workspaceSubset
  | diff
  | contextOnly
  deriving DecidableEq, Repr

structure HttpConfig where
  endpoint : String
  authScheme : HttpAuthScheme
  uploadMode : HttpUploadMode
  supportsCancel : Bool
  cancelEndpoint : Option String
  deriving DecidableEq, Repr

/-- `ProviderManifest` in `registry/manifest.rs`; the profile checks read the part it extends. -/
structure ManifestFile extends ProviderManifest where
  schemaVersion : String
  displayName : String
  vendor : VendorInfo
  description : String
  detect : DetectConfig
  execution : ExecutionSection
  capabilities : ProviderCapabilities
  environment : EnvironmentConfig
  security : SecurityConfig
  acp : Option AcpSection
  http : Option HttpConfig
  deriving DecidableEq, Repr

namespace Validate

def errorOf (provider message : String) : String := "provider " ++ provider ++ ": " ++ message

def requireNonEmpty (provider field value : String) : List String :=
  if isBlank value then [errorOf provider (field ++ " must not be empty")] else []

def requireFile (provider path : String) (isFile : Bool) : List String :=
  if isFile then [] else [errorOf provider ("required file missing at " ++ path)]

/-- The loop of `push_duplicate_errors`; `seen` are the values before. -/
def duplicateErrors (provider field : String) (seen : List String) : List String → List String
  | [] => []
  | value :: values =>
    (if isBlank value then [errorOf provider (field ++ " must not contain empty values")] else []) ++
    (if value ∈ seen then [errorOf provider (field ++ " contains duplicate value " ++ value)]
      else []) ++ duplicateErrors provider field (value :: seen) values

def pushDuplicateErrors (provider field : String) (values : List String) : List String :=
  duplicateErrors provider field [] values

/-- On Unix a path is absolute if it starts with a slash. The second byte of the text is a colon
only where its first character takes one byte. -/
def isAbsoluteCommand (command : String) : Bool :=
  match trim command.toList with
  | [] => false
  | [c] => c == '/' || c == '\\'
  | c :: d :: _ => c == '/' || c == '\\' || (c.utf8Size == 1 && d == ':')

def indexed (field : String) (index : ℕ) : String := field ++ "[" ++ toString index ++ "]"

def forEach (check : ℕ → String → List String) : ℕ → List String → List String
  | _, [] => []
  | index, value :: values => check index value ++ forEach check (index + 1) values

def detectCommandErrors (provider : String) (index : ℕ) (command : String) : List String :=
  (if isBlank command then
    [errorOf provider (indexed "detect.commands" index ++ " must not be empty")] else []) ++
  (if isAbsoluteCommand command then
    [errorOf provider (indexed "detect.commands" index ++ " must not be an absolute path")] else [])

def acpCommandErrors (provider : String) (index : ℕ) (segment : String) : List String :=
  if isBlank segment then
    [errorOf provider (indexed "acp.command" index ++ " must not be empty")] else []

def validateAcpFields (manifest : ManifestFile) : List String :=
  let provider := manifest.id
  match manifest.integrationType with
  | .acp =>
    match manifest.acp with
    | none => [errorOf provider "acp section is required for acp integration"]
    | some acp =>
      let hasCommand := acp.hasCommand
      let hasEndpoint := acp.hasEndpoint
      (if hasCommand = hasEndpoint then [errorOf provider
        "exactly one startup mode must be configured in acp.command or acp.endpoint"] else []) ++
      (if ¬ hasCommand ∧ ¬ hasEndpoint then
        [errorOf provider "acp.command or acp.endpoint must be configured"] else []) ++
      (match acp.command with
        | some command => forEach (acpCommandErrors provider) 0 command
        | none => []) ++
      pushDuplicateErrors provider "acp.env_allowlist" acp.envAllowlist
  | _ =>
    if manifest.acp.isSome then
      [errorOf provider "acp section is only allowed for acp integration"] else []

def validateHttpFields (manifest : ManifestFile) : List String :=
  let provider := manifest.id
  match manifest.integrationType with
  | .http =>
    match manifest.http with
    | none => [errorOf provider "http section is required for http integration"]
    | some http =>
      (if isBlank http.endpoint then
        [errorOf provider "http.endpoint must not be empty"] else []) ++
      (if http.supportsCancel ∧ http.cancelEndpoint.all isBlank then
        [errorOf provider "http.cancel_endpoint is required when supports_cancel is true"]
        else []) ++
      (if ¬ manifest.capabilities.remoteExecution then
        [errorOf provider "http integration requires capabilities.remote_execution"] else []) ++
      (if manifest.security.runsLocally then
        [errorOf provider "http integration requires security.runs_locally = false"] else [])
  | _ =>
    if manifest.http.isSome then
      [errorOf provider "http section is only allowed for http integration"] else []

/-- `validate_manifest_fields` up to the parts of the integrations. -/
def commonErrors (manifest : ManifestFile) : List String :=
  let provider := manifest.id
  requireNonEmpty provider "schema_version" manifest.schemaVersion ++
  requireNonEmpty provider "id" manifest.id ++
  requireNonEmpty provider "display_name" manifest.displayName ++
  requireNonEmpty provider "vendor.name" manifest.vendor.name ++
  requireNonEmpty provider "vendor.homepage" manifest.vendor.homepage ++
  requireNonEmpty provider "description" manifest.description ++
  requireNonEmpty provider "execution.command" manifest.execution.command ++
  requireNonEmpty provider "models.default" manifest.models.default ++
  (if manifest.detect.commands.isEmpty then
    [errorOf provider "detect.commands must not be empty"] else []) ++
  (if isAbsoluteCommand manifest.execution.command then
    [errorOf provider "execution.command must not be an absolute path"] else []) ++
  forEach (detectCommandErrors provider) 0 manifest.detect.commands ++
  (if manifest.models.default ∉ manifest.models.supported then
    [errorOf provider "models.default must be present in models.supported"] else []) ++
  pushDuplicateErrors provider "models.supported" manifest.models.supported ++
  pushDuplicateErrors provider "environment.required" manifest.environment.required ++
  pushDuplicateErrors provider "environment.optional" manifest.environment.optional ++
  pushDuplicateErrors provider "permissions.provider_permission_modes"
    manifest.permissions.providerPermissionModes ++
  (manifest.environment.optional.filter (· ∈ manifest.environment.required)).map (fun name =>
    errorOf provider ("environment variable " ++ name ++
      " appears in both required and optional")) ++
  (if manifest.capabilities.remoteExecution ∧ ¬ manifest.security.sendsCodeToVendor then
    [errorOf provider "remote_execution requires security.sends_code_to_vendor"] else [])

def validateManifestFields (manifest : ManifestFile) : List String :=
  commonErrors manifest ++ validateAcpFields manifest ++ validateHttpFields manifest

theorem acp_of_validateManifestFields {manifest : ManifestFile}
    (htype : manifest.integrationType = .acp) (h : validateManifestFields manifest = []) :
    ∃ acp, manifest.acp = some acp ∧ acp.hasCommand ≠ acp.hasEndpoint := by
  rw [validateManifestFields, List.append_eq_nil_iff, List.append_eq_nil_iff] at h
  have hacp : validateAcpFields manifest = [] := h.1.2
  simp only [validateAcpFields, htype] at hacp
  cases hsection : manifest.acp with
  | none => simp [hsection] at hacp
  | some acp =>
    refine ⟨acp, rfl, fun hsame => ?_⟩
    simp [hsection, hsame] at hacp

end Validate

/-! ### Loading a registry directory -/

/-- What `read_dir` finds under one name: the result of `file_type`, the one of
`load_manifest_file`, and whether the required files are there. -/
structure RegistryDirEntry where
  path : String
  fileName : String
  isDir : Except String Bool
  manifest : Except String ManifestFile
  hasReadme : Bool
  hasExample : Bool

structure ProviderEntry where
  directoryName : String
  manifestPath : String
  manifest : ManifestFile
  deriving DecidableEq, Repr

namespace Validate

def validateManifestEntry (entry : RegistryDirEntry) (manifest : ManifestFile) : List String :=
  let provider := manifest.id
  (if manifest.id ≠ entry.fileName then [errorOf provider
    ("manifest id does not match directory name " ++ entry.fileName)] else []) ++
  requireFile provider (entry.path ++ "/README.md") entry.hasReadme ++
  requireFile provider (entry.path ++ "/examples/basic.task.json") entry.hasExample ++
  validateManifestFields manifest

/-- The loop of `validate_registry_entries`; `seen` holds the last path of each id. -/
def duplicateIdErrors (seen : List (String × String)) : List ProviderEntry → List String
  | [] => []
  | entry :: entries =>
    (match seen.lookup entry.manifest.id with
      | some first => [errorOf entry.manifest.id ("duplicate provider id in " ++ first ++ " and " ++
          entry.manifestPath)]
      | none => []) ++
    duplicateIdErrors ((entry.manifest.id, entry.manifestPath) :: seen) entries

def failedText (errors : List String) : String :=
  "registry validation failed:\n" ++ "\n".intercalate errors

def validateRegistryEntries (entries : List ProviderEntry) : Except String Unit :=
  match duplicateIdErrors [] entries with
  | [] => .ok ()
  | errors => .error (failedText errors)

end Validate

/-- The `for` loop of `load_registry_from_dir`. -/
def loadEntries (dir : String) (errors : List String) (providers : List ProviderEntry) :
    List (Except String RegistryDirEntry) → Except String (List String × List ProviderEntry)
  | [] => .ok (errors, providers)
  | .error _ :: _ => .error ("failed to read entry in " ++ dir)
  | .ok entry :: entries =>
    match entry.isDir with
    | .error _ => .error ("failed to inspect " ++ entry.path)
    | .ok false => loadEntries dir errors providers entries
    | .ok true =>
      match entry.manifest with
      | .error error => loadEntries dir (errors ++ [error]) providers entries
      | .ok manifest => loadEntries dir (errors ++ Validate.validateManifestEntry entry manifest)
          (providers ++ [⟨entry.fileName, entry.path ++ "/manifest.json", manifest⟩]) entries

def loadRegistryFromDir (dir : String)
    (listing : Except String (List (Except String RegistryDirEntry))) :
    Except String (List ProviderEntry) :=
  match listing with
  | .error _ => .error ("failed to read " ++ dir)
  | .ok entries =>
    match loadEntries dir [] [] entries with
    | .error error => .error error
    | .ok (errors, providers) =>
      let errors := match Validate.validateRegistryEntries providers with
        | .ok _ => errors
        | .error error => errors ++ [error]
      if errors.isEmpty then
        .ok (LatestEntries.sortByKey (fun entry => entry.manifest.id) providers)
      else .error (Validate.failedText errors)

section Accepted

variable {dir : String} {listing : Except String (List (Except String RegistryDirEntry))}
  {providers : List ProviderEntry}

theorem nodup_of_duplicateIdErrors {seen : List (String × String)} {entries : List ProviderEntry}
    (h : Validate.duplicateIdErrors seen entries = []) :
    (entries.map fun entry => entry.manifest.id).Nodup ∧
      ∀ entry ∈ entries, entry.manifest.id ∉ seen.map Prod.fst := by
  induction entries generalizing seen with
  | nil => simp
  | cons entry entries ih =>
    rw [Validate.duplicateIdErrors, List.append_eq_nil_iff] at h
    obtain ⟨hnodup, hfresh⟩ := ih h.2
    have hseen : entry.manifest.id ∉ seen.map Prod.fst := by
      intro hmem
      obtain ⟨⟨id, path⟩, hpair, hid⟩ := List.mem_map.mp hmem
      obtain rfl : id = entry.manifest.id := hid
      cases hlookup : seen.lookup entry.manifest.id with
      | none => exact absurd (List.lookup_eq_none_iff.mp hlookup _ hpair) (by simp)
      | some first => simp [hlookup] at h
    refine ⟨?_, ?_⟩
    · rw [List.map_cons, List.nodup_cons]
      refine ⟨fun hmem => ?_, hnodup⟩
      obtain ⟨other, hother, hid⟩ := List.mem_map.mp hmem
      exact hfresh other hother (by simp [hid])
    · intro other hother
      rcases List.mem_cons.mp hother with rfl | hother
      · exact hseen
      · intro hmem
        exact hfresh other hother (List.mem_cons_of_mem _ hmem)

theorem nodup_of_loadRegistryFromDir (h : loadRegistryFromDir dir listing = .ok providers) :
    (providers.map fun entry => entry.manifest.id).Nodup := by
  unfold loadRegistryFromDir at h
  cases listing with
  | error error => cases h
  | ok entries =>
    simp only at h
    cases hload : loadEntries dir [] [] entries with
    | error error => simp [hload] at h
    | ok loaded =>
      obtain ⟨errors, found⟩ := loaded
      simp only [hload, Validate.validateRegistryEntries] at h
      cases hduplicates : Validate.duplicateIdErrors [] found with
      | cons error rest => simp [hduplicates] at h
      | nil =>
        simp only [hduplicates] at h
        split_ifs at h
        obtain rfl := Except.ok.inj h
        have hperm : (LatestEntries.sortByKey (fun entry : ProviderEntry => entry.manifest.id)
            found).Perm found := LatestEntries.sortByKey_perm found
        exact (hperm.map _).nodup_iff.mpr (nodup_of_duplicateIdErrors hduplicates).1

theorem loadRegistryFromDir_eq {entries : List (Except String RegistryDirEntry)}
    (hload : loadEntries dir [] [] entries = .ok ([], providers))
    (hids : Validate.duplicateIdErrors [] providers = []) :
    loadRegistryFromDir dir (.ok entries) =
      .ok (LatestEntries.sortByKey (fun entry => entry.manifest.id) providers) := by
  simp [loadRegistryFromDir, hload, Validate.validateRegistryEntries, hids]

end Accepted

def sampleManifestFile (id : String) : ManifestFile where
  id := id
  integrationType := .cli
  models := ⟨"test-model", ["test-model"]⟩
  permissions := ⟨["default"]⟩
  schemaVersion := "1"
  displayName := "Test Provider"
  vendor := ⟨"Test Vendor", "https://example.invalid"⟩
  description := "Provider fixture for tests."
  detect := ⟨["test-provider"]⟩
  execution := ⟨⟨[], .stdin⟩, "test-provider"⟩
  capabilities := ⟨false⟩
  environment := ⟨[], []⟩
  security := ⟨true, false⟩
  acp := none
  http := none

end OpenDaemon
