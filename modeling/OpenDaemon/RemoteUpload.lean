import OpenDaemon.AcpSession
import OpenDaemon.Admission
import OpenDaemon.LockOwnership
import OpenDaemon.ProviderManifests
import OpenDaemon.Utf8

/-!
# What leaves the machine

The adapter of remote providers sends the files at the top of the workspace with their
contents, and records with the result what it has sent. The package and the record name
the upload mode each from a source of its own.
-/

namespace OpenDaemon

open ByteText Utf8

def HttpUploadMode.asStr : HttpUploadMode → String
  | .workspaceSubset => "workspace_subset"
  | .diff => "diff"
  | .contextOnly => "context_only"

namespace RemoteHttpAdapter

/-- What `read_dir` finds under one name: the result of `file_type`, as whether it is a file, and
the bytes that are read from it. -/
structure WorkspaceEntry where
  fileName : List UInt8
  isFile : Except String Bool
  contents : Except String (List UInt8)

abbrev Listing : Type := Except String (List (Except String WorkspaceEntry))

def requestFailed (message : String) : RuntimeAdapterError := ⟨"http_request_failed", message⟩

def readToString (contents : Except String (List UInt8)) : Except String String :=
  contents.bind fun bytes =>
    match decode bytes with
    | some text => .ok (String.ofList text)
    | none => .error "stream did not contain valid UTF-8"

def fileValue (fileName : List UInt8) (contents : String) : Value :=
  .object [("path", .string (String.ofList (decodeLossy fileName))), ("content", .string contents)]

def packageFiles (files : List Value) (byteCount : ℕ) :
    List (Except String WorkspaceEntry) → Except RuntimeAdapterError (List Value × ℕ)
  | [] => .ok (files, byteCount)
  | .error error :: _ => .error (requestFailed ("failed to inspect workspace entry: " ++ error))
  | .ok entry :: entries =>
    match entry.isFile with
    | .error error =>
      .error (requestFailed ("failed to inspect workspace file type: " ++ error))
    | .ok false => packageFiles files byteCount entries
    | .ok true =>
      match readToString entry.contents with
      | .error error => .error (requestFailed ("failed to read workspace file: " ++ error))
      | .ok contents => packageFiles (files ++ [fileValue entry.fileName contents])
          (byteCount + byteLength contents.toList) entries

def packageValue (sourceDirectoryId : String) (files : List Value) (byteCount : ℕ) : Value :=
  .object [("source_directory_id", .string sourceDirectoryId),
    ("upload_mode", .string "workspace_subset"), ("files", .array files),
    ("byte_count", .number (toString byteCount))]

def buildWorkspacePackage (request : RuntimeExecutionRequest) (listing : Listing) :
    Except RuntimeAdapterError Value :=
  match listing with
  | .error error => .error (requestFailed ("failed to read workspace for upload: " ++ error))
  | .ok entries =>
    (packageFiles [] 0 entries).map fun (files, byteCount) =>
      packageValue request.workspace.sourceDirectoryId files byteCount

def payload (request : RuntimeExecutionRequest) (package : Value) : Value :=
  .object
    [("task", .object [("id", .string request.task.id), ("prompt", .string request.task.prompt),
      ("model", .string request.agentProfile.model)]),
    ("runtime", .object [("id", .string request.runtimeId),
      ("provider_id", .string request.providerId)]),
    ("workspace", package), ("opendaemon_auth", .null)]

/-- How the request ends: it is cancelled first, `send` fails, the status is an error, the body
is no JSON, or the provider answers. -/
inductive Reply
  | cancelled
  | sendFailed (error : String)
  | badStatus (error : String)
  | badBody (error : String)
  | answered (providerResult : Value)

/-- `package["files"].as_array().map_or(0, …)`. -/
def fileCount (package : Value) : ℕ :=
  match package.index "files" with
  | .array files => files.length
  | _ => 0

def remoteUpload (http : HttpConfig) (request : RuntimeExecutionRequest) (package : Value) :
    Value :=
  .object [("provider_id", .string request.providerId), ("runtime_id", .string request.runtimeId),
    ("endpoint_origin", .string http.endpoint),
    ("upload_mode", .string http.uploadMode.asStr),
    ("file_count", .number (toString (fileCount package))),
    ("byte_count", package.index "byte_count")]

def completedOutcome (http : HttpConfig) (request : RuntimeExecutionRequest) (package : Value)
    (providerResult : Value) : RuntimeExecutionOutcome :=
  { RuntimeExecutionOutcome.completed
      [⟨.processStdout, .object [("text", .string "remote provider completed")]⟩] with
    finalMessage := (providerResult.index "final_message").asStr.getD "remote provider completed"
    providerResult := some (.object [("provider_response", providerResult),
      ("remote_upload", remoteUpload http request package)]) }

/-- `execute_inner`: what it posts, if it comes to that, and its outcome. -/
def executeInner (manifest : ManifestFile) (request : RuntimeExecutionRequest)
    (listing : Listing) (reply : Reply) : Option Value × RuntimeExecutionOutcome :=
  match manifest.http with
  | none =>
    (none, .failed ⟨"http_invalid_configuration", "provider http configuration is missing"⟩ [])
  | some http =>
    match buildWorkspacePackage request listing with
    | .error error => (none, .failed error [])
    | .ok package => (some (payload request package),
        match reply with
        | .cancelled => .cancelled []
        | .sendFailed error => .failed (requestFailed ("http provider request failed: " ++ error)) []
        | .badStatus error =>
          .failed (requestFailed ("http provider response failed: " ++ error)) []
        | .badBody error =>
          .failed ⟨"http_protocol_error", "invalid http provider response: " ++ error⟩ []
        | .answered providerResult => completedOutcome http request package providerResult)

def contentBytes (files : List Value) : ℕ :=
  (files.map fun file => byteLength ((file.strAt "content").getD "").toList).sum

/-- The record says of the posted payload which mode its package has, how many files are in it
and how long they are together; and contents are sent in one mode only. -/
structure Describes (http : HttpConfig) (posted record : Value) (files : List Value) : Prop where
  packaged : (posted.index "workspace").get? "files" = some (.array files)
  uploadMode : record.get? "upload_mode" = (posted.index "workspace").get? "upload_mode"
  fileCount : record.get? "file_count" = some (.number (toString files.length))
  byteCount : record.get? "byte_count" = some (.number (toString (contentBytes files)))
  contentsSent : (∃ file ∈ files, (file.strAt "content").isSome) →
    http.uploadMode = .workspaceSubset

section Package

variable {entries : List (Except String WorkspaceEntry)} {files files' : List Value}
  {byteCount byteCount' : ℕ} {request : RuntimeExecutionRequest} {listing : Listing}
  {package : Value}

theorem contentBytes_append (fileName : List UInt8) (contents : String) :
    contentBytes (files ++ [fileValue fileName contents]) =
      contentBytes files + byteLength contents.toList := by
  rw [contentBytes, List.map_append, List.sum_append]
  simp [contentBytes, fileValue, Value.strAt, Value.get?, Value.asStr, List.lookup_cons]

theorem packageFiles_byteCount (h : packageFiles files byteCount entries = .ok (files', byteCount'))
    (hcount : byteCount = contentBytes files) : byteCount' = contentBytes files' := by
  fun_induction packageFiles files byteCount entries with
  | case1 files byteCount =>
    obtain ⟨rfl, rfl⟩ := Prod.mk.inj (Except.ok.inj h)
    exact hcount
  | case2 => cases h
  | case3 => cases h
  | case4 files byteCount entry entries hdir ih => exact ih h hcount
  | case5 => cases h
  | case6 files byteCount entry entries hfile contents hread ih =>
    exact ih h (by rw [contentBytes_append, hcount])

theorem exists_of_buildWorkspacePackage (h : buildWorkspacePackage request listing = .ok package) :
    ∃ files, package = packageValue request.workspace.sourceDirectoryId files
      (contentBytes files) := by
  unfold buildWorkspacePackage at h
  cases listing with
  | error error => cases h
  | ok entries =>
    simp only at h
    cases hfiles : packageFiles [] 0 entries with
    | error error =>
      rw [hfiles] at h
      cases h
    | ok packed =>
      obtain ⟨files, byteCount⟩ := packed
      rw [hfiles] at h
      obtain rfl := Except.ok.inj h
      exact ⟨files, by rw [packageFiles_byteCount hfiles rfl]⟩

end Package

section Record

variable {manifest : ManifestFile} {http : HttpConfig} {request : RuntimeExecutionRequest}
  {listing : Listing} {reply : Reply} {posted result : Value} {outcome : RuntimeExecutionOutcome}

theorem package_of_completed (hhttp : manifest.http = some http)
    (h : executeInner manifest request listing reply = (some posted, outcome))
    (hcompleted : outcome.status = .completed) (hresult : outcome.providerResult = some result) :
    ∃ files package, package = packageValue request.workspace.sourceDirectoryId files
        (contentBytes files) ∧
      posted = payload request package ∧
      result.index "remote_upload" = remoteUpload http request package := by
  simp only [executeInner, hhttp] at h
  cases hpackage : buildWorkspacePackage request listing with
  | error error =>
    rw [hpackage] at h
    cases (Prod.mk.inj h).1
  | ok package =>
    obtain ⟨files, hfiles⟩ := exists_of_buildWorkspacePackage hpackage
    rw [hpackage] at h
    obtain ⟨hposted, hend⟩ := Prod.mk.inj h
    refine ⟨files, package, hfiles, (Option.some.inj hposted).symm, ?_⟩
    cases reply with
    | answered providerResult =>
      obtain rfl : completedOutcome http request package providerResult = outcome := hend
      obtain rfl := Option.some.inj hresult
      rfl
    | cancelled =>
      obtain rfl : RuntimeExecutionOutcome.cancelled [] = outcome := hend
      cases hcompleted
    | sendFailed error =>
      subst hend
      cases hcompleted
    | badStatus error =>
      subst hend
      cases hcompleted
    | badBody error =>
      subst hend
      cases hcompleted

theorem asStr_eq_workspaceSubset {mode : HttpUploadMode} :
    mode.asStr = "workspace_subset" ↔ mode = .workspaceSubset := by
  cases mode <;> decide

/-- The record describes what was posted exactly if the manifest asks for the one mode that
every package is in: the package is built without a look at the manifest. -/
theorem describes_iff (hhttp : manifest.http = some http)
    (h : executeInner manifest request listing reply = (some posted, outcome))
    (hcompleted : outcome.status = .completed) (hresult : outcome.providerResult = some result) :
    (∃ files, Describes http posted (result.index "remote_upload") files) ↔
      http.uploadMode = .workspaceSubset := by
  obtain ⟨files, package, hpackage, rfl, hrecord⟩ :=
    package_of_completed hhttp h hcompleted hresult
  subst hpackage
  rw [hrecord]
  constructor
  · rintro ⟨_, hdescribes⟩
    have hmode : some (Value.string http.uploadMode.asStr) =
        some (.string "workspace_subset") := hdescribes.uploadMode
    exact asStr_eq_workspaceSubset.mp (Value.string.inj (Option.some.inj hmode))
  · intro hmode
    refine ⟨files, rfl, ?_, rfl, rfl, fun _ => hmode⟩
    have htext := asStr_eq_workspaceSubset.mpr hmode
    rw [remoteUpload, htext]
    rfl

end Record

def httpManifest (uploadMode : HttpUploadMode) : ManifestFile :=
  { sampleManifestFile "test-provider" with
    integrationType := .http
    capabilities := ⟨true⟩
    security := ⟨false, true⟩
    http := some ⟨"https://example.invalid/v1/tasks", .none, uploadMode, false, none⟩ }

def remoteRequest (uploadMode : HttpUploadMode) : RuntimeExecutionRequest where
  taskId := "task_1"
  providerId := "test-provider"
  runtimeId := "rt_test_provider_remote_http"
  executable := "https://example.invalid/v1/tasks"
  manifest := (httpManifest uploadMode).toProviderManifest
  agentProfile := sampleProfile
  directoryGrant := sampleGrant
  task := (sampleTask.admittedRow .direct sampleProfile).toTask "t0" 1
  workspace := ⟨.direct, "/work", "dir_1", none, none⟩
  timeoutSeconds := 5
  allowAgentCustomEnv := false

def sourceListing : Listing :=
  .ok [.ok ⟨encode "main.rs".toList, .ok true, .ok (encode "fn main() {}".toList)⟩]

def sourceFiles : List Value := [fileValue (encode "main.rs".toList) "fn main() {}"]

theorem buildWorkspacePackage_source (request : RuntimeExecutionRequest) :
    buildWorkspacePackage request sourceListing =
      .ok (packageValue request.workspace.sourceDirectoryId sourceFiles 12) := by
  have hread : readToString (.ok (encode "fn main() {}".toList)) = .ok "fn main() {}" := by
    simp only [readToString, Except.bind, decode_encode, String.ofList_toList]
  simp only [buildWorkspacePackage, sourceListing, packageFiles, hread, Except.map]
  rfl

theorem executeInner_source (uploadMode : HttpUploadMode) (http : HttpConfig)
    (hhttp : (httpManifest uploadMode).http = some http) :
    executeInner (httpManifest uploadMode) (remoteRequest uploadMode) sourceListing
        (.answered .emptyObject) =
      (some (payload (remoteRequest uploadMode) (packageValue "dir_1" sourceFiles 12)),
        completedOutcome http (remoteRequest uploadMode) (packageValue "dir_1" sourceFiles 12)
          .emptyObject) := by
  simp only [executeInner, hhttp, buildWorkspacePackage_source]
  rfl

theorem describes_sourceFiles : ∃ (http : HttpConfig) (posted result : Value)
    (outcome : RuntimeExecutionOutcome),
    executeInner (httpManifest .workspaceSubset) (remoteRequest .workspaceSubset) sourceListing
      (.answered .emptyObject) = (some posted, outcome) ∧
    outcome.providerResult = some result ∧
    ∃ files, Describes http posted (result.index "remote_upload") files := by
  have hexecuted := executeInner_source .workspaceSubset _ rfl
  exact ⟨_, _, _, _, hexecuted, rfl, (describes_iff rfl hexecuted rfl rfl).mpr rfl⟩

/-- A manifest that asks for a diff: the file leaves with its contents, and a diff is recorded. -/
theorem diff_recorded_for_files :
    ¬ ∀ (manifest : ManifestFile) (http : HttpConfig) (request : RuntimeExecutionRequest)
        (listing : Listing) (reply : Reply) (posted result : Value)
        (outcome : RuntimeExecutionOutcome),
      Validate.validateManifestFields manifest = [] → manifest.http = some http →
      executeInner manifest request listing reply = (some posted, outcome) →
      outcome.status = .completed → outcome.providerResult = some result →
      ∃ files, Describes http posted (result.index "remote_upload") files := by
  intro hall
  obtain ⟨files, hdescribes⟩ := hall (httpManifest .diff) _ (remoteRequest .diff) sourceListing _ _
    _ _ (by decide) rfl (executeInner_source .diff _ rfl) rfl rfl
  have hmode : some (Value.string "diff") = some (.string "workspace_subset") :=
    hdescribes.uploadMode
  exact absurd (Value.string.inj (Option.some.inj hmode)) (by decide)

end RemoteHttpAdapter

end OpenDaemon
