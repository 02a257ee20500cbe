import OpenDaemon.ApiHandlers

/-!
# The calls of all stores

The methods of the task store, the grant store and the profile store as calls
on one database, with the queries that list rows.
-/

namespace OpenDaemon

inductive StoreStep
  | db (q : DbStep)
  | selectPermissionRequest (taskId requestId : String)
  | listEventsAfter (taskId : String) (cursor : ℕ)
  | listPermissionRequests (filters : PermissionRequestFilters)
  | listGrants (filters : DirectoryGrantFilters)
  | listProfiles (filters : AgentProfileFilters)

namespace StoreStep

@[reducible] def Row : StoreStep → Type
  | .db q => q.Row
  | .selectPermissionRequest .. => Option PermissionRequestRecord
  | .listEventsAfter .. => List TaskEvent
  | .listPermissionRequests _ => List PermissionRequestRecord
  | .listGrants _ => List DirectoryGrant
  | .listProfiles _ => List AgentProfile

@[reducible] def Answer (q : StoreStep) : Type := Except SqlError q.Row

def attempt (now : String) : (q : StoreStep) → Store → Except SqlError (q.Row × Store)
  | .db q, s => q.attempt now s
  | .selectPermissionRequest taskId requestId, s =>
    .ok (s.findPermissionRequest taskId requestId, s)
  | .listEventsAfter taskId cursor, s => .ok (s.listEventsAfter taskId cursor, s)
  | .listPermissionRequests filters, s => .ok (s.listPermissionRequests filters, s)
  | .listGrants filters, s => .ok (s.listGrants filters, s)
  | .listProfiles filters, s => .ok (s.listProfiles filters, s)

def exec (q : StoreStep) (input : DbStep.Input) (s : Store) : q.Answer × Store :=
  match input with
  | .ioError => (.error .failure, s)
  | .proceed now =>
    match q.attempt now s with
    | .ok (row, s') => (.ok row, s')
    | .error e => (.error e, s)

def query {ε : Type} (onError : SqlError → ε) (q : StoreStep) : Call StoreStep Answer ε q.Row :=
  .step q fun
    | .ok row => .ret row
    | .error e => .fail (onError e)

end StoreStep

inductive StoreFailure
  | task (error : TaskStoreError)
  | grant (error : DirectoryStoreError)
  | profile (error : AgentStoreError)
  deriving DecidableEq, Repr

abbrev StoreCall (α : Type) : Type := Call StoreStep StoreStep.Answer StoreFailure α

def StoreCall.ofDb {ε α : Type} (onError : ε → StoreFailure) (c : Call DbStep DbStep.Answer ε α) :
    StoreCall α :=
  c.embed StoreStep.db (fun _ answer => answer) onError

namespace TaskStore

def listEventsAfter (taskId : String) (cursor : ℕ) : StoreCall (List TaskEvent) :=
  (StoreStep.listEventsAfter taskId cursor).query fun _ => .task .store

def listEvents (taskId : String) : StoreCall (List TaskEvent) := listEventsAfter taskId 0

def getPermissionRequest (taskId requestId : String) : StoreCall PermissionRequestRecord := do
  let _ ← StoreCall.ofDb .task (get taskId)
  match ← (StoreStep.selectPermissionRequest taskId requestId).query fun _ => .task .store with
  | some request => return request
  | none => .fail (.task .permissionRequestNotFound)

def listPermissionRequests (filters : PermissionRequestFilters) :
    StoreCall (List PermissionRequestRecord) :=
  (StoreStep.listPermissionRequests filters).query fun _ => .task .store

end TaskStore

def GrantStore.list (filters : DirectoryGrantFilters) : StoreCall (List DirectoryGrant) :=
  (StoreStep.listGrants filters).query fun _ => .grant .store

def ProfileStore.list (filters : AgentProfileFilters) : StoreCall (List AgentProfile) :=
  (StoreStep.listProfiles filters).query fun _ => .profile .store

inductive StoreOp
  | task (op : TaskOp)
  | grant (op : GrantOp)
  | profile (op : ProfileOp)
  | listEvents (taskId : String)
  | listEventsAfter (taskId : String) (cursor : ℕ)
  | getPermissionRequest (taskId requestId : String)
  | listPermissionRequests (filters : PermissionRequestFilters)
  | listGrants (filters : DirectoryGrantFilters)
  | listProfiles (filters : AgentProfileFilters)

namespace StoreOp

@[reducible] def Result : StoreOp → Type
  | .task op => op.Result
  | .grant op => op.Result
  | .profile op => op.Result
  | .listEvents _ | .listEventsAfter .. => List TaskEvent
  | .getPermissionRequest .. => PermissionRequestRecord
  | .listPermissionRequests _ => List PermissionRequestRecord
  | .listGrants _ => List DirectoryGrant
  | .listProfiles _ => List AgentProfile

def program : (op : StoreOp) → StoreCall op.Result
  | .task op => StoreCall.ofDb .task op.program
  | .grant op => StoreCall.ofDb .grant op.program
  | .profile op => StoreCall.ofDb .profile op.program
  | .listEvents taskId => TaskStore.listEvents taskId
  | .listEventsAfter taskId cursor => TaskStore.listEventsAfter taskId cursor
  | .getPermissionRequest taskId requestId => TaskStore.getPermissionRequest taskId requestId
  | .listPermissionRequests filters => TaskStore.listPermissionRequests filters
  | .listGrants filters => GrantStore.list filters
  | .listProfiles filters => ProfileStore.list filters

end StoreOp

end OpenDaemon
