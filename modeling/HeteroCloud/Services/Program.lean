/-
  File:      Services/Program.lean
  Subject:   THE OPERATIONS ON SERVICES as program points and their statements: create and restore,
             update and rollback, start and stop, delete, observations, workload tokens, limits, the
             GPU catalog (crates/heterocloud-store/src: lib.rs, organizations.rs,
             workload_identity.rs, iam_roles.rs, cloud_organizations.rs, flash_operations.rs), the
             handlers that update a Flash service and keep its secrets
             (crates/heterocloud-api/src: routes.rs, flash_operation_routes.rs), and the outbox
             worker (crates/heterocloud-worker/src/main.rs).

  Advisory locks that are taken one after the other are taken by one statement, and so are made
  writes with nothing read between them; reads of rows that the locks held keep from changing are
  one read. Specifications come parsed: one that does not parse is refused before anything is
  written. Other parts of the system add principals and change projects, memberships, users and
  backups at any time (`addPrincipal`, `changeSurroundings`).

  What the provider does with a command and what the worker sees of its answer is an argument of the
  worker's call (`Exchange`). A worker claims any event that can be claimed.

  A handler starts where its caller has been authorized; a call to the secret manager is a
  transaction of one statement. The revision a rollback goes back to is an argument of its call. An
  answer of the API is given as the error of the store it stands for.
-/
import HeteroCloud.Services.Prepare

namespace HeteroCloud.Services

open Base Iam
open Store (ServiceInstanceState StoreError)

/-! ## 1. Arguments -/

/-- A service to create. `requestedQuotaUser` is given by a restore. -/
structure NewService where
  organizationId : Uuid
  projectId : Uuid
  principalId : Uuid
  name : String
  spec : ServiceSpec
  id : Uuid
  requestedQuotaUser : Option (Option Uuid) := none

/-- An update; a rollback expects a generation. -/
structure ServiceUpdate where
  organizationId : Uuid
  id : Uuid
  principalId : Uuid
  requestedProject : Option Uuid := none
  name : String
  spec : ServiceSpec
  expectedGeneration : Option Nat := none

/-- A start or a stop. -/
structure FlashSwitch where
  organizationId : Uuid
  id : Uuid
  principalId : Uuid
  stopped : Bool

structure ServiceDeletion where
  organizationId : Uuid
  id : Uuid
  provider : Provider
  principalId : Uuid

inductive ChangeKind where
  | create
  | update
  | start
  | stop
  deriving DecidableEq, Repr

/-- A change of a service under way. `existing` is the row it changes, locked. -/
structure Change where
  kind : ChangeKind
  organizationId : Uuid
  id : Uuid
  principalId : Uuid
  projectId : Uuid
  name : String
  requested : ServiceSpec
  existing : Option ServiceRow
  quotaUserId : Option Uuid

namespace Change

variable (ch : Change)

/-- `excluded_service_id`. -/
def excluded : Option Uuid := ch.existing.map (·.id)

/-- `existing.generation + 1`, or 1. -/
def generation : Nat := (ch.existing.map (·.generation)).getD 0 + 1

def stoppedSpec : ServiceSpec → Bool
  | .flash s => s.stopped
  | _ => false

variable (spec : ServiceSpec)

/-- `starting_flash`, or a start. -/
def strict : Bool :=
  match ch.kind with
  | .create | .start => true
  | .update => ch.existing.any (fun s => stoppedSpec s.spec) && !stoppedSpec spec
  | .stop => false

/-- What the service was, if it may stay as large: `allow_reduction`. -/
def previous : Option ServiceSpec :=
  if ch.strict spec then none else ch.existing.map (·.spec)

def taskRole : ServiceSpec → Option Uuid
  | .flash s => s.taskRole
  | _ => none

/-- The change ends the workload tokens of the service. -/
def dropsTokens : Bool :=
  match ch.kind with
  | .create | .start => false
  | .stop => true
  | .update => spec.provider == .flash && ch.existing.any fun s =>
      taskRole s.spec != taskRole spec || ch.projectId != s.projectId || stoppedSpec spec

/-- The row that is inserted. -/
def row : ServiceRow :=
  { id := ch.id, organizationId := ch.organizationId, projectId := ch.projectId, name := ch.name,
    spec, quotaUserId := ch.quotaUserId }

/-- The row after the change. -/
def result : ServiceRow :=
  match ch.existing with
  | none => ch.row spec
  | some old => old.changed ch.projectId ch.name spec

/-- The writes to the row and to what refers to it. -/
def serviceWrites : List Write :=
  match ch.existing with
  | none => [.insertService (ch.row spec)]
  | some old => (if ch.dropsTokens spec then [.dropServiceTokens old.id] else []) ++
      [.changeService old ch.projectId ch.name spec]

/-- The GPU type that is recorded for the service: none for another provider, or when it stops. -/
def gpuType (spec : ServiceSpec) : Option String :=
  if ch.kind = .stop then none else spec.flash?.bind (·.gpuType)

/-- `replace_flash_gpu_service_request`. -/
def requestWrites : List Write :=
  if ch.kind = .stop || spec.provider != .flash then []
  else match ch.gpuType spec with
    | none => [.dropGpuRequest ch.id]
    | some gpuType => [.putGpuRequest ch.id gpuType ch.principalId]

def payload : ReconcilePayload where
  serviceInstanceId := ch.id
  organizationId := ch.organizationId
  projectId := ch.projectId
  principalId := ch.principalId
  provider := spec.provider
  generation := ch.generation

end Change

/-- A new event. -/
def newEvent (id : Uuid) (now : Int) (topic : Topic) (payload : ReconcilePayload) :
    OutboxEventRow :=
  { id, topic, aggregateId := payload.serviceInstanceId, payload, availableAt := now,
    createdAt := now }

def ServiceDeletion.payload (q : ServiceDeletion) (s : ServiceRow) : ReconcilePayload :=
  ⟨q.id, q.organizationId, s.projectId, q.principalId, q.provider, s.generation + 1⟩

/-- The body of an update of a Flash service. -/
structure FlashServiceUpdate where
  organizationId : Uuid
  id : Uuid
  principalId : Uuid
  projectId : Option Uuid := none
  name : String
  spec : FlashSpec

/-- A rollback to a revision. The scheduler's expects no generation of its caller. -/
structure FlashRollback where
  organizationId : Uuid
  id : Uuid
  principalId : Uuid
  expectedGeneration : Option Nat
  targetGeneration : Nat
  targetReady : Bool
  target : FlashSpec

/-- A secret to store. -/
structure FlashSecretPut where
  organizationId : Uuid
  id : Uuid
  principalId : Uuid
  name : String
  value : String
  forLoadBalancer : Bool := false

structure FlashSecretDeletion where
  organizationId : Uuid
  id : Uuid
  name : String

structure WorkloadTokenMint where
  serviceId : Uuid
  role : Uuid
  podUid : Uuid
  digest : Nat
  expiresAt : Int

def WorkloadTokenMint.token (m : WorkloadTokenMint) (organization id : Uuid) :
    WorkloadAccessTokenRow :=
  ⟨id, organization, m.serviceId, m.role, m.podUid, m.digest, m.expiresAt⟩

/-- A change of limits, or another reason to send them again. -/
inductive QuotaOp where
  | updateDefaults (limits : ResourceQuotaLimits)
  | setOrganization (organization : Uuid) (limits : ResourceQuotaLimits)
  | clearOrganization (organization : Uuid)
  | setMember (organization user : Uuid) (limits : Option ResourceQuotaLimits)
  | assign (organization resource user : Uuid) (serviceAccount : Bool)
  | enableWeekly
  | createAccount (management user : Uuid)
  | reconcile (organization : Option Uuid)

/-- `FlashQuotaReconcileRow`, `FlashGpuReconcileRow`. -/
structure ReconcileRow where
  id : Uuid
  organizationId : Uuid
  projectId : Uuid
  generation : Nat
  principalId : Uuid

def ReconcileRow.payload (r : ReconcileRow) : ReconcilePayload :=
  ⟨r.id, r.organizationId, r.projectId, r.principalId, .flash, r.generation⟩

/-! ## 2. The provider -/

structure ProviderErrorBody where
  code : String
  message : String

structure AcceptedOperation where
  operationId : Uuid
  status : Json

/-- The body of an answer: its length, whether it could be read to its end, and what it reads as. -/
structure Body where
  bytes : Nat := 0
  complete : Bool := true
  error : Option ProviderErrorBody := none
  operation : Option AcceptedOperation := none
  /-- `/error/message`, trimmed and not empty. -/
  message : Option String := none

structure Response where
  status : Nat
  contentType : Option String := none
  body : Body := {}

def Response.isSuccess (r : Response) : Bool := within 200 299 r.status

/-- What became of a command: whether the provider accepted it, and the answer the worker got. -/
structure Exchange where
  accepted : Bool
  response : Option Response
  honest : response.any Response.isSuccess = true → accepted = true

def maxProviderErrorBodyBytes : Nat := 8192

/-- `value.split(';').next()`, trimmed, is `application/json`. -/
def isJsonContent (contentType : String) : Bool :=
  let value := contentType.toList.takeWhile (· != ';')
  let trimmed := ((value.dropWhile Char.isWhitespace).reverse.dropWhile Char.isWhitespace).reverse
  trimmed.map Char.toLower == "application/json".toList

/-- `provider_delete_already_absent`; none when the body could not be read. -/
def providerDeleteAlreadyAbsent (topic : Topic) (r : Response) : Option Bool :=
  if topic ≠ .delete || r.status != 404 || !r.contentType.any isJsonContent then some false
  else if r.body.bytes > maxProviderErrorBodyBytes then some false
  else if !r.body.complete then none
  else some (r.body.error.any fun e =>
    e.code == "not_found" && e.message.toList.any fun c => !c.isWhitespace)

def permanentReconcileRejection (status : Nat) : Bool :=
  status == 400 || status == 409 || status == 422

def providerReconcileFailed (status : Json) : Bool :=
  ((status.get "phase").bind Json.asString) == some "error"

/-- `FlashMemberWeeklyLimits`, and the weekly part of any limits. -/
structure WeeklyLimits where
  maxWeeklyCpuMillicoreSeconds : Nat
  maxWeeklyMemoryMibSeconds : Nat
  maxWeeklyGpuSeconds : Nat
  deriving DecidableEq, Repr

def ResourceQuotaLimits.weekly (l : ResourceQuotaLimits) : WeeklyLimits :=
  ⟨l.flash.maxWeeklyCpuMillicoreSeconds, l.flash.maxWeeklyMemoryMibSeconds,
    l.flash.maxWeeklyGpuSeconds⟩

/-- A member's weekly limits under those of the account. -/
def WeeklyLimits.under (member account : WeeklyLimits) : WeeklyLimits :=
  ⟨min member.maxWeeklyCpuMillicoreSeconds account.maxWeeklyCpuMillicoreSeconds,
    min member.maxWeeklyMemoryMibSeconds account.maxWeeklyMemoryMibSeconds,
    min member.maxWeeklyGpuSeconds account.maxWeeklyGpuSeconds⟩

/-- `FlashCloudOrganizationWeeklyLimits`. -/
structure CloudWeeklyLimits where
  accountIds : List Uuid
  limits : WeeklyLimits
  deriving DecidableEq, Repr

/-- `FlashProviderPolicy`. -/
structure FlashProviderPolicy where
  account : WeeklyLimits
  member : Option WeeklyLimits
  cloudOrganization : Option CloudWeeklyLimits
  deriving DecidableEq, Repr

/-- `provider_reconcile_spec`: a bucket without its metadata. -/
def providerReconcileSpec : ServiceSpec → ServiceSpec
  | .syouyu s => .syouyu { s with metadata := .null }
  | spec => spec

/-- `ReconcileRequest`, or a `DELETE`. -/
inductive Command where
  | put (generation : Nat) (name : String) (spec : ServiceSpec)
      (policy : Option FlashProviderPolicy) (quotaUserId : Option Uuid) (quotaOnly : Bool)
  | delete (generation : Nat)

/-- `WorkerError`. -/
inductive WorkerError where
  | invalidPayload
  | missingInstance
  | providerStatus (status : Nat)
  | store (error : StoreError)
  | unsupportedProvider (message : String)
  | json
  | request

/-- A claimed event whose service was read. -/
structure Delivery where
  event : OutboxEventRow
  exchange : Exchange
  instanceRow : ServiceRow

/-! ## 3. Points -/

inductive Success where
  | service (s : ServiceRow)
  | token (t : WorkloadAccessTokenRow)
  | authenticated (t : Option WorkloadAccessTokenRow)
  | settled

inductive Result where
  | ok (success : Success)
  | failed (error : StoreError)

inductive Call where
  -- `create_service_instance_with_id_for_user`
  | createServiceInstance (n : NewService)
  | createExisting (n : NewService)
  | createOwner (n : NewService)
  | createMember (n : NewService) (owner : Option Uuid)
  | createBackup (n : NewService) (owner : Option Uuid)
  | createLock (ch : Change)
  -- `update_service_instance_checked`
  | updateServiceInstance (q : ServiceUpdate)
  | updateExisting (q : ServiceUpdate)
  | updateProject (ch : Change)
  -- `update_flash_service`, `rollback`, `put_flash_secret_value`, `delete_flash_secret`
  | updateFlashService (q : FlashServiceUpdate)
  | updateSecrets (q : ServiceUpdate)
  | rollbackFlashService (q : FlashRollback)
  | putFlashSecret (q : FlashSecretPut)
  | putSecretList (q : FlashSecretPut) (service : ServiceRow)
  | putSecretStore (q : FlashSecretPut) (service : ServiceRow)
  | putSecretCommit (q : FlashSecretPut) (service : ServiceRow)
  | putSecretTransfer (q : FlashSecretPut) (service : ServiceRow)
  | deleteFlashSecret (q : FlashSecretDeletion)
  | deleteSecretTransfer (q : FlashSecretDeletion)
  | deleteSecretStore (q : FlashSecretDeletion)
  -- `set_flash_service_stopped`
  | setFlashServiceStopped (q : FlashSwitch)
  | switchExisting (q : FlashSwitch)
  -- the rest of these
  | flashAccess (ch : Change)
  | prepare (ch : Change)
  | cloudAllocation (ch : Change) (spec : ServiceSpec)
  | memberAllocation (ch : Change) (spec : ServiceSpec)
  | attach (ch : Change) (spec : ServiceSpec)
  | writeService (ch : Change) (spec : ServiceSpec)
  | requestUser (ch : Change) (spec : ServiceSpec)
  | writeRequest (ch : Change) (spec : ServiceSpec)
  | changeEvent (ch : Change) (spec : ServiceSpec)
  | changeCommit (ch : Change) (spec : ServiceSpec)
  -- `begin_delete_service_instance`
  | beginDeleteServiceInstance (q : ServiceDeletion)
  | deleteExisting (q : ServiceDeletion)
  | deleteEvent (q : ServiceDeletion) (s : ServiceRow)
  | deleteCommit (q : ServiceDeletion) (s : ServiceRow)
  -- `record_flash_observation`
  | recordFlashObservation (seen : ServiceRow) (status : Json)
  | observationCommit (seen : ServiceRow)
  -- `mint_workload_token`, `authenticate_workload_token`, `set_service_account_enabled`
  | mintWorkloadToken (m : WorkloadTokenMint)
  | mintInsert (m : WorkloadTokenMint) (organization : Uuid)
  | mintCommit (t : WorkloadAccessTokenRow)
  | authenticateWorkloadToken (digest : Nat)
  | setServiceAccountEnabled (organization role : Uuid) (enabled : Bool)
  | enabledCommit (organization role : Uuid) (enabled : Bool)
  -- `delete_iam_role`, and what other operations change
  | deleteIamRole (account role : Uuid) (detached : Bool)
  | addPrincipal (p : PrincipalRow)
  | changeSurroundings (s : Surroundings)
  -- changes of limits
  | quota (op : QuotaOp)
  | quotaWrite (op : QuotaOp)
  | enqueueAccounts (op : QuotaOp) (account : Uuid)
  | enqueueScan (op : QuotaOp) (scopes : List (Option Uuid))
  | enqueueEvents (op : QuotaOp) (rows : List ReconcileRow) (scopes : List (Option Uuid))
  | quotaCommit (op : QuotaOp)
  -- `sync_gpu_catalog`
  | syncGpuCatalog (devices : List GpuDeviceRow)
  | syncUsers (devices : List GpuDeviceRow)
  | syncDevices (devices : List GpuDeviceRow)
  | syncScan (gpuTypes : List String)
  | syncEvents (gpuTypes : List String) (rows : List ReconcileRow)
  | syncCommit (gpuTypes : List String)
  -- `process_one`
  | processOne (pick : Uuid) (x : Exchange)
  | deliver (ev : OutboxEventRow) (x : Exchange)
  | deliverOwner (dl : Delivery)
  | deliverQuota (dl : Delivery) (owner : Option Uuid)
  | deliverMember (dl : Delivery) (user : Uuid) (quota : ResourceQuotaLimits)
  | deliverMemberLimits (dl : Delivery) (user : Uuid) (quota limits : ResourceQuotaLimits)
  | deliverCloud (dl : Delivery) (owner : Option Uuid) (quota : ResourceQuotaLimits)
      (member : Option WeeklyLimits)
  | deliverAccounts (dl : Delivery) (owner : Option Uuid) (quota : ResourceQuotaLimits)
      (member : Option WeeklyLimits) (cloud : Uuid) (limits : ResourceQuotaLimits)
  | send (dl : Delivery) (command : Command)
  | completeDelete (dl : Delivery)
  | completeCommit (dl : Delivery)
  | markService (dl : Delivery) (state : ServiceInstanceState) (status : Json)
  | markCommit (dl : Delivery)
  | markDelivered (ev : OutboxEventRow)
  | retry (ev : OutboxEventRow) (error : WorkerError)
  -- a statement that is a transaction of its own is committed
  | claimCommit (ev : OutboxEventRow) (x : Exchange)
  | settle
  | done (result : Result)

abbrev Statement := Outcome Key Write Call

/-- The transaction is dropped and the error returned. -/
def abort (error : StoreError) : Statement := .rollback (.done (.failed error))

/-- A check in a transaction. -/
def check {α : Type} (result : Except StoreError α) (next : α → Statement) : Statement :=
  match result with
  | .ok a => next a
  | .error error => abort error

/-! ## 4. Creating, updating, starting and stopping -/

section Changes
variable (u : Setup) (d : Db)
variable (n : NewService)

/-- The service under the id, if any. -/
def createExisting : Statement :=
  match d.service n.id with
  | some s =>
    if s.organizationId ≠ n.organizationId ∨ s.provider ≠ n.spec.provider then abort .conflict
    else .commit (.done (.ok (.service s)))
  | none => .stmt [] [] (.createOwner n)

/-- The owner of the allocation: as requested, or `COALESCE(user_id, quota_user_id)`. -/
def createOwner : Statement :=
  match d.principals.find? fun p => p.id == n.principalId &&
      p.organizationId == n.organizationId && p.enabled with
  | none => abort .notFound
  | some p => .stmt [] [] (.createMember n (n.requestedQuotaUser.getD (p.userId.or p.quotaUserId)))

variable (owner : Option Uuid)

def createMember : Statement :=
  match owner with
  | some user =>
    if d.isMember n.organizationId user then .stmt [] [] (.createBackup n owner)
    else abort .notFound
  | none =>
    if n.spec.provider.counted &&
        d.memberQuotas.any (·.organizationId == n.organizationId) then
      abort (.requestRejected
        "a service account must have an allocation owner before creating resources")
    else .stmt [] [] (.createBackup n owner)

/-- The change a create makes. -/
def NewService.change : Change where
  kind := .create
  organizationId := n.organizationId
  id := n.id
  principalId := n.principalId
  projectId := n.projectId
  name := n.name
  requested := n.spec
  existing := none
  quotaUserId := owner

def createBackup : Statement :=
  match n.spec.flash?.bind (·.restoreFromBackupId) with
  | some backup =>
    if d.surroundings.usableBackups.contains (backup, n.organizationId) then
      .stmt [] [] (.createLock (n.change owner))
    else abort .conflict
  | none => .stmt [] [] (.createLock (n.change owner))

variable (ch : Change)

/-- Where the preparation starts: Flash checks the request and access to its GPU type first. -/
def Change.begin : Call :=
  match ch.requested with
  | .flash _ => .flashAccess ch
  | _ => .prepare ch

/-- The locks under which a specification is prepared: none for other providers. -/
def preparationLocks (organization : Uuid) : Provider → Locks
  | .other _ => []
  | provider => lockTenantAllocations u organization ++ (providerKeys provider).map (·, .exclusive)

def createLock : Statement :=
  .stmt (preparationLocks u ch.organizationId ch.requested.provider) [] ch.begin

variable (q : ServiceUpdate)

def updateServiceInstance : Statement :=
  if q.requestedProject.isSome && q.spec.provider != .flash then
    .read (.done (.failed (.requestRejected
      "project updates are supported for Flash services only")))
  else .stmt (preparationLocks u q.organizationId q.spec.provider) [] (.updateExisting q)

/-- The row of an account's service of a provider. -/
def Db.ownService (organization id : Uuid) (provider : Provider) : Option ServiceRow :=
  d.serviceInstances.find? fun s =>
    s.id == id && s.organizationId == organization && s.provider == provider

/-- The change an update makes. -/
def ServiceUpdate.change (s : ServiceRow) : Change where
  kind := .update
  organizationId := q.organizationId
  id := q.id
  principalId := q.principalId
  projectId := q.requestedProject.getD s.projectId
  name := q.name
  requested := q.spec
  existing := some s
  quotaUserId := s.quotaUserId

def updateExisting : Statement :=
  match d.ownService q.organizationId q.id q.spec.provider with
  | none => abort .notFound
  | some s =>
    if q.expectedGeneration.any (· != s.generation) then abort .conflict
    else if s.state = .deleting then abort .conflict
    else .stmt [(.service s.id, .exclusive)] [] (.updateProject (q.change s))

/-- A project it moves to is one of the account. -/
def updateProject : Statement :=
  if ch.existing.any (·.projectId == ch.projectId) ||
      d.surroundings.projects.contains (ch.projectId, ch.organizationId) then
    .stmt [] [] ch.begin
  else abort .notFound

/-- The specification of a Flash service with `stopped` set. -/
def ServiceSpec.setStopped (stopped : Bool) : ServiceSpec → ServiceSpec
  | .flash s => .flash { s with stopped }
  | spec => spec

/-- The change a start or a stop makes. -/
def FlashSwitch.change (q : FlashSwitch) (s : ServiceRow) : Change where
  kind := if q.stopped then .stop else .start
  organizationId := q.organizationId
  id := q.id
  principalId := q.principalId
  projectId := s.projectId
  name := s.name
  requested := s.spec.setStopped q.stopped
  existing := some s
  quotaUserId := s.quotaUserId

def switchExisting (q : FlashSwitch) : Statement :=
  match d.ownService q.organizationId q.id .flash with
  | none => abort .notFound
  | some s =>
    if s.state = .deleting then abort .conflict
    else if Change.stoppedSpec s.spec = q.stopped then .commit (.done (.ok (.service s)))
    else .stmt [(.service s.id, .exclusive)] []
      (if q.stopped then .writeService (q.change s) (s.spec.setStopped true)
      else (q.change s).begin)

/-- What precedes the count of the services: the limits are read, the request is checked. -/
def flashAccess (ch : Change) : Statement :=
  check (d.resourceQuota ch.organizationId) fun _ =>
    match ch.requested with
    | .flash s => check (d.flashAccess u ch.organizationId ch.principalId s) fun _ =>
        .stmt [] [] (.prepare ch)
    | _ => .stmt [] [] (.prepare ch)

/-- The ports the service had. -/
def Change.existingPorts : List FlashPort :=
  ((ch.existing.bind (·.spec.flash?)).map (·.ports)).getD []

/-- The specification as it will be stored. -/
def prepareSpec : Except StoreError ServiceSpec :=
  let rows := d.accountSpecs ch.excluded ch.organizationId ch.requested.provider
  match ch.requested with
  | .flow s => do
    let quota ← d.resourceQuota ch.organizationId
    return .flow (← prepareFlowSpec rows quota s)
  | .flash s => do
    let quota ← d.resourceQuota ch.organizationId
    return .flash (← prepareFlashSpec u.checks rows (d.occupiedPorts ch.excluded)
      ch.existingPorts quota s)
  | .syouyu s => do
    let quota ← d.resourceQuota ch.organizationId
    return .syouyu (← prepareSyouyuSpec u.checks rows (d.bucketOwner s.bucketName) ch.excluded
      (ch.existing.bind (·.spec.syouyu?)) quota s)
  | .vpc s => do
    let project := (ch.existing.map (·.projectId)).getD ch.projectId
    return .vpc (← d.prepareVpcSpec u ch.organizationId project ch.id ch.existing.isNone s)
  | .other _ _ => .ok ch.requested

def prepare : Statement :=
  check (prepareSpec u d ch) fun spec => .stmt [] [] (.cloudAllocation ch spec)

variable (spec : ServiceSpec)

def cloudAllocation : Statement :=
  check (d.validateCloudOrganizationAllocation u ch.organizationId ch.excluded (ch.previous spec)
    spec) fun _ => .stmt [] [] (.memberAllocation ch spec)

def memberAllocation : Statement :=
  match ch.quotaUserId with
  | none => .stmt [] [] (.attach ch spec)
  | some user => check (d.validateMemberAllocation ch.organizationId user ch.excluded
      (ch.previous spec) spec) fun _ => .stmt [] [] (.attach ch spec)

/-- An update must keep the disks of the service; its VPC must admit it. -/
def attach : Statement :=
  match spec with
  | .flash s =>
    let stored := ch.existing.bind fun old => old.spec.flash?.map (·, old.status)
    let disks := match ch.kind, stored with
      | .update, some (old, status) => validateFlashDiskUpdate old status s
      | _, _ => .ok ()
    check disks fun _ =>
      check (d.validateVpcAttachment ch.organizationId ch.projectId ch.id s) fun vpc =>
        .stmt (vpc.toList.map fun id => (.service id, .share)) [] (.writeService ch spec)
  | _ => .stmt [] [] (.writeService ch spec)

/-- Another service of the project has the name. -/
def Db.nameTaken (id project : Uuid) (provider : Provider) (name : String) : Bool :=
  d.serviceInstances.any fun s => s.id != id && s.projectId == project &&
    s.provider == provider && s.name == name

/-- `i64::MAX`. -/
def maxGeneration : Nat := 9223372036854775807

/-- Where a change continues after its row is written. -/
def Change.afterRow : Call :=
  if (ch.gpuType spec).isSome then .requestUser ch spec else .changeEvent ch spec

/-- The row is inserted or updated. Without a GPU type the request for one is deleted, too. -/
def writeService : Statement :=
  let locks : Locks := [(.service ch.id, .exclusive),
    (.serviceName ch.projectId spec.provider ch.name, .exclusive)]
  let writes := ch.serviceWrites spec ++
    (if (ch.gpuType spec).isSome then [] else ch.requestWrites spec)
  if ch.existing.isNone && !d.surroundings.projects.contains (ch.projectId, ch.organizationId) then
    abort .notFound
  else if ch.existing.isNone && d.knownServices.contains ch.id then abort (.sql true)
  else if d.nameTaken ch.id ch.projectId spec.provider ch.name then abort (.sql true)
  else if ch.generation > maxGeneration then
    abort (.invariant "service generation overflow")
  else .stmt locks writes (ch.afterRow spec)

/-- The principal must still be there and enabled. -/
def requestUser : Statement :=
  match d.principalUserId ch.organizationId ch.principalId with
  | none => abort (.invariant "authorized principal is missing")
  | some _ => .stmt [] [] (.writeRequest ch spec)

/-- The reference to the principal keeps it from being deleted. -/
def writeRequest : Statement :=
  if d.principals.any (·.id == ch.principalId) then
    .stmt [(.principal ch.principalId, .share)] (ch.requestWrites spec) (.changeEvent ch spec)
  else abort (.sql false)

def changeEvent (now : Int) (uuid : Nat → Nat) (ch : Change) (spec : ServiceSpec) : Statement :=
  .stmt [(.fresh (uuid 0), .exclusive)]
    [.insertEvent (newEvent (uuid 0) now .reconcile (ch.payload spec))] (.changeCommit ch spec)

end Changes

/-! ## 5. Handlers -/

section Handlers
variable (u : Setup) (d : Db)

/-- The handler returns an error. -/
def answerError (error : StoreError) : Statement := .read (.done (.failed error))

variable (name : String)

/-- `name.trim().chars().count()`. -/
def trimmedLength : Nat :=
  ((name.toList.dropWhile Char.isWhitespace).reverse.dropWhile Char.isWhitespace).length

/-- `validate_name`, then `validate_flash_spec`. -/
def flashRequestError (spec : FlashSpec) : Option String :=
  firstRefusal [
    refuse (!within 1 120 (trimmedLength name)) "name must contain between 1 and 120 characters",
    spec.validateRequest u.checks]

/-- The update the handler asks the store for. -/
def FlashServiceUpdate.update (q : FlashServiceUpdate) (prior : FlashSpec) : ServiceUpdate where
  organizationId := q.organizationId
  id := q.id
  principalId := q.principalId
  requestedProject := q.projectId
  name := q.name
  spec := .flash { q.spec with restoreFromBackupId := prior.restoreFromBackupId }

/-- `update_flash_service`. A service that uses secrets has them listed first. -/
def updateFlashService (q : FlashServiceUpdate) : Statement :=
  match (d.ownService q.organizationId q.id .flash).bind (·.spec.flash?) with
  | none => answerError .notFound
  | some prior =>
    let spec := { q.spec with restoreFromBackupId := prior.restoreFromBackupId }
    if q.spec.restoreFromBackupId.isSome &&
        q.spec.restoreFromBackupId != prior.restoreFromBackupId then
      answerError (.requestRejected "The disk restore source is immutable.")
    else match flashRequestError u q.name spec with
      | some message => answerError (.requestRejected message)
      | none =>
        match spec.effectiveSecretEnv with
        | .error message => answerError (.requestRejected message)
        | .ok attached =>
          if attached.isEmpty then .read (.updateServiceInstance (q.update prior))
          else .read (.updateSecrets (q.update prior))

/-- The secret manager has the secret. -/
def Db.hasSecret (service : Uuid) (name : String) : Bool := d.secrets.contains (service, name)

/-- The names of the secrets a specification uses. -/
def ServiceSpec.secretNames : ServiceSpec → List String
  | .flash s => s.secretNames
  | _ => []

def updateSecrets (q : ServiceUpdate) : Statement :=
  if q.spec.secretNames.any fun name => !d.hasSecret q.id name then
    answerError (.requestRejected
      "Create each referenced secret before attaching it to the service.")
  else .read (.updateServiceInstance q)

/-- `rollback_spec`: execution settings of the revision, everything else as it is; disks never get
smaller. -/
def rollbackSpec (target current : FlashSpec) : FlashSpec :=
  { target with
    taskRole := current.taskRole
    env := current.env
    metadata := current.metadata
    secretEnv := current.secretEnv
    secretFiles := current.secretFiles
    network := current.network
    exposure := current.exposure
    egress := current.egress
    stopped := current.stopped
    restoreFromBackupId := current.restoreFromBackupId
    region := current.region
    ephemeralStorageGib := max target.ephemeralStorageGib current.ephemeralStorageGib
    persistentStorageGib := match current.persistentStorageGib with
      | some size => some (max (target.persistentStorageGib.getD 0) size)
      | none => target.persistentStorageGib }

/-- The update a rollback asks the store for: it expects the generation it read. -/
def FlashRollback.update (q : FlashRollback) (current : ServiceRow) (spec : FlashSpec) :
    ServiceUpdate where
  organizationId := q.organizationId
  id := q.id
  principalId := q.principalId
  name := current.name
  spec := .flash (rollbackSpec q.target spec)
  expectedGeneration := some current.generation

/-- `rollback`, and the scheduler's. -/
def rollbackFlashService (q : FlashRollback) : Statement :=
  match d.ownService q.organizationId q.id .flash with
  | none => answerError .notFound
  | some current =>
    match current.spec.flash? with
    | none => answerError .json
    | some spec =>
      if q.expectedGeneration.any (· != current.generation) then answerError .conflict
      else if !q.targetReady || decide (q.targetGeneration ≥ current.generation) then
        answerError (.requestRejected "Select an earlier healthy revision.")
      else match (if q.expectedGeneration.isSome then
          (rollbackSpec q.target spec).validateRequest u.checks else none) with
        | some message => answerError (.requestRejected message)
        | none => .read (.updateServiceInstance (q.update current spec))

/-- `validate_flash_secret_name`. -/
def validFlashSecretName : Bool :=
  let cs := name.toList
  !cs.isEmpty && decide (name.utf8ByteSize ≤ 63) && cs.head?.any Char.isLower &&
    cs.getLast?.any Char.isAlphanum && cs.all fun c => lowerOrDigit c || c == '-'

def secretNameMessage : String :=
  "Secret names must be lowercase DNS labels (up to 63 characters)."

variable (q : FlashSecretPut)

/-- `put_flash_secret_value`. -/
def putFlashSecret : Statement :=
  if !validFlashSecretName q.name then answerError (.requestRejected secretNameMessage)
  else if q.value.isEmpty || decide (q.value.utf8ByteSize > 16384) ||
      q.value.toList.contains (Char.ofNat 0) then
    answerError (.requestRejected
      "Secret values must contain 1 to 16384 bytes and cannot contain NUL.")
  else match d.ownService q.organizationId q.id .flash with
    | none => answerError .notFound
    | some service => .read (.putSecretList q service)

variable (service : ServiceRow)

def putSecretList : Statement :=
  if !d.hasSecret q.id q.name && decide ((d.secrets.filter (·.1 == q.id)).length ≥ 32) then
    answerError (.requestRejected "A Flash service can store at most 32 secrets.")
  else .read (.putSecretStore q service)

/-- The secret the load balancer authenticates with. -/
def FlashSpec.clientSecretRef (s : FlashSpec) : Option String :=
  s.exposure.authentication.bind fun auth => (auth.get "client_secret_ref").bind Json.asString

/-- The update a rotation asks the store for: the name and the specification it read. -/
def FlashSecretPut.update : ServiceUpdate where
  organizationId := q.organizationId
  id := q.id
  principalId := q.principalId
  name := service.name
  spec := service.spec

/-- A service that uses the secret is updated. -/
def FlashSecretPut.finish : Call :=
  match service.spec.flash?.map FlashSpec.effectiveSecretEnv with
  | some (.ok effective) =>
    if effective.any (·.2 == q.name) then .updateServiceInstance (q.update service)
    else .done (.ok .settled)
  | some (.error message) => .done (.failed (.requestRejected message))
  | none => .done (.failed .json)

/-- After the secret is stored: a secret of the load balancer is written to the provider first. -/
def FlashSecretPut.stored : Call :=
  if q.forLoadBalancer || (service.spec.flash?.bind FlashSpec.clientSecretRef) == some q.name then
    .putSecretTransfer q service
  else q.finish service

/-- `delete_flash_secret`: a secret that is used is kept. -/
def deleteFlashSecret (q : FlashSecretDeletion) : Statement :=
  if !validFlashSecretName q.name then answerError (.requestRejected secretNameMessage)
  else match (d.ownService q.organizationId q.id .flash).bind (·.spec.flash?) with
    | none => answerError .notFound
    | some spec =>
      match spec.effectiveSecretEnv with
      | .error message => answerError (.requestRejected message)
      | .ok effective =>
        if effective.any (·.2 == q.name) || spec.clientSecretRef == some q.name then
          answerError .conflict
        else .read (.deleteSecretTransfer q)

def deleteSecretStore (q : FlashSecretDeletion) : Statement :=
  if d.hasSecret q.id q.name then .stmt [] [.deleteSecret q.id q.name] .settle
  else abort .notFound

end Handlers

/-! ## 6. Deleting, observing -/

section Lifecycle
variable (d : Db)

/-- A VPC is not deleted while Flash services are attached; a second deletion is inert. -/
def deleteExisting (q : ServiceDeletion) : Statement :=
  if q.provider == .vpc && !(d.vpcMembers q.organizationId q.id).isEmpty then
    abort (.requestRejected
      "VPC is still attached to Flash services; detach or delete them first")
  else match d.ownService q.organizationId q.id q.provider with
    | none => abort .notFound
    | some s =>
      if s.state = .deleting then .commit (.done (.ok (.service s)))
      else if s.generation + 1 > maxGeneration then
        abort (.invariant "service generation overflow")
      else .stmt [(.service s.id, .exclusive)] [.deleteService s] (.deleteEvent q s)

def deleteEvent (now : Int) (uuid : Nat → Nat) (q : ServiceDeletion) (s : ServiceRow) :
    Statement :=
  .stmt [(.fresh (uuid 0), .exclusive)]
    [.insertEvent (newEvent (uuid 0) now .delete (q.payload s))] (.deleteCommit q s)

variable (status : Json)

/-- `status["observed_generation"].as_i64()`. -/
def observedGeneration : Option Int :=
  (status.get "observed_generation").bind Json.asInt

/-- The state a phase stands for. -/
def observedState : ServiceInstanceState :=
  match (status.get "phase").bind Json.asString with
  | some "ready" => .ready
  | some "error" => .error
  | _ => .updating

def recordFlashObservation (seen : ServiceRow) (status : Json) : Statement :=
  if observedGeneration status ≠ some (seen.generation : Int) then
    .read (.done (.ok .settled))
  else match d.serviceInstances.find? fun s => s.id == seen.id &&
      s.organizationId == seen.organizationId && s.generation == seen.generation &&
      s.provider == .flash && s.live with
    | none => .rollback (.done (.ok .settled))
    | some s => .stmt [(.service s.id, .exclusive)]
        [.reportService s (observedState status) (.object [("status", status)])]
        (.observationCommit seen)

end Lifecycle

/-! ## 7. Workload tokens and principals -/

section Tokens
variable (d : Db)

/-- `s.spec->>'task_role' = $2`, not stopped, not in deletion. -/
def ServiceRow.runsAs (s : ServiceRow) (role : Uuid) : Bool :=
  s.live && s.spec.flash?.any fun f => f.taskRole == some role && !f.stopped

variable (m : WorkloadTokenMint)

/-- The service and role of a mint, joined. -/
def Db.mintScope : Option ServiceRow :=
  d.serviceInstances.find? fun s => s.id == m.serviceId && s.runsAs m.role &&
    d.principals.any fun p => p.id == m.role && p.organizationId == s.organizationId &&
      p.kind == .serviceAccount && p.enabled && !p.iamRole

def mintWorkloadToken : Statement :=
  match d.mintScope m with
  | none => abort .notFound
  | some s => .stmt [(.service m.serviceId, .exclusive), (.principal m.role, .exclusive)]
      [] (.mintInsert m s.organizationId)

/-- Expired tokens are deleted, and a Pod has at most 4096. -/
def mintInsert (now : Int) (uuid : Nat → Nat) (m : WorkloadTokenMint) (organization : Uuid) :
    Statement :=
  let tokens := d.workloadAccessTokens.filter fun t => !decide (t.expiresAt ≤ now)
  if (tokens.filter fun t => t.serviceInstanceId == m.serviceId &&
      t.podUid == m.podUid).length ≥ 4096 then
    abort (.requestRejected "Too many active workload sessions for this Pod")
  else if tokens.any (·.tokenHash == m.digest) then abort (.sql true)
  else .stmt [(.fresh (uuid 0), .exclusive)]
    [.dropExpiredTokens now, .insertToken (m.token organization (uuid 0))]
    (.mintCommit (m.token organization (uuid 0)))

/-- `authenticate_workload_token`. -/
def Db.authenticateWorkloadToken (now : Int) (digest : Nat) : Option WorkloadAccessTokenRow :=
  d.workloadAccessTokens.find? fun t => t.tokenHash == digest && decide (t.expiresAt > now) &&
    (d.serviceInstances.any fun s => s.id == t.serviceInstanceId &&
      s.organizationId == t.organizationId && s.runsAs t.principalId) &&
    d.principals.any fun p => p.id == t.principalId && p.organizationId == t.organizationId &&
      p.kind == .serviceAccount && p.enabled

variable (organization role : Uuid) (enabled : Bool)

/-- A service account that is disabled loses its tokens. -/
def enabledWrites : List Write :=
  .setPrincipalEnabled role enabled ::
    if enabled then [] else [.dropPrincipalTokens organization role]

def setServiceAccountEnabled : Statement :=
  if d.principals.any fun p => p.id == role && p.organizationId == organization &&
      p.kind == .serviceAccount then
    .stmt [(.principal role, .exclusive)] (enabledWrites organization role enabled)
      (.enabledCommit organization role enabled)
  else abort .notFound

/-- `delete_iam_role`; `detached` says that no policy is attached and no session active. -/
def deleteIamRole (account role : Uuid) (detached : Bool) : Statement :=
  match d.principals.find? fun p => p.id == role && p.organizationId == account && p.iamRole with
  | none => abort .notFound
  | some p =>
    if p.identityCenterRole then
      abort (.requestRejected "Identity Center roles are managed by their permission sets.")
    else if detached then
      .stmt [(.principal role, .exclusive)] [.deletePrincipal role] .settle
    else abort (.requestRejected
      "Detach role policies and revoke active sessions before deleting the role.")

end Tokens

/-! ## 8. Limits -/

section Limits
variable (u : Setup) (d : Db)

/-- The limits an operation is about to store. -/
def QuotaOp.limits : QuotaOp → Option ResourceQuotaLimits
  | .updateDefaults limits | .setOrganization _ limits => some limits
  | _ => none

def QuotaOp.locks : QuotaOp → Locks
  | .updateDefaults _ => [(.quotaDefaults, .exclusive)]
  | .setOrganization organization _ | .clearOrganization organization
  | .setMember organization _ _ | .assign organization _ _ _ =>
      lockTenantAllocations u organization
  | .enableWeekly | .createAccount _ _ | .reconcile _ => []

variable (op : QuotaOp)

def quota : Statement :=
  match op.limits.bind ResourceQuotaLimits.validate with
  | some message => .read (.done (.failed (.requestRejected message)))
  | none => .stmt (op.locks u) [] (.quotaWrite op)

/-- A principal without an owner, that needs one. -/
def PrincipalRow.unassigned (p : PrincipalRow) : Bool :=
  p.quotaUserId.isNone && p.kind == .serviceAccount && p.enabled && !p.identityCenterRole

variable (s : ServiceRow)

/-- A service without an owner, that needs one. -/
def ServiceRow.unassigned : Bool :=
  s.quotaUserId.isNone && s.live && s.provider.counted

/-- `set_member_resource_quota`. -/
def setMemberQuota (op : QuotaOp) (organization user : Uuid)
    (limits : Option ResourceQuotaLimits) : Statement :=
  let next := .enqueueScan op [some organization]
  check (d.resourceQuota organization) fun organizationLimits =>
    if !d.isMember organization user then abort .notFound
    else match limits with
      | none => .stmt [] [.setMemberQuota organization user none] next
      | some own => check (parseResourceQuota own) fun own =>
        if (d.serviceInstances.any fun s => s.organizationId == organization && s.unassigned) ||
            d.principals.any fun p => p.organizationId == organization && p.unassigned then
          abort (.requestRejected ("assign existing services and service accounts to a member " ++
            "before setting personal limits"))
        else if own.registry ≠ organizationLimits.registry ∨
            own.syouyu.maxCredentialsPerBucket ≠
              organizationLimits.syouyu.maxCredentialsPerBucket ∨
            own.syouyu.maxTotalCredentials ≠ organizationLimits.syouyu.maxTotalCredentials then
          abort (.requestRejected
            "registry and Syouyu credential limits are shared by the organization")
        else match organizationLimits.capped own with
          | .error message => abort (.requestRejected message)
          | .ok capped =>
            if capped ≠ own then
              abort (.requestRejected "member limits cannot exceed organization limits")
            else .stmt [] [.setMemberQuota organization user (some own)] next

/-- `assign_quota_resource`. -/
def assignQuotaResource (organization resource user : Uuid) (serviceAccount : Bool) : Statement :=
  if !d.isMember organization user then abort .notFound
  else if serviceAccount then
    match d.principals.find? fun p => p.id == resource && p.organizationId == organization &&
        p.unassigned with
    | none => abort .conflict
    | some p => .stmt [(.principal p.id, .exclusive)] [.setPrincipalOwner p.id user]
        (.quotaCommit op)
  else
    match d.serviceInstances.find? fun s => s.id == resource &&
        s.organizationId == organization && s.unassigned with
    | none => abort .conflict
    | some s => .stmt [(.service s.id, .exclusive)] [.assignService s user]
        (.enqueueScan op [some organization])

variable (uuid : Nat → Nat)

/-- `create_cloud_member_account`; the directory knows the accounts to come. -/
def createCloudMemberAccount (op : QuotaOp) (management user : Uuid) : Statement :=
  match u.cloudOf management with
  | none => abort .notFound
  | some cloud =>
    if u.management cloud ≠ management ∨ !d.surroundings.activeUsers.contains user then
      abort .notFound
    else if u.cloudOf (uuid 0) ≠ some cloud then abort (.sql false)
    else .stmt [(.cloudOrganization cloud, .exclusive), (.fresh (uuid 0), .exclusive),
        (.fresh (uuid 1), .exclusive)]
      [.insertAccount (uuid 0),
        .insertPrincipal { id := uuid 1, organizationId := uuid 0, kind := .user,
                           userId := some user, quotaUserId := some user },
        .insertMembership (uuid 0) user]
      (.enqueueAccounts op management)

def quotaWrite (op : QuotaOp) : Statement :=
  match op with
  | .updateDefaults limits => .stmt [] [.setQuotaDefaults limits] (.enqueueScan op [none])
  | .setOrganization organization limits =>
    if d.accounts.contains organization then
      .stmt [] [.setOrganizationQuota organization (some limits)]
        (.enqueueAccounts op organization)
    else abort .notFound
  | .clearOrganization organization =>
    if d.accounts.contains organization then
      check (parseResourceQuota d.quotaDefaults) fun _ =>
        .stmt [] [.setOrganizationQuota organization none] (.enqueueAccounts op organization)
    else abort .notFound
  | .setMember organization user limits => setMemberQuota d op organization user limits
  | .assign organization resource user serviceAccount =>
    assignQuotaResource d op organization resource user serviceAccount
  | .enableWeekly =>
    .stmt [(.activation, .exclusive)] [.enableWeeklyQuotas] (.enqueueScan op [none])
  | .createAccount management user => createCloudMemberAccount u d uuid op management user
  | .reconcile organization => .stmt [] [] (.enqueueScan op [organization])

variable (account : Uuid)

/-- The accounts of the cloud organizations the account manages. -/
def Db.managedAccounts : List Uuid :=
  d.accounts.filter fun a => (u.cloudOf a).any fun c => u.management c == account

/-- `enqueue_organization_flash_quotas_tx`. -/
def enqueueAccounts : Statement :=
  let accounts := d.managedAccounts u account
  .stmt [] [] (.enqueueScan op
    (if accounts.isEmpty then [some account] else (orderBy id accounts).map some))

/-- The requester of the latest reconcile event of the service's generation. -/
def Db.latestRequester : Option Uuid :=
  ((d.outboxEvents.filter fun e => e.aggregateId == s.id && e.topic == .reconcile &&
    e.payload.generation == s.generation).foldl (fun latest e =>
      match latest with
      | none => some e
      | some l => if l.createdAt < e.createdAt ∨ (l.createdAt = e.createdAt ∧ l.id < e.id)
          then some e else some l) (none : Option OutboxEventRow)).map (·.payload.principalId)

/-- An enabled principal of the service's account: that requester, or the first. -/
def Db.quotaPrincipal : Option Uuid :=
  let enabled := (orderBy (·.id) (d.principals.filter fun p =>
    p.organizationId == s.organizationId && p.enabled)).map (·.id)
  (enabled.find? fun p => d.latestRequester s == some p).or enabled.head?

variable (scope : Option Uuid)

/-- A service in the scope of a refresh. -/
def ServiceRow.inScope : Bool :=
  s.provider == .flash && s.live && scope.all (· == s.organizationId)

/-- A service as a refresh enqueues it. -/
def ServiceRow.reconcileRow (principalId : Uuid) : ReconcileRow :=
  ⟨s.id, s.organizationId, s.projectId, s.generation, principalId⟩

/-- The `SELECT` of `enqueue_flash_quota_reconcile_tx`: a service whose account has no enabled
principal is not in it. -/
def Db.quotaReconcileRows : List ReconcileRow :=
  (orderBy (·.id) (d.serviceInstances.filter fun s => s.inScope scope)).filterMap fun s =>
    (d.quotaPrincipal s).map s.reconcileRow

def enqueueScan : List (Option Uuid) → Statement
  | [] => .stmt [] [] (.quotaCommit op)
  | scope :: scopes => .stmt [] [] (.enqueueEvents op (d.quotaReconcileRows scope) scopes)

def enqueueEvents (now : Int) (uuid : Nat → Nat) (op : QuotaOp) (scopes : List (Option Uuid)) :
    List ReconcileRow → Statement
  | [] => .stmt [] [] (.enqueueScan op scopes)
  | row :: rows => .stmt [(.fresh (uuid 0), .exclusive)]
      [.insertEvent (newEvent (uuid 0) now .flashQuota row.payload)]
      (.enqueueEvents op rows scopes)

end Limits

/-! ## 9. The GPU catalog -/

section Catalog
variable (d : Db)

def maxGpuCatalogDevices : Nat := 4096

def maxGpuPrivateAssignments : Nat := 1000

variable (devices : List GpuDeviceRow)

/-- Two devices of one type under different names. -/
def namesDiffer : Bool :=
  devices.any fun g => devices.any fun h => g.gpuType == h.gpuType && g.displayName != h.displayName

def syncGpuCatalog : Statement :=
  if devices.length > maxGpuCatalogDevices then
    .read (.done (.failed (.requestRejected "GPU catalog contains more than 4096 devices")))
  else if !decide (devices.map (·.managementId)).Nodup then
    .read (.done (.failed (.requestRejected "GPU catalog management_id values must be unique")))
  else if namesDiffer devices then
    .read (.done (.failed (.requestRejected
      "all devices of one gpu_type must use the same display_name")))
  else .stmt [(.flashAllocation, .exclusive)] [] (.syncUsers devices)

variable (g : GpuDeviceRow)

/-- Assignments to users that are not active are dropped; the rest is sorted. -/
def GpuDeviceRow.retain (active : List Uuid) : GpuDeviceRow :=
  { g with assignedUserIds := (orderBy id (g.assignedUserIds.filter active.contains)).dedup }

def syncUsers : Statement :=
  .stmt [(.gpuDevices, .exclusive)] []
    (.syncDevices (devices.map (·.retain d.surroundings.activeUsers)))

/-- The device differs in what services depend on. -/
def GpuDeviceRow.differs (old new : GpuDeviceRow) : Bool :=
  old.gpuType != new.gpuType || old.displayName != new.displayName ||
    old.visibility != new.visibility || old.assignedUserIds != new.assignedUserIds

/-- `affected_types`. -/
def affectedTypes (old new : List GpuDeviceRow) : List String :=
  (old.flatMap fun g =>
    match new.find? (·.managementId == g.managementId) with
    | none => [g.gpuType]
    | some g' => if g.differs g' then [g.gpuType, g'.gpuType] else []) ++
  (new.filter fun g => !old.any (·.managementId == g.managementId)).map (·.gpuType)

/-- `validate_gpu_device_config_fields`. -/
def gpuDeviceErrors : List (Option String) :=
  let untidy (s : String) (limit : Nat) := s.isEmpty || decide (s.utf8ByteSize > limit) ||
    s.toList.head?.any Char.isWhitespace || s.toList.getLast?.any Char.isWhitespace ||
    s.toList.any fun c => decide (c.val < 32) || decide (c.val = 127)
  [ refuse (untidy g.managementId 512)
      "GPU management_id must be a trimmed, non-control string of at most 512 bytes",
    refuse (!validFlashGpuType g.gpuType)
      "GPU gpu_type must be a lowercase DNS label of at most 63 bytes",
    refuse (untidy g.displayName 120)
      "GPU display_name must be a trimmed, non-control string of at most 120 bytes",
    refuse (g.visibility == .openToAll && !g.assignedUserIds.isEmpty)
      "open GPUs cannot have private user assignments",
    refuse (decide (g.assignedUserIds.length > maxGpuPrivateAssignments))
      s!"a GPU can have at most {maxGpuPrivateAssignments} private user assignments" ]

/-- The catalog replaces the devices. -/
def syncDevices : Statement :=
  check (passes (devices.flatMap gpuDeviceErrors)) fun _ =>
    .stmt [] [.setGpuDevices devices] (.syncScan (affectedTypes d.gpuDevices devices))

/-- The requester of a service's GPU type, if it is still a principal of the account. -/
def Db.gpuRequester (q : FlashGpuServiceRequestRow) (s : ServiceRow) : Option Uuid :=
  q.requestedByPrincipalId.filter fun id =>
    d.principals.any fun p => p.id == id && p.organizationId == s.organizationId

variable (gpuTypes : List String)

/-- The rows of `enqueue_flash_gpu_reconciles` that have a principal. -/
def Db.gpuReconcileRows : List ReconcileRow :=
  (orderBy (·.id) (d.serviceInstances.filter (·.live))).flatMap fun s =>
    (d.gpuServiceRequests.filter fun q => q.serviceInstanceId == s.id &&
      gpuTypes.contains q.gpuType).filterMap fun q => (d.gpuRequester q s).map s.reconcileRow

def syncScan : Statement :=
  .stmt [] [] (.syncEvents gpuTypes (d.gpuReconcileRows gpuTypes))

def syncEvents (now : Int) (uuid : Nat → Nat) (gpuTypes : List String) :
    List ReconcileRow → Statement
  | [] => .stmt [] [] (.syncCommit gpuTypes)
  | row :: rows => .stmt [(.fresh (uuid 0), .exclusive)]
      [.insertEvent (newEvent (uuid 0) now .reconcile row.payload)] (.syncEvents gpuTypes rows)

end Catalog

/-! ## 10. The worker -/

section Worker
variable (u : Setup) (d : Db)

/-- Two minutes. -/
def claimTimeout : Int := 120000000

/-- `delivered_at IS NULL AND available_at <= now()`, and not claimed lately. -/
def OutboxEventRow.claimable (e : OutboxEventRow) (now : Int) : Bool :=
  e.deliveredAt == none && decide (e.availableAt ≤ now) &&
    e.lockedAt.all fun t => decide (t < now - claimTimeout)

/-- `claim_outbox_event`. -/
def claimOutboxEvent (now : Int) (pick : Uuid) (x : Exchange) : Statement :=
  match d.outboxEvents.find? fun e => e.id == pick && e.claimable now with
  | none => .rollback (.done (.ok .settled))
  | some e => .stmt [(.event e.id, .exclusive)] [.claimEvent e.id now]
      (.claimCommit { e with lockedAt := some now, attempts := e.attempts + 1 } x)

/-- `service_instance_matches_payload`. -/
def matchesPayload (s : ServiceRow) (p : ReconcilePayload) : Bool :=
  s.generation == p.generation && s.organizationId == p.organizationId &&
    s.projectId == p.projectId && s.provider == p.provider

/-- `ProviderTargets::target`. -/
def targetError : Provider → Option WorkerError
  | .vpc => if u.vpcEndpoint then none
      else some (.unsupportedProvider "vpc endpoint is not configured")
  | .other name => some (.unsupportedProvider name)
  | _ => none

variable (dl : Delivery)

/-- The command for a service of another provider than Flash. -/
def Delivery.plainPut : Command :=
  .put dl.instanceRow.generation dl.instanceRow.name (providerReconcileSpec dl.instanceRow.spec)
    none none (dl.event.topic == .flashQuota)

variable (ev : OutboxEventRow)

/-- `deliver`, to where it has read the service. A superseded event is settled. -/
def deliver (x : Exchange) : Call :=
  if ev.payload.serviceInstanceId ≠ ev.aggregateId ∨
      (ev.topic = .flashQuota ∧ ev.payload.provider ≠ .flash) then .retry ev .invalidPayload
  else match targetError u ev.payload.provider with
    | some error => .retry ev error
    | none =>
      match d.service ev.payload.serviceInstanceId with
      | none => if ev.topic = .delete then .markDelivered ev else .retry ev .missingInstance
      | some s =>
        if !matchesPayload s ev.payload then .markDelivered ev
        else if ev.topic = .delete then .send ⟨ev, x, s⟩ (.delete s.generation)
        else if s.provider = .flash then .deliverOwner ⟨ev, x, s⟩
        else .send ⟨ev, x, s⟩ (Delivery.plainPut ⟨ev, x, s⟩)

/-- A read of the store in `deliver`. -/
def fetch {α : Type} (dl : Delivery) (result : Except StoreError α) (next : α → Call) : Call :=
  match result with
  | .ok a => next a
  | .error error => .retry dl.event (.store error)

/-- `service_quota_user`. -/
def deliverOwner : Call :=
  match d.serviceInstances.find? fun s => s.id == dl.event.payload.serviceInstanceId &&
      s.organizationId == dl.event.payload.organizationId with
  | none => .retry dl.event (.store .notFound)
  | some s => .deliverQuota dl s.quotaUserId

variable (owner : Option Uuid)

/-- `effective_resource_quota`. -/
def deliverQuota : Call :=
  fetch dl (d.resourceQuota dl.event.payload.organizationId) fun quota =>
    match owner with
    | some user => .deliverMember dl user quota
    | none => .deliverCloud dl none quota none

variable (user : Uuid) (quota : ResourceQuotaLimits)

/-- `effective_member_quota`: the limits of the account, then those of the member. -/
def deliverMember : Call :=
  fetch dl (d.resourceQuota dl.event.payload.organizationId) fun limits =>
    .deliverMemberLimits dl user quota limits

def deliverMemberLimits (quota limits : ResourceQuotaLimits) : Call :=
  fetch dl (d.memberQuota dl.event.payload.organizationId user limits) fun own =>
    .deliverCloud dl (some user) quota (some (own.weekly.under quota.weekly))

/-- The command for a Flash service. -/
def Delivery.flashPut (policy : FlashProviderPolicy) : Command :=
  .put dl.instanceRow.generation dl.instanceRow.name dl.instanceRow.spec (some policy) owner
    (dl.event.topic == .flashQuota)

variable (member : Option WeeklyLimits)

/-- `cloud_flash_weekly_quota`: the limits of the management account and whether they are used. -/
def deliverCloud : Call :=
  match u.cloudOf dl.event.payload.organizationId with
  | none => .retry dl.event (.store .notFound)
  | some cloud =>
    if d.weeklyQuotasEnabled then
      .deliverAccounts dl owner quota member cloud (d.limitsOf (u.management cloud))
    else .send dl (dl.flashPut owner ⟨quota.weekly, member, none⟩)

variable (cloud : Uuid)

/-- The accounts of a cloud organization. -/
def Db.cloudAccounts : List Uuid :=
  orderBy id (d.accounts.filter fun a => u.cloudOf a == some cloud)

/-- The accounts it counts over. -/
def deliverAccounts (limits : ResourceQuotaLimits) : Call :=
  let accounts := d.cloudAccounts u cloud
  if accounts.isEmpty || decide (accounts.length > 10000) then
    .retry dl.event (.store (.invariant "invalid cloud organization account count"))
  else fetch dl (parseResourceQuota limits) fun limits =>
    .send dl (dl.flashPut owner ⟨quota.weekly, member, some ⟨accounts, limits.weekly⟩⟩)

/-- `{"operation_id": .., "status": ..}`. -/
def operationStatus (operationId : Uuid) (status : Json) : Json :=
  .object [("operation_id", .int operationId), ("status", status)]

variable (r : Response)

/-- The status of a rejected configuration. -/
def rejectionStatus : Json :=
  operationStatus dl.event.id (.object [
    ("message", .string (r.body.message.getD (dl.event.payload.provider.name ++
      s!" provider rejected the requested configuration with HTTP {r.status}"))),
    ("phase", .string "error"), ("provider_http_status", .int r.status)])

/-- What the worker does with an answer. -/
def answered : Call :=
  match providerDeleteAlreadyAbsent dl.event.topic r with
  | none => .retry dl.event .request
  | some absent =>
    if dl.event.topic = .delete ∧ (r.isSuccess = true ∨ absent = true) then
      if absent = true ∨ r.body.operation.isSome = true then .completeDelete dl
      else .retry dl.event .json
    else if !r.isSuccess then
      if dl.event.topic = .reconcile ∧ permanentReconcileRejection r.status = true then
        .markService dl .error (rejectionStatus dl r)
      else .retry dl.event (.providerStatus r.status)
    else match r.body.operation with
      | none => .retry dl.event .json
      | some operation =>
        if dl.event.topic = .flashQuota then .markDelivered dl.event
        else if providerReconcileFailed operation.status then
          .markService dl .error (operationStatus operation.operationId operation.status)
        else .markService dl .ready (operationStatus operation.operationId operation.status)

/-- The command goes out; its answer may be lost. -/
def send : Call :=
  match dl.exchange.response with
  | none => .retry dl.event .request
  | some r => answered dl r

/-- The row the worker's updates are about: of the id, the provider and the generation. -/
def Db.payloadService (p : ReconcilePayload) : Option ServiceRow :=
  d.serviceInstances.find? fun s =>
    s.id == p.serviceInstanceId && s.generation == p.generation && s.provider == p.provider

/-- `complete_delete_service_instance`. -/
def completeDelete : Statement :=
  match d.serviceInstances.find? fun s => s.id == dl.event.payload.serviceInstanceId &&
      s.generation == dl.event.payload.generation &&
      s.provider == dl.event.payload.provider && s.state == .deleting with
  | none => .stmt [] [] (.completeCommit dl)
  | some s => .stmt [(.service s.id, .exclusive)] [.removeService s] (.completeCommit dl)

/-- `mark_service_instance_ready`, `mark_service_instance_error`. -/
def markService (state : ServiceInstanceState) (status : Json) : Statement :=
  match d.payloadService dl.event.payload with
  | none => .stmt [] [] (.markCommit dl)
  | some s => .stmt [(.service s.id, .exclusive)] [.reportService s state status]
      (.markCommit dl)

/-- `2_i32.saturating_pow(attempts.clamp(1, 8)).min(300)` seconds. -/
def retryDelay (attempts : Nat) : Int :=
  (min (2 ^ (max 1 (min attempts 8))) 300 : Nat) * 1000000

def settleEvent (write : Write) : Statement :=
  .stmt [(.event ev.id, .exclusive)] [write] .settle

end Worker

/-! ## 11. The program -/

/-- The statement at each point. -/
def exec (u : Setup) (clock now : Int) (uuid : Nat → Nat) (d : Db) : Call → Option Statement
  | .createServiceInstance n =>
    some (.stmt (lockTenantAllocations u n.organizationId) [] (.createExisting n))
  | .createExisting n => some (createExisting d n)
  | .createOwner n => some (createOwner d n)
  | .createMember n owner => some (createMember d n owner)
  | .createBackup n owner => some (createBackup d n owner)
  | .createLock ch => some (createLock u ch)
  | .updateServiceInstance q => some (updateServiceInstance u q)
  | .updateExisting q => some (updateExisting d q)
  | .updateProject ch => some (updateProject d ch)
  | .updateFlashService q => some (updateFlashService u d q)
  | .updateSecrets q => some (updateSecrets d q)
  | .rollbackFlashService q => some (rollbackFlashService u d q)
  | .putFlashSecret q => some (putFlashSecret d q)
  | .putSecretList q service => some (putSecretList d q service)
  | .putSecretStore q service =>
    some (.stmt [] [.putSecret q.id q.name] (.putSecretCommit q service))
  | .putSecretCommit q service => some (.commit (q.stored service))
  | .putSecretTransfer q service => some (.read (q.finish service))
  | .deleteFlashSecret q => some (deleteFlashSecret d q)
  | .deleteSecretTransfer q => some (.read (.deleteSecretStore q))
  | .deleteSecretStore q => some (deleteSecretStore d q)
  | .setFlashServiceStopped q =>
    some (.stmt (preparationLocks u q.organizationId .flash) [] (.switchExisting q))
  | .switchExisting q => some (switchExisting d q)
  | .flashAccess ch => some (flashAccess u d ch)
  | .prepare ch => some (prepare u d ch)
  | .cloudAllocation ch spec => some (cloudAllocation u d ch spec)
  | .memberAllocation ch spec => some (memberAllocation d ch spec)
  | .attach ch spec => some (attach d ch spec)
  | .writeService ch spec => some (writeService d ch spec)
  | .requestUser ch spec => some (requestUser d ch spec)
  | .writeRequest ch spec => some (writeRequest d ch spec)
  | .changeEvent ch spec => some (changeEvent now uuid ch spec)
  | .changeCommit ch spec => some (.commit (.done (.ok (.service (ch.result spec)))))
  | .beginDeleteServiceInstance q =>
    some (.stmt (lockTenantAllocations u q.organizationId) [] (.deleteExisting q))
  | .deleteExisting q => some (deleteExisting d q)
  | .deleteEvent q s => some (deleteEvent now uuid q s)
  | .deleteCommit _ s => some (.commit (.done (.ok (.service s.deleted))))
  | .recordFlashObservation seen status => some (recordFlashObservation d seen status)
  | .observationCommit _ => some (.commit (.done (.ok .settled)))
  | .mintWorkloadToken m => some (mintWorkloadToken d m)
  | .mintInsert m organization => some (mintInsert d now uuid m organization)
  | .mintCommit t => some (.commit (.done (.ok (.token t))))
  | .authenticateWorkloadToken digest =>
    some (.read (.done (.ok (.authenticated (d.authenticateWorkloadToken clock digest)))))
  | .setServiceAccountEnabled organization role enabled =>
    some (setServiceAccountEnabled d organization role enabled)
  | .enabledCommit _ _ _ => some (.commit (.done (.ok .settled)))
  | .deleteIamRole account role detached => some (deleteIamRole d account role detached)
  | .addPrincipal p => some (.stmt [(.fresh (uuid 0), .exclusive)]
      [.insertPrincipal { p with id := uuid 0 }] .settle)
  | .changeSurroundings s =>
    some (.stmt [] [.setSurroundings s] .settle)
  | .quota op => some (quota u op)
  | .quotaWrite op => some (quotaWrite u d uuid op)
  | .enqueueAccounts op account => some (enqueueAccounts u d op account)
  | .enqueueScan op scopes => some (enqueueScan d op scopes)
  | .enqueueEvents op rows scopes => some (enqueueEvents now uuid op scopes rows)
  | .quotaCommit _ => some (.commit (.done (.ok .settled)))
  | .syncGpuCatalog devices => some (syncGpuCatalog devices)
  | .syncUsers devices => some (syncUsers d devices)
  | .syncDevices devices => some (syncDevices d devices)
  | .syncScan gpuTypes => some (syncScan d gpuTypes)
  | .syncEvents gpuTypes rows => some (syncEvents now uuid gpuTypes rows)
  | .syncCommit _ => some (.commit (.done (.ok .settled)))
  | .processOne pick x => some (claimOutboxEvent d now pick x)
  | .deliver ev x => some (.read (deliver u d ev x))
  | .deliverOwner dl => some (.read (deliverOwner d dl))
  | .deliverQuota dl owner => some (.read (deliverQuota d dl owner))
  | .deliverMember dl user quota => some (.read (deliverMember d dl user quota))
  | .deliverMemberLimits dl user quota limits =>
    some (.read (deliverMemberLimits d dl user quota limits))
  | .deliverCloud dl owner quota member => some (.read (deliverCloud u d dl owner quota member))
  | .deliverAccounts dl owner quota member cloud limits =>
    some (.read (deliverAccounts u d dl owner quota member cloud limits))
  | .send dl _ => some (.read (send dl))
  | .completeDelete dl => some (completeDelete d dl)
  | .completeCommit dl => some (.commit (.markDelivered dl.event))
  | .markService dl state status => some (markService d dl state status)
  | .markCommit dl => some (.commit (.markDelivered dl.event))
  | .markDelivered ev => some (settleEvent ev (.deliverEvent ev.id now))
  | .retry ev _ => some (settleEvent ev (.retryEvent ev.id (now + retryDelay ev.attempts)))
  | .claimCommit ev x => some (.commit (.deliver ev x))
  | .settle => some (.commit (.done (.ok .settled)))
  | .done _ => none

/-- Any statement may fail: the worker then schedules another attempt, if it has claimed an
event. -/
def fail : Call → Option Call
  | .done _ => none
  | .deliver ev _ => some (.retry ev (.store (.sql false)))
  | .deliverOwner dl | .deliverQuota dl _ | .deliverMember dl _ _ | .deliverMemberLimits dl _ _ _
  | .deliverCloud dl _ _ _ | .deliverAccounts dl _ _ _ _ _ | .send dl _ | .completeDelete dl
  | .completeCommit dl | .markService dl _ _ | .markCommit dl =>
    some (.retry dl.event (.store (.sql false)))
  | _ => some (.done (.failed (.sql false)))

def Call.isStart : Call → Bool
  | .createServiceInstance _ | .updateServiceInstance _ | .updateFlashService _
  | .rollbackFlashService _ | .putFlashSecret _ | .deleteFlashSecret _ | .setFlashServiceStopped _
  | .beginDeleteServiceInstance _ | .recordFlashObservation _ _ | .mintWorkloadToken _
  | .authenticateWorkloadToken _ | .setServiceAccountEnabled _ _ _ | .deleteIamRole _ _ _
  | .addPrincipal _ | .changeSurroundings _ | .quota _ | .syncGpuCatalog _ | .processOne _ _ =>
    true
  | _ => false

/-- **The program.** -/
def program (u : Setup) : Program Db Key Write Call where
  apply := Write.apply
  exec := exec u
  fail := fail
  start c := c.isStart = true
  width := 2

instance (u : Setup) : DecidablePred (program u).start :=
  fun c => inferInstanceAs (Decidable (c.isStart = true))

abbrev View := World Db Key Write Call

/-- The writes of a transaction, in order. -/
abbrev applyAll (u : Setup) (ws : List Write) (d : Db) : Db := (program u).applyAll ws d

end HeteroCloud.Services
