/-
  File:      Registry/Program.lean
  Subject:   REGISTRY CREDENTIALS and the limits on their number (crates/heterocloud-store/src/
             lib.rs): the tables, and the operations on them as program points and statements.

  The requests of `lock_tenant_allocations` are one statement here: they come before everything
  the transaction reads. Events for Flash services that a change of quotas queues are left out.
-/
import HeteroCloud.Services.Prepare

namespace HeteroCloud.Registry

open Base Iam
open Services (ResourceQuotaLimits OrganizationResourceQuotaRow parseResourceQuota)
open Store (StoreError)

/-! ## 1. Tables -/

inductive CredentialStatus where
  | provisioning
  | active
  deriving DecidableEq, Repr

structure RegistryCredentialRow where
  id : Uuid
  organizationId : Uuid
  createdBy : Uuid
  name : String
  username : Option String := none
  harborRobotId : Option Int := none
  status : CredentialStatus := .provisioning
  createdAt : Int
  deriving DecidableEq, Repr

structure PrincipalRow where
  id : Uuid
  organizationId : Uuid
  enabled : Bool
  deriving DecidableEq, Repr

structure Db where
  /-- `organizations`. -/
  accounts : List Uuid := []
  principals : List PrincipalRow := []
  quotaDefaults : ResourceQuotaLimits
  organizationQuotas : List OrganizationResourceQuotaRow := []
  /-- `organization_registry_credentials_enabled`. -/
  registryCredentialsEnabled : Bool := false
  registryCredentials : List RegistryCredentialRow := []

/-- Accounts and their cloud organizations, which stay as they were created. -/
structure Tenancy where
  cloudOf : Uuid → Option Uuid
  management : Uuid → Uuid
  management_cloud : ∀ c, cloudOf (management c) = some c

/-- `status IN ('provisioning', 'active')`. -/
def RegistryCredentialRow.counted (c : RegistryCredentialRow) : Bool :=
  [CredentialStatus.provisioning, .active].contains c.status

namespace Db

variable (d : Db)
variable (organization : Uuid)

/-- `COALESCE(q.limits, d.limits)`. -/
def limitsOf : ResourceQuotaLimits :=
  ((d.organizationQuotas.find? (·.organizationId == organization)).map (·.limits)).getD
    d.quotaDefaults

/-- The limit in force on the credentials of an account. -/
def maxCredentials (organization : Uuid) : Nat := (d.limitsOf organization).registry.maxCredentials

/-- `resource_quota_in_transaction`. -/
def resourceQuota : Except StoreError ResourceQuotaLimits :=
  if d.accounts.contains organization then parseResourceQuota (d.limitsOf organization)
  else .error .notFound

/-- The credentials of an account. -/
def active : Nat :=
  d.registryCredentials.countP fun c => c.organizationId == organization && c.counted

/-- The credentials of all accounts of a cloud organization. -/
def organizationActive (u : Tenancy) (cloud : Uuid) : Nat :=
  d.registryCredentials.countP fun c => u.cloudOf c.organizationId == some cloud && c.counted

end Db

/-! ## 2. Locks and writes -/

inductive Key where
  /-- A row under a new id, not committed yet. -/
  | fresh (id : Uuid)
  | quotaDefaults
  | cloudOrganization (id : Uuid)
  | account (id : Uuid)
  | credential (id : Uuid)
  deriving DecidableEq

abbrev Locks := List (Key × LockMode)

variable (u : Tenancy) (organization : Uuid)

/-- What an allocation of the account locks exclusively. -/
def tenantKeys : List Key :=
  (u.cloudOf organization).toList.map .cloudOrganization ++ [.account organization]

def lockTenantAllocations : Locks :=
  (.quotaDefaults, .share) :: (tenantKeys u organization).map (·, .exclusive)

inductive Write where
  | insertCredential (c : RegistryCredentialRow)
  | activateCredential (id : Uuid) (harborRobotId : Int) (username : String)
  | deleteCredential (id : Uuid)
  | setOrganizationQuota (organization : Uuid) (limits : Option ResourceQuotaLimits)
  | setQuotaDefaults (limits : ResourceQuotaLimits)
  | enableRegistryCredentials
  /-- Accounts and principals, changed by other parts of the system. -/
  | setSurroundings (accounts : List Uuid) (principals : List PrincipalRow)
  deriving DecidableEq

/-- `SET harbor_robot_id = $3, username = $4, status = 'active'`. -/
def RegistryCredentialRow.activate (harborRobotId : Int) (username : String)
    (c : RegistryCredentialRow) : RegistryCredentialRow :=
  { c with harborRobotId := some harborRobotId, username := some username, status := .active }

def Write.apply : Write → Db → Db
  | .insertCredential c, d => { d with registryCredentials := d.registryCredentials ++ [c] }
  | .activateCredential id robot username, d => { d with
      registryCredentials :=
        updateWhere (·.id == id) (·.activate robot username) d.registryCredentials }
  | .deleteCredential id, d => { d with
      registryCredentials := d.registryCredentials.filter (·.id != id) }
  | .setOrganizationQuota organization limits, d => { d with
      organizationQuotas := d.organizationQuotas.filter (·.organizationId != organization) ++
        limits.toList.map (⟨organization, ·⟩) }
  | .setQuotaDefaults limits, d => { d with quotaDefaults := limits }
  | .enableRegistryCredentials, d => { d with registryCredentialsEnabled := true }
  | .setSurroundings accounts principals, d => { d with accounts, principals }

def Write.needs : Write → List Key
  | .insertCredential c => tenantKeys u c.organizationId
  | .activateCredential id _ _ | .deleteCredential id => [.credential id]
  | .setOrganizationQuota organization _ => tenantKeys u organization
  | .setQuotaDefaults _ | .enableRegistryCredentials => [.quotaDefaults]
  | .setSurroundings _ _ => []

def Write.makes : Write → List Nat
  | .insertCredential c => [c.id]
  | _ => []

def ids (d : Db) : List Nat := d.registryCredentials.map (·.id)

def guards : Guards Db Key Write where
  allows _ := True
  needs := Write.needs u
  makes := Write.makes
  fresh := .fresh
  ids := ids

/-! ## 3. Points -/

structure Reservation where
  organizationId : Uuid
  principalId : Uuid
  name : String
  deriving DecidableEq

def Reservation.row (n : Reservation) (id : Uuid) (now : Int) : RegistryCredentialRow :=
  { id, organizationId := n.organizationId, createdBy := n.principalId, name := n.name,
    createdAt := now }

inductive Success where
  | credential (c : RegistryCredentialRow)
  | limits (limits : ResourceQuotaLimits)
  | finished
  deriving DecidableEq

inductive Result where
  | ok (success : Success)
  | failed (error : StoreError)
  deriving DecidableEq

inductive Call where
  -- `reserve_registry_credential`
  | reserveRegistryCredential (n : Reservation)
  | reserveQuota (n : Reservation)
  | reserveCount (n : Reservation) (limit : Nat)
  | reserveEnabled (n : Reservation)
  | reserveCloud (n : Reservation)
  | reserveCloudCount (n : Reservation) (cloud : Uuid) (limit : Nat)
  | reserveInsert (n : Reservation)
  | reserveCommit (c : RegistryCredentialRow)
  -- `activate_registry_credential`
  | activateRegistryCredential (organization credential : Uuid) (harborRobotId : Int)
      (username : String)
  | activateCommit (c : RegistryCredentialRow) (harborRobotId : Int) (username : String)
  -- `cancel_registry_credential_reservation`
  | cancelRegistryCredentialReservation (organization credential : Uuid)
  | cancelCommit (credential : Uuid)
  -- `delete_registry_credential`
  | deleteRegistryCredential (organization credential : Uuid)
  | deleteCommit (credential : Uuid)
  -- `set_organization_resource_quota`, `clear_organization_resource_quota`
  | setOrganizationResourceQuota (organization : Uuid) (limits : ResourceQuotaLimits)
  | quotaStore (organization : Uuid) (limits : ResourceQuotaLimits)
  | clearOrganizationResourceQuota (organization : Uuid)
  | clearExists (organization : Uuid)
  | clearDelete (organization : Uuid)
  | clearRead (organization : Uuid)
  -- `update_resource_quota_defaults`
  | updateResourceQuotaDefaults (limits : ResourceQuotaLimits)
  | defaultsStore (limits : ResourceQuotaLimits)
  -- `enable_organization_registry_credentials`
  | enableOrganizationRegistryCredentials
  | enableStore
  -- other parts of the system
  | setSurroundings (accounts : List Uuid) (principals : List PrincipalRow)
  | commit (success : Success)
  | done (result : Result)
  deriving DecidableEq

/-! ## 4. Statements -/

abbrev Statement := Outcome Key Write Call

/-- The transaction is dropped and the error returned. -/
def abort (error : StoreError) : Statement := .rollback (.done (.failed error))

/-- The statement goes on with what a check returns. -/
def check {α : Type} (x : Except StoreError α) (next : α → Statement) : Statement :=
  match x with
  | .ok a => next a
  | .error e => abort e

section Statements
variable (u : Tenancy) (d : Db)
variable (n : Reservation)

def reserveCount (limit : Nat) : Statement :=
  if limit ≤ d.active n.organizationId then
    abort (.requestRejected
      ("registry credential limit exceeded: limit is " ++ toString limit))
  else .stmt [] [] (.reserveEnabled n)

def reserveCloud : Statement :=
  match u.cloudOf n.organizationId with
  | none => abort .notFound
  | some cloud => check (parseResourceQuota (d.limitsOf (u.management cloud))) fun limits =>
      .stmt [] [] (.reserveCloudCount n cloud limits.registry.maxCredentials)

def reserveCloudCount (cloud : Uuid) (limit : Nat) : Statement :=
  if limit ≤ d.organizationActive u cloud then
    abort (.requestRejected
      ("cloud organization registry credential limit exceeded: limit is " ++ toString limit))
  else .stmt [] [] (.reserveInsert n)

/-- The insert, with the constraints of the table. -/
def reserveInsert (now : Int) (uuid : Nat → Nat) (n : Reservation) : Statement :=
  if !(d.principals.any fun p => p.id == n.principalId && p.organizationId == n.organizationId &&
      p.enabled) then abort .notFound
  else if n.name.length < 1 ∨ 120 < n.name.length then abort (.sql false)
  else if d.registryCredentials.any fun c => c.organizationId == n.organizationId &&
      c.name == n.name then abort (.sql true)
  else .stmt [(.fresh (uuid 0), .exclusive)] [.insertCredential (n.row (uuid 0) now)]
    (.reserveCommit (n.row (uuid 0) now))

variable (organization credential : Uuid)

/-- The credential of an update or delete. -/
def Db.credentialWith (status : CredentialStatus) (organization credential : Uuid) :
    Option RegistryCredentialRow :=
  d.registryCredentials.find? fun c => c.id == credential && c.organizationId == organization &&
    c.status == status

def activateRegistryCredential (robot : Int) (username : String) : Statement :=
  match d.credentialWith .provisioning organization credential with
  | none => abort .conflict
  | some c =>
    if d.registryCredentials.any fun b => b.id != c.id && b.harborRobotId == some robot then
      abort (.sql true)
    else .stmt [(.credential c.id, .exclusive)] [.activateCredential c.id robot username]
      (.activateCommit c robot username)

def cancelRegistryCredentialReservation : Statement :=
  match d.credentialWith .provisioning organization credential with
  | none => .rollback (.done (.ok .finished))
  | some c => .stmt [(.credential c.id, .exclusive)] [.deleteCredential c.id] (.cancelCommit c.id)

def deleteRegistryCredential : Statement :=
  match d.credentialWith .active organization credential with
  | none => abort .notFound
  | some c => .stmt [(.credential c.id, .exclusive)] [.deleteCredential c.id] (.deleteCommit c.id)

/-- The statement at each point. -/
def exec (_clock now : Int) (uuid : Nat → Nat) (d : Db) : Call → Option Statement
  | .reserveRegistryCredential n =>
      some (.stmt (lockTenantAllocations u n.organizationId) [] (.reserveQuota n))
  | .reserveQuota n => some (check (d.resourceQuota n.organizationId) fun limits =>
      .stmt [] [] (.reserveCount n limits.registry.maxCredentials))
  | .reserveCount n limit => some (reserveCount d n limit)
  | .reserveEnabled n => some (.stmt [] []
      (if d.registryCredentialsEnabled then .reserveCloud n else .reserveInsert n))
  | .reserveCloud n => some (reserveCloud u d n)
  | .reserveCloudCount n cloud limit => some (reserveCloudCount u d n cloud limit)
  | .reserveInsert n => some (reserveInsert d now uuid n)
  | .reserveCommit c => some (.commit (.done (.ok (.credential c))))
  | .activateRegistryCredential organization credential robot username =>
      some (activateRegistryCredential d organization credential robot username)
  | .activateCommit c robot username =>
      some (.commit (.done (.ok (.credential (c.activate robot username)))))
  | .cancelRegistryCredentialReservation organization credential =>
      some (cancelRegistryCredentialReservation d organization credential)
  | .cancelCommit _ | .deleteCommit _ => some (.commit (.done (.ok .finished)))
  | .deleteRegistryCredential organization credential =>
      some (deleteRegistryCredential d organization credential)
  | .setOrganizationResourceQuota organization limits =>
      some (check (parseResourceQuota limits) fun _ =>
        .stmt (lockTenantAllocations u organization) [] (.quotaStore organization limits))
  | .quotaStore organization limits => some (
      if d.accounts.contains organization then
        .stmt [] [.setOrganizationQuota organization (some limits)] (.commit (.limits limits))
      else abort .notFound)
  | .clearOrganizationResourceQuota organization =>
      some (.stmt (lockTenantAllocations u organization) [] (.clearExists organization))
  | .clearExists organization => some (
      if d.accounts.contains organization then .stmt [] [] (.clearDelete organization)
      else abort .notFound)
  | .clearDelete organization =>
      some (.stmt [] [.setOrganizationQuota organization none] (.clearRead organization))
  | .clearRead organization => some (check (d.resourceQuota organization) fun limits =>
      .stmt [] [] (.commit (.limits limits)))
  | .updateResourceQuotaDefaults limits => some (check (parseResourceQuota limits) fun _ =>
      .stmt [(.quotaDefaults, .exclusive)] [] (.defaultsStore limits))
  | .defaultsStore limits =>
      some (.stmt [] [.setQuotaDefaults limits] (.commit (.limits limits)))
  | .enableOrganizationRegistryCredentials =>
      some (.stmt [(.quotaDefaults, .exclusive)] [] .enableStore)
  | .enableStore => some (.stmt [] [.enableRegistryCredentials] (.commit .finished))
  | .setSurroundings accounts principals =>
      some (.stmt [] [.setSurroundings accounts principals] (.commit .finished))
  | .commit success => some (.commit (.done (.ok success)))
  | .done _ => none

end Statements

/-- Any statement may fail. -/
def fail : Call → Option Call
  | .done _ => none
  | _ => some (.done (.failed (.sql false)))

def Call.isStart : Call → Bool
  | .reserveRegistryCredential _ | .activateRegistryCredential _ _ _ _ |
    .cancelRegistryCredentialReservation _ _ | .deleteRegistryCredential _ _ |
    .setOrganizationResourceQuota _ _ | .clearOrganizationResourceQuota _ |
    .updateResourceQuotaDefaults _ | .enableOrganizationRegistryCredentials |
    .setSurroundings _ _ => true
  | _ => false

/-- **The program.** -/
def program : Program Db Key Write Call where
  apply := Write.apply
  exec := exec u
  fail := fail
  start c := c.isStart = true
  width := 1

instance (u : Tenancy) : DecidablePred (program u).start :=
  fun c => inferInstanceAs (Decidable (c.isStart = true))

abbrev View := World Db Key Write Call

end HeteroCloud.Registry
