/-
  File:      Services/Schema.lean
  Subject:   SERVICES AND WHAT HANGS ON THEM: the tables (migrations/0001, 0011, 0017, 0020, 0025,
             0029, 0030), the row changes their operations make, the locks these need and the ids
             they bring in.

  `service_quota_owners` keeps a row for every service there has ever been ("Usage records survive
  deletion of a service"), so a service never comes back under an id: an `INSERT` under a known id
  violates its primary key. Of `outbox_events` this holds the events of the three service topics.
  Revisions, diagnostics and audit events, which no modelled statement reads, are left out. The
  names the secret manager holds for each service stand beside the tables; its values do not.
-/
import HeteroCloud.Base.Guarded
import HeteroCloud.Services.Quota
import HeteroCloud.Store.Schema

namespace HeteroCloud.Services

open Base Iam List
open Store (ServiceInstanceState)

/-! ## 1. Rows -/

/-- `service_instances`; the provider is that of the specification. -/
structure ServiceRow where
  id : Uuid
  organizationId : Uuid
  projectId : Uuid
  name : String
  spec : ServiceSpec
  generation : Nat := 1
  state : ServiceInstanceState := .provisioning
  status : Json := .object []
  quotaUserId : Option Uuid := none
  deriving DecidableEq, Repr

def ServiceRow.provider (s : ServiceRow) : Provider := s.spec.provider

/-- `service_quota_owners`. -/
structure ServiceQuotaOwnerRow where
  serviceInstanceId : Uuid
  organizationId : Uuid
  userId : Option Uuid
  deriving DecidableEq, Repr

inductive Topic where
  | reconcile
  | delete
  | flashQuota
  deriving DecidableEq, Repr

/-- `ReconcilePayload`. -/
structure ReconcilePayload where
  serviceInstanceId : Uuid
  organizationId : Uuid
  projectId : Uuid
  principalId : Uuid
  provider : Provider
  generation : Nat
  deriving DecidableEq, Repr

structure OutboxEventRow where
  id : Uuid
  topic : Topic
  aggregateId : Uuid
  payload : ReconcilePayload
  attempts : Nat := 0
  availableAt : Int
  lockedAt : Option Int := none
  deliveredAt : Option Int := none
  createdAt : Int
  deriving DecidableEq, Repr

structure WorkloadAccessTokenRow where
  id : Uuid
  organizationId : Uuid
  serviceInstanceId : Uuid
  principalId : Uuid
  podUid : Uuid
  tokenHash : Nat
  expiresAt : Int
  deriving DecidableEq, Repr

inductive PrincipalKind where
  | user
  | serviceAccount
  deriving DecidableEq, Repr

/-- `principals`, and whether the principal is in `iam_roles` and in
`identity_center_account_roles`. -/
structure PrincipalRow where
  id : Uuid
  organizationId : Uuid
  kind : PrincipalKind
  userId : Option Uuid := none
  quotaUserId : Option Uuid := none
  enabled : Bool := true
  iamRole : Bool := false
  identityCenterRole : Bool := false
  deriving DecidableEq, Repr

structure FlashGpuServiceRequestRow where
  serviceInstanceId : Uuid
  gpuType : String
  requestedByPrincipalId : Option Uuid
  deriving DecidableEq, Repr

inductive GpuVisibility where
  | openToAll
  | assigned
  deriving DecidableEq, Repr

/-- `gpu_devices` with the users of `gpu_device_user_assignments`, in order. -/
structure GpuDeviceRow where
  managementId : String
  gpuType : String
  displayName : String
  visibility : GpuVisibility
  assignedUserIds : List Uuid := []
  available : Bool := true
  deriving DecidableEq, Repr

structure OrganizationResourceQuotaRow where
  organizationId : Uuid
  limits : ResourceQuotaLimits
  deriving DecidableEq, Repr

structure MemberResourceQuotaRow where
  organizationId : Uuid
  userId : Uuid
  limits : ResourceQuotaLimits
  deriving DecidableEq, Repr

/-- What the operations read and other parts of the system change at any time: projects with their
account, memberships, the active users, and the backups that can be restored with their account. -/
structure Surroundings where
  projects : List (Uuid × Uuid) := []
  memberships : List (Uuid × Uuid) := []
  activeUsers : List Uuid := []
  usableBackups : List (Uuid × Uuid) := []
  deriving DecidableEq, Repr

/-! ## 2. The database -/

structure Db where
  serviceInstances : List ServiceRow := []
  serviceQuotaOwners : List ServiceQuotaOwnerRow := []
  outboxEvents : List OutboxEventRow := []
  workloadAccessTokens : List WorkloadAccessTokenRow := []
  principals : List PrincipalRow := []
  gpuServiceRequests : List FlashGpuServiceRequestRow := []
  gpuDevices : List GpuDeviceRow := []
  quotaDefaults : ResourceQuotaLimits := .default
  organizationQuotas : List OrganizationResourceQuotaRow := []
  memberQuotas : List MemberResourceQuotaRow := []
  /-- `organizations`. -/
  accounts : List Uuid := []
  /-- `organization_service_quotas_enabled`, which only operators set. -/
  serviceQuotasEnabled : Bool := false
  /-- `organization_flash_weekly_quotas_enabled`. -/
  weeklyQuotasEnabled : Bool := false
  surroundings : Surroundings := {}
  /-- The secret manager: the names of the secrets of each service. -/
  secrets : List (Uuid × String) := []
  deriving DecidableEq

/-- What is given: the cloud organization of each account, which is immutable, accounts to come
included, and its management account; the checks of texts; and whether the worker has an endpoint
for VPCs. -/
structure Setup where
  cloudOf : Uuid → Option Uuid
  management : Uuid → Uuid
  management_cloud : ∀ c, cloudOf (management c) = some c
  checks : SpecChecks
  vpcEndpoint : Bool

namespace Db

variable (d : Db)

def service (id : Uuid) : Option ServiceRow := d.serviceInstances.find? (·.id == id)

/-- The ids of the services there have been. -/
def knownServices : List Uuid := d.serviceQuotaOwners.map (·.serviceInstanceId)

/-- `COALESCE(q.limits, d.limits)`. -/
def limitsOf (organization : Uuid) : ResourceQuotaLimits :=
  ((d.organizationQuotas.find? (·.organizationId == organization)).map (·.limits)).getD
    d.quotaDefaults

variable (organization user : Uuid)

def memberLimits : Option ResourceQuotaLimits :=
  (d.memberQuotas.find? fun q => q.organizationId == organization && q.userId == user).map
    (·.limits)

def isMember : Bool :=
  d.surroundings.memberships.contains (organization, user)

end Db

/-! ## 3. Locks -/

inductive Key where
  /-- A row under a new id, not committed yet. -/
  | fresh (id : Uuid)
  /-- `heterocloud-quota-defaults`. -/
  | quotaDefaults
  /-- The lock on the cloud organization, and that on the account, of `lock_tenant_allocations`. -/
  | cloudAllocations (cloudOrganization : Uuid)
  | allocations (organization : Uuid)
  /-- `heterocloud-flash-allocation`. -/
  | flashAllocation
  /-- `heterocloud-syouyu-bucket-names`. -/
  | bucketNames
  | activation
  | cloudOrganization (id : Uuid)
  | service (id : Uuid)
  | serviceName (project : Uuid) (provider : Provider) (name : String)
  | event (id : Uuid)
  | principal (id : Uuid)
  | gpuDevices
  deriving DecidableEq

abbrev Locks := List (Key × LockMode)

section Scopes
variable (u : Setup)
variable (organization : Uuid)

def tenantKeys : List Key :=
  (u.cloudOf organization).toList.map .cloudAllocations ++ [.allocations organization]

/-- `lock_tenant_allocations`. -/
def lockTenantAllocations : Locks :=
  (.quotaDefaults, .share) :: (tenantKeys u organization).map (·, .exclusive)

/-- `lock_flash_allocations`, `lock_syouyu_bucket_names`. -/
def providerKeys : Provider → List Key
  | .flash => [.flashAllocation]
  | .syouyu => [.bucketNames]
  | _ => []

/-- The keys under which the specification of a service of the account may change. -/
def scopeKeys : Provider → List Key
  | .other _ => []
  | provider => tenantKeys u organization ++ providerKeys provider

end Scopes

/-! ## 4. Writes -/

inductive Write where
  | insertService (s : ServiceRow)
  /-- `SET state, status`. -/
  | reportService (old : ServiceRow) (state : ServiceInstanceState) (status : Json)
  /-- `SET name, spec, generation, project_id, state = 'updating', status = '{}'`. -/
  | changeService (old : ServiceRow) (projectId : Uuid) (name : String) (spec : ServiceSpec)
  /-- `SET generation, state = 'deleting', status = '{}'`. -/
  | deleteService (old : ServiceRow)
  /-- `SET quota_user_id`. -/
  | assignService (old : ServiceRow) (user : Uuid)
  /-- `DELETE FROM service_instances`, with what refers to the row. -/
  | removeService (old : ServiceRow)
  | insertEvent (e : OutboxEventRow)
  | claimEvent (id : Uuid) (now : Int)
  | deliverEvent (id : Uuid) (now : Int)
  | retryEvent (id : Uuid) (availableAt : Int)
  | insertToken (t : WorkloadAccessTokenRow)
  | dropServiceTokens (service : Uuid)
  | dropPrincipalTokens (organization principal : Uuid)
  | dropExpiredTokens (now : Int)
  | insertPrincipal (p : PrincipalRow)
  | setPrincipalEnabled (id : Uuid) (enabled : Bool)
  | setPrincipalOwner (id user : Uuid)
  /-- `DELETE FROM principals`: tokens go with it, requests lose their requester. -/
  | deletePrincipal (id : Uuid)
  | putGpuRequest (service : Uuid) (gpuType : String) (principal : Uuid)
  | dropGpuRequest (service : Uuid)
  | setGpuDevices (devices : List GpuDeviceRow)
  | setQuotaDefaults (limits : ResourceQuotaLimits)
  | setOrganizationQuota (organization : Uuid) (limits : Option ResourceQuotaLimits)
  | setMemberQuota (organization user : Uuid) (limits : Option ResourceQuotaLimits)
  | enableWeeklyQuotas
  | insertAccount (id : Uuid)
  | insertMembership (organization user : Uuid)
  | setSurroundings (surroundings : Surroundings)
  | putSecret (service : Uuid) (name : String)
  | deleteSecret (service : Uuid) (name : String)
  deriving DecidableEq

namespace ServiceRow

variable (s : ServiceRow)

/-- A row after its state was reported. -/
def reported (state : ServiceInstanceState) (status : Json) : ServiceRow :=
  { s with state, status }

/-- A row after its specification was replaced. -/
def changed (projectId : Uuid) (name : String) (spec : ServiceSpec) : ServiceRow :=
  { s with projectId, name, spec, generation := s.generation + 1, state := .updating,
           status := .object [] }

/-- A row after its deletion began. -/
def deleted : ServiceRow :=
  { s with generation := s.generation + 1, state := .deleting, status := .object [] }

def assigned (user : Uuid) : ServiceRow := { s with quotaUserId := some user }

/-- The row of `service_quota_owners` that is inserted with a service. -/
def ownerRow : ServiceQuotaOwnerRow := ⟨s.id, s.organizationId, s.quotaUserId⟩

end ServiceRow

namespace Write

/-- The row the write replaces, locked when it was read, and the row it becomes. -/
def replaces : Write → Option (ServiceRow × ServiceRow)
  | .reportService old state status => some (old, old.reported state status)
  | .changeService old projectId name spec => some (old, old.changed projectId name spec)
  | .deleteService old => some (old, old.deleted)
  | .assignService old user => some (old, old.assigned user)
  | _ => none

variable (x : Write)

def onServices (known : List Uuid) (x : Write) (t : List ServiceRow) : List ServiceRow :=
  match x with
  | .insertService s => if s.id ∈ known then t else t ++ [s]
  | .reportService old state status => replaceRow old (old.reported state status) t
  | .changeService old projectId name spec => replaceRow old (old.changed projectId name spec) t
  | .deleteService old => replaceRow old old.deleted t
  | .assignService old user => replaceRow old (old.assigned user) t
  | .removeService old => t.filter (· != old)
  | _ => t

def onOwners (t : List ServiceQuotaOwnerRow) : List ServiceQuotaOwnerRow :=
  match x with
  | .insertService s => if s.id ∈ t.map (·.serviceInstanceId) then t else t ++ [s.ownerRow]
  | .assignService old user => updateWhere (fun q => q.serviceInstanceId == old.id &&
      q.organizationId == old.organizationId && q.userId == none)
      (fun q => { q with userId := some user }) t
  | _ => t

def onEvents (t : List OutboxEventRow) : List OutboxEventRow :=
  match x with
  | .insertEvent e => t ++ [e]
  | .claimEvent id now => updateWhere (·.id == id)
      (fun e => { e with lockedAt := some now, attempts := e.attempts + 1 }) t
  | .deliverEvent id now => updateWhere (·.id == id)
      (fun e => { e with deliveredAt := some now, lockedAt := none }) t
  | .retryEvent id availableAt => updateWhere (fun e => e.id == id && e.deliveredAt == none)
      (fun e => { e with lockedAt := none, availableAt }) t
  | _ => t

def onTokens (t : List WorkloadAccessTokenRow) : List WorkloadAccessTokenRow :=
  match x with
  | .insertToken token => t ++ [token]
  | .dropServiceTokens service => t.filter (·.serviceInstanceId != service)
  | .dropPrincipalTokens organization principal => t.filter fun token =>
      !(token.organizationId == organization && token.principalId == principal)
  | .dropExpiredTokens now => t.filter fun token => !decide (token.expiresAt ≤ now)
  | .removeService old => t.filter (·.serviceInstanceId != old.id)
  | .deletePrincipal id => t.filter (·.principalId != id)
  | _ => t

def onPrincipals (t : List PrincipalRow) : List PrincipalRow :=
  match x with
  | .insertPrincipal p => t ++ [p]
  | .setPrincipalEnabled id enabled => updateWhere (·.id == id) (fun p => { p with enabled }) t
  | .setPrincipalOwner id user =>
      updateWhere (·.id == id) (fun p => { p with quotaUserId := some user }) t
  | .deletePrincipal id => t.filter (·.id != id)
  | _ => t

def onGpuRequests (t : List FlashGpuServiceRequestRow) : List FlashGpuServiceRequestRow :=
  match x with
  | .putGpuRequest service gpuType principal =>
      t.filter (·.serviceInstanceId != service) ++ [⟨service, gpuType, some principal⟩]
  | .dropGpuRequest service => t.filter (·.serviceInstanceId != service)
  | .removeService old => t.filter (·.serviceInstanceId != old.id)
  | .deletePrincipal id => updateWhere (·.requestedByPrincipalId == some id)
      (fun q => { q with requestedByPrincipalId := none }) t
  | _ => t

def onOrganizationQuotas (t : List OrganizationResourceQuotaRow) : List
    OrganizationResourceQuotaRow :=
  match x with
  | .setOrganizationQuota organization limits =>
      t.filter (·.organizationId != organization) ++ limits.toList.map (⟨organization, ·⟩)
  | _ => t

def onMemberQuotas (t : List MemberResourceQuotaRow) : List MemberResourceQuotaRow :=
  match x with
  | .setMemberQuota organization user limits =>
      t.filter (fun q => !(q.organizationId == organization && q.userId == user)) ++
        limits.toList.map (⟨organization, user, ·⟩)
  | _ => t

def onSurroundings (s : Surroundings) : Surroundings :=
  match x with
  | .insertMembership organization user =>
      { s with memberships := s.memberships ++ [(organization, user)] }
  | .setSurroundings s => s
  | _ => s

def onSecrets (t : List (Uuid × String)) : List (Uuid × String) :=
  match x with
  | .putSecret service name => if (service, name) ∈ t then t else t ++ [(service, name)]
  | .deleteSecret service name => t.filter (· != (service, name))
  | _ => t

/-- Table by table. -/
def apply (d : Db) : Db where
  serviceInstances := x.onServices d.knownServices d.serviceInstances
  serviceQuotaOwners := x.onOwners d.serviceQuotaOwners
  outboxEvents := x.onEvents d.outboxEvents
  workloadAccessTokens := x.onTokens d.workloadAccessTokens
  principals := x.onPrincipals d.principals
  gpuServiceRequests := x.onGpuRequests d.gpuServiceRequests
  gpuDevices := match x with
    | .setGpuDevices devices => devices
    | _ => d.gpuDevices
  quotaDefaults := match x with
    | .setQuotaDefaults limits => limits
    | _ => d.quotaDefaults
  organizationQuotas := x.onOrganizationQuotas d.organizationQuotas
  memberQuotas := x.onMemberQuotas d.memberQuotas
  accounts := match x with
    | .insertAccount id => d.accounts ++ [id]
    | _ => d.accounts
  serviceQuotasEnabled := d.serviceQuotasEnabled
  weeklyQuotasEnabled := match x with
    | .enableWeeklyQuotas => true
    | _ => d.weeklyQuotasEnabled
  surroundings := x.onSurroundings d.surroundings
  secrets := x.onSecrets d.secrets

/-- The rows a write changes or inserts are locked; what is counted against a limit is locked with
its account, and what takes ports or bucket names globally. -/
def needs (u : Setup) : Write → List Key
  | .insertService s => .service s.id :: scopeKeys u s.organizationId s.provider
  | .changeService old _ _ _ => .service old.id :: scopeKeys u old.organizationId old.provider
  | .deleteService old | .assignService old _ =>
      .service old.id :: tenantKeys u old.organizationId
  | .reportService old _ _ | .removeService old => [.service old.id]
  | .claimEvent id _ | .deliverEvent id _ | .retryEvent id _ => [.event id]
  | .insertToken t => [.service t.serviceInstanceId, .principal t.principalId]
  | .dropServiceTokens service => [.service service]
  | .dropPrincipalTokens _ principal => [.principal principal]
  | .setPrincipalEnabled id _ | .setPrincipalOwner id _ | .deletePrincipal id => [.principal id]
  | .putGpuRequest service _ _ | .dropGpuRequest service => [.service service, .flashAllocation]
  | .setGpuDevices _ => [.flashAllocation, .gpuDevices]
  | .setQuotaDefaults _ => [.quotaDefaults]
  | .setOrganizationQuota organization _ | .setMemberQuota organization _ _ =>
      tenantKeys u organization
  | .enableWeeklyQuotas => [.activation]
  | _ => []

def makes : Write → List Nat
  | .insertEvent e => [e.id]
  | .insertToken t => [t.id]
  | .insertPrincipal p => [p.id]
  | .insertAccount id => [id]
  | _ => []

/-- A service in deletion is changed no more, and a service keeps its provider. -/
def allows : Write → Prop
  | .insertService s => s.generation = 1 ∧ s.state = .provisioning
  | .reportService old state _ => old.state ≠ .deleting ∧ state ≠ .deleting
  | .changeService old _ _ spec => old.state ≠ .deleting ∧ spec.provider = old.provider
  | .deleteService old => old.state ≠ .deleting
  | .assignService old _ => old.state ≠ .deleting ∧ old.quotaUserId = none
  | .removeService old => old.state = .deleting
  | .setQuotaDefaults limits => limits.validate = none
  | .setOrganizationQuota _ limits | .setMemberQuota _ _ limits =>
      ∀ l, limits = some l → l.validate = none
  | _ => True

end Write

/-- The ids of events, tokens, principals and accounts. -/
def ids (d : Db) : List Nat :=
  d.outboxEvents.map (·.id) ++ d.workloadAccessTokens.map (·.id) ++ d.principals.map (·.id) ++
    d.accounts

def guards (u : Setup) : Guards Db Key Write where
  allows := Write.allows
  needs := Write.needs u
  makes := Write.makes
  fresh := .fresh
  ids := ids

/-! ## 5. What a write does to the tables -/

section Frames
variable {x : Write} {d : Db}

theorem mem_ids {k : Nat} : k ∈ ids d ↔ (∃ e ∈ d.outboxEvents, e.id = k) ∨
    (∃ t ∈ d.workloadAccessTokens, t.id = k) ∨ (∃ p ∈ d.principals, p.id = k) ∨
      k ∈ d.accounts := by
  simp [ids]

/-- **A service after a write**: it is new, it was there, or it was replaced. -/
theorem mem_services {s : ServiceRow} (h : s ∈ (x.apply d).serviceInstances) :
    (x = .insertService s ∧ s.id ∉ d.knownServices) ∨ s ∈ d.serviceInstances ∨
      ∃ old ∈ d.serviceInstances, x.replaces = some (old, s) := by
  have hreplace {old new : ServiceRow} (h : s ∈ replaceRow old new d.serviceInstances) :
      s ∈ d.serviceInstances ∨ (old ∈ d.serviceInstances ∧ s = new) := mem_replaceRow h
  cases x with
  | insertService =>
    simp only [Write.apply, Write.onServices] at h
    split_ifs at h with hknown
    · exact .inr (.inl h)
    rcases mem_append.mp h with h | h
    · exact .inr (.inl h)
    · rw [mem_singleton.mp h]
      exact .inl ⟨rfl, hknown⟩
  | reportService old | changeService old | deleteService old | assignService old =>
    rcases hreplace h with h | ⟨hold, rfl⟩
    · exact .inr (.inl h)
    · exact .inr (.inr ⟨old, hold, rfl⟩)
  | removeService => exact .inr (.inl (mem_of_mem_filter h))
  | _ => exact .inr (.inl h)

/-- The row of a service that a write replaces keeps its id, account and provider. -/
theorem Write.replaces_same (hx : x.allows) {old new : ServiceRow}
    (h : x.replaces = some (old, new)) :
    new.id = old.id ∧ new.organizationId = old.organizationId ∧ new.provider = old.provider := by
  cases x with
  | reportService | deleteService | assignService =>
    cases h
    exact ⟨rfl, rfl, rfl⟩
  | changeService =>
    cases h
    exact ⟨rfl, rfl, hx.2⟩
  | _ => cases h

/-- A service a write neither replaces nor removes is there after it. -/
theorem services_stay {s : ServiceRow} (h : s ∈ d.serviceInstances)
    (hreplaces : ∀ new, x.replaces ≠ some (s, new)) (hremoves : x ≠ .removeService s) :
    s ∈ (x.apply d).serviceInstances := by
  have hne {old new : ServiceRow} (hr : x.replaces = some (old, new)) : s ≠ old := by
    rintro rfl
    exact hreplaces new hr
  cases x with
  | insertService =>
    simp only [Write.apply, Write.onServices]
    split_ifs
    · exact h
    · exact mem_append_left _ h
  | reportService | changeService | deleteService | assignService =>
    exact replaceRow_other h (hne rfl)
  | removeService old =>
    have hother : s ≠ old := fun he => hremoves (he ▸ rfl)
    exact mem_filter.mpr ⟨h, bne_iff_ne.mpr hother⟩
  | _ => exact h

/-- The ids of services after a write. -/
theorem mem_known_iff {id : Uuid} : id ∈ (x.apply d).knownServices ↔
    id ∈ d.knownServices ∨ ∃ s, x = .insertService s ∧ s.id = id := by
  cases x with
  | insertService =>
    simp only [Db.knownServices, Write.apply, Write.onOwners]
    split_ifs with hknown
    · refine ⟨.inl, fun h => h.elim (fun h => h) ?_⟩
      rintro ⟨s', ⟨⟩, rfl⟩
      exact hknown
    · simp [ServiceRow.ownerRow, eq_comm]
  | assignService old user =>
    have hkeys : (Write.assignService old user |>.apply d).knownServices = d.knownServices :=
      map_updateWhere fun _ => rfl
    rw [hkeys]
    simp
  | _ => simp [Db.knownServices, Write.apply, Write.onOwners]

/-- The ids of services are never forgotten. -/
theorem owners_stay {id : Uuid} (h : id ∈ d.knownServices) : id ∈ (x.apply d).knownServices :=
  mem_known_iff.mpr (.inl h)

theorem mem_owners {id : Uuid} (h : id ∈ (x.apply d).knownServices) :
    id ∈ d.knownServices ∨ ∃ s, x = .insertService s ∧ s.id = id :=
  mem_known_iff.mp h

/-- What an event keeps. -/
structure OutboxEventRow.Same (e e' : OutboxEventRow) : Prop where
  id : e'.id = e.id
  topic : e'.topic = e.topic
  aggregate : e'.aggregateId = e.aggregateId
  payload : e'.payload = e.payload
  delivered : e.deliveredAt ≠ none → e'.deliveredAt ≠ none

theorem OutboxEventRow.Same.refl (e : OutboxEventRow) : e.Same e :=
  ⟨rfl, rfl, rfl, rfl, fun h => h⟩

theorem OutboxEventRow.Same.trans {a b c : OutboxEventRow} (h : a.Same b) (h' : b.Same c) :
    a.Same c :=
  ⟨h'.id.trans h.id, h'.topic.trans h.topic, h'.aggregate.trans h.aggregate,
    h'.payload.trans h.payload, fun hd => h'.delivered (h.delivered hd)⟩

variable {e e' : OutboxEventRow}

/-- An updated row is the row, changed or not. -/
theorem same_ite {c : Prop} [Decidable c] (h : e.Same e') : e.Same (if c then e' else e) := by
  split_ifs
  · exact h
  · exact .refl e

/-- An event after a write: it is new, or it was there. -/
theorem mem_events (h : e' ∈ (x.apply d).outboxEvents) : x = .insertEvent e' ∨ ∃ e ∈ d.outboxEvents,
    e.Same e' := by
  cases x with
  | insertEvent =>
    rcases mem_append.mp h with h | h
    · exact .inr ⟨e', h, .refl e'⟩
    · rw [mem_singleton.mp h]
      exact .inl rfl
  | claimEvent | retryEvent =>
    obtain ⟨e, he, rfl⟩ := mem_map.mp h
    exact .inr ⟨e, he, same_ite ⟨rfl, rfl, rfl, rfl, fun h => h⟩⟩
  | deliverEvent _ now =>
    obtain ⟨e, he, rfl⟩ := mem_map.mp h
    exact .inr ⟨e, he, same_ite ⟨rfl, rfl, rfl, rfl, fun _ => Option.some_ne_none now⟩⟩
  | _ => exact .inr ⟨e', h, .refl e'⟩

/-- Events stay. -/
theorem events_stay (h : e ∈ d.outboxEvents) : ∃ e' ∈ (x.apply d).outboxEvents, e.Same e' := by
  cases x with
  | insertEvent => exact ⟨e, mem_append_left _ h, .refl e⟩
  | claimEvent | retryEvent =>
    exact ⟨_, mem_map_of_mem h, same_ite ⟨rfl, rfl, rfl, rfl, fun h => h⟩⟩
  | deliverEvent _ now =>
    exact ⟨_, mem_map_of_mem h,
      same_ite ⟨rfl, rfl, rfl, rfl, fun _ => Option.some_ne_none now⟩⟩
  | _ => exact ⟨e, h, .refl e⟩

theorem mem_tokens {t : WorkloadAccessTokenRow} (h : t ∈ (x.apply d).workloadAccessTokens) :
    x = .insertToken t ∨ t ∈ d.workloadAccessTokens := by
  cases x with
  | insertToken =>
    rcases mem_append.mp h with h | h
    · exact .inr h
    · rw [mem_singleton.mp h]
      exact .inl rfl
  | dropServiceTokens | dropPrincipalTokens | dropExpiredTokens | removeService
  | deletePrincipal => exact .inr (mem_of_mem_filter h)
  | _ => exact .inr h

/-- A principal after a write: it is new, or it was there, under the same id and in the same
account. -/
theorem mem_principals {p' : PrincipalRow} (h : p' ∈ (x.apply d).principals) :
    x = .insertPrincipal p' ∨ ∃ p ∈ d.principals, p'.id = p.id ∧
      p'.organizationId = p.organizationId ∧ p'.kind = p.kind := by
  cases x with
  | insertPrincipal =>
    rcases mem_append.mp h with h | h
    · exact .inr ⟨p', h, rfl, rfl, rfl⟩
    · rw [mem_singleton.mp h]
      exact .inl rfl
  | setPrincipalEnabled | setPrincipalOwner =>
    obtain ⟨p, hp, ⟨_, rfl⟩ | ⟨_, rfl⟩⟩ := mem_updateWhere h
    · exact .inr ⟨p, hp, rfl, rfl, rfl⟩
    · exact .inr ⟨p', hp, rfl, rfl, rfl⟩
  | deletePrincipal => exact .inr ⟨p', mem_of_mem_filter h, rfl, rfl, rfl⟩
  | _ => exact .inr ⟨p', h, rfl, rfl, rfl⟩

/-- A request for a GPU type after a write: it is new, or it was there, but for its requester. -/
theorem mem_gpuRequests {q' : FlashGpuServiceRequestRow}
    (h : q' ∈ (x.apply d).gpuServiceRequests) :
    (∃ service gpuType principal, x = .putGpuRequest service gpuType principal ∧
      q' = ⟨service, gpuType, some principal⟩) ∨
    ∃ q ∈ d.gpuServiceRequests, q'.serviceInstanceId = q.serviceInstanceId ∧
      q'.gpuType = q.gpuType := by
  cases x with
  | putGpuRequest service gpuType principal =>
    rcases mem_append.mp h with h | h
    · exact .inr ⟨q', mem_of_mem_filter h, rfl, rfl⟩
    · exact .inl ⟨service, gpuType, principal, rfl, mem_singleton.mp h⟩
  | dropGpuRequest | removeService => exact .inr ⟨q', mem_of_mem_filter h, rfl, rfl⟩
  | deletePrincipal =>
    obtain ⟨q, hq, ⟨_, rfl⟩ | ⟨_, rfl⟩⟩ := mem_updateWhere h
    · exact .inr ⟨q, hq, rfl, rfl⟩
    · exact .inr ⟨q', hq, rfl, rfl⟩
  | _ => exact .inr ⟨q', h, rfl, rfl⟩

theorem mem_accounts {k : Uuid} (h : k ∈ (x.apply d).accounts) :
    x = .insertAccount k ∨ k ∈ d.accounts := by
  cases x with
  | insertAccount =>
    rcases mem_append.mp h with h | h
    · exact .inr h
    · rw [mem_singleton.mp h]
      exact .inl rfl
  | _ => exact .inr h

/-- A write brings in only the ids it makes. -/
theorem Write.mem_ids {k : Nat} (h : k ∈ ids (x.apply d)) : k ∈ ids d ∨ k ∈ x.makes := by
  rcases Services.mem_ids.mp h with ⟨e', he, rfl⟩ | ⟨t, ht, rfl⟩ | ⟨p', hp, rfl⟩ | hk
  · rcases mem_events he with rfl | ⟨e, he, hs⟩
    · exact .inr mem_cons_self
    · exact .inl (Services.mem_ids.mpr (.inl ⟨e, he, hs.id.symm⟩))
  · rcases mem_tokens ht with rfl | ht
    · exact .inr mem_cons_self
    · exact .inl (Services.mem_ids.mpr (.inr (.inl ⟨t, ht, rfl⟩)))
  · rcases mem_principals hp with rfl | ⟨p, hp, hid, _⟩
    · exact .inr mem_cons_self
    · exact .inl (Services.mem_ids.mpr (.inr (.inr (.inl ⟨p, hp, hid.symm⟩))))
  · rcases mem_accounts hk with rfl | hk
    · exact .inr mem_cons_self
    · exact .inl (Services.mem_ids.mpr (.inr (.inr (.inr hk))))

end Frames
end HeteroCloud.Services
