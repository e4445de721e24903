/-
  File:      Store/AdvisoryLocks.lean
  Subject:   THE ADVISORY LOCKS of the store's transactions (crates/heterocloud-store/src/lib.rs,
             organizations.rs, flash_backups.rs, flash_backup_destinations.rs, flash_domains.rs):
             which transaction requests which of them, in what order.

  All of them follow one order: the quota defaults, the cloud organization, the account, then the
  lock of a provider. A transaction that prepares a specification requests the locks of its account
  twice. Locks on rows are not considered here.
-/
import HeteroCloud.Base.Waiting
import HeteroCloud.Services.Specs

namespace HeteroCloud.Store

open Base Iam List
open Services (Provider)

/-! ## 1. Locks and transactions -/

inductive AdvisoryLock where
  /-- `heterocloud-quota-defaults`. -/
  | quotaDefaults
  /-- The id of a cloud organization, with seed 2. -/
  | cloudOrganization (id : Uuid)
  /-- The id of an account, with seed 1. -/
  | account (id : Uuid)
  /-- `heterocloud-flash-allocation`. -/
  | flashAllocation
  /-- `heterocloud-syouyu-bucket-names`. -/
  | bucketNames
  /-- The id of a service, with seed 0. -/
  | contextRetention (service : Uuid)
  /-- `heterocloud.flash.custom-domains`. -/
  | customDomains
  deriving DecidableEq, Repr

abbrev Request := AdvisoryLock × LockMode

/-- The transactions of the store, by the function that begins them. -/
inductive Transaction where
  | createServiceInstance (organization : Uuid) (provider : Provider)
  | updateServiceInstance (organization : Uuid) (provider : Provider)
  /-- Starts and stops. -/
  | setFlashServiceStopped (organization : Uuid)
  | beginDeleteServiceInstance (organization : Uuid)
  | setOrganizationResourceQuota (organization : Uuid)
  | clearOrganizationResourceQuota (organization : Uuid)
  | setMemberResourceQuota (organization : Uuid)
  | assignQuotaResource (organization : Uuid)
  | updateResourceQuotaDefaults
  | enableOrganizationRegistryCredentials
  | enableOrganizationFlashWeeklyQuotas
  | requestFlashBackupTo (organization : Uuid)
  | requestFlashBackupDelete (organization : Uuid)
  | reserveFlashRestore (organization : Uuid)
  | reserveFlashBackupDestination (organization : Uuid)
  | reserveRegistryCredential (organization : Uuid)
  | createFlowDeveloperCredential (organization : Uuid)
  | recordFlowAccessContext (service : Uuid)
  | mintFlowAccessContext (service : Uuid)
  | syncGpuCatalog
  | reserveFlashDomain
  deriving DecidableEq, Repr

section Requests
variable (cloudOf : Uuid → Option Uuid)
variable (organization : Uuid)

/-- `lock_tenant_allocations`: the cloud organization of an account is the same for ever. -/
def lockTenantAllocations : List Request :=
  [(.quotaDefaults, .share)] ++
    (cloudOf organization).toList.map (fun cloud => (.cloudOrganization cloud, .exclusive)) ++
    [(.account organization, .exclusive)]

def lockFlashAllocations : List Request := [(.flashAllocation, .exclusive)]

def lockSyouyuBucketNames : List Request := [(.bucketNames, .exclusive)]

def lockFlowAccessContextRetention (service : Uuid) : List Request :=
  [(.contextRetention service, .exclusive)]

/-- The exclusive lock of those who change what holds for all accounts. -/
def lockQuotaDefaults : List Request := [(.quotaDefaults, .exclusive)]

/-- What `create_service_instance_with_id_for_user` requests to prepare the specification. -/
def lockPrepared : Provider → List Request
  | .flow => lockTenantAllocations cloudOf organization
  | .flash => lockTenantAllocations cloudOf organization ++ lockFlashAllocations
  | .syouyu => lockTenantAllocations cloudOf organization ++ lockSyouyuBucketNames
  | .vpc => lockTenantAllocations cloudOf organization
  | .other _ => []

/-- **The requests of a transaction**, in the order of the code. -/
def Transaction.locks : Transaction → List Request
  | .createServiceInstance organization provider =>
      lockTenantAllocations cloudOf organization ++ lockPrepared cloudOf organization provider
  | .updateServiceInstance organization provider => lockPrepared cloudOf organization provider
  | .setFlashServiceStopped organization =>
      lockTenantAllocations cloudOf organization ++ lockFlashAllocations
  | .beginDeleteServiceInstance organization
  | .setOrganizationResourceQuota organization
  | .clearOrganizationResourceQuota organization
  | .setMemberResourceQuota organization
  | .assignQuotaResource organization
  | .requestFlashBackupTo organization
  | .requestFlashBackupDelete organization
  | .reserveFlashRestore organization
  | .reserveFlashBackupDestination organization
  | .reserveRegistryCredential organization
  | .createFlowDeveloperCredential organization => lockTenantAllocations cloudOf organization
  | .updateResourceQuotaDefaults | .enableOrganizationRegistryCredentials => lockQuotaDefaults
  | .enableOrganizationFlashWeeklyQuotas => []
  | .recordFlowAccessContext service | .mintFlowAccessContext service =>
      lockFlowAccessContextRetention service
  | .syncGpuCatalog => lockFlashAllocations
  | .reserveFlashDomain => [(.customDomains, .exclusive)]

/-! ## 2. Their order -/

def AdvisoryLock.rank : AdvisoryLock → Nat
  | .quotaDefaults => 0
  | .cloudOrganization _ => 1
  | .account _ => 2
  | .flashAllocation => 3
  | .bucketNames => 4
  | .contextRetention _ => 5
  | .customDomains => 6

theorem tenant_ordered : Ordered AdvisoryLock.rank (lockTenantAllocations cloudOf organization) :=
    by
  unfold lockTenantAllocations
  cases cloudOf organization with
  | none | some => simp [Ordered, OrderedFrom, Exceeds, AdvisoryLock.rank]

/-- The locks of an account come before those of a provider. -/
theorem tenant_rank {organization : Uuid} {l : Request}
    (h : l ∈ lockTenantAllocations cloudOf organization) : l.1.rank < 3 := by
  simp only [lockTenantAllocations, mem_append, mem_singleton, mem_map] at h
  rcases h with (rfl | ⟨cloud, _, rfl⟩) | rfl
  · decide
  · exact Nat.lt_of_sub_eq_succ rfl
  · exact Nat.lt_of_sub_eq_succ rfl

/-- What is requested to prepare a specification, after the locks of the account or not. -/
theorem prepared_ordered (provider : Provider) {before : List Request} (hb : before = [] ∨ before =
    lockTenantAllocations cloudOf organization) : OrderedFrom AdvisoryLock.rank before (lockPrepared
    cloudOf organization provider) := by
  have htenant : OrderedFrom AdvisoryLock.rank before
      (lockTenantAllocations cloudOf organization) := by
    rcases hb with rfl | rfl
    · exact tenant_ordered cloudOf organization
    · exact .repeated fun l hl => hl
  have hmore (lock : AdvisoryLock) (hlock : 3 ≤ lock.rank) : OrderedFrom AdvisoryLock.rank before
      (lockTenantAllocations cloudOf organization ++ [(lock, .exclusive)]) := by
    refine htenant.append (.last fun l hl => ?_)
    have hlow : l.1.rank < 3 := by
      rcases mem_append.mp hl with hl | hl
      · exact tenant_rank cloudOf hl
      rcases hb with rfl | rfl
      · cases hl
      · exact tenant_rank cloudOf hl
    exact Nat.lt_of_lt_of_le hlow hlock
  cases provider with
  | flow | vpc => exact htenant
  | flash => exact hmore .flashAllocation (by decide)
  | syouyu => exact hmore .bucketNames (by decide)
  | other => exact trivial

theorem single_ordered (l : Request) : Ordered AdvisoryLock.rank [l] :=
  .last (forall_mem_nil _)

/-- **Every transaction requests its locks in order.** -/
theorem locks_ordered (t : Transaction) : Ordered AdvisoryLock.rank (t.locks cloudOf) := by
  cases t with
  | createServiceInstance organization provider =>
    refine (tenant_ordered cloudOf organization).append ?_
    rw [append_nil]
    exact prepared_ordered cloudOf organization provider (.inr rfl)
  | updateServiceInstance organization provider =>
    exact prepared_ordered cloudOf organization provider (.inl rfl)
  | setFlashServiceStopped organization =>
    exact prepared_ordered cloudOf organization .flash (.inl rfl)
  | updateResourceQuotaDefaults | enableOrganizationRegistryCredentials | recordFlowAccessContext
  | mintFlowAccessContext | syncGpuCatalog | reserveFlashDomain => exact single_ordered _
  | enableOrganizationFlashWeeklyQuotas => exact trivial
  | beginDeleteServiceInstance organization | setOrganizationResourceQuota organization
  | clearOrganizationResourceQuota organization | setMemberResourceQuota organization
  | assignQuotaResource organization | requestFlashBackupTo organization
  | requestFlashBackupDelete organization | reserveFlashRestore organization
  | reserveFlashBackupDestination organization | reserveRegistryCredential organization
  | createFlowDeveloperCredential organization => exact tenant_ordered cloudOf organization

end Requests

/-- A transaction of the store makes the requests. -/
def Scripted (cloudOf : Uuid → Option Uuid) (script : List Request) : Prop :=
  ∃ t : Transaction, script = t.locks cloudOf

/-- **No deadlocks.** In no state that any interleaving of any number of transactions reaches is
there a circle of transactions each of which waits for the next. -/
theorem transactions_never_deadlock (cloudOf : Uuid → Option Uuid) {m : Manager AdvisoryLock}
    (hr : Manager.Reach (Scripted cloudOf) Manager.idle m) (i : Nat) :
    ¬ Relation.TransGen m.WaitsFor i i := by
  have hordered (script : List Request) (h : Scripted cloudOf script) :
      Ordered AdvisoryLock.rank script := by
    obtain ⟨t, rfl⟩ := h
    exact locks_ordered cloudOf t
  exact Manager.acyclic hordered hr i

/-- One transaction sets the quota of an account and holds the defaults in share mode. -/
def defaultsShared : Manager AdvisoryLock :=
  (Manager.idle.set 0 (some ⟨[], lockTenantAllocations (fun _ => none) 1, none⟩)).set 0
    (some ⟨[(.quotaDefaults, .share)], [(.account 1, .exclusive)], none⟩)

/-- Another one waits to change them. -/
def defaultsAwaited : Manager AdvisoryLock :=
  { (defaultsShared.set 1 (some ⟨[], lockQuotaDefaults, none⟩)).set 1
      (some ⟨[], lockQuotaDefaults, some 0⟩) with tickets := 1 }

theorem defaultsShared_reached :
    Manager.Reach (Scripted fun _ => none) Manager.idle defaultsShared := by
  have hbegin := @Manager.Step.begin _ (Scripted fun _ => none) Manager.idle 0
    (lockTenantAllocations (fun _ => none) 1) rfl ⟨.setOrganizationResourceQuota 1, rfl⟩
  refine (Relation.ReflTransGen.single hbegin).tail ?_
  refine Manager.Step.grant _ 0 ⟨[], lockTenantAllocations (fun _ => none) 1, none⟩
    (.quotaDefaults, .share) _ rfl rfl not_mem_nil fun j hj h => ?_
  -- the manager was idle
  rcases h with ⟨s, mode, hs, _⟩ | ⟨mode, ticket, ⟨s, hs, _⟩, _⟩
  · rw [Manager.set_other _ hj] at hs
    cases hs
  · rw [Manager.set_other _ hj] at hs
    cases hs

theorem defaultsAwaited_reached :
    Manager.Reach (Scripted fun _ => none) Manager.idle defaultsAwaited := by
  have hbegin := @Manager.Step.begin _ (Scripted fun _ => none) defaultsShared 1
    lockQuotaDefaults rfl ⟨.updateResourceQuotaDefaults, rfl⟩
  refine (defaultsShared_reached.tail hbegin).tail ?_
  refine Manager.Step.wait _ 1 0 ⟨[], lockQuotaDefaults, none⟩ (.quotaDefaults, .exclusive) [] rfl
    rfl rfl not_mem_nil (by decide) (.inl ?_)
  exact ⟨_, .share, rfl, mem_cons_self, fun h => LockMode.noConfusion h.1⟩

theorem transactions_never_deadlock_awaited :
    defaultsAwaited.WaitsFor 1 0 ∧ ¬ Relation.TransGen defaultsAwaited.WaitsFor 1 1 := by
  refine ⟨⟨by decide, .quotaDefaults, .exclusive, 0, ⟨_, rfl, rfl, rfl⟩, .inl ?_⟩,
    transactions_never_deadlock (fun _ => none) defaultsAwaited_reached 1⟩
  exact ⟨_, .share, rfl, mem_cons_self, fun h => LockMode.noConfusion h.1⟩

end HeteroCloud.Store
