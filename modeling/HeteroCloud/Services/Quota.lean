/-
  File:      Services/Quota.lean
  Subject:   RESOURCE LIMITS AND WHAT IS CHARGED AGAINST THEM (crates/heterocloud-domain/src/lib.rs,
             crates/heterocloud-store/src/lib.rs, organizations.rs).

  A limit bounds either the total of a dimension over the services of a scope (`Dimension`) or one
  service (`ServiceDimension`). The usage records of the source saturate.
-/
import HeteroCloud.Base.Numbers
import HeteroCloud.Base.Table
import HeteroCloud.Services.Specs

namespace HeteroCloud.Services

open Base Iam

/-! ## 1. Limits -/

structure FlowQuotaLimits where
  maxServices : Nat
  maxRoomsPerService : Nat
  maxTotalRooms : Nat
  maxParticipantsPerService : Nat
  maxRateLimitRequestsPerSecond : Nat
  maxRateLimitBurst : Nat
  maxDeveloperCredentialsPerService : Nat
  deriving DecidableEq, Repr

structure FlashQuotaLimits where
  maxServices : Nat
  maxReplicasPerService : Nat
  maxCpuMillisPerVm : Nat
  maxMemoryMibPerVm : Nat
  maxDiskGibPerVm : Nat
  maxTotalReplicas : Nat
  maxTotalCpuMillis : Nat
  maxTotalMemoryMib : Nat
  maxTotalDiskGib : Nat
  maxWeeklyCpuMillicoreSeconds : Nat
  maxWeeklyMemoryMibSeconds : Nat
  maxWeeklyGpuSeconds : Nat
  deriving DecidableEq, Repr

structure RegistryQuotaLimits where
  storageGib : Nat
  maxCredentials : Nat
  deriving DecidableEq, Repr

structure SyouyuQuotaLimits where
  maxBuckets : Nat
  maxBytesPerBucket : Nat
  maxObjectsPerBucket : Nat
  maxTotalBytes : Nat
  maxCredentialsPerBucket : Nat
  maxTotalCredentials : Nat
  deriving DecidableEq, Repr

structure ResourceQuotaLimits where
  flow : FlowQuotaLimits
  flash : FlashQuotaLimits
  registry : RegistryQuotaLimits
  syouyu : SyouyuQuotaLimits
  deriving DecidableEq, Repr

def maxFlowRooms : Nat := 1000000
def maxFlowRateLimitRequestsPerSecond : Nat := 1000
def maxFlowRateLimitBurst : Nat := 5000
def maxFlowParticipants : Nat := 100000
def maxTenantServices : Nat := 10000
def maxTenantFlowRooms : Nat := 100000000
def maxFlashWeeklyCpuMillicoreSeconds : Nat := 3153600000000000
def maxFlashWeeklyMemoryMibSeconds : Nat := 33067892736000
def maxFlashWeeklyGpuSeconds : Nat := 31536000
def maxFlashOrganizationCpuMillis : Nat := 100000000
def maxFlashOrganizationMemoryMib : Nat := 1048576
def maxFlashOrganizationEphemeralStorageGib : Nat := 1000000
def maxFlashOrganizationReplicas : Nat := 100000

namespace ResourceQuotaLimits

/-- `ResourceQuotaLimits::default`. -/
def default : ResourceQuotaLimits where
  flow := {
    maxServices := 100
    maxRoomsPerService := maxFlowRooms
    maxTotalRooms := maxFlowRooms
    maxParticipantsPerService := maxFlowParticipants
    maxRateLimitRequestsPerSecond := maxFlowRateLimitRequestsPerSecond
    maxRateLimitBurst := maxFlowRateLimitBurst
    maxDeveloperCredentialsPerService := 100 }
  flash := {
    maxServices := 100
    maxReplicasPerService := 100
    maxCpuMillisPerVm := 4000
    maxMemoryMibPerVm := 8128
    maxDiskGibPerVm := 10
    maxTotalReplicas := 100
    maxTotalCpuMillis := 20000
    maxTotalMemoryMib := 32768
    maxTotalDiskGib := 100
    maxWeeklyCpuMillicoreSeconds := 3245760000
    maxWeeklyMemoryMibSeconds := 2836280317
    maxWeeklyGpuSeconds := 40320 }
  registry := { storageGib := 10, maxCredentials := 10 }
  syouyu := {
    maxBuckets := 10
    maxBytesPerBucket := 10 * 1024 * 1024 * 1024
    maxObjectsPerBucket := 1000000
    maxTotalBytes := 30 * 1024 * 1024 * 1024
    maxCredentialsPerBucket := 10
    maxTotalCredentials := 1000 }

def flowErrors (flow : FlowQuotaLimits) : List (Option String) :=
  [ refuse (!within 1 maxTenantServices flow.maxServices)
      "flow.max_services is outside the safety range",
    refuse (!within 1 maxFlowRooms flow.maxRoomsPerService ||
        decide (flow.maxTotalRooms < flow.maxRoomsPerService) ||
        decide (flow.maxTotalRooms > maxTenantFlowRooms))
      "Flow room limits are inconsistent or outside the safety range",
    refuse (!within 1 maxFlowParticipants flow.maxParticipantsPerService)
      "flow.max_participants_per_service is outside the safety range",
    refuse (!within 1 maxFlowRateLimitRequestsPerSecond flow.maxRateLimitRequestsPerSecond ||
        !within 1 maxFlowRateLimitBurst flow.maxRateLimitBurst ||
        decide (flow.maxRateLimitBurst < flow.maxRateLimitRequestsPerSecond))
      "Flow API rate limits are inconsistent or outside the safety range",
    refuse (!within 1 10000 flow.maxDeveloperCredentialsPerService)
      "flow.max_developer_credentials_per_service is outside the safety range" ]

def syouyuErrors (syouyu : SyouyuQuotaLimits) : List (Option String) :=
  [ refuse (!within 1 maxTenantServices syouyu.maxBuckets)
      "syouyu.max_buckets is outside the safety range",
    refuse (!within minSyouyuQuotaBytes maxSyouyuQuotaBytes syouyu.maxBytesPerBucket ||
        decide (syouyu.maxTotalBytes < syouyu.maxBytesPerBucket) ||
        decide (syouyu.maxTotalBytes > maxSyouyuQuotaBytes))
      "Syouyu byte limits are inconsistent or outside the safety range",
    refuse (!within 1 maxSyouyuQuotaObjects syouyu.maxObjectsPerBucket)
      "syouyu.max_objects_per_bucket is outside the safety range",
    refuse (!within 1 10000 syouyu.maxCredentialsPerBucket ||
        decide (syouyu.maxTotalCredentials < syouyu.maxCredentialsPerBucket) ||
        decide (syouyu.maxTotalCredentials > 1000000))
      "Syouyu credential limits are inconsistent or outside the safety range" ]

/-- A limit of Flash within its range. -/
def flashRange (name : String) (low high n : Nat) : Option String :=
  refuse (!within low high n) s!"flash.{name} must be between {low} and {high}"

def flashErrors (flash : FlashQuotaLimits) : List (Option String) :=
  [ flashRange "max_services" 1 maxTenantServices flash.maxServices,
    flashRange "max_replicas_per_service" minFlashReplicas maxFlashReplicas
      flash.maxReplicasPerService,
    flashRange "max_cpu_millis_per_vm" minFlashCpuMillis maxFlashCpuMillis
      flash.maxCpuMillisPerVm,
    flashRange "max_memory_mib_per_vm" minFlashMemoryMib maxFlashMemoryMib
      flash.maxMemoryMibPerVm,
    flashRange "max_disk_gib_per_vm" minFlashEphemeralStorageGib maxFlashEphemeralStorageGib
      flash.maxDiskGibPerVm,
    flashRange "max_total_replicas" flash.maxReplicasPerService maxFlashOrganizationReplicas
      flash.maxTotalReplicas,
    flashRange "max_total_cpu_millis" flash.maxCpuMillisPerVm maxFlashOrganizationCpuMillis
      flash.maxTotalCpuMillis,
    flashRange "max_total_memory_mib" flash.maxMemoryMibPerVm maxFlashOrganizationMemoryMib
      flash.maxTotalMemoryMib,
    flashRange "max_total_disk_gib" flash.maxDiskGibPerVm
      maxFlashOrganizationEphemeralStorageGib flash.maxTotalDiskGib,
    flashRange "max_weekly_gpu_seconds" 0 maxFlashWeeklyGpuSeconds flash.maxWeeklyGpuSeconds,
    flashRange "max_weekly_cpu_millicore_seconds" 0 maxFlashWeeklyCpuMillicoreSeconds
      flash.maxWeeklyCpuMillicoreSeconds,
    flashRange "max_weekly_memory_mib_seconds" 0 maxFlashWeeklyMemoryMibSeconds
      flash.maxWeeklyMemoryMibSeconds ]

/-- `ResourceQuotaLimits::validate`. -/
def validate (limits : ResourceQuotaLimits) : Option String :=
  firstRefusal <| flowErrors limits.flow ++ syouyuErrors limits.syouyu ++
    flashErrors limits.flash ++
    [ refuse (!within 1 10240 limits.registry.storageGib)
        "registry.storage_gib must be between 1 and 10240",
      refuse (!within 1 1000 limits.registry.maxCredentials)
        "registry.max_credentials must be between 1 and 1000" ]

/-- Every limit, the lower of the two. -/
def lower (a b : ResourceQuotaLimits) : ResourceQuotaLimits where
  flow := {
    maxServices := min a.flow.maxServices b.flow.maxServices
    maxRoomsPerService := min a.flow.maxRoomsPerService b.flow.maxRoomsPerService
    maxTotalRooms := min a.flow.maxTotalRooms b.flow.maxTotalRooms
    maxParticipantsPerService :=
      min a.flow.maxParticipantsPerService b.flow.maxParticipantsPerService
    maxRateLimitRequestsPerSecond :=
      min a.flow.maxRateLimitRequestsPerSecond b.flow.maxRateLimitRequestsPerSecond
    maxRateLimitBurst := min a.flow.maxRateLimitBurst b.flow.maxRateLimitBurst
    maxDeveloperCredentialsPerService :=
      min a.flow.maxDeveloperCredentialsPerService b.flow.maxDeveloperCredentialsPerService }
  flash := {
    maxServices := min a.flash.maxServices b.flash.maxServices
    maxReplicasPerService := min a.flash.maxReplicasPerService b.flash.maxReplicasPerService
    maxCpuMillisPerVm := min a.flash.maxCpuMillisPerVm b.flash.maxCpuMillisPerVm
    maxMemoryMibPerVm := min a.flash.maxMemoryMibPerVm b.flash.maxMemoryMibPerVm
    maxDiskGibPerVm := min a.flash.maxDiskGibPerVm b.flash.maxDiskGibPerVm
    maxTotalReplicas := min a.flash.maxTotalReplicas b.flash.maxTotalReplicas
    maxTotalCpuMillis := min a.flash.maxTotalCpuMillis b.flash.maxTotalCpuMillis
    maxTotalMemoryMib := min a.flash.maxTotalMemoryMib b.flash.maxTotalMemoryMib
    maxTotalDiskGib := min a.flash.maxTotalDiskGib b.flash.maxTotalDiskGib
    maxWeeklyCpuMillicoreSeconds :=
      min a.flash.maxWeeklyCpuMillicoreSeconds b.flash.maxWeeklyCpuMillicoreSeconds
    maxWeeklyMemoryMibSeconds :=
      min a.flash.maxWeeklyMemoryMibSeconds b.flash.maxWeeklyMemoryMibSeconds
    maxWeeklyGpuSeconds := min a.flash.maxWeeklyGpuSeconds b.flash.maxWeeklyGpuSeconds }
  registry := {
    storageGib := min a.registry.storageGib b.registry.storageGib
    maxCredentials := min a.registry.maxCredentials b.registry.maxCredentials }
  syouyu := {
    maxBuckets := min a.syouyu.maxBuckets b.syouyu.maxBuckets
    maxBytesPerBucket := min a.syouyu.maxBytesPerBucket b.syouyu.maxBytesPerBucket
    maxObjectsPerBucket := min a.syouyu.maxObjectsPerBucket b.syouyu.maxObjectsPerBucket
    maxTotalBytes := min a.syouyu.maxTotalBytes b.syouyu.maxTotalBytes
    maxCredentialsPerBucket :=
      min a.syouyu.maxCredentialsPerBucket b.syouyu.maxCredentialsPerBucket
    maxTotalCredentials := min a.syouyu.maxTotalCredentials b.syouyu.maxTotalCredentials }

/-- `capped_limits`: a member's limits under those of the account; what is shared in the account is
the account's. -/
def capped (organization member : ResourceQuotaLimits) : Except String ResourceQuotaLimits :=
  let limits := lower member organization
  match limits.validate with
  | some message => .error message
  | none => .ok { limits with
      registry := organization.registry
      syouyu := { limits.syouyu with
        maxCredentialsPerBucket := organization.syouyu.maxCredentialsPerBucket
        maxTotalCredentials := organization.syouyu.maxTotalCredentials } }

end ResourceQuotaLimits

/-! ## 2. Dimensions -/

/-- What is added up over the services of a scope. -/
inductive Dimension where
  | flowServices
  | flowRooms
  | flashServices
  | flashReplicas
  | flashCpuMillis
  | flashMemoryMib
  | flashDiskGib
  | syouyuBuckets
  | syouyuBytes
  deriving DecidableEq, Repr

/-- What is bounded for one service. -/
inductive ServiceDimension where
  | flowRooms
  | flowParticipants
  | flowRequestsPerSecond
  | flowBurst
  | flashReplicas
  | flashCpuMillis
  | flashMemoryMib
  | flashDiskGib
  | syouyuBytes
  | syouyuObjects
  deriving DecidableEq, Repr

def Dimension.limit (limits : ResourceQuotaLimits) : Dimension → Nat
  | .flowServices => limits.flow.maxServices
  | .flowRooms => limits.flow.maxTotalRooms
  | .flashServices => limits.flash.maxServices
  | .flashReplicas => limits.flash.maxTotalReplicas
  | .flashCpuMillis => limits.flash.maxTotalCpuMillis
  | .flashMemoryMib => limits.flash.maxTotalMemoryMib
  | .flashDiskGib => limits.flash.maxTotalDiskGib
  | .syouyuBuckets => limits.syouyu.maxBuckets
  | .syouyuBytes => limits.syouyu.maxTotalBytes

def ServiceDimension.limit (limits : ResourceQuotaLimits) : ServiceDimension → Nat
  | .flowRooms => limits.flow.maxRoomsPerService
  | .flowParticipants => limits.flow.maxParticipantsPerService
  | .flowRequestsPerSecond => limits.flow.maxRateLimitRequestsPerSecond
  | .flowBurst => limits.flow.maxRateLimitBurst
  | .flashReplicas => limits.flash.maxReplicasPerService
  | .flashCpuMillis => limits.flash.maxCpuMillisPerVm
  | .flashMemoryMib => limits.flash.maxMemoryMibPerVm
  | .flashDiskGib => limits.flash.maxDiskGibPerVm
  | .syouyuBytes => limits.syouyu.maxBytesPerBucket
  | .syouyuObjects => limits.syouyu.maxObjectsPerBucket

/-! ## 3. Usage records -/

/-- `ResourceQuotaUsage`, without the counts of credentials and stored bytes. -/
structure ResourceQuotaUsage where
  flowServices : Nat := 0
  flowMaxRoomsPerService : Nat := 0
  flowConfiguredRooms : Nat := 0
  flowMaxParticipantsPerService : Nat := 0
  flowMaxRateLimitRequestsPerSecond : Nat := 0
  flowMaxRateLimitBurst : Nat := 0
  flashServices : Nat := 0
  flashMaxReplicasPerService : Nat := 0
  flashMaxCpuMillisPerVm : Nat := 0
  flashMaxMemoryMibPerVm : Nat := 0
  flashMaxDiskGibPerVm : Nat := 0
  flashReplicas : Nat := 0
  flashCpuMillis : Nat := 0
  flashMemoryMib : Nat := 0
  flashDiskGib : Nat := 0
  syouyuBuckets : Nat := 0
  syouyuMaxBytesPerBucket : Nat := 0
  syouyuMaxObjectsPerBucket : Nat := 0
  syouyuConfiguredBytes : Nat := 0
  deriving DecidableEq, Repr

namespace ResourceQuotaUsage

def addFlowSpec (u : ResourceQuotaUsage) (s : FlowSpec) : ResourceQuotaUsage :=
  { u with
    flowServices := saturatingAdd u.flowServices 1
    flowMaxRoomsPerService := max u.flowMaxRoomsPerService s.maxRooms
    flowConfiguredRooms := saturatingAdd u.flowConfiguredRooms s.maxRooms
    flowMaxParticipantsPerService := max u.flowMaxParticipantsPerService s.maxParticipants
    flowMaxRateLimitRequestsPerSecond :=
      max u.flowMaxRateLimitRequestsPerSecond s.rateLimit.requestsPerSecond
    flowMaxRateLimitBurst := max u.flowMaxRateLimitBurst s.rateLimit.burst }

def addFlashSpec (u : ResourceQuotaUsage) (s : FlashSpec) : ResourceQuotaUsage :=
  let replicas := s.reservedReplicas
  { u with
    flashServices := saturatingAdd u.flashServices 1
    flashMaxReplicasPerService := max u.flashMaxReplicasPerService replicas
    flashMaxCpuMillisPerVm := max u.flashMaxCpuMillisPerVm s.cpuMillis.toNat
    flashMaxMemoryMibPerVm := max u.flashMaxMemoryMibPerVm s.memoryMib.toNat
    flashMaxDiskGibPerVm := max u.flashMaxDiskGibPerVm s.ephemeralStorageGib.toNat
    flashReplicas := saturatingAdd u.flashReplicas replicas
    flashCpuMillis := saturatingAdd u.flashCpuMillis (saturatingMul replicas s.cpuMillis.toNat)
    flashMemoryMib := saturatingAdd u.flashMemoryMib (saturatingMul replicas s.memoryMib.toNat)
    flashDiskGib :=
      saturatingAdd u.flashDiskGib (saturatingMul replicas s.ephemeralStorageGib.toNat) }

def addSyouyuSpec (u : ResourceQuotaUsage) (s : SyouyuSpec) : ResourceQuotaUsage :=
  { u with
    syouyuBuckets := saturatingAdd u.syouyuBuckets 1
    syouyuMaxBytesPerBucket := max u.syouyuMaxBytesPerBucket s.quotaBytes
    syouyuMaxObjectsPerBucket := max u.syouyuMaxObjectsPerBucket s.quotaObjects
    syouyuConfiguredBytes := saturatingAdd u.syouyuConfiguredBytes s.quotaBytes }

/-- The local function `add` of both allocation checks. -/
def add (u : ResourceQuotaUsage) : ServiceSpec → ResourceQuotaUsage
  | .flow s => u.addFlowSpec s
  | .flash s => u.addFlashSpec s
  | .syouyu s => u.addSyouyuSpec s
  | _ => u

def ofRows (rows : List ServiceSpec) : ResourceQuotaUsage := rows.foldl add {}

/-- The recorded total. -/
def dimension (u : ResourceQuotaUsage) : Dimension → Nat
  | .flowServices => u.flowServices
  | .flowRooms => u.flowConfiguredRooms
  | .flashServices => u.flashServices
  | .flashReplicas => u.flashReplicas
  | .flashCpuMillis => u.flashCpuMillis
  | .flashMemoryMib => u.flashMemoryMib
  | .flashDiskGib => u.flashDiskGib
  | .syouyuBuckets => u.syouyuBuckets
  | .syouyuBytes => u.syouyuConfiguredBytes

/-- The recorded maximum. -/
def serviceDimension (u : ResourceQuotaUsage) : ServiceDimension → Nat
  | .flowRooms => u.flowMaxRoomsPerService
  | .flowParticipants => u.flowMaxParticipantsPerService
  | .flowRequestsPerSecond => u.flowMaxRateLimitRequestsPerSecond
  | .flowBurst => u.flowMaxRateLimitBurst
  | .flashReplicas => u.flashMaxReplicasPerService
  | .flashCpuMillis => u.flashMaxCpuMillisPerVm
  | .flashMemoryMib => u.flashMaxMemoryMibPerVm
  | .flashDiskGib => u.flashMaxDiskGibPerVm
  | .syouyuBytes => u.syouyuMaxBytesPerBucket
  | .syouyuObjects => u.syouyuMaxObjectsPerBucket

variable {u : ResourceQuotaUsage} {n : Nat}
end ResourceQuotaUsage

/-! ## 4. The allocation checks -/

/-- Above the limit, and not merely still above it: only with a `previous` service may a dimension
that is exceeded stay as it is. -/
def overLimit (previous : Bool) (after limit old : Nat) : Bool :=
  decide (after > limit) && (!previous || decide (after > old))

section Allocation

open ResourceQuotaUsage

variable (limits : ResourceQuotaLimits)

/-- The `match` of both checks over the dimensions of the provider. -/
def exceeded (provider : Provider) (previous : Bool) (after before requestedService previousService
    : ResourceQuotaUsage) : Bool :=
  let total (dim : Dimension) :=
    overLimit previous (after.dimension dim) (dim.limit limits) (before.dimension dim)
  let single (dim : ServiceDimension) :=
    overLimit previous (requestedService.serviceDimension dim) (dim.limit limits)
      (previousService.serviceDimension dim)
  match provider with
  | .flow => total .flowServices || total .flowRooms || single .flowRooms ||
      single .flowParticipants || single .flowRequestsPerSecond || single .flowBurst
  | .flash => total .flashServices || total .flashReplicas || total .flashCpuMillis ||
      total .flashMemoryMib || total .flashDiskGib || single .flashReplicas ||
      single .flashCpuMillis || single .flashMemoryMib || single .flashDiskGib
  | .syouyu => total .syouyuBuckets || total .syouyuBytes || single .syouyuBytes ||
      single .syouyuObjects
  | _ => false

/-- The body of `validate_member_allocation` and `validate_cloud_organization_allocation`: the
services of the scope but the changed one, what that was if its size may stay, and what it asks
for. -/
def allocationAllowed (rows : List ServiceSpec) (previous : Option ServiceSpec) (requested :
    ServiceSpec) : Bool :=
  let others := ofRows rows
  let before := (previous.map others.add).getD others
  let previousService := (previous.map (add {})).getD {}
  !exceeded limits requested.provider previous.isSome (others.add requested) before
    (add {} requested) previousService

end Allocation
end HeteroCloud.Services
