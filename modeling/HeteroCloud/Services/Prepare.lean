/-
  File:      Services/Prepare.lean
  Subject:   WHAT A SERVICE MAY ASK FOR: the checks of a requested specification against the limits
             of its account and against the services there are (`prepare_flow_spec`,
             `prepare_flash_spec`, `prepare_syouyu_spec`, `prepare_vpc_spec`,
             `validate_cloud_organization_allocation`, `validate_member_allocation`,
             `validate_vpc_attachment`, `validate_flash_disk_update`).

  `u64` additions of the source that neither saturate nor are checked wrap around here, as they do
  in a release build.
-/
import HeteroCloud.Services.Schema

namespace HeteroCloud.Services

open Base Iam
open Store (ServiceInstanceState StoreError)

/-! ## 1. Limits -/

/-- What succeeds has succeeded step by step. -/
theorem bind_ok {ε α β : Type} {x : Except ε α} {f : α → Except ε β} {b : β}
    (h : x.bind f = .ok b) : ∃ a, x = .ok a ∧ f a = .ok b := by
  cases x with
  | error => cases h
  | ok a => exact ⟨a, rfl, h⟩

/-- `parse_resource_quota`. -/
def parseResourceQuota (limits : ResourceQuotaLimits) : Except StoreError ResourceQuotaLimits :=
  match limits.validate with
  | some message => .error (.requestRejected message)
  | none => .ok limits

theorem parseResourceQuota_ok {limits l : ResourceQuotaLimits}
    (h : parseResourceQuota limits = .ok l) : l = limits ∧ limits.validate = none := by
  unfold parseResourceQuota at h
  split at h
  · cases h
  rename_i hvalid
  cases h
  exact ⟨rfl, hvalid⟩

variable (d : Db)

/-- `resource_quota_in_transaction`, `effective_resource_quota`. -/
def Db.resourceQuota (organization : Uuid) : Except StoreError ResourceQuotaLimits :=
  if d.accounts.contains organization then parseResourceQuota (d.limitsOf organization)
  else .error .notFound

/-- What is left of the limits of the account for a member: `capped_limits` of the member's own, if
there are any. -/
def memberCap (organizationLimits : ResourceQuotaLimits) (own : Option ResourceQuotaLimits) :
    Except StoreError ResourceQuotaLimits :=
  match own with
  | none => .ok organizationLimits
  | some own => do
    let own ← parseResourceQuota own
    match organizationLimits.capped own with
    | .ok limits => .ok limits
    | .error message => .error (.requestRejected message)

variable (organization user : Uuid)

/-- `member_quota_in_transaction`. -/
def Db.memberQuota (organizationLimits : ResourceQuotaLimits) : Except StoreError
    ResourceQuotaLimits :=
  if d.isMember organization user then
    memberCap organizationLimits (d.memberLimits organization user)
  else .error .notFound

/-! ## 2. The services a check counts -/

/-- `state <> 'deleting'`. -/
def ServiceRow.live (s : ServiceRow) : Bool := s.state != .deleting

variable (excluded : Option Uuid)

/-- Not the service that is changed. -/
def notExcluded (s : ServiceRow) : Bool := excluded != some s.id

namespace Db

variable (d : Db) (excluded : Option Uuid)

/-- The specifications of the account's other services of a provider. -/
def accountSpecs (organization : Uuid) (provider : Provider) : List ServiceSpec :=
  (d.serviceInstances.filter fun s => (s.organizationId == organization && s.provider == provider &&
    s.live) && notExcluded excluded s).map (·.spec)

/-- Those of the services charged to one member. -/
def memberSpecs (organization user : Uuid) (provider : Provider) : List ServiceSpec :=
  (d.serviceInstances.filter fun s => (s.organizationId == organization &&
    s.quotaUserId == some user && s.provider == provider && s.live) &&
      notExcluded excluded s).map (·.spec)

/-- Those of all other services of the cloud organization, also of services in deletion. -/
def cloudSpecs (u : Setup) (cloudOrganization : Uuid) (provider : Provider) : List ServiceSpec :=
  (d.serviceInstances.filter fun s => (u.cloudOf s.organizationId == some cloudOrganization &&
    s.provider == provider) && notExcluded excluded s).map (·.spec)

end Db

/-! ## 3. Flow and Syouyu -/

variable (totals : Nat × Nat)

/-- `services += 1; rooms = rooms.saturating_add(..)`. -/
def addFlow : ServiceSpec → Nat × Nat
  | .flow s => (wrappingAdd totals.1 1, saturatingAdd totals.2 s.maxRooms)
  | _ => totals

/-- `prepare_flow_spec`; `rows` are the account's other Flow services. -/
def prepareFlowSpec (rows : List ServiceSpec) (quota : ResourceQuotaLimits) (requested : FlowSpec) :
    Except StoreError FlowSpec :=
  let totals := rows.foldl addFlow (1, requested.maxRooms)
  match firstRefusal [
    refuse (decide (requested.maxRooms > quota.flow.maxRoomsPerService))
      (s!"Flow room limit exceeded: {requested.maxRooms} requested, limit is " ++
        s!"{quota.flow.maxRoomsPerService} per service"),
    refuse (decide (requested.maxParticipants > quota.flow.maxParticipantsPerService))
      (s!"Flow participant limit exceeded: {requested.maxParticipants} requested, limit is " ++
        s!"{quota.flow.maxParticipantsPerService} per service"),
    refuse (decide (requested.rateLimit.requestsPerSecond >
        quota.flow.maxRateLimitRequestsPerSecond) ||
        decide (requested.rateLimit.burst > quota.flow.maxRateLimitBurst))
      ("Flow API rate limit exceeds the tenant ceiling of " ++
        s!"{quota.flow.maxRateLimitRequestsPerSecond} RPS and " ++
        s!"{quota.flow.maxRateLimitBurst} burst"),
    refuse (decide (totals.1 > quota.flow.maxServices))
      s!"Flow service limit exceeded: {totals.1} requested, limit is {quota.flow.maxServices}",
    refuse (decide (totals.2 > quota.flow.maxTotalRooms))
      (s!"Flow tenant room limit exceeded: {totals.2} requested, limit is " ++
        s!"{quota.flow.maxTotalRooms}")]
    with
  | some message => .error (.requestRejected message)
  | none => .ok requested

/-- `buckets.saturating_add(1); bytes.saturating_add(..)`. -/
def addSyouyu : ServiceSpec → Nat × Nat
  | .syouyu s => (saturatingAdd totals.1 1, saturatingAdd totals.2 s.quotaBytes)
  | _ => totals

def ServiceSpec.syouyu? : ServiceSpec → Option SyouyuSpec
  | .syouyu s => some s
  | _ => none

variable (checks : SpecChecks)

/-- `prepare_syouyu_spec`; `rows` are the account's other buckets, `nameOwner` is the service that
has the bucket's name, and `stored` what the service was. -/
def prepareSyouyuSpec (rows : List ServiceSpec) (nameOwner : Option Uuid) (excluded : Option Uuid)
    (stored : Option SyouyuSpec) (quota : ResourceQuotaLimits) (requested : SyouyuSpec) : Except
    StoreError SyouyuSpec :=
  let totals := rows.foldl addSyouyu (1, requested.quotaBytes)
  match requested.validate checks with
  | some message => .error (.requestRejected message)
  | none =>
    if requested.quotaBytes > quota.syouyu.maxBytesPerBucket then
      .error (.requestRejected (s!"Syouyu bucket byte quota exceeded: {requested.quotaBytes} " ++
        s!"requested, limit is {quota.syouyu.maxBytesPerBucket}"))
    else if requested.quotaObjects > quota.syouyu.maxObjectsPerBucket then
      .error (.requestRejected ("Syouyu bucket object quota exceeded: " ++
        s!"{requested.quotaObjects} requested, limit is {quota.syouyu.maxObjectsPerBucket}"))
    else if nameOwner.isSome && nameOwner != excluded then .error .conflict
    else if stored.any fun s => s.bucketName != requested.bucketName ||
        s.region != requested.region then
      .error (.requestRejected
        "Syouyu bucket_name and region cannot be changed after creation")
    else if totals.1 > quota.syouyu.maxBuckets then
      .error (.requestRejected (s!"Syouyu bucket limit exceeded: {totals.1} requested, limit is " ++
        s!"{quota.syouyu.maxBuckets}"))
    else if totals.2 > quota.syouyu.maxTotalBytes then
      .error (.requestRejected (s!"Syouyu tenant byte quota exceeded: {totals.2} requested, " ++
        s!"limit is {quota.syouyu.maxTotalBytes}"))
    else .ok requested

/-- `SELECT id FROM service_instances WHERE provider = 'syouyu' AND spec->>'bucket_name' = $1`. -/
def Db.bucketOwner (bucketName : String) : Option Uuid :=
  (d.serviceInstances.find? fun s =>
    s.spec.syouyu?.any fun spec => spec.bucketName == bucketName).map (·.id)

/-! ## 4. Flash -/

/-- The running totals of `prepare_flash_spec`. -/
structure FlashTotals where
  services : Nat
  replicas : Nat
  cpuMillis : Nat
  memoryMib : Nat
  diskGib : Nat
  deriving DecidableEq, Repr

namespace FlashTotals

def start : FlashTotals := ⟨1, 0, 0, 0, 0⟩

variable (t : FlashTotals) (s : FlashSpec)

/-- What a service reserves, added to the totals but for the number of services. -/
def reserve : FlashTotals :=
  { t with
    replicas := wrappingAdd t.replicas s.reservedReplicas
    cpuMillis := wrappingAdd t.cpuMillis (wrappingMul s.reservedReplicas s.cpuMillis.toNat)
    memoryMib := wrappingAdd t.memoryMib (wrappingMul s.reservedReplicas s.memoryMib.toNat)
    diskGib := wrappingAdd t.diskGib (wrappingMul s.reservedReplicas s.ephemeralStorageGib.toNat) }

/-- The loop over the stored services. -/
def add : ServiceSpec → FlashTotals
  | .flash s => { t.reserve s with services := wrappingAdd t.services 1 }
  | _ => t

variable (rows : List ServiceSpec) (requested : FlashSpec)

/-- The totals that are compared with the limits. -/
def ofRequest : FlashTotals :=
  (rows.foldl add start).reserve requested

/-- The same with every overflow noticed, as a debug build does. -/
def checkedReserve : Option FlashTotals := do
  let cpu ← checkedMul s.reservedReplicas s.cpuMillis.toNat
  let memory ← checkedMul s.reservedReplicas s.memoryMib.toNat
  let disk ← checkedMul s.reservedReplicas s.ephemeralStorageGib.toNat
  return {
    services := t.services
    replicas := ← checkedAdd t.replicas s.reservedReplicas
    cpuMillis := ← checkedAdd t.cpuMillis cpu
    memoryMib := ← checkedAdd t.memoryMib memory
    diskGib := ← checkedAdd t.diskGib disk }

def checkedStep : ServiceSpec → Option FlashTotals
  | .flash s => do
    let t' ← t.checkedReserve s
    return { t' with services := ← checkedAdd t.services 1 }
  | _ => some t

def checkedOfRequest : Option FlashTotals := do
  let t ← rows.foldlM checkedStep start
  t.checkedReserve requested

end FlashTotals

/-- A port of the cluster's nodes: what is taken, by protocol. -/
abbrev NodePort := FlashProtocol × Nat

/-- The node ports of a stored specification. -/
def ServiceSpec.nodePorts : ServiceSpec → List NodePort
  | .flash s => if s.usesServicePorts then s.ports.map fun p => (p.protocol, p.servicePort) else []
  | _ => []

def flashProtocolName : FlashProtocol → String
  | .tcp => "TCP"
  | .udp => "UDP"

/-- `MIN_FLASH_SERVICE_PORT..=MAX_FLASH_SERVICE_PORT`. -/
def servicePorts : List Nat :=
  List.range' minFlashServicePort (maxFlashServicePort - minFlashServicePort + 1)

variable (existing : List FlashPort)

/-- The service port of the port of that protocol and name: `existing_ports.get(..)`. -/
def storedPort (port : FlashPort) : Option Nat :=
  (existing.reverse.find? fun p => p.protocol == port.protocol && p.name == port.name).map
    (·.servicePort)

variable (occupied : List NodePort)

/-- The port it keeps, if that is in the range and free. -/
def preservedPort (port : FlashPort) : Option Nat :=
  (storedPort existing port).filter fun value =>
    within minFlashServicePort maxFlashServicePort value &&
      !occupied.contains (port.protocol, value)

/-- The first free port. -/
def freePort (protocol : FlashProtocol) : Option Nat :=
  servicePorts.find? fun value => !occupied.contains (protocol, value)

/-- The loop that assigns the service ports. -/
def assignPorts (existing : List FlashPort) (occupied : List NodePort) :
    List FlashPort → Except StoreError (List FlashPort)
  | [] => .ok []
  | port :: rest =>
    match (preservedPort existing occupied port).or (freePort occupied port.protocol) with
    | none => .error (.requestRejected (s!"no free {flashProtocolName port.protocol} service " ++
      s!"ports remain in {minFlashServicePort}..={maxFlashServicePort}"))
    | some assigned => do
      let ports ← assignPorts existing ((port.protocol, assigned) :: occupied) rest
      return { port with servicePort := assigned } :: ports

/-- The ports of a specification: the container's own in a VPC. -/
def flashPorts (requested : FlashSpec) : Except StoreError (List FlashPort) :=
  if requested.vpcInternal then
    .ok (requested.ports.map fun p => { p with servicePort := p.containerPort })
  else assignPorts existing occupied requested.ports

variable (quota : FlashQuotaLimits)

/-- The checks of the totals, in order. -/
def flashTotalErrors (t : FlashTotals) : List (Option String) :=
  [ refuse (decide (t.services > quota.maxServices))
      s!"Flash service limit exceeded: {t.services} requested, limit is {quota.maxServices}",
    refuse (decide (t.replicas > quota.maxTotalReplicas))
      (s!"Flash tenant replica limit exceeded: {t.replicas} requested, limit is " ++
        s!"{quota.maxTotalReplicas}"),
    refuse (decide (t.cpuMillis > quota.maxTotalCpuMillis))
      (s!"Flash tenant CPU limit exceeded: {t.cpuMillis} millicores requested, limit is " ++
        s!"{quota.maxTotalCpuMillis}"),
    refuse (decide (t.memoryMib > quota.maxTotalMemoryMib))
      (s!"Flash tenant memory limit exceeded: {t.memoryMib} MiB requested, limit is " ++
        s!"{quota.maxTotalMemoryMib} MiB"),
    refuse (decide (t.diskGib > quota.maxTotalDiskGib))
      (s!"Flash tenant disk limit exceeded: {t.diskGib} GiB requested, limit is " ++
        s!"{quota.maxTotalDiskGib} GiB") ]

/-- The checks of one service, made before anything is added up. -/
def flashServiceErrors (requested : FlashSpec) : List (Option String) :=
  [ refuse (decide (requested.reservedReplicas > quota.maxReplicasPerService))
      (s!"Flash replica limit exceeded: {requested.reservedReplicas} requested, limit is " ++
        s!"{quota.maxReplicasPerService} per service"),
    refuse (decide (requested.cpuMillis.toNat > quota.maxCpuMillisPerVm) ||
        decide (requested.memoryMib.toNat > quota.maxMemoryMibPerVm) ||
        decide (requested.ephemeralStorageGib.toNat > quota.maxDiskGibPerVm))
      (s!"Flash VM resources exceed the tenant ceiling of {quota.maxCpuMillisPerVm} millicores, " ++
        s!"{quota.maxMemoryMibPerVm} MiB memory, and {quota.maxDiskGibPerVm} GiB disk") ]

/-- `firstRefusal` as a result. -/
def passes (checks : List (Option String)) : Except StoreError Unit :=
  match firstRefusal checks with
  | some message => .error (.requestRejected message)
  | none => .ok ()

/-- `prepare_flash_spec` after the checks of the request and of access to the GPU type: `rows` are
the account's other Flash services, `occupied` the node ports of all others, `existing` the ports
the service had. -/
def prepareFlashSpec (rows : List ServiceSpec) (occupied : List NodePort) (existing : List
    FlashPort) (quota : ResourceQuotaLimits) (requested : FlashSpec) : Except StoreError FlashSpec
    := do
  passes (flashServiceErrors quota.flash requested)
  let ports ← flashPorts existing occupied requested
  passes (flashTotalErrors quota.flash (.ofRequest rows requested))
  let prepared := { requested with ports }
  match prepared.validate checks with
  | some message => .error (.requestRejected message)
  | none => .ok prepared

/-- The node ports of all other Flash services that are not in deletion. -/
def Db.occupiedPorts : List NodePort :=
  (d.serviceInstances.filter fun s => s.live && notExcluded excluded s).flatMap
    fun s => s.spec.nodePorts

/-- `principal_user_id`, of an enabled principal whose user, if any, is active. -/
def Db.principalUserId (organization principal : Uuid) : Option (Option Uuid) :=
  (d.principals.find? fun p => p.id == principal && p.organizationId == organization &&
    p.enabled && p.userId.all d.surroundings.activeUsers.contains).map (·.userId)

/-- The GPU type is offered to the user. -/
def Db.offersGpu (gpuType : String) (user : Option Uuid) : Bool :=
  d.gpuDevices.any fun g => g.gpuType == gpuType &&
    (g.visibility == .openToAll || user.any g.assignedUserIds.contains)

variable (u : Setup)

/-- `validate_request`, then `validate_flash_gpu_access`. -/
def Db.flashAccess (d : Db) (organization principal : Uuid) (requested : FlashSpec) : Except
    StoreError Unit :=
  match requested.validateRequest u.checks with
  | some message => .error (.requestRejected message)
  | none =>
    match requested.gpuType with
    | none => .ok ()
    | some gpuType =>
      match d.principalUserId organization principal with
      | none => .error (.invariant "authorized principal is missing")
      | some user =>
        if d.offersGpu gpuType user then .ok ()
        else .error (.requestRejected (s!"GPU type {gpuType} does not exist or is not " ++
          "accessible to the authenticated principal"))

/-! ## 5. VPCs -/

def FlashSpec.attachedTo (s : FlashSpec) (vpc : Uuid) : Bool :=
  s.network.any fun n => n.vpcId == vpc

/-- The Flash services of the account attached to the VPC, in deletion or not. -/
def Db.vpcMembers (organization vpc : Uuid) : List ServiceRow :=
  d.serviceInstances.filter fun s =>
    s.organizationId == organization && s.spec.flash?.any fun f => f.attachedTo vpc

variable (vpc : VpcSpec)

/-- The region and the security groups of the attachment are those of the VPC. -/
def VpcSpec.fits (f : FlashSpec) : Bool :=
  vpc.region == f.region &&
    f.network.all fun n => n.securityGroups.all vpc.securityGroups.contains

/-- The services a rule names. -/
def VpcSpec.ruleServices : List Uuid :=
  vpc.rules.flatMap fun rule => [rule.source, rule.destination].filterMap fun
    | .service id => some id
    | _ => none

/-- `prepare_vpc_spec`. -/
def Db.prepareVpcSpec (d : Db) (organization project id : Uuid) (creating : Bool) (requested :
    VpcSpec) : Except StoreError VpcSpec :=
  match u.checks.vpc requested with
  | some message => .error (.requestRejected message)
  | none =>
    if creating && decide ((d.serviceInstances.filter fun s =>
        s.organizationId == organization && s.provider == .vpc).length ≥ 16) then
      .error (.requestRejected "at most 16 VPCs are supported per organization")
    else if (d.vpcMembers organization id).any fun s =>
        s.spec.flash?.any fun f => !requested.fits f then
      .error (.requestRejected
        "cannot remove an attached security group or change the region of an attached VPC")
    else if requested.ruleServices.any fun service => !(d.vpcMembers organization id).any fun s =>
        s.id == service && s.projectId == project && s.live then
      .error (.requestRejected "rule service must be attached to this VPC")
    else .ok requested

def ServiceSpec.vpc? : ServiceSpec → Option VpcSpec
  | .vpc s => some s
  | _ => none

/-- The name of a Flash service in its VPC. -/
def FlashVpcAttachment.nameOf (n : FlashVpcAttachment) (id : Uuid) : String :=
  n.privateName.getD s!"f-{id}"

/-- `validate_vpc_attachment`, with the row of the VPC it locks. -/
def Db.validateVpcAttachment (organization project id : Uuid) (requested : FlashSpec) : Except
    StoreError (Option Uuid) :=
  match requested.network with
  | none => .ok none
  | some network =>
    match d.serviceInstances.find? fun s => s.id == network.vpcId &&
        s.organizationId == organization && s.projectId == project && s.provider == .vpc with
    | none => .error (.requestRejected "VPC must belong to this organization and project")
    | some vpc =>
      if vpc.state = .deleting then .error .conflict
      else if !vpc.spec.vpc?.any fun v => v.fits requested then
        .error (.requestRejected "VPC region and security groups must match the attachment")
      else if (d.vpcMembers organization network.vpcId).any fun s => s.id != id &&
          s.spec.flash?.any fun f => f.network.any fun n =>
            n.nameOf s.id == network.nameOf id then
        .error (.requestRejected "private_name is already in use in this VPC")
      else .ok (some vpc.id)

/-! ## 6. Disks -/

def gib : Nat := 1024 * 1024 * 1024

/-- `validate_flash_disk_update`. -/
def validateFlashDiskUpdate (existing : FlashSpec) (status : Json) (requested : FlashSpec) :
    Except StoreError Unit :=
  let reported := (status.get "status").getD status
  let retained := max (((reported.get "persistent_storage_bytes").bind Json.asNat).getD 0)
    (existing.persistentStorageGib.getD 0 * gib)
  let persistent := requested.persistentStorageGib.map (· * gib)
  if persistent.any fun bytes => decide (bytes < retained) then
    .error (.requestRejected ("persistent disks cannot be shrunk; choose a size at least as " ++
      "large as the existing disk"))
  else if existing.image == requested.image &&
      ((reported.get "image_size_bytes").bind Json.asNat).any fun image =>
        requested.rootfsStorageGib.any fun rootfs =>
          decide (image + rootfs * gib + persistent.getD retained >
            requested.ephemeralStorageGib.toNat * gib) then
    .error (.requestRejected ("increase ephemeral_storage_gib to fit the image, requested " ++
      "container filesystem and existing persistent disk"))
  else .ok ()

/-! ## 7. Allocations of the cloud organization and of a member -/

def Provider.counted : Provider → Bool
  | .flow | .flash | .syouyu => true
  | _ => false

def Provider.name : Provider → String
  | .flow => "flow"
  | .flash => "flash"
  | .syouyu => "syouyu"
  | .vpc => "vpc"
  | .other name => name

/-- `validate_cloud_organization_allocation`; `previous` is what the service was, if it may stay as
large. -/
def Db.validateCloudOrganizationAllocation (d : Db) (account : Uuid) (excluded : Option Uuid)
    (previous : Option ServiceSpec) (requested : ServiceSpec) : Except StoreError Unit :=
  if !requested.provider.counted || !d.serviceQuotasEnabled then .ok ()
  else match u.cloudOf account with
    | none => .error .notFound
    | some cloud => do
      let limits ← parseResourceQuota (d.limitsOf (u.management cloud))
      if allocationAllowed limits (d.cloudSpecs excluded u cloud requested.provider) previous
          requested then .ok ()
      else .error (.requestRejected (s!"{requested.provider.name} allocation exceeds the cloud " ++
        "organization service quota"))

/-- `validate_member_allocation`. -/
def Db.validateMemberAllocation (previous : Option ServiceSpec) (requested : ServiceSpec) : Except
    StoreError Unit :=
  if !requested.provider.counted then .ok ()
  else do
    let organizationLimits ← d.resourceQuota organization
    let limits ← d.memberQuota organization user organizationLimits
    if allocationAllowed limits (d.memberSpecs excluded organization user requested.provider)
        previous requested then .ok ()
    else .error (.requestRejected s!"{requested.provider.name} allocation exceeds the member quota")

end HeteroCloud.Services
