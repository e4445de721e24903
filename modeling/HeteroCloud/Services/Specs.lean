/-
  File:      Services/Specs.lean
  Subject:   SERVICE SPECIFICATIONS (crates/heterocloud-domain/src/lib.rs, vpc.rs): what a Flow,
             Flash, Syouyu or VPC service asks for, and when a Flash or Syouyu specification is
             valid.

  A row of `service_instances` holds its specification as JSON and its provider as text; here the
  specification is read and its provider is that of its type. Texts that only their own check reads
  (images, CIDRs, environment, metadata and so on) are carried, and their checks are left to
  `SpecChecks`: nothing depends on what these say.
-/
import HeteroCloud.Iam.Document

namespace HeteroCloud.Services

open Base Iam

/-! ## 1. Providers and specifications -/

inductive Provider where
  | flow
  | flash
  | syouyu
  | vpc
  | other (name : String)
  deriving DecidableEq, Repr

structure FlowRateLimit where
  requestsPerSecond : Nat
  burst : Nat
  deriving DecidableEq, Repr

structure FlowSpec where
  region : String
  maxParticipants : Nat
  maxRooms : Nat
  rateLimit : FlowRateLimit
  metadata : Json
  deriving DecidableEq, Repr

structure SyouyuSpec where
  region : String
  bucketName : String
  quotaBytes : Nat
  quotaObjects : Nat
  metadata : Json
  deriving DecidableEq, Repr

inductive FlashProtocol where
  | tcp
  | udp
  deriving DecidableEq, Repr

structure FlashPort where
  name : String
  protocol : FlashProtocol
  containerPort : Nat
  servicePort : Nat := 0
  deriving DecidableEq, Repr

/-- `public` is a word of the language, hence `external`. -/
inductive FlashExposureType where
  | internal
  | external
  deriving DecidableEq, Repr

inductive FlashTrafficMode where
  | forwarded
  | direct
  deriving DecidableEq, Repr

inductive FlashEndpointMode where
  | ip
  | loadBalancer
  | web
  deriving DecidableEq, Repr

structure FlashExposure where
  exposureType : FlashExposureType
  trafficMode : FlashTrafficMode
  endpointMode : FlashEndpointMode := .ip
  allowedSourceCidrs : List String := []
  deniedSourceCidrs : List String := []
  authentication : Option Json := none
  deriving DecidableEq, Repr

inductive FlashEgressMode where
  | disabled
  | restricted
  | internet
  deriving DecidableEq, Repr

structure FlashEgress where
  mode : FlashEgressMode := .internet
  allowSameOrganization : Bool := false
  allowedDestinationCidrs : List String := []
  deniedDestinationCidrs : List String := []
  deriving DecidableEq, Repr

structure FlashVpcAttachment where
  vpcId : Uuid
  securityGroups : List String := ["default"]
  privateName : Option String := none
  deriving DecidableEq, Repr

structure FlashAutoscaling where
  minReplicas : UInt32
  maxReplicas : UInt32
  targetCpuUtilizationPercent : Option Nat := none
  targetMemoryUtilizationPercent : Option Nat := none
  idleTimeoutSeconds : Nat := 900
  deriving DecidableEq, Repr

structure FlashSpec where
  region : String
  image : String
  taskRole : Option Uuid := none
  replicas : UInt32
  stopped : Bool := false
  autoscaling : Option FlashAutoscaling := none
  cpuMillis : UInt32
  memoryMib : UInt32
  gpuType : Option String := none
  ephemeralStorageGib : UInt32 := 10
  rootfsStorageGib : Option Nat := none
  persistentStorageGib : Option Nat := none
  restoreFromBackupId : Option Uuid := none
  ports : List FlashPort
  exposure : FlashExposure
  egress : FlashEgress := {}
  network : Option FlashVpcAttachment := none
  /-- Secrets by the name of their variable, and by the name of their file. -/
  secretEnv : List (String × String) := []
  secretFiles : List (String × String) := []
  env : Json := .object []
  metadata : Json := .object []
  /-- `deployment`, `command` and `args`. -/
  settings : Json := .null
  deriving DecidableEq, Repr

inductive VpcPeer where
  | securityGroup (name : String)
  | service (serviceId : Uuid)
  | all
  deriving DecidableEq, Repr

structure VpcRule where
  source : VpcPeer
  destination : VpcPeer
  protocol : FlashProtocol
  port : Nat
  endPort : Option Nat := none
  description : String := ""
  deriving DecidableEq, Repr

structure VpcSpec where
  region : String
  description : String := ""
  nat : Bool := false
  securityGroups : List String := ["default"]
  rules : List VpcRule := []
  deriving DecidableEq, Repr

/-- The specification of a service, as its provider reads it. -/
inductive ServiceSpec where
  | flow (spec : FlowSpec)
  | flash (spec : FlashSpec)
  | syouyu (spec : SyouyuSpec)
  | vpc (spec : VpcSpec)
  | other (provider : String) (spec : Json)
  deriving DecidableEq, Repr

namespace ServiceSpec

def provider : ServiceSpec → Provider
  | .flow _ => .flow
  | .flash _ => .flash
  | .syouyu _ => .syouyu
  | .vpc _ => .vpc
  | .other name _ => .other name

/-- The Flash specification, of a Flash service. -/
def flash? : ServiceSpec → Option FlashSpec
  | .flash spec => some spec
  | _ => none

@[simp] theorem flash?_eq_some {s : ServiceSpec} {f : FlashSpec} :
    s.flash? = some f ↔ s = .flash f := by
  cases s <;> simp [flash?]

theorem provider_flash {s : ServiceSpec} (h : s.provider = .flash) : ∃ f, s = .flash f := by
  cases s with
  | flash f => exact ⟨f, rfl⟩
  | _ => cases h

end ServiceSpec

/-- The checks of texts the model carries along: the deployment policy, region and image of a Flash
specification, then its authentication, CIDRs, attachment, environment and process values and its
metadata; the bucket name and metadata of a Syouyu specification; a VPC specification. -/
structure SpecChecks where
  flashHead : FlashSpec → Option String
  flashRest : FlashSpec → Option String
  syouyu : SyouyuSpec → Option String
  vpc : VpcSpec → Option String

/-! ## 2. Flash specifications -/

def minFlashReplicas : Nat := 1
def maxFlashReplicas : Nat := 100000
def minFlashCpuMillis : Nat := 10
def maxFlashCpuMillis : Nat := 100000000
def minFlashMemoryMib : Nat := 16
def maxFlashMemoryMib : Nat := 1048576
def maxFlashGpuTypeLength : Nat := 63
def minFlashEphemeralStorageGib : Nat := 1
def maxFlashEphemeralStorageGib : Nat := 1000000
def minFlashIdleTimeoutSeconds : Nat := 60
def maxFlashIdleTimeoutSeconds : Nat := 86400
def minFlashServicePort : Nat := 30000
def maxFlashServicePort : Nat := 32767
def maxFlashPorts : Nat := 16
def maxFlashPortNameLength : Nat := 63

/-- `(low..=high).contains(&n)`. -/
def within (low high n : Nat) : Bool := decide (low ≤ n) && decide (n ≤ high)

theorem within_iff {low high n : Nat} : within low high n = true ↔ low ≤ n ∧ n ≤ high := by
  simp [within]

/-- One check, with the message of its refusal. -/
def refuse (bad : Bool) (message : String) : Option String := if bad then some message else none

@[simp] theorem refuse_none {bad : Bool} {message : String} :
    refuse bad message = none ↔ bad = false := by
  cases bad <;> simp [refuse]

/-- The first refusal. -/
def firstRefusal (checks : List (Option String)) : Option String := checks.findSome? id

theorem firstRefusal_none {checks : List (Option String)} :
    firstRefusal checks = none ↔ ∀ c ∈ checks, c = none := by
  simp [firstRefusal, List.findSome?_eq_none_iff]

def lowerOrDigit (c : Char) : Bool := c.isLower || c.isDigit

def validFlashPortName (name : String) : Bool :=
  let cs := name.toList
  !cs.isEmpty && decide (name.utf8ByteSize ≤ maxFlashPortNameLength) &&
    cs.head?.any Char.isLower && cs.getLast?.any lowerOrDigit &&
    cs.all fun c => lowerOrDigit c || c == '-'

def validFlashGpuType (gpuType : String) : Bool :=
  let cs := gpuType.toList
  !cs.isEmpty && decide (gpuType.utf8ByteSize ≤ maxFlashGpuTypeLength) &&
    (cs.all fun c => lowerOrDigit c || c == '-') &&
    cs.head? != some '-' && cs.getLast? != some '-'

namespace FlashSpec

variable (s : FlashSpec)

/-- Quota reservation includes the full autoscaling ceiling, not current replicas. -/
def reservedReplicas : Nat :=
  match s.autoscaling with
  | some scaling => scaling.maxReplicas.toNat
  | none => s.replicas.toNat

/-- Attached to a VPC and reachable in it only. -/
def vpcInternal : Bool :=
  s.network.isSome && decide (s.exposure.exposureType = .internal)

/-- The service ports are those of the cluster's nodes. -/
def usesServicePorts : Bool :=
  decide (s.exposure.exposureType = .external) || s.network.isNone

/-- The variable a secret file became. -/
def secretFileVariable (fileName : String) : String :=
  String.ofList (fileName.toList.map fun c => if c == '-' then '_' else c.toUpper)

/-- `effective_secret_env`: variables with the names of their secrets, or the refusal. -/
def effectiveSecretEnv : Except String (List (String × String)) :=
  s.secretFiles.foldlM (fun effective (fileName, secretName) =>
    let name := secretFileVariable fileName
    if effective.any (·.1 == name) then
      .error s!"secret environment variable {name} is configured more than once"
    else .ok (effective ++ [(name, secretName)])) s.secretEnv

/-- The names of the secrets the service uses. -/
def secretNames : List String :=
  match s.effectiveSecretEnv with
  | .ok effective => effective.map (·.2)
  | .error _ => []

/-- The checks of `autoscaling`. -/
def scalingErrors (scaling : FlashAutoscaling) : List (Option String) :=
  let targets := [scaling.targetCpuUtilizationPercent, scaling.targetMemoryUtilizationPercent]
  [ refuse (decide (scaling.maxReplicas < scaling.minReplicas) ||
      !within (max scaling.minReplicas.toNat 1) scaling.maxReplicas.toNat s.replicas.toNat)
      ("autoscaling requires min_replicas >= 0, max_replicas >= min_replicas, and replicas " ++
        "within these bounds"),
    refuse (decide (scaling.minReplicas = 0) && decide (s.exposure.endpointMode ≠ .web))
      "min_replicas=0 requires the HTTP/HTTPS web endpoint mode",
    refuse (!within minFlashIdleTimeoutSeconds maxFlashIdleTimeoutSeconds
        scaling.idleTimeoutSeconds)
      (s!"idle_timeout_seconds must be between {minFlashIdleTimeoutSeconds} and " ++
        s!"{maxFlashIdleTimeoutSeconds}"),
    refuse (targets.all Option.isNone ||
        targets.any fun t => t.any fun target => !within 1 100 target)
      "autoscaling requires at least one CPU or memory utilization target, each between 1 and 100" ]

/-- The service port is not the one the port has to have. -/
def misassigned (vpcInternal : Bool) (port : FlashPort) : Bool :=
  if vpcInternal then port.servicePort != port.containerPort
  else !within minFlashServicePort maxFlashServicePort port.servicePort

/-- The loop over the ports: `names` and `taken` are those of the ports before. -/
def portError (assigned vpcInternal : Bool) (names : List String)
    (taken : List (FlashProtocol × Nat)) : List FlashPort → Option String
  | [] => none
  | port :: rest =>
      if !validFlashPortName port.name then
        some "port names must be unique lowercase DNS labels of at most 63 characters"
      else if names.contains port.name then
        some "port names must be unique"
      else if port.containerPort == 0 then
        some "container_port must be between 1 and 65535"
      else if assigned && misassigned vpcInternal port then
        some (s!"service_port must be assigned between {minFlashServicePort} and " ++
          s!"{maxFlashServicePort}")
      else if assigned && taken.contains (port.protocol, port.servicePort) then
        some "service_port must be unique within each protocol"
      else portError assigned vpcInternal (port.name :: names)
        ((port.protocol, port.servicePort) :: taken) rest

/-- The checks of the resources of one VM. -/
def resourceErrors : List (Option String) :=
  [ refuse (!within minFlashCpuMillis maxFlashCpuMillis s.cpuMillis.toNat)
      s!"cpu_millis must be between {minFlashCpuMillis} and {maxFlashCpuMillis}",
    refuse (!within minFlashMemoryMib maxFlashMemoryMib s.memoryMib.toNat)
      s!"memory_mib must be between {minFlashMemoryMib} and {maxFlashMemoryMib}",
    refuse (s.gpuType.any fun gpuType => !validFlashGpuType gpuType)
      s!"gpu_type must be a lowercase DNS label of at most {maxFlashGpuTypeLength} bytes",
    refuse (s.gpuType.isSome && (decide (s.replicas ≠ 1) ||
        s.autoscaling.any fun scaling => decide (scaling.maxReplicas ≠ 1)))
      "GPU services require replicas=1 and autoscaling.max_replicas=1",
    refuse (!within minFlashEphemeralStorageGib maxFlashEphemeralStorageGib
        s.ephemeralStorageGib.toNat)
      (s!"ephemeral_storage_gib must be between {minFlashEphemeralStorageGib} and " ++
        s!"{maxFlashEphemeralStorageGib}"),
    refuse (s.rootfsStorageGib.any fun rootfs =>
        rootfs == 0 || decide (rootfs ≥ s.ephemeralStorageGib.toNat))
      "rootfs_storage_gib must be at least 1 and less than ephemeral_storage_gib",
    refuse (s.persistentStorageGib.any fun persistent => persistent == 0 ||
        decide (persistent + s.rootfsStorageGib.getD 1 ≥ s.ephemeralStorageGib.toNat))
      ("persistent_storage_gib must be at least 1 and leave room for the image and container " ++
        "filesystem within ephemeral_storage_gib") ]

/-- The checks of the exposure and the network. -/
def exposureErrors : List (Option String) :=
  [ refuse (decide (s.exposure.exposureType = .internal) &&
        decide (s.exposure.trafficMode ≠ .forwarded))
      "internal exposure requires forwarded traffic_mode",
    refuse (decide (s.exposure.endpointMode ≠ .ip) &&
        (decide (s.exposure.exposureType ≠ .external) ||
          decide (s.exposure.trafficMode ≠ .forwarded)))
      "load_balancer and web endpoint_mode require public exposure and forwarded traffic_mode",
    refuse (s.exposure.authentication.isSome && decide (s.exposure.endpointMode ≠ .web))
      "OIDC authentication requires the HTTP/HTTPS web endpoint mode",
    refuse (decide (s.exposure.endpointMode = .web) &&
        (s.ports.length != 1 || s.ports.head?.any fun p => decide (p.protocol ≠ .tcp)))
      "web endpoint_mode requires exactly one TCP port",
    refuse (decide (s.exposure.endpointMode = .web) &&
        (!s.exposure.allowedSourceCidrs.isEmpty || !s.exposure.deniedSourceCidrs.isEmpty))
      "web endpoint_mode does not support allowed_source_cidrs or denied_source_cidrs",
    refuse (s.network.isSome && s.egress.allowSameOrganization)
      "VPC attachments use VPC connection rules; allow_same_organization must be false" ]

variable (checks : SpecChecks)

/-- `validate_inner`. -/
def validateInner (assigned : Bool) (s : FlashSpec) : Option String :=
  firstRefusal <|
    [ checks.flashHead s,
      refuse (!within minFlashReplicas maxFlashReplicas s.replicas.toNat)
        s!"replicas must be between {minFlashReplicas} and {maxFlashReplicas}" ] ++
    (s.autoscaling.map (scalingErrors s)).getD [] ++ s.resourceErrors ++
    [ refuse (decide (s.ports.length > maxFlashPorts))
        s!"ports must contain at most {maxFlashPorts} entries",
      portError assigned s.vpcInternal [] [] s.ports ] ++
    s.exposureErrors ++ [checks.flashRest s]

def validateRequest (s : FlashSpec) : Option String :=
  s.validateInner checks false

def validate (s : FlashSpec) : Option String := s.validateInner checks true

end FlashSpec

/-! ## 3. Syouyu specifications -/

def syouyuRegion : String := "heteronet-global"
def minSyouyuQuotaBytes : Nat := 1048576
def maxSyouyuQuotaBytes : Nat := 10 * 1024 * 1024 * 1024 * 1024
def maxSyouyuQuotaObjects : Nat := 1000000000

def SyouyuSpec.validate (checks : SpecChecks) (s : SyouyuSpec) : Option String :=
  firstRefusal
    [ refuse (s.region != syouyuRegion)
        "region must be heteronet-global for the current Syouyu deployment",
      checks.syouyu s,
      refuse (!within minSyouyuQuotaBytes maxSyouyuQuotaBytes s.quotaBytes)
        s!"quota_bytes must be between {minSyouyuQuotaBytes} and {maxSyouyuQuotaBytes}",
      refuse (!within 1 maxSyouyuQuotaObjects s.quotaObjects)
        s!"quota_objects must be between 1 and {maxSyouyuQuotaObjects}" ]

end HeteroCloud.Services
