/-
  File:      Flash/Document.lean
  Subject:   FLASH SPECIFICATIONS AS DOCUMENTS (crates/heterocloud-domain/src/lib.rs, deployment.rs,
             vpc.rs): how one is read from JSON, and the checks of its texts.

  The services' model leaves the checks of texts to `SpecChecks`; `flashChecks` are those of the
  code. URLs, networks and UUIDs are read by other crates, and so is the size of a serialised value:
  these are `Crates`.
-/
import HeteroCloud.Services.Specs

namespace HeteroCloud.Flash

open Base Iam Services

/-- What other crates decide: `uuid`, `ipnet` (a network without its host bits, and whether it
overlaps a protected one), `url` and `serde_json`. -/
structure Crates where
  uuid : String → Option Uuid
  network : String → Option String
  infrastructure : String → Bool
  issuer : String → Bool
  bytes : Json → Nat

/-! ## 1. The checks of texts -/

structure HealthCheck where
  port : UInt16
  path : Option String := none
  deriving DecidableEq, Repr

structure DeploymentPolicy where
  strategy : String := "auto"
  stateless : Bool := false
  deadlineSeconds : UInt32 := 600
  autoRollback : Bool := true
  healthCheck : Option HealthCheck := none
  deriving DecidableEq, Repr

structure FlashOidcAuthentication where
  issuerUrl : String
  clientId : String
  clientSecretRef : String
  scopes : List String := []
  deriving DecidableEq, Repr

/-- `char::is_control`. -/
def isControl (c : Char) : Bool :=
  decide (c.toNat < 0x20) || (decide (0x7F ≤ c.toNat) && decide (c.toNat < 0xA0))

def hasNul (text : String) : Bool := text.toList.contains (Char.ofNat 0)

variable (check : HealthCheck)

def HealthCheck.bad : Bool :=
  check.port == 0 || check.path.any fun path =>
    path.toList.head? != some '/' || decide (path.utf8ByteSize > 1024) || path.toList.any isControl

def DeploymentPolicy.validate (policy : DeploymentPolicy) : Option String :=
  firstRefusal
    [ refuse (!(["auto", "rolling", "recreate"].contains policy.strategy))
        "deployment strategy must be auto, rolling, or recreate",
      refuse (policy.strategy == "rolling" && !policy.stateless)
        ("rolling deployments require stateless=true; persistent homes are retained without " ++
          "being mounted"),
      refuse (!within 60 3600 policy.deadlineSeconds.toNat)
        "deployment deadline must be between 60 and 3600 seconds",
      refuse (policy.healthCheck.any HealthCheck.bad)
        "health check requires a nonzero port and an absolute HTTP path" ]

def maxFlashRegionLength : Nat := 63
def maxFlashImageLength : Nat := 512
def maxFlashSourceCidrs : Nat := 64
def maxFlashDestinationCidrs : Nat := 64
def maxFlashSecurityGroups : Nat := 8
def maxFlashEnvVars : Nat := 128
def maxFlashSecretEnv : Nat := 32
def maxFlashEnvKeyLength : Nat := 253
def maxFlashEnvValueLength : Nat := 16 * 1024
def maxFlashCommandParts : Nat := 128
def maxFlashArgs : Nat := 256
def maxFlashProcessValueLength : Nat := 4 * 1024
def maxFlashMetadataBytes : Nat := 64 * 1024

def regionRefusal (region : String) : Option String :=
  let cs := region.toList
  refuse (cs.isEmpty || decide (region.utf8ByteSize > maxFlashRegionLength) ||
      (cs.any fun c => !lowerOrDigit c && c != '-') || cs.head? == some '-' ||
      cs.getLast? == some '-')
    s!"region must be a 1..{maxFlashRegionLength} character lowercase DNS label"

def imageRefusal (image : String) : Option String :=
  let cs := image.toList
  refuse (cs.isEmpty || decide (image.utf8ByteSize > maxFlashImageLength) ||
      cs.any isWhitespace || cs.any isControl)
    "image must be a 1..512 character container image reference without whitespace"

variable (crates : Crates) (a : FlashOidcAuthentication)

def FlashOidcAuthentication.validate : Option String :=
  let reference := a.clientSecretRef.toList
  firstRefusal
    [ refuse (!crates.issuer a.issuerUrl || decide (a.issuerUrl.utf8ByteSize > 2048) ||
          a.issuerUrl.toList.any isWhitespace || a.issuerUrl.toList.any isControl)
        "issuer_url must be HTTPS without credentials, query or fragment",
      refuse (a.clientId.isEmpty || decide (a.clientId.utf8ByteSize > 256) ||
          a.clientId.toList.any isControl)
        "OIDC client_id must contain 1 to 256 characters without controls",
      refuse (reference.isEmpty || decide (a.clientSecretRef.utf8ByteSize > 63) ||
          !reference.head?.any Char.isAlphanum || !reference.getLast?.any Char.isAlphanum ||
          reference.any fun c => !lowerOrDigit c && c != '-')
        "client_secret_ref must be a lowercase DNS label of at most 63 characters",
      refuse (decide (a.scopes.length > 16) || (a.scopes.any fun scope =>
            scope.isEmpty || decide (scope.utf8ByteSize > 128) || scope.toList.any fun c =>
              !within 0x21 0x7E c.toNat || c == '"' || c == '\\') || !decide a.scopes.Nodup)
        "OIDC scopes must be at most 16 unique nonempty scope tokens" ]

/-- The loop of `parse_flash_cidrs`; `normalized` are the networks before. -/
def parseFlashCidrsFrom (crates : Crates) (field : String) (normalized : List String) :
    List String → Except String (List String)
  | [] => .ok normalized
  | value :: rest =>
      if value.isEmpty || value.toList.head?.any isWhitespace ||
          value.toList.getLast?.any isWhitespace then
        .error s!"{field} entries must be trimmed IP addresses or CIDRs"
      else match crates.network value with
        | none => .error s!"{field} entry {value} must be an IPv4/IPv6 address or CIDR"
        | some network =>
          if normalized.contains network then
            .error s!"{field} must not contain duplicate networks"
          else parseFlashCidrsFrom crates field (network :: normalized) rest

variable (field : String) (values : List String)

def parseFlashCidrs (maximum : Nat) : Except String (List String) :=
  if values.length > maximum then .error s!"{field} must contain at most {maximum} entries"
  else parseFlashCidrsFrom crates field [] values

def refusalOf {α : Type} : Except String α → Option String
  | .ok _ => none
  | .error message => some message

def validateFlashEgress (egress : FlashEgress) : Option String :=
  refusalOf do
    let allowed ← parseFlashCidrs crates "allowed_destination_cidrs"
      egress.allowedDestinationCidrs maxFlashDestinationCidrs
    let _ ← parseFlashCidrs crates "denied_destination_cidrs" egress.deniedDestinationCidrs
      maxFlashDestinationCidrs
    if egress.mode ≠ .restricted ∧ allowed ≠ [] then
      throw "allowed_destination_cidrs requires restricted egress mode"
    match allowed.find? crates.infrastructure with
    | some network => throw (s!"allowed destination {network} overlaps a protected private or " ++
        "infrastructure network")
    | none => return ()

def validPrivateName (value : String) : Bool :=
  let cs := value.toList
  !cs.isEmpty && decide (value.utf8ByteSize ≤ 63) && cs.head?.any Char.isLower &&
    cs.getLast?.any Char.isAlphanum && cs.all fun c => lowerOrDigit c || c == '-'

def validateAttachment (network : FlashVpcAttachment) : Option String :=
  firstRefusal
    [ refuse (network.vpcId == 0) "vpc_id must be a non-nil UUID",
      refuse (network.securityGroups.isEmpty ||
          decide (network.securityGroups.length > maxFlashSecurityGroups))
        s!"security_groups must contain 1..{maxFlashSecurityGroups} names",
      refuse ((network.securityGroups.any fun name => !validPrivateName name) ||
          !decide network.securityGroups.Nodup)
        "security group names must be unique lowercase DNS labels",
      refuse (network.privateName.any fun name => !validPrivateName name)
        "private_name must be a lowercase DNS label starting with a letter" ]

variable (name : String)

def validFlashEnvName : Bool :=
  let cs := name.toList
  !cs.isEmpty && decide (name.utf8ByteSize ≤ maxFlashEnvKeyLength) &&
    (cs.head?.any fun c => c.isAlpha || c == '_') && cs.all fun c => c.isAlphanum || c == '_'

/-- The variables a task role sets itself. -/
def workloadVariables : List String :=
  ["HETEROCLOUD_ENDPOINT", "HETEROCLOUD_ORGANIZATION_ID", "HETEROCLOUD_WORKLOAD_TOKEN_FILE"]

variable (s : FlashSpec)

/-- The checks of the environment, of secrets and of the task role. -/
def environmentErrors (env : List (String × String)) (s : FlashSpec) : List (Option String) :=
  [ refuse (decide (env.length > maxFlashEnvVars))
      s!"env must contain at most {maxFlashEnvVars} entries",
    refuse (env.any fun v => !validFlashEnvName v.1)
      "environment variable names must be valid C identifiers",
    refuse (env.any fun v => decide (v.2.utf8ByteSize > maxFlashEnvValueLength) || hasNul v.2)
      (s!"environment variable values must be at most {maxFlashEnvValueLength} bytes and cannot " ++
        "contain NUL") ] ++
  match s.effectiveSecretEnv with
  | .error message => [some message]
  | .ok secretEnv =>
    [ refuse (decide (secretEnv.length > maxFlashSecretEnv))
        s!"secret_env must contain at most {maxFlashSecretEnv} entries",
      refuse (s.secretFiles.any fun f => !validFlashPortName f.1 || !validFlashPortName f.2)
        "secret_files names must be lowercase DNS labels of at most 63 bytes",
      refuse (s.taskRole.isSome && workloadVariables.any fun key =>
          env.any (·.1 == key) || secretEnv.any (·.1 == key))
        "task_role reserves the HeteroCloud workload identity environment settings",
      refuse (secretEnv.any fun v => !validFlashEnvName v.1 || !validFlashPortName v.2)
        "secret_env must map valid environment variable names to secret names",
      (secretEnv.find? fun v => env.any (·.1 == v.1)).map fun v =>
        s!"environment variable {v.1} is configured as both plain text and a secret" ]

def validateProcessValues (maximumParts : Nat) : List (Option String) :=
  [ refuse (decide (values.length > maximumParts))
      s!"{field} must contain at most {maximumParts} entries",
    refuse (values.any fun value =>
        value.isEmpty || decide (value.utf8ByteSize > maxFlashProcessValueLength) || hasNul value)
      (s!"{field} entries must be non-empty, at most {maxFlashProcessValueLength} bytes, and " ++
        "cannot contain NUL") ]

/-! ## 2. Reading -/

variable (j : Json)

/-- An unsigned number below a bound. -/
def readBelow (bound : Nat) (j : Json) : Option Nat := j.asNat.filter (· < bound)

def readU16 : Option UInt16 := (readBelow UInt16.size j).map UInt16.ofNat
def readU32 : Option UInt32 := (readBelow UInt32.size j).map UInt32.ofNat

/-- A text that names a variant. -/
def readVariant {α : Type} (variants : List (String × α)) (j : Json) : Option α :=
  j.asString.bind fun name => variants.lookup name

def readUuid : Option Uuid := j.asString.bind crates.uuid

/-- A value that is kept as it is once it has been read. -/
def checked {α : Type} (read : Json → Option α) (j : Json) : Option Json := (read j).map fun _ => j

def HealthCheck.fromValue : Option HealthCheck := do
  let r ← j.record 1 ["port", "path"]
  let port ← (r.lookup "port").bind readU16
  let path ← Json.optional Json.asString (r.lookup "path")
  return { port, path }

def DeploymentPolicy.fromValue (j : Json) : Option DeploymentPolicy := do
  let r ← j.record 0 ["strategy", "stateless", "deadline_seconds", "auto_rollback",
    "health_check"]
  let strategy ← Json.orDefault "auto" Json.asString (r.lookup "strategy")
  let stateless ← Json.orDefault false Json.asBool (r.lookup "stateless")
  let deadlineSeconds ← Json.orDefault 600 readU32 (r.lookup "deadline_seconds")
  let autoRollback ← Json.orDefault true Json.asBool (r.lookup "auto_rollback")
  let healthCheck ← Json.optional HealthCheck.fromValue (r.lookup "health_check")
  return { strategy, stateless, deadlineSeconds, autoRollback, healthCheck }

def FlashOidcAuthentication.fromValue : Option FlashOidcAuthentication := do
  let r ← j.record 3 ["issuer_url", "client_id", "client_secret_ref", "scopes"]
  let issuerUrl ← (r.lookup "issuer_url").bind Json.asString
  let clientId ← (r.lookup "client_id").bind Json.asString
  let clientSecretRef ← (r.lookup "client_secret_ref").bind Json.asString
  let scopes ← Json.orDefault [] readStrings (r.lookup "scopes")
  return { issuerUrl, clientId, clientSecretRef, scopes }

/-- A member that is left out when there is nothing to write. -/
def member (key : String) : Option Json → List (String × Json)
  | some value => [(key, value)]
  | none => []

def HealthCheck.toValue : Json :=
  .object (member "path" (check.path.map .string) ++ [("port", .int check.port.toNat)])

def DeploymentPolicy.toValue (policy : DeploymentPolicy) : Json :=
  .object ([("auto_rollback", .bool policy.autoRollback),
    ("deadline_seconds", .int policy.deadlineSeconds.toNat)] ++
    member "health_check" (policy.healthCheck.map HealthCheck.toValue) ++
    [("stateless", .bool policy.stateless), ("strategy", .string policy.strategy)])

def FlashOidcAuthentication.toValue : Json :=
  .object ([("client_id", .string a.clientId), ("client_secret_ref", .string a.clientSecretRef),
    ("issuer_url", .string a.issuerUrl)] ++
    member "scopes" (if a.scopes.isEmpty then none else some (.array (a.scopes.map .string))))

theorem readBelow_int {bound n : Nat} (h : n < bound) : readBelow bound (.int n) = some n :=
  Option.filter_eq_some_iff.mpr ⟨rfl, decide_eq_true h⟩

/-! ### The specification -/

def FlashPort.fromValue : Option FlashPort := do
  let r ← j.record 3 ["name", "protocol", "container_port", "service_port"]
  let name ← (r.lookup "name").bind Json.asString
  let protocol ← (r.lookup "protocol").bind
    (readVariant [("tcp", FlashProtocol.tcp), ("udp", .udp)])
  let containerPort ← (r.lookup "container_port").bind (readBelow UInt16.size)
  let servicePort ← Json.orDefault 0 (readBelow UInt16.size) (r.lookup "service_port")
  return { name, protocol, containerPort, servicePort }

def exposureKeys : List String :=
  ["type", "traffic_mode", "endpoint_mode", "allowed_source_cidrs", "denied_source_cidrs",
    "authentication"]

variable (r : List (String × Json))

def readExposure : Option FlashExposure := do
  let exposureType ← (r.lookup "type").bind
    (readVariant [("internal", FlashExposureType.internal), ("public", .external)])
  let trafficMode ← (r.lookup "traffic_mode").bind
    (readVariant [("forwarded", FlashTrafficMode.forwarded), ("direct", .direct)])
  let endpointMode ← Json.orDefault .ip
    (readVariant [("ip", FlashEndpointMode.ip), ("load_balancer", .loadBalancer), ("web", .web)])
    (r.lookup "endpoint_mode")
  let allowedSourceCidrs ← Json.orDefault [] readStrings (r.lookup "allowed_source_cidrs")
  let deniedSourceCidrs ← Json.orDefault [] readStrings (r.lookup "denied_source_cidrs")
  let authentication ← Json.optional FlashOidcAuthentication.fromValue (r.lookup "authentication")
  return { exposureType, trafficMode, endpointMode, allowedSourceCidrs, deniedSourceCidrs,
           authentication := authentication.map FlashOidcAuthentication.toValue }

def FlashExposure.fromValue : Option FlashExposure :=
  (j.record 2 exposureKeys).bind readExposure

def FlashEgress.fromValue : Option FlashEgress := do
  let r ← j.record 0 ["mode", "allow_same_organization", "allowed_destination_cidrs",
    "denied_destination_cidrs"]
  let mode ← Json.orDefault .internet (readVariant [("disabled", FlashEgressMode.disabled),
    ("restricted", .restricted), ("internet", .internet)]) (r.lookup "mode")
  let allowSameOrganization ← Json.orDefault false Json.asBool
    (r.lookup "allow_same_organization")
  let allowedDestinationCidrs ← Json.orDefault [] readStrings
    (r.lookup "allowed_destination_cidrs")
  let deniedDestinationCidrs ← Json.orDefault [] readStrings (r.lookup "denied_destination_cidrs")
  return { mode, allowSameOrganization, allowedDestinationCidrs, deniedDestinationCidrs }

def FlashVpcAttachment.fromValue : Option FlashVpcAttachment := do
  let r ← j.record 1 ["vpc_id", "security_groups", "private_name"]
  let vpcId ← (r.lookup "vpc_id").bind (readUuid crates)
  let securityGroups ← Json.orDefault ["default"] readStrings (r.lookup "security_groups")
  let privateName ← Json.optional Json.asString (r.lookup "private_name")
  return { vpcId, securityGroups, privateName }

def FlashAutoscaling.fromValue : Option FlashAutoscaling := do
  let r ← j.record 2 ["min_replicas", "max_replicas", "target_cpu_utilization_percent",
    "target_memory_utilization_percent", "idle_timeout_seconds"]
  let minReplicas ← (r.lookup "min_replicas").bind readU32
  let maxReplicas ← (r.lookup "max_replicas").bind readU32
  let targetCpuUtilizationPercent ← Json.optional (readBelow UInt32.size)
    (r.lookup "target_cpu_utilization_percent")
  let targetMemoryUtilizationPercent ← Json.optional (readBelow UInt32.size)
    (r.lookup "target_memory_utilization_percent")
  let idleTimeoutSeconds ← Json.orDefault 900 (readBelow UInt32.size)
    (r.lookup "idle_timeout_seconds")
  return { minReplicas, maxReplicas, targetCpuUtilizationPercent, targetMemoryUtilizationPercent,
           idleTimeoutSeconds }

/-- The settings the services' model carries along. -/
def readSettings : Option Json := do
  let deployment ← Json.optional DeploymentPolicy.fromValue (r.lookup "deployment")
  let command ← (r.lookup "command").bind (checked readStrings)
  let args ← (r.lookup "args").bind (checked readStrings)
  return .object ([("args", args), ("command", command)] ++
    member "deployment" (deployment.map DeploymentPolicy.toValue))

def flashKeys : List String :=
  ["region", "image", "deployment", "task_role", "replicas", "stopped", "autoscaling",
    "cpu_millis", "memory_mib", "gpu_type", "ephemeral_storage_gib", "rootfs_storage_gib",
    "persistent_storage_gib", "restore_from_backup_id", "ports", "exposure", "egress", "network",
    "env", "secret_env", "secret_files", "command", "args", "metadata"]

def readFlash : Option FlashSpec := do
  let region ← (r.lookup "region").bind Json.asString
  let image ← (r.lookup "image").bind Json.asString
  let taskRole ← Json.optional (readUuid crates) (r.lookup "task_role")
  let replicas ← (r.lookup "replicas").bind readU32
  let stopped ← Json.orDefault false Json.asBool (r.lookup "stopped")
  let autoscaling ← Json.optional FlashAutoscaling.fromValue (r.lookup "autoscaling")
  let cpuMillis ← (r.lookup "cpu_millis").bind readU32
  let memoryMib ← (r.lookup "memory_mib").bind readU32
  let gpuType ← Json.optional Json.asString (r.lookup "gpu_type")
  let ephemeralStorageGib ← Json.orDefault 10 readU32 (r.lookup "ephemeral_storage_gib")
  let rootfsStorageGib ← Json.optional (readBelow UInt32.size) (r.lookup "rootfs_storage_gib")
  let persistentStorageGib ← Json.optional (readBelow UInt32.size)
    (r.lookup "persistent_storage_gib")
  let restoreFromBackupId ← Json.optional (readUuid crates) (r.lookup "restore_from_backup_id")
  let ports ← (r.lookup "ports").bind (Json.asList FlashPort.fromValue)
  let exposure ← (r.lookup "exposure").bind FlashExposure.fromValue
  let egress ← Json.orDefault {} FlashEgress.fromValue (r.lookup "egress")
  let network ← Json.optional (FlashVpcAttachment.fromValue crates) (r.lookup "network")
  let secretEnv ← Json.orDefault [] (Json.asMap Json.asString) (r.lookup "secret_env")
  let secretFiles ← Json.orDefault [] (Json.asMap Json.asString) (r.lookup "secret_files")
  let env ← (r.lookup "env").bind (checked (Json.asMap Json.asString))
  let metadata ← (r.lookup "metadata").bind (checked (Json.asMap some))
  let settings ← readSettings r
  return { region, image, taskRole, replicas, stopped, autoscaling, cpuMillis, memoryMib, gpuType,
           ephemeralStorageGib, rootfsStorageGib, persistentStorageGib, restoreFromBackupId, ports,
           exposure, egress, network, secretEnv, secretFiles, env, metadata, settings }

/-- `serde_json::from_value::<FlashSpec>`. -/
def FlashSpec.fromValue : Option FlashSpec :=
  (j.record flashKeys.length flashKeys).bind (readFlash crates)

/-- **What a document says**, field by field. -/
structure Reads (s : FlashSpec) : Prop where
  region : (r.lookup "region").bind Json.asString = some s.region
  image : (r.lookup "image").bind Json.asString = some s.image
  taskRole : Json.optional (readUuid crates) (r.lookup "task_role") = some s.taskRole
  replicas : (r.lookup "replicas").bind readU32 = some s.replicas
  stopped : Json.orDefault false Json.asBool (r.lookup "stopped") = some s.stopped
  autoscaling : Json.optional FlashAutoscaling.fromValue (r.lookup "autoscaling") =
    some s.autoscaling
  cpuMillis : (r.lookup "cpu_millis").bind readU32 = some s.cpuMillis
  memoryMib : (r.lookup "memory_mib").bind readU32 = some s.memoryMib
  gpuType : Json.optional Json.asString (r.lookup "gpu_type") = some s.gpuType
  ephemeralStorageGib : Json.orDefault 10 readU32 (r.lookup "ephemeral_storage_gib") =
    some s.ephemeralStorageGib
  rootfsStorageGib : Json.optional (readBelow UInt32.size) (r.lookup "rootfs_storage_gib") =
    some s.rootfsStorageGib
  persistentStorageGib : Json.optional (readBelow UInt32.size) (r.lookup "persistent_storage_gib") =
    some s.persistentStorageGib
  restoreFromBackupId : Json.optional (readUuid crates) (r.lookup "restore_from_backup_id") =
    some s.restoreFromBackupId
  ports : (r.lookup "ports").bind (Json.asList FlashPort.fromValue) = some s.ports
  exposure : (r.lookup "exposure").bind FlashExposure.fromValue = some s.exposure
  egress : Json.orDefault {} FlashEgress.fromValue (r.lookup "egress") = some s.egress
  network : Json.optional (FlashVpcAttachment.fromValue crates) (r.lookup "network") =
    some s.network
  secretEnv : Json.orDefault [] (Json.asMap Json.asString) (r.lookup "secret_env") =
    some s.secretEnv
  secretFiles : Json.orDefault [] (Json.asMap Json.asString) (r.lookup "secret_files") =
    some s.secretFiles
  env : (r.lookup "env").bind (checked (Json.asMap Json.asString)) = some s.env
  metadata : (r.lookup "metadata").bind (checked (Json.asMap some)) = some s.metadata
  settings : readSettings r = some s.settings

theorem readFlash_iff {crates : Crates} {r : List (String × Json)} {s : FlashSpec} :
    readFlash crates r = some s ↔ Reads crates r s := by
  constructor
  · intro h
    unfold readFlash at h
    obtain ⟨region, hregion, h⟩ := Option.bind_eq_some_iff.mp h
    obtain ⟨image, himage, h⟩ := Option.bind_eq_some_iff.mp h
    obtain ⟨taskRole, htaskRole, h⟩ := Option.bind_eq_some_iff.mp h
    obtain ⟨replicas, hreplicas, h⟩ := Option.bind_eq_some_iff.mp h
    obtain ⟨stopped, hstopped, h⟩ := Option.bind_eq_some_iff.mp h
    obtain ⟨autoscaling, hautoscaling, h⟩ := Option.bind_eq_some_iff.mp h
    obtain ⟨cpuMillis, hcpuMillis, h⟩ := Option.bind_eq_some_iff.mp h
    obtain ⟨memoryMib, hmemoryMib, h⟩ := Option.bind_eq_some_iff.mp h
    obtain ⟨gpuType, hgpuType, h⟩ := Option.bind_eq_some_iff.mp h
    obtain ⟨ephemeralStorageGib, hephemeralStorageGib, h⟩ := Option.bind_eq_some_iff.mp h
    obtain ⟨rootfsStorageGib, hrootfsStorageGib, h⟩ := Option.bind_eq_some_iff.mp h
    obtain ⟨persistentStorageGib, hpersistentStorageGib, h⟩ := Option.bind_eq_some_iff.mp h
    obtain ⟨restoreFromBackupId, hrestoreFromBackupId, h⟩ := Option.bind_eq_some_iff.mp h
    obtain ⟨ports, hports, h⟩ := Option.bind_eq_some_iff.mp h
    obtain ⟨exposure, hexposure, h⟩ := Option.bind_eq_some_iff.mp h
    obtain ⟨egress, hegress, h⟩ := Option.bind_eq_some_iff.mp h
    obtain ⟨network, hnetwork, h⟩ := Option.bind_eq_some_iff.mp h
    obtain ⟨secretEnv, hsecretEnv, h⟩ := Option.bind_eq_some_iff.mp h
    obtain ⟨secretFiles, hsecretFiles, h⟩ := Option.bind_eq_some_iff.mp h
    obtain ⟨env, henv, h⟩ := Option.bind_eq_some_iff.mp h
    obtain ⟨metadata, hmetadata, h⟩ := Option.bind_eq_some_iff.mp h
    obtain ⟨settings, hsettings, h⟩ := Option.bind_eq_some_iff.mp h
    cases h
    exact ⟨hregion, himage, htaskRole, hreplicas, hstopped, hautoscaling, hcpuMillis,
      hmemoryMib, hgpuType, hephemeralStorageGib, hrootfsStorageGib,
      hpersistentStorageGib, hrestoreFromBackupId, hports, hexposure, hegress, hnetwork,
      hsecretEnv, hsecretFiles, henv, hmetadata, hsettings⟩
  · intro h
    simp only [readFlash, Option.bind_eq_bind, h.region, h.image, h.taskRole, h.replicas,
      h.stopped, h.autoscaling, h.cpuMillis, h.memoryMib, h.gpuType, h.ephemeralStorageGib,
      h.rootfsStorageGib, h.persistentStorageGib, h.restoreFromBackupId, h.ports, h.exposure,
      h.egress, h.network, h.secretEnv, h.secretFiles, h.env, h.metadata, h.settings,
      Option.bind_some]
    rfl

/-! ## 3. The checks -/

variable (settings : Json)

/-- The policy among the settings. -/
def deploymentOf : Option DeploymentPolicy :=
  (settings.get "deployment").bind DeploymentPolicy.fromValue

def processOf : List String :=
  ((settings.get field).bind readStrings).getD []

def environmentOf (env : Json) : List (String × String) := (Json.asMap Json.asString env).getD []

def flashHead : Option String :=
  firstRefusal
    [ (deploymentOf s.settings).bind DeploymentPolicy.validate,
      regionRefusal s.region,
      imageRefusal s.image ]

def exposureTexts (exposure : FlashExposure) : List (Option String) :=
  [ (exposure.authentication.bind FlashOidcAuthentication.fromValue).bind (·.validate crates),
    refusalOf (parseFlashCidrs crates "allowed_source_cidrs" exposure.allowedSourceCidrs
      maxFlashSourceCidrs),
    refusalOf (parseFlashCidrs crates "denied_source_cidrs" exposure.deniedSourceCidrs
      maxFlashSourceCidrs) ]

def processErrors : List (Option String) :=
  validateProcessValues "command" (processOf "command" settings) maxFlashCommandParts ++
    validateProcessValues "args" (processOf "args" settings) maxFlashArgs

def metadataRefusal (metadata : Json) : Option String :=
  refuse (decide (crates.bytes metadata > maxFlashMetadataBytes))
    s!"metadata must not exceed {maxFlashMetadataBytes} serialized bytes"

def flashRest : Option String :=
  firstRefusal <|
    exposureTexts crates s.exposure ++
    [validateFlashEgress crates s.egress, s.network.bind validateAttachment] ++
    environmentErrors (environmentOf s.env) s ++ processErrors s.settings ++
    [metadataRefusal crates s.metadata]

variable (others : SpecChecks)

/-- The checks of the code; those of the other providers are as they are. -/
def flashChecks : SpecChecks :=
  { others with flashHead, flashRest := flashRest crates }

/-- **A valid specification**, one group of checks after the other. -/
structure Valid (checks : SpecChecks) (assigned : Bool) (s : FlashSpec) : Prop where
  head : checks.flashHead s = none
  replicas : within minFlashReplicas maxFlashReplicas s.replicas.toNat = true
  scaling : ∀ a, s.autoscaling = some a → ∀ e ∈ s.scalingErrors a, e = none
  resources : ∀ e ∈ s.resourceErrors, e = none
  count : s.ports.length ≤ maxFlashPorts
  ports : FlashSpec.portError assigned s.vpcInternal [] [] s.ports = none
  exposure : ∀ e ∈ s.exposureErrors, e = none
  rest : checks.flashRest s = none

theorem validateInner_iff {checks : SpecChecks} {assigned : Bool} {s : FlashSpec} :
    s.validateInner checks assigned = none ↔ Valid checks assigned s := by
  have hscaling : (∀ e ∈ (s.autoscaling.map s.scalingErrors).getD [], e = none) ↔
      ∀ a, s.autoscaling = some a → ∀ e ∈ s.scalingErrors a, e = none := by
    cases s.autoscaling with
    | none | some => simp
  unfold FlashSpec.validateInner
  rw [firstRefusal_none]
  simp only [List.forall_mem_append, List.forall_mem_cons, hscaling, refuse_none,
    Bool.not_eq_false', decide_eq_false_iff_not, Nat.not_lt, gt_iff_lt]
  constructor
  · rintro ⟨⟨⟨⟨⟨⟨hhead, hreplicas, _⟩, hscaling⟩, hresources⟩, hcount, hports, _⟩, hexposure⟩,
      hrest, _⟩
    exact ⟨hhead, hreplicas, hscaling, hresources, hcount, hports, hexposure, hrest⟩
  · intro h
    exact ⟨⟨⟨⟨⟨⟨h.head, h.replicas, by simp⟩, h.scaling⟩, h.resources⟩, h.count, h.ports,
      by simp⟩, h.exposure⟩, h.rest, by simp⟩

/-- Ports that are assigned are ports that can be asked for, whatever their service ports. -/
theorem portError_request {v v' : Bool} {names : List String}
    {taken taken' : List (FlashProtocol × Nat)} {ports : List FlashPort}
    (service : FlashPort → Nat) (h : FlashSpec.portError true v names taken ports = none) :
    FlashSpec.portError false v' names taken'
      (ports.map fun port => { port with servicePort := service port }) = none := by
  induction ports generalizing names taken taken' with
  | nil => rfl
  | cons _ _ ih =>
    simp only [FlashSpec.portError, List.map_cons] at h ⊢
    split_ifs at h with hvalid hname hport hassigned htaken
    rw [if_neg hvalid, if_neg hname, if_neg hport]
    simp only [Bool.false_and, Bool.false_eq_true, if_false]
    exact ih h

/-- **A stored specification**: `to_value` writes objects, and always the size of the disk. -/
structure Stored (j : Json) (s : FlashSpec) : Prop where
  members : ∃ r, j = .object r
  exposure : ∃ r, j.get "exposure" = some (.object r)
  sized : j.get "ephemeral_storage_gib" ≠ none
  reads : FlashSpec.fromValue crates j = some s
  valid : s.validate (flashChecks crates others) = none

theorem fromValue_object {crates : Crates} {r : List (String × Json)} {s : FlashSpec} :
    FlashSpec.fromValue crates (.object r) = some s ↔
      (∀ m ∈ r, m.1 ∈ flashKeys) ∧ Reads crates r s := by
  simp only [FlashSpec.fromValue, Json.record]
  by_cases h : (r.all fun m => flashKeys.contains m.1) = true
  · rw [if_pos h, Option.bind_some, readFlash_iff]
    simp only [List.all_eq_true, List.contains_iff_mem] at h
    exact ⟨fun hr => ⟨h, hr⟩, fun hr => hr.2⟩
  · rw [if_neg h]
    simp only [List.all_eq_true, List.contains_iff_mem] at h
    exact ⟨fun hr => absurd hr (Option.some_ne_none _).symm, fun hr => absurd hr.1 h⟩

/-! ## 4. Two documents -/

/-- No text is read by another crate here. -/
def noCrates : Crates where
  uuid _ := none
  network _ := none
  infrastructure _ := false
  issuer _ := false
  bytes _ := 2

def noChecks : SpecChecks := ⟨fun _ => none, fun _ => none, fun _ => none, fun _ => none⟩

/-- Two ports inside the cluster. -/
def twoPorts : FlashSpec where
  region := "tokyo"
  image := "registry/app:1"
  replicas := 1
  cpuMillis := 500
  memoryMib := 512
  ports := [⟨"api", .tcp, 8080, 30000⟩, ⟨"metrics", .tcp, 9090, 30001⟩]
  exposure := { exposureType := .internal, trafficMode := .forwarded }
  settings := .object [("args", .array []), ("command", .array [])]

/-- One of them, on the web. -/
def onTheWeb : FlashSpec :=
  { twoPorts with
    ports := [⟨"api", .tcp, 8080, 30000⟩]
    exposure := { exposureType := .external, trafficMode := .forwarded, endpointMode := .web } }

def portValue (containerPort servicePort : Int) : Json :=
  .object [("container_port", .int containerPort), ("name", .string name),
    ("protocol", .string "tcp"), ("service_port", .int servicePort)]

/-- The document of either. -/
def appDocument (ports : List Json) (exposure : List (String × Json)) : Json :=
  .object [("args", .array []), ("command", .array []), ("cpu_millis", .int 500),
    ("egress", .object [("allow_same_organization", .bool false),
      ("allowed_destination_cidrs", .array []), ("denied_destination_cidrs", .array []),
      ("mode", .string "internet")]),
    ("env", .object []), ("ephemeral_storage_gib", .int 10), ("exposure", .object exposure),
    ("image", .string "registry/app:1"), ("memory_mib", .int 512), ("metadata", .object []),
    ("ports", .array ports), ("region", .string "tokyo"), ("replicas", .int 1)]

def twoPortsDocument : Json :=
  appDocument [portValue "api" 8080 30000, portValue "metrics" 9090 30001]
    [("allowed_source_cidrs", .array []), ("denied_source_cidrs", .array []),
      ("traffic_mode", .string "forwarded"), ("type", .string "internal")]

def onTheWebDocument : Json :=
  appDocument [portValue "api" 8080 30000]
    [("allowed_source_cidrs", .array []), ("denied_source_cidrs", .array []),
      ("endpoint_mode", .string "web"), ("traffic_mode", .string "forwarded"),
      ("type", .string "public")]

theorem twoPorts_stored : Stored noCrates noChecks twoPortsDocument twoPorts :=
  ⟨⟨_, rfl⟩, ⟨_, rfl⟩, by decide +kernel, by decide +kernel, by decide +kernel⟩

theorem onTheWeb_stored : Stored noCrates noChecks onTheWebDocument onTheWeb :=
  ⟨⟨_, rfl⟩, ⟨_, rfl⟩, by decide +kernel, by decide +kernel, by decide +kernel⟩

end HeteroCloud.Flash
