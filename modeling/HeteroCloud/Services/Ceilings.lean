/-
  File:      Services/Ceilings.lean
  Subject:   MEMBERS' LIMITS UNDER THE ACCOUNT'S (crates/heterocloud-store/src/organizations.rs).

  `capped_limits` walks over the serialised limits of a member and of the account together and
  reads the result back.
-/
import HeteroCloud.Services.Program

namespace HeteroCloud.Services

open Base Iam
open Store (StoreError)

/-! ## 1. Limits as documents -/

def numbers (fields : List (String × Nat)) : Json := .object (fields.map fun f => (f.1, .int f.2))

def FlowQuotaLimits.toValue (l : FlowQuotaLimits) : Json :=
  numbers [("max_developer_credentials_per_service", l.maxDeveloperCredentialsPerService),
    ("max_participants_per_service", l.maxParticipantsPerService),
    ("max_rate_limit_burst", l.maxRateLimitBurst),
    ("max_rate_limit_requests_per_second", l.maxRateLimitRequestsPerSecond),
    ("max_rooms_per_service", l.maxRoomsPerService), ("max_services", l.maxServices),
    ("max_total_rooms", l.maxTotalRooms)]

def FlashQuotaLimits.toValue (l : FlashQuotaLimits) : Json :=
  numbers [("max_cpu_millis_per_vm", l.maxCpuMillisPerVm),
    ("max_disk_gib_per_vm", l.maxDiskGibPerVm), ("max_memory_mib_per_vm", l.maxMemoryMibPerVm),
    ("max_replicas_per_service", l.maxReplicasPerService), ("max_services", l.maxServices),
    ("max_total_cpu_millis", l.maxTotalCpuMillis), ("max_total_disk_gib", l.maxTotalDiskGib),
    ("max_total_memory_mib", l.maxTotalMemoryMib), ("max_total_replicas", l.maxTotalReplicas),
    ("max_weekly_cpu_millicore_seconds", l.maxWeeklyCpuMillicoreSeconds),
    ("max_weekly_gpu_seconds", l.maxWeeklyGpuSeconds),
    ("max_weekly_memory_mib_seconds", l.maxWeeklyMemoryMibSeconds)]

def RegistryQuotaLimits.toValue (l : RegistryQuotaLimits) : Json :=
  numbers [("max_credentials", l.maxCredentials), ("storage_gib", l.storageGib)]

def SyouyuQuotaLimits.toValue (l : SyouyuQuotaLimits) : Json :=
  numbers [("max_buckets", l.maxBuckets), ("max_bytes_per_bucket", l.maxBytesPerBucket),
    ("max_credentials_per_bucket", l.maxCredentialsPerBucket),
    ("max_objects_per_bucket", l.maxObjectsPerBucket), ("max_total_bytes", l.maxTotalBytes),
    ("max_total_credentials", l.maxTotalCredentials)]

def ResourceQuotaLimits.toValue (l : ResourceQuotaLimits) : Json :=
  .object [("flash", l.flash.toValue), ("flow", l.flow.toValue),
    ("registry", l.registry.toValue), ("syouyu", l.syouyu.toValue)]

variable (j : Json) (key : String)

/-- One number of a record. -/
def number : Option Nat := (j.get key).bind Json.asNat

/-- One with a default. -/
def numberOr (default : Nat) : Option Nat :=
  Json.orDefault default Json.asNat (j.get key)

/-- `serde_json::from_value::<ResourceQuotaLimits>`, of records with the known names. -/
def ResourceQuotaLimits.fromValue : Option ResourceQuotaLimits := do
  let flow ← j.get "flow"
  let flash ← j.get "flash"
  let registry ← j.get "registry"
  let syouyu ← Json.orDefault default.syouyu
    (fun s => return {
      maxBuckets := ← number s "max_buckets"
      maxBytesPerBucket := ← number s "max_bytes_per_bucket"
      maxObjectsPerBucket := ← number s "max_objects_per_bucket"
      maxTotalBytes := ← number s "max_total_bytes"
      maxCredentialsPerBucket := ← number s "max_credentials_per_bucket"
      maxTotalCredentials := ← number s "max_total_credentials" }) (j.get "syouyu")
  return {
    flow := {
      maxServices := ← number flow "max_services"
      maxRoomsPerService := ← number flow "max_rooms_per_service"
      maxTotalRooms := ← number flow "max_total_rooms"
      maxParticipantsPerService := ← number flow "max_participants_per_service"
      maxRateLimitRequestsPerSecond := ← number flow "max_rate_limit_requests_per_second"
      maxRateLimitBurst := ← number flow "max_rate_limit_burst"
      maxDeveloperCredentialsPerService := ← number flow "max_developer_credentials_per_service" }
    flash := {
      maxServices := ← number flash "max_services"
      maxReplicasPerService := ← number flash "max_replicas_per_service"
      maxCpuMillisPerVm := ← number flash "max_cpu_millis_per_vm"
      maxMemoryMibPerVm := ← number flash "max_memory_mib_per_vm"
      maxDiskGibPerVm := ← number flash "max_disk_gib_per_vm"
      maxTotalReplicas := ← number flash "max_total_replicas"
      maxTotalCpuMillis := ← number flash "max_total_cpu_millis"
      maxTotalMemoryMib := ← number flash "max_total_memory_mib"
      maxTotalDiskGib := ← number flash "max_total_disk_gib"
      maxWeeklyCpuMillicoreSeconds := ← numberOr flash "max_weekly_cpu_millicore_seconds"
        default.flash.maxWeeklyCpuMillicoreSeconds
      maxWeeklyMemoryMibSeconds := ← numberOr flash "max_weekly_memory_mib_seconds"
        default.flash.maxWeeklyMemoryMibSeconds
      maxWeeklyGpuSeconds := ← numberOr flash "max_weekly_gpu_seconds"
        default.flash.maxWeeklyGpuSeconds }
    registry := {
      storageGib := ← number registry "storage_gib"
      maxCredentials := ← number registry "max_credentials" }
    syouyu }

mutual

/-- The local function `cap`. -/
def capValue : Json → Json → Except StoreError Json
  | .object values, .object ceilings =>
      if values.length = ceilings.length then (capMembers values ceilings).map .object
      else .error (.invariant "quota shape differs")
  | .int (.ofNat value), .int (.ofNat ceiling) => .ok (.int (min value ceiling : Nat))
  | .int _, .int _ | .int _, .float _ | .float _, .int _ | .float _, .float _ =>
      .error (.invariant "negative quota")
  | _, _ => .error (.invariant "quota shape differs")

def capMembers : List (String × Json) → List (String × Json) →
    Except StoreError (List (String × Json))
  | [], _ => .ok []
  | (key, value) :: rest, ceilings =>
      match ceilings.lookup key with
      | none => .error (.invariant "quota shape differs")
      | some ceiling => do
          let value ← capValue value ceiling
          let rest ← capMembers rest ceilings
          return (key, value) :: rest

end

/-- What is provided in the scope of the account is bounded there. -/
def ResourceQuotaLimits.shared (organization limits : ResourceQuotaLimits) : ResourceQuotaLimits :=
  { limits with
    registry := organization.registry
    syouyu := { limits.syouyu with
      maxCredentialsPerBucket := organization.syouyu.maxCredentialsPerBucket
      maxTotalCredentials := organization.syouyu.maxTotalCredentials } }

/-- `capped_limits`. -/
def cappedLimits (organization member : ResourceQuotaLimits) :
    Except StoreError ResourceQuotaLimits := do
  let result ← capValue member.toValue organization.toValue
  let limits ← match ResourceQuotaLimits.fromValue result with
    | some limits => parseResourceQuota limits
    | none => .error .json
  return organization.shared limits

variable (o m : ResourceQuotaLimits)

/-- The walk meets the same names in both, and takes the lower number under each. -/
theorem capValue_toValue : capValue m.toValue o.toValue = .ok (m.lower o).toValue := rfl

theorem limits_fromValue_toValue (l : ResourceQuotaLimits) :
    ResourceQuotaLimits.fromValue l.toValue = some l := rfl

theorem cappedLimits_eq : cappedLimits o m =
    match o.capped m with
    | .ok limits => .ok limits
    | .error message => .error (.requestRejected message) := by
  unfold cappedLimits ResourceQuotaLimits.capped parseResourceQuota
  rw [capValue_toValue]
  simp only [bind, Except.bind, limits_fromValue_toValue]
  cases (m.lower o).validate with
  | some | none => rfl

/-! ## 2. The lower of two -/

section Lower
variable {o m : ResourceQuotaLimits}

theorem ResourceQuotaLimits.validate_none (l : ResourceQuotaLimits) : l.validate = none ↔
    (∀ e ∈ flowErrors l.flow, e = none) ∧ (∀ e ∈ syouyuErrors l.syouyu, e = none) ∧
      (∀ e ∈ flashErrors l.flash, e = none) ∧ within 1 10240 l.registry.storageGib = true ∧
      within 1 1000 l.registry.maxCredentials = true := by
  unfold validate
  rw [firstRefusal_none]
  simp [or_imp, forall_and]

open ResourceQuotaLimits in
/-- The bounds of each limit and the order between limits are kept. -/
theorem lower_parts (ho : o.validate = none) (hm : m.validate = none) :
    (∀ e ∈ flowErrors (m.lower o).flow, e = none) ∧
    (∀ e ∈ syouyuErrors (m.lower o).syouyu, e = none) ∧
    (∀ e ∈ flashErrors (m.lower o).flash, e = none) ∧
    (∀ e ∈ syouyuErrors (o.shared (m.lower o)).syouyu, e = none) := by
  rw [validate_none] at ho hm
  simp only [flowErrors, syouyuErrors, flashErrors, flashRange, List.forall_mem_cons, refuse_none,
    Bool.or_eq_false_iff, Bool.not_eq_false', within_iff, decide_eq_false_iff_not,
    List.not_mem_nil, false_imp_iff, implies_true, and_true] at ho hm ⊢
  simp only [lower, shared]
  obtain ⟨hflow, hsyouyu, hflash, -⟩ := ho
  obtain ⟨hflow', hsyouyu', hflash', -⟩ := hm
  refine ⟨?_, ?_, ?_, ?_⟩
  · clear hsyouyu hsyouyu' hflash hflash'
    omega
  · clear hflow hflow' hflash hflash'
    omega
  · clear hflow hflow' hsyouyu hsyouyu'
    omega
  · clear hflow hflow' hflash hflash'
    omega

/-- **The lower of two valid limits is valid**, and so is what a member is left with. -/
theorem capped_valid (ho : o.validate = none) (hm : m.validate = none) :
    o.capped m = .ok (o.shared (m.lower o)) ∧ (o.shared (m.lower o)).validate = none := by
  obtain ⟨hflow, hsyouyu, hflash, hshared⟩ := lower_parts ho hm
  have hregistry := ((ResourceQuotaLimits.validate_none o).mp ho).2.2.2
  have hregistry' := ((ResourceQuotaLimits.validate_none m).mp hm).2.2.2
  have hlower : (m.lower o).validate = none := by
    refine (ResourceQuotaLimits.validate_none _).mpr ⟨hflow, hsyouyu, hflash, ?_⟩
    simp only [within_iff, ResourceQuotaLimits.lower] at hregistry hregistry' ⊢
    omega
  refine ⟨?_, (ResourceQuotaLimits.validate_none _).mpr ⟨hflow, hshared, hflash, hregistry⟩⟩
  simp only [ResourceQuotaLimits.capped, hlower]
  rfl

end Lower

end HeteroCloud.Services
