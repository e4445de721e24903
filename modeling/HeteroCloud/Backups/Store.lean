/-
  File:      Backups/Store.lean
  Subject:   THE BACKUPS TABLE (migrations/0022, 0023, 0034) and the store calls that write it
             (crates/heterocloud-store/src/flash_backups.rs, flash_operations.rs).

  A store call is one action on the tables; one that fails leaves them as they are. The rows of
  `service_instances` and the destinations are read only.
-/
import HeteroCloud.Services.Schema

namespace HeteroCloud.Backups

open Base Iam Services List
open Store (StoreError)

/-! ## 1. Rows -/

/-- In microseconds. -/
abbrev Time := Nat

inductive Phase where
  | pending
  | creating
  | ready
  | error
  | deleting
  | deleted
  deriving DecidableEq, Repr

/-- `flash_backups`. -/
structure FlashBackup where
  id : Uuid
  organizationId : Uuid
  projectId : Uuid
  serviceInstanceId : Uuid
  scheduleServiceId : Option Uuid := none
  destinationId : Option Uuid
  principalId : Uuid
  requestId : Uuid
  name : String
  sourceName : String
  sourceGeneration : Nat
  sourcePvcUid : String
  sourceSpec : FlashSpec
  volumeSizeBytes : Nat
  phase : Phase := .pending
  status : Json := .object []
  deleteRequested : Bool := false
  deletedAt : Option Time := none
  createdAt : Time
  updatedAt : Time
  deriving DecidableEq, Repr

/-- What the status says about restoring. -/
def verification (status : Json) : Json := status.index "restore_verification"

/-- Of `flash_backup_destinations`. -/
structure Destination where
  organizationId : Uuid
  id : Uuid
  ready : Bool
  deriving DecidableEq, Repr

structure Tables where
  services : List ServiceRow
  destinations : List Destination
  flashBackups : List FlashBackup
  deriving DecidableEq

variable (b : FlashBackup)

/-- A row takes up quota until it is a tombstone. -/
def FlashBackup.reserves : Bool := b.phase != .deleted

variable (t : Tables) (organization : Uuid)

def Tables.count : Nat :=
  t.flashBackups.countP fun b => b.organizationId == organization && b.reserves

def Tables.bytes : Nat :=
  totalWhere (fun b => b.organizationId == organization && b.reserves) (·.volumeSizeBytes)
    t.flashBackups

def Tables.serviceCount (organization service : Uuid) : Nat :=
  t.flashBackups.countP fun b =>
    b.organizationId == organization && b.reserves && b.serviceInstanceId == service

/-! ## 2. Requests -/

structure BackupRequest where
  organization : Uuid
  service : Uuid
  principal : Uuid
  requestId : Uuid
  name : String
  volumeSizeBytes : Int
  sourcePvcUid : String
  resolvedImage : Option String
  expectedGeneration : Int
  destination : Option Uuid
  deriving DecidableEq

def i64Max : Nat := 9223372036854775807

/-- 128 GiB. -/
def backupBytes : Nat := 128 * 1024 ^ 3

/-- The row of a request. -/
def Tables.request (organization requestId : Uuid) : Option FlashBackup :=
  t.flashBackups.find? fun b => b.organizationId == organization && b.requestId == requestId

variable (q : BackupRequest)

/-- The request is another one than that of the row. -/
def FlashBackup.conflicts (existing : FlashBackup) (q : BackupRequest) : Bool :=
  existing.serviceInstanceId != q.service || existing.name != q.name ||
    existing.destinationId != q.destination || existing.principalId != q.principal ||
    existing.deleteRequested

def Tables.destinationReady (organization destination : Uuid) : Bool :=
  t.destinations.any fun d => d.organizationId == organization && d.id == destination && d.ready

/-- The Flash service to back up, with its specification. -/
def Tables.source (organization service : Uuid) : Option (ServiceRow × FlashSpec) :=
  (t.services.find? fun s =>
      s.id == service && s.organizationId == organization && s.state != .deleting).bind fun s =>
    match s.spec with
    | .flash spec => some (s, spec)
    | _ => none

def Tables.quotaExceeded : Bool :=
  decide (100 ≤ t.count q.organization) || decide (10 ≤ t.serviceCount q.organization q.service) ||
    decide (backupBytes < t.bytes q.organization + q.volumeSizeBytes.toNat)

/-- No identities, network access or secrets are kept. -/
def BackupRequest.spec (q : BackupRequest) (spec : FlashSpec) : FlashSpec :=
  { spec with
    env := .object []
    secretEnv := []
    secretFiles := []
    taskRole := none
    network := none
    exposure := { spec.exposure with authentication := none }
    image := q.resolvedImage.getD spec.image }

variable (now : Time) (id : Uuid)

def BackupRequest.backup (source : ServiceRow) (spec : FlashSpec) : FlashBackup where
  id := id
  organizationId := q.organization
  projectId := source.projectId
  serviceInstanceId := q.service
  destinationId := q.destination
  principalId := q.principal
  requestId := q.requestId
  name := q.name
  sourceName := source.name
  sourceGeneration := source.generation
  sourcePvcUid := q.sourcePvcUid
  sourceSpec := q.spec spec
  volumeSizeBytes := q.volumeSizeBytes.toNat
  createdAt := now
  updatedAt := now

/-- `request_flash_backup_to`. The last check is the primary key. -/
def requestFlashBackupTo (q : BackupRequest) (t : Tables) : Except StoreError (Tables ×
    FlashBackup) :=
  if q.volumeSizeBytes ≤ 0 ∨ q.sourcePvcUid = "" then
    .error (.requestRejected "Persistent disk is not ready.")
  else match t.request q.organization q.requestId with
  | some existing => if existing.conflicts q then .error .conflict else .ok (t, existing)
  | none =>
    if q.destination.any fun d => !t.destinationReady q.organization d then
      .error (.requestRejected "Backup destination is not ready.")
    else match t.source q.organization q.service with
    | none => .error .notFound
    | some (source, spec) =>
      if (source.generation : Int) ≠ q.expectedGeneration then .error .conflict
      else if i64Max < t.bytes q.organization then .error (.sql false)
      else if t.quotaExceeded q then
        .error (.requestRejected ("Backup quota exceeded (10 per service, 100 and 128 GiB of " ++
          "source disks per organization)."))
      else if t.flashBackups.any fun b => b.id == id then .error (.sql true)
      else
        let backup := q.backup now id source spec
        .ok ({ t with flashBackups := t.flashBackups ++ [backup] }, backup)

/-! ## 3. Changes -/

def FlashBackup.requestDelete (b : FlashBackup) : FlashBackup :=
  { b with deleteRequested := true, phase := .deleting, updatedAt := now }

/-- `request_flash_backup_delete`. -/
def requestFlashBackupDelete (organization id : Uuid) (t : Tables) : Except StoreError (Tables ×
    FlashBackup) :=
  let sel (b : FlashBackup) := b.organizationId == organization && b.id == id && b.reserves
  match t.flashBackups.find? sel with
  | none => .error .notFound
  | some b => .ok ({ t with flashBackups := updateWhere sel (·.requestDelete now) t.flashBackups },
      b.requestDelete now)

/-- A day. -/
def tombstoneTime : Nat := 24 * 60 * 60 * 1000000

/-- `pending_flash_backups`; rows of the same time come in the table's order. -/
def pendingFlashBackups (t : Tables) : List FlashBackup :=
  (orderBy (·.updatedAt) (t.flashBackups.filter fun b =>
    b.deletedAt.all fun deleted => decide (now < deleted + tombstoneTime))).take 32

variable (phase : Phase)

def FlashBackup.record (status : Json) (b : FlashBackup) : FlashBackup :=
  { b with
    phase :=
      if b.deletedAt.isSome then .deleted else if b.deleteRequested then .deleting else phase
    status := status
    updatedAt := now }

/-- `update_flash_backup_status`. -/
def updateFlashBackupStatus (status : Json) (t : Tables) : Tables :=
  { t with flashBackups := updateWhere (·.id == id) (·.record now phase status) t.flashBackups }

def FlashBackup.release (b : FlashBackup) : FlashBackup :=
  { b with
    phase := .deleted
    status := .object []
    deletedAt := some (b.deletedAt.getD now)
    updatedAt := now }

/-- `release_flash_backup`. -/
def releaseFlashBackup (t : Tables) : Tables :=
  { t with
    flashBackups :=
      updateWhere (fun b => b.id == id && b.deleteRequested) (·.release now) t.flashBackups }

/-- `flash_backup_restore_pending`. -/
def flashBackupRestorePending (t : Tables) : Bool :=
  t.services.any fun s =>
    match s.spec with
    | .flash spec => spec.restoreFromBackupId == some id &&
        (s.state == .provisioning || s.state == .updating)
    | _ => false

/-- Of `flash_backup_policies`. -/
structure BackupPolicy where
  serviceInstanceId : Uuid
  organizationId : Uuid
  retentionCount : Nat
  verifyRestore : Bool
  destinationId : Option Uuid
  deriving DecidableEq

variable (p : BackupPolicy)

/-- The backups that count toward retention. -/
def BackupPolicy.counts (b : FlashBackup) : Bool :=
  b.scheduleServiceId == some p.serviceInstanceId && b.organizationId == p.organizationId &&
    b.phase == .ready && !b.deleteRequested && b.destinationId == p.destinationId &&
    (!p.verifyRestore || (verification b.status).index "phase" == .string "passed")

/-- `expire_scheduled_backups`. -/
def expireScheduledBackups (t : Tables) : Tables :=
  let expired := ((orderBy (·.createdAt) (t.flashBackups.filter p.counts)).reverse.drop
    p.retentionCount).map (·.id)
  { t with
    flashBackups :=
      updateWhere (fun b => expired.contains b.id) (·.requestDelete now) t.flashBackups }

/-- `attach_scheduled_backup`. -/
def attachScheduledBackup (id : Uuid) (t : Tables) : Tables :=
  { t with
    flashBackups :=
      updateWhere (fun b => b.id == id && b.organizationId == p.organizationId)
        (fun b => { b with scheduleServiceId := some p.serviceInstanceId }) t.flashBackups }

/-! ## 4. What every call keeps -/

/-- The phase of a row agrees with its deletion. -/
structure FlashBackup.Consistent : Prop where
  tombstone : b.phase = .deleted ↔ b.deletedAt.isSome
  requested : b.deletedAt.isSome → b.deleteRequested
  deleting : b.deleteRequested → b.deletedAt = none → b.phase = .deleting

/-- A later version of a row. -/
structure Later (b b' : FlashBackup) : Prop where
  id : b'.id = b.id
  organizationId : b'.organizationId = b.organizationId
  serviceInstanceId : b'.serviceInstanceId = b.serviceInstanceId
  requestId : b'.requestId = b.requestId
  volumeSizeBytes : b'.volumeSizeBytes = b.volumeSizeBytes
  deletedAt : b.deletedAt.isSome → b'.deletedAt.isSome
  deleteRequested : b.deleteRequested → b'.deleteRequested

section Rows
variable {b b' b'' : FlashBackup} {now : Time} {phase : Phase} {status : Json}

theorem Later.refl (b : FlashBackup) : Later b b :=
  ⟨rfl, rfl, rfl, rfl, rfl, fun h => h, fun h => h⟩

theorem Later.trans (h : Later b b') (h' : Later b' b'') : Later b b'' where
  id := h'.id.trans h.id
  organizationId := h'.organizationId.trans h.organizationId
  serviceInstanceId := h'.serviceInstanceId.trans h.serviceInstanceId
  requestId := h'.requestId.trans h.requestId
  volumeSizeBytes := h'.volumeSizeBytes.trans h.volumeSizeBytes
  deletedAt hb := h'.deletedAt (h.deletedAt hb)
  deleteRequested hb := h'.deleteRequested (h.deleteRequested hb)

/-- A tombstone stays one. -/
theorem Later.deleted (h : Later b b') (hb : b.Consistent) (hb' : b'.Consistent)
    (hd : b.phase = .deleted) : b'.phase = .deleted :=
  hb'.tombstone.mpr (h.deletedAt (hb.tombstone.mp hd))

/-- A row whose deletion is requested is in deletion, or a tombstone. -/
theorem FlashBackup.Consistent.phase_eq (h : b.Consistent) (hd : b.deleteRequested = true) :
    b.phase = if b.deletedAt.isSome then .deleted else .deleting := by
  by_cases ht : b.deletedAt.isSome
  · rw [if_pos ht]
    exact h.tombstone.mpr ht
  · rw [if_neg ht]
    exact h.deleting hd (Option.not_isSome_iff_eq_none.mp ht)

theorem consistent_backup {q : BackupRequest} {id : Uuid} {source : ServiceRow} {spec : FlashSpec} :
    (q.backup now id source spec).Consistent :=
  ⟨⟨fun h => Phase.noConfusion h, fun h => Bool.noConfusion h⟩, fun h => Bool.noConfusion h,
    fun h => Bool.noConfusion h⟩

theorem later_requestDelete (b : FlashBackup) : Later b (b.requestDelete now) :=
  ⟨rfl, rfl, rfl, rfl, rfl, fun h => h, fun _ => rfl⟩

theorem consistent_requestDelete (hb : b.Consistent) (hr : b.reserves = true) :
    (b.requestDelete now).Consistent := by
  have hlive : ¬ b.deletedAt.isSome := by
    intro hd
    rw [FlashBackup.reserves, hb.tombstone.mpr hd] at hr
    cases hr
  refine ⟨⟨fun h => ?_, fun h => absurd h hlive⟩, fun _ => rfl, fun _ _ => rfl⟩
  cases h

theorem later_record (b : FlashBackup) : Later b (b.record now phase status) :=
  ⟨rfl, rfl, rfl, rfl, rfl, fun h => h, fun h => h⟩

/-- A status is recorded under the phase of a tombstone only if the row is one. -/
theorem consistent_record (hb : b.Consistent) (hp : phase = .deleted → b.deletedAt.isSome) :
    (b.record now phase status).Consistent := by
  have hphase : (b.record now phase status).phase =
    if b.deletedAt.isSome then .deleted else if b.deleteRequested then .deleting else phase := rfl
  refine ⟨?_, hb.requested, fun hr hd => ?_⟩
  · show (b.record now phase status).phase = .deleted ↔ b.deletedAt.isSome
    rw [hphase]
    by_cases ht : b.deletedAt.isSome
    · simp [ht]
    rw [if_neg ht]
    by_cases hr : b.deleteRequested
    · simp [hr, ht]
    · rw [if_neg hr]
      exact ⟨hp, fun h => absurd h ht⟩
  · have hr : b.deleteRequested = true := hr
    have hd : b.deletedAt = none := hd
    rw [hphase, hr, hd]
    rfl

theorem later_release (b : FlashBackup) : Later b (b.release now) :=
  ⟨rfl, rfl, rfl, rfl, rfl, fun _ => rfl, fun h => h⟩

theorem consistent_release (hr : b.deleteRequested = true) : (b.release now).Consistent :=
  ⟨⟨fun _ => rfl, fun _ => rfl⟩, fun _ => hr, fun _ h => by cases h⟩

end Rows

/-- **The invariant.** `home` is the organization a service was created in; ids are not used again,
and a service stays there. -/
structure Tables.Inv (home : Uuid → Uuid) (t : Tables) : Prop where
  unique : UniqueKey (·.id) t.flashBackups
  requests : UniqueKey (fun b => (b.organizationId, b.requestId)) t.flashBackups
  consistent : ∀ b ∈ t.flashBackups, b.Consistent
  backupsHome : ∀ b ∈ t.flashBackups, home b.serviceInstanceId = b.organizationId
  servicesHome : ∀ s ∈ t.services, home s.id = s.organizationId
  count : ∀ organization, t.count organization ≤ 100
  bytes : ∀ organization, t.bytes organization ≤ backupBytes
  serviceCount : ∀ organization service, t.serviceCount organization service ≤ 10

section Invariant
variable {home : Uuid → Uuid} {t t' : Tables} {p : FlashBackup → Bool}
  {f : FlashBackup → FlashBackup}

/-- Rows may become later versions of themselves. -/
theorem Tables.Inv.update (h : t.Inv home)
    (hf : ∀ b ∈ t.flashBackups, p b = true → Later b (f b) ∧ (f b).Consistent) :
    ({ t with flashBackups := updateWhere p f t.flashBackups } : Tables).Inv home := by
  let g (b : FlashBackup) : FlashBackup := if p b then f b else b
  have hg (b : FlashBackup) (hb : b ∈ t.flashBackups) : Later b (g b) ∧ (g b).Consistent := by
    by_cases hp : p b = true
    · simp only [g, if_pos hp]
      exact hf b hb hp
    · simp only [g, if_neg hp]
      exact ⟨Later.refl b, h.consistent b hb⟩
  have hkeys {κ : Type} (key : FlashBackup → κ) (hk : ∀ b b', Later b b' → key b' = key b) :
      (t.flashBackups.map g).map key = t.flashBackups.map key := by
    rw [map_map]
    exact map_congr_left fun b hb => hk b _ (hg b hb).1
  -- A row that reserves after the change reserved before it.
  have hreserves (b : FlashBackup) (hb : b ∈ t.flashBackups) (hr : (g b).reserves = true) :
      b.reserves = true := by
    by_contra hn
    have hd : b.phase = .deleted := by simpa [FlashBackup.reserves] using hn
    have := (hg b hb).1.deleted (h.consistent b hb) (hg b hb).2 hd
    simp [FlashBackup.reserves, this] at hr
  refine ⟨?_, ?_, ?_, ?_, h.servicesHome, fun o => ?_, fun o => ?_, fun o s => ?_⟩
  · show ((t.flashBackups.map g).map (·.id)).Nodup
    rw [hkeys (·.id) fun _ _ hl => hl.id]
    exact h.unique
  · show ((t.flashBackups.map g).map fun b => (b.organizationId, b.requestId)).Nodup
    rw [hkeys _ fun _ _ hl => by rw [hl.organizationId, hl.requestId]]
    exact h.requests
  · intro b hb
    obtain ⟨a, ha, rfl⟩ := mem_map.mp hb
    exact (hg a ha).2
  · intro b hb
    obtain ⟨a, ha, rfl⟩ := mem_map.mp hb
    have hl := (hg a ha).1
    show home (g a).serviceInstanceId = (g a).organizationId
    rw [hl.serviceInstanceId, hl.organizationId]
    exact h.backupsHome a ha
  · refine Nat.le_trans ?_ (h.count o)
    show (t.flashBackups.map g).countP _ ≤ t.flashBackups.countP _
    rw [countP_map]
    refine countP_mono_left fun b hb hc => ?_
    simp only [Function.comp_apply, Bool.and_eq_true, (hg b hb).1.organizationId] at hc ⊢
    exact ⟨hc.1, hreserves b hb hc.2⟩
  · refine Nat.le_trans ?_ (h.bytes o)
    show totalWhere _ _ (t.flashBackups.map g) ≤ totalWhere _ _ t.flashBackups
    rw [totalWhere_map]
    have hsize : totalWhere (fun b => (g b).organizationId == o && (g b).reserves)
        (fun b => (g b).volumeSizeBytes) t.flashBackups =
        totalWhere (fun b => (g b).organizationId == o && (g b).reserves) (·.volumeSizeBytes)
          t.flashBackups :=
      totalWhere_congr fun b hb => ⟨rfl, fun _ => (hg b hb).1.volumeSizeBytes⟩
    rw [hsize]
    refine totalWhere_mono fun b hb hc => ?_
    simp only [Bool.and_eq_true, (hg b hb).1.organizationId] at hc ⊢
    exact ⟨hc.1, hreserves b hb hc.2⟩
  · refine Nat.le_trans ?_ (h.serviceCount o s)
    show (t.flashBackups.map g).countP _ ≤ t.flashBackups.countP _
    rw [countP_map]
    refine countP_mono_left fun b hb hc => ?_
    simp only [Function.comp_apply, Bool.and_eq_true, (hg b hb).1.organizationId,
      (hg b hb).1.serviceInstanceId] at hc ⊢
    exact ⟨⟨hc.1.1, hreserves b hb hc.1.2⟩, hc.2⟩

/-- What is known where a row is inserted. -/
structure Inserts (t : Tables) (q : BackupRequest) (b : FlashBackup) : Prop where
  id : ∀ b' ∈ t.flashBackups, b'.id ≠ b.id
  request : ∀ b' ∈ t.flashBackups, (b'.organizationId, b'.requestId) ≠ (q.organization, q.requestId)
  source : ∃ s ∈ t.services, s.id = q.service ∧ s.organizationId = q.organization
  quota : t.quotaExceeded q = false
  row : ∃ now source spec, b = q.backup now b.id source spec

theorem Tables.Inv.insert (h : t.Inv home) {q : BackupRequest} {b : FlashBackup}
    (hi : Inserts t q b) :
    ({ t with flashBackups := t.flashBackups ++ [b] } : Tables).Inv home := by
  obtain ⟨now, source, spec, hb⟩ := hi.row
  have horg : b.organizationId = q.organization := by rw [hb]; rfl
  have hreq : b.requestId = q.requestId := by rw [hb]; rfl
  have hservice : b.serviceInstanceId = q.service := by rw [hb]; rfl
  have hsize : b.volumeSizeBytes = q.volumeSizeBytes.toNat := by rw [hb]; rfl
  have hquota := hi.quota
  simp only [Tables.quotaExceeded, Bool.or_eq_false_iff, decide_eq_false_iff_not, not_le,
    not_lt] at hquota
  obtain ⟨⟨hcount, hcounts⟩, hbytes⟩ := hquota
  refine ⟨?_, ?_, ?_, ?_, h.servicesHome, fun o => ?_, fun o => ?_, fun o s => ?_⟩
  · exact h.unique.insert fun b' hb' => hi.id b' hb'
  · refine h.requests.insert fun b' hb' => ?_
    rw [horg, hreq]
    exact hi.request b' hb'
  · intro b' hb'
    rcases mem_append.mp hb' with hb' | hb'
    · exact h.consistent b' hb'
    · rw [mem_singleton.mp hb', hb]
      exact consistent_backup
  · intro b' hb'
    rcases mem_append.mp hb' with hb' | hb'
    · exact h.backupsHome b' hb'
    obtain ⟨s, hs, hid, ho⟩ := hi.source
    rw [mem_singleton.mp hb', horg, hservice, ← hid, ← ho]
    exact h.servicesHome s hs
  · have hold := h.count o
    unfold Tables.count at hold hcount ⊢
    rw [countP_append, countP_singleton]
    by_cases ho : b.organizationId = o
    · rw [horg] at ho
      subst ho
      split_ifs <;> omega
    · simpa [ho] using hold
  · have hold := h.bytes o
    unfold Tables.bytes at hold hbytes ⊢
    rw [totalWhere_append, totalWhere_cons, totalWhere_nil, hsize]
    by_cases ho : b.organizationId = o
    · rw [horg] at ho
      subst ho
      split_ifs <;> omega
    · simpa [ho] using hold
  · have hold := h.serviceCount o s
    unfold Tables.serviceCount at hold hcounts ⊢
    rw [countP_append, countP_singleton]
    by_cases ho : b.organizationId = o ∧ b.serviceInstanceId = s
    · obtain ⟨ho, hs⟩ := ho
      rw [horg] at ho
      rw [hservice] at hs
      subst ho hs
      split_ifs <;> omega
    · have hno : (b.organizationId == o && b.reserves && b.serviceInstanceId == s) = false := by
        by_contra hc
        simp only [Bool.not_eq_false, Bool.and_eq_true, beq_iff_eq] at hc
        exact ho ⟨hc.1.1, hc.2⟩
      rw [if_neg (by rw [hno]; exact Bool.false_ne_true)]
      exact hold

end Invariant

/-! ## 5. Calls -/

section Calls
variable {home : Uuid → Uuid} {t t' : Tables} {now : Time} {q : BackupRequest} {id : Uuid}
  {b : FlashBackup}

theorem source_some {o service : Uuid} {s : ServiceRow} {spec : FlashSpec}
    (h : t.source o service = some (s, spec)) :
    s ∈ t.services ∧ s.id = service ∧ s.organizationId = o := by
  obtain ⟨s', hs', h⟩ := Option.bind_eq_some_iff.mp h
  split at h
  · cases h
    have hp := find?_some hs'
    simp only [Bool.and_eq_true, beq_iff_eq] at hp
    exact ⟨mem_of_find?_eq_some hs', hp.1.1, hp.1.2⟩
  · cases h

/-- **An accepted request**: the row it made before, or a new one. -/
theorem requestFlashBackupTo_spec (h : requestFlashBackupTo now id q t = .ok (t', b)) :
    (t' = t ∧ t.request q.organization q.requestId = some b) ∨
      (t' = { t with flashBackups := t.flashBackups ++ [b] } ∧ b.id = id ∧ Inserts t q b) := by
  unfold requestFlashBackupTo at h
  split at h
  · cases h
  split at h
  · rename_i existing hex
    split at h
    · cases h
    · cases h
      exact .inl ⟨rfl, hex⟩
  rename_i hnone
  split at h
  · cases h
  split at h
  · cases h
  rename_i source spec hsource
  obtain ⟨hs, hid, ho⟩ := source_some hsource
  split at h
  · cases h
  split at h
  · cases h
  split at h
  · cases h
  split at h
  · cases h
  rename_i hquota hkey
  cases h
  refine .inr ⟨rfl, rfl, ?_, ?_, ⟨source, hs, hid, ho⟩, Bool.eq_false_iff.mpr hquota,
    now, source, spec, rfl⟩
  · intro b' hb' he
    exact hkey (any_eq_true.mpr ⟨b', hb', beq_iff_eq.mpr he⟩)
  intro b' hb' he
  have he := Prod.mk.inj he
  exact find?_eq_none.mp hnone b' hb' (by simp [he.1, he.2])

/-- **A request that was made before** returns its row, which stays as it is, or fails. -/
theorem requestFlashBackupTo_again (now : Time) (id : Uuid) (h : t.Inv home)
    (hb : b ∈ t.flashBackups) (ho : b.organizationId = q.organization)
    (hr : b.requestId = q.requestId) :
    requestFlashBackupTo now id q t = .ok (t, b) ∨
      ∃ e, requestFlashBackupTo now id q t = .error e := by
  have hfind : t.request q.organization q.requestId = some b := by
    refine h.requests.find?_of hb (by simp [ho, hr]) fun b' _ hp => ?_
    simp only [Bool.and_eq_true, beq_iff_eq] at hp
    rw [hp.1, hp.2, ho, hr]
  unfold requestFlashBackupTo
  split
  · exact .inr ⟨_, rfl⟩
  rw [hfind]
  dsimp only
  split
  · exact .inr ⟨_, rfl⟩
  · exact .inl rfl

theorem requestFlashBackupTo_inv (hi : t.Inv home)
    (h : requestFlashBackupTo now id q t = .ok (t', b)) : t'.Inv home := by
  rcases requestFlashBackupTo_spec h with ⟨rfl, _⟩ | ⟨rfl, _, hins⟩
  · exact hi
  · exact hi.insert hins

/-- An accepted deletion request changes the rows it selects. -/
theorem requestFlashBackupDelete_spec {o : Uuid}
    (h : requestFlashBackupDelete now o id t = .ok (t', b)) :
    t' = { t with
      flashBackups := updateWhere (fun b => b.organizationId == o && b.id == id && b.reserves)
        (·.requestDelete now) t.flashBackups } := by
  unfold requestFlashBackupDelete at h
  dsimp only at h
  split at h
  · cases h
  · cases h
    rfl

/-- The backups that expire reserve their space. -/
theorem expired_reserves (hi : t.Inv home) {p : BackupPolicy} (hb : b ∈ t.flashBackups)
    (h : (((orderBy (·.createdAt) (t.flashBackups.filter p.counts)).reverse.drop
      p.retentionCount).map (·.id)).contains b.id = true) : b.reserves = true := by
  rw [contains_iff_mem, mem_map] at h
  obtain ⟨a, ha, he⟩ := h
  have ha := mem_reverse.mp (mem_of_mem_drop ha)
  rw [(orderBy_perm _ _).mem_iff, mem_filter] at ha
  rw [hi.unique.eq ha.1 hb he] at ha
  have hc := ha.2
  simp only [BackupPolicy.counts, Bool.and_eq_true, beq_iff_eq] at hc
  simp [FlashBackup.reserves, hc.1.1.1.2]

theorem mem_pending (h : b ∈ pendingFlashBackups now t) : b ∈ t.flashBackups :=
  mem_of_mem_filter ((orderBy_perm _ _).mem_iff.mp (mem_of_mem_take h))

theorem pending_unique (h : UniqueKey (·.id) t.flashBackups) :
    UniqueKey (·.id) (pendingFlashBackups now t) := by
  have hsel : UniqueKey (·.id) (orderBy (·.updatedAt) (t.flashBackups.filter fun b =>
      b.deletedAt.all fun deleted => decide (now < deleted + tombstoneTime))) := by
    unfold UniqueKey
    rw [((orderBy_perm _ _).map _).nodup_iff]
    exact h.filter _
  exact hsel.sublist ((take_sublist _ _).map _)

end Calls
end HeteroCloud.Backups
