/-
  File:      Backups/Policies.lean
  Subject:   BACKUP POLICIES (migrations/0023, 0034) and the store calls that write them
             (crates/heterocloud-store/src/flash_operations.rs).

  A scheduler claims the policies that are due for two minutes, and gives them back when it is done
  with them. Each call is one statement, made at the time its transaction began.

  * `Change`, `Changes` -- what a call does to a row and to the table: a row is edited, claimed or
    finished, and each of these leaves a time on it that no other call leaves.
-/
import HeteroCloud.Backups.Store

namespace HeteroCloud.Backups

open Base Iam Services List
open Store (StoreError)

/-! ## 1. Rows -/

/-- In microseconds. -/
def second : Time := 1000000

/-- Two minutes. -/
def leaseTime : Time := 120 * second

/-- `flash_backup_policies`. -/
structure FlashBackupPolicy where
  serviceInstanceId : Uuid
  organizationId : Uuid
  principalId : Uuid
  enabled : Bool
  intervalSeconds : Nat
  retentionCount : Nat
  verifyRestore : Bool
  destinationId : Option Uuid
  nextRunAt : Time
  lastRunAt : Option Time := none
  lastBackupId : Option Uuid := none
  lastError : Option String := none
  leaseUntil : Option Time := none
  updatedAt : Time
  deriving DecidableEq

variable (p : FlashBackupPolicy)

/-- What retention goes by. -/
def FlashBackupPolicy.retention : BackupPolicy :=
  ⟨p.serviceInstanceId, p.organizationId, p.retentionCount, p.verifyRestore, p.destinationId⟩

structure BackupPolicyInput where
  enabled : Bool
  intervalSeconds : Int
  retentionCount : Int
  verifyRestore : Bool
  destinationId : Option Uuid

/-! ## 2. Calls -/

/-- The arguments of `put_flash_backup_policy`. -/
structure PolicyEdit where
  organization : Uuid
  service : Uuid
  principal : Uuid
  input : BackupPolicyInput

variable (q : PolicyEdit)

def PolicyEdit.outOfRange : Bool :=
  !(3600 ≤ q.input.intervalSeconds && q.input.intervalSeconds ≤ 604800) ||
    !(1 ≤ q.input.retentionCount && q.input.retentionCount ≤ 8)

/-- The checks made before the statement. -/
def PolicyEdit.check (t : Tables) : Option StoreError :=
  if q.outOfRange then
    some (.requestRejected
      "Backup interval must be 1 hour to 7 days and retention 1 to 8 generations.")
  else if q.input.destinationId.any fun id => !t.destinationReady q.organization id then
    some (.requestRejected "Backup destination is not ready.")
  else none

variable (now : Time)

def PolicyEdit.policy : FlashBackupPolicy where
  serviceInstanceId := q.service
  organizationId := q.organization
  principalId := q.principal
  enabled := q.input.enabled
  intervalSeconds := q.input.intervalSeconds.toNat
  retentionCount := q.input.retentionCount.toNat
  verifyRestore := q.input.verifyRestore
  destinationId := q.input.destinationId
  nextRunAt := now
  updatedAt := now

/-- The row on a conflict. -/
def PolicyEdit.edit (p : FlashBackupPolicy) : FlashBackupPolicy :=
  { p with
    principalId := q.principal
    enabled := q.input.enabled
    intervalSeconds := q.input.intervalSeconds.toNat
    retentionCount := q.input.retentionCount.toNat
    verifyRestore := q.input.verifyRestore
    destinationId := q.input.destinationId
    updatedAt := now }

/-- The statement of `put_flash_backup_policy`; a destination has to be one of the organization. -/
def putFlashBackupPolicy (q : PolicyEdit) (t : Tables) (ps : List FlashBackupPolicy) : Except
    StoreError (List FlashBackupPolicy) :=
  match t.source q.organization q.service with
  | none => .error .notFound
  | some _ =>
    if q.input.destinationId.any fun id => !t.destinations.any fun d =>
        d.organizationId == q.organization && d.id == id then
      .error (.sql false)
    else if ps.any (·.serviceInstanceId == q.service) then
      .ok (updateWhere (·.serviceInstanceId == q.service) (q.edit now) ps)
    else .ok (ps ++ [q.policy now])

/-- No lease, or an expired one. -/
def FlashBackupPolicy.free : Bool :=
  p.leaseUntil.all (· < now)

/-- `run_flash_backup_policy_now`. -/
def runFlashBackupPolicyNow (organization service : Uuid) (ps : List FlashBackupPolicy) : Except
    StoreError (List FlashBackupPolicy) :=
  let sel (p : FlashBackupPolicy) :=
    p.organizationId == organization && p.serviceInstanceId == service && p.enabled && p.free now
  if ps.any sel then
    .ok (updateWhere sel (fun p => { p with nextRunAt := now, updatedAt := now }) ps)
  else .error .conflict

/-- The policies to run. -/
def FlashBackupPolicy.due (t : Tables) : Bool :=
  p.enabled && decide (p.nextRunAt ≤ now) && p.free now &&
    t.services.any fun s => s.id == p.serviceInstanceId && s.state != .deleting

def FlashBackupPolicy.lease : FlashBackupPolicy :=
  { p with leaseUntil := some (now + leaseTime) }

variable (skip : List Uuid)

/-- The services whose policies are claimed; those of `skip` are locked by other statements. -/
def dueServices (t : Tables) (ps : List FlashBackupPolicy) : List Uuid :=
  ((orderBy (·.nextRunAt) (ps.filter fun p =>
    p.due now t && !skip.contains p.serviceInstanceId)).take 4).map (·.serviceInstanceId)

/-- `claim_backup_policies`: the table and the rows returned. -/
def claimBackupPolicies (t : Tables) (ps : List FlashBackupPolicy) : List FlashBackupPolicy × List
    FlashBackupPolicy :=
  let sel (p : FlashBackupPolicy) := (dueServices now skip t ps).contains p.serviceInstanceId
  (updateWhere sel (·.lease now) ps, (ps.filter sel).map (·.lease now))

/-- The row is as the scheduler has claimed it. -/
def FlashBackupPolicy.current (policy p : FlashBackupPolicy) : Bool :=
  p.serviceInstanceId == policy.serviceInstanceId &&
    (p.leaseUntil.isSome && p.leaseUntil == policy.leaseUntil) &&
    p.principalId == policy.principalId && p.updatedAt == policy.updatedAt

def FlashBackupPolicy.finish (backup : Option Uuid) (error : Option String) : FlashBackupPolicy :=
  { p with
    leaseUntil := none
    lastRunAt := some now
    lastBackupId := backup.orElse fun _ => p.lastBackupId
    lastError := error
    nextRunAt := now + second *
      (if error.isNone then p.intervalSeconds else min p.intervalSeconds 900)
    updatedAt := now }

/-- `finish_backup_policy`. -/
def finishBackupPolicy (policy : FlashBackupPolicy) (backup : Option Uuid) (error : Option String)
    (ps : List FlashBackupPolicy) : List FlashBackupPolicy :=
  updateWhere policy.current (·.finish now backup error) ps

/-! ## 3. What a call does -/

variable (mine : Option FlashBackupPolicy)

/-- What becomes of a row in a call made at `now`, which finishes `mine` if anything. -/
inductive Change (p p' : FlashBackupPolicy) :
    Prop where
  | same (h : p' = p)
  | edited (lease : p'.leaseUntil = p.leaseUntil) (updated : p'.updatedAt = now)
  | claimed (free : p.free now = true) (lease : p'.leaseUntil = some (now + leaseTime))
  | finished (policy : FlashBackupPolicy) (h : mine = some policy)
      (service : policy.serviceInstanceId = p.serviceInstanceId)
      (held : p.leaseUntil = policy.leaseUntil) (lease : p'.leaseUntil = none)
      (updated : p'.updatedAt = now)

/-- A row that is changed, with the columns that are not. -/
structure Becomes (p p' : FlashBackupPolicy) :
    Prop where
  service : p'.serviceInstanceId = p.serviceInstanceId
  organization : p'.organizationId = p.organizationId
  updated : p'.updatedAt = p.updatedAt ∨ p'.updatedAt = now
  change : Change now mine p p'

/-- What becomes of the table; a new policy is one of the service's organization. -/
structure Changes (home : Uuid → Uuid) (now : Time) (mine : Option FlashBackupPolicy)
    (ps ps' : List FlashBackupPolicy) : Prop where
  kept : ∀ p ∈ ps, ∃ p' ∈ ps', Becomes now mine p p'
  origin : ∀ p' ∈ ps', (∃ p ∈ ps, Becomes now mine p p') ∨
    (p'.leaseUntil = none ∧ p'.updatedAt = now ∧ home p'.serviceInstanceId = p'.organizationId)
  unique : UniqueKey (·.serviceInstanceId) ps → UniqueKey (·.serviceInstanceId) ps'

section Calls
variable {home : Uuid → Uuid} {now : Time} {mine : Option FlashBackupPolicy}
  {ps ps' : List FlashBackupPolicy} {p p' : FlashBackupPolicy} {t : Tables}

theorem Becomes.refl (now : Time) (mine : Option FlashBackupPolicy) (p : FlashBackupPolicy) :
    Becomes now mine p p :=
  ⟨rfl, rfl, .inl rfl, .same rfl⟩

theorem Changes.update {sel : FlashBackupPolicy → Bool} {f : FlashBackupPolicy → FlashBackupPolicy}
    (hf : ∀ p ∈ ps, sel p = true → Becomes now mine p (f p))
    (hid : ∀ p, (f p).serviceInstanceId = p.serviceInstanceId) :
    Changes home now mine ps (updateWhere sel f ps) where
  kept p hp := by
    refine ⟨_, mem_map_of_mem hp, ?_⟩
    by_cases hs : sel p = true
    · rw [if_pos hs]
      exact hf p hp hs
    · rw [if_neg hs]
      exact Becomes.refl now mine p
  origin p' hp' := by
    obtain ⟨p, hp, ⟨hs, rfl⟩ | ⟨_, rfl⟩⟩ := mem_updateWhere hp'
    · exact .inl ⟨p, hp, hf p hp hs⟩
    · exact .inl ⟨p', hp, Becomes.refl now mine p'⟩
  unique hu := hu.update hid

/-- Policies stay in their organizations. -/
theorem Changes.organizations (h : Changes home now mine ps ps')
    (hps : ∀ p ∈ ps, home p.serviceInstanceId = p.organizationId) :
    ∀ p ∈ ps', home p.serviceInstanceId = p.organizationId := by
  intro p' hp'
  rcases h.origin p' hp' with ⟨p, hp, hb⟩ | ⟨_, _, hhome⟩
  · rw [hb.service, hb.organization]
    exact hps p hp
  · exact hhome

theorem put_changes {q : PolicyEdit} (mine : Option FlashBackupPolicy) (hi : t.Inv home)
    (h : putFlashBackupPolicy now q t ps = .ok ps') : Changes home now mine ps ps' := by
  unfold putFlashBackupPolicy at h
  split at h
  · cases h
  rename_i source hsource
  split at h
  · cases h
  split at h
  · cases h
    exact Changes.update (fun p _ _ => ⟨rfl, rfl, .inr rfl, .edited rfl rfl⟩) fun _ => rfl
  rename_i hnone
  cases h
  refine ⟨fun p hp => ⟨p, mem_append_left _ hp, Becomes.refl now mine p⟩, fun p' hp' => ?_,
    fun hu => hu.insert fun p hp he => hnone ?_⟩
  · rcases mem_append.mp hp' with hold | hnew
    · exact .inl ⟨p', hold, Becomes.refl now mine p'⟩
    obtain ⟨hmem, hid, ho⟩ :=
      @source_some t q.organization q.service source.1 source.2 hsource
    have hhome : home q.service = q.organization := by
      rw [← hid, ← ho]
      exact hi.servicesHome _ hmem
    rw [mem_singleton.mp hnew]
    exact .inr ⟨rfl, rfl, hhome⟩
  · exact any_eq_true.mpr ⟨p, hp, beq_iff_eq.mpr he⟩

theorem runNow_changes {organization service : Uuid} (mine : Option FlashBackupPolicy)
    (h : runFlashBackupPolicyNow now organization service ps = .ok ps') :
    Changes home now mine ps ps' := by
  unfold runFlashBackupPolicyNow at h
  dsimp only at h
  split at h
  · cases h
    exact Changes.update (fun p _ _ => ⟨rfl, rfl, .inr rfl, .edited rfl rfl⟩) fun _ => rfl
  · cases h

/-- The policies claimed are free. -/
theorem dueServices_free {skip : List Uuid} (hu : UniqueKey (·.serviceInstanceId) ps)
    (hp : p ∈ ps) (h : (dueServices now skip t ps).contains p.serviceInstanceId = true) :
    p.free now = true := by
  rw [contains_iff_mem] at h
  obtain ⟨p', hp', he⟩ := mem_map.mp h
  have hp' := (orderBy_perm _ _).mem_iff.mp (mem_of_mem_take hp')
  obtain ⟨hmem, hdue⟩ := mem_filter.mp hp'
  rw [hu.eq hmem hp he] at hdue
  simp only [FlashBackupPolicy.due, Bool.and_eq_true] at hdue
  exact hdue.1.1.2

theorem claim_changes {skip : List Uuid} (mine : Option FlashBackupPolicy)
    (hu : UniqueKey (·.serviceInstanceId) ps) :
    Changes home now mine ps (claimBackupPolicies now skip t ps).1 :=
  Changes.update
    (fun _ hp hs => ⟨rfl, rfl, .inl rfl, .claimed (dueServices_free hu hp hs) rfl⟩) fun _ => rfl

/-- A row that is returned is in the table, with its new lease. -/
theorem claimed_mem {skip : List Uuid} (hp : p ∈ (claimBackupPolicies now skip t ps).2) :
    p.leaseUntil = some (now + leaseTime) ∧ p ∈ (claimBackupPolicies now skip t ps).1 ∧
      ∃ q ∈ ps, p = q.lease now := by
  obtain ⟨q, hq, rfl⟩ := mem_map.mp hp
  obtain ⟨hmem, hsel⟩ := mem_filter.mp hq
  refine ⟨rfl, ?_, q, hmem, rfl⟩
  have h := mem_map_of_mem (f := fun a =>
    if (dueServices now skip t ps).contains a.serviceInstanceId then a.lease now else a) hmem
  rwa [if_pos hsel] at h

theorem claimed_unique {skip : List Uuid} (hu : UniqueKey (·.serviceInstanceId) ps) :
    UniqueKey (·.serviceInstanceId) (claimBackupPolicies now skip t ps).2 :=
  (hu.filter _).map fun _ => rfl

theorem finish_changes (policy : FlashBackupPolicy) (backup : Option Uuid)
    (error : Option String) :
    Changes home now (some policy) ps (finishBackupPolicy now policy backup error ps) := by
  refine Changes.update (fun p _ hs => ?_) fun _ => rfl
  simp only [FlashBackupPolicy.current, Bool.and_eq_true, beq_iff_eq] at hs
  exact ⟨rfl, rfl, .inr rfl, .finished policy rfl hs.1.1.1.symm hs.1.1.2.2 rfl rfl⟩

/-- The table a statement that selects no row leaves. -/
theorem finish_none {policy : FlashBackupPolicy} (backup : Option Uuid) (error : Option String)
    (h : ∀ p ∈ ps, policy.current p = false) :
    finishBackupPolicy now policy backup error ps = ps := by
  unfold finishBackupPolicy updateWhere
  refine (map_congr_left fun p hp => ?_).trans (map_id ps)
  rw [h p hp]
  rfl

end Calls
end HeteroCloud.Backups
