/-
  File:      Services/Owners.lean
  Subject:   THE OWNERS OF ALLOCATIONS: whose limits a service counts against.

  A member's own limits and services without an owner exclude each other. `createMember` refuses a
  service without an owner where a member has limits, `setMemberQuota` refuses limits where a
  service has no owner; both are checked under the lock of the account, held to the commit.
-/
import HeteroCloud.Services.Checks

namespace HeteroCloud.Services

open Base Iam List
open Store (ServiceInstanceState StoreError)

/-! ## 1. What is checked -/

variable (d : Db) (organization : Uuid)

/-- No member of the account has limits. -/
def NoMemberQuota : Prop :=
  ∀ q ∈ d.memberQuotas, q.organizationId ≠ organization

/-- Every service of the account that needs an owner has one. -/
def AllAssigned : Prop :=
  ∀ s ∈ d.serviceInstances, s.organizationId = organization → s.unassigned = false

variable (w : View)

/-- The user was a member of the account in a state passed. -/
def WasMember (organization user : Uuid) : Prop :=
  ∃ σ ∈ w.seen, σ.db.isMember organization user = true

/-- The owner a service is created with. -/
structure OwnerOk (organization : Uuid) (provider : Provider)
    (owner : Option Uuid) : Prop where
  member : ∀ user, owner = some user → WasMember w organization user
  none : owner = none → provider.counted = true → NoMemberQuota d organization

variable (u : Setup)

/-- What a change of limits has checked. -/
def LimitOk (d : Db) (w : View) (held : Locks) : QuotaOp → Prop
  | .setMember organization _ (some _) => Tenancy u organization held ∧ AllAssigned d organization
  | .assign organization _ user _ => WasMember w organization user
  | _ => True

/-- A service under creation. -/
def NewOk (d : Db) (w : View) (held : Locks) (ch : Change) : Prop :=
  ch.kind = .create → Tenancy u ch.organizationId held ∧
    OwnerOk d w ch.organizationId ch.requested.provider ch.quotaUserId

/-- **What is known of owners** at each point. -/
def Owning (d : Db) (w : View) (_ : Nat) (r : Running Key Write Call) : Prop :=
  match r.call with
  | .createExisting n | .createOwner n | .createMember n _ => Tenancy u n.organizationId r.held
  | .createBackup n owner => Tenancy u n.organizationId r.held ∧
      OwnerOk d w n.organizationId n.spec.provider owner
  | .createLock ch | .updateProject ch | .flashAccess ch | .prepare ch | .cloudAllocation ch _
  | .memberAllocation ch _ | .attach ch _ | .writeService ch _ | .requestUser ch _
  | .writeRequest ch _ | .changeEvent ch _ | .changeCommit ch _ => NewOk u d w r.held ch
  | .enqueueAccounts op _ | .enqueueScan op _ | .enqueueEvents op _ _ | .quotaCommit op =>
      LimitOk u d w r.held op
  | _ => True

def Stage.owning : Stage → Bool
  | .createExisting | .createOwner | .createMember | .createBackup | .createLock
  | .updateProject | .flashAccess | .prepare | .cloudAllocation | .memberAllocation | .attach
  | .writeService | .requestUser | .writeRequest | .changeEvent | .changeCommit | .enqueueAccounts
  | .enqueueScan | .enqueueEvents | .quotaCommit => true
  | _ => false

section Annotation
variable {u : Setup} {d : Db} {w w' : View} {e : Event Db Key Write Call} {uuid : Nat → Nat}
  {i : Nat} {r : Running Key Write Call} {o : Statement} {ch : Change} {spec : ServiceSpec}
  {held held' others : Locks} {x : Write} {organization user : Uuid} {provider : Provider}
  {owner : Option Uuid} {op : QuotaOp}

/-! ## 2. It stays so -/

theorem WasMember.mono (hw : w.Grows d w') (h : WasMember w organization user) :
    WasMember w' organization user := by
  obtain ⟨σ, hσ, hm⟩ := h
  exact ⟨σ, hw.seen σ hσ, hm⟩

theorem WasMember.now (hk : Known ids d w) (h : d.isMember organization user = true) :
    WasMember w organization user := by
  obtain ⟨σ, hσ, rfl⟩ := hk.here
  exact ⟨σ, hσ, h⟩

theorem mem_memberQuotas {q : MemberResourceQuotaRow} (h : q ∈ (x.apply d).memberQuotas) :
    q ∈ d.memberQuotas ∨ ∃ limits, x = .setMemberQuota q.organizationId q.userId (some limits) := by
  cases x with
  | setMemberQuota _ _ limits =>
    rcases mem_append.mp h with h | h
    · exact .inl (mem_of_mem_filter h)
    cases limits with
    | none => cases h
    | some limits =>
      rw [mem_singleton.mp h]
      exact .inr ⟨limits, rfl⟩
  | _ => exact .inl h

theorem NoMemberQuota.commit (hx : Foreign (guards u) held x)
    (hl : TenantLocked u organization held) (h : NoMemberQuota d organization) :
    NoMemberQuota (x.apply d) organization := by
  rintro q hq rfl
  rcases mem_memberQuotas hq with hq | ⟨limits, rfl⟩
  · exact h q hq rfl
  have hneed : Key.allocations q.organizationId ∈
      (Write.setMemberQuota q.organizationId q.userId (some limits)).needs u := allocations_key
  exact hx.free _ hneed .exclusive (hl _ allocations_key)

theorem unassigned_scoped {s : ServiceRow} (h : s.unassigned = true) :
    s.provider.scoped = true := by
  unfold ServiceRow.unassigned at h
  cases hp : s.provider with
  | vpc | other => simp [hp, Provider.counted] at h
  | _ => rfl

theorem reported_unassigned {s s' : ServiceRow} (h : s.Reported s') :
    s'.unassigned = s.unassigned := by
  have hprovider := h.same.provider
  have howner : s'.quotaUserId = s.quotaUserId := by
    rw [h.row]
    rfl
  unfold ServiceRow.unassigned
  rw [howner, hprovider, h.live]

theorem AllAssigned.commit (hx : Foreign (guards u) held x)
    (hl : TenantLocked u organization held) (h : AllAssigned d organization) :
    AllAssigned (x.apply d) organization := by
  intro s hs horg
  by_contra hun
  have hun : s.unassigned = true := Bool.not_eq_false _ ▸ hun
  have hmean : Meanwhile u held d (x.apply d) := (Drift.here d).write hx
  obtain ⟨s₀, hs₀, hrep⟩ := scoped_origin hl hmean s hs horg (unassigned_scoped hun)
  have hfalse := h s₀ hs₀ (hrep.same.organization.symm.trans horg)
  rw [reported_unassigned hrep, hfalse] at hun
  cases hun

theorem OwnerOk.mono (hw : w.Grows d w') (h : OwnerOk d w organization provider owner) :
    OwnerOk d w' organization provider owner :=
  ⟨fun user hu => (h.member user hu).mono hw, h.none⟩

theorem OwnerOk.commit (hx : Foreign (guards u) held x) (hl : TenantLocked u organization held)
    (h : OwnerOk d w organization provider owner) :
    OwnerOk (x.apply d) w organization provider owner :=
  ⟨h.member, fun hnone hc => (h.none hnone hc).commit hx hl⟩

theorem NewOk.mono (hw : w.Grows d w') (h : NewOk u d w held ch) : NewOk u d w' held ch :=
  fun hk => ⟨(h hk).1, (h hk).2.mono hw⟩

theorem NewOk.more (hs : ∀ l ∈ held, l ∈ held') (h : NewOk u d w held ch) :
    NewOk u d w held' ch :=
  fun hk => ⟨fun l hl => hs l ((h hk).1 l hl), (h hk).2⟩

theorem NewOk.commit (hx : Foreign (guards u) held x) (h : NewOk u d w held ch) :
    NewOk u (x.apply d) w held ch :=
  fun hk => ⟨(h hk).1, (h hk).2.commit hx (h hk).1.locked⟩

theorem LimitOk.mono (hw : w.Grows d w') (h : LimitOk u d w held op) : LimitOk u d w' held op := by
  cases op with
  | setMember _ _ limits => cases limits <;> exact h
  | assign organization _ user =>
    have h : WasMember w organization user := h
    exact h.mono hw
  | _ => exact trivial

theorem LimitOk.more (hs : ∀ l ∈ held, l ∈ held') (h : LimitOk u d w held op) :
    LimitOk u d w held' op := by
  cases op with
  | setMember _ _ limits =>
    cases limits with
    | none => exact trivial
    | some => exact ⟨fun l hl => hs l (h.1 l hl), h.2⟩
  | assign => exact h
  | _ => exact trivial

theorem LimitOk.commit (hx : Foreign (guards u) held x) (h : LimitOk u d w held op) :
    LimitOk u (x.apply d) w held op := by
  cases op with
  | setMember _ _ limits =>
    cases limits with
    | none => exact trivial
    | some => exact ⟨h.1, h.2.commit hx h.1.locked⟩
  | assign => exact h
  | _ => exact trivial

theorem owning_apart (h : r.call.stage.owning = false) : Owning u d w i r := by
  obtain ⟨call, held, pending, began⟩ := r
  cases call with
  | createExisting | createOwner | createMember | createBackup | createLock | updateProject
  | flashAccess | prepare | cloudAllocation | memberAllocation | attach | writeService | requestUser
  | writeRequest | changeEvent | changeCommit | enqueueAccounts | enqueueScan | enqueueEvents
  | quotaCommit => cases h
  | _ => exact trivial

theorem owning_mono (hw : w.Grows d w') (h : Owning u d w i r) : Owning u d w' i r := by
  obtain ⟨call, held, pending, began⟩ := r
  cases call with
  | createExisting | createOwner | createMember => exact h
  | createBackup => exact ⟨h.1, h.2.mono hw⟩
  | createLock ch | updateProject ch | flashAccess ch | prepare ch | cloudAllocation ch
  | memberAllocation ch | attach ch | writeService ch | requestUser ch | writeRequest ch
  | changeEvent ch | changeCommit ch =>
    have h : NewOk u d w held ch := h
    exact h.mono hw
  | enqueueAccounts op | enqueueScan op | enqueueEvents op | quotaCommit op =>
    have h : LimitOk u d w held op := h
    exact h.mono hw
  | _ => exact trivial

theorem owning_commit (hx : Committed (guards u) w others x) (hc : Compatible others r.held)
    (h : Owning u d w i r) : Owning u (x.apply d) w i r := by
  obtain ⟨call, held, pending, began⟩ := r
  have hf : Foreign (guards u) held x := hx.foreign hc fun _ hl => hl
  cases call with
  | createExisting | createOwner | createMember => exact h
  | createBackup => exact ⟨h.1, h.2.commit hf h.1.locked⟩
  | createLock ch | updateProject ch | flashAccess ch | prepare ch | cloudAllocation ch
  | memberAllocation ch | attach ch | writeService ch | requestUser ch | writeRequest ch
  | changeEvent ch | changeCommit ch =>
    have h : NewOk u d w held ch := h
    exact h.commit hf
  | enqueueAccounts op | enqueueScan op | enqueueEvents op | quotaCommit op =>
    have h : LimitOk u d w held op := h
    exact h.commit hf
  | _ => exact trivial

/-! ## 3. Statements -/

abbrev ReachesOwning (u : Setup) := Reaches (program u) (Owning u)

theorem owning_abort (error : StoreError) : ReachesOwning u d w e uuid i r (abort error) :=
  trivial

variable {n : NewService}

theorem createExisting_owning (h : Tenancy u n.organizationId r.held) : ReachesOwning u d w e uuid i
    r (createExisting d n) := by
  unfold createExisting
  split
  · split_ifs
    · exact owning_abort _
    · exact fun _ _ => trivial
  · exact h

theorem createOwner_owning (h : Tenancy u n.organizationId r.held) : ReachesOwning u d w e uuid i r
    (createOwner d n) := by
  unfold createOwner
  split
  · exact owning_abort _
  · exact h

variable (hr : Ready (guards u) Inv d w e uuid i r)
include hr

theorem createMember_owning (h : Tenancy u n.organizationId r.held) : ReachesOwning u d w e uuid i r
    (createMember d n owner) := by
  unfold createMember
  split
  · rename_i user
    split_ifs with hmember
    · refine ⟨h, ?_, fun hnone => absurd hnone (Option.some_ne_none user)⟩
      rintro _ ⟨⟩
      exact (WasMember.now hr.known hmember).mono (hr.known.grows e _)
    · exact owning_abort _
  · split_ifs with hquota
    · exact owning_abort _
    refine ⟨h, fun user hu => absurd hu.symm (Option.some_ne_none user),
      fun _ hcounted q hq horg => hquota ?_⟩
    rw [hcounted, Bool.true_and]
    exact any_eq_true.mpr ⟨q, hq, beq_iff_eq.mpr horg⟩

theorem createBackup_owning (h : Tenancy u n.organizationId r.held) (ho : OwnerOk d w
    n.organizationId n.spec.provider owner) : ReachesOwning u d w e uuid i r (createBackup d n
    owner) := by
  have hnext : ReachesOwning u d w e uuid i r (.stmt [] [] (.createLock (n.change owner))) :=
    fun _ => ⟨h, ho.mono (hr.known.grows e _)⟩
  unfold createBackup
  split
  · split_ifs
    · exact hnext
    · exact owning_abort _
  · exact hnext

omit hr

theorem begin_owning {locks : Locks} {writes : List Write}
    (h : NewOk u d (Then u w e uuid) (locks ++ r.held) ch) :
    ReachesOwning u d w e uuid i r (.stmt locks writes ch.begin) := by
  unfold Change.begin
  split
  · exact h
  · exact h

variable {view : Db}

theorem updateExisting_owning {q : ServiceUpdate} : ReachesOwning u d w e uuid i r (updateExisting
    view q) := by
  unfold updateExisting
  split
  · exact owning_abort _
  split_ifs
  · exact owning_abort _
  · exact owning_abort _
  · exact fun hkind => ChangeKind.noConfusion hkind

theorem writeService_owning (h : NewOk u d (Then u w e uuid) r.held ch) : ReachesOwning u d w e uuid
    i r (writeService view ch spec) := by
  have hnext {locks : Locks} {writes : List Write} :
      ReachesOwning u d w e uuid i r (.stmt locks writes (ch.afterRow spec)) := by
    unfold Change.afterRow
    split_ifs
    · exact h.more (held_more _)
    · exact h.more (held_more _)
  unfold writeService
  dsimp only
  split_ifs
  · exact owning_abort _
  · exact owning_abort _
  · exact owning_abort _
  · exact owning_abort _
  · exact hnext
  · exact hnext

theorem switchExisting_owning {q : FlashSwitch} : ReachesOwning u d w e uuid i r (switchExisting
    view q) := by
  unfold switchExisting
  split
  · exact owning_abort _
  rename_i s hs
  have hkind : (q.change s).kind ≠ .create := by
    unfold FlashSwitch.change
    split_ifs
    · exact ChangeKind.noConfusion
    · exact ChangeKind.noConfusion
  split
  · exact owning_abort _
  split
  · exact fun _ _ => trivial
  split_ifs with hq
  · exact fun hcreate => absurd hcreate hkind
  · exact begin_owning fun hcreate => absurd hcreate hkind

theorem setMemberQuota_owning {limits : Option ResourceQuotaLimits}
    (h : Tenancy u organization r.held) :
    ReachesOwning u d w e uuid i r
      (setMemberQuota d (.setMember organization user limits) organization user limits) := by
  unfold setMemberQuota
  dsimp only
  refine reaches_check owning_abort fun _ _ => ?_
  split
  · exact owning_abort _
  split
  · exact trivial
  refine reaches_check owning_abort fun own hown => ?_
  split
  · exact owning_abort _
  rename_i hassigned
  have hall : AllAssigned d organization := by
    intro s hs horg
    by_contra hun
    refine hassigned ?_
    rw [Bool.or_eq_true, any_eq_true]
    exact .inl ⟨s, hs, by simp [horg, Bool.not_eq_false _ ▸ hun]⟩
  split
  · exact owning_abort _
  split
  · exact owning_abort _
  split
  · exact owning_abort _
  · exact ⟨h, hall⟩

include hr

theorem assignQuotaResource_owning {resource : Uuid} {serviceAccount : Bool} : ReachesOwning u d w e
    uuid i r (assignQuotaResource d (.assign organization resource user serviceAccount) organization
    resource user serviceAccount) := by
  unfold assignQuotaResource
  split
  · exact owning_abort _
  rename_i hmember
  have hwas : WasMember (Then u w e uuid) organization user := by
    refine (WasMember.now hr.known ?_).mono (hr.known.grows e _)
    simpa using hmember
  split
  · split
    · exact owning_abort _
    · exact hwas
  · split
    · exact owning_abort _
    · exact hwas

theorem quotaWrite_owning (h : ∀ l ∈ op.locks u, l ∈ r.held) : ReachesOwning u d w e uuid i r
    (quotaWrite u d uuid op) := by
  unfold quotaWrite
  split
  · exact trivial
  · split_ifs
    · exact trivial
    · exact owning_abort _
  · split_ifs
    · exact reaches_check owning_abort fun _ _ => trivial
    · exact owning_abort _
  · exact setMemberQuota_owning h
  · exact assignQuotaResource_owning hr
  · exact trivial
  · unfold createCloudMemberAccount
    split
    · exact owning_abort _
    split_ifs
    · exact owning_abort _
    · exact owning_abort _
    · exact trivial
  · exact trivial

omit hr

/-- **Every statement leads to a point at which this is known.** -/
theorem exec_owning (h : Ready (guards u) Inv d w e uuid i r) (hA : At u d w i r)
    (hB : Owning u d w i r)
    (ho : exec u w.clock (r.began.getD w.clock) uuid ((program u).view r d) r.call = some o) :
    ReachesOwning u d w e uuid i r o := by
  obtain ⟨_, hA⟩ := hA
  obtain ⟨call, held, pending, began⟩ := r
  have hview (hp : pending = []) : (program u).view ⟨call, held, pending, began⟩ d = d :=
    view_none hp
  have hg : w.Grows d (Then u w e uuid) := h.known.grows e _
  have hnew {ch : Change} (hn : NewOk u d w held ch) : NewOk u d (Then u w e uuid) held ch :=
    hn.mono hg
  cases call with
  | createServiceInstance =>
    cases ho
    exact fun l hl => mem_append_left _ hl
  | createExisting => cases ho; rw [hview hA]; exact createExisting_owning hB
  | createOwner => cases ho; rw [hview hA]; exact createOwner_owning hB
  | createMember => cases ho; rw [hview hA]; exact createMember_owning h hB
  | createBackup => cases ho; rw [hview hA]; exact createBackup_owning h hB.1 hB.2
  | createLock => cases ho; exact begin_owning ((hnew hB).more (held_more _))
  | updateExisting => cases ho; exact updateExisting_owning
  | updateProject =>
    cases ho
    unfold updateProject
    split_ifs
    · exact begin_owning (hnew hB)
    · exact owning_abort _
  | switchExisting => cases ho; exact switchExisting_owning
  | flashAccess =>
    cases ho
    unfold flashAccess
    refine reaches_check owning_abort fun _ _ => ?_
    split
    · exact reaches_check owning_abort fun _ _ => hnew hB
    · exact hnew hB
  | prepare | cloudAllocation => cases ho; exact reaches_check owning_abort fun _ _ => hnew hB
  | memberAllocation =>
    cases ho
    unfold memberAllocation
    split
    · exact hnew hB
    · exact reaches_check owning_abort fun _ _ => hnew hB
  | attach =>
    cases ho
    unfold attach
    split
    · refine reaches_check owning_abort fun _ _ => reaches_check owning_abort fun _ _ => ?_
      exact (hnew hB).more (held_more _)
    · exact hnew hB
  | writeService => cases ho; exact writeService_owning (hnew hB)
  | requestUser =>
    cases ho
    unfold requestUser
    split
    · exact owning_abort _
    · exact hnew hB
  | writeRequest =>
    cases ho
    unfold writeRequest
    split_ifs
    · exact (hnew hB).more (held_more _)
    · exact owning_abort _
  | changeEvent => cases ho; exact (hnew hB).more (held_more _)
  | quotaWrite => cases ho; rw [hview hA.1]; exact quotaWrite_owning h hA.2.1
  | enqueueAccounts op =>
    cases ho
    have hB : LimitOk u d w held op := hB
    exact hB.mono hg
  | enqueueScan op scopes =>
    cases ho
    have hB : LimitOk u d w held op := hB
    cases scopes with
    | nil | cons => exact hB.mono hg
  | enqueueEvents op rows =>
    cases ho
    have hB : LimitOk u d w held op := hB
    cases rows with
    | nil => exact hB.mono hg
    | cons => exact (hB.mono hg).more (held_more _)
  | _ => exact reaches_quiet Stage.owning owning_apart (by rfl) ho

theorem owning : Duties (program u) (guards u) Inv
    (fun d w i r => At u d w i r ∧ Owning u d w i r) :=
  annotate_stages Stage.owning duties owning_apart rfl owning_mono exec_owning
    fun hx hc _ h => owning_commit hx hc h

end Annotation

/-! ## 4. The invariant -/

structure Owned : Prop where
  unowned : ∀ s ∈ d.serviceInstances, s.unassigned = true → NoMemberQuota d s.organizationId
  member : ∀ s ∈ d.serviceInstances, ∀ user, s.quotaUserId = some user →
    WasMember w s.organizationId user
  recorded : ∀ s ∈ d.serviceInstances, ∀ q ∈ d.serviceQuotaOwners, q.serviceInstanceId = s.id →
    q.organizationId = s.organizationId ∧ q.userId = s.quotaUserId

section Invariant
variable {u : Setup} {d : Db} {w w' : View} {e : Event Db Key Write Call} {uuid : Nat → Nat}
  {i : Nat} {r : Running Key Write Call} {c : Call} {held : Locks} {x : Write} {ws : List Write}
  {s old new : ServiceRow}

theorem Owned.mono (hw : w.Grows d w') (h : Owned d w) : Owned d w' :=
  { h with member := fun s hs user hu => (h.member s hs user hu).mono hw }

/-- Only an assignment sets the owner of a row. -/
theorem replaces_owner (hr : x.replaces = some (old, new)) :
    new.quotaUserId = old.quotaUserId ∨ ∃ user, x = .assignService old user := by
  cases x with
  | reportService | changeService | deleteService =>
    cases hr
    exact .inl rfl
  | assignService o user =>
    cases hr
    exact .inr ⟨user, rfl⟩
  | _ => cases hr

/-- **One write keeps the records of owners**, if it replaces a row that is there. -/
theorem recorded_apply (hi : Inv d w) (hx : x.allows)
    (hrow : ∀ old new, x.replaces = some (old, new) → old ∈ d.serviceInstances)
    (h : ∀ s ∈ d.serviceInstances, ∀ q ∈ d.serviceQuotaOwners, q.serviceInstanceId = s.id →
      q.organizationId = s.organizationId ∧ q.userId = s.quotaUserId) :
    ∀ s ∈ (x.apply d).serviceInstances, ∀ q ∈ (x.apply d).serviceQuotaOwners,
      q.serviceInstanceId = s.id →
      q.organizationId = s.organizationId ∧ q.userId = s.quotaUserId := by
  intro s hs q hq hid
  have hkept {old new : ServiceRow} (hs : s ∈ replaceRow old new d.serviceInstances)
      (hq : q ∈ d.serviceQuotaOwners) (hsame : new.id = old.id ∧
        new.organizationId = old.organizationId ∧ new.quotaUserId = old.quotaUserId) :
      q.organizationId = s.organizationId ∧ q.userId = s.quotaUserId := by
    rcases mem_replaceRow hs with hs | ⟨hold, rfl⟩
    · exact h s hs q hq hid
    · rw [hsame.2.1, hsame.2.2]
      exact h old hold q hq (hid.trans hsame.1)
  cases x with
  | insertService n =>
    by_cases hknown : n.id ∈ d.knownServices
    · have hs : s ∈ d.serviceInstances := by
        simpa [Write.apply, Write.onServices, hknown] using hs
      have hq : q ∈ d.serviceQuotaOwners := by
        rw [Db.knownServices] at hknown
        simpa only [Write.apply, Write.onOwners, if_pos hknown] using hq
      exact h s hs q hq hid
    have hs : s ∈ d.serviceInstances ++ [n] := by
      simpa only [Write.apply, Write.onServices, if_neg hknown] using hs
    have hq : q ∈ d.serviceQuotaOwners ++ [n.ownerRow] := by
      rw [Db.knownServices] at hknown
      simpa only [Write.apply, Write.onOwners, if_neg hknown] using hq
    rcases mem_append.mp hs with hs | hs
    · rcases mem_append.mp hq with hq | hq
      · exact h s hs q hq hid
      rw [mem_singleton.mp hq] at hid
      have hid : n.id = s.id := hid
      exact absurd (hid ▸ hi.owned s hs) hknown
    · rw [mem_singleton.mp hs] at hid ⊢
      rcases mem_append.mp hq with hq | hq
      · exact absurd (hid ▸ mem_map_of_mem hq) hknown
      · rw [mem_singleton.mp hq]
        exact ⟨rfl, rfl⟩
  | assignService o =>
    have ho : o ∈ d.serviceInstances := hrow o _ rfl
    obtain ⟨q₀, hq₀, hcase⟩ := mem_updateWhere hq
    rcases replaceRow_cases hs with ⟨hs, hne⟩ | ⟨_, rfl⟩
    · -- another service: its record is not the one assigned
      rcases hcase with ⟨hmatch, rfl⟩ | ⟨_, rfl⟩
      · simp only [Bool.and_eq_true, beq_iff_eq] at hmatch
        exact absurd (hi.services.eq hs ho (hid.symm.trans hmatch.1.1)) hne
      · exact h s hs q hq₀ hid
    · have hid₀ : q₀.serviceInstanceId = o.id := by
        rcases hcase with ⟨_, rfl⟩ | ⟨_, rfl⟩
        · exact hid
        · exact hid
      obtain ⟨horg, huser⟩ := h o ho q₀ hq₀ hid₀
      rw [hx.2] at huser
      rcases hcase with ⟨_, rfl⟩ | ⟨hnot, rfl⟩
      · exact ⟨horg, rfl⟩
      · simp [hid₀, horg, huser] at hnot
  | reportService | changeService | deleteService => exact hkept hs hq ⟨rfl, rfl, rfl⟩
  | removeService => exact h s (mem_of_mem_filter hs) q hq hid
  | _ => exact h s hs q hq hid

/-- The limits of members after a commit. -/
theorem memberQuotas_origin {q : MemberResourceQuotaRow}
    (h : q ∈ (applyAll u ws d).memberQuotas) : q ∈ d.memberQuotas ∨
      ∃ limits, .setMemberQuota q.organizationId q.userId (some limits) ∈ ws := by
  induction ws generalizing d with
  | nil => exact .inl h
  | cons _ _ ih =>
    rcases ih h with h | ⟨limits, h⟩
    · rcases mem_memberQuotas h with h | ⟨limits, rfl⟩
      · exact .inl h
      · exact .inr ⟨limits, mem_cons_self⟩
    · exact .inr ⟨limits, mem_cons_of_mem _ h⟩

/-- What is known of a change about to be committed. -/
theorem owning_change {ch : Change} {spec : ServiceSpec} (hB : Owning u d w i r)
    (hat : r.call = .changeCommit ch spec) : NewOk u d w r.held ch := by
  unfold Owning at hB
  rw [hat] at hB
  exact hB

theorem owning_limits {op : QuotaOp} (hB : Owning u d w i r) (hat : r.call = .quotaCommit op) :
    LimitOk u d w r.held op := by
  unfold Owning at hB
  rw [hat] at hB
  exact hB

/-- The owner of a service after a commit. -/
inductive OwnerFrom (d : Db) (c : Call) (s : ServiceRow) : Prop where
  /-- It is new. -/
  | created (ch : Change) (spec : ServiceSpec) (hc : c = .changeCommit ch spec)
      (hs : s = ch.row spec) (hnew : ch.existing = none)
  /-- It is the one it had. -/
  | kept (s₀ : ServiceRow) (hs : s₀ ∈ d.serviceInstances)
      (horg : s.organizationId = s₀.organizationId) (howner : s.quotaUserId = s₀.quotaUserId)
      (hun : s.unassigned = true → s₀.unassigned = true)
  /-- It is assigned. -/
  | assigned (resource user : Uuid) (serviceAccount : Bool) (howner : s.quotaUserId = some user)
      (hc : c = .quotaCommit (.assign s.organizationId resource user serviceAccount))

theorem replaces_unassigned (hx : x.allows) (hr : x.replaces = some (old, new))
    (howner : new.quotaUserId = old.quotaUserId) (h : new.unassigned = true) :
    old.unassigned = true := by
  have hlive : old.live = true := bne_iff_ne.mpr (replaces_live hx hr)
  have hprovider := (x.replaces_same hx hr).2.2
  unfold ServiceRow.unassigned at h ⊢
  rw [howner, hprovider] at h
  simp only [Bool.and_eq_true] at h ⊢
  exact ⟨⟨h.1.1, hlive⟩, h.2⟩

theorem commit_owner (hP : Pending u d w r.held r.pending) (hA : Point u d w r)
    (hc : r.call.stage.commits = true) (hs : s ∈ ((program u).view r d).serviceInstances) :
    OwnerFrom d r.call s := by
  rcases hP.services with hnone | ⟨x, hx, hallows, happly⟩
  · exact .kept s (hnone ▸ hs) rfl rfl fun h => h
  have horigin := commit_origin hA hc hx
  have hs : s ∈ (x.apply d).serviceInstances := happly ▸ hs
  rcases mem_services hs with ⟨rfl, _⟩ | hs | ⟨old, hold, hr⟩
  · obtain ⟨ch, spec, hat, hex, rfl⟩ := horigin
    exact .created ch spec hat rfl hex
  · exact .kept s hs rfl rfl fun h => h
  rcases replaces_owner hr with howner | ⟨user, rfl⟩
  · exact .kept old hold (x.replaces_same hallows hr).2.1 howner
      (replaces_unassigned hallows hr howner)
  cases hr
  obtain ⟨resource, serviceAccount, hat⟩ := horigin
  exact .assigned resource user serviceAccount rfl hat

/-- **Every commit keeps the invariant.** -/
theorem Owned.commit (h : Ready (guards u) Inv d w e uuid i r)
    (hAB : At u d w i r ∧ Owning u d w i r) (hO : Owned d w)
    (ho : exec u w.clock (r.began.getD w.clock) uuid ((program u).view r d) r.call =
      some (.commit c))
    (w' : View) (hw : w.Grows ((program u).view r d) w') : Owned ((program u).view r d) w' := by
  obtain ⟨⟨hP, hA⟩, hB⟩ := hAB
  have hcommits := exec_commits ho
  refine ⟨?_, ?_, ?_⟩
  · intro s hs hun q hq horg
    rcases memberQuotas_origin hq with hq | ⟨limits, hx⟩
    · -- the limits were there: the service is new, or it was there without an owner
      cases commit_owner hP hA hcommits hs with
      | created ch _ hat hrow hnew =>
        have hch := hA.changing hat
        obtain ⟨_, hok⟩ := owning_change hB hat (hch.locked.kind.mp hnew)
        subst hrow
        simp only [ServiceRow.unassigned, Bool.and_eq_true, Option.isNone_iff_eq_none] at hun
        have hcounted : ch.requested.provider.counted = true := by
          rw [← hch.fitting.provider]
          exact hun.2
        exact hok.none hun.1.1 hcounted q hq horg
      | kept s₀ hs₀ horg₀ _ hun₀ =>
        exact hO.unowned s₀ hs₀ (hun₀ hun) q hq (horg.trans horg₀)
      | assigned _ _ _ howner =>
        simp [ServiceRow.unassigned, howner] at hun
    · -- the limits are set now: every service that needs an owner has one
      have hat : r.call = .quotaCommit (.setMember q.organizationId q.userId (some limits)) :=
        commit_origin hA hcommits hx
      obtain ⟨_, hall⟩ := owning_limits hB hat
      cases commit_owner hP hA hcommits hs with
      | created _ _ hat' => cases hat.symm.trans hat'
      | kept s₀ hs₀ horg₀ _ hun₀ =>
        have hassigned := hall s₀ hs₀ (horg₀.symm.trans horg.symm)
        rw [hun₀ hun] at hassigned
        cases hassigned
      | assigned _ _ _ howner =>
        simp [ServiceRow.unassigned, howner] at hun
  · intro s hs user huser
    cases commit_owner hP hA hcommits hs with
    | created _ _ hat hrow hnew =>
      obtain ⟨_, hok⟩ := owning_change hB hat ((hA.changing hat).locked.kind.mp hnew)
      subst hrow
      exact (hok.member user huser).mono hw
    | kept s₀ hs₀ horg₀ howner =>
      rw [horg₀]
      exact (hO.member s₀ hs₀ user (howner.symm.trans huser)).mono hw
    | assigned _ _ _ howner hat =>
      cases howner.symm.trans huser
      have hwas : WasMember w s.organizationId user := owning_limits hB hat
      exact hwas.mono hw
  · rcases hP.touched with ⟨hservices, howners⟩ | ⟨x, hx, hallows, hservices, howners⟩
    · show ∀ s ∈ (applyAll u r.pending d).serviceInstances,
        ∀ q ∈ (applyAll u r.pending d).serviceQuotaOwners, _
      rw [hservices, howners]
      exact hO.recorded
    · show ∀ s ∈ (applyAll u r.pending d).serviceInstances,
        ∀ q ∈ (applyAll u r.pending d).serviceQuotaOwners, _
      rw [hservices, howners]
      exact recorded_apply h.inv hallows (hP.rows x hx) hO.recorded

theorem owned : Duties (program u) (guards u) (fun d w => Inv d w ∧ Owned d w)
    (fun d w i r => At u d w i r ∧ Owning u d w i r) :=
  owning.keep Owned.mono Owned.commit

theorem Initial.owned {issued : List Nat} (h : Initial d issued) : Owned d w where
  unowned := by simp [h.services]
  member := by simp [h.services]
  recorded := by simp [h.services]

end Invariant

/-! ## 5. Runs -/

/-- No membership ends during the run. Nothing in the repository deletes one; of the surroundings,
which others change, it has to be said. -/
def MembersRemain : List (Event Db Key Write Call) → System Db Key Write Call → Prop
  | [], _ => True
  | e :: past, σ => (∀ m ∈ e.state.db.surroundings.memberships,
      m ∈ σ.db.surroundings.memberships) ∧ MembersRemain past e.state

section Runs
variable {u : Setup} {d : Db} {t : Int} {issued : List Nat}
  {past : List (Event Db Key Write Call)} {σ : System Db Key Write Call} {s : ServiceRow}

theorem MembersRemain.now (h : MembersRemain past σ) {organization user : Uuid}
    (hw : WasMember (σ.world past) organization user) :
    σ.db.isMember organization user = true := by
  have hmem {σ : System Db Key Write Call} : σ.db.isMember organization user = true ↔
      (organization, user) ∈ σ.db.surroundings.memberships := contains_iff_mem
  obtain ⟨σ₀, hσ₀, hm⟩ := hw
  induction past generalizing σ with
  | nil =>
    rw [mem_singleton.mp hσ₀] at hm
    exact hm
  | cons _ _ ih =>
    rcases mem_cons.mp hσ₀ with rfl | hσ₀
    · exact hm
    · exact hmem.mpr (h.1 _ (hmem.mp (ih h.2 hσ₀)))

theorem owned_run (h₀ : Initial d issued)
    (hr : Run (program u) (System.quiet d t issued) past σ) : Owned σ.db (σ.world past) :=
  (owned.outline.run hr ⟨.initial h₀.issued, h₀.inv, h₀.owned⟩).inv.2.2

/-- An owner that is set stays. -/
theorem owner_later (h₀ : Initial d issued)
    (hr : Run (program u) (System.quiet d t issued) past σ) {e : Event Db Key Write Call}
    (he : e ∈ past) (hs : s ∈ e.state.db.serviceInstances) {user : Uuid}
    (huser : s.quotaUserId = some user) :
    ∀ s' ∈ σ.db.serviceInstances, s'.id = s.id → s'.quotaUserId = some user := by
  obtain ⟨before, after, σ₁, hb, hstep, ha, _⟩ := hr.split he
  have hout := outline_run h₀ hb
  obtain ⟨_, hi⟩ := hout.inv
  have hrun : Run (program u) e.state (after ++ [⟨e.state, e.mover⟩]) σ :=
    (Run.start.step hstep).append ha
  have hstart : s.id ∈ e.state.db.knownServices ∧ ∀ s' ∈ e.state.db.serviceInstances,
      s'.id = s.id → s'.quotaUserId = some user := by
    refine ⟨hi.owned s hs, fun s' hs' hid => ?_⟩
    rw [hi.services.eq hs' hs hid]
    exact huser
  have hkeep {d : Db} {w : View} {held : Locks} {x : Write} (hx : Committed (guards u) w held x)
      (h : s.id ∈ d.knownServices ∧ ∀ s' ∈ d.serviceInstances, s'.id = s.id →
        s'.quotaUserId = some user) :
      s.id ∈ (x.apply d).knownServices ∧ ∀ s' ∈ (x.apply d).serviceInstances, s'.id = s.id →
        s'.quotaUserId = some user := by
    refine ⟨owners_stay h.1, fun s' hs' hid => ?_⟩
    rcases mem_services hs' with ⟨_, hnew⟩ | hmem | ⟨old, hold, hreplaces⟩
    · exact absurd (hid ▸ h.1) hnew
    · exact h.2 s' hmem hid
    have hsame := x.replaces_same hx.allowed hreplaces
    have howner := h.2 old hold (hsame.1.symm.trans hid)
    rcases replaces_owner hreplaces with hkept | ⟨user', rfl⟩
    · exact hkept.trans howner
    · cases hreplaces
      cases hx.allowed.2.symm.trans howner
  obtain ⟨_, hq⟩ := duties.later
    (Q := fun d _ => s.id ∈ d.knownServices ∧ ∀ s' ∈ d.serviceInstances, s'.id = s.id →
      s'.quotaUserId = some user) (fun _ h => h) hkeep hout hstart hrun
  exact hq.2

end Runs

/-- **The owners of allocations.** In every state of every run: -/
theorem owners_kept {u : Setup} {d : Db} {t : Int} {issued : List Nat} (h₀ : Initial d issued)
    {past : List (Event Db Key Write Call)} {σ : System Db Key Write Call}
    (hr : Run (program u) (System.quiet d t issued) past σ) (hm : MembersRemain past σ) :
    -- where a member has limits, every Flow, Flash and Syouyu service has a member as its owner
    (∀ q ∈ σ.db.memberQuotas, ∀ s ∈ σ.db.serviceInstances,
      s.organizationId = q.organizationId → s.live = true → s.provider.counted = true →
      ∃ user, s.quotaUserId = some user ∧ σ.db.isMember s.organizationId user = true) ∧
    -- an owner that is set has never changed
    (∀ e ∈ past, ∀ s ∈ e.state.db.serviceInstances, ∀ s' ∈ σ.db.serviceInstances, s'.id = s.id →
      ∀ user, s.quotaUserId = some user → s'.quotaUserId = some user) ∧
    -- and it is the one recorded
    ∀ s ∈ σ.db.serviceInstances, s.id ∈ σ.db.knownServices ∧
      ∀ q ∈ σ.db.serviceQuotaOwners, q.serviceInstanceId = s.id →
        q.organizationId = s.organizationId ∧ q.userId = s.quotaUserId := by
  have hO := owned_run h₀ hr
  refine ⟨fun q hq s hs horg hlive hcounted => ?_,
    fun e he s hs s' hs' hid user huser => owner_later h₀ hr he hs huser s' hs' hid,
    fun s hs => ⟨(outline_run h₀ hr).inv.2.owned s hs, hO.recorded s hs⟩⟩
  cases howner : s.quotaUserId with
  | none =>
    have hun : s.unassigned = true := by simp [ServiceRow.unassigned, howner, hlive, hcounted]
    exact absurd horg.symm (hO.unowned s hs hun q hq)
  | some user => exact ⟨user, rfl, hm.now (hO.member s hs user howner)⟩

/-- `MembersRemain`, as far as a machine can tell. -/
def Trail.membersRemain : Trail Db Key Write Call → Machine Db Key Write Call → Bool
  | [], _ => true
  | (m, _) :: trail, m' => (m.db.surroundings.memberships.all fun x =>
      m'.db.surroundings.memberships.contains x) && membersRemain trail m

theorem Trail.remain {trail : Trail Db Key Write Call} {m : Machine Db Key Write Call}
    (h : membersRemain trail m = true) : MembersRemain trail.events m.system := by
  induction trail generalizing m with
  | nil => exact trivial
  | cons x _ ih =>
    obtain ⟨m₀, who⟩ := x
    rw [membersRemain, Bool.and_eq_true] at h
    exact ⟨fun x hx => contains_iff_mem.mp (all_eq_true.mp h.1 x hx), ih h.2⟩

/-- A member creates a Flash service, and gets limits of their own. -/
def flashOwned : List (Move Call) :=
  runs 0 (createFlash 30 "app" plainFlash) 14 ++
    runs 1 (.quota (.setMember 1 5 (some .default))) 7

theorem owners_kept_flash : ∃ past σ,
    Run (program standalone) (System.quiet oneAccount 0 [20, 1]) past σ ∧ MembersRemain past σ ∧
      ∃ q ∈ σ.db.memberQuotas, ∃ s ∈ σ.db.serviceInstances,
        s.organizationId = q.organizationId ∧
          ∃ user, s.quotaUserId = some user ∧ σ.db.isMember s.organizationId user = true := by
  have hplay : ((Machine.quiet oneAccount 0 [20, 1]).record (program standalone) []
      flashOwned).any (fun x => Trail.membersRemain x.1 x.2 && (x.2.db.memberQuotas.any fun q =>
        x.2.db.serviceInstances.any fun s => s.organizationId == q.organizationId && (s.live &&
          s.provider.counted))) = true := by
    decide +kernel
  obtain ⟨trail, m, hrun, hcheck⟩ := record_any hplay
  simp only [Bool.and_eq_true, beq_iff_eq, any_eq_true] at hcheck
  obtain ⟨hrem, q, hq, s, hs, horg, hlive, hcounted⟩ := hcheck
  have hall := Trail.remain hrem
  obtain ⟨howned, _, _⟩ := owners_kept oneAccount_initial hrun hall
  exact ⟨_, _, hrun, hall, q, hq, s, hs, horg, howned q hq s hs horg hlive hcounted⟩

end HeteroCloud.Services
