/-
  File:      Registry/Credentials.lean
  Subject:   REGISTRY CREDENTIALS STAY WITHIN THEIR LIMITS, are activated once, and no active one is
             cancelled, in every run.

  Activations, cancellations and deletions do not take the locks of the account. A reservation may
  rely on what it has counted all the same (`Kept`): they never raise a count.
-/
import HeteroCloud.Base.Schedule
import HeteroCloud.Registry.Program

namespace HeteroCloud.Registry

open Base Iam List
open Services (ResourceQuotaLimits OrganizationResourceQuotaRow parseResourceQuota_ok)
open Store (StoreError)

/-! ## 1. Writes -/

section Writes
variable {u : Tenancy} {d : Db} {x : Write} {organization : Uuid}

theorem Write.mem_ids {k : Nat} (h : k ∈ ids (x.apply d)) : k ∈ ids d ∨ k ∈ x.makes := by
  cases x with
  | insertCredential =>
    obtain ⟨b, hb, rfl⟩ := mem_map.mp h
    rcases mem_append.mp hb with hb | hb
    · exact .inl (mem_map_of_mem hb)
    · rw [mem_singleton.mp hb]
      exact .inr mem_cons_self
  | activateCredential id robot username =>
    have hmap : ids ((Write.activateCredential id robot username).apply d) = ids d :=
      map_updateWhere fun _ => rfl
    rw [hmap] at h
    exact .inl h
  | deleteCredential =>
    obtain ⟨b, hb, rfl⟩ := mem_map.mp h
    exact .inl (mem_map_of_mem (mem_of_mem_filter hb))
  | _ => exact .inl h

/-- The write leaves the credentials alone. -/
def Write.plain : Write → Bool
  | .insertCredential _ | .activateCredential _ _ _ | .deleteCredential _ => false
  | _ => true

theorem plain_apply (h : x.plain = true) :
    (x.apply d).registryCredentials = d.registryCredentials := by
  cases x with
  | insertCredential | activateCredential | deleteCredential => cases h
  | _ => rfl

theorem plain_view {r : Running Key Write Call} (h : ∀ x ∈ r.pending, x.plain = true) :
    ((program u).view r d).registryCredentials = d.registryCredentials := by
  refine applyAll_keeps (Q := fun d' : Db => d'.registryCredentials = d.registryCredentials)
    (fun x hx d' hd => ?_) rfl
  rw [← hd]
  exact plain_apply (h x hx)

theorem unique_apply (h : UniqueKey (·.id) d.registryCredentials)
    (hm : ∀ k ∈ x.makes, k ∉ ids d) : UniqueKey (·.id) (x.apply d).registryCredentials := by
  cases x with
  | insertCredential c =>
    refine h.insert fun b hb e => hm c.id mem_cons_self ?_
    rw [← e]
    exact mem_map_of_mem hb
  | activateCredential => exact h.update fun _ => rfl
  | deleteCredential => exact h.filter _
  | _ => exact h

/-- Another account keeps its limits. -/
theorem limitsOf_set {account : Uuid} {limits : Option ResourceQuotaLimits}
    (h : organization ≠ account) :
    ((Write.setOrganizationQuota organization limits).apply d).limitsOf account =
      d.limitsOf account := by
  have hnone : (limits.toList.map (OrganizationResourceQuotaRow.mk organization)).find?
      (·.organizationId == account) = none := by
    refine find?_eq_none.mpr fun q hq => ?_
    obtain ⟨l, _, rfl⟩ := mem_map.mp hq
    rw [beq_iff_eq]
    exact h
  have hold : (d.organizationQuotas.filter (·.organizationId != organization)).find?
      (·.organizationId == account) =
      d.organizationQuotas.find? (·.organizationId == account) := by
    rw [find?_filter]
    congr 1
    funext q
    by_cases e : q.organizationId = account
    · simp [e, Ne.symm h]
    · simp [e]
  unfold Db.limitsOf
  simp only [Write.apply]
  rw [find?_append, hnone, hold, Option.or_none]

theorem counted_always (c : RegistryCredentialRow) : c.counted = true := by
  unfold RegistryCredentialRow.counted
  cases c.status <;> rfl

/-- What is counted over some accounts is raised by an insert for one of them only. -/
theorem count_apply (among : Uuid → Bool)
    (h : ∀ c, x = .insertCredential c → among c.organizationId = false) :
    (x.apply d).registryCredentials.countP (fun c => among c.organizationId && c.counted) ≤
      d.registryCredentials.countP fun c => among c.organizationId && c.counted := by
  cases x with
  | insertCredential c =>
    simp only [Write.apply, countP_append, countP_singleton, h c rfl, Bool.false_and]
    exact Nat.le_refl _
  | activateCredential id robot username =>
    have hsame (c : RegistryCredentialRow) :
        (if (c.id == id) = true then c.activate robot username else c).organizationId =
          c.organizationId := by
      split_ifs <;> rfl
    simp only [Write.apply, updateWhere, countP_map, Function.comp_def, hsame, counted_always]
    exact Nat.le_refl _
  | deleteCredential => exact filter_sublist.countP_le
  | _ => exact Nat.le_refl _

/-- An insert adds one. -/
theorem count_insert (p : RegistryCredentialRow → Bool) (c : RegistryCredentialRow) :
    ((Write.insertCredential c).apply d).registryCredentials.countP p ≤
      d.registryCredentials.countP p + 1 := by
  simp only [Write.apply, countP_append, countP_singleton]
  split_ifs <;> omega

end Writes

/-! ## 2. What others do meanwhile -/

variable (u : Tenancy) (organization : Uuid)

/-- What a call that holds the locks of an account relies on. -/
structure Kept (d d' : Db) : Prop where
  limit : d'.maxCredentials organization = d.maxCredentials organization
  active : d'.active organization ≤ d.active organization
  enabled : d'.registryCredentialsEnabled = d.registryCredentialsEnabled
  cloudLimit : ∀ cloud, u.cloudOf organization = some cloud →
    d'.maxCredentials (u.management cloud) = d.maxCredentials (u.management cloud)
  cloudActive : ∀ cloud, u.cloudOf organization = some cloud →
    d'.organizationActive u cloud ≤ d.organizationActive u cloud

section Meanwhile
variable {u : Tenancy} {d : Db} {x : Write} {organization : Uuid}

theorem tenant_locked {k : Key} (h : k ∈ tenantKeys u organization) :
    (k, .exclusive) ∈ lockTenantAllocations u organization :=
  mem_cons_of_mem _ (mem_map_of_mem h)

theorem account_key : Key.account organization ∈ tenantKeys u organization :=
  mem_append_right _ (mem_singleton_self _)

theorem cloud_key {cloud : Uuid} (h : u.cloudOf organization = some cloud) :
    Key.cloudOrganization cloud ∈ tenantKeys u organization := by
  refine mem_append_left _ (mem_map_of_mem ?_)
  rw [h]
  exact mem_singleton_self _

variable (hx : Foreign (guards u) (lockTenantAllocations u organization) x)
include hx

/-- A write under the locks of an account is for another account, of another cloud organization. -/
theorem foreign_tenant {account : Uuid} (hn : x.needs u = tenantKeys u account) : account ≠
    organization ∧ ∀ cloud, u.cloudOf organization = some cloud → u.cloudOf account ≠ some cloud :=
    by
  have hfree (k : Key) (hk : k ∈ tenantKeys u account) : k ∉ tenantKeys u organization := by
    intro hk'
    have hneeds : k ∈ x.needs u := by rwa [hn]
    exact hx.free k hneeds .exclusive (tenant_locked hk')
  refine ⟨fun e => ?_, fun cloud hcloud hother => ?_⟩
  · exact hfree (.account account) account_key (e ▸ account_key)
  · exact hfree (.cloudOrganization cloud) (cloud_key hother) (cloud_key hcloud)

/-- **What others commit while a call holds the locks of an account.** -/
theorem foreign_kept : Kept u organization d (x.apply d) := by
  have hdefaults : Key.quotaDefaults ∉ x.needs u :=
    fun h => hx.free _ h .share mem_cons_self
  have hinsert (c : RegistryCredentialRow) (e : x = .insertCredential c) :
      c.organizationId ≠ organization ∧ ∀ cloud, u.cloudOf organization = some cloud →
        u.cloudOf c.organizationId ≠ some cloud := by
    subst e
    exact foreign_tenant hx rfl
  have hlimits (account : Uuid) (h : ∀ o limits, x = .setOrganizationQuota o limits → o ≠ account) :
      (x.apply d).limitsOf account = d.limitsOf account := by
    cases x with
    | setOrganizationQuota o limits => exact limitsOf_set (h o limits rfl)
    | setQuotaDefaults => exact absurd mem_cons_self hdefaults
    | _ => rfl
  refine ⟨congrArg (·.registry.maxCredentials) (hlimits organization fun o limits e => ?_), ?_, ?_,
    fun cloud hcloud => congrArg (·.registry.maxCredentials) (hlimits _ fun o limits e => ?_),
    fun cloud hcloud => ?_⟩
  · subst e
    exact (foreign_tenant hx rfl).1
  · refine count_apply (· == organization) fun c e => ?_
    exact beq_eq_false_iff_ne.mpr (hinsert c e).1
  · cases x with
    | enableRegistryCredentials => exact absurd mem_cons_self hdefaults
    | _ => rfl
  · subst e
    intro e
    refine (foreign_tenant hx rfl).2 cloud hcloud ?_
    rw [e]
    exact u.management_cloud cloud
  · refine count_apply (fun o => u.cloudOf o == some cloud) fun c e => ?_
    exact beq_eq_false_iff_ne.mpr ((hinsert c e).2 cloud hcloud)

omit hx

/-- A credential whose row is locked stays. -/
theorem foreign_row {id : Uuid} (hx : Foreign (guards u) [(.credential id, .exclusive)] x)
    {c : RegistryCredentialRow} (hc : c ∈ d.registryCredentials) (hid : c.id = id) :
    c ∈ (x.apply d).registryCredentials := by
  have hfree : Key.credential id ∉ x.needs u :=
    fun h => hx.free _ h .exclusive mem_cons_self
  cases x with
  | insertCredential => exact mem_append_left _ hc
  | activateCredential k =>
    have hne : c.id ≠ k := by
      rintro rfl
      exact hfree (hid ▸ mem_cons_self)
    refine mem_map.mpr ⟨c, hc, ?_⟩
    rw [if_neg]
    rwa [beq_iff_eq]
  | deleteCredential k =>
    have hne : c.id ≠ k := by
      rintro rfl
      exact hfree (hid ▸ mem_cons_self)
    exact mem_filter.mpr ⟨hc, bne_iff_ne.mpr hne⟩
  | _ => exact hc

end Meanwhile

/-! ## 3. The outline -/

def Locked (held : Locks) : Prop :=
  ∀ l ∈ lockTenantAllocations u organization, l ∈ held

variable (d : Db)

/-- There is room for one more credential of the account. -/
structure Admitted : Prop where
  account : d.active organization < d.maxCredentials organization
  cloud : d.registryCredentialsEnabled = true → ∃ cloud, u.cloudOf organization = some cloud ∧
    d.organizationActive u cloud < d.maxCredentials (u.management cloud)

/-- **What holds at the point of a call.** -/
def Call.At (held : Locks) (pending : List Write) : Call → Prop
  | .reserveQuota n => Locked u n.organizationId held ∧ pending = []
  | .reserveCount n limit => Locked u n.organizationId held ∧ pending = [] ∧
      limit = d.maxCredentials n.organizationId
  | .reserveEnabled n => Locked u n.organizationId held ∧ pending = [] ∧
      d.active n.organizationId < d.maxCredentials n.organizationId
  | .reserveCloud n => Locked u n.organizationId held ∧ pending = [] ∧
      d.active n.organizationId < d.maxCredentials n.organizationId
  | .reserveCloudCount n cloud limit => Locked u n.organizationId held ∧ pending = [] ∧
      d.active n.organizationId < d.maxCredentials n.organizationId ∧
      u.cloudOf n.organizationId = some cloud ∧ limit = d.maxCredentials (u.management cloud)
  | .reserveInsert n => Locked u n.organizationId held ∧ pending = [] ∧
      Admitted u n.organizationId d
  | .reserveCommit c => Locked u c.organizationId held ∧ pending = [.insertCredential c] ∧
      c.status = .provisioning ∧ Admitted u c.organizationId d
  | .activateCommit c robot username => (.credential c.id, .exclusive) ∈ held ∧
      pending = [.activateCredential c.id robot username] ∧ c.status = .provisioning ∧
      c ∈ d.registryCredentials
  | .cancelCommit id => (.credential id, .exclusive) ∈ held ∧ pending = [.deleteCredential id] ∧
      ∃ c ∈ d.registryCredentials, c.id = id ∧ c.status = .provisioning
  | .deleteCommit id => pending = [.deleteCredential id]
  | .quotaStore organization _ | .clearExists organization | .clearDelete organization =>
      Locked u organization held ∧ pending = []
  | .defaultsStore _ | .enableStore => (.quotaDefaults, .exclusive) ∈ held ∧ pending = []
  | .clearRead _ | .commit _ => ∀ x ∈ pending, x.plain = true
  | .done _ => True
  | _ => pending = []

abbrev Point (_ : View) (_ : Nat) (r : Running Key Write Call) : Prop :=
  r.call.At u d r.held r.pending

abbrev Inv (_ : View) : Prop := UniqueKey (·.id) d.registryCredentials

section Outline
variable {u : Tenancy} {d d' : Db} {w : View} {e : Event Db Key Write Call} {uuid : Nat → Nat}
  {i : Nat} {r : Running Key Write Call} {x : Write} {held others : Locks} {organization : Uuid}

theorem Admitted.kept (h : Admitted u organization d) (hk : Kept u organization d d') :
    Admitted u organization d' where
  account := by
    have hroom := h.account
    have hactive := hk.active
    rw [hk.limit]
    omega
  cloud henabled := by
    obtain ⟨cloud, hcloud, hroom⟩ := h.cloud (hk.enabled ▸ henabled)
    have hactive := hk.cloudActive cloud hcloud
    refine ⟨cloud, hcloud, ?_⟩
    rw [hk.cloudLimit cloud hcloud]
    omega

theorem Locked.kept (h : Locked u organization held) (hx : Committed (guards u) w others x)
    (hc : Compatible others held) : Kept u organization d (x.apply d) :=
  foreign_kept (hx.foreign hc h)

theorem room_kept (hk : Kept u organization d d')
    (h : d.active organization < d.maxCredentials organization) :
    d'.active organization < d'.maxCredentials organization := by
  have hactive := hk.active
  rw [hk.limit]
  omega

/-- **What others commit keeps what holds at a point.** -/
theorem point_stable (hx : Committed (guards u) w others x) (hc : Compatible others r.held)
    (h : Point u d w i r) : Point u (x.apply d) w i r := by
  obtain ⟨call, held, pending, began⟩ := r
  have hrow {id : Uuid} (hl : (Key.credential id, LockMode.exclusive) ∈ held) :
      Foreign (guards u) [(.credential id, .exclusive)] x :=
    hx.foreign hc fun l hl' => mem_singleton.mp hl' ▸ hl
  cases call with
  | reserveCount =>
    obtain ⟨hl, hp, rfl⟩ := h
    exact ⟨hl, hp, (hl.kept hx hc).limit.symm⟩
  | reserveEnabled | reserveCloud =>
    obtain ⟨hl, hp, hroom⟩ := h
    exact ⟨hl, hp, room_kept (hl.kept hx hc) hroom⟩
  | reserveCloudCount n cloud =>
    obtain ⟨hl, hp, hroom, hcloud, rfl⟩ := h
    have hk : Kept u n.organizationId d (x.apply d) := hl.kept hx hc
    exact ⟨hl, hp, room_kept hk hroom, hcloud, (hk.cloudLimit cloud hcloud).symm⟩
  | reserveInsert =>
    obtain ⟨hl, hp, hroom⟩ := h
    exact ⟨hl, hp, hroom.kept (hl.kept hx hc)⟩
  | reserveCommit =>
    obtain ⟨hl, hp, hs, hroom⟩ := h
    exact ⟨hl, hp, hs, hroom.kept (hl.kept hx hc)⟩
  | activateCommit =>
    obtain ⟨hl, hp, hs, hmem⟩ := h
    exact ⟨hl, hp, hs, foreign_row (hrow hl) hmem rfl⟩
  | cancelCommit =>
    obtain ⟨hl, hp, c, hmem, hid, hs⟩ := h
    exact ⟨hl, hp, c, foreign_row (hrow hl) hmem hid, hid, hs⟩
  | _ => exact h

/-! The outcomes of statements. -/

abbrev Follows (u : Tenancy) (d : Db) (w : View) (e : Event Db Key Write Call) (uuid : Nat → Nat)
    (i : Nat) (r : Running Key Write Call) (o : Statement) : Prop :=
  Next (program u) (guards u) Inv (Point u) d w e uuid i r o

variable {c : Call}

theorem follows_stmt (h : c.At u d r.held r.pending) : Follows u d w e uuid i r (.stmt [] []
    c) := by
  refine ⟨fun _ _ h => absurd h not_mem_nil, forall_mem_nil _, ?_⟩
  show c.At u d r.held (r.pending ++ [])
  rwa [append_nil]

theorem follows_abort (error : StoreError) : Follows u d w e uuid i r (abort error) := trivial

theorem follows_check {α : Type} {y : Except StoreError α} {next : α → Statement}
    (h : ∀ a, y = .ok a → Follows u d w e uuid i r (next a)) :
    Follows u d w e uuid i r (check y next) := by
  cases y with
  | ok a => exact h a rfl
  | error error => exact follows_abort error

/-- A statement that takes locks on what is in the database already. -/
theorem follows_lock {locks : Locks} (hf : ∀ n m, (Key.fresh n, m) ∉ locks) (h : c.At u d (locks ++
    r.held) r.pending) : Follows u d w e uuid i r (.stmt locks [] c) := by
  refine ⟨fun n m h => absurd h (hf n m), forall_mem_nil _, ?_⟩
  show c.At u d (locks ++ r.held) (r.pending ++ [])
  rwa [append_nil]

/-- A statement with one write that makes no id. -/
theorem follows_write {locks : Locks} (hf : ∀ n m, (Key.fresh n, m) ∉ locks) (hn : ∀ k ∈ x.needs u,
    (k, .exclusive) ∈ locks ++ r.held) (hm : x.makes = []) (hp : r.pending = []) (h : c.At u d
    (locks ++ r.held) [x]) : Follows u d w e uuid i r (.stmt locks [x] c) := by
  refine ⟨fun n m h => absurd h (hf n m), forall_mem_singleton.mpr ?_, ?_⟩
  · refine ⟨trivial, hn, fun n h => ?_⟩
    have hnone : n ∈ x.makes := h
    rw [hm] at hnone
    cases hnone
  · show c.At u d (locks ++ r.held) (r.pending ++ [x])
    rwa [hp]

theorem fresh_not_tenant (n : Nat) (m : LockMode) :
    (Key.fresh n, m) ∉ lockTenantAllocations u organization := by
  simp [lockTenantAllocations, tenantKeys]

theorem fresh_not_nil (n : Nat) (m : LockMode) : (Key.fresh n, m) ∉ ([] : Locks) :=
  not_mem_nil

theorem fresh_not_row {k : Key} (hk : ∀ n, k ≠ .fresh n) (n : Nat) (m : LockMode) :
    (Key.fresh n, m) ∉ [(k, LockMode.exclusive)] := by
  intro h
  exact hk n (congrArg Prod.fst (mem_singleton.mp h)).symm

/-- A commit, by what becomes of the credentials. -/
theorem follows_commit {result : Result}
    (h : UniqueKey (·.id) ((program u).view r d).registryCredentials) :
    Follows u d w e uuid i r (.commit (.done result)) :=
  fun _ _ _ => ⟨h, trivial⟩

theorem view_nil (hp : r.pending = []) : (program u).view r d = d := by
  rw [Program.view, hp]
  rfl

theorem view_single (hp : r.pending = [x]) : (program u).view r d = x.apply d := by
  rw [Program.view, hp]
  rfl

theorem credentialWith_some {status : CredentialStatus} {credential : Uuid}
    {c : RegistryCredentialRow} (h : d.credentialWith status organization credential = some c) :
    c ∈ d.registryCredentials ∧ c.id = credential ∧ c.organizationId = organization ∧
      c.status = status := by
  have hp := find?_some h
  simp only [Bool.and_eq_true, beq_iff_eq] at hp
  exact ⟨mem_of_find?_eq_some h, hp.1.1, hp.1.2, hp.2⟩

/-! The statements of a reservation. -/

section Reserve
variable {n : Reservation}

theorem quota_limit {limits : ResourceQuotaLimits} (h : d.resourceQuota organization = .ok limits) :
    limits.registry.maxCredentials = d.maxCredentials organization := by
  unfold Db.resourceQuota at h
  split_ifs at h
  rw [(parseResourceQuota_ok h).1]
  rfl

variable (hp : r.pending = []) (hl : Locked u n.organizationId r.held)
include hp hl

theorem reserveCount_follows {limit : Nat} (he : limit = d.maxCredentials n.organizationId) :
    Follows u d w e uuid i r (reserveCount d n limit) := by
  unfold reserveCount
  split_ifs with hfull
  · exact follows_abort _
  · exact follows_stmt ⟨hl, hp, he ▸ Nat.lt_of_not_le hfull⟩

variable (hroom : d.active n.organizationId < d.maxCredentials n.organizationId)
include hroom

theorem reserveCloud_follows : Follows u d w e uuid i r (reserveCloud u d n) := by
  unfold reserveCloud
  cases hcloud : u.cloudOf n.organizationId with
  | none => exact follows_abort _
  | some =>
    refine follows_check fun limits hlimits => follows_stmt ⟨hl, hp, hroom, hcloud, ?_⟩
    rw [(parseResourceQuota_ok hlimits).1]
    rfl

theorem reserveCloudCount_follows {cloud : Uuid} {limit : Nat} (hcloud : u.cloudOf n.organizationId
    = some cloud) (he : limit = d.maxCredentials (u.management cloud)) : Follows u d w e uuid i r
    (reserveCloudCount u d n cloud limit) := by
  unfold reserveCloudCount
  split_ifs with hfull
  · exact follows_abort _
  refine follows_stmt ⟨hl, hp, hroom, fun _ => ⟨cloud, hcloud, ?_⟩⟩
  rw [← he]
  exact Nat.lt_of_not_le hfull

omit hroom

theorem reserveInsert_follows {now : Int} (hroom : Admitted u n.organizationId d) : Follows u d w e
    uuid i r (reserveInsert d now uuid n) := by
  unfold reserveInsert
  split_ifs
  · exact follows_abort _
  · exact follows_abort _
  · exact follows_abort _
  refine ⟨fun k m h => ?_, forall_mem_singleton.mpr ?_, ?_⟩
  · cases mem_singleton.mp h
    exact mem_map.mpr ⟨0, mem_range.mpr Nat.one_pos, rfl⟩
  · refine ⟨trivial, fun k hk => mem_append_right _ (hl _ (tenant_locked hk)),
      forall_mem_singleton.mpr ?_⟩
    exact mem_append_left _ mem_cons_self
  · refine ⟨fun l h => mem_append_right _ (hl l h), ?_, rfl, hroom⟩
    show r.pending ++ _ = _
    rw [hp]
    rfl

end Reserve

/-- **Every statement leads to a point where its assertion holds.** -/
theorem point_step {o : Statement} (hk : Known ids d w) (hI : Inv d w) (hown : Own (guards u) w r)
    (h : Point u d w i r)
    (ho : (program u).exec w.clock (r.began.getD w.clock) uuid ((program u).view r d) r.call =
      some o) : Follows u d w e uuid i r o := by
  obtain ⟨call, held, pending, began⟩ := r
  have hrow (k : Uuid) (n : Nat) : Key.credential k ≠ .fresh n := fun h => Key.noConfusion h
  have hdefaults (n : Nat) : Key.quotaDefaults ≠ .fresh n := fun h => Key.noConfusion h
  cases call with
  | reserveRegistryCredential | clearOrganizationResourceQuota =>
    cases ho
    exact follows_lock fresh_not_tenant ⟨fun l hl => mem_append_left _ hl, h⟩
  | reserveQuota =>
    obtain ⟨hl, hp⟩ := h
    rw [view_nil hp] at ho
    cases ho
    exact follows_check fun limits hlimits => follows_stmt ⟨hl, hp, quota_limit hlimits⟩
  | reserveCount =>
    obtain ⟨hl, hp, he⟩ := h
    rw [view_nil hp] at ho
    cases ho
    exact reserveCount_follows hp hl he
  | reserveEnabled =>
    obtain ⟨hl, hp, hroom⟩ := h
    rw [view_nil hp] at ho
    cases ho
    refine follows_stmt ?_
    split_ifs with henabled
    · exact ⟨hl, hp, hroom⟩
    · exact ⟨hl, hp, hroom, fun h => absurd h henabled⟩
  | reserveCloud =>
    obtain ⟨hl, hp, hroom⟩ := h
    rw [view_nil hp] at ho
    cases ho
    exact reserveCloud_follows hp hl hroom
  | reserveCloudCount =>
    obtain ⟨hl, hp, hroom, hcloud, he⟩ := h
    rw [view_nil hp] at ho
    cases ho
    exact reserveCloudCount_follows hp hl hroom hcloud he
  | reserveInsert =>
    obtain ⟨hl, hp, hroom⟩ := h
    rw [view_nil hp] at ho
    cases ho
    exact reserveInsert_follows hp hl hroom
  | reserveCommit c =>
    obtain ⟨_, hp, _, _⟩ := h
    cases ho
    refine follows_commit ?_
    rw [view_single hp]
    refine unique_apply hI fun k hmakes hin => ?_
    have hp' : pending = [.insertCredential c] := hp
    have hmem : Write.insertCredential c ∈ pending := by
      rw [hp']
      exact mem_cons_self
    exact (hown.committed _ hmem).unborn k hmakes (hk.born hin)
  | activateRegistryCredential =>
    rw [view_nil h] at ho
    cases ho
    unfold activateRegistryCredential
    split
    · exact follows_abort _
    rename_i c hc
    obtain ⟨hmem, _, _, hs⟩ := credentialWith_some hc
    split_ifs
    · exact follows_abort _
    refine follows_write (fresh_not_row (hrow c.id)) (forall_mem_singleton.mpr ?_) rfl h
      ⟨mem_cons_self, rfl, hs, hmem⟩
    exact mem_cons_self
  | activateCommit =>
    obtain ⟨_, hp, _, _⟩ := h
    cases ho
    refine follows_commit ?_
    rw [view_single hp]
    exact unique_apply hI (forall_mem_nil _)
  | cancelRegistryCredentialReservation =>
    rw [view_nil h] at ho
    cases ho
    unfold cancelRegistryCredentialReservation
    split
    · exact trivial
    rename_i c hc
    obtain ⟨hmem, _, _, hs⟩ := credentialWith_some hc
    refine follows_write (fresh_not_row (hrow c.id)) (forall_mem_singleton.mpr ?_) rfl h
      ⟨mem_cons_self, rfl, c, hmem, rfl, hs⟩
    exact mem_cons_self
  | deleteRegistryCredential =>
    rw [view_nil h] at ho
    cases ho
    unfold deleteRegistryCredential
    split
    · exact follows_abort _
    rename_i c hc
    refine follows_write (fresh_not_row (hrow c.id)) (forall_mem_singleton.mpr ?_) rfl h rfl
    exact mem_cons_self
  | cancelCommit =>
    obtain ⟨_, hp, _⟩ := h
    cases ho
    refine follows_commit ?_
    rw [view_single hp]
    exact unique_apply hI (forall_mem_nil _)
  | deleteCommit =>
    cases ho
    refine follows_commit ?_
    rw [view_single h]
    exact unique_apply hI (forall_mem_nil _)
  | setOrganizationResourceQuota =>
    cases ho
    exact follows_check fun _ _ =>
      follows_lock fresh_not_tenant ⟨fun l hl => mem_append_left _ hl, h⟩
  | quotaStore =>
    obtain ⟨hl, hp⟩ := h
    cases ho
    split_ifs
    · refine follows_write fresh_not_nil (fun k hk => hl _ (tenant_locked hk)) rfl hp (forall_mem_singleton.mpr ?_)
      rfl
    · exact follows_abort _
  | clearExists =>
    cases ho
    split_ifs
    · exact follows_stmt h
    · exact follows_abort _
  | clearDelete =>
    obtain ⟨hl, hp⟩ := h
    cases ho
    refine follows_write fresh_not_nil (fun k hk => hl _ (tenant_locked hk)) rfl hp (forall_mem_singleton.mpr ?_)
    rfl
  | clearRead =>
    cases ho
    exact follows_check fun _ _ => follows_stmt h
  | updateResourceQuotaDefaults =>
    cases ho
    exact follows_check fun _ _ =>
      follows_lock (fresh_not_row hdefaults) ⟨mem_cons_self, h⟩
  | defaultsStore | enableStore =>
    obtain ⟨hl, hp⟩ := h
    cases ho
    refine follows_write fresh_not_nil (forall_mem_singleton.mpr ?_) rfl hp (forall_mem_singleton.mpr ?_)
    · exact hl
    · rfl
  | enableOrganizationRegistryCredentials =>
    cases ho
    exact follows_lock (fresh_not_row hdefaults) ⟨mem_cons_self, h⟩
  | setSurroundings =>
    cases ho
    refine follows_write fresh_not_nil (forall_mem_nil _) rfl h (forall_mem_singleton.mpr ?_)
    rfl
  | commit =>
    cases ho
    refine follows_commit ?_
    rw [plain_view h]
    exact hI
  | done => cases ho

/-- **The outline.** -/
theorem duties (u : Tenancy) : Duties (program u) (guards u) Inv (Point u) where
  ids h := Write.mem_ids h
  mono_inv _ h := h
  mono_at _ h := h
  start {d w i c} hc := by
    show c.At u d [] []
    cases c with
    | reserveRegistryCredential | activateRegistryCredential | cancelRegistryCredentialReservation
    | deleteRegistryCredential | setOrganizationResourceQuota | clearOrganizationResourceQuota
    | updateResourceQuotaDefaults | enableOrganizationRegistryCredentials | setSurroundings =>
      exact rfl
    | _ => cases hc
  step hk hI hown h _ _ ho := point_step hk hI hown h ho
  stable hx hc h := point_stable hx hc h
  fail {d w i r c} _ hc := by
    obtain ⟨call, held, pending, began⟩ := r
    cases call with
    | done => cases hc
    | _ =>
      cases hc
      exact trivial

end Outline

/-! ## 4. Runs -/

/-- No credential has been made yet. -/
def Initial : Prop := d.registryCredentials = []

variable (e : Event Db Key Write Call) (id : Uuid)

/-- The step commits the reservation of the credential. -/
def Reserves : Prop :=
  ∃ i c, e.Executes i (.reserveCommit c) ∧ c.id = id

/-- The step commits the activation of the credential. -/
def Activates : Prop :=
  ∃ i c robot username, e.Executes i (.activateCommit c robot username) ∧ c.id = id

/-- The points of a cancellation. -/
def Call.isCancel : Call → Bool
  | .cancelRegistryCredentialReservation _ _ | .cancelCommit _ => true
  | _ => false

abbrev Outlined (past : List (Event Db Key Write Call)) (σ : System Db Key Write Call) : Prop :=
  Holds (fun d w => Known (guards u).ids d w ∧ Inv d w)
    (fun d w i r => Own (guards u) w r ∧ Point u d w i r) past σ

section Runs
variable {u : Tenancy} {d : Db} {t : Int} {issued : List Nat}
  {past : List (Event Db Key Write Call)} {σ σ' : System Db Key Write Call} {mover : Option Nat}

theorem outline_run (h₀ : Initial d) (hrun : Run (program u) (System.quiet d t issued) past σ) :
    Outlined u past σ := by
  have hempty : d.registryCredentials = [] := h₀
  refine (duties u).outline.run hrun ⟨.initial fun k hk => ?_, ?_⟩
  · have hid : k ∈ d.registryCredentials.map (·.id) := hk
    rw [hempty] at hid
    cases hid
  · show UniqueKey (·.id) d.registryCredentials
    rw [hempty]
    exact nodup_nil

variable {i : Nat}

/-- A call at a point whose statement commits publishes what it has written. -/
theorem commit_step (hs : StepBy (program u) σ mover σ') {c next : Call} (he : Event.Executes ⟨σ,
    mover⟩ i c) (hc : ∀ clock now uuid d, exec u clock now uuid d c = some (.commit next)) : ∃ r,
    σ.runs i = some r ∧ r.call = c ∧ σ'.db = (program u).view r σ.db := by
  obtain ⟨rfl, r, hr, rfl⟩ := he
  exact ⟨r, hr, rfl, step_commits hs hr hc⟩

variable {c : RegistryCredentialRow}
variable (h : Outlined u past σ) (hs : StepBy (program u) σ mover σ')
include h hs

/-- A reservation that is committed. -/
theorem reserve_step (he : Event.Executes ⟨σ, mover⟩ i (.reserveCommit c)) : σ'.db =
    (Write.insertCredential c).apply σ.db ∧ c.status = .provisioning ∧ Admitted u c.organizationId
    σ.db ∧ ¬ Born ids (σ.world past) c.id := by
  obtain ⟨r, hr, hcall, hdb⟩ := commit_step hs he fun _ _ _ _ => rfl
  obtain ⟨hown, hpoint⟩ := h.loc i r hr
  unfold Point at hpoint
  rw [hcall] at hpoint
  obtain ⟨_, hp, hstatus, hroom⟩ := hpoint
  rw [view_single hp] at hdb
  have hmem : Write.insertCredential c ∈ r.pending := by
    rw [hp]
    exact mem_cons_self
  exact ⟨hdb, hstatus, hroom, (hown.committed _ hmem).unborn c.id mem_cons_self⟩

theorem activate_step {robot : Int} {username : String} (he : Event.Executes ⟨σ, mover⟩ i
    (.activateCommit c robot username)) : σ'.db = (Write.activateCredential c.id robot
    username).apply σ.db ∧ c.status = .provisioning ∧ c ∈ σ.db.registryCredentials := by
  obtain ⟨r, hr, hcall, hdb⟩ := commit_step hs he fun _ _ _ _ => rfl
  obtain ⟨_, hpoint⟩ := h.loc i r hr
  unfold Point at hpoint
  rw [hcall] at hpoint
  obtain ⟨_, hp, hstatus, hmem⟩ := hpoint
  rw [view_single hp] at hdb
  exact ⟨hdb, hstatus, hmem⟩

/-- **Cancelling leaves the active credentials.** -/
theorem cancel_step {call : Call} (he : Event.Executes ⟨σ, mover⟩ i call) (hcancel : call.isCancel =
    true) (hc : c ∈ σ.db.registryCredentials) (hactive : c.status = .active) : c ∈
    σ'.db.registryCredentials := by
  cases call with
  | cancelCommit id =>
    obtain ⟨r, hr, hcall, hdb⟩ := commit_step hs he fun _ _ _ _ => rfl
    obtain ⟨_, hpoint⟩ := h.loc i r hr
    unfold Point at hpoint
    rw [hcall] at hpoint
    obtain ⟨_, hp, b, hb, hid, hprovisioning⟩ := hpoint
    rw [view_single hp] at hdb
    have hne : c.id ≠ id := by
      intro e
      have heq : c = b := h.inv.2.eq hc hb (e.trans hid.symm)
      rw [heq, hprovisioning] at hactive
      cases hactive
    rw [hdb]
    exact mem_filter.mpr ⟨hc, bne_iff_ne.mpr hne⟩
  | cancelRegistryCredentialReservation =>
    obtain ⟨rfl, r, hr, hcall⟩ := he
    cases hs with
    | commit _ _ _ _ hq _ ho =>
      cases hr.symm.trans hq
      unfold Program.next at ho
      rw [hcall] at ho
      have ho' := Option.some.inj ho
      unfold cancelRegistryCredentialReservation at ho'
      split at ho' <;> cases ho'
    | _ => exact hc
  | _ => cases hcancel

omit hs h

/-- Any other commit brings no row. -/
theorem rows_view {r : Running Key Write Call} {w : View} (h : Point u d w i r) (hreserve : ∀ c,
    r.call ≠ .reserveCommit c) (hactivate : ∀ c robot username, r.call ≠ .activateCommit c robot
    username) (hdone : ∀ result, r.call ≠ .done result) (hc : c ∈ ((program u).view r
    d).registryCredentials) : c ∈ d.registryCredentials := by
  obtain ⟨call, held, pending, began⟩ := r
  cases call with
  | reserveCommit b => exact absurd rfl (hreserve b)
  | activateCommit b robot username => exact absurd rfl (hactivate b robot username)
  | done result => exact absurd rfl (hdone result)
  | cancelCommit =>
    rw [view_single h.2.1] at hc
    exact mem_of_mem_filter hc
  | deleteCommit =>
    rw [view_single h] at hc
    exact mem_of_mem_filter hc
  | clearRead | commit =>
    rw [plain_view h] at hc
    exact hc
  | reserveQuota | quotaStore | clearExists | clearDelete | defaultsStore | enableStore =>
    rw [view_nil h.2] at hc
    exact hc
  | reserveCount | reserveEnabled | reserveCloud | reserveCloudCount | reserveInsert =>
    rw [view_nil h.2.1] at hc
    exact hc
  | _ =>
    rw [view_nil h] at hc
    exact hc

variable {e : Event Db Key Write Call}

theorem executes_unique {i j : Nat} {c c' : Call} (h : e.Executes i c) (h' : e.Executes j c') : c =
    c' := by
  obtain ⟨hm, r, hr, rfl⟩ := h
  obtain ⟨hm', r', hr', rfl⟩ := h'
  cases hm.symm.trans hm'
  cases hr.symm.trans hr'
  rfl

/-- **The credentials after a step**: unchanged, new, or just activated. -/
theorem rows_step (h : Outlined u past σ) (hs : StepBy (program u) σ mover σ') (hc : c ∈
    σ'.db.registryCredentials) : (c ∈ σ.db.registryCredentials ∧ ¬ Activates ⟨σ, mover⟩ c.id) ∨
    (Reserves ⟨σ, mover⟩ c.id ∧ c.status = .provisioning ∧ ¬ Born ids (σ.world past) c.id ∧ ¬
    Activates ⟨σ, mover⟩ c.id) ∨ (Activates ⟨σ, mover⟩ c.id ∧ c.status = .active ∧ ∃ b ∈
    σ.db.registryCredentials, b.id = c.id ∧ b.status = .provisioning) := by
  by_cases hactivates : ∃ id, Activates ⟨σ, mover⟩ id
  · obtain ⟨_, i, b, robot, username, he, rfl⟩ := hactivates
    obtain ⟨hdb, hstatus, hb⟩ := activate_step h hs he
    rw [hdb] at hc
    obtain ⟨a, ha, hrow⟩ := mem_map.mp hc
    split_ifs at hrow with hid
    · have hab : a = b := h.inv.2.eq ha hb (beq_iff_eq.mp hid)
      subst hrow hab
      exact .inr (.inr ⟨⟨i, a, robot, username, he, rfl⟩, rfl, a, ha, rfl, hstatus⟩)
    · subst hrow
      refine .inl ⟨ha, ?_⟩
      rintro ⟨j, b', robot', username', he', hb'⟩
      cases executes_unique he he'
      exact hid (beq_iff_eq.mpr hb'.symm)
  · have hnone (id : Uuid) : ¬ Activates ⟨σ, mover⟩ id := fun ha => hactivates ⟨id, ha⟩
    by_cases hreserves : ∃ i b, Event.Executes ⟨σ, mover⟩ i (.reserveCommit b)
    · obtain ⟨i, b, he⟩ := hreserves
      obtain ⟨hdb, hstatus, _, hborn⟩ := reserve_step h hs he
      rw [hdb] at hc
      rcases mem_append.mp hc with hc | hc
      · exact .inl ⟨hc, hnone _⟩
      · rw [mem_singleton.mp hc]
        exact .inr (.inl ⟨⟨i, b, he, rfl⟩, hstatus, hborn, hnone _⟩)
    · refine .inl ⟨?_, hnone _⟩
      cases hs with
      | commit i r _ _ hr _ ho =>
        refine rows_view (h.loc i r hr).2 (fun b e => ?_) (fun b robot username e => ?_)
          (fun result e => ?_) hc
        · exact hreserves ⟨i, b, rfl, r, hr, e⟩
        · exact hnone b.id ⟨i, b, robot, username, ⟨rfl, r, hr, e⟩, rfl⟩
        unfold Program.next at ho
        rw [e] at ho
        cases ho
      | _ => exact hc

/-- Only a credential that is in the database is activated. -/
theorem activates_born (h₀ : Initial d) (hrun : Run (program u) (System.quiet d t issued) past σ)
    (he : e ∈ past) {id : Uuid} (ha : Activates e id) : Born ids (σ.world past) id := by
  obtain ⟨before, after, σ₁, hb, hs, _, hpast⟩ := hrun.split he
  obtain ⟨i, c, robot, username, hexec, rfl⟩ := ha
  obtain ⟨_, _, hmem⟩ := activate_step (outline_run h₀ hb) hs hexec
  exact ⟨e.state, mem_cons_of_mem _ (mem_map_of_mem he), mem_map_of_mem hmem⟩

/-- The credential has been activated once, after its reservation. -/
def ActivatedOnce (past : List (Event Db Key Write Call)) (id : Uuid) : Prop :=
  ∃ before e after, past = after ++ e :: before ∧ Activates e id ∧
    (∀ e' ∈ after ++ before, ¬ Activates e' id) ∧ ∃ e' ∈ before, Reserves e' id

/-- What a run has done to the credentials there are. -/
structure History (past : List (Event Db Key Write Call)) (c : RegistryCredentialRow) : Prop where
  reserved : ∃ e ∈ past, Reserves e c.id
  provisioning : c.status = .provisioning → ∀ e ∈ past, ¬ Activates e c.id
  active : c.status = .active → ActivatedOnce past c.id

theorem History.later (h : History past c) (he : ¬ Activates e c.id) : History (e :: past) c where
  reserved := by
    obtain ⟨e', he', hr⟩ := h.reserved
    exact ⟨e', mem_cons_of_mem _ he', hr⟩
  provisioning hs e' he' := by
    rcases mem_cons.mp he' with rfl | he'
    · exact he
    · exact h.provisioning hs e' he'
  active hs := by
    obtain ⟨before, e₁, after, rfl, ha, hothers, hr⟩ := h.active hs
    refine ⟨before, e₁, e :: after, rfl, ha, fun e' he' => ?_, hr⟩
    rcases mem_cons.mp he' with rfl | he'
    · exact he
    · exact hothers e' he'

/-- **What a whole run has done to them.** -/
theorem History.run (h₀ : Initial d) (hrun : Run (program u) (System.quiet d t issued) past σ) :
    ∀ c ∈ σ.db.registryCredentials, History past c := by
  induction hrun with
  | start =>
    intro c hc
    have hempty : d.registryCredentials = [] := h₀
    have hin : c ∈ d.registryCredentials := hc
    rw [hempty] at hin
    cases hin
  | @step past σ σ' mover hrun hs ih =>
    intro c hc
    rcases rows_step (outline_run h₀ hrun) hs hc with
      ⟨hold, hnot⟩ | ⟨hreserves, hstatus, hborn, hnot⟩ | ⟨hactivates, hstatus, b, hb, hid, hbefore⟩
    · exact (ih c hold).later hnot
    · -- a new id has not been activated
      refine ⟨⟨_, mem_cons_self, hreserves⟩, fun _ e he ha => ?_, fun hs => ?_⟩
      · rcases mem_cons.mp he with rfl | he
        · exact hnot ha
        · exact hborn (activates_born h₀ hrun he ha)
      · rw [hstatus] at hs
        cases hs
    · have hpast := ih b hb
      rw [← hid] at hactivates
      refine ⟨?_, fun hs => ?_, fun _ => ?_⟩
      · obtain ⟨e', he', hr⟩ := hpast.reserved
        exact ⟨e', mem_cons_of_mem _ he', hid ▸ hr⟩
      · rw [hstatus] at hs
        cases hs
      rw [← hid]
      refine ⟨past, _, [], rfl, hactivates, fun e' he' => ?_, hpast.reserved⟩
      exact hpast.provisioning hbefore e' he'

end Runs

/-! ## 5. The theorem -/

/-- **Registry credentials.** In every run: -/
theorem registry_credentials_within_limits {u : Tenancy} {d : Db} {t : Int} {issued : List Nat}
    (h₀ : Initial d) {past : List (Event Db Key Write Call)} {σ : System Db Key Write Call}
    (hrun : Run (program u) (System.quiet d t issued) past σ) :
    -- a step that commits a reservation leaves the account and the cloud organization within the
    -- limits in force then
    (∀ mover σ' i c, StepBy (program u) σ mover σ' →
      Event.Executes ⟨σ, mover⟩ i (.reserveCommit c) →
      c ∈ σ'.db.registryCredentials ∧
      σ'.db.active c.organizationId ≤ σ'.db.maxCredentials c.organizationId ∧
      (σ'.db.registryCredentialsEnabled = true → ∃ cloud,
        u.cloudOf c.organizationId = some cloud ∧
        σ'.db.organizationActive u cloud ≤ σ'.db.maxCredentials (u.management cloud))) ∧
    -- an active credential has been activated once, after its reservation
    (∀ c ∈ σ.db.registryCredentials, c.status = .active → ActivatedOnce past c.id) ∧
    -- a step of a cancellation leaves the active credentials
    ∀ mover σ' i call, StepBy (program u) σ mover σ' → Event.Executes ⟨σ, mover⟩ i call →
      call.isCancel = true → ∀ c ∈ σ.db.registryCredentials, c.status = .active →
      c ∈ σ'.db.registryCredentials := by
  have hout := outline_run h₀ hrun
  refine ⟨fun mover σ' i c hs he => ?_,
    fun c hc hactive => (History.run h₀ hrun c hc).active hactive,
    fun mover σ' i call hs he hcancel c hc hactive => cancel_step hout hs he hcancel hc hactive⟩
  obtain ⟨hdb, _, hroom, _⟩ := reserve_step hout hs he
  rw [hdb]
  refine ⟨mem_append_right _ (mem_singleton_self c), ?_, fun henabled => ?_⟩
  · exact Nat.le_trans (count_insert _ c) hroom.account
  · obtain ⟨cloud, hcloud, hless⟩ := hroom.cloud henabled
    exact ⟨cloud, hcloud, Nat.le_trans (count_insert _ c) hless⟩

/-- Accounts in pairs; the even one manages. -/
def pairs : Tenancy where
  cloudOf account := some (account / 2)
  management cloud := 2 * cloud
  management_cloud cloud := by rw [Nat.mul_div_cancel_left cloud (by decide)]

def pairedAccounts : Db where
  accounts := [2, 3]
  principals := [⟨20, 3, true⟩]
  quotaDefaults := ResourceQuotaLimits.default
  registryCredentialsEnabled := true

/-- A credential is reserved and activated. -/
def oneCredential : List (Move Call) :=
  .start (.reserveRegistryCredential ⟨3, 20, "ci"⟩) :: List.replicate 8 (.step 0) ++
    .start (.activateRegistryCredential 3 7 1 "robot$ci") :: List.replicate 2 (.step 1)

theorem registry_credentials_within_limits_one : ∃ past σ,
    Run (program pairs) (System.quiet pairedAccounts 0 []) past σ ∧
      ∃ c ∈ σ.db.registryCredentials, c.status = .active ∧ ActivatedOnce past c.id := by
  have hplay : ((Machine.quiet pairedAccounts 0 []).play (program pairs) oneCredential).any
      (fun m => m.db.registryCredentials.any (·.status == .active)) = true := by
    decide +kernel
  obtain ⟨m, past, hrun, hcheck⟩ := play_any hplay
  obtain ⟨c, hc, hactive⟩ := any_eq_true.mp hcheck
  have hstatus : c.status = .active := beq_iff_eq.mp hactive
  exact ⟨past, m.system, hrun, c, hc, hstatus,
    (registry_credentials_within_limits (d := pairedAccounts) rfl hrun).2.1 c hc hstatus⟩

end HeteroCloud.Registry
