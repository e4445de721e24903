/-
  File:      CloudOrganizations/Commit.lean
  Subject:   WHAT A TRANSACTION on cloud organizations may publish.

  `Committable d held ws` lists the write sets the operations end with, each with the facts about
  the database and the locks it rests on. Said once for all of them:

  * `committable_ok` -- a committable write set keeps the shape of the organizations, and to
    everybody else (`Evolves`) it only adds rows: new ids are locked ones, and the attachments
    of an existing target change only under the lock of its organization.
-/
import HeteroCloud.CloudOrganizations.Program

namespace HeteroCloud.CloudOrganizations

open Base Iam Store List

/-! ## 1. Identifiers in use -/

variable (d : Db)

/-- The ids of the rows of the organization tables. -/
def cloudIds : List Uuid :=
  d.organizations.map (·.id) ++ d.cloudOrganizations.map (·.id) ++
    d.cloudOrganizationalUnits.map (·.id) ++ d.cloudServiceControlPolicies.map (·.id)

/-- An id that no row has. -/
structure Absent (k : Uuid) : Prop where
  organization : ∀ o ∈ d.organizations, o.id ≠ k
  cloudOrganization : ∀ o ∈ d.cloudOrganizations, o.id ≠ k
  unit : ∀ u ∈ d.cloudOrganizationalUnits, u.id ≠ k
  policy : ∀ p ∈ d.cloudServiceControlPolicies, p.id ≠ k

theorem absent_iff {d : Db} {k : Uuid} : Absent d k ↔ k ∉ cloudIds d := by
  unfold cloudIds
  simp only [mem_append, mem_map, not_or, not_exists, not_and]
  exact ⟨fun h => ⟨⟨⟨h.organization, h.cloudOrganization⟩, h.unit⟩, h.policy⟩,
    fun h => ⟨h.1.1.1, h.1.1.2, h.1.2, h.2⟩⟩

section Absent
variable {d : Db} {k : Uuid}
variable (h : Absent d k) (hd : CloudOk d)
include h hd

theorem Absent.unitOrganization : ∀ u ∈ d.cloudOrganizationalUnits, u.organizationId ≠ k := by
  intro u hu e
  obtain ⟨o, ho, he⟩ := hd.tree.organization u hu
  exact h.cloudOrganization o ho (he.trans e)

theorem Absent.policyOrganization : ∀ p ∈ d.cloudServiceControlPolicies, p.organizationId ≠ k := by
  intro p hp e
  obtain ⟨o, ho, he⟩ := hd.policies.organization p hp
  exact h.cloudOrganization o ho (he.trans e)

theorem Absent.account : ∀ a ∈ d.cloudOrganizationAccounts, a.accountId ≠ k := by
  intro a ha e
  obtain ⟨o, ho, he⟩ := hd.accounts.account a ha
  exact h.organization o ho (he.trans e)

theorem Absent.accountOrganization : ∀ a ∈ d.cloudOrganizationAccounts, a.organizationId ≠ k := by
  intro a ha e
  obtain ⟨u, hu, ho, _⟩ := hd.accounts.parent a ha
  exact h.unitOrganization hd u hu (ho.trans e)

/-- No target has the id. -/
theorem Absent.target (kind : TargetKind) : ∀ x ∈ targets d kind, x.2 ≠ k ∧ x.1 ≠ k := by
  intro x hx
  cases kind with
  | unit =>
    obtain ⟨u, hu, rfl⟩ := mem_map.mp hx
    exact ⟨h.unit u hu, h.unitOrganization hd u hu⟩
  | account =>
    obtain ⟨a, ha, rfl⟩ := mem_map.mp hx
    exact ⟨h.account hd a ha, h.accountOrganization hd a ha⟩

end Absent

/-- The attachments of a kind have the shape. -/
theorem CloudOk.attachments {d : Db} (h : CloudOk d) (kind : TargetKind) :
    AttachmentsOk (targets d kind) d.cloudServiceControlPolicies (attachments d kind) := by
  cases kind with
  | unit => exact h.unitAttachments
  | account => exact h.accountAttachments

theorem Absent.attachment {d : Db} {k : Uuid} (h : Absent d k) (hd : CloudOk d)
    (kind : TargetKind) :
    ∀ t ∈ attachments d kind, t.targetId ≠ k ∧ t.organizationId ≠ k :=
  fun t ht => h.target hd kind _ ((hd.attachments kind).target t ht)

/-! ## 2. Tables that are left alone -/

/-- The organization tables are the same. -/
structure SameCloud (d d' : Db) : Prop where
  organizations : d'.organizations = d.organizations
  cloudOrganizations : d'.cloudOrganizations = d.cloudOrganizations
  units : d'.cloudOrganizationalUnits = d.cloudOrganizationalUnits
  accounts : d'.cloudOrganizationAccounts = d.cloudOrganizationAccounts
  policies : d'.cloudServiceControlPolicies = d.cloudServiceControlPolicies
  unitAttachments : d'.cloudScpUnitAttachments = d.cloudScpUnitAttachments
  accountAttachments : d'.cloudScpAccountAttachments = d.cloudScpAccountAttachments

theorem SameCloud.cloudOk {d d' : Db} (h : SameCloud d d') (hd : CloudOk d) : CloudOk d' where
  organizationsKey := by rw [h.cloudOrganizations]; exact hd.organizationsKey
  management := by rw [h.cloudOrganizations, h.organizations]; exact hd.management
  tree := by rw [h.cloudOrganizations, h.units]; exact hd.tree
  policies := by rw [h.cloudOrganizations, h.policies]; exact hd.policies
  accounts := by rw [h.organizations, h.units, h.accounts]; exact hd.accounts
  unitAttachments := by rw [h.units, h.policies, h.unitAttachments]; exact hd.unitAttachments
  accountAttachments := by
    rw [h.accounts, h.policies, h.accountAttachments]
    exact hd.accountAttachments

/-- Writes that do not touch the organization tables. -/
def Write.isNeutral : Write → Bool
  | .insertUser _ | .insertPrincipal _ | .insertMembership _ => true
  | _ => false

theorem neutral_same {w : Write} (h : w.isNeutral = true) (d : Db) : SameCloud d (w.apply d) := by
  cases w <;> first | exact ⟨rfl, rfl, rfl, rfl, rfl, rfl, rfl⟩ | cases h

/-! ## 3. What a commit does to others -/

variable (held : List (Key × LockMode))

/-- Everything a commit under the locks `held` can do to the organization tables. -/
structure Evolves (d d' : Db) : Prop where
  cloudOrganizations : ∀ o ∈ d.cloudOrganizations, o ∈ d'.cloudOrganizations
  units : ∀ u ∈ d.cloudOrganizationalUnits, u ∈ d'.cloudOrganizationalUnits
  policies : ∀ p ∈ d.cloudServiceControlPolicies, p ∈ d'.cloudServiceControlPolicies
  managed : ∀ o ∈ d.cloudOrganizations, managedPolicies d'.cloudServiceControlPolicies o.id =
    managedPolicies d.cloudServiceControlPolicies o.id
  targets : ∀ kind, ∀ x ∈ targets d kind, x ∈ targets d' kind
  ids : ∀ k, Absent d k → (.row k, .exclusive) ∉ held → Absent d' k
  attached : ∀ kind, ∀ x ∈ CloudOrganizations.targets d kind,
    (.cloudOrganization x.1, .exclusive) ∉ held →
    attachedTo (attachments d' kind) x.2 = attachedTo (attachments d kind) x.2

section Evolves
variable {held : List (Key × LockMode)} {d d' d'' : Db}
variable (h : SameCloud d d')
include h

theorem targets_of_same (kind : TargetKind) : targets d' kind = targets d kind := by
  cases kind with
  | unit => exact congrArg unitTargets h.units
  | account => exact congrArg accountTargets h.accounts

theorem attachments_of_same (kind : TargetKind) : attachments d' kind = attachments d kind := by
  cases kind with
  | unit => exact h.unitAttachments
  | account => exact h.accountAttachments

theorem SameCloud.absent {k : Uuid} (hk : Absent d k) : Absent d' k := by
  rw [absent_iff] at hk ⊢
  unfold cloudIds at hk ⊢
  rwa [h.organizations, h.cloudOrganizations, h.units, h.policies]

omit h

theorem Evolves.trans_same (h : Evolves held d d') (hs : SameCloud d' d'') :
    Evolves held d d'' where
  cloudOrganizations := by rw [hs.cloudOrganizations]; exact h.cloudOrganizations
  units := by rw [hs.units]; exact h.units
  policies := by rw [hs.policies]; exact h.policies
  managed := by rw [hs.policies]; exact h.managed
  targets kind := by rw [targets_of_same hs]; exact h.targets kind
  ids k hk hl := hs.absent (h.ids k hk hl)
  attached kind := by rw [attachments_of_same hs]; exact h.attached kind

/-- The same with the unchanged tables first. -/
theorem SameCloud.trans_evolves (hs : SameCloud d d') (h : Evolves held d' d'') :
    Evolves held d d'' where
  cloudOrganizations := by rw [← hs.cloudOrganizations]; exact h.cloudOrganizations
  units := by rw [← hs.units]; exact h.units
  policies := by rw [← hs.policies]; exact h.policies
  managed := by rw [← hs.policies, ← hs.cloudOrganizations]; exact h.managed
  targets kind := by rw [← targets_of_same hs]; exact h.targets kind
  ids k hk hl := h.ids k (hs.absent hk) hl
  attached kind := by
    rw [← attachments_of_same hs, ← targets_of_same hs]
    exact h.attached kind

theorem Evolves.refl (held : List (Key × LockMode)) (d : Db) : Evolves held d d :=
  ⟨fun _ h => h, fun _ h => h, fun _ h => h, fun _ _ => rfl, fun _ _ h => h, fun _ h _ => h,
    fun _ _ _ _ => rfl⟩

end Evolves

/-! ## 4. Write sets -/

/-- The ids drawn for a new account: different, in no row, and locked. -/
structure NewIds (n : NewOrganization) : Prop where
  nodup : n.ids.Nodup
  absent : ∀ k ∈ n.ids, Absent d k
  locked : ∀ k ∈ n.ids, (.row k, .exclusive) ∈ held

theorem NewIds.of_same {d d' : Db} {held : List (Key × LockMode)} {n : NewOrganization}
    (h : NewIds d held n) (hs : SameCloud d d') : NewIds d' held n :=
  { h with absent := fun k hk => hs.absent (h.absent k hk) }

/-- One new id. -/
structure NewId (k : Uuid) : Prop where
  absent : Absent d k
  locked : (.row k, .exclusive) ∈ held

def HasPolicy (organizationId policyId : Uuid) : Prop :=
  ∃ p ∈ d.cloudServiceControlPolicies, p.organizationId = organizationId ∧ p.id = policyId

/-- A unit under which another one may be created: at most five units on its path. -/
def ShallowUnit (p : CloudOrganizationalUnitRow) : Prop :=
  ∃ path, PathToRoot d.cloudOrganizationalUnits p path ∧ path.length ≤ 5

/-- An attachment that the lock of its organization covers, of an existing target and policy. -/
structure CoveredAttachment (kind : TargetKind)
    (t : ScpAttachmentRow) : Prop where
  locked : (.cloudOrganization t.organizationId, .exclusive) ∈ held
  target : (t.organizationId, t.targetId) ∈ targets d kind
  policy : HasPolicy d t.organizationId t.policyId

/-- **The write sets a transaction may commit.** -/
inductive Committable (d : Db) (held : List (Key × LockMode)) : List Write → Prop where
  | nothing : Committable d held []
  | organization (n : NewOrganization) (hn : NewIds d held n) :
      Committable d held [.insertOrganization n]
  | registration (u : UserRow) (n : NewOrganization) (hn : NewIds d held n) :
      Committable d held [.insertUser u, .insertOrganization n]
  | memberAccount (n : NewOrganization) (a : CloudOrganizationAccountRow)
      (p : ServiceControlPolicyRow) (hn : NewIds d held n) (ha : a.accountId = n.organizationId)
      (hp : (a.organizationId, a.parentId) ∈ targets d .unit)
      (hm : managedPolicies d.cloudServiceControlPolicies a.organizationId = [p]) :
      Committable d held [.insertOrganization n, .deleteCloudOrganization n.cloudOrganizationId,
        .insertAccount a [⟨a.organizationId, a.accountId, p.id⟩]]
  | unit (u p : CloudOrganizationalUnitRow) (policy : ServiceControlPolicyRow)
      (hu : NewId d held u.id) (hp : u.parentId = some p.id)
      (ho : u.organizationId = p.organizationId) (hs : ShallowUnit d p)
      (hm : managedPolicies d.cloudServiceControlPolicies u.organizationId = [policy]) :
      Committable d held [.insertUnit u [⟨u.organizationId, u.id, policy.id⟩]]
  | move (accountId parentId : Uuid) (hp : ∀ a ∈ d.cloudOrganizationAccounts,
      a.accountId = accountId → (a.organizationId, parentId) ∈ targets d .unit)
      (ha : ∃ a ∈ d.cloudOrganizationAccounts, a.accountId = accountId) :
      Committable d held [.moveAccount accountId parentId]
  | policy (p : ServiceControlPolicyRow) (hp : NewId d held p.id)
      (ho : ∃ o ∈ d.cloudOrganizations, o.id = p.organizationId) (hm : p.isManaged = false)
      (hd : (PolicyDocument.fromValue p.document).isSome) :
      Committable d held [.insertPolicy p]
  | attach (kind : TargetKind) (t : ScpAttachmentRow) (ht : CoveredAttachment d held kind t)
      (hn : ∀ s ∈ attachedTo (attachments d kind) t.targetId, s.policyId ≠ t.policyId)
      (hc : (attachedTo (attachments d kind) t.targetId).length < 10) :
      Committable d held [.attach kind t]
  | detach (kind : TargetKind) (t : ScpAttachmentRow) (ht : CoveredAttachment d held kind t)
      (hc : 2 ≤ (attachedTo (attachments d kind) t.targetId).length) :
      Committable d held [.detach kind t]
  | neutral (ws : List Write) (w : Write) (h : Committable d held ws) (hw : w.isNeutral = true) :
      Committable d held (ws ++ [w])

/-! ## 5. A new account -/

section NewAccount
variable {d : Db} {held : List (Key × LockMode)} {n : NewOrganization}

theorem mem_ids_organization (n : NewOrganization) : n.organizationId ∈ n.ids := by
  simp [NewOrganization.ids]

theorem mem_ids_cloudOrganization (n : NewOrganization) : n.cloudOrganizationId ∈ n.ids := by
  simp [NewOrganization.ids]

theorem mem_ids_policy (n : NewOrganization) : n.policyId ∈ n.ids := by
  simp [NewOrganization.ids]

theorem mem_ids_root (n : NewOrganization) : n.rootId ∈ n.ids := by
  simp [NewOrganization.ids]

theorem NewIds.organization_ne_root (h : NewIds d held n) : n.organizationId ≠ n.rootId := by
  have := h.nodup
  simp [NewOrganization.ids] at this
  exact this.1.2.2

theorem insertOrganization_cloudOk (hd : CloudOk d) (hn : NewIds d held n) :
    CloudOk (Write.apply (.insertOrganization n) d) := by
  have hO := hn.absent _ (mem_ids_organization n)
  have hC := hn.absent _ (mem_ids_cloudOrganization n)
  have hP := hn.absent _ (mem_ids_policy n)
  have hR := hn.absent _ (mem_ids_root n)
  have hpolicy : ∃ p ∈ d.cloudServiceControlPolicies ++
      [(⟨n.policyId, n.cloudOrganizationId, fullAccessDocument, true⟩ : ServiceControlPolicyRow)],
      p.organizationId = n.cloudOrganizationId ∧ p.id = n.policyId :=
    ⟨_, mem_append_right _ (mem_singleton.mpr rfl), rfl, rfl⟩
  refine ⟨?_, ?_, ?_, ?_, ?_, ?_, ?_⟩
  · exact hd.organizationsKey.append (nodup_singleton _) fun a ha b hb =>
      mem_singleton.mp ha ▸ hC.cloudOrganization b hb
  · intro o ho
    rcases mem_append.mp ho with ho | ho
    · obtain ⟨m, hm, he⟩ := hd.management o ho
      exact ⟨m, mem_append_left _ hm, he⟩
    · exact ⟨_, mem_append_right _ (mem_singleton.mpr rfl),
        by rw [mem_singleton.mp ho]⟩
  · exact hd.tree.addOrganization _ _ rfl rfl hR.unit (hC.unitOrganization hd)
  · exact hd.policies.addOrganization _ _ rfl rfl (by rw [fromValue_fullAccessDocument]; rfl)
      hP.policy (hC.policyOrganization hd) hC.cloudOrganization
  · refine (hd.accounts.addUnit _ hR.organization).addAccount _ _ rfl
      ⟨_, mem_append_right _ (mem_singleton.mpr rfl), rfl, rfl⟩ hO.organization ?_
    intro u hu
    rcases mem_append.mp hu with hu | hu
    · exact hO.unit u hu
    · rw [mem_singleton.mp hu]
      exact (hn.organization_ne_root).symm
  · have := (hd.unitAttachments.mono fun p hp => mem_append_left _ hp).addTarget
      ⟨n.cloudOrganizationId, n.rootId, n.policyId⟩ hpolicy fun s hs =>
        (hR.attachment hd .unit s hs).1
    simpa [Write.apply, unitTargets] using this
  · have := (hd.accountAttachments.mono fun p hp => mem_append_left _ hp).addTarget
      ⟨n.cloudOrganizationId, n.organizationId, n.policyId⟩ hpolicy fun s hs =>
        (hO.attachment hd .account s hs).1
    simpa [Write.apply, accountTargets] using this

theorem insertOrganization_evolves (hd : CloudOk d) (hn : NewIds d held n) :
    Evolves held d (Write.apply (.insertOrganization n) d) where
  cloudOrganizations _ h := mem_append_left _ h
  units _ h := mem_append_left _ h
  policies _ h := mem_append_left _ h
  managed o ho := by
    have hne := (hn.absent _ (mem_ids_cloudOrganization n)).cloudOrganization o ho
    simp [Write.apply, managedPolicies, Ne.symm hne]
  targets kind x hx := by
    cases kind with
    | unit | account => exact map_subset _ (subset_append_left _ _) hx
  ids k hk hl := by
    have hne : ∀ i ∈ n.ids, i ≠ k := fun i hi e => hl (e ▸ hn.locked i hi)
    refine ⟨fun x hx => ?_, fun x hx => ?_, fun x hx => ?_, fun x hx => ?_⟩ <;>
      rcases mem_append.mp hx with hx | hx
    · exact hk.organization x hx
    · exact mem_singleton.mp hx ▸ hne _ (mem_ids_organization n)
    · exact hk.cloudOrganization x hx
    · exact mem_singleton.mp hx ▸ hne _ (mem_ids_cloudOrganization n)
    · exact hk.unit x hx
    · exact mem_singleton.mp hx ▸ hne _ (mem_ids_root n)
    · exact hk.policy x hx
    · exact mem_singleton.mp hx ▸ hne _ (mem_ids_policy n)
  attached kind x hx _ := by
    cases kind with
    | unit =>
      have hne := ((hn.absent _ (mem_ids_root n)).target hd .unit x hx).1
      exact attachedTo_append_other fun e => hne e.symm
    | account =>
      have hne := ((hn.absent _ (mem_ids_organization n)).target hd .account x hx).1
      exact attachedTo_append_other fun e => hne e.symm

end NewAccount

/-! ## 6. A member account -/

section MemberAccount
variable {d : Db} {held : List (Key × LockMode)} {n : NewOrganization}
  {a : CloudOrganizationAccountRow} {p : ServiceControlPolicyRow}

/-- The organization tables after a member account was created. -/
def memberDb (d : Db) (n : NewOrganization) (a : CloudOrganizationAccountRow)
    (t : ScpAttachmentRow) : Db :=
  { d with
    organizations := d.organizations ++ [⟨n.organizationId, n.accountNumber⟩]
    cloudOrganizationAccounts := d.cloudOrganizationAccounts ++ [a]
    cloudScpAccountAttachments := d.cloudScpAccountAttachments ++ [t] }

theorem filter_appended {α : Type} {f : α → Uuid} {c : Uuid} {xs : List α} {y : α}
    (hx : ∀ x ∈ xs, f x ≠ c) (hy : f y = c) : (xs ++ [y]).filter (fun x => f x != c) = xs := by
  rw [filter_append, filter_eq_self.mpr fun x h => by simpa using hx x h]
  simp [hy]

variable (hd : CloudOk d) (hn : NewIds d held n)
include hd hn

/-- Between the two statements the policies are those of before. -/
theorem memberDelete_policies : (program.applyAll [.insertOrganization n, .deleteCloudOrganization
    n.cloudOrganizationId] d).cloudServiceControlPolicies = d.cloudServiceControlPolicies := by
  have hC := hn.absent _ (mem_ids_cloudOrganization n)
  have h := filter_appended (y := ⟨n.policyId, _, fullAccessDocument, true⟩)
    (hC.policyOrganization hd) rfl
  simp only [Program.applyAll_cons, Program.applyAll_nil, program, Write.apply, h]

/-- The organization the trigger created is gone again, with everything in it. -/
theorem memberAccount_applyAll (t : ScpAttachmentRow) : program.applyAll [.insertOrganization n,
    .deleteCloudOrganization n.cloudOrganizationId, .insertAccount a [t]] d = memberDb d n a t := by
  have hC := hn.absent _ (mem_ids_cloudOrganization n)
  have h1 := filter_appended (y := ⟨_, n.organizationId⟩) hC.cloudOrganization rfl
  have h2 := filter_appended (y := ⟨n.policyId, _, fullAccessDocument, true⟩)
    (hC.policyOrganization hd) rfl
  have h3 := filter_appended (y := ⟨n.rootId, _, none⟩) (hC.unitOrganization hd) rfl
  have h4 := filter_appended (y := ⟨n.organizationId, _, n.rootId⟩) (hC.accountOrganization hd) rfl
  have h5 := filter_appended (y := ⟨_, n.rootId, n.policyId⟩)
    (fun t ht => (hC.attachment hd .unit t ht).2) rfl
  have h6 := filter_appended (y := ⟨_, n.organizationId, n.policyId⟩)
    (fun t ht => (hC.attachment hd .account t ht).2) rfl
  simp only [attachments] at h5 h6
  simp only [Program.applyAll_cons, Program.applyAll_nil, program, Write.apply, memberDb, h1, h2,
    h3, h4, h5, h6]

theorem memberDb_cloudOk (ha : a.accountId = n.organizationId) (hp : (a.organizationId, a.parentId)
    ∈ targets d .unit) (hm : managedPolicies d.cloudServiceControlPolicies a.organizationId = [p]) :
    CloudOk (memberDb d n a ⟨a.organizationId, a.accountId, p.id⟩) := by
  have hO := hn.absent _ (mem_ids_organization n)
  have hpm : p ∈ managedPolicies d.cloudServiceControlPolicies a.organizationId := by
    rw [hm]
    exact mem_singleton.mpr rfl
  obtain ⟨hpd, hpq⟩ := mem_filter.mp hpm
  simp at hpq
  refine ⟨hd.organizationsKey, fun o ho => ?_, hd.tree, hd.policies, ?_, hd.unitAttachments, ?_⟩
  · obtain ⟨m, hmm, he⟩ := hd.management o ho
    exact ⟨m, mem_append_left _ hmm, he⟩
  · obtain ⟨u, hu, he⟩ := mem_map.mp hp
    rw [Prod.mk.injEq] at he
    exact hd.accounts.addAccount _ a ha ⟨u, hu, he⟩ hO.organization hO.unit
  · have := hd.accountAttachments.addTarget ⟨a.organizationId, a.accountId, p.id⟩
      ⟨p, hpd, hpq.1, rfl⟩ fun s hs => ha ▸ (hO.attachment hd .account s hs).1
    simpa [memberDb, accountTargets] using this

theorem memberDb_evolves (ha : a.accountId = n.organizationId) (t : ScpAttachmentRow) (ht :
    t.targetId = a.accountId) : Evolves held d (memberDb d n a t) where
  cloudOrganizations _ h := h
  units _ h := h
  policies _ h := h
  managed _ _ := rfl
  targets kind x hx := by
    cases kind with
    | unit => exact hx
    | account => exact map_subset _ (subset_append_left _ _) hx
  ids k hk hl := by
    have hne : n.organizationId ≠ k := fun e => hl (e ▸ hn.locked _ (mem_ids_organization n))
    refine ⟨fun x hx => ?_, hk.cloudOrganization, hk.unit, hk.policy⟩
    rcases mem_append.mp hx with hx | hx
    · exact hk.organization x hx
    · exact mem_singleton.mp hx ▸ hne
  attached kind x hx _ := by
    cases kind with
    | unit => rfl
    | account =>
      have hne := ((hn.absent _ (mem_ids_organization n)).target hd .account x hx).1
      exact attachedTo_append_other fun e => hne (e.symm.trans (ht.trans ha))

end MemberAccount

/-! ## 7. Units, policies, moves and attachments -/

section Changes
variable {d : Db} {held : List (Key × LockMode)}
variable (hd : CloudOk d)
include hd

theorem insertUnit_ok {u p : CloudOrganizationalUnitRow} {policy : ServiceControlPolicyRow} (hu :
    NewId d held u.id) (hp : u.parentId = some p.id) (ho : u.organizationId = p.organizationId) (hs
    : ShallowUnit d p) (hm : managedPolicies d.cloudServiceControlPolicies u.organizationId =
    [policy]) : CloudOk (Write.apply (.insertUnit u [⟨u.organizationId, u.id, policy.id⟩]) d) ∧
    Evolves held d (Write.apply (.insertUnit u [⟨u.organizationId, u.id, policy.id⟩]) d) := by
  have hpm : policy ∈ managedPolicies d.cloudServiceControlPolicies u.organizationId := by
    rw [hm]
    exact mem_singleton.mpr rfl
  obtain ⟨hpd, hpq⟩ := mem_filter.mp hpm
  simp at hpq
  obtain ⟨path, hpath, hlen⟩ := hs
  refine ⟨⟨hd.organizationsKey, hd.management, ?_, hd.policies, ?_, ?_, hd.accountAttachments⟩, ?_⟩
  · exact hd.tree.addUnit u p hu.absent.unit hp ho hpath hlen
  · exact hd.accounts.addUnit u hu.absent.organization
  · have := hd.unitAttachments.addTarget ⟨u.organizationId, u.id, policy.id⟩
      ⟨policy, hpd, hpq.1, rfl⟩ fun s hs => (hu.absent.attachment hd .unit s hs).1
    simpa [Write.apply, unitTargets] using this
  refine ⟨fun _ h => h, fun _ h => mem_append_left _ h, fun _ h => h, fun _ _ => rfl,
    fun kind x hx => ?_, fun k hk hl => ?_, fun kind x hx _ => ?_⟩
  · cases kind with
    | unit => exact map_subset _ (subset_append_left _ _) hx
    | account => exact hx
  · refine ⟨hk.organization, hk.cloudOrganization, fun w hw => ?_, hk.policy⟩
    rcases mem_append.mp hw with hw | hw
    · exact hk.unit w hw
    · rw [mem_singleton.mp hw]
      exact fun e => hl (e ▸ hu.locked)
  · cases kind with
    | unit => exact attachedTo_append_other fun e => (hu.absent.target hd .unit x hx).1 e.symm
    | account => rfl

theorem insertPolicy_ok {p : ServiceControlPolicyRow} (hp : NewId d held p.id) (ho : ∃ o ∈
    d.cloudOrganizations, o.id = p.organizationId) (hm : p.isManaged = false) (hdoc :
    (PolicyDocument.fromValue p.document).isSome) : CloudOk (Write.apply (.insertPolicy p) d) ∧
    Evolves held d (Write.apply (.insertPolicy p) d) := by
  have hsub : ∀ q ∈ d.cloudServiceControlPolicies, q ∈ d.cloudServiceControlPolicies ++ [p] :=
    fun q hq => mem_append_left _ hq
  refine ⟨⟨hd.organizationsKey, hd.management, hd.tree,
    hd.policies.addPolicy p ho hm hdoc hp.absent.policy, hd.accounts,
    hd.unitAttachments.mono hsub, hd.accountAttachments.mono hsub⟩, ?_⟩
  refine ⟨fun _ h => h, fun _ h => h, hsub, fun o _ => ?_,
    fun kind x hx => by cases kind <;> exact hx, fun k hk hl => ?_,
    fun kind x hx _ => by cases kind <;> rfl⟩
  · simp [Write.apply, managedPolicies, hm]
  refine ⟨hk.organization, hk.cloudOrganization, hk.unit, fun q hq => ?_⟩
  rcases mem_append.mp hq with hq | hq
  · exact hk.policy q hq
  · rw [mem_singleton.mp hq]
    exact fun e => hl (e ▸ hp.locked)

theorem moveAccount_ok {accountId parentId : Uuid} (hp : ∀ a ∈ d.cloudOrganizationAccounts,
    a.accountId = accountId → (a.organizationId, parentId) ∈ targets d .unit) : CloudOk (Write.apply
    (.moveAccount accountId parentId) d) ∧ Evolves held d (Write.apply (.moveAccount accountId
    parentId) d) := by
  have ht : accountTargets (reparent d.cloudOrganizationAccounts accountId parentId) =
      accountTargets d.cloudOrganizationAccounts := reparent_targets ..
  refine ⟨⟨hd.organizationsKey, hd.management, hd.tree, hd.policies,
    hd.accounts.move accountId parentId fun a ha e => ?_, hd.unitAttachments, ?_⟩, ?_⟩
  · obtain ⟨u, hu, he⟩ := mem_map.mp (hp a ha e)
    rw [Prod.mk.injEq] at he
    exact ⟨u, hu, he⟩
  · show AttachmentsOk (accountTargets (reparent _ _ _)) _ _
    rw [ht]
    exact hd.accountAttachments
  refine ⟨fun _ h => h, fun _ h => h, fun _ h => h, fun _ _ => rfl, fun kind x hx => ?_,
    fun k hk _ => ⟨hk.organization, hk.cloudOrganization, hk.unit, hk.policy⟩,
    fun kind x hx _ => by cases kind <;> rfl⟩
  cases kind with
  | unit => exact hx
  | account =>
    show x ∈ accountTargets (reparent _ _ _)
    rw [ht]
    exact hx

/-- Targets of one kind with the same id are in the same organization. -/
theorem target_organization (kind : TargetKind) {x y : Uuid × Uuid} (hx : x ∈ targets d kind) (hy :
    y ∈ targets d kind) (e : x.2 = y.2) : x.1 = y.1 := by
  cases kind with
  | unit =>
    obtain ⟨u, hu, rfl⟩ := mem_map.mp hx
    obtain ⟨w, hw, rfl⟩ := mem_map.mp hy
    rw [hd.tree.key.eq hu hw e]
  | account =>
    obtain ⟨u, hu, rfl⟩ := mem_map.mp hx
    obtain ⟨w, hw, rfl⟩ := mem_map.mp hy
    rw [hd.accounts.key.eq hu hw e]

variable {t : ScpAttachmentRow} {ts : List ScpAttachmentRow}

/-- A change of one attachment table under the lock of the organization. -/
theorem setAttachments_ok {kind : TargetKind} (ht : CoveredAttachment d held kind t) (hts :
    AttachmentsOk (targets d kind) d.cloudServiceControlPolicies ts) (hother : ∀ id, id ≠ t.targetId
    → attachedTo ts id = attachedTo (attachments d kind) id) : CloudOk (setAttachments d kind ts) ∧
    Evolves held d (setAttachments d kind ts) := by
  have hown : ∀ x ∈ targets d kind, (.cloudOrganization x.1, .exclusive) ∉ held →
      attachedTo ts x.2 = attachedTo (attachments d kind) x.2 := by
    intro x hx hl
    refine hother x.2 fun e => hl ?_
    rw [target_organization hd kind hx ht.target e]
    exact ht.locked
  cases kind with
  | unit =>
    refine ⟨⟨hd.organizationsKey, hd.management, hd.tree, hd.policies, hd.accounts, hts,
      hd.accountAttachments⟩, fun _ h => h, fun _ h => h, fun _ h => h, fun _ _ => rfl,
      fun kind x hx => by cases kind <;> exact hx,
      fun k hk _ => ⟨hk.organization, hk.cloudOrganization, hk.unit, hk.policy⟩,
      fun kind x hx hl => ?_⟩
    cases kind with
    | unit => exact hown x hx hl
    | account => rfl
  | account =>
    refine ⟨⟨hd.organizationsKey, hd.management, hd.tree, hd.policies, hd.accounts,
      hd.unitAttachments, hts⟩, fun _ h => h, fun _ h => h, fun _ h => h, fun _ _ => rfl,
      fun kind x hx => by cases kind <;> exact hx,
      fun k hk _ => ⟨hk.organization, hk.cloudOrganization, hk.unit, hk.policy⟩,
      fun kind x hx hl => ?_⟩
    cases kind with
    | unit => rfl
    | account => exact hown x hx hl

omit hd

theorem attachedTo_filter_other {id : Uuid} (h : id ≠ t.targetId) : attachedTo (ts.filter (· != t))
    id = attachedTo ts id := by
  unfold attachedTo
  rw [filter_filter]
  refine filter_congr fun s _ => ?_
  by_cases e : s.targetId = id
  · have hne : s ≠ t := fun he => h (e.symm.trans (congrArg _ he))
    simp [e, hne]
  · simp [e]

end Changes

/-! ## 8. All write sets -/

section Committable
variable {d d' : Db} {held held' : List (Key × LockMode)} {ws : List Write}

/-- **A committable write set keeps the shape, and evolves the tables under its locks.** -/
theorem committable_ok (hd : CloudOk d) (h : Committable d held ws) :
    CloudOk (program.applyAll ws d) ∧ Evolves held d (program.applyAll ws d) := by
  induction h with
  | nothing => exact ⟨hd, .refl held d⟩
  | organization n hn =>
    exact ⟨insertOrganization_cloudOk hd hn, insertOrganization_evolves hd hn⟩
  | registration u n hn =>
    have hs : SameCloud d (Write.apply (.insertUser u) d) := neutral_same rfl d
    have hn' := hn.of_same hs
    exact ⟨insertOrganization_cloudOk (hs.cloudOk hd) hn',
      hs.trans_evolves (insertOrganization_evolves (hs.cloudOk hd) hn')⟩
  | memberAccount n a p hn ha hp hm =>
    rw [memberAccount_applyAll hd hn]
    exact ⟨memberDb_cloudOk hd hn ha hp hm, memberDb_evolves hd hn ha _ rfl⟩
  | unit _ _ _ hu hp ho hs hm => exact insertUnit_ok hd hu hp ho hs hm
  | move _ _ hp => exact moveAccount_ok hd hp
  | policy p hp ho hm hdoc => exact insertPolicy_ok hd hp ho hm hdoc
  | attach kind t ht hn hc =>
    refine setAttachments_ok hd ht ((hd.attachments kind).add t ht.target (fun _ h => h)
      (fun _ h => .inl h) ht.policy (fun s hs e => hn s ?_) hc) fun id hne => ?_
    · exact mem_filter.mpr ⟨hs, beq_iff_eq.mpr e⟩
    · exact attachedTo_append_other fun e => hne e.symm
  | detach kind t ht hc =>
    exact setAttachments_ok hd ht ((hd.attachments kind).remove t hc)
      fun id hne => attachedTo_filter_other hne
  | neutral ws w _ hw ih =>
    rw [Program.applyAll_append]
    have hs : SameCloud (program.applyAll ws d) (program.applyAll [w] (program.applyAll ws d)) :=
      neutral_same hw _
    exact ⟨hs.cloudOk ih.1, ih.2.trans_same hs⟩

theorem NewIds.stable {n : NewOrganization} (h : NewIds d held n) (he : Evolves held' d d')
    (hc : Compatible held' held) : NewIds d' held n :=
  { h with absent := fun k hk => he.ids k (h.absent k hk) (hc.not_held (h.locked k hk)) }

theorem NewId.stable {k : Uuid} (h : NewId d held k) (he : Evolves held' d d')
    (hc : Compatible held' held) : NewId d' held k :=
  { h with absent := he.ids k h.absent (hc.not_held h.locked) }

variable {kind : TargetKind} {t : ScpAttachmentRow}

theorem CoveredAttachment.stable (h : CoveredAttachment d held kind t) (he : Evolves held' d d') :
    CoveredAttachment d' held kind t :=
  { h with
    target := he.targets kind _ h.target
    policy := by
      obtain ⟨p, hp, hq⟩ := h.policy
      exact ⟨p, he.policies p hp, hq⟩ }

/-- Under the lock the attachments of the target stay what they are. -/
theorem CoveredAttachment.attachedTo_eq (h : CoveredAttachment d held kind t) (he : Evolves held' d
    d') (hc : Compatible held' held) : attachedTo (attachments d' kind) t.targetId = attachedTo
    (attachments d kind) t.targetId :=
  he.attached kind _ h.target (hc.not_held h.locked)

theorem ShallowUnit.stable {p : CloudOrganizationalUnitRow} (h : ShallowUnit d p)
    (he : Evolves held' d d') : ShallowUnit d' p := by
  obtain ⟨path, hpath, hlen⟩ := h
  exact ⟨path, hpath.mono he.units, hlen⟩

/-- The managed policy of a target's organization stays the same. -/
theorem managed_stable (hd : CloudOk d) (he : Evolves held' d d') {o k : Uuid}
    (ht : (o, k) ∈ targets d .unit) :
    managedPolicies d'.cloudServiceControlPolicies o =
      managedPolicies d.cloudServiceControlPolicies o := by
  obtain ⟨u, hu, hue⟩ := mem_map.mp ht
  rw [Prod.mk.injEq] at hue
  obtain ⟨x, hx, hxe⟩ := hd.tree.organization u hu
  rw [← hue.1, ← hxe]
  exact he.managed x hx

/-- An account keeps its organization. -/
theorem account_stable (hd' : CloudOk d') (he : Evolves held' d d')
    {a a' : CloudOrganizationAccountRow} (ha : a ∈ d.cloudOrganizationAccounts)
    (ha' : a' ∈ d'.cloudOrganizationAccounts) (e : a'.accountId = a.accountId) :
    a'.organizationId = a.organizationId := by
  have hx : (a.organizationId, a.accountId) ∈ accountTargets d'.cloudOrganizationAccounts :=
    he.targets .account _ (mem_map_of_mem ha)
  obtain ⟨b, hb, hbe⟩ := mem_map.mp hx
  rw [Prod.mk.injEq] at hbe
  rw [hd'.accounts.key.eq ha' hb (e.trans hbe.2.symm), hbe.1]

/-- More locks cover no less. -/
theorem Committable.more_locks (hl : ∀ x ∈ held, x ∈ held') (h : Committable d held ws) :
    Committable d held' ws := by
  have hn : ∀ {n}, NewIds d held n → NewIds d held' n := fun h =>
    { h with locked := fun k hk => hl _ (h.locked k hk) }
  have hi : ∀ {k}, NewId d held k → NewId d held' k := fun h => { h with locked := hl _ h.locked }
  have hc : ∀ {kind t}, CoveredAttachment d held kind t → CoveredAttachment d held' kind t :=
    fun h => { h with locked := hl _ h.locked }
  induction h with
  | nothing => exact .nothing
  | organization n h => exact .organization n (hn h)
  | registration u n h => exact .registration u n (hn h)
  | memberAccount n a p h ha hp hm => exact .memberAccount n a p (hn h) ha hp hm
  | unit u p policy h hp ho hs hm => exact .unit u p policy (hi h) hp ho hs hm
  | move accountId parentId hp ha => exact .move accountId parentId hp ha
  | policy p h ho hm hd => exact .policy p (hi h) ho hm hd
  | attach kind t h hs hlen => exact .attach kind t (hc h) hs hlen
  | detach kind t h hlen => exact .detach kind t (hc h) hlen
  | neutral ws w _ hw ih => exact .neutral ws w ih hw

/-- **Committable write sets stay committable** while calls with compatible locks commit. -/
theorem Committable.stable (hd : CloudOk d) (hd' : CloudOk d') (he : Evolves held' d d')
    (hc : Compatible held' held) (h : Committable d held ws) : Committable d' held ws := by
  induction h with
  | nothing => exact .nothing
  | organization n hn => exact .organization n (hn.stable he hc)
  | registration u n hn => exact .registration u n (hn.stable he hc)
  | memberAccount n a p hn ha hp hm =>
    exact .memberAccount n a p (hn.stable he hc) ha (he.targets .unit _ hp)
      ((managed_stable hd he hp).trans hm)
  | unit u p policy hu hp ho hs hm =>
    have hpu : (u.organizationId, p.id) ∈ targets d .unit := by
      obtain ⟨path, hpath, _⟩ := hs
      exact mem_map.mpr ⟨p, hpath.mem, by rw [ho]⟩
    exact .unit u p policy (hu.stable he hc) hp ho (hs.stable he)
      ((managed_stable hd he hpu).trans hm)
  | move accountId parentId hp ha =>
    obtain ⟨a, ham, hae⟩ := ha
    have hx := he.targets .account _ (mem_map_of_mem ham)
    obtain ⟨b, hb, hbe⟩ := mem_map.mp hx
    rw [Prod.mk.injEq] at hbe
    refine .move accountId parentId (fun c hcm hce => ?_) ⟨b, hb, hbe.2.trans hae⟩
    rw [account_stable hd' he ham hcm (hce.trans hae.symm)]
    exact he.targets .unit _ (hp a ham hae)
  | policy p hp ho hm hdoc =>
    obtain ⟨o, hom, hoe⟩ := ho
    exact .policy p (hp.stable he hc) ⟨o, he.cloudOrganizations o hom, hoe⟩ hm hdoc
  | attach kind t ht =>
    have heq := ht.attachedTo_eq he hc
    exact .attach kind t (ht.stable he) (by rwa [heq]) (by rwa [heq])
  | detach kind t ht =>
    exact .detach kind t (ht.stable he) (by rwa [ht.attachedTo_eq he hc])
  | neutral ws w _ hw ih => exact .neutral ws w ih hw

end Committable
end HeteroCloud.CloudOrganizations
