/-
  File:      Store/Isolation.lean
  Subject:   WHICH ROWS the authorization queries of an account read.

  `SameAccount a` relates two states that hold the same rows of account `a` and of its cloud
  organization and are otherwise unrelated. Every query of Store/Authorization.lean for `a`
  gives the same answer in both; the documents of a service control level come in any order.
-/
import HeteroCloud.Store.Authorization

namespace HeteroCloud.Store

open Base Iam List

/-! ## 1. Agreement -/

/-- The same rows of the cloud organization `o`. -/
structure SameCloudOrganization (o : Uuid) (db db' : Db) : Prop where
  organization : SameRows (·.id = o) db.cloudOrganizations db'.cloudOrganizations
  units : SameRows (·.organizationId = o) db.cloudOrganizationalUnits db'.cloudOrganizationalUnits
  policies : SameRows (·.organizationId = o) db.cloudServiceControlPolicies
    db'.cloudServiceControlPolicies
  unitAttachments : SameRows (·.organizationId = o) db.cloudScpUnitAttachments
    db'.cloudScpUnitAttachments
  accountAttachments : SameRows (·.organizationId = o) db.cloudScpAccountAttachments
    db'.cloudScpAccountAttachments

/-- The same rows of account `a`: principals, memberships and their users, policies, bindings,
group members and attachments, its place in a cloud organization, and that organization. -/
structure SameAccount (a : Uuid) (db db' : Db) : Prop where
  principals : SameRows (·.organizationId = a) db.principals db'.principals
  memberships : SameRows (·.organizationId = a) db.organizationMemberships
    db'.organizationMemberships
  memberUsers : ∀ m ∈ db.organizationMemberships, m.organizationId = a →
    SameRows (·.id = m.userId) db.users db'.users
  principalUsers : ∀ p ∈ db.principals, p.organizationId = a → ∀ u, p.userId = some u →
    SameRows (·.id = u) db.users db'.users
  policies : SameRows (·.organizationId = a) db.iamPolicies db'.iamPolicies
  bindings : SameRows (·.organizationId = a) db.iamBindings db'.iamBindings
  groupMembers : SameRows (·.organizationId = a) db.iamGroupMembers db'.iamGroupMembers
  groupPolicyAttachments : SameRows (·.organizationId = a) db.iamGroupPolicyAttachments
    db'.iamGroupPolicyAttachments
  account : SameRows (·.accountId = a) db.cloudOrganizationAccounts db'.cloudOrganizationAccounts
  cloudOrganization : ∀ r ∈ db.cloudOrganizationAccounts, r.accountId = a →
    SameCloudOrganization r.organizationId db db'
  scpEnabled : db.cloudSecurityActivation.scpEnabled = db'.cloudSecurityActivation.scpEnabled

/-! ## 2. Contexts -/

section Contexts
variable {a : Uuid} {db db' : Database}

theorem activeUser_eq {db db' : Db} {u : Uuid} (h : SameRows (·.id = u) db.users db'.users) :
    db.activeUser u = db'.activeUser u :=
  h.any_eq (.same fun r hr => by simp at hr; exact hr.1)

theorem attached_eq {db db' : Db} (h : SameAccount a db db') (principalId policyId : Uuid) :
    db.attached a principalId policyId = db'.attached a principalId policyId := by
  unfold Db.attached
  congr 1
  · exact h.bindings.any_eq (.same fun b hb => by simp at hb; exact hb.1.1)
  refine h.groupMembers.any_eq ⟨fun gm _ hg => ?_, fun gm _ hg => ?_, fun gm _ ha => ?_⟩
  · simp at hg
    exact hg.1.1
  · simp at hg
    exact hg.1.1
  · rw [h.groupPolicyAttachments.any_eq (.same fun gp hg => by simp at hg; rw [hg.1.1, ha])]

section
variable (h : SameAccount a db.toDb db'.toDb)
include h
variable (principalId : Uuid)

theorem principalPolicies_eq : db.principalPolicies a principalId = db'.principalPolicies a
    principalId := by
  unfold Db.principalPolicies
  have hp : (db.iamPolicies.filter fun p => p.organizationId == a &&
      db.attached a principalId p.id).Perm (db'.iamPolicies.filter fun p => p.organizationId == a &&
      db'.attached a principalId p.id) := h.policies.filter_perm
    ⟨fun p _ hp => by simp at hp; exact hp.1, fun p _ hp => by simp at hp; exact hp.1,
      fun p _ _ => by rw [attached_eq h]⟩ db.keys.policies_pkey.nodup db'.keys.policies_pkey.nodup
  have hu : UniqueKey (·.id) (db.iamPolicies.filter fun p => p.organizationId == a &&
      db.attached a principalId p.id) :=
    db.keys.policies_pkey.sublist (filter_sublist.map _)
  rw [orderBy_eq hp hu]

theorem permissionsBoundary_eq : db.permissionsBoundary a principalId = db'.permissionsBoundary a
    principalId := by
  unfold Db.permissionsBoundary
  have hp : db.principals.find? (fun p => p.organizationId == a && p.id == principalId) =
      db'.principals.find? (fun p => p.organizationId == a && p.id == principalId) := by
    refine h.principals.find?_eq (.same fun p hp => by simp at hp; exact hp.1) ?_
    intro p hp q hq ep eq
    simp at ep eq
    exact db.keys.principals_pkey.eq hp hq (ep.2.trans eq.2.symm)
  rw [hp]
  cases hr : db'.principals.find? (fun p => p.organizationId == a && p.id == principalId) with
  | none => rfl
  | some r =>
    have hra : r.organizationId = a := by
      have := find?_some hr
      simp at this
      exact this.1
    have hq : db.iamPolicies.find? (fun policy => policy.organizationId == r.organizationId &&
          some policy.id == r.permissionsBoundaryPolicyId) =
        db'.iamPolicies.find? (fun policy => policy.organizationId == r.organizationId &&
          some policy.id == r.permissionsBoundaryPolicyId) := by
      refine h.policies.find?_eq (.same fun p hp => by simp at hp; rw [hp.1, hra]) ?_
      intro p hp q hq ep eq
      simp at ep eq
      exact db.keys.policies_pkey.eq hp hq (Option.some.inj (ep.2.trans eq.2.symm))
    simp only [Option.bind_some, hq]

variable (userId : Uuid)

theorem activeMembership_eq : db.activeMembership userId a = db'.activeMembership userId a := by
  unfold Db.activeMembership
  refine h.memberships.find?_eq ⟨fun m _ hm => ?_, fun m _ hm => ?_, fun m hm ha => ?_⟩ ?_
  · simp at hm
    exact hm.1.1.2
  · simp at hm
    exact hm.1.1.2
  · rw [activeUser_eq (h.memberUsers m hm ha),
      h.principals.any_eq (.same fun p hp => by simp at hp; rw [hp.1.1.2, ha])]
  intro m hm n hn em en
  simp at em en
  refine db.keys.memberships_pkey.eq hm hn ?_
  simp only [em.1.1, en.1.1]

theorem authorizationContext_eq : db.authorizationContext userId a = db'.authorizationContext userId
    a := by
  unfold Db.authorizationContext
  rw [activeMembership_eq h]
  cases db'.activeMembership userId a with
  | none => rfl
  | some => simp only [principalPolicies_eq h, permissionsBoundary_eq h]

theorem activePrincipal_eq : db.activePrincipal principalId a = db'.activePrincipal principalId a :=
    by
  unfold Db.activePrincipal
  refine h.principals.any_eq ⟨fun p _ hp => ?_, fun p _ hp => ?_, fun p hp ha => ?_⟩
  · simp at hp
    exact hp.1.1.2
  · simp at hp
    exact hp.1.1.2
  cases hu : p.userId with
  | none => rfl
  | some u => simp only [activeUser_eq (h.principalUsers p hp ha u hu)]

theorem authorizationContextForPrincipal_eq : db.authorizationContextForPrincipal principalId a =
    db'.authorizationContextForPrincipal principalId a := by
  unfold Db.authorizationContextForPrincipal
  rw [activePrincipal_eq h, principalPolicies_eq h, permissionsBoundary_eq h]

end
end Contexts

/-! ## 3. Service control levels -/

section Levels
variable {a o : Uuid} {db db' : Database}

/-- The account row, the organization and its root decide the management account: the two joins
with `organizations` always succeed. -/
theorem managementAccount_join (db : Database) (accountId : Uuid) :
    (db.cloudOrganizationForAccount accountId).map (·.managementAccountId) =
      (db.cloudOrganizationAccounts.find? (·.accountId == accountId)).bind fun r =>
        (db.cloudOrganizations.find? (·.id == r.organizationId)).bind fun o =>
          (db.cloudOrganizationalUnits.find? fun u =>
            u.organizationId == o.id && u.parentId == none).map fun _ => o.managementAccountId := by
  have hfind (i : Uuid) (hi : ∃ m ∈ db.organizations, m.id = i) :
      ∃ m, db.organizations.find? (·.id == i) = some m := by
    obtain ⟨m, hm, rfl⟩ := hi
    exact Option.isSome_iff_exists.mp (find?_isSome.mpr ⟨m, hm, beq_self_eq_true _⟩)
  unfold Db.cloudOrganizationForAccount
  cases hr : db.cloudOrganizationAccounts.find? (·.accountId == accountId) with
  | none => rfl
  | some r =>
    obtain ⟨c, hc⟩ := hfind r.accountId (db.keys.accounts_account r (mem_of_find?_eq_some hr))
    cases ho : db.cloudOrganizations.find? (·.id == r.organizationId) with
    | none => simp [ho]
    | some o =>
      obtain ⟨m, hm⟩ := hfind o.managementAccountId
        (db.keys.cloudOrganizations_management o (mem_of_find?_eq_some ho))
      simp only [Option.bind_eq_bind, Option.bind_some, ho, hm, hc]
      cases db.cloudOrganizationalUnits.find? fun u =>
        u.organizationId == o.id && u.parentId == none <;> rfl

theorem account_find_eq (h : SameAccount a db.toDb db'.toDb) :
    db.cloudOrganizationAccounts.find? (·.accountId == a) =
      db'.cloudOrganizationAccounts.find? (·.accountId == a) := by
  refine h.account.find?_eq (.same fun r hr => by simpa using hr) fun r hr q hq er eq => ?_
  exact db.keys.accounts_pkey.eq hr hq ((beq_iff_eq.mp er).trans (beq_iff_eq.mp eq).symm)

theorem managementAccount_eq (h : SameAccount a db.toDb db'.toDb) :
    (db.cloudOrganizationForAccount a).map (·.managementAccountId) =
      (db'.cloudOrganizationForAccount a).map (·.managementAccountId) := by
  rw [managementAccount_join, managementAccount_join, account_find_eq h]
  cases hr : db'.cloudOrganizationAccounts.find? (·.accountId == a) with
  | none => rfl
  | some r =>
    obtain ⟨hrm, hra⟩ := find?_key ((account_find_eq h).trans hr)
    have hc := h.cloudOrganization r hrm hra
    have ho : db.cloudOrganizations.find? (·.id == r.organizationId) =
        db'.cloudOrganizations.find? (·.id == r.organizationId) := by
      refine hc.organization.find?_eq (.same fun x hx => by simpa using hx) ?_
      intro x hx y hy ex ey
      exact db.keys.cloudOrganizations_pkey.eq hx hy
        ((beq_iff_eq.mp ex).trans (beq_iff_eq.mp ey).symm)
    simp only [Option.bind_some, ho]
    cases hx : db'.cloudOrganizations.find? (·.id == r.organizationId) with
    | none => rfl
    | some x =>
      have hxo := (find?_key hx).2
      have hu : db.cloudOrganizationalUnits.find? (fun u =>
            u.organizationId == x.id && u.parentId == none) =
          db'.cloudOrganizationalUnits.find? (fun u =>
            u.organizationId == x.id && u.parentId == none) := by
        refine hc.units.find?_eq (.same fun u hu => by simp at hu; rw [hu.1, hxo]) ?_
        intro u hu v hv eu ev
        simp at eu ev
        exact db.keys.units_root u hu v hv eu.2 ev.2 (eu.1.trans ev.1.symm)
      simp only [Option.bind_some, hu]

/-- The recursive query stays inside the organization of the unit it starts from. -/
theorem ancestors_perm {units units' : List CloudOrganizationalUnitRow}
    (h : SameRows (·.organizationId = o) units units') (hn : units.Nodup) (hn' : units'.Nodup)
    (rounds : Nat) (u : CloudOrganizationalUnitRow) (hu : u.organizationId = o)
    (visited : List Uuid) :
    (ancestors units rounds u visited).Perm (ancestors units' rounds u visited) := by
  induction rounds generalizing u visited with
  | zero => exact List.Perm.refl _
  | succ _ ih =>
    unfold ancestors
    refine List.Perm.cons u ?_
    have hp := h.filter_perm (p := fun w => some w.id == u.parentId &&
        w.organizationId == u.organizationId && !visited.contains w.id)
      (.same fun w hw => by simp at hw; rw [hw.1.2, hu]) hn hn'
    refine hp.flatMap fun w hw => ?_
    have := (mem_filter.mp hw).2
    simp at this
    exact ih w (this.1.2.trans hu) _

theorem mem_ancestors {units : List CloudOrganizationalUnitRow} {rounds : Nat}
    {u w : CloudOrganizationalUnitRow} {visited : List Uuid} (hu : u ∈ units)
    (h : w ∈ ancestors units rounds u visited) :
    w ∈ units ∧ w.organizationId = u.organizationId := by
  induction rounds generalizing u visited with
  | zero =>
    rw [ancestors, mem_singleton] at h
    exact ⟨h ▸ hu, h ▸ rfl⟩
  | succ _ ih =>
    rw [ancestors, mem_cons, mem_flatMap] at h
    rcases h with rfl | ⟨v, hv, hw⟩
    · exact ⟨hu, rfl⟩
    obtain ⟨hm, hq⟩ := mem_filter.mp hv
    simp at hq
    obtain ⟨h1, h2⟩ := ih hm hw
    exact ⟨h1, h2.trans hq.1.2⟩

variable (h : SameCloudOrganization o db.toDb db'.toDb)
include h

theorem accountAncestors_perm (r : CloudOrganizationAccountRow) (hr : r.organizationId = o) :
    (db.accountAncestors r).Perm (db'.accountAncestors r) := by
  have hn := db.keys.units_pkey.nodup
  have hn' := db'.keys.units_pkey.nodup
  have hlen := (h.units.filter_perm (p := (·.organizationId == r.organizationId))
    (.same fun w hw => by simp at hw; rw [hw, hr]) hn hn').length_eq
  have hp := h.units.filter_perm (p := fun u => u.id == r.parentId &&
      u.organizationId == r.organizationId)
    (.same fun w hw => by simp at hw; rw [hw.2, hr]) hn hn'
  unfold Db.accountAncestors
  rw [hlen]
  refine hp.flatMap fun u hu => ?_
  have := (mem_filter.mp hu).2
  simp at this
  exact ancestors_perm h.units hn hn' _ u (this.2.trans hr) _

/-- The documents attached to a target of the organization, in some order. -/
theorem attachedDocuments_perm {ts ts' : List ScpAttachmentRow} (hts : SameRows (·.organizationId =
    o) ts ts') (hn : ts.Nodup) (hn' : ts'.Nodup) (targetId : Uuid) (ht : ∀ t ∈ ts, t.targetId =
    targetId → t.organizationId = o) (ht' : ∀ t ∈ ts', t.targetId = targetId → t.organizationId = o)
    (hf : ∀ t ∈ ts, ∃ p ∈ db.cloudServiceControlPolicies, p.organizationId = t.organizationId ∧ p.id
    = t.policyId) (hf' : ∀ t ∈ ts', ∃ p ∈ db'.cloudServiceControlPolicies, p.organizationId =
    t.organizationId ∧ p.id = t.policyId) : (db.attachedDocuments ts targetId).Perm
    (db'.attachedDocuments ts' targetId) := by
  have hp : (ts.filter (·.targetId == targetId)).Perm (ts'.filter (·.targetId == targetId)) :=
    hts.filter_perm ⟨fun t hm hq => ht t hm (beq_iff_eq.mp hq),
      fun t hm hq => ht' t hm (beq_iff_eq.mp hq), fun _ _ _ => rfl⟩ hn hn'
  -- every attachment's policy row is one of the organization, so both states find the same one
  have hdoc : ∀ t ∈ ts.filter (·.targetId == targetId),
      db.cloudServiceControlPolicies.find? (·.id == t.policyId) =
        db'.cloudServiceControlPolicies.find? (·.id == t.policyId) := by
    intro t hm
    have hm' := mem_filter.mp (hp.mem_iff.mp hm)
    have hmt := mem_filter.mp hm
    have hto := ht t hmt.1 (beq_iff_eq.mp hmt.2)
    obtain ⟨p, hpm, hpo, hpi⟩ := hf t hmt.1
    obtain ⟨p', hpm', hpo', hpi'⟩ := hf' t hm'.1
    refine h.policies.find?_eq ⟨fun q hq e => ?_, fun q hq e => ?_, fun _ _ _ => rfl⟩ ?_
    · rw [db.keys.scps_pkey.eq hq hpm ((beq_iff_eq.mp e).trans hpi.symm), hpo, hto]
    · rw [db'.keys.scps_pkey.eq hq hpm' ((beq_iff_eq.mp e).trans hpi'.symm), hpo', hto]
    · intro q hq q' hq' e e'
      exact db.keys.scps_pkey.eq hq hq' ((beq_iff_eq.mp e).trans (beq_iff_eq.mp e').symm)
  unfold Db.attachedDocuments
  have hempty : (ts.filter (·.targetId == targetId)).isEmpty =
      (ts'.filter (·.targetId == targetId)).isEmpty := by
    rw [Bool.eq_iff_iff, isEmpty_iff_length_eq_zero, isEmpty_iff_length_eq_zero,
      hp.length_eq]
  simp only [hempty]
  split
  · exact List.Perm.refl _
  · refine List.Perm.trans ?_ (hp.map _)
    exact List.Perm.of_eq (map_congr_left fun t hm => by rw [hdoc t hm])

omit h

theorem scpRows_perm (h : SameAccount a db.toDb db'.toDb) :
    (db.scpRows a).Perm (db'.scpRows a) := by
  have hp : (db.cloudOrganizationAccounts.filter (·.accountId == a)).Perm
      (db'.cloudOrganizationAccounts.filter (·.accountId == a)) :=
    h.account.filter_perm (.same fun r hr => by simpa using hr) db.keys.accounts_pkey.nodup
      db'.keys.accounts_pkey.nodup
  unfold Db.scpRows
  refine hp.flatMap fun r hr => ?_
  obtain ⟨hrm, hra⟩ := mem_filter.mp hr
  have hrm' := (mem_filter.mp (hp.mem_iff.mp hr)).1
  have hc := h.cloudOrganization r hrm (beq_iff_eq.mp hra)
  refine List.Perm.append ((accountAncestors_perm hc r rfl).flatMap fun u hu => ?_) ?_
  · obtain ⟨v, hv, huv⟩ := mem_flatMap.mp hu
    obtain ⟨hvm, hvq⟩ := mem_filter.mp hv
    simp at hvq
    obtain ⟨hum, huo⟩ := mem_ancestors hvm huv
    have hur := huo.trans hvq.2
    have hum' := (hc.units u hur).mp hum
    refine (attachedDocuments_perm hc hc.unitAttachments db.keys.unitAttachments_pkey.nodup
      db'.keys.unitAttachments_pkey.nodup u.id (fun t ht e => ?_) (fun t ht e => ?_)
      db.keys.unitAttachments_policy db'.keys.unitAttachments_policy).map _
    · obtain ⟨w, hw, hwo, hwi⟩ := db.keys.unitAttachments_unit t ht
      rw [← hwo, db.keys.units_pkey.eq hw hum (hwi.trans e), hur]
    · obtain ⟨w, hw, hwo, hwi⟩ := db'.keys.unitAttachments_unit t ht
      rw [← hwo, db'.keys.units_pkey.eq hw hum' (hwi.trans e), hur]
  · refine (attachedDocuments_perm hc hc.accountAttachments db.keys.accountAttachments_pkey.nodup
      db'.keys.accountAttachments_pkey.nodup r.accountId (fun t ht e => ?_) (fun t ht e => ?_)
      db.keys.accountAttachments_policy db'.keys.accountAttachments_policy).map _
    · obtain ⟨w, hw, hwo, hwi⟩ := db.keys.accountAttachments_account t ht
      rw [← hwo, db.keys.accounts_pkey.eq hw hrm (hwi.trans e)]
    · obtain ⟨w, hw, hwo, hwi⟩ := db'.keys.accountAttachments_account t ht
      rw [← hwo, db'.keys.accounts_pkey.eq hw hrm' (hwi.trans e)]

/-- The map of levels has the same targets, and the same documents under each. -/
theorem scpLevels_perm {rows rows' : List ScpRow} (h : rows.Perm rows') :
    List.Forall₂ List.Perm ((scpLevels rows).map (·.2)) ((scpLevels rows').map (·.2)) := by
  have ht : orderBy id (rows.map (·.targetId)).dedup = orderBy id (rows'.map (·.targetId)).dedup :=
    orderBy_eq (h.map _).dedup (by simpa [UniqueKey] using nodup_dedup _)
  unfold scpLevels
  rw [ht, map_map, map_map]
  refine forall₂_map_left_iff.mpr (forall₂_map_right_iff.mpr ?_)
  exact forall₂_same.mpr fun targetId _ => h.filterMap _

/-- Answers that are the same up to the order inside a level. -/
inductive SameLevels : Except StoreError (List (List PolicyDocument)) →
    Except StoreError (List (List PolicyDocument)) → Prop where
  | error (e : StoreError) : SameLevels (.error e) (.error e)
  | ok {levels levels' : List (List PolicyDocument)} (h : List.Forall₂ List.Perm levels levels') :
      SameLevels (.ok levels) (.ok levels')

/-- Reading succeeds when every document does; there is one error. -/
theorem readDocuments_eq (documents : List Json) :
    readDocuments documents = if ∀ d ∈ documents, (PolicyDocument.fromValue d).isSome then
      .ok (documents.filterMap PolicyDocument.fromValue) else .error .json := by
  induction documents with
  | nil => rfl
  | cons d documents ih =>
    unfold readDocuments at ih ⊢
    rw [mapM_cons, ih]
    cases hd : PolicyDocument.fromValue d with
    | none => simp [hd]; rfl
    | some =>
      by_cases hall : ∀ d ∈ documents, (PolicyDocument.fromValue d).isSome
      · rw [if_pos hall, if_pos (by simpa [hd] using hall)]
        simp [hd]; rfl
      · rw [if_neg hall, if_neg (by simpa [hd] using hall)]
        rfl

theorem readLevels_same {levels levels' : List (List Json)}
    (h : List.Forall₂ List.Perm levels levels') :
    SameLevels (levels.mapM readDocuments) (levels'.mapM readDocuments) := by
  induction h with
  | nil => exact .ok .nil
  | @cons ds ds' rest rest' hd _ ih =>
    rw [mapM_cons, mapM_cons, readDocuments_eq ds, readDocuments_eq ds']
    have hiff : (∀ d ∈ ds, (PolicyDocument.fromValue d).isSome) ↔
        ∀ d ∈ ds', (PolicyDocument.fromValue d).isSome :=
      forall_congr' fun d => by rw [hd.mem_iff]
    by_cases hall : ∀ d ∈ ds, (PolicyDocument.fromValue d).isSome
    · rw [if_pos hall, if_pos (hiff.mp hall)]
      cases hr : rest.mapM readDocuments <;> cases hr' : rest'.mapM readDocuments <;>
        rw [hr, hr'] at ih <;> cases ih
      · exact .error _
      · rename_i h
        exact .ok (.cons (hd.filterMap _) h)
    · rw [if_neg hall, if_neg fun e => hall (hiff.mpr e)]
      exact .error _

theorem serviceControlLevels_same (h : SameAccount a db.toDb db'.toDb) :
    SameLevels (db.serviceControlLevels a) (db'.serviceControlLevels a) := by
  have hm := managementAccount_eq h
  unfold Db.serviceControlLevels
  rw [h.scpEnabled]
  by_cases hs : (!db'.cloudSecurityActivation.scpEnabled) = true
  · rw [if_pos hs, if_pos hs]
    exact .ok .nil
  rw [if_neg hs, if_neg hs]
  cases hx : db.cloudOrganizationForAccount a <;>
    cases hx' : db'.cloudOrganizationForAccount a <;> rw [hx, hx'] at hm <;>
    simp only [Option.map_none, Option.map_some, Option.some.injEq, reduceCtorEq] at hm
  · exact .error _
  rename_i x x'
  simp only [hm]
  by_cases hma : x'.managementAccountId = a
  · rw [if_pos hma, if_pos hma]
    exact .ok .nil
  have hp := scpRows_perm h
  have hroot : (db.scpRows a).any (·.isRoot) = (db'.scpRows a).any (·.isRoot) := hp.any_eq
  rw [if_neg hma, if_neg hma, hroot]
  by_cases hr : (!(db'.scpRows a).any (·.isRoot)) = true
  · rw [if_pos hr, if_pos hr]
    exact .error _
  rw [if_neg hr, if_neg hr]
  have := readLevels_same (scpLevels_perm hp)
  rwa [mapM_map, mapM_map] at this

end Levels
end HeteroCloud.Store
