/-
  File:      CloudOrganizations/Tree.lean
  Subject:   THE SHAPE of the cloud organizations: units as one tree per organization, accounts in
             units, policies, and attachments of policies to units and accounts.

  Each part of the shape speaks of the tables it depends on, with one lemma for each way the
  store extends them:

  * `PathToRoot` -- the units from a unit up to its root; unique, without repetition, and what
    the recursive query returns (`ancestors_eq_path`);
  * `TreeOk`, `PoliciesOk`, `AttachmentsOk`, `AccountsOk`; together `CloudOk`.
-/
import HeteroCloud.Store.Authorization

namespace HeteroCloud.CloudOrganizations

open Base Iam Store List

/-! ## 1. Paths to the root -/

/-- The units from `u` up to a root, along `parent_id` inside one organization. -/
inductive PathToRoot (units : List CloudOrganizationalUnitRow) :
    CloudOrganizationalUnitRow → List CloudOrganizationalUnitRow → Prop where
  | root {u : CloudOrganizationalUnitRow} (hu : u ∈ units) (hp : u.parentId = none) :
      PathToRoot units u [u]
  | up {u p : CloudOrganizationalUnitRow} {path : List CloudOrganizationalUnitRow} (hu : u ∈ units)
      (hp : u.parentId = some p.id) (ho : u.organizationId = p.organizationId)
      (h : PathToRoot units p path) : PathToRoot units u (u :: path)

section Paths
variable {units units' : List CloudOrganizationalUnitRow} {u w : CloudOrganizationalUnitRow}
  {path path' : List CloudOrganizationalUnitRow}

theorem PathToRoot.mem (h : PathToRoot units u path) : u ∈ units := by
  cases h with
  | root hu | up hu => exact hu

theorem PathToRoot.mono (hs : ∀ w ∈ units, w ∈ units') (h : PathToRoot units u path) :
    PathToRoot units' u path := by
  induction h with
  | root hu hp => exact .root (hs _ hu) hp
  | up hu hp ho _ ih => exact .up (hs _ hu) hp ho ih

theorem PathToRoot.unique (hk : UniqueKey (·.id) units) (h : PathToRoot units u path)
    (h' : PathToRoot units u path') : path = path' := by
  induction h generalizing path' with
  | root _ hp =>
    cases h' with
    | root => rfl
    | up _ hp' => rw [hp] at hp'; cases hp'
  | up _ hp _ hpath ih =>
    cases h' with
    | root _ hp' => rw [hp'] at hp; cases hp
    | up _ hp' _ hpath' =>
      have he := hk.eq hpath.mem hpath'.mem (Option.some.inj (hp.symm.trans hp'))
      subst he
      rw [ih hpath']

/-- A unit on the path has the rest of it as its own path. -/
theorem PathToRoot.of_mem (h : PathToRoot units u path) (hw : w ∈ path) :
    w.organizationId = u.organizationId ∧ ∃ rest, PathToRoot units w rest ∧ rest <:+ path := by
  induction h with
  | root hu hp =>
    rw [mem_singleton] at hw
    subst hw
    exact ⟨rfl, _, .root hu hp, suffix_refl _⟩
  | up hu hp ho hpath ih =>
    rcases mem_cons.mp hw with rfl | hw
    · exact ⟨rfl, _, .up hu hp ho hpath, suffix_refl _⟩
    · obtain ⟨hwo, rest, hrest, hsuf⟩ := ih hw
      exact ⟨hwo.trans ho.symm, rest, hrest, hsuf.trans (suffix_cons _ _)⟩

/-- No unit is above itself. -/
theorem PathToRoot.nodup (hk : UniqueKey (·.id) units) (h : PathToRoot units u path) :
    path.Nodup := by
  induction h with
  | root => exact nodup_singleton _
  | up hu hp ho hpath ih =>
    refine nodup_cons.mpr ⟨fun hm => ?_, ih⟩
    obtain ⟨_, rest, hrest, hsuf⟩ := hpath.of_mem hm
    have he := PathToRoot.unique hk hrest (.up hu hp ho hpath)
    have := hsuf.length_le
    rw [he, length_cons] at this
    omega

/-- **The recursive query returns the path**, given enough rounds and none of it visited. -/
theorem ancestors_eq_path (hk : UniqueKey (·.id) units) (h : PathToRoot units u path)
    {rounds : Nat} (hr : path.length ≤ rounds + 1) {visited : List Uuid}
    (hv : ∀ w ∈ path.tail, w.id ∉ visited) : ancestors units rounds u visited = path := by
  induction h generalizing rounds visited with
  | @root u hu hp =>
    cases rounds with
    | zero => rfl
    | succ => simp [ancestors, hp]
  | @up u p path hu hp ho hpath ih =>
    have hne : path ≠ [] := by cases hpath <;> simp
    cases rounds with
    | zero =>
      have := length_pos_iff.mpr hne
      rw [length_cons] at hr
      omega
    | succ =>
      have hpm : p ∈ path := by cases hpath <;> simp
      -- the only unit the next round finds is the parent
      have hf : (units.filter fun w => some w.id == u.parentId &&
          w.organizationId == u.organizationId && !visited.contains w.id) = [p] := by
        refine filter_eq_singleton hk.nodup hpath.mem ?_ fun w hw hq => ?_
        · simpa [hp, ho] using hv p hpm
        · simp [hp] at hq
          exact hk.eq hw hpath.mem hq.1.1
      have hnodup := hpath.nodup hk
      rw [ancestors, hf, flatMap_singleton, ih (by simpa using hr)]
      intro w hw
      have hwt : w ∈ path := mem_of_mem_tail hw
      have hwp : w ≠ p := by
        cases hpath with
        | root => cases hw
        | up => exact fun e => (nodup_cons.mp hnodup).1 (e ▸ hw)
      have hwu : w ∈ units := (hpath.of_mem hwt).2.elim fun _ h => h.1.mem
      simp only [mem_append, mem_singleton, not_or]
      exact ⟨hv w hwt, fun e => hwp (hk.eq hwu hpath.mem e)⟩

end Paths

/-! ## 2. Units -/

variable (organizations : List CloudOrganizationRow) (units : List CloudOrganizationalUnitRow)

/-- One tree per organization: one root, and from every unit a path to it over at most five
levels. -/
structure TreeOk : Prop where
  key : UniqueKey (·.id) units
  organization : ∀ u ∈ units, ∃ o ∈ organizations, o.id = u.organizationId
  root : ∀ o ∈ organizations, ∃ r ∈ units, r.organizationId = o.id ∧ r.parentId = none
  rootUnique : ∀ r ∈ units, ∀ r' ∈ units, r.parentId = none → r'.parentId = none →
    r.organizationId = r'.organizationId → r = r'
  path : ∀ u ∈ units, ∃ path, PathToRoot units u path ∧ path.length ≤ 6

section Tree
variable {organizations : List CloudOrganizationRow} {units : List CloudOrganizationalUnitRow}

/-- A new organization comes with its root. -/
theorem TreeOk.addOrganization (h : TreeOk organizations units) (o : CloudOrganizationRow)
    (r : CloudOrganizationalUnitRow) (hr : r.organizationId = o.id) (hp : r.parentId = none)
    (hid : ∀ u ∈ units, u.id ≠ r.id) (ho : ∀ u ∈ units, u.organizationId ≠ o.id) :
    TreeOk (organizations ++ [o]) (units ++ [r]) where
  key := h.key.append (nodup_singleton _) fun a ha b hb =>
    mem_singleton.mp ha ▸ hid b hb
  organization u hu := by
    rcases mem_append.mp hu with hu | hu
    · obtain ⟨x, hx, he⟩ := h.organization u hu
      exact ⟨x, mem_append_left _ hx, he⟩
    · exact ⟨o, mem_append_right _ (mem_singleton.mpr rfl),
        by rw [mem_singleton.mp hu, hr]⟩
  root x hx := by
    rcases mem_append.mp hx with hx | hx
    · obtain ⟨y, hy, he⟩ := h.root x hx
      exact ⟨y, mem_append_left _ hy, he⟩
    · exact ⟨r, mem_append_right _ (mem_singleton.mpr rfl),
        by rw [mem_singleton.mp hx, hr], hp⟩
  rootUnique x hx y hy ex ey e := by
    rcases mem_append.mp hx with hx | hx <;> rcases mem_append.mp hy with hy | hy
    · exact h.rootUnique x hx y hy ex ey e
    · rw [mem_singleton.mp hy, hr] at e
      exact absurd e (ho x hx)
    · rw [mem_singleton.mp hx, hr] at e
      exact absurd e.symm (ho y hy)
    · rw [mem_singleton.mp hx, mem_singleton.mp hy]
  path u hu := by
    rcases mem_append.mp hu with hu | hu
    · obtain ⟨path, hpath, hlen⟩ := h.path u hu
      exact ⟨path, hpath.mono fun w hw => mem_append_left _ hw, hlen⟩
    · rw [mem_singleton.mp hu]
      exact ⟨[r], .root (mem_append_right _ (mem_singleton.mpr rfl)) hp, by simp⟩

/-- A new unit below one whose path has at most five units. -/
theorem TreeOk.addUnit (h : TreeOk organizations units) (u p : CloudOrganizationalUnitRow)
    (hid : ∀ w ∈ units, w.id ≠ u.id) (hp : u.parentId = some p.id)
    (ho : u.organizationId = p.organizationId) {path : List CloudOrganizationalUnitRow}
    (hpath : PathToRoot units p path) (hlen : path.length ≤ 5) :
    TreeOk organizations (units ++ [u]) where
  key := h.key.append (nodup_singleton _) fun a ha b hb =>
    mem_singleton.mp ha ▸ hid b hb
  organization w hw := by
    rcases mem_append.mp hw with hw | hw
    · exact h.organization w hw
    · rw [mem_singleton.mp hw, ho]
      exact h.organization p hpath.mem
  root x hx := by
    obtain ⟨y, hy, he⟩ := h.root x hx
    exact ⟨y, mem_append_left _ hy, he⟩
  rootUnique x hx y hy ex ey e := by
    have hold : ∀ z ∈ units ++ [u], z.parentId = none → z ∈ units := by
      intro z hz ez
      rcases mem_append.mp hz with hz | hz
      · exact hz
      · rw [mem_singleton.mp hz, hp] at ez
        cases ez
    exact h.rootUnique x (hold x hx ex) y (hold y hy ey) ex ey e
  path w hw := by
    have hmono : ∀ z ∈ units, z ∈ units ++ [u] := fun z hz => mem_append_left _ hz
    rcases mem_append.mp hw with hw | hw
    · obtain ⟨path, hpath, hlen⟩ := h.path w hw
      exact ⟨path, hpath.mono hmono, hlen⟩
    rw [mem_singleton.mp hw]
    refine ⟨u :: path, .up (mem_append_right _ (mem_singleton.mpr rfl)) hp ho
      (hpath.mono hmono), ?_⟩
    rw [length_cons]
    omega

end Tree

/-! ## 3. Policies -/

variable (policies : List ServiceControlPolicyRow)

/-- The policies the triggers attach to a new unit or account. -/
def managedPolicies (organizationId : Uuid) : List ServiceControlPolicyRow :=
  policies.filter fun p => p.organizationId == organizationId && p.isManaged

/-- Readable documents, and one managed policy per organization. -/
structure PoliciesOk : Prop where
  key : UniqueKey (·.id) policies
  organization : ∀ p ∈ policies, ∃ o ∈ organizations, o.id = p.organizationId
  document : ∀ p ∈ policies, (PolicyDocument.fromValue p.document).isSome
  managed : ∀ o ∈ organizations, ∃ p, managedPolicies policies o.id = [p]

section Policies
variable {organizations : List CloudOrganizationRow} {policies : List ServiceControlPolicyRow}

theorem PoliciesOk.addOrganization (h : PoliciesOk organizations policies)
    (o : CloudOrganizationRow) (p : ServiceControlPolicyRow) (hp : p.organizationId = o.id)
    (hm : p.isManaged = true) (hd : (PolicyDocument.fromValue p.document).isSome)
    (hid : ∀ q ∈ policies, q.id ≠ p.id) (ho : ∀ q ∈ policies, q.organizationId ≠ o.id)
    (hold : ∀ x ∈ organizations, x.id ≠ o.id) :
    PoliciesOk (organizations ++ [o]) (policies ++ [p]) where
  key := h.key.append (nodup_singleton _) fun a ha b hb =>
    mem_singleton.mp ha ▸ hid b hb
  organization q hq := by
    rcases mem_append.mp hq with hq | hq
    · obtain ⟨x, hx, he⟩ := h.organization q hq
      exact ⟨x, mem_append_left _ hx, he⟩
    · exact ⟨o, mem_append_right _ (mem_singleton.mpr rfl),
        by rw [mem_singleton.mp hq, hp]⟩
  document q hq := by
    rcases mem_append.mp hq with hq | hq
    · exact h.document q hq
    · rwa [mem_singleton.mp hq]
  managed x hx := by
    unfold managedPolicies
    rw [filter_append]
    rcases mem_append.mp hx with hx | hx
    · obtain ⟨q, hq⟩ := h.managed x hx
      refine ⟨q, ?_⟩
      rw [show policies.filter _ = [q] from hq]
      simp [hp, Ne.symm (hold x hx)]
    · refine ⟨p, ?_⟩
      rw [mem_singleton.mp hx, filter_eq_nil_iff.mpr]
      · simp [hp, hm]
      · intro q hq
        simp [ho q hq]

theorem PoliciesOk.addPolicy (h : PoliciesOk organizations policies) (p : ServiceControlPolicyRow)
    (ho : ∃ o ∈ organizations, o.id = p.organizationId)
    (hm : p.isManaged = false) (hd : (PolicyDocument.fromValue p.document).isSome)
    (hid : ∀ q ∈ policies, q.id ≠ p.id) : PoliciesOk organizations (policies ++ [p]) where
  key := h.key.append (nodup_singleton _) fun a ha b hb =>
    mem_singleton.mp ha ▸ hid b hb
  organization q hq := by
    rcases mem_append.mp hq with hq | hq
    · exact h.organization q hq
    · rwa [mem_singleton.mp hq]
  document q hq := by
    rcases mem_append.mp hq with hq | hq
    · exact h.document q hq
    · rwa [mem_singleton.mp hq]
  managed x hx := by
    obtain ⟨q, hq⟩ := h.managed x hx
    refine ⟨q, ?_⟩
    unfold managedPolicies at hq ⊢
    rw [filter_append, hq]
    simp [hm]

end Policies

/-! ## 4. Attachments

  Units and accounts are targets in the same way: a target is its organization and its id. -/

/-- The attachments of one target. -/
def attachedTo (attachments : List ScpAttachmentRow) (targetId : Uuid) : List ScpAttachmentRow :=
  attachments.filter (·.targetId == targetId)

/-- Attachments inside one organization, and between one and ten for every target. -/
structure AttachmentsOk (targets : List (Uuid × Uuid)) (policies : List ServiceControlPolicyRow)
    (attachments : List ScpAttachmentRow) : Prop where
  key : UniqueKey (fun t => (t.targetId, t.policyId)) attachments
  target : ∀ t ∈ attachments, (t.organizationId, t.targetId) ∈ targets
  policy : ∀ t ∈ attachments, ∃ p ∈ policies, p.organizationId = t.organizationId ∧
    p.id = t.policyId
  count : ∀ x ∈ targets, 1 ≤ (attachedTo attachments x.2).length ∧
    (attachedTo attachments x.2).length ≤ 10

section Attachments
variable {targets : List (Uuid × Uuid)} {policies policies' : List ServiceControlPolicyRow}
  {attachments : List ScpAttachmentRow}

theorem AttachmentsOk.mono (h : AttachmentsOk targets policies attachments)
    (hp : ∀ p ∈ policies, p ∈ policies') : AttachmentsOk targets policies' attachments :=
  { h with
    policy := fun t ht => by
      obtain ⟨p, hm, he⟩ := h.policy t ht
      exact ⟨p, hp p hm, he⟩ }

theorem attachedTo_append_other {t : ScpAttachmentRow} {targetId : Uuid}
    (h : t.targetId ≠ targetId) :
    attachedTo (attachments ++ [t]) targetId = attachedTo attachments targetId := by
  simp [attachedTo, h]

theorem attachedTo_append_self (t : ScpAttachmentRow) :
    (attachedTo (attachments ++ [t]) t.targetId).length =
      (attachedTo attachments t.targetId).length + 1 := by
  simp [attachedTo]

variable (h : AttachmentsOk targets policies attachments)
include h

/-- One more attachment of a target, the first one of a new target included. -/
theorem AttachmentsOk.add (t : ScpAttachmentRow) {targets' : List (Uuid × Uuid)} (ht :
    (t.organizationId, t.targetId) ∈ targets') (hsub : ∀ x ∈ targets, x ∈ targets') (hnew : ∀ x ∈
    targets', x ∈ targets ∨ x.2 = t.targetId) (hp : ∃ p ∈ policies, p.organizationId =
    t.organizationId ∧ p.id = t.policyId) (hk : ∀ s ∈ attachments, s.targetId = t.targetId →
    s.policyId ≠ t.policyId) (hc : (attachedTo attachments t.targetId).length < 10) : AttachmentsOk
    targets' policies (attachments ++ [t]) where
  key := h.key.append (nodup_singleton _) fun a ha b hb e => by
    rw [mem_singleton.mp ha, Prod.mk.injEq] at e
    exact hk b hb e.1 e.2
  target s hs := by
    rcases mem_append.mp hs with hs | hs
    · exact hsub _ (h.target s hs)
    · rwa [mem_singleton.mp hs]
  policy s hs := by
    rcases mem_append.mp hs with hs | hs
    · exact h.policy s hs
    · rwa [mem_singleton.mp hs]
  count x hx := by
    by_cases he : t.targetId = x.2
    · rw [← he, attachedTo_append_self]
      omega
    · rw [attachedTo_append_other he]
      exact h.count x ((hnew x hx).resolve_right fun e => he e.symm)

/-- A new target comes with its first attachment. -/
theorem AttachmentsOk.addTarget (t : ScpAttachmentRow) (hp : ∃ p ∈ policies, p.organizationId =
    t.organizationId ∧ p.id = t.policyId) (hk : ∀ s ∈ attachments, s.targetId ≠ t.targetId) :
    AttachmentsOk (targets ++ [(t.organizationId, t.targetId)]) policies (attachments ++ [t]) := by
  refine h.add t (mem_append_right _ (mem_singleton.mpr rfl))
    (fun x hx => mem_append_left _ hx) (fun x hx => ?_) hp
    (fun s hs e => absurd e (hk s hs)) ?_
  · exact (mem_append.mp hx).imp_right fun e => by rw [mem_singleton.mp e]
  have hnil : attachedTo attachments t.targetId = [] :=
    filter_eq_nil_iff.mpr fun s hs e => hk s hs (beq_iff_eq.mp e)
  rw [hnil]
  exact Nat.succ_pos 9

/-- One attachment less, where there are at least two. -/
theorem AttachmentsOk.remove (t : ScpAttachmentRow) (hc : 2 ≤ (attachedTo attachments
    t.targetId).length) : AttachmentsOk targets policies (attachments.filter (· != t)) where
  key := h.key.sublist (filter_sublist.map _)
  target s hs := h.target s (mem_filter.mp hs).1
  policy s hs := h.policy s (mem_filter.mp hs).1
  count x hx := by
    have hcomm : attachedTo (attachments.filter (· != t)) x.2 =
        (attachedTo attachments x.2).erase t := by
      unfold attachedTo
      rw [(h.key.nodup.filter _).erase_eq_filter, filter_filter, filter_filter]
      exact filter_congr fun s _ => Bool.and_comm _ _
    obtain ⟨h1, h2⟩ := h.count x hx
    have hle : ((attachedTo attachments x.2).erase t).length ≤
        (attachedTo attachments x.2).length := erase_sublist.length_le
    rw [hcomm]
    refine ⟨?_, hle.trans h2⟩
    by_cases he : t.targetId = x.2
    · have := le_length_erase (l := attachedTo attachments x.2) (a := t)
      rw [he] at hc
      omega
    · rw [erase_of_not_mem]
      · exact h1
      · intro hm
        exact he (beq_iff_eq.mp (mem_filter.mp hm).2)

end Attachments

/-! ## 5. Accounts -/

/-- Each account has its place, in a unit of its organization, and is not itself a unit. -/
structure AccountsOk (accounts : List OrganizationRow) (units : List CloudOrganizationalUnitRow)
    (members : List CloudOrganizationAccountRow) : Prop where
  key : UniqueKey (·.accountId) members
  account : ∀ a ∈ members, ∃ o ∈ accounts, o.id = a.accountId
  member : ∀ o ∈ accounts, ∃ a ∈ members, a.accountId = o.id
  parent : ∀ a ∈ members, ∃ u ∈ units, u.organizationId = a.organizationId ∧ u.id = a.parentId
  notUnit : ∀ a ∈ accounts, ∀ u ∈ units, u.id ≠ a.id

section Accounts
variable {accounts : List OrganizationRow} {units : List CloudOrganizationalUnitRow}
  {members : List CloudOrganizationAccountRow}

theorem AccountsOk.addUnit (h : AccountsOk accounts units members) (u : CloudOrganizationalUnitRow)
    (hu : ∀ a ∈ accounts, a.id ≠ u.id) : AccountsOk accounts (units ++ [u]) members :=
  { h with
    parent := fun a ha => by
      obtain ⟨w, hw, he⟩ := h.parent a ha
      exact ⟨w, mem_append_left _ hw, he⟩
    notUnit := fun a ha w hw => by
      rcases mem_append.mp hw with hw | hw
      · exact h.notUnit a ha w hw
      · rw [mem_singleton.mp hw]
        exact (hu a ha).symm }

theorem AccountsOk.addAccount (h : AccountsOk accounts units members) (o : OrganizationRow)
    (a : CloudOrganizationAccountRow) (ha : a.accountId = o.id)
    (hp : ∃ u ∈ units, u.organizationId = a.organizationId ∧ u.id = a.parentId)
    (hid : ∀ b ∈ accounts, b.id ≠ o.id) (hu : ∀ u ∈ units, u.id ≠ o.id) :
    AccountsOk (accounts ++ [o]) units (members ++ [a]) where
  key := h.key.append (nodup_singleton _) fun x hx b hb e => by
    rw [mem_singleton.mp hx, ha] at e
    obtain ⟨y, hy, hye⟩ := h.account b hb
    exact hid y hy (hye.trans e)
  account b hb := by
    rcases mem_append.mp hb with hb | hb
    · obtain ⟨y, hy, he⟩ := h.account b hb
      exact ⟨y, mem_append_left _ hy, he⟩
    · exact ⟨o, mem_append_right _ (mem_singleton.mpr rfl),
        by rw [mem_singleton.mp hb, ha]⟩
  member b hb := by
    rcases mem_append.mp hb with hb | hb
    · obtain ⟨x, hx, he⟩ := h.member b hb
      exact ⟨x, mem_append_left _ hx, he⟩
    · exact ⟨a, mem_append_right _ (mem_singleton.mpr rfl),
        by rw [mem_singleton.mp hb, ha]⟩
  parent b hb := by
    rcases mem_append.mp hb with hb | hb
    · exact h.parent b hb
    · rwa [mem_singleton.mp hb]
  notUnit b hb u hm := by
    rcases mem_append.mp hb with hb | hb
    · exact h.notUnit b hb u hm
    · rw [mem_singleton.mp hb]
      exact hu u hm

/-- `UPDATE cloud_organization_accounts SET parent_id`. -/
def reparent (members : List CloudOrganizationAccountRow) (accountId parentId : Uuid) :
    List CloudOrganizationAccountRow :=
  members.map fun a => if a.accountId = accountId then { a with parentId } else a

/-- A move changes neither the accounts nor their organizations. -/
theorem reparent_targets (members : List CloudOrganizationAccountRow)
    (accountId parentId : Uuid) :
    (reparent members accountId parentId).map (fun a => (a.organizationId, a.accountId)) =
      members.map fun a => (a.organizationId, a.accountId) := by
  unfold reparent
  rw [map_map]
  refine map_congr_left fun a _ => ?_
  by_cases h : a.accountId = accountId <;> simp [h]

theorem AccountsOk.move (h : AccountsOk accounts units members) (accountId parentId : Uuid)
    (hp : ∀ a ∈ members, a.accountId = accountId →
      ∃ u ∈ units, u.organizationId = a.organizationId ∧ u.id = parentId) :
    AccountsOk accounts units (reparent members accountId parentId) where
  key := by
    have he : (reparent members accountId parentId).map (·.accountId) =
        members.map (·.accountId) := by
      have := congrArg (List.map Prod.snd) (reparent_targets members accountId parentId)
      rwa [map_map, map_map] at this
    unfold UniqueKey
    rw [he]
    exact h.key
  account b hb := by
    obtain ⟨a, ha, rfl⟩ := mem_map.mp hb
    obtain ⟨o, ho, he⟩ := h.account a ha
    refine ⟨o, ho, he.trans ?_⟩
    by_cases hc : a.accountId = accountId <;> simp [hc]
  member o ho := by
    obtain ⟨a, ha, he⟩ := h.member o ho
    refine ⟨_, mem_map_of_mem ha, ?_⟩
    by_cases hc : a.accountId = accountId <;> simp [hc, ← he]
  parent b hb := by
    obtain ⟨a, ha, rfl⟩ := mem_map.mp hb
    by_cases hc : a.accountId = accountId
    · simpa [hc] using hp a ha hc
    · simpa [hc] using h.parent a ha
  notUnit := h.notUnit

end Accounts

/-! ## 6. All parts -/

def unitTargets : List (Uuid × Uuid) :=
  units.map fun u => (u.organizationId, u.id)

def accountTargets (members : List CloudOrganizationAccountRow) : List (Uuid × Uuid) :=
  members.map fun a => (a.organizationId, a.accountId)

/-- **The shape of the cloud organizations.** -/
structure CloudOk (d : Db) : Prop where
  organizationsKey : UniqueKey (·.id) d.cloudOrganizations
  management : ∀ o ∈ d.cloudOrganizations, ∃ m ∈ d.organizations, m.id = o.managementAccountId
  tree : TreeOk d.cloudOrganizations d.cloudOrganizationalUnits
  policies : PoliciesOk d.cloudOrganizations d.cloudServiceControlPolicies
  accounts : AccountsOk d.organizations d.cloudOrganizationalUnits d.cloudOrganizationAccounts
  unitAttachments : AttachmentsOk (unitTargets d.cloudOrganizationalUnits)
    d.cloudServiceControlPolicies d.cloudScpUnitAttachments
  accountAttachments : AttachmentsOk (accountTargets d.cloudOrganizationAccounts)
    d.cloudServiceControlPolicies d.cloudScpAccountAttachments

end HeteroCloud.CloudOrganizations
