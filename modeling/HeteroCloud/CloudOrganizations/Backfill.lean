/-
  File:      CloudOrganizations/Backfill.lean
  Subject:   THE ORGANIZATIONS OF EXISTING ACCOUNTS (migrations/0026_cloud_organizations.sql).

  The migration creates the organization tables and fills them by six `INSERT ... SELECT`
  statements, some of them joins. One account more in the table means the rows of one new account
  more (`backfill_snoc`), so the filled tables have the shape (`backfill_cloudOk`).
-/
import HeteroCloud.CloudOrganizations.Commit
import Mathlib.Data.List.Induction

namespace HeteroCloud.CloudOrganizations

open Base Iam Store List

/-! ## 1. The statements -/

/-- An inner join of two tables on equal values. -/
def join {α β γ : Type} (xs : List α) (ys : List β) (on : α → β → Bool) (f : α → β → γ) : List γ :=
  xs.flatMap fun x => (ys.filter (on x)).map (f x)

section Backfill
variable (uuid : Nat → Nat)

def backfillOrganizations (accounts : List OrganizationRow) : List CloudOrganizationRow :=
  accounts.zipIdx.map fun (a, i) => ⟨uuid (3 * i), a.id⟩

variable (os : List CloudOrganizationRow)

def backfillPolicies : List ServiceControlPolicyRow :=
  os.zipIdx.map fun (o, i) => ⟨uuid (3 * i + 1), o.id, fullAccessDocument, true⟩

def backfillUnits : List CloudOrganizationalUnitRow :=
  os.zipIdx.map fun (o, i) => ⟨uuid (3 * i + 2), o.id, none⟩

variable (us : List CloudOrganizationalUnitRow)

def backfillAccounts : List CloudOrganizationAccountRow :=
  join os us (fun o u => u.organizationId == o.id && u.parentId == none)
    fun o u => ⟨o.managementAccountId, o.id, u.id⟩

def backfillUnitAttachments (ps : List ServiceControlPolicyRow) : List ScpAttachmentRow :=
  join us ps (fun u p => p.organizationId == u.organizationId && p.isManaged)
    fun u p => ⟨u.organizationId, u.id, p.id⟩

def backfillAccountAttachments (as : List CloudOrganizationAccountRow)
    (ps : List ServiceControlPolicyRow) : List ScpAttachmentRow :=
  join as ps (fun a p => p.organizationId == a.organizationId && p.isManaged)
    fun a p => ⟨a.organizationId, a.accountId, p.id⟩

/-- **The database after the migration**, for the values it draws. -/
def backfill (d : Db) : Db :=
  let os := backfillOrganizations uuid d.organizations
  let ps := backfillPolicies uuid os
  let us := backfillUnits uuid os
  let as := backfillAccounts os us
  { d with
    cloudOrganizations := os
    cloudServiceControlPolicies := ps
    cloudOrganizationalUnits := us
    cloudOrganizationAccounts := as
    cloudScpUnitAttachments := backfillUnitAttachments us ps
    cloudScpAccountAttachments := backfillAccountAttachments as ps }

/-- The values the migration draws. -/
def backfillDrawn (d : Db) : List Nat := (List.range (3 * d.organizations.length)).map uuid

end Backfill

/-! ## 2. One account more -/

section Snoc

/-- A join gains one row when both sides gain one that matches the other and nothing else. -/
theorem join_snoc {α β γ : Type} {xs : List α} {ys : List β} {x : α} {y : β}
    {on : α → β → Bool} {f : α → β → γ} (hxy : on x y = true) (hx : ∀ b ∈ ys, on x b = false)
    (hy : ∀ a ∈ xs, on a y = false) :
    join (xs ++ [x]) (ys ++ [y]) on f = join xs ys on f ++ [f x y] := by
  unfold join
  rw [flatMap_append, flatMap_singleton]
  congr 1
  · refine flatMap_congr fun a ha => ?_
    rw [filter_append]
    simp [hy a ha]
  · rw [filter_append, filter_eq_nil_iff.mpr fun b hb => by simp [hx b hb]]
    simp [hxy]

variable {uuid : Nat → Nat} {accounts : List OrganizationRow} {os : List CloudOrganizationRow}

theorem backfillOrganizations_snoc (a : OrganizationRow) :
    backfillOrganizations uuid (accounts ++ [a]) =
      backfillOrganizations uuid accounts ++ [⟨uuid (3 * accounts.length), a.id⟩] := by
  simp [backfillOrganizations, zipIdx_append]

variable (o : CloudOrganizationRow)

theorem backfillPolicies_snoc : backfillPolicies uuid (os ++ [o]) = backfillPolicies uuid os ++
    [⟨uuid (3 * os.length + 1), o.id, fullAccessDocument, true⟩] := by
  simp [backfillPolicies, zipIdx_append]

theorem backfillUnits_snoc : backfillUnits uuid (os ++ [o]) = backfillUnits uuid os ++ [⟨uuid (3 *
    os.length + 2), o.id, none⟩] := by
  simp [backfillUnits, zipIdx_append]

theorem mem_backfillOrganizations {o : CloudOrganizationRow}
    (h : o ∈ backfillOrganizations uuid accounts) : ∃ i < accounts.length, o.id = uuid (3 * i) := by
  obtain ⟨⟨a, i⟩, hm, rfl⟩ := mem_map.mp h
  exact ⟨i, (mem_zipIdx' hm).1, rfl⟩

theorem mem_backfillPolicies {p : ServiceControlPolicyRow} (h : p ∈ backfillPolicies uuid os) :
    ∃ o ∈ os, p.organizationId = o.id := by
  obtain ⟨⟨o, i⟩, hm, rfl⟩ := mem_map.mp h
  exact ⟨o, (mem_zipIdx' hm).2 ▸ getElem_mem _, rfl⟩

theorem mem_backfillUnits {u : CloudOrganizationalUnitRow} (h : u ∈ backfillUnits uuid os) :
    ∃ o ∈ os, u.organizationId = o.id := by
  obtain ⟨⟨o, i⟩, hm, rfl⟩ := mem_map.mp h
  exact ⟨o, (mem_zipIdx' hm).2 ▸ getElem_mem _, rfl⟩

variable {us : List CloudOrganizationalUnitRow}

theorem mem_backfillAccounts {a : CloudOrganizationAccountRow} (h : a ∈ backfillAccounts os us) : ∃
    o ∈ os, a.organizationId = o.id := by
  obtain ⟨o, ho, hm⟩ := mem_flatMap.mp h
  obtain ⟨u, _, rfl⟩ := mem_map.mp hm
  exact ⟨o, ho, rfl⟩

theorem backfillAccounts_snoc {o : CloudOrganizationRow} (k : Uuid) (hu : ∀ u ∈ us, u.organizationId
    ≠ o.id) (ho : ∀ x ∈ os, x.id ≠ o.id) : backfillAccounts (os ++ [o]) (us ++ [⟨k, o.id, none⟩]) =
    backfillAccounts os us ++ [⟨o.managementAccountId, o.id, k⟩] :=
  join_snoc (by simp) (fun u hm => by simp [hu u hm]) fun x hm => by simp [Ne.symm (ho x hm)]

variable {ps : List ServiceControlPolicyRow}

theorem backfillUnitAttachments_snoc (u : CloudOrganizationalUnitRow) (k : Uuid) (hp : ∀ p ∈ ps,
    p.organizationId ≠ u.organizationId) (hu : ∀ x ∈ us, x.organizationId ≠ u.organizationId) :
    backfillUnitAttachments (us ++ [u]) (ps ++ [⟨k, u.organizationId, fullAccessDocument, true⟩]) =
    backfillUnitAttachments us ps ++ [⟨u.organizationId, u.id, k⟩] :=
  join_snoc (by simp) (fun p hm => by simp [hp p hm]) fun x hm => by simp [Ne.symm (hu x hm)]

theorem backfillAccountAttachments_snoc {as : List CloudOrganizationAccountRow} (a :
    CloudOrganizationAccountRow) (k : Uuid) (hp : ∀ p ∈ ps, p.organizationId ≠ a.organizationId) (ha
    : ∀ x ∈ as, x.organizationId ≠ a.organizationId) : backfillAccountAttachments (as ++ [a]) (ps ++
    [⟨k, a.organizationId, fullAccessDocument, true⟩]) = backfillAccountAttachments as ps ++
    [⟨a.organizationId, a.accountId, k⟩] :=
  join_snoc (by simp) (fun p hm => by simp [hp p hm]) fun x hm => by simp [Ne.symm (ha x hm)]

/-- The values the migration draws for the account at place `i`. -/
def backfillNew (uuid : Nat → Nat) (a : OrganizationRow) (i : Nat) : NewOrganization :=
  ⟨a.id, a.accountNumber, uuid (3 * i), uuid (3 * i + 1), uuid (3 * i + 2)⟩

/-- **One account more gives the rows that the trigger gives to a new account.** -/
theorem backfill_snoc (hu : Function.Injective uuid) (d : Db) (a : OrganizationRow) :
    backfill uuid { d with organizations := accounts ++ [a] } =
      Write.apply (.insertOrganization (backfillNew uuid a accounts.length))
        (backfill uuid { d with organizations := accounts }) := by
  have hlen : (backfillOrganizations uuid accounts).length = accounts.length := by
    simp [backfillOrganizations]
  have hnew : ∀ o ∈ backfillOrganizations uuid accounts, o.id ≠ uuid (3 * accounts.length) := by
    intro o ho e
    obtain ⟨i, hi, he⟩ := mem_backfillOrganizations ho
    have := hu (he.symm.trans e)
    omega
  have hold : ∀ {k}, (∃ o ∈ backfillOrganizations uuid accounts, k = o.id) →
      k ≠ uuid (3 * accounts.length) := fun ⟨o, ho, e⟩ => e ▸ hnew o ho
  have hus : ∀ u ∈ backfillUnits uuid (backfillOrganizations uuid accounts),
      u.organizationId ≠ uuid (3 * accounts.length) := fun u hm => hold (mem_backfillUnits hm)
  have hps : ∀ p ∈ backfillPolicies uuid (backfillOrganizations uuid accounts),
      p.organizationId ≠ uuid (3 * accounts.length) := fun p hm => hold (mem_backfillPolicies hm)
  have has : ∀ x ∈ backfillAccounts (backfillOrganizations uuid accounts)
      (backfillUnits uuid (backfillOrganizations uuid accounts)),
      x.organizationId ≠ uuid (3 * accounts.length) := fun x hm => hold (mem_backfillAccounts hm)
  have h1 := backfillAccounts_snoc (o := ⟨uuid (3 * accounts.length), a.id⟩)
    (uuid (3 * accounts.length + 2)) hus hnew
  have h2 := backfillUnitAttachments_snoc
    ⟨uuid (3 * accounts.length + 2), uuid (3 * accounts.length), none⟩
    (uuid (3 * accounts.length + 1)) hps hus
  have h3 := backfillAccountAttachments_snoc
    ⟨a.id, uuid (3 * accounts.length), uuid (3 * accounts.length + 2)⟩
    (uuid (3 * accounts.length + 1)) hps has
  simp only [backfill, Write.apply, backfillNew, backfillOrganizations_snoc,
    backfillPolicies_snoc, backfillUnits_snoc, hlen, h1, h2, h3]

/-- The ids after the migration: those of the accounts, and the drawn ones. -/
theorem backfill_ids (d : Db) {k : Uuid} (h : k ∈ cloudIds (backfill uuid d)) :
    (∃ a ∈ d.organizations, a.id = k) ∨ ∃ j < 3 * d.organizations.length, uuid j = k := by
  have hlen : (backfillOrganizations uuid d.organizations).length = d.organizations.length := by
    simp [backfillOrganizations]
  simp only [cloudIds, mem_append] at h
  rcases h with ((h | h) | h) | h
  · exact .inl (mem_map.mp h)
  · obtain ⟨o, ho, rfl⟩ := mem_map.mp h
    obtain ⟨i, hi, he⟩ := mem_backfillOrganizations ho
    exact .inr ⟨3 * i, by omega, he.symm⟩
  · obtain ⟨u, hm, rfl⟩ := mem_map.mp h
    obtain ⟨⟨o, i⟩, hi, rfl⟩ := mem_map.mp hm
    have := (mem_zipIdx' hi).1
    exact .inr ⟨3 * i + 2, by omega, rfl⟩
  · obtain ⟨p, hm, rfl⟩ := mem_map.mp h
    obtain ⟨⟨o, i⟩, hi, rfl⟩ := mem_map.mp hm
    have := (mem_zipIdx' hi).1
    exact .inr ⟨3 * i + 1, by omega, rfl⟩

end Snoc

/-! ## 3. All accounts -/

theorem backfill_empty (uuid : Nat → Nat) (d : Db) :
    CloudOk (backfill uuid { d with organizations := [] }) := by
  refine ⟨nodup_nil, ?_, ?_, ?_, ?_, ?_, ?_⟩
  · exact fun _ h => nomatch h
  · exact ⟨nodup_nil, nofun, nofun, nofun, nofun⟩
  · exact ⟨nodup_nil, nofun, nofun, nofun⟩
  · exact ⟨nodup_nil, nofun, nofun, nofun, nofun⟩
  · exact ⟨nodup_nil, nofun, nofun, nofun⟩
  · exact ⟨nodup_nil, nofun, nofun, nofun⟩

/-- **After the migration the organizations have their shape.** -/
theorem backfill_cloudOk {uuid : Nat → Nat} {is : List Nat} (hu : Fresh uuid is) (d : Db)
    {accounts : List OrganizationRow} (hk : UniqueKey (·.id) accounts)
    (hi : ∀ a ∈ accounts, a.id ∈ is) :
    CloudOk (backfill uuid { d with organizations := accounts }) := by
  induction accounts using List.reverseRecOn with
  | nil => exact backfill_empty uuid d
  | append_singleton accounts a ih =>
    have hmem : ∀ b ∈ accounts, b ∈ accounts ++ [a] := fun b hb => mem_append_left _ hb
    have ha : a ∈ accounts ++ [a] := mem_append_right _ (mem_singleton.mpr rfl)
    unfold UniqueKey at hk
    rw [map_append, map_singleton, nodup_append] at hk
    have hne : ∀ b ∈ accounts, b.id ≠ a.id := fun b hb =>
      hk.2.2 _ (mem_map_of_mem hb) _ (mem_singleton.mpr rfl)
    have hdrawn : ∀ j, 3 * accounts.length ≤ j →
        Absent (backfill uuid { d with organizations := accounts }) (uuid j) := by
      intro j hj
      refine absent_iff.mpr fun hm => ?_
      rcases backfill_ids _ hm with ⟨b, hb, e⟩ | ⟨i, hlt, e⟩
      · exact hu.2 j (e ▸ hi b (hmem b hb))
      have := hu.1 e
      simp only at hlt
      omega
    rw [backfill_snoc hu.1]
    have hn : NewIds (backfill uuid { d with organizations := accounts })
        (rowLocks (backfillNew uuid a accounts.length).ids)
        (backfillNew uuid a accounts.length) := ⟨?_, ?_, fun k hk => by simpa [rowLocks] using hk⟩
    · exact insertOrganization_cloudOk (ih hk.1 fun b hb => hi b (hmem b hb)) hn
    · have hd : ∀ j, a.id ≠ uuid j := fun j e => hu.2 j (e ▸ hi a ha)
      simp [NewOrganization.ids, backfillNew, hd, hu.1.eq_iff]
    intro k hk
    simp only [NewOrganization.ids, backfillNew, mem_cons, not_mem_nil,
      or_false] at hk
    rcases hk with rfl | rfl | rfl | rfl
    · refine absent_iff.mpr fun hm => ?_
      rcases backfill_ids _ hm with ⟨b, hb, e⟩ | ⟨i, _, e⟩
      · exact hne b hb e
      · exact hu.2 i (e ▸ hi a ha)
    · exact hdrawn _ (by omega)
    · exact hdrawn _ (by omega)
    · exact hdrawn _ (by omega)

end HeteroCloud.CloudOrganizations
