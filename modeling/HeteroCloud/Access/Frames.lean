/-
  File:      Access/Frames.lean
  Subject:   WHAT A WRITE CAN DO TO A ROW: for each table, where a row after the write comes from,
             and what becomes of a row that was there.

  The assertions of all other modules are shown stable from these facts alone.
-/
import HeteroCloud.Access.Writes

namespace HeteroCloud.Access

open Base Iam Store List

section Frames
variable {d : Db} (x : Write)

/-! ## 1. Tables no write changes, or only by insertions -/

@[simp] theorem apply_organizations : (x.apply d).organizations = d.organizations := by
  cases x <;> rfl

theorem mem_accountRoles {r : IdentityCenterAccountRoleRow}
    (h : r ∈ (x.apply d).identityCenterAccountRoles) :
    r ∈ d.identityCenterAccountRoles ∨ x = .insertAccountRole r := by
  cases x with
  | insertAccountRole =>
    rcases mem_append.mp h with h | h
    · exact .inl h
    · exact .inr (by rw [mem_singleton.mp h])
  | _ => exact .inl h

theorem mem_members {m : IdentityCenterGroupMemberRow}
    (h : m ∈ (x.apply d).identityCenterGroupMembers) :
    m ∈ d.identityCenterGroupMembers ∨ x = .insertGroupMember m := by
  cases x with
  | insertGroupMember =>
    rcases mem_append.mp h with h | h
    · exact .inl h
    · exact .inr (by rw [mem_singleton.mp h])
  | deleteGroupMember => exact .inl (mem_of_mem_filter h)
  | _ => exact .inl h

theorem memberships_stay (hx : x.removesMembership = false) {m : MembershipRow}
    (h : m ∈ d.organizationMemberships) : m ∈ (x.apply d).organizationMemberships := by
  cases x with
  | insertMembership => exact mem_append_left _ h
  | deleteMembership | deletePrincipal => cases hx
  | _ => exact h

/-! ## 2. Roles -/

/-- A role row changes in its trust policy only. -/
structure SameRole (r r' : IamRoleRow) : Prop where
  principalId : r'.principalId = r.principalId
  organizationId : r'.organizationId = r.organizationId
  name : r'.name = r.name

theorem mem_roles {r' : IamRoleRow} (h : r' ∈ (x.apply d).iamRoles) :
    (∃ r ∈ d.iamRoles, SameRole r r') ∨ x = .insertRole r' := by
  cases x with
  | insertRole =>
    rcases mem_append.mp h with h | h
    · exact .inl ⟨r', h, rfl, rfl, rfl⟩
    · exact .inr (by rw [mem_singleton.mp h])
  | updateTrust =>
    obtain ⟨r, hr, ⟨_, rfl⟩ | ⟨_, rfl⟩⟩ := mem_updateWhere h
    · exact .inl ⟨r, hr, rfl, rfl, rfl⟩
    · exact .inl ⟨r', hr, rfl, rfl, rfl⟩
  | deletePrincipal => exact .inl ⟨r', mem_of_mem_filter h, rfl, rfl, rfl⟩
  | _ => exact .inl ⟨r', h, rfl, rfl, rfl⟩

/-- A role stays as it is unless the write needs its lock. -/
theorem roles_stay {r : IamRoleRow} (hx : Key.role r.principalId ∉ x.needs)
    (h : r ∈ d.iamRoles) : r ∈ (x.apply d).iamRoles := by
  cases x with
  | insertRole => exact mem_append_left _ h
  | updateTrust _ p =>
    have hne : r.principalId ≠ p := fun e => hx (mem_singleton.mpr (by rw [e]))
    exact mem_map.mpr ⟨r, h, by simp [hne]⟩
  | deletePrincipal o p =>
    have hne : r.principalId ≠ p := fun e => hx (mem_singleton.mpr (by rw [e]))
    exact mem_filter.mpr ⟨h, by simp [hne]⟩
  | _ => exact h

/-! ## 3. Browser sessions -/

/-- A browser session changes in its active role only, and only by a write that needs its lock. -/
theorem mem_sessions {b' : SessionRow} (h : b' ∈ (x.apply d).sessions) :
    ∃ b ∈ d.sessions, b'.tokenHash = b.tokenHash ∧
      (b' = b ∨ ∃ active, x = .setActiveRole b.tokenHash active ∧
        b'.activeRoleSessionId = active) := by
  cases x with
  | setActiveRole _ active =>
    obtain ⟨b, hb, ⟨hp, rfl⟩ | ⟨_, rfl⟩⟩ := mem_updateWhere h
    · exact ⟨b, hb, rfl, .inr ⟨active, by rw [beq_iff_eq.mp hp], rfl⟩⟩
    · exact ⟨b', hb, rfl, .inl rfl⟩
  | _ => exact ⟨b', h, rfl, .inl rfl⟩

theorem sessions_stay {b : SessionRow} (hx : Key.browser b.tokenHash ∉ x.needs)
    (h : b ∈ d.sessions) : b ∈ (x.apply d).sessions := by
  cases x with
  | setActiveRole tokenHash =>
    have hne : b.tokenHash ≠ tokenHash := fun e => hx (mem_singleton.mpr (by rw [e]))
    exact mem_map.mpr ⟨b, h, by simp [hne]⟩
  | _ => exact h

/-! ## 4. Role sessions -/

/-- A role session is revoked once and for all, and its references are at most cleared. -/
structure LaterSession (s s' : IamRoleSessionRow) : Prop where
  id : s'.id = s.id
  revoked : s.revokedAt ≠ none → s'.revokedAt ≠ none
  assignment : s'.identityCenterAssignmentId = s.identityCenterAssignmentId
  generation : s'.identityCenterAssignmentGeneration = s.identityCenterAssignmentGeneration
  source : s'.identityCenterSourceMembershipId = s.identityCenterSourceMembershipId ∨
    s'.identityCenterSourceMembershipId = none
  target : s'.identityCenterTargetMembershipId = s.identityCenterTargetMembershipId ∨
    s'.identityCenterTargetMembershipId = none
  group : s'.identityCenterGroupMembershipId = s.identityCenterGroupMembershipId ∨
    s'.identityCenterGroupMembershipId = none

theorem LaterSession.refl (s : IamRoleSessionRow) : LaterSession s s :=
  ⟨rfl, fun h => h, rfl, rfl, .inl rfl, .inl rfl, .inl rfl⟩

theorem setNull_or (gone : List Uuid) (reference : Option Uuid) :
    setNull gone reference = reference ∨ setNull gone reference = none := by
  cases reference with
  | none => exact .inl rfl
  | some k =>
    unfold setNull
    by_cases h : gone.contains k = true
    · exact .inr (by simp_all)
    · exact .inl (by simp_all)

variable {s' : IamRoleSessionRow}

/-- The sessions after memberships were deleted. -/
theorem mem_deleteMemberships {gone : MembershipRow → Bool} (h : s' ∈ (deleteMemberships gone
    d).iamRoleSessions) : ∃ s ∈ d.iamRoleSessions, LaterSession s s' := by
  obtain ⟨s, hs, rfl⟩ := mem_map.mp h
  exact ⟨s, hs, rfl, fun h => h, rfl, rfl, setNull_or _ _, setNull_or _ _, .inl rfl⟩

theorem mem_roleSessions (h : s' ∈ (x.apply d).iamRoleSessions) : (∃ s ∈ d.iamRoleSessions,
    LaterSession s s') ∨ x = .insertRoleSession s' := by
  cases x with
  | insertRoleSession =>
    rcases mem_append.mp h with h | h
    · exact .inl ⟨s', h, .refl s'⟩
    · exact .inr (by rw [mem_singleton.mp h])
  | revokeRoleSession =>
    obtain ⟨s, hs, ⟨_, rfl⟩ | ⟨_, rfl⟩⟩ := mem_updateWhere h
    · exact .inl ⟨s, hs, rfl, fun _ => nofun, rfl, rfl, .inl rfl, .inl rfl, .inl rfl⟩
    · exact .inl ⟨s', hs, .refl s'⟩
  | deleteRoleSession => exact .inl ⟨s', mem_of_mem_filter h, .refl s'⟩
  | deleteMembership => exact .inl (mem_deleteMemberships h)
  | deletePrincipal =>
    obtain ⟨s₁, h₁, rfl⟩ := mem_map.mp h
    obtain ⟨s, hs, hl⟩ := mem_deleteMemberships (mem_of_mem_filter h₁)
    exact .inl ⟨s, hs, hl.id, hl.revoked, hl.assignment, hl.generation, hl.source, hl.target,
      hl.group⟩
  | deleteGroupMember =>
    obtain ⟨s, hs, rfl⟩ := mem_map.mp h
    exact .inl ⟨s, hs, rfl, fun h => h, rfl, rfl, .inl rfl, .inl rfl, setNull_or _ _⟩
  | _ => exact .inl ⟨s', h, .refl s'⟩

/-! ## 5. Permission sets, groups, assignments -/

/-- A permission set is deleted once and for all. -/
theorem mem_permissionSets {p' : IdentityCenterPermissionSetRow}
    (h : p' ∈ (x.apply d).identityCenterPermissionSets) :
    (∃ p ∈ d.identityCenterPermissionSets, p'.id = p.id ∧
      (p.deletedAt ≠ none → p'.deletedAt ≠ none)) ∨ x = .insertPermissionSet p' := by
  cases x with
  | insertPermissionSet =>
    rcases mem_append.mp h with h | h
    · exact .inl ⟨p', h, rfl, fun h => h⟩
    · exact .inr (by rw [mem_singleton.mp h])
  | updatePermissionSet =>
    obtain ⟨p, hp, ⟨_, rfl⟩ | ⟨_, rfl⟩⟩ := mem_updateWhere h
    · exact .inl ⟨p, hp, rfl, fun h => h⟩
    · exact .inl ⟨p', hp, rfl, fun h => h⟩
  | deletePermissionSet =>
    obtain ⟨p, hp, ⟨_, rfl⟩ | ⟨_, rfl⟩⟩ := mem_updateWhere h
    · exact .inl ⟨p, hp, rfl, fun _ => nofun⟩
    · exact .inl ⟨p', hp, rfl, fun h => h⟩
  | _ => exact .inl ⟨p', h, rfl, fun h => h⟩

/-- A group is deleted once and for all. -/
theorem mem_groups {g' : IdentityCenterGroupRow} (h : g' ∈ (x.apply d).identityCenterGroups) :
    (∃ g ∈ d.identityCenterGroups, g'.id = g.id ∧ g'.organizationId = g.organizationId ∧
      (g.deletedAt ≠ none → g'.deletedAt ≠ none)) ∨ x = .insertGroup g' := by
  cases x with
  | insertGroup =>
    rcases mem_append.mp h with h | h
    · exact .inl ⟨g', h, rfl, rfl, fun h => h⟩
    · exact .inr (by rw [mem_singleton.mp h])
  | deleteGroup =>
    obtain ⟨g, hg, ⟨_, rfl⟩ | ⟨_, rfl⟩⟩ := mem_updateWhere h
    · exact .inl ⟨g, hg, rfl, rfl, fun _ => nofun⟩
    · exact .inl ⟨g', hg, rfl, rfl, fun h => h⟩
  | _ => exact .inl ⟨g', h, rfl, rfl, fun h => h⟩

/-- A group stays, and stays undeleted unless the write deletes it. -/
theorem groups_stay {g : IdentityCenterGroupRow} (h : g ∈ d.identityCenterGroups) :
    ∃ g' ∈ (x.apply d).identityCenterGroups, g'.id = g.id ∧
      g'.organizationId = g.organizationId ∧
      ((∀ t, x ≠ .deleteGroup g.id t) → g'.deletedAt = g.deletedAt) := by
  cases x with
  | insertGroup => exact ⟨g, mem_append_left _ h, rfl, rfl, fun _ => rfl⟩
  | deleteGroup id deletedAt =>
    refine ⟨_, mem_map_of_mem h, ?_⟩
    by_cases e : g.id = id
    · rw [if_pos (beq_iff_eq.mpr e)]
      exact ⟨rfl, rfl, fun hn => absurd (by rw [e]) (hn deletedAt)⟩
    · rw [if_neg (by simpa using e)]
      exact ⟨rfl, rfl, fun _ => rfl⟩
  | _ => exact ⟨g, h, rfl, rfl, fun _ => rfl⟩

/-- An assignment keeps its id, key and role; its generation grows whenever it comes into force
again, which takes a regrant. -/
structure LaterAssignment (a a' : IdentityCenterAssignmentRow) : Prop where
  id : a'.id = a.id
  key : assignmentKey a' = assignmentKey a
  generation : a.generation ≤ a'.generation
  revoked : a.revokedAt ≠ none → a'.revokedAt = none →
    x = .regrantAssignment (assignmentKey a) ∧ a.generation < a'.generation

theorem LaterAssignment.refl (a : IdentityCenterAssignmentRow) : LaterAssignment x a a :=
  ⟨rfl, rfl, Nat.le_refl _, fun h h' => absurd h' h⟩

theorem mem_assignments {a' : IdentityCenterAssignmentRow}
    (h : a' ∈ (x.apply d).identityCenterAssignments) :
    (∃ a ∈ d.identityCenterAssignments, LaterAssignment x a a') ∨ x = .insertAssignment a' := by
  cases x with
  | insertAssignment =>
    rcases mem_append.mp h with h | h
    · exact .inl ⟨a', h, .refl _ a'⟩
    · exact .inr (by rw [mem_singleton.mp h])
  | regrantAssignment =>
    obtain ⟨a, ha, ⟨hp, rfl⟩ | ⟨_, rfl⟩⟩ := mem_updateWhere h
    · rw [Bool.and_eq_true, beq_iff_eq] at hp
      exact .inl ⟨a, ha, rfl, rfl, Nat.le_succ _, fun _ _ => ⟨by rw [hp.1], Nat.lt_succ_self _⟩⟩
    · exact .inl ⟨a', ha, .refl _ a'⟩
  | revokeAssignment =>
    obtain ⟨a, ha, ⟨_, rfl⟩ | ⟨_, rfl⟩⟩ := mem_updateWhere h
    · exact .inl ⟨a, ha, rfl, rfl, Nat.le_refl _, fun _ h => nomatch h⟩
    · exact .inl ⟨a', ha, .refl _ a'⟩
  | _ => exact .inl ⟨a', h, .refl _ a'⟩

end Frames
end HeteroCloud.Access
