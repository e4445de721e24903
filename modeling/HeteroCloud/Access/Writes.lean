/-
  File:      Access/Writes.lean
  Subject:   WHAT THE OPERATIONS ON ROLES, ROLE SESSIONS AND IDENTITY CENTER WRITE: one constructor
             for each row change, with what it does to referencing rows (migrations/0027, 0028,
             0033), the locks it needs and the ids it brings in.

  A lock is on a row or on a key. Referring to a role session locks its key (`FOR KEY SHARE`),
  which an update of the row does not; deleting the row locks both. The key locks taken for other
  foreign keys are left out.
-/
import HeteroCloud.Base.Guarded
import HeteroCloud.Store.Authorization

namespace HeteroCloud.Access

open Base Iam Store List

/-! ## 1. Locks -/

/-- `UNIQUE (organization_id, permission_set_id, account_id, subject_type, subject_id)`. -/
structure AssignmentKey where
  organizationId : Uuid
  permissionSetId : Uuid
  accountId : Uuid
  subjectType : SubjectType
  subjectId : Uuid
  deriving DecidableEq, Repr

def assignmentKey (a : IdentityCenterAssignmentRow) : AssignmentKey :=
  ⟨a.organizationId, a.permissionSetId, a.accountId, a.subjectType, a.subjectId⟩

inductive Key where
  /-- A row under a new id, not committed yet. -/
  | fresh (id : Uuid)
  | user (id : Uuid)
  | organization (id : Uuid)
  | principal (id : Uuid)
  | principalName (organizationId : Uuid) (name : String)
  | membership (organizationId userId : Uuid)
  | role (principalId : Uuid)
  | roleSession (id : Uuid)
  | roleSessionKey (id : Uuid)
  | browser (tokenHash : Nat)
  /-- The entry of the unique index on `active_role_session_id`. -/
  | activeRole (id : Uuid)
  | cloudAccount (accountId : Uuid)
  | permissionSet (id : Uuid)
  | group (id : Uuid)
  | groupMember (id : Uuid)
  | groupMemberKey (groupId userId : Uuid)
  | accountRole (permissionSetId accountId : Uuid)
  | assignment (id : Uuid)
  | assignmentKey (key : AssignmentKey)
  deriving DecidableEq

abbrev Locks := List (Key × LockMode)

/-! ## 2. Writes -/

inductive Write where
  | insertPrincipal (p : PrincipalRow)
  | setEnabled (organizationId principalId : Uuid) (enabled : Bool)
  | deletePrincipal (organizationId principalId : Uuid)
  | insertMembership (m : MembershipRow)
  | deleteMembership (organizationId userId : Uuid)
  | insertPolicy (p : IamPolicyRow)
  | updatePolicy (id : Uuid) (document : Json)
  | insertBinding (b : IamBindingRow)
  | deleteWorkloadTokens (organizationId principalId : Uuid)
  | insertRole (r : IamRoleRow)
  | updateTrust (organizationId principalId : Uuid) (trustPolicy : Json)
  | insertRoleSession (s : IamRoleSessionRow)
  | revokeRoleSession (id : Uuid) (revokedAt : Int)
  | deleteRoleSession (id : Uuid)
  | setActiveRole (tokenHash : Nat) (active : Option Uuid)
  | insertPermissionSet (p : IdentityCenterPermissionSetRow)
  | updatePermissionSet (id : Uuid) (document : Json) (sessionDurationSeconds : Int)
  | deletePermissionSet (id : Uuid) (deletedAt : Int)
  | insertGroup (g : IdentityCenterGroupRow)
  | deleteGroup (id : Uuid) (deletedAt : Int)
  | insertGroupMember (m : IdentityCenterGroupMemberRow)
  | deleteGroupMember (id : Uuid)
  | insertAccountRole (r : IdentityCenterAccountRoleRow)
  | insertAssignment (a : IdentityCenterAssignmentRow)
  /-- `ON CONFLICT ... DO UPDATE SET revoked_at=NULL, generation=generation+1`. -/
  | regrantAssignment (key : AssignmentKey)
  | revokeAssignment (id : Uuid) (revokedAt : Int)

/-- `ON DELETE SET NULL`: a reference to a row that goes is cleared. -/
def setNull (gone : List Uuid) (reference : Option Uuid) : Option Uuid :=
  reference.filter fun id => !gone.contains id

/-- Memberships go, and with them the references of the sessions that captured them. -/
def deleteMemberships (gone : MembershipRow → Bool) (d : Db) : Db :=
  let ids := (d.organizationMemberships.filter gone).map (·.identityCenterMembershipId)
  { d with
    organizationMemberships := d.organizationMemberships.filter fun m => !gone m
    iamRoleSessions := d.iamRoleSessions.map fun s =>
      { s with
        identityCenterSourceMembershipId := setNull ids s.identityCenterSourceMembershipId
        identityCenterTargetMembershipId := setNull ids s.identityCenterTargetMembershipId } }

/-- A principal goes, with every row that refers to it. -/
def deletePrincipal (organizationId principalId : Uuid) (d : Db) : Db :=
  let d := deleteMemberships (·.principalId == principalId) d
  { d with
    principals := d.principals.filter fun p =>
      !(p.id == principalId && p.organizationId == organizationId)
    iamRoles := d.iamRoles.filter fun r =>
      !(r.principalId == principalId && r.organizationId == organizationId)
    iamRoleSessions := (d.iamRoleSessions.filter fun s =>
      !(s.rolePrincipalId == principalId && s.organizationId == organizationId)).map fun s =>
        { s with
          identityCenterTargetPrincipalId :=
            setNull [principalId] s.identityCenterTargetPrincipalId }
    iamBindings := d.iamBindings.filter (·.principalId != principalId)
    iamGroupMembers := d.iamGroupMembers.filter (·.principalId != principalId)
    workloadAccessTokens := d.workloadAccessTokens.filter (·.principalId != principalId) }

def Write.apply : Write → Db → Db
  | .insertPrincipal p, d => { d with principals := d.principals ++ [p] }
  | .setEnabled organizationId principalId enabled, d =>
      { d with
        principals := updateWhere (fun p => p.id == principalId &&
          p.organizationId == organizationId && p.userId == none)
          (fun p => { p with enabled }) d.principals }
  | .deletePrincipal organizationId principalId, d =>
      Access.deletePrincipal organizationId principalId d
  | .insertMembership m, d =>
      { d with organizationMemberships := d.organizationMemberships ++ [m] }
  | .deleteMembership organizationId userId, d =>
      deleteMemberships (fun m => m.organizationId == organizationId && m.userId == userId) d
  | .insertPolicy p, d => { d with iamPolicies := d.iamPolicies ++ [p] }
  | .updatePolicy id document, d =>
      { d with
        iamPolicies := updateWhere (·.id == id) (fun p => { p with document }) d.iamPolicies }
  | .insertBinding b, d => { d with iamBindings := d.iamBindings ++ [b] }
  | .deleteWorkloadTokens organizationId principalId, d =>
      { d with
        workloadAccessTokens := d.workloadAccessTokens.filter fun t =>
          !(t.organizationId == organizationId && t.principalId == principalId) }
  | .insertRole r, d => { d with iamRoles := d.iamRoles ++ [r] }
  | .updateTrust organizationId principalId trustPolicy, d =>
      { d with
        iamRoles := updateWhere (fun r => r.organizationId == organizationId &&
          r.principalId == principalId) (fun r => { r with trustPolicy }) d.iamRoles }
  | .insertRoleSession s, d => { d with iamRoleSessions := d.iamRoleSessions ++ [s] }
  | .revokeRoleSession id revokedAt, d =>
      { d with
        iamRoleSessions := updateWhere (fun s => s.id == id && s.revokedAt == none)
          (fun s => { s with revokedAt := some revokedAt }) d.iamRoleSessions }
  | .deleteRoleSession id, d =>
      { d with iamRoleSessions := d.iamRoleSessions.filter (·.id != id) }
  | .setActiveRole tokenHash active, d =>
      { d with
        sessions := updateWhere (·.tokenHash == tokenHash)
          (fun s => { s with activeRoleSessionId := active }) d.sessions }
  | .insertPermissionSet p, d =>
      { d with identityCenterPermissionSets := d.identityCenterPermissionSets ++ [p] }
  | .updatePermissionSet id document sessionDurationSeconds, d =>
      { d with
        identityCenterPermissionSets := updateWhere (·.id == id)
          (fun p => { p with document, sessionDurationSeconds }) d.identityCenterPermissionSets }
  | .deletePermissionSet id deletedAt, d =>
      { d with
        identityCenterPermissionSets := updateWhere (·.id == id)
          (fun p => { p with deletedAt := some deletedAt }) d.identityCenterPermissionSets }
  | .insertGroup g, d => { d with identityCenterGroups := d.identityCenterGroups ++ [g] }
  | .deleteGroup id deletedAt, d =>
      { d with
        identityCenterGroups := updateWhere (·.id == id)
          (fun g => { g with deletedAt := some deletedAt }) d.identityCenterGroups }
  | .insertGroupMember m, d =>
      { d with identityCenterGroupMembers := d.identityCenterGroupMembers ++ [m] }
  | .deleteGroupMember id, d =>
      { d with
        identityCenterGroupMembers := d.identityCenterGroupMembers.filter (·.id != id)
        iamRoleSessions := d.iamRoleSessions.map fun s =>
          { s with
            identityCenterGroupMembershipId := setNull [id] s.identityCenterGroupMembershipId } }
  | .insertAccountRole r, d =>
      { d with identityCenterAccountRoles := d.identityCenterAccountRoles ++ [r] }
  | .insertAssignment a, d =>
      { d with identityCenterAssignments := d.identityCenterAssignments ++ [a] }
  | .regrantAssignment key, d =>
      { d with
        identityCenterAssignments := updateWhere
          (fun a => Access.assignmentKey a == key && a.revokedAt != none)
          (fun a => { a with revokedAt := none, generation := a.generation + 1 })
          d.identityCenterAssignments }
  | .revokeAssignment id revokedAt, d =>
      { d with
        identityCenterAssignments := updateWhere (fun a => a.id == id && a.revokedAt == none)
          (fun a => { a with revokedAt := some revokedAt }) d.identityCenterAssignments }

/-! ## 3. Guards -/

/-- The group an assignment is for. -/
def AssignmentKey.groupKeys (k : AssignmentKey) : List Key :=
  match k.subjectType with
  | .user => []
  | .group => [.group k.subjectId]

/-- The locks other calls rely on: nobody else changes the role, the browser session, or the
members and assignments of the group meanwhile. -/
def Write.needs : Write → List Key
  | .deletePrincipal _ principalId | .updateTrust _ principalId _ => [.role principalId]
  | .setActiveRole tokenHash _ => [.browser tokenHash]
  | .deleteGroup id _ => [.group id]
  | .insertGroupMember m => [.group m.groupId]
  | .insertAssignment a => (Access.assignmentKey a).groupKeys
  | .regrantAssignment key => key.groupKeys
  | _ => []

def Write.makes : Write → List Uuid
  | .insertPrincipal p => [p.id]
  | .insertMembership m => [m.identityCenterMembershipId]
  | .insertRole r => [r.principalId]
  | .insertRoleSession s => [s.id]
  | .insertPermissionSet p => [p.id]
  | .insertGroup g => [g.id]
  | .insertGroupMember m => [m.id]
  | .insertAccountRole r => [r.rolePrincipalId]
  | .insertAssignment a => [a.id]
  | _ => []

/-- The ids whose rows come and go. -/
def ids (d : Db) : List Uuid :=
  d.principals.map (·.id) ++ d.organizationMemberships.map (·.identityCenterMembershipId) ++
  d.iamRoles.map (·.principalId) ++ d.iamRoleSessions.map (·.id) ++
  d.identityCenterPermissionSets.map (·.id) ++ d.identityCenterGroups.map (·.id) ++
  d.identityCenterGroupMembers.map (·.id) ++ d.identityCenterAssignments.map (·.id)

section Ids
variable {d : Db}

theorem mem_ids_membership {m : MembershipRow} (h : m ∈ d.organizationMemberships) :
    m.identityCenterMembershipId ∈ ids d := by
  simp only [ids, mem_append, mem_map]
  exact .inl (.inl (.inl (.inl (.inl (.inl (.inr ⟨m, h, rfl⟩))))))

theorem mem_ids_role {r : IamRoleRow} (h : r ∈ d.iamRoles) : r.principalId ∈ ids d := by
  simp only [ids, mem_append, mem_map]
  exact .inl (.inl (.inl (.inl (.inl (.inr ⟨r, h, rfl⟩)))))

theorem mem_ids_roleSession {s : IamRoleSessionRow} (h : s ∈ d.iamRoleSessions) : s.id ∈ ids d := by
  simp only [ids, mem_append, mem_map]
  exact .inl (.inl (.inl (.inl (.inr ⟨s, h, rfl⟩))))

theorem mem_ids_permissionSet {p : IdentityCenterPermissionSetRow}
    (h : p ∈ d.identityCenterPermissionSets) : p.id ∈ ids d := by
  simp only [ids, mem_append, mem_map]
  exact .inl (.inl (.inl (.inr ⟨p, h, rfl⟩)))

theorem mem_ids_group {g : IdentityCenterGroupRow} (h : g ∈ d.identityCenterGroups) :
    g.id ∈ ids d := by
  simp only [ids, mem_append, mem_map]
  exact .inl (.inl (.inr ⟨g, h, rfl⟩))

theorem mem_ids_groupMember {m : IdentityCenterGroupMemberRow}
    (h : m ∈ d.identityCenterGroupMembers) : m.id ∈ ids d := by
  simp only [ids, mem_append, mem_map]
  exact .inl (.inr ⟨m, h, rfl⟩)

theorem mem_ids_assignment {a : IdentityCenterAssignmentRow}
    (h : a ∈ d.identityCenterAssignments) : a.id ∈ ids d := by
  simp only [ids, mem_append, mem_map]
  exact .inr ⟨a, h, rfl⟩

end Ids

/-- A write that takes a membership away. -/
def Write.removesMembership : Write → Bool
  | .deleteMembership _ _ | .deletePrincipal _ _ => true
  | _ => false

/-- The discipline; `removal` says whether memberships may be removed. -/
def guards (removal : Bool) : Guards Db Key Write where
  allows x := x.removesMembership = true → removal = true
  needs := Write.needs
  makes := Write.makes
  fresh := Key.fresh
  ids := ids

/-! ## 4. Rows after a write -/

/-- Every table that holds ids; those a write does not name are unchanged. -/
structure IdsWithin (new : List Uuid) (d d' : Db) : Prop where
  principals : Within (·.id) new d.principals d'.principals := by exact .refl _
  memberships : Within (·.identityCenterMembershipId) new d.organizationMemberships
    d'.organizationMemberships := by exact .refl _
  roles : Within (·.principalId) new d.iamRoles d'.iamRoles := by exact .refl _
  roleSessions : Within (·.id) new d.iamRoleSessions d'.iamRoleSessions := by exact .refl _
  permissionSets : Within (·.id) new d.identityCenterPermissionSets
    d'.identityCenterPermissionSets := by exact .refl _
  groups : Within (·.id) new d.identityCenterGroups d'.identityCenterGroups := by exact .refl _
  groupMembers : Within (·.id) new d.identityCenterGroupMembers d'.identityCenterGroupMembers :=
    by exact .refl _
  assignments : Within (·.id) new d.identityCenterAssignments d'.identityCenterAssignments :=
    by exact .refl _

theorem IdsWithin.mem {new : List Uuid} {d d' : Db} (h : IdsWithin new d d') {k : Uuid}
    (hk : k ∈ ids d') : k ∈ ids d ∨ k ∈ new := by
  simp only [ids, mem_append] at hk ⊢
  rcases hk with ((((((hk | hk) | hk) | hk) | hk) | hk) | hk) | hk
  · exact (h.principals.mem hk).imp_left fun h => by simp [h]
  · exact (h.memberships.mem hk).imp_left fun h => by simp [h]
  · exact (h.roles.mem hk).imp_left fun h => by simp [h]
  · exact (h.roleSessions.mem hk).imp_left fun h => by simp [h]
  · exact (h.permissionSets.mem hk).imp_left fun h => by simp [h]
  · exact (h.groups.mem hk).imp_left fun h => by simp [h]
  · exact (h.groupMembers.mem hk).imp_left fun h => by simp [h]
  · exact (h.assignments.mem hk).imp_left fun h => by simp [h]

/-- **A write adds no id but those it makes.** -/
theorem Write.idsWithin (x : Write) (d : Db) : IdsWithin x.makes d (x.apply d) := by
  cases x with
  | insertPrincipal => exact { principals := .insert _ }
  | setEnabled => exact { principals := .update fun _ => rfl }
  | deletePrincipal =>
    exact { principals := .filter _, memberships := .filter _, roles := .filter _,
            roleSessions := fun b hb => by
              obtain ⟨_, hm, rfl⟩ := mem_map.mp hb
              obtain ⟨s, hs, rfl⟩ := mem_map.mp (mem_of_mem_filter hm)
              exact .inl ⟨s, hs, rfl⟩ }
  | insertMembership => exact { memberships := .insert _ }
  | deleteMembership => exact { memberships := .filter _, roleSessions := .map fun _ => rfl }
  | insertRole => exact { roles := .insert _ }
  | updateTrust => exact { roles := .update fun _ => rfl }
  | insertRoleSession => exact { roleSessions := .insert _ }
  | revokeRoleSession => exact { roleSessions := .update fun _ => rfl }
  | deleteRoleSession => exact { roleSessions := .filter _ }
  | insertPermissionSet => exact { permissionSets := .insert _ }
  | updatePermissionSet | deletePermissionSet => exact { permissionSets := .update fun _ => rfl }
  | insertGroup => exact { groups := .insert _ }
  | deleteGroup => exact { groups := .update fun _ => rfl }
  | insertGroupMember => exact { groupMembers := .insert _ }
  | deleteGroupMember => exact { groupMembers := .filter _, roleSessions := .map fun _ => rfl }
  | insertAssignment => exact { assignments := .insert _ }
  | regrantAssignment | revokeAssignment => exact { assignments := .update fun _ => rfl }
  | _ => exact {}

end HeteroCloud.Access
