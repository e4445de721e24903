/-
  File:      Store/Authorization.lean
  Subject:   THE AUTHORIZATION QUERIES of the store (crates/heterocloud-store/src/lib.rs,
             iam_groups.rs, iam_roles.rs, cloud_organizations.rs, and the function
             `identity_center_session_is_active` of migrations/0033_identity_center.sql).

  A `SELECT` without `ORDER BY` is read in table order; what is proved about its answer does not
  use that order. `service_control_levels` walks `parent_id` with the array of visited units;
  `ancestors_stable` shows that the bound on the walk is never what ends it. Times are
  in microseconds; `now` is the time of the transaction.
-/
import HeteroCloud.Store.Schema

namespace HeteroCloud.Store

open Base Iam List

/-! ## 1. Contexts -/

/-- The `role` of a context: a membership's, or the constant of a bare principal. -/
inductive ContextRole where
  | membership (role : MembershipRole)
  | serviceAccount
  deriving DecidableEq, Repr

/-- `matches!(role, "owner" | "admin")`. -/
def ContextRole.isAdministrator : ContextRole → Bool
  | .membership .owner | .membership .admin => true
  | _ => false

structure AuthorizationContext where
  principalId : Uuid
  role : ContextRole
  policies : List PolicyDocument
  permissionsBoundary : Option PolicyDocument
  deriving DecidableEq, Repr

variable (db : Db)

/-- The policy is attached to the principal, directly or through a group of the account. -/
def Db.attached (organizationId principalId policyId : Uuid) : Bool :=
  db.iamBindings.any (fun b =>
    b.organizationId == organizationId && b.principalId == principalId && b.policyId == policyId) ||
  db.iamGroupMembers.any (fun gm =>
    gm.organizationId == organizationId && gm.principalId == principalId &&
    db.iamGroupPolicyAttachments.any fun gp =>
      gp.organizationId == gm.organizationId && gp.groupId == gm.groupId &&
        gp.policyId == policyId)

/-- The policies of a principal, `ORDER BY p.id`. -/
def Db.principalPolicies (organizationId principalId : Uuid) : Except StoreError (List
    PolicyDocument) :=
  readDocuments ((orderBy (·.id) (db.iamPolicies.filter fun p =>
    p.organizationId == organizationId && db.attached organizationId principalId p.id)).map
      (·.document))

variable (account principal : Uuid)

def Db.permissionsBoundary : Except StoreError (Option PolicyDocument) :=
  let document := (db.principals.find? fun p =>
      p.organizationId == account && p.id == principal).bind fun p =>
    (db.iamPolicies.find? fun policy =>
      policy.organizationId == p.organizationId &&
        some policy.id == p.permissionsBoundaryPolicyId).map (·.document)
  match document with
  | none => .ok none
  | some document =>
      match PolicyDocument.fromValue document with
      | some d => .ok (some d)
      | none => .error .json

/-- The user exists and is active. -/
def Db.activeUser (userId : Uuid) : Bool :=
  db.users.any fun u => u.id == userId && u.status == .active

/-- The membership row of `authorization_context`, with its joins. -/
def Db.activeMembership (userId organizationId : Uuid) : Option MembershipRow :=
  db.organizationMemberships.find? fun m =>
    m.userId == userId && m.organizationId == organizationId &&
    db.principals.any (fun p =>
      p.id == m.principalId && p.organizationId == m.organizationId &&
        p.userId == some m.userId && p.enabled) &&
    db.activeUser m.userId

def Db.authorizationContext (userId organizationId : Uuid) : Except StoreError (Option
    AuthorizationContext) :=
  match db.activeMembership userId organizationId with
  | none => .ok none
  | some membership => do
      let policies ← db.principalPolicies organizationId membership.principalId
      let permissionsBoundary ← db.permissionsBoundary organizationId membership.principalId
      return some { principalId := membership.principalId, role := .membership membership.role,
                    policies, permissionsBoundary }

variable (principalId organizationId : Uuid)

/-- The `EXISTS` of `authorization_context_for_principal`. -/
def Db.activePrincipal : Bool :=
  db.principals.any fun p =>
    p.id == principalId && p.organizationId == organizationId && p.enabled &&
      match p.userId with
      | none => true
      | some userId => db.activeUser userId

def Db.authorizationContextForPrincipal : Except StoreError (Option AuthorizationContext) :=
  if !db.activePrincipal principalId organizationId then .ok none
  else do
    let policies ← db.principalPolicies organizationId principalId
    let permissionsBoundary ← db.permissionsBoundary organizationId principalId
    return some { principalId, role := .serviceAccount, policies, permissionsBoundary }

def Db.principalUserId (principalId : Uuid) : Option Uuid :=
  (db.principals.find? fun p =>
    p.id == principalId && p.enabled && p.userId.any db.activeUser).bind (·.userId)

def Db.isIamRolePrincipal : Bool :=
  db.iamRoles.any fun r => r.organizationId == account && r.principalId == principal

/-! ## 2. Service control policies -/

/-- `CloudOrganization`, with the columns the store reads back. -/
structure CloudOrganization where
  id : Uuid
  managementAccountId : Uuid
  managementAccountNumber : Nat
  rootId : Uuid
  currentAccountId : Uuid
  currentAccountNumber : Nat
  deriving DecidableEq, Repr

variable (accountId : Uuid)

def Db.cloudOrganizationForAccount : Option CloudOrganization := do
  let a ← db.cloudOrganizationAccounts.find? (·.accountId == accountId)
  let o ← db.cloudOrganizations.find? (·.id == a.organizationId)
  let m ← db.organizations.find? (·.id == o.managementAccountId)
  let current ← db.organizations.find? (·.id == a.accountId)
  let r ← db.cloudOrganizationalUnits.find? fun u =>
    u.organizationId == o.id && u.parentId == none
  return { id := o.id, managementAccountId := o.managementAccountId,
           managementAccountNumber := m.accountNumber, rootId := r.id,
           currentAccountId := a.accountId, currentAccountNumber := current.accountNumber }

/-- The recursive query from one unit up. `visited` is its array; a round is one step up. -/
def ancestors (units : List CloudOrganizationalUnitRow) :
    Nat → CloudOrganizationalUnitRow → List Uuid → List CloudOrganizationalUnitRow
  | 0, u, _ => [u]
  | rounds + 1, u, visited =>
      u :: (units.filter fun w => some w.id == u.parentId &&
          w.organizationId == u.organizationId && !visited.contains w.id).flatMap fun w =>
        ancestors units rounds w (visited ++ [w.id])

/-- **The walk ends by itself.** Once there are as many rounds as units of the organization left to
visit, one more round changes nothing. -/
theorem ancestors_stable (units : List CloudOrganizationalUnitRow) (rounds : Nat)
    (u : CloudOrganizationalUnitRow) (visited : List Uuid)
    (h : (units.filter fun w => w.organizationId == u.organizationId &&
      !visited.contains w.id).length ≤ rounds) :
    ancestors units (rounds + 1) u visited = ancestors units rounds u visited := by
  induction rounds generalizing u visited with
  | zero =>
    have hnil : (units.filter fun w => some w.id == u.parentId &&
        w.organizationId == u.organizationId && !visited.contains w.id) = [] := by
      have h0 := length_eq_zero_iff.mp (Nat.le_zero.mp h)
      rw [filter_eq_nil_iff] at h0 ⊢
      intro w hw hq
      rw [Bool.and_assoc, Bool.and_eq_true] at hq
      exact h0 w hw hq.2
    rw [ancestors, ancestors, hnil, flatMap_nil]
  | succ _ ih =>
    rw [ancestors, ancestors]
    congr 1
    refine flatMap_congr fun w hw => ih w _ ?_
    obtain ⟨hwm, hwq⟩ := mem_filter.mp hw
    rw [Bool.and_assoc, Bool.and_eq_true] at hwq
    -- `w` was still to be visited and is not any more
    have hlt : (units.filter fun x => x.organizationId == w.organizationId &&
          !(visited ++ [w.id]).contains x.id).length <
        (units.filter fun x => x.organizationId == u.organizationId &&
          !visited.contains x.id).length := by
      have ho : w.organizationId = u.organizationId := by
        have := hwq.2
        rw [Bool.and_eq_true, beq_iff_eq] at this
        exact this.1
      have hsub : (units.filter fun x => x.organizationId == w.organizationId &&
            !(visited ++ [w.id]).contains x.id) =
          (units.filter fun x => x.organizationId == u.organizationId &&
            !visited.contains x.id).filter fun x => !decide (x.id = w.id) := by
        rw [filter_filter]
        refine filter_congr fun x _ => ?_
        rw [ho, contains_append]
        simp [Bool.not_or, Bool.and_comm, Bool.and_left_comm]
      rw [hsub]
      exact length_filter_lt_length_iff_exists.mpr
        ⟨w, mem_filter.mpr ⟨hwm, hwq.2⟩, by simp⟩
    omega

/-- Two units that are each other's parents. -/
theorem ancestors_stable_cycle : ancestors [⟨1, 9, some 2⟩, ⟨2, 9, some 1⟩] 3 ⟨1, 9, some 2⟩ [1] =
    ancestors [⟨1, 9, some 2⟩, ⟨2, 9, some 1⟩] 2 ⟨1, 9, some 2⟩ [1] :=
  ancestors_stable _ 2 _ _ (by decide)

/-- The units above an account. -/
def Db.accountAncestors (a : CloudOrganizationAccountRow) : List CloudOrganizationalUnitRow :=
  (db.cloudOrganizationalUnits.filter fun u =>
    u.id == a.parentId && u.organizationId == a.organizationId).flatMap fun u =>
      ancestors db.cloudOrganizationalUnits
        (db.cloudOrganizationalUnits.filter (·.organizationId == a.organizationId)).length u [u.id]

structure ScpRow where
  targetId : Uuid
  isRoot : Bool
  document : Option Json
  deriving DecidableEq, Repr

/-- `LEFT JOIN` of the attachments of a target with their policies. -/
def Db.attachedDocuments (attachments : List ScpAttachmentRow) (targetId : Uuid) : List (Option
    Json) :=
  let ts := attachments.filter (·.targetId == targetId)
  if ts.isEmpty then [none]
  else ts.map fun t =>
    (db.cloudServiceControlPolicies.find? (·.id == t.policyId)).map (·.document)

/-- The rows of the query: the units above the account, and the account. -/
def Db.scpRows : List ScpRow :=
  (db.cloudOrganizationAccounts.filter (·.accountId == accountId)).flatMap fun a =>
    (db.accountAncestors a).flatMap (fun u =>
      (db.attachedDocuments db.cloudScpUnitAttachments u.id).map fun document =>
        { targetId := u.id, isRoot := u.parentId == none, document }) ++
    (db.attachedDocuments db.cloudScpAccountAttachments a.accountId).map fun document =>
      { targetId := a.accountId, isRoot := false, document }

/-- The map from targets to documents, by ascending target. -/
def scpLevels (rows : List ScpRow) : List (Uuid × List Json) :=
  (orderBy id (rows.map (·.targetId)).dedup).map fun targetId =>
    (targetId, rows.filterMap fun r => if r.targetId == targetId then r.document else none)

def Db.serviceControlLevels : Except StoreError (List (List PolicyDocument)) := do
  if !db.cloudSecurityActivation.scpEnabled then return []
  match db.cloudOrganizationForAccount accountId with
  | none => throw (.invariant "account is missing its organization")
  | some organization =>
    if organization.managementAccountId = accountId then return []
    let rows := db.scpRows accountId
    if !rows.any (·.isRoot) then
      throw (.invariant "account organization has no reachable root")
    (scpLevels rows).mapM fun level => readDocuments level.2

end HeteroCloud.Store

namespace HeteroCloud.Store

open Base Iam

def seconds (n : Int) : Int := n * 1000000

/-- `interval '7 days'`. -/
def sevenDays : Int := seconds 604800

/-- `IamRoleSession`: what authenticating a role session gives. -/
structure IamRoleSession where
  id : Uuid
  organizationId : Uuid
  principalId : Uuid
  sourceOrganizationId : Uuid
  sourcePrincipalId : Uuid
  sourceArn : String
  sessionName : String
  expiresAt : Int
  sessionPolicy : Option PolicyDocument
  identityCenterUserId : Option Uuid
  deriving DecidableEq, Repr

/-! ## 3. ARNs -/

/-- `account_number::text`. -/
def OrganizationRow.numberText (a : OrganizationRow) : String := toString a.accountNumber

def iamRoleArn (number name : String) : String := "arn:aws:iam::" ++ number ++ ":role/" ++ name

/-- `IamRole`, as `ROLE_SELECT` reads it. -/
structure IamRole where
  principalId : Uuid
  organizationId : Uuid
  name : String
  arn : String
  trustPolicy : Json
  maxSessionSeconds : Int
  managedByIdentityCenter : Bool
  deriving DecidableEq, Repr

section Queries
variable (db : Db)

def Db.isIdentityCenterRole (account principal : Uuid) : Bool :=
  db.identityCenterAccountRoles.any fun r =>
    r.accountId == account && r.rolePrincipalId == principal

/-- The account of a row. -/
def Db.organization (id : Uuid) : Option OrganizationRow := db.organizations.find? (·.id == id)

def Db.findIamRole (accountNumber name : String) : Option IamRole :=
  (db.iamRoles.filterMap fun r => (db.organization r.organizationId).bind fun a =>
    if a.numberText = accountNumber ∧ r.name = name then
      some { principalId := r.principalId, organizationId := r.organizationId, name := r.name,
             arn := iamRoleArn a.numberText r.name, trustPolicy := r.trustPolicy,
             maxSessionSeconds := r.maxSessionSeconds,
             managedByIdentityCenter := db.isIdentityCenterRole r.organizationId r.principalId }
    else none).head?

/-- The account number and the ARN of an enabled principal. -/
def Db.iamPrincipalArn (lib : ThirdParty) (account principal : Uuid) :
    Option (String × String) :=
  (db.principals.find? fun p => p.organizationId == account && p.id == principal &&
    p.enabled).bind fun p => (db.organization p.organizationId).map fun a =>
      (a.numberText,
        match db.iamRoles.find? fun r => r.principalId == p.id &&
          r.organizationId == p.organizationId with
        | some r => iamRoleArn a.numberText r.name
        | none => "arn:aws:iam::" ++ a.numberText ++ ":user/" ++ lib.uuidText p.id)

/-- The principal of a role or of a role session is enabled. -/
def Db.enabledPrincipal (organizationId principalId : Uuid) : Bool :=
  db.principals.any fun p => p.id == principalId && p.organizationId == organizationId && p.enabled

/-! ## 4. Identity Center sessions -/

/-- The membership a session captured is still there, with its principal enabled. -/
def Db.capturedMembership (organizationId userId : Uuid) (principalId membershipId : Option Uuid) :
    Bool :=
  db.organizationMemberships.any fun m => m.organizationId == organizationId &&
    m.userId == userId && principalId == some m.principalId &&
    membershipId == some m.identityCenterMembershipId &&
    db.enabledPrincipal m.organizationId m.principalId

/-- The group membership a session captured is still there. -/
def Db.capturedGroupMembership (a : IdentityCenterAssignmentRow) (userId : Uuid)
    (groupMembershipId : Option Uuid) : Bool :=
  db.identityCenterGroups.any fun g => g.id == a.subjectId &&
    g.organizationId == a.organizationId && g.deletedAt == none &&
    db.identityCenterGroupMembers.any fun gm => gm.groupId == g.id &&
      gm.organizationId == g.organizationId && groupMembershipId == some gm.id &&
      gm.userId == userId

variable (s : IamRoleSessionRow)

/-- The assignment `a` still backs the session `s` of the user `u`. -/
def Db.assignmentBacks (u : Uuid) (a : IdentityCenterAssignmentRow) : Bool :=
  s.identityCenterAssignmentId == some a.id && a.revokedAt == none &&
  s.identityCenterAssignmentGeneration == some a.generation &&
  a.accountId == s.organizationId && a.rolePrincipalId == s.rolePrincipalId &&
  (db.identityCenterPermissionSets.any fun ps => ps.id == a.permissionSetId &&
    ps.organizationId == a.organizationId && ps.deletedAt == none) &&
  (db.cloudOrganizations.any fun co => co.id == a.organizationId &&
    s.sourceOrganizationId == co.managementAccountId &&
    db.capturedMembership co.managementAccountId u (some s.sourcePrincipalId)
      s.identityCenterSourceMembershipId) &&
  db.capturedMembership a.accountId u s.identityCenterTargetPrincipalId
    s.identityCenterTargetMembershipId &&
  match a.subjectType with
  | .user => a.subjectId == u && s.identityCenterGroupMembershipId == none
  | .group => db.capturedGroupMembership a u s.identityCenterGroupMembershipId

/-- **`identity_center_session_is_active`**, on the row of the session. -/
def Db.sessionIsActive : Bool :=
  s.identityCenterAssignmentId == none ||
    s.identityCenterUserId.any fun u => db.activeUser u &&
      db.identityCenterAssignments.any (db.assignmentBacks s u)

/-- The function by id; null when the session is gone. -/
def Db.identityCenterSessionIsActive (sessionId : Uuid) : Option Bool :=
  (db.iamRoleSessions.find? (·.id == sessionId)).map db.sessionIsActive

/-! ## 5. Authentication -/

variable (now : Int)

/-- Unrevoked, unexpired, and the role's principal enabled. -/
def Db.liveRoleSession (s : IamRoleSessionRow) : Bool :=
  s.revokedAt == none && decide (now < s.expiresAt) &&
    db.enabledPrincipal s.organizationId s.rolePrincipalId

def Db.authenticates (s : IamRoleSessionRow) : Bool :=
  db.liveRoleSession now s && db.identityCenterSessionIsActive s.id == some true

/-- The row as `IamRoleSession`: a stored session policy must be readable. -/
def IamRoleSessionRow.decode : Except StoreError IamRoleSession := do
  let sessionPolicy ← match s.sessionPolicy with
    | none => .ok none
    | some j => match PolicyDocument.fromValue j with
      | some d => .ok (some d)
      | none => .error .json
  return { id := s.id, organizationId := s.organizationId, principalId := s.rolePrincipalId,
           sourceOrganizationId := s.sourceOrganizationId,
           sourcePrincipalId := s.sourcePrincipalId, sourceArn := s.sourceArn,
           sessionName := s.sessionName, expiresAt := s.expiresAt, sessionPolicy,
           identityCenterUserId := s.identityCenterUserId }

/-- `row.map(...).transpose()`. -/
def decodeRow : Option IamRoleSessionRow → Except StoreError (Option IamRoleSession)
  | none => .ok none
  | some s => s.decode.map some

def Db.authenticateIamRoleSession (tokenHash : Nat) : Except StoreError (Option IamRoleSession) :=
  decodeRow (db.iamRoleSessions.find? fun s => s.tokenHash == tokenHash && db.authenticates now s)

def Db.authenticateBrowserRoleSession (sessionId : Uuid) : Except StoreError (Option
    IamRoleSession) :=
  decodeRow (db.iamRoleSessions.find? fun s => s.id == sessionId && db.authenticates now s)

end Queries
end HeteroCloud.Store
