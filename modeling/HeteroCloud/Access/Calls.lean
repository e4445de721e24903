/-
  File:      Access/Calls.lean
  Subject:   THE OPERATIONS ON ROLES, ROLE SESSIONS AND IDENTITY CENTER, as program points
             (crates/heterocloud-store/src/iam_roles.rs, identity_center.rs,
             workload_identity.rs; `assume_iam_role` of crates/heterocloud-api/src/routes.rs).

  A constructor is the point before one statement, with the values the function holds there.
-/
import HeteroCloud.Access.Request
import HeteroCloud.Access.Writes

namespace HeteroCloud.Access

open Base Iam Store Api

/-! ## 1. Roles -/

/-- Who asks for the role: `context.principal_id`, `source_number`, `source_arn`. -/
structure Caller where
  principalId : Uuid
  accountNumber : String
  arn : String

/-- What `assume_iam_role` passes to `create_iam_role_session`. -/
structure Grant where
  request : Request
  caller : Caller
  role : IamRole
  tokenHash : Nat
  expiresAt : Int

/-- The row `create_iam_role_session` inserts. -/
def Grant.row (g : Grant) (id : Uuid) : IamRoleSessionRow :=
  { id, organizationId := g.role.organizationId, rolePrincipalId := g.role.principalId,
    sourceOrganizationId := g.request.source, sourcePrincipalId := g.caller.principalId,
    sourceArn := g.caller.arn, sessionName := g.request.sessionName,
    sessionPolicy := g.request.sessionPolicy.map PolicyDocument.toValue,
    tokenHash := g.tokenHash, expiresAt := g.expiresAt }

/-- A browser that switches to a role session made for it. -/
structure Switch where
  tokenHash : Nat
  expected : Option Uuid
  new : Uuid
  organizationId : Uuid
  rolePrincipalId : Uuid

inductive RoleCall where
  | assumeIamRole (actor : AuthenticatedActor) (source : Uuid) (input : AssumeIamRole)
  | browserRoles (actor : AuthenticatedActor) (source : Uuid) (input : AssumeIamRole)
  | policyConditions (q : Request)
  | authorize (q : Request)
  | callerArn (q : Request) (principalId : Uuid)
  | findRole (q : Request) (caller : Caller)
  | roleTrust (q : Request) (caller : Caller) (role : IamRole)
  | lockRole (g : Grant)
  | purgeSessions (g : Grant)
  | countSessions (g : Grant)
  | insertSession (g : Grant)
  | commitSession (g : Grant) (id : Uuid)
  | switchBrowserRole (s : Switch)
  | switchRevoke (s : Switch) (previous : Uuid)
  | switchCommit (s : Switch)
  | revokeNew (s : Switch) (error : StoreError)
  | revokeNewCommit (s : Switch) (error : StoreError)
  | clearBrowserRole (tokenHash : Nat)
  | clearUpdate (tokenHash : Nat) (current : Option Uuid)
  | clearRevoke (tokenHash : Nat) (current : Uuid)
  | clearCommit (tokenHash : Nat) (current : Option Uuid)
  | createIamRole (account : Uuid) (name : String) (trust : Json) (maxSessionSeconds : Int)
      (quotaUser : Option Uuid)
  | insertRole (account : Uuid) (name : String) (trust : Json) (maxSessionSeconds : Int)
      (principal : Uuid)
  | commitRole
  | updateIamRoleTrust (account principal : Uuid) (trust : Json)
  | deleteIamRole (account role : Uuid)
  | deleteRoleManaged (account role : Uuid)
  | deleteRoleInUse (account role : Uuid)
  | deleteRolePrincipal (account role : Uuid)
  | setServiceAccountEnabled (organization role : Uuid) (enabled : Bool)
  | deleteTokens (organization role : Uuid)
  | revokeIamRoleSession (account role session : Uuid)

/-! ## 2. Identity Center -/

/-- The arguments of `change_identity_center_group_member`, and the organization it read. -/
structure MemberChange where
  management : Uuid
  organization : Uuid
  group : Uuid
  user : Uuid

/-- The arguments of `create_identity_center_assignment`, and what it read first. -/
structure NewAssignment where
  management : Uuid
  organization : Uuid
  managementNumber : String
  permissionSet : Uuid
  document : Json
  account : Uuid
  subjectType : SubjectType
  subject : Uuid

def NewAssignment.key (a : NewAssignment) : AssignmentKey :=
  ⟨a.organization, a.permissionSet, a.account, a.subjectType, a.subject⟩

/-- What goes on after `ensure_account_user`: the loops of its two callers, with what is left. -/
inductive Ensuring where
  | accounts (m : MemberChange) (rest : List Uuid)
  | users (a : NewAssignment) (rest : List Uuid)

/-- The arguments of `create_identity_center_session`, and what it read of the assignment;
`browser` is the browser session to switch afterwards. -/
structure SessionAssignment where
  management : Uuid
  sourceNumber : String
  assignment : Uuid
  user : Uuid
  browser : Option Nat
  source : Uuid
  accountId : Uuid
  rolePrincipalId : Uuid
  generation : Nat
  sessionDurationSeconds : Int

/-- The memberships a session captures. -/
structure Captured where
  groupMembership : Option Uuid
  targetPrincipal : Uuid
  targetMembership : Uuid
  sourceMembership : Uuid

inductive IdentityCenterCall where
  | createPermissionSet (management : Uuid) (document : PolicyDocument) (duration : Int)
  | insertPermissionSet (organization : Uuid) (document : PolicyDocument) (duration : Int)
  | commitPermissionSet
  | updatePermissionSet (management id : Uuid) (document : PolicyDocument) (duration : Int)
  | updateSet (organization id : Uuid) (document : PolicyDocument) (duration : Int)
  | updatePolicies (organization id : Uuid) (document : PolicyDocument)
  | deletePermissionSet (management id : Uuid)
  | lockSet (organization id : Uuid)
  | setInUse (organization id : Uuid)
  | markSet (id : Uuid)
  | createGroup (management : Uuid)
  | insertGroup (organization : Uuid)
  | commitGroup
  | changeGroupMember (management group user : Uuid) (add : Bool)
  | lockMemberGroup (m : MemberChange) (add : Bool)
  | memberUser (m : MemberChange)
  | memberAccounts (m : MemberChange)
  | insertMember (m : MemberChange)
  | commitMember (m : MemberChange)
  | deleteMember (m : MemberChange)
  | deleteGroup (management group : Uuid)
  | lockGroup (organization group : Uuid)
  | groupInUse (organization group : Uuid)
  | deleteMembers (organization group : Uuid)
  | markGroup (organization group : Uuid)
  | commitDeletedGroup (organization group : Uuid)
  | createAssignment (management permissionSet account : Uuid) (subjectType : Option SubjectType)
      (subject : Uuid)
  | lockAssignedSet (management organization : Uuid) (managementNumber : String)
      (permissionSet account : Uuid) (subjectType : Option SubjectType) (subject : Uuid)
  | lockAccount (management organization : Uuid) (managementNumber : String)
      (permissionSet : Uuid) (document : Json) (account : Uuid)
      (subjectType : Option SubjectType) (subject : Uuid)
  | abort (error : StoreError)
  | lockAssignedGroup (a : NewAssignment)
  | groupUsers (a : NewAssignment)
  | assignmentUser (a : NewAssignment) (user : Uuid) (rest : List Uuid)
  | ensureAccountUser (account user : Uuid) (next : Ensuring)
  | ensureExists (account user : Uuid) (next : Ensuring)
  | ensureDetached (account user : Uuid) (next : Ensuring)
  | ensurePrincipal (account user : Uuid) (next : Ensuring)
  | ensureMembership (account user principal : Uuid) (next : Ensuring)
  | accountRole (a : NewAssignment)
  | insertRolePrincipal (a : NewAssignment)
  | insertAccountIamRole (a : NewAssignment) (role : Uuid)
  | insertRolePolicy (a : NewAssignment) (role : Uuid)
  | insertRoleBinding (a : NewAssignment) (role policy : Uuid)
  | insertAccountRole (a : NewAssignment) (role policy : Uuid)
  | insertAssignment (a : NewAssignment) (role : Uuid)
  | commitAssignment (a : NewAssignment)
  | revokeAssignment (management assignment : Uuid)
  | createSession (management assignment user : Uuid) (browser : Option Nat)
  | sessionUser (management organization : Uuid) (sourceNumber : String) (assignment user : Uuid)
      (browser : Option Nat)
  | sessionAssignment (management organization : Uuid) (sourceNumber : String)
      (assignment user : Uuid) (browser : Option Nat) (source : Uuid)
  | sessionGroup (n : SessionAssignment) (organization group : Uuid)
  | sessionTarget (n : SessionAssignment) (groupMembership : Option Uuid)
  | sessionSource (n : SessionAssignment) (groupMembership : Option Uuid)
      (targetPrincipal targetMembership : Uuid)
  | purgeSessions (n : SessionAssignment) (c : Captured)
  | countSessions (n : SessionAssignment) (c : Captured)
  | insertSession (n : SessionAssignment) (c : Captured)
  | commitSession (n : SessionAssignment) (id : Uuid)
  | removeMembership (organization user : Uuid)
  | addMembership (organization user principal : Uuid) (role : MembershipRole)

/-! ## 3. Calls -/

inductive Result where
  | ok
  | failed (error : StoreError)
  | refused (error : ApiError)
  /-- A role session was made; a browser switched to one. -/
  | assumed (session : Uuid)
  | switched (session : Uuid)
  /-- The switch failed, and whether the session made for it could be revoked. -/
  | switchFailed (session : Uuid) (revoked : Bool) (error : StoreError)

inductive Call where
  | role (c : RoleCall)
  | identityCenter (c : IdentityCenterCall)
  | commit
  | done (result : Result)

abbrev Statement := Outcome Key Write Call

def refuse (e : ApiError) : Statement := .read (.done (.refused e))

def abort (e : StoreError) : Statement := .rollback (.done (.failed e))

end HeteroCloud.Access
