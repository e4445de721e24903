/-
  File:      Store/Schema.lean
  Subject:   THE DATABASE (migrations/): the rows of the tables the store reads, and the keys and
             references PostgreSQL keeps.

  A table is the list of its rows, in no particular order. Columns no modelled statement reads
  (names, timestamps of creation) are left out. `Database` is a state that satisfies the schema.
-/
import HeteroCloud.Base.Table
import HeteroCloud.Iam.Evaluation

namespace HeteroCloud.Store

open Base Iam

/-! ## 1. Rows -/

inductive UserStatus where
  | active
  | suspended
  deriving DecidableEq, Repr

structure UserRow where
  id : Uuid
  displayName : String
  status : UserStatus
  deriving DecidableEq, Repr

structure OrganizationRow where
  id : Uuid
  accountNumber : Nat
  deriving DecidableEq, Repr

/-- `principals`; a user's principal has `userId`, a service account's has none. -/
structure PrincipalRow where
  id : Uuid
  organizationId : Uuid
  name : String
  userId : Option Uuid
  enabled : Bool
  permissionsBoundaryPolicyId : Option Uuid
  deriving DecidableEq, Repr

inductive MembershipRole where
  | owner
  | admin
  | member
  deriving DecidableEq, Repr

/-- `service_instances.state`. -/
inductive ServiceInstanceState where
  | provisioning
  | ready
  | updating
  | deleting
  | error
  deriving DecidableEq, Repr

structure MembershipRow where
  organizationId : Uuid
  userId : Uuid
  principalId : Uuid
  role : MembershipRole
  identityCenterMembershipId : Uuid
  deriving DecidableEq, Repr

structure IamPolicyRow where
  id : Uuid
  organizationId : Uuid
  document : Json
  deriving DecidableEq, Repr

structure IamBindingRow where
  organizationId : Uuid
  principalId : Uuid
  policyId : Uuid
  deriving DecidableEq, Repr

structure IamGroupMemberRow where
  organizationId : Uuid
  groupId : Uuid
  principalId : Uuid
  deriving DecidableEq, Repr

structure IamGroupPolicyAttachmentRow where
  organizationId : Uuid
  groupId : Uuid
  policyId : Uuid
  deriving DecidableEq, Repr

structure CloudOrganizationRow where
  id : Uuid
  managementAccountId : Uuid
  deriving DecidableEq, Repr

structure CloudOrganizationalUnitRow where
  id : Uuid
  organizationId : Uuid
  parentId : Option Uuid
  deriving DecidableEq, Repr

structure CloudOrganizationAccountRow where
  accountId : Uuid
  organizationId : Uuid
  parentId : Uuid
  deriving DecidableEq, Repr

structure ServiceControlPolicyRow where
  id : Uuid
  organizationId : Uuid
  document : Json
  isManaged : Bool
  deriving DecidableEq, Repr

/-- `cloud_scp_unit_attachments` and `cloud_scp_account_attachments`: the target is a unit, an
account. -/
structure ScpAttachmentRow where
  organizationId : Uuid
  targetId : Uuid
  policyId : Uuid
  deriving DecidableEq, Repr

/-- The one row of `cloud_security_activation`. -/
structure SecurityActivation where
  scpEnabled : Bool := false
  rolesEnabled : Bool := false
  browserRolesEnabled : Bool := false
  iamConditionsEnabled : Bool := false
  identityCenterEnabled : Bool := false
  deriving DecidableEq, Repr

structure IamRoleRow where
  principalId : Uuid
  organizationId : Uuid
  name : String
  trustPolicy : Json
  maxSessionSeconds : Int
  deriving DecidableEq, Repr

/-- `iam_role_sessions`; the Identity Center columns are null for an assumed role. -/
structure IamRoleSessionRow where
  id : Uuid
  organizationId : Uuid
  rolePrincipalId : Uuid
  sourceOrganizationId : Uuid
  sourcePrincipalId : Uuid
  sourceArn : String
  sessionName : String
  sessionPolicy : Option Json
  tokenHash : Nat
  expiresAt : Int
  revokedAt : Option Int := none
  identityCenterAssignmentId : Option Uuid := none
  identityCenterAssignmentGeneration : Option Nat := none
  identityCenterUserId : Option Uuid := none
  identityCenterTargetPrincipalId : Option Uuid := none
  identityCenterSourceMembershipId : Option Uuid := none
  identityCenterTargetMembershipId : Option Uuid := none
  identityCenterGroupMembershipId : Option Uuid := none
  deriving DecidableEq, Repr

/-- `sessions`: a browser session, with the role it has switched to. -/
structure SessionRow where
  userId : Uuid
  tokenHash : Nat
  expiresAt : Int
  activeRoleSessionId : Option Uuid
  deriving DecidableEq, Repr

structure IdentityCenterPermissionSetRow where
  id : Uuid
  organizationId : Uuid
  document : Json
  sessionDurationSeconds : Int
  deletedAt : Option Int := none
  deriving DecidableEq, Repr

structure IdentityCenterGroupRow where
  id : Uuid
  organizationId : Uuid
  deletedAt : Option Int := none
  deriving DecidableEq, Repr

structure IdentityCenterGroupMemberRow where
  id : Uuid
  organizationId : Uuid
  groupId : Uuid
  userId : Uuid
  deriving DecidableEq, Repr

structure IdentityCenterAccountRoleRow where
  organizationId : Uuid
  permissionSetId : Uuid
  accountId : Uuid
  rolePrincipalId : Uuid
  policyId : Uuid
  deriving DecidableEq, Repr

inductive SubjectType where
  | user
  | group
  deriving DecidableEq, Repr

structure IdentityCenterAssignmentRow where
  id : Uuid
  organizationId : Uuid
  permissionSetId : Uuid
  accountId : Uuid
  rolePrincipalId : Uuid
  subjectType : SubjectType
  subjectId : Uuid
  generation : Nat := 1
  revokedAt : Option Int := none
  deriving DecidableEq, Repr

structure WorkloadAccessTokenRow where
  id : Uuid
  organizationId : Uuid
  serviceInstanceId : Uuid
  principalId : Uuid
  podUid : Uuid
  tokenHash : Nat
  expiresAt : Int
  deriving DecidableEq, Repr

/-! ## 2. The tables -/

structure Db where
  users : List UserRow := []
  organizations : List OrganizationRow := []
  principals : List PrincipalRow := []
  organizationMemberships : List MembershipRow := []
  iamPolicies : List IamPolicyRow := []
  iamBindings : List IamBindingRow := []
  iamGroupMembers : List IamGroupMemberRow := []
  iamGroupPolicyAttachments : List IamGroupPolicyAttachmentRow := []
  cloudOrganizations : List CloudOrganizationRow := []
  cloudOrganizationalUnits : List CloudOrganizationalUnitRow := []
  cloudOrganizationAccounts : List CloudOrganizationAccountRow := []
  cloudServiceControlPolicies : List ServiceControlPolicyRow := []
  cloudScpUnitAttachments : List ScpAttachmentRow := []
  cloudScpAccountAttachments : List ScpAttachmentRow := []
  cloudSecurityActivation : SecurityActivation := {}
  iamRoles : List IamRoleRow := []
  iamRoleSessions : List IamRoleSessionRow := []
  sessions : List SessionRow := []
  identityCenterPermissionSets : List IdentityCenterPermissionSetRow := []
  identityCenterGroups : List IdentityCenterGroupRow := []
  identityCenterGroupMembers : List IdentityCenterGroupMemberRow := []
  identityCenterAccountRoles : List IdentityCenterAccountRoleRow := []
  identityCenterAssignments : List IdentityCenterAssignmentRow := []
  workloadAccessTokens : List WorkloadAccessTokenRow := []

/-! ## 3. Keys and references -/

/-- The constraints of the schema that the authorization queries rest on. -/
structure Db.Keys (db : Db) : Prop where
  users_pkey : UniqueKey (·.id) db.users
  organizations_pkey : UniqueKey (·.id) db.organizations
  principals_pkey : UniqueKey (·.id) db.principals
  /-- `UNIQUE (organization_id, user_id)`; nulls are different from each other. -/
  principals_user : ∀ p ∈ db.principals, ∀ q ∈ db.principals, p.organizationId = q.organizationId →
    p.userId = q.userId → p.userId ≠ none → p = q
  memberships_pkey : UniqueKey (fun m => (m.organizationId, m.userId)) db.organizationMemberships
  policies_pkey : UniqueKey (·.id) db.iamPolicies
  cloudOrganizations_pkey : UniqueKey (·.id) db.cloudOrganizations
  cloudOrganizations_management : ∀ o ∈ db.cloudOrganizations,
    ∃ m ∈ db.organizations, m.id = o.managementAccountId
  units_pkey : UniqueKey (·.id) db.cloudOrganizationalUnits
  units_root : ∀ u ∈ db.cloudOrganizationalUnits, ∀ v ∈ db.cloudOrganizationalUnits,
    u.parentId = none → v.parentId = none → u.organizationId = v.organizationId → u = v
  accounts_pkey : UniqueKey (·.accountId) db.cloudOrganizationAccounts
  accounts_account : ∀ a ∈ db.cloudOrganizationAccounts, ∃ o ∈ db.organizations, o.id = a.accountId
  scps_pkey : UniqueKey (·.id) db.cloudServiceControlPolicies
  unitAttachments_pkey : UniqueKey (fun t => (t.targetId, t.policyId)) db.cloudScpUnitAttachments
  unitAttachments_unit : ∀ t ∈ db.cloudScpUnitAttachments, ∃ u ∈ db.cloudOrganizationalUnits,
    u.organizationId = t.organizationId ∧ u.id = t.targetId
  unitAttachments_policy : ∀ t ∈ db.cloudScpUnitAttachments,
    ∃ p ∈ db.cloudServiceControlPolicies, p.organizationId = t.organizationId ∧ p.id = t.policyId
  accountAttachments_pkey :
    UniqueKey (fun t => (t.targetId, t.policyId)) db.cloudScpAccountAttachments
  accountAttachments_account : ∀ t ∈ db.cloudScpAccountAttachments,
    ∃ a ∈ db.cloudOrganizationAccounts, a.organizationId = t.organizationId ∧
      a.accountId = t.targetId
  accountAttachments_policy : ∀ t ∈ db.cloudScpAccountAttachments,
    ∃ p ∈ db.cloudServiceControlPolicies, p.organizationId = t.organizationId ∧ p.id = t.policyId

/-- **A state of the database that satisfies its schema.** -/
structure Database extends Db where
  keys : toDb.Keys

/-! ## 4. Errors -/

/-- `StoreError`. A failure of the database is `sql`; whether it is a violated unique key is all
that is read of it. -/
inductive StoreError where
  | alreadyExists
  | conflict
  | notFound
  | requestRejected (message : String)
  | invariant (message : String)
  | json
  | sql (uniqueViolation : Bool)
  deriving DecidableEq, Repr

/-- `serde_json::from_value` of every document, in order. -/
def readDocuments (documents : List Json) : Except StoreError (List PolicyDocument) :=
  documents.mapM fun document =>
    match PolicyDocument.fromValue document with
    | some d => .ok d
    | none => .error .json

end HeteroCloud.Store
