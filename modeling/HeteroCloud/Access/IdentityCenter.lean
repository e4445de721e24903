/-
  File:      Access/IdentityCenter.lean
  Subject:   THE STATEMENTS of crates/heterocloud-store/src/identity_center.rs, and the removal and
             insertion of organization memberships.

  The names of permission sets and groups, and what is read only for the answer, are left out.
  `createSession` is `create_identity_center_session` with the switch of the browser that
  `start_identity_center_session` makes afterwards.
-/
import HeteroCloud.Access.Roles

namespace HeteroCloud.Access

open Base Iam Store Api

/-- `Uuid::simple`. -/
def simpleText (lib : ThirdParty) (id : Uuid) : String :=
  String.ofList ((lib.uuidText id).toList.filter (· != '-'))

section Statements
variable (lib : ThirdParty) (clock now : Int) (uuid : Nat → Nat) (d : Db)

/-! ## 1. Shared queries -/

/-- `management_organization`: the cloud organization and the number of its management account. -/
def managementOrganization (management : Uuid) (next : Uuid → String → IdentityCenterCall) :
    Statement :=
  match (d.cloudOrganizations.find? (·.managementAccountId == management)).bind fun c =>
    (d.organization c.managementAccountId).map fun o => (c.id, o.numberText) with
  | none => abort .notFound
  | some (organization, number) => .stmt [] [] (.identityCenter (next organization number))

/-- `require_directory_user`. -/
def requireDirectoryUser (management user : Uuid) (next : Uuid → IdentityCenterCall) : Statement :=
  match d.organizationMemberships.find? fun m => m.organizationId == management &&
    m.userId == user && d.enabledPrincipal m.organizationId m.principalId &&
    d.activeUser m.userId with
  | none => abort .notFound
  | some m => .stmt [(.membership management user, .share), (.principal m.principalId, .share),
      (.user user, .share)] [] (.identityCenter (next m.principalId))

variable (account user : Uuid)

def hasMembership : Bool :=
  d.organizationMemberships.any fun m => m.organizationId == account && m.userId == user

/-- An assignment in force. -/
def inForce (organization : Uuid) (a : IdentityCenterAssignmentRow) : Bool :=
  a.organizationId == organization && a.revokedAt == none

/-- An assignment in force for the group. -/
def assignsGroup (organization group : Uuid) (a : IdentityCenterAssignmentRow) : Bool :=
  inForce organization a && a.subjectType == .group && a.subjectId == group

/-- A group or permission set that is not deleted, locked for the rest of the transaction. -/
def lockLive (present : Bool) (key : Key) (next : IdentityCenterCall) : Statement :=
  if present then .stmt [(key, .exclusive)] [] (.identityCenter next) else abort .notFound

def liveSet (organization id : Uuid) (p : IdentityCenterPermissionSetRow) : Bool :=
  p.organizationId == organization && p.id == id && p.deletedAt == none

def liveGroup (organization id : Uuid) (g : IdentityCenterGroupRow) : Bool :=
  g.organizationId == organization && g.id == id && g.deletedAt == none

/-! ## 2. `ensure_account_user` -/

def Ensuring.resume : Ensuring → IdentityCenterCall
  | .accounts m [] => .insertMember m
  | .accounts m (account :: rest) => .ensureAccountUser account m.user (.accounts m rest)
  | .users a [] => .accountRole a
  | .users a (user :: rest) => .assignmentUser a user rest

def ensureAccountUser (next : Ensuring) : Statement :=
  lockLive (d.organizations.any (·.id == account)) (.organization account)
    (.ensureExists account user next)

def ensureExists (next : Ensuring) : Statement :=
  .stmt [] [] (.identityCenter (if hasMembership d account user then next.resume
    else .ensureDetached account user next))

def ensureDetached (next : Ensuring) : Statement :=
  if d.principals.any fun p => p.organizationId == account && p.userId == some user then
    abort (.requestRejected ("The account has a detached principal for this user; " ++
      "reconcile it before assigning access."))
  else .stmt [] [] (.identityCenter (.ensurePrincipal account user next))

/-- `INSERT INTO organization_memberships`; a user is a member once, with one principal. -/
def insertMembership (m : MembershipRow) (next : Call) : Statement :=
  if d.organizationMemberships.any fun q => q.organizationId == m.organizationId &&
      (q.userId == m.userId || q.principalId == m.principalId) then abort (.sql true)
  else .stmt [(.fresh m.identityCenterMembershipId, .exclusive),
      (.membership m.organizationId m.userId, .exclusive)] [.insertMembership m] next

/-! ## 3. Permission sets and groups -/

def updateSet (organization id : Uuid) (document : PolicyDocument) (duration : Int) : Statement :=
  if d.identityCenterPermissionSets.any (liveSet organization id) then
    .stmt [(.permissionSet id, .exclusive)] [.updatePermissionSet id document.toValue duration]
      (.identityCenter (.updatePolicies organization id document))
  else abort .notFound

/-- The policies of the roles made from the permission set. -/
def updatePolicies (organization id : Uuid) (document : PolicyDocument) : Statement :=
  let roles := d.identityCenterAccountRoles.filter fun r =>
    r.organizationId == organization && r.permissionSetId == id
  let policies := d.iamPolicies.filter fun p => roles.any fun r =>
    p.id == r.policyId && p.organizationId == r.accountId
  .stmt [] (policies.map fun p => .updatePolicy p.id document.toValue) .commit

def setInUse (organization id : Uuid) : Statement :=
  if d.identityCenterAssignments.any fun a => inForce organization a && a.permissionSetId == id then
    abort (.requestRejected "Remove all account assignments before deleting the permission set.")
  else .stmt [] [] (.identityCenter (.markSet id))

def groupInUse (organization group : Uuid) : Statement :=
  if d.identityCenterAssignments.any (assignsGroup organization group) then
    abort (.requestRejected "Remove all account assignments before deleting the group.")
  else .stmt [] [] (.identityCenter (.deleteMembers organization group))

/-- `DELETE FROM identity_center_group_members` of the selected rows. -/
def deleteRows (gone : List IdentityCenterGroupMemberRow) (next : Call) : Statement :=
  .stmt (gone.map fun m => (.groupMember m.id, .exclusive))
    (gone.map fun m => .deleteGroupMember m.id) next

def deleteMembers (organization group : Uuid) : Statement :=
  deleteRows (d.identityCenterGroupMembers.filter fun m =>
    m.organizationId == organization && m.groupId == group)
    (.identityCenter (.markGroup organization group))

/-! ## 4. `change_identity_center_group_member` -/

variable (m : MemberChange)

/-- The accounts the group is assigned to, each once. -/
def memberAccounts : Statement :=
  let assigned := d.identityCenterAssignments.filter (assignsGroup m.organization m.group)
  .stmt [] [] (.identityCenter
    (Ensuring.accounts m (orderBy id (assigned.map (·.accountId)).dedup)).resume)

def insertMember : Statement :=
  if d.identityCenterGroupMembers.any fun gm => gm.groupId == m.group && gm.userId == m.user then
    abort .alreadyExists
  else .stmt [(.fresh (uuid 0), .exclusive), (.groupMemberKey m.group m.user, .exclusive)]
    [.insertGroupMember ⟨uuid 0, m.organization, m.group, m.user⟩]
    (.identityCenter (.commitMember m))

def deleteMember : Statement :=
  let gone := d.identityCenterGroupMembers.filter fun gm =>
    gm.organizationId == m.organization && gm.groupId == m.group && gm.userId == m.user
  if gone.length ≠ 1 then abort .notFound else deleteRows gone .commit

/-! ## 5. `create_identity_center_assignment` -/

variable (management organization : Uuid) (managementNumber : String)

def lockAssignedSet (permissionSet account : Uuid) (subjectType : Option SubjectType) (subject :
    Uuid) : Statement :=
  match d.identityCenterPermissionSets.find? (liveSet organization permissionSet) with
  | none => abort .notFound
  | some p => .stmt [(.permissionSet permissionSet, .exclusive)] [] (.identityCenter
      (.lockAccount management organization managementNumber permissionSet p.document account
        subjectType subject))

def lockAccount (permissionSet : Uuid) (document : Json) (account : Uuid) (subjectType : Option
    SubjectType) (subject : Uuid) : Statement :=
  let a (type : SubjectType) : NewAssignment :=
    ⟨management, organization, managementNumber, permissionSet, document, account, type, subject⟩
  if d.cloudOrganizationAccounts.any fun c =>
      c.organizationId == organization && c.accountId == account then
    .stmt [(.cloudAccount account, .share)] [] (.identityCenter (match subjectType with
      | some .user => .assignmentUser (a .user) subject []
      | some .group => .lockAssignedGroup (a .group)
      | none => .abort (.requestRejected "Subject type must be user or group.")))
  else abort .notFound

variable (a : NewAssignment)

def groupUsers : Statement :=
  let members := d.identityCenterGroupMembers.filter fun m =>
    m.organizationId == a.organization && m.groupId == a.subject
  .stmt [] [] (.identityCenter
    (Ensuring.users a (orderBy id (members.map (·.userId)))).resume)

def accountRole : Statement :=
  .stmt [] [] (.identityCenter
    (match d.identityCenterAccountRoles.find? fun r => r.organizationId == a.organization &&
      r.permissionSetId == a.permissionSet && r.accountId == a.account with
      | some r => .insertAssignment a r.rolePrincipalId
      | none => .insertRolePrincipal a))

def NewAssignment.roleName : String :=
  "HCIdentityCenter_" ++ simpleText lib a.permissionSet

/-- The trust policy of the role: the management account may assume it. -/
def NewAssignment.trust : Json :=
  .object [("Statement", .object [("Action", .string "sts:AssumeRole"),
      ("Effect", .string "Allow"),
      ("Principal", .object [("AWS",
        .string ("arn:aws:iam::" ++ a.managementNumber ++ ":root"))])]),
    ("Version", .string "2012-10-17")]

def insertAccountRole (a : NewAssignment) (role policy : Uuid) : Statement :=
  if d.identityCenterAccountRoles.any fun r =>
      r.permissionSetId == a.permissionSet && r.accountId == a.account then abort (.sql true)
  else .stmt [(.accountRole a.permissionSet a.account, .exclusive)]
    [.insertAccountRole ⟨a.organization, a.permissionSet, a.account, role, policy⟩]
    (.identityCenter (.insertAssignment a role))

def NewAssignment.row (id role : Uuid) : IdentityCenterAssignmentRow :=
  { id, organizationId := a.organization, permissionSetId := a.permissionSet,
    accountId := a.account, rolePrincipalId := role, subjectType := a.subjectType,
    subjectId := a.subject }

/-- `INSERT ... ON CONFLICT DO UPDATE ... WHERE revoked_at IS NOT NULL`. -/
def insertAssignment (a : NewAssignment) (role : Uuid) : Statement :=
  match d.identityCenterAssignments.find? fun row => assignmentKey row == a.key with
  | none => .stmt [(.fresh (uuid 0), .exclusive), (.assignmentKey a.key, .exclusive)]
      [.insertAssignment (a.row (uuid 0) role)] (.identityCenter (.commitAssignment a))
  | some row =>
      if row.revokedAt = none then abort .alreadyExists
      else .stmt [(.assignment row.id, .exclusive)] [.regrantAssignment a.key]
        (.identityCenter (.commitAssignment a))

def revokeAssignment (management assignment : Uuid) : Statement :=
  if d.identityCenterAssignments.any fun a => a.id == assignment && a.revokedAt == none &&
      d.cloudOrganizations.any fun c =>
        c.id == a.organizationId && c.managementAccountId == management then
    .stmt [(.assignment assignment, .exclusive)] [.revokeAssignment assignment now] .commit
  else .read (.done (.failed .notFound))

/-! ## 6. `create_identity_center_session` -/

/-- The permission set of an assignment, if the assignment can be used: it is in force, its
permission set is not deleted and its role is enabled. -/
def usableSet (organization assignment : Uuid) (a : IdentityCenterAssignmentRow) :
    Option IdentityCenterPermissionSetRow :=
  if inForce organization a && a.id == assignment &&
      (d.iamRoles.any fun r => r.principalId == a.rolePrincipalId &&
        r.organizationId == a.accountId) &&
      (d.principals.any fun p => p.id == a.rolePrincipalId && p.enabled) &&
      d.organizations.any (·.id == a.accountId) then
    d.identityCenterPermissionSets.find? (liveSet a.organizationId a.permissionSetId)
  else none

def sessionAssignment (sourceNumber : String) (assignment user : Uuid) (browser : Option Nat)
    (source : Uuid) : Statement :=
  match (d.identityCenterAssignments.filterMap fun a =>
    (usableSet d organization assignment a).map fun p => (a, p)).head? with
  | none => abort .notFound
  | some (a, p) =>
      let n : SessionAssignment := ⟨management, sourceNumber, assignment, user, browser, source,
        a.accountId, a.rolePrincipalId, a.generation, p.sessionDurationSeconds⟩
      .stmt [(.assignment a.id, .exclusive), (.role a.rolePrincipalId, .exclusive)] []
        (.identityCenter (match a.subjectType with
          | .user => if a.subjectId = user then .sessionTarget n none else .abort .notFound
          | .group => .sessionGroup n organization a.subjectId))

variable (n : SessionAssignment)

def sessionGroup (organization group : Uuid) : Statement :=
  match d.identityCenterGroupMembers.find? fun gm => gm.organizationId == organization &&
    gm.groupId == group && gm.userId == n.user &&
    d.identityCenterGroups.any (liveGroup organization group) with
  | none => abort .notFound
  | some gm => .stmt [(.groupMember gm.id, .share), (.group group, .share)] []
      (.identityCenter (.sessionTarget n (some gm.id)))

variable (groupMembership : Option Uuid)

def sessionTarget : Statement :=
  match d.organizationMemberships.find? fun m => m.organizationId == n.accountId &&
    m.userId == n.user && d.enabledPrincipal m.organizationId m.principalId with
  | none => abort .notFound
  | some m => .stmt [(.membership n.accountId n.user, .share), (.principal m.principalId, .share)]
      [] (.identityCenter (.sessionSource n groupMembership m.principalId
        m.identityCenterMembershipId))

def sessionSource (targetPrincipal targetMembership : Uuid) : Statement :=
  match d.organizationMemberships.find? fun m => m.organizationId == n.management &&
    m.userId == n.user && m.principalId == n.source with
  | none => abort .notFound
  | some m => .stmt [(.membership n.management n.user, .share)] []
      (.identityCenter (.purgeSessions n
        ⟨groupMembership, targetPrincipal, targetMembership, m.identityCenterMembershipId⟩))

variable (c : Captured)

def SessionAssignment.row (id : Uuid) (tokenHash : Nat) : IamRoleSessionRow :=
  { id, organizationId := n.accountId, rolePrincipalId := n.rolePrincipalId,
    sourceOrganizationId := n.management, sourcePrincipalId := n.source,
    sourceArn := "arn:aws:iam::" ++ n.sourceNumber ++ ":user/" ++ lib.uuidText n.source,
    sessionName := "identity-center-" ++ simpleText lib n.user,
    sessionPolicy := none, tokenHash, expiresAt := clock + seconds n.sessionDurationSeconds,
    identityCenterAssignmentId := some n.assignment,
    identityCenterAssignmentGeneration := some n.generation,
    identityCenterUserId := some n.user,
    identityCenterTargetPrincipalId := some c.targetPrincipal,
    identityCenterSourceMembershipId := some c.sourceMembership,
    identityCenterTargetMembershipId := some c.targetMembership,
    identityCenterGroupMembershipId := c.groupMembership }

def insertIdentityCenterSession : Statement :=
  .stmt [(.fresh (uuid 0), .exclusive)]
    [.insertRoleSession (n.row lib clock c (uuid 0) (uuid 1))]
    (.identityCenter (.commitSession n (uuid 0)))

def SessionAssignment.next (id : Uuid) : Call :=
  match n.browser with
  | none => .done (.assumed id)
  | some tokenHash => .role (.switchBrowserRole ⟨tokenHash, none, id, n.accountId,
      n.rolePrincipalId⟩)

/-! ## 7. Memberships -/

/-- The role sessions that captured the membership of a row. -/
def captures (m : MembershipRow) (s : IamRoleSessionRow) : Bool :=
  s.identityCenterSourceMembershipId == some m.identityCenterMembershipId ||
    s.identityCenterTargetMembershipId == some m.identityCenterMembershipId

def removeMembership (organization user : Uuid) : Statement :=
  match d.organizationMemberships.find? fun m =>
    m.organizationId == organization && m.userId == user with
  | none => .read (.done (.failed .notFound))
  | some m => .stmt ((.membership organization user, .exclusive) ::
      (d.iamRoleSessions.filter (captures m)).map fun s => (.roleSession s.id, .exclusive))
      [.deleteMembership organization user] .commit

def addMembership (organization user principal : Uuid) (role : MembershipRole) : Statement :=
  if d.principals.any (·.id == principal) then
    insertMembership d ⟨organization, user, principal, role, uuid 0⟩ .commit
  else .read (.done (.failed (.sql false)))

/-! ## 8. The statement of a point -/

def identityCenterExec : IdentityCenterCall → Statement
  | .createPermissionSet management document duration =>
      managementOrganization d management fun o _ => .insertPermissionSet o document duration
  | .insertPermissionSet organization document duration =>
      .stmt [(.fresh (uuid 0), .exclusive)] [.insertPermissionSet
        { id := uuid 0, organizationId := organization, document := document.toValue,
          sessionDurationSeconds := duration }] (.identityCenter .commitPermissionSet)
  | .commitPermissionSet => .commit (.done .ok)
  | .updatePermissionSet management id document duration =>
      managementOrganization d management fun o _ => .updateSet o id document duration
  | .updateSet organization id document duration => updateSet d organization id document duration
  | .updatePolicies organization id document => updatePolicies d organization id document
  | .deletePermissionSet management id =>
      managementOrganization d management fun o _ => .lockSet o id
  | .lockSet organization id => lockLive
      (d.identityCenterPermissionSets.any (liveSet organization id)) (.permissionSet id)
      (.setInUse organization id)
  | .setInUse organization id => setInUse d organization id
  | .markSet id => .stmt [(.permissionSet id, .exclusive)] [.deletePermissionSet id now] .commit
  | .createGroup management => managementOrganization d management fun o _ => .insertGroup o
  | .insertGroup organization =>
      .stmt [(.fresh (uuid 0), .exclusive)]
        [.insertGroup { id := uuid 0, organizationId := organization }]
        (.identityCenter .commitGroup)
  | .commitGroup => .commit (.done .ok)
  | .changeGroupMember management group user add =>
      managementOrganization d management fun o _ => .lockMemberGroup ⟨management, o, group, user⟩ add
  | .lockMemberGroup m add => lockLive
      (d.identityCenterGroups.any (liveGroup m.organization m.group)) (.group m.group)
      (if add then .memberUser m else .deleteMember m)
  | .memberUser m => requireDirectoryUser d m.management m.user fun _ => .memberAccounts m
  | .memberAccounts m => memberAccounts d m
  | .insertMember m => insertMember uuid d m
  | .commitMember _ => .commit (.done .ok)
  | .deleteMember m => deleteMember d m
  | .deleteGroup management group =>
      managementOrganization d management fun o _ => .lockGroup o group
  | .lockGroup organization group => lockLive
      (d.identityCenterGroups.any (liveGroup organization group)) (.group group)
      (.groupInUse organization group)
  | .groupInUse organization group => groupInUse d organization group
  | .deleteMembers organization group => deleteMembers d organization group
  | .markGroup organization group => .stmt [(.group group, .exclusive)] [.deleteGroup group now]
      (.identityCenter (.commitDeletedGroup organization group))
  | .commitDeletedGroup _ _ => .commit (.done .ok)
  | .createAssignment management permissionSet account subjectType subject =>
      managementOrganization d management fun o number =>
        .lockAssignedSet management o number permissionSet account subjectType subject
  | .lockAssignedSet management organization number permissionSet account subjectType subject =>
      lockAssignedSet d management organization number permissionSet account subjectType subject
  | .lockAccount management organization number permissionSet document account subjectType subject =>
      lockAccount d management organization number permissionSet document account subjectType subject
  | .abort error => Access.abort error
  | .lockAssignedGroup a => lockLive
      (d.identityCenterGroups.any (liveGroup a.organization a.subject)) (.group a.subject)
      (.groupUsers a)
  | .groupUsers a => groupUsers d a
  | .assignmentUser a user rest => requireDirectoryUser d a.management user fun _ =>
      .ensureAccountUser a.account user (.users a rest)
  | .ensureAccountUser account user next => ensureAccountUser d account user next
  | .ensureExists account user next => ensureExists d account user next
  | .ensureDetached account user next => ensureDetached d account user next
  | .ensurePrincipal account user next => insertPrincipal d
      ⟨uuid 0, account, "IdentityCenter-" ++ simpleText lib user, some user, true, none⟩
      (.identityCenter (.ensureMembership account user (uuid 0) next))
  | .ensureMembership account user principal next => insertMembership d
      ⟨account, user, principal, .member, uuid 0⟩ (.identityCenter next.resume)
  | .accountRole a => accountRole d a
  | .insertRolePrincipal a => insertPrincipal d
      ⟨uuid 0, a.account, a.roleName lib, none, true, none⟩
      (.identityCenter (.insertAccountIamRole a (uuid 0)))
  | .insertAccountIamRole a role => insertIamRole d
      ⟨role, a.account, a.roleName lib, a.trust, 43200⟩ (.identityCenter (.insertRolePolicy a role))
  | .insertRolePolicy a role => .stmt [(.fresh (uuid 0), .exclusive)]
      [.insertPolicy ⟨uuid 0, a.account, a.document⟩]
      (.identityCenter (.insertRoleBinding a role (uuid 0)))
  | .insertRoleBinding a role policy => .stmt [] [.insertBinding ⟨a.account, role, policy⟩]
      (.identityCenter (.insertAccountRole a role policy))
  | .insertAccountRole a role policy => insertAccountRole d a role policy
  | .insertAssignment a role => insertAssignment uuid d a role
  | .commitAssignment _ => .commit (.done .ok)
  | .revokeAssignment management assignment => revokeAssignment now d management assignment
  | .createSession management assignment user browser =>
      managementOrganization d management fun o number =>
        .sessionUser management o number assignment user browser
  | .sessionUser management organization number assignment user browser =>
      requireDirectoryUser d management user fun source =>
        .sessionAssignment management organization number assignment user browser source
  | .sessionAssignment management organization number assignment user browser source =>
      sessionAssignment d management organization number assignment user browser source
  | .sessionGroup n organization group => sessionGroup d n organization group
  | .sessionTarget n groupMembership => sessionTarget d n groupMembership
  | .sessionSource n groupMembership targetPrincipal targetMembership =>
      sessionSource d n groupMembership targetPrincipal targetMembership
  | .purgeSessions n c => purge now d n.rolePrincipalId (.identityCenter (.countSessions n c))
  | .countSessions n c =>
      if tooManySessions now d n.rolePrincipalId then
        Access.abort (.requestRejected "Too many active role sessions.")
      else .stmt [] [] (.identityCenter (.insertSession n c))
  | .insertSession n c => insertIdentityCenterSession lib clock uuid n c
  | .commitSession n id => .commit (n.next id)
  | .removeMembership organization user => removeMembership d organization user
  | .addMembership organization user principal role =>
      addMembership uuid d organization user principal role

end Statements

def IdentityCenterCall.isStart : IdentityCenterCall → Bool
  | .createPermissionSet _ _ _ | .updatePermissionSet _ _ _ _ | .deletePermissionSet _ _
  | .createGroup _ | .changeGroupMember _ _ _ _ | .deleteGroup _ _ | .createAssignment _ _ _ _ _
  | .revokeAssignment _ _ | .createSession _ _ _ _ | .removeMembership _ _
  | .addMembership _ _ _ _ => true
  | _ => false

/-! ## 9. Calls of both kinds, interleaved freely -/

variable (lib : ThirdParty)

def exec (clock now : Int) (uuid : Nat → Nat) (d : Db) :
    Call → Option Statement
  | .role c => some (roleExec lib clock now uuid d c)
  | .identityCenter c => some (identityCenterExec lib clock now uuid d c)
  | .commit => some (.commit (.done .ok))
  | .done _ => none

/-- Any statement may fail. -/
def fail : Call → Option Call
  | .role c => some (roleFail c)
  | .identityCenter _ | .commit => some (.done (.failed (.sql false)))
  | .done _ => none

def Call.isStart : Call → Bool
  | .role c => c.isStart
  | .identityCenter c => c.isStart
  | _ => false

/-- The calls that take memberships away: the deletion of a principal takes its memberships. -/
def Call.removesMembership : Call → Bool
  | .role (.deleteIamRole _ _) | .identityCenter (.removeMembership _ _) => true
  | _ => false

/-- **The program**; `removal` says whether memberships are ever removed. -/
def program (removal : Bool) : Program Db Key Write Call where
  apply := Write.apply
  exec := exec lib
  fail := fail
  start c := c.isStart = true ∧ (c.removesMembership = true → removal = true)
  width := 2

abbrev View := World Db Key Write Call

end HeteroCloud.Access
