/-
  File:      Access/Roles.lean
  Subject:   THE STATEMENTS of `assume_iam_role` (crates/heterocloud-api/src/routes.rs), of the
             role and role session functions of crates/heterocloud-store/src/iam_roles.rs, and of
             `set_service_account_enabled` (workload_identity.rs).

  `clock` is `Utc::now()`, `now` the time of the transaction. The tables of the audit are left
  out, and so are the reads that only return the row just written. A row that is updated or
  deleted is locked; a statement that finds no row locks none.
-/
import HeteroCloud.Access.Calls

namespace HeteroCloud.Access

open Base Iam Store Api

section Statements
variable (lib : ThirdParty) (clock now : Int) (uuid : Nat → Nat) (d : Db)

/-! ## 1. `assume_iam_role` up to the trust policy -/

variable (actor : AuthenticatedActor) (source : Uuid) (input : AssumeIamRole)

def assumeIamRole : Statement :=
  if isIdentityCenterSession actor then refuse .forbidden
  else if !d.cloudSecurityActivation.rolesEnabled then refuse .serviceControlUnavailable
  else .read (.role (.browserRoles actor source input))

def browserRoles : Statement :=
  if input.switchConsole && !d.cloudSecurityActivation.browserRolesEnabled then
    refuse .serviceControlUnavailable
  else match checkRequest lib actor source input with
    | .error e => refuse e
    | .ok q => .read (.role (.policyConditions q))

variable (q : Request)

def policyConditions : Statement :=
  if (q.sessionPolicy.any fun p => p.statements.any fun s => !s.conditions.isEmpty) &&
      !d.cloudSecurityActivation.iamConditionsEnabled then
    refuse (.badRequest "IAM policy conditions are not enabled yet.")
  else .read (.role (.authorize q))

def authorize : Statement :=
  match (authorizeActor lib d q.actor q.source "sts:AssumeRole" q.roleArn clock).1 with
  | .error e => refuse e
  | .ok context => .read (.role (.callerArn q context.principalId))

def callerArn (principalId : Uuid) : Statement :=
  match d.iamPrincipalArn lib q.source principalId with
  | none => refuse .forbidden
  | some (number, arn) => .read (.role (.findRole q ⟨principalId, number, arn⟩))

variable (caller : Caller)

def findRole : Statement :=
  match d.findIamRole q.targetNumber q.roleName with
  | none => refuse .notFound
  | some role => .read (.role (.roleTrust q caller role))

/-- The trust policy as it was read permits the caller. -/
def trusts (role : IamRole) (caller : Caller) : Except ApiError Bool := do
  let trust ← validateRoleTrust lib role.trustPolicy
  (trust.permits caller.accountNumber caller.arn).mapError fun _ => .internal

def roleTrust (role : IamRole) : Statement :=
  if d.isIdentityCenterRole role.organizationId role.principalId then refuse .forbidden
  else match trusts lib role caller with
    | .error e => refuse e
    | .ok false => refuse .forbidden
    | .ok true => .read (.role (.lockRole
        ⟨q, caller, role, uuid 0, clock + seconds q.durationSeconds⟩))

/-! ## 2. `create_iam_role_session` -/

variable (g : Grant)

def lockRole : Statement :=
  match d.iamRoles.find? fun r => r.organizationId == g.role.organizationId &&
    r.principalId == g.role.principalId && d.enabledPrincipal r.organizationId r.principalId with
  | none => .rollback (.done (.refused .notFound))
  | some r =>
      if r.trustPolicy ≠ g.role.trustPolicy then .rollback (.done (.refused .conflict))
      else if r.maxSessionSeconds < g.request.durationSeconds then
        .rollback (.done (.refused (.badRequest "Session duration exceeds the role maximum.")))
      else .stmt [(.role r.principalId, .exclusive)] [] (.role (.purgeSessions g))

/-- No browser session has this role session as its active one. -/
def unreferenced (id : Uuid) : Bool := d.sessions.all (·.activeRoleSessionId != some id)

/-- Expired or revoked for more than seven days, and not referred to. -/
def purgeable (s : IamRoleSessionRow) : Bool :=
  (decide (s.expiresAt < now - sevenDays) || s.revokedAt.any (decide <| · < now - sevenDays)) &&
    unreferenced d s.id

def deleteLocks (gone : List IamRoleSessionRow) : Locks :=
  gone.flatMap fun s => [(.roleSession s.id, .exclusive), (.roleSessionKey s.id, .exclusive)]

variable (rolePrincipalId : Uuid)

/-- `DELETE FROM iam_role_sessions` of the old sessions of a role. -/
def purge (next : Call) : Statement :=
  let gone := d.iamRoleSessions.filter fun s =>
    s.rolePrincipalId == rolePrincipalId && purgeable now d s
  .stmt (deleteLocks gone) (gone.map fun s => .deleteRoleSession s.id) next

/-- At most 1000 sessions of a role are active. -/
def tooManySessions : Bool :=
  decide (1000 ≤ (d.iamRoleSessions.filter fun s => s.rolePrincipalId == rolePrincipalId &&
    s.revokedAt == none && decide (now < s.expiresAt)).length)

def countSessions : Statement :=
  if tooManySessions now d g.role.principalId then
    .rollback (.done (.refused (.badRequest "Too many active role sessions.")))
  else .stmt [] [] (.role (.insertSession g))

def insertSession : Statement :=
  .stmt [(.fresh (uuid 0), .exclusive)] [.insertRoleSession (g.row (uuid 0))]
    (.role (.commitSession g (uuid 0)))

/-- After the session is made: the answer, or the switch of the browser. -/
def Grant.next (id : Uuid) : Call :=
  match g.request.switch with
  | none => .done (.assumed id)
  | some b => .role (.switchBrowserRole
      ⟨b.browser.tokenHash, b.previous, id, g.role.organizationId, g.role.principalId⟩)

/-! ## 3. Browser sessions -/

/-- The role session can be switched to, and from. -/
def usableRoleSession (id : Uuid) : Bool :=
  d.iamRoleSessions.any fun s => s.id == id && d.liveRoleSession now s

variable (s : Switch)

/-- The `WHERE` of the compare-and-swap. -/
def switchable (b : SessionRow) : Bool :=
  b.tokenHash == s.tokenHash && decide (now < b.expiresAt) &&
    b.activeRoleSessionId == s.expected &&
    (s.expected.all fun previous => usableRoleSession now d previous) &&
    usableRoleSession now d s.new

def Switch.next : Call :=
  match s.expected with
  | none => .role (.switchCommit s)
  | some previous => .role (.switchRevoke s previous)

def switchBrowserRole : Statement :=
  if d.sessions.any (switchable now d s) then
    if d.sessions.any fun b => b.tokenHash != s.tokenHash &&
        b.activeRoleSessionId == some s.new then
      .rollback (.role (.revokeNew s (.sql true)))
    else .stmt [(.browser s.tokenHash, .exclusive), (.activeRole s.new, .exclusive),
        (.roleSessionKey s.new, .share)] [.setActiveRole s.tokenHash (some s.new)] s.next
  else .rollback (.role (.revokeNew s .conflict))

def revokeLocks (id : Uuid) : Locks :=
  if d.iamRoleSessions.any fun s => s.id == id && s.revokedAt == none then
    [(.roleSession id, .exclusive)]
  else []

/-- `UPDATE iam_role_sessions SET revoked_at=now() WHERE id=$1 AND revoked_at IS NULL`. -/
def revokeById (id : Uuid) (next : Call) : Statement :=
  .stmt (revokeLocks d id) [.revokeRoleSession id now] next

/-- The row `revoke_iam_role_session` updates. -/
def revocable (account role session : Uuid) : Bool :=
  d.iamRoleSessions.any fun s => s.organizationId == account && s.rolePrincipalId == role &&
    s.id == session && s.revokedAt == none

def revokeNew (error : StoreError) : Statement :=
  if revocable d s.organizationId s.rolePrincipalId s.new then
    revokeById now d s.new (.role (.revokeNewCommit s error))
  else .read (.done (.switchFailed s.new false error))

variable (tokenHash : Nat)

def clearBrowserRole : Statement :=
  match d.sessions.find? fun b => b.tokenHash == tokenHash && decide (now < b.expiresAt) with
  | none => abort .notFound
  | some b => .stmt [(.browser tokenHash, .exclusive)] []
      (.role (.clearUpdate tokenHash b.activeRoleSessionId))

def clearUpdate (current : Option Uuid) : Statement :=
  .stmt [(.browser tokenHash, .exclusive)] [.setActiveRole tokenHash none]
    (match current with
      | none => .role (.clearCommit tokenHash none)
      | some id => .role (.clearRevoke tokenHash id))

/-! ## 4. Roles -/

/-- `INSERT INTO principals`; the names and the users of an account are unique. -/
def insertPrincipal (p : PrincipalRow) (next : Call) : Statement :=
  if d.principals.any fun q => q.organizationId == p.organizationId &&
      (q.name == p.name || (p.userId != none && q.userId == p.userId)) then
    abort (.sql true)
  else .stmt [(.fresh p.id, .exclusive), (.principalName p.organizationId p.name, .exclusive)]
    [.insertPrincipal p] next

/-- `INSERT INTO iam_roles`; the names of an account are unique. -/
def insertIamRole (r : IamRoleRow) (next : Call) : Statement :=
  if d.iamRoles.any fun q => q.organizationId == r.organizationId && q.name == r.name then
    abort (.sql true)
  else .stmt [] [.insertRole r] next

def createIamRole (account : Uuid) (name : String) (trust : Json) (maxSessionSeconds : Int)
    (quotaUser : Option Uuid) : Statement :=
  if quotaUser.all fun u => d.organizationMemberships.any fun m =>
      m.organizationId == account && m.userId == u then
    insertPrincipal d ⟨uuid 0, account, name, none, true, none⟩
      (.role (.insertRole account name trust maxSessionSeconds (uuid 0)))
  else abort .notFound

def updateIamRoleTrust (account principal : Uuid) (trust : Json) : Statement :=
  if (d.iamRoles.any fun r => r.organizationId == account && r.principalId == principal) &&
      !d.isIdentityCenterRole account principal then
    .stmt [(.role principal, .exclusive)] [.updateTrust account principal trust] .commit
  else .read (.done (.failed .notFound))

variable (account role : Uuid)

def deleteIamRole : Statement :=
  if d.iamRoles.any fun r => r.organizationId == account && r.principalId == role &&
      d.principals.any fun p => p.id == role && p.organizationId == account then
    .stmt [(.role role, .exclusive), (.principal role, .exclusive)] []
      (.role (.deleteRoleManaged account role))
  else abort .notFound

def deleteRoleManaged : Statement :=
  if d.isIdentityCenterRole account role then
    abort (.requestRejected "Identity Center roles are managed by their permission sets.")
  else .stmt [] [] (.role (.deleteRoleInUse account role))

/-- The sessions of a role. -/
def roleSessions : List IamRoleSessionRow :=
  d.iamRoleSessions.filter fun s => s.organizationId == account && s.rolePrincipalId == role

def roleInUse : Bool :=
  (d.iamBindings.any fun b => b.organizationId == account && b.principalId == role) ||
    (roleSessions d account role).any fun s =>
      (s.revokedAt == none && decide (now < s.expiresAt)) || !unreferenced d s.id

def deleteRoleInUse : Statement :=
  if roleInUse now d account role then
    abort (.requestRejected
      "Detach role policies and revoke active sessions before deleting the role.")
  else .stmt [] [] (.role (.deleteRolePrincipal account role))

/-- The sessions go with the role; one that a browser refers to keeps it (`ON DELETE RESTRICT`). -/
def deleteRolePrincipal : Statement :=
  if (roleSessions d account role).any fun s => !unreferenced d s.id then abort (.sql false)
  else .stmt ([(.role role, .exclusive), (.principal role, .exclusive)] ++
    deleteLocks (roleSessions d account role)) [.deletePrincipal account role] .commit

def setServiceAccountEnabled (organization role : Uuid) (enabled : Bool) : Statement :=
  if d.principals.any fun p => p.id == role && p.organizationId == organization &&
      p.userId == none then
    .stmt [(.principal role, .exclusive)] [.setEnabled organization role enabled]
      (if enabled then .commit else .role (.deleteTokens organization role))
  else abort .notFound

def revokeIamRoleSession (account role session : Uuid) : Statement :=
  if revocable d account role session then revokeById now d session .commit
  else .read (.done (.failed .notFound))

/-! ## 5. The statement of a point -/

def roleExec : RoleCall → Statement
  | .assumeIamRole actor source input => assumeIamRole d actor source input
  | .browserRoles actor source input => browserRoles lib d actor source input
  | .policyConditions q => policyConditions d q
  | .authorize q => authorize lib clock d q
  | .callerArn q principalId => callerArn lib d q principalId
  | .findRole q caller => findRole d q caller
  | .roleTrust q caller role => roleTrust lib clock uuid d q caller role
  | .lockRole g => lockRole d g
  | .purgeSessions g => purge now d g.role.principalId (.role (.countSessions g))
  | .countSessions g => countSessions now d g
  | .insertSession g => insertSession uuid g
  | .commitSession g id => .commit (g.next id)
  | .switchBrowserRole s => switchBrowserRole now d s
  | .switchRevoke s previous => revokeById now d previous (.role (.switchCommit s))
  | .switchCommit s => .commit (.done (.switched s.new))
  | .revokeNew s error => revokeNew now d s error
  | .revokeNewCommit s error => .commit (.done (.switchFailed s.new true error))
  | .clearBrowserRole tokenHash => clearBrowserRole now d tokenHash
  | .clearUpdate tokenHash current => clearUpdate tokenHash current
  | .clearRevoke tokenHash current =>
      revokeById now d current (.role (.clearCommit tokenHash (some current)))
  | .clearCommit _ _ => .commit (.done .ok)
  | .createIamRole account name trust maxSessionSeconds quotaUser =>
      createIamRole uuid d account name trust maxSessionSeconds quotaUser
  | .insertRole account name trust maxSessionSeconds principal =>
      insertIamRole d ⟨principal, account, name, trust, maxSessionSeconds⟩ (.role .commitRole)
  | .commitRole => .commit (.done .ok)
  | .updateIamRoleTrust account principal trust => updateIamRoleTrust d account principal trust
  | .deleteIamRole account role => deleteIamRole d account role
  | .deleteRoleManaged account role => deleteRoleManaged d account role
  | .deleteRoleInUse account role => deleteRoleInUse now d account role
  | .deleteRolePrincipal account role => deleteRolePrincipal d account role
  | .setServiceAccountEnabled organization role enabled =>
      setServiceAccountEnabled d organization role enabled
  | .deleteTokens organization role =>
      .stmt [] [.deleteWorkloadTokens organization role] .commit
  | .revokeIamRoleSession account role session => revokeIamRoleSession now d account role session

end Statements

/-- Where a point continues when its statement fails. A switch that fails is followed by the
revocation of the session made for it. -/
def roleFail : RoleCall → Call
  | .switchBrowserRole s | .switchRevoke s _ | .switchCommit s => .role (.revokeNew s (.sql false))
  | .revokeNew s error | .revokeNewCommit s error => .done (.switchFailed s.new false error)
  | _ => .done (.failed (.sql false))

/-- What a client can call. A switch follows the making of a session. -/
def RoleCall.isStart : RoleCall → Bool
  | .assumeIamRole _ _ _ | .clearBrowserRole _ | .createIamRole _ _ _ _ _
  | .updateIamRoleTrust _ _ _ | .deleteIamRole _ _ | .setServiceAccountEnabled _ _ _
  | .revokeIamRoleSession _ _ _ => true
  | _ => false

end HeteroCloud.Access
