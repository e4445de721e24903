/-
  File:      Onboarding/Program.lean
  Subject:   THE OPERATIONS ON INVITATIONS AND CLI DEVICE AUTHORIZATIONS as program points and their
             statements (crates/heterocloud-store/src/lib.rs).

  A point stands before one statement and holds the values the function has there. `now` is the
  time the transaction began (SQL's `now()`), `clock` the time of the statement (`Utc::now()`).
  Memberships are also changed by others: `addMembership`, `setMembershipRole` and
  `removeMembership` make any such change in a transaction of its own.
-/
import HeteroCloud.Onboarding.Schema

namespace HeteroCloud.Onboarding

open Base Iam
open Store (UserStatus MembershipRole StoreError PrincipalRow MembershipRow seconds
  sevenDays)

/-! ## 1. Arguments and results -/

structure RegisterWithInvitation where
  codeHash : Nat
  email : String
  displayName : String
  passwordHash : String

/-- An invitation that a call has locked: its id and organization. -/
structure Invited where
  invitation : Uuid
  organization : Uuid

/-- The arguments of `create_cli_device_authorization`. -/
structure NewDevice where
  deviceCodeHash : Nat
  userCodeHash : Nat
  organization : Uuid
  intervalSeconds : Int
  expiresAt : Int

def NewDevice.row (n : NewDevice) (id : Uuid) : CliDeviceAuthorizationRow :=
  { id, deviceCodeHash := n.deviceCodeHash, userCodeHash := n.userCodeHash,
    organizationId := n.organization, intervalSeconds := n.intervalSeconds,
    expiresAt := n.expiresAt }

/-- The arguments of `create_invitation`. -/
structure NewInvitation where
  organization : Uuid
  createdBy : Uuid
  codeHash : Nat
  expiresAt : Int

def NewInvitation.row (n : NewInvitation) (id : Uuid) : InvitationRow :=
  { id, codeHash := n.codeHash, createdBy := n.createdBy, organizationId := some n.organization,
    maxUses := 1, expiresAt := n.expiresAt }

/-- The access token an exchange would issue. -/
structure NewToken where
  tokenPrefix : String
  tokenHash : Nat
  expiresAt : Int

def NewToken.row (n : NewToken) (id user organization : Uuid) : CliAccessTokenRow :=
  { id, userId := user, organizationId := organization, tokenPrefix := n.tokenPrefix,
    tokenHash := n.tokenHash, expiresAt := n.expiresAt }

structure Membership where
  organizationId : Uuid
  organizationSlug : String
  organizationName : String
  principalId : Uuid
  role : MembershipRole
  deriving DecidableEq, Repr

structure SessionUser where
  user : UserRow
  memberships : List Membership
  deriving DecidableEq, Repr

inductive CliDeviceApprovalOutcome where
  | approved
  | notFound
  | expired
  | invalidState
  | forbidden
  deriving DecidableEq, Repr

inductive CliDeviceExchangeOutcome where
  | issued (tokenId userId organizationId : Uuid) (expiresAt : Int)
  | invalidDeviceCode
  | expired
  | denied
  | slowDown
  | pending
  deriving DecidableEq, Repr

inductive Success where
  | created (id : Uuid)
  | joined (organization : OrganizationRow)
  | registered (user : SessionUser)
  | approval (outcome : CliDeviceApprovalOutcome)
  | exchange (outcome : CliDeviceExchangeOutcome)
  | changed
  deriving DecidableEq, Repr

inductive Error where
  | invitationUnavailable
  | store (error : StoreError)
  deriving DecidableEq, Repr

/-- How a call ends. `unread` is an error, too: the last one of `register_with_invitation`, which
looks the new user up after its transaction has committed. -/
inductive Result where
  | ok (success : Success)
  | failed (error : Error)
  | unread (error : Error)
  deriving DecidableEq, Repr

/-! ## 2. Points -/

inductive Call where
  -- `create_invitation`
  | createInvitation (n : NewInvitation)
  | invitationTokens (n : NewInvitation)
  | insertInvitation (n : NewInvitation)
  -- `join_organization_with_invitation`
  | joinOrganizationWithInvitation (user : Uuid) (codeHash : Nat)
  | joinActive (user : Uuid) (v : Invited)
  | joinExists (user : Uuid) (v : Invited)
  | joinPrincipal (user : Uuid) (v : Invited)
  | joinMembership (user : Uuid) (v : Invited) (principal : Uuid)
  | joinUse (user : Uuid) (v : Invited)
  | joinOrganization (v : Invited)
  | joinCommit (v : Invited) (organization : OrganizationRow)
  -- `register_with_invitation`
  | registerWithInvitation (input : RegisterWithInvitation)
  | registerUse (input : RegisterWithInvitation) (v : Invited)
  | registerEmail (input : RegisterWithInvitation) (v : Invited)
  | registerUser (input : RegisterWithInvitation) (v : Invited)
  | registerPrincipal (input : RegisterWithInvitation) (v : Invited) (user : Uuid)
  | registerMembership (v : Invited) (user principal : Uuid)
  | registerCommit (v : Invited) (user : Uuid)
  | sessionUser (user : Uuid)
  | sessionMemberships (user : UserRow)
  -- `create_cli_device_authorization`
  | createCliDeviceAuthorization (n : NewDevice)
  | deviceTokens (n : NewDevice)
  | insertDevice (n : NewDevice)
  -- `approve_cli_device_authorization`
  | approveCliDeviceAuthorization (userCodeHash : Nat) (user : Uuid)
  | approveCheck (a : CliDeviceAuthorizationRow) (user : Uuid)
  | approveMember (a : CliDeviceAuthorizationRow) (user : Uuid)
  | approveUpdate (a : CliDeviceAuthorizationRow) (user : Uuid)
  | approveCommit (a : CliDeviceAuthorizationRow) (user : Uuid)
  -- `exchange_cli_device_authorization`
  | exchangeCliDeviceAuthorization (deviceCodeHash : Nat) (n : NewToken)
  | exchangeCheck (a : CliDeviceAuthorizationRow) (n : NewToken)
  | exchangePoll (a : CliDeviceAuthorizationRow) (n : NewToken) (now : Int)
  | exchangeMember (a : CliDeviceAuthorizationRow) (n : NewToken) (user : Uuid)
  | exchangeInsert (a : CliDeviceAuthorizationRow) (n : NewToken) (user : Uuid)
  | exchangeConsume (a : CliDeviceAuthorizationRow) (t : CliAccessTokenRow)
  | exchangeCommit (a : CliDeviceAuthorizationRow) (t : CliAccessTokenRow)
  -- changes of memberships
  | addMembership (m : MembershipRow)
  | setMembershipRole (organization user : Uuid) (role : MembershipRole)
  | removeMembership (organization user : Uuid)
  | abort (error : StoreError)
  | commit (success : Success)
  | done (result : Result)

abbrev Statement := Outcome Key Write Call

/-- The transaction is dropped and the error returned. -/
def abort (error : StoreError) : Statement := .rollback (.done (.failed (.store error)))

/-- The transaction is rolled back and the outcome returned. -/
def settle (success : Success) : Statement := .rollback (.done (.ok success))

/-! ## 3. Statements -/

variable (now : Int) (d : Db) (next : Call)

/-- `DELETE FROM cli_device_authorizations WHERE expires_at <= now()`. -/
def purgeDevices : Statement :=
  let rows := d.cliDeviceAuthorizations.filter fun a => decide (a.expiresAt ≤ now)
  .stmt (rows.map fun a => (.device a.id, .exclusive)) (rows.map fun a => .deleteDevice a.id) next

/-- `DELETE FROM cli_access_tokens` of what expired or was revoked seven days ago. -/
def purgeTokens : Statement :=
  let rows := d.cliAccessTokens.filter fun t =>
    decide (t.expiresAt ≤ now - sevenDays) || t.revokedAt.any (· ≤ now - sevenDays)
  .stmt (rows.map fun t => (.token t.id, .exclusive)) (rows.map fun t => .deleteToken t.id) next

/-- `INSERT ... SELECT ... WHERE m.role IN ('owner', 'admin')`. -/
def insertInvitation (uuid : Nat → Nat) (d : Db) (n : NewInvitation) : Statement :=
  if d.organizationMemberships.any fun m => m.organizationId == n.organization &&
      m.userId == n.createdBy && (m.role == .owner || m.role == .admin) then
    if d.invitations.any (·.codeHash == n.codeHash) then abort (.sql true)
    else .stmt [(.fresh (uuid 0), .exclusive), (.invitationCode n.codeHash, .exclusive)]
      [.insertInvitation (n.row (uuid 0))] (.commit (.created (uuid 0)))
  else abort .notFound

def joinOrganizationWithInvitation (user : Uuid) (codeHash : Nat) : Statement :=
  match d.invitations.find? fun i =>
      Db.invitationAvailable now codeHash i && i.organizationId.isSome with
  | some ⟨id, _, _, some organization, _, _, _, _⟩ =>
    .stmt [(.invitation id, .exclusive)] [] (.joinActive user ⟨id, organization⟩)
  | _ => .rollback (.done (.failed .invitationUnavailable))

/-- `Uuid::simple`. -/
def simple (u : Uuid) : String :=
  let digits := Nat.toDigits 16 u
  String.ofList (List.replicate (32 - digits.length) '0' ++ digits)

/-- `INSERT INTO principals` of a user's principal. -/
def insertPrincipal (d : Db) (id organization user : Uuid) (name : String) (next : Call) :
    Statement :=
  if d.principals.any fun p => p.organizationId == organization &&
      (p.name == name || p.userId == some user) then abort (.sql true)
  else .stmt [(.principalName organization name, .exclusive),
      (.principalUser organization user, .exclusive)]
    [.insertPrincipal ⟨id, organization, name, some user, true, none⟩] next

def insertMembership (d : Db) (m : MembershipRow) (next : Call) : Statement :=
  if d.isMember m.organizationId m.userId then abort (.sql true)
  else .stmt [(.membership m.organizationId m.userId, .exclusive)] [.insertMembership m] next

variable (input : RegisterWithInvitation)

def registerWithInvitation : Statement :=
  match d.invitations.find? (Db.invitationAvailable now input.codeHash) with
  | some ⟨id, _, _, some organization, _, _, _, _⟩ =>
    .stmt [(.invitation id, .exclusive)] [] (.registerUse input ⟨id, organization⟩)
  | _ => .rollback (.done (.failed .invitationUnavailable))

/-- The second look at the invitation, which marks it used. -/
def registerUse (v : Invited) : Statement :=
  if d.invitations.any fun i => i.id == v.invitation && i.revokedAt == none &&
      decide (i.expiresAt > now) && i.maxUses == 1 && i.usedCount == 0 then
    .stmt [(.invitation v.invitation, .exclusive)] [.useInvitation v.invitation]
      (.registerEmail input v)
  else .rollback (.done (.failed .invitationUnavailable))

variable (lower : String → String) (uuid : Nat → Nat)

def registerUser (d : Db) (input : RegisterWithInvitation) (v : Invited) : Statement :=
  let email := lower input.email
  if d.users.any fun u => lower u.email == lower email then abort (.sql true)
  else .stmt [(.email (lower email), .exclusive)]
    [.insertUser ⟨uuid 0, email, input.displayName, some input.passwordHash, .active⟩]
    (.registerPrincipal input v (uuid 0))

/-- The memberships `session_user` returns; their order is left open. -/
def Db.sessionMemberships (user : Uuid) : List Membership :=
  (d.organizationMemberships.filter (·.userId == user)).flatMap fun m =>
    (d.organizations.filter (·.id == m.organizationId)).flatMap fun o =>
      (d.principals.filter fun p => p.id == m.principalId &&
          p.organizationId == m.organizationId && p.userId == some m.userId && p.enabled).map
        fun _ => ⟨m.organizationId, o.slug, o.name, m.principalId, m.role⟩

def insertDevice (uuid : Nat → Nat) (d : Db) (n : NewDevice) : Statement :=
  if d.organizations.any (·.id == n.organization) then
    if d.cliDeviceAuthorizations.any fun a => a.deviceCodeHash == n.deviceCodeHash ||
        a.userCodeHash == n.userCodeHash then abort (.sql true)
    else .stmt [(.fresh (uuid 0), .exclusive), (.deviceCode n.deviceCodeHash, .exclusive),
        (.userCode n.userCodeHash, .exclusive)]
      [.insertDevice (n.row (uuid 0))] (.commit (.created (uuid 0)))
  else abort .notFound

def approveCliDeviceAuthorization (userCodeHash : Nat) (user : Uuid) : Statement :=
  match d.cliDeviceAuthorizations.find? (·.userCodeHash == userCodeHash) with
  | some a => .stmt [(.device a.id, .exclusive)] [] (.approveCheck a user)
  | none => settle (.approval .notFound)

variable (clock : Int) (a : CliDeviceAuthorizationRow)

def approveCheck (user : Uuid) : Statement :=
  if a.expiresAt ≤ clock then settle (.approval .expired)
  else if a.status ≠ .pending then settle (.approval .invalidState)
  else .stmt [] [] (.approveMember a user)

def approveMember (user : Uuid) : Statement :=
  if d.isMember a.organizationId user then .stmt [] [] (.approveUpdate a user)
  else settle (.approval .forbidden)

def exchangeCliDeviceAuthorization (deviceCodeHash : Nat) (n : NewToken) : Statement :=
  match d.cliDeviceAuthorizations.find? (·.deviceCodeHash == deviceCodeHash) with
  | some a => .stmt [(.device a.id, .exclusive)] [] (.exchangeCheck a n)
  | none => settle (.exchange .invalidDeviceCode)

def exchangeCheck (n : NewToken) : Statement :=
  if a.expiresAt ≤ clock then settle (.exchange .expired)
  else if a.status = .denied then settle (.exchange .denied)
  else if a.status = .consumed then settle (.exchange .invalidDeviceCode)
  else if a.lastPolledAt.any fun last => decide (last + seconds a.intervalSeconds > clock) then
    settle (.exchange .slowDown)
  else .stmt [] [] (.exchangePoll a n clock)

/-- The poll is recorded; only an approved authorization goes on to a token. -/
def exchangePoll (n : NewToken) (now : Int) : Statement :=
  .stmt [(.device a.id, .exclusive)] [.pollDevice a.id now]
    (match a.status, a.approvedUserId with
    | .pending, _ => .commit (.exchange .pending)
    | .approved, some user => .exchangeMember a n user
    | .approved, none => .abort (.invariant "approved CLI device authorization has no user")
    | _, _ => .abort (.invariant "unknown CLI device authorization state"))

def exchangeMember (n : NewToken) (user : Uuid) : Statement :=
  if d.isMember a.organizationId user then .stmt [] [] (.exchangeInsert a n user)
  else settle (.exchange .denied)

def exchangeInsert (d : Db) (a : CliDeviceAuthorizationRow) (n : NewToken) (user : Uuid) :
    Statement :=
  let token := n.row (uuid 0) user a.organizationId
  if d.cliAccessTokens.any fun t =>
      t.tokenPrefix == n.tokenPrefix || t.tokenHash == n.tokenHash then abort (.sql true)
  else .stmt [(.tokenPrefix n.tokenPrefix, .exclusive), (.tokenHash n.tokenHash, .exclusive)]
    [.insertToken token] (.exchangeConsume a token)

/-- The statement at each point. -/
def exec (clock now : Int) (uuid : Nat → Nat) (d : Db) :
    Call → Option Statement
  | .createInvitation n => some (purgeDevices now d (.invitationTokens n))
  | .invitationTokens n => some (purgeTokens now d (.insertInvitation n))
  | .insertInvitation n => some (insertInvitation uuid d n)
  | .joinOrganizationWithInvitation user codeHash =>
    some (joinOrganizationWithInvitation now d user codeHash)
  | .joinActive user v => some (
    if d.users.any fun u => u.id == user && u.status == .active then
      .stmt [] [] (.joinExists user v) else abort .notFound)
  | .joinExists user v => some (
    if d.isMember v.organization user then abort .conflict else .stmt [] [] (.joinPrincipal user v))
  | .joinPrincipal user v => some (insertPrincipal d (uuid 0) v.organization user
      ("user-" ++ simple user) (.joinMembership user v (uuid 0)))
  | .joinMembership user v principal => some (insertMembership d
      ⟨v.organization, user, principal, .member, uuid 0⟩ (.joinUse user v))
  | .joinUse _ v => some (.stmt [(.invitation v.invitation, .exclusive)]
      [.useInvitation v.invitation] (.joinOrganization v))
  | .joinOrganization v => some (
    match d.organizations.find? (·.id == v.organization) with
    | some o => .stmt [] [] (.joinCommit v o)
    | none => abort (.sql false))
  | .joinCommit _ o => some (.commit (.done (.ok (.joined o))))
  | .registerWithInvitation input => some (registerWithInvitation now d input)
  | .registerUse input v => some (registerUse now d input v)
  | .registerEmail input v => some (
    match d.userByEmail lower input.email with
    | some _ => abort .alreadyExists
    | none => .stmt [] [] (.registerUser input v))
  | .registerUser input v => some (registerUser lower uuid d input v)
  | .registerPrincipal input v user => some (insertPrincipal d (uuid 0) v.organization user
      input.displayName (.registerMembership v user (uuid 0)))
  | .registerMembership v user principal => some (insertMembership d
      ⟨v.organization, user, principal, .member, uuid 0⟩ (.registerCommit v user))
  | .registerCommit _ user => some (.commit (.sessionUser user))
  | .sessionUser user => some (
    match d.users.find? (·.id == user) with
    | some u => .read (.sessionMemberships u)
    | none => .read (.done (.unread (.store
        (.invariant "registration transaction did not produce a session user")))))
  | .sessionMemberships u =>
    some (.read (.done (.ok (.registered ⟨u, d.sessionMemberships u.id⟩))))
  | .createCliDeviceAuthorization n => some (purgeDevices now d (.deviceTokens n))
  | .deviceTokens n => some (purgeTokens now d (.insertDevice n))
  | .insertDevice n => some (insertDevice uuid d n)
  | .approveCliDeviceAuthorization userCodeHash user =>
    some (approveCliDeviceAuthorization d userCodeHash user)
  | .approveCheck a user => some (approveCheck clock a user)
  | .approveMember a user => some (approveMember d a user)
  | .approveUpdate a user => some (.stmt [(.device a.id, .exclusive)]
      [.approveDevice a.id user now] (.approveCommit a user))
  | .approveCommit _ _ => some (.commit (.done (.ok (.approval .approved))))
  | .exchangeCliDeviceAuthorization deviceCodeHash n =>
    some (exchangeCliDeviceAuthorization d deviceCodeHash n)
  | .exchangeCheck a n => some (exchangeCheck clock a n)
  | .exchangePoll a n at' => some (exchangePoll a n at')
  | .exchangeMember a n user => some (exchangeMember d a n user)
  | .exchangeInsert a n user => some (exchangeInsert uuid d a n user)
  | .exchangeConsume a t => some (.stmt [(.device a.id, .exclusive)] [.consumeDevice a.id now]
      (.exchangeCommit a t))
  | .exchangeCommit _ t => some (.commit (.done (.ok (.exchange
      (.issued t.id t.userId t.organizationId t.expiresAt)))))
  | .addMembership m => some (insertMembership d m (.commit .changed))
  | .setMembershipRole o u role => some (.stmt [(.membership o u, .exclusive)]
      [.setMembershipRole o u role] (.commit .changed))
  | .removeMembership o u => some (.stmt [(.membership o u, .exclusive)]
      [.deleteMembership o u] (.commit .changed))
  | .abort error => some (abort error)
  | .commit success => some (.commit (.done (.ok success)))
  | .done _ => none

/-- Any statement may fail. -/
def fail : Call → Option Call
  | .sessionUser _ | .sessionMemberships _ => some (.done (.unread (.store (.sql false))))
  | .done _ => none
  | _ => some (.done (.failed (.store (.sql false))))

def Call.isStart : Call → Bool
  | .createInvitation _ | .joinOrganizationWithInvitation _ _ | .registerWithInvitation _ |
    .createCliDeviceAuthorization _ | .approveCliDeviceAuthorization _ _ |
    .exchangeCliDeviceAuthorization _ _ | .addMembership _ | .setMembershipRole _ _ _ |
    .removeMembership _ _ => true
  | _ => false

/-- **The program**; `lower` is the database's function on text. -/
def program : Program Db Key Write Call where
  apply := Write.apply
  exec := exec lower
  fail := fail
  start c := c.isStart = true
  width := 1

instance (lower : String → String) : DecidablePred (program lower).start :=
  fun c => inferInstanceAs (Decidable (c.isStart = true))

abbrev View := World Db Key Write Call

end HeteroCloud.Onboarding
