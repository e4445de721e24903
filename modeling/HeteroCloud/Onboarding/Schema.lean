/-
  File:      Onboarding/Schema.lean
  Subject:   INVITATIONS AND CLI DEVICE AUTHORIZATIONS: their tables (migrations/0001, 0002, 0018),
             the row changes their operations make, the locks these need and the ids they bring in.

  An entry of a unique index is a key of its own: a statement that makes one locks it, since a
  second inserter of the same value waits for the first. The checks on lengths of names and hashes
  are left out; a statement may fail for any reason (Program.lean).
-/
import HeteroCloud.Base.Guarded
import HeteroCloud.Store.Authorization

namespace HeteroCloud.Onboarding

open Base Iam
open Store (UserStatus MembershipRole StoreError PrincipalRow MembershipRow seconds
  sevenDays)

/-! ## 1. Rows -/

structure UserRow where
  id : Uuid
  email : String
  displayName : String
  passwordHash : Option String
  status : UserStatus
  deriving DecidableEq, Repr

structure OrganizationRow where
  id : Uuid
  slug : String
  name : String
  deriving DecidableEq, Repr

structure InvitationRow where
  id : Uuid
  codeHash : Nat
  createdBy : Uuid
  organizationId : Option Uuid
  maxUses : Int
  usedCount : Int := 0
  expiresAt : Int
  revokedAt : Option Int := none
  deriving DecidableEq, Repr

inductive DeviceStatus where
  | pending
  | approved
  | denied
  | consumed
  deriving DecidableEq, Repr

structure CliDeviceAuthorizationRow where
  id : Uuid
  deviceCodeHash : Nat
  userCodeHash : Nat
  organizationId : Uuid
  approvedUserId : Option Uuid := none
  status : DeviceStatus := .pending
  intervalSeconds : Int
  expiresAt : Int
  lastPolledAt : Option Int := none
  approvedAt : Option Int := none
  consumedAt : Option Int := none
  deriving DecidableEq, Repr

structure CliAccessTokenRow where
  id : Uuid
  userId : Uuid
  organizationId : Uuid
  tokenPrefix : String
  tokenHash : Nat
  expiresAt : Int
  revokedAt : Option Int := none
  deriving DecidableEq, Repr

structure Db where
  users : List UserRow := []
  organizations : List OrganizationRow := []
  principals : List PrincipalRow := []
  organizationMemberships : List MembershipRow := []
  invitations : List InvitationRow := []
  cliDeviceAuthorizations : List CliDeviceAuthorizationRow := []
  cliAccessTokens : List CliAccessTokenRow := []

/-! ## 2. Queries -/

namespace Db

variable (d : Db)

/-- `SELECT EXISTS (SELECT 1 FROM organization_memberships ...)`. -/
def isMember (organization user : Uuid) : Bool :=
  d.organizationMemberships.any fun m => m.organizationId == organization && m.userId == user

/-- The condition of every query for an invitation by its code. -/
def invitationAvailable (now : Int) (codeHash : Nat) (i : InvitationRow) : Bool :=
  i.codeHash == codeHash && i.revokedAt == none && decide (i.expiresAt > now) && i.maxUses == 1 &&
    i.usedCount == 0

def userByEmail (lower : String → String) (email : String) : Option UserRow :=
  d.users.find? fun u => lower u.email == lower email

end Db

/-! ## 3. Locks -/

inductive Key where
  /-- A row under a new id, not committed yet. -/
  | fresh (id : Uuid)
  | invitation (id : Uuid)
  | invitationCode (codeHash : Nat)
  | device (id : Uuid)
  | deviceCode (deviceCodeHash : Nat)
  | userCode (userCodeHash : Nat)
  | token (id : Uuid)
  | tokenHash (tokenHash : Nat)
  | tokenPrefix (tokenPrefix : String)
  | email (lowered : String)
  | principalName (organizationId : Uuid) (name : String)
  | principalUser (organizationId userId : Uuid)
  | membership (organizationId userId : Uuid)
  deriving DecidableEq

abbrev Locks := List (Key × LockMode)

/-! ## 4. Writes -/

inductive Write where
  | insertUser (u : UserRow)
  | insertPrincipal (p : PrincipalRow)
  | insertMembership (m : MembershipRow)
  | setMembershipRole (organizationId userId : Uuid) (role : MembershipRole)
  | deleteMembership (organizationId userId : Uuid)
  | insertInvitation (i : InvitationRow)
  /-- `UPDATE invitations SET used_count = 1`. -/
  | useInvitation (id : Uuid)
  | insertDevice (a : CliDeviceAuthorizationRow)
  | pollDevice (id : Uuid) (lastPolledAt : Int)
  | approveDevice (id userId : Uuid) (approvedAt : Int)
  | consumeDevice (id : Uuid) (consumedAt : Int)
  | deleteDevice (id : Uuid)
  | insertToken (t : CliAccessTokenRow)
  | deleteToken (id : Uuid)
  deriving DecidableEq

/-- The change of one row of `cli_device_authorizations`. -/
def Db.updateDevice (d : Db) (id : Uuid)
    (f : CliDeviceAuthorizationRow → CliDeviceAuthorizationRow) : Db :=
  { d with cliDeviceAuthorizations := updateWhere (·.id == id) f d.cliDeviceAuthorizations }

def Write.apply : Write → Db → Db
  | .insertUser u, d => { d with users := d.users ++ [u] }
  | .insertPrincipal p, d => { d with principals := d.principals ++ [p] }
  | .insertMembership m, d => { d with organizationMemberships := d.organizationMemberships ++ [m] }
  | .setMembershipRole o u role, d => { d with
      organizationMemberships := updateWhere (fun m => m.organizationId == o && m.userId == u)
        ({ · with role }) d.organizationMemberships }
  | .deleteMembership o u, d => { d with
      organizationMemberships := d.organizationMemberships.filter fun m =>
        !(m.organizationId == o && m.userId == u) }
  | .insertInvitation i, d => { d with invitations := d.invitations ++ [i] }
  | .useInvitation id, d => { d with
      invitations := updateWhere (·.id == id) ({ · with usedCount := 1 }) d.invitations }
  | .insertDevice a, d => { d with cliDeviceAuthorizations := d.cliDeviceAuthorizations ++ [a] }
  | .pollDevice id t, d => d.updateDevice id ({ · with lastPolledAt := some t })
  | .approveDevice id user t, d => d.updateDevice id
      ({ · with status := .approved, approvedUserId := some user, approvedAt := some t })
  | .consumeDevice id t, d => d.updateDevice id
      ({ · with status := .consumed, consumedAt := some t })
  | .deleteDevice id, d => { d with
      cliDeviceAuthorizations := d.cliDeviceAuthorizations.filter (·.id != id) }
  | .insertToken t, d => { d with cliAccessTokens := d.cliAccessTokens ++ [t] }
  | .deleteToken id, d => { d with cliAccessTokens := d.cliAccessTokens.filter (·.id != id) }

/-- The rows a write changes are locked. -/
def Write.needs : Write → List Key
  | .useInvitation id => [.invitation id]
  | .pollDevice id _ | .approveDevice id _ _ | .consumeDevice id _ | .deleteDevice id =>
      [.device id]
  | .deleteToken id => [.token id]
  | .insertMembership m => [.membership m.organizationId m.userId]
  | .setMembershipRole o u _ | .deleteMembership o u => [.membership o u]
  | _ => []

def Write.makes : Write → List Nat
  | .insertInvitation i => [i.id]
  | .insertDevice a => [a.id]
  | _ => []

/-- The ids of invitations and device authorizations. -/
def ids (d : Db) : List Nat :=
  d.invitations.map (·.id) ++ d.cliDeviceAuthorizations.map (·.id)

def guards : Guards Db Key Write where
  allows _ := True
  needs := Write.needs
  makes := Write.makes
  fresh := .fresh
  ids := ids

section Ids
variable {d : Db}

theorem mem_ids_invitation {i : InvitationRow} (h : i ∈ d.invitations) : i.id ∈ ids d :=
  List.mem_append_left _ (List.mem_map_of_mem h)

theorem mem_ids_device {a : CliDeviceAuthorizationRow} (h : a ∈ d.cliDeviceAuthorizations) :
    a.id ∈ ids d :=
  List.mem_append_right _ (List.mem_map_of_mem h)

theorem updateDevice_within {new : List Nat} {id : Uuid}
    {f : CliDeviceAuthorizationRow → CliDeviceAuthorizationRow} (hf : ∀ a, (f a).id = a.id) :
    Within (·.id) new d.cliDeviceAuthorizations (d.updateDevice id f).cliDeviceAuthorizations :=
  .update hf

/-- What a write does to the ids of the two tables. -/
theorem Write.idsWithin (x : Write) (d : Db) :
    Within (·.id) x.makes d.invitations (x.apply d).invitations ∧
      Within (·.id) x.makes d.cliDeviceAuthorizations (x.apply d).cliDeviceAuthorizations := by
  cases x with
  | insertInvitation i => exact ⟨.insert i, .refl _⟩
  | useInvitation => exact ⟨.update fun _ => rfl, .refl _⟩
  | insertDevice a => exact ⟨.refl _, .insert a⟩
  | pollDevice | approveDevice | consumeDevice => exact ⟨.refl _, updateDevice_within fun _ => rfl⟩
  | deleteDevice => exact ⟨.refl _, .filter _⟩
  | _ => exact ⟨.refl _, .refl _⟩

/-- A write brings in only the ids it makes. -/
theorem Write.mem_ids {x : Write} {k : Nat} (h : k ∈ ids (x.apply d)) :
    k ∈ ids d ∨ k ∈ x.makes := by
  obtain ⟨hi, ha⟩ := x.idsWithin d
  rcases List.mem_append.mp h with h | h
  · exact (hi.mem h).imp_left (List.mem_append_left _)
  · exact (ha.mem h).imp_left (List.mem_append_right _)

end Ids
end HeteroCloud.Onboarding
