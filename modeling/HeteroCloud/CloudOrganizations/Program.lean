/-
  File:      CloudOrganizations/Program.lean
  Subject:   THE OPERATIONS on cloud organizations, statement by statement
             (crates/heterocloud-store/src/cloud_organizations.rs, `create_organization` of
             lib.rs, and the triggers of migrations/0026_cloud_organizations.sql).

  A constructor of `Call` is the program point before one statement, with the values the
  function holds there. The triggers run inside the statement that fires them. Inserting a row
  locks its key, updating one locks the row. Quota events that `create_cloud_member_account`
  puts into the outbox are left out. `register` stands for `bootstrap_admin` and
  `find_or_create_oidc_user` from their `INSERT INTO users` on: what they look up before can only end
  the call.
-/
import HeteroCloud.Base.Transaction
import HeteroCloud.CloudOrganizations.Tree

namespace HeteroCloud.CloudOrganizations

open Base Iam Store

/-! ## 1. Writes -/

inductive TargetKind where
  | unit
  | account
  deriving DecidableEq, Repr

/-- The values drawn for a new account and for the organization its trigger creates. -/
structure NewOrganization where
  organizationId : Uuid
  accountNumber : Nat
  cloudOrganizationId : Uuid
  policyId : Uuid
  rootId : Uuid

inductive Write where
  /-- `INSERT INTO organizations` with `create_account_organization` and the default attachments. -/
  | insertOrganization (n : NewOrganization)
  | insertUser (u : UserRow)
  | insertPrincipal (p : PrincipalRow)
  | insertMembership (m : MembershipRow)
  /-- `DELETE FROM cloud_organizations`, with everything that references the row. -/
  | deleteCloudOrganization (id : Uuid)
  | insertUnit (u : CloudOrganizationalUnitRow) (attachments : List ScpAttachmentRow)
  | insertAccount (a : CloudOrganizationAccountRow) (attachments : List ScpAttachmentRow)
  | insertPolicy (p : ServiceControlPolicyRow)
  | moveAccount (accountId parentId : Uuid)
  | attach (kind : TargetKind) (t : ScpAttachmentRow)
  | detach (kind : TargetKind) (t : ScpAttachmentRow)

variable (d : Db)

/-- The attachment table of a kind of target. -/
def attachments : TargetKind → List ScpAttachmentRow
  | .unit => d.cloudScpUnitAttachments
  | .account => d.cloudScpAccountAttachments

def setAttachments (kind : TargetKind) (ts : List ScpAttachmentRow) : Db :=
  match kind with
  | .unit => { d with cloudScpUnitAttachments := ts }
  | .account => { d with cloudScpAccountAttachments := ts }

def Write.apply : Write → Db → Db
  | .insertOrganization n, d =>
      { d with
        organizations := d.organizations ++ [⟨n.organizationId, n.accountNumber⟩]
        cloudOrganizations := d.cloudOrganizations ++ [⟨n.cloudOrganizationId, n.organizationId⟩]
        cloudServiceControlPolicies := d.cloudServiceControlPolicies ++
          [⟨n.policyId, n.cloudOrganizationId, fullAccessDocument, true⟩]
        cloudOrganizationalUnits := d.cloudOrganizationalUnits ++
          [⟨n.rootId, n.cloudOrganizationId, none⟩]
        cloudScpUnitAttachments := d.cloudScpUnitAttachments ++
          [⟨n.cloudOrganizationId, n.rootId, n.policyId⟩]
        cloudOrganizationAccounts := d.cloudOrganizationAccounts ++
          [⟨n.organizationId, n.cloudOrganizationId, n.rootId⟩]
        cloudScpAccountAttachments := d.cloudScpAccountAttachments ++
          [⟨n.cloudOrganizationId, n.organizationId, n.policyId⟩] }
  | .insertUser u, d => { d with users := d.users ++ [u] }
  | .insertPrincipal p, d => { d with principals := d.principals ++ [p] }
  | .insertMembership m, d =>
      { d with organizationMemberships := d.organizationMemberships ++ [m] }
  | .deleteCloudOrganization id, d =>
      { d with
        cloudOrganizations := d.cloudOrganizations.filter (·.id != id)
        cloudServiceControlPolicies :=
          d.cloudServiceControlPolicies.filter (·.organizationId != id)
        cloudOrganizationalUnits := d.cloudOrganizationalUnits.filter (·.organizationId != id)
        cloudScpUnitAttachments := d.cloudScpUnitAttachments.filter (·.organizationId != id)
        cloudOrganizationAccounts := d.cloudOrganizationAccounts.filter (·.organizationId != id)
        cloudScpAccountAttachments :=
          d.cloudScpAccountAttachments.filter (·.organizationId != id) }
  | .insertUnit u ts, d =>
      { d with
        cloudOrganizationalUnits := d.cloudOrganizationalUnits ++ [u]
        cloudScpUnitAttachments := d.cloudScpUnitAttachments ++ ts }
  | .insertAccount a ts, d =>
      { d with
        cloudOrganizationAccounts := d.cloudOrganizationAccounts ++ [a]
        cloudScpAccountAttachments := d.cloudScpAccountAttachments ++ ts }
  | .insertPolicy p, d =>
      { d with cloudServiceControlPolicies := d.cloudServiceControlPolicies ++ [p] }
  | .moveAccount accountId parentId, d =>
      { d with
        cloudOrganizationAccounts := reparent d.cloudOrganizationAccounts accountId parentId }
  | .attach kind t, d => setAttachments d kind (attachments d kind ++ [t])
  | .detach kind t, d => setAttachments d kind ((attachments d kind).filter (· != t))

/-! ## 2. Calls -/

/-- What is locked: a user row, an organization row (`FOR UPDATE`), or the row with this key. -/
inductive Key where
  | user (id : Uuid)
  | cloudOrganization (id : Uuid)
  | row (id : Uuid)
  deriving DecidableEq

abbrev Result := Except StoreError Unit

inductive Call where
  | register (displayName : String)
  | createOrganization (userId : Uuid)
  | createOrganizationInsert (userId : Uuid) (displayName : String)
  | createCloudOrganizationalUnit (managementAccountId parentId : Uuid)
  | createUnitInsert (managementAccountId parentId : Uuid)
  | createCloudMemberAccount (managementAccountId parentId userId : Uuid)
  | memberUser (parentId userId cloudOrganizationId : Uuid)
  | memberOrganization (parentId userId : Uuid) (displayName : String) (cloudOrganizationId : Uuid)
  | memberDelete (parentId userId : Uuid) (displayName : String)
      (cloudOrganizationId accountId : Uuid)
  | memberAccount (parentId userId : Uuid) (displayName : String)
      (cloudOrganizationId accountId : Uuid)
  | insertPrincipal (userId : Uuid) (displayName : String) (organizationId : Uuid)
  | insertMembership (userId organizationId principalId : Uuid)
  | moveCloudMemberAccount (managementAccountId accountId parentId : Uuid)
  | createServiceControlPolicy (managementAccountId : Uuid) (document : PolicyDocument)
  | changeServiceControlAttachment (managementAccountId : Uuid) (kind : Option TargetKind)
      (targetId policyId : Uuid) (attach : Bool)
  | attachmentTarget (organizationId : Uuid) (kind : TargetKind) (targetId policyId : Uuid)
      (attach : Bool)
  | attachmentCount (organizationId : Uuid) (kind : TargetKind) (targetId policyId : Uuid)
      (attach : Bool)
  | attachmentFull (organizationId : Uuid) (kind : TargetKind) (targetId policyId : Uuid)
  | attachmentInsert (organizationId : Uuid) (kind : TargetKind) (targetId policyId : Uuid)
  | attachmentDelete (organizationId : Uuid) (kind : TargetKind) (targetId policyId : Uuid)
  | abort (error : StoreError)
  | commit
  | done (result : Result)

/-! ## 3. Queries -/

/-- The organization of the management account has this unit. -/
def managesUnit (managementAccountId : Uuid) (u : CloudOrganizationalUnitRow) : Bool :=
  d.cloudOrganizations.any fun o =>
    o.id == u.organizationId && o.managementAccountId == managementAccountId

/-- The depth query of `create_cloud_organizational_unit`: how many units from the parent to the
root, 0 if no root is reached. -/
def unitDepth (managementAccountId parentId : Uuid) : Nat :=
  let rows := (d.cloudOrganizationalUnits.filter fun u =>
      u.id == parentId && managesUnit d managementAccountId u).flatMap fun u =>
    ancestors d.cloudOrganizationalUnits
      (d.cloudOrganizationalUnits.filter (·.organizationId == u.organizationId)).length u [u.id]
  if rows.any (·.parentId == none) then rows.length else 0

/-- The rows the triggers attach to a new target. -/
def defaultAttachments (organizationId targetId : Uuid) : List ScpAttachmentRow :=
  (managedPolicies d.cloudServiceControlPolicies organizationId).map fun p =>
    ⟨organizationId, targetId, p.id⟩

/-- The targets of a kind, as organization and id. -/
def targets : TargetKind → List (Uuid × Uuid)
  | .unit => unitTargets d.cloudOrganizationalUnits
  | .account => accountTargets d.cloudOrganizationAccounts

def activeUser (userId : Uuid) : Option UserRow :=
  d.users.find? fun u => u.id == userId && u.status == .active

def isRow (t : ScpAttachmentRow) (organizationId targetId policyId : Uuid) : Bool :=
  t.organizationId == organizationId && t.targetId == targetId && t.policyId == policyId

variable (uuid : Nat → Nat)

def newOrganization : NewOrganization :=
  ⟨uuid 0, uuid 1, uuid 2, uuid 3, uuid 4⟩

def NewOrganization.ids (n : NewOrganization) : List Uuid :=
  [n.organizationId, n.cloudOrganizationId, n.policyId, n.rootId]

def rowLocks (ids : List Uuid) : List (Key × LockMode) := ids.map fun k => (.row k, .exclusive)

/-! ## 4. Statements -/

/-- The next statement of a call. -/
def exec (d : Db) : Call → Option (Outcome Key Write Call)
  | .register displayName =>
      some (.stmt (rowLocks [uuid 0]) [.insertUser ⟨uuid 0, displayName, .active⟩]
        (.createOrganizationInsert (uuid 0) displayName))
  | .createOrganization userId =>
      match activeUser d userId with
      | none => some (.rollback (.done (.error .notFound)))
      | some u => some (.stmt [(.user userId, .share)] []
          (.createOrganizationInsert userId u.displayName))
  | .createOrganizationInsert userId displayName =>
      let n := newOrganization uuid
      some (.stmt (rowLocks n.ids) [.insertOrganization n]
        (.insertPrincipal userId displayName n.organizationId))
  | .insertPrincipal userId displayName organizationId =>
      some (.stmt (rowLocks [uuid 0])
        [.insertPrincipal ⟨uuid 0, organizationId, displayName, some userId, true, none⟩]
        (.insertMembership userId organizationId (uuid 0)))
  | .insertMembership userId organizationId principalId =>
      some (.stmt (rowLocks [uuid 0])
        [.insertMembership ⟨organizationId, userId, principalId, .owner, uuid 0⟩] .commit)
  | .createCloudOrganizationalUnit managementAccountId parentId =>
      let depth := unitDepth d managementAccountId parentId
      if depth = 0 then some (.read (.done (.error .notFound)))
      else if 5 < depth then some (.read (.done (.error (.requestRejected
        "Organizational units can be nested at most five levels below the root."))))
      else some (.read (.createUnitInsert managementAccountId parentId))
  | .createUnitInsert managementAccountId parentId =>
      match d.cloudOrganizationalUnits.find? fun u =>
        u.id == parentId && managesUnit d managementAccountId u with
      | none => some (.read (.done (.error .notFound)))
      | some p => some (.stmt (rowLocks [uuid 0])
          [.insertUnit ⟨uuid 0, p.organizationId, some p.id⟩
            (defaultAttachments d p.organizationId (uuid 0))] .commit)
  | .createCloudMemberAccount managementAccountId parentId userId =>
      match d.cloudOrganizations.find? fun o => o.managementAccountId == managementAccountId &&
        d.cloudOrganizationalUnits.any fun u => u.organizationId == o.id && u.id == parentId with
      | none => some (.rollback (.done (.error .notFound)))
      | some o => some (.stmt [(.cloudOrganization o.id, .exclusive)] []
          (.memberUser parentId userId o.id))
  | .memberUser parentId userId cloudOrganizationId =>
      match activeUser d userId with
      | none => some (.rollback (.done (.error .notFound)))
      | some u => some (.stmt [(.user userId, .share)] []
          (.memberOrganization parentId userId u.displayName cloudOrganizationId))
  | .memberOrganization parentId userId displayName cloudOrganizationId =>
      let n := newOrganization uuid
      some (.stmt (rowLocks n.ids) [.insertOrganization n]
        (.memberDelete parentId userId displayName cloudOrganizationId n.organizationId))
  | .memberDelete parentId userId displayName cloudOrganizationId accountId =>
      some (.stmt []
        ((d.cloudOrganizations.filter (·.managementAccountId == accountId)).map fun o =>
          .deleteCloudOrganization o.id)
        (.memberAccount parentId userId displayName cloudOrganizationId accountId))
  | .memberAccount parentId userId displayName cloudOrganizationId accountId =>
      some (.stmt [] [.insertAccount ⟨accountId, cloudOrganizationId, parentId⟩
          (defaultAttachments d cloudOrganizationId accountId)]
        (.insertPrincipal userId displayName accountId))
  | .moveCloudMemberAccount managementAccountId accountId parentId =>
      if d.cloudOrganizationAccounts.any (fun a =>
        a.accountId == accountId && a.accountId != managementAccountId &&
        d.cloudOrganizationalUnits.any fun u =>
          u.id == parentId && u.organizationId == a.organizationId &&
            managesUnit d managementAccountId u) then
        some (.stmt (rowLocks [accountId]) [.moveAccount accountId parentId] .commit)
      else some (.read (.done (.error .notFound)))
  | .createServiceControlPolicy managementAccountId document =>
      match d.cloudOrganizations.find? (·.managementAccountId == managementAccountId) with
      | none => some (.read (.done (.error .notFound)))
      | some o => some (.stmt (rowLocks [uuid 0])
          [.insertPolicy ⟨uuid 0, o.id, document.toValue, false⟩] .commit)
  | .changeServiceControlAttachment managementAccountId kind targetId policyId attach =>
      match d.cloudOrganizations.find? (·.managementAccountId == managementAccountId) with
      | none => some (.rollback (.done (.error .notFound)))
      | some o => some (.stmt [(.cloudOrganization o.id, .exclusive)] []
          (match kind with
            | some kind => .attachmentTarget o.id kind targetId policyId attach
            | none => .abort .notFound))
  | .attachmentTarget organizationId kind targetId policyId attach =>
      if (targets d kind).contains (organizationId, targetId) &&
          d.cloudServiceControlPolicies.any (fun p =>
            p.organizationId == organizationId && p.id == policyId) then
        some (.stmt [] [] (.attachmentCount organizationId kind targetId policyId attach))
      else some (.rollback (.done (.error .notFound)))
  | .attachmentCount organizationId kind targetId policyId attach =>
      let count := ((attachments d kind).filter fun t =>
        t.organizationId == organizationId && t.targetId == targetId).length
      if attach then
        if 10 ≤ count then
          some (.stmt [] [] (.attachmentFull organizationId kind targetId policyId))
        else some (.stmt [] [] (.attachmentInsert organizationId kind targetId policyId))
      else if count ≤ 1 then
        some (.rollback (.done (.error (.requestRejected
          "At least one service control policy must remain attached."))))
      else some (.stmt [] [] (.attachmentDelete organizationId kind targetId policyId))
  | .attachmentFull organizationId kind targetId policyId =>
      if (attachments d kind).any (isRow · organizationId targetId policyId) then
        some (.stmt [] [] (.attachmentInsert organizationId kind targetId policyId))
      else some (.rollback (.done (.error (.requestRejected
        "A maximum of 10 service control policies can be attached to a target."))))
  | .attachmentInsert organizationId kind targetId policyId =>
      -- `ON CONFLICT DO NOTHING`, on the primary key
      if (attachments d kind).any (fun t => t.targetId == targetId && t.policyId == policyId) then
        some (.stmt [] [] .commit)
      else some (.stmt [] [.attach kind ⟨organizationId, targetId, policyId⟩] .commit)
  | .attachmentDelete organizationId kind targetId policyId =>
      if ((attachments d kind).filter (isRow · organizationId targetId policyId)).length ≠ 1 then
        some (.rollback (.done (.error .notFound)))
      else some (.stmt [] [.detach kind ⟨organizationId, targetId, policyId⟩] .commit)
  | .abort error => some (.rollback (.done (.error error)))
  | .commit => some (.commit (.done (.ok ())))
  | .done _ => none

/-- The calls a client makes. -/
def Call.isStart : Call → Bool
  | .register _ | .createOrganization _ | .createCloudOrganizationalUnit _ _ | .createCloudMemberAccount _ _ _
  | .moveCloudMemberAccount _ _ _ | .createServiceControlPolicy _ _
  | .changeServiceControlAttachment _ _ _ _ _ => true
  | _ => false

/-- **The operations on cloud organizations.** Any statement may fail. -/
def program : Program Db Key Write Call where
  apply := Write.apply
  exec := fun _ _ uuid d c => exec uuid d c
  fail
    | .done _ => none
    | _ => some (.done (.error (.sql false)))
  start := fun c => c.isStart = true
  width := 5

end HeteroCloud.CloudOrganizations
