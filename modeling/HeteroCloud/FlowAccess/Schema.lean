/-
  File:      FlowAccess/Schema.lean
  Subject:   FLOW DEVELOPER CREDENTIALS AND ACCESS CONTEXTS: their tables (migrations/0006, 0009),
             the row changes their operations make, the locks these need and the ids they bring in.

  Of `outbox_events` this holds the events of topic `principal-context.revoke`; audit events, which
  no operation reads, are left out.
-/
import HeteroCloud.Base.Guarded
import HeteroCloud.Store.Schema

namespace HeteroCloud.FlowAccess

open Base Iam List
open Store (ServiceInstanceState StoreError)

/-! ## 1. Rows -/

structure ServiceRow where
  id : Uuid
  organizationId : Uuid
  projectId : Uuid
  provider : String
  state : ServiceInstanceState
  generation : Int
  deriving DecidableEq, Repr

structure PrincipalRow where
  id : Uuid
  organizationId : Uuid
  enabled : Bool
  deriving DecidableEq, Repr

/-- What a developer presents: the prefix, and the hash of the secret. -/
structure Secret where
  credentialPrefix : String
  secretHash : Nat
  deriving DecidableEq, Repr

structure FlowDeveloperCredentialRow where
  id : Uuid
  organizationId : Uuid
  serviceInstanceId : Uuid
  createdBy : Uuid
  name : String
  secret : Secret
  permissions : List String
  expiresAt : Int
  lastUsedAt : Option Int := none
  revokedAt : Option Int := none
  createdAt : Int
  deriving DecidableEq, Repr

structure FlowAccessContextRow where
  contextId : Uuid
  organizationId : Uuid
  projectId : Uuid
  serviceInstanceId : Uuid
  credentialId : Option Uuid
  principalId : Uuid
  permissions : List String
  issuedAt : Int
  expiresAt : Int
  revokedAt : Option Int := none
  deriving DecidableEq, Repr

/-- An event of topic `principal-context.revoke`, with its payload. -/
structure RevokeEventRow where
  id : Uuid
  aggregateId : Uuid
  contextId : Uuid
  serviceInstanceId : Uuid
  organizationId : Uuid
  projectId : Uuid
  principalId : Uuid
  provider : String
  generation : Int
  expiresAt : Int
  deriving DecidableEq, Repr

structure Db where
  principals : List PrincipalRow := []
  serviceInstances : List ServiceRow := []
  flowDeveloperCredentials : List FlowDeveloperCredentialRow := []
  flowAccessContexts : List FlowAccessContextRow := []
  outboxEvents : List RevokeEventRow := []

/-! ## 2. Queries -/

namespace Db

variable (d : Db)

/-- The Flow service of a row, joined to it. -/
def flowService (id : Uuid) : Option ServiceRow :=
  d.serviceInstances.find? fun s => s.id == id && s.provider == "flow"

/-- `revoked_at IS NULL AND expires_at > now()`. -/
def activeCredential (now : Int) (c : FlowDeveloperCredentialRow) : Bool :=
  c.revokedAt == none && decide (c.expiresAt > now)

/-- The credential a developer presents, and its service. -/
def presented (now : Int) (secret : Secret) :
    Option (FlowDeveloperCredentialRow × ServiceRow) := do
  let c ← d.flowDeveloperCredentials.find? fun c =>
    c.secret == secret && activeCredential now c && (d.flowService c.serviceInstanceId).isSome
  let s ← d.flowService c.serviceInstanceId
  return (c, s)

/-- How many events revoke the context. -/
def revocations (context : Uuid) : Nat := d.outboxEvents.countP (·.aggregateId == context)

end Db

/-! ## 3. Locks -/

inductive Key where
  /-- A row under a new id, not committed yet. -/
  | fresh (id : Uuid)
  | service (id : Uuid)
  | credential (id : Uuid)
  | credentialPrefix (credentialPrefix : String)
  | context (id : Uuid)
  /-- `lock_flow_access_context_retention`. -/
  | retention (serviceInstanceId : Uuid)
  /-- The lock on the account of `lock_tenant_allocations`. -/
  | allocations (organizationId : Uuid)
  deriving DecidableEq

abbrev Locks := List (Key × LockMode)

/-! ## 4. Writes -/

inductive Write where
  | setService (s : ServiceRow)
  | insertCredential (c : FlowDeveloperCredentialRow)
  | revokeCredential (id : Uuid) (revokedAt : Int)
  /-- `SET prefix = $4, secret_hash = $5, last_used_at = NULL`. -/
  | setSecret (id : Uuid) (secret : Secret)
  | touchCredential (id : Uuid) (lastUsedAt : Int)
  | insertContext (x : FlowAccessContextRow)
  | revokeContext (id : Uuid) (revokedAt : Int)
  | deleteContext (id : Uuid)
  | insertEvent (e : RevokeEventRow)
  deriving DecidableEq

/-- A row of `flow_developer_credentials` after the write. -/
def Write.credential : Write → FlowDeveloperCredentialRow → FlowDeveloperCredentialRow
  | .revokeCredential id t, c => if c.id == id then { c with revokedAt := some t } else c
  | .setSecret id secret, c => if c.id == id then { c with secret, lastUsedAt := none } else c
  | .touchCredential id t, c => if c.id == id then { c with lastUsedAt := some t } else c
  | _, c => c

/-- A row of `flow_access_contexts` after the write. -/
def Write.context : Write → FlowAccessContextRow → FlowAccessContextRow
  | .revokeContext id t, x => if x.contextId == id then { x with revokedAt := some t } else x
  | _, x => x

def Db.mapCredentials (f : FlowDeveloperCredentialRow → FlowDeveloperCredentialRow) (d : Db) :
    Db :=
  { d with flowDeveloperCredentials := d.flowDeveloperCredentials.map f }

def Write.apply : Write → Db → Db
  | .setService s, d => { d with
      serviceInstances := updateWhere (·.id == s.id) (fun _ => s) d.serviceInstances }
  | .insertCredential c, d => { d with
      flowDeveloperCredentials := d.flowDeveloperCredentials ++ [c] }
  | .revokeCredential id t, d => d.mapCredentials (Write.credential (.revokeCredential id t))
  | .setSecret id secret, d => d.mapCredentials (Write.credential (.setSecret id secret))
  | .touchCredential id t, d => d.mapCredentials (Write.credential (.touchCredential id t))
  | .insertContext x, d => { d with flowAccessContexts := d.flowAccessContexts ++ [x] }
  | .revokeContext id t, d => { d with
      flowAccessContexts := d.flowAccessContexts.map (Write.context (.revokeContext id t)) }
  | .deleteContext id, d => { d with
      flowAccessContexts := d.flowAccessContexts.filter (·.contextId != id) }
  | .insertEvent e, d => { d with outboxEvents := d.outboxEvents ++ [e] }

/-- The rows a write changes or inserts are locked; a context made with a credential locks the
credential. -/
def Write.needs : Write → List Key
  | .setService s => [.service s.id]
  | .revokeCredential id _ | .setSecret id _ | .touchCredential id _ => [.credential id]
  | .insertContext x => .context x.contextId :: x.credentialId.toList.map .credential
  | .revokeContext id _ | .deleteContext id => [.context id]
  | _ => []

def Write.makes : Write → List Nat
  | .insertCredential c => [c.id]
  | .insertContext x => [x.contextId]
  | _ => []

/-- The ids of credentials and contexts. -/
def ids (d : Db) : List Nat :=
  d.flowDeveloperCredentials.map (·.id) ++ d.flowAccessContexts.map (·.contextId)

def guards : Guards Db Key Write where
  allows _ := True
  needs := Write.needs
  makes := Write.makes
  fresh := .fresh
  ids := ids

/-! ## 5. What a write does to the two tables -/

section Frames
variable {d : Db} {x : Write}
variable {c : FlowDeveloperCredentialRow}

theorem mem_ids_credential (h : c ∈ d.flowDeveloperCredentials) : c.id ∈ ids d :=
  mem_append_left _ (mem_map_of_mem h)

variable {y : FlowAccessContextRow}

theorem mem_ids_context (h : y ∈ d.flowAccessContexts) : y.contextId ∈ ids d :=
  mem_append_right _ (mem_map_of_mem h)

theorem Write.credential_id (x : Write) (c : FlowDeveloperCredentialRow) :
    (x.credential c).id = c.id := by
  cases x with
  | revokeCredential | setSecret | touchCredential =>
    simp only [Write.credential]
    split_ifs <;> rfl
  | _ => rfl

theorem Write.context_id (x : Write) (y : FlowAccessContextRow) :
    (x.context y).contextId = y.contextId := by
  cases x with
  | revokeContext =>
    simp only [Write.context]
    split_ifs <;> rfl
  | _ => rfl

theorem mem_credentials (h : c ∈ (x.apply d).flowDeveloperCredentials) : x = .insertCredential c ∨ ∃
    b ∈ d.flowDeveloperCredentials, c = x.credential b := by
  cases x with
  | insertCredential =>
    rcases mem_append.mp h with h | h
    · exact .inr ⟨c, h, rfl⟩
    · rw [mem_singleton.mp h]
      exact .inl rfl
  | revokeCredential | setSecret | touchCredential =>
    obtain ⟨b, hb, rfl⟩ := mem_map.mp h
    exact .inr ⟨b, hb, rfl⟩
  | _ => exact .inr ⟨c, h, rfl⟩

theorem credentials_stay (h : c ∈ d.flowDeveloperCredentials) : x.credential c ∈ (x.apply
    d).flowDeveloperCredentials := by
  cases x with
  | insertCredential => exact mem_append_left _ h
  | revokeCredential | setSecret | touchCredential => exact mem_map_of_mem h
  | _ => exact h

theorem mem_contexts (h : y ∈ (x.apply d).flowAccessContexts) : x = .insertContext y ∨ ∃ z ∈
    d.flowAccessContexts, y = x.context z := by
  cases x with
  | insertContext =>
    rcases mem_append.mp h with h | h
    · exact .inr ⟨y, h, rfl⟩
    · rw [mem_singleton.mp h]
      exact .inl rfl
  | revokeContext =>
    obtain ⟨z, hz, rfl⟩ := mem_map.mp h
    exact .inr ⟨z, hz, rfl⟩
  | deleteContext => exact .inr ⟨y, mem_of_mem_filter h, rfl⟩
  | _ => exact .inr ⟨y, h, rfl⟩

/-- A write brings in only the ids it makes. -/
theorem Write.mem_ids {k : Nat} (h : k ∈ ids (x.apply d)) : k ∈ ids d ∨ k ∈ x.makes := by
  rcases mem_append.mp h with h | h
  · obtain ⟨c, hc, rfl⟩ := mem_map.mp h
    rcases mem_credentials hc with rfl | ⟨b, hb, rfl⟩
    · exact .inr mem_cons_self
    · rw [x.credential_id]
      exact .inl (mem_ids_credential hb)
  · obtain ⟨y, hy, rfl⟩ := mem_map.mp h
    rcases mem_contexts hy with rfl | ⟨z, hz, rfl⟩
    · exact .inr mem_cons_self
    · rw [x.context_id]
      exact .inl (mem_ids_context hz)

end Frames
end HeteroCloud.FlowAccess
