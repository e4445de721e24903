/-
  File:      FlowAccess/Program.lean
  Subject:   THE OPERATIONS ON FLOW DEVELOPER CREDENTIALS AND ACCESS CONTEXTS as program points and
             their statements (crates/heterocloud-store/src/lib.rs).

  Ids of contexts are drawn by the callers for the call (`Uuid::now_v7`); here the insert draws
  them. `record_flow_access_context` is called without a credential only. The limit on the number of
  credentials is what the quota tables say when a credential is created; it is an argument here.
-/
import HeteroCloud.FlowAccess.Schema

namespace HeteroCloud.FlowAccess

open Base Iam
open Store (ServiceInstanceState StoreError)

/-! ## 1. Arguments and results -/

structure NewFlowDeveloperCredential where
  organizationId : Uuid
  serviceInstanceId : Uuid
  createdBy : Uuid
  name : String
  secret : Secret
  permissions : List String
  expiresAt : Int
  createdAt : Int

def NewFlowDeveloperCredential.row (n : NewFlowDeveloperCredential) (id : Uuid) :
    FlowDeveloperCredentialRow :=
  { id, organizationId := n.organizationId, serviceInstanceId := n.serviceInstanceId,
    createdBy := n.createdBy, name := n.name, secret := n.secret, permissions := n.permissions,
    expiresAt := n.expiresAt, createdAt := n.createdAt }

structure NewFlowAccessContext where
  organizationId : Uuid
  projectId : Uuid
  serviceInstanceId : Uuid
  principalId : Uuid
  permissions : List String
  issuedAt : Int
  expiresAt : Int

def NewFlowAccessContext.row (n : NewFlowAccessContext) (credential : Option Uuid)
    (contextId : Uuid) : FlowAccessContextRow :=
  { contextId, organizationId := n.organizationId, projectId := n.projectId,
    serviceInstanceId := n.serviceInstanceId, credentialId := credential,
    principalId := n.principalId, permissions := n.permissions, issuedAt := n.issuedAt,
    expiresAt := n.expiresAt }

structure DeveloperCredentialMint where
  secret : Secret
  principalId : Uuid
  permissions : List String
  issuedAt : Int
  expiresAt : Int

/-- A mint that has locked its credential: the row, and the service's project. -/
structure Minting where
  input : DeveloperCredentialMint
  credential : FlowDeveloperCredentialRow
  projectId : Uuid

/-- The context it inserts. -/
def Minting.context (m : Minting) (contextId : Uuid) : FlowAccessContextRow :=
  NewFlowAccessContext.row ⟨m.credential.organizationId, m.projectId,
    m.credential.serviceInstanceId, m.input.principalId, m.input.permissions, m.input.issuedAt,
    m.input.expiresAt⟩ (some m.credential.id) contextId

inductive DeveloperCredentialMintOutcome where
  | issued (credentialId organizationId projectId serviceInstanceId : Uuid)
  | invalidCredential
  | permissionDenied
  | serviceInstanceNotReady
  deriving DecidableEq, Repr

/-- What becomes of the credential. -/
inductive Mutation where
  | revoke
  | rotate (secret : Secret)
  deriving DecidableEq

/-- A revocation or rotation that has locked the credential: the row, and of its service the
project and generation. -/
structure Cascade where
  mutation : Mutation
  credential : FlowDeveloperCredentialRow
  projectId : Uuid
  generation : Int
  principalId : Uuid

/-- A context that is to be revoked, and what its event says. -/
structure Revocation where
  contextId : Uuid
  organizationId : Uuid
  serviceInstanceId : Uuid
  projectId : Uuid
  generation : Int
  principalId : Uuid
  expiresAt : Int

/-- `DateTime::timestamp`: whole seconds. -/
def timestamp (t : Int) : Int := t.fdiv 1000000

def Revocation.event (v : Revocation) (id : Uuid) : RevokeEventRow :=
  { id, aggregateId := v.contextId, contextId := v.contextId,
    serviceInstanceId := v.serviceInstanceId, organizationId := v.organizationId,
    projectId := v.projectId, principalId := v.principalId, provider := "flow",
    generation := v.generation, expiresAt := timestamp v.expiresAt }

/-- The revocation of a context by a cascade. -/
def Cascade.revocation (k : Cascade) (x : FlowAccessContextRow) : Revocation :=
  ⟨x.contextId, k.credential.organizationId, k.credential.serviceInstanceId, k.projectId,
    k.generation, k.principalId, x.expiresAt⟩

inductive Success where
  | created (credential : FlowDeveloperCredentialRow)
  | credentialRevocation (credentialRevoked : Bool) (contextsRevoked : Nat)
  | rotation (contextsRevoked : Nat)
  | recorded
  | mint (outcome : DeveloperCredentialMintOutcome)
  | contexts (items : Option (List FlowAccessContextRow))
  | contextRevoked (changed : Option Bool)
  | changed
  deriving DecidableEq

inductive Result where
  | ok (success : Success)
  | failed (error : StoreError)
  deriving DecidableEq

/-! ## 2. Points -/

inductive Call where
  -- `create_flow_developer_credential`
  | createFlowDeveloperCredential (n : NewFlowDeveloperCredential) (limit : Nat)
  | credentialService (n : NewFlowDeveloperCredential) (limit : Nat)
  | credentialCount (n : NewFlowDeveloperCredential) (limit : Nat)
  | insertCredential (n : NewFlowDeveloperCredential)
  -- `revoke_flow_developer_credential`, `rotate_flow_developer_credential`
  | revokeFlowDeveloperCredential (organization service credential principal : Uuid)
  | rotateFlowDeveloperCredential (organization service credential : Uuid) (secret : Secret)
      (principal : Uuid)
  | mutateCredential (k : Cascade)
  -- `cascade_flow_developer_credential_contexts`
  | cascadeContexts (k : Cascade)
  | cascadeUpdate (k : Cascade) (contexts : List FlowAccessContextRow)
  | cascadeEvents (k : Cascade) (count : Nat) (rest : List FlowAccessContextRow)
  | cascadeCommit (k : Cascade) (count : Nat)
  -- `record_flow_access_context`
  | recordFlowAccessContext (n : NewFlowAccessContext)
  | recordInsert (n : NewFlowAccessContext)
  | recordPrune (service : Uuid)
  -- `mint_flow_access_context_with_developer_credential`
  | mintFlowAccessContext (input : DeveloperCredentialMint)
  | mintRetention (m : Minting)
  | mintInsert (m : Minting)
  | mintPrune (m : Minting)
  | mintTouch (m : Minting)
  | mintCommit (m : Minting)
  -- `list_flow_access_contexts`, `list_flow_access_contexts_for_developer_credential`
  | listFlowAccessContexts (organization service : Uuid) (limit : Int)
  | listForDeveloperCredential (secret : Secret) (limit : Int)
  | listItems (credential : FlowDeveloperCredentialRow) (limit : Int)
  -- `revoke_flow_access_context_with_developer_credential`
  | revokeContextWithDeveloperCredential (secret : Secret) (context : Uuid)
  | lockCredentialContext (credential : FlowDeveloperCredentialRow) (s : ServiceRow)
      (context : Uuid)
  -- `revoke_flow_access_context`
  | revokeFlowAccessContext (organization service context principal : Uuid)
  -- one context is revoked; the credential that was presented is touched then
  | revokeContext (v : Revocation) (credential : Option Uuid)
  | revokeEvent (v : Revocation) (credential : Option Uuid)
  | touchCredential (credential : Uuid) (success : Success)
  -- any change of a service
  | setService (s : ServiceRow)
  | commit (success : Success)
  | done (result : Result)

abbrev Statement := Outcome Key Write Call

/-- The transaction is dropped and the error returned. -/
def abort (error : StoreError) : Statement := .rollback (.done (.failed error))

/-- The transaction is rolled back and the outcome returned. -/
def settle (success : Success) : Statement := .rollback (.done (.ok success))

/-! ## 3. Statements -/

/-- `permissions.windows(2).any(|pair| pair[0] >= pair[1])`. -/
def unordered : List String → Bool
  | p :: q :: rest => !decide (p < q) || unordered (q :: rest)
  | _ => false

variable (d : Db)

def credentialService (n : NewFlowDeveloperCredential) (limit : Nat) : Statement :=
  match d.serviceInstances.find? fun s => s.id == n.serviceInstanceId &&
      s.organizationId == n.organizationId && s.provider == "flow" with
  | some s => .stmt [(.service s.id, .exclusive)] [] (.credentialCount n limit)
  | none => abort .notFound

variable (now : Int)

def credentialCount (d : Db) (n : NewFlowDeveloperCredential) (limit : Nat) : Statement :=
  let active := d.flowDeveloperCredentials.countP fun c =>
    c.serviceInstanceId == n.serviceInstanceId && Db.activeCredential now c
  if limit ≤ active then
    abort (.requestRejected ("Flow developer credential limit exceeded: limit is " ++
      toString limit ++ " per service"))
  else .stmt [] [] (.insertCredential n)

def insertCredential (uuid : Nat → Nat) (d : Db) (n : NewFlowDeveloperCredential) : Statement :=
  if d.principals.any fun p => p.id == n.createdBy && p.organizationId == n.organizationId &&
      p.enabled then
    if d.flowDeveloperCredentials.any
        (·.secret.credentialPrefix == n.secret.credentialPrefix) then abort (.sql true)
    else .stmt [(.fresh (uuid 0), .exclusive),
        (.credentialPrefix n.secret.credentialPrefix, .exclusive)]
      [.insertCredential (n.row (uuid 0))] (.commit (.created (n.row (uuid 0))))
  else abort .notFound

/-- The credential a mutation is about, and its service. -/
def Db.mutationScope (organization service credential : Uuid) : Option (FlowDeveloperCredentialRow ×
    ServiceRow) := do
  let c ← d.flowDeveloperCredentials.find? fun c => c.id == credential &&
    c.organizationId == organization && c.serviceInstanceId == service &&
    (d.flowService service).isSome
  let s ← d.flowService service
  return (c, s)

def revokeFlowDeveloperCredential (organization service credential principal : Uuid) : Statement :=
  match d.mutationScope organization service credential with
  | some (c, s) =>
    let k : Cascade := ⟨.revoke, c, s.projectId, s.generation, principal⟩
    .stmt [(.credential c.id, .exclusive)] []
      (if c.revokedAt = none then .mutateCredential k else .cascadeContexts k)
  | none => .stmt [] [] (.commit (.credentialRevocation false 0))

def rotateFlowDeveloperCredential (d : Db) (organization service credential : Uuid) (secret :
    Secret) (principal : Uuid) : Statement :=
  match d.mutationScope organization service credential with
  | some (c, s) =>
    if Db.activeCredential now c then
      .stmt [(.credential c.id, .exclusive)] []
        (.mutateCredential ⟨.rotate secret, c, s.projectId, s.generation, principal⟩)
    else abort .conflict
  | none => abort .conflict

def mutateCredential (d : Db) (k : Cascade) : Statement :=
  match k.mutation with
  | .revoke => .stmt [(.credential k.credential.id, .exclusive)]
      [.revokeCredential k.credential.id now] (.cascadeContexts k)
  | .rotate secret =>
    if d.flowDeveloperCredentials.any fun c => c.id != k.credential.id &&
        c.secret.credentialPrefix == secret.credentialPrefix then abort (.sql true)
    else .stmt [(.credential k.credential.id, .exclusive),
        (.credentialPrefix secret.credentialPrefix, .exclusive)]
      [.setSecret k.credential.id secret] (.cascadeContexts k)

variable (c : FlowDeveloperCredentialRow)

/-- The contexts a cascade selects. -/
def Db.activeContexts : List FlowAccessContextRow :=
  orderBy (·.contextId) (d.flowAccessContexts.filter fun x => x.credentialId == some c.id &&
    x.organizationId == c.organizationId && x.serviceInstanceId == c.serviceInstanceId &&
    x.revokedAt == none && decide (x.expiresAt > now))

def cascadeContexts (d : Db) (k : Cascade) : Statement :=
  let contexts := d.activeContexts now k.credential
  .stmt (contexts.map fun x => (.context x.contextId, .exclusive)) []
    (if contexts.isEmpty then .cascadeCommit k 0 else .cascadeUpdate k contexts)

def cascadeUpdate (d : Db) (k : Cascade) (contexts : List FlowAccessContextRow) : Statement :=
  let updated := d.flowAccessContexts.countP fun x =>
    (contexts.map (·.contextId)).contains x.contextId && x.revokedAt == none
  if updated ≠ contexts.length then
    abort (.invariant "developer credential context cascade lost a locked row")
  else .stmt (contexts.map fun x => (.context x.contextId, .exclusive))
    (contexts.map fun x => .revokeContext x.contextId now)
    (.cascadeEvents k contexts.length contexts)

/-- The loop over the events. -/
def cascadeEvents (uuid : Nat → Nat) (k : Cascade) (count : Nat) :
    List FlowAccessContextRow → Statement
  | [] => .stmt [] [] (.cascadeCommit k count)
  | x :: rest => .stmt [] [.insertEvent ((k.revocation x).event (uuid 0))]
      (.cascadeEvents k count rest)

def Cascade.success (k : Cascade) (count : Nat) : Success :=
  match k.mutation with
  | .revoke => .credentialRevocation (k.credential.revokedAt == none) count
  | .rotate _ => .rotation count

def recordInsert (uuid : Nat → Nat) (d : Db) (n : NewFlowAccessContext) : Statement :=
  if d.serviceInstances.any fun s => s.id == n.serviceInstanceId &&
      s.organizationId == n.organizationId && s.projectId == n.projectId &&
      s.provider == "flow" && s.state == .ready then
    .stmt [(.fresh (uuid 0), .exclusive), (.context (uuid 0), .exclusive)]
      [.insertContext (n.row none (uuid 0))] (.recordPrune n.serviceInstanceId)
  else abort .conflict

/-- `MAX_FLOW_ACCESS_CONTEXT_RECORDS_PER_SERVICE`. -/
def maxFlowAccessContextRecordsPerService : Nat := 100

/-- `ORDER BY issued_at DESC, context_id DESC`. -/
def newerContext (x y : FlowAccessContextRow) : Bool :=
  decide (x.issuedAt > y.issuedAt) ||
    (x.issuedAt == y.issuedAt && decide (x.contextId ≥ y.contextId))

/-- The contexts `prune_flow_access_context_history` deletes. -/
def Db.prunedContexts (service : Uuid) : List FlowAccessContextRow :=
  let history := (d.flowAccessContexts.filter (·.serviceInstanceId == service)).insertionSort
    fun x y => newerContext x y = true
  (history.drop maxFlowAccessContextRecordsPerService).filter fun x =>
    x.revokedAt != none || decide (x.expiresAt ≤ now)

def pruneFlowAccessContextHistory (d : Db) (service : Uuid) (next : Call) : Statement :=
  let contexts := d.prunedContexts now service
  .stmt (contexts.map fun x => (.context x.contextId, .exclusive))
    (contexts.map fun x => .deleteContext x.contextId) next

def mintFlowAccessContext (d : Db) (input : DeveloperCredentialMint) : Statement :=
  match d.presented now input.secret with
  | some (c, s) =>
    if s.state ≠ .ready then settle (.mint .serviceInstanceNotReady)
    else if input.permissions.all c.permissions.contains then
      .stmt [(.credential c.id, .exclusive)] [] (.mintRetention ⟨input, c, s.projectId⟩)
    else settle (.mint .permissionDenied)
  | none => settle (.mint .invalidCredential)

/-- `limit.clamp(1, MAX_FLOW_ACCESS_CONTEXT_LIST_SIZE)`. -/
def clampLimit (limit : Int) : Nat := (max 1 (min limit 100)).toNat

/-- `ORDER BY issued_at DESC, context_id DESC LIMIT`. -/
def newestContexts (contexts : List FlowAccessContextRow) (limit : Int) :
    List FlowAccessContextRow :=
  (contexts.insertionSort fun x y => newerContext x y = true).take (clampLimit limit)

def listFlowAccessContexts (organization service : Uuid) (limit : Int) : Statement :=
  .read (.done (.ok (.contexts (some (newestContexts (d.flowAccessContexts.filter fun x =>
    x.organizationId == organization && x.serviceInstanceId == service &&
      d.serviceInstances.any fun s => s.id == service && s.organizationId == organization &&
        s.provider == "flow") limit)))))

def listForDeveloperCredential (d : Db) (secret : Secret) (limit : Int) : Statement :=
  match d.presented now secret with
  | some (c, _) => .stmt [(.credential c.id, .exclusive)] [] (.listItems c limit)
  | none => settle (.contexts none)

def revokeContextWithDeveloperCredential (d : Db) (secret : Secret) (context : Uuid) : Statement :=
  match d.presented now secret with
  | some (c, s) => .stmt [(.credential c.id, .exclusive)] [] (.lockCredentialContext c s context)
  | none => settle (.contextRevoked none)

def lockCredentialContext (s : ServiceRow) (context : Uuid) : Statement :=
  match d.flowAccessContexts.find? fun x => x.contextId == context &&
      x.credentialId == some c.id && x.organizationId == c.organizationId &&
      x.serviceInstanceId == c.serviceInstanceId with
  | some x => .stmt [(.context x.contextId, .exclusive)] []
      (if x.revokedAt = none then
        .revokeContext ⟨x.contextId, c.organizationId, c.serviceInstanceId, s.projectId,
          s.generation, c.createdBy, x.expiresAt⟩ (some c.id)
      else .touchCredential c.id (.contextRevoked (some false)))
  | none => .stmt [] [] (.touchCredential c.id (.contextRevoked (some false)))

def revokeFlowAccessContext (organization service context principal : Uuid) : Statement :=
  match d.flowAccessContexts.find? fun x => x.contextId == context &&
      x.organizationId == organization && x.serviceInstanceId == service,
    d.flowService service with
  | some x, some s => .stmt [(.context x.contextId, .exclusive)] []
      (if x.revokedAt = none then
        .revokeContext ⟨x.contextId, organization, service, s.projectId, s.generation, principal,
          x.expiresAt⟩ none
      else .commit (.contextRevoked (some false)))
  | _, _ => .stmt [] [] (.commit (.contextRevoked (some false)))

/-- The statement at each point. -/
def exec (_clock now : Int) (uuid : Nat → Nat) (d : Db) : Call → Option Statement
  | .createFlowDeveloperCredential n limit => some (
    if unordered n.permissions then .read (.done (.failed .conflict))
    else .stmt [(.allocations n.organizationId, .exclusive)] [] (.credentialService n limit))
  | .credentialService n limit => some (credentialService d n limit)
  | .credentialCount n limit => some (credentialCount now d n limit)
  | .insertCredential n => some (insertCredential uuid d n)
  | .revokeFlowDeveloperCredential organization service credential principal =>
    some (revokeFlowDeveloperCredential d organization service credential principal)
  | .rotateFlowDeveloperCredential organization service credential secret principal =>
    some (rotateFlowDeveloperCredential now d organization service credential secret principal)
  | .mutateCredential k => some (mutateCredential now d k)
  | .cascadeContexts k => some (cascadeContexts now d k)
  | .cascadeUpdate k contexts => some (cascadeUpdate now d k contexts)
  | .cascadeEvents k count rest => some (cascadeEvents uuid k count rest)
  | .cascadeCommit k count => some (.commit (.done (.ok (k.success count))))
  | .recordFlowAccessContext n =>
    some (.stmt [(.retention n.serviceInstanceId, .exclusive)] [] (.recordInsert n))
  | .recordInsert n => some (recordInsert uuid d n)
  | .recordPrune service => some (pruneFlowAccessContextHistory now d service (.commit .recorded))
  | .mintFlowAccessContext input => some (mintFlowAccessContext now d input)
  | .mintRetention m =>
    some (.stmt [(.retention m.credential.serviceInstanceId, .exclusive)] [] (.mintInsert m))
  | .mintInsert m => some (.stmt
      [(.fresh (uuid 0), .exclusive), (.context (uuid 0), .exclusive)]
      [.insertContext (m.context (uuid 0))] (.mintPrune m))
  | .mintPrune m =>
    some (pruneFlowAccessContextHistory now d m.credential.serviceInstanceId (.mintTouch m))
  | .mintTouch m => some (.stmt [(.credential m.credential.id, .exclusive)]
      [.touchCredential m.credential.id now] (.mintCommit m))
  | .mintCommit m => some (.commit (.done (.ok (.mint (.issued m.credential.id
      m.credential.organizationId m.projectId m.credential.serviceInstanceId)))))
  | .listFlowAccessContexts organization service limit =>
    some (listFlowAccessContexts d organization service limit)
  | .listForDeveloperCredential secret limit =>
    some (listForDeveloperCredential now d secret limit)
  | .listItems c limit => some (.stmt [] [] (.touchCredential c.id (.contexts (some (newestContexts
      (d.flowAccessContexts.filter (·.credentialId == some c.id)) limit)))))
  | .revokeContextWithDeveloperCredential secret context =>
    some (revokeContextWithDeveloperCredential now d secret context)
  | .lockCredentialContext c s context => some (lockCredentialContext d c s context)
  | .revokeFlowAccessContext organization service context principal =>
    some (revokeFlowAccessContext d organization service context principal)
  | .revokeContext v credential => some (.stmt [(.context v.contextId, .exclusive)]
      [.revokeContext v.contextId now] (.revokeEvent v credential))
  | .revokeEvent v credential => some (.stmt [] [.insertEvent (v.event (uuid 0))]
      (match credential with
      | some c => .touchCredential c (.contextRevoked (some true))
      | none => .commit (.contextRevoked (some true))))
  | .touchCredential c success => some (.stmt [(.credential c, .exclusive)]
      [.touchCredential c now] (.commit success))
  | .setService s => some (.stmt [(.service s.id, .exclusive)] [.setService s] (.commit .changed))
  | .commit success => some (.commit (.done (.ok success)))
  | .done _ => none

/-- Any statement may fail. -/
def fail : Call → Option Call
  | .done _ => none
  | _ => some (.done (.failed (.sql false)))

def Call.isStart : Call → Bool
  | .createFlowDeveloperCredential _ _ | .revokeFlowDeveloperCredential _ _ _ _ |
    .rotateFlowDeveloperCredential _ _ _ _ _ | .recordFlowAccessContext _ |
    .mintFlowAccessContext _ | .listFlowAccessContexts _ _ _ | .listForDeveloperCredential _ _ |
    .revokeContextWithDeveloperCredential _ _ | .revokeFlowAccessContext _ _ _ _ |
    .setService _ => true
  | _ => false

/-- **The program.** -/
def program : Program Db Key Write Call where
  apply := Write.apply
  exec := exec
  fail := fail
  start c := c.isStart = true
  width := 1

instance : DecidablePred program.start :=
  fun c => inferInstanceAs (Decidable (c.isStart = true))

abbrev View := World Db Key Write Call

end HeteroCloud.FlowAccess
