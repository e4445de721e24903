/-
  File:      Api/Authorize.lean
  Subject:   AUTHORIZATION OF A REQUEST (crates/heterocloud-api/src/routes.rs,
             flash_operations.rs): the five kinds of actors, the evaluation of an account's
             permissions, the audit event, and the check of background work.

  `authorize_actor` reads its context in several statements; here they read one state. The
  generated id of the audit event is left out.
-/
import HeteroCloud.Store.Authorization

namespace HeteroCloud.Api

open Base Iam Store

/-- `ApiError`, the variants of the modelled routes. -/
inductive ApiError where
  | badRequest (message : String)
  | conflict
  | flashProviderUnavailable
  | forbidden
  | internal
  | notFound
  | secretManagerUnavailable
  | serviceControlUnavailable
  deriving DecidableEq, Repr

/-- `ApiError::from_store`. -/
def ApiError.fromStore : StoreError → ApiError
  | .alreadyExists => .conflict
  | .conflict => .conflict
  | .notFound => .notFound
  | .requestRejected message => .badRequest message
  | .invariant _ => .internal
  | .json => .internal
  | .sql true => .conflict
  | .sql false => .internal

/-! ## 1. Actors -/

/-- A browser session: its user and the digest of its cookie. -/
structure AuthenticatedSession where
  userId : Uuid
  tokenHash : Nat
  deriving DecidableEq, Repr

structure WorkloadTokenPrincipal where
  tokenId : Uuid
  organizationId : Uuid
  serviceInstanceId : Uuid
  principalId : Uuid
  podUid : Uuid
  deriving DecidableEq, Repr

structure CliAccessTokenPrincipal where
  tokenId : Uuid
  organizationId : Uuid
  userId : Uuid
  deriving DecidableEq, Repr

inductive AuthenticatedActor where
  | user (session : AuthenticatedSession)
  | workload (identity : WorkloadTokenPrincipal)
  | cliToken (token : CliAccessTokenPrincipal)
  | roleSession (session : IamRoleSession) (browser : Option AuthenticatedSession)
  | apiKey (organizationId principalId apiKeyId : Uuid)
  deriving DecidableEq, Repr

/-- The organization an actor is bound to; a user's browser session is bound to none. -/
def AuthenticatedActor.boundOrganization : AuthenticatedActor → Option Uuid
  | .user _ => none
  | .workload identity => some identity.organizationId
  | .cliToken token => some token.organizationId
  | .roleSession session _ => some session.organizationId
  | .apiKey organizationId _ _ => some organizationId

/-! ## 2. Permissions of an account -/

section Evaluate
variable (lib : ThirdParty) (db : Db)
variable (context : AuthorizationContext)

/-- The identity layer: policies, administrator, and the implicit allow of self service. -/
def identityEvaluation (request : AuthorizationRequest) (implicitAllow : Bool) : Except IamError
    Evaluation := do
  let identity ← authorizeWithAdministrator lib request context.policies
    (implicitAllow || context.role.isAdministrator)
  if implicitAllow && !context.role.isAdministrator && identity.reason == .administratorAllow then
    return { identity with reason := .selfServiceAllow }
  return identity

/-- Any failure of an evaluation is reported as an internal error. -/
def internal {α : Type} : Except IamError α → Except ApiError α :=
  Except.mapError fun _ => .internal

def accountRequest (organizationId : Uuid) (action resource : String) (evaluatedAt : Int) :
    AuthorizationRequest :=
  { principalOrganizationId := organizationId, resourceOrganizationId := organizationId,
    action, resource, evaluatedAt }

def evaluateAccountPermissions (organizationId : Uuid) (action resource : String) (implicitAllow :
    Bool) (evaluatedAt : Int) : Except ApiError Evaluation := do
  let request := accountRequest organizationId action resource evaluatedAt
  let identity ← internal (identityEvaluation lib context request implicitAllow)
  let identity ← internal
    (enforcePermissionsBoundary lib request identity context.permissionsBoundary)
  let levels ← (db.serviceControlLevels organizationId).mapError ApiError.fromStore
  internal (enforceServiceControlPolicies lib request identity levels)

/-! ## 3. `authorize_actor` -/

structure AuditEvent where
  organizationId : Uuid
  principalId : Uuid
  userId : Option Uuid
  action : String
  resource : String
  decision : Decision
  reason : Reason
  metadata : Json
  deriving DecidableEq, Repr

/-- `.map_err(ApiError::from_store)?.ok_or(ApiError::Forbidden)?`. -/
def required {α : Type} : Except StoreError (Option α) → Except ApiError α
  | .ok (some a) => .ok a
  | .ok none => .error .forbidden
  | .error e => .error (.fromStore e)

variable (actor : AuthenticatedActor)

/-- The context of an actor in an organization; an actor bound to another one has none. -/
def actorContext (organizationId : Uuid) : Except ApiError AuthorizationContext :=
  match actor with
  | .user session => required (db.authorizationContext session.userId organizationId)
  | .roleSession session _ =>
      if session.organizationId ≠ organizationId then .error .forbidden
      else required (db.authorizationContextForPrincipal session.principalId organizationId)
  | .cliToken token =>
      if token.organizationId ≠ organizationId then .error .forbidden
      else required (db.authorizationContext token.userId organizationId)
  | .workload identity =>
      if identity.organizationId ≠ organizationId then .error .forbidden
      else required (db.authorizationContextForPrincipal identity.principalId organizationId)
  | .apiKey keyOrganizationId principalId _ =>
      if keyOrganizationId ≠ organizationId then .error .forbidden
      else required (db.authorizationContextForPrincipal principalId organizationId)

/-- The user an audit event names. -/
def AuthenticatedActor.auditUser : AuthenticatedActor → Option Uuid
  | .user session => some session.userId
  | .roleSession session browser => (browser.map (·.userId)).or session.identityCenterUserId
  | .cliToken token => some token.userId
  | .workload _ => none
  | .apiKey _ _ _ => none

/-- The `authentication` of an audit event. -/
def AuthenticatedActor.metadata : Json :=
  match actor with
  | .user _ => .object [("actor", .string "user")]
  | .roleSession session _ => .object [("actor", .string "role_session"),
      ("session_id", .string (lib.uuidText session.id)),
      ("source_arn", .string session.sourceArn)]
  | .cliToken token => .object [("actor", .string "cli_oauth_token"),
      ("token_id", .string (lib.uuidText token.tokenId))]
  | .workload identity => .object [("actor", .string "workload"),
      ("pod_uid", .string (lib.uuidText identity.podUid)),
      ("service_instance_id", .string (lib.uuidText identity.serviceInstanceId)),
      ("token_id", .string (lib.uuidText identity.tokenId))]
  | .apiKey _ _ apiKeyId => .object [("actor", .string "api_key"),
      ("api_key_id", .string (lib.uuidText apiKeyId))]

/-- Only a role session carries a session policy. -/
def AuthenticatedActor.sessionPolicy : AuthenticatedActor → Option PolicyDocument
  | .roleSession session _ => session.sessionPolicy
  | _ => none

/-- The context and the evaluation that `authorize_actor` audits, or the error before it. -/
def evaluateActor (organizationId : Uuid) (action resource : String) (implicitAllow : Bool)
    (evaluatedAt : Int) : Except ApiError (AuthorizationContext × Evaluation) := do
  let context ← actorContext db actor organizationId
  let evaluation ← evaluateAccountPermissions lib db context organizationId action resource
    implicitAllow evaluatedAt
  let evaluation ← internal (enforceSessionPolicy lib
    (accountRequest organizationId action resource evaluatedAt) evaluation actor.sessionPolicy)
  return (context, evaluation)

/-- **`authorize_actor_with_implicit_allow`**: its answer, and the audit event it appends. -/
def authorizeActorWithImplicitAllow (organizationId : Uuid) (action resource : String)
    (implicitAllow : Bool) (evaluatedAt : Int) : Except ApiError AuthorizationContext × Option
    AuditEvent :=
  match evaluateActor lib db actor organizationId action resource implicitAllow evaluatedAt with
  | .error e => (.error e, none)
  | .ok (context, evaluation) =>
      let event : AuditEvent :=
        { organizationId, principalId := context.principalId, userId := actor.auditUser,
          action, resource, decision := evaluation.decision, reason := evaluation.reason,
          metadata := .object [("authentication", actor.metadata lib),
            ("semantics_digest", .string lib.semanticsDigest)] }
      (if evaluation.decision = .deny then .error .forbidden else .ok context, some event)

def authorizeActor (organizationId : Uuid) (action resource : String) (evaluatedAt : Int) : Except
    ApiError AuthorizationContext × Option AuditEvent :=
  authorizeActorWithImplicitAllow lib db actor organizationId action resource false evaluatedAt

/-! ## 4. Background work -/

variable (principal organizationId : Uuid)

/-- The context of `allowed`: the membership's when the principal has an active user. -/
def backgroundContext : Except StoreError (Option AuthorizationContext) :=
  match db.principalUserId principal with
  | some user => db.authorizationContext user organizationId
  | none => db.authorizationContextForPrincipal principal organizationId

/-- `flash_operations::allowed`. -/
def allowed (action resource : String) (evaluatedAt : Int) : Bool :=
  if db.isIamRolePrincipal organizationId principal then false
  else match db.authorizationContextForPrincipal principal organizationId with
    | .ok (some _) =>
        match backgroundContext db principal organizationId with
        | .ok (some context) =>
            match evaluateAccountPermissions lib db context organizationId action resource false
                evaluatedAt with
            | .ok evaluation => evaluation.decision == .allow
            | .error _ => false
        | _ => false
    | _ => false

end Evaluate
end HeteroCloud.Api
