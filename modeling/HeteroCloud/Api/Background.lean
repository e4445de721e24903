/-
  File:      Api/Background.lean
  Subject:   BACKGROUND AUTHORITY is interactive authority: `flash_operations::allowed` against
             `authorize_actor` for the same principal.

  The two paths resolve the principal differently: the background check goes from the principal
  to its user and back through the membership, the interactive one starts from the user's
  session, or from the API key. The schema's unique keys make them meet.
-/
import HeteroCloud.Api.Authorize

namespace HeteroCloud.Api

open Base Iam Store

section Background
variable {lib : ThirdParty}

/-! ## 1. Interactive decisions -/

theorem enforceSessionPolicy_none (lib : ThirdParty) (request : AuthorizationRequest) (identity : Evaluation) :
    ∃ ev, enforceSessionPolicy lib request identity none = .ok ev ∧
      ev.decision = identity.decision := by
  unfold enforceSessionPolicy
  by_cases hi : identity.decision = .deny
  · exact ⟨identity, if_pos hi, rfl⟩
  · rw [if_neg hi]
    exact ⟨_, rfl, rfl⟩

/-- The context allows the request in the account. -/
def ContextAllows (lib : ThirdParty) (db : Db) (organizationId : Uuid) (action resource : String)
    (evaluatedAt : Int) (context : AuthorizationContext) : Prop :=
  ∃ ev, evaluateAccountPermissions lib db context organizationId action resource false evaluatedAt
    = .ok ev ∧ ev.decision = .allow

/-- The audited decision of an interactive request. -/
def auditedDecision (answer : Except ApiError AuthorizationContext × Option AuditEvent) :
    Option Decision :=
  answer.2.map (·.decision)

/-- Without a session policy, the decision is that of the actor's context. -/
theorem authorizeActor_allow_iff (db : Db) (actor : AuthenticatedActor)
    (hs : actor.sessionPolicy = none) (organizationId : Uuid) (action resource : String)
    (evaluatedAt : Int) :
    auditedDecision (authorizeActor lib db actor organizationId action resource evaluatedAt)
        = some .allow ↔
      ∃ context, actorContext db actor organizationId = .ok context ∧
        ContextAllows lib db organizationId action resource evaluatedAt context := by
  unfold authorizeActor authorizeActorWithImplicitAllow evaluateActor ContextAllows
  rw [hs]
  cases hc : actorContext db actor organizationId with
  | error => exact iff_of_false (fun h => nomatch h) fun ⟨_, h, _⟩ => nomatch h
  | ok context =>
    cases he : evaluateAccountPermissions lib db context organizationId action resource false
        evaluatedAt with
    | error e =>
      refine iff_of_false ?_ fun ⟨_, h, ev, hev, _⟩ => ?_
      · simp [auditedDecision, he, bind, Except.bind]
      cases h
      rw [he] at hev
      cases hev
    | ok ev =>
      obtain ⟨ev', hev', hd⟩ := enforceSessionPolicy_none lib
        (accountRequest organizationId action resource evaluatedAt) ev
      simp [auditedDecision, he, hev', bind, Except.bind, internal, Except.mapError, pure,
        Except.pure, hd]

/-! ## 2. The principal -/

/-- A principal that may act in the background: enabled in the organization, not an IAM role, its
user (if any) active. -/
structure BackgroundPrincipal (db : Db) (principal organizationId : Uuid) (p : PrincipalRow) :
    Prop where
  mem : p ∈ db.principals
  id : p.id = principal
  organization : p.organizationId = organizationId
  enabled : p.enabled = true
  notRole : db.isIamRolePrincipal organizationId principal = false
  userActive : ∀ u, p.userId = some u → ∃ r ∈ db.users, r.id = u ∧ r.status = .active

/-- The same principal as an interactive actor: its user's session, or an API key of it. -/
def interactiveActor (p : PrincipalRow) (tokenHash : Nat) (apiKeyId : Uuid) : AuthenticatedActor :=
  match p.userId with
  | some userId => .user { userId, tokenHash }
  | none => .apiKey p.organizationId p.id apiKeyId

theorem activeUser_iff (db : Db) (u : Uuid) :
    db.activeUser u = true ↔ ∃ r ∈ db.users, r.id = u ∧ r.status = .active := by
  simp [Db.activeUser]

/-- The two principal conditions the background check tests. -/
theorem backgroundPrincipal_iff (db : Db) (principal organizationId : Uuid) :
    (∃ p, BackgroundPrincipal db principal organizationId p) ↔
      db.isIamRolePrincipal organizationId principal = false ∧
        db.activePrincipal principal organizationId = true := by
  unfold Db.activePrincipal
  rw [List.any_eq_true]
  constructor
  · rintro ⟨p, hp⟩
    refine ⟨hp.notRole, p, hp.mem, ?_⟩
    cases hu : p.userId with
    | none => simp [hp.id, hp.organization, hp.enabled]
    | some u => simp [hp.id, hp.organization, hp.enabled,
        (activeUser_iff db u).mpr (hp.userActive u hu)]
  · rintro ⟨hr, p, hm, hq⟩
    rw [Bool.and_eq_true, Bool.and_eq_true, Bool.and_eq_true, beq_iff_eq, beq_iff_eq] at hq
    obtain ⟨⟨⟨hid, horg⟩, hen⟩, hact⟩ := hq
    refine ⟨p, hm, hid, horg, hen, hr, fun u hu => ?_⟩
    rw [hu] at hact
    exact (activeUser_iff db u).mp hact

variable (db : Database)
variable {principal organizationId : Uuid} {p : PrincipalRow}
variable (hp : BackgroundPrincipal db.toDb principal organizationId p)
include hp

/-- The user the background check finds is the principal's own. -/
theorem principalUserId_eq : db.principalUserId principal = p.userId := by
  unfold Db.principalUserId
  have hid (q : PrincipalRow) (hq : q ∈ db.principals) (e : q.id = principal) : q = p :=
    db.keys.principals_pkey.eq hq hp.mem (e.trans hp.id.symm)
  cases hf : db.principals.find? fun p =>
      p.id == principal && p.enabled && p.userId.any db.activeUser with
  | some q =>
    have hq := List.find?_some hf
    rw [Bool.and_eq_true, Bool.and_eq_true, beq_iff_eq] at hq
    rw [hid q (List.mem_of_find?_eq_some hf) hq.1.1]
    rfl
  | none =>
    cases hu : p.userId with
    | none => rfl
    | some u =>
      refine absurd ?_ (List.find?_eq_none.mp hf p hp.mem)
      simp [hp.id, hp.enabled, hu, (activeUser_iff db.toDb u).mpr (hp.userActive u hu)]

/-- The membership behind a user's context is the principal's. -/
theorem membership_principal {u : Uuid} (hu : p.userId = some u) {m : MembershipRow} (hm :
    db.activeMembership u organizationId = some m) : m.principalId = principal := by
  have hq := List.find?_some hm
  rw [Bool.and_eq_true, Bool.and_eq_true, Bool.and_eq_true, beq_iff_eq, beq_iff_eq] at hq
  obtain ⟨⟨⟨hmu, hmo⟩, hany⟩, _⟩ := hq
  obtain ⟨q, hqm, hqq⟩ := List.any_eq_true.mp hany
  simp only [Bool.and_eq_true, beq_iff_eq] at hqq
  obtain ⟨⟨⟨hqi, hqo⟩, hqu⟩, _⟩ := hqq
  have he : q = p := by
    refine db.keys.principals_user q hqm p hp.mem ?_ ?_ (by rw [hqu]; simp)
    · rw [hqo, hmo, hp.organization]
    · rw [hqu, hmu, hu]
  rw [← hqi, he, hp.id]

/-- A context through the membership gives one for the bare principal. -/
theorem context_of_membership {u : Uuid} (hu : p.userId = some u) {context : AuthorizationContext}
    (hc : db.authorizationContext u organizationId = .ok (some context)) : ∃ c,
    db.authorizationContextForPrincipal principal organizationId = .ok (some c) := by
  have hact := ((backgroundPrincipal_iff db.toDb principal organizationId).mp ⟨p, hp⟩).2
  unfold Db.authorizationContext at hc
  cases hm : db.activeMembership u organizationId with
  | none => rw [hm] at hc; cases hc
  | some =>
    simp only [hm, membership_principal db hp hu hm] at hc
    unfold Db.authorizationContextForPrincipal
    rw [hact]
    cases hpol : db.principalPolicies organizationId principal with
    | error => rw [hpol] at hc; cases hc
    | ok =>
      rw [hpol] at hc
      cases hb : db.permissionsBoundary organizationId principal with
      | error => simp [hb, bind, Except.bind] at hc
      | ok => exact ⟨_, rfl⟩

omit hp

/-! ## 3. The two paths -/

theorem required_ok {α : Type} {x : Except StoreError (Option α)} {a : α} :
    required x = .ok a ↔ x = .ok (some a) := by
  cases x with
  | error => simp [required]
  | ok o => cases o <;> simp [required]

/-- The background check, as the contexts it asks for. -/
theorem allowed_iff_contexts (db : Db) (principal organizationId : Uuid)
    (action resource : String) (evaluatedAt : Int) :
    allowed lib db principal organizationId action resource evaluatedAt = true ↔
      db.isIamRolePrincipal organizationId principal = false ∧
      (∃ c, db.authorizationContextForPrincipal principal organizationId = .ok (some c)) ∧
      ∃ context, backgroundContext db principal organizationId = .ok (some context) ∧
        ContextAllows lib db organizationId action resource evaluatedAt context := by
  unfold allowed ContextAllows
  cases db.isIamRolePrincipal organizationId principal with
  | true => simp
  | false =>
    rcases db.authorizationContextForPrincipal principal organizationId with e | _ | c
    · simp
    · simp
    rcases backgroundContext db principal organizationId with e | _ | context
    · simp
    · simp
    · cases he : evaluateAccountPermissions lib db context organizationId action resource false
        evaluatedAt <;> simp [he]

include hp

/-- The background context is the context of the interactive actor. -/
theorem backgroundContext_eq (tokenHash : Nat) (apiKeyId : Uuid) : actorContext db.toDb
    (interactiveActor p tokenHash apiKeyId) organizationId = required (backgroundContext db.toDb
    principal organizationId) := by
  unfold backgroundContext interactiveActor
  rw [principalUserId_eq db hp]
  cases p.userId with
  | some => rfl
  | none => exact (if_neg fun h => h hp.organization).trans (by rw [hp.id])

omit hp

/-- **Background authority equals interactive authority.** The background check passes exactly when
the principal is enabled in the organization, is not an IAM role, its user (if any) is active, and
the interactive path decides Allow for it at the same time: for its user's session if it has a
user, otherwise for an API key of it. -/
theorem allowed_iff_interactive (lib : ThirdParty) (db : Database)
    (principal organizationId : Uuid) (action resource : String) (evaluatedAt : Int)
    (tokenHash : Nat) (apiKeyId : Uuid) :
    allowed lib db.toDb principal organizationId action resource evaluatedAt = true ↔
      ∃ p, BackgroundPrincipal db.toDb principal organizationId p ∧
        auditedDecision (authorizeActor lib db.toDb (interactiveActor p tokenHash apiKeyId)
          organizationId action resource evaluatedAt) = some .allow := by
  have hpolicy (p : PrincipalRow) :
      (interactiveActor p tokenHash apiKeyId).sessionPolicy = none := by
    unfold interactiveActor
    cases p.userId <;> rfl
  rw [allowed_iff_contexts]
  constructor
  · rintro ⟨hr, ⟨c, hc⟩, context, hctx, hall⟩
    have hact : db.activePrincipal principal organizationId = true := by
      by_contra h
      unfold Db.authorizationContextForPrincipal at hc
      rw [Bool.not_eq_true] at h
      rw [h] at hc
      cases hc
    obtain ⟨p, hp⟩ := (backgroundPrincipal_iff db.toDb principal organizationId).mpr ⟨hr, hact⟩
    refine ⟨p, hp, (authorizeActor_allow_iff db.toDb _ (hpolicy p) ..).mpr ⟨context, ?_, hall⟩⟩
    rw [backgroundContext_eq db hp, required_ok, hctx]
  · rintro ⟨p, hp, hdec⟩
    obtain ⟨context, hctx, hall⟩ := (authorizeActor_allow_iff db.toDb _ (hpolicy p) ..).mp hdec
    rw [backgroundContext_eq db hp, required_ok] at hctx
    refine ⟨hp.notRole, ?_, context, hctx, hall⟩
    unfold backgroundContext at hctx
    rw [principalUserId_eq db hp] at hctx
    cases hu : p.userId with
    | none => rw [hu] at hctx; exact ⟨context, hctx⟩
    | some => rw [hu] at hctx; exact context_of_membership db hp hu hctx

end Background
end HeteroCloud.Api
