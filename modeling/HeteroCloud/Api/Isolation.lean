/-
  File:      Api/Isolation.lean
  Subject:   TENANT ISOLATION of authorization: the answer for an account, and what is audited,
             depend on the rows of that account and of its cloud organization only.
-/
import HeteroCloud.Api.Authorize
import HeteroCloud.Store.Isolation

namespace HeteroCloud.Api

open Base Iam Store

section Isolation
variable {lib : ThirdParty} {a : Uuid} {db db' : Database}

theorem internal_eq {α : Type} {x y : Except IamError α} (h : x.toOption = y.toOption) :
    internal x = internal y := by
  cases x <;> cases y <;> first | rfl | cases h
  rfl

variable (h : SameAccount a db.toDb db'.toDb)
include h

theorem actorContext_eq (actor : AuthenticatedActor) : actorContext db.toDb actor a = actorContext
    db'.toDb actor a := by
  unfold actorContext
  simp only [authorizationContext_eq h, authorizationContextForPrincipal_eq h]

/-- The levels come in the same order, the documents inside a level in any. -/
theorem evaluateAccountPermissions_eq (context : AuthorizationContext) (action resource : String)
    (implicitAllow : Bool) (evaluatedAt : Int) : evaluateAccountPermissions lib db.toDb context a
    action resource implicitAllow evaluatedAt = evaluateAccountPermissions lib db'.toDb context a
    action resource implicitAllow evaluatedAt := by
  have hl (request : AuthorizationRequest) (identity : Evaluation) :
      ((db.serviceControlLevels a).mapError ApiError.fromStore >>= fun levels =>
        internal (enforceServiceControlPolicies lib request identity levels)) =
      ((db'.serviceControlLevels a).mapError ApiError.fromStore >>= fun levels =>
        internal (enforceServiceControlPolicies lib request identity levels)) := by
    have hs := serviceControlLevels_same h
    generalize db.serviceControlLevels a = x, db'.serviceControlLevels a = y at hs
    cases hs with
    | error => rfl
    | ok hl => exact internal_eq (enforceServiceControlPolicies_congr identity hl)
  unfold evaluateAccountPermissions
  simp only [hl]

theorem evaluateActor_eq (actor : AuthenticatedActor) (action resource : String) (implicitAllow :
    Bool) (evaluatedAt : Int) : evaluateActor lib db.toDb actor a action resource implicitAllow
    evaluatedAt = evaluateActor lib db'.toDb actor a action resource implicitAllow evaluatedAt := by
  unfold evaluateActor
  simp only [actorContext_eq h, evaluateAccountPermissions_eq h]

omit h

/-- An actor bound to another organization has no context. -/
theorem actorContext_bound (db : Db) (actor : AuthenticatedActor) {b : Uuid}
    (hb : actor.boundOrganization = some b) (hne : b ≠ a) :
    actorContext db actor a = .error .forbidden := by
  cases actor with
  | user => cases hb
  | workload | cliToken | roleSession | apiKey => cases hb; exact if_pos hne

/-- **Tenant isolation.** In two states that satisfy the schema and hold the same rows of account
`a` and its cloud organization, every request of every actor for `a` gets the same answer and the
same audited decision and reason; and an actor bound to another organization is refused, with no
decision audited. -/
theorem authorizeActor_isolated (lib : ThirdParty) (a : Uuid) :
    (∀ db db' : Database, SameAccount a db.toDb db'.toDb →
      ∀ (actor : AuthenticatedActor) (action resource : String) (evaluatedAt : Int),
        authorizeActor lib db.toDb actor a action resource evaluatedAt =
          authorizeActor lib db'.toDb actor a action resource evaluatedAt) ∧
    (∀ (db : Database) (actor : AuthenticatedActor) (b : Uuid),
      actor.boundOrganization = some b → b ≠ a →
      ∀ (action resource : String) (evaluatedAt : Int),
        authorizeActor lib db.toDb actor a action resource evaluatedAt =
          (.error .forbidden, none)) := by
  constructor
  · intro db db' h actor action resource evaluatedAt
    unfold authorizeActor authorizeActorWithImplicitAllow
    rw [evaluateActor_eq h]
  · intro db actor b hb hne action resource evaluatedAt
    unfold authorizeActor authorizeActorWithImplicitAllow evaluateActor
    rw [actorContext_bound db.toDb actor hb hne]
    rfl

end Isolation

/-- Account 1, owned by user 10, below the management account 2. -/
def memberAccount : Db where
  users := [⟨10, "owner", .active⟩]
  organizations := [⟨1, 100000000001⟩, ⟨2, 100000000002⟩]
  principals := [⟨20, 1, "owner", some 10, true, none⟩]
  organizationMemberships := [⟨1, 10, 20, .owner, 30⟩]
  cloudOrganizations := [⟨5, 2⟩]
  cloudOrganizationalUnits := [⟨6, 5, none⟩]
  cloudOrganizationAccounts := [⟨2, 5, 6⟩, ⟨1, 5, 6⟩]
  cloudSecurityActivation := { scpEnabled := true }

def memberAccountAlone : Database where
  toDb := memberAccount
  keys := by constructor <;> decide

/-- The same account next to a user and a principal of account 2. -/
def memberAccountWithNeighbour : Database where
  toDb := { memberAccount with
    users := [⟨11, "other", .suspended⟩, ⟨10, "owner", .active⟩]
    principals := [⟨21, 2, "other", some 11, false, none⟩, ⟨20, 1, "owner", some 10, true, none⟩] }
  keys := by constructor <;> decide

theorem memberAccount_same :
    SameAccount 1 memberAccountAlone.toDb memberAccountWithNeighbour.toDb where
  principals := fun p hp => by
    simp only [memberAccountAlone, memberAccountWithNeighbour, memberAccount, List.mem_cons]
    refine ⟨Or.inr, fun h => h.resolve_left fun e => ?_⟩
    rw [e] at hp
    exact absurd hp (by decide)
  memberships := fun _ _ => Iff.rfl
  memberUsers := fun m hm _ u hu => by
    simp only [memberAccountAlone, memberAccountWithNeighbour, memberAccount, List.mem_cons]
    have hmu : m.userId = 10 := by
      rcases List.mem_cons.mp hm with rfl | hm
      · rfl
      · cases hm
    refine ⟨Or.inr, fun h => h.resolve_left fun e => ?_⟩
    rw [e, hmu] at hu
    exact absurd hu (by decide)
  principalUsers := fun p hp _ i hi u hu => by
    simp only [memberAccountAlone, memberAccountWithNeighbour, memberAccount, List.mem_cons]
    have hpi : i = 10 := by
      rcases List.mem_cons.mp hp with rfl | hp
      · exact (Option.some.inj hi).symm
      · cases hp
    refine ⟨Or.inr, fun h => h.resolve_left fun e => ?_⟩
    rw [e, hpi] at hu
    exact absurd hu (by decide)
  policies := fun _ _ => Iff.rfl
  bindings := fun _ _ => Iff.rfl
  groupMembers := fun _ _ => Iff.rfl
  groupPolicyAttachments := fun _ _ => Iff.rfl
  account := fun _ _ => Iff.rfl
  cloudOrganization := fun _ _ _ => ⟨fun _ _ => Iff.rfl, fun _ _ => Iff.rfl, fun _ _ => Iff.rfl,
    fun _ _ => Iff.rfl, fun _ _ => Iff.rfl⟩
  scpEnabled := rfl

theorem authorizeActor_isolated_neighbour :
    SameAccount 1 memberAccountAlone.toDb memberAccountWithNeighbour.toDb ∧
    authorizeActor noLibrary memberAccountAlone.toDb (.user ⟨10, 0⟩) 1 "flash:List" "*" 0 =
      authorizeActor noLibrary memberAccountWithNeighbour.toDb (.user ⟨10, 0⟩) 1 "flash:List" "*"
        0 ∧
    authorizeActor noLibrary memberAccountAlone.toDb (.apiKey 2 21 40) 1 "flash:List" "*" 0 =
      (.error .forbidden, none) :=
  ⟨memberAccount_same,
    (authorizeActor_isolated noLibrary 1).1 _ _ memberAccount_same _ _ _ _,
    (authorizeActor_isolated noLibrary 1).2 memberAccountAlone _ 2 rfl (by decide) _ _ _⟩

end HeteroCloud.Api
