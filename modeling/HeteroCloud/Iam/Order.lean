/-
  File:      Iam/Order.lean
  Subject:   ORDER AND REPETITION of policies: an evaluation is the same, whatever the order of the
             policies, of their statements, of the levels and of the policies in a level, and
             however often each is given.

  The loops return early and the reason is rewritten from layer to layer. But on valid documents
  each layer is a function of which statements it has (`Says`), and the loop over the levels of two
  facts: some level denies, some level does not allow (`enforceLevels_facts`).
-/
import HeteroCloud.Iam.Evaluation

namespace HeteroCloud.Iam

open List

/-! ## 1. The same, but for order and repetition -/

/-- The lists have the same elements, up to `R`. -/
structure SameUpTo {α : Type} (R : α → α → Prop) (xs ys : List α) : Prop where
  left : ∀ x ∈ xs, ∃ y ∈ ys, R x y
  right : ∀ y ∈ ys, ∃ x ∈ xs, R x y

/-- Two documents with the same statements. -/
def PolicyDocument.SameStatements (d d' : PolicyDocument) : Prop :=
  SameUpTo Eq d.statements d'.statements

/-- Two lists of the same documents. -/
def SamePolicies (ds ds' : List PolicyDocument) : Prop :=
  SameUpTo PolicyDocument.SameStatements ds ds'

section Same
variable {α : Type} {R : α → α → Prop} {xs ys : List α}

/-- A rearranged list, with repetitions or without. -/
theorem SameUpTo.of_mem (hR : ∀ x, R x x) (h : ∀ x, x ∈ xs ↔ x ∈ ys) : SameUpTo R xs ys :=
  ⟨fun x hx => ⟨x, (h x).mp hx, hR x⟩, fun y hy => ⟨y, (h y).mpr hy, hR y⟩⟩

theorem PolicyDocument.SameStatements.refl (d : PolicyDocument) : d.SameStatements d :=
  .of_mem (fun _ => rfl) fun _ => Iff.rfl

theorem SamePolicies.single {d d' : PolicyDocument} (h : d.SameStatements d') :
    SamePolicies [d] [d'] := by
  refine ⟨fun x hx => ⟨d', mem_singleton_self _, ?_⟩,
    fun y hy => ⟨d, mem_singleton_self _, ?_⟩⟩
  · rw [mem_singleton.mp hx]
    exact h
  · rw [mem_singleton.mp hy]
    exact h

/-- What holds of some element. -/
theorem SameUpTo.exists_iff (h : SameUpTo R xs ys) {P : α → Prop} (hP : ∀ x y, R x y → (P x ↔ P y)) :
    (∃ x ∈ xs, P x) ↔ ∃ y ∈ ys, P y := by
  constructor
  · rintro ⟨x, hx, hp⟩
    obtain ⟨y, hy, hR⟩ := h.left x hx
    exact ⟨y, hy, (hP x y hR).mp hp⟩
  · rintro ⟨y, hy, hp⟩
    obtain ⟨x, hx, hR⟩ := h.right y hy
    exact ⟨x, hx, (hP x y hR).mpr hp⟩

end Same

section Order
variable {lib : ThirdParty} (request : AuthorizationRequest)
variable {ds ds' : List PolicyDocument}

/-- Rearranged documents say the same. -/
theorem says_same (h : SamePolicies ds ds') (effect : PolicyEffect) : Says lib request effect ds ↔
    Says lib request effect ds' := by
  refine h.exists_iff fun d d' hd => hd.exists_iff ?_
  rintro s _ rfl
  exact Iff.rfl

/-! ## 2. The layers -/

theorem authorize_same_policies (h : SamePolicies ds ds') (hv : ∀ d ∈ ds, d.validate lib = .ok ())
    (hv' : ∀ d ∈ ds', d.validate lib = .ok ()) : authorize lib request ds = authorize lib request
    ds' := by
  rw [authorize_valid ds hv, authorize_valid ds' hv']
  simp only [says_same request h]

variable (identity : Evaluation)
variable (hs : request.principalOrganizationId = request.resourceOrganizationId)
include hs

/-- **The loop over the levels**, as a function of two facts about them. -/
theorem enforceLevels_facts (identity : Evaluation) (levels : List (List PolicyDocument)) (hv : ∀ ds
    ∈ levels, ∀ d ∈ ds, d.validate lib = .ok ()) (noAllow : Bool) : enforceLevels lib request
    identity levels noAllow = .ok (if ∃ ds ∈ levels, Says lib request .deny ds then ⟨.deny,
    identity.applicableAllow, true, .scpExplicitDeny⟩ else if noAllow = true ∨ ∃ ds ∈ levels, ¬ Says
    lib request .allow ds then ⟨.deny, identity.applicableAllow, false, .scpNoAllow⟩ else
    identity) := by
  induction levels generalizing noAllow with
  | nil =>
    simp only [enforceLevels, not_mem_nil, false_and, exists_false, if_false, or_false]
    split_ifs <;> rfl
  | cons ds levels ih =>
    have hrest := ih fun es hes => hv es (mem_cons_of_mem ds hes)
    unfold enforceLevels
    rw [authorize_same hs ds (hv ds mem_cons_self)]
    by_cases hd : Says lib request .deny ds
    · have hsome : ∃ es ∈ ds :: levels, Says lib request .deny es := ⟨ds, mem_cons_self, hd⟩
      rw [if_pos hsome]
      exact if_pos (by simp [hd])
    -- this level does not deny, so the rest decides
    have hdeny : (∃ es ∈ ds :: levels, Says lib request .deny es) ↔
        ∃ es ∈ levels, Says lib request .deny es := by
      simp [hd]
    have hflag (b : Bool) : (b = true ∨ ∃ es ∈ ds :: levels, ¬ Says lib request .allow es) ↔
        ((b || !decide (Says lib request .allow ds)) = true ∨
          ∃ es ∈ levels, ¬ Says lib request .allow es) := by
      simp [or_assoc]
    have hdecision : ((summary (decide (Says lib request .allow ds))
        (decide (Says lib request .deny ds))).decision == .deny) =
          !decide (Says lib request .allow ds) := by
      cases ha : decide (Says lib request .allow ds) <;>
        simp [summary, Decision.decide, hd]
    refine (if_neg (by simp [hd])).trans ?_
    rw [hrest, hdecision]
    simp only [hdeny, hflag]

theorem enforceServiceControlPolicies_same (identity : Evaluation) {levels levels' : List (List
    PolicyDocument)} (h : SameUpTo SamePolicies levels levels') (hv : ∀ ds ∈ levels, ∀ d ∈ ds,
    d.validate lib = .ok ()) (hv' : ∀ ds ∈ levels', ∀ d ∈ ds, d.validate lib = .ok ()) :
    enforceServiceControlPolicies lib request identity levels = enforceServiceControlPolicies lib
    request identity levels' := by
  unfold enforceServiceControlPolicies
  rw [enforceLevels_facts request hs identity levels hv,
    enforceLevels_facts request hs identity levels' hv']
  have hdeny : (∃ ds ∈ levels, Says lib request .deny ds) ↔
      ∃ ds ∈ levels', Says lib request .deny ds :=
    h.exists_iff fun ds ds' hds => says_same request hds .deny
  have hallow : (∃ ds ∈ levels, ¬ Says lib request .allow ds) ↔
      ∃ ds ∈ levels', ¬ Says lib request .allow ds :=
    h.exists_iff fun ds ds' hds => not_congr (says_same request hds .allow)
  simp only [hdeny, hallow]

omit hs

/-- Two boundaries, or two session policies, with the same statements. -/
def SameLimit (limit limit' : Option PolicyDocument) : Prop :=
  Option.Rel PolicyDocument.SameStatements limit limit'

variable {limit limit' : Option PolicyDocument}

theorem enforcePermissionsBoundary_same (h : SameLimit limit limit') (hv : ∀ d, limit = some d →
    d.validate lib = .ok ()) (hv' : ∀ d, limit' = some d → d.validate lib = .ok ()) :
    enforcePermissionsBoundary lib request identity limit = enforcePermissionsBoundary lib request
    identity limit' := by
  cases h with
  | none => rfl
  | @some d d' hd =>
    have hauthorize : authorize lib request [d] = authorize lib request [d'] := by
      refine authorize_same_policies request (.single hd) ?_ ?_
      · intro e he
        rw [mem_singleton.mp he]
        exact hv d rfl
      · intro e he
        rw [mem_singleton.mp he]
        exact hv' d' rfl
    simp only [enforcePermissionsBoundary, hauthorize]

/-- The identity layer of the chain. -/
theorem authorizeWithAdministrator_same (h : SamePolicies ds ds') (hv : ∀ d ∈ ds, d.validate lib =
    .ok ()) (hv' : ∀ d ∈ ds', d.validate lib = .ok ()) (administrator : Bool) :
    authorizeWithAdministrator lib request ds administrator = authorizeWithAdministrator lib request
    ds' administrator := by
  unfold authorizeWithAdministrator
  rw [authorize_same_policies request h hv hv']

theorem enforceSessionPolicy_same (h : SameLimit limit limit') (hv : ∀ d, limit = some d →
    d.validate lib = .ok ()) (hv' : ∀ d, limit' = some d → d.validate lib = .ok ()) :
    enforceSessionPolicy lib request identity limit = enforceSessionPolicy lib request identity
    limit' := by
  unfold enforceSessionPolicy
  rw [enforcePermissionsBoundary_same request identity h hv hv']

end Order

/-! ## 3. The chain -/

/-- **Order and repetition do not matter.** On valid policies the chain gives one evaluation, with
its decision, its two flags and its reason, for all arrangements of the same identity policies, the
same statements in each document, the same levels and the same documents in each level. -/
theorem permissionChain_same (lib : ThirdParty) (request : AuthorizationRequest)
    (policies policies' : List (ValidPolicy lib)) (administrator : Bool)
    (boundary boundary' : Option (ValidPolicy lib)) (levels levels' : List (List (ValidPolicy lib)))
    (sessionPolicy sessionPolicy' : Option (ValidPolicy lib))
    (hpolicies : SamePolicies (ValidPolicy.documents policies) (ValidPolicy.documents policies'))
    (hboundary : SameLimit (boundary.map ValidPolicy.document) (boundary'.map ValidPolicy.document))
    (hlevels : SameUpTo SamePolicies (levels.map ValidPolicy.documents)
      (levels'.map ValidPolicy.documents))
    (hsession : SameLimit (sessionPolicy.map ValidPolicy.document)
      (sessionPolicy'.map ValidPolicy.document)) :
    ∃ evaluation,
      permissionChain lib request (ValidPolicy.documents policies) administrator
        (boundary.map ValidPolicy.document) (levels.map ValidPolicy.documents)
        (sessionPolicy.map ValidPolicy.document) = .ok evaluation ∧
      permissionChain lib request (ValidPolicy.documents policies') administrator
        (boundary'.map ValidPolicy.document) (levels'.map ValidPolicy.documents)
        (sessionPolicy'.map ValidPolicy.document) = .ok evaluation := by
  obtain ⟨evaluation, hchain, _⟩ := permissionChain_allow_iff lib request policies administrator
    boundary levels sessionPolicy
  refine ⟨evaluation, hchain, ?_⟩
  rw [← hchain]
  have hvalid {ls : List (List (ValidPolicy lib))} :
      ∀ ds ∈ ls.map ValidPolicy.documents, ∀ d ∈ ds, d.validate lib = .ok () := by
    intro ds hds d hd
    obtain ⟨level, _, rfl⟩ := mem_map.mp hds
    exact ValidPolicy.validate_of_mem hd
  have hidentity := authorizeWithAdministrator_same request hpolicies
    (fun _ => ValidPolicy.validate_of_mem) (fun _ => ValidPolicy.validate_of_mem) administrator
  obtain ⟨ev, hev, hallow⟩ := authorizeWithAdministrator_valid request
    (ValidPolicy.documents policies) (fun _ => ValidPolicy.validate_of_mem) administrator
  unfold permissionChain
  rw [← hidentity, hev]
  by_cases hs : request.principalOrganizationId = request.resourceOrganizationId
  · have hlimit (identity : Evaluation) := enforcePermissionsBoundary_same request
      identity hboundary (fun _ => ValidPolicy.validate_of_some)
      (fun _ => ValidPolicy.validate_of_some)
    have hcontrol (identity : Evaluation) := enforceServiceControlPolicies_same request
      hs identity hlevels hvalid hvalid
    have hsession' (identity : Evaluation) := enforceSessionPolicy_same request
      identity hsession (fun _ => ValidPolicy.validate_of_some)
      (fun _ => ValidPolicy.validate_of_some)
    simp only [hlimit, hcontrol, hsession']
  · -- a request across organizations is denied before any of the layers that limit
    have hdeny : ev.decision = .deny :=
      (Decision.ne_allow _).mp fun e => hs (hallow.mp e).sameOrganization
    have hpass (limit limit' : Option PolicyDocument) (ls : List (List PolicyDocument)) :
        (do
          let identity ← enforcePermissionsBoundary lib request ev limit
          let identity ← enforceServiceControlPolicies lib request identity ls
          enforceSessionPolicy lib request identity limit') = .ok ev := by
      obtain ⟨h₁, h₂, h₃⟩ := layers_deny lib request ev hdeny limit ls limit'
      rw [h₁]
      show (enforceServiceControlPolicies lib request ev ls >>= _) = _
      rw [h₂]
      exact h₃
    exact (hpass _ _ _).trans (hpass _ _ _).symm

/-- Everything is allowed, and one action is denied. -/
def allActions : ValidPolicy noLibrary where
  document := fullAccess
  valid := by decide

def noDeletion : ValidPolicy noLibrary where
  document := ⟨policyVersion,
    [{ effect := .deny, actions := ["project:delete"], resources := ["*"] }]⟩
  valid := by decide

theorem permissionChain_same_swapped : ∃ evaluation,
    permissionChain noLibrary ⟨1, 1, "project:delete", "hc:org:1:project/2", 0⟩
      (ValidPolicy.documents [allActions, noDeletion]) false none [] none = .ok evaluation ∧
    permissionChain noLibrary ⟨1, 1, "project:delete", "hc:org:1:project/2", 0⟩
      (ValidPolicy.documents [noDeletion, allActions, noDeletion]) false none [] none =
        .ok evaluation := by
  refine permissionChain_same noLibrary _ [allActions, noDeletion]
    [noDeletion, allActions, noDeletion] false none none [] [] none none ?_ .none ?_ .none
  · refine .of_mem PolicyDocument.SameStatements.refl fun d => ?_
    simp only [ValidPolicy.documents, map_cons, map_nil, mem_cons, not_mem_nil]
    tauto
  · exact ⟨by simp, by simp⟩

end HeteroCloud.Iam
