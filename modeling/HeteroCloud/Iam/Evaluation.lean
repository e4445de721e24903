/-
  File:      Iam/Evaluation.lean
  Subject:   EVALUATION of a request (crates/heterocloud-iam/src/lib.rs): identity policies, the
             administrator's implicit policy, permissions boundary, service control policies,
             session policy.

  The matcher of patterns is a loop over two indices with one backtracking point. `patternLoop` runs
  it on fuel; `loopSteps` counts the steps it can still take, and the fuel `patternMatches` gives is
  more (Iam/Matching.lean). The five functions of evaluation hand a partial `Evaluation` from one to
  the next and read its reason.
-/
import HeteroCloud.Iam.Document

namespace HeteroCloud.Iam

/-- The first `while` loop. `none` is its `return false`; otherwise the value of `p` at its end. -/
def patternLoop (pattern value : List Char) :
    Nat → (p v : Nat) → (star : Option Nat) → (retry : Nat) → Option Nat
  | 0, _, _, _, _ => none
  | fuel + 1, p, v, star, retry =>
      match value[v]? with
      | none => some p
      | some c =>
          if pattern[p]? = some '?' ∨ pattern[p]? = some c then
            patternLoop pattern value fuel (p + 1) (v + 1) star retry
          else if pattern[p]? = some '*' then
            patternLoop pattern value fuel (p + 1) v (some p) v
          else match star with
            | some index => patternLoop pattern value fuel (index + 1) (retry + 1) star (retry + 1)
            | none => none

variable (pattern value : List Char)

/-- The fuel of one run. -/
def patternFuel : Nat :=
  (pattern.length + value.length) * (value.length + 1) + value.length + 1

/-- The matcher on characters: the loop, then the trailing `*`s. -/
def charsMatch : Bool :=
  match patternLoop pattern value (patternFuel pattern value) 0 0 none 0 with
  | some p => ((pattern.drop p).dropWhile (· == '*')).isEmpty
  | none => false

def patternMatches (pattern value : String) : Bool :=
  charsMatch pattern.toList value.toList

def actionPatternMatches (pattern value : String) : Bool :=
  charsMatch (asciiLowercase pattern) (asciiLowercase value)

/-! ## Fuel -/

section Fuel
variable {pattern value : List Char}

/-- What holds whenever the loop condition is tested. -/
structure LoopOk (pattern : List Char) (p v : Nat) (star : Option Nat) (retry : Nat) : Prop where
  retry_le : retry ≤ v
  star_lt : ∀ index, star = some index → index < p ∧ index < pattern.length

/-- Steps the loop can still take: each new star or retry pays for a scan of the value. -/
def loopSteps (pattern value : List Char) (v : Nat) (star : Option Nat) (retry : Nat) : Nat :=
  ((pattern.length - (star.elim 0 (· + 1))) + (value.length - retry)) * (value.length + 1)
    + (value.length - v)

variable {v retry : Nat} {star : Option Nat}

theorem loopSteps_star (value : List Char) {p : Nat} (h : LoopOk pattern p v star retry) (hp : p <
    pattern.length) : loopSteps pattern value v (some p) v < loopSteps pattern value v star
    retry := by
  obtain ⟨h1, h2⟩ := h
  have hs : star.elim 0 (· + 1) < p + 1 := by
    cases star with
    | none => exact Nat.succ_pos p
    | some index => exact Nat.succ_lt_succ (h2 index rfl).1
  unfold loopSteps
  have hlt : (pattern.length - (p + 1)) + (value.length - v)
      < (pattern.length - star.elim 0 (· + 1)) + (value.length - retry) := by omega
  have hm := Nat.mul_lt_mul_of_pos_right hlt (show 0 < value.length + 1 by omega)
  simp only [Option.elim_some]
  omega

theorem loopSteps_retry (pattern : List Char) (star : Option Nat) (h1 : retry ≤ v) (hv : v <
    value.length) : loopSteps pattern value (retry + 1) star (retry + 1) < loopSteps pattern value v
    star retry := by
  unfold loopSteps
  generalize pattern.length - star.elim 0 (· + 1) = a
  have hs : a + (value.length - retry) = (a + (value.length - (retry + 1))) + 1 := by omega
  rw [hs, Nat.add_mul _ 1, Nat.one_mul]
  omega

end Fuel

example : patternMatches "hcr:*:service/?" "hcr:a:b:service/1" = true := by decide
example : actionPatternMatches "STS:Assume*" "sts:AssumeRole" = true := by decide

end HeteroCloud.Iam

namespace HeteroCloud.Iam

open List

inductive Decision where
  | allow
  | deny
  deriving DecidableEq, Repr

/-- The `reason` of an evaluation. -/
inductive Reason where
  | crossOrganization
  | explicitDeny
  | explicitAllow
  | defaultDeny
  | administratorAllow
  | selfServiceAllow
  | scpExplicitDeny
  | scpNoAllow
  | permissionsBoundaryExplicitDeny
  | permissionsBoundaryNoAllow
  | sessionPolicyExplicitDeny
  | sessionPolicyNoAllow
  deriving DecidableEq, Repr

/-- The reason as the code writes it. -/
def Reason.text : Reason → String
  | .crossOrganization => "cross_organization"
  | .explicitDeny => "explicit_deny"
  | .explicitAllow => "explicit_allow"
  | .defaultDeny => "default_deny"
  | .administratorAllow => "administrator_allow"
  | .selfServiceAllow => "self_service_allow"
  | .scpExplicitDeny => "scp_explicit_deny"
  | .scpNoAllow => "scp_no_allow"
  | .permissionsBoundaryExplicitDeny => "permissions_boundary_explicit_deny"
  | .permissionsBoundaryNoAllow => "permissions_boundary_no_allow"
  | .sessionPolicyExplicitDeny => "session_policy_explicit_deny"
  | .sessionPolicyNoAllow => "session_policy_no_allow"

structure AuthorizationRequest where
  principalOrganizationId : Uuid
  resourceOrganizationId : Uuid
  action : String
  resource : String
  evaluatedAt : Int
  deriving DecidableEq, Repr

structure Evaluation where
  decision : Decision
  applicableAllow : Bool
  applicableDeny : Bool
  reason : Reason
  deriving DecidableEq, Repr

/-- `IamError` wraps the validation error. -/
inductive IamError where
  | invalidPolicy (error : DomainError)
  deriving DecidableEq, Repr

/-! ## 1. The functions -/

def Decision.decide (sameOrganization applicableAllow applicableDeny : Bool) : Decision :=
  if !sameOrganization || applicableDeny then .deny
  else if applicableAllow then .allow
  else .deny

section Functions
variable (lib : ThirdParty) (request : AuthorizationRequest)

/-- One value of a date condition. -/
def dateMatches (operator value : String) : Bool :=
  match parseIamConditionDate lib value with
  | none => false
  | some date =>
      match operator with
      | "DateEquals" | "DateNotEquals" => request.evaluatedAt == date
      | "DateLessThan" => decide (request.evaluatedAt < date)
      | "DateLessThanEquals" => decide (request.evaluatedAt ≤ date)
      | "DateGreaterThan" => decide (request.evaluatedAt > date)
      | "DateGreaterThanEquals" => decide (request.evaluatedAt ≥ date)
      | _ => false

variable (statement : PolicyStatement)

def conditionsMatch : Bool :=
  statement.conditions.all fun (operator, keys) =>
    keys.all fun (_, values) =>
      if operator == "DateNotEquals" then
        values.all fun value => !dateMatches lib request operator value
      else values.any (dateMatches lib request operator)

/-- The statement applies to the request: action, resource and conditions match. -/
def PolicyStatement.applies : Bool :=
  let actionMatches :=
    if statement.notActions.isEmpty then
      statement.actions.any (actionPatternMatches · request.action)
    else !statement.notActions.any (actionPatternMatches · request.action)
  let resourceMatches :=
    if statement.notResources.isEmpty then
      statement.resources.any (patternMatches · request.resource)
    else !statement.notResources.any (patternMatches · request.resource)
  actionMatches && resourceMatches && conditionsMatch lib request statement

/-- One round of the inner loop, on the flags `applicable_allow` and `applicable_deny`. -/
def applyStatement (flags : Bool × Bool) (statement : PolicyStatement) : Bool × Bool :=
  if !statement.applies lib request then flags
  else match statement.effect with
    | .allow => (true, flags.2)
    | .deny => (flags.1, true)

/-- The outer loop. -/
def applyPolicies : List PolicyDocument → Bool × Bool → Except IamError (Bool × Bool)
  | [], flags => .ok flags
  | policy :: policies, flags =>
      match policy.validate lib with
      | .error e => .error (.invalidPolicy e)
      | .ok () => applyPolicies policies (policy.statements.foldl (applyStatement lib request) flags)

variable (policies : List PolicyDocument)

def authorize : Except IamError Evaluation :=
  let sameOrganization := request.principalOrganizationId == request.resourceOrganizationId
  if !sameOrganization then .ok ⟨.deny, false, false, .crossOrganization⟩
  else do
    let (applicableAllow, applicableDeny) ← applyPolicies lib request policies (false, false)
    let decision := Decision.decide sameOrganization applicableAllow applicableDeny
    if applicableDeny then return ⟨decision, applicableAllow, applicableDeny, .explicitDeny⟩
    if applicableAllow then return ⟨decision, applicableAllow, applicableDeny, .explicitAllow⟩
    return ⟨decision, applicableAllow, applicableDeny, .defaultDeny⟩

variable (administrator : Bool)

def authorizeWithAdministrator : Except IamError Evaluation := do
  let evaluation ← authorize lib request policies
  if administrator && evaluation.reason == .defaultDeny then
    return { evaluation with
      decision := .allow, applicableAllow := true, reason := .administratorAllow }
  return evaluation

/-- The loop over the levels, with its flag `no_allow`. -/
def enforceLevels (identity : Evaluation) :
    List (List PolicyDocument) → Bool → Except IamError Evaluation
  | [], noAllow =>
      if noAllow then .ok ⟨.deny, identity.applicableAllow, false, .scpNoAllow⟩ else .ok identity
  | policies :: levels, noAllow => do
      let evaluation ← authorize lib request policies
      if evaluation.applicableDeny then
        return ⟨.deny, identity.applicableAllow, true, .scpExplicitDeny⟩
      enforceLevels identity levels (noAllow || evaluation.decision == .deny)

variable (identity : Evaluation)

def enforceServiceControlPolicies (levels : List (List PolicyDocument)) : Except IamError
    Evaluation :=
  if identity.decision = .deny then .ok identity
  else enforceLevels lib request identity levels false

variable (boundary : Option PolicyDocument)

def enforcePermissionsBoundary : Except IamError Evaluation :=
  match boundary with
  | none => .ok identity
  | some boundary =>
    if identity.decision = .deny then .ok identity
    else do
      let evaluation ← authorize lib request [boundary]
      if evaluation.decision = .deny then
        return ⟨.deny, identity.applicableAllow, evaluation.applicableDeny,
          if evaluation.applicableDeny then .permissionsBoundaryExplicitDeny
          else .permissionsBoundaryNoAllow⟩
      return identity

def enforceSessionPolicy (sessionPolicy : Option PolicyDocument) : Except IamError Evaluation :=
  if identity.decision = .deny then .ok identity
  else do
    let evaluation ← enforcePermissionsBoundary lib request identity sessionPolicy
    return { evaluation with
      reason := match evaluation.reason with
        | .permissionsBoundaryExplicitDeny => .sessionPolicyExplicitDeny
        | .permissionsBoundaryNoAllow => .sessionPolicyNoAllow
        | reason => reason }

/-- The four functions one after the other, in the order a request goes through them. -/
def permissionChain (levels : List (List PolicyDocument)) (sessionPolicy : Option PolicyDocument) :
    Except IamError Evaluation := do
  let identity ← authorizeWithAdministrator lib request policies administrator
  let identity ← enforcePermissionsBoundary lib request identity boundary
  let identity ← enforceServiceControlPolicies lib request identity levels
  enforceSessionPolicy lib request identity sessionPolicy

/-! ## 2. What the policies say -/

/-- Some statement of this effect applies to the request. -/
def Says (effect : PolicyEffect) (policies : List PolicyDocument) : Prop :=
  ∃ d ∈ policies, ∃ s ∈ d.statements, s.effect = effect ∧ s.applies lib request = true

instance (effect : PolicyEffect) (policies : List PolicyDocument) :
    Decidable (Says lib request effect policies) :=
  inferInstanceAs (Decidable (∃ d ∈ policies, ∃ s ∈ d.statements,
    s.effect = effect ∧ s.applies lib request = true))

/-- A layer of policies that limits: an applicable Allow and no applicable Deny. -/
structure Permits : Prop where
  allow : Says lib request .allow policies
  deny : ¬ Says lib request .deny policies

end Functions

/-! ## 3. `authorize` on valid documents -/

section Valid
variable {lib : ThirdParty} {request : AuthorizationRequest}

/-- The inner loop collects, per effect, whether some statement applies. -/
theorem foldl_applyStatement (statements : List PolicyStatement) (flags : Bool × Bool) :
    statements.foldl (applyStatement lib request) flags =
      (flags.1 || decide (∃ s ∈ statements, s.effect = .allow ∧ s.applies lib request = true),
       flags.2 || decide (∃ s ∈ statements, s.effect = .deny ∧ s.applies lib request = true)) := by
  induction statements generalizing flags with
  | nil => simp
  | cons s _ ih =>
    rw [foldl_cons, ih]
    unfold applyStatement
    cases ha : s.applies lib request with
    | false => simp [ha]
    | true => cases he : s.effect <;> simp [ha, he]

variable (ds : List PolicyDocument)

theorem says_cons (effect : PolicyEffect) (d : PolicyDocument) (ds : List PolicyDocument) :
    Says lib request effect (d :: ds) ↔
      (∃ s ∈ d.statements, s.effect = effect ∧ s.applies lib request = true) ∨
        Says lib request effect ds := by
  simp [Says]

/-- The outer loop on documents that validate. -/
theorem applyPolicies_valid (h : ∀ d ∈ ds, d.validate lib = .ok ()) (flags : Bool × Bool) :
    applyPolicies lib request ds flags = .ok (flags.1 || decide (Says lib request .allow ds),
    flags.2 || decide (Says lib request .deny ds)) := by
  induction ds generalizing flags with
  | nil => simp [applyPolicies, Says]
  | cons d _ ih =>
    rw [applyPolicies, h d (mem_cons_self ..)]
    simp only
    rw [ih (fun e he => h e (mem_cons_of_mem d he)), foldl_applyStatement]
    simp only [says_cons, Bool.decide_or, Bool.or_assoc]

variable (allow deny : Bool)

/-- The evaluation of a request inside one organization, from the two facts it depends on. -/
def summary : Evaluation :=
  ⟨Decision.decide true allow deny, allow, deny,
    if deny then .explicitDeny else if allow then .explicitAllow else .defaultDeny⟩

@[simp] theorem summary_applicableDeny : (summary allow deny).applicableDeny = deny := rfl

@[simp] theorem summary_allow : (summary allow deny).decision = .allow ↔ allow = true ∧ deny =
    false := by
  cases allow <;> cases deny <;> simp [summary, Decision.decide]

variable (d : Decision)

@[simp] theorem Decision.ne_allow : d ≠ .allow ↔ d = .deny := by
  cases d <;> simp

@[simp] theorem Decision.ne_deny : d ≠ .deny ↔ d = .allow := by
  cases d <;> simp

/-- **`authorize` on valid documents** is a function of which effects apply. -/
theorem authorize_valid (h : ∀ d ∈ ds, d.validate lib = .ok ()) : authorize lib request ds = .ok (if
    request.principalOrganizationId = request.resourceOrganizationId then summary (decide (Says lib
    request .allow ds)) (decide (Says lib request .deny ds)) else ⟨.deny, false, false,
    .crossOrganization⟩) := by
  unfold authorize
  by_cases hs : request.principalOrganizationId = request.resourceOrganizationId
  · rw [applyPolicies_valid ds h]
    simp only [hs, beq_self_eq_true, Bool.not_true, Bool.false_or, if_true]
    cases decide (Says lib request .allow ds) <;> cases decide (Says lib request .deny ds) <;> rfl
  · simp [hs]

/-- Inside one organization. -/
theorem authorize_same (hs : request.principalOrganizationId = request.resourceOrganizationId)
    (ds : List PolicyDocument) (h : ∀ d ∈ ds, d.validate lib = .ok ()) :
    authorize lib request ds = .ok
      (summary (decide (Says lib request .allow ds)) (decide (Says lib request .deny ds))) := by
  rw [authorize_valid ds h, if_pos hs]

theorem permits_iff {ds : List PolicyDocument} :
    Permits lib request ds ↔ Says lib request .allow ds ∧ ¬ Says lib request .deny ds :=
  ⟨fun h => ⟨h.1, h.2⟩, fun h => ⟨h.1, h.2⟩⟩

theorem summary_permits : (summary (decide (Says lib request .allow ds)) (decide (Says lib request
    .deny ds))).decision = .allow ↔ Permits lib request ds := by
  rw [summary_allow, decide_eq_true_iff, decide_eq_false_iff_not, permits_iff]

/-! ## 4. Order of the documents

  The loop stops at the first invalid document, so the error depends on the order; which
  documents there are decides whether there is one, and the answer otherwise. -/

theorem toOption_bind {ε α β : Type} (x : Except ε α) (f : α → Except ε β) :
    (x >>= f).toOption = x.toOption.bind fun a => (f a).toOption := by
  cases x <;> rfl

theorem applyPolicies_invalid {ds : List PolicyDocument} (h : ¬ ∀ d ∈ ds, d.validate lib = .ok ())
    (flags : Bool × Bool) : (applyPolicies lib request ds flags).toOption = none := by
  induction ds generalizing flags with
  | nil => exact absurd (fun _ hd => nomatch hd) h
  | cons d _ ih =>
    rw [applyPolicies]
    cases hd : d.validate lib with
    | error => rfl
    | ok =>
      refine ih (fun hall => h fun e he => ?_) _
      rcases mem_cons.mp he with rfl | he
      · exact hd
      · exact hall e he

/-- Whether there is an evaluation, and which one, depends on the set of documents only. -/
theorem authorize_congr {ds ds' : List PolicyDocument} (h : ∀ d, d ∈ ds ↔ d ∈ ds') :
    (authorize lib request ds).toOption = (authorize lib request ds').toOption := by
  have hsame (effect : PolicyEffect) : Says lib request effect ds ↔ Says lib request effect ds' := by
    simp only [Says, h]
  by_cases hv : ∀ d ∈ ds, d.validate lib = .ok ()
  · have hv' : ∀ d ∈ ds', d.validate lib = .ok () := fun d hd => hv d ((h d).mpr hd)
    rw [authorize_valid ds hv, authorize_valid ds' hv']
    simp only [hsame]
  have hv' : ¬ ∀ d ∈ ds', d.validate lib = .ok () := fun e => hv fun d hd => e d ((h d).mp hd)
  unfold authorize
  by_cases hs : request.principalOrganizationId = request.resourceOrganizationId
  · simp only [hs, beq_self_eq_true, Bool.not_true, Bool.false_eq_true, if_false,
      toOption_bind, applyPolicies_invalid hv, applyPolicies_invalid hv']
  · simp [hs]

/-- The same for the levels, each up to order. -/
theorem enforceServiceControlPolicies_congr (identity : Evaluation)
    {levels levels' : List (List PolicyDocument)} (h : List.Forall₂ List.Perm levels levels') :
    (enforceServiceControlPolicies lib request identity levels).toOption =
      (enforceServiceControlPolicies lib request identity levels').toOption := by
  have hl : ∀ noAllow, (enforceLevels lib request identity levels noAllow).toOption =
      (enforceLevels lib request identity levels' noAllow).toOption := by
    induction h with
    | nil => exact fun _ => rfl
    | cons hd _ ih =>
      intro noAllow
      unfold enforceLevels
      rw [toOption_bind, toOption_bind, authorize_congr fun d => hd.mem_iff]
      congr 1
      funext evaluation
      by_cases hdeny : evaluation.applicableDeny = true
      · rw [if_pos hdeny, if_pos hdeny]
      · rw [if_neg hdeny, if_neg hdeny]
        exact ih _
  unfold enforceServiceControlPolicies
  by_cases hi : identity.decision = .deny
  · rw [if_pos hi, if_pos hi]
  · rw [if_neg hi, if_neg hi]
    exact hl false

/-! ## 5. The layers -/

/-- What the identity layer allows. -/
structure IdentityAllows (lib : ThirdParty) (request : AuthorizationRequest)
    (policies : List PolicyDocument) (administrator : Bool) : Prop where
  sameOrganization : request.principalOrganizationId = request.resourceOrganizationId
  noDeny : ¬ Says lib request .deny policies
  allow : Says lib request .allow policies ∨ administrator = true

theorem identityAllows_iff {policies : List PolicyDocument} {administrator : Bool} :
    IdentityAllows lib request policies administrator ↔
      request.principalOrganizationId = request.resourceOrganizationId ∧
      ¬ Says lib request .deny policies ∧
      (Says lib request .allow policies ∨ administrator = true) :=
  ⟨fun h => ⟨h.1, h.2, h.3⟩, fun h => ⟨h.1, h.2.1, h.2.2⟩⟩

theorem authorizeWithAdministrator_valid (request : AuthorizationRequest) (ds : List PolicyDocument)
    (h : ∀ d ∈ ds, d.validate lib = .ok ()) (administrator : Bool) :
    ∃ ev, authorizeWithAdministrator lib request ds administrator = .ok ev ∧
      (ev.decision = .allow ↔ IdentityAllows lib request ds administrator) := by
  unfold authorizeWithAdministrator
  rw [authorize_valid ds h]
  by_cases hs : request.principalOrganizationId = request.resourceOrganizationId
  · rw [if_pos hs]
    by_cases hd : Says lib request .deny ds
    · refine ⟨_, if_neg (by simp [summary, hd]), ?_⟩
      exact iff_of_false (by simp [hd]) fun e => e.noDeny hd
    by_cases ha : Says lib request .allow ds
    · refine ⟨_, if_neg (by simp [summary, ha, hd]), ?_⟩
      exact iff_of_true (by simp [ha, hd]) ⟨hs, hd, .inl ha⟩
    cases administrator with
    | false =>
      refine ⟨_, rfl, ?_⟩
      exact iff_of_false (by simp [ha]) fun e => e.allow.elim ha (nomatch ·)
    | true =>
      refine ⟨_, if_pos (by simp [summary, ha, hd]), ?_⟩
      exact iff_of_true rfl ⟨hs, hd, .inr rfl⟩
  · rw [if_neg hs]
    refine ⟨_, if_neg (by simp), ?_⟩
    exact iff_of_false (by simp) fun e => hs e.sameOrganization

section
variable (hs : request.principalOrganizationId = request.resourceOrganizationId)
include hs
variable (identity : Evaluation)

/-- A boundary only limits: what was denied stays denied, what was allowed needs its permission. -/
theorem enforcePermissionsBoundary_valid (boundary : Option PolicyDocument) (h : ∀ d, boundary =
    some d → d.validate lib = .ok ()) : ∃ ev, enforcePermissionsBoundary lib request identity
    boundary = .ok ev ∧ (ev.decision = .allow ↔ identity.decision = .allow ∧ ∀ d, boundary = some d
    → Permits lib request [d]) := by
  cases boundary with
  | none => exact ⟨identity, rfl, by simp⟩
  | some d =>
    unfold enforcePermissionsBoundary
    by_cases hi : identity.decision = .deny
    · exact ⟨identity, if_pos hi, by simp [hi]⟩
    have hv : ∀ e ∈ [d], e.validate lib = .ok () := by
      simpa using h d rfl
    have hp : _ ↔ Permits lib request [d] := summary_permits [d]
    simp only [if_neg hi, authorize_same hs [d] hv]
    by_cases hd : Permits lib request [d]
    · refine ⟨identity, if_neg (by simp [hp.mpr hd]), ?_⟩
      simp [hd]
    · refine ⟨_, if_pos ((Decision.ne_allow _).mp fun e => hd (hp.mp e)), ?_⟩
      simp [hd]

/-- The loop over the levels. -/
theorem enforceLevels_valid (hi : identity.decision = .allow) (levels : List (List PolicyDocument))
    (h : ∀ ds ∈ levels, ∀ d ∈ ds, d.validate lib = .ok ()) (noAllow : Bool) : ∃ ev, enforceLevels
    lib request identity levels noAllow = .ok ev ∧ (ev.decision = .allow ↔ noAllow = false ∧ ∀ ds ∈
    levels, Permits lib request ds) := by
  induction levels generalizing noAllow with
  | nil => cases noAllow with
    | false => exact ⟨identity, rfl, by simp [hi]⟩
    | true => exact ⟨_, rfl, by simp⟩
  | cons ds _ ih =>
    have hp : _ ↔ Permits lib request ds := summary_permits ds
    unfold enforceLevels
    rw [authorize_same hs ds (h ds (mem_cons_self ..))]
    by_cases hd : Says lib request .deny ds
    · refine ⟨_, if_pos (by simp [hd]), ?_⟩
      exact iff_of_false (by simp) fun e => (e.2 ds (mem_cons_self ..)).deny hd
    obtain ⟨ev, he, hev⟩ := ih (fun es hes => h es (mem_cons_of_mem ds hes))
      (noAllow || (summary (decide (Says lib request .allow ds))
        (decide (Says lib request .deny ds))).decision == .deny)
    refine ⟨ev, (if_neg (by simp [hd])).trans he, hev.trans ?_⟩
    simp only [Bool.or_eq_false_iff, beq_eq_false_iff_ne, Decision.ne_deny, hp,
      forall_mem_cons]
    exact and_assoc

/-- Service control policies only limit, level by level. -/
theorem enforceServiceControlPolicies_valid (levels : List (List PolicyDocument)) (h : ∀ ds ∈
    levels, ∀ d ∈ ds, d.validate lib = .ok ()) : ∃ ev, enforceServiceControlPolicies lib request
    identity levels = .ok ev ∧ (ev.decision = .allow ↔ identity.decision = .allow ∧ ∀ ds ∈ levels,
    Permits lib request ds) := by
  unfold enforceServiceControlPolicies
  by_cases hi : identity.decision = .deny
  · exact ⟨identity, if_pos hi, by simp [hi]⟩
  have ha := (Decision.ne_deny _).mp hi
  obtain ⟨ev, he, hev⟩ := enforceLevels_valid hs identity ha levels h false
  exact ⟨ev, (if_neg hi).trans he, by simp [hev, ha]⟩

/-- A session policy limits as a boundary does. -/
theorem enforceSessionPolicy_valid (sessionPolicy : Option PolicyDocument) (h : ∀ d, sessionPolicy =
    some d → d.validate lib = .ok ()) : ∃ ev, enforceSessionPolicy lib request identity
    sessionPolicy = .ok ev ∧ (ev.decision = .allow ↔ identity.decision = .allow ∧ ∀ d, sessionPolicy
    = some d → Permits lib request [d]) := by
  unfold enforceSessionPolicy
  by_cases hi : identity.decision = .deny
  · exact ⟨identity, if_pos hi, by simp [hi]⟩
  obtain ⟨ev, he, hev⟩ := enforcePermissionsBoundary_valid hs identity sessionPolicy h
  rw [he, if_neg hi]
  exact ⟨_, rfl, hev⟩

end

/-- A denied evaluation passes through the last three layers unchanged. -/
theorem layers_deny (lib : ThirdParty) (request : AuthorizationRequest) (identity : Evaluation) (hi : identity.decision = .deny)
    (boundary : Option PolicyDocument) (levels : List (List PolicyDocument))
    (sessionPolicy : Option PolicyDocument) :
    enforcePermissionsBoundary lib request identity boundary = .ok identity ∧
    enforceServiceControlPolicies lib request identity levels = .ok identity ∧
    enforceSessionPolicy lib request identity sessionPolicy = .ok identity := by
  refine ⟨?_, if_pos hi, if_pos hi⟩
  cases boundary with
  | none => rfl
  | some => exact if_pos hi

/-! ## 6. The chain -/

/-- The documents of a list of valid policies. -/
def ValidPolicy.documents (policies : List (ValidPolicy lib)) : List PolicyDocument :=
  policies.map ValidPolicy.document

theorem ValidPolicy.validate_of_mem {policies : List (ValidPolicy lib)} {d : PolicyDocument}
    (h : d ∈ ValidPolicy.documents policies) : d.validate lib = .ok () := by
  obtain ⟨p, _, rfl⟩ := mem_map.mp h
  exact p.valid

theorem ValidPolicy.validate_of_some {policy : Option (ValidPolicy lib)} {d : PolicyDocument}
    (h : policy.map ValidPolicy.document = some d) : d.validate lib = .ok () := by
  obtain ⟨p, _, rfl⟩ := Option.map_eq_some_iff.mp h
  exact p.valid

/-- **The chain allows exactly when every layer does.** On valid policies it returns a result, and
the result is Allow iff the organizations are equal, the identity policies (or the administrator's
implicit one) allow and none denies, and the boundary, every level and the session policy, where
present, have an applicable Allow and no applicable Deny. -/
theorem permissionChain_allow_iff (lib : ThirdParty) (request : AuthorizationRequest)
    (policies : List (ValidPolicy lib)) (administrator : Bool)
    (boundary : Option (ValidPolicy lib)) (levels : List (List (ValidPolicy lib)))
    (sessionPolicy : Option (ValidPolicy lib)) :
    ∃ ev, permissionChain lib request (ValidPolicy.documents policies) administrator
        (boundary.map ValidPolicy.document) (levels.map ValidPolicy.documents)
        (sessionPolicy.map ValidPolicy.document) = .ok ev ∧
      (ev.decision = .allow ↔
        request.principalOrganizationId = request.resourceOrganizationId ∧
        ¬ Says lib request .deny (ValidPolicy.documents policies) ∧
        (Says lib request .allow (ValidPolicy.documents policies) ∨ administrator = true) ∧
        (∀ b, boundary = some b → Permits lib request [b.document]) ∧
        (∀ level ∈ levels, Permits lib request (ValidPolicy.documents level)) ∧
        (∀ s, sessionPolicy = some s → Permits lib request [s.document])) := by
  obtain ⟨ev₁, he₁, ha₁⟩ := authorizeWithAdministrator_valid request
    (ValidPolicy.documents policies) (fun _ => ValidPolicy.validate_of_mem) administrator
  have hlevels : ∀ ds ∈ levels.map ValidPolicy.documents, ∀ d ∈ ds, d.validate lib = .ok () := by
    intro ds hds d hd
    obtain ⟨level, _, rfl⟩ := mem_map.mp hds
    exact ValidPolicy.validate_of_mem hd
  unfold permissionChain
  rw [he₁]
  by_cases hs : request.principalOrganizationId = request.resourceOrganizationId
  · obtain ⟨ev₂, he₂, ha₂⟩ := enforcePermissionsBoundary_valid hs ev₁
      (boundary.map ValidPolicy.document) (fun _ => ValidPolicy.validate_of_some)
    obtain ⟨ev₃, he₃, ha₃⟩ := enforceServiceControlPolicies_valid hs ev₂ _ hlevels
    obtain ⟨ev₄, he₄, ha₄⟩ := enforceSessionPolicy_valid hs ev₃
      (sessionPolicy.map ValidPolicy.document) (fun _ => ValidPolicy.validate_of_some)
    refine ⟨ev₄, ?_, ?_⟩
    · show (enforcePermissionsBoundary lib request ev₁ _ >>= _) = _
      rw [he₂]
      show (enforceServiceControlPolicies lib request ev₂ _ >>= _) = _
      rw [he₃]
      exact he₄
    · rw [ha₄, ha₃, ha₂, ha₁]
      simp only [identityAllows_iff, forall_mem_map, Option.map_eq_some_iff,
        forall_exists_index, and_imp, forall_apply_eq_imp_iff₂, and_assoc]
  · have hd : ev₁.decision = .deny :=
      (Decision.ne_allow _).mp fun e => hs (ha₁.mp e).sameOrganization
    obtain ⟨h₁, h₂, h₃⟩ := layers_deny lib request ev₁ hd
      (boundary.map ValidPolicy.document) (levels.map ValidPolicy.documents)
      (sessionPolicy.map ValidPolicy.document)
    refine ⟨ev₁, ?_, iff_of_false (by simp [hd]) fun e => hs e.1⟩
    show (enforcePermissionsBoundary lib request ev₁ _ >>= _) = _
    rw [h₁]
    show (enforceServiceControlPolicies lib request ev₁ _ >>= _) = _
    rw [h₂]
    exact h₃

end Valid
end HeteroCloud.Iam
