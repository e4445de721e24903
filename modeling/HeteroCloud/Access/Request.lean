/-
  File:      Access/Request.lean
  Subject:   WHAT `assume_iam_role` CHECKS OF ITS INPUT before it reads the account
             (crates/heterocloud-api/src/routes.rs).

  `checkRequest` is the pure part: the browser to switch, the role ARN, the session name, the
  duration and the session policy, in the order of the source. `checkRequest_ok` says what an
  accepted request is: in particular its ARN is the ARN of the role it names.
-/
import HeteroCloud.Api.Authorize
import HeteroCloud.Iam.RoleTrust

namespace HeteroCloud.Access

open Base Iam Store Api

/-! ## 1. Input -/

/-- `AssumeIamRole`. -/
structure AssumeIamRole where
  roleArn : String
  sessionName : String
  durationSeconds : Int := 3600
  sessionPolicy : Option Json := none
  switchConsole : Bool := false

/-- An actor that is an Identity Center session. -/
def isIdentityCenterSession : AuthenticatedActor → Bool
  | .roleSession session _ => session.identityCenterUserId.isSome
  | _ => false

def isRoleSession : AuthenticatedActor → Bool
  | .roleSession _ _ => true
  | _ => false

/-- The browser session to switch, and the role session it is expected to have. -/
structure BrowserSwitch where
  browser : AuthenticatedSession
  previous : Option Uuid

/-! ## 2. Checks -/

def nameCharacters : List Char := "+=,.@_-".toList

def validateIamRoleName (name : List Char) : Except ApiError Unit :=
  if name.isEmpty || decide (64 < name.length) || !isNameOf nameCharacters name then
    .error (.badRequest "Role names must use 1 to 64 ASCII letters, numbers, or +=,.@_-")
  else .ok ()

/-- `parse_iam_role_arn`: the account number and the name of the role. -/
def parseIamRoleArn (arn : String) : Except ApiError (String × String) :=
  match (stripPrefix "arn:aws:iam::".toList arn.toList).bind (splitOnce ":role/".toList) with
  | none => .error (.badRequest "Invalid role ARN.")
  | some (account, name) =>
      if account.length ≠ 12 || !isAsciiDigits account then
        .error (.badRequest "Invalid role ARN.")
      else (validateIamRoleName name).map fun _ => (String.ofList account, String.ofList name)

def validateSessionName (name : String) : Except ApiError Unit :=
  if decide (name.toList.length < 2) || decide (64 < name.toList.length) ||
      !isNameOf nameCharacters name.toList then
    .error (.badRequest "Session names must use 2 to 64 ASCII letters, numbers, or +=,.@_-")
  else .ok ()

variable (actor : AuthenticatedActor)

def validateDuration (durationSeconds : Int) : Except ApiError Unit :=
  if ¬ (900 ≤ durationSeconds ∧ durationSeconds ≤ 43200) ∨
      (isRoleSession actor = true ∧ 3600 < durationSeconds) then
    .error (.badRequest "Invalid role session duration.")
  else .ok ()

def hasMember (key : String) : Json → Bool
  | .object members => members.any (·.1 == key)
  | _ => false

variable (lib : ThirdParty) (value : Json)

def parsePolicyDocument : Except ApiError PolicyDocument := do
  let document ← if hasMember "Statement" value then
      (PolicyDocument.fromAwsJson lib value).mapError fun e => .badRequest e.text
    else match PolicyDocument.fromValue value with
      | some document => .ok document
      | none => .error (.badRequest ("Invalid policy: " ++ lib.serdeError value))
  (document.validate lib).mapError fun e => .badRequest e.text
  return document

def parseSessionPolicy : Option Json → Except ApiError (Option PolicyDocument)
  | none => .ok none
  | some value =>
      if 2048 < (lib.jsonText value).length then
        .error (.badRequest "Session policies are limited to 2,048 characters.")
      else (parsePolicyDocument lib value).map some

def browserSwitch (switchConsole : Bool) : Except ApiError (Option BrowserSwitch) :=
  if switchConsole then
    match actor with
    | .user browser => .ok (some ⟨browser, none⟩)
    | .roleSession session (some browser) => .ok (some ⟨browser, some session.id⟩)
    | _ => .error .forbidden
  else .ok none

/-- `validate_role_trust`. -/
def validateRoleTrust : Except ApiError RoleTrustDocument :=
  if 4096 < (lib.jsonText value).length then
    .error (.badRequest "Role trust policies are limited to 4,096 characters.")
  else match RoleTrustDocument.fromValue value with
    | none => .error (.badRequest ("Invalid role trust policy: " ++ lib.serdeError value))
    | some trust => (trust.validate.mapError fun e => ApiError.badRequest e.text).map fun _ => trust

/-! ## 3. The request -/

/-- A request that passed the checks. -/
structure Request where
  actor : AuthenticatedActor
  source : Uuid
  roleArn : String
  sessionName : String
  durationSeconds : Int
  targetNumber : String
  roleName : String
  sessionPolicy : Option PolicyDocument
  switch : Option BrowserSwitch

def checkRequest (actor : AuthenticatedActor) (source : Uuid) (input : AssumeIamRole) : Except
    ApiError Request := do
  let switch ← browserSwitch actor input.switchConsole
  let (targetNumber, roleName) ← parseIamRoleArn input.roleArn
  validateSessionName input.sessionName
  validateDuration actor input.durationSeconds
  let sessionPolicy ← parseSessionPolicy lib input.sessionPolicy
  return { actor, source, roleArn := input.roleArn, sessionName := input.sessionName,
           durationSeconds := input.durationSeconds, targetNumber, roleName, sessionPolicy, switch }

/-- An accepted request: it names a role by its ARN and asks for an allowed duration. -/
structure RequestOk (q : Request) : Prop where
  arn : q.roleArn = iamRoleArn q.targetNumber q.roleName
  duration : 900 ≤ q.durationSeconds ∧ q.durationSeconds ≤ 43200
  chained : isRoleSession q.actor = true → q.durationSeconds ≤ 3600

theorem parseIamRoleArn_ok {arn number name : String}
    (h : parseIamRoleArn arn = .ok (number, name)) : arn = iamRoleArn number name := by
  unfold parseIamRoleArn at h
  cases hs : (stripPrefix "arn:aws:iam::".toList arn.toList).bind
      (splitOnce ":role/".toList) with
  | none => simp only [hs] at h; cases h
  | some parts =>
    obtain ⟨account, role⟩ := parts
    simp only [hs] at h
    split at h
    · cases h
    cases hv : validateIamRoleName role with
    | error => rw [hv] at h; cases h
    | ok =>
      rw [hv] at h
      cases h
      obtain ⟨rest, hp, hq⟩ := Option.bind_eq_some_iff.mp hs
      apply String.toList_injective
      rw [stripPrefix_eq hp, splitOnce_eq hq]
      simp [iamRoleArn]

theorem validateDuration_ok {actor : AuthenticatedActor} {durationSeconds : Int}
    (h : validateDuration actor durationSeconds = .ok ()) :
    (900 ≤ durationSeconds ∧ durationSeconds ≤ 43200) ∧
      (isRoleSession actor = true → durationSeconds ≤ 3600) := by
  unfold validateDuration at h
  split at h
  · cases h
  next hn =>
  rw [not_or, not_not, not_and] at hn
  exact ⟨hn.1, fun hr => Int.not_lt.mp (hn.2 hr)⟩

/-- **What the checks establish.** -/
theorem checkRequest_ok {lib : ThirdParty} {actor : AuthenticatedActor} {source : Uuid}
    {input : AssumeIamRole} {q : Request} (h : checkRequest lib actor source input = .ok q) :
    RequestOk q ∧ q.actor = actor := by
  unfold checkRequest at h
  cases hb : browserSwitch actor input.switchConsole with
  | error => simp only [hb, bind, Except.bind] at h; cases h
  | ok switch =>
  cases ha : parseIamRoleArn input.roleArn with
  | error => simp only [hb, ha, bind, Except.bind] at h; cases h
  | ok parts =>
  obtain ⟨targetNumber, roleName⟩ := parts
  cases hn : validateSessionName input.sessionName with
  | error => simp only [hb, ha, hn, bind, Except.bind] at h; cases h
  | ok u =>
  cases hd : validateDuration actor input.durationSeconds with
  | error => simp only [hb, ha, hn, hd, bind, Except.bind] at h; cases h
  | ok v =>
  cases hp : parseSessionPolicy lib input.sessionPolicy with
  | error => simp only [hb, ha, hn, hd, hp, bind, Except.bind] at h; cases h
  | ok =>
    simp only [hb, ha, hn, hd, hp, bind, Except.bind, pure, Except.pure] at h
    cases h
    obtain ⟨hr, hc⟩ := validateDuration_ok hd
    exact ⟨⟨parseIamRoleArn_ok ha, hr, hc⟩, rfl⟩

end HeteroCloud.Access
