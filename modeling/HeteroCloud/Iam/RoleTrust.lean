/-
  File:      Iam/RoleTrust.lean
  Subject:   ROLE TRUST POLICIES (crates/heterocloud-iam/src/role_trust.rs).
-/
import HeteroCloud.Base.Text
import HeteroCloud.Iam.Evaluation

namespace HeteroCloud.Iam

open Base List

/-! ## 1. The documents -/

/-- `TrustPrincipal`: a string, or accounts under `AWS`. -/
inductive TrustPrincipal where
  | wildcard (value : String)
  | accounts (aws : List String)
  deriving DecidableEq, Repr

structure TrustStatement where
  sid : Option String
  effect : PolicyEffect
  action : List String
  principal : TrustPrincipal
  deriving DecidableEq, Repr

structure RoleTrustDocument where
  version : Option String
  statements : List TrustStatement
  deriving DecidableEq, Repr

/-- `RoleTrustError::Invalid`. -/
structure RoleTrustError where
  reason : String
  deriving DecidableEq, Repr

def RoleTrustError.text (e : RoleTrustError) : String := "invalid role trust policy: " ++ e.reason

/-! ## 2. The stored form -/

/-- The variants of the untagged enum are tried in order. -/
def TrustPrincipal.fromValue (j : Json) : Option TrustPrincipal :=
  match j.asString with
  | some value => some (.wildcard value)
  | none => do
      let r ← j.record 1 ["AWS"]
      let aws ← (r.lookup "AWS").bind (oneOrMany Json.asString)
      return .accounts aws

def TrustStatement.fromValue (j : Json) : Option TrustStatement := do
  let r ← j.record 4 ["Sid", "Effect", "Action", "Principal"]
  let sid ← Json.optional Json.asString (r.lookup "Sid")
  let effect ← (r.lookup "Effect").bind PolicyEffect.fromValue
  let action ← (r.lookup "Action").bind (oneOrMany Json.asString)
  let principal ← (r.lookup "Principal").bind TrustPrincipal.fromValue
  return { sid, effect, action, principal }

/-- `serde_json::from_value::<RoleTrustDocument>`. -/
def RoleTrustDocument.fromValue (j : Json) : Option RoleTrustDocument := do
  let r ← j.record 2 ["Version", "Statement"]
  let version ← Json.optional Json.asString (r.lookup "Version")
  let statements ← (r.lookup "Statement").bind (oneOrMany TrustStatement.fromValue)
  return { version, statements }

/-! ## 3. Validation -/

def isAsciiDigits (s : List Char) : Bool := s.all Char.isDigit

/-- ASCII letters and digits, or one of `others`. -/
def isNameOf (others : List Char) (s : List Char) : Bool :=
  s.all fun c => c.isAlphanum || others.contains c

/-- `valid_principal`; every accepted text is ASCII, so its length counts characters. -/
def validPrincipal (value : String) : Bool :=
  let s := value.toList
  if value = "*" then true
  else if s.length = 12 && isAsciiDigits s then true
  else match stripPrefix "arn:aws:iam::".toList s with
    | none => false
    | some rest =>
        match splitOnce [':'] rest with
        | none => false
        | some (account, path) =>
            if account.length ≠ 12 || !isAsciiDigits account then false
            else if path = "root".toList then true
            else match (stripPrefix "user/".toList path).or (stripPrefix "role/".toList path) with
              | none => false
              | some name => !name.isEmpty && decide (name.length ≤ 256) &&
                  isNameOf "+=,.@_-/".toList name

variable (s : TrustStatement)

def TrustStatement.validate : Except RoleTrustError Unit :=
  if s.action.isEmpty || decide (128 < s.action.length) || s.action.any (fun action =>
      action.isEmpty || decide (128 < action.utf8ByteSize) || action.toList.any isWhitespace) then
    .error ⟨"invalid Action"⟩
  else match s.principal with
    | .wildcard value =>
        if value = "*" then .ok () else .error ⟨"Principal string must be *"⟩
    | .accounts principals =>
        if principals.isEmpty || decide (128 < principals.length) ||
            principals.any (!validPrincipal ·) then
          .error ⟨"unsupported AWS Principal"⟩
        else .ok ()

def RoleTrustDocument.validate (d : RoleTrustDocument) : Except RoleTrustError Unit :=
  if d.version.any fun v => v ≠ "2012-10-17" && v ≠ "2008-10-17" then
    .error ⟨"unsupported Version"⟩
  else if d.statements.isEmpty || decide (128 < d.statements.length) then
    .error ⟨"expected 1..128 statements"⟩
  else d.statements.forM TrustStatement.validate

/-! ## 4. `permits` -/

variable (callerAccount callerArn : String)

/-- The statement is about `sts:AssumeRole` by this caller. -/
def TrustStatement.applies : Bool :=
  s.action.any (actionPatternMatches · "sts:AssumeRole") &&
    match s.principal with
    | .wildcard value => value == "*"
    | .accounts aws => aws.any fun value =>
        value == "*" || value == callerArn || value == callerAccount ||
          value == "arn:aws:iam::" ++ callerAccount ++ ":root"

/-- The loop over the statements; an explicit deny ends it. -/
def permitsLoop (callerAccount callerArn : String) : List TrustStatement → Bool → Bool
  | [], allowed => allowed
  | s :: rest, allowed =>
      if s.applies callerAccount callerArn then
        match s.effect with
        | .deny => false
        | .allow => permitsLoop callerAccount callerArn rest true
      else permitsLoop callerAccount callerArn rest allowed

variable (d : RoleTrustDocument)

def RoleTrustDocument.permits (callerAccount callerArn : String) : Except RoleTrustError Bool := do
  d.validate
  return permitsLoop callerAccount callerArn d.statements false

/-- What the loop answers. -/
theorem permitsLoop_iff (ss : List TrustStatement) (allowed : Bool) : permitsLoop callerAccount
    callerArn ss allowed = true ↔ (∀ s ∈ ss, s.applies callerAccount callerArn = true → s.effect ≠
    .deny) ∧ (allowed = true ∨ ∃ s ∈ ss, s.applies callerAccount callerArn = true) := by
  induction ss generalizing allowed with
  | nil => simp [permitsLoop]
  | cons s _ ih =>
    unfold permitsLoop
    by_cases ha : s.applies callerAccount callerArn = true
    · rw [if_pos ha]
      cases he : s.effect with
      | deny => simp [ha, he]
      | allow => simp [ih, ha, he]
    · rw [if_neg ha, ih]
      simp [ha]

/-- **Who may assume the role**: the document is valid, some statement applies, and no statement
that applies denies. -/
theorem RoleTrustDocument.permits_iff (callerAccount callerArn : String) : d.permits callerAccount
    callerArn = .ok true ↔ d.validate = .ok () ∧ (∀ s ∈ d.statements, s.applies callerAccount
    callerArn = true → s.effect ≠ .deny) ∧ ∃ s ∈ d.statements, s.applies callerAccount callerArn =
    true := by
  unfold RoleTrustDocument.permits
  cases hv : d.validate with
  | error => simp [bind, Except.bind]
  | ok u =>
    cases u
    have := permitsLoop_iff callerAccount callerArn d.statements false
    simp only [Bool.false_eq_true, false_or] at this
    simp [bind, Except.bind, pure, Except.pure, this]

/-! ## 5. Callers -/

/-- The number of an account. -/
def IsAccountNumber (s : String) : Prop := s.toList.length = 12 ∧ isAsciiDigits s.toList = true

/-- A principal of an account, as `iam_principal_arn` reads it. -/
structure Caller where
  account : String
  path : String
  number : IsAccountNumber account

def Caller.arn (c : Caller) : String := "arn:aws:iam::" ++ c.account ++ ":" ++ c.path

/-- The number of the account or an ARN of it. -/
def NamesAccount (value account : String) : Prop :=
  value = account ∨ ∃ path, value = "arn:aws:iam::" ++ account ++ ":" ++ path

/-- The statement is about the caller: everybody, their account or just them. -/
def TrustStatement.Matches (c : Caller) : Prop :=
  (∃ action ∈ s.action, actionPatternMatches action "sts:AssumeRole" = true) ∧
    (s.principal = .wildcard "*" ∨ ∃ aws, s.principal = .accounts aws ∧ ∃ value ∈ aws,
      value = "*" ∨ value = c.account ∨ value = "arn:aws:iam::" ++ c.account ++ ":root" ∨
        value = c.arn)

theorem TrustStatement.applies_iff (c : Caller) : s.applies c.account c.arn = true ↔ s.Matches c :=
    by
  unfold TrustStatement.applies TrustStatement.Matches
  rw [Bool.and_eq_true, any_eq_true]
  refine and_congr_right fun _ => ?_
  cases s.principal with
  | wildcard => simp
  | accounts =>
    simp only [any_eq_true, Bool.or_eq_true, beq_iff_eq, reduceCtorEq, false_or,
      TrustPrincipal.accounts.injEq, exists_eq_left']
    refine exists_congr fun value => and_congr_right fun _ => ?_
    tauto

/-- A text names one account. -/
theorem NamesAccount.unique {value a b : String} (ha : IsAccountNumber a) (hb : IsAccountNumber b)
    (h : NamesAccount value a) (h' : NamesAccount value b) : a = b := by
  -- An ARN is longer than the number of an account.
  have longer : ∀ {n m p : String}, IsAccountNumber n →
      n ≠ "arn:aws:iam::" ++ m ++ ":" ++ p := by
    rintro n m p hn rfl
    have hlen := hn.1
    simp only [String.toList_append, length_append] at hlen
    have : "arn:aws:iam::".toList.length = 13 := rfl
    omega
  rcases h with rfl | ⟨p, rfl⟩
  · rcases h' with rfl | ⟨q, hq⟩
    · rfl
    · exact absurd hq (longer ha)
  · rcases h' with hq | ⟨q, hq⟩
    · exact absurd hq.symm (longer hb)
    have hchars := congrArg String.toList hq
    simp only [String.toList_append, append_assoc, append_cancel_left_eq] at hchars
    exact String.toList_inj.mp (append_inj_left hchars (ha.1.trans hb.1.symm))

/-- Statements that name other accounts only are not about the caller. -/
theorem TrustStatement.not_matches {s : TrustStatement} {c : Caller} {aws : List String}
    (hs : s.principal = .accounts aws) (hother : ∀ value ∈ aws, ∃ account,
      IsAccountNumber account ∧ account ≠ c.account ∧ NamesAccount value account) :
    ¬ s.Matches c := by
  rintro ⟨-, hw | ⟨aws', ha, value, hv, hvalue⟩⟩
  · rw [hs] at hw
    cases hw
  rw [hs] at ha
  cases ha
  obtain ⟨account, hnumber, hne, hnames⟩ := hother value hv
  have hself : value ≠ "*" → NamesAccount value c.account := by
    intro hstar
    rcases hvalue with h | h | h | h
    · exact absurd h hstar
    · exact .inl h
    · have hroot : ":root" = ":" ++ "root" := rfl
      exact .inr ⟨"root", by rw [h, hroot, ← String.append_assoc]⟩
    · exact .inr ⟨c.path, h⟩
  by_cases hstar : value = "*"
  · rcases hnames with h | ⟨path, h⟩
    · have : "*".toList.length = 12 := by rw [← hstar, h]; exact hnumber.1
      exact absurd this (by decide)
    have := congrArg (fun t => t.toList.length) (hstar.symm.trans h)
    simp only [String.toList_append, length_append] at this
    have h13 : "arn:aws:iam::".toList.length = 13 := rfl
    have h1 : "*".toList.length = 1 := rfl
    omega
  · exact hne (NamesAccount.unique hnumber c.number hnames (hself hstar))

theorem RoleTrustDocument.validate_perm {d d' : RoleTrustDocument} (hv : d'.version = d.version)
    (hp : d'.statements.Perm d.statements) : d'.validate = .ok () ↔ d.validate = .ok () := by
  have hall : d'.statements.forM TrustStatement.validate = .ok () ↔
      d.statements.forM TrustStatement.validate = .ok () := by
    simp only [forM_ok_iff, hp.mem_iff]
  have hempty : d'.statements.isEmpty = d.statements.isEmpty := by
    rw [Bool.eq_iff_iff, List.isEmpty_iff, List.isEmpty_iff]
    exact ⟨fun h => (h ▸ hp).nil_eq.symm, fun h => (h ▸ hp).eq_nil⟩
  unfold RoleTrustDocument.validate
  rw [hv, hempty, hp.length_eq]
  split
  · rfl
  split
  · rfl
  · exact hall

/-- **Who may assume the role.** The document is valid, a statement that allows is about the caller
and none that denies is; the order of the statements is of no account (it can only choose which
error of an invalid document is told); documents that allow other accounts only do not permit. -/
theorem RoleTrustDocument.permits_caller (d : RoleTrustDocument) (c : Caller) :
    (d.permits c.account c.arn = .ok true ↔ d.validate = .ok () ∧
      (∃ s ∈ d.statements, s.effect = .allow ∧ s.Matches c) ∧
      ∀ s ∈ d.statements, s.effect = .deny → ¬ s.Matches c) ∧
    (∀ d' : RoleTrustDocument, d'.version = d.version → d'.statements.Perm d.statements →
      (d'.permits c.account c.arn).toOption = (d.permits c.account c.arn).toOption) ∧
    ((∀ s ∈ d.statements, s.effect = .allow → ∃ aws, s.principal = .accounts aws ∧
        ∀ value ∈ aws, ∃ account, IsAccountNumber account ∧ account ≠ c.account ∧
          NamesAccount value account) →
      d.permits c.account c.arn ≠ .ok true) := by
  have hiff : ∀ d : RoleTrustDocument, d.permits c.account c.arn = .ok true ↔
      d.validate = .ok () ∧ (∃ s ∈ d.statements, s.effect = .allow ∧ s.Matches c) ∧
        ∀ s ∈ d.statements, s.effect = .deny → ¬ s.Matches c := by
    intro d
    rw [d.permits_iff]
    simp only [TrustStatement.applies_iff]
    refine and_congr_right fun _ => ⟨fun ⟨hdeny, s, hs, hm⟩ => ⟨⟨s, hs, ?_, hm⟩, ?_⟩,
      fun ⟨⟨s, hs, _, hm⟩, hdeny⟩ => ⟨fun t ht hmt he => hdeny t ht he hmt, s, hs, hm⟩⟩
    · cases he : s.effect with
      | allow => rfl
      | deny => exact absurd he (hdeny s hs hm)
    · exact fun t ht he hmt => hdeny t ht hmt he
  refine ⟨hiff d, fun d' hv hp => ?_, fun hother hpermits => ?_⟩
  · have hvalid := RoleTrustDocument.validate_perm hv hp
    have htrue : d'.permits c.account c.arn = .ok true ↔ d.permits c.account c.arn = .ok true := by
      rw [hiff, hiff, hvalid]
      simp only [hp.mem_iff]
    unfold RoleTrustDocument.permits at htrue ⊢
    cases hd : d.validate with
    | ok =>
      rw [hvalid.mpr hd]
      rw [hvalid.mpr hd, hd] at htrue
      exact congrArg some (Bool.eq_iff_iff.mpr (by simpa [bind, Except.bind, pure, Except.pure]
        using htrue))
    | error =>
      cases hd' : d'.validate with
      | ok => exact absurd (hvalid.mp hd') (by rw [hd]; simp)
      | error => rfl
  · obtain ⟨-, ⟨s, hs, hallow, hm⟩, -⟩ := (hiff d).mp hpermits
    obtain ⟨aws, ha, hnames⟩ := hother s hs hallow
    exact TrustStatement.not_matches ha hnames hm

end HeteroCloud.Iam
