/-
  File:      Iam/Document.lean
  Subject:   POLICY DOCUMENTS (crates/heterocloud-domain/src/lib.rs): the stored form, its
             validation, and the two JSON forms it is read from.

  A `BTreeMap` is its list of entries in key order. What chrono and serde do is the parameter
  `ThirdParty`.
-/
import HeteroCloud.Base.Json

namespace HeteroCloud.Iam

open Base List

/-! ## 1. What other crates compute -/

/-- An identifier (`uuid`). -/
abbrev Uuid := Nat

/-- The functions of chrono, serde_json, uuid and sha2 the code uses. A time is in nanoseconds. -/
structure ThirdParty where
  /-- `DateTime::from_timestamp(seconds, 0)`. -/
  fromTimestamp : Int → Option Int
  /-- `DateTime::parse_from_rfc3339`, in UTC. -/
  parseFromRfc3339 : String → Option Int
  /-- `serde_json::to_string`. -/
  jsonText : Json → String
  /-- The text of the error serde reports on this value. -/
  serdeError : Json → String
  /-- `Display` of an identifier. -/
  uuidText : Uuid → String
  /-- `semantics_digest`, a constant of the build. -/
  semanticsDigest : String

/-- No date parses and every text is empty. -/
def noLibrary : ThirdParty :=
  ⟨fun _ => none, fun _ => none, fun _ => "", fun _ => "", fun _ => "", ""⟩

/-! ## 2. Documents -/

inductive PolicyEffect where
  | allow
  | deny
  deriving DecidableEq, Repr

/-- Operator, context key, values. -/
abbrev PolicyConditions := List (String × List (String × List String))

structure PolicyStatement where
  effect : PolicyEffect
  sid : Option String := none
  actions : List String := []
  notActions : List String := []
  resources : List String := []
  notResources : List String := []
  conditions : PolicyConditions := []
  deriving DecidableEq, Repr

structure PolicyDocument where
  version : String
  statements : List PolicyStatement
  deriving DecidableEq, Repr

def policyVersion : String := "2026-07-31"

inductive DomainError where
  | unsupportedPolicyVersion (version : String)
  | invalidPolicy (message : String)
  deriving DecidableEq, Repr

/-- `Display` of the error. -/
def DomainError.text : DomainError → String
  | .unsupportedPolicyVersion version => "unsupported policy version: " ++ version
  | .invalidPolicy message => "invalid policy: " ++ message

/-! ## 3. Dates -/

/-- The digits of `str::parse::<i64>`, most significant first. -/
def parseDigits : List Char → Option Nat
  | [] => none
  | cs => cs.foldl (fun acc c =>
      acc.bind fun n => if c.isDigit then some (10 * n + (c.toNat - '0'.toNat)) else none) (some 0)

/-- `str::parse::<i64>`: an optional sign, at least one digit, in range. -/
def parseI64 (s : String) : Option Int :=
  let value : Option Int := match s.toList with
    | '-' :: cs => (parseDigits cs).map fun n => -(n : Int)
    | '+' :: cs => (parseDigits cs).map fun n => (n : Int)
    | cs => (parseDigits cs).map fun n => (n : Int)
  value.bind fun n => if -9223372036854775808 ≤ n ∧ n ≤ 9223372036854775807 then some n else none

variable (lib : ThirdParty)

/-- `parse_iam_condition_date`: Unix seconds, else RFC 3339. -/
def parseIamConditionDate (value : String) : Option Int :=
  match parseI64 value with
  | some seconds => lib.fromTimestamp seconds
  | none => lib.parseFromRfc3339 value

/-! ## 4. Validation -/

/-- `char::is_whitespace`, the White_Space property. -/
def isWhitespace (c : Char) : Bool :=
  let n := c.toNat
  (9 ≤ n && n ≤ 13) || n == 0x20 || n == 0x85 || n == 0xA0 || n == 0x1680 ||
    (0x2000 ≤ n && n ≤ 0x200A) || n == 0x2028 || n == 0x2029 || n == 0x202F || n == 0x205F ||
    n == 0x3000

def validatePattern (pattern : String) : Except DomainError Unit :=
  if pattern.isEmpty || decide (512 < pattern.utf8ByteSize) || pattern.toList.any isWhitespace then
    .error (.invalidPolicy "policy patterns must be 1..512 non-whitespace characters")
  else .ok ()

def dateOperators : List String :=
  ["DateEquals", "DateNotEquals", "DateLessThan", "DateLessThanEquals", "DateGreaterThan",
   "DateGreaterThanEquals"]

/-- `str::to_ascii_lowercase`, as characters. -/
def asciiLowercase (s : String) : List Char := s.toList.map Char.toLower

/-- The check of one context key and its values. -/
def validateConditionKey (entry : String × List String) : Except DomainError Unit :=
  if asciiLowercase entry.1 != asciiLowercase "aws:CurrentTime" || entry.2.isEmpty ||
      decide (128 < entry.2.length) ||
      entry.2.any (fun v => decide (64 < v.utf8ByteSize) || (parseIamConditionDate lib v).isNone)
  then .error (.invalidPolicy "unsupported condition key or invalid date values")
  else .ok ()

/-- The check of one operator. -/
def validateConditionOperator (entry : String × List (String × List String)) : Except DomainError
    Unit := do
  if !dateOperators.contains entry.1 then
    throw (.invalidPolicy ("unsupported condition operator " ++ entry.1))
  if entry.2.length ≠ 1 then
    throw (.invalidPolicy "date conditions require exactly aws:CurrentTime")
  entry.2.forM (validateConditionKey lib)

variable (conditions : PolicyConditions)

def validatePolicyConditions : Except DomainError Unit := do
  if 6 < conditions.length then
    throw (.invalidPolicy "too many condition operators")
  conditions.forM (validateConditionOperator lib)

variable (s : PolicyStatement)

def PolicyStatement.validate : Except DomainError Unit := do
  if s.actions.isEmpty == s.notActions.isEmpty || s.resources.isEmpty == s.notResources.isEmpty ||
      decide (128 < s.actions.length) || decide (128 < s.notActions.length) ||
      decide (128 < s.resources.length) || decide (128 < s.notResources.length) then
    throw (.invalidPolicy "each statement requires exactly one of Action/NotAction and Resource/NotResource (1..128 values each)")
  (s.actions ++ s.notActions ++ s.resources ++ s.notResources).forM validatePattern
  validatePolicyConditions lib s.conditions

def PolicyDocument.validate (lib : ThirdParty) (d : PolicyDocument) : Except DomainError Unit := do
  if d.version ≠ policyVersion then
    throw (.unsupportedPolicyVersion d.version)
  if d.statements.isEmpty || decide (128 < d.statements.length) then
    throw (.invalidPolicy "a policy requires between 1 and 128 statements")
  d.statements.forM (PolicyStatement.validate lib)

/-- A loop that stops at the first error. -/
theorem forM_ok_iff {α ε : Type} (f : α → Except ε Unit) (l : List α) :
    l.forM f = .ok () ↔ ∀ a ∈ l, f a = .ok () := by
  induction l with
  | nil => exact ⟨fun _ a ha => absurd ha not_mem_nil, fun _ => rfl⟩
  | cons a l ih =>
    have hcons : (a :: l).forM f = (f a >>= fun _ => l.forM f) := rfl
    rw [hcons, forall_mem_cons, ← ih]
    cases f a with
    | error | ok => simp [bind, Except.bind]

/-- **A document that validates.** -/
structure ValidPolicy where
  document : PolicyDocument
  valid : document.validate lib = .ok ()

/-! ## 5. The stored form -/

def PolicyEffect.fromValue : Json → Option PolicyEffect
  | .string "Allow" | .object [("Allow", .null)] => some .allow
  | .string "Deny" | .object [("Deny", .null)] => some .deny
  | _ => none

def readStrings : Json → Option (List String) := Json.asList Json.asString

def PolicyStatement.fromValue (j : Json) : Option PolicyStatement := do
  let r ← j.record 1 ["effect", "sid", "actions", "not_actions", "resources", "not_resources",
    "conditions"]
  let effect ← (r.lookup "effect").bind PolicyEffect.fromValue
  let sid ← Json.optional Json.asString (r.lookup "sid")
  let actions ← Json.orDefault [] readStrings (r.lookup "actions")
  let notActions ← Json.orDefault [] readStrings (r.lookup "not_actions")
  let resources ← Json.orDefault [] readStrings (r.lookup "resources")
  let notResources ← Json.orDefault [] readStrings (r.lookup "not_resources")
  let conditions ← Json.orDefault [] (Json.asMap (Json.asMap readStrings)) (r.lookup "conditions")
  return { effect, sid, actions, notActions, resources, notResources, conditions }

/-- `serde_json::from_value::<PolicyDocument>`. -/
def PolicyDocument.fromValue (j : Json) : Option PolicyDocument := do
  let r ← j.record 2 ["version", "statements"]
  let version ← (r.lookup "version").bind Json.asString
  let statements ← (r.lookup "statements").bind (Json.asList PolicyStatement.fromValue)
  return { version, statements }

/-! ## 6. Storing a document -/

def PolicyEffect.toValue : PolicyEffect → Json
  | .allow => .string "Allow"
  | .deny => .string "Deny"

variable (items : List String)

def stringsValue : Json := .array (items.map .string)

def conditionsValue : Json :=
  .object (conditions.map fun (operator, keys) =>
    (operator, .object (keys.map fun (key, values) => (key, stringsValue values))))

variable (skip : Bool) (value : Json)

/-- A member that `skip_serializing_if` may leave out. -/
def optionalMember (key : String) (value : Json) : List (String × Json) :=
  if skip then [] else [(key, value)]

/-- `serde_json::to_value` of a statement, its members in key order. -/
def PolicyStatement.toValue (s : PolicyStatement) : Json :=
  .object ([("actions", stringsValue s.actions)] ++
    optionalMember s.conditions.isEmpty "conditions" (conditionsValue s.conditions) ++
    [("effect", s.effect.toValue)] ++
    optionalMember s.notActions.isEmpty "not_actions" (stringsValue s.notActions) ++
    optionalMember s.notResources.isEmpty "not_resources" (stringsValue s.notResources) ++
    [("resources", stringsValue s.resources)] ++
    optionalMember s.sid.isNone "sid" (.string (s.sid.getD "")))

def PolicyDocument.toValue (d : PolicyDocument) : Json :=
  .object [("statements", .array (d.statements.map PolicyStatement.toValue)),
    ("version", .string d.version)]

/-- What is written item by item is read back item by item. -/
theorem mapM_map_some {α β : Type} (f : α → β) (g : β → Option α) (h : ∀ a, g (f a) = some a)
    (l : List α) : (l.map f).mapM g = some l := by
  induction l with
  | nil => rfl
  | cons a l ih => simp [h, ih]

@[simp] theorem readStrings_stringsValue : readStrings (stringsValue items) = some items :=
  mapM_map_some Json.string Json.asString (fun _ => rfl) items

@[simp] theorem asMap_conditionsValue : Json.asMap (Json.asMap readStrings) (conditionsValue
    conditions) = some conditions := by
  refine mapM_map_some _ _ (fun (operator, keys) => ?_) conditions
  have hk : Json.asMap readStrings (.object (keys.map fun (key, values) =>
      (key, stringsValue values))) = some keys :=
    mapM_map_some _ _ (fun (key, values) => by simp) keys
  simp [hk]

@[simp] theorem fromValue_effect (e : PolicyEffect) : PolicyEffect.fromValue e.toValue = some e := by
  cases e <;> rfl

variable (key key' : String)

theorem lookup_optionalMember (value : Json) : (optionalMember skip key value).lookup key' = if key'
    = key ∧ skip = false then some value else none := by
  unfold optionalMember
  cases skip with
  | true => simp
  | false =>
    by_cases h : key' = key
    · simp [h]
    · have hb : (key' == key) = false := beq_eq_false_iff_ne.mpr h
      simp [lookup_cons, hb, h]

theorem lookup_member (value : Json) : [(key, value)].lookup key' = if key' = key then some value
    else none := by
  by_cases h : key' = key
  · simp [h]
  · have hb : (key' == key) = false := beq_eq_false_iff_ne.mpr h
    simp [lookup_cons, hb, h]

theorem all_optionalMember {key : String} {keys : List String} (h : keys.contains key = true) :
    (optionalMember skip key value).all (fun m => keys.contains m.1) = true := by
  unfold optionalMember
  cases skip with
  | true => rfl
  | false => rw [if_neg Bool.false_ne_true, all_cons, h]; rfl

/-- A list that is left out when empty is read back. -/
theorem orDefault_strings : Json.orDefault [] readStrings (if items.isEmpty = false then some
    (stringsValue items) else none) = some items := by
  cases items with
  | nil => rfl
  | cons i is => exact readStrings_stringsValue (i :: is)

theorem orDefault_conditions : Json.orDefault [] (Json.asMap (Json.asMap readStrings)) (if
    conditions.isEmpty = false then some (conditionsValue conditions) else none) = some
    conditions := by
  cases conditions with
  | nil => rfl
  | cons c cs => exact asMap_conditionsValue (c :: cs)

theorem optional_sid (sid : Option String) : Json.optional Json.asString
    (if sid.isNone = false then some (.string (sid.getD "")) else none) = some sid := by
  cases sid <;> rfl

/-- The members of a statement, each found under its name. -/
theorem PolicyStatement.toValue_record : ∃ r,
    s.toValue.record 1 ["effect", "sid", "actions", "not_actions", "resources", "not_resources",
      "conditions"] = some r ∧
    r.lookup "effect" = some s.effect.toValue ∧
    r.lookup "sid" = (if s.sid.isNone = false then some (.string (s.sid.getD "")) else none) ∧
    r.lookup "actions" = some (stringsValue s.actions) ∧
    r.lookup "not_actions" =
      (if s.notActions.isEmpty = false then some (stringsValue s.notActions) else none) ∧
    r.lookup "resources" = some (stringsValue s.resources) ∧
    r.lookup "not_resources" =
      (if s.notResources.isEmpty = false then some (stringsValue s.notResources) else none) ∧
    r.lookup "conditions" =
      (if s.conditions.isEmpty = false then some (conditionsValue s.conditions) else none) := by
  unfold PolicyStatement.toValue
  refine ⟨_, if_pos ?_, ?_⟩
  · simp only [all_append, Bool.and_eq_true]
    exact ⟨⟨⟨⟨⟨⟨rfl, all_optionalMember _ _ rfl⟩, rfl⟩, all_optionalMember _ _ rfl⟩,
      all_optionalMember _ _ rfl⟩, rfl⟩, all_optionalMember _ _ rfl⟩
  · -- the names differ, so exactly one part of the list answers each lookup
    simp only [lookup_append, lookup_member, lookup_optionalMember, String.reduceEq,
      false_and, true_and, if_false, if_true, Option.or_none, Option.none_or, and_self]

/-- Each member is found again, or was left out because its default is what is read. -/
theorem PolicyStatement.fromValue_toValue : PolicyStatement.fromValue s.toValue = some s := by
  obtain ⟨r, hr, h1, h2, h3, h4, h5, h6, h7⟩ := s.toValue_record
  unfold PolicyStatement.fromValue
  rw [hr, Option.bind_eq_bind, Option.bind_some, h1, h2, h3, h4, h5, h6, h7, orDefault_strings,
    orDefault_strings, orDefault_conditions, optional_sid]
  simp [Json.orDefault]

/-- **What is stored is read back.** -/
theorem PolicyDocument.fromValue_toValue (d : PolicyDocument) :
    PolicyDocument.fromValue d.toValue = some d := by
  have hs : Json.asList PolicyStatement.fromValue (.array (d.statements.map PolicyStatement.toValue))
      = some d.statements :=
    mapM_map_some _ _ PolicyStatement.fromValue_toValue d.statements
  have hr : d.toValue.record 2 ["version", "statements"] =
      some ([("statements", .array (d.statements.map PolicyStatement.toValue))] ++
        [("version", .string d.version)]) := rfl
  unfold PolicyDocument.fromValue
  rw [hr]
  simp only [lookup_append, lookup_member, String.reduceEq, if_false, if_true,
    Option.bind_eq_bind, Option.bind_some, Option.none_or, Option.or_none, hs, Json.asString]
  rfl

/-! ## 7. The AWS grammar -/

/-- `OneOrMany::into_vec` of an untagged value: one item, else a list of items. -/
def oneOrMany {α : Type} (read : Json → Option α) (j : Json) : Option (List α) :=
  match read j with
  | some a => some [a]
  | none => j.asList read

/-- A condition value of `parse_aws_conditions`. -/
def awsConditionValue : Json → Except DomainError String
  | .string s => .ok s
  | .int n =>
      if -9223372036854775808 ≤ n ∧ n ≤ 18446744073709551615 then .ok (toString n)
      else .error (.invalidPolicy "condition dates must be strings or whole Unix seconds")
  | _ => .error (.invalidPolicy "condition dates must be strings or whole Unix seconds")

/-- The values under one context key. -/
def awsConditionValues : Json → Except DomainError (List String)
  | .array values => values.mapM awsConditionValue
  | value => [value].mapM awsConditionValue

def parseAwsConditions : Option (List (String × List (String × Json))) →
    Except DomainError PolicyConditions
  | none => .ok []
  | some conditions =>
      if conditions.isEmpty then .error (.invalidPolicy "Condition cannot be empty")
      else conditions.mapM fun (operator, keys) => do
        let keys ← keys.mapM fun (key, values) => do
          return (key, ← awsConditionValues values)
        return (operator, keys)

/-- `AwsPolicyStatement`. -/
structure AwsPolicyStatement where
  sid : Option String
  effect : PolicyEffect
  actions : Option (List String)
  notActions : Option (List String)
  resources : Option (List String)
  notResources : Option (List String)
  conditions : Option (List (String × List (String × Json)))

def AwsPolicyStatement.fromValue (j : Json) : Option AwsPolicyStatement := do
  let r ← j.record 6 ["Sid", "Effect", "Action", "NotAction", "Resource", "NotResource",
    "Condition"]
  let sid ← Json.optional Json.asString (r.lookup "Sid")
  let effect ← (r.lookup "Effect").bind PolicyEffect.fromValue
  let actions ← Json.optional (oneOrMany Json.asString) (r.lookup "Action")
  let notActions ← Json.optional (oneOrMany Json.asString) (r.lookup "NotAction")
  let resources ← Json.optional (oneOrMany Json.asString) (r.lookup "Resource")
  let notResources ← Json.optional (oneOrMany Json.asString) (r.lookup "NotResource")
  -- `deserialize_aws_conditions` reads the map itself, so a `null` is refused here
  let conditions ← match r.lookup "Condition" with
    | none => some none
    | some c => (c.asMap (Json.asMap some)).map some
  return { sid, effect, actions, notActions, resources, notResources, conditions }

/-- `AwsPolicy`: the version and the statements. -/
def awsPolicyFromValue (j : Json) : Option (Option String × List AwsPolicyStatement) := do
  let r ← j.record 2 ["Version", "Statement"]
  let version ← Json.optional Json.asString (r.lookup "Version")
  let statements ← (r.lookup "Statement").bind (oneOrMany AwsPolicyStatement.fromValue)
  return (version, statements)

def AwsPolicyStatement.toStatement (s : AwsPolicyStatement) : Except DomainError PolicyStatement := do
  let conditions ← parseAwsConditions s.conditions
  return { effect := s.effect, sid := s.sid, actions := s.actions.getD [],
           notActions := s.notActions.getD [], resources := s.resources.getD [],
           notResources := s.notResources.getD [], conditions }

def PolicyDocument.fromAwsJson : Except DomainError PolicyDocument := do
  match awsPolicyFromValue value with
  | none => throw (.invalidPolicy ("unsupported AWS policy: " ++ lib.serdeError value))
  | some (version, statements) =>
    match version with
    | some v => if v ≠ "2012-10-17" ∧ v ≠ "2008-10-17" then throw (.unsupportedPolicyVersion v)
    | none => pure ()
    let statements ← statements.mapM AwsPolicyStatement.toStatement
    let document : PolicyDocument := { version := policyVersion, statements }
    document.validate lib
    return document

/-- The document the migrations attach everywhere: every action on every resource. -/
def fullAccess : PolicyDocument :=
  { version := policyVersion
    statements := [{ effect := .allow, actions := ["*"], resources := ["*"] }] }

/-- `FullAWSAccess`, as the migrations write it. -/
def fullAccessDocument : Json := .object [
  ("statements", .array [.object [("actions", .array [.string "*"]),
    ("effect", .string "Allow"), ("resources", .array [.string "*"])]]),
  ("version", .string "2026-07-31")]

theorem fromValue_fullAccessDocument :
    PolicyDocument.fromValue fullAccessDocument = some fullAccess := by
  decide

example (lib : ThirdParty) : fullAccess.validate lib = .ok () := rfl

end HeteroCloud.Iam
