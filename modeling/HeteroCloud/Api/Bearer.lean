/-
  File:      Api/Bearer.lean
  Subject:   BEARER TOKENS as they are made and read (crates/heterocloud-api/src/routes.rs).

  Three parsers cut a token at different underscores of an alphabet that has the underscore. Each
  reads back what was stored (`parseApiKeyPrefix_created` and the two after it), and the third
  character of a token tells which of them can read it (`Credential.accepts_letter`).
-/
import HeteroCloud.Base.Text
import HeteroCloud.Iam.Document

namespace HeteroCloud.Api

open Base Iam List

/-! ## 1. Tokens as they are made -/

/-- The alphabet of `URL_SAFE_NO_PAD`. -/
def tokenCharacter (c : Char) : Bool := c.isAlphanum || c == '-' || c == '_'

def hexDigit (c : Char) : Bool := c.isDigit || ('a' ≤ c && c ≤ 'f')

/-- A text of `n` characters of an alphabet. -/
structure Sized (n : Nat) (alphabet : Char → Bool) where
  text : List Char
  length_eq : text.length = n
  all : ∀ c ∈ text, alphabet c = true

/-- `generate_token`: 32 bytes in 43 characters. -/
abbrev Secret := Sized 43 tokenCharacter

/-- `create_api_key`: the prefix that is stored, and the key. -/
def createApiKey (p : Sized 16 hexDigit) (secret : Secret) : List Char × List Char :=
  (p.text, "hc_".toList ++ p.text ++ '_' :: secret.text)

/-- `exchange_cli_device_authorization`: the prefix that is stored, and the token. -/
def createCliAccessToken (p : Sized 16 tokenCharacter) (secret : Secret) :
    List Char × List Char :=
  (p.text, "hcu_".toList ++ p.text ++ '_' :: secret.text)

def generateFlowDeveloperCredential (fragment : Sized 16 hexDigit) (secret : Secret) :
    List Char × List Char :=
  let stored := "hcf_".toList ++ fragment.text
  (stored, stored ++ '_' :: secret.text)

/-! ## 2. Tokens as they are read; `none` is `ApiError::Unauthorized` -/

def parseApiKeyPrefix (token : List Char) : Option (List Char) :=
  match splitn '_' 3 token with
  | [first, p, secret] =>
      if first ≠ "hc".toList || byteLen p ≠ 16 || byteLen secret < 32 then none else some p
  | _ => none

def parseCliAccessTokenPrefix (token : List Char) : Option (List Char) :=
  (stripPrefix "hcu_".toList token).bind fun value => (splitAtByte 16 value).bind fun parts =>
    (stripPrefix ['_'] parts.2).bind fun secret =>
      if byteLen secret < 32 || !(parts.1 ++ secret).all tokenCharacter then none
      else some parts.1

def parseFlowDeveloperCredentialPrefix (token : List Char) : Option (List Char) :=
  (stripPrefix "hcf_".toList token).bind fun rest => (splitOnce ['_'] rest).bind fun parts =>
    if byteLen parts.1 ≠ 16 || !parts.1.all hexDigit || byteLen parts.2 ≠ 43 ||
        !parts.2.all tokenCharacter then none
    else (splitAtByte ("hcf_".length + 16) token).map (·.1)

inductive Credential where
  | apiKey
  | cliToken
  | flowDeveloper
  | workload
  | roleSession

/-- The bearer tokens of `authenticated_actor`, up to the lookup of their digest. -/
def bearer (token : List Char) : Option Credential :=
  let plain := byteLen token ≤ 256 && !token.any isWhitespace
  if "hcw_".toList.isPrefixOf token then if plain then some .workload else none
  else if "hcr_".toList.isPrefixOf token then if plain then some .roleSession else none
  else if "hcu_".toList.isPrefixOf token then
    (parseCliAccessTokenPrefix token).map fun _ => .cliToken
  else (parseApiKeyPrefix token).map fun _ => .apiKey

/-- The token is read as the credential: by its parser, or by the branch it takes. -/
def Credential.accepts (token : List Char) : Credential → Bool
  | .apiKey => (parseApiKeyPrefix token).isSome
  | .cliToken => (parseCliAccessTokenPrefix token).isSome
  | .flowDeveloper => (parseFlowDeveloperCredentialPrefix token).isSome
  | .workload => "hcw_".toList.isPrefixOf token
  | .roleSession => "hcr_".toList.isPrefixOf token

/-! ## 3. What is made is read -/

theorem tokenCharacter_ascii {c : Char} (h : tokenCharacter c = true) : c.utf8Size = 1 := by
  rcases Bool.or_eq_true_iff.mp h with h | h
  · rcases Bool.or_eq_true_iff.mp h with h | h
    · rcases Bool.or_eq_true_iff.mp h with h | h
      · rcases Bool.or_eq_true_iff.mp h with h | h
        · have hupper := UInt32.le_iff_toNat_le.mp (of_decide_eq_true h).2
          exact utf8Size_ascii (Nat.le_trans hupper (by decide))
        · exact utf8Size_ascii (Nat.le_trans (code_between h).2 (by decide))
      · exact utf8Size_ascii (Nat.le_trans (code_between h).2 (by decide))
    · rw [beq_iff_eq.mp h]
      rfl
  · rw [beq_iff_eq.mp h]
    rfl

theorem hexDigit_token {c : Char} (h : hexDigit c = true) : tokenCharacter c = true := by
  have halnum (h : c.isAlphanum = true) : tokenCharacter c = true := by simp [tokenCharacter, h]
  rcases Bool.or_eq_true_iff.mp h with h | h
  · exact halnum (Bool.or_eq_true_iff.mpr (.inr h))
  · have h := Bool.and_eq_true_iff.mp h
    have hlower : c.isLower = true := Bool.and_eq_true_iff.mpr
      ⟨h.1, decide_eq_true (Nat.le_trans (of_decide_eq_true h.2) (by decide))⟩
    exact halnum (Bool.or_eq_true_iff.mpr (.inl (Bool.or_eq_true_iff.mpr (.inr hlower))))

theorem Sized.byteLen_eq {n : Nat} {alphabet : Char → Bool} (s : Sized n alphabet)
    (h : ∀ c, alphabet c = true → tokenCharacter c = true) : byteLen s.text = n := by
  rw [byteLen_ascii fun c hc => tokenCharacter_ascii (h c (s.all c hc)), s.length_eq]

variable (p : Sized 16 hexDigit) (secret : Secret)

theorem not_mem_hex : '_' ∉ p.text :=
  fun h => absurd (p.all _ h) (by decide)

theorem parseApiKeyPrefix_created :
    parseApiKeyPrefix (createApiKey p secret).2 = some (createApiKey p secret).1 := by
  have htoken : (createApiKey p secret).2 =
      "hc".toList ++ '_' :: (p.text ++ '_' :: secret.text) := by simp [createApiKey]
  have hsplit : splitn '_' 3 (createApiKey p secret).2 = ["hc".toList, p.text, secret.text] := by
    rw [htoken, splitn_append (by decide), splitn_append (not_mem_hex p)]
    rfl
  rw [parseApiKeyPrefix, hsplit]
  simp [p.byteLen_eq fun _ => hexDigit_token, secret.byteLen_eq fun _ h => h, createApiKey]

theorem parseCliAccessTokenPrefix_created (p : Sized 16 tokenCharacter) :
    parseCliAccessTokenPrefix (createCliAccessToken p secret).2 =
      some (createCliAccessToken p secret).1 := by
  have hp := p.byteLen_eq fun _ h => h
  have hsplit := splitAtByte_append p.text ('_' :: secret.text)
  rw [hp] at hsplit
  simp [parseCliAccessTokenPrefix, createCliAccessToken, stripPrefix, hsplit,
    secret.byteLen_eq fun _ h => h]
  exact ⟨p.all, secret.all⟩

theorem parseFlowDeveloperCredentialPrefix_created :
    parseFlowDeveloperCredentialPrefix (generateFlowDeveloperCredential p secret).2 =
      some (generateFlowDeveloperCredential p secret).1 := by
  have hp := p.byteLen_eq fun _ => hexDigit_token
  have hlen : byteLen ("hcf_".toList ++ p.text) = 20 := by
    rw [byteLen_append, hp]
    rfl
  have hsplit := splitAtByte_append ("hcf_".toList ++ p.text) ('_' :: secret.text)
  rw [hlen] at hsplit
  have htoken : (generateFlowDeveloperCredential p secret).2 =
      "hcf_".toList ++ (p.text ++ '_' :: secret.text) := append_assoc _ _ _
  rw [parseFlowDeveloperCredentialPrefix, htoken, stripPrefix_append, Option.bind_some,
    splitOnce_append (not_mem_hex p), Option.bind_some, if_neg, ← append_assoc]
  · exact congrArg (Option.map _) hsplit
  · simp [hp, secret.byteLen_eq fun _ h => h]
    exact ⟨p.all, secret.all⟩

/-! ## 4. One reading at most -/

/-- The third character of a token that is read as the credential. -/
def Credential.letter : Credential → Char
  | .apiKey => '_'
  | .cliToken => 'u'
  | .flowDeveloper => 'f'
  | .workload => 'w'
  | .roleSession => 'r'

theorem Credential.accepts_letter {token : List Char} {k : Credential}
    (h : k.accepts token = true) : token[2]? = some k.letter := by
  cases k with
  | apiKey =>
    obtain ⟨p, hp⟩ := Option.isSome_iff_exists.mp h
    unfold parseApiKeyPrefix at hp
    split at hp
    · rename_i first _ _ hsplit
      obtain ⟨rest, hr⟩ := splitn_head hsplit
      simp only [Option.ite_none_left_eq_some, Bool.or_eq_true, decide_eq_true_eq, not_or,
        not_not] at hp
      rw [hr, hp.1.1.1]
      rfl
    · cases hp
  | cliToken =>
    obtain ⟨p, hp⟩ := Option.isSome_iff_exists.mp h
    obtain ⟨rest, hr, -⟩ := Option.bind_eq_some_iff.mp hp
    rw [stripPrefix_eq hr]
    rfl
  | flowDeveloper =>
    obtain ⟨p, hp⟩ := Option.isSome_iff_exists.mp h
    obtain ⟨rest, hr, -⟩ := Option.bind_eq_some_iff.mp hp
    rw [stripPrefix_eq hr]
    rfl
  | workload | roleSession =>
    obtain ⟨rest, rfl⟩ := isPrefixOf_iff_prefix.mp h
    rfl

theorem bearer_accepts {token : List Char} {k : Credential} (h : bearer token = some k) :
    k.accepts token = true := by
  simp only [bearer] at h
  split_ifs at h with hw _ hr _ hu
  · cases h
    exact hw
  · cases h
    exact hr
  · obtain ⟨p, hp, rfl⟩ := Option.map_eq_some_iff.mp h
    exact Option.isSome_iff_exists.mpr ⟨p, hp⟩
  · obtain ⟨p, hp, rfl⟩ := Option.map_eq_some_iff.mp h
    exact Option.isSome_iff_exists.mpr ⟨p, hp⟩

/-- **A bearer token is at most one kind of credential, and what is made is read back.** -/
theorem bearer_tokens_exact :
    (∀ p secret, parseApiKeyPrefix (createApiKey p secret).2 = some (createApiKey p secret).1) ∧
    (∀ p secret, parseCliAccessTokenPrefix (createCliAccessToken p secret).2 =
      some (createCliAccessToken p secret).1) ∧
    (∀ p secret, parseFlowDeveloperCredentialPrefix (generateFlowDeveloperCredential p secret).2 =
      some (generateFlowDeveloperCredential p secret).1) ∧
    (∀ token (k k' : Credential), k.accepts token = true → k'.accepts token = true → k = k') ∧
    ∀ token k, bearer token = some k → k.accepts token = true := by
  refine ⟨parseApiKeyPrefix_created, fun p secret => parseCliAccessTokenPrefix_created secret p,
    parseFlowDeveloperCredentialPrefix_created, fun token k k' h h' => ?_,
    fun _ _ => bearer_accepts⟩
  have hletter : k.letter = k'.letter :=
    Option.some.inj ((Credential.accepts_letter h).symm.trans (Credential.accepts_letter h'))
  cases k <;> cases k' <;> first | rfl | exact absurd hletter (by decide)

end HeteroCloud.Api
