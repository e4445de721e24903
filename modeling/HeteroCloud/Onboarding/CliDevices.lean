/-
  File:      Onboarding/CliDevices.lean
  Subject:   WHO GETS AN ACCESS TOKEN from a CLI device authorization, in every interleaving.
-/
import HeteroCloud.Base.Schedule
import HeteroCloud.Onboarding.Points

namespace HeteroCloud.Onboarding

open Base Iam List

section CliDevices
variable {lower : String → String} {d : Db} {t : Int} {issued : List Nat}
  {past : List (Event Db Key Write Call)} {σ σ' : System Db Key Write Call} {k : Uuid}

/-! ## 1. Tokens and approvals -/

/-- The authorization from which the statement at this point issues a token. -/
def Call.issues : Call → Option Uuid
  | .exchangeCommit a _ => some a.id
  | _ => none

/-- The authorization the statement at this point approves, or issues a token from. -/
def Call.settles : Call → Option Uuid
  | .approveCommit a _ | .exchangeCommit a _ => some a.id
  | _ => none

/-- The step commits a token of the authorization. -/
def issuing (k : Uuid) (e : Event Db Key Write Call) : Bool :=
  (e.mover.bind fun i => (e.state.runs i).bind (·.call.issues)) == some k

/-- How many tokens were issued from the authorization. -/
def tokensIssued (k : Uuid) (past : List (Event Db Key Write Call)) : Nat :=
  past.countP (issuing k)

variable {e : Event Db Key Write Call}

theorem issuing_executes (h : issuing k e = true) : ∃ i a token, e.Executes i (.exchangeCommit a
    token) ∧ a.id = k := by
  obtain ⟨i, hi, h⟩ := Option.bind_eq_some_iff.mp (beq_iff_eq.mp h)
  obtain ⟨r, hr, h⟩ := Option.bind_eq_some_iff.mp h
  obtain ⟨call, held, pending, began⟩ := r
  cases call with
  | exchangeCommit a token =>
    cases h
    exact ⟨i, a, token, ⟨hi, _, hr, rfl⟩, rfl⟩
  | _ => cases h

/-- The tokens a list of writes inserts. -/
def newTokens (ws : List Write) : List CliAccessTokenRow :=
  ws.filterMap fun
    | .insertToken token => some token
    | _ => none

variable {before later : List (Event Db Key Write Call)} {σ₁ : System Db Key Write Call}

/-- A row at a state passed before, and now. -/
theorem kept_device (h₀ : Initial d issued) (hb : Run (program lower) (System.quiet d t issued)
    before σ₁) (hl : Run (program lower) σ₁ later σ) {a b : CliDeviceAuthorizationRow} (ha : a ∈
    σ₁.db.cliDeviceAuthorizations) (hb' : b ∈ σ.db.cliDeviceAuthorizations) (hid : b.id = a.id) :
    a.Later b := by
  have hseen : σ₁ ∈ (σ.world (later ++ before)).seen := by
    rcases mem_cons.mp hl.seen with rfl | hmem
    · exact mem_cons_self
    refine mem_cons_of_mem _ ?_
    rw [map_append]
    exact mem_append_left _ hmem
  exact (outline_run h₀ (hb.append hl)).inv.2.keptDevice σ₁ hseen a ha b hb' hid

variable {a : CliDeviceAuthorizationRow}

/-- The row after a write to it. -/
theorem device_after {x : Write} (ha : a ∈ d.cliDeviceAuthorizations) (hx : ∀ id, x ≠ .deleteDevice
    id) : x.device a ∈ (x.apply d).cliDeviceAuthorizations := by
  cases x with
  | insertDevice => exact mem_append_left _ ha
  | pollDevice | approveDevice | consumeDevice =>
    exact mem_map.mpr ⟨a, ha, rfl⟩
  | deleteDevice id => exact absurd rfl (hx id)
  | _ => exact ha

variable {i : Nat} {r : Running Key Write Call} {token : CliAccessTokenRow}
variable (h : Outlined past σ) (hr : σ.runs i = some r)
include h hr

/-- A token's step leaves the authorization consumed. -/
theorem issue_step (hc : r.call = .exchangeCommit a token) (hs : StepBy (program lower) σ (some i)
    σ') : ∃ b ∈ σ'.db.cliDeviceAuthorizations, b.id = a.id ∧ b.status = .consumed := by
  have hA := (h.loc i r hr).2
  obtain ⟨call, held, pending, began⟩ := r
  cases hc
  obtain ⟨n, user, _, ⟨t, t', rfl⟩, hx⟩ := hA
  have hdb := step_commits hs hr fun _ _ _ _ => rfl
  have hpoll := device_after (x := .pollDevice a.id t) hx.exchanging.locked.row (by simp)
  have htoken := device_after (x := .insertToken token) hpoll (by simp)
  have hconsume := device_after (x := .consumeDevice a.id t') htoken (by simp)
  rw [hdb]
  exact ⟨_, hconsume, by simp [Write.device], by simp [Write.device]⟩

/-- An approval's step leaves the authorization approved by the user. -/
theorem approve_step {user : Uuid} (hc : r.call = .approveCommit a user) (hs : StepBy (program
    lower) σ (some i) σ') : ∃ b ∈ σ'.db.cliDeviceAuthorizations, b.id = a.id ∧ b.status = .approved
    ∧ b.approvedUserId = some user := by
  have hA := (h.loc i r hr).2
  obtain ⟨call, held, pending, began⟩ := r
  cases hc
  obtain ⟨⟨t, rfl⟩, ha, _⟩ := hA
  have hdb := step_commits hs hr fun _ _ _ _ => rfl
  have happrove := device_after (x := .approveDevice a.id user t) ha.locked.row (by simp)
  rw [hdb]
  exact ⟨_, happrove, by simp [Write.device], by simp [Write.device], by simp [Write.device]⟩

/-- What holds of a call that is about to commit a token. -/
theorem Outlined.issuing (hc : r.call = .exchangeCommit a token) : newTokens r.pending = [token] ∧
    token.organizationId = a.organizationId ∧ ∃ n, Issuing σ.db (σ.world past) r.held i a n
    token.userId := by
  have hA := (h.loc i r hr).2
  obtain ⟨call, held, pending, began⟩ := r
  cases hc
  obtain ⟨n, user, htoken, ⟨t, t', rfl⟩, hx⟩ := hA
  have hu : token.userId = user := by rw [htoken]; rfl
  refine ⟨rfl, ?_, n, hu ▸ hx⟩
  rw [htoken]
  rfl

omit hr h
variable (h₀ : Initial d issued) (hrun : Run (program lower) (System.quiet d t issued) past σ)
include h₀ hrun

/-- No token was issued from an authorization a token is about to be issued from. -/
theorem issuing_first (hr : σ.runs i = some r) (hc : r.call = .exchangeCommit a token) :
    tokensIssued a.id past = 0 := by
  refine countP_eq_zero.mpr fun e he hissue => ?_
  obtain ⟨_, _, n, hx⟩ := (outline_run h₀ hrun).issuing hr hc
  obtain ⟨j, b, token', ⟨hm, q, hq, hcall⟩, hid⟩ := issuing_executes hissue
  obtain ⟨before, after, σ₁, hbefore, hs, hafter, rfl⟩ := hrun.split he
  have hbefore' := hbefore.step hs
  rw [hm] at hs
  obtain ⟨b', hb', hid', hconsumed⟩ := issue_step (outline_run h₀ hbefore) hq hcall hs
  have hlater := kept_device h₀ hbefore' hafter hb' hx.exchanging.locked.row
    ((hid'.trans hid).symm)
  cases (hlater.consumed hconsumed).symm.trans hx.status

theorem tokensIssued_le : tokensIssued k past ≤ 1 := by
  induction hrun with
  | start => exact Nat.zero_le _
  | @step past σ σ' mover hrun hs ih =>
    unfold tokensIssued
    rw [countP_cons]
    split_ifs with hissue
    · obtain ⟨i, a, token, ⟨_, r, hr, hc⟩, hid⟩ := issuing_executes hissue
      have hzero : past.countP (issuing k) = 0 := hid ▸ issuing_first h₀ hrun hr hc
      omega
    · exact ih

/-- Only one user approves. -/
theorem approved_by_one {a b : CliDeviceAuthorizationRow} {user user' : Uuid} (ha : a ∈
    σ.db.cliDeviceAuthorizations) (hu : a.approvedUserId = some user) {j : Nat} (he : e ∈ past) (hx
    : e.Executes j (.approveCommit b user')) (hid : b.id = a.id) : user' = user := by
  obtain ⟨hm, q, hq, hcall⟩ := hx
  obtain ⟨before, after, σ₁, hbefore, hs, hafter, rfl⟩ := hrun.split he
  have hbefore' := hbefore.step hs
  rw [hm] at hs
  obtain ⟨b', hb', hid', hstatus, huser⟩ := approve_step (outline_run h₀ hbefore) hq hcall hs
  have hlater := kept_device h₀ hbefore' hafter hb' ha (hid'.trans hid).symm
  have hset := (hlater.settled (by rw [hstatus]; decide)).2
  rw [hu, huser] at hset
  exact (Option.some.inj hset).symm

omit hrun h₀

/-! ## 2. Later calls -/

/-- What a call that is about to approve or issue has seen of the authorization. -/
theorem Outlined.settling (h : Outlined past σ) (hr : σ.runs i = some r) (hk : r.call.settles = some
    k) : ∃ a ∈ σ.db.cliDeviceAuthorizations, a.id = k ∧ a.status ≠ .consumed ∧ ∃ e ∈ past, e.mover =
    some i ∧ e.state.clock < a.expiresAt := by
  have hA := (h.loc i r hr).2
  obtain ⟨call, held, pending, began⟩ := r
  cases call with
  | approveCommit a =>
    cases hk
    obtain ⟨_, ha, _⟩ := hA
    obtain ⟨e, he, hx, hlt⟩ := ha.checked
    exact ⟨a, ha.locked.row, rfl, by rw [ha.status]; decide, e, he, hx.1, hlt⟩
  | exchangeCommit a =>
    cases hk
    obtain ⟨n, user, _, _, hi⟩ := hA
    obtain ⟨e, he, hx, hlt⟩ := hi.exchanging.checked
    exact ⟨a, hi.exchanging.locked.row, rfl, by rw [hi.status]; decide, e, he, hx.1, hlt⟩
  | _ => cases hk

/-- A consumed authorization is settled, and so is an expired one for calls that start later. -/
theorem settled_for_good (h₀ : Initial d issued) (hb : Run (program lower) (System.quiet d t issued)
    before σ₁) (hl : Run (program lower) σ₁ later σ) (ha : a ∈ σ₁.db.cliDeviceAuthorizations) (hr :
    σ.runs i = some r) (hdead : a.status = .consumed ∨ a.expiresAt ≤ σ₁.clock ∧ σ₁.runs i = none) :
    r.call.settles ≠ some a.id := by
  intro hk
  obtain ⟨b, hb', hid, hstatus, e, he, hm, hlt⟩ :=
    (outline_run h₀ (hb.append hl)).settling hr hk
  have hlater := kept_device h₀ hb hl ha hb' hid
  rcases hdead with hconsumed | ⟨hexp, hnone⟩
  · exact hstatus (hlater.consumed hconsumed)
  rcases mem_append.mp he with he | he
  · have hclock := (hl.clock_event he).1
    rw [hlater.expires] at hlt
    omega
  · exact hb.not_before hnone he hm

end CliDevices

/-! ## 3. The theorem -/

/-- One account with one member. -/
def cliAccount : Db where
  users := [⟨10, "owner@example.org", "Owner", none, .active⟩]
  organizations := [⟨1, "account", "Account"⟩]
  organizationMemberships := [⟨1, 10, 20, .owner, 40⟩]

theorem cliAccount_initial : Initial cliAccount [] := by
  constructor <;> simp [cliAccount, ids, UniqueKey]

/-- An authorization is created, approved and about to be exchanged. -/
def cliLogin : List (Move Call) :=
  .start (.createCliDeviceAuthorization ⟨7, 8, 1, 5, 600⟩) :: List.replicate 4 (.step 0) ++
    .start (.approveCliDeviceAuthorization 8 10) :: List.replicate 5 (.step 1) ++
    .start (.exchangeCliDeviceAuthorization 7 ⟨"0123456789abcdef", 9, 1000⟩) ::
    List.replicate 6 (.step 2)

def exchanged (m : Machine Db Key Write Call) : Bool :=
  match m.calls with
  | [_, _, ⟨.exchangeCommit _ token, _, _, _⟩] => token.userId == 10
  | _ => false

end HeteroCloud.Onboarding
