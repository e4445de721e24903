/-
  File:      Onboarding/Outline.lean
  Subject:   THE PROOF OUTLINE of the operations on invitations and device authorizations: what
             holds at each point, that others' commits keep it, and that each statement leads to
             the next point.

  Two facts carry it: a call that has locked an invitation keeps it available until its own commit
  (`Claims`), and a call that has locked an authorization keeps the row it read (`Locked`).
-/
import HeteroCloud.Onboarding.Invariant

namespace HeteroCloud.Onboarding

open Base Iam
open Store (MembershipRow PrincipalRow)

/-! ## 1. Assertions -/

variable (d : Db) (held : Locks)

/-- The invitation is locked, and available as it was when the transaction began. -/
structure Claims (began : Option Int) (v : Invited) : Prop where
  held : (.invitation v.invitation, .exclusive) ∈ held
  row : ∃ i ∈ d.invitations, i.id = v.invitation ∧ i.organizationId = some v.organization ∧
    i.revokedAt = none ∧ i.usedCount = 0 ∧ ∃ t, began = some t ∧ t < i.expiresAt

/-- The membership an invitation is good for. -/
def Joins (v : Invited) (m : MembershipRow) : Prop :=
  m.organizationId = v.organization ∧ m.role = .member

/-- The authorization is locked, and the row is the one that was read. -/
structure Locked (a : CliDeviceAuthorizationRow) : Prop where
  held : (.device a.id, .exclusive) ∈ held
  row : a ∈ d.cliDeviceAuthorizations

variable (w : View) (i : Nat)

/-- The call `i` approves: it found the authorization pending and not expired. -/
structure Approving (held : Locks) (i : Nat) (a : CliDeviceAuthorizationRow)
    (user : Uuid) : Prop where
  locked : Locked d held a
  status : a.status = .pending
  checked : ∃ e ∈ w.done, e.Executes i (.approveCheck a user) ∧ e.state.clock < a.expiresAt

/-- The call `i` exchanges: it found the authorization not expired, and either pending or approved
by a user before. -/
structure Exchanging (held : Locks) (i : Nat) (a : CliDeviceAuthorizationRow)
    (n : NewToken) : Prop where
  locked : Locked d held a
  status : a.status = .pending ∨ a.status = .approved
  checked : ∃ e ∈ w.done, e.Executes i (.exchangeCheck a n) ∧ e.state.clock < a.expiresAt
  approved : a.status = .approved → ∀ user, a.approvedUserId = some user →
    ∃ t < a.expiresAt, ApprovedAt w a user t

/-- The user was a member when the call `i` looked. -/
def MemberSeen (c : Call) (a : CliDeviceAuthorizationRow) (user : Uuid) : Prop :=
  ∃ e ∈ w.done, e.Executes i c ∧ e.state.db.isMember a.organizationId user = true

/-- A token for a user who approved the authorization and is still a member. -/
structure Issuing (held : Locks) (i : Nat) (a : CliDeviceAuthorizationRow)
    (n : NewToken) (user : Uuid) : Prop where
  exchanging : Exchanging d w held i a n
  status : a.status = .approved
  approvedUser : a.approvedUserId = some user
  member : MemberSeen w i (.exchangeMember a n user) a user

/-- Writes that leave alone what the invariant is about, but for one new row at the end. -/
def Tidy (ws : List Write) : Prop :=
  ∃ gone last, ws = gone ++ [last] ∧ (∀ x ∈ gone, Harmless x) ∧
    (Harmless last ∨ (∃ n id, last = .insertInvitation (NewInvitation.row n id)) ∨
      ∃ n id, last = .insertDevice (NewDevice.row n id))

/-- What holds at each point. -/
def At (r : Running Key Write Call) : Prop :=
  match r.call with
  | .createInvitation _ | .invitationTokens _ | .insertInvitation _ |
    .createCliDeviceAuthorization _ | .deviceTokens _ | .insertDevice _ =>
      ∀ x ∈ r.pending, Harmless x
  | .joinOrganizationWithInvitation _ _ | .registerWithInvitation _ |
    .approveCliDeviceAuthorization _ _ | .exchangeCliDeviceAuthorization _ _ |
    .addMembership _ | .setMembershipRole _ _ _ | .removeMembership _ _ => r.pending = []
  | .joinActive _ v | .joinExists _ v | .joinPrincipal _ v | .registerUse _ v =>
      r.pending = [] ∧ Claims d r.held r.began v
  | .joinMembership _ v _ => (∃ p, r.pending = [.insertPrincipal p]) ∧ Claims d r.held r.began v
  | .joinUse _ v => (∃ p m, r.pending = [.insertPrincipal p, .insertMembership m] ∧ Joins v m) ∧
      Claims d r.held r.began v
  | .joinOrganization v | .joinCommit v _ =>
      (∃ p m, r.pending = [.insertPrincipal p, .insertMembership m,
        .useInvitation v.invitation] ∧ Joins v m) ∧ Claims d r.held r.began v
  | .registerEmail _ v | .registerUser _ v =>
      r.pending = [.useInvitation v.invitation] ∧ Claims d r.held r.began v
  | .registerPrincipal _ v _ => (∃ u, r.pending = [.useInvitation v.invitation, .insertUser u]) ∧
      Claims d r.held r.began v
  | .registerMembership v _ _ => (∃ u p, r.pending = [.useInvitation v.invitation, .insertUser u,
        .insertPrincipal p]) ∧ Claims d r.held r.began v
  | .registerCommit v _ => (∃ u p m, r.pending = [.useInvitation v.invitation, .insertUser u,
        .insertPrincipal p, .insertMembership m] ∧ Joins v m) ∧ Claims d r.held r.began v
  | .approveCheck a _ => r.pending = [] ∧ Locked d r.held a
  | .approveMember a user => r.pending = [] ∧ Approving d w r.held i a user
  | .approveUpdate a user => r.pending = [] ∧ Approving d w r.held i a user ∧
      MemberSeen w i (.approveMember a user) a user
  | .approveCommit a user => (∃ t, r.pending = [.approveDevice a.id user t]) ∧
      Approving d w r.held i a user ∧ MemberSeen w i (.approveMember a user) a user
  | .exchangeCheck a _ => r.pending = [] ∧ Locked d r.held a
  | .exchangePoll a n _ => r.pending = [] ∧ Exchanging d w r.held i a n
  | .exchangeMember a n user => (∃ t, r.pending = [.pollDevice a.id t]) ∧
      Exchanging d w r.held i a n ∧ a.status = .approved ∧ a.approvedUserId = some user
  | .exchangeInsert a n user => (∃ t, r.pending = [.pollDevice a.id t]) ∧
      Issuing d w r.held i a n user
  | .exchangeConsume a token => ∃ n user, token = NewToken.row n token.id user a.organizationId ∧
      (∃ t, r.pending = [.pollDevice a.id t, .insertToken token]) ∧ Issuing d w r.held i a n user
  | .exchangeCommit a token => ∃ n user, token = NewToken.row n token.id user a.organizationId ∧
      (∃ t t', r.pending = [.pollDevice a.id t, .insertToken token, .consumeDevice a.id t']) ∧
      Issuing d w r.held i a n user
  | .commit _ => Tidy r.pending
  | .sessionUser _ | .sessionMemberships _ | .abort _ | .done _ => True

/-! ## 2. Others' commits -/

section Stable
variable {d : Db} {w w' : View} {held : Locks} {began : Option Int} {i : Nat} {x : Write}
  {others : Locks} {a : CliDeviceAuthorizationRow} {user : Uuid} {n : NewToken}

section
variable (hx : Committed guards w others x) (hc : Compatible others held)
include hx hc

theorem Claims.apply {v : Invited} (h : Claims d held began v) : Claims (x.apply d) held began v :=
    by
  obtain ⟨j, hj, hid, hrest⟩ := h.row
  have hsame : x.invitation j = j := by
    cases x with
    | useInvitation id =>
      -- the invitation is locked, so it is another one
      have hne : j.id ≠ id := by
        intro he
        have hneed := hx.needs (.invitation id) List.mem_cons_self
        exact hc.exclusive hneed .exclusive (by rw [← he, hid]; exact h.held)
      simp [Write.invitation, hne]
    | _ => rfl
  exact ⟨h.held, j, hsame ▸ invitations_stay hj, hid, hrest⟩

/-- A write that changes a row of `cli_device_authorizations` holds its lock. -/
theorem Locked.apply (h : Locked d held a) : Locked (x.apply d) held a := by
  refine ⟨h.held, ?_⟩
  have hother {id : Uuid} (hneed : .device id ∈ x.needs) : (a.id == id) = false := by
    refine beq_eq_false_iff_ne.mpr fun he => ?_
    exact hc.exclusive (hx.needs (.device id) hneed) .exclusive (he ▸ h.held)
  have hupdate {id : Uuid} {f : CliDeviceAuthorizationRow → CliDeviceAuthorizationRow}
      (hne : (a.id == id) = false) : a ∈ (d.updateDevice id f).cliDeviceAuthorizations :=
    List.mem_map.mpr ⟨a, h.row, by simp [hne]⟩
  cases x with
  | insertDevice => exact List.mem_append_left _ h.row
  | pollDevice | approveDevice | consumeDevice => exact hupdate (hother List.mem_cons_self)
  | deleteDevice id =>
    have hne : (a.id == id) = false := hother List.mem_cons_self
    exact List.mem_filter.mpr ⟨h.row, by simpa using hne⟩
  | _ => exact h.row

theorem Approving.apply (h : Approving d w held i a user) : Approving (x.apply d) w held i a user :=
  ⟨h.locked.apply hx hc, h.status, h.checked⟩

theorem Exchanging.apply (h : Exchanging d w held i a n) : Exchanging (x.apply d) w held i a n :=
  ⟨h.locked.apply hx hc, h.status, h.checked, h.approved⟩

theorem Issuing.apply (h : Issuing d w held i a n user) : Issuing (x.apply d) w held i a n user :=
  ⟨h.exchanging.apply hx hc, h.status, h.approvedUser, h.member⟩

omit hc

/-- **A commit of another call keeps every assertion.** -/
theorem At.apply {r : Running Key Write Call} (hc : Compatible others r.held) (h : At d w i r) : At
    (x.apply d) w i r := by
  obtain ⟨call, held, pending, began⟩ := r
  cases call with
  | joinActive | joinExists | joinPrincipal | registerUse | joinMembership | joinUse
  | joinOrganization | joinCommit | registerEmail | registerUser | registerPrincipal
  | registerMembership | registerCommit => exact ⟨h.1, h.2.apply hx hc⟩
  | approveCheck | exchangeCheck => exact ⟨h.1, h.2.apply hx hc⟩
  | approveMember => exact ⟨h.1, h.2.apply hx hc⟩
  | approveUpdate | approveCommit => exact ⟨h.1, h.2.1.apply hx hc, h.2.2⟩
  | exchangePoll => exact ⟨h.1, h.2.apply hx hc⟩
  | exchangeMember => exact ⟨h.1, h.2.1.apply hx hc, h.2.2⟩
  | exchangeInsert => exact ⟨h.1, h.2.apply hx hc⟩
  | exchangeConsume | exchangeCommit =>
    obtain ⟨n, user, ht, hp, hi⟩ := h
    exact ⟨n, user, ht, hp, hi.apply hx hc⟩
  | _ => exact h

end

/-! ## 3. Later worlds -/

section
variable (hd : ∀ e ∈ w.done, e ∈ w'.done)
include hd

theorem Approving.mono (h : Approving d w held i a user) : Approving d w' held i a user := by
  obtain ⟨e, he, hx⟩ := h.checked
  exact ⟨h.locked, h.status, e, hd e he, hx⟩

theorem MemberSeen.mono {c : Call} (h : MemberSeen w i c a user) : MemberSeen w' i c a user := by
  obtain ⟨e, he, hx⟩ := h
  exact ⟨e, hd e he, hx⟩

theorem Exchanging.mono (h : Exchanging d w held i a n) : Exchanging d w' held i a n := by
  obtain ⟨e, he, hx⟩ := h.checked
  refine ⟨h.locked, h.status, ⟨e, hd e he, hx⟩, fun hs u hu => ?_⟩
  obtain ⟨t, ht, ha⟩ := h.approved hs u hu
  exact ⟨t, ht, ha.mono hd (Int.le_refl _)⟩

theorem Issuing.mono (h : Issuing d w held i a n user) : Issuing d w' held i a n user :=
  ⟨h.exchanging.mono hd, h.status, h.approvedUser, h.member.mono hd⟩

theorem At.mono {r : Running Key Write Call} (h : At d w i r) : At d w' i r := by
  obtain ⟨call, held, pending, began⟩ := r
  cases call with
  | approveMember | exchangePoll | exchangeInsert => exact ⟨h.1, h.2.mono hd⟩
  | approveUpdate | approveCommit => exact ⟨h.1, h.2.1.mono hd, h.2.2.mono hd⟩
  | exchangeMember => exact ⟨h.1, h.2.1.mono hd, h.2.2⟩
  | exchangeConsume | exchangeCommit =>
    obtain ⟨n, user, ht, hp, hi⟩ := h
    exact ⟨n, user, ht, hp, hi.mono hd⟩
  | _ => exact h

end
end Stable
end HeteroCloud.Onboarding
