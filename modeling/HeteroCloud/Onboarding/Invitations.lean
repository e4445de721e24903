/-
  File:      Onboarding/Invitations.lean
  Subject:   AN INVITATION IS GOOD FOR ONE MEMBERSHIP, in every interleaving.

  * `register_unread_late` -- two things that do happen: an invitation is accepted after it has
    expired, since `now()` is the time at which the transaction began, and
    `register_with_invitation` returns an error after it has registered the user, since it reads
    the session user only then.
-/
import HeteroCloud.Base.Schedule
import HeteroCloud.Onboarding.Points

namespace HeteroCloud.Onboarding

open Base Iam List
open Store (MembershipRow)

section Invitations
variable {lower : String → String} {d : Db} {t : Int} {issued : List Nat}
  {past : List (Event Db Key Write Call)} {σ σ' : System Db Key Write Call} {k : Uuid}

/-! ## 1. Acceptances -/

/-- The step commits the use of the invitation. -/
def accepting (k : Uuid) (e : Event Db Key Write Call) : Bool :=
  (e.mover.bind fun i => (e.state.runs i).bind (·.call.accepts)) == some k

variable {e : Event Db Key Write Call}

theorem accepting_iff : accepting k e = true ↔ Accepts e k := by
  unfold accepting Accepts Event.Executes
  rw [beq_iff_eq]
  constructor
  · intro h
    obtain ⟨i, hi, h⟩ := Option.bind_eq_some_iff.mp h
    obtain ⟨r, hr, h⟩ := Option.bind_eq_some_iff.mp h
    exact ⟨i, r.call, ⟨hi, r, hr, rfl⟩, h⟩
  · rintro ⟨i, c, ⟨hi, r, hr, rfl⟩, h⟩
    rw [hi, Option.bind_some, hr, Option.bind_some, h]

/-- How often the invitation has been accepted. -/
def acceptances (k : Uuid) (past : List (Event Db Key Write Call)) : Nat :=
  past.countP (accepting k)

/-- The membership a write inserts. -/
def Write.newMembership : Write → Option MembershipRow
  | .insertMembership m => some m
  | _ => none

/-- What holds of a call that is about to commit the use of an invitation. -/
structure Accepting (d : Db) (r : Running Key Write Call) (i : InvitationRow) : Prop where
  row : i ∈ d.invitations
  unused : i.usedCount = 0
  unrevoked : i.revokedAt = none
  unexpired : ∃ began, r.began = some began ∧ began < i.expiresAt
  membership : ∃ m, r.pending.filterMap Write.newMembership = [m] ∧ m.role = .member ∧
    i.organizationId = some m.organizationId
  uses : .useInvitation i.id ∈ r.pending

variable {r : Running Key Write Call}

theorem Claims.accepting {v : Invited} {m : MembershipRow} (h : Claims d r.held r.began v) (hm :
    r.pending.filterMap Write.newMembership = [m]) (hj : Joins v m) (hu : .useInvitation
    v.invitation ∈ r.pending) : ∃ i, i.id = v.invitation ∧ Accepting d r i := by
  obtain ⟨i, hi, hid, ho, hr, hused, hb⟩ := h.row
  refine ⟨i, hid, hi, hused, hr, hb, ⟨m, hm, hj.2, ?_⟩, hid ▸ hu⟩
  rw [ho, hj.1]

variable {i : Nat}

theorem At.accepting {w : View} (h : At d w i r) (hk : r.call.accepts = some k) : ∃ inv, inv.id = k
    ∧ Accepting d r inv := by
  obtain ⟨call, held, pending, began⟩ := r
  cases call with
  | joinCommit =>
    cases hk
    obtain ⟨⟨p, m, rfl, hm⟩, hv⟩ := h
    exact hv.accepting rfl hm (by simp)
  | registerCommit =>
    cases hk
    obtain ⟨⟨u, p, m, rfl, hm⟩, hv⟩ := h
    exact hv.accepting rfl hm (by simp)
  | _ => cases hk

/-- A row that is used, or that a pending write uses, is used after the writes. -/
theorem used_after {ws : List Write} {i : InvitationRow} (hi : i ∈ d.invitations)
    (hu : i.usedCount = 1 ∨ .useInvitation i.id ∈ ws) :
    ∃ j ∈ (applyAll ws d).invitations, j.id = i.id ∧ j.usedCount = 1 := by
  induction ws generalizing d i with
  | nil => exact ⟨i, hi, rfl, hu.resolve_right not_mem_nil⟩
  | cons x ws ih =>
    obtain ⟨hid, hl⟩ := x.invitation_later i
    have hrest : (x.invitation i).usedCount = 1 ∨
        .useInvitation (x.invitation i).id ∈ ws := by
      rcases hu with hu | hu
      · exact .inl (hl.used hu)
      rcases mem_cons.mp hu with rfl | hu
      · exact .inl (by simp [Write.invitation])
      · exact .inr (hid.symm ▸ hu)
    obtain ⟨j, hj, hjid, hused⟩ := ih (invitations_stay (x := x) hi) hrest
    exact ⟨j, hj, hjid.trans hid, hused⟩

/-- An acceptance leaves the invitation used. -/
theorem accept_step (h : Outlined past σ) {c : Call} (hr : σ.runs i = some r) (hc : r.call = c) (hk
    : c.accepts = some k) (hs : StepBy (program lower) σ (some i) σ') : ∃ j ∈ σ'.db.invitations,
    j.id = k ∧ j.usedCount = 1 := by
  subst hc
  obtain ⟨inv, rfl, ha⟩ := ((h.loc i r hr).2).accepting hk
  have hdb : σ'.db = applyAll r.pending σ.db := by
    obtain ⟨call, held, pending, began⟩ := r
    cases call with
    | joinCommit | registerCommit => exact step_commits hs hr fun _ _ _ _ => rfl
    | _ => cases hk
  rw [hdb]
  exact used_after ha.row (.inr ha.uses)

variable (h₀ : Initial d issued) (hrun : Run (program lower) (System.quiet d t issued) past σ)
include h₀ hrun

/-- An invitation accepted before is used. -/
theorem accepted_used (he : e ∈ past) (ha : Accepts e k) : ∃ j ∈ σ.db.invitations, j.id = k ∧
    j.usedCount = 1 := by
  obtain ⟨i, c, ⟨hm, r, hr, hc⟩, hk⟩ := ha
  obtain ⟨before, after, σ₁, hbefore, hs, hafter, rfl⟩ := hrun.split he
  rw [hm] at hs
  obtain ⟨j, hj, hid, hused⟩ := accept_step (outline_run h₀ hbefore) hr hc hk hs
  have hseen : σ₁ ∈ (σ.world (after ++ e :: before)).seen := by
    rcases mem_cons.mp hafter.seen with rfl | hmem
    · exact mem_cons_self
    refine mem_cons_of_mem _ ?_
    rw [map_append]
    exact mem_append_left _ hmem
  obtain ⟨j', hj', hid', hl⟩ := (outline_run h₀ hrun).inv.2.keptInvitation σ₁ hseen j hj
  exact ⟨j', hj', hid'.trans hid, hl.used hused⟩

/-- A call about to accept an invitation is the first one. -/
theorem accepting_first (hr : σ.runs i = some r) (hk : r.call.accepts = some k) : acceptances k past
    = 0 := by
  refine countP_eq_zero.mpr fun e he hacc => ?_
  obtain ⟨j, hj, hjid, hused⟩ := accepted_used h₀ hrun he (accepting_iff.mp hacc)
  have h := outline_run h₀ hrun
  obtain ⟨inv, rfl, ha⟩ := ((h.loc i r hr).2).accepting hk
  have hji : j = inv := h.inv.2.invitations.eq hj ha.row hjid
  rw [hji, ha.unused] at hused
  exact absurd hused (by decide)

theorem acceptances_le : acceptances k past ≤ 1 := by
  induction hrun with
  | start => exact Nat.zero_le _
  | @step past σ σ' mover hrun hs ih =>
    unfold acceptances
    rw [countP_cons]
    split_ifs with hacc
    · obtain ⟨i, c, ⟨_, r, hr, rfl⟩, hk⟩ := accepting_iff.mp hacc
      have hzero : past.countP (accepting k) = 0 := accepting_first h₀ hrun hr hk
      omega
    · exact ih

omit hrun h₀

/-! ## 2. Failed calls -/

/-- The points a call reaches before its commit, and its failures there. -/
def Call.uncommitted : Call → Bool
  | .sessionUser _ | .sessionMemberships _ | .done (.ok _) | .done (.unread _) => false
  | _ => true

/-- After a commit nothing is uncommitted. -/
theorem commit_committed {clock now : Int} {uuid : Nat → Nat} {c c' : Call}
    (h : exec lower clock now uuid d c = some (.commit c')) : c'.uncommitted = false := by
  cases c with
  | joinCommit | approveCommit | exchangeCommit | commit | registerCommit =>
    cases h
    rfl
  | done => cases h
  | createInvitation | invitationTokens | joinUse | sessionMemberships
  | createCliDeviceAuthorization | deviceTokens | approveUpdate | exchangePoll | exchangeConsume
  | setMembershipRole | removeMembership | abort => cases h
  | insertInvitation =>
    simp only [exec, insertInvitation, Option.some.injEq] at h
    split_ifs at h <;> cases h
  | joinOrganizationWithInvitation =>
    simp only [exec, joinOrganizationWithInvitation, Option.some.injEq] at h
    split at h <;> cases h
  | joinActive | joinExists =>
    simp only [exec, Option.some.injEq] at h
    split_ifs at h
    cases h
  | joinPrincipal | registerPrincipal =>
    simp only [exec, insertPrincipal, Option.some.injEq] at h
    split_ifs at h
    cases h
  | joinMembership | registerMembership | addMembership =>
    simp only [exec, insertMembership, Option.some.injEq] at h
    split_ifs at h
    cases h
  | joinOrganization | registerEmail | sessionUser =>
    simp only [exec, Option.some.injEq] at h
    split at h <;> cases h
  | registerWithInvitation =>
    simp only [exec, registerWithInvitation, Option.some.injEq] at h
    split at h <;> cases h
  | registerUse =>
    simp only [exec, registerUse, Option.some.injEq] at h
    split_ifs at h
  | registerUser =>
    simp only [exec, registerUser, Option.some.injEq] at h
    split_ifs at h
    cases h
  | insertDevice =>
    simp only [exec, insertDevice, Option.some.injEq] at h
    split_ifs at h <;> cases h
  | approveCliDeviceAuthorization =>
    simp only [exec, approveCliDeviceAuthorization, Option.some.injEq] at h
    split at h <;> cases h
  | approveCheck =>
    simp only [exec, approveCheck, Option.some.injEq] at h
    split_ifs at h <;> cases h
  | approveMember =>
    simp only [exec, approveMember, Option.some.injEq] at h
    split_ifs at h
    cases h
  | exchangeCliDeviceAuthorization =>
    simp only [exec, exchangeCliDeviceAuthorization, Option.some.injEq] at h
    split at h <;> cases h
  | exchangeCheck =>
    simp only [exec, exchangeCheck, Option.some.injEq] at h
    split_ifs at h <;> cases h
  | exchangeMember =>
    simp only [exec, exchangeMember, Option.some.injEq] at h
    split_ifs at h
    cases h
  | exchangeInsert =>
    simp only [exec, exchangeInsert, Option.some.injEq] at h
    split_ifs at h
    cases h

theorem uncommitted_clean (lower : String → String) :
    Clean (program lower) fun c => c.uncommitted = true where
  exec {t s uuid d c o} ho hn := by
    cases c with
    | sessionUser =>
      simp only [program, exec, Option.some.injEq] at ho
      split at ho <;> · subst ho; cases hn
    | sessionMemberships =>
      cases ho
      cases hn
    | done => cases ho
    | _ => rfl
  commit ho hn := by
    rw [commit_committed ho] at hn
    cases hn
  fail {c c'} hc hn := by
    cases c with
    | sessionUser | sessionMemberships =>
      cases hc
      cases hn
    | done => cases hc
    | _ => rfl

end Invitations

/-! ## 3. The theorem -/

/-- **An invitation is good for one membership.** In every state of every run: -/
theorem invitations_single_use (lower : String → String) {d : Db} {t : Int} {issued : List Nat}
    (h₀ : Initial d issued) {past : List (Event Db Key Write Call)}
    {σ : System Db Key Write Call}
    (hrun : Run (program lower) (System.quiet d t issued) past σ) :
    -- the commit of an acceptance is the first one; it inserts one membership, with role member in
    -- the organization of the invitation, which is not revoked and had not expired at its begin
    (∀ i r k, σ.runs i = some r → r.call.accepts = some k →
      acceptances k past = 0 ∧ ∃ inv, inv.id = k ∧ Accepting σ.db r inv) ∧
    -- the count says whether the invitation was accepted, which happens at most once
    (∀ inv ∈ σ.db.invitations, acceptances inv.id past ≤ 1 ∧
      (inv.usedCount = 1 ↔ acceptances inv.id past = 1)) ∧
    -- a call that failed has not changed the database
    ∀ i r error, σ.runs i = some r → r.call = .done (.failed error) → Idle i past σ := by
  have h := outline_run h₀ hrun
  refine ⟨fun i r k hr hk => ⟨accepting_first h₀ hrun hr hk, ((h.loc i r hr).2).accepting hk⟩,
    fun inv hinv => ⟨acceptances_le h₀ hrun, fun hu => ?_, fun hone => ?_⟩,
    fun i r error hr hc => ?_⟩
  · rcases h.inv.2.used inv hinv with h0 | ⟨_, e, he, ha⟩
    · rw [h0] at hu
      exact absurd hu (by decide)
    have hpos : 0 < acceptances inv.id past :=
      countP_pos_iff.mpr ⟨e, he, accepting_iff.mpr ha⟩
    have hle := acceptances_le (k := inv.id) h₀ hrun
    omega
  · have hpos : 0 < past.countP (accepting inv.id) := by
      unfold acceptances at hone
      omega
    obtain ⟨e, he, ha⟩ := countP_pos_iff.mp hpos
    obtain ⟨j, hj, hid, hused⟩ := accepted_used h₀ hrun he (accepting_iff.mp ha)
    rw [← h.inv.2.invitations.eq hj hinv hid]
    exact hused
  · refine hrun.idle (uncommitted_clean lower) fun q hq => ?_
    cases hr.symm.trans hq
    rw [hc]
    rfl

/-- One account with its owner and one invitation, which expires at 100. -/
def invitingAccount : Db where
  users := [⟨10, "owner@example.org", "Owner", none, .active⟩]
  organizations := [⟨1, "account", "Account"⟩]
  principals := [⟨20, 1, "owner", some 10, true, none⟩]
  organizationMemberships := [⟨1, 10, 20, .owner, 40⟩]
  invitations := [{ id := 50, codeHash := 7, createdBy := 10, organizationId := some 1,
                    maxUses := 1, expiresAt := 100 }]

theorem invitingAccount_initial : Initial invitingAccount [50] := by
  constructor <;> simp [invitingAccount, ids, UniqueKey]

/-- Two registrations with the same code, and a third call that joins with it. -/
def invitedThrice : List (Move Call) :=
  [.start (.registerWithInvitation ⟨7, "a@example.org", "A", "hash"⟩),
    .start (.registerWithInvitation ⟨7, "b@example.org", "B", "hash"⟩), .step 0, .step 0, .step 0,
    .step 0, .step 0, .step 0, .step 0, .step 1, .start (.joinOrganizationWithInvitation 10 7),
    .step 2]

/-- The invitation is used, and the second call was refused. -/
def usedOnce (m : Machine Db Key Write Call) : Bool :=
  match m.db.invitations, m.calls with
  | [i], [_, ⟨.done (.failed .invitationUnavailable), _, _, _⟩, _] => i.id == 50 && i.usedCount == 1
  | _, _ => false

theorem invitations_single_use_thrice : ∃ past σ,
    Run (program id) (System.quiet invitingAccount 0 [50]) past σ ∧ acceptances 50 past = 1 ∧
      Idle 1 past σ := by
  have hplay : ((Machine.quiet invitingAccount 0 [50]).play (program id) invitedThrice).any
      usedOnce = true := by
    decide +kernel
  obtain ⟨m, past, hrun, hcheck⟩ := play_any hplay
  obtain ⟨_, hcount, hfail⟩ := invitations_single_use id invitingAccount_initial hrun
  unfold usedOnce at hcheck
  split at hcheck
  · rename_i i first held pending began third hinv hcalls
    rw [Bool.and_eq_true, beq_iff_eq, beq_iff_eq] at hcheck
    have hi : i ∈ m.system.db.invitations := hinv ▸ mem_singleton_self i
    have hone := ((hcount i hi).2).mp hcheck.2
    rw [hcheck.1] at hone
    exact ⟨past, m.system, hrun, hone, hfail 1 _ _ (congrArg (·[1]?) hcalls) rfl⟩
  · cases hcheck

/-- A registration that begins in time, is committed late, and whose last lookup fails. -/
def lateRegistration : List (Move Call) :=
  [.start (.registerWithInvitation ⟨7, "a@example.org", "A", "hash"⟩), .step 0, .tick 200, .step 0,
    .step 0, .step 0, .step 0, .step 0, .step 0, .fail 0]

/-- The call returned an error, but it changed the invitation; it accepted the invitation at a time
when this had expired. -/
def unreadLate (x : Trail Db Key Write Call × Machine Db Key Write Call) : Bool :=
  (match x.2.calls with
    | [⟨.done (.unread _), _, _, _⟩] => true
    | _ => false) && x.1.changes (·.invitations) 0 x.2 &&
  x.1.any fun y => (y.2.bind fun i => y.1.calls[i]?.bind (·.call.accepts)) == some 50 &&
    y.1.db.invitations.any fun i => i.id == 50 && decide (i.expiresAt ≤ y.1.clock)

theorem register_unread_late : ∃ past σ r error,
    Run (program id) (System.quiet invitingAccount 0 [50]) past σ ∧ σ.runs 0 = some r ∧
      r.call = .done (.unread error) ∧ ¬ Idle 0 past σ ∧
      ∃ e ∈ past, Accepts e 50 ∧
        ∃ i ∈ e.state.db.invitations, i.id = 50 ∧ i.expiresAt ≤ e.state.clock := by
  have hplay : ((Machine.quiet invitingAccount 0 [50]).record (program id) []
      lateRegistration).any unreadLate = true := by
    decide +kernel
  obtain ⟨trail, m, hrun, hcheck⟩ := record_any hplay
  simp only [unreadLate, Bool.and_eq_true] at hcheck
  obtain ⟨⟨hcall, hchange⟩, hlate⟩ := hcheck
  obtain ⟨⟨m₁, who⟩, hmem, hlate⟩ := any_eq_true.mp hlate
  rw [Bool.and_eq_true] at hlate
  obtain ⟨i, hi, hexp⟩ := any_eq_true.mp hlate.2
  rw [Bool.and_eq_true, beq_iff_eq, decide_eq_true_eq] at hexp
  have hevent : ⟨m₁.system, who⟩ ∈ Trail.events trail :=
    mem_map.mpr ⟨(m₁, who), hmem, rfl⟩
  split at hcall
  · rename_i error held pending began hcalls
    exact ⟨_, m.system, _, error, hrun, congrArg (·[0]?) hcalls, rfl, Trail.not_idle hchange,
      _, hevent, accepting_iff.mp hlate.1, i, hi, hexp⟩
  · cases hcall

end HeteroCloud.Onboarding
