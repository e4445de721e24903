/-
  File:      Access/Facts.lean
  Subject:   WHAT A CALL KNOWS about a role, a role session and a browser session, about a group, an
             assignment and the memberships it has ensured, and why the commits of other calls
             leave it true.

  Adding a member to a group and assigning the group each go through what the other one writes.
  Both hold the lock of the group, so what is still to be ensured (`MemberTodo`,
  `AssignmentTodo`) does not grow under their hands.
-/
import HeteroCloud.Access.Invariant

namespace HeteroCloud.Access

open Base Iam Store Api

section Roles

/-! ## 1. Facts -/

/-- The step of the call `i` that executed its statement at the point `c`. -/
def Executed (e : Event Db Key Write Call) (i : Nat) (c : Call) : Prop :=
  e.mover = some i ∧ ∃ r, e.state.runs i = some r ∧ r.call = c

/-- The request passed the checks, and its actor is no Identity Center session. -/
structure Asked (q : Request) : Prop where
  request : RequestOk q
  actor : isIdentityCenterSession q.actor = false

variable (lib : ThirdParty)

/-- The actor, acting as `principalId`, was evaluated Allow for the role's ARN. -/
def Allowed (w : View) (i : Nat) (q : Request) (principalId : Uuid) : Prop :=
  ∃ e ∈ w.done, Executed e i (.role (.authorize q)) ∧ ∃ context evaluation,
    evaluateActor lib e.state.db q.actor q.source "sts:AssumeRole" q.roleArn false e.state.clock =
      .ok (context, evaluation) ∧ evaluation.decision = .allow ∧ context.principalId = principalId

variable (d : Db)

/-- The account number of the caller is that of the source account, which it keeps. -/
def CallerOk (q : Request) (caller : Caller) : Prop :=
  ∃ a ∈ d.organizations, a.id = q.source ∧ a.numberText = caller.accountNumber

/-- The role that was found: while it exists, it is the one with the requested ARN. -/
structure Found (w : View) (q : Request) (role : IamRole) : Prop where
  born : Born ids w role.principalId
  arn : ∃ a ∈ d.organizations, a.id = role.organizationId ∧
    ∀ r ∈ d.iamRoles, r.principalId = role.principalId →
      r.organizationId = role.organizationId ∧ iamRoleArn a.numberText r.name = q.roleArn

/-- **All that is checked before the session is made.** -/
structure Approved (w : View) (i : Nat) (g : Grant) : Prop where
  asked : Asked g.request
  allowed : Allowed lib w i g.request g.caller.principalId
  caller : CallerOk d g.request g.caller
  found : Found d w g.request g.role
  unmanaged : d.isIdentityCenterRole g.role.organizationId g.role.principalId = false
  trusted : trusts lib g.role g.caller = .ok true
  expiry : ∃ e ∈ w.done, Executed e i (.role (.roleTrust g.request g.caller g.role)) ∧
    g.expiresAt = e.state.clock + seconds g.request.durationSeconds

/-- The role is locked; it trusts the caller and allows the duration. -/
structure LockedRole (w : View) (i : Nat) (held : Locks) (g : Grant) : Prop where
  lock : (.role g.role.principalId, .exclusive) ∈ held
  row : ∃ r ∈ d.iamRoles, r.principalId = g.role.principalId ∧
    r.trustPolicy = g.role.trustPolicy ∧ g.request.durationSeconds ≤ r.maxSessionSeconds
  enabled : ∃ e ∈ w.done, Executed e i (.role (.lockRole g)) ∧
    e.state.db.enabledPrincipal g.role.organizationId g.role.principalId = true

/-- The browser session is locked, and this is its active role. -/
structure BrowserIs (held : Locks) (tokenHash : Nat) (active : Option Uuid) : Prop where
  lock : (.browser tokenHash, .exclusive) ∈ held
  row : ∃ b ∈ d.sessions, b.tokenHash = tokenHash
  active : ∀ b ∈ d.sessions, b.tokenHash = tokenHash → b.activeRoleSessionId = active

/-- The role session was there, and is revoked or gone. -/
structure DeadSession (w : View) (k : Uuid) : Prop where
  born : Born ids w k
  revoked : ∀ s ∈ d.iamRoleSessions, s.id = k → s.revokedAt ≠ none

/-! ## 2. Other calls' writes -/

section Stable
variable {lib : ThirdParty} {removal : Bool} {d : Db} {w : View} {i : Nat} {x : Write}
  {held held' : Locks} {q : Request} {g : Grant}

/-- A write makes only ids that are not born. -/
def MakesNew (w : View) (x : Write) : Prop := ∀ k ∈ x.makes, ¬ Born ids w k

variable (hx : Committed (guards removal) w held x)
include hx

theorem makesNew : MakesNew w x := hx.unborn

/-- What one call has locked, the writes of another do not need. -/
theorem not_needs (hc : Compatible held held') {k : Key} (hk : (k, .exclusive) ∈ held') : k ∉
    x.needs :=
  fun h => hc.exclusive (hx.needs k h) .exclusive hk

omit hx

theorem MakesNew.ne (hx : MakesNew w x) {k n : Uuid} (hk : Born ids w k) (hn : n ∈ x.makes) :
    n ≠ k :=
  fun e => hx n hn (e ▸ hk)

theorem CallerOk.apply {caller : Caller} (h : CallerOk d q caller) :
    CallerOk (x.apply d) q caller := by
  unfold CallerOk
  rw [apply_organizations]
  exact h

theorem Found.apply {role : IamRole} (hx : MakesNew w x) (h : Found d w q role) :
    Found (x.apply d) w q role := by
  obtain ⟨a, ha, hao, hall⟩ := h.arn
  refine ⟨h.born, a, by rwa [apply_organizations], hao, fun r' hr' hp => ?_⟩
  rcases mem_roles x hr' with ⟨r, hr, hs⟩ | rfl
  · rw [hs.organizationId, hs.name]
    exact hall r hr (hs.principalId ▸ hp)
  · exact absurd hp (hx.ne h.born (List.mem_singleton_self _))

theorem unmanaged_apply {account principal : Uuid} (hx : MakesNew w x)
    (hb : Born ids w principal) (h : d.isIdentityCenterRole account principal = false) :
    (x.apply d).isIdentityCenterRole account principal = false := by
  unfold Db.isIdentityCenterRole at h ⊢
  rw [List.any_eq_false] at h ⊢
  intro r hr he
  rcases mem_accountRoles x hr with hr | rfl
  · exact h r hr he
  · rw [Bool.and_eq_true, beq_iff_eq, beq_iff_eq] at he
    exact hx.ne hb (List.mem_singleton_self _) he.2

theorem Approved.apply (hx : MakesNew w x) (h : Approved lib d w i g) :
    Approved lib (x.apply d) w i g :=
  { h with
    caller := h.caller.apply
    found := h.found.apply hx
    unmanaged := unmanaged_apply hx h.found.born h.unmanaged }

theorem LockedRole.apply (hx : Key.role g.role.principalId ∉ x.needs)
    (h : LockedRole d w i held g) : LockedRole (x.apply d) w i held g := by
  obtain ⟨r, hr, hp, hall⟩ := h.row
  exact { h with row := ⟨r, roles_stay x (hp ▸ hx) hr, hp, hall⟩ }

theorem BrowserIs.apply {tokenHash : Nat} {active : Option Uuid}
    (hx : Key.browser tokenHash ∉ x.needs) (h : BrowserIs d held tokenHash active) :
    BrowserIs (x.apply d) held tokenHash active := by
  obtain ⟨b, hb, he⟩ := h.row
  refine ⟨h.lock, ⟨b, sessions_stay x (he ▸ hx) hb, he⟩, fun b' hb' he' => ?_⟩
  obtain ⟨c, hc, hch, rfl | ⟨a, rfl, _⟩⟩ := mem_sessions x hb'
  · exact h.active b' hc he'
  · exact absurd (List.mem_singleton.mpr (by rw [← hch, he'])) hx

theorem DeadSession.apply {k : Uuid} (hx : MakesNew w x) (h : DeadSession d w k) :
    DeadSession (x.apply d) w k := by
  refine ⟨h.born, fun s' hs' he => ?_⟩
  rcases mem_roleSessions x hs' with ⟨s, hs, hl⟩ | rfl
  · exact hl.revoked (h.revoked s hs (hl.id ▸ he))
  · exact absurd he (hx.ne h.born (List.mem_singleton_self _))

/-- A write that revokes the session leaves it dead. -/
theorem DeadSession.revoke {k : Uuid} {t : Int} (hb : Born ids w k) :
    DeadSession ((Write.revokeRoleSession k t).apply d) w k := by
  refine ⟨hb, fun s' hs' he => ?_⟩
  obtain ⟨s, hs, ⟨_, rfl⟩ | ⟨hp, rfl⟩⟩ := mem_updateWhere hs'
  · exact nofun
  · intro hn
    simp [he, hn] at hp

end Stable

/-! ## 3. Later worlds -/

section Mono
variable {lib : ThirdParty} {d d' : Db} {w w' : View} {i : Nat} {held : Locks} {q : Request}
  {g : Grant}
variable (hw : w.Grows d' w')
include hw

theorem Allowed.mono {p : Uuid} (h : Allowed lib w i q p) : Allowed lib w' i q p := by
  obtain ⟨e, he, hall⟩ := h
  exact ⟨e, hw.done e he, hall⟩

theorem Found.mono {role : IamRole} (h : Found d w q role) : Found d w' q role :=
  ⟨h.born.mono hw, h.arn⟩

theorem Approved.mono (h : Approved lib d w i g) : Approved lib d w' i g := by
  obtain ⟨e, he, hall⟩ := h.expiry
  exact { h with
    allowed := h.allowed.mono hw
    found := h.found.mono hw
    expiry := ⟨e, hw.done e he, hall⟩ }

theorem LockedRole.mono (h : LockedRole d w i held g) : LockedRole d w' i held g := by
  obtain ⟨e, he, hall⟩ := h.enabled
  exact { h with enabled := ⟨e, hw.done e he, hall⟩ }

theorem DeadSession.mono {k : Uuid} (h : DeadSession d w k) : DeadSession d w' k :=
  ⟨h.born.mono hw, h.revoked⟩

end Mono
end Roles

/-! ## 4. Groups and assignments -/

variable (d : Db)

/-- The user is a member of the account, or becomes one with this transaction. -/
def Ensured (pending : List Write) (account user : Uuid) : Prop :=
  IsMember d account user ∨ ∃ m, .insertMembership m ∈ pending ∧ m.organizationId = account ∧
    m.userId = user

/-- The group is locked and not deleted. -/
structure GroupLocked (held : Locks) (organization group : Uuid) : Prop where
  lock : (.group group, .exclusive) ∈ held
  live : ∃ g ∈ d.identityCenterGroups, g.id = group ∧ g.organizationId = organization ∧
    g.deletedAt = none

/-- An assignment of the group in force. -/
def AssignsGroup (group : Uuid) (a : IdentityCenterAssignmentRow) : Prop :=
  a.revokedAt = none ∧ a.subjectType = .group ∧ a.subjectId = group

variable (removal : Bool)

/-- The group is locked, and nothing is assigned to it. -/
structure GroupFree (d : Db) (held : Locks) (group : Uuid) : Prop where
  lock : (.group group, .exclusive) ∈ held
  free : removal = false → ∀ a ∈ d.identityCenterAssignments, ¬ AssignsGroup group a

/-- The new member has yet to become a member of the accounts `rest`. -/
structure MemberTodo (d : Db) (held : Locks) (pending : List Write)
    (m : MemberChange) (rest : List Uuid) : Prop where
  locked : GroupLocked d held m.organization m.group
  todo : removal = false → ∀ a ∈ d.identityCenterAssignments, AssignsGroup m.group a →
    a.accountId ∈ rest ∨ Ensured d pending a.accountId m.user

/-- Whom the assignment is for. -/
def Subject (a : NewAssignment) (user : Uuid) : Prop :=
  match a.subjectType with
  | .user => user = a.subject
  | .group => ∃ m ∈ d.identityCenterGroupMembers, m.groupId = a.subject ∧ m.userId = user

/-- The users `rest` have yet to become members of the account. -/
structure AssignmentTodo (d : Db) (held : Locks) (pending : List Write)
    (a : NewAssignment) (rest : List Uuid) : Prop where
  locked : a.subjectType = .group → GroupLocked d held a.organization a.subject
  todo : removal = false → ∀ user, Subject d a user →
    user ∈ rest ∨ Ensured d pending a.account user

/-- What is left when `ensure_account_user` works on `account` and `user`. -/
def EnsureTodo (d : Db) (held : Locks) (pending : List Write)
    (account user : Uuid) : Ensuring → Prop
  | .accounts m rest => user = m.user ∧ MemberTodo removal d held pending m (account :: rest)
  | .users a rest => account = a.account ∧
      AssignmentTodo removal d held pending a (user :: rest)

/-- The assignment was there, in a generation it has not fallen behind. -/
structure SessionReady (w : View) (n : SessionAssignment) : Prop where
  born : Born ids w n.assignment
  generation : ∀ a ∈ d.identityCenterAssignments, a.id = n.assignment →
    n.generation ≤ a.generation

/-! ## 5. Other calls' writes -/

section Stable
variable {removal : Bool} {d : Db} {w : View} {x : Write} {held : Locks} {pending : List Write}

theorem Ensured.apply {account user : Uuid} (hx : x.removesMembership = false)
    (h : Ensured d pending account user) : Ensured (x.apply d) pending account user :=
  h.imp_left fun h => h.apply hx

variable {group : Uuid}

theorem GroupLocked.apply {organization : Uuid} (hx : Key.group group ∉ x.needs) (h : GroupLocked d
    held organization group) : GroupLocked (x.apply d) held organization group := by
  obtain ⟨g, hg, hi, ho, hd⟩ := h.live
  obtain ⟨g', hg', hi', ho', hd'⟩ := groups_stay x hg
  refine ⟨h.lock, g', hg', hi'.trans hi, ho'.trans ho, (hd' fun t e => ?_).trans hd⟩
  rw [e, ← hi] at hx
  exact hx (List.mem_singleton_self _)

theorem groupKeys_mem {k : AssignmentKey} (h : k.subjectType = .group) :
    Key.group k.subjectId ∈ k.groupKeys := by
  unfold AssignmentKey.groupKeys
  rw [h]
  exact List.mem_singleton_self _

/-- Under its lock a group gets no new assignment. -/
theorem assignsGroup_apply (hx : Key.group group ∉ x.needs) {a' : IdentityCenterAssignmentRow} (h :
    a' ∈ (x.apply d).identityCenterAssignments) (ha' : AssignsGroup group a') : ∃ a ∈
    d.identityCenterAssignments, AssignsGroup group a ∧ a.accountId = a'.accountId := by
  obtain ⟨hr', ht, hs⟩ := ha'
  rcases mem_assignments x h with ⟨a, ha, hl⟩ | rfl
  · have hkey := hl.key
    simp only [assignmentKey, AssignmentKey.mk.injEq] at hkey
    obtain ⟨_, _, hacc, hty, hsu⟩ := hkey
    by_cases hr : a.revokedAt = none
    · exact ⟨a, ha, ⟨hr, hty ▸ ht, hsu ▸ hs⟩, hacc.symm⟩
    obtain ⟨rfl, _⟩ := hl.revoked hr hr'
    have hg : Key.group a.subjectId ∈ (assignmentKey a).groupKeys :=
      groupKeys_mem (hty.symm.trans ht)
    exact absurd (by rwa [← hsu, hs] at hg) hx
  · have hg : Key.group a'.subjectId ∈ (assignmentKey a').groupKeys := groupKeys_mem ht
    exact absurd (by rwa [hs] at hg) hx

theorem GroupFree.apply (hx : Key.group group ∉ x.needs) (h : GroupFree removal d held group) :
    GroupFree removal (x.apply d) held group := by
  refine ⟨h.lock, fun hr a' ha' has => ?_⟩
  obtain ⟨a, ha, has, _⟩ := assignsGroup_apply hx ha' has
  exact h.free hr a ha has

variable {rest : List Uuid}

theorem MemberTodo.apply {m : MemberChange} (hr : removal = false → x.removesMembership = false) (hx
    : Key.group m.group ∉ x.needs) (h : MemberTodo removal d held pending m rest) : MemberTodo
    removal (x.apply d) held pending m rest := by
  refine ⟨h.locked.apply hx, fun hf a' ha' has => ?_⟩
  obtain ⟨a, ha, has, he⟩ := assignsGroup_apply hx ha' has
  rw [← he]
  exact (h.todo hf a ha has).imp_right fun h => h.apply (hr hf)

variable {a : NewAssignment}

theorem Subject.old {user : Uuid} (hx : a.subjectType = .group → Key.group a.subject ∉ x.needs) (h :
    Subject (x.apply d) a user) : Subject d a user := by
  unfold Subject at h ⊢
  cases ht : a.subjectType with
  | user =>
    rw [ht] at h
    exact h
  | group =>
    rw [ht] at h
    obtain ⟨m, hm, hg, hu⟩ := h
    rcases mem_members x hm with hm | rfl
    · exact ⟨m, hm, hg, hu⟩
    · exact absurd (List.mem_singleton.mpr (by rw [hg])) (hx ht)

theorem AssignmentTodo.apply (hr : removal = false → x.removesMembership = false) (hx :
    a.subjectType = .group → Key.group a.subject ∉ x.needs) (h : AssignmentTodo removal d held
    pending a rest) : AssignmentTodo removal (x.apply d) held pending a rest :=
  ⟨fun ht => (h.locked ht).apply (hx ht), fun hf user hs =>
    (h.todo hf user (hs.old hx)).imp_right fun h => h.apply (hr hf)⟩

theorem SessionReady.apply {n : SessionAssignment} (hx : MakesNew w x) (h : SessionReady d w n) :
    SessionReady (x.apply d) w n := by
  refine ⟨h.born, fun a' ha' he => ?_⟩
  rcases mem_assignments x ha' with ⟨a, ha, hl⟩ | rfl
  · exact Nat.le_trans (h.generation a ha (hl.id ▸ he)) hl.generation
  · exact absurd he (hx.ne h.born (List.mem_singleton_self _))

end Stable

/-! ## 6. Own writes -/

section Own
variable {removal : Bool} {d : Db} {held held' : Locks} {pending pending' : List Write}

theorem Ensured.more {account user : Uuid} (hp : ∀ x ∈ pending, x ∈ pending')
    (h : Ensured d pending account user) : Ensured d pending' account user := by
  rcases h with h | ⟨m, hm, he⟩
  · exact .inl h
  · exact .inr ⟨m, hp _ hm, he⟩

section
variable (hh : ∀ l ∈ held, l ∈ held')
include hh

theorem GroupLocked.more {organization group : Uuid} (h : GroupLocked d held organization group) :
    GroupLocked d held' organization group :=
  ⟨hh _ h.lock, h.live⟩

theorem GroupFree.more {group : Uuid} (h : GroupFree removal d held group) : GroupFree removal d
    held' group :=
  ⟨hh _ h.lock, h.free⟩

variable (hp : ∀ x ∈ pending, x ∈ pending')
include hp
variable {rest : List Uuid}

theorem MemberTodo.more {m : MemberChange} (h : MemberTodo removal d held pending m rest) :
    MemberTodo removal d held' pending' m rest :=
  ⟨h.locked.more hh, fun hr a ha has => (h.todo hr a ha has).imp_right fun h => h.more hp⟩

theorem AssignmentTodo.more {a : NewAssignment} (h : AssignmentTodo removal d held pending a rest) :
    AssignmentTodo removal d held' pending' a rest :=
  ⟨fun ht => (h.locked ht).more hh, fun hr u hs => (h.todo hr u hs).imp_right fun h => h.more hp⟩

theorem EnsureTodo.more {account user : Uuid} {next : Ensuring} (h : EnsureTodo removal d held
    pending account user next) : EnsureTodo removal d held' pending' account user next := by
  cases next with
  | accounts | users => exact ⟨h.1, h.2.more hh hp⟩

end
variable {rest : List Uuid}

/-- One account is done. -/
theorem MemberTodo.done {m : MemberChange} {account : Uuid} (h : MemberTodo removal d held pending m
    (account :: rest)) (he : Ensured d pending account m.user) : MemberTodo removal d held pending m
    rest := by
  refine ⟨h.locked, fun hr a ha has => ?_⟩
  rcases h.todo hr a ha has with hm | hm
  · rcases List.mem_cons.mp hm with e | hm
    · exact .inr (e ▸ he)
    · exact .inl hm
  · exact .inr hm

/-- One user is done. -/
theorem AssignmentTodo.done {a : NewAssignment} {user : Uuid} (h : AssignmentTodo removal d held
    pending a (user :: rest)) (he : Ensured d pending a.account user) : AssignmentTodo removal d
    held pending a rest := by
  refine ⟨h.locked, fun hr u hs => ?_⟩
  rcases h.todo hr u hs with hm | hm
  · rcases List.mem_cons.mp hm with e | hm
    · exact .inr (e ▸ he)
    · exact .inl hm
  · exact .inr hm

end Own
end HeteroCloud.Access
