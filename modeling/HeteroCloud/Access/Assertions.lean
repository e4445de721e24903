/-
  File:      Access/Assertions.lean
  Subject:   THE ASSERTION AT EVERY PROGRAM POINT: what a call knows there of the database, of its
             locks and of what it has written so far.

  `At.apply`: the writes of other calls keep it. `At.mono`: so does the passing of time.
-/
import HeteroCloud.Access.Facts

namespace HeteroCloud.Access

open Base Iam Store

/-! ## 1. What has been written so far -/

variable (removal : Bool)

/-- A write that fits any state and leaves the browser sessions alone. -/
structure Quiet (x : Write) : Prop where
  fits : ∀ d w, Fits removal d w x
  browsers : ∀ d, (x.apply d).sessions = d.sessions

variable (ws : List Write)

def AllQuiet : Prop := ∀ x ∈ ws, Quiet removal x

/-- A write that prepares an assignment or a group member. -/
def Write.prepares : Write → Bool
  | .insertPrincipal _ | .insertMembership _ | .insertPolicy _ | .insertBinding _
  | .insertAccountRole _ => true
  | _ => false

def Prepares : Prop := ∀ x ∈ ws, x.prepares = true

/-- The same, with the row of at most one new role. -/
def Prepared : Prop :=
  Prepares ws ∨ ∃ xs r ys, ws = xs ++ .insertRole r :: ys ∧ Prepares xs ∧ Prepares ys

/-- Only group members have been deleted. -/
def DeletesMembers : Prop := ∀ x ∈ ws, ∃ id, x = .deleteGroupMember id

/-- Only role sessions have been deleted. -/
def DeletesSessions : Prop := ∀ x ∈ ws, ∃ id, x = .deleteRoleSession id

/-- The revocation of the role that was active. -/
def revocations (t : Int) (active : Option Uuid) : List Write :=
  active.toList.map fun k => .revokeRoleSession k t

/-! ## 2. The assertions -/

variable (lib : ThirdParty)

def RoleAt (removal : Bool) (d : Db) (w : View) (i : Nat) (held : Locks)
    (pending : List Write) : RoleCall → Prop
  | .browserRoles actor _ _ => pending = [] ∧ isIdentityCenterSession actor = false
  | .policyConditions q | .authorize q => pending = [] ∧ Asked q
  | .callerArn q principalId => pending = [] ∧ Asked q ∧ Allowed lib w i q principalId
  | .findRole q caller => pending = [] ∧ Asked q ∧ Allowed lib w i q caller.principalId ∧
      CallerOk d q caller
  | .roleTrust q caller role => pending = [] ∧ Asked q ∧ Allowed lib w i q caller.principalId ∧
      CallerOk d q caller ∧ Found d w q role
  | .lockRole g => pending = [] ∧ Approved lib d w i g
  | .purgeSessions g => pending = [] ∧ Approved lib d w i g ∧ LockedRole d w i held g
  | .countSessions g | .insertSession g =>
      DeletesSessions pending ∧ Approved lib d w i g ∧ LockedRole d w i held g
  | .commitSession g id => ∃ ws, DeletesSessions ws ∧
      pending = ws ++ [.insertRoleSession (g.row id)]
  | .switchBrowserRole s | .revokeNew s _ => pending = [] ∧ Born ids w s.new
  | .switchRevoke s previous => pending = [.setActiveRole s.tokenHash (some s.new)] ∧
      s.expected = some previous ∧ Born ids w s.new ∧ BrowserIs d held s.tokenHash s.expected
  | .switchCommit s => (∃ t, pending =
      .setActiveRole s.tokenHash (some s.new) :: revocations t s.expected) ∧
      Born ids w s.new ∧ BrowserIs d held s.tokenHash s.expected
  | .revokeNewCommit s _ => (∃ t, pending = [.revokeRoleSession s.new t]) ∧ Born ids w s.new
  | .clearUpdate tokenHash current => pending = [] ∧ BrowserIs d held tokenHash current
  | .clearRevoke tokenHash current => pending = [.setActiveRole tokenHash none] ∧
      BrowserIs d held tokenHash (some current)
  | .clearCommit tokenHash current =>
      (∃ t, pending = .setActiveRole tokenHash none :: revocations t current) ∧
      BrowserIs d held tokenHash current
  | .insertRole _ _ _ _ principal => (∃ p, pending = [.insertPrincipal p]) ∧
      (.fresh principal, .exclusive) ∈ held
  | .commitRole => ∃ p r, pending = [.insertPrincipal p, .insertRole r]
  | .deleteIamRole _ _ | .deleteRoleManaged _ _ | .deleteRoleInUse _ _
  | .deleteRolePrincipal _ _ => pending = [] ∧ removal = true
  | .deleteTokens _ _ => AllQuiet removal pending
  | _ => pending = []

def IdentityCenterAt (d : Db) (w : View) (held : Locks) (pending : List Write) :
    IdentityCenterCall → Prop
  | .commitPermissionSet => ∃ p, pending = [.insertPermissionSet p]
  | .updatePolicies _ _ _ => AllQuiet removal pending
  | .commitGroup => ∃ g, pending = [.insertGroup g]
  | .memberUser m | .memberAccounts m =>
      pending = [] ∧ GroupLocked d held m.organization m.group
  | .insertMember m => Prepares pending ∧ MemberTodo removal d held pending m []
  | .commitMember m => ∃ ws gm, pending = ws ++ [.insertGroupMember gm] ∧ Prepares ws ∧
      MemberTodo removal d held ws m [] ∧ gm.organizationId = m.organization ∧
      gm.groupId = m.group ∧ gm.userId = m.user
  | .groupInUse organization group => pending = [] ∧ GroupLocked d held organization group
  | .deleteMembers _ group => pending = [] ∧ GroupFree removal d held group
  | .markGroup _ group => DeletesMembers pending ∧ GroupFree removal d held group
  | .commitDeletedGroup _ group => (∃ ws t, DeletesMembers ws ∧
      pending = ws ++ [.deleteGroup group t]) ∧ GroupFree removal d held group
  | .lockAssignedGroup a => pending = [] ∧ a.subjectType = .group
  | .groupUsers a => pending = [] ∧ a.subjectType = .group ∧
      GroupLocked d held a.organization a.subject
  | .assignmentUser a user rest => Prepares pending ∧
      AssignmentTodo removal d held pending a (user :: rest)
  | .ensureAccountUser account user next | .ensureExists account user next
  | .ensureDetached account user next | .ensurePrincipal account user next
  | .ensureMembership account user _ next =>
      Prepares pending ∧ EnsureTodo removal d held pending account user next
  | .accountRole a | .insertRolePrincipal a =>
      Prepares pending ∧ AssignmentTodo removal d held pending a []
  | .insertAccountIamRole a role => Prepares pending ∧ (.fresh role, .exclusive) ∈ held ∧
      AssignmentTodo removal d held pending a []
  | .insertRolePolicy a role | .insertRoleBinding a role _ | .insertAccountRole a role _ =>
      Prepared pending ∧ (.fresh role, .exclusive) ∈ held ∧
        AssignmentTodo removal d held pending a []
  | .insertAssignment a _ => Prepared pending ∧ AssignmentTodo removal d held pending a []
  | .commitAssignment a => ∃ ws x, pending = ws ++ [x] ∧ Prepared ws ∧
      AssignmentTodo removal d held ws a [] ∧
      (x = .regrantAssignment a.key ∨ ∃ row, x = .insertAssignment row ∧ assignmentKey row = a.key)
  | .sessionGroup n _ _ => pending = [] ∧ SessionReady d w n
  | .sessionTarget n groupMembership => pending = [] ∧ SessionReady d w n ∧
      ∀ k, groupMembership = some k → Born ids w k
  | .sessionSource n groupMembership _ targetMembership => pending = [] ∧ SessionReady d w n ∧
      (∀ k, groupMembership = some k → Born ids w k) ∧ Born ids w targetMembership
  | .purgeSessions n c | .countSessions n c | .insertSession n c =>
      DeletesSessions pending ∧ SessionReady d w n ∧
      (∀ k, c.groupMembership = some k → Born ids w k) ∧ Born ids w c.targetMembership ∧
      Born ids w c.sourceMembership
  | .commitSession _ id => ∃ ws s, DeletesSessions ws ∧ pending = ws ++ [.insertRoleSession s] ∧
      s.id = id ∧ CapturedOk d w s
  | .removeMembership _ _ => pending = [] ∧ removal = true
  | _ => pending = []

/-- **The assertion.** A failed switch whose session could be revoked leaves it dead. -/
def At (removal : Bool) (d : Db) (w : View) (i : Nat) (r : Running Key Write Call) : Prop :=
  match r.call with
  | .role c => RoleAt lib removal d w i r.held r.pending c
  | .identityCenter c => IdentityCenterAt removal d w r.held r.pending c
  | .commit => AllQuiet removal r.pending
  | .done (.switchFailed k true _) => DeadSession d w k
  | .done _ => True

/-! ## 3. Other calls' writes -/

section Stable
variable {lib : ThirdParty} {removal : Bool} {d : Db} {w : View} {i : Nat} {x : Write}
  {held : Locks} {pending : List Write}

theorem RoleAt.apply (hx : MakesNew w x) (hk : ∀ k, (k, .exclusive) ∈ held → k ∉ x.needs)
    {c : RoleCall} (h : RoleAt lib removal d w i held pending c) :
    RoleAt lib removal (x.apply d) w i held pending c := by
  cases c with
  | findRole =>
    obtain ⟨hp, ha, hal, hc⟩ := h
    exact ⟨hp, ha, hal, hc.apply⟩
  | roleTrust =>
    obtain ⟨hp, ha, hal, hc, hf⟩ := h
    exact ⟨hp, ha, hal, hc.apply, hf.apply hx⟩
  | lockRole => exact ⟨h.1, h.2.apply hx⟩
  | purgeSessions | countSessions | insertSession =>
    exact ⟨h.1, h.2.1.apply hx, h.2.2.apply (hk _ h.2.2.lock)⟩
  | switchRevoke =>
    obtain ⟨hp, he, hn, hb⟩ := h
    exact ⟨hp, he, hn, hb.apply (hk _ hb.lock)⟩
  | switchCommit => exact ⟨h.1, h.2.1, h.2.2.apply (hk _ h.2.2.lock)⟩
  | clearUpdate | clearRevoke | clearCommit => exact ⟨h.1, h.2.apply (hk _ h.2.lock)⟩
  | _ => exact h

theorem EnsureTodo.apply {account user : Uuid} {next : Ensuring}
    (hr : removal = false → x.removesMembership = false)
    (hk : ∀ k, (k, .exclusive) ∈ held → k ∉ x.needs)
    (h : EnsureTodo removal d held pending account user next) :
    EnsureTodo removal (x.apply d) held pending account user next := by
  cases next with
  | accounts => exact ⟨h.1, h.2.apply hr (hk _ h.2.locked.lock)⟩
  | users => exact ⟨h.1, h.2.apply hr fun ht => hk _ (h.2.locked ht).lock⟩

theorem IdentityCenterAt.apply (hx : MakesNew w x)
    (hr : removal = false → x.removesMembership = false)
    (hk : ∀ k, (k, .exclusive) ∈ held → k ∉ x.needs) {c : IdentityCenterCall}
    (h : IdentityCenterAt removal d w held pending c) :
    IdentityCenterAt removal (x.apply d) w held pending c := by
  have todo {pending : List Write} {a : NewAssignment} {rest : List Uuid}
      (h : AssignmentTodo removal d held pending a rest) :
      AssignmentTodo removal (x.apply d) held pending a rest :=
    h.apply hr fun ht => hk _ (h.locked ht).lock
  cases c with
  | memberUser | memberAccounts | groupInUse | deleteMembers | markGroup | commitDeletedGroup =>
    exact ⟨h.1, h.2.apply (hk _ h.2.lock)⟩
  | insertMember => exact ⟨h.1, h.2.apply hr (hk _ h.2.locked.lock)⟩
  | commitMember =>
    obtain ⟨ws, gm, hp, hw, hm, he⟩ := h
    exact ⟨ws, gm, hp, hw, hm.apply hr (hk _ hm.locked.lock), he⟩
  | groupUsers => exact ⟨h.1, h.2.1, h.2.2.apply (hk _ h.2.2.lock)⟩
  | assignmentUser | accountRole | insertRolePrincipal | insertAssignment => exact ⟨h.1, todo h.2⟩
  | ensureAccountUser | ensureExists | ensureDetached | ensurePrincipal | ensureMembership =>
    exact ⟨h.1, h.2.apply hr hk⟩
  | insertAccountIamRole | insertRolePolicy | insertRoleBinding | insertAccountRole =>
    exact ⟨h.1, h.2.1, todo h.2.2⟩
  | commitAssignment =>
    obtain ⟨ws, y, hp, hw, ht, hy⟩ := h
    exact ⟨ws, y, hp, hw, todo ht, hy⟩
  | sessionGroup => exact ⟨h.1, h.2.apply hx⟩
  | sessionTarget | sessionSource | purgeSessions | countSessions | insertSession =>
    exact ⟨h.1, h.2.1.apply hx, h.2.2⟩
  | commitSession =>
    obtain ⟨ws, s, hq, hp, hi, hs⟩ := h
    refine ⟨ws, s, hq, hp, hi, hs.apply (fun a e => ?_) (.refl s)⟩
    subst e
    exact hx a.id (List.mem_singleton_self _)
  | _ => exact h

/-- **The assertion survives the writes of other calls.** -/
theorem At.apply {held' : Locks} {r : Running Key Write Call}
    (hx : Committed (guards removal) w held' x) (hc : Compatible held' r.held)
    (h : At lib removal d w i r) : At lib removal (x.apply d) w i r := by
  obtain ⟨call, held, pending, began⟩ := r
  have hr : removal = false → x.removesMembership = false := fun hf => by
    rw [← Bool.not_eq_true]
    exact fun h => absurd (hx.allowed h) (by simp [hf])
  have hk : ∀ k, (k, .exclusive) ∈ held → k ∉ x.needs := fun k => not_needs hx hc
  cases call with
  | role => exact RoleAt.apply (makesNew hx) hk h
  | identityCenter => exact IdentityCenterAt.apply (makesNew hx) hr hk h
  | commit => exact h
  | done result =>
    cases result with
    | switchFailed _ revoked =>
      cases revoked with
      | true => exact DeadSession.apply (makesNew hx) h
      | false => exact h
    | _ => exact h

end Stable

/-! ## 4. Later worlds -/

section Mono
variable {lib : ThirdParty} {removal : Bool} {d : Db} {w w' : View} {i : Nat} {held : Locks}
  {pending : List Write}
variable (hw : w.Grows d w')
include hw

theorem RoleAt.mono {c : RoleCall} (h : RoleAt lib removal d w i held pending c) : RoleAt lib
    removal d w' i held pending c := by
  cases c with
  | callerArn => exact ⟨h.1, h.2.1, h.2.2.mono hw⟩
  | findRole | switchRevoke => exact ⟨h.1, h.2.1, h.2.2.1.mono hw, h.2.2.2⟩
  | roleTrust =>
    exact ⟨h.1, h.2.1, h.2.2.1.mono hw, h.2.2.2.1, h.2.2.2.2.mono hw⟩
  | lockRole | switchBrowserRole | revokeNew | revokeNewCommit => exact ⟨h.1, h.2.mono hw⟩
  | purgeSessions | countSessions | insertSession => exact ⟨h.1, h.2.1.mono hw, h.2.2.mono hw⟩
  | switchCommit => exact ⟨h.1, h.2.1.mono hw, h.2.2⟩
  | _ => exact h

theorem SessionReady.mono {n : SessionAssignment} (h : SessionReady d w n) : SessionReady d w' n :=
  ⟨h.born.mono hw, h.generation⟩

theorem IdentityCenterAt.mono {c : IdentityCenterCall} (h : IdentityCenterAt removal d w held
    pending c) : IdentityCenterAt removal d w' held pending c := by
  cases c with
  | sessionGroup => exact ⟨h.1, h.2.mono hw⟩
  | sessionTarget =>
    exact ⟨h.1, h.2.1.mono hw, fun k hk => (h.2.2 k hk).mono hw⟩
  | sessionSource =>
    exact ⟨h.1, h.2.1.mono hw, fun k hk => (h.2.2.1 k hk).mono hw, h.2.2.2.mono hw⟩
  | purgeSessions | countSessions | insertSession =>
    exact ⟨h.1, h.2.1.mono hw, fun k hk => (h.2.2.1 k hk).mono hw, h.2.2.2.1.mono hw,
      h.2.2.2.2.mono hw⟩
  | commitSession =>
    obtain ⟨ws, s, hq, hp, hi, hs⟩ := h
    exact ⟨ws, s, hq, hp, hi, hs.mono fun _ hb => hb.mono hw⟩
  | _ => exact h

theorem At.mono {r : Running Key Write Call} (h : At lib removal d w i r) : At lib removal d w' i
    r := by
  obtain ⟨call, held, pending, began⟩ := r
  cases call with
  | role => exact RoleAt.mono hw h
  | identityCenter => exact IdentityCenterAt.mono hw h
  | commit => exact h
  | done result =>
    cases result with
    | switchFailed _ revoked =>
      cases revoked with
      | true => exact DeadSession.mono hw h
      | false => exact h
    | _ => exact h

end Mono
end HeteroCloud.Access
