/-
  File:      Access/Invariant.lean
  Subject:   WHAT HOLDS OF THE COMMITTED DATABASE between the commits of the operations on roles,
             role sessions and Identity Center.

  `Inv` is the invariant: primary keys; the references of role sessions are to ids that have been
  in use, and no session has captured a generation its assignment has not reached; and, as long as
  memberships are not removed, everybody whom an assignment in force covers is a member of the
  account (`Covered`). `Fits` is what a write has to respect, `Inv.apply` says that then the
  invariant is kept, and `Inv.applyAll` says it of a whole commit.
-/
import HeteroCloud.Access.Frames
import HeteroCloud.Access.IdentityCenter

namespace HeteroCloud.Access

open Base Iam Store

/-! ## 1. The invariant -/

variable (d : Db)

/-- What a role session refers to was in use, and its generation has been reached. -/
structure CapturedOk (w : View) (s : IamRoleSessionRow) : Prop where
  assignment : ∀ k, s.identityCenterAssignmentId = some k → Born ids w k
  generation : ∀ a ∈ d.identityCenterAssignments, s.identityCenterAssignmentId = some a.id →
    ∃ k, s.identityCenterAssignmentGeneration = some k ∧ k ≤ a.generation
  source : ∀ k, s.identityCenterSourceMembershipId = some k → Born ids w k
  target : ∀ k, s.identityCenterTargetMembershipId = some k → Born ids w k
  group : ∀ k, s.identityCenterGroupMembershipId = some k → Born ids w k

/-- The user is a member of the account. -/
def IsMember (account user : Uuid) : Prop :=
  ∃ m ∈ d.organizationMemberships, m.organizationId = account ∧ m.userId = user

/-- Everybody the assignment is for is a member of its account, and its group is not deleted. -/
def SubjectCovered (k : AssignmentKey) : Prop :=
  match k.subjectType with
  | .user => IsMember d k.accountId k.subjectId
  | .group => (∃ g ∈ d.identityCenterGroups, g.id = k.subjectId ∧
      g.organizationId = k.organizationId ∧ g.deletedAt = none) ∧
      ∀ m ∈ d.identityCenterGroupMembers, m.groupId = k.subjectId →
        IsMember d k.accountId m.userId

/-- **Every assignment in force covers its subject.** -/
def Covered : Prop :=
  ∀ a ∈ d.identityCenterAssignments, a.revokedAt = none → SubjectCovered d (assignmentKey a)

variable (removal : Bool)

structure Inv (d : Db) (w : View) : Prop where
  roles : UniqueKey (·.principalId) d.iamRoles
  roleSessions : UniqueKey (·.id) d.iamRoleSessions
  browsers : UniqueKey (·.tokenHash) d.sessions
  active : ∀ b ∈ d.sessions, ∀ k, b.activeRoleSessionId = some k → Born ids w k
  sets : UniqueKey (·.id) d.identityCenterPermissionSets
  groups : UniqueKey (·.id) d.identityCenterGroups
  members : ∀ m ∈ d.identityCenterGroupMembers, ∃ g ∈ d.identityCenterGroups,
    g.id = m.groupId ∧ g.organizationId = m.organizationId
  assignments : UniqueKey (·.id) d.identityCenterAssignments
  captured : ∀ s ∈ d.iamRoleSessions, CapturedOk d w s
  covered : removal = false → Covered d

/-- What a write has to respect. -/
def Fits (d : Db) (w : View) : Write → Prop
  | .insertRole r => ∀ q ∈ d.iamRoles, q.principalId ≠ r.principalId
  | .insertRoleSession s => (∀ q ∈ d.iamRoleSessions, q.id ≠ s.id) ∧ CapturedOk d w s
  | .setActiveRole _ active => ∀ k, active = some k → Born ids w k
  | .insertPermissionSet p => ∀ q ∈ d.identityCenterPermissionSets, q.id ≠ p.id
  | .insertGroup g => ∀ q ∈ d.identityCenterGroups, q.id ≠ g.id
  | .deleteGroup id _ => removal = false → ∀ a ∈ d.identityCenterAssignments, a.revokedAt = none →
      a.subjectType = .group → a.subjectId ≠ id
  | .insertGroupMember m => (∃ g ∈ d.identityCenterGroups, g.id = m.groupId ∧
      g.organizationId = m.organizationId) ∧
      (removal = false → ∀ a ∈ d.identityCenterAssignments, a.revokedAt = none →
        a.subjectType = .group → a.subjectId = m.groupId → IsMember d a.accountId m.userId)
  | .insertAssignment a => ¬ Born ids w a.id ∧
      (∀ q ∈ d.identityCenterAssignments, q.id ≠ a.id) ∧
      (removal = false → SubjectCovered d (assignmentKey a))
  | .regrantAssignment key => removal = false → SubjectCovered d key
  | .deleteMembership _ _ | .deletePrincipal _ _ => removal = true
  | _ => True

/-! ## 2. Each write keeps it -/

section Apply
variable {removal : Bool} {d : Db} {w : View} {x : Write}

/-- A write makes no assignment under an id that is born. -/
def NewAssignments (w : View) (x : Write) : Prop :=
  ∀ a, x = .insertAssignment a → ¬ Born ids w a.id

theorem CapturedOk.apply {s s' : IamRoleSessionRow} (h : CapturedOk d w s)
    (hx : NewAssignments w x) (hs : LaterSession s s') : CapturedOk (x.apply d) w s' where
  assignment k hk := h.assignment k (hs.assignment ▸ hk)
  generation a' ha' he := by
    rw [hs.assignment] at he
    rw [hs.generation]
    rcases mem_assignments x ha' with ⟨a, ha, hl⟩ | hi
    · obtain ⟨k, hk, hle⟩ := h.generation a ha (by rw [he, hl.id])
      exact ⟨k, hk, Nat.le_trans hle hl.generation⟩
    · exact absurd (h.assignment _ he) (hx a' hi)
  source k hk := by
    rcases hs.source with e | e
    · exact h.source k (e ▸ hk)
    · rw [e] at hk
      cases hk
  target k hk := by
    rcases hs.target with e | e
    · exact h.target k (e ▸ hk)
    · rw [e] at hk
      cases hk
  group k hk := by
    rcases hs.group with e | e
    · exact h.group k (e ▸ hk)
    · rw [e] at hk
      cases hk

theorem IsMember.apply {account user : Uuid} (h : IsMember d account user)
    (hx : x.removesMembership = false) : IsMember (x.apply d) account user := by
  obtain ⟨m, hm, he⟩ := h
  exact ⟨m, memberships_stay x hx hm, he⟩

/-- A subject stays covered unless its group is deleted or gets a member who is not covered. -/
theorem SubjectCovered.apply {k : AssignmentKey} (h : SubjectCovered d k)
    (hx : x.removesMembership = false)
    (hg : k.subjectType = .group → ∀ t, x ≠ .deleteGroup k.subjectId t)
    (hm : k.subjectType = .group → ∀ m, x = .insertGroupMember m → m.groupId = k.subjectId →
      IsMember d k.accountId m.userId) : SubjectCovered (x.apply d) k := by
  unfold SubjectCovered at h ⊢
  cases ht : k.subjectType with
  | user =>
    rw [ht] at h
    exact IsMember.apply h hx
  | group =>
    rw [ht] at h
    obtain ⟨⟨g, hgm, hgi, hgo, hgd⟩, hall⟩ := h
    constructor
    · obtain ⟨g', hg', hi, ho, hd⟩ := groups_stay x hgm
      exact ⟨g', hg', hi.trans hgi, ho.trans hgo, (hd (hgi ▸ hg ht)).trans hgd⟩
    intro m hmm hme
    rcases mem_members x hmm with hmm | hmm
    · exact (hall m hmm hme).apply hx
    · exact (hm ht m hmm hme).apply hx

theorem Covered.apply (h : Covered d) (hf : Fits false d w x) : Covered (x.apply d) := by
  have hx : x.removesMembership = false := by
    cases x with
    | deleteMembership | deletePrincipal => cases hf
    | _ => rfl
  intro a' ha' hr'
  rcases mem_assignments x ha' with ⟨a, ha, hl⟩ | rfl
  · rw [hl.key]
    by_cases hr : a.revokedAt = none
    · refine (h a ha hr).apply hx (fun ht t e => ?_) fun ht m e hme => ?_
      · subst e
        exact hf rfl a ha hr ht rfl
      · subst e
        exact hf.2 rfl a ha hr ht hme.symm
    · -- it comes into force again
      obtain ⟨rfl, _⟩ := hl.revoked hr hr'
      exact SubjectCovered.apply (hf rfl) rfl (fun _ _ => nofun) fun _ _ => nofun
  · exact SubjectCovered.apply (hf.2.2 rfl) rfl (fun _ _ => nofun) fun _ _ => nofun

/-- **A write that fits keeps the invariant.** -/
theorem Inv.apply (h : Inv removal d w) (hf : Fits removal d w x) :
    Inv removal (x.apply d) w where
  roles := by
    cases x with
    | insertRole => exact h.roles.insert hf
    | updateTrust => exact h.roles.update fun _ => rfl
    | deletePrincipal => exact h.roles.filter _
    | _ => exact h.roles
  roleSessions := by
    cases x with
    | insertRoleSession => exact h.roleSessions.insert hf.1
    | revokeRoleSession => exact h.roleSessions.update fun _ => rfl
    | deleteRoleSession => exact h.roleSessions.filter _
    | deleteMembership | deleteGroupMember => exact h.roleSessions.map fun _ => rfl
    | deletePrincipal =>
      refine UniqueKey.map (UniqueKey.filter ?_ _) fun _ => rfl
      exact h.roleSessions.map fun _ => rfl
    | _ => exact h.roleSessions
  browsers := by
    cases x with
    | setActiveRole => exact h.browsers.update fun _ => rfl
    | _ => exact h.browsers
  active b' hb' k hk := by
    obtain ⟨b, hb, _, rfl | ⟨active, rfl, he⟩⟩ := mem_sessions x hb'
    · exact h.active b' hb k hk
    · exact hf k (he ▸ hk)
  sets := by
    cases x with
    | insertPermissionSet => exact h.sets.insert hf
    | updatePermissionSet | deletePermissionSet => exact h.sets.update fun _ => rfl
    | _ => exact h.sets
  groups := by
    cases x with
    | insertGroup => exact h.groups.insert hf
    | deleteGroup => exact h.groups.update fun _ => rfl
    | _ => exact h.groups
  members m hm := by
    have hg : ∃ g ∈ d.identityCenterGroups, g.id = m.groupId ∧
        g.organizationId = m.organizationId := by
      rcases mem_members x hm with hm | rfl
      · exact h.members m hm
      · exact hf.1
    obtain ⟨g, hg, hi, ho⟩ := hg
    obtain ⟨g', hg', hi', ho', _⟩ := groups_stay x hg
    exact ⟨g', hg', hi'.trans hi, ho'.trans ho⟩
  assignments := by
    cases x with
    | insertAssignment => exact h.assignments.insert hf.2.1
    | regrantAssignment | revokeAssignment => exact h.assignments.update fun _ => rfl
    | _ => exact h.assignments
  captured s' hs' := by
    have hx : NewAssignments w x := fun a e => by
      subst e
      exact hf.1
    rcases mem_roleSessions x hs' with ⟨s, hs, hl⟩ | rfl
    · exact (h.captured s hs).apply hx hl
    · exact CapturedOk.apply hf.2 hx (.refl s')
  covered hr := by
    subst hr
    exact (h.covered rfl).apply hf

end Apply

/-! ## 3. A commit keeps it -/

/-- The writes fit one after another. -/
def FitsAll (removal : Bool) (w : View) : List Write → Db → Prop
  | [], _ => True
  | x :: ws, d => Fits removal d w x ∧ FitsAll removal w ws (x.apply d)

def applyAll (ws : List Write) (d : Db) : Db := ws.foldl (fun d x => x.apply d) d

section Commit
variable {removal : Bool} {d : Db} {w w' : View} {ws ws' : List Write}

theorem applyAll_append : applyAll (ws ++ ws') d = applyAll ws' (applyAll ws d) :=
  List.foldl_append

theorem fitsAll_append :
    FitsAll removal w (ws ++ ws') d ↔
      FitsAll removal w ws d ∧ FitsAll removal w ws' (applyAll ws d) := by
  induction ws generalizing d with
  | nil => simp [FitsAll, applyAll]
  | cons x ws ih =>
    show _ ∧ FitsAll removal w (ws ++ ws') (x.apply d) ↔ (_ ∧ _) ∧ _
    rw [ih, and_assoc]
    rfl

theorem Inv.applyAll (h : Inv removal d w) (hf : FitsAll removal w ws d) :
    Inv removal (applyAll ws d) w := by
  induction ws generalizing d with
  | nil => exact h
  | cons _ _ ih => exact ih (h.apply hf.1) hf.2

/-- Ids stay born. -/
def StillBorn (w w' : View) : Prop := ∀ k, Born ids w k → Born ids w' k

theorem CapturedOk.mono {s : IamRoleSessionRow} (hw : StillBorn w w') (h : CapturedOk d w s) :
    CapturedOk d w' s :=
  ⟨fun k hk => hw k (h.assignment k hk), h.generation, fun k hk => hw k (h.source k hk),
    fun k hk => hw k (h.target k hk), fun k hk => hw k (h.group k hk)⟩

theorem Inv.mono (hw : StillBorn w w') (h : Inv removal d w) : Inv removal d w' :=
  { h with
    active := fun b hb k hk => hw k (h.active b hb k hk)
    captured := fun s hs => (h.captured s hs).mono hw }

end Commit
end HeteroCloud.Access
