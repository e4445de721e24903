/-
  File:      Access/IdentityCenterSessions.lean
  Subject:   WHAT IDENTITY CENTER PROMISES in every interleaving: who is assigned to an account is a
             member of it, and a session that has lost what it was made from never comes back.

  * `identityCenterSession_never_revived` -- assignments are regranted in a new generation, and the
    ids of memberships are never used again, so that whatever is granted later, `Gone` stays true.
-/
import HeteroCloud.Access.AssumedRoles

namespace HeteroCloud.Access

open Base Iam Store Api List

/-! ## 1. Assignments -/

/-- **Who is assigned is a member**, in every run without other removals of memberships. -/
theorem assignments_cover (lib : ThirdParty) {d : Db} {t : Int} {issued : List Nat}
    (h₀ : Initial false d issued) {past : List (Event Db Key Write Call)}
    {σ : System Db Key Write Call}
    (hrun : Run (program lib false) (System.quiet d t issued) past σ) :
    ∀ a ∈ σ.db.identityCenterAssignments, a.revokedAt = none →
      (a.subjectType = .user → IsMember σ.db a.accountId a.subjectId) ∧
      (a.subjectType = .group →
        (∃ g ∈ σ.db.identityCenterGroups, g.id = a.subjectId ∧ g.deletedAt = none) ∧
        (∀ g ∈ σ.db.identityCenterGroups, g.id = a.subjectId → g.deletedAt = none) ∧
        ∀ m ∈ σ.db.identityCenterGroupMembers, m.groupId = a.subjectId →
          IsMember σ.db a.accountId m.userId) := by
  intro a ha hrev
  have hI := (outline_run h₀ hrun).inv.2
  have hcov := hI.covered rfl a ha hrev
  unfold SubjectCovered at hcov
  constructor
  · intro ht
    rw [show (assignmentKey a).subjectType = .user from ht] at hcov
    exact hcov
  intro ht
  rw [show (assignmentKey a).subjectType = .group from ht] at hcov
  obtain ⟨⟨g, hg, hgi, _, hgd⟩, hall⟩ := hcov
  refine ⟨⟨g, hg, hgi, hgd⟩, fun g' hg' hi => ?_, hall⟩
  rw [hI.groups.eq hg' hg (hi.trans hgi.symm)]
  exact hgd

/-- A user of the management account 1 with a revoked assignment to the account 2, and the session
that was made from it. -/
def directory : Db where
  users := [⟨10, "user", .active⟩]
  organizations := [⟨1, 100000000001⟩, ⟨2, 100000000002⟩]
  principals := [⟨20, 1, "user", some 10, true, none⟩, ⟨21, 2, "user", some 10, true, none⟩,
    ⟨30, 2, "role", none, true, none⟩]
  organizationMemberships := [⟨1, 10, 20, .owner, 40⟩, ⟨2, 10, 21, .member, 41⟩]
  cloudOrganizations := [⟨100, 1⟩]
  cloudOrganizationAccounts := [⟨1, 100, 101⟩, ⟨2, 100, 101⟩]
  iamRoles := [⟨30, 2, "role", .null, 43200⟩]
  identityCenterPermissionSets := [⟨50, 100, .null, 3600, none⟩]
  identityCenterAccountRoles := [⟨100, 50, 2, 30, 60⟩]
  identityCenterAssignments := [⟨70, 100, 50, 2, 30, .user, 10, 1, some 0⟩]
  iamRoleSessions := [⟨80, 2, 30, 1, 20, "", "", none, 5, 1000, none, some 70, some 1, some 10,
    some 21, some 40, some 41, none⟩]

def directoryIds : List Nat := [20, 21, 30, 40, 41, 50, 70, 80]

theorem directory_initial (removal : Bool) : Initial removal directory directoryIds := by
  constructor <;> simp [directory, directoryIds, ids, UniqueKey, Covered]

/-- The user is assigned again. -/
def assignAgain : List (Move Call) :=
  .start (.identityCenter (.createAssignment 1 50 2 (some .user) 10)) ::
    List.replicate 9 (.step 0)

/-- The assignment is in force again. -/
def assigned (m : Machine Db Key Write Call) : Bool :=
  m.db.identityCenterAssignments == [⟨70, 100, 50, 2, 30, .user, 10, 2, none⟩]

theorem assignments_cover_directory : ∃ past σ,
    Run (program noLibrary false) (System.quiet directory 0 directoryIds) past σ ∧
      (∃ a ∈ σ.db.identityCenterAssignments, a.revokedAt = none) ∧ IsMember σ.db 2 10 := by
  have hplay : ((Machine.quiet directory 0 directoryIds).play (program noLibrary false)
      assignAgain).any assigned = true := by
    decide +kernel
  obtain ⟨m, past, hrun, hcheck⟩ := play_any hplay
  have hm : ⟨70, 100, 50, 2, 30, .user, 10, 2, none⟩ ∈ m.system.db.identityCenterAssignments :=
    beq_iff_eq.mp hcheck ▸ mem_singleton_self _
  exact ⟨past, m.system, hrun, ⟨_, hm, rfl⟩,
    (assignments_cover noLibrary (directory_initial false) hrun _ hm rfl).1 rfl⟩

/-! ## 2. Why a session is inactive -/

/-- What a session has lost. -/
inductive Loss where
  | assignment
  | permissionSet
  | group
  | groupMembership
  | sourceMembership
  | targetMembership

variable (d : Db)

/-- The session has lost it in this state. -/
def Lost (s : IamRoleSessionRow) : Loss → Prop
  | .assignment => ∃ a ∈ d.identityCenterAssignments, s.identityCenterAssignmentId = some a.id ∧
      a.revokedAt ≠ none
  | .permissionSet => ∃ a ∈ d.identityCenterAssignments,
      s.identityCenterAssignmentId = some a.id ∧
      ∃ p ∈ d.identityCenterPermissionSets, p.id = a.permissionSetId ∧ p.deletedAt ≠ none
  | .group => ∃ a ∈ d.identityCenterAssignments, s.identityCenterAssignmentId = some a.id ∧
      a.subjectType = .group ∧
      ∃ g ∈ d.identityCenterGroups, g.id = a.subjectId ∧ g.deletedAt ≠ none
  | .groupMembership => ∃ a ∈ d.identityCenterAssignments,
      s.identityCenterAssignmentId = some a.id ∧ a.subjectType = .group ∧
      ∀ m ∈ d.identityCenterGroupMembers, s.identityCenterGroupMembershipId ≠ some m.id
  | .sourceMembership => ∀ m ∈ d.organizationMemberships,
      s.identityCenterSourceMembershipId ≠ some m.identityCenterMembershipId
  | .targetMembership => ∀ m ∈ d.organizationMemberships,
      s.identityCenterTargetMembershipId ≠ some m.identityCenterMembershipId

variable (w : View)

/-- A reference to a row that is gone: its id was in use and is not any more. -/
def Dangling (rows : List Uuid) (reference : Option Uuid) : Prop :=
  ∀ k, reference = some k → Born ids w k ∧ k ∉ rows

/-- The same, such that nothing that is written later can undo it. -/
def Gone (s : IamRoleSessionRow) : Loss → Prop
  | .assignment => ∀ a ∈ d.identityCenterAssignments, s.identityCenterAssignmentId = some a.id →
      ∃ n, s.identityCenterAssignmentGeneration = some n ∧
        (n < a.generation ∨ n ≤ a.generation ∧ a.revokedAt ≠ none)
  | .permissionSet => ∀ a ∈ d.identityCenterAssignments,
      s.identityCenterAssignmentId = some a.id → Born ids w a.permissionSetId ∧
      ∀ p ∈ d.identityCenterPermissionSets, p.id = a.permissionSetId → p.deletedAt ≠ none
  | .group => ∀ a ∈ d.identityCenterAssignments, s.identityCenterAssignmentId = some a.id →
      a.subjectType = .group ∧ Born ids w a.subjectId ∧
      ∀ g ∈ d.identityCenterGroups, g.id = a.subjectId → g.deletedAt ≠ none
  | .groupMembership => (∀ a ∈ d.identityCenterAssignments,
      s.identityCenterAssignmentId = some a.id → a.subjectType = .group) ∧
      Dangling w (d.identityCenterGroupMembers.map (·.id)) s.identityCenterGroupMembershipId
  | .sourceMembership => Dangling w
      (d.organizationMemberships.map (·.identityCenterMembershipId))
      s.identityCenterSourceMembershipId
  | .targetMembership => Dangling w
      (d.organizationMemberships.map (·.identityCenterMembershipId))
      s.identityCenterTargetMembershipId

/-- Every row of the session refers to an assignment that was in use, and has lost it. -/
structure Hopeless (id : Uuid) (loss : Loss) : Prop where
  born : Born ids w id
  gone : ∀ s ∈ d.iamRoleSessions, s.id = id →
    (∃ k, s.identityCenterAssignmentId = some k ∧ Born ids w k) ∧ Gone d w s loss

/-! ## 3. It stays lost -/

section Stable
variable {d : Db} {w w' : View} {x : Write} {s s' : IamRoleSessionRow} {loss : Loss}

/-- A reference that dangles, or was cleared, dangles still. -/
theorem Dangling.apply {rows rows' : List Uuid} {reference reference' : Option Uuid}
    (h : Dangling w rows reference) (hx : MakesNew w x)
    (hr : reference' = reference ∨ reference' = none)
    (hrows : ∀ k ∈ rows', k ∈ rows ∨ k ∈ x.makes) : Dangling w rows' reference' := by
  intro k hk
  rcases hr with rfl | rfl
  · obtain ⟨hb, hn⟩ := h k hk
    refine ⟨hb, fun hin => ?_⟩
    rcases hrows k hin with hin | hin
    · exact hn hin
    · exact hx k hin hb
  · cases hk

theorem memberships_within (k : Uuid)
    (hk : k ∈ (x.apply d).organizationMemberships.map (·.identityCenterMembershipId)) :
    k ∈ d.organizationMemberships.map (·.identityCenterMembershipId) ∨ k ∈ x.makes :=
  (x.idsWithin d).memberships.mem hk

/-- The assignment of the session after a write is the one it was. -/
theorem session_assignment (hx : MakesNew w x)
    (hk : ∃ k, s.identityCenterAssignmentId = some k ∧ Born ids w k) (hl : LaterSession s s')
    {a' : IdentityCenterAssignmentRow} (ha' : a' ∈ (x.apply d).identityCenterAssignments)
    (he : s'.identityCenterAssignmentId = some a'.id) :
    ∃ a ∈ d.identityCenterAssignments, s.identityCenterAssignmentId = some a.id ∧
      LaterAssignment x a a' := by
  obtain ⟨k, hk, hb⟩ := hk
  rw [hl.assignment] at he
  rcases mem_assignments x ha' with ⟨a, ha, hla⟩ | rfl
  · exact ⟨a, ha, by rw [he, hla.id], hla⟩
  · have hka : k = a'.id := Option.some.inj (hk.symm.trans he)
    exact absurd rfl (hx.ne (hka ▸ hb) (mem_singleton_self _))

theorem Gone.apply (hx : MakesNew w x)
    (hk : ∃ k, s.identityCenterAssignmentId = some k ∧ Born ids w k) (hl : LaterSession s s')
    (h : Gone d w s loss) : Gone (x.apply d) w s' loss := by
  cases loss with
  | assignment =>
    intro a' ha' he
    obtain ⟨a, ha, hea, hla⟩ := session_assignment hx hk hl ha' he
    obtain ⟨n, hn, hcase⟩ := h a ha hea
    refine ⟨n, hl.generation.trans hn, ?_⟩
    have hle := hla.generation
    rcases hcase with hlt | ⟨hnle, hrev⟩
    · exact .inl (by omega)
    by_cases hrev' : a'.revokedAt = none
    · have := (hla.revoked hrev hrev').2
      exact .inl (by omega)
    · exact .inr ⟨by omega, hrev'⟩
  | permissionSet =>
    intro a' ha' he
    obtain ⟨a, ha, hea, hla⟩ := session_assignment hx hk hl ha' he
    have hset : a'.permissionSetId = a.permissionSetId :=
      congrArg AssignmentKey.permissionSetId hla.key
    rw [hset]
    obtain ⟨hb, hdel⟩ := h a ha hea
    refine ⟨hb, fun p' hp' hi => ?_⟩
    rcases mem_permissionSets x hp' with ⟨p, hp, hpi, hpd⟩ | rfl
    · exact hpd (hdel p hp (hpi.symm.trans hi))
    · exact absurd hi (hx.ne hb (mem_singleton_self _))
  | group =>
    intro a' ha' he
    obtain ⟨a, ha, hea, hla⟩ := session_assignment hx hk hl ha' he
    have htype : a'.subjectType = a.subjectType := congrArg AssignmentKey.subjectType hla.key
    have hsub : a'.subjectId = a.subjectId := congrArg AssignmentKey.subjectId hla.key
    rw [htype, hsub]
    obtain ⟨ht, hb, hdel⟩ := h a ha hea
    refine ⟨ht, hb, fun g' hg' hi => ?_⟩
    rcases mem_groups x hg' with ⟨g, hg, hgi, _, hgd⟩ | rfl
    · exact hgd (hdel g hg (hgi.symm.trans hi))
    · exact absurd hi (hx.ne hb (mem_singleton_self _))
  | groupMembership =>
    constructor
    · intro a' ha' he
      obtain ⟨a, ha, hea, hla⟩ := session_assignment hx hk hl ha' he
      exact (congrArg AssignmentKey.subjectType hla.key).trans (h.1 a ha hea)
    · exact h.2.apply hx hl.group fun k hk => (x.idsWithin d).groupMembers.mem hk
  | sourceMembership => exact Dangling.apply h hx hl.source memberships_within
  | targetMembership => exact Dangling.apply h hx hl.target memberships_within

theorem Hopeless.apply {id : Uuid} (hx : MakesNew w x) (h : Hopeless d w id loss) :
    Hopeless (x.apply d) w id loss := by
  refine ⟨h.born, fun s' hs' hi => ?_⟩
  rcases mem_roleSessions x hs' with ⟨s, hs, hl⟩ | rfl
  · obtain ⟨hk, hgone⟩ := h.gone s hs (hl.id.symm.trans hi)
    exact ⟨hl.assignment ▸ hk, hgone.apply hx hk hl⟩
  · exact absurd hi (hx.ne h.born (mem_singleton_self _))

variable (hw : StillBorn w w')
include hw

theorem Dangling.mono {rows : List Uuid} {reference : Option Uuid} (h : Dangling w rows reference) :
    Dangling w' rows reference :=
  fun k hk => ⟨hw k (h k hk).1, (h k hk).2⟩

theorem Gone.mono (h : Gone d w s loss) : Gone d w' s loss := by
  cases loss with
  | assignment => exact h
  | permissionSet => exact fun a ha he => ⟨hw _ (h a ha he).1, (h a ha he).2⟩
  | group => exact fun a ha he => ⟨(h a ha he).1, hw _ (h a ha he).2.1, (h a ha he).2.2⟩
  | groupMembership => exact ⟨h.1, h.2.mono hw⟩
  | sourceMembership | targetMembership => exact Dangling.mono hw h

theorem Hopeless.mono {id : Uuid} (h : Hopeless d w id loss) : Hopeless d w' id loss := by
  refine ⟨hw _ h.born, fun s hs hi => ?_⟩
  obtain ⟨⟨k, hk, hb⟩, hgone⟩ := h.gone s hs hi
  exact ⟨⟨k, hk, hw k hb⟩, hgone.mono hw⟩

end Stable

/-! ## 4. What is lost is gone, and what is gone is inactive -/

section Inactive
variable {d : Db} {w : View} {s : IamRoleSessionRow} {loss : Loss}

theorem Lost.gone (hk : Known ids d w) (hI : Inv true d w) (hs : s ∈ d.iamRoleSessions)
    (h : Lost d s loss) : Gone d w s loss := by
  have hcap := hI.captured s hs
  -- the assignment of the session is one row
  have hone {a a' : IdentityCenterAssignmentRow} (ha : a ∈ d.identityCenterAssignments)
      (ha' : a' ∈ d.identityCenterAssignments) (he : s.identityCenterAssignmentId = some a.id)
      (he' : s.identityCenterAssignmentId = some a'.id) : a' = a :=
    hI.assignments.eq ha' ha (Option.some.inj (he'.symm.trans he))
  cases loss with
  | assignment =>
    obtain ⟨a, ha, he, hrev⟩ := h
    intro a' ha' he'
    obtain ⟨n, hn, hle⟩ := hcap.generation a' ha' he'
    rw [hone ha ha' he he'] at hle ⊢
    exact ⟨n, hn, .inr ⟨hle, hrev⟩⟩
  | permissionSet =>
    obtain ⟨a, ha, he, p, hp, hpi, hpd⟩ := h
    intro a' ha' he'
    rw [hone ha ha' he he', ← hpi]
    refine ⟨hk.born (mem_ids_permissionSet hp), fun p' hp' hi => ?_⟩
    rw [hI.sets.eq hp' hp hi]
    exact hpd
  | group =>
    obtain ⟨a, ha, he, ht, g, hg, hgi, hgd⟩ := h
    intro a' ha' he'
    rw [hone ha ha' he he', ← hgi]
    refine ⟨ht, hk.born (mem_ids_group hg), fun g' hg' hi => ?_⟩
    rw [hI.groups.eq hg' hg hi]
    exact hgd
  | groupMembership =>
    obtain ⟨a, ha, he, ht, hall⟩ := h
    refine ⟨fun a' ha' he' => by rw [hone ha ha' he he', ht], fun k hk => ⟨hcap.group k hk, ?_⟩⟩
    intro hin
    obtain ⟨m, hm, rfl⟩ := mem_map.mp hin
    exact hall m hm hk
  | sourceMembership =>
    intro k hk
    refine ⟨hcap.source k hk, fun hin => ?_⟩
    obtain ⟨m, hm, rfl⟩ := mem_map.mp hin
    exact h m hm hk
  | targetMembership =>
    intro k hk
    refine ⟨hcap.target k hk, fun hin => ?_⟩
    obtain ⟨m, hm, rfl⟩ := mem_map.mp hin
    exact h m hm hk

/-- A captured membership that backs a session is there. -/
theorem capturedMembership_some {organizationId userId : Uuid} {principalId reference : Option Uuid}
    (hd : Dangling w (d.organizationMemberships.map (·.identityCenterMembershipId)) reference) :
    d.capturedMembership organizationId userId principalId reference = false := by
  refine any_eq_false.mpr fun m hm hc => ?_
  simp only [Bool.and_eq_true, beq_iff_eq] at hc
  exact (hd _ hc.1.2).2 (mem_map_of_mem hm)

theorem Gone.not_backed (h : Gone d w s loss) (u : Uuid) {a : IdentityCenterAssignmentRow}
    (ha : a ∈ d.identityCenterAssignments) : d.assignmentBacks s u a = false := by
  rw [← Bool.not_eq_true]
  intro hb
  simp only [Db.assignmentBacks, Bool.and_eq_true, beq_iff_eq] at hb
  obtain ⟨⟨⟨⟨⟨⟨⟨⟨hid, hrev⟩, hgen⟩, _⟩, _⟩, hset⟩, hsource⟩, htarget⟩, hsubject⟩ := hb
  cases loss with
  | assignment =>
    obtain ⟨n, hn, hcase⟩ := h a ha hid
    have hn : n = a.generation := Option.some.inj (hn.symm.trans hgen)
    rcases hcase with hlt | ⟨_, hne⟩
    · omega
    · exact hne hrev
  | permissionSet =>
    obtain ⟨p, hp, he⟩ := any_eq_true.mp hset
    simp only [Bool.and_eq_true, beq_iff_eq] at he
    exact (h a ha hid).2 p hp he.1.1 he.2
  | group =>
    obtain ⟨ht, _, hdel⟩ := h a ha hid
    rw [ht] at hsubject
    obtain ⟨g, hg, he⟩ := any_eq_true.mp hsubject
    simp only [Bool.and_eq_true, beq_iff_eq] at he
    exact hdel g hg he.1.1.1 he.1.2
  | groupMembership =>
    rw [h.1 a ha hid] at hsubject
    obtain ⟨g, hg, he⟩ := any_eq_true.mp hsubject
    simp only [Bool.and_eq_true, beq_iff_eq] at he
    obtain ⟨m, hm, hem⟩ := any_eq_true.mp he.2
    simp only [Bool.and_eq_true, beq_iff_eq] at hem
    exact (h.2 _ hem.1.2).2 (mem_map_of_mem hm)
  | sourceMembership =>
    obtain ⟨co, hco, he⟩ := any_eq_true.mp hsource
    rw [capturedMembership_some h, Bool.and_false] at he
    cases he
  | targetMembership =>
    rw [capturedMembership_some h] at htarget
    cases htarget

/-- **What is hopeless is inactive.** -/
theorem Hopeless.inactive {id : Uuid} (h : Hopeless d w id loss) :
    d.identityCenterSessionIsActive id ≠ some true := by
  intro hact
  unfold Db.identityCenterSessionIsActive at hact
  obtain ⟨s, hfind, hs⟩ := Option.map_eq_some_iff.mp hact
  have hi : s.id = id := by simpa using find?_some hfind
  obtain ⟨⟨k, hk, _⟩, hgone⟩ := h.gone s (mem_of_find?_eq_some hfind) hi
  simp only [Db.sessionIsActive, hk, Bool.or_eq_true, beq_iff_eq, reduceCtorEq, false_or] at hs
  cases hu : s.identityCenterUserId with
  | none => simp [hu] at hs
  | some u =>
    rw [hu, Option.any_some, Bool.and_eq_true] at hs
    obtain ⟨a, ha, hb⟩ := any_eq_true.mp hs.2
    rw [hgone.not_backed u ha] at hb
    cases hb

end Inactive

/-- **A session that has lost what it was made from is never active again**, whatever is granted
or added later. -/
theorem identityCenterSession_never_revived (lib : ThirdParty) {d : Db} {t : Int}
    {issued : List Nat} (h₀ : Initial true d issued) {past : List (Event Db Key Write Call)}
    {σ : System Db Key Write Call}
    (hrun : Run (program lib true) (System.quiet d t issued) past σ)
    {s : IamRoleSessionRow} (hs : s ∈ σ.db.iamRoleSessions) {k : Uuid}
    (hk : s.identityCenterAssignmentId = some k) {loss : Loss} (hlost : Lost σ.db s loss)
    {later : List (Event Db Key Write Call)} {σ' : System Db Key Write Call}
    (hlater : Run (program lib true) σ later σ') :
    σ'.db.identityCenterSessionIsActive s.id ≠ some true := by
  have h := outline_run h₀ hrun
  obtain ⟨hknown, hI⟩ := h.inv
  have hhope : Hopeless σ.db (σ.world past) s.id loss := by
    refine ⟨hknown.born (mem_ids_roleSession hs), fun s' hs' hi => ?_⟩
    cases hI.roleSessions.eq hs' hs hi
    exact ⟨⟨k, hk, (hI.captured s hs).assignment k hk⟩, hlost.gone hknown hI hs⟩
  obtain ⟨all, hall⟩ := (duties lib true).later (Q := fun d w => Hopeless d w s.id loss)
    (fun hw h => h.mono fun _ hb => hb.mono hw) (fun hx h => h.apply (makesNew hx)) h hhope hlater
  exact hall.inactive

theorem identityCenterSession_never_revived_directory : ∃ past σ,
    Run (program noLibrary true) (System.quiet directory 0 directoryIds) past σ ∧
      (∃ a ∈ σ.db.identityCenterAssignments, a.id = 70 ∧ a.revokedAt = none) ∧
      σ.db.identityCenterSessionIsActive 80 ≠ some true := by
  have hplay : ((Machine.quiet directory 0 directoryIds).play (program noLibrary true)
      assignAgain).any assigned = true := by
    decide +kernel
  obtain ⟨m, past, hrun, hcheck⟩ := play_any hplay
  have hm : ⟨70, 100, 50, 2, 30, .user, 10, 2, none⟩ ∈ m.system.db.identityCenterAssignments :=
    beq_iff_eq.mp hcheck ▸ mem_singleton_self _
  have hlost : Lost directory ⟨80, 2, 30, 1, 20, "", "", none, 5, 1000, none, some 70, some 1,
      some 10, some 21, some 40, some 41, none⟩ .assignment :=
    ⟨_, mem_singleton_self _, rfl, nofun⟩
  exact ⟨past, m.system, hrun, ⟨_, hm, rfl, rfl⟩,
    identityCenterSession_never_revived noLibrary (directory_initial true) .start
      (mem_singleton_self _) rfl hlost hrun⟩

end HeteroCloud.Access
