/-
  File:      Access/Outline.lean
  Subject:   THE OUTLINE OF THE WHOLE PROGRAM, and what follows for every run of it.

  * `Initial` -- the databases a run may start on: the keys and references of the schema hold, and
    no session is ahead of its assignment. An empty database is one (`initial_empty`).
-/
import HeteroCloud.Access.IdentityCenterPoints

namespace HeteroCloud.Access

open Base Iam Store Api

variable {lib : ThirdParty} {removal : Bool} {d : Db}

/-! ## 1. The outline -/

section Duties
variable {w : View} {i : Nat}

theorem start_at {c : Call} (h : (program lib removal).start c) :
    At lib removal d w i ⟨c, [], [], none⟩ := by
  obtain ⟨hs, hr⟩ := h
  cases c with
  | role c =>
    cases c with
    | deleteIamRole => exact ⟨rfl, hr rfl⟩
    | assumeIamRole | clearBrowserRole | createIamRole | updateIamRoleTrust
    | setServiceAccountEnabled | revokeIamRoleSession => exact rfl
    | _ => cases hs
  | identityCenter c =>
    cases c with
    | removeMembership => exact ⟨rfl, hr rfl⟩
    | createPermissionSet | updatePermissionSet | deletePermissionSet | createGroup
    | changeGroupMember | deleteGroup | createAssignment | revokeAssignment | createSession
    | addMembership => exact rfl
    | _ => cases hs
  | _ => cases hs

/-- A call whose statement failed. What a switch has made is still to be revoked. -/
theorem fail_at {r : Running Key Write Call} {c : Call} (h : At lib removal d w i r)
    (hc : fail r.call = some c) : At lib removal d w i ⟨c, [], [], none⟩ := by
  obtain ⟨call, held, pending, began⟩ := r
  cases call with
  | role p =>
    cases hc
    cases p with
    | switchBrowserRole => exact ⟨rfl, h.2⟩
    | switchRevoke => exact ⟨rfl, h.2.2.1⟩
    | switchCommit => exact ⟨rfl, h.2.1⟩
    | _ => exact trivial
  | identityCenter | commit =>
    cases hc
    exact trivial
  | done => cases hc

/-- **The invariant and the assertions are an outline.** -/
theorem duties (lib : ThirdParty) (removal : Bool) :
    Duties (program lib removal) (guards removal) (Inv removal) (At lib removal) where
  ids {x d _} hk := (x.idsWithin d).mem hk
  mono_inv hw h := h.mono fun _ hb => hb.mono hw
  mono_at hw h := h.mono hw
  start := start_at
  step {d w e i r uuid o} hk hI hown hA he hu ho := by
    have h : Ready removal d w e uuid i r := ⟨hk, hI, hown, he, hu⟩
    obtain ⟨call, held, pending, began⟩ := r
    cases call with
    | role =>
      cases ho
      exact roleExec_leads h rfl hA
    | identityCenter =>
      cases ho
      exact identityCenterExec_leads h hA
    | commit =>
      cases ho
      exact leads_commit h (AllQuiet.fits hA d) fun _ _ _ => trivial
    | done => cases ho
  stable hx hc h := h.apply hx hc
  fail := fail_at

end Duties

/-! ## 2. Runs -/

/-- **A database a run may start on.** -/
structure Initial (removal : Bool) (d : Db) (issued : List Nat) : Prop where
  issued : ∀ k ∈ ids d, k ∈ issued
  roles : UniqueKey (·.principalId) d.iamRoles
  roleSessions : UniqueKey (·.id) d.iamRoleSessions
  browsers : UniqueKey (·.tokenHash) d.sessions
  active : ∀ b ∈ d.sessions, ∀ k, b.activeRoleSessionId = some k →
    ∃ s ∈ d.iamRoleSessions, s.id = k
  sets : UniqueKey (·.id) d.identityCenterPermissionSets
  groups : UniqueKey (·.id) d.identityCenterGroups
  members : ∀ m ∈ d.identityCenterGroupMembers, ∃ g ∈ d.identityCenterGroups,
    g.id = m.groupId ∧ g.organizationId = m.organizationId
  assignments : UniqueKey (·.id) d.identityCenterAssignments
  assignment : ∀ s ∈ d.iamRoleSessions, ∀ k, s.identityCenterAssignmentId = some k →
    ∃ a ∈ d.identityCenterAssignments, a.id = k ∧
      ∃ n, s.identityCenterAssignmentGeneration = some n ∧ n ≤ a.generation
  source : ∀ s ∈ d.iamRoleSessions, ∀ k, s.identityCenterSourceMembershipId = some k →
    ∃ m ∈ d.organizationMemberships, m.identityCenterMembershipId = k
  target : ∀ s ∈ d.iamRoleSessions, ∀ k, s.identityCenterTargetMembershipId = some k →
    ∃ m ∈ d.organizationMemberships, m.identityCenterMembershipId = k
  group : ∀ s ∈ d.iamRoleSessions, ∀ k, s.identityCenterGroupMembershipId = some k →
    ∃ m ∈ d.identityCenterGroupMembers, m.id = k
  covered : removal = false → Covered d

section Runs
variable {t : Int} {issued : List Nat} {past later : List (Event Db Key Write Call)}
  {σ σ' : System Db Key Write Call}

/-- The world a run starts in. -/
abbrev firstView (d : Db) (t : Int) (issued : List Nat) : View :=
  (System.quiet d t issued).world []

variable {k : Uuid}

theorem Initial.born (hk : k ∈ ids d) : Born ids (firstView d t issued) k :=
  ⟨_, List.mem_singleton_self _, hk⟩

theorem Initial.known (h : Initial removal d issued) : Known ids d (firstView d t issued) :=
  .initial h.issued

theorem Initial.inv (h : Initial removal d issued) : Inv removal d (firstView d t issued) where
  roles := h.roles
  roleSessions := h.roleSessions
  browsers := h.browsers
  active b hb k hk := by
    obtain ⟨s, hs, rfl⟩ := h.active b hb k hk
    exact Initial.born (mem_ids_roleSession hs)
  sets := h.sets
  groups := h.groups
  members := h.members
  assignments := h.assignments
  captured s hs :=
    { assignment := fun k hk => by
        obtain ⟨a, ha, rfl, _⟩ := h.assignment s hs k hk
        exact Initial.born (mem_ids_assignment ha)
      generation := fun a ha he => by
        obtain ⟨a', ha', hi, n, hn, hle⟩ := h.assignment s hs a.id he
        exact ⟨n, hn, h.assignments.eq ha' ha hi ▸ hle⟩
      source := fun k hk => by
        obtain ⟨m, hm, rfl⟩ := h.source s hs k hk
        exact Initial.born (mem_ids_membership hm)
      target := fun k hk => by
        obtain ⟨m, hm, rfl⟩ := h.target s hs k hk
        exact Initial.born (mem_ids_membership hm)
      group := fun k hk => by
        obtain ⟨m, hm, rfl⟩ := h.group s hs k hk
        exact Initial.born (mem_ids_groupMember hm) }
  covered := h.covered

/-- What holds of a state of a run. -/
abbrev Outlined (lib : ThirdParty) (removal : Bool) (past : List (Event Db Key Write Call))
    (σ : System Db Key Write Call) : Prop :=
  Holds (fun d w => Known ids d w ∧ Inv removal d w)
    (fun d w i r => Own (guards removal) w r ∧ At lib removal d w i r) past σ

/-- **Every state of every run satisfies the outline.** -/
theorem outline_run (h₀ : Initial removal d issued)
    (hr : Run (program lib removal) (System.quiet d t issued) past σ) :
    Outlined lib removal past σ :=
  (duties lib removal).outline.run hr ⟨h₀.known, h₀.inv⟩

/-! ## 3. Dead role sessions -/

/-- **A dead role session stays dead.** -/
theorem dead_later (h : Outlined lib removal past σ) (hk : DeadSession σ.db (σ.world past) k) (hr :
    Run (program lib removal) σ later σ') : ∃ all, DeadSession σ'.db (σ'.world all) k :=
  (duties lib removal).later (Q := fun d w => DeadSession d w k) (fun hw h => h.mono hw)
    (fun hx h => h.apply (makesNew hx)) h hk hr

/-- The role session does not authenticate, whichever way it is presented. -/
def NeverAuthenticates (d : Db) (k : Uuid) : Prop :=
  ∀ now, (∀ tokenHash session, d.authenticateIamRoleSession now tokenHash = .ok (some session) →
    session.id ≠ k) ∧ d.authenticateBrowserRoleSession now k = .ok none

/-- The row behind an answer. -/
theorem decodeRow_some {row : Option IamRoleSessionRow} {session : IamRoleSession}
    (h : decodeRow row = .ok (some session)) : ∃ s, row = some s ∧ s.id = session.id := by
  cases row with
  | none => cases h
  | some s =>
    refine ⟨s, rfl, ?_⟩
    unfold decodeRow IamRoleSessionRow.decode at h
    cases hp : s.sessionPolicy with
    | none =>
      simp only [hp] at h
      cases h
      rfl
    | some j =>
      simp only [hp] at h
      cases hd : PolicyDocument.fromValue j with
      | none =>
        rw [hd] at h
        cases h
      | some =>
        rw [hd] at h
        cases h
        rfl

theorem authenticates_revoked {now : Int} {s : IamRoleSessionRow} (h : s.revokedAt ≠ none) :
    d.authenticates now s = false := by
  have hr : (s.revokedAt == none) = false := beq_eq_false_iff_ne.mpr h
  simp [Db.authenticates, Db.liveRoleSession, hr]

theorem DeadSession.neverAuthenticates {w : View} (h : DeadSession d w k) : NeverAuthenticates d
    k := by
  intro now
  constructor
  · intro tokenHash session ha hk
    obtain ⟨s, hs, he⟩ := decodeRow_some ha
    have hauth := List.find?_some hs
    rw [authenticates_revoked (h.revoked s (List.mem_of_find?_eq_some hs) (he.trans hk)),
      Bool.and_false] at hauth
    cases hauth
  · have hnone : (d.iamRoleSessions.find? fun s => s.id == k && d.authenticates now s) = none := by
      refine List.find?_eq_none.mpr fun s hs he => ?_
      rw [Bool.and_eq_true, beq_iff_eq] at he
      rw [authenticates_revoked (h.revoked s hs he.1)] at he
      exact Bool.noConfusion he.2
    unfold Db.authenticateBrowserRoleSession
    rw [hnone]
    rfl

end Runs
end HeteroCloud.Access
