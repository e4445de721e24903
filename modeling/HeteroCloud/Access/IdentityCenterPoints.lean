/-
  File:      Access/IdentityCenterPoints.lean
  Subject:   THE STATEMENTS OF IDENTITY CENTER UNDER THEIR ASSERTIONS: each one establishes the
             assertion of the point it leads to, and each commit keeps the invariant.

  `identityCenterExec_leads` is the result. What carries it: a transaction that prepares an
  assignment leaves groups, members and assignments alone until its last write
  (`Prepared.view`), and each round of `ensure_account_user` takes one name off what is left to
  ensure (`EnsureTodo.done`).
-/
import HeteroCloud.Access.RolePoints

namespace HeteroCloud.Access

open Base Iam Store Api List

variable {removal : Bool} {d : Db} {w : View} {ws : List Write}

/-! ## 1. The view of a transaction that prepares an assignment -/

/-- What a transaction sees that has added nothing but memberships, principals and roles. -/
structure SeesThrough (d d' : Db) (ws : List Write) : Prop where
  groups : d'.identityCenterGroups = d.identityCenterGroups
  members : d'.identityCenterGroupMembers = d.identityCenterGroupMembers
  assignments : d'.identityCenterAssignments = d.identityCenterAssignments
  memberships : ∀ m, m ∈ d'.organizationMemberships ↔
    m ∈ d.organizationMemberships ∨ .insertMembership m ∈ ws

section Prepared
variable {ws ws' : List Write}

theorem SeesThrough.nil : SeesThrough d d [] := ⟨rfl, rfl, rfl, fun _ => by simp⟩

theorem SeesThrough.trans {d' d'' : Db} (h : SeesThrough d d' ws) (h' : SeesThrough d' d'' ws') :
    SeesThrough d d'' (ws ++ ws') :=
  ⟨h'.groups.trans h.groups, h'.members.trans h.members, h'.assignments.trans h.assignments,
    fun m => by rw [h'.memberships, h.memberships, mem_append, or_assoc]⟩

theorem SeesThrough.prepares {x : Write} (hx : x.prepares = true) :
    SeesThrough d (x.apply d) [x] := by
  cases x with
  | insertMembership | insertPrincipal | insertPolicy | insertBinding | insertAccountRole =>
    exact ⟨rfl, rfl, rfl, fun m => by simp [Write.apply]⟩
  | _ => cases hx

theorem SeesThrough.insertRole {r : IamRoleRow} :
    SeesThrough d ((Write.insertRole r).apply d) [.insertRole r] :=
  ⟨rfl, rfl, rfl, fun m => by simp [Write.apply]⟩

theorem Prepares.nil : Prepares [] := forall_mem_nil _

theorem Prepares.append (h : Prepares ws) (h' : Prepares ws') : Prepares (ws ++ ws') := by
  intro x hx
  rcases mem_append.mp hx with hx | hx
  · exact h x hx
  · exact h' x hx

theorem Prepares.single {x : Write} (hx : x.prepares = true) : Prepares [x] :=
  fun _ hy => mem_singleton.mp hy ▸ hx

theorem Prepares.view (h : Prepares ws) : SeesThrough d (applyAll ws d) ws := by
  induction ws generalizing d with
  | nil => exact .nil
  | cons x _ ih =>
    exact (SeesThrough.prepares (h x mem_cons_self)).trans
      (ih fun y hy => h y (mem_cons_of_mem _ hy))

theorem Prepares.roles (h : Prepares ws) : (applyAll ws d).iamRoles = d.iamRoles := by
  induction ws generalizing d with
  | nil => rfl
  | cons x _ ih =>
    have hx := h x mem_cons_self
    have hxr : (x.apply d).iamRoles = d.iamRoles := by
      cases x with
      | insertPrincipal | insertMembership | insertPolicy | insertBinding | insertAccountRole => rfl
      | _ => cases hx
    exact (ih fun y hy => h y (mem_cons_of_mem _ hy)).trans hxr

theorem Prepares.fits (h : Prepares ws) : FitsAll removal w ws d := by
  induction ws generalizing d with
  | nil => exact trivial
  | cons x _ ih =>
    have hx := h x mem_cons_self
    refine ⟨?_, ih fun y hy => h y (mem_cons_of_mem _ hy)⟩
    cases x with
    | insertPrincipal | insertMembership | insertPolicy | insertBinding | insertAccountRole =>
      exact trivial
    | _ => cases hx

theorem Prepared.view (h : Prepared ws) : SeesThrough d (applyAll ws d) ws := by
  rcases h with h | ⟨xs, r, ys, rfl, hx, hy⟩
  · exact h.view
  · rw [applyAll_append]
    exact hx.view.trans (SeesThrough.insertRole.trans hy.view)

/-- The role a transaction adds has a new id. -/
theorem Prepared.fits (h : Prepared ws)
    (hr : ∀ r, .insertRole r ∈ ws → ∀ q ∈ d.iamRoles, q.principalId ≠ r.principalId) :
    FitsAll removal w ws d := by
  rcases h with h | ⟨xs, r, ys, rfl, hx, hy⟩
  · exact h.fits
  refine fitsAll_append.mpr ⟨hx.fits, ?_, hy.fits⟩
  unfold Fits
  rw [hx.roles]
  exact hr r (by simp)

theorem Prepared.append (h : Prepared ws) (h' : Prepares ws') : Prepared (ws ++ ws') := by
  rcases h with h | ⟨xs, r, ys, rfl, hx, hy⟩
  · exact .inl (h.append h')
  · exact .inr ⟨xs, r, ys ++ ws', by simp, hx, hy.append h'⟩

end Prepared

/-! ## 2. Rounds of `ensure_account_user` -/

section Rounds
variable {held : Locks} {account user : Uuid}

/-- What is left to do after the current round. -/
def Ensuring.Todo (removal : Bool) (d : Db) (held : Locks) (pending : List Write) :
    Ensuring → Prop
  | .accounts m rest => MemberTodo removal d held pending m rest
  | .users a rest => AssignmentTodo removal d held pending a rest

/-- **A round ends** with the user a member of the account. -/
theorem EnsureTodo.done {next : Ensuring}
    (h : EnsureTodo removal d held ws account user next) (he : Ensured d ws account user) :
    next.Todo removal d held ws := by
  cases next with
  | accounts =>
    obtain ⟨rfl, h⟩ := h
    exact MemberTodo.done h he
  | users =>
    obtain ⟨rfl, h⟩ := h
    exact AssignmentTodo.done h he

theorem Ensuring.resume_at {next : Ensuring} (hp : Prepares ws)
    (h : next.Todo removal d held ws) : IdentityCenterAt removal d w held ws next.resume := by
  cases next with
  | accounts m rest =>
    cases rest with
    | nil => exact ⟨hp, h⟩
    | cons => exact ⟨hp, rfl, h⟩
  | users a rest =>
    cases rest with
    | nil | cons => exact ⟨hp, h⟩

/-- A membership the transaction sees is ensured. -/
theorem ensured_of_view (hs : SeesThrough d (applyAll ws d) ws)
    (h : hasMembership (applyAll ws d) account user = true) : Ensured d ws account user := by
  obtain ⟨m, hm, he⟩ := any_eq_true.mp h
  simp only [Bool.and_eq_true, beq_iff_eq] at he
  rcases (hs.memberships m).mp hm with hm | hm
  · exact .inl ⟨m, hm, he⟩
  · exact .inr ⟨m, hm, he⟩

theorem Ensured.isMember (hs : SeesThrough d (applyAll ws d) ws) (h : Ensured d ws account user) :
    IsMember (applyAll ws d) account user := by
  rcases h with ⟨m, hm, he⟩ | ⟨m, hm, he⟩
  · exact ⟨m, (hs.memberships m).mpr (.inl hm), he⟩
  · exact ⟨m, (hs.memberships m).mpr (.inr hm), he⟩

/-- With nobody left, the commit covers the new member. -/
theorem MemberTodo.fits {m : MemberChange} {gm : IdentityCenterGroupMemberRow}
    (h : MemberTodo removal d held ws m []) (hs : SeesThrough d (applyAll ws d) ws)
    (ho : gm.organizationId = m.organization) (hg : gm.groupId = m.group)
    (hu : gm.userId = m.user) : Fits removal (applyAll ws d) w (.insertGroupMember gm) := by
  constructor
  · obtain ⟨g, hgm, hgi, hgo, _⟩ := h.locked.live
    rw [hs.groups, hg, ho]
    exact ⟨g, hgm, hgi, hgo⟩
  intro hr a ha hrev hty hsub
  rw [hs.assignments] at ha
  rcases h.todo hr a ha ⟨hrev, hty, hsub.trans hg⟩ with hm | hm
  · exact absurd hm not_mem_nil
  · rw [hu]
    exact hm.isMember hs

/-- With nobody left, the assignment covers its subject. -/
theorem AssignmentTodo.covered {a : NewAssignment} (h : AssignmentTodo removal d held ws a [])
    (hs : SeesThrough d (applyAll ws d) ws) (hr : removal = false) :
    SubjectCovered (applyAll ws d) a.key := by
  have hall (user : Uuid) (hu : Subject d a user) : IsMember (applyAll ws d) a.account user := by
    rcases h.todo hr user hu with hm | hm
    · exact absurd hm not_mem_nil
    · exact hm.isMember hs
  unfold SubjectCovered
  unfold Subject at hall
  cases ht : a.subjectType with
  | user =>
    have hk : a.key.subjectType = .user := ht
    rw [ht] at hall
    rw [hk]
    exact hall a.subject rfl
  | group =>
    have hk : a.key.subjectType = .group := ht
    rw [ht] at hall
    rw [hk]
    obtain ⟨g, hg, hgi, hgo, hgd⟩ := (h.locked ht).live
    refine ⟨⟨g, by rwa [hs.groups], hgi, hgo, hgd⟩, fun m hm hme => hall m.userId ⟨m, ?_, hme, rfl⟩⟩
    rwa [hs.members] at hm

/-- An assignment in force names the group's own organization. -/
theorem GroupLocked.organization (h : Inv removal d w) (hr : removal = false)
    {organization group : Uuid} (hl : GroupLocked d held organization group)
    {a : IdentityCenterAssignmentRow} (ha : a ∈ d.identityCenterAssignments)
    (has : AssignsGroup group a) : a.organizationId = organization := by
  obtain ⟨hrev, hty, hsub⟩ := has
  have hcov := h.covered hr a ha hrev
  unfold SubjectCovered at hcov
  rw [show (assignmentKey a).subjectType = .group from hty] at hcov
  obtain ⟨⟨g, hg, hgi, hgo, _⟩, _⟩ := hcov
  obtain ⟨g', hg', hgi', hgo', _⟩ := hl.live
  have hgi : g.id = group := hgi.trans hsub
  rw [← show g.organizationId = a.organizationId from hgo,
    h.groups.eq hg hg' (hgi.trans hgi'.symm), hgo']

/-- The members of a group belong to its organization. -/
theorem GroupLocked.member (h : Inv removal d w) {organization group : Uuid}
    (hl : GroupLocked d held organization group) {m : IdentityCenterGroupMemberRow}
    (hm : m ∈ d.identityCenterGroupMembers) (hg : m.groupId = group) :
    m.organizationId = organization := by
  obtain ⟨g, hgm, hgi, hgo⟩ := h.members m hm
  obtain ⟨g', hg', hgi', hgo', _⟩ := hl.live
  rw [← hgo, h.groups.eq hgm hg' (hgi.trans (hg.trans hgi'.symm)), hgo']

end Rounds

/-! ## 3. Shared queries -/

section Points
variable {lib : ThirdParty} {d view : Db} {e : Event Db Key Write Call} {uuid : Nat → Nat} {i : Nat}
  {r : Running Key Write Call} {now : Int}
variable {management : Uuid}

theorem managementOrganization_leads {next : Uuid → String → IdentityCenterCall} (hA : ∀
    organization number, IdentityCenterAt removal d (w.after e ((program lib removal).drawn uuid))
    r.held r.pending (next organization number)) : Leads lib removal d w e uuid i r
    (managementOrganization view management next) := by
  unfold managementOrganization
  split
  · exact leads_abort
  · exact leads_lock nofun (hA _ _)

variable {user : Uuid}

theorem requireDirectoryUser_leads {next : Uuid → IdentityCenterCall} (hA : ∀ locks source,
    IdentityCenterAt removal d (w.after e ((program lib removal).drawn uuid)) (locks ++ r.held)
    r.pending (next source)) : Leads lib removal d w e uuid i r (requireDirectoryUser view
    management user next) := by
  unfold requireDirectoryUser
  split
  · exact leads_abort
  · exact leads_lock (by simp) (hA _ _)

theorem lockLive_leads {present : Bool} {key : Key} {next : IdentityCenterCall}
    (hk : ∀ n, key ≠ .fresh n)
    (hA : present = true →
      IdentityCenterAt removal d (w.after e ((program lib removal).drawn uuid))
        ((key, .exclusive) :: r.held) r.pending next) :
    Leads lib removal d w e uuid i r (lockLive present key next) := by
  unfold lockLive
  split_ifs with hp
  · refine leads_lock (fun n m hm => ?_) (hA hp)
    rw [mem_singleton, Prod.mk.injEq] at hm
    exact hk n hm.1.symm
  · exact leads_abort

variable {organization group : Uuid}

/-- The group that was found is locked. -/
theorem GroupLocked.of_live {held : Locks} (h : d.identityCenterGroups.any (liveGroup organization
    group) = true) : GroupLocked d ((.group group, .exclusive) :: held) organization group := by
  obtain ⟨g, hg, he⟩ := any_eq_true.mp h
  simp only [liveGroup, Bool.and_eq_true, beq_iff_eq] at he
  exact ⟨mem_cons_self, g, hg, he.1.2, he.1.1, he.2⟩

/-! ## 4. `ensure_account_user` -/

variable {next : Ensuring}
variable {account : Uuid}

theorem ensureExists_leads (hp : Prepares r.pending) (h : EnsureTodo removal d r.held r.pending
    account user next) : Leads lib removal d w e uuid i r (ensureExists (applyAll r.pending d)
    account user next) := by
  unfold ensureExists
  refine leads_lock nofun ?_
  split_ifs with hm
  · exact Ensuring.resume_at hp (h.done (ensured_of_view hp.view hm))
  · exact ⟨hp, h⟩

theorem insertMembership_leads {m : MembershipRow} {next : Call}
    (hi : m.identityCenterMembershipId = uuid 0)
    (hA : ∀ locks, At lib removal d (w.after e ((program lib removal).drawn uuid)) i
      ⟨next, locks ++ r.held, r.pending ++ [.insertMembership m],
        some (r.began.getD w.clock)⟩) :
    Leads lib removal d w e uuid i r (insertMembership view m next) := by
  unfold insertMembership
  split_ifs
  · exact leads_abort
  refine leads_stmt (by simp [hi]) (forall_mem_singleton.mpr ?_) (hA _)
  exact guarded_makes rfl rfl (by simp [Write.makes])

theorem ensurePrincipal_leads {p : PrincipalRow} (hi : p.id = uuid 0) (hp : Prepares r.pending) (h :
    EnsureTodo removal d r.held r.pending account user next) : Leads lib removal d w e uuid i r
    (insertPrincipal view p (.identityCenter (.ensureMembership account user (uuid 0) next))) :=
  insertPrincipal_leads hi fun _ _ =>
    ⟨hp.append (.single rfl), h.more mem_more fun _ => mem_append_left _⟩

theorem ensureMembership_leads {principal : Uuid} (hp : Prepares r.pending) (h : EnsureTodo removal
    d r.held r.pending account user next) : Leads lib removal d w e uuid i r (insertMembership view
    ⟨account, user, principal, .member, uuid 0⟩ (.identityCenter next.resume)) := by
  refine insertMembership_leads rfl fun locks => ?_
  have he : Ensured d (r.pending ++ [.insertMembership ⟨account, user, principal, .member, uuid 0⟩])
      account user :=
    .inr ⟨_, mem_append_right _ (mem_singleton_self _), rfl, rfl⟩
  exact Ensuring.resume_at (hp.append (.single rfl))
    ((h.more mem_more fun _ => mem_append_left _).done he)

/-! ## 5. Permission sets, groups and members -/

variable {document : PolicyDocument}

theorem updateSet_leads {organization id : Uuid} {duration : Int} (hp : r.pending = []) : Leads lib
    removal d w e uuid i r (updateSet view organization id document duration) := by
  unfold updateSet
  split_ifs
  · refine leads_stmt (by simp) (forall_mem_singleton.mpr ?_) ?_
    · exact guarded_plain rfl rfl rfl
    · rw [hp]
      exact AllQuiet.single (fun _ _ => trivial) fun _ => rfl
  · exact leads_abort

theorem updatePolicies_leads {organization id : Uuid} (hp : AllQuiet removal r.pending) : Leads lib
    removal d w e uuid i r (updatePolicies view organization id document) := by
  refine leads_quiet hp nofun (fun x hx => ?_)
    (.map fun _ => ⟨fun _ _ => trivial, fun _ => rfl⟩)
  obtain ⟨_, _, rfl⟩ := mem_map.mp hx
  exact guarded_plain rfl rfl rfl

variable (h : Ready removal d w e uuid i r)
include h

theorem commitPermissionSet_leads {p : IdentityCenterPermissionSetRow} (hp : r.pending =
    [.insertPermissionSet p]) : Leads lib removal d w e uuid i r (.commit (.done .ok)) := by
  refine leads_commit h ?_ fun _ _ _ => trivial
  have hnew : p.id ∉ ids d := new_id h (by rw [hp]; exact mem_singleton_self _)
    (mem_singleton_self _)
  rw [hp]
  exact ⟨fun q hq he => hnew (he ▸ mem_ids_permissionSet hq), trivial⟩

theorem commitGroup_leads {g : IdentityCenterGroupRow} (hp : r.pending = [.insertGroup g]) : Leads
    lib removal d w e uuid i r (.commit (.done .ok)) := by
  refine leads_commit h ?_ fun _ _ _ => trivial
  have hnew : g.id ∉ ids d := new_id h (by rw [hp]; exact mem_singleton_self _)
    (mem_singleton_self _)
  rw [hp]
  exact ⟨fun q hq he => hnew (he ▸ mem_ids_group hq), trivial⟩

theorem groupInUse_leads (hp : r.pending = []) (hl : GroupLocked d r.held organization group) :
    Leads lib removal d w e uuid i r (groupInUse d organization group) := by
  unfold groupInUse
  split_ifs with hu
  · exact leads_abort
  refine leads_lock nofun ⟨hp, hl.lock, fun hr a ha has => hu ?_⟩
  have ho := hl.organization h.inv hr ha has
  refine any_eq_true.mpr ⟨a, ha, ?_⟩
  simp [assignsGroup, inForce, ho, has.1, has.2.1, has.2.2]

omit h

theorem deleteRows_leads {gone : List IdentityCenterGroupMemberRow} {next : Call}
    (hA : ∀ locks writes, DeletesMembers writes →
      At lib removal d (w.after e ((program lib removal).drawn uuid)) i
        ⟨next, locks ++ r.held, r.pending ++ writes, some (r.began.getD w.clock)⟩) :
    Leads lib removal d w e uuid i r (deleteRows gone next) := by
  have hdel (x : Write) (hx : x ∈ gone.map fun m => Write.deleteGroupMember m.id) :
      ∃ id, x = .deleteGroupMember id := by
    obtain ⟨m, _, rfl⟩ := mem_map.mp hx
    exact ⟨m.id, rfl⟩
  refine leads_stmt (fun n m hm => ?_) (fun x hx => ?_) (hA _ _ hdel)
  · simp at hm
  · obtain ⟨id, rfl⟩ := hdel x hx
    exact guarded_plain rfl rfl rfl

theorem DeletesMembers.quiet (h : DeletesMembers ws) : AllQuiet removal ws := by
  intro x hx
  obtain ⟨id, rfl⟩ := h x hx
  exact ⟨fun _ _ => trivial, fun _ => rfl⟩

theorem DeletesMembers.assignments (h : DeletesMembers ws) : (applyAll ws
    d).identityCenterAssignments = d.identityCenterAssignments := by
  induction ws generalizing d with
  | nil => rfl
  | cons x _ ih =>
    obtain ⟨id, rfl⟩ := h x mem_cons_self
    exact ih fun y hy => h y (mem_cons_of_mem _ hy)

include h

theorem commitDeletedGroup_leads {group : Uuid} {t : Int} (hw : DeletesMembers ws) (hp : r.pending =
    ws ++ [.deleteGroup group t]) (hf : GroupFree removal d r.held group) : Leads lib removal d w e
    uuid i r (.commit (.done .ok)) := by
  refine leads_commit h ?_ fun _ _ _ => trivial
  rw [hp]
  refine fitsAll_last (hw.quiet.fits d) fun hr a ha hrev hty hsub => ?_
  rw [hw.assignments] at ha
  exact hf.free hr a ha ⟨hrev, hty, hsub⟩

variable {m : MemberChange}

theorem memberAccounts_leads (hp : r.pending = []) (hl : GroupLocked d r.held m.organization
    m.group) : Leads lib removal d w e uuid i r (memberAccounts d m) := by
  unfold memberAccounts
  refine leads_lock nofun (Ensuring.resume_at (hp ▸ .nil) ⟨hl, fun hr a ha has => .inl ?_⟩)
  have ho := hl.organization h.inv hr ha has
  rw [(orderBy_perm _ _).mem_iff, mem_dedup]
  refine mem_map.mpr ⟨a, mem_filter.mpr ⟨ha, ?_⟩, rfl⟩
  simp [assignsGroup, inForce, ho, has.1, has.2.1, has.2.2]

omit h

theorem insertMember_leads (hp : Prepares r.pending) (hm : MemberTodo removal d r.held r.pending m
    []) : Leads lib removal d w e uuid i r (insertMember uuid view m) := by
  unfold insertMember
  split_ifs
  · exact leads_abort
  refine leads_stmt (by simp) (forall_mem_singleton.mpr ?_)
    ⟨r.pending, _, rfl, hp, hm.more mem_more fun _ h => h, rfl, rfl, rfl⟩
  refine ⟨nofun, forall_mem_singleton.mpr ?_, by simp [guards, Write.makes]⟩
  exact mem_more _ hm.locked.lock

include h

theorem commitMember_leads {gm : IdentityCenterGroupMemberRow} (hp : r.pending = ws ++
    [.insertGroupMember gm]) (hw : Prepares ws) (hm : MemberTodo removal d r.held ws m []) (ho :
    gm.organizationId = m.organization) (hg : gm.groupId = m.group) (hu : gm.userId = m.user) :
    Leads lib removal d w e uuid i r (.commit (.done .ok)) := by
  refine leads_commit h ?_ fun _ _ _ => trivial
  rw [hp]
  exact fitsAll_last hw.fits (hm.fits hw.view ho hg hu)

omit h

theorem deleteMember_leads (hp : r.pending = []) : Leads lib removal d w e uuid i r (deleteMember
    view m) := by
  unfold deleteMember
  dsimp only
  split_ifs
  · exact leads_abort
  refine deleteRows_leads fun _ _ hw => ?_
  rw [hp]
  exact hw.quiet

/-! ## 6. Assignments -/

theorem lockAccount_leads {organization : Uuid} {number : String} {permissionSet : Uuid} {document :
    Json} {subjectType : Option SubjectType} {subject : Uuid} (hp : r.pending = []) : Leads lib
    removal d w e uuid i r (lockAccount view management organization number permissionSet document
    account subjectType subject) := by
  unfold lockAccount
  dsimp only
  split_ifs
  · refine leads_lock (by simp) ?_
    match subjectType with
    | none => exact hp
    | some .user =>
      exact ⟨hp ▸ .nil, nofun, fun _ user hu => .inl (mem_singleton.mpr hu)⟩
    | some .group => exact ⟨hp, rfl⟩
  · exact leads_abort

variable {a : NewAssignment}
include h

theorem groupUsers_leads (hp : r.pending = []) (ht : a.subjectType = .group) (hl : GroupLocked d
    r.held a.organization a.subject) : Leads lib removal d w e uuid i r (groupUsers d a) := by
  unfold groupUsers
  refine leads_lock nofun
    (Ensuring.resume_at (hp ▸ .nil) ⟨fun _ => hl, fun _ user hu => .inl ?_⟩)
  unfold Subject at hu
  rw [ht] at hu
  obtain ⟨m, hm, hg, rfl⟩ := hu
  rw [(orderBy_perm _ _).mem_iff]
  refine mem_map.mpr ⟨m, mem_filter.mpr ⟨hm, ?_⟩, rfl⟩
  simp [hl.member h.inv hm hg, hg]

omit h

theorem accountRole_leads (hp : Prepares r.pending) (h : AssignmentTodo removal d r.held r.pending a
    []) : Leads lib removal d w e uuid i r (accountRole view a) := by
  unfold accountRole
  refine leads_lock nofun ?_
  split
  · exact ⟨.inl hp, h⟩
  · exact ⟨hp, h⟩

theorem insertAccountIamRole_leads {row : IamRoleRow} (hl : (.fresh row.principalId, .exclusive) ∈
    r.held) (hp : Prepares r.pending) (h : AssignmentTodo removal d r.held r.pending a []) : Leads
    lib removal d w e uuid i r (insertIamRole view row (.identityCenter (.insertRolePolicy a
    row.principalId))) :=
  insertIamRole_leads hl ⟨.inr ⟨r.pending, row, [], rfl, hp, .nil⟩, hl,
    h.more (fun _ h => h) fun _ => mem_append_left _⟩

variable {role : Uuid}

/-- A statement that adds one more row of the new role. -/
theorem prepare_leads {x : Write} {locks : Locks} {next : IdentityCenterCall} (hx : x.prepares =
    true) (hf : ∀ n m, (.fresh n, m) ∈ locks → n = uuid 0) (hg : Guarded (guards removal) (locks ++
    r.held) x) (hp : Prepared r.pending) (hl : (.fresh role, .exclusive) ∈ r.held) (h :
    AssignmentTodo removal d r.held r.pending a []) (hnext : ∀ {held pending}, Prepared pending →
    (.fresh role, .exclusive) ∈ held → AssignmentTodo removal d held pending a [] → IdentityCenterAt
    removal d (w.after e ((program lib removal).drawn uuid)) held pending next) : Leads lib removal
    d w e uuid i r (.stmt locks [x] (.identityCenter next)) := by
  refine leads_stmt hf (forall_mem_singleton.mpr ?_) (hnext (hp.append (.single hx)) (mem_more _ hl)
    (h.more mem_more fun _ => mem_append_left _))
  exact hg

theorem insertAccountRole_leads {policy : Uuid} (hp : Prepared r.pending) (hl : (.fresh role,
    .exclusive) ∈ r.held) (h : AssignmentTodo removal d r.held r.pending a []) : Leads lib removal d
    w e uuid i r (insertAccountRole view a role policy) := by
  unfold insertAccountRole
  split_ifs
  · exact leads_abort
  refine prepare_leads rfl (by simp) (guarded_makes rfl rfl (forall_mem_singleton.mpr ?_)) hp hl h
    fun hp _ h => ⟨hp, h⟩
  exact mem_more _ hl

/-- The group of an assignment is locked. -/
theorem AssignmentTodo.group_held {held : Locks} (h : AssignmentTodo removal d held ws a []) {k :
    Key} (hk : k ∈ a.key.groupKeys) : (k, .exclusive) ∈ held := by
  unfold AssignmentKey.groupKeys at hk
  cases ht : a.subjectType with
  | user => simp [NewAssignment.key, ht] at hk
  | group =>
    simp only [NewAssignment.key, ht, mem_singleton] at hk
    rw [hk]
    exact (h.locked ht).lock

theorem insertAssignment_leads (hp : Prepared r.pending) (h : AssignmentTodo removal d r.held
    r.pending a []) : Leads lib removal d w e uuid i r (insertAssignment uuid view a role) := by
  unfold insertAssignment
  split
  · refine leads_stmt (by simp) (forall_mem_singleton.mpr ?_) ⟨r.pending, _, rfl, hp,
      h.more mem_more fun _ h => h, .inr ⟨_, rfl, rfl⟩⟩
    exact ⟨by simp [guards, Write.removesMembership], fun k hk => mem_more _ (h.group_held hk),
      by simp [guards, Write.makes, NewAssignment.row]⟩
  · split_ifs
    · exact leads_abort
    refine leads_stmt (by simp) (forall_mem_singleton.mpr ?_) ⟨r.pending, _, rfl, hp,
      h.more mem_more fun _ h => h, .inl rfl⟩
    exact ⟨by simp [guards, Write.removesMembership], fun k hk => mem_more _ (h.group_held hk),
      by simp [guards, Write.makes]⟩

include h

theorem commitAssignment_leads {x : Write} (hp : r.pending = ws ++ [x]) (hw : Prepared ws) (ht :
    AssignmentTodo removal d r.held ws a []) (hx : x = .regrantAssignment a.key ∨ ∃ row, x =
    .insertAssignment row ∧ assignmentKey row = a.key) : Leads lib removal d w e uuid i r (.commit
    (.done .ok)) := by
  refine leads_commit h ?_ fun _ _ _ => trivial
  have hin (y : Write) (hy : y ∈ ws) : y ∈ r.pending := hp ▸ mem_append_left _ hy
  have hxin : x ∈ r.pending := hp ▸ mem_append_right _ (mem_singleton_self _)
  rw [hp]
  refine fitsAll_last (hw.fits fun q hq => newRole_fits h (hin _ hq)) ?_
  rcases hx with rfl | ⟨row, rfl, hkey⟩
  · exact ht.covered hw.view
  refine ⟨(h.own.committed _ hxin).unborn _ (mem_singleton_self _), fun q hq he => ?_, ?_⟩
  · rw [hw.view.assignments] at hq
    exact new_id h hxin (mem_singleton.mpr he) (mem_ids_assignment hq)
  · rw [hkey]
    exact ht.covered hw.view

omit h

theorem revokeAssignment_leads (hp : r.pending = []) {assignment : Uuid} : Leads lib removal d w e
    uuid i r (revokeAssignment now view management assignment) := by
  unfold revokeAssignment
  split_ifs
  · refine leads_quiet (hp ▸ .nil) (by simp) (forall_mem_singleton.mpr ?_)
      (.single (fun _ _ => trivial) fun _ => rfl)
    exact guarded_plain rfl rfl rfl
  · exact trivial

/-! ## 7. Sessions -/

variable {n : SessionAssignment}

section
variable (h : Ready removal d w e uuid i r)
include h

/-- The assignment a session is made for. -/
theorem sessionReady {a : IdentityCenterAssignmentRow} (ha : a ∈ d.identityCenterAssignments) (hi :
    a.id = n.assignment) (hg : n.generation = a.generation) : SessionReady d w n := by
  refine ⟨h.known.born (hi ▸ mem_ids_assignment ha), fun a' ha' he => ?_⟩
  rw [hg, h.inv.assignments.eq ha' ha (he.trans hi.symm)]

theorem sessionAssignment_leads (hp : r.pending = []) {management organization : Uuid} {number :
    String} {assignment user : Uuid} {browser : Option Nat} {source : Uuid} : Leads lib removal d w
    e uuid i r (sessionAssignment d management organization number assignment user browser
    source) := by
  unfold sessionAssignment
  split
  · exact leads_abort
  rename_i a p hfound
  obtain ⟨a', ha', hset⟩ := mem_filterMap.mp (mem_of_head? hfound)
  obtain ⟨p', hset, heq⟩ := Option.map_eq_some_iff.mp hset
  cases heq
  have hi : a.id = assignment := by
    unfold usableSet at hset
    split_ifs at hset with hu
    simp only [Bool.and_eq_true, beq_iff_eq] at hu
    exact hu.1.1.1.2
  dsimp only
  refine leads_lock (by simp) ?_
  have hready (n : SessionAssignment) (hn : a.id = n.assignment)
      (hg : n.generation = a.generation) :
      SessionReady d (w.after e ((program lib removal).drawn uuid)) n :=
    (sessionReady h ha' hn hg).mono h.after
  split
  · split_ifs
    · exact ⟨hp, hready _ hi rfl, nofun⟩
    · exact hp
  · exact ⟨hp, hready _ hi rfl⟩

theorem sessionGroup_leads (hp : r.pending = []) (hn : SessionReady d w n) : Leads lib removal d w e
    uuid i r (sessionGroup d n organization group) := by
  unfold sessionGroup
  split
  · exact leads_abort
  rename_i gm hgm
  refine leads_lock (by simp) ⟨hp, hn.mono h.after, fun k hk => ?_⟩
  cases hk
  exact Born.mono h.after
    (h.known.born (mem_ids_groupMember (mem_of_find?_eq_some hgm)))

/-- The id of a membership that is there is born. -/
theorem membership_born {m : MembershipRow} (hm : m ∈ d.organizationMemberships) : Born ids w
    m.identityCenterMembershipId :=
  h.known.born (mem_ids_membership hm)

variable {groupMembership : Option Uuid}

theorem sessionTarget_leads (hp : r.pending = []) (hn : SessionReady d w n) (hg : ∀ k,
    groupMembership = some k → Born ids w k) : Leads lib removal d w e uuid i r (sessionTarget d n
    groupMembership) := by
  unfold sessionTarget
  split
  · exact leads_abort
  rename_i m hm
  exact leads_lock (by simp) ⟨hp, hn.mono h.after, fun k hk => (hg k hk).mono h.after,
    (membership_born h (mem_of_find?_eq_some hm)).mono h.after⟩

theorem sessionSource_leads (hp : r.pending = []) {principal membership : Uuid} (hn : SessionReady d
    w n) (hg : ∀ k, groupMembership = some k → Born ids w k) (ht : Born ids w membership) : Leads
    lib removal d w e uuid i r (sessionSource d n groupMembership principal membership) := by
  unfold sessionSource
  split
  · exact leads_abort
  rename_i m hm
  exact leads_lock (by simp) ⟨hp ▸ .nil, hn.mono h.after, fun k hk => (hg k hk).mono h.after,
    ht.mono h.after, (membership_born h (mem_of_find?_eq_some hm)).mono h.after⟩

end

theorem SessionReady.captured {clock : Int} {c : Captured} {id : Uuid} {tokenHash : Nat} (hn :
    SessionReady d w n) (hg : ∀ k, c.groupMembership = some k → Born ids w k) (ht : Born ids w
    c.targetMembership) (hs : Born ids w c.sourceMembership) : CapturedOk d w (n.row lib clock c id
    tokenHash) where
  assignment _ hk := Option.some.inj hk ▸ hn.born
  generation a ha he := ⟨n.generation, rfl, hn.generation a ha (Option.some.inj he).symm⟩
  source _ hk := Option.some.inj hk ▸ hs
  target _ hk := Option.some.inj hk ▸ ht
  group k hk := hg k hk

include h

theorem insertIdentityCenterSession_leads {clock : Int} {c : Captured} (hq : DeletesSessions
    r.pending) (hn : SessionReady d w n) (hg : ∀ k, c.groupMembership = some k → Born ids w k) (ht :
    Born ids w c.targetMembership) (hs : Born ids w c.sourceMembership) : Leads lib removal d w e
    uuid i r (insertIdentityCenterSession lib clock uuid n c) := by
  refine leads_stmt (by simp) (forall_mem_singleton.mpr ?_)
    ⟨r.pending, _, hq, rfl, rfl, (hn.captured hg ht hs).mono fun _ hb => hb.mono h.after⟩
  exact guarded_makes rfl rfl (by simp [Write.makes, SessionAssignment.row])

omit h
variable {s : IamRoleSessionRow}

theorem CapturedOk.applyAll (hw : ∀ x ∈ ws, MakesNew w x) (h : CapturedOk d w s) : CapturedOk
    (applyAll ws d) w s := by
  induction ws generalizing d with
  | nil => exact h
  | cons x _ ih =>
    refine ih (fun y hy => hw y (mem_cons_of_mem _ hy)) (h.apply (fun a he => ?_) (.refl s))
    have hx := hw x mem_cons_self
    subst he
    exact hx a.id (mem_singleton_self _)

include h

theorem commitIdentityCenterSession_leads (hw : DeletesSessions ws) (hp : r.pending = ws ++
    [.insertRoleSession s]) (hs : CapturedOk d w s) : Leads lib removal d w e uuid i r (.commit
    (n.next s.id)) := by
  have hnew (x : Write) (hx : x ∈ ws) : MakesNew w x :=
    makesNew (h.own.committed x (hp ▸ mem_append_left _ hx))
  refine leads_commit h (newSession_fits h hw hp (hs.applyAll hnew)) fun w' _ hk => ?_
  unfold SessionAssignment.next
  cases n.browser with
  | none => exact trivial
  | some => exact ⟨rfl, born_session (hp ▸ hk)⟩

omit h

/-! ## 8. Memberships -/

theorem removeMembership_leads (hp : r.pending = []) (hr : removal = true) {organization : Uuid} :
    Leads lib removal d w e uuid i r (removeMembership view organization user) := by
  unfold removeMembership
  split
  · exact trivial
  refine leads_quiet (hp ▸ .nil) (by simp) (forall_mem_singleton.mpr ?_)
    (.single (fun _ _ => hr) fun _ => rfl)
  exact ⟨fun _ => hr, nofun, nofun⟩

theorem addMembership_leads (hp : r.pending = []) {organization principal : Uuid} {role :
    MembershipRole} : Leads lib removal d w e uuid i r (addMembership uuid view organization user
    principal role) := by
  unfold addMembership
  split_ifs
  · refine insertMembership_leads rfl fun locks => ?_
    rw [hp]
    exact AllQuiet.single (fun _ _ => trivial) fun _ => rfl
  · exact trivial

include h

/-- **Every statement of Identity Center keeps the outline.** -/
theorem identityCenterExec_leads {c : IdentityCenterCall} (hA : IdentityCenterAt removal d w r.held
    r.pending c) : Leads lib removal d w e uuid i r (identityCenterExec lib w.clock (r.began.getD
    w.clock) uuid (applyAll r.pending d) c) := by
  -- where nothing is pending, the view is the database
  have hview (hp : r.pending = []) : applyAll r.pending d = d := by rw [hp]; rfl
  cases c with
  | insertPermissionSet | insertGroup =>
    refine leads_stmt (by simp) (forall_mem_singleton.mpr ?_) ⟨_, by rw [show r.pending = [] from hA]; rfl⟩
    exact guarded_makes rfl rfl (by simp [Write.makes])
  | commitPermissionSet =>
    obtain ⟨p, hp⟩ := hA
    exact commitPermissionSet_leads h hp
  | updateSet => exact updateSet_leads hA
  | updatePolicies => exact updatePolicies_leads hA
  | lockSet => exact lockLive_leads (by simp) fun _ => hA
  | setInUse =>
    simp only [identityCenterExec, setInUse]
    split_ifs
    · exact leads_abort
    · exact leads_lock (by simp) hA
  | markSet =>
    have hp : r.pending = [] := hA
    refine leads_quiet (hp ▸ .nil) (by simp) (forall_mem_singleton.mpr ?_)
      (.single (fun _ _ => trivial) fun _ => rfl)
    exact guarded_plain rfl rfl rfl
  | commitGroup =>
    obtain ⟨g, hp⟩ := hA
    exact commitGroup_leads h hp
  | lockMemberGroup m add =>
    rw [hview hA]
    refine lockLive_leads (by simp) fun hl => ?_
    cases add with
    | true => exact ⟨hA, .of_live hl⟩
    | false => exact hA
  | memberUser =>
    simp only [identityCenterExec]
    refine requireDirectoryUser_leads fun _ _ => ?_
    exact ⟨hA.1, hA.2.more mem_more⟩
  | memberAccounts =>
    rw [hview hA.1]
    exact memberAccounts_leads h hA.1 hA.2
  | insertMember => exact insertMember_leads hA.1 hA.2
  | commitMember =>
    obtain ⟨ws, gm, hp, hw, hm, ho, hg, hu⟩ := hA
    exact commitMember_leads h hp hw hm ho hg hu
  | deleteMember => exact deleteMember_leads hA
  | lockGroup =>
    rw [hview hA]
    exact lockLive_leads (by simp) fun hl => ⟨hA, .of_live hl⟩
  | groupInUse =>
    rw [hview hA.1]
    exact groupInUse_leads h hA.1 hA.2
  | deleteMembers =>
    refine deleteRows_leads fun locks writes hw => ⟨?_, hA.2.more mem_more⟩
    rw [hA.1]
    exact hw
  | markGroup =>
    refine leads_stmt (by simp) (forall_mem_singleton.mpr ?_)
      ⟨⟨r.pending, _, hA.1, rfl⟩, hA.2.more mem_more⟩
    exact ⟨by simp [guards, Write.removesMembership], by simp [guards, Write.needs],
      by simp [guards, Write.makes]⟩
  | commitDeletedGroup =>
    obtain ⟨⟨ws, t, hw, hp⟩, hf⟩ := hA
    exact commitDeletedGroup_leads h hw hp hf
  | lockAssignedSet =>
    simp only [identityCenterExec, lockAssignedSet]
    split
    · exact leads_abort
    · exact leads_lock (by simp) hA
  | lockAccount => exact lockAccount_leads hA
  | abort => exact leads_abort
  | lockAssignedGroup =>
    rw [hview hA.1]
    exact lockLive_leads (by simp) fun hl => ⟨hA.1, hA.2, .of_live hl⟩
  | groupUsers =>
    rw [hview hA.1]
    exact groupUsers_leads h hA.1 hA.2.1 hA.2.2
  | assignmentUser =>
    simp only [identityCenterExec]
    refine requireDirectoryUser_leads fun _ _ => ?_
    exact ⟨hA.1, rfl, hA.2.more mem_more fun _ h => h⟩
  | ensureAccountUser =>
    exact lockLive_leads (by simp) fun _ =>
      ⟨hA.1, hA.2.more (fun _ => mem_cons_of_mem _) fun _ h => h⟩
  | ensureExists => exact ensureExists_leads hA.1 hA.2
  | ensureDetached =>
    simp only [identityCenterExec, ensureDetached]
    split_ifs
    · exact leads_abort
    · exact leads_lock (by simp) hA
  | ensurePrincipal => exact ensurePrincipal_leads rfl hA.1 hA.2
  | ensureMembership => exact ensureMembership_leads hA.1 hA.2
  | accountRole => exact accountRole_leads hA.1 hA.2
  | insertRolePrincipal =>
    exact insertPrincipal_leads rfl fun _ hl => ⟨hA.1.append (.single rfl),
      mem_append_left _ hl, hA.2.more mem_more fun _ => mem_append_left _⟩
  | insertAccountIamRole => exact insertAccountIamRole_leads hA.2.1 hA.1 hA.2.2
  | insertRolePolicy | insertRoleBinding =>
    exact prepare_leads rfl (by simp) (guarded_plain rfl rfl rfl) hA.1 hA.2.1 hA.2.2
      fun hp hl h => ⟨hp, hl, h⟩
  | insertAccountRole => exact insertAccountRole_leads hA.1 hA.2.1 hA.2.2
  | insertAssignment => exact insertAssignment_leads hA.1 hA.2
  | commitAssignment =>
    obtain ⟨ws, x, hp, hw, ht, hx⟩ := hA
    exact commitAssignment_leads h hp hw ht hx
  | revokeAssignment => exact revokeAssignment_leads hA
  | sessionUser =>
    exact requireDirectoryUser_leads fun _ _ => hA
  | sessionAssignment =>
    rw [hview hA]
    exact sessionAssignment_leads h hA
  | sessionGroup =>
    rw [hview hA.1]
    exact sessionGroup_leads h hA.1 hA.2
  | sessionTarget =>
    rw [hview hA.1]
    exact sessionTarget_leads h hA.1 hA.2.1 hA.2.2
  | sessionSource =>
    rw [hview hA.1]
    exact sessionSource_leads h hA.1 hA.2.1 hA.2.2.1 hA.2.2.2
  | purgeSessions =>
    obtain ⟨hp, hall⟩ := IdentityCenterAt.mono h.after hA
    exact purge_leads fun _ _ hq => ⟨hp.append hq, hall⟩
  | countSessions =>
    simp only [identityCenterExec]
    split_ifs
    · exact leads_abort
    · exact leads_lock (by simp) (IdentityCenterAt.mono h.after hA)
  | insertSession =>
    obtain ⟨hq, hn, hg, ht, hs⟩ := hA
    exact insertIdentityCenterSession_leads h hq hn hg ht hs
  | commitSession =>
    obtain ⟨ws, s, hq, hp, rfl, hs⟩ := hA
    exact commitIdentityCenterSession_leads h hq hp hs
  | removeMembership => exact removeMembership_leads hA.1 hA.2
  | addMembership => exact addMembership_leads hA
  | _ =>
    exact managementOrganization_leads fun _ _ => hA

end Points
end HeteroCloud.Access
