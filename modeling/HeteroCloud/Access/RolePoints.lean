/-
  File:      Access/RolePoints.lean
  Subject:   THE STATEMENTS OF THE ROLE OPERATIONS UNDER THEIR ASSERTIONS: each one establishes the
             assertion of the point it leads to, and each commit keeps the invariant.

  `roleExec_leads` is the result; the lemmas before it follow the statements of Roles.lean.
-/
import HeteroCloud.Access.Assertions

namespace HeteroCloud.Access

open Base Iam Store Api List

variable {lib : ThirdParty} {removal : Bool} {d : Db} {w : View} {e : Event Db Key Write Call}
  {uuid : Nat → Nat} {i : Nat} {r : Running Key Write Call} {now : Int}

/-! ## 1. Shapes of statements -/

/-- A call about to execute its statement. -/
structure Ready (removal : Bool) (d : Db) (w : View) (e : Event Db Key Write Call)
    (uuid : Nat → Nat) (i : Nat) (r : Running Key Write Call) : Prop where
  known : Known ids d w
  inv : Inv removal d w
  own : Own (guards removal) w r
  makes : e.Makes d w.clock i r
  fresh : Fresh uuid w.issued

/-- The statement keeps the outline. -/
abbrev Leads (lib : ThirdParty) (removal : Bool) :=
  Next (program lib removal) (guards removal) (Inv removal) (At lib removal)

section Shapes
variable {c : Call} {locks : Locks} {writes : List Write}

theorem leads_refuse {err : ApiError} : Leads lib removal d w e uuid i r (refuse err) :=
  trivial

theorem leads_abort {err : StoreError} : Leads lib removal d w e uuid i r (abort err) :=
  trivial

variable (h : Ready removal d w e uuid i r)
include h

theorem Ready.executed (hc : r.call = c) : Executed e i c :=
  ⟨h.makes.mover, r, h.makes.runs, hc⟩

theorem Ready.after : w.Grows d (w.after e ((program lib removal).drawn uuid)) :=
  h.known.grows e _

theorem leads_read (hA : At lib removal d w i ⟨c, r.held, r.pending, r.began⟩) : Leads lib removal d
    w e uuid i r (.read c) :=
  At.mono h.after hA

omit h

/-- A statement that writes. -/
theorem leads_stmt (hf : ∀ n m, (.fresh n, m) ∈ locks → n = uuid 0)
    (hg : ∀ x ∈ writes, Guarded (guards removal) (locks ++ r.held) x)
    (hA : At lib removal d (w.after e ((program lib removal).drawn uuid)) i
      ⟨c, locks ++ r.held, r.pending ++ writes, some (r.began.getD w.clock)⟩) :
    Leads lib removal d w e uuid i r (.stmt locks writes c) :=
  ⟨fun n m hm => hf n m hm ▸ mem_cons_self, hg, hA⟩

/-- A statement that only takes locks. -/
theorem leads_lock (hf : ∀ n m, (.fresh n, m) ∉ locks)
    (hA : At lib removal d (w.after e ((program lib removal).drawn uuid)) i
      ⟨c, locks ++ r.held, r.pending, some (r.began.getD w.clock)⟩) :
    Leads lib removal d w e uuid i r (.stmt locks [] c) :=
  leads_stmt (fun n m hm => absurd hm (hf n m)) (forall_mem_nil _)
    (by rwa [append_nil])

include h

theorem leads_commit (hf : FitsAll removal w r.pending d) (hA : ∀ w', StillBorn w w' → Known ids
    (applyAll r.pending d) w' → At lib removal (applyAll r.pending d) w' i ⟨c, [], [], none⟩) :
    Leads lib removal d w e uuid i r (.commit c) := by
  intro w' hw hk
  have hb : StillBorn w w' := fun k hk => Born.mono (w := w.after e []) hw hk
  exact ⟨(h.inv.applyAll hf).mono hb, hA w' hb hk⟩

omit h
variable {x : Write}

/-- A write that needs no lock; the ids it makes are locked as new ones. -/
theorem guarded_makes {held : Locks} (hn : x.needs = []) (hr : x.removesMembership = false) (hm : ∀
    n ∈ x.makes, (.fresh n, .exclusive) ∈ held) : Guarded (guards removal) held x where
  allowed h := absurd (hr.symm.trans h) nofun
  needs k hk := by
    have hk : k ∈ x.needs := hk
    rw [hn] at hk
    exact absurd hk not_mem_nil
  makes := hm

/-- A write that needs no lock and makes no id. -/
theorem guarded_plain {held : Locks} (hn : x.needs = []) (hm : x.makes = []) (hr :
    x.removesMembership = false) : Guarded (guards removal) held x :=
  guarded_makes hn hr fun n hk => by
    rw [hm] at hk
    exact absurd hk not_mem_nil

include h

/-- An id that is about to be committed is in no row. -/
theorem new_id (hx : x ∈ r.pending) {k : Uuid} (hk : k ∈ x.makes) : k ∉ ids d :=
  fun hin => (h.own.committed x hx).unborn k hk (h.known.born hin)

omit h

/-! ## 2. Quiet writes -/

theorem AllQuiet.nil : AllQuiet removal [] := forall_mem_nil _

theorem AllQuiet.append {ws ws' : List Write} (h : AllQuiet removal ws)
    (h' : AllQuiet removal ws') : AllQuiet removal (ws ++ ws') := by
  intro x hx
  rcases mem_append.mp hx with hx | hx
  · exact h x hx
  · exact h' x hx

theorem AllQuiet.single (hf : ∀ d w, Fits removal d w x) (hb : ∀ d, (x.apply d).sessions =
    d.sessions) : AllQuiet removal [x] := by
  intro y hy
  rw [mem_singleton.mp hy]
  exact ⟨hf, hb⟩

theorem AllQuiet.map {α : Type} {f : α → Write} {rows : List α} (hf : ∀ a, Quiet removal (f a)) :
    AllQuiet removal (rows.map f) := by
  intro x hx
  obtain ⟨a, _, rfl⟩ := mem_map.mp hx
  exact hf a

theorem AllQuiet.fits {ws : List Write} (h : AllQuiet removal ws) :
    ∀ d, FitsAll removal w ws d := by
  induction ws with
  | nil => exact fun _ => trivial
  | cons x _ ih =>
    exact fun d => ⟨(h x mem_cons_self).fits d w,
      ih (fun y hy => h y (mem_cons_of_mem _ hy)) _⟩

/-- The last statement of a transaction of quiet writes, before its commit. -/
theorem leads_quiet (hp : AllQuiet removal r.pending) (hf : ∀ n m, (.fresh n, m) ∉ locks)
    (hg : ∀ x ∈ writes, Guarded (guards removal) (locks ++ r.held) x)
    (hq : AllQuiet removal writes) :
    Leads lib removal d w e uuid i r (.stmt locks writes .commit) :=
  leads_stmt (fun n m hm => absurd hm (hf n m)) hg (hp.append hq)

end Shapes

/-! ## 3. Reads -/

section Reads

theorem authorizeActor_ok {actor : AuthenticatedActor} {account : Uuid} {action resource : String}
    {t : Int} {context : AuthorizationContext}
    (h : (authorizeActor lib d actor account action resource t).1 = .ok context) :
    ∃ evaluation, evaluateActor lib d actor account action resource false t =
      .ok (context, evaluation) ∧ evaluation.decision = .allow := by
  unfold authorizeActor authorizeActorWithImplicitAllow at h
  cases hev : evaluateActor lib d actor account action resource false t with
  | error =>
    rw [hev] at h
    cases h
  | ok p =>
    obtain ⟨context', evaluation⟩ := p
    simp only [hev] at h
    cases hd : evaluation.decision with
    | deny => simp [hd] at h
    | allow =>
      simp only [hd, reduceCtorEq, if_false, Except.ok.injEq] at h
      exact ⟨evaluation, by rw [h], hd⟩

theorem organization_some {id : Uuid} {a : OrganizationRow} (h : d.organization id = some a) :
    a ∈ d.organizations ∧ a.id = id :=
  ⟨mem_of_find?_eq_some h, by simpa using find?_some h⟩

theorem iamPrincipalArn_some {account principal : Uuid} {number arn : String}
    (h : d.iamPrincipalArn lib account principal = some (number, arn)) :
    ∃ a ∈ d.organizations, a.id = account ∧ a.numberText = number := by
  unfold Db.iamPrincipalArn at h
  obtain ⟨p, hp, h⟩ := Option.bind_eq_some_iff.mp h
  obtain ⟨a, ha, h⟩ := Option.map_eq_some_iff.mp h
  obtain ⟨ham, hai⟩ := organization_some ha
  have hpo := find?_some hp
  simp only [Bool.and_eq_true, beq_iff_eq] at hpo
  exact ⟨a, ham, hai.trans hpo.1.1, congrArg Prod.fst h⟩

/-- The row a role was read from. -/
theorem findIamRole_some {number name : String} {role : IamRole}
    (h : d.findIamRole number name = some role) :
    ∃ row ∈ d.iamRoles, row.principalId = role.principalId ∧
      row.organizationId = role.organizationId ∧ row.name = name ∧
      ∃ a ∈ d.organizations, a.id = role.organizationId ∧ a.numberText = number := by
  obtain ⟨row, hrow, h⟩ := mem_filterMap.mp (mem_of_head? h)
  obtain ⟨a, ha, h⟩ := Option.bind_eq_some_iff.mp h
  obtain ⟨ham, hai⟩ := organization_some ha
  by_cases hn : a.numberText = number ∧ row.name = name
  · rw [if_pos hn] at h
    cases h
    exact ⟨row, hrow, rfl, rfl, hn.2, a, ham, hai, hn.1⟩
  · rw [if_neg hn] at h
    cases h

end Reads

/-! ## 4. `assume_iam_role` -/

section Assume
variable {q : Request} {g : Grant}

section
variable (h : Ready removal d w e uuid i r) (hp : r.pending = [])
include h hp

theorem assumeIamRole_leads (actor : AuthenticatedActor) (source : Uuid) (input : AssumeIamRole) :
    Leads lib removal d w e uuid i r (assumeIamRole d actor source input) := by
  unfold assumeIamRole
  split_ifs with hic hen
  · exact leads_refuse
  · exact leads_refuse
  · exact leads_read h ⟨hp, by simpa using hic⟩

theorem browserRoles_leads {actor : AuthenticatedActor} (ha : isIdentityCenterSession actor = false)
    (source : Uuid) (input : AssumeIamRole) : Leads lib removal d w e uuid i r (browserRoles lib d
    actor source input) := by
  unfold browserRoles
  split_ifs
  · exact leads_refuse
  cases hq : checkRequest lib actor source input with
  | error => exact leads_refuse
  | ok =>
    obtain ⟨hok, rfl⟩ := checkRequest_ok hq
    exact leads_read h ⟨hp, hok, ha⟩

theorem policyConditions_leads (hq : Asked q) : Leads lib removal d w e uuid i r (policyConditions d
    q) := by
  unfold policyConditions
  split_ifs
  · exact leads_refuse
  · exact leads_read h ⟨hp, hq⟩

omit hp

theorem authorize_leads (hc : r.call = .role (.authorize q)) (hp : r.pending = []) (hq : Asked q) :
    Leads lib removal d w e uuid i r (authorize lib w.clock d q) := by
  unfold authorize
  cases ha : (authorizeActor lib d q.actor q.source "sts:AssumeRole" q.roleArn w.clock).1 with
  | error => exact leads_refuse
  | ok context =>
    obtain ⟨evaluation, hev, hd⟩ := authorizeActor_ok ha
    rw [← h.makes.db, ← h.makes.clock] at hev
    exact ⟨hp, hq, e, mem_cons_self, h.executed hc, context, evaluation, hev, hd, rfl⟩

theorem callerArn_leads (hp : r.pending = []) (hq : Asked q) {principalId : Uuid} (ha : Allowed lib
    w i q principalId) : Leads lib removal d w e uuid i r (callerArn lib d q principalId) := by
  unfold callerArn
  cases harn : d.iamPrincipalArn lib q.source principalId with
  | none => exact leads_refuse
  | some p =>
    obtain ⟨number, arn⟩ := p
    exact leads_read h ⟨hp, hq, ha, iamPrincipalArn_some harn⟩

theorem findRole_leads (hp : r.pending = []) (hq : Asked q) {caller : Caller} (ha : Allowed lib w i
    q caller.principalId) (hc : CallerOk d q caller) : Leads lib removal d w e uuid i r (findRole d
    q caller) := by
  unfold findRole
  cases hr : d.findIamRole q.targetNumber q.roleName with
  | none => exact leads_refuse
  | some role =>
    obtain ⟨row, hrow, hrp, hro, hrn, a, ham, hai, han⟩ := findIamRole_some hr
    have hborn : Born ids w role.principalId := h.known.born (hrp ▸ mem_ids_role hrow)
    refine leads_read h ⟨hp, hq, ha, hc, hborn, a, ham, hai, fun r' hr' he => ?_⟩
    rw [h.inv.roles.eq hr' hrow (he.trans hrp.symm), han, hrn, hq.request.arn]
    exact ⟨hro, rfl⟩

theorem roleTrust_leads {caller : Caller} {role : IamRole} (hcall : r.call = .role (.roleTrust q
    caller role)) (hp : r.pending = []) (hq : Asked q) (ha : Allowed lib w i q caller.principalId)
    (hc : CallerOk d q caller) (hf : Found d w q role) : Leads lib removal d w e uuid i r (roleTrust
    lib w.clock uuid d q caller role) := by
  unfold roleTrust
  split_ifs with hic
  · exact leads_refuse
  cases ht : trusts lib role caller with
  | error => exact leads_refuse
  | ok permits =>
    cases permits with
    | false => exact leads_refuse
    | true =>
      exact ⟨hp, hq, ha.mono h.after, hc, hf.mono h.after, by simpa using hic, ht, e,
        mem_cons_self, h.executed hcall, by rw [h.makes.clock]⟩

theorem lockRole_leads (hc : r.call = .role (.lockRole g)) (hp : r.pending = []) (ha : Approved lib
    d w i g) : Leads lib removal d w e uuid i r (lockRole d g) := by
  unfold lockRole
  cases hr : d.iamRoles.find? fun r => r.organizationId == g.role.organizationId &&
    r.principalId == g.role.principalId && d.enabledPrincipal r.organizationId r.principalId with
  | none => exact trivial
  | some row =>
    have hrow := find?_some hr
    simp only [Bool.and_eq_true, beq_iff_eq] at hrow
    obtain ⟨⟨hro, hrp⟩, hen⟩ := hrow
    dsimp only
    split_ifs with htrust hdur
    · exact trivial
    · exact trivial
    refine leads_lock (by simp) ⟨hp, ha.mono h.after, ?_, ?_, e, mem_cons_self,
      h.executed hc, ?_⟩
    · rw [hrp]
      exact mem_cons_self
    · exact ⟨row, mem_of_find?_eq_some hr, hrp, by simpa using htrust,
        Int.not_lt.mp hdur⟩
    · rw [h.makes.db, ← hro, ← hrp]
      exact hen

end

theorem LockedRole.more {held held' : Locks} (hh : ∀ l ∈ held, l ∈ held')
    (h : LockedRole d w i held g) : LockedRole d w i held' g :=
  { h with lock := hh _ h.lock }

theorem purge_leads {now : Int} {view : Db} {role : Uuid} {next : Call}
    (hA : ∀ locks writes, DeletesSessions writes →
      At lib removal d (w.after e ((program lib removal).drawn uuid)) i
        ⟨next, locks ++ r.held, r.pending ++ writes, some (r.began.getD w.clock)⟩) :
    Leads lib removal d w e uuid i r (purge now view role next) := by
  unfold purge
  refine leads_stmt (fun n m hm => ?_) (fun x hx => ?_) (hA _ _ fun x hx => ?_)
  · simp [deleteLocks] at hm
  · obtain ⟨s, _, rfl⟩ := mem_map.mp hx
    exact guarded_plain rfl rfl rfl
  · obtain ⟨s, _, rfl⟩ := mem_map.mp hx
    exact ⟨s.id, rfl⟩

theorem DeletesSessions.nil : DeletesSessions [] := forall_mem_nil _

theorem DeletesSessions.append {ws ws' : List Write} (h : DeletesSessions ws)
    (h' : DeletesSessions ws') : DeletesSessions (ws ++ ws') := by
  intro x hx
  rcases mem_append.mp hx with hx | hx
  · exact h x hx
  · exact h' x hx

variable {ws : List Write}

theorem DeletesSessions.quiet (h : DeletesSessions ws) : AllQuiet removal ws := by
  intro x hx
  obtain ⟨id, rfl⟩ := h x hx
  exact ⟨fun _ _ => trivial, fun _ => rfl⟩

variable {s : IamRoleSessionRow}

theorem DeletesSessions.mem (h : DeletesSessions ws) (hs : s ∈ (applyAll ws d).iamRoleSessions) : s
    ∈ d.iamRoleSessions := by
  induction ws generalizing d with
  | nil => exact hs
  | cons x _ ih =>
    obtain ⟨id, rfl⟩ := h x mem_cons_self
    exact mem_of_mem_filter (ih (fun y hy => h y (mem_cons_of_mem _ hy)) hs)

theorem insertSession_leads (hp : DeletesSessions r.pending) :
    Leads lib removal d w e uuid i r (insertSession uuid g) := by
  refine leads_stmt (by simp) (forall_mem_singleton.mpr ?_) ⟨r.pending, hp, rfl⟩
  exact guarded_makes rfl rfl (by simp [Write.makes, Grant.row])

/-- A session that is not of Identity Center refers to nothing. -/
theorem grant_captured (id : Uuid) : CapturedOk d w (g.row id) :=
  ⟨nofun, nofun, nofun, nofun, nofun⟩

theorem fitsAll_last {x : Write} (hw : FitsAll removal w ws d) (hx : Fits removal (applyAll ws d) w
    x) : FitsAll removal w (ws ++ [x]) d :=
  fitsAll_append.mpr ⟨hw, hx, trivial⟩

/-- A session that was inserted is born with the commit. -/
theorem born_session {w' : View} (hk : Known ids (applyAll (ws ++ [.insertRoleSession s]) d) w') :
    Born ids w' s.id := by
  refine hk.born ?_
  rw [applyAll_append]
  simp [ids, applyAll, Write.apply]

/-- The session a transaction adds has a new id. -/
theorem newSession_fits (h : Ready removal d w e uuid i r) (hw : DeletesSessions ws) (hp : r.pending
    = ws ++ [.insertRoleSession s]) (hs : CapturedOk (applyAll ws d) w s) : FitsAll removal w
    r.pending d := by
  have hx : .insertRoleSession s ∈ r.pending :=
    hp ▸ mem_append_right _ (mem_singleton_self _)
  rw [hp]
  refine fitsAll_last (hw.quiet.fits d) ⟨fun q hq he => ?_, hs⟩
  exact new_id h hx (mem_singleton.mpr he) (mem_ids_roleSession (hw.mem hq))

theorem commitSession_leads (h : Ready removal d w e uuid i r) {id : Uuid} (hw : DeletesSessions ws)
    (hp : r.pending = ws ++ [.insertRoleSession (g.row id)]) : Leads lib removal d w e uuid i r
    (.commit (g.next id)) := by
  refine leads_commit h (newSession_fits h hw hp (grant_captured id)) fun w' _ hk => ?_
  unfold Grant.next
  cases g.request.switch with
  | none => exact trivial
  | some => exact ⟨rfl, born_session (hp ▸ hk)⟩

end Assume

/-! ## 5. Browser sessions -/

section Browser
variable {s : Switch} {tokenHash : Nat}
variable {active : Option Uuid}
variable {held : Locks}

theorem BrowserIs.more {held' : Locks} (hh : ∀ l ∈ held, l ∈ held') (h : BrowserIs d held tokenHash
    active) : BrowserIs d held' tokenHash active :=
  { h with lock := hh _ h.lock }

theorem BrowserIs.of_row (h : Inv removal d w) {b : SessionRow} (hl : (.browser b.tokenHash,
    .exclusive) ∈ held) (hb : b ∈ d.sessions) : BrowserIs d held b.tokenHash
    b.activeRoleSessionId :=
  ⟨hl, ⟨b, hb, rfl⟩, fun b' hb' he => by rw [h.browsers.eq hb' hb he]⟩

theorem guarded_setActive (hl : (.browser tokenHash, .exclusive) ∈ held) : Guarded (guards removal)
    held (.setActiveRole tokenHash active) :=
  ⟨nofun, fun k hk => by rwa [mem_singleton.mp hk], nofun⟩

theorem switchBrowserRole_leads (h : Ready removal d w e uuid i r) (hp : r.pending = [])
    (hb : Born ids w s.new) :
    Leads lib removal d w e uuid i r (switchBrowserRole now d s) := by
  unfold switchBrowserRole
  split_ifs with hsw hun
  · exact ⟨rfl, hb⟩
  · obtain ⟨b, hbm, hbs⟩ := any_eq_true.mp hsw
    simp only [switchable, Bool.and_eq_true, beq_iff_eq] at hbs
    obtain ⟨⟨⟨⟨hbt, _⟩, hba⟩, _⟩, _⟩ := hbs
    have his (held : Locks) (hl : (.browser s.tokenHash, .exclusive) ∈ held) :
        BrowserIs d held s.tokenHash s.expected := by
      rw [← hbt, ← hba]
      exact .of_row h.inv (hbt ▸ hl) hbm
    refine leads_stmt (by simp) (forall_mem_singleton.mpr ?_) ?_
    · exact guarded_setActive mem_cons_self
    rw [hp]
    unfold Switch.next
    cases hprev : s.expected with
    | none => exact ⟨⟨now, by rw [hprev]; rfl⟩, hb.mono h.after, his _ mem_cons_self⟩
    | some => exact ⟨rfl, hprev, hb.mono h.after, his _ mem_cons_self⟩
  · exact ⟨rfl, hb⟩

theorem revokeById_leads {view : Db} {id : Uuid} {next : Call}
    (hA : ∀ locks, At lib removal d (w.after e ((program lib removal).drawn uuid)) i
      ⟨next, locks ++ r.held, r.pending ++ [.revokeRoleSession id now],
        some (r.began.getD w.clock)⟩) :
    Leads lib removal d w e uuid i r (revokeById now view id next) := by
  refine leads_stmt (fun n m hm => ?_) (forall_mem_singleton.mpr ?_) (hA _)
  · unfold revokeLocks at hm
    split_ifs at hm with hl
    · simp at hm
    · exact absurd hm not_mem_nil
  · exact guarded_plain rfl rfl rfl

theorem mem_more {locks : Locks} : ∀ l ∈ held, l ∈ locks ++ held :=
  fun _ => mem_append_right _

variable {t : Int}

theorem revocations_fit : FitsAll removal w (revocations t active) d := by
  cases active with
  | none => exact trivial
  | some => exact ⟨trivial, trivial⟩

section
variable (h : Ready removal d w e uuid i r)
include h

theorem switchCommit_leads (hp : r.pending = .setActiveRole s.tokenHash (some s.new) :: revocations
    t s.expected) (hb : Born ids w s.new) : Leads lib removal d w e uuid i r (.commit (.done
    (.switched s.new))) := by
  refine leads_commit h ?_ fun _ _ _ => trivial
  rw [hp]
  exact ⟨fun k hk => Option.some.inj hk ▸ hb, revocations_fit⟩

variable {error : StoreError}

theorem revokeNew_leads (hp : r.pending = []) (hb : Born ids w s.new) : Leads lib removal d w e uuid
    i r (revokeNew now d s error) := by
  unfold revokeNew
  split_ifs
  · refine revokeById_leads fun locks => ?_
    rw [hp]
    exact ⟨⟨now, rfl⟩, hb.mono h.after⟩
  · exact trivial

theorem revokeNewCommit_leads (hp : r.pending = [.revokeRoleSession s.new t]) (hb : Born ids w
    s.new) : Leads lib removal d w e uuid i r (.commit (.done (.switchFailed s.new true
    error))) := by
  refine leads_commit h ?_ fun w' hw _ => ?_
  · rw [hp]
    exact ⟨trivial, trivial⟩
  · rw [hp]
    exact DeadSession.revoke (hw _ hb)

theorem clearBrowserRole_leads (hp : r.pending = []) : Leads lib removal d w e uuid i r
    (clearBrowserRole now d tokenHash) := by
  unfold clearBrowserRole
  cases hb : d.sessions.find? fun b => b.tokenHash == tokenHash && decide (now < b.expiresAt) with
  | none => exact leads_abort
  | some =>
    have hbt := find?_some hb
    simp only [Bool.and_eq_true, beq_iff_eq] at hbt
    obtain ⟨rfl, _⟩ := hbt
    exact leads_lock (by simp)
      ⟨hp, .of_row h.inv mem_cons_self (mem_of_find?_eq_some hb)⟩

end
variable {current : Option Uuid}

theorem clearUpdate_leads (hp : r.pending = []) (hb : BrowserIs d r.held tokenHash current) : Leads
    lib removal d w e uuid i r (clearUpdate tokenHash current) := by
  refine leads_stmt (by simp) (forall_mem_singleton.mpr ?_) ?_
  · exact guarded_setActive mem_cons_self
  rw [hp]
  cases current with
  | none => exact ⟨⟨0, rfl⟩, hb.more mem_more⟩
  | some => exact ⟨rfl, hb.more mem_more⟩

theorem clearCommit_leads (h : Ready removal d w e uuid i r) (hp : r.pending = .setActiveRole
    tokenHash none :: revocations t current) : Leads lib removal d w e uuid i r (.commit (.done
    .ok)) := by
  refine leads_commit h ?_ fun _ _ _ => trivial
  rw [hp]
  exact ⟨nofun, revocations_fit⟩

end Browser

/-! ## 6. Roles -/

section Roles
variable {account role : Uuid}
variable {p : PrincipalRow}

theorem insertPrincipal_leads {view : Db} {next : Call} (hi : p.id = uuid 0) (hA : ∀ locks, (.fresh
    (uuid 0), .exclusive) ∈ locks → At lib removal d (w.after e ((program lib removal).drawn uuid))
    i ⟨next, locks ++ r.held, r.pending ++ [.insertPrincipal p], some (r.began.getD w.clock)⟩) :
    Leads lib removal d w e uuid i r (insertPrincipal view p next) := by
  unfold insertPrincipal
  split_ifs
  · exact leads_abort
  refine leads_stmt (by simp [hi]) (forall_mem_singleton.mpr ?_) (hA _ (hi ▸ mem_cons_self))
  exact guarded_makes rfl rfl (by simp [Write.makes])

variable {row : IamRoleRow}

theorem insertIamRole_leads {view : Db} {next : Call} (hl : (.fresh row.principalId, .exclusive) ∈
    r.held) (hA : At lib removal d (w.after e ((program lib removal).drawn uuid)) i ⟨next, r.held,
    r.pending ++ [.insertRole row], some (r.began.getD w.clock)⟩) : Leads lib removal d w e uuid i r
    (insertIamRole view row next) := by
  unfold insertIamRole
  split_ifs
  · exact leads_abort
  refine leads_stmt (by simp) (forall_mem_singleton.mpr ?_) hA
  exact guarded_makes rfl rfl fun n hn => by rwa [mem_singleton.mp hn]

/-- The id of a role that is about to be committed belongs to no role yet. -/
theorem newRole_fits (h : Ready removal d w e uuid i r) (hm : .insertRole row ∈ r.pending) : ∀ q ∈
    d.iamRoles, q.principalId ≠ row.principalId := by
  intro q hq he
  exact new_id h hm (mem_singleton.mpr he) (mem_ids_role hq)

theorem commitRole_leads (h : Ready removal d w e uuid i r) (hp : r.pending = [.insertPrincipal p,
    .insertRole row]) : Leads lib removal d w e uuid i r (.commit (.done .ok)) := by
  refine leads_commit h ?_ fun _ _ _ => trivial
  have hfit : ∀ q ∈ d.iamRoles, q.principalId ≠ row.principalId := newRole_fits h (by simp [hp])
  rw [hp]
  exact ⟨trivial, hfit, trivial⟩

variable (hp : r.pending = [])
include hp

theorem updateIamRoleTrust_leads {trust : Json} : Leads lib removal d w e uuid i r
    (updateIamRoleTrust d account role trust) := by
  unfold updateIamRoleTrust
  split_ifs
  · refine leads_quiet (hp ▸ .nil) (by simp) (forall_mem_singleton.mpr ?_)
      (.single (fun _ _ => trivial) fun _ => rfl)
    exact ⟨nofun, by simp [guards, Write.needs], nofun⟩
  · exact trivial

theorem deleteRolePrincipal_leads (hr : removal = true) : Leads lib removal d w e uuid i r
    (deleteRolePrincipal d account role) := by
  unfold deleteRolePrincipal
  split_ifs
  · exact leads_abort
  refine leads_quiet (hp ▸ .nil) (by simp [deleteLocks]) (forall_mem_singleton.mpr ?_)
    (.single (fun _ _ => hr) fun _ => rfl)
  exact ⟨fun _ => hr, by simp [guards, Write.needs], nofun⟩

theorem setServiceAccountEnabled_leads {enabled : Bool} : Leads lib removal d w e uuid i r
    (setServiceAccountEnabled d account role enabled) := by
  unfold setServiceAccountEnabled
  have hq : AllQuiet removal [.setEnabled account role enabled] :=
    .single (fun _ _ => trivial) fun _ => rfl
  split_ifs
  · refine leads_quiet (hp ▸ .nil) (by simp) (forall_mem_singleton.mpr ?_) hq
    exact guarded_plain rfl rfl rfl
  · refine leads_stmt (by simp) (forall_mem_singleton.mpr ?_) (by rw [hp]; exact hq)
    exact guarded_plain rfl rfl rfl
  · exact leads_abort

omit hp

/-- **Every statement of a role operation keeps the outline.** -/
theorem roleExec_leads (h : Ready removal d w e uuid i r) {c : RoleCall} (hc : r.call = .role c)
    (hA : RoleAt lib removal d w i r.held r.pending c) :
    Leads lib removal d w e uuid i r
      (roleExec lib w.clock (r.began.getD w.clock) uuid (applyAll r.pending d) c) := by
  -- where nothing is pending, the view is the database
  have hview (hp : r.pending = []) : applyAll r.pending d = d := by rw [hp]; rfl
  cases c with
  | assumeIamRole actor source input =>
    rw [hview hA]
    exact assumeIamRole_leads h hA actor source input
  | browserRoles _ source input =>
    rw [hview hA.1]
    exact browserRoles_leads h hA.1 hA.2 source input
  | policyConditions =>
    rw [hview hA.1]
    exact policyConditions_leads h hA.1 hA.2
  | authorize =>
    rw [hview hA.1]
    exact authorize_leads h hc hA.1 hA.2
  | callerArn =>
    rw [hview hA.1]
    exact callerArn_leads h hA.1 hA.2.1 hA.2.2
  | findRole =>
    obtain ⟨hp, hq, ha, hcaller⟩ := hA
    rw [hview hp]
    exact findRole_leads h hp hq ha hcaller
  | roleTrust =>
    obtain ⟨hp, hq, ha, hcaller, hf⟩ := hA
    rw [hview hp]
    exact roleTrust_leads h hc hp hq ha hcaller hf
  | lockRole =>
    rw [hview hA.1]
    exact lockRole_leads h hc hA.1 hA.2
  | purgeSessions =>
    refine purge_leads fun locks writes hq => ⟨?_, hA.2.1.mono h.after, ?_⟩
    · rw [hA.1]
      exact hq
    · exact (hA.2.2.mono h.after).more mem_more
  | countSessions =>
    simp only [roleExec, countSessions]
    split_ifs
    · exact trivial
    · exact leads_lock nofun ⟨hA.1, hA.2.1.mono h.after, hA.2.2.mono h.after⟩
  | insertSession => exact insertSession_leads hA.1
  | commitSession =>
    obtain ⟨ws, hq, hp⟩ := hA
    exact commitSession_leads h hq hp
  | switchBrowserRole =>
    rw [hview hA.1]
    exact switchBrowserRole_leads h hA.1 hA.2
  | switchRevoke =>
    obtain ⟨hp, hprev, hb, his⟩ := hA
    refine revokeById_leads fun locks => ⟨⟨r.began.getD w.clock, ?_⟩, hb.mono h.after,
      his.more mem_more⟩
    rw [hp, hprev]
    rfl
  | switchCommit =>
    obtain ⟨⟨t, hp⟩, hb, _⟩ := hA
    exact switchCommit_leads h hp hb
  | revokeNew =>
    rw [hview hA.1]
    exact revokeNew_leads h hA.1 hA.2
  | revokeNewCommit =>
    obtain ⟨⟨t, hp⟩, hb⟩ := hA
    exact revokeNewCommit_leads h hp hb
  | clearBrowserRole =>
    rw [hview hA]
    exact clearBrowserRole_leads h hA
  | clearUpdate => exact clearUpdate_leads hA.1 hA.2
  | clearRevoke =>
    refine revokeById_leads fun locks => ⟨⟨r.began.getD w.clock, ?_⟩, hA.2.more mem_more⟩
    rw [hA.1]
    rfl
  | clearCommit =>
    obtain ⟨⟨t, hp⟩, _⟩ := hA
    exact clearCommit_leads h hp
  | createIamRole account name =>
    simp only [roleExec, createIamRole]
    split_ifs
    · refine insertPrincipal_leads rfl fun locks hl =>
        ⟨⟨⟨uuid 0, account, name, none, true, none⟩, ?_⟩, mem_append_left _ hl⟩
      rw [show r.pending = [] from hA]
      rfl
    · exact leads_abort
  | insertRole account name trust maxSessionSeconds principal =>
    obtain ⟨⟨p, hp⟩, hl⟩ := hA
    refine insertIamRole_leads hl
      ⟨p, ⟨principal, account, name, trust, maxSessionSeconds⟩, ?_⟩
    rw [hp]
    rfl
  | commitRole =>
    obtain ⟨p, row, hp⟩ := hA
    exact commitRole_leads h hp
  | updateIamRoleTrust =>
    rw [hview hA]
    exact updateIamRoleTrust_leads hA
  | deleteIamRole =>
    simp only [roleExec, deleteIamRole]
    split_ifs
    · exact leads_lock (by simp) hA
    · exact leads_abort
  | deleteRoleManaged =>
    simp only [roleExec, deleteRoleManaged]
    split_ifs
    · exact leads_abort
    · exact leads_lock nofun hA
  | deleteRoleInUse =>
    simp only [roleExec, deleteRoleInUse]
    split_ifs
    · exact leads_abort
    · exact leads_lock nofun hA
  | deleteRolePrincipal =>
    rw [hview hA.1]
    exact deleteRolePrincipal_leads hA.1 hA.2
  | setServiceAccountEnabled =>
    rw [hview hA]
    exact setServiceAccountEnabled_leads hA
  | deleteTokens =>
    refine leads_quiet hA nofun (forall_mem_singleton.mpr ?_) (.single (fun _ _ => trivial) fun _ => rfl)
    exact guarded_plain rfl rfl rfl
  | revokeIamRoleSession =>
    simp only [roleExec, revokeIamRoleSession]
    split_ifs
    · refine revokeById_leads fun locks => ?_
      rw [show r.pending = [] from hA]
      exact AllQuiet.single (fun _ _ => trivial) fun _ => rfl
    · exact trivial

end Roles
end HeteroCloud.Access
