/-
  File:      Access/AssumedRoles.lean
  Subject:   WHO GETS A ROLE SESSION from `assume_iam_role`, and what becomes of the role sessions of
             a browser, in every interleaving.

  * `assumeIamRole_inserts` -- every session it inserts passed all checks, and the trust policy
    that is stored when the row is inserted permits the caller: the checks run before the
    inserting transaction, but that transaction compares the trust policy under the role's lock.
-/
import HeteroCloud.Access.Outline
import HeteroCloud.Base.Schedule

namespace HeteroCloud.Access

open Base Iam Store Api List

instance (lib : ThirdParty) (removal : Bool) : DecidablePred (program lib removal).start :=
  fun c => inferInstanceAs
    (Decidable (c.isStart = true ∧ (c.removesMembership = true → removal = true)))

/-! ## 1. Assumed roles -/

section Assumed
variable {lib : ThirdParty} {d : Db}

/-- The trust policy of a role, as it is stored, permits the caller. -/
def TrustPermits (trustPolicy : Json) (accountNumber arn : String) : Prop :=
  ∃ trust, RoleTrustDocument.fromValue trustPolicy = some trust ∧
    trust.permits accountNumber arn = .ok true

theorem trusts_permits {role : IamRole} {caller : Caller} (h : trusts lib role caller = .ok true) :
    TrustPermits role.trustPolicy caller.accountNumber caller.arn := by
  unfold trusts validateRoleTrust at h
  split_ifs at h with hlen
  · cases h
  cases hv : RoleTrustDocument.fromValue role.trustPolicy with
  | none =>
    rw [hv] at h
    cases h
  | some trust =>
    refine ⟨trust, hv, ?_⟩
    simp only [hv] at h
    cases hval : trust.validate with
    | error =>
      rw [hval] at h
      cases h
    | ok =>
      rw [hval] at h
      cases hp : trust.permits caller.accountNumber caller.arn with
      | error =>
        simp only [Except.mapError, Except.map, bind, Except.bind, hp] at h
        cases h
      | ok =>
        simp only [Except.mapError, Except.map, bind, Except.bind, hp, Except.ok.injEq] at h
        rw [h]

/-- **Every session `assume_iam_role` inserts is of a role that may be assumed.** `s` is inserted
into the state `σ` by the call `i`. -/
theorem assumeIamRole_inserts (lib : ThirdParty) {d : Db} {t : Int} {issued : List Nat}
    (h₀ : Initial true d issued) {past : List (Event Db Key Write Call)}
    {σ : System Db Key Write Call}
    (hrun : Run (program lib true) (System.quiet d t issued) past σ)
    {i : Nat} {r : Running Key Write Call} (hi : σ.runs i = some r)
    {g : Grant} (hc : r.call = .role (.insertSession g))
    {uuid : Nat → Nat} {locks : Locks} {writes : List Write} {next : Call}
    (hnext : (program lib true).next σ uuid r = some (.stmt locks writes next))
    {s : IamRoleSessionRow} (hs : .insertRoleSession s ∈ writes) :
    -- the role is none of Identity Center, and the actor no session of Identity Center
    σ.db.isIdentityCenterRole s.organizationId s.rolePrincipalId = false ∧
    isIdentityCenterSession g.request.actor = false ∧
    -- the role's principal was enabled when the transaction locked the role
    (∃ e ∈ past, Executed e i (.role (.lockRole g)) ∧
      e.state.db.enabledPrincipal s.organizationId s.rolePrincipalId = true) ∧
    -- the session ends after the requested duration, which is short for a chained session
    (∃ e ∈ past, Executed e i (.role (.roleTrust g.request g.caller g.role)) ∧
      s.expiresAt = e.state.clock + seconds g.request.durationSeconds) ∧
    (isRoleSession g.request.actor = true → g.request.durationSeconds ≤ 3600) ∧
    ∃ role ∈ σ.db.iamRoles, role.principalId = s.rolePrincipalId ∧
      role.organizationId = s.organizationId ∧
      g.request.durationSeconds ≤ role.maxSessionSeconds ∧
      -- the actor was evaluated Allow on the ARN of the role
      (∃ a ∈ σ.db.organizations, a.id = role.organizationId ∧
        ∃ e ∈ past, Executed e i (.role (.authorize g.request)) ∧ ∃ context evaluation,
          evaluateActor lib e.state.db g.request.actor s.sourceOrganizationId "sts:AssumeRole"
            (iamRoleArn a.numberText role.name) false e.state.clock = .ok (context, evaluation) ∧
          evaluation.decision = .allow ∧ context.principalId = s.sourcePrincipalId) ∧
      -- the stored trust policy permits the source account and ARN of the session
      ∃ a ∈ σ.db.organizations, a.id = s.sourceOrganizationId ∧
        TrustPermits role.trustPolicy a.numberText s.sourceArn := by
  obtain ⟨call, held, pending, began⟩ := r
  cases hc
  cases hnext
  have hs : s = g.row (uuid 0) := by
    have := mem_singleton.mp hs
    injection this
  subst hs
  obtain ⟨_, happ, hlock⟩ := ((outline_run h₀ hrun).loc i _ hi).2
  obtain ⟨role, hrole, hrp, htrust, hdur⟩ := hlock.row
  obtain ⟨a, ham, hai, harn⟩ := happ.found.arn
  obtain ⟨hro, harn⟩ := harn role hrole hrp
  obtain ⟨b, hbm, hbi, hbn⟩ := happ.caller
  refine ⟨happ.unmanaged, happ.asked.actor, hlock.enabled, happ.expiry,
    happ.asked.request.chained, role, hrole, hrp, hro, hdur, ⟨a, ham, hai.trans hro.symm, ?_⟩,
    b, hbm, hbi, ?_⟩
  · rw [harn]
    exact happ.allowed
  · rw [htrust, hbn]
    exact trusts_permits happ.trusted

end Assumed

/-- One account; its owner, who has a browser session, may assume its one role. -/
def opsAccount : Db where
  users := [⟨10, "owner", .active⟩]
  organizations := [⟨1, 100000000001⟩]
  principals := [⟨20, 1, "owner", some 10, true, none⟩, ⟨30, 1, "ops", none, true, none⟩]
  organizationMemberships := [⟨1, 10, 20, .owner, 40⟩]
  cloudSecurityActivation := { rolesEnabled := true, browserRolesEnabled := true }
  iamRoles := [⟨30, 1, "ops", .object [("Statement", .object [
    ("Action", .string "sts:AssumeRole"), ("Effect", .string "Allow"),
    ("Principal", .object [("AWS", .string "100000000001")])])], 3600⟩]
  sessions := [⟨10, 7, 1000, none⟩]

theorem opsAccount_initial : Initial true opsAccount [20, 30, 40] := by
  constructor <;> simp [opsAccount, ids, UniqueKey]

/-- The owner, in the browser, asks for the role. -/
def opsRequest (switchConsole : Bool) : Move Call :=
  .start (.role (.assumeIamRole (.user ⟨10, 7⟩) 1
    { roleArn := "arn:aws:iam::100000000001:role/ops", sessionName := "deploy", switchConsole }))

variable (m : Machine Db Key Write Call)

/-- The next statement of the first call inserts a session. -/
def inserting : Bool :=
  match m.calls with
  | ⟨.role (.insertSession _), _, _, _⟩ :: _ => true
  | _ => false

theorem inserting_runs {m : Machine Db Key Write Call} (h : inserting m = true) :
    ∃ r g, m.system.runs 0 = some r ∧ r.call = .role (.insertSession g) := by
  unfold inserting at h
  split at h
  · rename_i g held pending began rest hcalls
    exact ⟨⟨.role (.insertSession g), held, pending, began⟩, g, congrArg (·[0]?) hcalls, rfl⟩
  · cases h

theorem assumeIamRole_inserts_ops : ∃ past σ r g,
    Run (program noLibrary true) (System.quiet opsAccount 0 [20, 30, 40]) past σ ∧
      σ.runs 0 = some r ∧ r.call = .role (.insertSession g) ∧
      ∃ role ∈ σ.db.iamRoles, role.principalId = g.role.principalId := by
  have hplay : ((Machine.quiet opsAccount 0 [20, 30, 40]).play (program noLibrary true)
      (opsRequest false :: List.replicate 10 (.step 0))).any inserting = true := by
    decide +kernel
  obtain ⟨m, past, hrun, hcheck⟩ := play_any hplay
  obtain ⟨r, g, hr, hc⟩ := inserting_runs hcheck
  have hnext : (program noLibrary true).next m.system id r = some (insertSession id g) := by
    unfold Program.next
    rw [hc]
    rfl
  obtain ⟨_, _, _, _, _, role, hrole, hp, _⟩ := assumeIamRole_inserts noLibrary
    opsAccount_initial hrun hr hc hnext (mem_singleton_self _)
  exact ⟨past, m.system, r, g, hrun, hr, hc, role, hrole, hp⟩

/-! ## 2. Browser sessions -/

section Browser
variable {lib : ThirdParty} {removal : Bool} {d : Db} {w : View} {i : Nat} {held : Locks}
  {pending ws : List Write}

/-- The writes leave the browser sessions alone. -/
def KeepsBrowsers (ws : List Write) : Prop := ∀ x ∈ ws, ∀ d, (x.apply d).sessions = d.sessions

theorem KeepsBrowsers.view (h : KeepsBrowsers ws) : (applyAll ws d).sessions = d.sessions := by
  induction ws generalizing d with
  | nil => rfl
  | cons x _ ih =>
    exact (ih fun y hy => h y (mem_cons_of_mem _ hy)).trans (h x mem_cons_self d)

theorem KeepsBrowsers.nil : KeepsBrowsers [] := forall_mem_nil _

theorem KeepsBrowsers.cons {x : Write} (hx : ∀ d, (x.apply d).sessions = d.sessions)
    (h : KeepsBrowsers ws) : KeepsBrowsers (x :: ws) := by
  intro y hy
  rcases mem_cons.mp hy with rfl | hy
  · exact hx
  · exact h y hy

theorem KeepsBrowsers.append {ws' : List Write} (h : KeepsBrowsers ws) (h' : KeepsBrowsers ws') :
    KeepsBrowsers (ws ++ ws') := by
  intro x hx
  rcases mem_append.mp hx with hx | hx
  · exact h x hx
  · exact h' x hx

theorem AllQuiet.keeps (h : AllQuiet removal ws) : KeepsBrowsers ws :=
  fun x hx => (h x hx).browsers

theorem DeletesSessions.keeps (h : DeletesSessions ws) : KeepsBrowsers ws := by
  intro x hx
  obtain ⟨id, rfl⟩ := h x hx
  exact fun _ => rfl

theorem DeletesMembers.keeps (h : DeletesMembers ws) : KeepsBrowsers ws := by
  intro x hx
  obtain ⟨id, rfl⟩ := h x hx
  exact fun _ => rfl

theorem Prepares.keeps (h : Prepares ws) : KeepsBrowsers ws := by
  intro x hx
  have hp := h x hx
  cases x with
  | insertPrincipal | insertMembership | insertPolicy | insertBinding | insertAccountRole =>
    exact fun _ => rfl
  | _ => cases hp

theorem Prepared.keeps (h : Prepared ws) : KeepsBrowsers ws := by
  rcases h with h | ⟨xs, r, ys, rfl, hx, hy⟩
  · exact h.keeps
  · exact hx.keeps.append (.cons (fun _ => rfl) hy.keeps)

/-- The points of a switch or clear that has updated the browser session. -/
def RoleCall.replaces : RoleCall → Bool
  | .switchRevoke _ _ | .switchCommit _ | .clearRevoke _ _ | .clearCommit _ _ => true
  | _ => false

theorem RoleAt.keeps {c : RoleCall} (h : RoleAt lib removal d w i held pending c)
    (hc : c.replaces = false) : KeepsBrowsers pending := by
  cases c with
  | switchRevoke | switchCommit | clearRevoke | clearCommit => cases hc
  | countSessions => exact h.1.keeps
  | insertSession => exact h.1.keeps
  | commitSession =>
    obtain ⟨ws, hw, rfl⟩ := h
    exact hw.keeps.append (.cons (fun _ => rfl) .nil)
  | revokeNewCommit =>
    obtain ⟨⟨t, rfl⟩, _⟩ := h
    exact .cons (fun _ => rfl) .nil
  | insertRole =>
    obtain ⟨⟨p, rfl⟩, _⟩ := h
    exact .cons (fun _ => rfl) .nil
  | commitRole =>
    obtain ⟨p, row, rfl⟩ := h
    exact .cons (fun _ => rfl) (.cons (fun _ => rfl) .nil)
  | deleteTokens => exact AllQuiet.keeps h
  | assumeIamRole | clearBrowserRole | createIamRole | updateIamRoleTrust
  | setServiceAccountEnabled | revokeIamRoleSession =>
    cases h
    exact .nil
  | _ =>
    rw [h.1]
    exact .nil

theorem IdentityCenterAt.keeps {c : IdentityCenterCall}
    (h : IdentityCenterAt removal d w held pending c) : KeepsBrowsers pending := by
  cases c with
  | commitPermissionSet =>
    obtain ⟨p, rfl⟩ := h
    exact .cons (fun _ => rfl) .nil
  | commitGroup =>
    obtain ⟨g, rfl⟩ := h
    exact .cons (fun _ => rfl) .nil
  | updatePolicies => exact AllQuiet.keeps h
  | memberUser m | memberAccounts m | groupInUse organization group
  | deleteMembers organization group | lockAssignedGroup a | groupUsers a
  | sessionGroup n organization group | sessionTarget n groupMembership
  | sessionSource n groupMembership principal membership | removeMembership organization user =>
    rw [h.1]
    exact .nil
  | insertMember m | assignmentUser a user rest | ensureAccountUser account user next
  | ensureExists account user next | ensureDetached account user next
  | ensurePrincipal account user next | ensureMembership account user principal next
  | accountRole a | insertRolePrincipal a | insertAccountIamRole a role => exact h.1.keeps
  | insertRolePolicy | insertRoleBinding | insertAccountRole | insertAssignment => exact h.1.keeps
  | commitMember =>
    obtain ⟨ws, gm, rfl, hw, _⟩ := h
    exact hw.keeps.append (.cons (fun _ => rfl) .nil)
  | markGroup => exact h.1.keeps
  | commitDeletedGroup =>
    obtain ⟨⟨ws, t, hw, rfl⟩, _⟩ := h
    exact hw.keeps.append (.cons (fun _ => rfl) .nil)
  | commitAssignment =>
    obtain ⟨ws, x, rfl, hw, _, rfl | ⟨row, rfl, _⟩⟩ := h
    · exact hw.keeps.append (.cons (fun _ => rfl) .nil)
    · exact hw.keeps.append (.cons (fun _ => rfl) .nil)
  | purgeSessions | countSessions | insertSession => exact h.1.keeps
  | commitSession =>
    obtain ⟨ws, s, hw, rfl, _⟩ := h
    exact hw.keeps.append (.cons (fun _ => rfl) .nil)
  | _ =>
    cases h
    exact .nil

/-- **A browser session that is replaced**: what was active is the role the transaction revokes. -/
theorem BrowserIs.replaced (hI : Inv removal d w) {tokenHash : Nat} {current active : Option Uuid}
    (his : BrowserIs d held tokenHash current) {t : Int}
    (hp : pending = .setActiveRole tokenHash active :: revocations t current) {b b' : SessionRow}
    (hb : b ∈ d.sessions) (hb' : b' ∈ (applyAll pending d).sessions)
    (ht : b'.tokenHash = b.tokenHash) {k : Uuid} (hk : b.activeRoleSessionId = some k)
    (hne : b'.activeRoleSessionId ≠ some k) : DeadSession (applyAll pending d) w k := by
  subst hp
  have hrev : KeepsBrowsers (revocations t current) := by
    cases current with
    | none => exact .nil
    | some => exact .cons (fun _ => rfl) .nil
  have hb₁ : b' ∈ ((Write.setActiveRole tokenHash active).apply d).sessions := by
    rw [← hrev.view]
    exact hb'
  obtain ⟨b₀, hb₀, ht₀, hcase⟩ := mem_sessions _ hb₁
  have he : b₀ = b := hI.browsers.eq hb₀ hb (ht₀.symm.trans ht)
  subst he
  rcases hcase with rfl | ⟨_, hx, _⟩
  · exact absurd hk hne
  injection hx with hhash
  have hcur : current = some k := (his.active b₀ hb hhash.symm).symm.trans hk
  rw [hcur]
  exact DeadSession.revoke (hI.active b₀ hb k hk)

variable {past : List (Event Db Key Write Call)} {σ σ' : System Db Key Write Call}

/-- **A role session stops being active only by a commit that revokes it.** -/
theorem Outlined.replaced {mover : Option Nat} (h : Outlined lib removal past σ) (hs : StepBy
    (program lib removal) σ mover σ') {b b' : SessionRow} (hb : b ∈ σ.db.sessions) (hb' : b' ∈
    σ'.db.sessions) (ht : b'.tokenHash = b.tokenHash) {k : Uuid} (hk : b.activeRoleSessionId = some
    k) (hne : b'.activeRoleSessionId ≠ some k) : DeadSession σ'.db (σ.world past) k := by
  have hI := h.inv.2
  -- where the browser sessions are the same, nothing stops being active
  have hsame (hs : σ'.db.sessions = σ.db.sessions) : b' = b :=
    hI.browsers.eq (hs ▸ hb') hb ht
  cases hs with
  | commit i r _ _ hi _ ho =>
    obtain ⟨call, held, pending, began⟩ := r
    have hA := (h.loc i _ hi).2
    cases call with
    | role p =>
      by_cases hp : p.replaces = true
      · cases p with
        | switchCommit =>
          obtain ⟨⟨t, hw⟩, _, his⟩ := hA
          exact his.replaced hI hw hb hb' ht hk hne
        | clearCommit =>
          obtain ⟨⟨t, hw⟩, his⟩ := hA
          exact his.replaced hI hw hb hb' ht hk hne
        | switchRevoke | clearRevoke => cases ho
        | _ => cases hp
      · have hkeep := RoleAt.keeps hA (Bool.not_eq_true _ ▸ hp)
        exact absurd (hsame hkeep.view ▸ hk) hne
    | identityCenter =>
      exact absurd (hsame (IdentityCenterAt.keeps hA).view ▸ hk) hne
    | commit => exact absurd (hsame (AllQuiet.keeps hA).view ▸ hk) hne
    | done => cases ho
  | _ => exact absurd (hsame rfl ▸ hk) hne

/-- The commit of a switch, on the state it is made on. -/
theorem Outlined.switched (h : Outlined lib removal past σ) (hs : StepBy (program lib removal) σ
    (some i) σ') {r : Running Key Write Call} (hi : σ.runs i = some r) {s : Switch} (hc : r.call =
    .role (.switchCommit s)) : (∃ b ∈ σ.db.sessions, b.tokenHash = s.tokenHash) ∧ (∀ b ∈
    σ.db.sessions, b.tokenHash = s.tokenHash → b.activeRoleSessionId = s.expected) ∧ ∀ b ∈
    σ'.db.sessions, b.tokenHash = s.tokenHash → b.activeRoleSessionId = some s.new := by
  have hA := (h.loc i r hi).2
  obtain ⟨call, held, pending, began⟩ := r
  cases hc
  obtain ⟨⟨t, hw⟩, _, his⟩ := hA
  refine ⟨his.row, his.active, fun b hb hbt => ?_⟩
  have hrun {q : Running Key Write Call} (hq : σ.runs i = some q) :
      q = ⟨.role (.switchCommit s), held, pending, began⟩ := Option.some.inj (hq.symm.trans hi)
  cases hs with
  | commit _ _ _ _ hi' =>
    cases hrun hi'
    have hb : b ∈ (applyAll (.setActiveRole s.tokenHash (some s.new) ::
        revocations t s.expected) σ.db).sessions := hw ▸ hb
    have hrev : KeepsBrowsers (revocations t s.expected) := by
      cases s.expected with
      | none => exact .nil
      | some => exact .cons (fun _ => rfl) .nil
    have hb : b ∈ ((Write.setActiveRole s.tokenHash (some s.new)).apply σ.db).sessions := by
      rw [← hrev.view]
      exact hb
    obtain ⟨b₀, _, ⟨_, rfl⟩ | ⟨hp, rfl⟩⟩ := mem_updateWhere hb
    · rfl
    · rw [beq_eq_false_iff_ne] at hp
      exact absurd hbt hp
  | read _ _ _ _ hi' _ ho | stmt _ _ _ _ _ _ hi' _ ho | rollback _ _ _ _ hi' _ ho =>
    cases hrun hi'
    cases ho

end Browser

/-- The owner switches, switches again from the same page, and clears the role: the second switch
fails, and the clear is about to be committed. -/
def opsSwitches : List (Move Call) :=
  opsRequest true :: List.replicate 14 (.step 0) ++
    opsRequest true :: List.replicate 15 (.step 1) ++
    .start (.role (.clearBrowserRole 7)) :: List.replicate 3 (.step 2)

/-- The second call failed and revoked its session `k`; the third takes the active role `a` from
the browser. -/
def clearing : Bool :=
  match m.calls, m.db.sessions, m.move (program noLibrary true) (.step 2) with
  | [_, ⟨.done (.switchFailed _ true _), _, _, _⟩, _], [b], some m' =>
      match m'.db.sessions with
      | [b'] => b'.tokenHash == b.tokenHash && b.activeRoleSessionId.isSome &&
          b'.activeRoleSessionId == none
      | _ => false
  | _, _, _ => false

end HeteroCloud.Access
