/-
  File:      Onboarding/Points.lean
  Subject:   THE STATEMENTS of the operations on invitations and device authorizations under their
             assertions: each one establishes the assertion of the point it leads to, and each
             commit keeps the invariant.

  `exec_leads` is the result; `duties` makes it an outline, and `outline_run` says that the outline
  holds in every state of every run.
-/
import HeteroCloud.Onboarding.Outline

namespace HeteroCloud.Onboarding

open Base Iam List
open Store (MembershipRow PrincipalRow StoreError)

variable {lower : String → String} {d : Db} {t : Int}

section Points
variable {w : View} {e : Event Db Key Write Call} {uuid : Nat → Nat} {i : Nat}
  {r : Running Key Write Call} {c : Call} {locks : Locks} {writes : List Write}

/-! ## 1. Shapes of statements -/

/-- The statement keeps the outline. -/
abbrev Leads (lower : String → String) := Next (program lower) guards Inv At

theorem leads_abort {error : StoreError} : Leads lower d w e uuid i r (abort error) := trivial

theorem leads_settle {success : Success} : Leads lower d w e uuid i r (settle success) :=
  trivial

/-- A statement that writes. -/
theorem leads_stmt (hA : At d (w.after e ((program lower).drawn uuid)) i
      ⟨c, locks ++ r.held, r.pending ++ writes, some (r.began.getD w.clock)⟩)
    (hf : ∀ n m, (.fresh n, m) ∈ locks → n = uuid 0 := by simp)
    (hn : ∀ x ∈ writes, ∀ k ∈ x.needs, (k, .exclusive) ∈ locks ++ r.held := by
      simp [Write.needs])
    (hm : ∀ x ∈ writes, ∀ n ∈ x.makes, (.fresh n, .exclusive) ∈ locks ++ r.held := by
      simp [Write.makes]) :
    Leads lower d w e uuid i r (.stmt locks writes c) :=
  ⟨fun n m h => hf n m h ▸ mem_cons_self, fun x hx => ⟨trivial, hn x hx, hm x hx⟩, hA⟩

/-- A statement that only locks. -/
theorem leads_lock (hf : ∀ n m, (.fresh n, m) ∉ locks)
    (hA : At d (w.after e ((program lower).drawn uuid)) i
      ⟨c, locks ++ r.held, r.pending, some (r.began.getD w.clock)⟩) :
    Leads lower d w e uuid i r (.stmt locks [] c) :=
  leads_stmt (by rwa [append_nil]) (fun n m h => absurd h (hf n m)) (forall_mem_nil _)
    (forall_mem_nil _)

/-- A commit of writes that fit, to a point where nothing is said. -/
theorem leads_commit (h : Ready guards Inv d w e uuid i r)
    (hc : ∀ d w i, At d w i ⟨c, [], [], none⟩)
    (hfits : ∀ w' : View, w.clock ≤ w'.clock → (∀ e ∈ w.done, e ∈ w'.done) → e ∈ w'.done →
      (∀ k, Born ids w' k → Born ids w k) → FitsAll w' r.pending d) :
    Leads lower d w e uuid i r (.commit c) := by
  intro w' hw _
  refine ⟨?_, hc _ _ _⟩
  have hdone : ∀ e' ∈ w.done, e' ∈ w'.done := fun e' he => hw.done e' (mem_cons_of_mem _ he)
  -- the invariant is first carried to a world with the new steps, then to the new database
  have hmid : w.Grows d ⟨w'.clock, w.issued, w'.done, w.seen⟩ :=
    ⟨hw.clock, fun _ hk => hk, hdone, fun _ h => h, fun _ h => .inl h, h.known.here⟩
  have hI : Inv (applyAll r.pending d) ⟨w'.clock, w.issued, w'.done, w.seen⟩ :=
    (h.inv.mono hmid).applyAll (hfits _ hw.clock hdone (hw.done e mem_cons_self) fun _ hb => hb)
  refine Inv.mono ?_ hI
  exact ⟨Int.le_refl _, fun k hk => hw.issued k (mem_append_left _ hk), fun _ h => h,
    hw.seen, hw.only, hw.here⟩

/-- A harmless write alone. -/
theorem tidy_single {x : Write} (hx : Harmless x) : Tidy [x] :=
  ⟨[], x, rfl, forall_mem_nil _, .inl hx⟩

/-! ## 2. Invitations -/

variable {now : Int} {view : Db}
variable (hp : ∀ x ∈ r.pending, Harmless x) (hA : ∀ w' held began pending, (∀ x ∈ pending, Harmless
  x) → At d w' i ⟨c, held, pending, began⟩)
include hp hA

theorem purgeDevices_leads : Leads lower d w e uuid i r (purgeDevices now view c) := by
  refine leads_stmt (hA _ _ _ _ fun x hx => ?_) (by simp) ?_ ?_
  · rcases mem_append.mp hx with hx | hx
    · exact hp x hx
    · obtain ⟨a, _, rfl⟩ := mem_map.mp hx
      exact ⟨fun _ _ => trivial, rfl⟩
  · intro x hx k hk
    obtain ⟨a, ha, rfl⟩ := mem_map.mp hx
    rw [mem_singleton.mp hk]
    exact mem_append_left _ (mem_map.mpr ⟨a, ha, rfl⟩)
  · intro x hx n hn
    obtain ⟨a, _, rfl⟩ := mem_map.mp hx
    exact absurd hn not_mem_nil

theorem purgeTokens_leads : Leads lower d w e uuid i r (purgeTokens now view c) := by
  refine leads_stmt (hA _ _ _ _ fun x hx => ?_) (by simp) ?_ ?_
  · rcases mem_append.mp hx with hx | hx
    · exact hp x hx
    · obtain ⟨t, _, rfl⟩ := mem_map.mp hx
      exact ⟨fun _ _ => trivial, rfl⟩
  · intro x hx k hk
    obtain ⟨t, ht, rfl⟩ := mem_map.mp hx
    rw [mem_singleton.mp hk]
    exact mem_append_left _ (mem_map.mpr ⟨t, ht, rfl⟩)
  · intro x hx n hn
    obtain ⟨t, _, rfl⟩ := mem_map.mp hx
    exact absurd hn not_mem_nil

omit hA

theorem insertInvitation_leads {n : NewInvitation} : Leads lower d w e uuid i r (insertInvitation
    uuid view n) := by
  unfold insertInvitation
  split_ifs
  · exact leads_abort
  · exact leads_stmt ⟨r.pending, _, rfl, hp, .inr (.inl ⟨n, uuid 0, rfl⟩)⟩ (by simp)
      (by simp [Write.needs]) (by simp [Write.makes, NewInvitation.row])
  · exact leads_abort

theorem insertDevice_leads {n : NewDevice} : Leads lower d w e uuid i r (insertDevice uuid view
    n) := by
  unfold insertDevice
  split_ifs
  · exact leads_abort
  · exact leads_stmt ⟨r.pending, _, rfl, hp, .inr (.inr ⟨n, uuid 0, rfl⟩)⟩ (by simp)
      (by simp [Write.needs]) (by simp [Write.makes, NewDevice.row])
  · exact leads_abort

omit hp
variable {held : Locks}

/-- The invitation a query by code found. -/
theorem claims_found {codeHash : Nat} {id organization : Uuid} {j : InvitationRow} (hj : j ∈
    d.invitations) (ha : Db.invitationAvailable now codeHash j = true) (hid : j.id = id) (ho :
    j.organizationId = some organization) : Claims d ((.invitation id, .exclusive) :: held) (some
    now) ⟨id, organization⟩ := by
  simp only [Db.invitationAvailable, Bool.and_eq_true, beq_iff_eq, decide_eq_true_eq] at ha
  obtain ⟨⟨⟨⟨_, hr⟩, hx⟩, _⟩, hu⟩ := ha
  exact ⟨mem_cons_self, j, hj, hid, ho, hr, hu, now, rfl, hx⟩

theorem joinOrganizationWithInvitation_leads (hp : r.pending = []) {user : Uuid} {codeHash : Nat} :
    Leads lower d w e uuid i r
      (joinOrganizationWithInvitation (r.began.getD w.clock) d user codeHash) := by
  unfold joinOrganizationWithInvitation
  split
  · rename_i id _ _ organization _ _ _ _ hfind
    have hj := mem_of_find?_eq_some hfind
    have hboth := find?_some hfind
    have ha := (Bool.and_eq_true_iff.mp hboth).1
    exact leads_lock (by simp) ⟨hp, claims_found hj ha rfl rfl⟩
  · exact trivial

theorem registerWithInvitation_leads (hp : r.pending = []) {input : RegisterWithInvitation} :
    Leads lower d w e uuid i r (registerWithInvitation (r.began.getD w.clock) d input) := by
  unfold registerWithInvitation
  split
  · rename_i id _ _ organization _ _ _ _ hfind
    have hj := mem_of_find?_eq_some hfind
    have ha := find?_some hfind
    exact leads_lock (by simp) ⟨hp, claims_found hj ha rfl rfl⟩
  · exact trivial

/-- The claim while the transaction goes on. -/
theorem Claims.more {began : Option Int} {v : Invited} (h : Claims d held began v) (locks : Locks) :
    Claims d (locks ++ held) (some (began.getD w.clock)) v := by
  obtain ⟨j, hj, hid, ho, hr, hu, t, ht, hx⟩ := h.row
  exact ⟨mem_append_right _ h.held, j, hj, hid, ho, hr, hu, t, by rw [ht]; rfl, hx⟩

theorem insertPrincipal_leads {id organization user : Uuid} {name : String} (hA : ∀ p locks, At d
    (w.after e ((program lower).drawn uuid)) i ⟨c, locks ++ r.held, r.pending ++ [.insertPrincipal
    p], some (r.began.getD w.clock)⟩) : Leads lower d w e uuid i r (insertPrincipal view id
    organization user name c) := by
  unfold insertPrincipal
  split_ifs
  · exact leads_abort
  · exact leads_stmt (hA _ _)

theorem insertMembership_leads {m : MembershipRow} (hA : ∀ locks, At d (w.after e ((program
    lower).drawn uuid)) i ⟨c, locks ++ r.held, r.pending ++ [.insertMembership m], some
    (r.began.getD w.clock)⟩) : Leads lower d w e uuid i r (insertMembership view m c) := by
  unfold insertMembership
  split_ifs
  · exact leads_abort
  · exact leads_stmt (hA _)

/-- The use of the invitation is committed. -/
theorem accept_leads (h : Ready guards Inv d w e uuid i r) {v : Invited}
    (ha : r.call.accepts = some v.invitation) (hc : ∀ d w i, At d w i ⟨c, [], [], none⟩)
    (hp : ∀ x ∈ r.pending, Harmless x ∨ x = .useInvitation v.invitation) :
    Leads lower d w e uuid i r (.commit c) := by
  refine leads_commit h hc fun w' _ _ he _ => ?_
  have hacc : ∃ e ∈ w'.done, Accepts e v.invitation := ⟨e, he, i, r.call, h.executes, ha⟩
  -- by induction over the pending writes; the database they meet does not matter
  have hall (ws : List Write) : (∀ x ∈ ws, Harmless x ∨ x = .useInvitation v.invitation) →
      ∀ d, FitsAll w' ws d := by
    induction ws with
    | nil => exact fun _ _ => trivial
    | cons x _ ih =>
      intro hws d
      refine ⟨?_, ih (fun y hy => hws y (mem_cons_of_mem _ hy)) _⟩
      rcases hws x mem_cons_self with hx | rfl
      · exact hx.fits d w'
      · exact hacc
  exact hall r.pending hp d

/-! ## 3. Device authorizations -/

theorem approveCliDeviceAuthorization_leads (hp : r.pending = []) {userCodeHash : Nat}
    {user : Uuid} : Leads lower d w e uuid i r
      (approveCliDeviceAuthorization d userCodeHash user) := by
  unfold approveCliDeviceAuthorization
  split
  · rename_i a hfind
    exact leads_lock (by simp) ⟨hp, mem_cons_self, mem_of_find?_eq_some hfind⟩
  · exact leads_settle

theorem exchangeCliDeviceAuthorization_leads (hp : r.pending = []) {deviceCodeHash : Nat}
    {n : NewToken} : Leads lower d w e uuid i r
      (exchangeCliDeviceAuthorization d deviceCodeHash n) := by
  unfold exchangeCliDeviceAuthorization
  split
  · rename_i a hfind
    exact leads_lock (by simp) ⟨hp, mem_cons_self, mem_of_find?_eq_some hfind⟩
  · exact leads_settle

variable {a : CliDeviceAuthorizationRow} {user : Uuid} {n : NewToken}
variable (h : Ready guards Inv d w e uuid i r)
include h

theorem approveCheck_leads (hc : r.call = .approveCheck a user) (hp : r.pending = []) (hl : Locked d
    r.held a) : Leads lower d w e uuid i r (approveCheck w.clock a user) := by
  unfold approveCheck
  split_ifs with hexp hstatus
  · exact leads_settle
  · exact leads_settle
  refine leads_lock (by simp) ⟨hp, hl, not_not.mp hstatus, e, mem_cons_self, ?_, ?_⟩
  · exact hc ▸ h.executes
  · rw [h.makes.clock]
    exact Int.not_le.mp hexp

theorem approveMember_leads (hc : r.call = .approveMember a user) (hp : r.pending = []) (ha :
    Approving d w r.held i a user) : Leads lower d w e uuid i r (approveMember d a user) := by
  unfold approveMember
  split_ifs with hm
  · have hdone : ∀ e' ∈ w.done, e' ∈ (w.after e ((program lower).drawn uuid)).done :=
      fun _ he => mem_cons_of_mem _ he
    refine leads_lock (by simp) ⟨hp, ha.mono hdone, e, mem_cons_self, hc ▸ h.executes, ?_⟩
    rw [h.makes.db]
    exact hm
  · exact leads_settle

/-- The approval is committed. -/
theorem approveCommit_leads (hc : r.call = .approveCommit a user) (hp : r.pending = [.approveDevice
    a.id user t]) (ha : Approving d w r.held i a user) (hm : MemberSeen w i (.approveMember a user)
    a user) (hnext : ∀ d w i, At d w i ⟨c, [], [], none⟩) : Leads lower d w e uuid i r (.commit
    c) := by
  refine leads_commit h hnext fun w' hclock hdone he _ => ?_
  rw [hp]
  refine ⟨fun b hb hid => ?_, trivial⟩
  have hba : b = a := h.inv.devices.eq hb ha.locked.row hid
  subst hba
  obtain ⟨e₁, h₁, hchecked⟩ := ha.checked
  obtain ⟨e₂, h₂, hmember⟩ := hm
  refine ⟨ha.status, i, b, rfl, rfl, rfl, ⟨e₁, hdone e₁ h₁, hchecked⟩,
    ⟨e₂, hdone e₂ h₂, hmember⟩, e, he, hc ▸ h.executes, ?_⟩
  rw [h.makes.clock]
  exact hclock

theorem exchangeCheck_leads (hc : r.call = .exchangeCheck a n) (hp : r.pending = []) (hl : Locked d
    r.held a) : Leads lower d w e uuid i r (exchangeCheck w.clock a n) := by
  unfold exchangeCheck
  split_ifs with hexp hdenied hconsumed hslow
  · exact leads_settle
  · exact leads_settle
  · exact leads_settle
  · exact leads_settle
  have hlt : w.clock < a.expiresAt := Int.not_le.mp hexp
  have hstatus : a.status = .pending ∨ a.status = .approved := by
    cases hs : a.status with
    | pending => exact .inl rfl
    | approved => exact .inr rfl
    | denied => exact absurd hs hdenied
    | consumed => exact absurd hs hconsumed
  refine leads_lock (by simp) ⟨hp, hl, hstatus, ⟨e, mem_cons_self, ?_, ?_⟩, ?_⟩
  · exact hc ▸ h.executes
  · rw [h.makes.clock]
    exact hlt
  intro hs u hu
  exact ⟨w.clock, hlt, (h.inv.approved a hl.row hs u hu).mono
    (fun _ he => mem_cons_of_mem _ he) (Int.le_refl _)⟩

omit h

theorem Locked.more (h : Locked d held a) (locks : Locks) : Locked d (locks ++ held) a :=
  ⟨mem_append_right _ h.held, h.row⟩

theorem Exchanging.more (h : Exchanging d w held i a n) (locks : Locks) : Exchanging d w (locks ++
    held) i a n :=
  ⟨h.locked.more locks, h.status, h.checked, h.approved⟩

theorem Issuing.more (h : Issuing d w held i a n user) (locks : Locks) : Issuing d w (locks ++ held)
    i a n user :=
  ⟨h.exchanging.more locks, h.status, h.approvedUser, h.member⟩

theorem exchangePoll_leads (hp : r.pending = []) (hx : Exchanging d w r.held i a n) : Leads lower d
    w e uuid i r (exchangePoll a n t) := by
  have hnext : ∀ c, At d (w.after e ((program lower).drawn uuid)) i
      ⟨c, [(.device a.id, .exclusive)] ++ r.held, r.pending ++ [.pollDevice a.id t],
        some (r.began.getD w.clock)⟩ →
      Leads lower d w e uuid i r (.stmt [(.device a.id, .exclusive)] [.pollDevice a.id t] c) :=
    fun c hA => leads_stmt hA
  unfold exchangePoll
  refine hnext _ ?_
  rw [hp]
  cases hs : a.status with
  | pending => exact tidy_single ⟨fun _ _ => trivial, rfl⟩
  | approved =>
    cases hu : a.approvedUserId with
    | none => exact trivial
    | some =>
      have hdone : ∀ e' ∈ w.done, e' ∈ (w.after e ((program lower).drawn uuid)).done :=
        fun _ he => mem_cons_of_mem _ he
      have hx' := (hx.more [(.device a.id, .exclusive)]).mono hdone
      exact ⟨⟨t, rfl⟩, hx', hs, hu⟩
  | denied | consumed => exact trivial

include h

theorem exchangeMember_leads (hc : r.call = .exchangeMember a n user) (hp : r.pending = [.pollDevice
    a.id t]) (hx : Exchanging d w r.held i a n) (hs : a.status = .approved) (hu : a.approvedUserId =
    some user) : Leads lower d w e uuid i r (exchangeMember (applyAll r.pending d) a n user) := by
  have hdone : ∀ e' ∈ w.done, e' ∈ (w.after e ((program lower).drawn uuid)).done :=
    fun _ he => mem_cons_of_mem _ he
  unfold exchangeMember
  split_ifs with hm
  · refine leads_lock (by simp) ⟨⟨t, hp⟩, hx.mono hdone, hs, hu, e, mem_cons_self,
      hc ▸ h.executes, ?_⟩
    rw [h.makes.db]
    rw [hp] at hm
    exact hm
  · exact leads_settle

omit h

theorem exchangeInsert_leads (hp : r.pending = [.pollDevice a.id t]) (hx : Issuing d w r.held i a n
    user) : Leads lower d w e uuid i r (exchangeInsert uuid view a n user) := by
  have hdone : ∀ e' ∈ w.done, e' ∈ (w.after e ((program lower).drawn uuid)).done :=
    fun _ he => mem_cons_of_mem _ he
  have hx' := fun locks : Locks => (hx.more locks).mono hdone
  unfold exchangeInsert
  simp only
  split_ifs
  · exact leads_abort
  · refine leads_stmt ?_
    refine ⟨n, user, rfl, ⟨t, by rw [hp]; rfl⟩, hx' _⟩

/-! ## 4. Commits -/

include h

theorem commit_leads (hp : Tidy r.pending) (hc : ∀ d w i, At d w i ⟨c, [], [], none⟩) : Leads lower
    d w e uuid i r (.commit c) := by
  obtain ⟨gone, last, hws, hgone, hlast⟩ := hp
  have hunborn : ∀ k ∈ last.makes, ¬ Born ids w k ∧ k ∉ ids (applyAll gone d) := by
    intro k hk
    have hmem : last ∈ r.pending := by
      rw [hws]
      exact mem_append_right _ mem_cons_self
    have hb := (h.own.committed last hmem).unborn k hk
    exact ⟨hb, fun hin => hb (h.known.born (harmless_ids hgone hin))⟩
  refine leads_commit h hc fun w' _ _ _ hborn => ?_
  rw [hws]
  refine fitsAll_append (harmless_fits hgone) ⟨?_, trivial⟩
  rcases hlast with hl | ⟨m, id, rfl⟩ | ⟨m, id, rfl⟩
  · exact hl.fits _ _
  · obtain ⟨hb, hin⟩ := hunborn id mem_cons_self
    exact ⟨rfl, fun hb' => hb (hborn _ hb'), hin⟩
  · obtain ⟨hb, hin⟩ := hunborn id mem_cons_self
    exact ⟨rfl, fun hb' => hb (hborn _ hb'), hin⟩

/-- **Every statement keeps the outline.** -/
theorem exec_leads (hA : At d w i r) {o : Statement} (ho : exec lower w.clock (r.began.getD w.clock)
    uuid (applyAll r.pending d) r.call = some o) : Leads lower d w e uuid i r o := by
  obtain ⟨call, held, pending, began⟩ := r
  have hdone : ∀ e' ∈ w.done, e' ∈ (w.after e ((program lower).drawn uuid)).done :=
    fun _ he => mem_cons_of_mem _ he
  cases call with
  | createInvitation | createCliDeviceAuthorization =>
    cases ho
    exact purgeDevices_leads hA fun _ _ _ _ hp => hp
  | invitationTokens | deviceTokens =>
    cases ho
    exact purgeTokens_leads hA fun _ _ _ _ hp => hp
  | insertInvitation =>
    cases ho
    exact insertInvitation_leads hA
  | joinOrganizationWithInvitation =>
    cases (show pending = [] from hA)
    cases ho
    exact joinOrganizationWithInvitation_leads rfl
  | joinActive =>
    cases ho
    split_ifs
    · exact leads_lock (by simp) ⟨hA.1, hA.2.more _⟩
    · exact leads_abort
  | joinExists =>
    cases ho
    split_ifs
    · exact leads_abort
    · exact leads_lock (by simp) ⟨hA.1, hA.2.more _⟩
  | joinPrincipal =>
    cases ho
    obtain ⟨rfl, hv⟩ := hA
    exact insertPrincipal_leads fun p locks => ⟨⟨p, rfl⟩, hv.more locks⟩
  | joinMembership =>
    cases ho
    obtain ⟨⟨p, rfl⟩, hv⟩ := hA
    exact insertMembership_leads fun locks => ⟨⟨p, _, rfl, rfl, rfl⟩, hv.more locks⟩
  | joinUse =>
    cases ho
    obtain ⟨⟨p, m, rfl, hm⟩, hv⟩ := hA
    exact leads_stmt ⟨⟨p, m, rfl, hm⟩, hv.more _⟩
  | joinOrganization =>
    cases ho
    split
    · exact leads_lock (by simp) ⟨hA.1, hA.2.more _⟩
    · exact leads_abort
  | joinCommit v =>
    cases ho
    obtain ⟨⟨p, m, rfl, hm⟩, hv⟩ := hA
    refine accept_leads (v := v) h rfl (fun _ _ _ => trivial) ?_
    rintro x (_ | ⟨_, _ | ⟨_, _ | ⟨_, ⟨⟩⟩⟩⟩)
    · exact .inl ⟨fun _ _ => trivial, rfl⟩
    · exact .inl ⟨fun _ _ => trivial, rfl⟩
    · exact .inr rfl
  | registerWithInvitation =>
    cases (show pending = [] from hA)
    cases ho
    exact registerWithInvitation_leads rfl
  | registerUse =>
    cases ho
    obtain ⟨rfl, hv⟩ := hA
    unfold registerUse
    split_ifs
    · exact leads_stmt ⟨rfl, hv.more _⟩
    · exact trivial
  | registerEmail =>
    cases ho
    split
    · exact leads_abort
    · exact leads_lock (by simp) ⟨hA.1, hA.2.more _⟩
  | registerUser =>
    cases ho
    obtain ⟨rfl, hv⟩ := hA
    unfold registerUser
    simp only
    split_ifs
    · exact leads_abort
    · exact leads_stmt ⟨⟨_, rfl⟩, hv.more _⟩
  | registerPrincipal =>
    cases ho
    obtain ⟨⟨u, rfl⟩, hv⟩ := hA
    exact insertPrincipal_leads fun p locks => ⟨⟨u, p, rfl⟩, hv.more locks⟩
  | registerMembership =>
    cases ho
    obtain ⟨⟨u, p, rfl⟩, hv⟩ := hA
    exact insertMembership_leads fun locks => ⟨⟨u, p, _, rfl, rfl, rfl⟩, hv.more locks⟩
  | registerCommit v =>
    cases ho
    obtain ⟨⟨u, p, m, rfl, hm⟩, hv⟩ := hA
    refine accept_leads (v := v) h rfl (fun _ _ _ => trivial) ?_
    rintro x (_ | ⟨_, _ | ⟨_, _ | ⟨_, _ | ⟨_, ⟨⟩⟩⟩⟩⟩)
    · exact .inr rfl
    · exact .inl ⟨fun _ _ => trivial, rfl⟩
    · exact .inl ⟨fun _ _ => trivial, rfl⟩
    · exact .inl ⟨fun _ _ => trivial, rfl⟩
  | sessionUser =>
    cases ho
    split <;> exact trivial
  | sessionMemberships =>
    cases ho
    exact trivial
  | insertDevice =>
    cases ho
    exact insertDevice_leads hA
  | approveCliDeviceAuthorization =>
    cases (show pending = [] from hA)
    cases ho
    exact approveCliDeviceAuthorization_leads rfl
  | approveCheck =>
    cases ho
    exact approveCheck_leads h rfl hA.1 hA.2
  | approveMember =>
    cases (show pending = [] from hA.1)
    cases ho
    exact approveMember_leads h rfl rfl hA.2
  | approveUpdate =>
    cases ho
    obtain ⟨rfl, ha, hm⟩ := hA
    have ha' := ha.mono hdone
    exact leads_stmt ⟨⟨_, rfl⟩, ⟨ha'.locked.more _, ha'.status, ha'.checked⟩, hm.mono hdone⟩
  | approveCommit =>
    cases ho
    obtain ⟨⟨t, hp⟩, ha, hm⟩ := hA
    exact approveCommit_leads h rfl hp ha hm fun _ _ _ => trivial
  | exchangeCliDeviceAuthorization =>
    cases (show pending = [] from hA)
    cases ho
    exact exchangeCliDeviceAuthorization_leads rfl
  | exchangeCheck =>
    cases ho
    exact exchangeCheck_leads h rfl hA.1 hA.2
  | exchangePoll =>
    cases ho
    exact exchangePoll_leads hA.1 hA.2
  | exchangeMember =>
    cases ho
    obtain ⟨⟨t, hp⟩, hx, hs, hu⟩ := hA
    exact exchangeMember_leads h rfl hp hx hs hu
  | exchangeInsert =>
    cases ho
    obtain ⟨⟨t, hp⟩, hx⟩ := hA
    exact exchangeInsert_leads hp hx
  | exchangeConsume =>
    cases ho
    obtain ⟨n, user, htoken, ⟨t, rfl⟩, hx⟩ := hA
    exact leads_stmt ⟨n, user, htoken, ⟨t, _, rfl⟩, (hx.more _).mono hdone⟩
  | exchangeCommit =>
    cases ho
    obtain ⟨n, user, htoken, ⟨t, t', rfl⟩, hx⟩ := hA
    exact leads_commit h (fun _ _ _ => trivial) fun _ _ _ _ _ =>
      ⟨trivial, trivial, trivial, trivial⟩
  | addMembership =>
    cases (show pending = [] from hA)
    cases ho
    exact insertMembership_leads fun _ => tidy_single ⟨fun _ _ => trivial, rfl⟩
  | setMembershipRole | removeMembership =>
    cases (show pending = [] from hA)
    cases ho
    exact leads_stmt (tidy_single ⟨fun _ _ => trivial, rfl⟩)
  | abort =>
    cases ho
    exact leads_abort
  | commit =>
    cases ho
    exact commit_leads h hA fun _ _ _ => trivial
  | done => cases ho

end Points

/-! ## 5. The outline -/

section Outline
variable {issued : List Nat} {past : List (Event Db Key Write Call)} {σ : System Db Key Write Call}

theorem start_at {c : Call} (hc : c.isStart = true) {w : View} {i : Nat} :
    At d w i ⟨c, [], [], none⟩ := by
  cases c with
  | createInvitation | createCliDeviceAuthorization => exact forall_mem_nil _
  | joinOrganizationWithInvitation | registerWithInvitation | approveCliDeviceAuthorization
  | exchangeCliDeviceAuthorization | addMembership | setMembershipRole | removeMembership =>
    exact (rfl : ([] : List Write) = [])
  | _ => cases hc

theorem fail_at {c c' : Call} (hc : fail c = some c') {w : View} {i : Nat} :
    At d w i ⟨c', [], [], none⟩ := by
  cases c with
  | done => cases hc
  | _ =>
    cases hc
    exact trivial

/-- **The invariant and the assertions are an outline.** -/
theorem duties (lower : String → String) : Duties (program lower) guards Inv At where
  ids hk := Write.mem_ids hk
  mono_inv hw h := h.mono hw
  mono_at hw h := h.mono hw.done
  start hc := start_at hc
  step hk hI hown hA he hu ho := exec_leads ⟨hk, hI, hown, he, hu⟩ hA ho
  stable hx hc h := h.apply hx hc
  fail _ hc := fail_at hc

/-- **A database a run may start on**: no invitation is used, and no authorization is under way. -/
structure Initial (d : Db) (issued : List Nat) : Prop where
  issued : ∀ k ∈ ids d, k ∈ issued
  invitations : UniqueKey (·.id) d.invitations
  devices : UniqueKey (·.id) d.cliDeviceAuthorizations
  unused : ∀ i ∈ d.invitations, i.usedCount = 0
  unapproved : ∀ a ∈ d.cliDeviceAuthorizations, a.status ≠ .approved

theorem Initial.inv (h : Initial d issued) :
    Inv d ((System.quiet d t issued : System Db Key Write Call).world []) where
  invitations := h.invitations
  devices := h.devices
  used i hi := .inl (h.unused i hi)
  approved a ha hs := absurd hs (h.unapproved a ha)
  keptInvitation σ hσ i hi := by
    rw [mem_singleton.mp hσ] at hi
    exact ⟨i, hi, rfl, .refl i⟩
  keptDevice σ hσ a ha b hb hid := by
    rw [mem_singleton.mp hσ] at ha
    rw [h.devices.eq hb ha hid]
    exact .refl a

/-- What holds of a state of a run. -/
abbrev Outlined (past : List (Event Db Key Write Call)) (σ : System Db Key Write Call) : Prop :=
  Holds (fun d w => Known ids d w ∧ Inv d w) (fun d w i r => Own guards w r ∧ At d w i r) past σ

/-- **Every state of every run satisfies the outline.** -/
theorem outline_run (h₀ : Initial d issued)
    (hr : Run (program lower) (System.quiet d t issued) past σ) : Outlined past σ :=
  (duties lower).outline.run hr ⟨.initial h₀.issued, h₀.inv⟩

end Outline
end HeteroCloud.Onboarding
