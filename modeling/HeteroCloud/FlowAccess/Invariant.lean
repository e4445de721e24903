/-
  File:      FlowAccess/Invariant.lean
  Subject:   WHAT HOLDS OF CREDENTIALS, CONTEXTS AND REVOCATION EVENTS in every committed state.

  * `Commits` -- what the writes of a commit need together: an update of `revoked_at` and its event
    are two writes, and so are those of a credential and of its contexts.
-/
import HeteroCloud.Base.Runs
import HeteroCloud.FlowAccess.Program

namespace HeteroCloud.FlowAccess

open Base Iam List

/-! ## 1. The invariant -/

/-- The credential `c` at a later time. -/
structure FlowDeveloperCredentialRow.Later (c c' : FlowDeveloperCredentialRow) : Prop where
  organization : c'.organizationId = c.organizationId
  service : c'.serviceInstanceId = c.serviceInstanceId
  permissions : c'.permissions = c.permissions
  revoked : c.revokedAt ≠ none → c'.revokedAt ≠ none

/-- The context `x` at a later time. -/
structure FlowAccessContextRow.Later (x y : FlowAccessContextRow) : Prop where
  credential : y.credentialId = x.credentialId
  organization : y.organizationId = x.organizationId
  service : y.serviceInstanceId = x.serviceInstanceId
  permissions : y.permissions = x.permissions
  expires : y.expiresAt = x.expiresAt
  revoked : x.revokedAt ≠ none → y.revokedAt ≠ none

theorem FlowDeveloperCredentialRow.Later.refl (c : FlowDeveloperCredentialRow) : c.Later c :=
  ⟨rfl, rfl, rfl, fun h => h⟩

theorem FlowDeveloperCredentialRow.Later.trans {a b c : FlowDeveloperCredentialRow}
    (h : a.Later b) (h' : b.Later c) : a.Later c :=
  ⟨h'.organization.trans h.organization, h'.service.trans h.service,
    h'.permissions.trans h.permissions, fun hr => h'.revoked (h.revoked hr)⟩

variable (x : FlowAccessContextRow)

theorem FlowAccessContextRow.Later.refl : x.Later x :=
  ⟨rfl, rfl, rfl, rfl, rfl, fun h => h⟩

theorem FlowAccessContextRow.Later.trans {x y z : FlowAccessContextRow} (h : x.Later y)
    (h' : y.Later z) : x.Later z :=
  ⟨h'.credential.trans h.credential, h'.organization.trans h.organization,
    h'.service.trans h.service, h'.permissions.trans h.permissions, h'.expires.trans h.expires,
    fun hr => h'.revoked (h.revoked hr)⟩

/-- The context is of the credential: in its service, with no permission it lacks. -/
structure Within (c : FlowDeveloperCredentialRow) : Prop where
  organization : x.organizationId = c.organizationId
  service : x.serviceInstanceId = c.serviceInstanceId
  permissions : ∀ p ∈ x.permissions, p ∈ c.permissions

theorem Within.later {x y : FlowAccessContextRow} {c c' : FlowDeveloperCredentialRow}
    (h : Within x c) (hx : x.Later y) (hc : c.Later c') : Within y c' where
  organization := by rw [hx.organization, hc.organization, h.organization]
  service := by rw [hx.service, hc.service, h.service]
  permissions := by
    rw [hx.permissions, hc.permissions]
    exact h.permissions

structure Inv (d : Db) (w : View) : Prop where
  credentials : UniqueKey (·.id) d.flowDeveloperCredentials
  contexts : UniqueKey (·.contextId) d.flowAccessContexts
  minted : ∀ x ∈ d.flowAccessContexts, ∀ k, x.credentialId = some k →
    ∃ c ∈ d.flowDeveloperCredentials, c.id = k ∧ Within x c
  events : ∀ x ∈ d.flowAccessContexts,
    d.revocations x.contextId = if x.revokedAt = none then 0 else 1
  known : ∀ e ∈ d.outboxEvents, Born ids w e.aggregateId
  revoked : ∀ c ∈ d.flowDeveloperCredentials, c.revokedAt ≠ none → ∀ x ∈ d.flowAccessContexts,
    x.credentialId = some c.id → x.revokedAt ≠ none ∨ x.expiresAt ≤ w.clock
  keptCredential : ∀ σ ∈ w.seen, ∀ c ∈ σ.db.flowDeveloperCredentials,
    ∃ c' ∈ d.flowDeveloperCredentials, c'.id = c.id ∧ c.Later c'
  keptContext : ∀ σ ∈ w.seen, ∀ x ∈ σ.db.flowAccessContexts, ∀ y ∈ d.flowAccessContexts,
    y.contextId = x.contextId → x.Later y

section Inv
variable {d : Db} {w w' : View} {ws : List Write}

theorem Inv.mono (hw : w.Grows d w') (h : Inv d w) : Inv d w' where
  credentials := h.credentials
  contexts := h.contexts
  minted := h.minted
  events := h.events
  known e he := (h.known e he).mono hw
  revoked c hc hr x hx hk :=
    (h.revoked c hc hr x hx hk).imp_right fun hexp => Int.le_trans hexp hw.clock
  keptCredential σ hσ c hc := by
    rcases hw.only σ hσ with hold | hdb
    · exact h.keptCredential σ hold c hc
    · exact ⟨c, hdb ▸ hc, rfl, .refl c⟩
  keptContext σ hσ x hx y hy hid := by
    rcases hw.only σ hσ with hold | hdb
    · exact h.keptContext σ hold x hx y hy hid
    · rw [h.contexts.eq hy (hdb ▸ hx) hid]
      exact .refl x

/-! ## 2. Rows before and after the writes of a commit -/

/-- The writes in order. -/
abbrev applyAll (ws : List Write) (d : Db) : Db := ws.foldl (fun d x => x.apply d) d

variable (k : Uuid)

/-- The write updates `revoked_at` of the context. -/
def Write.revokesContext : Write → Bool
  | .revokeContext id _ => id == k
  | _ => false

/-- The write inserts an event of the context. -/
def Write.eventOf : Write → Bool
  | .insertEvent e => e.aggregateId == k
  | _ => false

def revokes (ws : List Write) : Bool := ws.any (Write.revokesContext k)

def eventsFor (ws : List Write) : Nat := ws.countP (Write.eventOf k)

variable (x : Write) (c : FlowDeveloperCredentialRow)

theorem Write.credential_later : c.Later (x.credential c) := by
  cases x with
  | revokeCredential =>
    simp only [Write.credential]
    split_ifs
    · exact ⟨rfl, rfl, rfl, fun _ => Option.some_ne_none _⟩
    · exact .refl c
  | setSecret | touchCredential =>
    simp only [Write.credential]
    split_ifs
    · exact ⟨rfl, rfl, rfl, fun h => h⟩
    · exact .refl c
  | _ => exact .refl c

variable (y : FlowAccessContextRow)

theorem Write.context_later : y.Later (x.context y) := by
  cases x with
  | revokeContext =>
    simp only [Write.context]
    split_ifs
    · exact ⟨rfl, rfl, rfl, rfl, rfl, fun _ => Option.some_ne_none _⟩
    · exact .refl y
  | _ => exact .refl y

theorem credentials_stay_all (ws : List Write) {c : FlowDeveloperCredentialRow}
    (h : c ∈ d.flowDeveloperCredentials) :
    ∃ c' ∈ (applyAll ws d).flowDeveloperCredentials, c'.id = c.id ∧ c.Later c' := by
  induction ws generalizing d c with
  | nil => exact ⟨c, h, rfl, .refl c⟩
  | cons x _ ih =>
    obtain ⟨c', hc', hid, hl⟩ := ih (credentials_stay (x := x) h)
    exact ⟨c', hc', hid.trans (x.credential_id c), (x.credential_later c).trans hl⟩

/-- A credential is revoked by a write only. -/
theorem credential_revoked {x : Write} {c : FlowDeveloperCredentialRow} (hn : c.revokedAt = none)
    (hr : (x.credential c).revokedAt ≠ none) : ∃ t, x = .revokeCredential c.id t := by
  cases x with
  | revokeCredential _ t =>
    simp only [Write.credential] at hr
    split_ifs at hr with he
    · exact ⟨t, by rw [beq_iff_eq.mp he]⟩
    · exact absurd hn hr
  | setSecret | touchCredential =>
    simp only [Write.credential] at hr
    split_ifs at hr <;> exact absurd hn hr
  | _ => exact absurd hn hr

/-- A credential gets its secret from a write only. -/
theorem credential_secret : (x.credential c).secret = c.secret ∨ x = .setSecret c.id (x.credential
    c).secret := by
  cases x with
  | setSecret id =>
    by_cases he : c.id = id
    · exact .inr (by simp [Write.credential, he])
    · exact .inl (by simp [Write.credential, he])
  | revokeCredential | touchCredential =>
    simp only [Write.credential]
    split_ifs <;> exact .inl rfl
  | _ => exact .inl rfl

variable {c' : FlowDeveloperCredentialRow}

/-- Where a credential comes from. -/
theorem credential_origin (h : c' ∈ (applyAll ws d).flowDeveloperCredentials) : ∃ c, (c ∈
    d.flowDeveloperCredentials ∨ .insertCredential c ∈ ws) ∧ c'.id = c.id ∧ c.Later c' ∧
    (c.revokedAt = none → c'.revokedAt ≠ none → ∃ t, .revokeCredential c.id t ∈ ws) ∧ (c'.secret =
    c.secret ∨ .setSecret c.id c'.secret ∈ ws) := by
  induction ws generalizing d with
  | nil => exact ⟨c', .inl h, rfl, .refl c', fun hn hr => absurd hn hr, .inl rfl⟩
  | cons x ws ih =>
    obtain ⟨c, hc, hid, hl, hrev, hsec⟩ := ih h
    have hlater (hn : c.revokedAt = none) (hr : c'.revokedAt ≠ none) :
        ∃ t, .revokeCredential c.id t ∈ x :: ws := by
      obtain ⟨t, ht⟩ := hrev hn hr
      exact ⟨t, mem_cons_of_mem _ ht⟩
    have hset := hsec.imp_right (mem_cons_of_mem x)
    rcases hc with hc | hc
    · rcases mem_credentials hc with rfl | ⟨b, hb, rfl⟩
      · exact ⟨c, .inr mem_cons_self, hid, hl, hlater, hset⟩
      rw [x.credential_id] at hset
      refine ⟨b, .inl hb, hid.trans (x.credential_id b), (x.credential_later b).trans hl, ?_, ?_⟩
      · intro hn hr
        by_cases hxb : (x.credential b).revokedAt = none
        · obtain ⟨t, ht⟩ := hlater hxb hr
          rw [x.credential_id] at ht
          exact ⟨t, ht⟩
        · obtain ⟨t, rfl⟩ := credential_revoked hn hxb
          exact ⟨t, mem_cons_self⟩
      · rcases hset with hset | hset
        · rcases credential_secret x b with hb' | hb'
          · exact .inl (hset.trans hb')
          refine .inr ?_
          rw [hset, ← hb']
          exact mem_cons_self
        · exact .inr hset
    · exact ⟨c, .inr (mem_cons_of_mem _ hc), hid, hl, hlater, hset⟩

/-- The write revokes the contexts it names, and no other. -/
theorem Write.context_revokedAt : if x.revokesContext y.contextId = true then (x.context
    y).revokedAt ≠ none else (x.context y).revokedAt = y.revokedAt := by
  cases x with
  | revokeContext id =>
    by_cases he : id = y.contextId
    · simp [Write.revokesContext, Write.context, he]
    · simp [Write.revokesContext, Write.context, he, Ne.symm he]
  | _ => exact rfl

/-- Where a context comes from. -/
structure Origin (d : Db) (ws : List Write) (x y : FlowAccessContextRow) : Prop where
  source : (x ∈ d.flowAccessContexts ∧ (revokes x.contextId ws = true → y.revokedAt ≠ none)) ∨
    .insertContext x ∈ ws
  id : y.contextId = x.contextId
  later : x.Later y
  same : revokes x.contextId ws = false → y.revokedAt = x.revokedAt

theorem context_origin {y : FlowAccessContextRow}
    (h : y ∈ (applyAll ws d).flowAccessContexts) : ∃ x, Origin d ws x y := by
  induction ws generalizing d with
  | nil => exact ⟨y, .inl ⟨h, fun hr => absurd hr (by simp [revokes])⟩, rfl, .refl y, fun _ => rfl⟩
  | cons x ws ih =>
    obtain ⟨z, hz⟩ := ih h
    have hsplit (k : Uuid) (hk : revokes k (x :: ws) = false) :
        x.revokesContext k = false ∧ revokes k ws = false := by
      simpa only [revokes, any_cons, Bool.or_eq_false_iff] using hk
    rcases hz.source with ⟨hin, hrevoked⟩ | hin
    · rcases mem_contexts hin with rfl | ⟨b, hb, rfl⟩
      · exact ⟨z, .inr mem_cons_self, hz.id, hz.later, fun hk => hz.same (hsplit _ hk).2⟩
      have hid := x.context_id b
      have hwrite := x.context_revokedAt b
      refine ⟨b, .inl ⟨hb, fun hr => ?_⟩, hz.id.trans hid, (x.context_later b).trans hz.later,
        fun hk => ?_⟩
      · by_cases hx : x.revokesContext b.contextId = true
        · rw [if_pos hx] at hwrite
          exact hz.later.revoked hwrite
        refine hrevoked ?_
        rw [hid]
        simpa only [revokes, any_cons, hx, Bool.false_or] using hr
      · obtain ⟨hx, hws⟩ := hsplit _ hk
        rw [if_neg (by simp [hx])] at hwrite
        rw [hz.same (by rw [hid]; exact hws), hwrite]
    · exact ⟨z, .inr (mem_cons_of_mem _ hin), hz.id, hz.later,
        fun hk => hz.same (hsplit _ hk).2⟩

theorem revocations_applyAll : (applyAll ws d).revocations k = d.revocations k + eventsFor k ws :=
    by
  induction ws generalizing d with
  | nil => rfl
  | cons x ws ih =>
    have hx : (x.apply d).revocations k = d.revocations k + if x.eventOf k then 1 else 0 := by
      cases x with
      | insertEvent =>
        simp [Db.revocations, Write.apply, Write.eventOf, countP_append]
      | _ => rfl
    have hcount : eventsFor k (x :: ws) = (if x.eventOf k then 1 else 0) + eventsFor k ws := by
      rw [eventsFor, countP_cons, Nat.add_comm]
      rfl
    have hrest : (applyAll (x :: ws) d).revocations k =
        (x.apply d).revocations k + eventsFor k ws := ih
    omega

/-- An event comes from before or from a write. -/
theorem event_origin {e : RevokeEventRow} (h : e ∈ (applyAll ws d).outboxEvents) :
    e ∈ d.outboxEvents ∨ .insertEvent e ∈ ws := by
  induction ws generalizing d with
  | nil => exact .inl h
  | cons x _ ih =>
    rcases ih h with h | h
    · cases x with
      | insertEvent =>
        rcases mem_append.mp h with h | h
        · exact .inl h
        · rw [mem_singleton.mp h]
          exact .inr mem_cons_self
      | _ => exact .inl h
    · exact .inr (mem_cons_of_mem _ h)

/-- Rows under new ids. -/
theorem unique_applyAll (hc : UniqueKey (·.id) d.flowDeveloperCredentials)
    (hx : UniqueKey (·.contextId) d.flowAccessContexts) (hn : (ws.flatMap Write.makes).Nodup)
    (hnew : ∀ k ∈ ws.flatMap Write.makes, k ∉ ids d) :
    UniqueKey (·.id) (applyAll ws d).flowDeveloperCredentials ∧
      UniqueKey (·.contextId) (applyAll ws d).flowAccessContexts := by
  induction ws generalizing d with
  | nil => exact ⟨hc, hx⟩
  | cons x _ ih =>
    rw [flatMap_cons] at hn hnew
    obtain ⟨_, hrest, hdisj⟩ := nodup_append.mp hn
    have hfresh (k : Nat) (hk : k ∈ x.makes) : k ∉ ids d := hnew k (mem_append_left _ hk)
    have hstep : UniqueKey (·.id) (x.apply d).flowDeveloperCredentials ∧
        UniqueKey (·.contextId) (x.apply d).flowAccessContexts := by
      cases x with
      | insertCredential c =>
        refine ⟨hc.insert fun b hb he => ?_, hx⟩
        exact hfresh c.id mem_cons_self (he ▸ mem_ids_credential hb)
      | revokeCredential | setSecret | touchCredential =>
        exact ⟨hc.map fun c => Write.credential_id _ c, hx⟩
      | insertContext y =>
        refine ⟨hc, hx.insert fun z hz he => ?_⟩
        exact hfresh y.contextId mem_cons_self (he ▸ mem_ids_context hz)
      | revokeContext => exact ⟨hc, hx.map fun y => Write.context_id _ y⟩
      | deleteContext => exact ⟨hc, hx.filter _⟩
      | _ => exact ⟨hc, hx⟩
    refine ih hstep.1 hstep.2 hrest fun k hk hin => ?_
    rcases Write.mem_ids hin with hin | hin
    · exact hnew k (mem_append_right _ hk) hin
    · exact hdisj k hin k hk rfl

/-! ## 3. Commits -/

/-- What the writes of a commit need. -/
structure Commits (d : Db) (w : View) (ws : List Write) : Prop where
  distinct : (ws.flatMap Write.makes).Nodup
  unborn : ∀ k ∈ ws.flatMap Write.makes, ¬ Born ids w k
  credential : ∀ c, .insertCredential c ∈ ws → c.revokedAt = none
  context : ∀ x, .insertContext x ∈ ws → x.revokedAt = none ∧ ∀ k, x.credentialId = some k →
    ∃ c ∈ d.flowDeveloperCredentials, c.id = k ∧ Within x c ∧ c.revokedAt = none ∧
      ∀ t, .revokeCredential k t ∉ ws
  balanced : ∀ k, eventsFor k ws = if revokes k ws then 1 else 0
  unrevoked : ∀ k, revokes k ws = true → ∃ x ∈ d.flowAccessContexts,
    x.contextId = k ∧ x.revokedAt = none
  covered : ∀ k t, .revokeCredential k t ∈ ws → ∀ x ∈ d.flowAccessContexts,
    x.credentialId = some k →
    x.revokedAt ≠ none ∨ x.expiresAt ≤ w.clock ∨ revokes x.contextId ws = true

theorem Commits.makes {x : Write} {k : Nat} (h : Commits d w ws) (hx : x ∈ ws)
    (hk : k ∈ x.makes) : ¬ Born ids w k :=
  h.unborn k (mem_flatMap.mpr ⟨x, hx, hk⟩)

variable (h : Inv d w)
include h

/-- The row behind an id that is known. -/
theorem Inv.context_eq {x y : FlowAccessContextRow} (hx : x ∈ d.flowAccessContexts) (hy : y ∈
    d.flowAccessContexts) (he : x.contextId = y.contextId) : x = y :=
  h.contexts.eq hx hy he

variable (hk : Known ids d w) (hc : Commits d w ws)
include hk hc

theorem Inv.events_commit {y : FlowAccessContextRow} (hy : y ∈ (applyAll ws d).flowAccessContexts) :
    (applyAll ws d).revocations y.contextId = if y.revokedAt = none then 0 else 1 := by
  obtain ⟨x, hx⟩ := context_origin hy
  rw [revocations_applyAll, hc.balanced, hx.id]
  rcases hx.source with ⟨hin, hrevoked⟩ | hin
  · by_cases hr : revokes x.contextId ws = true
    · -- the commit revokes it, which was unrevoked, and inserts its event
      obtain ⟨z, hz, hid, hnone⟩ := hc.unrevoked _ hr
      have hzx := h.context_eq hz hin hid
      rw [h.events x hin, ← hzx, if_pos hnone, hzx, if_pos hr, if_neg (hrevoked hr)]
    · have hf : revokes x.contextId ws = false := Bool.not_eq_true _ ▸ hr
      rw [h.events x hin, if_neg hr, hx.same hf, Nat.add_zero]
  · -- it is new; nothing was said of its id before
    have hnew := hc.makes hin (k := x.contextId) mem_cons_self
    have hr : revokes x.contextId ws = false := by
      refine Bool.eq_false_iff.mpr fun hr => ?_
      obtain ⟨z, hz, hid, _⟩ := hc.unrevoked _ hr
      exact hnew (hk.born (hid ▸ mem_ids_context hz))
    have hzero : d.revocations x.contextId = 0 := by
      refine countP_eq_zero.mpr fun e he hid => ?_
      exact hnew (beq_iff_eq.mp hid ▸ h.known e he)
    rw [hzero, hx.same hr, (hc.context x hin).1, hr]
    rfl

theorem Inv.revoked_commit (hc' : c' ∈ (applyAll ws d).flowDeveloperCredentials) (hr : c'.revokedAt
    ≠ none) {y : FlowAccessContextRow} (hy : y ∈ (applyAll ws d).flowAccessContexts) (hyc :
    y.credentialId = some c'.id) : y.revokedAt ≠ none ∨ y.expiresAt ≤ w.clock := by
  obtain ⟨c, hsource, hid, _, hrev, _⟩ := credential_origin hc'
  obtain ⟨x, hx⟩ := context_origin hy
  have hxc : x.credentialId = some c.id := by rw [← hx.later.credential, hyc, hid]
  -- a credential that a context names is not new
  have hold (hnew : .insertCredential c ∈ ws) {b : FlowDeveloperCredentialRow}
      (hb : b ∈ d.flowDeveloperCredentials) (hbc : b.id = c.id) : False :=
    hc.makes hnew (k := c.id) mem_cons_self (hk.born (hbc ▸ mem_ids_credential hb))
  rcases hx.source with ⟨hin, hrevoked⟩ | hin
  · obtain ⟨b, hb, hbc, _⟩ := h.minted x hin c.id hxc
    have hcd : c ∈ d.flowDeveloperCredentials := hsource.resolve_right fun hn => hold hn hb hbc
    have hcover : x.revokedAt ≠ none ∨ x.expiresAt ≤ w.clock ∨
        revokes x.contextId ws = true := by
      by_cases hn : c.revokedAt = none
      · obtain ⟨t, ht⟩ := hrev hn hr
        exact hc.covered c.id t ht x hin hxc
      · exact (h.revoked c hcd hn x hin hxc).imp_right .inl
    rcases hcover with hx' | hx' | hx'
    · exact .inl (hx.later.revoked hx')
    · exact .inr (hx.later.expires ▸ hx')
    · exact .inl (hrevoked hx')
  · obtain ⟨_, hmint⟩ := hc.context x hin
    obtain ⟨b, hb, hbc, _, hbn, hno⟩ := hmint c.id hxc
    have hcd : c ∈ d.flowDeveloperCredentials := hsource.resolve_right fun hn => hold hn hb hbc
    have hcb : c = b := h.credentials.eq hcd hb hbc.symm
    obtain ⟨t, ht⟩ := hrev (hcb ▸ hbn) hr
    exact absurd ht (hno t)

/-- **A commit keeps the invariant.** -/
theorem Inv.commit : Inv (applyAll ws d) w where
  credentials := (unique_applyAll h.credentials h.contexts hc.distinct
    fun k hm hin => hc.unborn k hm (hk.born hin)).1
  contexts := (unique_applyAll h.credentials h.contexts hc.distinct
    fun k hm hin => hc.unborn k hm (hk.born hin)).2
  minted y hy k hyk := by
    obtain ⟨x, hx⟩ := context_origin hy
    have hxk : x.credentialId = some k := hx.later.credential ▸ hyk
    have hback : ∃ c ∈ d.flowDeveloperCredentials, c.id = k ∧ Within x c := by
      rcases hx.source with ⟨hin, _⟩ | hin
      · exact h.minted x hin k hxk
      · obtain ⟨c, hcd, hid, hw, _⟩ := (hc.context x hin).2 k hxk
        exact ⟨c, hcd, hid, hw⟩
    obtain ⟨c, hcd, hid, hwithin⟩ := hback
    obtain ⟨c', hc', hid', hl⟩ := credentials_stay_all ws hcd
    exact ⟨c', hc', hid'.trans hid, hwithin.later hx.later hl⟩
  events _ hy := h.events_commit hk hc hy
  known e he := by
    rcases event_origin he with he | he
    · exact h.known e he
    have hpos : 0 < eventsFor e.aggregateId ws :=
      countP_pos_iff.mpr ⟨_, he, by simp [Write.eventOf]⟩
    have hr : revokes e.aggregateId ws = true := by
      by_contra hn
      rw [hc.balanced, if_neg hn] at hpos
      exact absurd hpos (by decide)
    obtain ⟨x, hx, hid, _⟩ := hc.unrevoked _ hr
    exact hk.born (hid ▸ mem_ids_context hx)
  revoked _ hc' hr _ hy hyc := h.revoked_commit hk hc hc' hr hy hyc
  keptCredential σ hσ c hcσ := by
    obtain ⟨b, hb, hid, hl⟩ := h.keptCredential σ hσ c hcσ
    obtain ⟨c', hc', hid', hl'⟩ := credentials_stay_all ws hb
    exact ⟨c', hc', hid'.trans hid, hl.trans hl'⟩
  keptContext σ hσ x hxσ y hy hid := by
    obtain ⟨z, hz⟩ := context_origin hy
    have hzx : z.contextId = x.contextId := hz.id.symm.trans hid
    rcases hz.source with ⟨hin, _⟩ | hin
    · exact (h.keptContext σ hσ x hxσ z hin hzx).trans hz.later
    · refine absurd ⟨σ, hσ, ?_⟩ (hc.makes hin (k := z.contextId) mem_cons_self)
      exact hzx ▸ mem_ids_context hxσ

end Inv
end HeteroCloud.FlowAccess
