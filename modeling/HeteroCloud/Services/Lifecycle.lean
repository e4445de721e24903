/-
  File:      Services/Lifecycle.lean
  Subject:   THE LIFE OF A SERVICE: its generation, its deletion, and what a delivery or an
             observation that comes late can do to it.
-/
import HeteroCloud.Base.Schedule
import HeteroCloud.Services.Points

namespace HeteroCloud.Services

open Base Iam List
open Store (ServiceInstanceState StoreError)

/-! ## 1. What a step may do -/

/-- Two rows of one service, one after the other: nothing that is configured has changed, nor has
the service entered or left deletion; or it is of the next generation, and was not in deletion. -/
def ServiceRow.Advances (s s' : ServiceRow) : Prop :=
  (s'.generation = s.generation ∧ s'.spec = s.spec ∧ s'.projectId = s.projectId ∧
    s'.name = s.name ∧ (s'.state = .deleting ↔ s.state = .deleting)) ∨
  (s'.generation = s.generation + 1 ∧ s.state ≠ .deleting)

/-- The point is one of a delivery or an observation, but not of this service at its generation. -/
def Call.late (s : ServiceRow) : Call → Prop
  | .recordFlashObservation seen _ | .observationCommit seen =>
      ¬ (s.id = seen.id ∧ s.generation = seen.generation)
  | .claimCommit ev _ | .deliver ev _ | .markDelivered ev | .retry ev _ => ¬ ev.payload.names s
  | .deliverOwner dl | .deliverQuota dl _ | .deliverMember dl _ _ | .deliverMemberLimits dl _ _ _
  | .deliverCloud dl _ _ _ | .deliverAccounts dl _ _ _ _ _ | .send dl _ | .completeDelete dl
  | .completeCommit dl | .markService dl _ _ | .markCommit dl => ¬ dl.event.payload.names s
  | .processOne _ _ | .settle => True
  | _ => False

/-- **What a step may do to the services.** -/
structure StepOk (past : List (Event Db Key Write Call)) (σ : System Db Key Write Call)
    (mover : Option Nat) (σ' : System Db Key Write Call) : Prop where
  advances : ∀ s ∈ σ.db.serviceInstances, ∀ s' ∈ σ'.db.serviceInstances, s'.id = s.id →
    s.Advances s'
  /-- Deletion is left only by removal. -/
  deleting : ∀ s ∈ σ.db.serviceInstances, s.state = .deleting →
    s ∈ σ'.db.serviceInstances ∨ ∀ s' ∈ σ'.db.serviceInstances, s'.id ≠ s.id
  /-- A service is removed only when the provider has let go of it at its generation. -/
  removed : ∀ s ∈ σ.db.serviceInstances, (∀ s' ∈ σ'.db.serviceInstances, s'.id ≠ s.id) →
    s.state = .deleting ∧ ∃ e ∈ past, Accepts e s.id (.delete s.generation) ∨
      ReportsAbsent e s.id (.delete s.generation)
  /-- A new service is of the first generation, and no service had its id. -/
  created : ∀ s' ∈ σ'.db.serviceInstances, (∀ s ∈ σ.db.serviceInstances, s.id ≠ s'.id) →
    s'.generation = 1 ∧ ∀ e ∈ past, ∀ s ∈ e.state.db.serviceInstances, s.id ≠ s'.id
  /-- A delivery or an observation leaves a service of another generation as it is. -/
  late : ∀ i r, mover = some i → σ.runs i = some r → ∀ s ∈ σ.db.serviceInstances,
    r.call.late s → s ∈ σ'.db.serviceInstances

section Lifecycle
variable {u : Setup} {d : Db} {w : View} {t : Int} {issued : List Nat} {x : Write}
  {ws : List Write} {held : Locks} {s s' : ServiceRow} {past later : List (Event Db Key Write Call)}
  {σ σ' : System Db Key Write Call} {mover : Option Nat}

/-! ## 2. One write -/

theorem advances_self (s : ServiceRow) : s.Advances s :=
  .inl ⟨rfl, rfl, rfl, rfl, Iff.rfl⟩

/-- The row a write replaces. -/
theorem replaces_advances (hx : x.allows) (hr : x.replaces = some (s, s')) : s.Advances s' := by
  cases x with
  | reportService =>
    cases hr
    exact .inl ⟨rfl, rfl, rfl, rfl, fun h => absurd h hx.2, fun h => absurd h hx.1⟩
  | changeService =>
    cases hr
    exact .inr ⟨rfl, hx.1⟩
  | deleteService =>
    cases hr
    exact .inr ⟨rfl, hx⟩
  | assignService =>
    cases hr
    exact .inl ⟨rfl, rfl, rfl, rfl, Iff.rfl⟩
  | _ => cases hr

/-- A write never replaces a row in deletion. -/
theorem replaces_live (hx : x.allows) (hr : x.replaces = some (s, s')) : s.state ≠ .deleting := by
  cases x with
  | reportService | changeService | assignService => cases hr; exact hx.1
  | deleteService => cases hr; exact hx
  | _ => cases hr

theorem apply_advances (hi : Inv d w) (hx : x.allows) (hs : s ∈ d.serviceInstances)
    (hs' : s' ∈ (x.apply d).serviceInstances) (hid : s'.id = s.id) : s.Advances s' := by
  rcases mem_services hs' with ⟨_, hnew⟩ | hmem | ⟨old, hold, hr⟩
  · exact absurd (hid ▸ hi.owned s hs) hnew
  · rw [hi.services.eq hmem hs hid]
    exact advances_self s
  have hsame := x.replaces_same hx hr
  rw [hi.services.eq hs hold (hid.symm.trans hsame.1)]
  exact replaces_advances hx hr

/-- What becomes of a row. -/
theorem apply_keeps (hs : s ∈ d.serviceInstances) : s ∈ (x.apply d).serviceInstances ∨
    (∃ new ∈ (x.apply d).serviceInstances, x.replaces = some (s, new)) ∨
      x = .removeService s := by
  by_cases hr : ∃ new, x.replaces = some (s, new)
  · obtain ⟨new, hr⟩ := hr
    exact .inr (.inl ⟨new, replaces_mem hr hs, hr⟩)
  by_cases hx : x = .removeService s
  · exact .inr (.inr hx)
  · exact .inl (services_stay hs (fun new h => hr ⟨new, h⟩) hx)

/-- No row of a removed service is left. -/
theorem removed_gone (hi : Inv d w) (hs : s ∈ d.serviceInstances) :
    ∀ s' ∈ ((Write.removeService s).apply d).serviceInstances, s'.id ≠ s.id := by
  intro s' hs' hid
  obtain ⟨hmem, hne⟩ := mem_filter.mp hs'
  rw [bne_iff_ne] at hne
  exact hne (hi.services.eq hmem hs hid)

/-! ## 3. One commit -/

/-- The services and their owners after a commit are as before it, or as its one write leaves
them. -/
theorem Pending.touched (hp : Pending u d w held ws) :
    ((applyAll u ws d).serviceInstances = d.serviceInstances ∧
      (applyAll u ws d).serviceQuotaOwners = d.serviceQuotaOwners) ∨
    ∃ x ∈ ws, x.allows ∧ (applyAll u ws d).serviceInstances = (x.apply d).serviceInstances ∧
      (applyAll u ws d).serviceQuotaOwners = (x.apply d).serviceQuotaOwners := by
  have hall : (applyAll u ws d).serviceInstances = (applyAll u (touching ws) d).serviceInstances ∧
      (applyAll u ws d).serviceQuotaOwners = (applyAll u (touching ws) d).serviceQuotaOwners :=
    applyAll_touching rfl rfl
  by_cases hnone : touching ws = []
  · rw [hnone] at hall
    exact .inl hall
  obtain ⟨x, hx⟩ := exists_mem_of_ne_nil _ hnone
  obtain ⟨hx, ht⟩ := mem_filter.mp hx
  rw [hp.touching_eq hx ht] at hall
  exact .inr ⟨x, hx, hp.allows x hx, hall⟩

theorem Pending.services (hp : Pending u d w held ws) :
    (applyAll u ws d).serviceInstances = d.serviceInstances ∨
      ∃ x ∈ ws, x.allows ∧ (applyAll u ws d).serviceInstances = (x.apply d).serviceInstances := by
  rcases hp.touched with ⟨hkept, _⟩ | ⟨x, hx, hallows, happly, _⟩
  · exact .inl hkept
  · exact .inr ⟨x, hx, hallows, happly⟩

/-- A commit of a delivery or an observation writes only the service it is about. -/
theorem late_writes {r : Running Key Write Call} (hA : Point u d w r)
    (hc : r.call.stage.commits = true) (hl : r.call.late s) :
    ∀ x ∈ r.pending, (∀ new, x.replaces ≠ some (s, new)) ∧ x ≠ .removeService s := by
  obtain ⟨call, held, pending, began⟩ := r
  intro x hx
  cases call with
  | observationCommit =>
    obtain ⟨s₀, state, status, hp, hid, hg⟩ := hA
    rw [show pending = [.reportService s₀ state status] from hp] at hx
    rw [mem_singleton.mp hx]
    refine ⟨?_, by simp⟩
    rintro new ⟨⟩
    exact hl ⟨hid, hg⟩
  | claimCommit ev =>
    obtain ⟨⟨now, hp⟩, _⟩ := hA
    rw [show pending = [.claimEvent ev.id now] from hp] at hx
    rw [mem_singleton.mp hx]
    exact ⟨by simp [Write.replaces], by simp⟩
  | completeCommit =>
    rcases hA.1 with hp | ⟨s₀, hp, hnames⟩
    · rw [show pending = [] from hp] at hx
      cases hx
    rw [show pending = [.removeService s₀] from hp] at hx
    rw [mem_singleton.mp hx]
    refine ⟨by simp [Write.replaces], ?_⟩
    rintro ⟨⟩
    exact hl hnames
  | markCommit =>
    rcases hA.1 with hp | ⟨s₀, state, status, hp, hnames⟩
    · rw [show pending = [] from hp] at hx
      cases hx
    rw [show pending = [.reportService s₀ state status] from hp] at hx
    rw [mem_singleton.mp hx]
    refine ⟨?_, by simp⟩
    rintro new ⟨⟩
    exact hl hnames
  | settle =>
    obtain ⟨y, hp, hplain⟩ := hA
    rw [show pending = [y] from hp] at hx
    rw [mem_singleton.mp hx]
    cases y with
    | deliverEvent | retryEvent | insertPrincipal | deletePrincipal | setSurroundings
    | deleteSecret => exact ⟨by simp [Write.replaces], by simp⟩
    | _ => cases hplain
  | createExisting | switchExisting | deleteExisting | changeCommit | deleteCommit | mintCommit
  | enabledCommit | quotaCommit | syncCommit | putSecretCommit => exact hl.elim
  | _ => cases hc

variable (h₀ : Initial d issued) (hr : Run (program u) (System.quiet d t issued) past σ)
include h₀ hr

/-- The ids of services passed are known. -/
theorem owners_run : ∀ e ∈ past, ∀ s ∈ e.state.db.serviceInstances, s.id ∈ σ.db.knownServices := by
  intro e he s hs
  obtain ⟨before, after, σ₁, hb, hstep, ha, _⟩ := hr.split he
  have hout := outline_run h₀ hb
  have hrun : Run (program u) e.state (after ++ [⟨e.state, e.mover⟩]) σ :=
    (Run.start.step hstep).append ha
  obtain ⟨_, hq⟩ := duties.later (Q := fun d _ => s.id ∈ d.knownServices)
    (fun _ h => h) (fun _ h => owners_stay h) hout (hout.inv.2.owned s hs) hrun
  exact hq

/-- **Every step of every run is as said.** -/
theorem service_step (hs : StepBy (program u) σ mover σ') : StepOk past σ mover σ' := by
  have hout := outline_run h₀ hr
  obtain ⟨_, hi⟩ := hout.inv
  have hknown := owners_run h₀ hr
  have hsame (hdb : σ'.db = σ.db) : StepOk past σ mover σ' := by
    constructor
    · intro s hs s' hs' hid
      rw [hi.services.eq (hdb ▸ hs') hs hid]
      exact advances_self s
    · exact fun s hs _ => .inl (hdb ▸ hs)
    · exact fun s hs hgone => absurd rfl (hgone s (hdb ▸ hs))
    · exact fun s' hs' hnew => absurd rfl (hnew s' (hdb ▸ hs'))
    · exact fun _ _ _ _ s hs _ => hdb ▸ hs
  cases hs with
  | commit i r _ _ hcall _ ho =>
    obtain ⟨_, hP, hA⟩ := hout.loc i r hcall
    have hcommits : r.call.stage.commits = true := exec_commits ho
    rcases hP.services with hnone | ⟨x, hx, hallows, happly⟩
    · -- the commit touches no service
      have hdb : ((program u).view r σ.db).serviceInstances = σ.db.serviceInstances := hnone
      constructor
      · intro s hs s' hs' hid
        rw [hi.services.eq (hdb ▸ hs') hs hid]
        exact advances_self s
      · exact fun s hs _ => .inl (hdb.symm ▸ hs)
      · exact fun s hs hgone => absurd rfl (hgone s (hdb.symm ▸ hs))
      · exact fun s' hs' hnew => absurd rfl (hnew s' (hdb ▸ hs'))
      · exact fun _ _ _ _ s hs _ => hdb.symm ▸ hs
    have hdb : ((program u).view r σ.db).serviceInstances = (x.apply σ.db).serviceInstances :=
      happly
    constructor
    · exact fun s hs s' hs' hid => apply_advances hi hallows hs (hdb ▸ hs') hid
    · intro s hs hdel
      show s ∈ ((program u).view r σ.db).serviceInstances ∨
        ∀ s' ∈ ((program u).view r σ.db).serviceInstances, s'.id ≠ s.id
      rw [hdb]
      rcases apply_keeps (x := x) hs with hkept | ⟨new, _, hreplaces⟩ | rfl
      · exact .inl hkept
      · exact absurd hdel (replaces_live hallows hreplaces)
      · exact .inr (removed_gone hi hs)
    · intro s hs hgone
      have hgone' : ∀ s' ∈ (x.apply σ.db).serviceInstances, s'.id ≠ s.id := hdb ▸ hgone
      rcases apply_keeps (x := x) hs with hkept | ⟨new, hnew, hreplaces⟩ | rfl
      · exact absurd rfl (hgone' s hkept)
      · exact absurd (x.replaces_same hallows hreplaces).1 (hgone' new hnew)
      · exact ⟨hallows, (hP.removed s hx).2⟩
    · intro s' hs' hnew
      rcases mem_services (hdb ▸ hs' : s' ∈ (x.apply σ.db).serviceInstances) with
        ⟨rfl, hunknown⟩ | hmem | ⟨old, hold, hreplaces⟩
      · refine ⟨hallows.1, fun e he s hs hid => hunknown (hid ▸ hknown e he s hs)⟩
      · exact absurd rfl (hnew s' hmem)
      · exact absurd (x.replaces_same hallows hreplaces).1.symm (hnew old hold)
    · intro j q hj hq s hs hlate
      cases hj
      cases hcall.symm.trans hq
      obtain ⟨hkeep, hnot⟩ := late_writes hA hcommits hlate x hx
      show s ∈ ((program u).view r σ.db).serviceInstances
      rw [hdb]
      exact services_stay hs hkeep hnot
  | _ => exact hsame rfl

/-- **Rows of one service, further apart**: its generation never decreases, and in deletion it does
not change any more. -/
theorem service_later : ∀ e ∈ past, ∀ s ∈ e.state.db.serviceInstances, ∀ s' ∈ σ.db.serviceInstances,
    s'.id = s.id → s.generation ≤ s'.generation ∧ (s.state = .deleting → s' = s) := by
  intro e he s hs
  obtain ⟨before, after, σ₁, hb, hstep, ha, _⟩ := hr.split he
  have hout := outline_run h₀ hb
  obtain ⟨_, hi⟩ := hout.inv
  have hrun : Run (program u) e.state (after ++ [⟨e.state, e.mover⟩]) σ :=
    (Run.start.step hstep).append ha
  have hstart : s.id ∈ e.state.db.knownServices ∧
      ∀ s' ∈ e.state.db.serviceInstances, s'.id = s.id →
        s.generation ≤ s'.generation ∧ (s.state = .deleting → s' = s) := by
    refine ⟨hi.owned s hs, fun s' hs' hid => ?_⟩
    rw [hi.services.eq hs' hs hid]
    exact ⟨Nat.le_refl _, fun _ => rfl⟩
  have hkeep {d : Db} {w : View} {held : Locks} {x : Write} (hx : Committed (guards u) w held x)
      (h : s.id ∈ d.knownServices ∧ ∀ s' ∈ d.serviceInstances, s'.id = s.id →
        s.generation ≤ s'.generation ∧ (s.state = .deleting → s' = s)) :
      s.id ∈ (x.apply d).knownServices ∧ ∀ s' ∈ (x.apply d).serviceInstances, s'.id = s.id →
        s.generation ≤ s'.generation ∧ (s.state = .deleting → s' = s) := by
    refine ⟨owners_stay h.1, fun s' hs' hid => ?_⟩
    rcases mem_services hs' with ⟨_, hnew⟩ | hmem | ⟨old, hold, hreplaces⟩
    · exact absurd (hid ▸ h.1) hnew
    · exact h.2 s' hmem hid
    have hsame := x.replaces_same hx.allowed hreplaces
    obtain ⟨hle, hdel⟩ := h.2 old hold (hsame.1.symm.trans hid)
    refine ⟨?_, fun hd => ?_⟩
    · rcases replaces_advances hx.allowed hreplaces with hadv | hadv
      · omega
      · omega
    · have hlive := replaces_live hx.allowed hreplaces
      rw [hdel hd] at hlive
      exact absurd hd hlive
  obtain ⟨_, hq⟩ := duties.later
    (Q := fun d _ => s.id ∈ d.knownServices ∧ ∀ s' ∈ d.serviceInstances, s'.id = s.id →
      s.generation ≤ s'.generation ∧ (s.state = .deleting → s' = s))
    (fun _ h => h) hkeep hout hstart hrun
  exact hq.2

end Lifecycle

/-! ## 4. The theorem -/

/-- A Flow service is created, and its event delivered. -/
def flowDelivered : List (Move Call) :=
  .start (.createServiceInstance { organizationId := 1, projectId := 2, principalId := 20,
                                   name := "calls", id := 30,
                                   spec := .flow ⟨"tokyo", 10, 10, ⟨1, 1⟩, .null⟩ }) ::
    List.replicate 13 (.step 0) ++
    .start (.processOne 43 acceptedExchange) :: List.replicate 8 (.step 1)

end HeteroCloud.Services
