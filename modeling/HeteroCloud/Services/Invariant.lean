/-
  File:      Services/Invariant.lean
  Subject:   WHAT HOLDS OF SERVICES AND THEIR EVENTS in every committed state, and of the writes of
             a transaction before they are committed.
-/
import HeteroCloud.Services.Stages

namespace HeteroCloud.Services

open Base Iam List
open Store (ServiceInstanceState StoreError)

/-! ## 1. What the provider said -/

variable (e : Event Db Key Write Call) (id : Uuid) (command : Command)

/-- The step sends the command for the service, and the provider accepts it. -/
def Accepts : Prop :=
  ∃ i dl, e.Executes i (.send dl command) ∧ dl.event.payload.serviceInstanceId = id ∧
    dl.exchange.accepted = true

/-- The step sends the command for the service, and the provider answers `not_found` in a complete
JSON error. -/
def ReportsAbsent : Prop :=
  ∃ i dl r, e.Executes i (.send dl command) ∧ dl.event.payload.serviceInstanceId = id ∧
    dl.exchange.response = some r ∧ providerDeleteAlreadyAbsent .delete r = some true

variable (generation : Nat)

/-- The step records that the provider reported the generation. -/
def Observes : Prop :=
  ∃ i seen status, e.Executes i (.recordFlashObservation seen status) ∧ seen.id = id ∧
    observedGeneration status = some (generation : Int)

/-- A reconcile command of the generation. -/
def Command.reconciles : Command → Prop
  | .put g _ _ _ _ _ => g = generation
  | .delete _ => False

/-- The generation was accepted by the provider, or reported by it. -/
def Confirmed (w : View) (id : Uuid) (generation : Nat) : Prop :=
  ∃ e ∈ w.done, (∃ command, command.reconciles generation ∧ Accepts e id command) ∨
    Observes e id generation

/-- The provider accepted the deletion, or had nothing to delete. -/
def Dismissed (w : View) (id : Uuid) (generation : Nat) : Prop :=
  ∃ e ∈ w.done, Accepts e id (.delete generation) ∨ ReportsAbsent e id (.delete generation)

section Evidence
variable {w w' : View} {d : Db} {id : Uuid} {generation : Nat}

theorem Confirmed.mono (hw : w.Grows d w') (h : Confirmed w id generation) :
    Confirmed w' id generation := by
  obtain ⟨e, he, h⟩ := h
  exact ⟨e, hw.done e he, h⟩

theorem Dismissed.mono (hw : w.Grows d w') (h : Dismissed w id generation) :
    Dismissed w' id generation := by
  obtain ⟨e, he, h⟩ := h
  exact ⟨e, hw.done e he, h⟩

end Evidence

/-! ## 2. Events -/

/-- What an event says of a service that is there. -/
structure Reports (topic : Topic) (p : ReconcilePayload) (s : ServiceRow) : Prop where
  organization : p.organizationId = s.organizationId
  provider : p.provider = s.provider
  generation : p.generation ≤ s.generation
  project : p.generation = s.generation → p.projectId = s.projectId
  deleting : p.generation = s.generation → (s.state = .deleting ↔ topic = .delete)

variable (d : Db)

/-- **An event tells the truth.** -/
structure Tells (topic : Topic) (p : ReconcilePayload) : Prop where
  known : p.serviceInstanceId ∈ d.knownServices
  row : ∀ s ∈ d.serviceInstances, s.id = p.serviceInstanceId → Reports topic p s

/-- Such an event as a row. -/
structure EventOk (e : OutboxEventRow) : Prop where
  aggregate : e.aggregateId = e.payload.serviceInstanceId
  quota : e.topic = .flashQuota → e.payload.provider = .flash
  tells : Tells d e.topic e.payload

section Events
variable {x : Write} {d : Db} {topic : Topic} {p : ReconcilePayload} {old new : ServiceRow}

/-- A write that replaces the row of a service keeps what events say of it. -/
theorem Reports.write (hx : x.allows) (hr : x.replaces = some (old, new))
    (h : Reports topic p old) : Reports topic p new := by
  have hlater : ∀ {s : ServiceRow}, s.generation = old.generation + 1 →
      s.organizationId = old.organizationId → s.provider = old.provider → Reports topic p s := by
    intro s hg ho hp
    have hle := h.generation
    exact ⟨h.organization.trans ho.symm, h.provider.trans hp.symm, by omega, by omega, by omega⟩
  cases x with
  | reportService =>
    cases hr
    refine ⟨h.organization, h.provider, h.generation, h.project, fun hg => ?_⟩
    have hiff := h.deleting hg
    exact ⟨fun hs => absurd hs hx.2, fun ht => absurd (hiff.mpr ht) hx.1⟩
  | changeService =>
    cases hr
    exact hlater rfl rfl hx.2
  | deleteService =>
    cases hr
    exact hlater rfl rfl rfl
  | assignService =>
    cases hr
    exact ⟨h.organization, h.provider, h.generation, h.project, h.deleting⟩
  | _ => cases hr

/-- **Any write keeps an event true.** -/
theorem Tells.apply (hx : x.allows) (h : Tells d topic p) : Tells (x.apply d) topic p := by
  refine ⟨owners_stay h.known, fun s hs hid => ?_⟩
  rcases mem_services hs with ⟨_, hnew⟩ | hs | ⟨old, hold, hr⟩
  · exact absurd (hid ▸ h.known) hnew
  · exact h.row s hs hid
  · have hsame := x.replaces_same hx hr
    exact (h.row old hold (hsame.1.symm.trans hid)).write hx hr

theorem EventOk.apply {e : OutboxEventRow} (hx : x.allows) (h : EventOk d e) :
    EventOk (x.apply d) e :=
  ⟨h.aggregate, h.quota, h.tells.apply hx⟩

theorem EventOk.same {e e' : OutboxEventRow} (hs : e.Same e') (h : EventOk d e) :
    EventOk d e' := by
  refine ⟨?_, ?_, ?_⟩
  · rw [hs.aggregate, hs.payload]
    exact h.aggregate
  · rw [hs.topic, hs.payload]
    exact h.quota
  · rw [hs.topic, hs.payload]
    exact h.tells

/-- A request for a GPU type is one of a Flash service, if that is still there. -/
structure RequestOk (d : Db) (q : FlashGpuServiceRequestRow) : Prop where
  known : q.serviceInstanceId ∈ d.knownServices
  provider : ∀ s ∈ d.serviceInstances, s.id = q.serviceInstanceId → s.provider = .flash

theorem RequestOk.apply {q : FlashGpuServiceRequestRow} (hx : x.allows) (h : RequestOk d q) :
    RequestOk (x.apply d) q := by
  refine ⟨owners_stay h.known, fun s hs hid => ?_⟩
  rcases mem_services hs with ⟨_, hnew⟩ | hs | ⟨old, hold, hr⟩
  · exact absurd (hid ▸ h.known) hnew
  · exact h.provider s hs hid
  · have hsame := x.replaces_same hx hr
    exact hsame.2.2.trans (h.provider old hold (hsame.1.symm.trans hid))

end Events

/-! ## 3. Services under the writes of a commit -/

/-- The write inserts, changes or removes a service. -/
def Write.touches : Write → Bool
  | .insertService _ | .reportService _ _ _ | .changeService _ _ _ _ | .deleteService _
  | .assignService _ _ | .removeService _ => true
  | _ => false

variable (ws : List Write)

/-- The writes that do. -/
def touching : List Write := ws.filter Write.touches

section Touching
variable {u : Setup} {x : Write} {d d' : Db} {ws ys : List Write}

theorem touching_append (ws ys : List Write) :
    touching (ws ++ ys) = touching ws ++ touching ys :=
  filter_append ..

theorem touching_none (h : ∀ x ∈ ws, x.touches = false) : touching ws = [] := by
  refine filter_eq_nil_iff.mpr fun x hx ht => ?_
  rw [h x hx] at ht
  cases ht

/-- The services and their ids, which no other write reads or changes. -/
theorem apply_untouched (h : x.touches = false) :
    (x.apply d).serviceInstances = d.serviceInstances ∧
      (x.apply d).serviceQuotaOwners = d.serviceQuotaOwners := by
  cases x with
  | insertService | reportService | changeService | deleteService | assignService
  | removeService => cases h
  | _ => exact ⟨rfl, rfl⟩

/-- **Only the touching writes count.** -/
theorem applyAll_touching (hs : d.serviceInstances = d'.serviceInstances)
    (ho : d.serviceQuotaOwners = d'.serviceQuotaOwners) :
    (applyAll u ws d).serviceInstances = (applyAll u (touching ws) d').serviceInstances ∧
      (applyAll u ws d).serviceQuotaOwners = (applyAll u (touching ws) d').serviceQuotaOwners := by
  induction ws generalizing d d' with
  | nil => exact ⟨hs, ho⟩
  | cons x _ ih =>
    by_cases hx : x.touches = true
    · rw [touching, filter_cons_of_pos hx]
      refine ih ?_ ?_
      · show x.onServices d.knownServices _ = x.onServices d'.knownServices _
        rw [Db.knownServices, Db.knownServices, hs, ho]
      · show x.onOwners _ = x.onOwners _
        rw [ho]
    · rw [touching, filter_cons_of_neg hx]
      obtain ⟨hs', ho'⟩ := apply_untouched (d := d) (Bool.eq_false_iff.mpr hx)
      exact ih (hs'.trans hs) (ho'.trans ho)

theorem services_untouched (h : touching ws = []) :
    (applyAll u ws d).serviceInstances = d.serviceInstances := by
  rw [(applyAll_touching (u := u) rfl rfl).1, h]
  rfl

theorem services_touched (h : touching ws = [x]) :
    (applyAll u ws d).serviceInstances = (x.apply d).serviceInstances := by
  rw [(applyAll_touching (u := u) rfl rfl).1, h]
  rfl

theorem mem_touching (hx : x ∈ ws) (ht : x.touches = true) : x ∈ touching ws :=
  mem_filter.mpr ⟨hx, ht⟩

variable {old new : ServiceRow}

theorem replaces_touches (h : x.replaces = some (old, new)) : x.touches = true := by
  cases x with
  | reportService | changeService | deleteService | assignService => rfl
  | _ => cases h

/-- The row a write replaces becomes the new one. -/
theorem replaces_mem (hr : x.replaces = some (old, new)) (h : old ∈ d.serviceInstances) : new ∈
    (x.apply d).serviceInstances := by
  cases x with
  | reportService | changeService | deleteService | assignService =>
    cases hr
    exact replaceRow_self h
  | _ => cases hr

end Touching

/-! ## 4. The invariant -/

structure Inv (w : View) : Prop where
  services : UniqueKey (·.id) d.serviceInstances
  owned : ∀ s ∈ d.serviceInstances, s.id ∈ d.knownServices
  events : UniqueKey (·.id) d.outboxEvents
  principals : UniqueKey (·.id) d.principals
  tokens : UniqueKey (·.id) d.workloadAccessTokens
  told : ∀ e ∈ d.outboxEvents, EventOk d e
  requests : ∀ q ∈ d.gpuServiceRequests, RequestOk d q
  ready : ∀ s ∈ d.serviceInstances, s.state = .ready → Confirmed w s.id s.generation

/-- The writes insert the service, or replace a row that is there by it. -/
def Writes (s : ServiceRow) : Prop :=
  (.insertService s ∈ ws ∧ s.id ∉ d.knownServices) ∨
    ∃ x ∈ ws, ∃ old ∈ d.serviceInstances, x.replaces = some (old, s)

/-- The event is true now, or tells of what the writes make of a service. -/
def Told (topic : Topic) (p : ReconcilePayload) : Prop :=
  Tells d topic p ∨ ∃ s, Writes d ws s ∧ s.id = p.serviceInstanceId ∧ Reports topic p s

/-- **Writes that are ready for a commit.** -/
structure Pending (u : Setup) (d : Db) (w : View) (held : Locks) (ws : List Write) : Prop where
  guarded : ∀ x ∈ ws, Guarded (guards u) held x
  distinct : (ws.flatMap Write.makes).Nodup
  single : (touching ws).length ≤ 1
  rows : ∀ x ∈ ws, ∀ old new, x.replaces = some (old, new) → old ∈ d.serviceInstances
  unknown : ∀ s, .insertService s ∈ ws → s.id ∉ d.knownServices
  removed : ∀ s, .removeService s ∈ ws →
    s ∈ d.serviceInstances ∧ Dismissed w s.id s.generation
  ready : ∀ s status, .reportService s .ready status ∈ ws → Confirmed w s.id s.generation
  told : ∀ e, .insertEvent e ∈ ws → e.aggregateId = e.payload.serviceInstanceId ∧
    (e.topic = .flashQuota → e.payload.provider = .flash) ∧ Told d ws e.topic e.payload
  requests : ∀ service gpuType principal, .putGpuRequest service gpuType principal ∈ ws →
    ∃ s, Writes d ws s ∧ s.id = service ∧ s.provider = .flash

section Commit
variable {u : Setup} {x : Write} {d : Db} {w w' : View} {held : Locks} {ws : List Write}

theorem Inv.mono (hw : w.Grows d w') (h : Inv d w) : Inv d w' :=
  { h with ready := fun s hs hr => (h.ready s hs hr).mono hw }

variable (h : Pending u d w held ws)
include h

/-- The one write of a commit that changes a service. -/
theorem Pending.touching_eq (hx : x ∈ ws) (ht : x.touches = true) : touching ws = [x] := by
  have hmem := mem_touching hx ht
  have hlen := h.single
  match hl : touching ws with
  | [] =>
    rw [hl] at hmem
    cases hmem
  | [y] =>
    rw [hl] at hmem
    rw [mem_singleton.mp hmem]
  | _ :: _ :: _ =>
    rw [hl] at hlen
    simp at hlen

/-- A service after the writes: it was there, or they write it. -/
theorem Pending.mem_services {s : ServiceRow} (hs : s ∈ (applyAll u ws d).serviceInstances) : s ∈
    d.serviceInstances ∨ Writes d ws s := by
  by_cases hnone : touching ws = []
  · rw [services_untouched hnone] at hs
    exact .inl hs
  obtain ⟨x, hx⟩ := exists_mem_of_ne_nil _ hnone
  obtain ⟨hx, ht⟩ := mem_filter.mp hx
  rw [services_touched (h.touching_eq hx ht)] at hs
  rcases Services.mem_services hs with ⟨rfl, hnew⟩ | hs | ⟨old, hold, hr⟩
  · exact .inr (.inl ⟨hx, hnew⟩)
  · exact .inl hs
  · exact .inr (.inr ⟨x, hx, old, hold, hr⟩)

/-- What they write is there after them. -/
theorem Pending.writes_mem {s : ServiceRow} (hs : Writes d ws s) : s ∈ (applyAll u ws
    d).serviceInstances := by
  rcases hs with ⟨hx, hnew⟩ | ⟨x, hx, old, hold, hr⟩
  · rw [services_touched (h.touching_eq hx rfl)]
    simp [Write.apply, Write.onServices, hnew]
  · rw [services_touched (h.touching_eq hx (replaces_touches hr))]
    exact replaces_mem hr hold

omit h

/-- Unique ids of services, all of them known. -/
theorem services_apply (hx : x.allows) (hu : UniqueKey (·.id) d.serviceInstances)
    (ho : ∀ s ∈ d.serviceInstances, s.id ∈ d.knownServices) :
    UniqueKey (·.id) (x.apply d).serviceInstances ∧
      ∀ s ∈ (x.apply d).serviceInstances, s.id ∈ (x.apply d).knownServices := by
  refine ⟨?_, fun s hs => ?_⟩
  · cases x with
    | insertService =>
      simp only [Write.apply, Write.onServices]
      split_ifs with hknown
      · exact hu
      · refine hu.insert fun b hb he => ?_
        exact hknown (he ▸ ho b hb)
    | reportService | changeService | deleteService | assignService =>
      exact hu.replaceRow rfl
    | removeService => exact hu.filter _
    | _ => exact hu
  · rcases Services.mem_services hs with ⟨rfl, hnew⟩ | hs | ⟨old, hold, hr⟩
    · exact mem_known_iff.mpr (.inr ⟨s, rfl, rfl⟩)
    · exact owners_stay (ho s hs)
    · rw [(x.replaces_same hx hr).1]
      exact owners_stay (ho old hold)

variable {p : ReconcilePayload}

theorem applyAll_tells {topic : Topic} (hx : ∀ x ∈ ws, x.allows) (h : Tells d topic p) : Tells
    (applyAll u ws d) topic p :=
  applyAll_keeps (P := program u) (Q := fun d => Tells d topic p)
    (fun x hmem _ ht => ht.apply (hx x hmem)) h

theorem applyAll_services (hx : ∀ x ∈ ws, x.allows) (h : Inv d w) :
    UniqueKey (·.id) (applyAll u ws d).serviceInstances ∧
      ∀ s ∈ (applyAll u ws d).serviceInstances,
        s.id ∈ (applyAll u ws d).knownServices :=
  applyAll_keeps (P := program u)
    (Q := fun d => UniqueKey (·.id) d.serviceInstances ∧
      ∀ s ∈ d.serviceInstances, s.id ∈ d.knownServices)
    (fun x hmem _ hq => services_apply (hx x hmem) hq.1 hq.2) ⟨h.services, h.owned⟩

/-- What a commit tells is true after it. -/
theorem Told.commit {topic : Topic} (hp : Pending u d w held ws) (hi : Inv d w) (h : Told d ws topic
    p) : Tells (applyAll u ws d) topic p := by
  have hallows : ∀ x ∈ ws, x.allows := fun x hx => (hp.guarded x hx).allowed
  rcases h with h | ⟨s, hs, hid, hreports⟩
  · exact applyAll_tells hallows h
  have hmem := hp.writes_mem hs
  obtain ⟨hu, ho⟩ := applyAll_services (u := u) hallows hi
  refine ⟨hid ▸ ho s hmem, fun s' hs' hid' => ?_⟩
  rw [hu.eq hs' hmem (hid'.trans hid.symm)]
  exact hreports

/-- An event was there before the writes, or they insert it. -/
theorem event_origin {e' : OutboxEventRow} (h : e' ∈ (applyAll u ws d).outboxEvents) :
    ∃ e, (e ∈ d.outboxEvents ∨ .insertEvent e ∈ ws) ∧ e.Same e' := by
  induction ws generalizing d with
  | nil => exact ⟨e', .inl h, .refl e'⟩
  | cons _ _ ih =>
    obtain ⟨e, he, hs⟩ := ih h
    rcases he with he | he
    · rcases mem_events he with rfl | ⟨e₀, he₀, hs₀⟩
      · exact ⟨e, .inr mem_cons_self, hs⟩
      · exact ⟨e₀, .inl he₀, hs₀.trans hs⟩
    · exact ⟨e, .inr (mem_cons_of_mem _ he), hs⟩

/-- A request was there before the writes, or they put it. -/
theorem request_origin {q' : FlashGpuServiceRequestRow}
    (h : q' ∈ (applyAll u ws d).gpuServiceRequests) :
    (∃ q ∈ d.gpuServiceRequests, q'.serviceInstanceId = q.serviceInstanceId) ∨
      ∃ gpuType principal, .putGpuRequest q'.serviceInstanceId gpuType principal ∈ ws := by
  induction ws generalizing d with
  | nil => exact .inl ⟨q', h, rfl⟩
  | cons _ _ ih =>
    rcases ih h with ⟨q, hq, hid⟩ | ⟨gpuType, principal, hx⟩
    · rcases mem_gpuRequests hq with ⟨service, gpuType, principal, rfl, rfl⟩ | ⟨q₀, hq₀, hid₀, _⟩
      · exact .inr ⟨gpuType, principal, hid ▸ mem_cons_self⟩
      · exact .inl ⟨q₀, hq₀, hid.trans hid₀⟩
    · exact .inr ⟨gpuType, principal, mem_cons_of_mem _ hx⟩

theorem applyAll_request {q : FlashGpuServiceRequestRow} (hx : ∀ x ∈ ws, x.allows)
    (h : RequestOk d q) : RequestOk (applyAll u ws d) q :=
  applyAll_keeps (P := program u) (Q := fun d => RequestOk d q)
    (fun x hmem _ hq => hq.apply (hx x hmem)) h

/-- Rows under new ids. -/
theorem unique_applyAll (he : UniqueKey (·.id) d.outboxEvents)
    (hp : UniqueKey (·.id) d.principals) (ht : UniqueKey (·.id) d.workloadAccessTokens)
    (hn : (ws.flatMap Write.makes).Nodup) (hnew : ∀ k ∈ ws.flatMap Write.makes, k ∉ ids d) :
    UniqueKey (·.id) (applyAll u ws d).outboxEvents ∧
      UniqueKey (·.id) (applyAll u ws d).principals ∧
      UniqueKey (·.id) (applyAll u ws d).workloadAccessTokens := by
  induction ws generalizing d with
  | nil => exact ⟨he, hp, ht⟩
  | cons x _ ih =>
    rw [flatMap_cons] at hn hnew
    obtain ⟨_, hrest, hdisj⟩ := nodup_append.mp hn
    have hfresh (k : Nat) (hk : k ∈ x.makes) : k ∉ ids d := hnew k (mem_append_left _ hk)
    have hstep : UniqueKey (·.id) (x.apply d).outboxEvents ∧
        UniqueKey (·.id) (x.apply d).principals ∧
        UniqueKey (·.id) (x.apply d).workloadAccessTokens := by
      cases x with
      | insertEvent e =>
        refine ⟨he.insert fun b hb heq => ?_, hp, ht⟩
        exact hfresh e.id mem_cons_self (Services.mem_ids.mpr (.inl ⟨b, hb, heq⟩))
      | claimEvent | deliverEvent | retryEvent => exact ⟨he.update fun _ => rfl, hp, ht⟩
      | insertToken t =>
        refine ⟨he, hp, ht.insert fun b hb heq => ?_⟩
        exact hfresh t.id mem_cons_self (Services.mem_ids.mpr (.inr (.inl ⟨b, hb, heq⟩)))
      | dropServiceTokens | dropPrincipalTokens | dropExpiredTokens | removeService =>
        exact ⟨he, hp, ht.filter _⟩
      | insertPrincipal p =>
        refine ⟨he, hp.insert fun b hb heq => ?_, ht⟩
        exact hfresh p.id mem_cons_self
          (Services.mem_ids.mpr (.inr (.inr (.inl ⟨b, hb, heq⟩))))
      | setPrincipalEnabled | setPrincipalOwner => exact ⟨he, hp.update fun _ => rfl, ht⟩
      | deletePrincipal => exact ⟨he, hp.filter _, ht.filter _⟩
      | _ => exact ⟨he, hp, ht⟩
    refine ih hstep.1 hstep.2.1 hstep.2.2 hrest fun k hk hin => ?_
    rcases Write.mem_ids hin with hin | hin
    · exact hnew k (mem_append_right _ hk) hin
    · exact hdisj k hin k hk rfl

/-- A service that is ready after a write was ready before it, or the write says so. -/
theorem ready_apply (hx : x.allows)
    (hready : ∀ s status, x = .reportService s .ready status → Confirmed w s.id s.generation)
    (h : ∀ s ∈ d.serviceInstances, s.state = .ready → Confirmed w s.id s.generation) :
    ∀ s ∈ (x.apply d).serviceInstances, s.state = .ready → Confirmed w s.id s.generation := by
  intro s hs hr
  rcases Services.mem_services hs with ⟨rfl, _⟩ | hs | ⟨old, hold, hreplaces⟩
  · have hnew : s.state = .provisioning := hx.2
    rw [hnew] at hr
    cases hr
  · exact h s hs hr
  cases x with
  | reportService o state status =>
    cases hreplaces
    have hstate : state = .ready := hr
    exact hready old status (by rw [hstate])
  | changeService | deleteService => cases hreplaces; cases hr
  | assignService =>
    cases hreplaces
    exact h old hold hr
  | _ => cases hreplaces

/-- **A commit keeps the invariant.** -/
theorem Inv.commit (h : Inv d w) (hk : Known ids d w)
    (hunborn : ∀ x ∈ ws, ∀ n ∈ x.makes, ¬ Born ids w n) (hp : Pending u d w held ws) :
    Inv (applyAll u ws d) w := by
  have hallows : ∀ x ∈ ws, x.allows := fun x hx => (hp.guarded x hx).allowed
  obtain ⟨hservices, howned⟩ := applyAll_services (u := u) hallows h
  have hnew : ∀ k ∈ ws.flatMap Write.makes, k ∉ ids d := by
    intro k hmem hid
    obtain ⟨x, hx, hk'⟩ := mem_flatMap.mp hmem
    exact hunborn x hx k hk' (hk.born hid)
  obtain ⟨hevents, hprincipals, htokens⟩ :=
    unique_applyAll (u := u) h.events h.principals h.tokens hp.distinct hnew
  refine ⟨hservices, howned, hevents, hprincipals, htokens, fun e' he' => ?_, fun q' hq' => ?_, ?_⟩
  · obtain ⟨e, he, hsame⟩ := event_origin he'
    refine EventOk.same hsame ?_
    rcases he with he | he
    · have hok := h.told e he
      exact ⟨hok.aggregate, hok.quota, applyAll_tells hallows hok.tells⟩
    · obtain ⟨haggregate, hquota, htold⟩ := hp.told e he
      exact ⟨haggregate, hquota, htold.commit hp h⟩
  · rcases request_origin hq' with ⟨q, hq, hid⟩ | ⟨gpuType, principal, hx⟩
    · have hok := applyAll_request (u := u) hallows (h.requests q hq)
      exact ⟨hid ▸ hok.known, fun s hs he => hok.provider s hs (he.trans hid)⟩
    obtain ⟨s, hs, hid, hflash⟩ := hp.requests _ _ _ hx
    have hmem := hp.writes_mem hs
    refine ⟨hid ▸ howned s hmem, fun s' hs' he => ?_⟩
    rw [hservices.eq hs' hmem (he.trans hid.symm)]
    exact hflash
  · refine applyAll_keeps (P := program u)
      (Q := fun d => ∀ s ∈ d.serviceInstances, s.state = .ready →
        Confirmed w s.id s.generation) (fun x hx d hq => ?_) h.ready
    refine ready_apply (hallows x hx) (fun s status he => ?_) hq
    exact hp.ready s status (he ▸ hx)

end Commit
end HeteroCloud.Services
