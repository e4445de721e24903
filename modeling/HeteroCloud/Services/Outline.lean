/-
  File:      Services/Outline.lean
  Subject:   THE PROOF OUTLINE of the operations on services: what holds at each point, and that
             others' commits keep it.

  A call that changes a service has locked its row and keeps the row it read (`LockedService`), and
  holds the locks under which the specification was prepared (`ChangeLocked`). A worker holds
  nothing: what it knows of its event (`Claimed`, `Delivering`) stays true because events tell the
  truth whatever is committed (`Tells.apply`).
-/
import HeteroCloud.Services.Invariant

namespace HeteroCloud.Services

open Base Iam List
open Store (ServiceInstanceState StoreError)

/-! ## 1. Assertions -/

variable (d : Db)

/-- The service is locked, and the row is the one that was read. -/
structure LockedService (held : Locks) (s : ServiceRow) : Prop where
  held : (.service s.id, .exclusive) ∈ held
  row : s ∈ d.serviceInstances

variable (ch : Change)

/-- A start or a stop changes `stopped`, and nothing else. -/
structure Switches (s : ServiceRow) (stopped : Bool) : Prop where
  provider : s.provider = .flash
  before : Change.stoppedSpec s.spec = !stopped
  requested : ch.requested = s.spec.setStopped stopped
  project : ch.projectId = s.projectId
  name : ch.name = s.name

/-- The change is one of the service. -/
structure Changes (s : ServiceRow) : Prop where
  id : s.id = ch.id
  organization : s.organizationId = ch.organizationId
  live : s.state ≠ .deleting
  provider : s.provider = ch.requested.provider
  owner : s.quotaUserId = ch.quotaUserId
  /-- Only Flash services move. -/
  project : s.provider = .flash ∨ ch.projectId = s.projectId
  start : ch.kind = .start → Switches ch s false
  stop : ch.kind = .stop → Switches ch s true

variable (u : Setup)

/-- A change under its locks. -/
structure ChangeLocked (d : Db) (held : Locks) (ch : Change) : Prop where
  locks : ∀ l ∈ preparationLocks u ch.organizationId ch.requested.provider, l ∈ held
  kind : ch.existing = none ↔ ch.kind = .create
  row : ∀ s, ch.existing = some s → LockedService d held s ∧ Changes ch s

/-- The specification that will be stored. -/
structure Fitting (spec : ServiceSpec) : Prop where
  provider : spec.provider = ch.requested.provider
  stop : ch.kind = .stop → spec = ch.requested

/-- A change that has written the row. -/
structure Changing (d : Db) (held : Locks) (ch : Change) (spec : ServiceSpec) :
    Prop where
  locked : ChangeLocked u d held ch
  fitting : Fitting ch spec
  held : (.service ch.id, .exclusive) ∈ held
  bound : ch.generation ≤ maxGeneration

/-- The deletion is one of the service. -/
structure Deletes (q : ServiceDeletion) (s : ServiceRow) : Prop where
  id : s.id = q.id
  organization : s.organizationId = q.organizationId
  provider : s.provider = q.provider
  live : s.state ≠ .deleting

/-- What a change of limits writes before its events. -/
def QuotaOp.Writes : QuotaOp → List Write → Prop
  | .updateDefaults limits, ws => ws = [.setQuotaDefaults limits]
  | .setOrganization organization limits, ws =>
      ws = [.setOrganizationQuota organization (some limits)]
  | .clearOrganization organization, ws => ws = [.setOrganizationQuota organization none]
  | .setMember organization user limits, ws => ws = [.setMemberQuota organization user limits]
  | .assign organization _ user _, ws =>
      (∃ s, ws = [.assignService s user] ∧ s.organizationId = organization) ∨
        ∃ p, ws = [.setPrincipalOwner p user]
  | .enableWeekly, ws => ws = [.enableWeeklyQuotas]
  | .createAccount management user, ws => ∃ a p cloud, u.cloudOf management = some cloud ∧
      u.management cloud = management ∧ u.cloudOf a = some cloud ∧
      p.organizationId = a ∧ p.enabled = true ∧
      ws = [.insertAccount a, .insertPrincipal p, .insertMembership a user]
  | .reconcile _, ws => ws = []

/-- The writes of a change of limits so far. -/
def Enqueued (op : QuotaOp) (ws : List Write) : Prop :=
  ∃ (base : List Write) (es : List OutboxEventRow), ws = base ++ es.map .insertEvent ∧
    op.Writes u base

/-- The writes of a catalog so far. -/
def Synced (ws : List Write) : Prop :=
  ∃ (devices : List GpuDeviceRow) (es : List OutboxEventRow),
    ws = .setGpuDevices devices :: es.map .insertEvent

/-- A claimed event: it tells the truth, and it is in the table. -/
structure Claimed (ev : OutboxEventRow) : Prop where
  ok : EventOk d ev
  row : ∃ e ∈ d.outboxEvents, e.id = ev.id ∧ e.topic = ev.topic ∧ e.payload = ev.payload

variable (dl : Delivery)

/-- The service was read at the generation of the event. -/
structure Delivering : Prop where
  claimed : Claimed d dl.event
  id : dl.instanceRow.id = dl.event.payload.serviceInstanceId
  generation : dl.instanceRow.generation = dl.event.payload.generation
  provider : dl.instanceRow.provider = dl.event.payload.provider

/-- The command of the delivery. -/
def Delivery.Carries (command : Command) : Prop :=
  if dl.event.topic = .delete then command = .delete dl.event.payload.generation
  else command.reconciles dl.event.payload.generation

/-- The row is that of the service at the generation. -/
def ReconcilePayload.names (p : ReconcilePayload) (s : ServiceRow) : Prop :=
  s.id = p.serviceInstanceId ∧ s.generation = p.generation

/-- Writes of one statement, committed at once. -/
def Write.plain : Write → Bool
  | .deliverEvent _ _ | .retryEvent _ _ | .insertPrincipal _ | .deletePrincipal _
  | .setSurroundings _ | .deleteSecret _ _ => true
  | _ => false

/-- What holds at each point. -/
def Point (d : Db) (w : View) (r : Running Key Write Call) : Prop :=
  match r.call with
  | .createLock ch => r.pending = [] ∧ ch.existing = none ∧ ch.kind = .create
  | .updateExisting q => r.pending = [] ∧
      (∀ l ∈ preparationLocks u q.organizationId q.spec.provider, l ∈ r.held) ∧
      (q.requestedProject = none ∨ q.spec.provider = .flash)
  | .switchExisting q => r.pending = [] ∧
      ∀ l ∈ preparationLocks u q.organizationId .flash, l ∈ r.held
  | .updateProject ch | .flashAccess ch | .prepare ch =>
      r.pending = [] ∧ ChangeLocked u d r.held ch ∧ ch.kind ≠ .stop
  | .cloudAllocation ch spec | .memberAllocation ch spec | .attach ch spec
  | .writeService ch spec => r.pending = [] ∧ ChangeLocked u d r.held ch ∧ Fitting ch spec
  | .requestUser ch spec | .writeRequest ch spec => r.pending = ch.serviceWrites spec ∧
      Changing u d r.held ch spec ∧ (ch.gpuType spec).isSome = true
  | .changeEvent ch spec => r.pending = ch.serviceWrites spec ++ ch.requestWrites spec ∧
      Changing u d r.held ch spec
  | .changeCommit ch spec => (∃ id now, r.pending =
      ch.serviceWrites spec ++ ch.requestWrites spec ++
        [.insertEvent (newEvent id now .reconcile (ch.payload spec))]) ∧
      Changing u d r.held ch spec
  | .deleteExisting q => r.pending = [] ∧
      ∀ l ∈ lockTenantAllocations u q.organizationId, l ∈ r.held
  | .deleteEvent q s => r.pending = [.deleteService s] ∧ LockedService d r.held s ∧ Deletes q s
  | .deleteCommit q s => (∃ id now, r.pending =
      [.deleteService s, .insertEvent (newEvent id now .delete (q.payload s))]) ∧
      LockedService d r.held s ∧ Deletes q s
  | .observationCommit seen => ∃ s state status, r.pending = [.reportService s state status] ∧
      s.id = seen.id ∧ s.generation = seen.generation
  | .putSecretCommit q _ => r.pending = [.putSecret q.id q.name]
  | .mintInsert m _ => r.pending = [] ∧ (.service m.serviceId, .exclusive) ∈ r.held ∧
      (.principal m.role, .exclusive) ∈ r.held
  | .mintCommit t => ∃ now, r.pending = [.dropExpiredTokens now, .insertToken t]
  | .enabledCommit organization role enabled => r.pending = enabledWrites organization role enabled
  | .quotaWrite op => r.pending = [] ∧ (∀ l ∈ op.locks u, l ∈ r.held) ∧
      op.limits.bind ResourceQuotaLimits.validate = none
  | .enqueueAccounts op _ | .enqueueScan op _ | .quotaCommit op => Enqueued u op r.pending
  | .enqueueEvents op rows _ => Enqueued u op r.pending ∧
      ∀ row ∈ rows, Told d r.pending .flashQuota row.payload
  | .syncUsers _ => r.pending = [] ∧ (.flashAllocation, .exclusive) ∈ r.held
  | .syncDevices _ => r.pending = [] ∧ (.flashAllocation, .exclusive) ∈ r.held ∧
      (.gpuDevices, .exclusive) ∈ r.held
  | .syncScan _ => (∃ devices, r.pending = [.setGpuDevices devices]) ∧
      (.flashAllocation, .exclusive) ∈ r.held
  | .syncEvents _ rows => Synced r.pending ∧ (.flashAllocation, .exclusive) ∈ r.held ∧
      ∀ row ∈ rows, Told d r.pending .reconcile row.payload
  | .syncCommit _ => Synced r.pending ∧ (.flashAllocation, .exclusive) ∈ r.held
  | .claimCommit ev _ => (∃ now, r.pending = [.claimEvent ev.id now]) ∧ Claimed d ev
  | .deliver ev _ | .markDelivered ev | .retry ev _ => r.pending = [] ∧ Claimed d ev
  | .deliverOwner dl | .deliverQuota dl _ | .deliverMember dl _ _ | .deliverMemberLimits dl _ _ _
  | .deliverCloud dl _ _ _ | .deliverAccounts dl _ _ _ _ _ =>
      r.pending = [] ∧ Delivering d dl ∧ dl.event.topic ≠ .delete
  | .send dl command => r.pending = [] ∧ Delivering d dl ∧ dl.Carries command
  | .completeDelete dl => r.pending = [] ∧ Delivering d dl ∧
      Dismissed w dl.event.payload.serviceInstanceId dl.event.payload.generation
  | .completeCommit dl => (r.pending = [] ∨
      ∃ s, r.pending = [.removeService s] ∧ dl.event.payload.names s) ∧ Claimed d dl.event
  | .markService dl state _ => r.pending = [] ∧ Delivering d dl ∧ dl.event.topic ≠ .delete ∧
      state ≠ .deleting ∧ (state = .ready →
        Confirmed w dl.event.payload.serviceInstanceId dl.event.payload.generation)
  | .markCommit dl => (r.pending = [] ∨ ∃ s state status,
      r.pending = [.reportService s state status] ∧ dl.event.payload.names s) ∧ Claimed d dl.event
  | .settle => ∃ x, r.pending = [x] ∧ x.plain = true
  | .done _ => True
  | _ => r.pending = []

/-- The same, and that the writes so far are ready for a commit. -/
def At (d : Db) (w : View) (_ : Nat) (r : Running Key Write Call) : Prop :=
  Pending u d w r.held r.pending ∧ Point u d w r

section Stable
variable {u : Setup} {d : Db} {w w' : View} {held held' others : Locks} {x : Write}
  {ws : List Write} {s : ServiceRow} {ch : Change} {spec : ServiceSpec}

/-! ## 2. Others' commits -/

/-- A write that replaces or removes a service holds its lock. -/
theorem service_needed {old new : ServiceRow} (h : x.replaces = some (old, new)) :
    Key.service old.id ∈ x.needs u := by
  cases x with
  | reportService | changeService | deleteService | assignService =>
    cases h
    exact mem_cons_self
  | _ => cases h

section
variable (hx : Committed (guards u) w others x) (hc : Compatible others held)
include hx hc

theorem LockedService.apply (h : LockedService d held s) : LockedService (x.apply d) held s := by
  have hfree : Key.service s.id ∉ x.needs u := fun hneed =>
    hc.exclusive (hx.needs _ hneed) .exclusive h.held
  refine ⟨h.held, services_stay h.row (fun new hr => hfree (service_needed hr)) ?_⟩
  rintro rfl
  exact hfree mem_cons_self

/-- Nobody else inserts a service whose id is locked. -/
theorem unknown_apply {id : Uuid} (hh : (.service id, .exclusive) ∈ held) (h : id ∉ d.knownServices)
    : id ∉ (x.apply d).knownServices := by
  intro hin
  rcases mem_owners hin with hin | ⟨s', rfl, rfl⟩
  · exact h hin
  · have hneed : Key.service s'.id ∈ (Write.insertService s').needs u := mem_cons_self
    exact hc.exclusive (hx.needs _ hneed) .exclusive hh

variable (hg : ∀ y ∈ ws, Guarded (guards u) held y)
include hg

theorem Writes.apply (h : Writes d ws s) : Writes (x.apply d) ws s := by
  rcases h with ⟨hin, hnew⟩ | ⟨y, hy, old, hold, hr⟩
  · have hheld := (hg _ hin).needs (.service s.id) mem_cons_self
    exact .inl ⟨hin, unknown_apply hx hc hheld hnew⟩
  have hheld := (hg y hy).needs _ (service_needed hr)
  have hlocked : LockedService d held old := ⟨hheld, hold⟩
  exact .inr ⟨y, hy, old, (hlocked.apply hx hc).row, hr⟩

theorem Told.apply {topic : Topic} {p : ReconcilePayload} (h : Told d ws topic p) : Told (x.apply d)
    ws topic p := by
  rcases h with h | ⟨s, hs, hrest⟩
  · exact .inl (h.apply hx.allowed)
  · exact .inr ⟨s, hs.apply hx hc hg, hrest⟩

omit hg

/-- **Writes that are ready for a commit stay ready.** -/
theorem Pending.apply (h : Pending u d w held ws) : Pending u (x.apply d) w held ws where
  guarded := h.guarded
  distinct := h.distinct
  single := h.single
  rows y hy old new hr := by
    have hlocked : LockedService d held old :=
      ⟨(h.guarded y hy).needs _ (service_needed hr), h.rows y hy old new hr⟩
    exact (hlocked.apply hx hc).row
  unknown s hs := by
    have hheld := (h.guarded _ hs).needs (.service s.id) mem_cons_self
    exact unknown_apply hx hc hheld (h.unknown s hs)
  removed s hs := by
    have hlocked : LockedService d held s :=
      ⟨(h.guarded _ hs).needs (.service s.id) mem_cons_self, (h.removed s hs).1⟩
    exact ⟨(hlocked.apply hx hc).row, (h.removed s hs).2⟩
  ready := h.ready
  told e he := by
    obtain ⟨ha, hq, ht⟩ := h.told e he
    exact ⟨ha, hq, ht.apply hx hc h.guarded⟩
  requests service gpuType principal hq := by
    obtain ⟨s, hs, hrest⟩ := h.requests service gpuType principal hq
    exact ⟨s, hs.apply hx hc h.guarded, hrest⟩

theorem ChangeLocked.apply (h : ChangeLocked u d held ch) : ChangeLocked u (x.apply d) held ch :=
  ⟨h.locks, h.kind, fun s hs => ⟨(h.row s hs).1.apply hx hc, (h.row s hs).2⟩⟩

theorem Changing.apply (h : Changing u d held ch spec) : Changing u (x.apply d) held ch spec :=
  ⟨h.locked.apply hx hc, h.fitting, h.held, h.bound⟩

end

theorem Claimed.apply {ev : OutboxEventRow} (hx : x.allows) (h : Claimed d ev) :
    Claimed (x.apply d) ev := by
  obtain ⟨e, he, hid, htopic, hpayload⟩ := h.row
  obtain ⟨e', he', hs⟩ := events_stay (x := x) he
  exact ⟨h.ok.apply hx, e', he', hs.id.trans hid, hs.topic.trans htopic,
    hs.payload.trans hpayload⟩

theorem Delivering.apply {dl : Delivery} (hx : x.allows) (h : Delivering d dl) :
    Delivering (x.apply d) dl :=
  ⟨h.claimed.apply hx, h.id, h.generation, h.provider⟩

variable {r : Running Key Write Call}

/-- **A commit of another call keeps every assertion.** -/
theorem At.apply {i : Nat} (hx : Committed (guards u) w others x) (hc : Compatible others r.held) (h
    : At u d w i r) : At u (x.apply d) w i r := by
  obtain ⟨hp, h⟩ := h
  refine ⟨hp.apply hx hc, ?_⟩
  obtain ⟨call, held, pending, began⟩ := r
  cases call with
  | updateProject | flashAccess | prepare => exact ⟨h.1, h.2.1.apply hx hc, h.2.2⟩
  | cloudAllocation | memberAllocation | attach | writeService =>
    exact ⟨h.1, h.2.1.apply hx hc, h.2.2⟩
  | requestUser | writeRequest => exact ⟨h.1, h.2.1.apply hx hc, h.2.2⟩
  | changeEvent | changeCommit => exact ⟨h.1, h.2.apply hx hc⟩
  | deleteEvent | deleteCommit => exact ⟨h.1, h.2.1.apply hx hc, h.2.2⟩
  | enqueueEvents => exact ⟨h.1, fun row hrow => (h.2 row hrow).apply hx hc hp.guarded⟩
  | syncEvents => exact ⟨h.1, h.2.1, fun row hrow => (h.2.2 row hrow).apply hx hc hp.guarded⟩
  | claimCommit | deliver | markDelivered | retry => exact ⟨h.1, h.2.apply hx.allowed⟩
  | deliverOwner | deliverQuota | deliverMember | deliverMemberLimits | deliverCloud
  | deliverAccounts | send | completeDelete => exact ⟨h.1, h.2.1.apply hx.allowed, h.2.2⟩
  | markService => exact ⟨h.1, h.2.1.apply hx.allowed, h.2.2⟩
  | completeCommit | markCommit => exact ⟨h.1, h.2.apply hx.allowed⟩
  | _ => exact h

/-! ## 3. Later worlds -/

theorem Pending.mono (hw : w.Grows d w') (h : Pending u d w held ws) : Pending u d w' held ws :=
  { h with
    removed := fun s hs => ⟨(h.removed s hs).1, (h.removed s hs).2.mono hw⟩
    ready := fun s status hs => (h.ready s status hs).mono hw }

theorem At.mono {i : Nat} (hw : w.Grows d w') (h : At u d w i r) : At u d w' i r := by
  obtain ⟨hp, h⟩ := h
  refine ⟨hp.mono hw, ?_⟩
  obtain ⟨call, held, pending, began⟩ := r
  cases call with
  | completeDelete => exact ⟨h.1, h.2.1, h.2.2.mono hw⟩
  | markService =>
    obtain ⟨hnone, hdl, htopic, hstate, hready⟩ := h
    exact ⟨hnone, hdl, htopic, hstate, fun hr => (hready hr).mono hw⟩
  | _ => exact h

/-! ## 4. More locks, more writes -/

variable (hs : ∀ l ∈ held, l ∈ held')
include hs

theorem LockedService.more (h : LockedService d held s) : LockedService d held' s :=
  ⟨hs _ h.held, h.row⟩

theorem ChangeLocked.more (h : ChangeLocked u d held ch) : ChangeLocked u d held' ch :=
  ⟨fun l hl => hs l (h.locks l hl), h.kind, fun s he => ⟨(h.row s he).1.more hs, (h.row s he).2⟩⟩

theorem Changing.more (h : Changing u d held ch spec) : Changing u d held' ch spec :=
  ⟨h.locked.more hs, h.fitting, hs _ h.held, h.bound⟩

omit hs
variable {ys : List Write}

theorem Writes.more (h : Writes d ws s) : Writes d (ws ++ ys) s := by
  rcases h with ⟨hin, hnew⟩ | ⟨y, hy, hrest⟩
  · exact .inl ⟨mem_append_left _ hin, hnew⟩
  · exact .inr ⟨y, mem_append_left _ hy, hrest⟩

theorem Told.more {topic : Topic} {p : ReconcilePayload} (h : Told d ws topic p) : Told d (ws ++ ys)
    topic p := by
  rcases h with h | ⟨s, hs, hrest⟩
  · exact .inl h
  · exact .inr ⟨s, hs.more, hrest⟩

/-- No writes. -/
theorem Pending.nothing : Pending u d w held [] where
  guarded _ hx := absurd hx not_mem_nil
  distinct := nodup_nil
  single := Nat.zero_le 1
  rows _ hx := absurd hx not_mem_nil
  unknown _ hs := absurd hs not_mem_nil
  removed _ hs := absurd hs not_mem_nil
  ready _ _ hs := absurd hs not_mem_nil
  told _ he := absurd he not_mem_nil
  requests _ _ _ hq := absurd hq not_mem_nil

include hs

theorem Pending.more (h : Pending u d w held ws) : Pending u d w held' ws :=
  { h with guarded := fun x hx => (h.guarded x hx).more hs }

omit hs

/-- What a write needs besides its guards to be made. -/
structure Sound (d : Db) (w : View) (ws : List Write) (x : Write) : Prop where
  row : ∀ old new, x.replaces = some (old, new) → old ∈ d.serviceInstances
  unknown : ∀ s, x = .insertService s → s.id ∉ d.knownServices
  removed : ∀ s, x = .removeService s → s ∈ d.serviceInstances ∧ Dismissed w s.id s.generation
  ready : ∀ s status, x = .reportService s .ready status → Confirmed w s.id s.generation
  told : ∀ e, x = .insertEvent e → e.aggregateId = e.payload.serviceInstanceId ∧
    (e.topic = .flashQuota → e.payload.provider = .flash) ∧ Told d ws e.topic e.payload
  request : ∀ service gpuType principal, x = .putGpuRequest service gpuType principal →
    ∃ s, Writes d ws s ∧ s.id = service ∧ s.provider = .flash

/-- The write is neither one of a service nor an event or a request. -/
def Write.apart (x : Write) : Bool :=
  !x.touches && match x with
    | .insertEvent _ | .putGpuRequest _ _ _ => false
    | _ => true

theorem Write.apart_touches (h : x.apart = true) : x.touches = false := by
  unfold Write.apart at h
  rw [Bool.and_eq_true, Bool.not_eq_true'] at h
  exact h.1

theorem Sound.apart (h : x.apart = true) : Sound d w ws x := by
  have ht := Write.apart_touches h
  refine ⟨fun old new hr => ?_, ?_, ?_, ?_, ?_, ?_⟩
  · rw [replaces_touches hr] at ht
    cases ht
  · rintro s rfl
    cases ht
  · rintro s rfl
    cases ht
  · rintro s status rfl
    cases ht
  · rintro e rfl
    cases h
  · rintro service gpuType principal rfl
    cases h

/-- **More writes.** -/
theorem Pending.append (h : Pending u d w held ws) (hg : ∀ x ∈ ys, Guarded (guards u) held x) (hd :
    ((ws ++ ys).flatMap Write.makes).Nodup) (ht : (touching (ws ++ ys)).length ≤ 1) (hs : ∀ x ∈ ys,
    Sound d w (ws ++ ys) x) : Pending u d w held (ws ++ ys) where
  guarded x hx := by
    rcases mem_append.mp hx with hx | hx
    · exact h.guarded x hx
    · exact hg x hx
  distinct := hd
  single := ht
  rows x hx old new hr := by
    rcases mem_append.mp hx with hx | hx
    · exact h.rows x hx old new hr
    · exact (hs x hx).row old new hr
  unknown s hx := by
    rcases mem_append.mp hx with hx | hx
    · exact h.unknown s hx
    · exact (hs _ hx).unknown s rfl
  removed s hx := by
    rcases mem_append.mp hx with hx | hx
    · exact h.removed s hx
    · exact (hs _ hx).removed s rfl
  ready s status hx := by
    rcases mem_append.mp hx with hx | hx
    · exact h.ready s status hx
    · exact (hs _ hx).ready s status rfl
  told e hx := by
    rcases mem_append.mp hx with hx | hx
    · obtain ⟨ha, hq, htold⟩ := h.told e hx
      exact ⟨ha, hq, htold.more⟩
    · exact (hs _ hx).told e rfl
  requests service gpuType principal hx := by
    rcases mem_append.mp hx with hx | hx
    · obtain ⟨s, hw, hrest⟩ := h.requests service gpuType principal hx
      exact ⟨s, hw.more, hrest⟩
    · exact (hs _ hx).request service gpuType principal rfl

end Stable
end HeteroCloud.Services
