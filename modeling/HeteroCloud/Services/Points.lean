/-
  File:      Services/Points.lean
  Subject:   THE STATEMENTS of the operations on services under their assertions: each one
             establishes the assertion of the point it leads to, and each commit keeps the
             invariant.

  `exec_leads` is the result; `duties` makes it an outline, and `outline_run` says that the outline
  holds in every state of every run.
-/
import HeteroCloud.Services.Outline

namespace HeteroCloud.Services

open Base Iam List
open Store (ServiceInstanceState StoreError)

section Points
variable {u : Setup} {d : Db} {w : View} {e : Event Db Key Write Call} {uuid : Nat → Nat} {i : Nat}
  {r : Running Key Write Call} {c : Call} {locks held : Locks} {writes ws : List Write}
  {ch : Change} {spec : ServiceSpec} {s : ServiceRow}

/-! ## 1. Shapes of statements -/

/-- The statement keeps the outline. -/
abbrev Leads (u : Setup) := Next (program u) (guards u) Inv (At u)

/-- The world after a statement. -/
abbrev Then (u : Setup) (w : View) (e : Event Db Key Write Call) (uuid : Nat → Nat) : View :=
  w.after e ((program u).drawn uuid)

theorem at_done {result : Result} : At u d w i ⟨.done result, [], [], none⟩ :=
  ⟨.nothing, trivial⟩

theorem leads_abort {error : StoreError} : Leads u d w e uuid i r (abort error) :=
  at_done (i := i)

theorem leads_check {α : Type} {result : Except StoreError α} {next : α → Statement}
    (h : ∀ a, result = .ok a → Leads u d w e uuid i r (next a)) :
    Leads u d w e uuid i r (check result next) := by
  unfold check
  split
  · exact h _ rfl
  · exact leads_abort

theorem view_none (h : r.pending = []) : (program u).view r d = d := by
  unfold Program.view
  rw [h]
  rfl

/-- A write of the statement makes only ids the statement has drawn. -/
def Draws (uuid : Nat → Nat) (ks : List Nat) : Prop := ks.Nodup ∧ ∀ k ∈ ks, ∃ n < 2, k = uuid n

variable {now : Int} {p : ReconcilePayload} {topic : Topic}

section
variable (h : Ready (guards u) Inv d w e uuid i r) (hp : Pending u d w r.held r.pending)
include h hp

/-- Ids drawn now differ from those of the writes before. -/
theorem distinct_append (hd : Draws uuid (writes.flatMap Write.makes)) : ((r.pending ++
    writes).flatMap Write.makes).Nodup := by
  rw [flatMap_append, nodup_append]
  refine ⟨hp.distinct, hd.1, fun a ha b hb he => ?_⟩
  obtain ⟨x, hx, hax⟩ := mem_flatMap.mp ha
  have hissued := (h.own.fresh a _ ((hp.guarded x hx).makes a hax)).1
  obtain ⟨n, _, hn⟩ := hd.2 b hb
  exact h.fresh.2 n (hn ▸ he ▸ hissued)

/-- A statement that writes. -/
theorem leads_stmt (hf : ∀ n m, (.fresh n, m) ∈ locks → ∃ k < 2, n = uuid k) (hg : ∀ x ∈ writes,
    Guarded (guards u) (locks ++ r.held) x) (hd : Draws uuid (writes.flatMap Write.makes)) (ht :
    (touching (r.pending ++ writes)).length ≤ 1) (hs : ∀ x ∈ writes, Sound d (Then u w e uuid)
    (r.pending ++ writes) x) (hA : Point u d (Then u w e uuid) ⟨c, locks ++ r.held, r.pending ++
    writes, some (r.began.getD w.clock)⟩) : Leads u d w e uuid i r (.stmt locks writes c) := by
  refine ⟨fun n m hm => ?_, hg, ?_, hA⟩
  · obtain ⟨k, hk, rfl⟩ := hf n m hm
    exact mem_map_of_mem (mem_range.mpr hk)
  have hmore : Pending u d (Then u w e uuid) (locks ++ r.held) r.pending :=
    (hp.more fun l hl => mem_append_right _ hl).mono (h.known.grows e _)
  exact hmore.append hg (distinct_append h hp hd) ht hs

/-- A statement that only locks. -/
theorem leads_lock (hf : ∀ n m, (.fresh n, m) ∉ locks) (hA : Point u d (Then u w e uuid) ⟨c, locks
    ++ r.held, r.pending, some (r.began.getD w.clock)⟩) : Leads u d w e uuid i r (.stmt locks []
    c) := by
  refine leads_stmt h hp (fun n m hm => absurd hm (hf n m)) (forall_mem_nil _)
    ⟨nodup_nil, forall_mem_nil _⟩ ?_ (forall_mem_nil _) ?_
  · rw [append_nil]
    exact hp.single
  · rwa [append_nil]

/-- A statement that only reads, in a transaction. -/
theorem leads_look (hA : Point u d (Then u w e uuid) ⟨c, r.held, r.pending, some (r.began.getD
    w.clock)⟩) : Leads u d w e uuid i r (.stmt [] [] c) :=
  leads_lock h hp (fun _ _ hm => absurd hm not_mem_nil) hA

/-- A read outside any transaction. -/
theorem leads_read (hA : Point u d (Then u w e uuid) { r with call := c }) : Leads u d w e uuid i r
    (.read c) :=
  ⟨hp.mono (h.known.grows e _), hA⟩

/-- An event is inserted. -/
theorem leads_event (hq : topic = .flashQuota → p.provider = .flash) (ht : Told d r.pending topic p)
    (hA : Point u d (Then u w e uuid) ⟨c, (.fresh (uuid 0), .exclusive) :: r.held, r.pending ++
    [.insertEvent (newEvent (uuid 0) now topic p)], some (r.began.getD w.clock)⟩) : Leads u d w e
    uuid i r (.stmt [(.fresh (uuid 0), .exclusive)] [.insertEvent (newEvent (uuid 0) now topic p)]
    c) := by
  refine leads_stmt h hp ?_ ?_ ?_ ?_ ?_ hA
  · intro n m hm
    refine ⟨0, by decide, ?_⟩
    simpa using (Prod.mk.inj (mem_singleton.mp hm)).1
  · intro y hy
    rw [mem_singleton.mp hy]
    exact ⟨trivial, by simp [guards, Write.needs], by simp [guards, Write.makes, newEvent]⟩
  · exact ⟨nodup_singleton _, fun k hk => ⟨0, by decide, mem_singleton.mp hk⟩⟩
  · have hnone : touching [.insertEvent (newEvent (uuid 0) now topic p)] = [] := rfl
    rw [touching_append, hnone, append_nil]
    exact hp.single
  · intro y hy
    rw [mem_singleton.mp hy]
    refine ⟨by simp [Write.replaces], by simp, by simp, by simp, ?_, by simp⟩
    rintro e' ⟨⟩
    exact ⟨rfl, hq, ht.more⟩

/-- The writes so far may be committed. -/
theorem inv_commit : Inv ((program u).view r d) w :=
  h.inv.commit h.known (fun x hx => (h.own.committed x hx).unborn) hp

theorem leads_commit (hA : ∀ w', Point u ((program u).view r d) w' ⟨c, [], [], none⟩) : Leads u d w
    e uuid i r (.commit c) :=
  fun w' hw _ => ⟨(inv_commit h hp).mono hw.commit, .nothing, hA w'⟩

theorem leads_finish {result : Result} : Leads u d w e uuid i r (.commit (.done result)) :=
  leads_commit h hp fun _ => trivial

end

/-- A call that has written nothing yet executes a statement. -/
structure Idle (u : Setup) (d : Db) (w : View) (e : Event Db Key Write Call) (uuid : Nat → Nat)
    (i : Nat) (r : Running Key Write Call) : Prop where
  ready : Ready (guards u) Inv d w e uuid i r
  none : r.pending = []

section Idle
variable (h : Idle u d w e uuid i r)
include h
variable (hf : ∀ n m, (.fresh n, m) ∈ locks → ∃ k < 2, n = uuid k) (hg : ∀ x ∈ writes, Guarded
  (guards u) (locks ++ r.held) x) (hd : Draws uuid (writes.flatMap Write.makes))
include hf hg hd

theorem Idle.stmt (ht : (touching writes).length ≤ 1) (hs : ∀ x ∈ writes, Sound d (Then u w e uuid)
    writes x) (hA : Point u d (Then u w e uuid) ⟨c, locks ++ r.held, writes, some (r.began.getD
    w.clock)⟩) : Leads u d w e uuid i r (.stmt locks writes c) := by
  have hw : r.pending ++ writes = writes := by rw [h.none, nil_append]
  refine leads_stmt h.ready (h.none ▸ .nothing) hf hg hd ?_ ?_ ?_
  · rwa [hw]
  · rwa [hw]
  · rwa [hw]

/-- Writes apart from services and events. -/
theorem Idle.apart (ha : ∀ x ∈ writes, x.apart = true) (hA : Point u d (Then u w e uuid) ⟨c, locks
    ++ r.held, writes, some (r.began.getD w.clock)⟩) : Leads u d w e uuid i r (.stmt locks writes
    c) := by
  refine h.stmt hf hg hd ?_ (fun x hx => .apart (ha x hx)) hA
  rw [touching_none fun x hx => Write.apart_touches (ha x hx)]
  exact Nat.zero_le 1

omit hd hg hf

theorem Idle.lock (hf : ∀ n m, (.fresh n, m) ∉ locks)
    (hA : Point u d (Then u w e uuid) ⟨c, locks ++ r.held, [], some (r.began.getD w.clock)⟩) :
    Leads u d w e uuid i r (.stmt locks [] c) := by
  refine leads_lock h.ready (h.none ▸ .nothing) hf ?_
  rwa [h.none]

theorem Idle.look
    (hA : Point u d (Then u w e uuid) ⟨c, r.held, [], some (r.began.getD w.clock)⟩) :
    Leads u d w e uuid i r (.stmt [] [] c) :=
  h.lock (fun _ _ hm => absurd hm not_mem_nil) hA

theorem Idle.read (hA : Point u d (Then u w e uuid) ⟨c, r.held, [], r.began⟩) :
    Leads u d w e uuid i r (.read c) := by
  refine leads_read h.ready (h.none ▸ .nothing) ?_
  rwa [h.none]

theorem Idle.finish {result : Result} : Leads u d w e uuid i r (.commit (.done result)) :=
  leads_finish h.ready (h.none ▸ .nothing)

/-- The one write of a service. -/
theorem Idle.service {x : Write} (hf : ∀ n m, (.fresh n, m) ∉ locks)
    (hg : Guarded (guards u) (locks ++ r.held) x) (hm : x.makes = [])
    (hs : Sound d (Then u w e uuid) [x] x)
    (hA : Point u d (Then u w e uuid) ⟨c, locks ++ r.held, [x], some (r.began.getD w.clock)⟩) :
    Leads u d w e uuid i r (.stmt locks [x] c) := by
  refine h.stmt (fun n m hm => absurd hm (hf n m)) ?_ ?_ (length_filter_le _ _) ?_ hA
  · rintro y hy
    rwa [mem_singleton.mp hy]
  · simp [Draws, hm]
  · rintro y hy
    rwa [mem_singleton.mp hy]

end Idle

theorem held_more (held : Locks) : ∀ l ∈ held, l ∈ locks ++ held :=
  fun _ h => mem_append_right _ h

theorem locks_more {wanted : Locks} (h : ∀ l ∈ wanted, l ∈ held) :
    ∀ l ∈ wanted, l ∈ locks ++ held :=
  fun l hl => mem_append_right _ (h l hl)

/-! ## 2. Locks -/

variable {organization : Uuid}

theorem fresh_not_tenant (n : Nat) (m : LockMode) : (.fresh n, m) ∉ lockTenantAllocations u
    organization := by
  simp [lockTenantAllocations, tenantKeys]

variable {provider : Provider}

theorem fresh_not_preparation (n : Nat) (m : LockMode) : (.fresh n, m) ∉ preparationLocks u
    organization provider := by
  have ht : (.fresh n, m) ∉ lockTenantAllocations u organization := fresh_not_tenant n m
  cases provider with
  | other => exact not_mem_nil
  | flash | syouyu | flow | vpc =>
    simp only [preparationLocks, providerKeys, mem_append]
    rintro (h | h)
    · exact ht h
    · simp at h

variable {k : Key}

/-- The keys of an account are locked by `lock_tenant_allocations`. -/
theorem tenant_locked (h : k ∈ tenantKeys u organization) : (k, .exclusive) ∈ lockTenantAllocations
    u organization :=
  mem_cons_of_mem _ (mem_map.mpr ⟨k, h, rfl⟩)

/-- The keys of a specification are locked where it is prepared. -/
theorem scope_locked (h : k ∈ scopeKeys u organization provider) : (k, .exclusive) ∈
    preparationLocks u organization provider := by
  cases provider with
  | other => cases h
  | flash | syouyu | flow | vpc =>
    rcases mem_append.mp h with h | h
    · exact mem_append_left _ (tenant_locked h)
    · exact mem_append_right _ (mem_map.mpr ⟨k, h, rfl⟩)

/-! ## 3. Changes of services -/

variable {n : NewService}
variable (h : Idle u d w e uuid i r)
include h

theorem createExisting_leads : Leads u d w e uuid i r (createExisting d n) := by
  unfold createExisting
  split
  · split_ifs
    · exact leads_abort
    · exact h.finish
  · exact h.look rfl

theorem createOwner_leads : Leads u d w e uuid i r (createOwner d n) := by
  unfold createOwner
  split
  · exact leads_abort
  · exact h.look rfl

variable {owner : Option Uuid}

theorem createMember_leads : Leads u d w e uuid i r (createMember d n owner) := by
  unfold createMember
  split
  · split_ifs
    · exact h.look rfl
    · exact leads_abort
  · split_ifs
    · exact leads_abort
    · exact h.look rfl

theorem createBackup_leads : Leads u d w e uuid i r (createBackup d n owner) := by
  have hlock : Leads u d w e uuid i r (.stmt [] [] (.createLock (n.change owner))) :=
    h.look ⟨rfl, rfl, rfl⟩
  unfold createBackup
  split
  · split_ifs
    · exact hlock
    · exact leads_abort
  · exact hlock

omit h
variable {began : Option Int}

/-- Where the preparation of a specification starts. -/
theorem point_begin (hl : ChangeLocked u d held ch) (hk : ch.kind ≠ .stop) : Point u d w ⟨ch.begin,
    held, [], began⟩ := by
  unfold Change.begin
  split
  · exact ⟨rfl, hl, hk⟩
  · exact ⟨rfl, hl, hk⟩

include h

theorem createLock_leads (hnew : ch.existing = none) (hk : ch.kind = .create) : Leads u d w e uuid i
    r (createLock u ch) := by
  refine h.lock fresh_not_preparation ?_
  refine point_begin ⟨fun l hl => mem_append_left _ hl, ⟨fun _ => hk, fun _ => hnew⟩, ?_⟩ ?_
  · intro s hs
    cases hnew.symm.trans hs
  · rw [hk]
    decide

theorem updateServiceInstance_leads {q : ServiceUpdate} : Leads u d w e uuid i r
    (updateServiceInstance u q) := by
  unfold updateServiceInstance
  split_ifs with hmoves
  · exact h.read trivial
  refine h.lock fresh_not_preparation
    ⟨rfl, fun l hl => mem_append_left _ hl, ?_⟩
  rw [Bool.and_eq_true, bne_iff_ne, Option.isSome_iff_ne_none] at hmoves
  exact Classical.or_iff_not_imp_left.mpr fun hproject =>
    Classical.byContradiction fun hprovider => hmoves ⟨hproject, hprovider⟩

omit h

/-- The row of an account's service of a provider. -/
theorem ownService_some {organization id : Uuid} (h : d.ownService organization id provider = some
    s) : s ∈ d.serviceInstances ∧ s.id = id ∧ s.organizationId = organization ∧ s.provider =
    provider := by
  refine ⟨mem_of_find?_eq_some h, ?_⟩
  have hs := find?_some h
  simpa [and_assoc] using hs

include h

theorem updateExisting_leads {q : ServiceUpdate} (hl : ∀ l ∈ preparationLocks u q.organizationId
    q.spec.provider, l ∈ r.held) (hproject : q.requestedProject = none ∨ q.spec.provider = .flash) :
    Leads u d w e uuid i r (updateExisting d q) := by
  unfold updateExisting
  split
  · exact leads_abort
  rename_i s hs
  obtain ⟨hmem, hid, horg, hprovider⟩ := ownService_some hs
  split_ifs with hgeneration hstate
  · exact leads_abort
  · exact leads_abort
  refine h.lock (by simp) ⟨rfl, ⟨locks_more hl, ?_, ?_⟩, ?_⟩
  · simp [ServiceUpdate.change]
  · rintro s' ⟨⟩
    refine ⟨⟨mem_cons_self, hmem⟩, hid, horg, hstate, hprovider, rfl, ?_, ?_, ?_⟩
    · rcases hproject with hnone | hflash
      · simp [ServiceUpdate.change, hnone]
      · exact .inl (hprovider.trans hflash)
    · simp [ServiceUpdate.change]
    · simp [ServiceUpdate.change]
  · simp [ServiceUpdate.change]

theorem updateProject_leads (hl : ChangeLocked u d r.held ch) (hk : ch.kind ≠ .stop) : Leads u d w e
    uuid i r (updateProject d ch) := by
  unfold updateProject
  split_ifs
  · refine h.look ?_
    exact point_begin hl hk
  · exact leads_abort

omit h

theorem setStopped_provider (stopped : Bool) (spec : ServiceSpec) :
    (spec.setStopped stopped).provider = spec.provider := by
  cases spec <;> rfl

include h

theorem switchExisting_leads {q : FlashSwitch} (hl : ∀ l ∈ preparationLocks u q.organizationId
    .flash, l ∈ r.held) : Leads u d w e uuid i r (switchExisting d q) := by
  unfold switchExisting
  split
  · exact leads_abort
  rename_i s hs
  obtain ⟨hmem, hid, horg, hprovider⟩ := ownService_some hs
  have hsame : (q.change s).requested.provider = .flash :=
    (setStopped_provider _ _).trans hprovider
  split
  · exact leads_abort
  rename_i hstate
  split
  · exact h.finish
  rename_i hswitch
  have hbefore : Change.stoppedSpec s.spec = !q.stopped := by
    cases hb : Change.stoppedSpec s.spec <;> cases hq : q.stopped <;>
      simp_all
  have hlocked : ChangeLocked u d ((.service s.id, .exclusive) :: r.held) (q.change s) := by
    refine ⟨?_, ?_, ?_⟩
    · rw [hsame]
      exact fun l hl' => mem_cons_of_mem _ (hl l hl')
    · cases hq : q.stopped <;> simp [FlashSwitch.change, hq]
    rintro s' ⟨⟩
    refine ⟨⟨mem_cons_self, hmem⟩, hid, horg, hstate, ?_, rfl, .inl hprovider, ?_, ?_⟩
    · exact hprovider.trans hsame.symm
    · intro hk
      have hq : q.stopped = false := by
        by_contra hq
        simp [FlashSwitch.change, hq] at hk
      rw [hq] at hbefore
      exact ⟨hprovider, hbefore, by simp [FlashSwitch.change, hq], rfl, rfl⟩
    · intro hk
      have hq : q.stopped = true := by
        by_contra hq
        simp [FlashSwitch.change, hq] at hk
      rw [hq] at hbefore
      exact ⟨hprovider, hbefore, by simp [FlashSwitch.change, hq], rfl, rfl⟩
  split_ifs with hq
  · refine h.lock (by simp) ⟨rfl, hlocked, ?_⟩
    refine ⟨?_, fun _ => ?_⟩
    · rw [hsame]
      exact (setStopped_provider _ _).trans hprovider
    · simp [FlashSwitch.change, hq]
  · refine h.lock (by simp) ?_
    refine point_begin hlocked ?_
    simp [FlashSwitch.change, hq]

theorem flashAccess_leads (hl : ChangeLocked u d r.held ch) (hk : ch.kind ≠ .stop) : Leads u d w e
    uuid i r (flashAccess u d ch) := by
  have hnext : Leads u d w e uuid i r (.stmt [] [] (.prepare ch)) :=
    h.look ⟨rfl, hl, hk⟩
  unfold flashAccess
  refine leads_check fun _ _ => ?_
  split
  · exact leads_check fun _ _ => hnext
  · exact hnext

omit h

/-- A specification that is prepared stays one of its provider. -/
theorem prepareSpec_provider (h : prepareSpec u d ch = .ok spec) :
    spec.provider = ch.requested.provider := by
  unfold prepareSpec at h
  dsimp only at h
  split at h
  · rename_i s hs
    obtain ⟨_, _, h⟩ := bind_ok h
    obtain ⟨_, _, h⟩ := bind_ok h
    cases h
    rw [hs]
    rfl
  · rename_i s hs
    obtain ⟨_, _, h⟩ := bind_ok h
    obtain ⟨_, _, h⟩ := bind_ok h
    cases h
    rw [hs]
    rfl
  · rename_i s hs
    obtain ⟨_, _, h⟩ := bind_ok h
    obtain ⟨_, _, h⟩ := bind_ok h
    cases h
    rw [hs]
    rfl
  · rename_i s hs
    obtain ⟨_, _, h⟩ := bind_ok h
    cases h
    rw [hs]
    rfl
  · cases h
    rfl

section
variable (hl : ChangeLocked u d r.held ch)
include h hl

theorem prepare_leads (hk : ch.kind ≠ .stop) : Leads u d w e uuid i r (prepare u d ch) := by
  refine leads_check fun spec hspec => h.look ⟨rfl, hl, ?_⟩
  exact ⟨prepareSpec_provider hspec, fun hstop => absurd hstop hk⟩

variable (hf : Fitting ch spec)
include hf

theorem cloudAllocation_leads : Leads u d w e uuid i r (cloudAllocation u d ch spec) :=
  leads_check fun _ _ => h.look ⟨rfl, hl, hf⟩

theorem memberAllocation_leads : Leads u d w e uuid i r (memberAllocation d ch spec) := by
  have hnext : Leads u d w e uuid i r (.stmt [] [] (.attach ch spec)) :=
    h.look ⟨rfl, hl, hf⟩
  unfold memberAllocation
  split
  · exact hnext
  · exact leads_check fun _ _ => hnext

theorem attach_leads : Leads u d w e uuid i r (attach d ch spec) := by
  unfold attach
  split
  · refine leads_check fun _ _ => leads_check fun vpc _ => ?_
    exact h.lock (by simp) ⟨rfl, hl.more (held_more _), hf⟩
  · exact h.look ⟨rfl, hl, hf⟩

end

/-- The writes to the row are under its locks. -/
theorem Changing.service_guarded (h : Changing u d held ch spec) :
    ∀ x ∈ ch.serviceWrites spec, Guarded (guards u) held x := by
  have hscope : ∀ k ∈ scopeKeys u ch.organizationId ch.requested.provider,
      (k, .exclusive) ∈ held := fun k hk => h.locked.locks _ (scope_locked hk)
  unfold Change.serviceWrites
  intro x hx
  split at hx
  · rw [mem_singleton.mp hx]
    refine ⟨⟨rfl, rfl⟩, fun k hk => ?_, by simp [guards, Write.makes]⟩
    rcases mem_cons.mp hk with rfl | hk
    · exact h.held
    refine hscope k ?_
    rw [← h.fitting.provider]
    exact hk
  rename_i old hold
  obtain ⟨hlocked, hch⟩ := h.locked.row old hold
  rcases mem_append.mp hx with hx | hx
  · split_ifs at hx with hdrop
    · rw [mem_singleton.mp hx]
      refine ⟨trivial, forall_mem_singleton.mpr ?_, by simp [guards, Write.makes]⟩
      exact hlocked.held
    · cases hx
  · rw [mem_singleton.mp hx]
    refine ⟨⟨hch.live, h.fitting.provider.trans hch.provider.symm⟩, fun k hk => ?_,
      by simp [guards, Write.makes]⟩
    rcases mem_cons.mp hk with rfl | hk
    · exact hlocked.held
    refine hscope k ?_
    rw [← hch.organization, ← hch.provider]
    exact hk

/-- A Flash service is prepared under the lock of all of them. -/
theorem flash_scope : Key.flashAllocation ∈ scopeKeys u organization .flash :=
  mem_append_right _ mem_cons_self

/-- The request for a GPU type is written under the locks of the service. -/
theorem Changing.request_guarded (h : Changing u d held ch spec) :
    ∀ x ∈ ch.requestWrites spec, Guarded (guards u) held x := by
  have hall {x : Write} (hflash : spec.provider = .flash) (hx : x.allows)
      (hn : x.needs u = [.service ch.id, .flashAllocation]) (hm : x.makes = []) :
      Guarded (guards u) held x := by
    refine ⟨hx, fun k hk => ?_, fun n hn' => ?_⟩
    · rw [show (guards u).needs x = [.service ch.id, .flashAllocation] from hn] at hk
      rcases mem_cons.mp hk with rfl | hk
      · exact h.held
      rw [mem_singleton.mp hk]
      refine h.locked.locks _ (scope_locked ?_)
      rw [← h.fitting.provider, hflash]
      exact flash_scope
    · rw [show (guards u).makes x = [] from hm] at hn'
      cases hn'
  unfold Change.requestWrites
  intro x hx
  split_ifs at hx with hskip
  · cases hx
  simp only [Bool.or_eq_true, bne_iff_ne, ne_eq, not_or, Decidable.not_not] at hskip
  split at hx
  · rw [mem_singleton.mp hx]
    exact hall hskip.2 True.intro rfl rfl
  · rw [mem_singleton.mp hx]
    exact hall hskip.2 True.intro rfl rfl

theorem touching_requestWrites : touching (ch.requestWrites spec) = [] := by
  refine touching_none fun x hx => ?_
  unfold Change.requestWrites at hx
  split_ifs at hx
  · cases hx
  split at hx
  · rw [mem_singleton.mp hx]
    rfl
  · rw [mem_singleton.mp hx]
    rfl

/-- The write to the row itself. -/
def Change.write (ch : Change) (spec : ServiceSpec) : Write :=
  match ch.existing with
  | none => .insertService (ch.row spec)
  | some old => .changeService old ch.projectId ch.name spec

theorem touching_serviceWrites : touching (ch.serviceWrites spec) = [ch.write spec] := by
  unfold Change.serviceWrites Change.write
  cases ch.existing with
  | none => rfl
  | some =>
    dsimp only
    split_ifs <;> rfl

theorem write_mem : ch.write spec ∈ ch.serviceWrites spec := by
  unfold Change.serviceWrites Change.write
  cases ch.existing with
  | none => exact mem_singleton_self _
  | some => exact mem_append_right _ (mem_singleton_self _)

theorem makes_serviceWrites : (ch.serviceWrites spec).flatMap Write.makes = [] := by
  unfold Change.serviceWrites
  split
  · rfl
  · split_ifs <;> rfl

theorem makes_requestWrites : (ch.requestWrites spec).flatMap Write.makes = [] := by
  unfold Change.requestWrites
  split_ifs
  · rfl
  · split <;> rfl

/-- The change writes its result. -/
theorem Changing.writes_result (h : Changing u d held ch spec)
    (hmem : ∀ x ∈ ch.serviceWrites spec, x ∈ ws)
    (hnew : ch.existing = none → ch.id ∉ d.knownServices) :
    Writes d ws (ch.result spec) := by
  have hin : ch.write spec ∈ ws := hmem _ write_mem
  unfold Change.write at hin
  unfold Change.result
  cases hold : ch.existing with
  | none =>
    rw [hold] at hin
    exact .inl ⟨hin, hnew hold⟩
  | some old =>
    rw [hold] at hin
    exact .inr ⟨_, hin, old, (h.locked.row old hold).1.row, rfl⟩

/-- What a change makes of a service. -/
structure Resulting (ch : Change) (spec : ServiceSpec) (s : ServiceRow) : Prop where
  id : s.id = ch.id
  organization : s.organizationId = ch.organizationId
  project : s.projectId = ch.projectId
  configured : s.spec = spec
  live : s.live = true

theorem Changing.result (h : Changing u d held ch spec) : Resulting ch spec (ch.result spec) := by
  unfold Change.result
  cases hex : ch.existing with
  | none => exact ⟨rfl, rfl, rfl, rfl, rfl⟩
  | some old =>
    have hold := (h.locked.row old hex).2
    exact ⟨hold.id, hold.organization, rfl, rfl, rfl⟩

theorem result_provider : (ch.result spec).provider = spec.provider := by
  unfold Change.result
  split <;> rfl

/-- A change leaves a request only for a Flash service. -/
theorem putGpuRequest_mem {service principal : Uuid} {gpuType : String}
    (h : .putGpuRequest service gpuType principal ∈ ch.requestWrites spec) :
    service = ch.id ∧ spec.provider = .flash := by
  unfold Change.requestWrites at h
  split_ifs at h with hskip
  · cases h
  simp only [Bool.or_eq_true, bne_iff_ne, ne_eq, not_or, Decidable.not_not] at hskip
  split at h
  · simp at h
  · cases mem_singleton.mp h
    exact ⟨rfl, hskip.2⟩

/-- The writes to the row are sound. -/
theorem Changing.service_sound (h : Changing u d held ch spec)
    (hnew : ch.existing = none → ch.id ∉ d.knownServices) :
    ∀ x ∈ ch.serviceWrites spec, Sound d w ws x := by
  unfold Change.serviceWrites
  intro x hx
  split at hx
  · rename_i hnone
    rw [mem_singleton.mp hx]
    refine ⟨by simp [Write.replaces], ?_, by simp, by simp, by simp, by simp⟩
    rintro s ⟨⟩
    exact hnew hnone
  rename_i old hold
  rcases mem_append.mp hx with hx | hx
  · split_ifs at hx with hdrop
    · rw [mem_singleton.mp hx]
      exact .apart rfl
    · cases hx
  · rw [mem_singleton.mp hx]
    refine ⟨?_, by simp, by simp, by simp, by simp, by simp⟩
    rintro o new ⟨⟩
    exact (h.locked.row old hold).1.row

/-- So are those of its request. -/
theorem Changing.request_sound (h : Changing u d held ch spec)
    (hmem : ∀ x ∈ ch.serviceWrites spec, x ∈ ws)
    (hnew : ch.existing = none → ch.id ∉ d.knownServices) :
    ∀ x ∈ ch.requestWrites spec, Sound d w ws x := by
  intro x hx
  have ht : x.touches = false := by
    by_contra ht
    have hin : x ∈ touching (ch.requestWrites spec) :=
      mem_touching hx (Bool.not_eq_false _ ▸ ht)
    rw [touching_requestWrites] at hin
    cases hin
  cases x with
  | putGpuRequest =>
    obtain ⟨rfl, hflash⟩ := putGpuRequest_mem hx
    refine ⟨by simp [Write.replaces], by simp, by simp, by simp, by simp, ?_⟩
    rintro _ _ _ ⟨⟩
    exact ⟨ch.result spec, h.writes_result hmem hnew, h.result.id, result_provider.trans hflash⟩
  | insertEvent =>
    unfold Change.requestWrites at hx
    split_ifs at hx
    · cases hx
    split at hx
    · simp at hx
    · simp at hx
  | insertService | reportService | changeService | deleteService | assignService
  | removeService => cases ht
  | _ => exact .apart rfl

theorem writeService_leads (h : Idle u d w e uuid i r)
    (hl : ChangeLocked u d r.held ch) (hf : Fitting ch spec) :
    Leads u d w e uuid i r (writeService d ch spec) := by
  unfold writeService
  dsimp only
  split_ifs with hproject howner hname hbound hgpu
  · exact leads_abort
  · exact leads_abort
  · exact leads_abort
  · exact leads_abort
  all_goals
    generalize hlocks : ([(Key.service ch.id, LockMode.exclusive),
      (Key.serviceName ch.projectId spec.provider ch.name, LockMode.exclusive)] : Locks) = locks
    have hfresh (n : Nat) (m : LockMode) : (Key.fresh n, m) ∉ locks := by
      rw [← hlocks]
      simp
    have hch : Changing u d (locks ++ r.held) ch spec := by
      refine ⟨hl.more (held_more _), hf, ?_, Nat.not_lt.mp hbound⟩
      rw [← hlocks]
      exact mem_cons_self
    have hnew : ch.existing = none → ch.id ∉ d.knownServices := by
      intro hnone hin
      exact howner (by simp [hnone, hin])
  · -- the request for the GPU type follows
    refine h.stmt (fun n m hm => absurd hm (hfresh n m)) ?_ ?_ ?_ ?_ ?_
    · rw [append_nil]
      exact hch.service_guarded
    · rw [append_nil, makes_serviceWrites]
      exact ⟨nodup_nil, forall_mem_nil _⟩
    · rw [append_nil, touching_serviceWrites]
      exact Nat.le_refl 1
    · rw [append_nil]
      exact hch.service_sound hnew
    · rw [append_nil, Change.afterRow, if_pos hgpu]
      exact ⟨rfl, hch, hgpu⟩
  · refine h.stmt (fun n m hm => absurd hm (hfresh n m)) ?_ ?_ ?_ ?_ ?_
    · intro x hx
      rcases mem_append.mp hx with hx | hx
      · exact hch.service_guarded x hx
      · exact hch.request_guarded x hx
    · rw [flatMap_append, makes_serviceWrites, makes_requestWrites]
      exact ⟨nodup_nil, forall_mem_nil _⟩
    · rw [touching_append, touching_serviceWrites, touching_requestWrites]
      exact Nat.le_refl 1
    · intro x hx
      rcases mem_append.mp hx with hx | hx
      · exact hch.service_sound hnew x hx
      · exact hch.request_sound (fun y hy => mem_append_left _ hy) hnew x hx
    · rw [Change.afterRow, if_neg hgpu]
      exact ⟨rfl, hch⟩

/-- A service that is inserted was not known. -/
theorem Pending.new_unknown (hp : Pending u d w held ws)
    (hmem : ∀ x ∈ ch.serviceWrites spec, x ∈ ws) (hnone : ch.existing = none) :
    ch.id ∉ d.knownServices := by
  refine hp.unknown (ch.row spec) (hmem _ ?_)
  unfold Change.serviceWrites
  rw [hnone]
  exact mem_singleton_self _

theorem requestUser_leads (h : Ready (guards u) Inv d w e uuid i r)
    (hP : Pending u d w r.held r.pending) {view : Db} (hp : r.pending = ch.serviceWrites spec)
    (hch : Changing u d r.held ch spec) (hg : (ch.gpuType spec).isSome = true) :
    Leads u d w e uuid i r (requestUser view ch spec) := by
  unfold requestUser
  split
  · exact leads_abort
  · exact leads_look h hP ⟨hp, hch, hg⟩

theorem writeRequest_leads (h : Ready (guards u) Inv d w e uuid i r)
    (hP : Pending u d w r.held r.pending) {view : Db} (hp : r.pending = ch.serviceWrites spec)
    (hch : Changing u d r.held ch spec) :
    Leads u d w e uuid i r (writeRequest view ch spec) := by
  have hmem : ∀ x ∈ ch.serviceWrites spec, x ∈ r.pending ++ ch.requestWrites spec := by
    intro x hx
    rw [hp]
    exact mem_append_left _ hx
  unfold writeRequest
  split_ifs
  · refine leads_stmt h hP (by simp) ?_ ?_ ?_ ?_ ?_
    · exact (hch.more (held_more _)).request_guarded
    · rw [makes_requestWrites]
      exact ⟨nodup_nil, forall_mem_nil _⟩
    · rw [touching_append, touching_requestWrites, append_nil]
      exact hP.single
    · exact hch.request_sound hmem fun hnone =>
        hP.new_unknown (fun x (hx : x ∈ ch.serviceWrites spec) => hp ▸ hx) hnone
    · rw [hp]
      exact ⟨rfl, hch.more (held_more _)⟩
  · exact leads_abort

/-- The event of a change tells of its result. -/
theorem Changing.reports (h : Changing u d held ch spec) :
    Reports .reconcile (ch.payload spec) (ch.result spec) := by
  have hnone : ch.existing = none →
      Reports .reconcile (ch.payload spec) (ch.row spec) := by
    intro hnone
    have hg : ch.generation = 1 := by
      rw [Change.generation, hnone]
      rfl
    refine ⟨rfl, rfl, Nat.le_of_eq hg, fun _ => rfl, fun _ => ?_⟩
    simp [Change.row]
  unfold Change.result
  split
  · rename_i hn
    exact hnone hn
  rename_i old hold
  have hch := (h.locked.row old hold).2
  have hg : ch.generation = old.generation + 1 := by
    rw [Change.generation, hold]
    rfl
  refine ⟨hch.organization.symm, rfl, Nat.le_of_eq hg, fun _ => rfl, fun _ => ?_⟩
  simp [ServiceRow.changed]

theorem changeEvent_leads (h : Ready (guards u) Inv d w e uuid i r) (hP : Pending u d w r.held
    r.pending) (hp : r.pending = ch.serviceWrites spec ++ ch.requestWrites spec) (hch : Changing u d
    r.held ch spec) : Leads u d w e uuid i r (changeEvent now uuid ch spec) := by
  have hmem : ∀ x ∈ ch.serviceWrites spec, x ∈ r.pending := by
    intro x hx
    rw [hp]
    exact mem_append_left _ hx
  refine leads_event h hP (by simp) (.inr ⟨ch.result spec, ?_, hch.result.id, hch.reports⟩)
    ⟨⟨uuid 0, now, by rw [hp]⟩, hch.more fun l hl => mem_cons_of_mem _ hl⟩
  exact hch.writes_result hmem fun hnone => hP.new_unknown hmem hnone

/-! ## 4. Deleting and observing -/

theorem deleteExisting_leads (h : Idle u d w e uuid i r)
    {q : ServiceDeletion} (hl : ∀ l ∈ lockTenantAllocations u q.organizationId, l ∈ r.held) :
    Leads u d w e uuid i r (deleteExisting d q) := by
  unfold deleteExisting
  split
  · exact leads_abort
  split
  · exact leads_abort
  rename_i s hs
  obtain ⟨hmem, hid, horg, hprovider⟩ := ownService_some hs
  split_ifs with hstate hbound
  · exact h.finish
  · exact leads_abort
  refine h.service (by simp) ?_ rfl ?_ ?_
  · refine ⟨hstate, fun k hk => ?_, by simp [guards, Write.makes]⟩
    rcases mem_cons.mp hk with rfl | hk
    · exact mem_cons_self
    refine mem_cons_of_mem _ (hl _ (tenant_locked ?_))
    rw [← horg]
    exact hk
  · refine ⟨?_, by simp, by simp, by simp, by simp, by simp⟩
    rintro old new ⟨⟩
    exact hmem
  · exact ⟨rfl, ⟨mem_cons_self, hmem⟩, hid, horg, hprovider, hstate⟩

theorem deleteEvent_leads (h : Ready (guards u) Inv d w e uuid i r) (hP : Pending u d w r.held
    r.pending) {q : ServiceDeletion} (hp : r.pending = [.deleteService s]) (hl : LockedService d
    r.held s) (hq : Deletes q s) : Leads u d w e uuid i r (deleteEvent now uuid q s) := by
  have hreports : Reports .delete (q.payload s) s.deleted :=
    ⟨hq.organization.symm, hq.provider.symm, Nat.le_refl _, fun _ => rfl,
      fun _ => ⟨fun _ => rfl, fun _ => rfl⟩⟩
  refine leads_event h hP (by simp) (.inr ⟨s.deleted, ?_, hq.id, hreports⟩)
    ⟨⟨uuid 0, now, by rw [hp]; rfl⟩, hl.more fun l hl => mem_cons_of_mem _ hl, hq⟩
  rw [hp]
  exact .inr ⟨_, mem_singleton_self _, s, hl.row, rfl⟩

theorem observedState_live (status : Json) : observedState status ≠ .deleting := by
  unfold observedState
  split <;> simp

theorem live_iff : s.live = true ↔ s.state ≠ .deleting := by
  simp [ServiceRow.live]

theorem recordFlashObservation_leads (h : Idle u d w e uuid i r) {seen : ServiceRow} {status : Json}
    (hc : r.call = .recordFlashObservation seen status) :
    Leads u d w e uuid i r (recordFlashObservation d seen status) := by
  unfold recordFlashObservation
  split
  · exact h.read trivial
  rename_i hseen
  rw [Decidable.not_not] at hseen
  split
  · exact at_done (i := i)
  rename_i s hs
  have hmem := mem_of_find?_eq_some hs
  have hfound := find?_some hs
  simp only [Bool.and_eq_true, beq_iff_eq, live_iff] at hfound
  obtain ⟨⟨⟨⟨hid, _⟩, hgeneration⟩, _⟩, hlive⟩ := hfound
  refine h.service (by simp) ?_ rfl ?_ ?_
  · refine ⟨⟨hlive, observedState_live status⟩, forall_mem_singleton.mpr ?_, by simp [guards, Write.makes]⟩
    exact mem_cons_self
  · refine ⟨?_, by simp, by simp, ?_, by simp, by simp⟩
    · rintro old new ⟨⟩
      exact hmem
    intro s' status' he
    injection he with hs'
    subst hs'
    refine ⟨e, mem_cons_self, .inr ⟨i, seen, status, hc ▸ h.ready.executes, hid.symm, ?_⟩⟩
    rw [hgeneration]
    exact hseen
  · exact ⟨s, _, _, rfl, hid, hgeneration⟩

/-! ## 5. Tokens and principals -/

theorem draws_nil : Draws uuid [] :=
  ⟨nodup_nil, forall_mem_nil _⟩

include h
variable {m : WorkloadTokenMint}

theorem mintWorkloadToken_leads : Leads u d w e uuid i r (mintWorkloadToken d m) := by
  unfold mintWorkloadToken
  split
  · exact leads_abort
  · exact h.lock (by simp)
      ⟨rfl, mem_cons_self, mem_cons_of_mem _ mem_cons_self⟩

theorem mintInsert_leads (hs : (.service m.serviceId, .exclusive) ∈ r.held) (hr : (.principal
    m.role, .exclusive) ∈ r.held) : Leads u d w e uuid i r (mintInsert d now uuid m
    organization) := by
  unfold mintInsert
  dsimp only
  split_ifs
  · exact leads_abort
  · exact leads_abort
  refine h.apart ?_ ?_ ?_ ?_ ?_
  · intro n m' hm
    refine ⟨0, by decide, ?_⟩
    simpa using (Prod.mk.inj (mem_singleton.mp hm)).1
  · simp only [forall_mem_cons, not_mem_nil, false_implies, implies_true, and_true]
    refine ⟨⟨trivial, by simp [guards, Write.needs], by simp [guards, Write.makes]⟩,
      trivial, ?_, ?_⟩
    · simp [guards, Write.needs, WorkloadTokenMint.token, hs, hr]
    · simp [guards, Write.makes, WorkloadTokenMint.token]
  · exact ⟨nodup_singleton _, fun k hk => ⟨0, by decide, mem_singleton.mp hk⟩⟩
  · simp [Write.apart, Write.touches]
  · exact ⟨now, rfl⟩

theorem setServiceAccountEnabled_leads {organization role : Uuid} {enabled : Bool} : Leads u d w e
    uuid i r (setServiceAccountEnabled d organization role enabled) := by
  unfold setServiceAccountEnabled
  split_ifs
  · refine h.apart (by simp) ?_ ?_ ?_ ?_
    · intro x hx
      have hone : x.needs u = [.principal role] ∧ x.makes = [] ∧ x.allows := by
        unfold enabledWrites at hx
        rcases mem_cons.mp hx with rfl | hx
        · exact ⟨rfl, rfl, True.intro⟩
        split_ifs at hx
        · cases hx
        · rw [mem_singleton.mp hx]
          exact ⟨rfl, rfl, True.intro⟩
      refine ⟨hone.2.2, fun k hk => ?_, fun n hn => ?_⟩
      · rw [show (guards u).needs x = [.principal role] from hone.1] at hk
        rw [mem_singleton.mp hk]
        exact mem_cons_self
      · rw [show (guards u).makes x = [] from hone.2.1] at hn
        cases hn
    · have hmakes : (enabledWrites organization role enabled).flatMap Write.makes = [] := by
        unfold enabledWrites
        split_ifs <;> rfl
      rw [hmakes]
      exact ⟨nodup_nil, fun _ hk => absurd hk not_mem_nil⟩
    · intro x hx
      unfold enabledWrites at hx
      rcases mem_cons.mp hx with rfl | hx
      · rfl
      split_ifs at hx
      · cases hx
      · rw [mem_singleton.mp hx]
        rfl
    · exact rfl
  · exact leads_abort

/-- One write apart from services, committed next. -/
theorem Idle.settle {x : Write} (hf : ∀ n m, (.fresh n, m) ∈ locks → ∃ k < 2, n = uuid k) (hg :
    Guarded (guards u) (locks ++ r.held) x) (hd : Draws uuid x.makes) (ha : x.apart = true) (hplain
    : x.plain = true) : Leads u d w e uuid i r (.stmt locks [x] .settle) := by
  refine h.apart hf ?_ ?_ ?_ ?_
  · intro y hy
    rwa [mem_singleton.mp hy]
  · rwa [flatMap_cons, flatMap_nil, append_nil]
  · intro y hy
    rwa [mem_singleton.mp hy]
  · exact ⟨x, rfl, hplain⟩

theorem deleteIamRole_leads {account role : Uuid} {detached : Bool} : Leads u d w e uuid i r
    (deleteIamRole d account role detached) := by
  unfold deleteIamRole
  split
  · exact leads_abort
  split_ifs
  · exact leads_abort
  · refine h.settle (by simp) ⟨trivial, ?_, by simp [guards, Write.makes]⟩ draws_nil
      rfl rfl
    simp [guards, Write.needs]
  · exact leads_abort

theorem addPrincipal_leads {p : PrincipalRow} : Leads u d w e uuid i r (.stmt [(.fresh (uuid 0),
    .exclusive)] [.insertPrincipal { p with id := uuid 0 }] .settle) := by
  refine h.settle ?_ ⟨trivial, by simp [guards, Write.needs],
    by simp [guards, Write.makes]⟩ ?_ rfl rfl
  · intro n m hm
    refine ⟨0, by decide, ?_⟩
    simpa using (Prod.mk.inj (mem_singleton.mp hm)).1
  · exact ⟨nodup_singleton _, fun k hk => ⟨0, by decide, mem_singleton.mp hk⟩⟩

/-! ## 6. Limits -/

variable {op : QuotaOp}

theorem quota_leads : Leads u d w e uuid i r (quota u op) := by
  unfold quota
  split
  · exact h.read trivial
  rename_i hvalid
  refine h.lock ?_ ⟨rfl, fun l hl => mem_append_left _ hl, hvalid⟩
  intro n m
  cases op with
  | updateDefaults => simp [QuotaOp.locks]
  | enableWeekly | createAccount | reconcile => exact not_mem_nil
  | _ => exact fresh_not_tenant n m

/-- A change of limits writes under its locks. -/
theorem Idle.limits {x : Write} (hf : ∀ n m, (.fresh n, m) ∉ locks) (hg : Guarded (guards u) (locks
    ++ r.held) x) (hm : x.makes = []) (ha : x.apart = true) (hA : Enqueued u op [x] → Point u d
    (Then u w e uuid) ⟨c, locks ++ r.held, [x], some (r.began.getD w.clock)⟩) (hx : op.Writes u [x])
    : Leads u d w e uuid i r (.stmt locks [x] c) := by
  refine h.apart (fun n m hm => absurd hm (hf n m)) ?_ ?_ ?_ ?_
  · intro y hy
    rwa [mem_singleton.mp hy]
  · rw [flatMap_cons, hm]
    exact draws_nil
  · intro y hy
    rwa [mem_singleton.mp hy]
  · exact hA ⟨[x], [], rfl, hx⟩

omit h

/-- The locks of an account, held. -/
theorem tenant_held (hl : ∀ l ∈ lockTenantAllocations u organization, l ∈ held) (hk : k ∈ tenantKeys
    u organization) : (k, .exclusive) ∈ held :=
  hl _ (tenant_locked hk)

theorem setMemberQuota_leads (h : Idle u d w e uuid i r)
    {organization user : Uuid} {limits : Option ResourceQuotaLimits}
    (hl : ∀ l ∈ lockTenantAllocations u organization, l ∈ r.held) :
    Leads u d w e uuid i r
      (setMemberQuota d (.setMember organization user limits) organization user limits) := by
  have hset (hvalid : ∀ l, limits = some l → l.validate = none) :
      Leads u d w e uuid i r (.stmt [] [.setMemberQuota organization user limits]
        (.enqueueScan (.setMember organization user limits) [some organization])) :=
    h.limits (fun _ _ => not_mem_nil)
      ⟨hvalid, fun k hk => tenant_held hl hk, by simp [guards, Write.makes]⟩ rfl rfl
      (fun hA => hA) rfl
  unfold setMemberQuota
  refine leads_check fun organizationLimits _ => ?_
  split
  · exact leads_abort
  split
  · exact hset (by simp)
  rename_i own
  refine leads_check fun parsed hparsed => ?_
  obtain ⟨rfl, hvalid⟩ := parseResourceQuota_ok hparsed
  split
  · exact leads_abort
  split
  · exact leads_abort
  split
  · exact leads_abort
  split
  · exact leads_abort
  refine hset ?_
  rintro l ⟨⟩
  exact hvalid

theorem unassigned_live (h : s.unassigned = true) :
    s.state ≠ .deleting ∧ s.quotaUserId = none := by
  simp only [ServiceRow.unassigned, Bool.and_eq_true, live_iff, Option.isNone_iff_eq_none] at h
  exact ⟨h.1.2, h.1.1⟩

include h

theorem assignQuotaResource_leads {organization resource user : Uuid} {serviceAccount : Bool} (hl :
    ∀ l ∈ lockTenantAllocations u organization, l ∈ r.held) : Leads u d w e uuid i r
    (assignQuotaResource d (.assign organization resource user serviceAccount) organization resource
    user serviceAccount) := by
  unfold assignQuotaResource
  split
  · exact leads_abort
  split
  · split
    · exact leads_abort
    rename_i p hfound
    refine h.limits (by simp) ⟨trivial, ?_, by simp [guards, Write.makes]⟩ rfl rfl
      (fun hA => hA) (.inr ⟨p.id, rfl⟩)
    intro k hk
    rw [mem_singleton.mp hk]
    exact mem_cons_self
  split
  · exact leads_abort
  rename_i s hs
  have hmem := mem_of_find?_eq_some hs
  have hfound := find?_some hs
  simp only [Bool.and_eq_true, beq_iff_eq] at hfound
  obtain ⟨⟨_, horg⟩, hun⟩ := hfound
  obtain ⟨hlive, hnone⟩ := unassigned_live hun
  refine h.service (by simp) ⟨⟨hlive, hnone⟩, fun k hk => ?_,
    by simp [guards, Write.makes]⟩ rfl ⟨?_, by simp, by simp, by simp, by simp, by simp⟩
    ⟨[_], [], rfl, .inl ⟨s, rfl, horg⟩⟩
  · rcases mem_cons.mp hk with rfl | hk
    · exact mem_cons_self
    · exact mem_cons_of_mem _ (tenant_held hl (horg ▸ hk))
  · rintro old new ⟨⟩
    exact hmem

theorem createCloudMemberAccount_leads {management user : Uuid} : Leads u d w e uuid i r
    (createCloudMemberAccount u d uuid (.createAccount management user) management user) := by
  unfold createCloudMemberAccount
  split
  · exact leads_abort
  rename_i cloud hcloud
  split_ifs with hmanages hfits
  · exact leads_abort
  · exact leads_abort
  rw [not_or, Decidable.not_not] at hmanages
  rw [Decidable.not_not] at hfits
  have hne : uuid 0 ≠ uuid 1 := fun he => absurd (h.ready.fresh.1 he) (by decide)
  refine h.apart ?_ ?_ ?_ ?_ ?_
  · intro n m hm
    simp only [mem_cons, Prod.mk.injEq, reduceCtorEq, false_and, Key.fresh.injEq,
      not_mem_nil, or_false, false_or] at hm
    rcases hm with ⟨rfl, _⟩ | ⟨rfl, _⟩
    · exact ⟨0, by decide, rfl⟩
    · exact ⟨1, by decide, rfl⟩
  · simp only [forall_mem_cons, not_mem_nil, false_implies, implies_true, and_true]
    refine ⟨⟨trivial, ?_, ?_⟩, ⟨trivial, ?_, ?_⟩, ⟨trivial, ?_, ?_⟩⟩ <;>
      simp [guards, Write.needs, Write.makes]
  · refine ⟨?_, ?_⟩
    · simp [Write.makes, hne]
    intro k hk
    simp only [flatMap_cons, Write.makes, flatMap_nil, append_nil,
      mem_append, mem_singleton] at hk
    rcases hk with rfl | rfl
    · exact ⟨0, by decide, rfl⟩
    · exact ⟨1, by decide, rfl⟩
  · simp [Write.apart, Write.touches]
  · exact ⟨_, [], rfl, uuid 0, _, cloud, hcloud, hmanages.1, hfits, rfl, rfl, rfl⟩

theorem quotaWrite_leads (hl : ∀ l ∈ op.locks u, l ∈ r.held) (hv : op.limits.bind
    ResourceQuotaLimits.validate = none) : Leads u d w e uuid i r (quotaWrite u d uuid op) := by
  cases op with
  | updateDefaults =>
    refine h.limits (fun _ _ => not_mem_nil) ⟨hv, forall_mem_singleton.mpr ?_,
      by simp [guards, Write.makes]⟩ rfl rfl (fun hA => hA) rfl
    exact hl _ mem_cons_self
  | setOrganization =>
    simp only [quotaWrite]
    split_ifs
    · refine h.limits (fun _ _ => not_mem_nil) ⟨?_, fun k hk => tenant_held hl hk,
        by simp [guards, Write.makes]⟩ rfl rfl (fun hA => hA) rfl
      rintro l ⟨⟩
      exact hv
    · exact leads_abort
  | clearOrganization =>
    simp only [quotaWrite]
    split_ifs
    · refine leads_check fun _ _ => h.limits (fun _ _ => not_mem_nil)
        ⟨?_, fun k hk => tenant_held hl hk, by simp [guards, Write.makes]⟩ rfl rfl
        (fun hA => hA) rfl
      simp [guards, Write.allows]
    · exact leads_abort
  | setMember => exact setMemberQuota_leads h hl
  | assign => exact assignQuotaResource_leads h hl
  | enableWeekly =>
    refine h.limits (by simp) ⟨trivial, forall_mem_singleton.mpr ?_,
      by simp [guards, Write.makes]⟩ rfl rfl (fun hA => hA) rfl
    exact mem_cons_self
  | createAccount => exact createCloudMemberAccount_leads h
  | reconcile =>
    refine h.look ?_
    exact ⟨[], [], rfl, rfl⟩

omit h
variable {principalId : Uuid}

/-- A row of a service that is not in deletion. -/
theorem reports_row (hflash : s.provider = .flash) (hlive : s.state ≠ .deleting) (ht : topic ≠
    .delete) : Reports topic (s.reconcileRow principalId).payload s :=
  ⟨rfl, hflash.symm, Nat.le_refl _, fun _ => rfl,
    fun _ => ⟨fun hs => absurd hs hlive, fun he => absurd he ht⟩⟩

/-- A service that a transaction sees is told truly. -/
theorem told_view (hi : Inv d w) (hP : Pending u d w held ws) (hs : s ∈ (applyAll u ws
    d).serviceInstances) (hflash : s.provider = .flash) (hlive : s.state ≠ .deleting) (ht : topic ≠
    .delete) : Told d ws topic (s.reconcileRow principalId).payload := by
  have hreports : Reports topic (s.reconcileRow principalId).payload s :=
    reports_row hflash hlive ht
  rcases hP.mem_services hs with hmem | hwrites
  · refine .inl ⟨hi.owned s hmem, fun s' hs' hid => ?_⟩
    rw [hi.services.eq hs' hmem hid]
    exact hreports
  · exact .inr ⟨s, hwrites, rfl, hreports⟩

variable {scope : Option Uuid} {row : ReconcileRow}

/-- The rows of a refresh come from services. -/
theorem mem_quotaReconcileRows (h : row ∈ d.quotaReconcileRows scope) : ∃ s ∈ d.serviceInstances,
    s.inScope scope = true ∧ ∃ p, d.quotaPrincipal s = some p ∧ row = s.reconcileRow p := by
  obtain ⟨s, hs, hrow⟩ := mem_filterMap.mp h
  obtain ⟨hmem, hscope⟩ := mem_filter.mp ((orderBy_perm _ _).mem_iff.mp hs)
  obtain ⟨p, hp, he⟩ := Option.map_eq_some_iff.mp hrow
  exact ⟨s, hmem, hscope, p, hp, he.symm⟩

theorem inScope_flash (h : s.inScope scope = true) : s.provider = .flash ∧ s.state ≠ .deleting := by
  simp only [ServiceRow.inScope, Bool.and_eq_true, beq_iff_eq, live_iff] at h
  exact h.1

variable {scopes : List (Option Uuid)}

theorem enqueueScan_leads (h : Ready (guards u) Inv d w e uuid i r) (hP : Pending u d w r.held
    r.pending) (hE : Enqueued u op r.pending) : Leads u d w e uuid i r (enqueueScan ((program
    u).view r d) op scopes) := by
  cases scopes with
  | nil => exact leads_look h hP hE
  | cons =>
    refine leads_look h hP ⟨hE, fun row hrow => ?_⟩
    obtain ⟨s, hs, hscope, p, _, rfl⟩ := mem_quotaReconcileRows hrow
    obtain ⟨hflash, hlive⟩ := inScope_flash hscope
    exact told_view h.inv hP hs hflash hlive (by decide)

theorem Enqueued.event (h : Enqueued u op ws) (ev : OutboxEventRow) : Enqueued u op (ws ++
    [.insertEvent ev]) := by
  obtain ⟨base, es, rfl, hbase⟩ := h
  exact ⟨base, es ++ [ev], by simp, hbase⟩

variable {rows : List ReconcileRow}

theorem enqueueEvents_leads (h : Ready (guards u) Inv d w e uuid i r) (hP : Pending u d w r.held
    r.pending) (hE : Enqueued u op r.pending) (hrows : ∀ row ∈ rows, Told d r.pending .flashQuota
    row.payload) : Leads u d w e uuid i r (enqueueEvents now uuid op scopes rows) := by
  cases rows with
  | nil => exact leads_look h hP hE
  | cons row =>
    exact leads_event h hP (fun _ => rfl) (hrows row mem_cons_self)
      ⟨hE.event _, fun row' hrow' => (hrows row' (mem_cons_of_mem _ hrow')).more⟩

/-! ## 7. The GPU catalog -/

variable {devices : List GpuDeviceRow}
include h

theorem syncGpuCatalog_leads : Leads u d w e uuid i r (syncGpuCatalog devices) := by
  have hread {result : Result} : Leads u d w e uuid i r (.read (.done result)) :=
    h.read trivial
  unfold syncGpuCatalog
  split_ifs
  · exact hread
  · exact hread
  · exact hread
  · exact h.lock (by simp) ⟨rfl, mem_cons_self⟩

theorem syncDevices_leads (hf : (.flashAllocation, .exclusive) ∈ r.held) (hg : (.gpuDevices,
    .exclusive) ∈ r.held) : Leads u d w e uuid i r (syncDevices d devices) := by
  refine leads_check fun _ _ => h.apart (by simp) ?_ draws_nil ?_ ?_
  · intro x hx
    rw [mem_singleton.mp hx]
    refine ⟨trivial, ?_, by simp [guards, Write.makes]⟩
    simp [guards, Write.needs, hf, hg]
  · intro x hx
    rw [mem_singleton.mp hx]
    rfl
  · exact ⟨⟨devices, rfl⟩, hf⟩

omit h
variable {gpuTypes : List String}

/-- The rows of a catalog come from services that requested a GPU type. -/
theorem mem_gpuReconcileRows (h : row ∈ d.gpuReconcileRows gpuTypes) : ∃ s ∈ d.serviceInstances,
    s.live = true ∧ ∃ q ∈ d.gpuServiceRequests, q.serviceInstanceId = s.id ∧ q.gpuType ∈ gpuTypes ∧
    ∃ p, d.gpuRequester q s = some p ∧ row = s.reconcileRow p := by
  obtain ⟨s, hs, hrow⟩ := mem_flatMap.mp h
  obtain ⟨hmem, hlive⟩ := mem_filter.mp ((orderBy_perm _ _).mem_iff.mp hs)
  obtain ⟨q, hq, hrow⟩ := mem_filterMap.mp hrow
  obtain ⟨hqmem, hqs⟩ := mem_filter.mp hq
  simp only [Bool.and_eq_true, beq_iff_eq, contains_iff_mem] at hqs
  obtain ⟨p, hp, he⟩ := Option.map_eq_some_iff.mp hrow
  exact ⟨s, hmem, hlive, q, hqmem, hqs.1, hqs.2, p, hp, he.symm⟩

theorem syncScan_leads (h : Ready (guards u) Inv d w e uuid i r) (hP : Pending u d w r.held
    r.pending) (hp : r.pending = [.setGpuDevices devices]) (hf : (.flashAllocation, .exclusive) ∈
    r.held) : Leads u d w e uuid i r (syncScan ((program u).view r d) gpuTypes) := by
  refine leads_look h hP ⟨⟨devices, [], hp⟩, hf, fun row hrow => ?_⟩
  obtain ⟨s, hs, hlive, q, hq, hid, _, p, _, rfl⟩ := mem_gpuReconcileRows hrow
  have hview : (program u).view r d = (Write.setGpuDevices devices).apply d := by
    unfold Program.view
    rw [hp]
    rfl
  rw [hview] at hs hq
  have hflash : s.provider = .flash := (h.inv.requests q hq).provider s hs hid.symm
  refine told_view h.inv hP ?_ hflash (live_iff.mp hlive) (by decide)
  rw [hp]
  exact hs

theorem Synced.event (h : Synced ws) (ev : OutboxEventRow) : Synced (ws ++ [.insertEvent ev]) := by
  obtain ⟨devices, es, rfl⟩ := h
  exact ⟨devices, es ++ [ev], by simp⟩

theorem syncEvents_leads (h : Ready (guards u) Inv d w e uuid i r) (hP : Pending u d w r.held
    r.pending) (hS : Synced r.pending) (hf : (.flashAllocation, .exclusive) ∈ r.held) (hrows : ∀ row
    ∈ rows, Told d r.pending .reconcile row.payload) : Leads u d w e uuid i r (syncEvents now uuid
    gpuTypes rows) := by
  cases rows with
  | nil => exact leads_look h hP ⟨hS, hf⟩
  | cons row =>
    exact leads_event h hP (by simp) (hrows row mem_cons_self)
      ⟨hS.event _, mem_cons_of_mem _ hf,
        fun row' hrow' => (hrows row' (mem_cons_of_mem _ hrow')).more⟩

/-! ## 8. The worker -/

variable {x : Exchange}

theorem claimOutboxEvent_leads (h : Idle u d w e uuid i r) {pick : Uuid} : Leads u d w e uuid i r
    (claimOutboxEvent d now pick x) := by
  unfold claimOutboxEvent
  split
  · exact at_done (i := i)
  rename_i ev hev
  have hmem := mem_of_find?_eq_some hev
  have hok := h.ready.inv.told ev hmem
  refine h.apart (by simp) ?_ draws_nil ?_ ?_
  · intro y hy
    rw [mem_singleton.mp hy]
    refine ⟨trivial, forall_mem_singleton.mpr ?_, by simp [guards, Write.makes]⟩
    exact mem_cons_self
  · intro y hy
    rw [mem_singleton.mp hy]
    rfl
  · exact ⟨⟨now, rfl⟩, ⟨hok.aggregate, hok.quota, hok.tells⟩, ev, hmem, rfl, rfl, rfl⟩

variable {ev : OutboxEventRow}

theorem claimed_applyAll (hx : ∀ x ∈ ws, x.allows) (h : Claimed d ev) : Claimed (applyAll u ws d)
    ev :=
  applyAll_keeps (P := program u) (Q := fun d => Claimed d ev)
    (fun x hmem _ hq => hq.apply (hx x hmem)) h

theorem Pending.allows (hP : Pending u d w held ws) : ∀ x ∈ ws, x.allows :=
  fun x hx => (hP.guarded x hx).allowed

/-- The row found under an id. -/
theorem service_some {id : Uuid} (h : d.service id = some s) :
    s ∈ d.serviceInstances ∧ s.id = id :=
  find?_key h

theorem matchesPayload_iff : matchesPayload s p = true ↔ s.generation = p.generation ∧
    s.organizationId = p.organizationId ∧ s.projectId = p.projectId ∧ s.provider = p.provider := by
  simp [matchesPayload, and_assoc]

include h

theorem deliver_leads (hc : Claimed d ev) : Leads u d w e uuid i r (.read (deliver u d ev x)) := by
  refine h.read ?_
  unfold deliver
  split
  · exact ⟨rfl, hc⟩
  split
  · exact ⟨rfl, hc⟩
  split
  · split
    · exact ⟨rfl, hc⟩
    · exact ⟨rfl, hc⟩
  rename_i s hs
  obtain ⟨_, hid⟩ := service_some hs
  split
  · exact ⟨rfl, hc⟩
  rename_i hmatch
  rw [Bool.not_eq_true', Bool.not_eq_false] at hmatch
  obtain ⟨hgeneration, _, _, hprovider⟩ := matchesPayload_iff.mp hmatch
  have hdl : Delivering d ⟨ev, x, s⟩ := ⟨hc, hid, hgeneration, hprovider⟩
  split_ifs with htopic hflash
  · refine ⟨rfl, hdl, ?_⟩
    rw [Delivery.Carries, if_pos htopic, hgeneration]
  · exact ⟨rfl, hdl, htopic⟩
  refine ⟨rfl, hdl, ?_⟩
  rw [Delivery.Carries, if_neg htopic]
  exact hgeneration

variable {dl : Delivery}
variable (hd : Delivering d dl)
include hd

/-- A read in the course of a delivery. -/
theorem Idle.fetched {α : Type} {result : Except StoreError α} {next : α → Call} (hA : ∀ a, result =
    .ok a → Leads u d w e uuid i r (.read (next a))) : Leads u d w e uuid i r (.read (fetch dl
    result next)) := by
  unfold fetch
  split
  · exact hA _ rfl
  · exact h.read ⟨rfl, hd.claimed⟩

theorem deliverOwner_leads (ht : dl.event.topic ≠ .delete) : Leads u d w e uuid i r (.read
    (deliverOwner d dl)) := by
  refine h.read ?_
  unfold deliverOwner
  split
  · exact ⟨rfl, hd.claimed⟩
  · exact ⟨rfl, hd, ht⟩

theorem deliverQuota_leads (ht : dl.event.topic ≠ .delete) : Leads u d w e uuid i r (.read
    (deliverQuota d dl owner)) := by
  refine h.fetched hd fun quota _ => h.read ?_
  split
  · exact ⟨rfl, hd, ht⟩
  · exact ⟨rfl, hd, ht⟩

omit hd h

/-- A reconcile command of the delivery. -/
theorem carries_flashPut {policy : FlashProviderPolicy} (hd : Delivering d dl) (ht : dl.event.topic
    ≠ .delete) : dl.Carries (dl.flashPut owner policy) := by
  rw [Delivery.Carries, if_neg ht]
  exact hd.generation

include h
variable {member : Option WeeklyLimits}

theorem deliverCloud_leads {quota : ResourceQuotaLimits} (hd : Delivering d dl) (ht : dl.event.topic
    ≠ .delete) : Leads u d w e uuid i r (.read (deliverCloud u d dl owner quota member)) := by
  refine h.read ?_
  unfold deliverCloud
  split
  · exact ⟨rfl, hd.claimed⟩
  split_ifs
  · exact ⟨rfl, hd, ht⟩
  · exact ⟨rfl, hd, carries_flashPut hd ht⟩

theorem deliverAccounts_leads {quota limits : ResourceQuotaLimits} {cloud : Uuid} (hd : Delivering d
    dl) (ht : dl.event.topic ≠ .delete) : Leads u d w e uuid i r (.read (deliverAccounts u d dl
    owner quota member cloud limits)) := by
  unfold deliverAccounts
  dsimp only
  split_ifs
  · exact h.read ⟨rfl, hd.claimed⟩
  · exact h.fetched hd fun limits _ =>
      h.read ⟨rfl, hd, carries_flashPut hd ht⟩

omit h

/-- A successful answer says that the command was accepted. -/
theorem Exchange.accepted_of {a : Response} (h : x.response = some a) (hs : a.isSuccess = true) :
    x.accepted = true := by
  refine x.honest ?_
  rw [h]
  exact hs

include h

theorem send_leads {command : Command} (hcall : r.call = .send dl command) (hd : Delivering d dl)
    (hc : dl.Carries command) : Leads u d w e uuid i r (.read (send dl)) := by
  have hsent : e.Executes i (.send dl command) := hcall ▸ h.ready.executes
  refine h.read ?_
  unfold send
  split
  · exact ⟨rfl, hd.claimed⟩
  rename_i a hanswer
  unfold answered
  split
  · exact ⟨rfl, hd.claimed⟩
  rename_i absent habsent
  split
  · rename_i hdelete
    split
    · refine ⟨rfl, hd, e, mem_cons_self, ?_⟩
      rw [Delivery.Carries, if_pos hdelete.1] at hc
      rcases hdelete.2 with hsuccess | hgone
      · exact .inl ⟨i, dl, hc ▸ hsent, rfl, Exchange.accepted_of hanswer hsuccess⟩
      · refine .inr ⟨i, dl, a, hc ▸ hsent, rfl, hanswer, ?_⟩
        rw [← hdelete.1, habsent, hgone]
    · exact ⟨rfl, hd.claimed⟩
  rename_i hkeep
  split
  · split
    · rename_i hreject
      refine ⟨rfl, hd, ?_, by simp, by simp⟩
      rw [hreject.1]
      decide
    · exact ⟨rfl, hd.claimed⟩
  · rename_i hfailed
    rw [Bool.not_eq_true', Bool.not_eq_false] at hfailed
    have htopic : dl.event.topic ≠ .delete := fun ht => hkeep ⟨ht, .inl hfailed⟩
    split
    · exact ⟨rfl, hd.claimed⟩
    split_ifs
    · exact ⟨rfl, hd.claimed⟩
    · exact ⟨rfl, hd, htopic, by simp, by simp⟩
    refine ⟨rfl, hd, htopic, by simp, fun _ => ⟨e, mem_cons_self, .inl ?_⟩⟩
    rw [Delivery.Carries, if_neg htopic] at hc
    exact ⟨command, hc, i, dl, hsent, rfl, Exchange.accepted_of hanswer hfailed⟩

theorem completeDelete_leads (hd : Delivering d dl) (hg : Dismissed w
    dl.event.payload.serviceInstanceId dl.event.payload.generation) : Leads u d w e uuid i r
    (completeDelete d dl) := by
  unfold completeDelete
  split
  · exact h.look ⟨.inl rfl, hd.claimed⟩
  rename_i s hs
  have hmem := mem_of_find?_eq_some hs
  have hfound := find?_some hs
  simp only [Bool.and_eq_true, beq_iff_eq] at hfound
  obtain ⟨⟨⟨hid, hgeneration⟩, _⟩, hstate⟩ := hfound
  refine h.service (by simp) ⟨hstate, forall_mem_singleton.mpr ?_, by simp [guards, Write.makes]⟩
    rfl ⟨by simp [Write.replaces], by simp, ?_, by simp, by simp, by simp⟩
    ⟨.inr ⟨s, rfl, hid, hgeneration⟩, hd.claimed⟩
  · exact mem_cons_self
  rintro s' ⟨⟩
  refine ⟨hmem, ?_⟩
  rw [hid, hgeneration]
  exact hg.mono (h.ready.known.grows e _)

omit h

theorem payloadService_some (h : d.payloadService p = some s) : s ∈ d.serviceInstances ∧ p.names
    s := by
  refine ⟨mem_of_find?_eq_some h, ?_⟩
  have hfound := find?_some h
  simp only [Bool.and_eq_true, beq_iff_eq] at hfound
  exact hfound.1

include h

theorem markService_leads {state : ServiceInstanceState} {status : Json} (hd : Delivering d dl) (ht
    : dl.event.topic ≠ .delete) (hs : state ≠ .deleting) (hr : state = .ready → Confirmed w
    dl.event.payload.serviceInstanceId dl.event.payload.generation) : Leads u d w e uuid i r
    (markService d dl state status) := by
  unfold markService
  split
  · exact h.look ⟨.inl rfl, hd.claimed⟩
  rename_i s hfound
  obtain ⟨hmem, hid, hgeneration⟩ := payloadService_some hfound
  -- the event is not a deletion and of this generation, so the service is not in deletion
  have hlive : s.state ≠ .deleting := fun hdel =>
    ht (((hd.claimed.ok.tells.row s hmem hid).deleting hgeneration.symm).mp hdel)
  refine h.service (by simp) ⟨⟨hlive, hs⟩, forall_mem_singleton.mpr ?_,
    by simp [guards, Write.makes]⟩ rfl ⟨?_, by simp, by simp, ?_, by simp, by simp⟩
    ⟨.inr ⟨s, state, status, rfl, hid, hgeneration⟩, hd.claimed⟩
  · exact mem_cons_self
  · rintro old new ⟨⟩
    exact hmem
  rintro s' status' ⟨⟩
  rw [hid, hgeneration]
  exact (hr rfl).mono (h.ready.known.grows e _)

theorem settleEvent_leads {x : Write} (hn : x.needs u = [.event ev.id]) (hm : x.makes = []) (hallows
    : x.allows) (ha : x.apart = true) (hplain : x.plain = true) : Leads u d w e uuid i r
    (settleEvent ev x) := by
  refine h.settle (by simp) ⟨hallows, fun k hk => ?_, fun n hn' => ?_⟩ (hm ▸ draws_nil)
    ha hplain
  · rw [show (guards u).needs x = [.event ev.id] from hn] at hk
    rw [mem_singleton.mp hk]
    exact mem_cons_self
  · rw [show (guards u).makes x = [] from hm] at hn'
    cases hn'

omit h

/-! ## 9. Handlers -/

include h

theorem Idle.answer {error : StoreError} : Leads u d w e uuid i r (answerError error) :=
  h.read trivial

theorem updateFlashService_leads {q : FlashServiceUpdate} : Leads u d w e uuid i r
    (updateFlashService u d q) := by
  unfold updateFlashService
  split
  · exact h.answer
  dsimp only
  split
  · exact h.answer
  split
  · exact h.answer
  split
  · exact h.answer
  split
  · exact h.read rfl
  · exact h.read rfl

theorem updateSecrets_leads {q : ServiceUpdate} : Leads u d w e uuid i r (updateSecrets d q) := by
  unfold updateSecrets
  split
  · exact h.answer
  · exact h.read rfl

theorem rollbackFlashService_leads {q : FlashRollback} : Leads u d w e uuid i r
    (rollbackFlashService u d q) := by
  unfold rollbackFlashService
  split
  · exact h.answer
  split
  · exact h.answer
  split
  · exact h.answer
  split
  · exact h.answer
  split
  · exact h.answer
  · exact h.read rfl

variable {q : FlashSecretPut}

theorem putFlashSecret_leads : Leads u d w e uuid i r (putFlashSecret d q) := by
  unfold putFlashSecret
  split
  · exact h.answer
  split
  · exact h.answer
  split
  · exact h.answer
  · exact h.read rfl

variable {service : ServiceRow}

theorem putSecretList_leads : Leads u d w e uuid i r (putSecretList d q service) := by
  unfold putSecretList
  split
  · exact h.answer
  · exact h.read rfl

omit h

/-- Where a stored secret leads. -/
theorem point_finish : Point u d w ⟨q.finish service, held, [], began⟩ := by
  unfold FlashSecretPut.finish
  split
  · split
    · exact (rfl : ([] : List Write) = [])
    · exact trivial
  · exact trivial
  · exact trivial

theorem point_stored : Point u d w ⟨q.stored service, held, [], began⟩ := by
  unfold FlashSecretPut.stored
  split
  · exact (rfl : ([] : List Write) = [])
  · exact point_finish

include h

theorem putSecretStore_leads : Leads u d w e uuid i r (.stmt [] [.putSecret q.id q.name]
    (.putSecretCommit q service)) := by
  refine h.apart (fun n m hm => absurd hm not_mem_nil) ?_ draws_nil
    (fun x hx => ?_) ?_
  · intro x hx
    rw [mem_singleton.mp hx]
    exact ⟨True.intro, by simp [guards, Write.needs], by simp [guards, Write.makes]⟩
  · rw [mem_singleton.mp hx]
    rfl
  · exact (rfl : [Write.putSecret q.id q.name] = _)

theorem deleteFlashSecret_leads {q : FlashSecretDeletion} : Leads u d w e uuid i r
    (deleteFlashSecret d q) := by
  unfold deleteFlashSecret
  split
  · exact h.answer
  split
  · exact h.answer
  split
  · exact h.answer
  split
  · exact h.answer
  · exact h.read rfl

theorem deleteSecretStore_leads {q : FlashSecretDeletion} : Leads u d w e uuid i r
    (deleteSecretStore d q) := by
  unfold deleteSecretStore
  split
  · exact h.settle (by simp) ⟨trivial, by simp [guards, Write.needs],
      by simp [guards, Write.makes]⟩ draws_nil rfl rfl
  · exact leads_abort

omit h

/-! ## 10. All statements -/

/-- **Every statement establishes the assertion of the point it leads to.** -/
theorem exec_leads {o : Statement} (h : Ready (guards u) Inv d w e uuid i r) (hA : At u d w i r)
    (ho : exec u w.clock (r.began.getD w.clock) uuid ((program u).view r d) r.call = some o) :
    Leads u d w e uuid i r o := by
  obtain ⟨hP, hA⟩ := hA
  obtain ⟨call, held, pending, began⟩ := r
  have hview (hp : pending = []) : (program u).view ⟨call, held, pending, began⟩ d = d :=
    view_none hp
  have idle (hp : pending = []) : Idle u d w e uuid i ⟨call, held, pending, began⟩ := ⟨h, hp⟩
  cases call with
  | createServiceInstance => cases ho; exact leads_lock h hP fresh_not_tenant hA
  | createExisting => cases ho; rw [hview hA]; exact createExisting_leads (idle hA)
  | createOwner => cases ho; rw [hview hA]; exact createOwner_leads (idle hA)
  | createMember => cases ho; rw [hview hA]; exact createMember_leads (idle hA)
  | createBackup => cases ho; rw [hview hA]; exact createBackup_leads (idle hA)
  | createLock => cases ho; exact createLock_leads (idle hA.1) hA.2.1 hA.2.2
  | updateServiceInstance => cases ho; exact updateServiceInstance_leads (idle hA)
  | updateExisting q => cases ho; rw [hview hA.1]; exact updateExisting_leads (idle hA.1) hA.2.1 hA.2.2
  | updateProject =>
    cases ho
    rw [hview hA.1]
    exact updateProject_leads (idle hA.1) hA.2.1 hA.2.2
  | updateFlashService => cases ho; rw [hview hA]; exact updateFlashService_leads (idle hA)
  | updateSecrets => cases ho; rw [hview hA]; exact updateSecrets_leads (idle hA)
  | rollbackFlashService => cases ho; rw [hview hA]; exact rollbackFlashService_leads (idle hA)
  | putFlashSecret => cases ho; rw [hview hA]; exact putFlashSecret_leads (idle hA)
  | putSecretList => cases ho; rw [hview hA]; exact putSecretList_leads (idle hA)
  | putSecretStore => cases ho; exact putSecretStore_leads (idle hA)
  | putSecretCommit => cases ho; exact leads_commit h hP fun _ => point_stored
  | putSecretTransfer =>
    cases ho
    have hA : pending = [] := hA
    subst hA
    exact leads_read h hP point_finish
  | deleteFlashSecret => cases ho; rw [hview hA]; exact deleteFlashSecret_leads (idle hA)
  | deleteSecretTransfer => cases ho; exact leads_read h hP hA
  | deleteSecretStore => cases ho; rw [hview hA]; exact deleteSecretStore_leads (idle hA)
  | setFlashServiceStopped =>
    cases ho
    exact leads_lock h hP fresh_not_preparation ⟨hA, fun l hl => mem_append_left _ hl⟩
  | switchExisting => cases ho; rw [hview hA.1]; exact switchExisting_leads (idle hA.1) hA.2
  | flashAccess => cases ho; rw [hview hA.1]; exact flashAccess_leads (idle hA.1) hA.2.1 hA.2.2
  | prepare => cases ho; rw [hview hA.1]; exact prepare_leads (idle hA.1) hA.2.1 hA.2.2
  | cloudAllocation =>
    cases ho
    rw [hview hA.1]
    exact cloudAllocation_leads (idle hA.1) hA.2.1 hA.2.2
  | memberAllocation =>
    cases ho
    rw [hview hA.1]
    exact memberAllocation_leads (idle hA.1) hA.2.1 hA.2.2
  | attach => cases ho; rw [hview hA.1]; exact attach_leads (idle hA.1) hA.2.1 hA.2.2
  | writeService =>
    cases ho
    rw [hview hA.1]
    exact writeService_leads (idle hA.1) hA.2.1 hA.2.2
  | requestUser => cases ho; exact requestUser_leads h hP hA.1 hA.2.1 hA.2.2
  | writeRequest => cases ho; exact writeRequest_leads h hP hA.1 hA.2.1
  | changeEvent => cases ho; exact changeEvent_leads h hP hA.1 hA.2
  | beginDeleteServiceInstance =>
    cases ho
    exact leads_lock h hP fresh_not_tenant ⟨hA, fun l hl => mem_append_left _ hl⟩
  | deleteExisting => cases ho; rw [hview hA.1]; exact deleteExisting_leads (idle hA.1) hA.2
  | deleteEvent => cases ho; exact deleteEvent_leads h hP hA.1 hA.2.1 hA.2.2
  | recordFlashObservation =>
    cases ho
    rw [hview hA]
    exact recordFlashObservation_leads (idle hA) rfl
  | mintWorkloadToken => cases ho; rw [hview hA]; exact mintWorkloadToken_leads (idle hA)
  | mintInsert =>
    cases ho
    rw [hview hA.1]
    exact mintInsert_leads (idle hA.1) hA.2.1 hA.2.2
  | authenticateWorkloadToken => cases ho; exact leads_read h hP trivial
  | setServiceAccountEnabled =>
    cases ho
    rw [hview hA]
    exact setServiceAccountEnabled_leads (idle hA)
  | deleteIamRole =>
    cases ho
    rw [hview hA]
    exact deleteIamRole_leads (idle hA)
  | addPrincipal => cases ho; exact addPrincipal_leads (idle hA)
  | changeSurroundings =>
    cases ho
    exact (idle hA).settle (by simp) ⟨trivial, by simp [guards, Write.needs],
      by simp [guards, Write.makes]⟩ draws_nil rfl rfl
  | quota => cases ho; exact quota_leads (idle hA)
  | quotaWrite => cases ho; rw [hview hA.1]; exact quotaWrite_leads (idle hA.1) hA.2.1 hA.2.2
  | enqueueAccounts => cases ho; exact leads_look h hP hA
  | enqueueScan => cases ho; exact enqueueScan_leads h hP hA
  | enqueueEvents => cases ho; exact enqueueEvents_leads h hP hA.1 hA.2
  | syncGpuCatalog => cases ho; exact syncGpuCatalog_leads (idle hA)
  | syncUsers =>
    cases ho
    exact leads_lock h hP (by simp) ⟨hA.1, mem_cons_of_mem _ hA.2, mem_cons_self⟩
  | syncDevices =>
    cases ho
    rw [hview hA.1]
    exact syncDevices_leads (idle hA.1) hA.2.1 hA.2.2
  | syncScan =>
    cases ho
    obtain ⟨⟨devices, hp⟩, hf⟩ := hA
    exact syncScan_leads h hP hp hf
  | syncEvents => cases ho; exact syncEvents_leads h hP hA.1 hA.2.1 hA.2.2
  | processOne => cases ho; rw [hview hA]; exact claimOutboxEvent_leads (idle hA)
  | claimCommit | completeCommit | markCommit =>
    cases ho
    exact leads_commit h hP fun _ => ⟨rfl, claimed_applyAll hP.allows hA.2⟩
  | deliver => cases ho; rw [hview hA.1]; exact deliver_leads (idle hA.1) hA.2
  | deliverOwner => cases ho; rw [hview hA.1]; exact deliverOwner_leads (idle hA.1) hA.2.1 hA.2.2
  | deliverQuota =>
    cases ho
    rw [hview hA.1]
    exact deliverQuota_leads (idle hA.1) hA.2.1 hA.2.2
  | deliverMember | deliverMemberLimits =>
    cases ho
    exact (idle hA.1).fetched hA.2.1 fun _ _ => leads_read h hP hA
  | deliverCloud =>
    cases ho
    rw [hview hA.1]
    exact deliverCloud_leads (idle hA.1) hA.2.1 hA.2.2
  | deliverAccounts =>
    cases ho
    rw [hview hA.1]
    exact deliverAccounts_leads (idle hA.1) hA.2.1 hA.2.2
  | send => cases ho; exact send_leads (idle hA.1) rfl hA.2.1 hA.2.2
  | completeDelete =>
    cases ho
    rw [hview hA.1]
    exact completeDelete_leads (idle hA.1) hA.2.1 hA.2.2
  | markService =>
    cases ho
    obtain ⟨hp, hd, ht, hs, hr⟩ := hA
    rw [hview hp]
    exact markService_leads (idle hp) hd ht hs hr
  | markDelivered | retry =>
    cases ho
    exact settleEvent_leads (idle hA.1) rfl rfl trivial rfl rfl
  | done => cases ho
  | _ => cases ho; exact leads_finish h hP

end Points

/-! ## 11. The outline -/

section Outline
variable {u : Setup} {d : Db} {t : Int} {issued : List Nat}
  {past : List (Event Db Key Write Call)} {σ : System Db Key Write Call}

theorem start_at {c : Call} (hc : c.isStart = true) {w : View} {i : Nat} :
    At u d w i ⟨c, [], [], none⟩ := by
  refine ⟨.nothing, ?_⟩
  cases c with
  | createServiceInstance | updateServiceInstance | updateFlashService | rollbackFlashService
  | putFlashSecret | deleteFlashSecret | setFlashServiceStopped
  | beginDeleteServiceInstance | recordFlashObservation | mintWorkloadToken
  | authenticateWorkloadToken | setServiceAccountEnabled | deleteIamRole | addPrincipal
  | changeSurroundings | quota | syncGpuCatalog | processOne =>
    exact (rfl : ([] : List Write) = [])
  | _ => cases hc

theorem fail_at {w : View} {i : Nat} {r : Running Key Write Call} {c : Call} (hA : At u d w i r)
    (hc : fail r.call = some c) : At u d w i ⟨c, [], [], none⟩ := by
  obtain ⟨_, hA⟩ := hA
  obtain ⟨call, held, pending, began⟩ := r
  refine ⟨.nothing, ?_⟩
  cases call with
  | done => cases hc
  | deliver => cases hc; exact ⟨rfl, hA.2⟩
  | deliverOwner | deliverQuota | deliverMember | deliverMemberLimits | deliverCloud
  | deliverAccounts | send | completeDelete | markService =>
    cases hc
    exact ⟨rfl, hA.2.1.claimed⟩
  | completeCommit | markCommit => cases hc; exact ⟨rfl, hA.2⟩
  | _ => cases hc; exact trivial

/-- **The invariant and the assertions are an outline.** -/
theorem duties : Duties (program u) (guards u) Inv (At u) where
  ids hk := Write.mem_ids hk
  mono_inv hw h := h.mono hw
  mono_at hw h := h.mono hw
  start hc := start_at hc
  step hk hI hown hA he hu ho := exec_leads ⟨hk, hI, hown, he, hu⟩ hA ho
  stable hx hc h := h.apply hx hc
  fail hA hc := fail_at hA hc

/-- **A database a run may start on**: there are no services yet, and limits are valid. -/
structure Initial (d : Db) (issued : List Nat) : Prop where
  issued : ∀ k ∈ ids d, k ∈ issued
  services : d.serviceInstances = []
  events : d.outboxEvents = []
  tokens : d.workloadAccessTokens = []
  requests : d.gpuServiceRequests = []
  principals : UniqueKey (·.id) d.principals
  defaults : d.quotaDefaults.validate = none
  organizations : ∀ q ∈ d.organizationQuotas, q.limits.validate = none
  members : ∀ q ∈ d.memberQuotas, q.limits.validate = none

theorem Initial.inv (h : Initial d issued) :
    Inv d ((System.quiet d t issued : System Db Key Write Call).world []) where
  services := by simp [h.services, UniqueKey]
  owned := by simp [h.services]
  events := by simp [h.events, UniqueKey]
  principals := h.principals
  tokens := by simp [h.tokens, UniqueKey]
  told := by simp [h.events]
  requests := by simp [h.requests]
  ready := by simp [h.services]

/-- What holds of a state of a run. -/
abbrev Outlined (u : Setup) (past : List (Event Db Key Write Call))
    (σ : System Db Key Write Call) : Prop :=
  Holds (fun d w => Known ids d w ∧ Inv d w) (fun d w i r => Own (guards u) w r ∧ At u d w i r)
    past σ

/-- **Every state of every run satisfies the outline.** -/
theorem outline_run (h₀ : Initial d issued)
    (hr : Run (program u) (System.quiet d t issued) past σ) : Outlined u past σ :=
  duties.outline.run hr ⟨.initial h₀.issued, h₀.inv⟩

end Outline

/-! ## 12. An account to run on -/

/-- Every account is a cloud organization of its own, and no text is refused. -/
def standalone : Setup where
  cloudOf account := some account
  management cloud := cloud
  management_cloud _ := rfl
  checks := ⟨fun _ => none, fun _ => none, fun _ => none, fun _ => none⟩
  vpcEndpoint := false

/-- The account 1 with a project, a member and a principal. -/
def oneAccount : Db where
  principals := [{ id := 20, organizationId := 1, kind := .user, userId := some 5 }]
  accounts := [1]
  surroundings := { projects := [(2, 1)], memberships := [(1, 5)], activeUsers := [5] }

theorem oneAccount_initial : Initial oneAccount [20, 1] := by
  constructor <;> decide +kernel

/-- The provider accepts, and answers with an operation. -/
def acceptedExchange : Exchange where
  accepted := true
  response := some { status := 200, body := { operation := some ⟨1, .null⟩ } }
  honest _ := rfl

end HeteroCloud.Services
