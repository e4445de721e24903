/-
  File:      FlowAccess/Points.lean
  Subject:   THE STATEMENTS of the operations on credentials and contexts under their assertions:
             each one establishes the assertion of the point it leads to, and each commit keeps the
             invariant.

  `exec_leads` is the result; `duties` makes it an outline, and `outline_run` says that the outline
  holds in every state of every run.
-/
import HeteroCloud.FlowAccess.Outline

namespace HeteroCloud.FlowAccess

open Base Iam List
open Store (ServiceInstanceState StoreError)

section Points
variable {d : Db} {w : View} {e : Event Db Key Write Call} {uuid : Nat → Nat} {i : Nat}
  {r : Running Key Write Call} {c : Call} {locks held : Locks} {writes ws : List Write}

/-! ## 1. Shapes of statements -/

/-- The statement keeps the outline. -/
abbrev Leads := Next program guards Inv At

/-- The transaction began before. -/
def Began (w : View) (r : Running Key Write Call) : Prop := ∀ t, r.began = some t → t ≤ w.clock

theorem Began.now (h : Began w r) : r.began.getD w.clock ≤ w.clock := by
  cases hb : r.began with
  | none => exact Int.le_refl _
  | some t => exact h t hb

theorem at_done {result : Result} : At d w i ⟨.done result, [], [], none⟩ :=
  ⟨by simp, trivial⟩

theorem leads_abort {error : StoreError} : Leads d w e uuid i r (abort error) :=
  at_done (i := i)

variable {success : Success}

theorem leads_settle : Leads d w e uuid i r (settle success) :=
  at_done (i := i)

/-- A statement that writes. -/
theorem leads_stmt (hb : Began w r)
    (hA : Point d w ⟨c, locks ++ r.held, r.pending ++ writes, some (r.began.getD w.clock)⟩)
    (hf : ∀ n m, (.fresh n, m) ∈ locks → n = uuid 0 := by simp)
    (hn : ∀ x ∈ writes, ∀ k ∈ x.needs, (k, .exclusive) ∈ locks ++ r.held := by
      simp [Write.needs])
    (hm : ∀ x ∈ writes, ∀ n ∈ x.makes, (.fresh n, .exclusive) ∈ locks ++ r.held := by
      simp [Write.makes]) :
    Leads d w e uuid i r (.stmt locks writes c) := by
  refine ⟨fun n m h => hf n m h ▸ mem_cons_self,
    fun x hx => ⟨trivial, hn x hx, hm x hx⟩, ?_⟩
  have hat : At d w i ⟨c, locks ++ r.held, r.pending ++ writes, some (r.began.getD w.clock)⟩ := by
    refine ⟨?_, hA⟩
    rintro t ⟨⟩
    exact hb.now
  have hclock : w.clock ≤ (w.after e (program.drawn uuid)).clock := Int.le_refl _
  exact hat.mono hclock

/-- A statement that only locks. -/
theorem leads_lock (hb : Began w r) (hf : ∀ n m, (.fresh n, m) ∉ locks)
    (hA : Point d w ⟨c, locks ++ r.held, r.pending, some (r.began.getD w.clock)⟩) :
    Leads d w e uuid i r (.stmt locks [] c) :=
  leads_stmt hb (by rwa [append_nil]) (fun n m h => absurd h (hf n m)) (forall_mem_nil _)
    (forall_mem_nil _)

/-- Good writes may be committed. -/
theorem Good.commits (h : Good d w r.held r.pending) (ho : Own guards w r) :
    Commits d w r.pending where
  distinct := h.distinct
  unborn k hk := by
    obtain ⟨x, hx, hk⟩ := mem_flatMap.mp hk
    exact (ho.committed x hx).unborn k hk
  credential := h.credential
  context x hx := by
    obtain ⟨hn, hmint⟩ := h.context x hx
    refine ⟨hn, fun k hk => ?_⟩
    obtain ⟨⟨c, hl, hid, hwithin, hcn⟩, hno⟩ := hmint k hk
    exact ⟨c, hl.row, hid, hwithin, hcn, hno⟩
  balanced := h.balanced
  unrevoked k hk := (h.unrevoked k hk).row
  covered k t hk x hx hxk := by
    rcases (h.covered k t hk).2 x hx hxk with (hdead | hdead) | hdead
    · exact .inl hdead
    · exact .inr (.inl hdead)
    · exact .inr (.inr hdead)

theorem leads_commit (h : Ready guards Inv d w e uuid i r) (hg : Good d w r.held r.pending)
    {result : Result} : Leads d w e uuid i r (.commit (.done result)) := by
  intro w' hw _
  refine ⟨?_, at_done⟩
  have hI : Inv (program.view r d) w := h.inv.commit h.known (hg.commits h.own)
  have hgrows : w.Grows (program.view r d) w' :=
    ⟨hw.clock, fun k hk => hw.issued k (mem_append_left _ hk),
      fun e' he => hw.done e' (mem_cons_of_mem _ he), hw.seen, hw.only, hw.here⟩
  exact hI.mono hgrows

theorem held_more (held : Locks) : ∀ l ∈ held, l ∈ locks ++ held :=
  fun _ h => mem_append_right _ h

/-! ## 2. Credentials -/

variable {n : NewFlowDeveloperCredential} {view : Db}

theorem credentialService_leads (hb : Began w r) (hp : r.pending = []) {limit : Nat} : Leads d w e
    uuid i r (credentialService view n limit) := by
  unfold credentialService
  split
  · exact leads_lock hb (by simp) hp
  · exact leads_abort

variable {now : Int}

theorem credentialCount_leads (hb : Began w r) (hp : r.pending = []) {limit : Nat} : Leads d w e
    uuid i r (credentialCount now view n limit) := by
  unfold credentialCount
  dsimp only
  split_ifs
  · exact leads_abort
  · exact leads_lock hb (by simp) hp

theorem insertCredential_leads (hb : Began w r) (hp : r.pending = []) : Leads d w e uuid i r
    (insertCredential uuid view n) := by
  unfold insertCredential
  split_ifs
  · exact leads_abort
  · refine leads_stmt hb ?_ (by simp) (by simp [Write.needs])
      (by simp [Write.makes, NewFlowDeveloperCredential.row])
    rw [hp]
    exact ⟨.creates rfl, by simp [Write.Plain]⟩
  · exact leads_abort

variable {s : ServiceRow}
variable {organization service credential : Uuid}

theorem mutationScope_mem {c : FlowDeveloperCredentialRow} (h : d.mutationScope organization service
    credential = some (c, s)) : c ∈ d.flowDeveloperCredentials := by
  obtain ⟨b, hb, h⟩ := Option.bind_eq_some_iff.mp h
  obtain ⟨s', _, h⟩ := Option.bind_eq_some_iff.mp h
  cases h
  exact mem_of_find?_eq_some hb

variable {principal : Uuid}

theorem revokeFlowDeveloperCredential_leads (hb : Began w r) (hp : r.pending = []) : Leads d w e
    uuid i r (revokeFlowDeveloperCredential d organization service credential principal) := by
  unfold revokeFlowDeveloperCredential
  split
  · rename_i c s hscope
    refine leads_lock hb (by simp) ?_
    have hl : LockedCredential d ([(.credential c.id, .exclusive)] ++ r.held) c :=
      ⟨mem_cons_self, mutationScope_mem hscope⟩
    split_ifs with hn
    · exact ⟨hp, hl, fun _ => hn⟩
    refine ⟨⟨0, ?_⟩, hl⟩
    rw [hp]
    simp [Cascade.base, hn]
  · refine leads_lock hb (by simp) ?_
    rw [hp]
    exact Settled.nothing

variable {secret : Secret}

theorem rotateFlowDeveloperCredential_leads (hb : Began w r) (hp : r.pending = []) : Leads d w e
    uuid i r (rotateFlowDeveloperCredential now d organization service credential secret
    principal) := by
  unfold rotateFlowDeveloperCredential
  split
  · rename_i c s hscope
    split_ifs
    · exact leads_lock hb (by simp)
        ⟨hp, ⟨mem_cons_self, mutationScope_mem hscope⟩, by simp⟩
    · exact leads_abort
  · exact leads_abort

variable {k : Cascade}

theorem mutateCredential_leads (hb : Began w r) (hp : r.pending = []) (hl : LockedCredential d
    r.held k.credential) (hn : k.mutation = .revoke → k.credential.revokedAt = none) : Leads d w e
    uuid i r (mutateCredential now view k) := by
  unfold mutateCredential
  split
  · rename_i hm
    refine leads_stmt hb ⟨⟨now, ?_⟩, hl.more (held_more _)⟩
    simp [hp, Cascade.base, hm, hn hm]
  · rename_i secret hm
    split_ifs
    · exact leads_abort
    refine leads_stmt hb ⟨⟨now, ?_⟩, hl.more (held_more _)⟩
    simp [hp, Cascade.base, hm]

/-! ## 3. Cascades -/

/-- The credential is changed, the contexts are not yet. -/
theorem base_contexts (k : Cascade) (t : Int) :
    (applyAll (k.base t) d).flowAccessContexts = d.flowAccessContexts := by
  unfold Cascade.base
  split
  · split_ifs <;> rfl
  · rfl

/-- The contexts a cascade selects are all there are. -/
theorem selected_active (held : Locks) (hI : Inv d w) {c : FlowDeveloperCredentialRow} (hnow : now ≤
    w.clock) (hc : c ∈ d.flowDeveloperCredentials) (hview : view.flowAccessContexts =
    d.flowAccessContexts) : Selected d w ((view.activeContexts now c).map (fun x => (.context
    x.contextId, .exclusive)) ++ held) c.id ((view.activeContexts now c).map (·.contextId)) := by
  have hperm := orderBy_perm (fun x : FlowAccessContextRow => x.contextId)
    (d.flowAccessContexts.filter fun x =>
      x.credentialId == some c.id && x.organizationId == c.organizationId &&
        x.serviceInstanceId == c.serviceInstanceId && x.revokedAt == none &&
        decide (x.expiresAt > now))
  simp only [Db.activeContexts, hview]
  refine ⟨?_, fun k hk => ?_, fun x hx hxc => ?_⟩
  · exact (hperm.map FlowAccessContextRow.contextId).nodup_iff.mpr (hI.contexts.filter _)
  · obtain ⟨x, hx, rfl⟩ := mem_map.mp hk
    obtain ⟨hxd, hsel⟩ := mem_filter.mp (hperm.mem_iff.mp hx)
    simp only [Bool.and_eq_true, beq_iff_eq] at hsel
    exact ⟨mem_append_left _ (mem_map.mpr ⟨x, hx, rfl⟩), x, hxd, rfl, hsel.1.2⟩
  obtain ⟨c', hc', hid, hwithin⟩ := hI.minted x hx c.id hxc
  cases hI.credentials.eq hc' hc hid
  by_cases hdead : x.revokedAt ≠ none ∨ x.expiresAt ≤ now
  · exact .inl (Dead.mono hnow hdead)
  rw [not_or, not_not] at hdead
  have hlive : now < x.expiresAt := by omega
  refine .inr (mem_map_of_mem (hperm.mem_iff.mpr (mem_filter.mpr ⟨hx, ?_⟩)))
  simp [hxc, hwithin.organization, hwithin.service, hdead.1, hlive]

theorem cascadeContexts_leads (h : Ready guards Inv d w e uuid i r) (hb : Began w r) (hp : ∃ t,
    r.pending = k.base t) (hl : LockedCredential d r.held k.credential) : Leads d w e uuid i r
    (cascadeContexts (r.began.getD w.clock) (program.view r d) k) := by
  obtain ⟨t, hp⟩ := hp
  have hview : (program.view r d).flowAccessContexts = d.flowAccessContexts := by
    show (applyAll r.pending d).flowAccessContexts = _
    rw [hp]
    exact base_contexts k t
  have hsel := selected_active r.held h.inv hb.now hl.row hview
  unfold cascadeContexts
  refine leads_lock hb (by simp) ?_
  split_ifs with hempty
  · have hnil := List.isEmpty_iff.mp hempty
    rw [hnil] at hsel ⊢
    refine ⟨[], hl, hsel, t, 0, [], ?_, rfl⟩
    simp [hp]
  · exact ⟨⟨t, hp⟩, hl.more (held_more _), hsel⟩

theorem cascadeUpdate_leads (hb : Began w r) {contexts : List FlowAccessContextRow} (hp : ∃ t,
    r.pending = k.base t) (hl : LockedCredential d r.held k.credential) (hs : Selected d w r.held
    k.credential.id (contexts.map (·.contextId))) : Leads d w e uuid i r (cascadeUpdate now view k
    contexts) := by
  obtain ⟨t, hp⟩ := hp
  unfold cascadeUpdate
  dsimp only
  split_ifs
  · exact leads_abort
  refine leads_stmt hb ⟨contexts.map (·.contextId), [], rfl, hl.more (held_more _),
    hs.more (held_more _), t, now, [], by simp [hp, Function.comp_def], rfl⟩ (by simp) ?_ ?_
  · intro x hx key hkey
    obtain ⟨y, hy, rfl⟩ := mem_map.mp hx
    rw [mem_singleton.mp hkey]
    exact mem_append_left _ (mem_map.mpr ⟨y, hy, rfl⟩)
  · intro x hx n hn
    obtain ⟨y, _, rfl⟩ := mem_map.mp hx
    exact absurd hn not_mem_nil

variable {ks told : List Uuid}

theorem cascadeEvents_leads (hb : Began w r) {count : Nat} {rest : List FlowAccessContextRow} (hks :
    ks = told ++ rest.map (·.contextId)) (hc : Cascading d w r.held k ks told r.pending) : Leads d w
    e uuid i r (cascadeEvents uuid k count rest) := by
  cases rest with
  | nil =>
    have htold : ks = told := by rw [hks, map_nil, append_nil]
    refine leads_lock hb (by simp) ⟨ks, ?_⟩
    rw [← htold] at hc
    exact hc.more (held_more _)
  | cons x =>
    obtain ⟨t, t', es, hp, hes⟩ := hc.pending
    refine leads_stmt hb ⟨ks, told ++ [x.contextId], ?_, hc.locked.more (held_more _),
        hc.selected.more (held_more _), t, t', es ++ [(k.revocation x).event (uuid 0)], ?_, ?_⟩
    · simp [hks]
    · simp [hp]
    · simp [hes, Revocation.event, Cascade.revocation]

theorem revokes_append (k : Uuid) (ws ys : List Write) :
    revokes k (ws ++ ys) = (revokes k ws || revokes k ys) :=
  any_append

variable (j : Uuid)

theorem revokes_base (k : Cascade) (t : Int) : revokes j (k.base t) = false := by
  unfold Cascade.base
  split
  · split_ifs <;> rfl
  · rfl

variable (es : List RevokeEventRow)

theorem revokes_events : revokes j (es.map .insertEvent) = false := by
  induction es with
  | nil => rfl
  | cons _ _ ih => exact ih

theorem revokes_contexts (ks : List Uuid) (t : Int) : revokes j (ks.map (.revokeContext · t)) =
    ks.contains j := by
  induction ks with
  | nil => rfl
  | cons k _ ih =>
    rw [map_cons, revokes, any_cons, contains_cons]
    exact congrArg₂ _ (Bool.beq_comm (a := k)) ih

theorem eventsFor_append (k : Uuid) (ws ys : List Write) :
    eventsFor k (ws ++ ys) = eventsFor k ws + eventsFor k ys :=
  countP_append

theorem eventsFor_base (k : Cascade) (t : Int) : eventsFor j (k.base t) = 0 := by
  unfold Cascade.base
  split
  · split_ifs <;> rfl
  · rfl

theorem eventsFor_contexts (ks : List Uuid) (t : Int) : eventsFor j (ks.map (.revokeContext · t)) =
    0 := by
  induction ks with
  | nil => rfl
  | cons _ _ ih => exact ih

theorem eventsFor_events : eventsFor j (es.map .insertEvent) = (es.map (·.aggregateId)).count j :=
    by
  induction es with
  | nil => rfl
  | cons _ _ ih =>
    rw [map_cons, map_cons, count_cons, ← ih]
    exact countP_cons

variable {t : Int}

theorem base_mem {x : Write} (h : x ∈ k.base t) : (k.mutation = .revoke ∧ x = .revokeCredential
    k.credential.id t) ∨ ∃ secret, k.mutation = .rotate secret ∧ x = .setSecret k.credential.id
    secret := by
  unfold Cascade.base at h
  split at h
  · rename_i hm
    split_ifs at h
    · exact .inl ⟨hm, mem_singleton.mp h⟩
    · cases h
  · rename_i secret hm
    exact .inr ⟨secret, hm, mem_singleton.mp h⟩

variable (h : Cascading d w held k ks told ws)
include h

/-- What a cascade writes. -/
theorem Cascading.mem {x : Write} (hx : x ∈ ws) : (∃ t, x = .revokeCredential k.credential.id t) ∨
    (∃ secret, k.mutation = .rotate secret ∧ x = .setSecret k.credential.id secret) ∨ (∃ j t, x =
    .revokeContext j t) ∨ ∃ e, x = .insertEvent e := by
  obtain ⟨t, t', es, rfl, _⟩ := h.pending
  rcases mem_append.mp hx with hx | hx
  · rcases mem_append.mp hx with hx | hx
    · rcases base_mem hx with ⟨_, rfl⟩ | hset
      · exact .inl ⟨t, rfl⟩
      · exact .inr (.inl hset)
    · obtain ⟨j, _, rfl⟩ := mem_map.mp hx
      exact .inr (.inr (.inl ⟨j, t', rfl⟩))
  · obtain ⟨e, _, rfl⟩ := mem_map.mp hx
    exact .inr (.inr (.inr ⟨e, rfl⟩))

/-- The contexts a cascade revokes. -/
theorem Cascading.revokes (j : Uuid) : revokes j ws = ks.contains j := by
  obtain ⟨t, t', es, rfl, _⟩ := h.pending
  rw [revokes_append, revokes_append, revokes_base, revokes_contexts, revokes_events]
  simp

theorem Cascading.eventsFor (j : Uuid) : eventsFor j ws = told.count j := by
  obtain ⟨t, t', es, rfl, hes⟩ := h.pending
  rw [eventsFor_append, eventsFor_append, eventsFor_base, eventsFor_contexts, eventsFor_events,
    hes]
  simp

omit h

/-- The writes of a cascade that has told of every context it revokes. -/
theorem Cascading.good {ks : List Uuid} (h : Cascading d w held k ks ks ws) : Good d w held ws := by
  constructor
  · have hnone : ws.flatMap Write.makes = [] := by
      refine flatMap_eq_nil_iff.mpr fun x hx => ?_
      rcases h.mem hx with ⟨t, rfl⟩ | ⟨secret, _, rfl⟩ | ⟨j, t, rfl⟩ | ⟨e, rfl⟩ <;> rfl
    rw [hnone]
    exact nodup_nil
  · intro c hc
    rcases h.mem hc with ⟨t, h⟩ | ⟨secret, _, h⟩ | ⟨j, t, h⟩ | ⟨e, h⟩ <;> cases h
  · intro y hy
    rcases h.mem hy with ⟨t, h⟩ | ⟨secret, _, h⟩ | ⟨j, t, h⟩ | ⟨e, h⟩ <;> cases h
  · intro j
    rw [h.eventsFor, h.revokes, h.selected.nodup.count]
    simp
  · intro j hj
    rw [h.revokes] at hj
    exact h.selected.locked j (contains_iff_mem.mp hj)
  · intro j s hj
    have hid : j = k.credential.id := by
      rcases h.mem hj with ⟨t, h⟩ | ⟨secret, _, h⟩ | ⟨j, t, h⟩ | ⟨e, h⟩ <;> cases h
      rfl
    subst hid
    refine ⟨h.locked.held, fun x hx hxc => ?_⟩
    rw [h.revokes]
    exact (h.selected.covers x hx hxc).imp_right contains_iff_mem.mpr
  · intro j hj
    rcases h.mem hj with ⟨t, h⟩ | ⟨secret, _, h⟩ | ⟨j, t, h⟩ | ⟨e, h⟩ <;> cases h

/-! ## 4. Contexts -/

theorem recordInsert_leads (hb : Began w r) (hp : r.pending = []) {n : NewFlowAccessContext} : Leads
    d w e uuid i r (recordInsert uuid view n) := by
  unfold recordInsert
  split_ifs
  · refine leads_stmt hb ?_ (by simp) (by simp [Write.needs, NewFlowAccessContext.row])
      (by simp [Write.makes, NewFlowAccessContext.row])
    rw [hp]
    exact ⟨⟨.inserts rfl (by simp [NewFlowAccessContext.row]),
      by simp [Write.Plain, NewFlowAccessContext.row]⟩, _, rfl⟩
  · exact leads_abort

variable {x : FlowAccessContextRow}

/-- What a prune deletes is revoked or expired. -/
theorem prunes_history (h : Ready guards Inv d w e uuid i r) (hb : Began w r) (hp : r.pending =
    [.insertContext x]) : Prunes d w (((program.view r d).prunedContexts (r.began.getD w.clock)
    service).map (fun y => (.context y.contextId, .exclusive)) ++ r.held) (((program.view r
    d).prunedContexts (r.began.getD w.clock) service).map fun y => .deleteContext y.contextId) := by
  intro k hk
  obtain ⟨y, hy, hyk⟩ := mem_map.mp hk
  cases hyk
  refine ⟨mem_append_left _ (mem_map.mpr ⟨y, hy, rfl⟩), fun z hz hid => ?_⟩
  obtain ⟨hdrop, hdead⟩ := mem_filter.mp hy
  have hsorted := mem_of_mem_drop hdrop
  rw [mem_insertionSort] at hsorted
  have hview := (mem_filter.mp hsorted).1
  have hdead' : Dead w.clock y := by
    rcases Bool.or_eq_true_iff.mp hdead with hd | hd
    · exact .inl (bne_iff_ne.mp hd)
    · exact .inr (Int.le_trans (of_decide_eq_true hd) hb.now)
  have hrows : (program.view r d).flowAccessContexts = d.flowAccessContexts ++ [x] := by
    show (applyAll r.pending d).flowAccessContexts = _
    rw [hp]
    rfl
  rw [hrows] at hview
  rcases mem_append.mp hview with hyd | hyx
  · rw [h.inv.contexts.eq hz hyd hid]
    exact hdead'
  -- the context of the call itself is new
  cases mem_singleton.mp hyx
  have hmem : Write.insertContext x ∈ r.pending := by
    rw [hp]
    exact mem_singleton_self _
  have hnew := (h.own.committed _ hmem).unborn x.contextId mem_cons_self
  exact absurd (h.known.born (hid ▸ mem_ids_context hz)) hnew

theorem prune_leads (h : Ready guards Inv d w e uuid i r) (hb : Began w r) (hp : r.pending =
    [.insertContext x]) (hA : ∀ locks ys, (∀ y ∈ ys, Write.calm y = true) → Prunes d w (locks ++
    r.held) ys → Point d w ⟨c, locks ++ r.held, r.pending ++ ys, some (r.began.getD w.clock)⟩) :
    Leads d w e uuid i r (pruneFlowAccessContextHistory (r.began.getD w.clock) (program.view r d)
    service c) := by
  unfold pruneFlowAccessContextHistory
  refine leads_stmt hb (hA _ _ (fun x hx => ?_) (prunes_history h hb hp)) (by simp) ?_ ?_
  · obtain ⟨y, _, rfl⟩ := mem_map.mp hx
    rfl
  · intro x hx key hkey
    obtain ⟨y, hy, rfl⟩ := mem_map.mp hx
    rw [mem_singleton.mp hkey]
    exact mem_append_left _ (mem_map.mpr ⟨y, hy, rfl⟩)
  · intro x hx n hn
    obtain ⟨y, _, rfl⟩ := mem_map.mp hx
    exact absurd hn not_mem_nil

theorem presented_mem {c : FlowDeveloperCredentialRow} (h : d.presented now secret = some (c, s)) :
    c ∈ d.flowDeveloperCredentials ∧ c.secret = secret ∧ c.revokedAt = none := by
  obtain ⟨b, hb, h⟩ := Option.bind_eq_some_iff.mp h
  obtain ⟨s', _, h⟩ := Option.bind_eq_some_iff.mp h
  cases h
  have hp := find?_some hb
  simp only [Db.activeCredential, Bool.and_eq_true, beq_iff_eq] at hp
  exact ⟨mem_of_find?_eq_some hb, hp.1.1, hp.1.2.1⟩

theorem mintFlowAccessContext_leads (hb : Began w r) (hp : r.pending = []) {input :
    DeveloperCredentialMint} : Leads d w e uuid i r (mintFlowAccessContext now d input) := by
  unfold mintFlowAccessContext
  split
  · rename_i c s hfound
    split_ifs with hready hperm
    · exact leads_settle
    · obtain ⟨hc, hsecret, hn⟩ := presented_mem hfound
      refine leads_lock hb (by simp) ⟨hp, ⟨mem_cons_self, hc⟩, hsecret, hn, fun p hm => ?_⟩
      exact contains_iff_mem.mp (all_eq_true.mp hperm p hm)
    · exact leads_settle
  · exact leads_settle

variable {m : Minting}

theorem mintInsert_leads (hb : Began w r) (hp : r.pending = []) (hm : MintLocked d r.held m) : Leads
    d w e uuid i r (.stmt [(.fresh (uuid 0), .exclusive), (.context (uuid 0), .exclusive)]
    [.insertContext (m.context (uuid 0))] (.mintPrune m)) := by
  have hheld := hm.locked.held
  refine leads_stmt hb ?_ (by simp)
    (by simp [Write.needs, Minting.context, NewFlowAccessContext.row, hheld])
    (by simp [Write.makes, Minting.context, NewFlowAccessContext.row])
  rw [hp]
  have hm' : MintLocked d
      ([(.fresh (uuid 0), .exclusive), (.context (uuid 0), .exclusive)] ++ r.held) m :=
    hm.more (held_more r.held)
  refine ⟨⟨hm', .inserts rfl fun k hk => ?_, uuid 0, [], rfl, by simp⟩, _, rfl⟩
  cases hk
  exact ⟨m.credential, hm'.locked, rfl, ⟨rfl, rfl, hm.permissions⟩, hm.unrevoked⟩

theorem Minted.calm {locks : Locks} {ys : List Write} (h : Minted d w held m ws) (hy : ∀ x ∈ ys,
    x.calm = true) (hp : Prunes d w (locks ++ held) ys) : Minted d w (locks ++ held) m (ws ++
    ys) := by
  obtain ⟨id, rest, hws, hrest⟩ := h.context
  refine ⟨h.locked.more (held_more _), (h.good.more (held_more _)).calm hy hp, id, rest ++ ys,
    by rw [hws, cons_append], fun x hx => ?_⟩
  rcases mem_append.mp hx with hx | hx
  · exact hrest x hx
  · exact hy x hx

variable {id : Uuid}

theorem prunes_touch : Prunes d w held [.touchCredential id t] := by
  simp [Prunes]

theorem calm_touch : ∀ x ∈ [Write.touchCredential id t], x.calm = true := by
  simp [Write.calm]

variable (hb : Began w r)
include hb

theorem mintTouch_leads (hm : Minted d w r.held m r.pending) : Leads d w e uuid i r (.stmt
    [(.credential m.credential.id, .exclusive)] [.touchCredential m.credential.id now] (.mintCommit
    m)) :=
  leads_stmt hb (hm.calm calm_touch prunes_touch)

/-- A call that locks a credential it was shown, and writes nothing. -/
theorem touchCredential_leads (hs : Settled d w r.held r.pending) : Leads d w e uuid i r (.stmt
    [(.credential id, .exclusive)] [.touchCredential id now] (.commit success)) :=
  leads_stmt hb ((hs.more (held_more _)).calm calm_touch prunes_touch)

theorem listForDeveloperCredential_leads (hp : r.pending = []) {limit : Int} : Leads d w e uuid i r
    (listForDeveloperCredential now d secret limit) := by
  unfold listForDeveloperCredential
  split
  · exact leads_lock hb (by simp) hp
  · exact leads_settle

variable {context : Uuid}

theorem revokeContextWithDeveloperCredential_leads (hp : r.pending = []) : Leads d w e uuid i r
    (revokeContextWithDeveloperCredential now d secret context) := by
  unfold revokeContextWithDeveloperCredential
  split
  · exact leads_lock hb (by simp) hp
  · exact leads_settle

omit hb

/-- The context that was found is locked. -/
theorem lockedContext_found {p : FlowAccessContextRow → Bool} (hx : d.flowAccessContexts.find? p =
    some x) (hn : x.revokedAt = none) : LockedContext d ((.context x.contextId, .exclusive) :: held)
    x.contextId :=
  ⟨mem_cons_self, x, mem_of_find?_eq_some hx, rfl, hn⟩

include hb

theorem lockCredentialContext_leads (hp : r.pending = []) {c : FlowDeveloperCredentialRow} : Leads d
    w e uuid i r (lockCredentialContext d c s context) := by
  have hnothing (locks : Locks) : Settled d w (locks ++ r.held) r.pending := by
    rw [hp]
    exact Settled.nothing
  unfold lockCredentialContext
  split
  · rename_i x hx
    refine leads_lock hb (by simp) ?_
    split_ifs with hn
    · exact ⟨hp, lockedContext_found hx hn⟩
    · exact hnothing _
  · exact leads_lock hb (by simp) (hnothing _)

theorem revokeFlowAccessContext_leads (hp : r.pending = []) : Leads d w e uuid i r
    (revokeFlowAccessContext d organization service context principal) := by
  have hnothing (locks : Locks) : Settled d w (locks ++ r.held) r.pending := by
    rw [hp]
    exact Settled.nothing
  unfold revokeFlowAccessContext
  split
  · rename_i x s hx _
    refine leads_lock hb (by simp) ?_
    split_ifs with hn
    · exact ⟨hp, lockedContext_found hx hn⟩
    · exact hnothing _
  · exact leads_lock hb (by simp) (hnothing _)

theorem revokeEvent_leads {v : Revocation} {credential : Option Uuid}
    (hp : ∃ t, r.pending = [.revokeContext v.contextId t])
    (hl : LockedContext d r.held v.contextId) :
    Leads d w e uuid i r (.stmt [] [.insertEvent (v.event (uuid 0))]
      (match credential with
      | some c => .touchCredential c (.contextRevoked (some true))
      | none => .commit (.contextRevoked (some true)))) := by
  obtain ⟨t, hp⟩ := hp
  refine leads_stmt hb ?_
  have hs : Settled d w ([] ++ r.held) (r.pending ++ [.insertEvent (v.event (uuid 0))]) := by
    rw [hp]
    exact ⟨.revocation hl rfl, by simp [Write.Plain]⟩
  cases credential with
  | none | some => exact hs

omit hb

/-! ## 5. Every statement -/

/-- **Every statement keeps the outline.** -/
theorem exec_leads (h : Ready guards Inv d w e uuid i r) (hA : At d w i r) {o : Statement}
    (ho : exec w.clock (r.began.getD w.clock) uuid (program.view r d) r.call = some o) :
    Leads d w e uuid i r o := by
  obtain ⟨hb, hA⟩ := hA
  replace hb : Began w r := hb
  have hnone (hp : r.pending = []) : program.view r d = d := by
    show applyAll r.pending d = d
    rw [hp]
    rfl
  obtain ⟨call, held, pending, began⟩ := r
  cases call with
  | createFlowDeveloperCredential =>
    cases ho
    split_ifs
    · exact ⟨hb, trivial⟩
    · exact leads_lock hb (by simp) hA
  | credentialService =>
    cases ho
    exact credentialService_leads hb hA
  | credentialCount =>
    cases ho
    exact credentialCount_leads hb hA
  | insertCredential =>
    cases ho
    exact insertCredential_leads hb hA
  | revokeFlowDeveloperCredential =>
    cases ho
    rw [hnone hA]
    exact revokeFlowDeveloperCredential_leads hb hA
  | rotateFlowDeveloperCredential =>
    cases ho
    rw [hnone hA]
    exact rotateFlowDeveloperCredential_leads hb hA
  | mutateCredential =>
    cases ho
    exact mutateCredential_leads hb hA.1 hA.2.1 hA.2.2
  | cascadeContexts =>
    cases ho
    exact cascadeContexts_leads h hb hA.1 hA.2
  | cascadeUpdate =>
    cases ho
    exact cascadeUpdate_leads hb hA.1 hA.2.1 hA.2.2
  | cascadeEvents =>
    cases ho
    obtain ⟨ks, told, hks, hc⟩ := hA
    exact cascadeEvents_leads hb hks hc
  | cascadeCommit =>
    cases ho
    obtain ⟨ks, hc⟩ := hA
    exact leads_commit h hc.good
  | recordFlowAccessContext =>
    cases ho
    exact leads_lock hb (by simp) hA
  | recordInsert =>
    cases ho
    exact recordInsert_leads hb hA
  | recordPrune =>
    cases ho
    obtain ⟨hs, x, hp⟩ := hA
    exact prune_leads h hb hp fun locks ys hy hp => (hs.more (held_more _)).calm hy hp
  | mintFlowAccessContext =>
    cases ho
    rw [hnone hA]
    exact mintFlowAccessContext_leads hb hA
  | mintRetention =>
    cases ho
    exact leads_lock hb (by simp) ⟨hA.1, hA.2.more (held_more _)⟩
  | mintInsert =>
    cases ho
    exact mintInsert_leads hb hA.1 hA.2
  | mintPrune =>
    cases ho
    obtain ⟨hm, x, hp⟩ := hA
    exact prune_leads h hb hp fun locks ys hy hp => hm.calm hy hp
  | mintTouch =>
    cases ho
    exact mintTouch_leads hb hA
  | mintCommit =>
    cases ho
    exact leads_commit h (Minted.good hA)
  | listFlowAccessContexts =>
    cases ho
    exact ⟨hb, trivial⟩
  | listForDeveloperCredential =>
    cases ho
    rw [hnone hA]
    exact listForDeveloperCredential_leads hb hA
  | listItems =>
    cases ho
    refine leads_lock hb (by simp) ?_
    rw [show pending = [] from hA]
    exact Settled.nothing
  | revokeContextWithDeveloperCredential =>
    cases ho
    rw [hnone hA]
    exact revokeContextWithDeveloperCredential_leads hb hA
  | lockCredentialContext =>
    cases ho
    rw [hnone hA]
    exact lockCredentialContext_leads hb hA
  | revokeFlowAccessContext =>
    cases ho
    rw [hnone hA]
    exact revokeFlowAccessContext_leads hb hA
  | revokeContext =>
    cases ho
    obtain ⟨hp, hl⟩ := hA
    exact leads_stmt hb ⟨⟨_, by rw [show pending = [] from hp]; rfl⟩, hl.more (held_more _)⟩
  | revokeEvent =>
    cases ho
    exact revokeEvent_leads hb hA.1 hA.2
  | touchCredential =>
    cases ho
    exact touchCredential_leads hb hA
  | setService =>
    cases ho
    refine leads_stmt hb ?_
    rw [show pending = [] from hA]
    exact Settled.nothing.calm (by simp [Write.calm]) (by simp [Prunes])
  | commit =>
    cases ho
    exact leads_commit h (Settled.good hA)
  | done => cases ho

end Points

/-! ## 6. The outline -/

section Outline
variable {d : Db} {t : Int} {issued : List Nat} {past : List (Event Db Key Write Call)}
  {σ : System Db Key Write Call}

theorem start_at {c : Call} (hc : c.isStart = true) {w : View} {i : Nat} :
    At d w i ⟨c, [], [], none⟩ := by
  refine ⟨by simp, ?_⟩
  cases c with
  | createFlowDeveloperCredential | revokeFlowDeveloperCredential | rotateFlowDeveloperCredential
  | recordFlowAccessContext | mintFlowAccessContext | listFlowAccessContexts
  | listForDeveloperCredential | revokeContextWithDeveloperCredential | revokeFlowAccessContext
  | setService => exact (rfl : ([] : List Write) = [])
  | _ => cases hc

theorem fail_at {c c' : Call} (hc : fail c = some c') {w : View} {i : Nat} :
    At d w i ⟨c', [], [], none⟩ := by
  cases c with
  | done => cases hc
  | _ =>
    cases hc
    exact at_done (i := i)

/-- **The invariant and the assertions are an outline.** -/
theorem duties : Duties program guards Inv At where
  ids hk := Write.mem_ids hk
  mono_inv hw h := h.mono hw
  mono_at hw h := h.mono hw.clock
  start hc := start_at hc
  step hk hI hown hA he hu ho := exec_leads ⟨hk, hI, hown, he, hu⟩ hA ho
  stable hx hc h := h.apply hx hc
  fail _ hc := fail_at hc

/-- **A database a run may start on**: there are no contexts and no events yet. -/
structure Initial (d : Db) (issued : List Nat) : Prop where
  issued : ∀ k ∈ ids d, k ∈ issued
  credentials : UniqueKey (·.id) d.flowDeveloperCredentials
  contexts : d.flowAccessContexts = []
  events : d.outboxEvents = []

theorem Initial.inv (h : Initial d issued) :
    Inv d ((System.quiet d t issued : System Db Key Write Call).world []) where
  credentials := h.credentials
  contexts := by simp [h.contexts, UniqueKey]
  minted := by simp [h.contexts]
  events := by simp [h.contexts]
  known := by simp [h.events]
  revoked := by simp [h.contexts]
  keptCredential σ hσ c hc := by
    rw [mem_singleton.mp hσ] at hc
    exact ⟨c, hc, rfl, .refl c⟩
  keptContext := by simp [h.contexts]

/-- What holds of a state of a run. -/
abbrev Outlined (past : List (Event Db Key Write Call)) (σ : System Db Key Write Call) : Prop :=
  Holds (fun d w => Known ids d w ∧ Inv d w) (fun d w i r => Own guards w r ∧ At d w i r) past σ

/-- **Every state of every run satisfies the outline.** -/
theorem outline_run (h₀ : Initial d issued)
    (hr : Run program (System.quiet d t issued) past σ) : Outlined past σ :=
  duties.outline.run hr ⟨.initial h₀.issued, h₀.inv⟩

end Outline
end HeteroCloud.FlowAccess
