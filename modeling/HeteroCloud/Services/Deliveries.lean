/-
  File:      Services/Deliveries.lean
  Subject:   WHAT PROVIDERS ARE TOLD (crates/heterocloud-worker/src/main.rs): the events of the
             outbox and the commands that workers make of them, against the services.

  A worker reads the service, then limits, and sends its command some time after that, while others
  change the service and other workers deliver other events. What it sends under a generation is
  still what that generation was committed with: a change of the specification is a new generation.
-/
import HeteroCloud.Services.Lifecycle

namespace HeteroCloud.Services

open Base Iam List

/-- The command says what the row says. -/
def Command.tells (s : ServiceRow) : Command → Prop
  | .put generation name spec _ _ _ => s.state ≠ .deleting ∧ generation = s.generation ∧
      name = s.name ∧ spec = providerReconcileSpec s.spec
  | .delete generation => s.state = .deleting ∧ generation = s.generation

variable (d : Db) (w : View)

/-- The row was committed, and the service is still as it says or of another generation. -/
structure Current (row : ServiceRow) : Prop where
  seen : ∃ σ ∈ w.seen, row ∈ σ.db.serviceInstances
  now : ∀ s ∈ d.serviceInstances, s.id = row.id → s.generation = row.generation →
    s.name = row.name ∧ s.spec = row.spec ∧ (s.state = .deleting ↔ row.state = .deleting)

/-- What a worker has read, up to where it sends its command. -/
def Reading (_ : Nat) (r : Running Key Write Call) : Prop :=
  match r.call with
  | .deliverOwner dl | .deliverQuota dl _ | .deliverMember dl _ _ | .deliverMemberLimits dl _ _ _
  | .deliverCloud dl _ _ _ | .deliverAccounts dl _ _ _ _ _ =>
      Current d w dl.instanceRow ∧ dl.instanceRow.state ≠ .deleting ∧
        dl.instanceRow.provider = .flash
  | .send dl command => Current d w dl.instanceRow ∧ command.tells dl.instanceRow
  | _ => True

def Stage.reading : Stage → Bool
  | .deliverOwner | .deliverQuota | .deliverMember | .deliverMemberLimits | .deliverCloud
  | .deliverAccounts | .send => true
  | _ => false

section Reading
variable {u : Setup} {d : Db} {w w' : View} {e : Event Db Key Write Call} {uuid : Nat → Nat} {i : Nat}
  {r : Running Key Write Call} {o : Statement} {others : Locks} {x : Write} {dl : Delivery}

/-! ## 1. What a worker has read -/

/-- A write under which the row was replaced is one of a later generation, or leaves name and
specification. -/
theorem Current.apply (hx : x.allows) (hd : Delivering d dl) (h : Current d w dl.instanceRow) :
    Current (x.apply d) w dl.instanceRow := by
  refine ⟨h.seen, fun s hs hid hg => ?_⟩
  rcases mem_services hs with ⟨_, hnew⟩ | hmem | ⟨old, hold, hr⟩
  · rw [hid, hd.id] at hnew
    exact absurd hd.claimed.ok.tells.known hnew
  · exact h.now s hmem hid hg
  have hsame := (x.replaces_same hx hr).1
  have hle := (hd.claimed.ok.tells.row old hold (hsame.symm.trans (hid.trans hd.id))).generation
  have hrow := hd.generation
  rcases replaces_advances hx hr with ⟨hkept, hspec, _, hname, hstate⟩ | ⟨hnext, _⟩
  · rw [hname, hspec, hstate]
    exact h.now old hold (hsame.symm.trans hid) (hkept.symm.trans hg)
  · omega

theorem reading_commit (hx : Committed (guards u) w others x) (_ : Compatible others r.held)
    (hA : At u d w i r) (h : Reading d w i r) : Reading (x.apply d) w i r := by
  obtain ⟨_, hA⟩ := hA
  obtain ⟨call, held, pending, began⟩ := r
  cases call with
  | deliverOwner | deliverQuota | deliverMember | deliverMemberLimits | deliverCloud
  | deliverAccounts | send => exact ⟨h.1.apply hx.allowed hA.2.1, h.2⟩
  | _ => exact trivial

theorem reading_mono (hw : w.Grows d w') (h : Reading d w i r) : Reading d w' i r := by
  obtain ⟨call, held, pending, began⟩ := r
  cases call with
  | deliverOwner | deliverQuota | deliverMember | deliverMemberLimits | deliverCloud
  | deliverAccounts | send =>
    obtain ⟨⟨⟨σ, hσ, hrow⟩, hnow⟩, hrest⟩ := h
    exact ⟨⟨⟨σ, hw.seen σ hσ, hrow⟩, hnow⟩, hrest⟩
  | _ => exact trivial

theorem reading_apart (h : r.call.stage.reading = false) : Reading d w i r := by
  obtain ⟨call, held, pending, began⟩ := r
  cases call with
  | deliverOwner | deliverQuota | deliverMember | deliverMemberLimits | deliverCloud
  | deliverAccounts | send => cases h
  | _ => exact trivial

theorem tells_flashPut {owner : Option Uuid} {policy : FlashProviderPolicy}
    (h : dl.instanceRow.state ≠ .deleting ∧ dl.instanceRow.provider = .flash) :
    (dl.flashPut owner policy).tells dl.instanceRow := by
  refine ⟨h.1, rfl, rfl, ?_⟩
  cases hspec : dl.instanceRow.spec with
  | syouyu =>
    rw [ServiceRow.provider, hspec] at h
    cases h.2
  | _ => rfl

theorem deliver_reading {ev : OutboxEventRow} {exchange : Exchange} (hk : Known ids d w)
    (hi : Inv d w) (hc : Claimed d ev) : Reading d w i { r with call := deliver u d ev exchange } := by
  unfold deliver
  split
  · exact trivial
  split
  · exact trivial
  split
  · split <;> exact trivial
  rename_i s hs
  obtain ⟨hmem, hid⟩ := service_some hs
  have hcurrent : Current d w s := by
    obtain ⟨σ, hσ, rfl⟩ := hk.here
    refine ⟨⟨σ, hσ, hmem⟩, fun s' hs' hid' _ => ?_⟩
    rw [hi.services.eq hs' hmem hid']
    exact ⟨rfl, rfl, Iff.rfl⟩
  split
  · exact trivial
  rename_i hmatch
  rw [Bool.not_eq_true', Bool.not_eq_false] at hmatch
  have hstate := (hc.ok.tells.row s hmem hid).deleting (matchesPayload_iff.mp hmatch).1.symm
  split_ifs with htopic hflash
  · exact ⟨hcurrent, hstate.mpr htopic, rfl⟩
  · exact ⟨hcurrent, fun h => htopic (hstate.mp h), hflash⟩
  · exact ⟨hcurrent, fun h => htopic (hstate.mp h), rfl, rfl, rfl⟩

theorem exec_reading (h : Ready (guards u) Inv d w e uuid i r) (hA : At u d w i r)
    (hB : Reading d w i r) (ho : exec u w.clock (r.began.getD w.clock) uuid ((program u).view r d)
      r.call = some o) : Reaches (program u) Reading d w e uuid i r o := by
  have hw := h.known.grows e ((program u).drawn uuid)
  have hB := reading_mono hw hB
  obtain ⟨_, hA⟩ := hA
  obtain ⟨call, held, pending, began⟩ := r
  cases call with
  | deliver =>
    cases ho
    rw [view_none hA.1]
    exact reading_mono hw
      (deliver_reading (i := i) (r := ⟨_, held, pending, began⟩) h.known h.inv hA.2)
  | deliverOwner =>
    cases ho
    unfold deliverOwner
    split
    · exact trivial
    · exact hB
  | deliverQuota =>
    cases ho
    unfold deliverQuota fetch
    split
    · split
      · exact hB
      · exact hB
    · exact trivial
  | deliverMember =>
    cases ho
    unfold deliverMember fetch
    split
    · exact hB
    · exact trivial
  | deliverMemberLimits =>
    cases ho
    unfold deliverMemberLimits fetch
    split
    · exact hB
    · exact trivial
  | deliverCloud =>
    cases ho
    unfold deliverCloud
    split
    · exact trivial
    split_ifs
    · exact hB
    · exact ⟨hB.1, tells_flashPut hB.2⟩
  | deliverAccounts =>
    cases ho
    unfold deliverAccounts fetch
    dsimp only
    split_ifs
    · exact trivial
    split
    · exact ⟨hB.1, tells_flashPut hB.2⟩
    · exact trivial
  | _ => exact reaches_quiet Stage.reading reading_apart (by rfl) ho

theorem reading : Duties (program u) (guards u) Inv
    (fun d w i r => At u d w i r ∧ Reading d w i r) :=
  annotate_stages Stage.reading duties reading_apart rfl reading_mono exec_reading reading_commit

end Reading

/-! ## 2. What providers are told -/

/-- **The events of the outbox.** In every state of every run -/
theorem events_told {u : Setup} {d : Db} {t : Int} {issued : List Nat} (h₀ : Initial d issued)
    {past : List (Event Db Key Write Call)} {σ : System Db Key Write Call}
    (hr : Run (program u) (System.quiet d t issued) past σ) :
    -- an event is about a service that has been created
    ∀ ev ∈ σ.db.outboxEvents, ev.aggregateId = ev.payload.serviceInstanceId ∧
      ev.payload.serviceInstanceId ∈ σ.db.knownServices ∧
      ∀ s ∈ σ.db.serviceInstances, s.id = ev.payload.serviceInstanceId →
        -- and names its account and provider, and no generation to come
        s.organizationId = ev.payload.organizationId ∧ s.provider = ev.payload.provider ∧
        ev.payload.generation ≤ s.generation ∧
        -- at its generation it is a deletion exactly if the service is in deletion
        (ev.payload.generation = s.generation → s.projectId = ev.payload.projectId ∧
          (s.state = .deleting ↔ ev.topic = .delete)) := by
  intro ev hev
  have hok := (outline_run h₀ hr).inv.2.told ev hev
  refine ⟨hok.aggregate, hok.tells.known, fun s hs hid => ?_⟩
  have hrep := hok.tells.row s hs hid
  exact ⟨hrep.organization.symm, hrep.provider.symm, hrep.generation,
    fun hg => ⟨(hrep.project hg).symm, hrep.deleting hg⟩⟩

/-- The worker of `flowDelivered`, about to send its command. -/
theorem flow_sends : ∃ past σ, Run (program standalone) (System.quiet oneAccount 0 [20, 1]) past σ ∧
    ∃ s ∈ σ.db.serviceInstances, (∃ ev ∈ σ.db.outboxEvents, s.id = ev.payload.serviceInstanceId) ∧
      ∃ (i : Nat) (r : Running Key Write Call) (dl : Delivery) (command : Command),
        σ.runs i = some r ∧ r.call = .send dl command ∧
          s.id = dl.event.payload.serviceInstanceId := by
  have hplay : ((Machine.quiet oneAccount 0 [20, 1]).play (program standalone)
      (flowDelivered.take 18)).any (fun m => m.db.serviceInstances.any fun s =>
        m.db.outboxEvents.any (fun ev => s.id == ev.payload.serviceInstanceId) &&
          m.calls.any fun r => match r.call with
            | .send dl _ => s.id == dl.event.payload.serviceInstanceId
            | _ => false) = true := by
    decide +kernel
  obtain ⟨m, past, hrun, hcheck⟩ := play_any hplay
  simp only [any_eq_true, Bool.and_eq_true, beq_iff_eq] at hcheck
  obtain ⟨s, hs, hev, r, hr, hsend⟩ := hcheck
  obtain ⟨i, hi⟩ := mem_iff_getElem?.mp hr
  cases hcall : r.call with
  | send dl command =>
    rw [hcall] at hsend
    exact ⟨past, m.system, hrun, s, hs, hev, i, r, dl, command, hi, hcall, beq_iff_eq.mp hsend⟩
  | _ =>
    rw [hcall] at hsend
    cases hsend

theorem events_told_flow : ∃ past σ,
    Run (program standalone) (System.quiet oneAccount 0 [20, 1]) past σ ∧
      ∃ ev ∈ σ.db.outboxEvents, ∃ s ∈ σ.db.serviceInstances,
        s.id = ev.payload.serviceInstanceId ∧ ev.payload.generation ≤ s.generation := by
  obtain ⟨past, σ, hrun, s, hs, ⟨ev, hev, hid⟩, _⟩ := flow_sends
  obtain ⟨_, _, htold⟩ := events_told oneAccount_initial hrun ev hev
  exact ⟨past, σ, hrun, ev, hev, s, hs, hid, (htold s hs hid).2.2.1⟩

/-- **The commands of workers.** A command about to be sent, in any state of any run, is that of
an event in the outbox, and says what the service was committed with. A service that is still at
the generation of the event is as the command says; any other is at a later one. -/
theorem commands_told {u : Setup} {d : Db} {t : Int} {issued : List Nat} (h₀ : Initial d issued)
    {past : List (Event Db Key Write Call)} {σ : System Db Key Write Call}
    (hr : Run (program u) (System.quiet d t issued) past σ) {i : Nat}
    {r : Running Key Write Call} (hi : σ.runs i = some r) {dl : Delivery} {command : Command}
    (hcall : r.call = .send dl command) :
    (∃ ev ∈ σ.db.outboxEvents, ev.id = dl.event.id ∧ ev.topic = dl.event.topic ∧
      ev.payload = dl.event.payload) ∧
    (∃ σ' ∈ σ :: past.map (·.state), ∃ s ∈ σ'.db.serviceInstances,
      s.id = dl.event.payload.serviceInstanceId ∧ command.tells s) ∧
    ∀ s ∈ σ.db.serviceInstances, s.id = dl.event.payload.serviceInstanceId →
      dl.event.payload.generation < s.generation ∨
        dl.event.payload.generation = s.generation ∧ command.tells s := by
  have hout := reading.outline.run hr ⟨.initial h₀.issued, h₀.inv⟩
  obtain ⟨_, ⟨_, hA⟩, hB⟩ := hout.loc i r hi
  obtain ⟨call, held, pending, began⟩ := r
  cases hcall
  obtain ⟨_, hd, _⟩ := hA
  obtain ⟨hcurrent, htells⟩ := hB
  obtain ⟨σ', hσ', hrow⟩ := hcurrent.seen
  refine ⟨hd.claimed.row, ⟨σ', hσ', _, hrow, hd.id, htells⟩, fun s hs hid => ?_⟩
  have hle := (hd.claimed.ok.tells.row s hs hid).generation
  rcases Nat.lt_or_eq_of_le hle with hlt | heq
  · exact .inl hlt
  have hg : s.generation = dl.instanceRow.generation := heq.symm.trans hd.generation.symm
  obtain ⟨hname, hspec, hstate⟩ := hcurrent.now s hs (hid.trans hd.id.symm) hg
  refine .inr ⟨heq, ?_⟩
  cases command with
  | put =>
    obtain ⟨hlive, hgeneration, hname', hspec'⟩ := htells
    refine ⟨fun h => hlive (hstate.mp h), hgeneration.trans hg.symm, hname'.trans hname.symm, ?_⟩
    rw [hspec]
    exact hspec'
  | delete => exact ⟨hstate.mpr htells.1, htells.2.trans hg.symm⟩

theorem commands_told_flow : ∃ past σ,
    Run (program standalone) (System.quiet oneAccount 0 [20, 1]) past σ ∧
      ∃ (i : Nat) (r : Running Key Write Call) (dl : Delivery) (command : Command),
        σ.runs i = some r ∧ r.call = .send dl command ∧ ∃ s ∈ σ.db.serviceInstances,
          dl.event.payload.generation < s.generation ∨
            dl.event.payload.generation = s.generation ∧ command.tells s := by
  obtain ⟨past, σ, hrun, s, hs, _, i, r, dl, command, hi, hcall, hid⟩ := flow_sends
  have htold := commands_told oneAccount_initial hrun hi hcall
  exact ⟨past, σ, hrun, i, r, dl, command, hi, hcall, s, hs, htold.2.2 s hs hid⟩

end HeteroCloud.Services
