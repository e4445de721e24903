/-
  File:      Revisions/Rollbacks.lean
  Subject:   ROLLBACKS GO BACK TO WHAT HAS BEEN SEEN TO RUN: what a revision that is marked ready
             stands for, and what a rollback commits, in every run.

  The worker marks a service ready when the provider has accepted its specification, whatever phase
  the provider answers with short of an error; the scheduler goes by the phase. So a revision may be
  ready on the answer of a provider that has said otherwise (`rollbacks_verified_early`); the
  theorem is about runs in which there are no such answers (`Candid`).
-/
import HeteroCloud.Revisions.Program

namespace HeteroCloud.Revisions

open Base Iam List
open Flash (rollbackDocument)
open Services (maxGeneration observedGeneration observedState)
open Store (ServiceInstanceState)

/-! ## 1. What becomes of a revision -/

/-- The revision `v` at a later time. -/
structure FlashRevision.Later (v v' : FlashRevision) : Prop where
  key : v'.key = v.key
  spec : v'.spec = v.spec
  readyAt : v.readyAt ≠ none → v'.readyAt ≠ none
  phase : v.readyAt ≠ none → v.phase = .ready → v'.phase = .ready

/-- A revision is marked ready at some time. -/
def FlashRevision.Dated (v : FlashRevision) : Prop := v.phase = .ready → v.readyAt ≠ none

section Record
variable {now : Int} {actor : Option Uuid} {s : ServiceRow} {t : List FlashRevision}
  {v v' : FlashRevision} {d : Db} {x : Write}

theorem FlashRevision.Later.refl (v : FlashRevision) : v.Later v :=
  ⟨rfl, rfl, fun h => h, fun _ h => h⟩

theorem FlashRevision.Later.service (h : v.Later v') :
    v'.serviceInstanceId = v.serviceInstanceId :=
  congrArg Prod.fst h.key

theorem FlashRevision.Later.generation (h : v.Later v') : v'.generation = v.generation :=
  congrArg Prod.snd h.key

theorem FlashRevision.Later.trans {v'' : FlashRevision} (h : v.Later v') (h' : v'.Later v'') :
    v.Later v'' :=
  ⟨h'.key.trans h.key, h'.spec.trans h.spec, fun hr => h'.readyAt (h.readyAt hr),
    fun hr hp => h'.phase (h.readyAt hr) (h.phase hr hp)⟩

theorem capturedPhase_ready (h : capturedPhase s = .ready) : healthy s = some true := by
  unfold capturedPhase at h
  split_ifs at h with hh
  exact hh

theorem recaptured_later (now : Int) (s : ServiceRow) (v : FlashRevision) :
    v.Later (recaptured now s v) := by
  refine ⟨rfl, rfl, fun hr => ?_, fun hr _ => if_pos hr⟩
  unfold recaptured
  cases hv : v.readyAt with
  | none => exact absurd hv hr
  | some => exact Option.some_ne_none _

theorem recaptured_readyAt (h : (recaptured now s v).readyAt ≠ none) :
    v.readyAt ≠ none ∨ healthy s = some true := by
  cases hv : v.readyAt with
  | some => exact .inl (Option.some_ne_none _)
  | none =>
    right
    unfold recaptured at h
    simp only [hv] at h
    by_contra hnot
    exact h (if_neg hnot)

theorem recaptured_dated (now : Int) (s : ServiceRow) (v : FlashRevision) :
    (recaptured now s v).Dated := by
  intro hp
  by_cases hv : v.readyAt = none
  · have hphase : capturedPhase s = .ready := by
      have : (if v.readyAt ≠ none then RevisionPhase.ready else capturedPhase s) = .ready := hp
      rwa [if_neg (fun h => h hv)] at this
    unfold recaptured
    simp only [hv]
    rw [if_pos (capturedPhase_ready hphase)]
    exact Option.some_ne_none _
  · exact (recaptured_later now s v).readyAt hv

theorem captured_readyAt (now : Int) (h : (captured now s).readyAt ≠ none) :
    healthy s = some true := by
  by_contra hnot
  exact h (if_neg hnot)

theorem captured_dated (now : Int) (s : ServiceRow) : (captured now s).Dated := by
  intro hp
  have hhealthy : healthy s = some true := capturedPhase_ready hp
  have hready : (captured now s).readyAt = some now := if_pos hhealthy
  rw [hready]
  exact Option.some_ne_none _

/-- Where a row of the table after `capture_flash_revision` comes from. -/
theorem mem_capture (h : v' ∈ captureFlashRevision now s t) :
    (∃ v ∈ t, v.Later v' ∧ (v.Dated → v'.Dated) ∧
      (v'.readyAt ≠ none → v.readyAt ≠ none ∨ v.key = s.key ∧ healthy s = some true)) ∨
    (v' = captured now s ∧ ∀ v ∈ t, v.key ≠ s.key) := by
  unfold captureFlashRevision at h
  split_ifs at h with hany
  · obtain ⟨v, hv, hrow⟩ := mem_updateWhere h
    refine .inl ⟨v, hv, ?_⟩
    rcases hrow with ⟨hkey, rfl⟩ | ⟨_, rfl⟩
    · refine ⟨recaptured_later now s v, fun _ => recaptured_dated now s v, fun hr => ?_⟩
      rcases recaptured_readyAt hr with hr | hh
      · exact .inl hr
      · exact .inr ⟨beq_iff_eq.mp hkey, hh⟩
    · exact ⟨.refl _, fun h => h, .inl⟩
  · rcases mem_append.mp h with hv | hv
    · exact .inl ⟨v', hv, .refl _, fun h => h, .inl⟩
    · refine .inr ⟨mem_singleton.mp hv, fun v hv hkey => hany ?_⟩
      exact any_eq_true.mpr ⟨v, hv, beq_iff_eq.mpr hkey⟩

/-- Every row is kept. -/
theorem capture_keeps (now : Int) (s : ServiceRow) (hv : v ∈ t) :
    ∃ v' ∈ captureFlashRevision now s t, v.Later v' := by
  unfold captureFlashRevision
  split_ifs
  · refine ⟨_, mem_map_of_mem hv, ?_⟩
    split_ifs
    · exact recaptured_later now s v
    · exact .refl v
  · exact ⟨v, mem_append_left _ hv, .refl v⟩

theorem capture_self (now : Int) (h : ∀ v ∈ t, v.key = s.key → v.spec = s.spec) :
    ∃ v ∈ captureFlashRevision now s t, v.key = s.key ∧ v.spec = s.spec := by
  by_cases hany : ∃ v ∈ t, v.key = s.key
  · obtain ⟨v, hv, hkey⟩ := hany
    obtain ⟨v', hv', hlater⟩ := capture_keeps now s hv
    exact ⟨v', hv', hlater.key.trans hkey, hlater.spec.trans (h v hv hkey)⟩
  refine ⟨captured now s, ?_, rfl, rfl⟩
  unfold captureFlashRevision
  rw [if_neg]
  · exact mem_append_right _ (mem_singleton_self _)
  intro hfound
  obtain ⟨v, hv, hkey⟩ := any_eq_true.mp hfound
  exact hany ⟨v, hv, beq_iff_eq.mp hkey⟩

theorem capture_unique (h : UniqueKey (·.key) t) :
    UniqueKey (·.key) (captureFlashRevision now s t) := by
  unfold captureFlashRevision
  split_ifs with hany
  · exact h.update fun _ => rfl
  · refine h.insert fun v hv hkey => hany ?_
    exact any_eq_true.mpr ⟨v, hv, beq_iff_eq.mpr hkey⟩

/-- The principal of a revision changes nothing else. -/
theorem mem_actor (h : v' ∈ captureFlashRevisionActor actor s t) :
    ∃ v ∈ t, v'.key = v.key ∧ v'.spec = v.spec ∧ v'.readyAt = v.readyAt ∧ v'.phase = v.phase := by
  unfold captureFlashRevisionActor at h
  split at h
  · exact ⟨v', h, rfl, rfl, rfl, rfl⟩
  obtain ⟨v, hv, hrow⟩ := mem_updateWhere h
  refine ⟨v, hv, ?_⟩
  rcases hrow with ⟨_, rfl⟩ | ⟨_, rfl⟩
  · exact ⟨rfl, rfl, rfl, rfl⟩
  · exact ⟨rfl, rfl, rfl, rfl⟩

theorem actor_keeps (actor : Option Uuid) (s : ServiceRow) (hv : v ∈ t) :
    ∃ v' ∈ captureFlashRevisionActor actor s t, v.Later v' := by
  unfold captureFlashRevisionActor
  split
  · exact ⟨v, hv, .refl v⟩
  refine ⟨_, mem_map_of_mem hv, ?_⟩
  split_ifs
  · exact ⟨rfl, rfl, fun h => h, fun _ h => h⟩
  · exact .refl v

theorem actor_unique (h : UniqueKey (·.key) t) :
    UniqueKey (·.key) (captureFlashRevisionActor actor s t) := by
  unfold captureFlashRevisionActor
  split
  · exact h
  · exact h.update fun _ => rfl

/-- **Where a row of the table comes from**, after a write of a service. -/
theorem mem_record (h : v' ∈ record now actor s t) :
    (∃ v ∈ t, v.Later v' ∧ (v.Dated → v'.Dated) ∧
      (v'.readyAt ≠ none → v.readyAt ≠ none ∨ v.key = s.key ∧ healthy s = some true)) ∨
    (v'.key = s.key ∧ v'.spec = s.spec ∧ v'.Dated ∧
      (v'.readyAt ≠ none → healthy s = some true) ∧ ∀ v ∈ t, v.key ≠ s.key) := by
  obtain ⟨v₁, hv₁, hkey, hspec, hready, hphase⟩ := mem_actor h
  have hdated : v₁.Dated → v'.Dated := by
    intro h₁ hp
    rw [hready]
    exact h₁ (hphase ▸ hp)
  rcases mem_capture hv₁ with ⟨v, hv, hlater, hd, hnew⟩ | ⟨rfl, hfresh⟩
  · refine .inl ⟨v, hv, ⟨hkey.trans hlater.key, hspec.trans hlater.spec, fun hr => ?_,
      fun hr hp => ?_⟩, fun hv => hdated (hd hv), fun hr => hnew (hready ▸ hr)⟩
    · rw [hready]
      exact hlater.readyAt hr
    · rw [hphase]
      exact hlater.phase hr hp
  · refine .inr ⟨hkey, hspec, hdated (captured_dated now s), fun hr => ?_, hfresh⟩
    exact captured_readyAt now (hready ▸ hr)

theorem record_keeps (now : Int) (actor : Option Uuid) (s : ServiceRow) (hv : v ∈ t) :
    ∃ v' ∈ record now actor s t, v.Later v' := by
  obtain ⟨v₁, hv₁, h₁⟩ := capture_keeps now s hv
  obtain ⟨v₂, hv₂, h₂⟩ := actor_keeps actor s hv₁
  exact ⟨v₂, hv₂, h₁.trans h₂⟩

theorem record_self (h : ∀ v ∈ t, v.key = s.key → v.spec = s.spec) :
    ∃ v ∈ record now actor s t, v.key = s.key ∧ v.spec = s.spec := by
  obtain ⟨v₁, hv₁, hkey, hspec⟩ := capture_self now h
  obtain ⟨v₂, hv₂, h₂⟩ := actor_keeps actor s hv₁
  exact ⟨v₂, hv₂, h₂.key.trans hkey, h₂.spec.trans hspec⟩

theorem record_unique (h : UniqueKey (·.key) t) : UniqueKey (·.key) (record now actor s t) :=
  actor_unique (capture_unique h)

/-- **Every write keeps every revision.** -/
theorem revision_kept (hv : v ∈ d.flashServiceRevisions) :
    ∃ v' ∈ (x.apply d).flashServiceRevisions, v.Later v' := by
  cases x with
  | insertService s now actor => exact record_keeps now actor s hv
  | updateService s now actor =>
    simp only [Write.apply]
    split_ifs
    · exact record_keeps now actor s hv
    · exact ⟨v, hv, .refl v⟩
  | removeService => exact ⟨v, hv, .refl v⟩
  | startActivation =>
    refine ⟨_, mem_map_of_mem hv, ?_⟩
    split_ifs
    · exact ⟨rfl, rfl, fun h => h, fun _ h => h⟩
    · exact .refl v
  | markRolledBack =>
    refine ⟨_, mem_map_of_mem hv, ?_⟩
    split_ifs with hrow
    · have hnone : v.readyAt = none := by
        rw [Bool.and_eq_true] at hrow
        exact beq_iff_eq.mp hrow.2
      exact ⟨rfl, rfl, fun h => h, fun h => absurd hnone h⟩
    · exact .refl v

end Record

/-! ## 2. The report that made a revision ready -/

variable (status : Json) (e : Event Db Key Write Call)

/-- The step commits what the provider has reported on the service: an observation of the phase
ready, or the answer to a delivery. -/
inductive Reports (s : ServiceRow) (status : Json) : Prop where
  | observation (i : Nat) (o : Observation) (seen : ServiceRow)
      (he : e.Executes i (.observationCommit o seen status s))
      (hready : observedState status = .ready)
  | completion (i : Nat) (m : Completion) (he : e.Executes i (.markCommit m s))
      (hs : m.status = status)

/-- The report is on the generation of the revision, with a replica that is ready, and the revision
is not stopped. -/
structure Shows (v : FlashRevision) : Prop where
  observed : castInteger bigintBound (status.get "observed_generation") =
    some (some (v.generation : Int))
  replicas : ∃ n, castInteger integerBound (status.get "ready_replicas") = some (some n) ∧ 0 < n
  running : stopped v.spec = false

/-- **The revision is the one that was current when the step reported on it.** -/
def Verified (v : FlashRevision) : Prop :=
  ∃ s ∈ e.state.db.serviceInstances, s.key = v.key ∧ s.spec = v.spec ∧
    ∃ status, Reports e s status ∧ Shows status v

section Healthy
variable {s : ServiceRow} {v : FlashRevision}

theorem castInteger_pos {n : Option Int} (h : ¬ n.getD 0 ≤ 0) : ∃ k, n = some k ∧ 0 < k := by
  cases n with
  | none => exact absurd (Int.le_refl 0) h
  | some k => exact ⟨k, rfl, Int.not_le.mp h⟩

theorem not_stopped {b : Option Bool} (h : castBoolean (s.spec.get "stopped") = some b)
    (hb : (!b.getD false) = true) : stopped s.spec = false := by
  unfold stopped
  cases hget : s.spec.get "stopped" with
  | none => rfl
  | some j =>
    rw [hget] at h
    cases j with
    | bool value =>
      cases h
      cases value with
      | false => rfl
      | true => cases hb
    | _ => rfl

/-- What a healthy service has in its row. -/
theorem healthy_shows (h : healthy s = some true) (hkey : v.key = s.key) (hspec : v.spec = s.spec) :
    s.state = .ready ∧ Shows (runtime s.status) v := by
  unfold healthy at h
  split_ifs at h with hstate
  · cases h
  obtain ⟨observed, hobserved, h⟩ := Option.bind_eq_some_iff.mp h
  split_ifs at h with hgeneration
  · cases h
  obtain ⟨replicas, hreplicas, h⟩ := Option.bind_eq_some_iff.mp h
  split_ifs at h with hnone
  · cases h
  obtain ⟨b, hb, h⟩ := Option.bind_eq_some_iff.mp h
  have hgen : v.generation = s.generation := congrArg Prod.snd hkey
  refine ⟨not_not.mp hstate, ?_, ?_, ?_⟩
  · rw [hobserved, not_not.mp hgeneration, hgen]
  · obtain ⟨n, rfl, hpos⟩ := castInteger_pos hnone
    exact ⟨n, hreplicas, hpos⟩
  · rw [hspec]
    exact not_stopped hb (Option.some.inj h)

theorem not_healthy (hs : s.state ≠ .ready) : healthy s ≠ some true := by
  unfold healthy
  rw [if_pos hs]
  exact fun h => Bool.noConfusion (Option.some.inj h)

end Healthy

/-! ## 3. The invariant -/

variable (d : Db)

structure Inv (w : View) : Prop where
  services : UniqueKey (·.id) d.serviceInstances
  revisions : UniqueKey (·.key) d.flashServiceRevisions
  recorded : ∀ s ∈ d.serviceInstances, ∃ v ∈ d.flashServiceRevisions, v.key = s.key ∧
    v.spec = s.spec
  bounded : ∀ s ∈ d.serviceInstances, ∀ v ∈ d.flashServiceRevisions,
    v.serviceInstanceId = s.id → v.generation ≤ s.generation
  dated : ∀ v ∈ d.flashServiceRevisions, v.Dated
  verified : ∀ v ∈ d.flashServiceRevisions, v.readyAt ≠ none → ∃ e ∈ w.done, Verified e v

section Inv
variable {d : Db} {w w' : View} {s row : ServiceRow} {now : Int} {actor : Option Uuid}

theorem Inv.mono (hw : w.Grows d w') (h : Inv d w) : Inv d w' := by
  refine { h with verified := fun v hv hr => ?_ }
  obtain ⟨e, he, hver⟩ := h.verified v hv hr
  exact ⟨e, hw.done e he, hver⟩

variable {v v' : FlashRevision}

theorem Verified.later {e : Event Db Key Write Call} (h : Verified e v) (hl : v.Later v') : Verified
    e v' := by
  obtain ⟨s, hs, hkey, hspec, status, hr, hshow⟩ := h
  have hgen := hl.generation
  refine ⟨s, hs, hkey.trans hl.key.symm, hspec.trans hl.spec.symm, status, hr, ?_⟩
  refine ⟨?_, hshow.replicas, ?_⟩
  · rw [hgen]
    exact hshow.observed
  · rw [hl.spec]
    exact hshow.running

variable (h : Inv d w)
include h

/-- A revision of a key that a service of the database has is the one of its specification. -/
theorem Inv.same_spec (hs : s ∈ d.serviceInstances) (hv : v ∈ d.flashServiceRevisions) (hkey : v.key
    = s.key) : v.spec = s.spec := by
  obtain ⟨v₀, hv₀, hkey₀, hspec₀⟩ := h.recorded s hs
  have he : v = v₀ := h.revisions.eq hv hv₀ (hkey.trans hkey₀.symm)
  rw [he, hspec₀]

theorem Inv.bounded_key (hs : s ∈ d.serviceInstances) {v₀ : FlashRevision} (hv₀ : v₀ ∈
    d.flashServiceRevisions) (hkey : v.key = v₀.key) (hid : v.serviceInstanceId = s.id) :
    v.generation ≤ s.generation := by
  have hgen : v.generation = v₀.generation := congrArg Prod.snd hkey
  rw [hgen]
  exact h.bounded s hs v₀ hv₀ ((congrArg Prod.fst hkey).symm.trans hid)

/-- What the table says after a write of a service. -/
theorem Inv.record (hw : ∀ e ∈ w.done, e ∈ w'.done) (hverified : healthy row = some true → ∃ e ∈
    w'.done, ∀ v : FlashRevision, v.key = row.key → v.spec = row.spec → Verified e v) (hspec : ∀ v ∈
    d.flashServiceRevisions, v.key = row.key → v.spec = row.spec) (hv : v ∈ record now actor row
    d.flashServiceRevisions) : v.Dated ∧ (v.readyAt ≠ none → ∃ e ∈ w'.done, Verified e v) ∧ ((∃ v₀ ∈
    d.flashServiceRevisions, v.key = v₀.key) ∨ v.key = row.key) := by
  rcases mem_record hv with ⟨v₀, hv₀, hlater, hdated, hready⟩ | ⟨hkey, hsp, hdated, hready, _⟩
  · refine ⟨hdated (h.dated v₀ hv₀), fun hr => ?_, .inl ⟨v₀, hv₀, hlater.key⟩⟩
    rcases hready hr with hr₀ | ⟨hkey, hh⟩
    · obtain ⟨e, he, hver⟩ := h.verified v₀ hv₀ hr₀
      exact ⟨e, hw e he, hver.later hlater⟩
    · obtain ⟨e, he, hver⟩ := hverified hh
      exact ⟨e, he, hver v (hlater.key.trans hkey) (hlater.spec.trans (hspec v₀ hv₀ hkey))⟩
  · refine ⟨hdated, fun hr => ?_, .inr hkey⟩
    obtain ⟨e, he, hver⟩ := hverified (hready hr)
    exact ⟨e, he, hver v hkey hsp⟩

/-- **An update of a service**: a report on its generation, or the next generation. -/
theorem Inv.update (hw : ∀ e ∈ w.done, e ∈ w'.done) (hs : s ∈ d.serviceInstances) (hid : row.id =
    s.id) (hrow : row.generation = s.generation ∧ row.spec = s.spec ∨ row.generation = s.generation
    + 1) (hverified : healthy row = some true → ∃ e ∈ w'.done, ∀ v : FlashRevision, v.key = row.key
    → v.spec = row.spec → Verified e v) : Inv ((Write.updateService row now actor).apply d) w' := by
  have hany : d.serviceInstances.any (·.id == row.id) = true :=
    any_eq_true.mpr ⟨s, hs, beq_iff_eq.mpr hid.symm⟩
  have hspec : ∀ v ∈ d.flashServiceRevisions, v.key = row.key → v.spec = row.spec := by
    intro v hv hkey
    rcases hrow with ⟨hgen, hsp⟩ | hgen
    · rw [hsp]
      refine h.same_spec hs hv (hkey.trans ?_)
      exact Prod.ext hid hgen
    · -- there is no revision of the next generation yet
      have hle := h.bounded s hs v hv ((congrArg Prod.fst hkey).trans hid)
      have hvgen : v.generation = row.generation := congrArg Prod.snd hkey
      omega
  have hgen : s.generation ≤ row.generation := by
    rcases hrow with ⟨hgen, _⟩ | hgen <;> omega
  have hold {b : ServiceRow}
      (hb : b ∈ updateWhere (·.id == row.id) (fun _ => row) d.serviceInstances) :
      b = row ∨ b ∈ d.serviceInstances ∧ b.id ≠ row.id := by
    obtain ⟨a, ha, hcase⟩ := mem_updateWhere hb
    rcases hcase with ⟨_, rfl⟩ | ⟨hne, rfl⟩
    · exact .inl rfl
    · exact .inr ⟨ha, beq_eq_false_iff_ne.mp hne⟩
  simp only [Write.apply, if_pos hany]
  refine ⟨?_, record_unique h.revisions, fun b hb => ?_, fun b hb v hv hbv => ?_,
    fun v hv => (h.record hw hverified hspec hv).1,
    fun v hv => (h.record hw hverified hspec hv).2.1⟩
  · refine UniqueKey.map (f := fun a => if (a.id == row.id) = true then row else a) h.services ?_
    intro a
    split_ifs with ha
    · exact (beq_iff_eq.mp ha).symm
    · rfl
  · rcases hold hb with rfl | ⟨hb, _⟩
    · exact record_self hspec
    obtain ⟨v, hv, hkey, hsp⟩ := h.recorded b hb
    obtain ⟨v', hv', hlater⟩ := record_keeps now actor row hv
    exact ⟨v', hv', hlater.key.trans hkey, hlater.spec.trans hsp⟩
  have hfrom := (h.record hw hverified hspec hv).2.2
  rcases hold hb with rfl | ⟨hb, hne⟩
  · rcases hfrom with ⟨v₀, hv₀, hkey⟩ | hkey
    · have hle := h.bounded_key hs hv₀ hkey (hbv.trans hid)
      omega
    · have hv₁ : v.generation = b.generation := congrArg Prod.snd hkey
      omega
  · rcases hfrom with ⟨v₀, hv₀, hkey⟩ | hkey
    · exact h.bounded_key hb hv₀ hkey hbv
    · exact absurd (hbv.symm.trans (congrArg Prod.fst hkey)) hne

/-- A new service. -/
theorem Inv.insert (hnew : s.id ∉ ids d) (hstate : s.state ≠ .ready) : Inv ((Write.insertService s
    now actor).apply d) w := by
  have hnot : healthy s ≠ some true := not_healthy hstate
  have hfree : ∀ v ∈ d.flashServiceRevisions, v.serviceInstanceId ≠ s.id := by
    intro v hv e
    exact hnew (mem_append_right _ (mem_map.mpr ⟨v, hv, e⟩))
  have hspec : ∀ v ∈ d.flashServiceRevisions, v.key = s.key → v.spec = s.spec :=
    fun v hv hkey => absurd (congrArg Prod.fst hkey) (hfree v hv)
  have hsame : ∀ e ∈ w.done, e ∈ w.done := fun _ he => he
  have hrecord {v : FlashRevision}
      (hv : v ∈ Revisions.record now actor s d.flashServiceRevisions) :=
    h.record hsame (fun hh => absurd hh hnot) hspec hv
  refine ⟨h.services.insert fun b hb e => hnew ?_, record_unique h.revisions, fun b hb => ?_,
    fun b hb v hv hbv => ?_, fun v hv => (hrecord hv).1, fun v hv => (hrecord hv).2.1⟩
  · exact mem_append_left _ (mem_map.mpr ⟨b, hb, e⟩)
  · rcases mem_append.mp hb with hb | hb
    · obtain ⟨v, hv, hkey, hsp⟩ := h.recorded b hb
      obtain ⟨v', hv', hlater⟩ := record_keeps now actor s hv
      exact ⟨v', hv', hlater.key.trans hkey, hlater.spec.trans hsp⟩
    · rw [mem_singleton.mp hb]
      exact record_self hspec
  have hfrom := (hrecord hv).2.2
  rcases mem_append.mp hb with hb | hb
  · rcases hfrom with ⟨v₀, hv₀, hkey⟩ | hkey
    · exact h.bounded_key hb hv₀ hkey hbv
    · have hsame : s.id = b.id := (congrArg Prod.fst hkey).symm.trans hbv
      exact absurd (mem_append_left _ (mem_map.mpr ⟨b, hb, hsame.symm⟩)) hnew
  · rw [mem_singleton.mp hb] at hbv ⊢
    rcases hfrom with ⟨v₀, hv₀, hkey⟩ | hkey
    · exact absurd ((congrArg Prod.fst hkey).symm.trans hbv) (hfree v₀ hv₀)
    · exact Nat.le_of_eq (congrArg Prod.snd hkey)

omit h

/-- The write leaves the services, and of the revisions the marks of readiness. -/
def Write.inert : Write → Bool
  | .removeService _ | .startActivation _ _ | .markRolledBack _ => true
  | _ => false

variable {x : Write}

theorem inert_services (h : x.inert = true) {b : ServiceRow} (hb : b ∈ (x.apply d).serviceInstances)
    : b ∈ d.serviceInstances := by
  cases x with
  | removeService => exact mem_of_mem_filter hb
  | startActivation | markRolledBack => exact hb
  | _ => cases h

theorem inert_revisions (h : x.inert = true) (hv : v' ∈ (x.apply d).flashServiceRevisions) : ∃ v ∈
    d.flashServiceRevisions, v.Later v' ∧ (v.Dated → v'.Dated) ∧ v'.readyAt = v.readyAt := by
  cases x with
  | removeService => exact ⟨v', hv, .refl v', fun h => h, rfl⟩
  | startActivation =>
    obtain ⟨v, hmem, hcase⟩ := mem_updateWhere hv
    refine ⟨v, hmem, ?_⟩
    rcases hcase with ⟨_, rfl⟩ | ⟨_, rfl⟩
    · exact ⟨⟨rfl, rfl, fun h => h, fun _ h => h⟩, fun h => h, rfl⟩
    · exact ⟨.refl _, fun h => h, rfl⟩
  | markRolledBack =>
    obtain ⟨v, hmem, hcase⟩ := mem_updateWhere hv
    refine ⟨v, hmem, ?_⟩
    rcases hcase with ⟨hrow, rfl⟩ | ⟨_, rfl⟩
    · rw [Bool.and_eq_true] at hrow
      have hnone : v.readyAt = none := beq_iff_eq.mp hrow.2
      exact ⟨⟨rfl, rfl, fun h => h, fun h => absurd hnone h⟩,
        fun _ hp => RevisionPhase.noConfusion hp, rfl⟩
    · exact ⟨.refl _, fun h => h, rfl⟩
  | _ => cases h

theorem Inv.inert (h : Inv d w) (hx : x.inert = true) : Inv (x.apply d) w where
  services := by
    cases x with
    | removeService => exact h.services.filter _
    | startActivation | markRolledBack => exact h.services
    | _ => cases hx
  revisions := by
    cases x with
    | removeService => exact h.revisions
    | startActivation | markRolledBack => exact h.revisions.update fun _ => rfl
    | _ => cases hx
  recorded b hb := by
    obtain ⟨v, hv, hkey, hsp⟩ := h.recorded b (inert_services hx hb)
    obtain ⟨v', hv', hlater⟩ := revision_kept (x := x) hv
    exact ⟨v', hv', hlater.key.trans hkey, hlater.spec.trans hsp⟩
  bounded b hb v hv hbv := by
    obtain ⟨v₀, hv₀, hlater, _, _⟩ := inert_revisions hx hv
    have hgen₀ : v.generation = v₀.generation := hlater.generation
    have hid₀ : v.serviceInstanceId = v₀.serviceInstanceId := hlater.service
    have hle := h.bounded b (inert_services hx hb) v₀ hv₀ (hid₀.symm.trans hbv)
    omega
  dated v hv := by
    obtain ⟨v₀, hv₀, _, hdated, _⟩ := inert_revisions hx hv
    exact hdated (h.dated v₀ hv₀)
  verified v hv hr := by
    obtain ⟨v₀, hv₀, hlater, _, hready⟩ := inert_revisions hx hv
    obtain ⟨e, he, hver⟩ := h.verified v₀ hv₀ (hready ▸ hr)
    exact ⟨e, he, hver.later hlater⟩

end Inv

/-! ## 4. Points -/

variable (held : Locks)

/-- The call holds the row. -/
def Locked (s : ServiceRow) : Prop :=
  (Key.service s.id, LockMode.exclusive) ∈ held ∧ s ∈ d.serviceInstances

def Recorded (s : ServiceRow) : Prop :=
  ∃ v ∈ d.flashServiceRevisions, v.key = s.key ∧ v.spec = s.spec

variable (q : ServiceUpdate)

/-- The update is the rollback of `current` to `target`. -/
structure RollsBack (current : ServiceRow) (target : FlashRevision) :
    Prop where
  id : q.id = current.id
  expected : q.expectedGeneration = some current.generation
  service : target.serviceInstanceId = current.id
  older : target.generation < current.generation
  document : rollbackDocument target.spec current.spec = some q.spec
  recorded : Recorded d current
  ready : ∃ v ∈ d.flashServiceRevisions, v.key = target.key ∧ v.spec = target.spec ∧
    v.readyAt ≠ none

def ServiceUpdate.Sound (d : Db) : Prop :=
  ∀ current target automatic, q.purpose = .rollback current target automatic →
    RollsBack d q current target

/-- The update is of the row. -/
structure ServiceUpdate.Selects (s : ServiceRow) : Prop where
  id : s.id = q.id
  generation : ∀ g, q.expectedGeneration = some g → s.generation = g

/-- What is written where nothing is reported and nothing rolled back. -/
inductive Plain (d : Db) (held : Locks) : List Write → Prop where
  | create (s : ServiceRow) (now : Int) (actor : Option Uuid) (hs : s.state ≠ .ready) :
      Plain d held [.insertService s now actor]
  | change (s row : ServiceRow) (now : Int) (actor : Option Uuid) (hl : Locked d held s)
      (hid : row.id = s.id) (hgen : row.generation = s.generation + 1) (hs : row.state ≠ .ready) :
      Plain d held [.updateService row now actor]
  | inert (x : Write) (hx : x.inert = true) : Plain d held [x]

/-- **What holds at the point of a call.** -/
def Call.At (pending : List Write) : Call → Prop
  | .updateService q => q.Sound d ∧ pending = []
  | .updateWrite q s => q.Sound d ∧ pending = [] ∧ Locked d held s ∧ q.Selects s
  | .updateCommit q s row => q.Sound d ∧ Locked d held s ∧ q.Selects s ∧
      (∃ spec, q.prepare s.spec q.spec = some spec ∧
        row = s.changed (q.project.getD s.projectId) q.name spec) ∧
      ∃ now, pending = [.updateService row now (some q.principalId)]
  | .switchWrite _ s | .deleteWrite s => Locked d held s ∧ pending = []
  | .markCommit m s => Locked d held s ∧ ∃ now, pending = [.updateService (m.mark s) now none]
  | .recordFlashObservation _ seen _ | .observed _ seen _ | .observedRevisions _ seen _ |
    .rollbackTarget _ seen => Recorded d seen ∧ pending = []
  | .startActivation _ seen status s => Recorded d seen ∧ Locked d held s ∧
      ∃ now, pending = [.updateService (s.observe status) now none]
  | .observationCommit _ seen status s => Recorded d seen ∧ Locked d held s ∧
      ∃ now rest, pending = .updateService (s.observe status) now none :: rest ∧
        ∀ x ∈ rest, x.inert = true
  | .commit => Plain d held pending
  | .done => True
  | _ => pending = []

abbrev Point (_ : View) (_ : Nat) (r : Running Key Write Call) : Prop :=
  r.call.At d r.held r.pending

section Stable
variable {d : Db} {w : View} {i : Nat} {r : Running Key Write Call} {x : Write}
  {held others : Locks} {s : ServiceRow} {q : ServiceUpdate}

theorem Recorded.kept (h : Recorded d s) : Recorded (x.apply d) s := by
  obtain ⟨v, hv, hkey, hsp⟩ := h
  obtain ⟨v', hv', hlater⟩ := revision_kept (x := x) hv
  exact ⟨v', hv', hlater.key.trans hkey, hlater.spec.trans hsp⟩

theorem ServiceUpdate.Sound.kept (h : q.Sound d) : q.Sound (x.apply d) := by
  intro current target automatic hp
  have hq := h current target automatic hp
  obtain ⟨v, hv, hkey, hsp, hready⟩ := hq.ready
  obtain ⟨v', hv', hlater⟩ := revision_kept (x := x) hv
  exact { hq with
    recorded := hq.recorded.kept
    ready := ⟨v', hv', hlater.key.trans hkey, hlater.spec.trans hsp, hlater.readyAt hready⟩ }

/-- A row that is locked stays. -/
theorem Locked.kept (h : Locked d held s) (hx : Committed guards w others x)
    (hc : Compatible others held) : Locked (x.apply d) held s := by
  refine ⟨h.1, ?_⟩
  have hfree : Key.service s.id ∉ x.needs := fun hn => hc.exclusive (hx.needs _ hn) _ h.1
  cases x with
  | insertService => exact mem_append_left _ h.2
  | updateService row =>
    have hne : ¬ (s.id == row.id) = true := by
      intro e
      rw [beq_iff_eq.mp e] at hfree
      exact hfree mem_cons_self
    simp only [Write.apply]
    split_ifs
    · exact mem_map.mpr ⟨s, h.2, if_neg hne⟩
    · exact h.2
  | removeService =>
    refine mem_filter.mpr ⟨h.2, bne_iff_ne.mpr ?_⟩
    rintro rfl
    exact hfree mem_cons_self
  | startActivation | markRolledBack => exact h.2

theorem Plain.kept {ws : List Write} (h : Plain d held ws) (hx : Committed guards w others x)
    (hc : Compatible others held) : Plain (x.apply d) held ws := by
  cases h with
  | create s now actor hs => exact .create s now actor hs
  | change s row now actor hl hid hgen hs =>
    exact .change s row now actor (hl.kept hx hc) hid hgen hs
  | inert y hy => exact .inert y hy

/-- **What others commit keeps what holds at a point.** -/
theorem point_stable (hx : Committed guards w others x) (hc : Compatible others r.held)
    (h : Point d w i r) : Point (x.apply d) w i r := by
  obtain ⟨call, held, pending, began⟩ := r
  cases call with
  | updateService | recordFlashObservation | observed | observedRevisions | rollbackTarget =>
    exact ⟨h.1.kept, h.2⟩
  | updateWrite =>
    obtain ⟨hq, hp, hl, hsel⟩ := h
    exact ⟨hq.kept, hp, hl.kept hx hc, hsel⟩
  | updateCommit =>
    obtain ⟨hq, hl, hsel, hrow, hp⟩ := h
    exact ⟨hq.kept, hl.kept hx hc, hsel, hrow, hp⟩
  | switchWrite | deleteWrite | markCommit => exact ⟨h.1.kept hx hc, h.2⟩
  | startActivation | observationCommit =>
    exact ⟨h.1.kept, h.2.1.kept hx hc, h.2.2⟩
  | commit => exact h.kept hx hc
  | _ => exact h

end Stable

/-! ## 5. The outline -/

section Outline
variable {d : Db} {w : View} {e : Event Db Key Write Call} {uuid : Nat → Nat} {i : Nat}
  {r : Running Key Write Call} {s row : ServiceRow} {now : Int}

abbrev Follows (d : Db) (w : View) (e : Event Db Key Write Call) (uuid : Nat → Nat)
    (i : Nat) (r : Running Key Write Call) (o : Statement) : Prop :=
  Next program guards Inv Point d w e uuid i r o

theorem follows_abort : Follows d w e uuid i r abort := trivial

theorem follows_done : Follows d w e uuid i r (.read .done) := trivial

theorem view_nil (hp : r.pending = []) : program.view r d = d := by
  rw [Program.view, hp]
  rfl

theorem not_fresh (id n : Nat) (m : LockMode) :
    (Key.fresh n, m) ∉ [(Key.service id, LockMode.exclusive)] := by
  simp

/-- A row is selected for an update. -/
theorem follows_lock {c : Call} (h : c.At d ((.service s.id, .exclusive) :: r.held) r.pending) :
    Follows d w e uuid i r (.stmt [(.service s.id, .exclusive)] [] c) := by
  refine ⟨fun n m hm => absurd hm (not_fresh s.id n m), forall_mem_nil _, ?_⟩
  show c.At d _ (r.pending ++ [])
  rwa [append_nil]

variable {actor : Option Uuid}

/-- A service is written. -/
theorem follows_update {c : Call} (hid : row.id = s.id) (hp : r.pending = []) (h : c.At d ((.service
    s.id, .exclusive) :: r.held) [.updateService row now actor]) : Follows d w e uuid i r (update s
    row now actor c) := by
  unfold update
  split_ifs
  · refine ⟨fun n m hm => absurd hm (not_fresh s.id n m), forall_mem_singleton.mpr ?_, ?_⟩
    · refine ⟨trivial, fun k hk => ?_, forall_mem_nil _⟩
      rw [mem_singleton.mp hk, hid]
      exact mem_cons_self
    · show c.At d _ (r.pending ++ _)
      rwa [hp]
  · exact follows_abort

/-- A change of a service that no report comes with. -/
theorem follows_change (hl : Locked d r.held s) (hp : r.pending = []) (hid : row.id = s.id) (hgen :
    row.generation = s.generation + 1) (hs : row.state ≠ .ready) : Follows d w e uuid i r (update s
    row now actor .commit) :=
  follows_update hid hp (.change s row now actor ⟨mem_cons_self, hl.2⟩ hid hgen hs)

theorem find_row {p : ServiceRow → Bool} (h : d.serviceInstances.find? p = some s) :
    s ∈ d.serviceInstances ∧ p s = true :=
  ⟨mem_of_find?_eq_some h, find?_some h⟩

section
variable (hp : r.pending = [])
include hp

theorem updateService_follows {q : ServiceUpdate} (hq : q.Sound d) : Follows d w e uuid i r
    (updateService d q) := by
  unfold updateService
  split
  · exact follows_abort
  rename_i s hfind
  obtain ⟨hs, hrow⟩ := find_row hfind
  rw [Bool.and_eq_true] at hrow
  split_ifs with hgen
  · exact follows_abort
  · exact follows_abort
  refine follows_lock ⟨hq, hp, ⟨mem_cons_self, hs⟩, beq_iff_eq.mp hrow.1, fun g hg => ?_⟩
  rw [hg] at hgen
  by_contra hne
  exact hgen (bne_iff_ne.mpr (Ne.symm hne))

theorem updateWrite_follows {q : ServiceUpdate} (hq : q.Sound d) (hl : Locked d r.held s) (hsel :
    q.Selects s) : Follows d w e uuid i r (updateWrite now q s) := by
  unfold updateWrite
  split
  · exact follows_abort
  rename_i spec hspec
  split_ifs
  · exact follows_abort
  · exact follows_update rfl hp
      ⟨hq, ⟨mem_cons_self, hl.2⟩, hsel, ⟨spec, hspec, rfl⟩, now, rfl⟩

theorem switch_follows {q : Switch} : Follows d w e uuid i r (setFlashServiceStopped d q) := by
  unfold setFlashServiceStopped
  split
  · exact follows_abort
  rename_i s hfind
  split_ifs
  · exact follows_abort
  · exact follows_abort
  · exact follows_lock ⟨⟨mem_cons_self, (find_row hfind).1⟩, hp⟩

theorem switchWrite_follows {q : Switch} (hl : Locked d r.held s) : Follows d w e uuid i r
    (switchWrite now q s) := by
  unfold switchWrite
  split
  · exact follows_abort
  split_ifs
  · exact follows_abort
  · exact follows_change hl hp rfl rfl fun h => ServiceInstanceState.noConfusion h

theorem beginDelete_follows {organization id : Uuid} : Follows d w e uuid i r (beginDelete d
    organization id) := by
  unfold beginDelete
  split
  · exact follows_abort
  rename_i s hfind
  split_ifs
  · exact follows_abort
  · exact follows_lock ⟨⟨mem_cons_self, (find_row hfind).1⟩, hp⟩

theorem completeDelete_follows {id : Uuid} {generation : Nat} : Follows d w e uuid i r
    (completeDelete d id generation) := by
  unfold completeDelete
  split
  · exact follows_abort
  rename_i s hfind
  refine ⟨fun n m hm => absurd hm (not_fresh s.id n m), forall_mem_singleton.mpr ?_, ?_⟩
  · refine ⟨trivial, forall_mem_singleton.mpr ?_, forall_mem_nil _⟩
    exact mem_cons_self
  · show Plain d _ (r.pending ++ _)
    rw [hp]
    exact .inert _ rfl

theorem markService_follows {m : Completion} : Follows d w e uuid i r (markService d now m) := by
  unfold markService
  split
  · exact follows_abort
  · rename_i s hfind
    exact follows_update rfl hp ⟨⟨mem_cons_self, (find_row hfind).1⟩, now, rfl⟩

theorem recordFlashObservation_follows {o : Observation} {seen : ServiceRow} {status : Json} (hseen
    : Recorded d seen) : Follows d w e uuid i r (recordFlashObservation d now o seen status) := by
  unfold recordFlashObservation
  split
  · exact ⟨hseen, rfl⟩
  · rename_i s hfind
    exact follows_update rfl hp ⟨hseen, ⟨mem_cons_self, (find_row hfind).1⟩, now, rfl⟩

end
variable {o : Observation} {seen : ServiceRow}

theorem startActivation_follows {status : Json} (hseen : Recorded d seen) (hl : Locked d r.held s)
    {t : Int} (hp : r.pending = [.updateService (s.observe status) t none]) : Follows d w e uuid i r
    (startActivation now o seen status s) := by
  unfold startActivation
  split_ifs
  · refine ⟨fun n m hm => absurd hm not_mem_nil, forall_mem_singleton.mpr ?_, ?_⟩
    · exact ⟨trivial, forall_mem_nil _,
        forall_mem_nil _⟩
    refine ⟨hseen, hl, t, [.startActivation seen.key now], ?_, forall_mem_singleton.mpr ?_⟩
    · show r.pending ++ _ = _
      rw [hp]
      rfl
    · rfl
  · refine ⟨fun n m hm => absurd hm not_mem_nil, forall_mem_nil _, ?_⟩
    refine ⟨hseen, hl, t, [], ?_, forall_mem_nil _⟩
    show r.pending ++ [] = _
    rw [hp]
    rfl

theorem observed_follows {status : Json} (hp : r.pending = []) (hseen : Recorded d seen) : Follows d
    w e uuid i r (observed d o seen status) := by
  unfold observed
  split_ifs
  · exact follows_done
  split
  · exact follows_done
  · exact ⟨hseen, hp⟩

variable (hI : Inv d w)
include hI
variable {current : ServiceRow}

/-- The rollback of a service that has been read to a revision that has been read. -/
theorem rollback_sound {target : FlashRevision} {principal : Uuid} {automatic : Bool} {prepare :
    Json → Json → Option Json} {spec : Json} (hcurrent : Recorded d current) (htarget : target ∈
    d.flashServiceRevisions) (hready : target.phase = .ready) (hid : target.serviceInstanceId =
    current.id) (holder : target.generation < current.generation) (hspec : rollbackDocument
    target.spec current.spec = some spec) : (current.rollbackTo target principal automatic prepare
    spec).Sound d := by
  intro c v a hpurpose
  cases hpurpose
  exact ⟨rfl, rfl, hid, holder, hspec, hcurrent, target, htarget, rfl, rfl,
    hI.dated target htarget hready⟩

variable (hp : r.pending = [])
include hp

theorem observedRevisions_follows {clock : Int} {current : FlashRevision} (hseen : Recorded d seen)
    : Follows d w e uuid i r (observedRevisions d clock o seen current) := by
  unfold observedRevisions
  split
  · exact follows_done
  split
  · rename_i target principal hfind _
    split
    · split
      · rename_i spec hspec
        have hmem := mem_of_mem_take (mem_of_find?_eq_some hfind)
        rw [mem_insertionSort] at hmem
        obtain ⟨htarget, hof⟩ := mem_filter.mp hmem
        have hsel := find?_some hfind
        simp only [Bool.and_eq_true, decide_eq_true_eq, beq_iff_eq] at hof hsel
        exact ⟨rollback_sound hI hseen htarget hsel.2 hof.2 hsel.1 hspec, hp⟩
      · exact follows_done
    · exact follows_done
  · exact follows_done

theorem rollback_follows {q : RollbackRequest} : Follows d w e uuid i r (rollback d q) := by
  unfold rollback
  split
  · exact follows_done
  rename_i current hfind
  split_ifs
  · exact follows_done
  · exact ⟨hI.recorded current (find_row hfind).1, hp⟩

theorem rollbackTarget_follows {q : RollbackRequest} (hcurrent : Recorded d current) : Follows d w e
    uuid i r (rollbackTarget d q current) := by
  unfold rollbackTarget
  split
  · exact follows_done
  rename_i target hfind
  split_ifs with hbad
  · exact follows_done
  split
  · exact follows_done
  rename_i spec hspec
  split_ifs
  · have hsel := find?_some hfind
    rw [Bool.and_eq_true] at hsel
    have hid : target.serviceInstanceId = current.id :=
      congrArg Prod.fst (beq_iff_eq.mp hsel.2)
    rw [not_or, not_not, Nat.not_le] at hbad
    exact ⟨rollback_sound hI hcurrent (mem_of_find?_eq_some hfind) hbad.1 hid hbad.2
      hspec, hp⟩
  · exact follows_done

omit hp hI

/-! Commits. -/

section Commits
variable {w' : View}

theorem Write.mem_ids {x : Write} {k : Nat} (h : k ∈ ids (x.apply d)) :
    k ∈ ids d ∨ k ∈ x.makes := by
  have hrecord {t : Int} {actor : Option Uuid} {b : ServiceRow} {v : FlashRevision}
      (hv : v ∈ record t actor b d.flashServiceRevisions) :
      v.serviceInstanceId ∈ ids d ∨ v.serviceInstanceId = b.id := by
    rcases mem_record hv with ⟨v₀, hv₀, hlater, _⟩ | ⟨hkey, _⟩
    · left
      rw [hlater.service]
      exact mem_append_right _ (mem_map_of_mem hv₀)
    · exact .inr (congrArg Prod.fst hkey)
  rcases mem_append.mp h with h | h
  · obtain ⟨b, hb, rfl⟩ := mem_map.mp h
    cases x with
    | insertService =>
      rcases mem_append.mp hb with hb | hb
      · exact .inl (mem_append_left _ (mem_map_of_mem hb))
      · rw [mem_singleton.mp hb]
        exact .inr mem_cons_self
    | updateService =>
      simp only [Write.apply] at hb
      split_ifs at hb with hany
      · obtain ⟨a, ha, hcase⟩ := mem_updateWhere hb
        refine .inl (mem_append_left _ ?_)
        rcases hcase with ⟨hid, rfl⟩ | ⟨_, rfl⟩
        · rw [← beq_iff_eq.mp hid]
          exact mem_map_of_mem ha
        · exact mem_map_of_mem ha
      · exact .inl (mem_append_left _ (mem_map_of_mem hb))
    | removeService =>
      exact .inl (mem_append_left _ (mem_map_of_mem (mem_of_mem_filter hb)))
    | startActivation | markRolledBack =>
      exact .inl (mem_append_left _ (mem_map_of_mem hb))
  · obtain ⟨v, hv, rfl⟩ := mem_map.mp h
    cases x with
    | insertService =>
      rcases hrecord hv with hv | hv
      · exact .inl hv
      · rw [hv]
        exact .inr mem_cons_self
    | updateService =>
      simp only [Write.apply] at hv
      split_ifs at hv with hany
      · rcases hrecord hv with hv | hv
        · exact .inl hv
        obtain ⟨b, hb, hid⟩ := any_eq_true.mp hany
        rw [hv, ← beq_iff_eq.mp hid]
        exact .inl (mem_append_left _ (mem_map_of_mem hb))
      · exact .inl (mem_append_right _ (mem_map_of_mem hv))
    | removeService | startActivation | markRolledBack =>
      obtain ⟨v₀, hv₀, hlater, _⟩ := inert_revisions rfl hv
      left
      rw [hlater.service]
      exact mem_append_right _ (mem_map_of_mem hv₀)

theorem view_single {x : Write} (hp : r.pending = [x]) : program.view r d = x.apply d := by
  rw [Program.view, hp]
  rfl

theorem inert_all {ws : List Write} (hws : ∀ x ∈ ws, x.inert = true) :
    ∀ {d : Db}, Inv d w → Inv (program.applyAll ws d) w := by
  induction ws with
  | nil => exact fun h => h
  | cons x _ ih =>
    intro d h
    exact ih (fun y hy => hws y (mem_cons_of_mem _ hy)) (h.inert (hws x mem_cons_self))

theorem recorded_all {ws : List Write} {seen : ServiceRow} :
    ∀ {d : Db}, Recorded d seen → Recorded (program.applyAll ws d) seen := by
  induction ws with
  | nil => exact fun h => h
  | cons _ _ ih =>
    intro d h
    exact ih h.kept

/-- A commit without a report or a rollback. -/
theorem plain_inv (hk : Known ids d w) (hI : Inv d w) (hown : Own guards w r)
    (h : Plain d r.held r.pending) (hw : (w.after e []).Grows (program.view r d) w') :
    Inv (program.view r d) w' := by
  refine Inv.mono hw.commit ?_
  generalize hp : r.pending = ws at h
  cases h with
  | create s t actor hs =>
    rw [view_single hp]
    refine hI.insert (fun hin => ?_) hs
    have hmem : Write.insertService s t actor ∈ r.pending := by
      rw [hp]
      exact mem_cons_self
    exact (hown.committed _ hmem).unborn s.id mem_cons_self (hk.born hin)
  | change _ _ _ _ hl hid hgen hs =>
    rw [view_single hp]
    exact hI.update (fun _ he => he) hl.2 hid (.inr hgen) fun hh => absurd hh (not_healthy hs)
  | inert x hx =>
    rw [view_single hp]
    exact hI.inert hx

/-- The commit of a report. -/
theorem report_inv {actor : Option Uuid} (hI : Inv d w) (hm : e.Makes d w.clock i r)
    (hs : s ∈ d.serviceInstances) (hkey : row.key = s.key) (hspec : row.spec = s.spec)
    (hreport : row.state = .ready → Reports e s (runtime row.status))
    (hw : ∀ e' ∈ e :: w.done, e' ∈ w'.done) :
    Inv ((Write.updateService row now actor).apply d) w' := by
  have hid : row.id = s.id := congrArg Prod.fst hkey
  have hgen : row.generation = s.generation := congrArg Prod.snd hkey
  refine hI.update (fun e' he' => hw e' (mem_cons_of_mem _ he')) hs hid (.inl ⟨hgen, hspec⟩)
    fun hh => ⟨e, hw e mem_cons_self, fun v hv hsp => ?_⟩
  obtain ⟨hstate, hshows⟩ := healthy_shows hh hv hsp
  refine ⟨s, ?_, hkey.symm.trans hv.symm, hspec.symm.trans hsp.symm, _, hreport hstate, hshows⟩
  rw [hm.db]
  exact hs

end Commits

/-- **Every statement leads to a point where its assertion holds.** -/
theorem point_step {o : Statement} (hk : Known ids d w) (hI : Inv d w) (hown : Own guards w r)
    (h : Point d w i r) (hm : e.Makes d w.clock i r)
    (ho : program.exec w.clock (r.began.getD w.clock) uuid (program.view r d) r.call = some o) :
    Follows d w e uuid i r o := by
  obtain ⟨call, held, pending, began⟩ := r
  cases call with
  | createService =>
    cases ho
    refine ⟨fun k m hk' => ?_, forall_mem_singleton.mpr ?_, ?_⟩
    · cases mem_singleton.mp hk'
      exact mem_map.mpr ⟨0, mem_range.mpr Nat.one_pos, rfl⟩
    · refine ⟨trivial, forall_mem_nil _, forall_mem_singleton.mpr ?_⟩
      exact mem_append_left _ mem_cons_self
    · have hp : pending = [] := h
      show Plain d _ (pending ++ _)
      rw [hp]
      exact .create _ _ _ fun hs => ServiceInstanceState.noConfusion hs
  | updateService =>
    rw [view_nil h.2] at ho
    cases ho
    exact updateService_follows h.2 h.1
  | updateWrite =>
    obtain ⟨hq, hp, hl, hsel⟩ := h
    cases ho
    exact updateWrite_follows hp hq hl hsel
  | updateCommit q =>
    obtain ⟨_, hl, _, ⟨spec, _, rfl⟩, t, hp⟩ := h
    cases ho
    intro w' hw _
    refine ⟨?_, ?_⟩
    · rw [view_single hp]
      rw [view_single hp] at hw
      refine Inv.mono hw.commit (hI.update (fun _ he => he) hl.2 rfl (.inr rfl) fun hh => ?_)
      exact absurd hh (not_healthy fun hs => ServiceInstanceState.noConfusion hs)
    · show q.next.At _ [] []
      unfold ServiceUpdate.next
      split
      · rfl
      · exact trivial
  | setFlashServiceStopped =>
    rw [view_nil h] at ho
    cases ho
    exact switch_follows h
  | switchWrite =>
    cases ho
    exact switchWrite_follows h.2 h.1
  | beginDelete =>
    rw [view_nil h] at ho
    cases ho
    exact beginDelete_follows h
  | deleteWrite =>
    cases ho
    exact follows_change h.1 h.2 rfl rfl fun hs => ServiceInstanceState.noConfusion hs
  | completeDelete =>
    rw [view_nil h] at ho
    cases ho
    exact completeDelete_follows h
  | markService =>
    rw [view_nil h] at ho
    cases ho
    exact markService_follows h
  | markCommit m =>
    obtain ⟨hl, t, hp⟩ := h
    cases ho
    intro w' hw _
    refine ⟨?_, trivial⟩
    rw [view_single hp]
    refine report_inv hI hm hl.2 rfl rfl (fun _ => ?_) hw.done
    exact .completion i m ⟨hm.mover, _, hm.runs, rfl⟩ rfl
  | observe =>
    rw [view_nil h] at ho
    cases ho
    split
    · rename_i seen status hfind _
      split_ifs
      · exact follows_done
      · exact ⟨hI.recorded seen (find_row hfind).1, h⟩
    · exact follows_done
  | recordFlashObservation =>
    rw [view_nil h.2] at ho
    cases ho
    exact recordFlashObservation_follows h.2 h.1
  | startActivation =>
    obtain ⟨hseen, hl, t, hp⟩ := h
    cases ho
    exact startActivation_follows hseen hl hp
  | observationCommit o seen status s =>
    obtain ⟨hseen, hl, t, rest, hp, hrest⟩ := h
    cases ho
    intro w' hw _
    have hview : program.view ⟨.observationCommit o seen status s, held, pending, began⟩ d =
        program.applyAll rest ((Write.updateService (s.observe status) t none).apply d) := by
      rw [Program.view, hp]
      rfl
    rw [hview]
    refine ⟨inert_all hrest ?_, recorded_all hseen.kept, rfl⟩
    refine report_inv hI hm hl.2 rfl rfl (fun hstate => ?_) hw.done
    exact .observation i o seen ⟨hm.mover, _, hm.runs, rfl⟩ hstate
  | observed =>
    rw [view_nil h.2] at ho
    cases ho
    exact observed_follows h.2 h.1
  | observedRevisions =>
    rw [view_nil h.2] at ho
    cases ho
    exact observedRevisions_follows hI h.2 h.1
  | markRolledBack =>
    cases ho
    refine ⟨fun n m hm' => absurd hm' not_mem_nil, forall_mem_singleton.mpr ?_, ?_⟩
    · exact ⟨trivial, forall_mem_nil _,
        forall_mem_nil _⟩
    · have hp : pending = [] := h
      show Plain d _ (pending ++ _)
      rw [hp]
      exact .inert _ rfl
  | rollback =>
    rw [view_nil h] at ho
    cases ho
    exact rollback_follows hI h
  | rollbackTarget =>
    rw [view_nil h.2] at ho
    cases ho
    exact rollbackTarget_follows hI h.2 h.1
  | commit =>
    cases ho
    exact fun w' hw _ => ⟨plain_inv hk hI hown h hw, trivial⟩
  | done => cases ho

/-- **The outline.** -/
theorem duties : Duties program guards Inv Point where
  ids h := Write.mem_ids h
  mono_inv hw h := h.mono hw
  mono_at _ h := h
  start {d w i c} hc := by
    show c.At d [] []
    cases c with
    | updateService q =>
      refine ⟨fun current target automatic hp => ?_, rfl⟩
      have hstart : (Call.updateService q).isStart = true := hc
      simp only [Call.isStart, hp] at hstart
      cases hstart
    | createService | setFlashServiceStopped | beginDelete | completeDelete | markService | observe
    | rollback => exact rfl
    | _ => cases hc
  step hk hI hown h hm _ ho := point_step hk hI hown h hm ho
  stable hx hc h := point_stable hx hc h
  fail {d w i r c} _ hc := by
    obtain ⟨call, held, pending, began⟩ := r
    cases call with
    | done => cases hc
    | _ =>
      cases hc
      exact trivial

end Outline

/-! ## 6. Runs -/

/-- There is no service yet. -/
structure Initial : Prop where
  services : d.serviceInstances = []
  revisions : d.flashServiceRevisions = []

/-- An answer to a delivery that shows a replica of the generation ready has the phase ready. -/
def Candid : Prop :=
  ∀ i m s n, e.Executes i (.markCommit m s) →
    castInteger bigintBound (m.status.get "observed_generation") =
      some (some (s.generation : Int)) →
    castInteger integerBound (m.status.get "ready_replicas") = some (some n) → 0 < n →
    observedState m.status = .ready

/-- The provider has reported the revision, while it was current, as ready with a replica. -/
def ReportedReady (v : FlashRevision) : Prop :=
  ∃ s ∈ e.state.db.serviceInstances, s.key = v.key ∧ s.spec = v.spec ∧
    ∃ status, Reports e s status ∧ Shows status v ∧ observedState status = .ready

abbrev Outlined (past : List (Event Db Key Write Call)) (σ : System Db Key Write Call) : Prop :=
  Holds (fun d w => Known guards.ids d w ∧ Inv d w) (fun d w i r => Own guards w r ∧ Point d w i r)
    past σ

section Runs
variable {d : Db} {t : Int} {issued : List Nat} {past : List (Event Db Key Write Call)}
  {σ σ' : System Db Key Write Call}
variable {v : FlashRevision}

theorem Verified.candid {e : Event Db Key Write Call} (h : Verified e v) (hc : Candid e) :
    ReportedReady e v := by
  obtain ⟨s, hs, hkey, hspec, status, hr, hshow⟩ := h
  refine ⟨s, hs, hkey, hspec, status, hr, hshow, ?_⟩
  cases hr with
  | observation _ _ _ _ hready => exact hready
  | completion i m he hm =>
    have hgen : s.generation = v.generation := congrArg Prod.snd hkey
    obtain ⟨n, hn, hpos⟩ := hshow.replicas
    subst hm
    exact hc i m s n he (hgen ▸ hshow.observed) hn hpos

theorem outline_run (h₀ : Initial d) (hrun : Run program (System.quiet d t issued) past σ) :
    Outlined past σ := by
  have hids : ids d = [] := by
    unfold ids
    rw [h₀.services, h₀.revisions]
    rfl
  refine duties.outline.run hrun ⟨.initial fun k hk => ?_, ?_⟩
  · have hid : k ∈ ids d := hk
    rw [hids] at hid
    cases hid
  have hs (s : ServiceRow) : s ∉ d.serviceInstances := by
    rw [h₀.services]
    exact not_mem_nil
  have hv (v : FlashRevision) : v ∉ d.flashServiceRevisions := by
    rw [h₀.revisions]
    exact not_mem_nil
  refine ⟨?_, ?_, fun s h => absurd h (hs s), fun s h => absurd h (hs s),
    fun v h => absurd h (hv v), fun v h => absurd h (hv v)⟩
  · show UniqueKey (·.id) d.serviceInstances
    rw [h₀.services]
    exact nodup_nil
  · show UniqueKey (·.key) d.flashServiceRevisions
    rw [h₀.revisions]
    exact nodup_nil

/-- **What a step that commits a rollback does.** -/
theorem rollback_step {e : Event Db Key Write Call} (h : Outlined past e.state) {i : Nat}
    {q : ServiceUpdate} {s row current : ServiceRow} {target : FlashRevision} {automatic : Bool}
    (he : e.Executes i (.updateCommit q s row))
    (hq : q.purpose = .rollback current target automatic) :
    s ∈ e.state.db.serviceInstances ∧ s.key = current.key ∧ s.spec = current.spec ∧
      row.id = current.id ∧ row.generation = current.generation + 1 ∧
      (∃ spec, rollbackDocument target.spec current.spec = some spec ∧
        q.prepare current.spec spec = some row.spec) ∧
      target.serviceInstanceId = current.id ∧ target.generation < current.generation ∧
      ∃ e' ∈ past, Verified e' target := by
  obtain ⟨_, r, hr, hcall⟩ := he
  obtain ⟨_, hpoint⟩ := h.loc i r hr
  unfold Point at hpoint
  rw [hcall] at hpoint
  obtain ⟨hsound, hl, hsel, ⟨spec, hspec, rfl⟩, _⟩ := hpoint
  have hback := hsound current target automatic hq
  have hid : s.id = current.id := hsel.id.trans hback.id
  have hgen : s.generation = current.generation := hsel.generation _ hback.expected
  have hkey : s.key = current.key := Prod.ext hid hgen
  -- the revision of the generation has the specification that was read and the one there is
  obtain ⟨v, hv, hvkey, hvspec⟩ := hback.recorded
  have hsame : s.spec = current.spec := by
    rw [← hvspec]
    exact (h.inv.2.same_spec hl.2 hv (hvkey.trans hkey.symm)).symm
  obtain ⟨v', hv', hkey', hspec', hready⟩ := hback.ready
  obtain ⟨e, he, hver⟩ := h.inv.2.verified v' hv' hready
  refine ⟨hl.2, hkey, hsame, hid, ?_, ⟨q.spec, hback.document, hsame ▸ hspec⟩, hback.service,
    hback.older, e, he, ?_⟩
  · show s.generation + 1 = _
    rw [hgen]
  obtain ⟨b, hb, hbkey, hbspec, status, hreport, hshow⟩ := hver
  have hvgen : v'.generation = target.generation := congrArg Prod.snd hkey'
  refine ⟨b, hb, hbkey.trans hkey', hbspec.trans hspec', status, hreport, ?_, hshow.replicas, ?_⟩
  · rw [← hvgen]
    exact hshow.observed
  · rw [← hspec']
    exact hshow.running

/-- **Revisions from one state of a run to a later one.** -/
theorem revisions_run (h : Outlined past σ) {later : List (Event Db Key Write Call)} (hrun : Run
    program σ later σ') (hv : v ∈ σ.db.flashServiceRevisions) : ∃ v' ∈ σ'.db.flashServiceRevisions,
    v.Later v' := by
  obtain ⟨_, hlater⟩ := duties.later (Q := fun d _ => ∃ v' ∈ d.flashServiceRevisions, v.Later v')
    (fun _ h => h) (fun {d w held x} _ h => by
      obtain ⟨v', hv', hl⟩ := h
      obtain ⟨v'', hv'', hl'⟩ := revision_kept (x := x) hv'
      exact ⟨v'', hv'', hl.trans hl'⟩) h ⟨v, hv, .refl v⟩ hrun
  exact hlater

end Runs

/-! ## 7. The theorem -/

/-- **Rollbacks.** In every run in which the answers to deliveries are candid: -/
theorem rollbacks_verified {d : Db} {t : Int} {issued : List Nat} (h₀ : Initial d)
    {past : List (Event Db Key Write Call)} {σ : System Db Key Write Call}
    (hrun : Run program (System.quiet d t issued) past σ) (hcandid : ∀ e ∈ past, Candid e) :
    -- a rollback that is committed
    (∀ before e after i q s row current target automatic, past = after ++ e :: before →
      e.Executes i (.updateCommit q s row) → q.purpose = .rollback current target automatic →
      -- is applied to the generation it was computed against
      (s ∈ e.state.db.serviceInstances ∧ s.key = current.key ∧ s.spec = current.spec ∧
        row.id = current.id ∧ row.generation = current.generation + 1) ∧
      -- with the settings of its target
      (∃ spec, rollbackDocument target.spec current.spec = some spec ∧
        q.prepare current.spec spec = some row.spec) ∧
      -- an earlier generation, which the provider had reported ready while it was current
      target.serviceInstanceId = current.id ∧ target.generation < current.generation ∧
      ∃ e' ∈ before, ReportedReady e' target) ∧
    -- and a revision that is ready stays so, with its specification
    ∀ later σ', Run program σ later σ' → ∀ v ∈ σ.db.flashServiceRevisions, v.phase = .ready →
      ∃ v' ∈ σ'.db.flashServiceRevisions, v'.key = v.key ∧ v'.spec = v.spec ∧
        v'.phase = .ready := by
  refine ⟨fun before e after i q s row current target automatic hpast he hq => ?_,
    fun later σ' hlater v hv hready => ?_⟩
  · rw [hpast] at hrun hcandid
    obtain ⟨_, hb, _, _⟩ := hrun.cut
    obtain ⟨hs, hkey, hspec, hid, hgen, hsettings, hservice, holder, e', he', hver⟩ :=
      rollback_step (outline_run h₀ hb) he hq
    refine ⟨⟨hs, hkey, hspec, hid, hgen⟩, hsettings, hservice, holder, e', he', ?_⟩
    exact hver.candid (hcandid e' (mem_append_right _ (mem_cons_of_mem _ he')))
  · have hout := outline_run h₀ hrun
    obtain ⟨v', hv', hl⟩ := revisions_run hout hlater hv
    exact ⟨v', hv', hl.key, hl.spec, hl.phase (hout.inv.2.dated v hv hready) hready⟩

/-- A service is created and delivered with the answer, updated, and rolled back. -/
def rollbackAfter : List (Move Call) :=
  let prepare := fun _ spec => some spec
  .start (.createService ⟨1, 2, 20, "web", .object [("image", .string "web:1")]⟩) ::
    List.replicate 2 (.step 0) ++
  .start (.markService ⟨1, 1, 9, status⟩) :: List.replicate 2 (.step 1) ++
  .start (.updateService ⟨1, 1, 20, none, "web", .object [("image", .string "web:2")], none, .edit,
    prepare⟩) :: List.replicate 3 (.step 2) ++
  .start (.rollback ⟨1, 1, 20, 1, 2, fun _ => true, prepare⟩) :: List.replicate 5 (.step 3)

def Call.rollsBack : Call → Bool
  | .updateCommit q _ _ => match q.purpose with
    | .rollback _ _ _ => true
    | .edit => false
  | _ => false

/-- The point commits a report of the phase ready. -/
def Call.saysReady : Call → Bool
  | .observationCommit _ _ status _ => observedState status == .ready
  | .markCommit m _ => observedState m.status == .ready
  | _ => false

/-- The point commits an answer of another phase. -/
def Call.saysOther : Call → Bool
  | .markCommit m _ => observedState m.status != .ready
  | _ => false

theorem rollsBack_of {c : Call} (h : c.rollsBack = true) : ∃ q s row current target automatic,
    c = .updateCommit q s row ∧ q.purpose = .rollback current target automatic := by
  cases c with
  | updateCommit q s row =>
    cases hp : q.purpose with
    | edit =>
      simp only [Call.rollsBack, hp] at h
      cases h
    | rollback current target automatic => exact ⟨q, s, row, current, target, automatic, rfl, hp⟩
  | _ => cases h

/-- What is checked of a schedule: it has a rollback, and no point passes `bad`. -/
def rollsBackWithout (bad : Call → Bool)
    (x : Trail Db Key Write Call × Machine Db Key Write Call) : Bool :=
  (x.1.any fun y => (y.1.executed y.2).any Call.rollsBack) &&
    x.1.all fun y => !(y.1.executed y.2).any bad

theorem rollsBackWithout_of {bad : Call → Bool}
    {x : Trail Db Key Write Call × Machine Db Key Write Call} (h : rollsBackWithout bad x = true) :
    (∃ e ∈ Trail.events x.1, ∃ i q s row current target automatic,
      e.Executes i (.updateCommit q s row) ∧ q.purpose = .rollback current target automatic) ∧
    ∀ e ∈ Trail.events x.1, ∀ i c, e.Executes i c → bad c = false := by
  obtain ⟨hany, hall⟩ := Bool.and_eq_true_iff.mp h
  refine ⟨?_, fun e he i c hexec => ?_⟩
  · obtain ⟨⟨m, who⟩, hmem, hcall⟩ := any_eq_true.mp hany
    obtain ⟨c, hc, hback⟩ := (Option.any_eq_true _ _).mp hcall
    obtain ⟨q, s, row, current, target, automatic, rfl, hp⟩ := rollsBack_of hback
    obtain ⟨i, hexec⟩ := Machine.executes_of hc
    exact ⟨_, mem_map.mpr ⟨(m, who), hmem, rfl⟩, i, q, s, row, current, target, automatic,
      hexec, hp⟩
  · obtain ⟨⟨m, who⟩, hmem, rfl⟩ := mem_map.mp he
    have hgood := all_eq_true.mp hall (m, who) hmem
    rw [Machine.executed_of hexec] at hgood
    exact (Bool.not_eq_true' _).mp hgood

/-- An answer that shows one replica of the first generation ready. -/
def answer (phase : String) : Json :=
  .object [("observed_generation", .int 1), ("phase", .string phase), ("ready_replicas", .int 1)]

/-- **A rollback to what was never reported ready**, in a run in which the provider has answered
that it is still provisioning. -/
theorem rollbacks_verified_early : ∃ past σ, Run program (System.quiet {} 0 []) past σ ∧
    (∃ e ∈ past, ∃ i q s row current target automatic, e.Executes i (.updateCommit q s row) ∧
      q.purpose = .rollback current target automatic) ∧
    ∀ e ∈ past, ∀ s status, Reports e s status → observedState status ≠ .ready := by
  have hplay : ((Machine.quiet {} 0 []).record program []
      (rollbackAfter (answer "provisioning"))).any (rollsBackWithout Call.saysReady) = true := by
    decide +kernel
  obtain ⟨trail, m, hrun, hcheck⟩ := record_any hplay
  obtain ⟨hback, hnone⟩ := rollsBackWithout_of hcheck
  refine ⟨_, m.system, hrun, hback, fun e he s status hr => ?_⟩
  cases hr with
  | observation i _ _ hexec =>
    have hnot := hnone e he i _ hexec
    simp only [Call.saysReady, beq_eq_false_iff_ne] at hnot
    exact hnot
  | completion i m hexec hm =>
    have hnot := hnone e he i _ hexec
    simp only [Call.saysReady, beq_eq_false_iff_ne] at hnot
    exact hm ▸ hnot

theorem rollbacks_verified_ready : ∃ past σ, Run program (System.quiet {} 0 []) past σ ∧
    ∃ e ∈ past, ∃ i q s row current target automatic, e.Executes i (.updateCommit q s row) ∧
      q.purpose = .rollback current target automatic ∧ ∃ e' ∈ past, ReportedReady e' target := by
  have hplay : ((Machine.quiet {} 0 []).record program [] (rollbackAfter (answer "ready"))).any
      (rollsBackWithout Call.saysOther) = true := by
    decide +kernel
  obtain ⟨trail, m, hrun, hcheck⟩ := record_any hplay
  obtain ⟨⟨e, he, i, q, s, row, current, target, automatic, hexec, hq⟩, hnone⟩ :=
    rollsBackWithout_of hcheck
  have hcandid : ∀ e ∈ Trail.events trail, Candid e := by
    intro e he i m s n hexec _ _ _
    have hnot := hnone e he i _ hexec
    simp only [Call.saysOther, bne_eq_false_iff_eq] at hnot
    exact hnot
  obtain ⟨after, before, hpast⟩ := append_of_mem he
  obtain ⟨_, _, _, _, e', he', hready⟩ := (rollbacks_verified ⟨rfl, rfl⟩ hrun hcandid).1 before e
    after i q s row current target automatic hpast hexec hq
  refine ⟨_, m.system, hrun, e, he, i, q, s, row, current, target, automatic, hexec, hq, e', ?_,
    hready⟩
  rw [hpast]
  exact mem_append_right _ (mem_cons_of_mem _ he')

/-- **The history of a service is complete.** In every state of every run, whatever specification a
service has been committed with is the one of the only revision of that service and generation,
and no revision is ahead of its service. -/
theorem revisions_complete {d : Db} {t : Int} {issued : List Nat} (h₀ : Initial d)
    {past : List (Event Db Key Write Call)} {σ : System Db Key Write Call}
    (hrun : Run program (System.quiet d t issued) past σ) :
    (∀ e ∈ past, ∀ s ∈ e.state.db.serviceInstances, ∃ v ∈ σ.db.flashServiceRevisions,
      v.key = s.key ∧ v.spec = s.spec ∧
        ∀ v' ∈ σ.db.flashServiceRevisions, v'.key = s.key → v' = v) ∧
    ∀ s ∈ σ.db.serviceInstances, ∀ v ∈ σ.db.flashServiceRevisions, v.serviceInstanceId = s.id →
      v.generation ≤ s.generation := by
  have hinv := (outline_run h₀ hrun).inv.2
  refine ⟨fun e he s hs => ?_, hinv.bounded⟩
  obtain ⟨before, after, σ₁, hb, hstep, ha, _⟩ := hrun.split he
  have hout := outline_run h₀ hb
  obtain ⟨v, hv, hkey, hspec⟩ := hout.inv.2.recorded s hs
  obtain ⟨v', hv', hl⟩ := revisions_run hout ((Run.start.step hstep).append ha) hv
  have hkey' : v'.key = s.key := hl.key.trans hkey
  exact ⟨v', hv', hkey', hl.spec.trans hspec, fun v'' hv'' h =>
    hinv.revisions.eq hv'' hv' (h.trans hkey'.symm)⟩

theorem revisions_complete_ready : ∃ past σ, Run program (System.quiet {} 0 []) past σ ∧
    ∃ e ∈ past, ∃ s ∈ e.state.db.serviceInstances, ∃ v ∈ σ.db.flashServiceRevisions,
      v.key = s.key ∧ v.spec = s.spec := by
  have hplay : ((Machine.quiet {} 0 []).record program [] (rollbackAfter (answer "ready"))).any
      (fun x => x.1.any fun y => y.1.db.serviceInstances.any fun _ => true) = true := by
    decide +kernel
  obtain ⟨trail, m, hrun, hcheck⟩ := record_any hplay
  simp only [any_eq_true, and_true] at hcheck
  obtain ⟨y, hy, s, hs⟩ := hcheck
  have hcomplete := (revisions_complete ⟨rfl, rfl⟩ hrun).1
  obtain ⟨v, hv, hkey, hspec, _⟩ := hcomplete _ (mem_map_of_mem hy) s hs
  exact ⟨_, m.system, hrun, _, mem_map_of_mem hy, s, hs, v, hv, hkey, hspec⟩

end HeteroCloud.Revisions
