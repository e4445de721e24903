/-
  File:      Services/Disks.lean
  Subject:   PERSISTENT DISKS of Flash services: whether what is requested ever gets smaller.

  An update is compared with the specification it replaces and with the size the status reports
  (`validate_flash_disk_update`), and it sets the status to `{}`. So a specification that omits the
  size, followed by another before the provider has reported, makes the store forget it.
-/
import HeteroCloud.Services.Checks

namespace HeteroCloud.Services

open Base Iam List
open Store (ServiceInstanceState StoreError)

/-! ## 1. Sizes -/

/-- `persistent_storage_gib`. -/
def ServiceSpec.persistentGib (spec : ServiceSpec) : Option Nat :=
  spec.flash?.bind (·.persistentStorageGib)

/-- `persistent_storage_bytes` of a status. -/
def reportedBytes (status : Json) : Nat :=
  ((((status.get "status").getD status).get "persistent_storage_bytes").bind Json.asNat).getD 0

variable (past : List (Event Db Key Write Call))

/-- A specification of the service that was committed before requests the size. -/
def Requested (id : Uuid) (size : Nat) : Prop :=
  ∃ e ∈ past, ∃ s ∈ e.state.db.serviceInstances, s.id = id ∧ s.spec.persistentGib = some size

/-- The step commits a size for a service that has none only if its status reports at least what
was requested before. -/
def Remembers (e : Event Db Key Write Call) : Prop :=
  ∀ i ch spec s, e.Executes i (.changeCommit ch spec) → ch.existing = some s →
    s.spec.persistentGib = none → spec.persistentGib.isSome = true →
    ∀ size, Requested past s.id size → size * gib ≤ reportedBytes s.status

/-- Every step of the run does. -/
def AllRemember : List (Event Db Key Write Call) → Prop
  | [] => True
  | e :: past => Remembers past e ∧ AllRemember past

section Disks
variable {u : Setup} {d : Db} {t : Int} {issued : List Nat} {ch : Change} {spec : ServiceSpec}
  {past : List (Event Db Key Write Call)} {σ σ' : System Db Key Write Call} {held : Locks}
  {s : ServiceRow} {n m i : Nat} {mover : Option Nat}

theorem gib_pos : 0 < gib := by decide

theorem setStopped_persistentGib (stopped : Bool) (spec : ServiceSpec) :
    (spec.setStopped stopped).persistentGib = spec.persistentGib := by
  cases spec <;> rfl

/-- Preparing a specification keeps the size. -/
theorem prepareSpec_persistentGib (h : prepareSpec u d ch = .ok spec) :
    spec.persistentGib = ch.requested.persistentGib := by
  have hprovider := prepareSpec_provider h
  cases hreq : ch.requested with
  | flash requested =>
    obtain ⟨f, _, rfl, _, hf⟩ := prepareSpec_flash h hreq
    show f.persistentStorageGib = requested.persistentStorageGib
    rw [hf.only]
  | _ =>
    rw [hreq] at hprovider
    cases spec with
    | flash => cases hprovider
    | _ => rfl

-- Both for any factor, since Lean would compute with 2^30 in unary.
variable {size : Option Nat}

theorem le_of_all_le {factor bytes : Nat} (hn : size = some n) (h : size.all (fun gib => decide (gib
    * factor ≤ bytes)) = true) : n * factor ≤ bytes := by
  subst hn
  exact of_decide_eq_true h

theorem le_of_any_lt {factor retained : Nat} (hn : size = some n) (h : ¬ (size.map (· * factor)).any
    (fun bytes => decide (bytes < retained)) = true) : retained ≤ n * factor := by
  subst hn
  by_contra hlt
  exact h (decide_eq_true (Nat.lt_of_not_le hlt))

/-- What the check of the disks says. -/
theorem validateFlashDiskUpdate_ok {old f : FlashSpec} {status : Json}
    (h : validateFlashDiskUpdate old status f = .ok ()) (hn : f.persistentStorageGib = some n) :
    reportedBytes status ≤ n * gib ∧ old.persistentStorageGib.getD 0 ≤ n := by
  unfold validateFlashDiskUpdate at h
  dsimp only at h
  split at h
  · cases h
  rename_i hfits
  have hle : max (reportedBytes status) (old.persistentStorageGib.getD 0 * gib) ≤ n * gib :=
    le_of_any_lt hn hfits
  have hreported := Nat.le_trans (Nat.le_max_left _ _) hle
  have hold := Nat.le_trans (Nat.le_max_right _ _) hle
  exact ⟨hreported, Nat.le_of_mul_le_mul_right hold gib_pos⟩

/-! ## 2. One step -/

/-- What a change of a service commits: the size it has, or one that is checked. -/
theorem commits_size (h : Commits u past σ i ch spec held) (hs : ch.existing = some s)
    (hn : spec.persistentGib = some n) :
    s.spec.persistentGib = some n ∨
      (reportedBytes s.status ≤ n * gib ∧ s.spec.persistentGib.getD 0 ≤ n) := by
  obtain ⟨_, hch⟩ := h.changing.locked.row s hs
  cases hk : ch.kind with
  | create => cases (h.changing.locked.kind.mpr hk).symm.trans hs
  | stop =>
    have hspec := h.changing.fitting.stop hk
    rw [hspec, (hch.stop hk).requested, setStopped_persistentGib] at hn
    exact .inl hn
  | start =>
    have hnot : ch.kind ≠ .stop := by rw [hk]; exact ChangeKind.noConfusion
    obtain ⟨_, _, hprepared, _⟩ := (h.passed hnot).prepared
    rw [prepareSpec_persistentGib hprepared, (hch.start hk).requested,
      setStopped_persistentGib] at hn
    exact .inl hn
  | update =>
    have hnot : ch.kind ≠ .stop := by rw [hk]; exact ChangeKind.noConfusion
    have hprovider : s.provider = spec.provider :=
      hch.provider.trans h.changing.fitting.provider.symm
    cases spec with
    | flash f =>
      cases hold : s.spec with
      | flash old =>
        have hdisks := (h.passed hnot).disks s old f hk hs hold rfl
        exact .inr (validateFlashDiskUpdate_ok hdisks hn)
      | _ =>
        rw [ServiceRow.provider, hold] at hprovider
        cases hprovider
    | _ => cases hn

/-- **One step** keeps the sizes, if it remembers them. -/
theorem sizes_step (hk : CheckedOutline u past σ)
    (hknown : ∀ e ∈ past, ∀ s ∈ e.state.db.serviceInstances, s.id ∈ σ.db.knownServices)
    (hs : StepBy (program u) σ mover σ') (hrem : Remembers past ⟨σ, mover⟩)
    (h : ∀ s ∈ σ.db.serviceInstances, ∀ n, s.spec.persistentGib = some n →
      ∀ m, Requested past s.id m → m ≤ n) :
    ∀ s ∈ σ'.db.serviceInstances, ∀ n, s.spec.persistentGib = some n →
      ∀ m, Requested (⟨σ, mover⟩ :: past) s.id m → m ≤ n := by
  intro s' hs' n hn m hm
  obtain ⟨_, hi⟩ := hk.inv
  rcases step_service hk hs hs' with ⟨s, hmem, hsame, _⟩ | ⟨i, ch, spec, held, rfl, hc, rfl⟩
  · rw [hsame.spec] at hn
    obtain ⟨e, he, s₁, hs₁, hid, hsize⟩ := hm
    rcases mem_cons.mp he with rfl | he
    · rw [hi.services.eq hs₁ hmem (hid.trans hsame.id), hn] at hsize
      cases hsize
      exact Nat.le_refl _
    · exact h s hmem n hn m ⟨e, he, s₁, hs₁, hid.trans hsame.id, hsize⟩
  have hid' := hc.changing.result.id
  cases hex : ch.existing with
  | none =>
    -- a new service: nothing was requested under its id
    have hnew := hc.unknown hex
    obtain ⟨e, he, s₁, hs₁, hid, _⟩ := hm
    rw [hid'] at hid
    rcases mem_cons.mp he with rfl | he
    · exact absurd (hid ▸ hi.owned s₁ hs₁) hnew
    · exact absurd (hid ▸ hknown e he s₁ hs₁) hnew
  | some old =>
    obtain ⟨hlocked, hch⟩ := hc.changing.locked.row old hex
    have hspec : (ch.result spec).spec = spec := by
      unfold Change.result
      rw [hex]
      rfl
    rw [hspec] at hn
    have hsize := commits_size hc hex hn
    obtain ⟨e, he, s₁, hs₁, hid, hsize₁⟩ := hm
    have hid : s₁.id = old.id := hid.trans (hid'.trans hch.id.symm)
    rcases mem_cons.mp he with rfl | he
    · rw [hi.services.eq hs₁ hlocked.row hid] at hsize₁
      rcases hsize with hsize | ⟨_, hsize⟩
      · rw [hsize] at hsize₁
        cases hsize₁
        exact Nat.le_refl _
      · rw [hsize₁] at hsize
        exact hsize
    have hreq : Requested past old.id m := ⟨e, he, s₁, hs₁, hid, hsize₁⟩
    cases hold : old.spec.persistentGib with
    | some k =>
      have hle := h old hlocked.row k hold m hreq
      rw [hold] at hsize
      rcases hsize with hsize | ⟨_, hsize⟩
      · cases hsize
        exact hle
      · exact Nat.le_trans hle hsize
    | none =>
      have hsome : spec.persistentGib.isSome = true := by rw [hn]; rfl
      have hrep := hrem i ch spec old hc.executes hex hold hsome m hreq
      rcases hsize with hsize | ⟨hsize, _⟩
      · cases hold.symm.trans hsize
      · exact Nat.le_of_mul_le_mul_right (Nat.le_trans hrep hsize) gib_pos

end Disks

/-! ## 3. Runs -/

/-- **Disks do not shrink** in a run whose steps remember the sizes: what a committed specification
requests is at least what any specification of the service committed before it requests. -/
theorem disks_kept {u : Setup} {d : Db} {t : Int} {issued : List Nat} (h₀ : Initial d issued)
    {past : List (Event Db Key Write Call)} {σ : System Db Key Write Call}
    (hr : Run (program u) (System.quiet d t issued) past σ) (hrem : AllRemember past) :
    ∀ s ∈ σ.db.serviceInstances, ∀ n, s.spec.persistentGib = some n →
      ∀ m, Requested past s.id m → m ≤ n := by
  induction hr with
  | start =>
    rintro s hs n hn m ⟨e, he, _⟩
    cases he
  | step hb hs ih =>
    exact sizes_step (checked_run h₀ hb) (owners_run h₀ hb) hs hrem.1 (ih hrem.2)

/-! ## 4. Two runs -/

/-- A step remembers the sizes, as a check of a machine. -/
def remembers (trail : Trail Db Key Write Call) (s : ServiceRow) : Bool :=
  trail.all fun x => x.1.db.serviceInstances.all fun s' => s'.id != s.id ||
    s'.spec.persistentGib.all fun size => decide (size * gib ≤ reportedBytes s.status)

def Trail.remember : Trail Db Key Write Call → Bool
  | [] => true
  | (m, who) :: trail =>
      (match m.executed who with
        | some (.changeCommit ch spec) => ch.existing.all fun s =>
            s.spec.persistentGib.isSome || spec.persistentGib.isNone || remembers trail s
        | _ => true) && Trail.remember trail

theorem Trail.allRemember {trail : Trail Db Key Write Call} (h : Trail.remember trail = true) :
    AllRemember trail.events := by
  induction trail with
  | nil => exact trivial
  | cons x _ ih =>
    obtain ⟨m, who⟩ := x
    rw [Trail.remember, Bool.and_eq_true] at h
    refine ⟨?_, ih h.2⟩
    rintro i ch spec s hx hs hnone hsome size ⟨e, he, s', hs', hid, hsize⟩
    have hstep := h.1
    rw [Machine.executed_of hx] at hstep
    simp only [hs, hnone, Option.all_some, Option.isSome_none, Bool.false_or, Bool.or_eq_true,
      Option.isNone_iff_eq_none] at hstep
    rcases hstep with hstep | hstep
    · rw [hstep] at hsome
      cases hsome
    obtain ⟨y, hy, rfl⟩ := mem_map.mp he
    have hrow := all_eq_true.mp (all_eq_true.mp hstep y hy) s' hs'
    rw [hid, bne_self_eq_false, Bool.false_or] at hrow
    exact le_of_all_le hsize hrow

def withDisk (size : Option Nat) : FlashSpec := { plainFlash with persistentStorageGib := size }

/-- The size of the service 30. -/
def sizeOf30 (m : Machine Db Key Write Call) : Option Nat :=
  (m.db.service 30).bind (·.spec.persistentGib)

theorem sizeOf30_row {m : Machine Db Key Write Call} {n : Nat} (h : sizeOf30 m = some n) :
    ∃ s ∈ m.db.serviceInstances, s.id = 30 ∧ s.spec.persistentGib = some n := by
  obtain ⟨s, hs, hsize⟩ := Option.bind_eq_some_iff.mp h
  have hid := find?_some (show List.find? (·.id == 30) _ = some s from hs)
  exact ⟨s, mem_of_find?_eq_some hs, beq_iff_eq.mp hid, hsize⟩

/-- A disk of 5 GiB is requested, then none; the provider reports it; then 7 GiB are requested. -/
def diskGrows : List (Move Call) :=
  runs 0 (createFlash 30 "app" (withDisk (some 5))) 14 ++
    runs 1 (updateFlash 30 "app" (withDisk none)) 12 ++
    runs 2 (.recordFlashObservation
      { id := 30, organizationId := 1, projectId := 2, name := "app",
        spec := .flash (withDisk none), generation := 2 }
      (.object [("observed_generation", .int 2), ("persistent_storage_bytes", .int 5368709120)]))
      2 ++
    runs 3 (updateFlash 30 "app" (withDisk (some 7))) 12

theorem disks_kept_reported : ∃ past σ,
    Run (program standalone) (System.quiet oneAccount 0 [20, 1]) past σ ∧ AllRemember past ∧
      Requested past 30 5 ∧ ∃ s ∈ σ.db.serviceInstances, s.id = 30 ∧
        s.spec.persistentGib = some 7 ∧ 5 ≤ 7 := by
  have hplay : ((Machine.quiet oneAccount 0 [20, 1]).record (program standalone) []
      diskGrows).any (fun x => Trail.remember x.1 && (sizeOf30 x.2 == some 7 &&
        x.1.any fun y => sizeOf30 y.1 == some 5)) = true := by
    decide +kernel
  obtain ⟨trail, m, hrun, hcheck⟩ := record_any hplay
  simp only [Bool.and_eq_true, beq_iff_eq, any_eq_true] at hcheck
  obtain ⟨hrem, hseven, y, hy, hfive⟩ := hcheck
  obtain ⟨s, hs, hid, hsize⟩ := sizeOf30_row hseven
  have hreq : Requested trail.events 30 5 :=
    ⟨_, mem_map_of_mem hy, sizeOf30_row hfive⟩
  have hall := Trail.allRemember hrem
  refine ⟨_, _, hrun, hall, hreq, s, hs, hid, hsize, ?_⟩
  exact disks_kept oneAccount_initial hrun hall s hs 7 hsize 5 (hid.symm ▸ hreq)

/-- A disk of 5 GiB is requested, then none, then one of 2 GiB. -/
def diskShrinks : List (Move Call) :=
  runs 0 (createFlash 30 "app" (withDisk (some 5))) 14 ++
    runs 1 (updateFlash 30 "app" (withDisk none)) 12 ++
    runs 2 (updateFlash 30 "app" (withDisk (some 2))) 12

/-- **A disk shrinks.** -/
theorem disks_shrink : ∃ past σ,
    Run (program standalone) (System.quiet oneAccount 0 [20, 1]) past σ ∧
      Requested past 30 5 ∧ ∃ s ∈ σ.db.serviceInstances, s.id = 30 ∧
        s.spec.persistentGib = some 2 := by
  have hplay : ((Machine.quiet oneAccount 0 [20, 1]).record (program standalone) []
      diskShrinks).any (fun x => sizeOf30 x.2 == some 2 &&
        x.1.any fun y => sizeOf30 y.1 == some 5) = true := by
    decide +kernel
  obtain ⟨trail, m, hrun, hcheck⟩ := record_any hplay
  simp only [Bool.and_eq_true, beq_iff_eq, any_eq_true] at hcheck
  obtain ⟨htwo, y, hy, hfive⟩ := hcheck
  exact ⟨_, _, hrun, ⟨_, mem_map_of_mem hy, sizeOf30_row hfive⟩, sizeOf30_row htwo⟩

end HeteroCloud.Services
