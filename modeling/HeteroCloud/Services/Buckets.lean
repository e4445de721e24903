/-
  File:      Services/Buckets.lean
  Subject:   THE NAMES OF BUCKETS: no constraint of the database keeps two Syouyu services from
             having one name. `prepare_syouyu_spec` looks for it under a lock of its own, held to
             the commit, and keeps a service from changing its name or region.
-/
import HeteroCloud.Services.Checks

namespace HeteroCloud.Services

open Base Iam List
open Store (ServiceInstanceState StoreError)

variable {u : Setup} {ch : Change} {spec : ServiceSpec} {d : Db} {t : Int} {issued : List Nat}
  {past : List (Event Db Key Write Call)}

/-! ## 1. What is checked -/

section Prepared
variable {d d₀ : Db} {w : View} {s : ServiceRow} {checks : SpecChecks} {rows : List ServiceSpec}
  {owner excluded : Option Uuid} {stored : Option SyouyuSpec} {quota : ResourceQuotaLimits}
  {requested made : SyouyuSpec}

/-- What `prepare_syouyu_spec` has checked of the name: nobody else has it, and the service had it
before. -/
structure BucketPrepared (owner excluded : Option Uuid) (stored : Option SyouyuSpec)
    (requested made : SyouyuSpec) : Prop where
  only : made = requested
  owner : owner = none ∨ owner = excluded
  kept : ∀ old, stored = some old →
    old.bucketName = requested.bucketName ∧ old.region = requested.region

theorem prepareSyouyuSpec_ok
    (h : prepareSyouyuSpec checks rows owner excluded stored quota requested = .ok made) :
    BucketPrepared owner excluded stored requested made := by
  unfold prepareSyouyuSpec at h
  dsimp only at h
  split at h
  · cases h
  split_ifs at h with hbytes hobjects howner hkept hbuckets htotal
  cases h
  refine ⟨rfl, ?_, ?_⟩
  · cases hname : owner with
    | none => exact .inl rfl
    | some =>
      refine .inr ?_
      by_contra hne
      rw [hname] at howner
      exact howner (by simpa using hne)
  · rintro old rfl
    simpa using hkept

theorem syouyu_scope {organization : Uuid} : Key.bucketNames ∈ scopeKeys u organization .syouyu :=
  mem_append_right _ mem_cons_self

theorem syouyu?_some (h : spec.syouyu? = some made) : spec = .syouyu made := by
  cases spec with
  | syouyu => cases h; rfl
  | _ => cases h

theorem prepareSpec_syouyu (h : prepareSpec u d ch = .ok (.syouyu made)) :
    BucketPrepared (d.bucketOwner made.bucketName) ch.excluded
      (ch.existing.bind (·.spec.syouyu?)) made made := by
  have hprovider := prepareSpec_provider h
  unfold prepareSpec at h
  split at h
  · rename_i hreq
    rw [hreq] at hprovider
    cases hprovider
  · rename_i hreq
    rw [hreq] at hprovider
    cases hprovider
  · obtain ⟨quota, _, h⟩ := bind_ok h
    obtain ⟨made', hmade, h⟩ := bind_ok h
    cases h
    have hok := prepareSyouyuSpec_ok hmade
    rw [← hok.only] at hok
    exact hok
  · rename_i hreq
    rw [hreq] at hprovider
    cases hprovider
  · rename_i hreq
    rw [hreq] at hprovider
    cases hprovider

/-- Nobody has a name that has no owner. -/
theorem bucketOwner_none {name : String} (h : d.bucketOwner name = none)
    (hs : s ∈ d.serviceInstances) (hspec : s.spec = .syouyu made) : made.bucketName ≠ name := by
  unfold Db.bucketOwner at h
  rw [Option.map_eq_none_iff, find?_eq_none] at h
  have hrow := h s hs
  simpa [hspec, ServiceSpec.syouyu?] using hrow

/-- The name and the region of a bucket. -/
def ServiceSpec.bucket (spec : ServiceSpec) : Option (String × String) :=
  spec.syouyu?.map fun b => (b.bucketName, b.region)

theorem bucket_none (h : spec.provider ≠ .syouyu) : spec.bucket = none := by
  cases spec with
  | syouyu => exact absurd rfl h
  | _ => rfl

/-- **A bucket that is written**: it is new and nobody has its name, or it keeps name and region. -/
theorem Prepared.bucket_free (h : Prepared u d w ch (.syouyu made))
    (hprovider : ch.requested.provider = .syouyu) (hnew : ch.existing = none)
    (hs : s ∈ d.serviceInstances) {region : String} :
    s.spec.bucket ≠ some (made.bucketName, region) := by
  intro hb
  obtain ⟨σ, _, hprep, hd⟩ := h
  obtain ⟨b, hsome, hname⟩ := Option.map_eq_some_iff.mp hb
  have hspec := syouyu?_some hsome
  have hnone : σ.db.bucketOwner made.bucketName = none := by
    rcases (prepareSpec_syouyu hprep).owner with hnone | hexcluded
    · exact hnone
    · rw [hexcluded, Change.excluded, hnew]
      rfl
  have hl : (Key.bucketNames, LockMode.exclusive) ∈ ch.locks u := by
    unfold Change.locks
    rw [hprovider]
    exact mem_append_right _ mem_cons_self
  have hp : s.provider = .syouyu := by
    rw [ServiceRow.provider, hspec]
    rfl
  obtain ⟨s₀, hs₀, hsame, _⟩ := keyed_origin (fun _ => syouyu_scope) hl hd s hs hp
  exact bucketOwner_none hnone hs₀ (hsame.spec.symm.trans hspec) (congrArg Prod.fst hname)

theorem Prepared.bucket_kept (h : Prepared u d w ch (.syouyu made)) {old : ServiceRow}
    (hold : ch.existing = some old) (hprovider : old.spec.provider = .syouyu) :
    old.spec.bucket = some (made.bucketName, made.region) := by
  obtain ⟨σ, _, hprep, _⟩ := h
  cases hspec : old.spec with
  | syouyu b =>
    obtain ⟨hname, hregion⟩ := (prepareSpec_syouyu hprep).kept b
      (by rw [hold, Option.bind_some, hspec]; rfl)
    simp only [ServiceSpec.bucket, ServiceSpec.syouyu?, Option.map_some, hname, hregion]
  | _ => rw [hspec] at hprovider; cases hprovider

end Prepared

/-! ## 2. Steps -/

/-- **No two buckets have one name.** -/
def BucketsOk (d : Db) : Prop :=
  ∀ s ∈ d.serviceInstances, ∀ s' ∈ d.serviceInstances, ∀ name region region',
    s.spec.bucket = some (name, region) → s'.spec.bucket = some (name, region') → s.id = s'.id

section Steps
variable {σ σ' : System Db Key Write Call} {mover : Option Nat} {s s' : ServiceRow} {i : Nat}
  {held : Locks}
variable (h : Commits u past σ i ch spec held)
include h

/-- A service is not stopped into a bucket. -/
theorem Commits.prepares (hs : spec.provider = .syouyu) : Prepared u σ.db (σ.world past) ch
    spec := by
  refine (h.passed fun hk => ?_).prepared
  have hprovider : ch.requested.provider = .syouyu := h.changing.fitting.provider.symm.trans hs
  cases hex : ch.existing with
  | none => cases hk.symm.trans (h.changing.locked.kind.mp hex)
  | some old =>
    have hold := (h.changing.locked.row old hex).2
    cases (hold.stop hk).provider.symm.trans (hold.provider.trans hprovider)

/-- The change leaves the bucket of the service as it was. -/
theorem Commits.bucket_kept {old : ServiceRow} (hold : ch.existing = some old) : old.spec.bucket =
    spec.bucket := by
  have hp : old.spec.provider = spec.provider :=
    ((h.changing.locked.row old hold).2.provider).trans h.changing.fitting.provider.symm
  by_cases hs : spec.provider = .syouyu
  · cases spec with
    | syouyu => exact (h.prepares hs).bucket_kept hold hp
    | _ => cases hs
  · rw [bucket_none hs, bucket_none (hp ▸ hs)]

/-- A new bucket has a name no bucket has. -/
theorem Commits.bucket_free (hnew : ch.existing = none) (hs : s ∈ σ.db.serviceInstances) {name
    region region' : String} (hb : spec.bucket = some (name, region)) : s.spec.bucket ≠ some (name,
    region') := by
  cases spec with
  | syouyu =>
    cases hb
    exact (h.prepares rfl).bucket_free h.changing.fitting.provider.symm hnew hs
  | _ => cases hb

omit h

/-- **A service after a step** has the bucket it had before it, or it is new. -/
theorem bucket_step (h : CheckedOutline u past σ) (hs : StepBy (program u) σ mover σ')
    (hmem : s' ∈ σ'.db.serviceInstances) :
    (∃ s ∈ σ.db.serviceInstances, s.id = s'.id ∧ s.spec.bucket = s'.spec.bucket) ∨
    ∃ i ch spec held, mover = some i ∧ Commits u past σ i ch spec held ∧ ch.existing = none ∧
      s'.id = ch.id ∧ s'.spec = spec := by
  rcases step_service h hs hmem with ⟨s, hs, hsame, _⟩ | ⟨i, ch, spec, held, rfl, hc, rfl⟩
  · exact .inl ⟨s, hs, hsame.id.symm, by rw [hsame.spec]⟩
  have hres := hc.changing.result
  cases hex : ch.existing with
  | none => exact .inr ⟨i, ch, spec, held, rfl, hc, hex, hres.id, hres.configured⟩
  | some old =>
    obtain ⟨hlocked, hold⟩ := hc.changing.locked.row old hex
    refine .inl ⟨old, hlocked.row, hold.id.trans hres.id.symm, ?_⟩
    rw [hres.configured]
    exact hc.bucket_kept hex

theorem BucketsOk.step (h : CheckedOutline u past σ) (hs : StepBy (program u) σ mover σ')
    (hok : BucketsOk σ.db) : BucketsOk σ'.db := by
  intro s hmem s' hmem' name region region' hb hb'
  rcases bucket_step h hs hmem with
    ⟨s₀, hs₀, hid, hkept⟩ | ⟨i, ch, spec, held, hm, hc, hnew, hid, rfl⟩
  · rcases bucket_step h hs hmem' with ⟨s₁, hs₁, hid', hkept'⟩ | ⟨_, _, _, _, _, hc, hnew, _, rfl⟩
    · rw [← hid, ← hid']
      exact hok s₀ hs₀ s₁ hs₁ name region region' (hkept.trans hb) (hkept'.trans hb')
    · exact absurd (hkept.trans hb) (hc.bucket_free hnew hs₀ hb')
  rcases bucket_step h hs hmem' with
    ⟨s₁, hs₁, hid', hkept'⟩ | ⟨_, ch', _, _, hm', hc', _, hid', _⟩
  · exact absurd (hkept'.trans hb') (hc.bucket_free hnew hs₁ hb)
  -- one step commits one change
  cases hm.symm.trans hm'
  obtain ⟨_, r, hr, hat⟩ := hc.executes
  obtain ⟨_, r', hr', hat'⟩ := hc'.executes
  cases hr.symm.trans hr'
  cases hat.symm.trans hat'
  exact hid.trans hid'.symm

/-- **One step** leaves the bucket of every service there was as it was. -/
theorem lifetime_step (h : CheckedOutline u past σ) (hs : StepBy (program u) σ mover σ')
    (hknown : ∀ e ∈ past, ∀ s ∈ e.state.db.serviceInstances, s.id ∈ σ.db.knownServices)
    (hold : ∀ e ∈ past, ∀ s ∈ e.state.db.serviceInstances, ∀ s' ∈ σ.db.serviceInstances,
      s'.id = s.id → s'.spec.bucket = s.spec.bucket) :
    ∀ e ∈ (⟨σ, mover⟩ :: past : List (Event Db Key Write Call)),
      ∀ s ∈ e.state.db.serviceInstances, ∀ s' ∈ σ'.db.serviceInstances,
        s'.id = s.id → s'.spec.bucket = s.spec.bucket := by
  intro e he s hmem s' hmem' hid
  have hi := h.inv.2
  rcases bucket_step h hs hmem' with ⟨s₀, hs₀, hid', hkept⟩ | ⟨_, ch, _, _, _, hc, hnew, hid', _⟩
  · rw [← hkept]
    rcases mem_cons.mp he with rfl | he
    · rw [hi.services.eq hs₀ hmem (hid'.trans hid)]
    · exact hold e he s hmem s₀ hs₀ (hid'.trans hid)
  · -- its id was not known
    have hfresh := hc.unknown hnew
    rw [← hid', hid] at hfresh
    rcases mem_cons.mp he with rfl | he
    · exact absurd (hi.owned s hmem) hfresh
    · exact absurd (hknown e he s hmem) hfresh

end Steps

/-! ## 3. Runs -/

section Runs
variable {σ : System Db Key Write Call}

theorem names_run (h₀ : Initial d issued)
    (hr : Run (program u) (System.quiet d t issued) past σ) : BucketsOk σ.db := by
  induction hr with
  | start =>
    intro s hs
    rw [show (System.quiet d t issued).db.serviceInstances = [] from h₀.services] at hs
    cases hs
  | step hb hs ih => exact ih.step (checked_run h₀ hb) hs

theorem lifetimes_run (h₀ : Initial d issued)
    (hr : Run (program u) (System.quiet d t issued) past σ) :
    ∀ e ∈ past, ∀ s ∈ e.state.db.serviceInstances, ∀ s' ∈ σ.db.serviceInstances, s'.id = s.id →
      s'.spec.bucket = s.spec.bucket := by
  induction hr with
  | start =>
    intro e he
    cases he
  | step hb hs ih => exact lifetime_step (checked_run h₀ hb) hs (owners_run h₀ hb) ih

end Runs

/-- **The names of buckets.** In every state of every run two buckets, in deletion or not, have
different names, and every service has the name and the region of its bucket that it had in every
state before. -/
theorem buckets_kept {u : Setup} {d : Db} {t : Int} {issued : List Nat} (h₀ : Initial d issued)
    {past : List (Event Db Key Write Call)} {σ : System Db Key Write Call}
    (hr : Run (program u) (System.quiet d t issued) past σ) :
    (∀ s ∈ σ.db.serviceInstances, ∀ s' ∈ σ.db.serviceInstances, ∀ b b', s.spec = .syouyu b →
      s'.spec = .syouyu b' → b.bucketName = b'.bucketName → s = s') ∧
    ∀ e ∈ past, ∀ s ∈ e.state.db.serviceInstances, ∀ s' ∈ σ.db.serviceInstances, s'.id = s.id →
      s'.spec.bucket = s.spec.bucket := by
  refine ⟨fun s hs s' hs' b b' hb hb' hname => ?_, lifetimes_run h₀ hr⟩
  have hid := names_run h₀ hr s hs s' hs' b.bucketName b.region b'.region
    (by rw [hb]; rfl) (by rw [hb', hname]; rfl)
  exact (checked_run h₀ hr).inv.2.services.eq hs hs' hid

/-- A bucket of the account 1. -/
def createBucket (id : Uuid) (bucketName : String) : Call :=
  .createServiceInstance {
    organizationId := 1, projectId := 2, principalId := 20, name := bucketName, id,
    spec := .syouyu { region := syouyuRegion, bucketName, quotaBytes := minSyouyuQuotaBytes,
                      quotaObjects := 1, metadata := .null } }

/-- Two buckets of one account. -/
def twoBuckets : List (Move Call) :=
  runs 0 (createBucket 30 "logs") 13 ++ runs 1 (createBucket 31 "media") 13

theorem buckets_kept_two : ∃ past σ,
    Run (program standalone) (System.quiet oneAccount 0 [20, 1]) past σ ∧
      ∃ s ∈ σ.db.serviceInstances, ∃ s' ∈ σ.db.serviceInstances, ∃ b b', s.spec = .syouyu b ∧
        s'.spec = .syouyu b' ∧ b.bucketName ≠ b'.bucketName ∧
        ∃ e ∈ past, ∃ s₀ ∈ e.state.db.serviceInstances, s.id = s₀.id ∧
          s.spec.bucket = s₀.spec.bucket := by
  have hplay : ((Machine.quiet oneAccount 0 [20, 1]).record (program standalone) []
      twoBuckets).any (fun x => x.2.db.serviceInstances.any fun s =>
        x.2.db.serviceInstances.any fun s' => s.id != s'.id && (s.spec.syouyu?.isSome &&
          (s'.spec.syouyu?.isSome && x.1.any fun y => y.1.db.serviceInstances.any fun s₀ =>
            s.id == s₀.id))) = true := by
    decide +kernel
  obtain ⟨trail, m, hrun, hcheck⟩ := record_any hplay
  simp only [any_eq_true, Bool.and_eq_true, bne_iff_ne, Option.isSome_iff_exists,
    beq_iff_eq] at hcheck
  obtain ⟨s, hs, s', hs', hne, ⟨b, hb⟩, ⟨b', hb'⟩, y, hy, s₀, hs₀, hid⟩ := hcheck
  obtain ⟨hnames, hkept⟩ := buckets_kept oneAccount_initial hrun
  have hb := syouyu?_some hb
  have hb' := syouyu?_some hb'
  refine ⟨_, _, hrun, s, hs, s', hs', b, b', hb, hb', fun hname => hne ?_, _,
    mem_map_of_mem hy, s₀, hs₀, hid, ?_⟩
  · rw [hnames s hs s' hs' b b' hb hb' hname]
  · exact hkept _ (mem_map_of_mem hy) s₀ hs₀ s hs hid

end HeteroCloud.Services
