/-
  File:      Services/Vpcs.lean
  Subject:   FLASH SERVICES AND THEIR VPCS: a service names its VPC in its specification, and a rule
             of a VPC names services; neither is a foreign key.

  What a service says of its VPC is checked from both sides under the lock of the account: the VPC
  must admit the service when that is written (and is share-locked until then), must fit all that
  are attached when it is written, and is not deleted while any is attached. What a rule says of a
  service is checked when the VPC is written, and then no more.
-/
import HeteroCloud.Services.Checks

namespace HeteroCloud.Services

open Base Iam List
open Store (ServiceInstanceState StoreError)

/-! ## 1. Deletions -/

variable (u : Setup) (d : Db) (w : View)

/-- A VPC in deletion had no services attached, and the account has been locked since. -/
def Detached (held : Locks) (q : ServiceDeletion) : Prop :=
  Tenancy u q.organizationId held ∧ (q.provider = .vpc →
    Since u (lockTenantAllocations u q.organizationId) d w fun d₀ =>
      d₀.vpcMembers q.organizationId q.id = [])

def Emptied (_ : Nat) (r : Running Key Write Call) : Prop :=
  match r.call with
  | .deleteEvent q _ | .deleteCommit q _ => Detached u d w r.held q
  | _ => True

def Stage.emptied : Stage → Bool
  | .deleteEvent | .deleteCommit => true
  | _ => false

section Annotation
variable {u : Setup} {d : Db} {w w' : View} {e : Event Db Key Write Call} {uuid : Nat → Nat}
  {i : Nat} {r : Running Key Write Call} {o : Statement} {q : ServiceDeletion}
  {held held' others : Locks} {x : Write}

theorem Detached.mono (hw : w.Grows d w') (h : Detached u d w held q) : Detached u d w' held q :=
  ⟨h.1, fun hq => (h.2 hq).mono hw⟩

theorem Detached.more (hs : ∀ l ∈ held, l ∈ held') (h : Detached u d w held q) :
    Detached u d w held' q :=
  ⟨fun l hl => hs l (h.1 l hl), h.2⟩

theorem Detached.commit (hx : Committed (guards u) w others x) (hc : Compatible others held)
    (h : Detached u d w held q) : Detached u (x.apply d) w held q :=
  ⟨h.1, fun hq => (h.2 hq).commit hx hc h.1⟩

theorem emptied_apart (h : r.call.stage.emptied = false) : Emptied u d w i r := by
  obtain ⟨call, held, pending, began⟩ := r
  cases call with
  | deleteEvent | deleteCommit => cases h
  | _ => exact trivial

theorem emptied_mono (hw : w.Grows d w') (h : Emptied u d w i r) : Emptied u d w' i r := by
  obtain ⟨call, held, pending, began⟩ := r
  cases call with
  | deleteEvent q | deleteCommit q =>
    have h : Detached u d w held q := h
    exact h.mono hw
  | _ => exact trivial

theorem emptied_commit (hx : Committed (guards u) w others x) (hc : Compatible others r.held)
    (h : Emptied u d w i r) : Emptied u (x.apply d) w i r := by
  obtain ⟨call, held, pending, began⟩ := r
  cases call with
  | deleteEvent q | deleteCommit q =>
    have h : Detached u d w held q := h
    exact h.commit hx hc
  | _ => exact trivial

variable (h : Ready (guards u) Inv d w e uuid i r)
include h

theorem deleteExisting_emptied (hl : Tenancy u q.organizationId r.held) : Reaches (program u)
    (Emptied u) d w e uuid i r (deleteExisting d q) := by
  unfold deleteExisting
  split_ifs with hmembers
  · exact trivial
  split
  · exact trivial
  split_ifs
  · exact fun _ _ => trivial
  · exact trivial
  refine ⟨fun l hm => mem_append_right _ (hl l hm), fun hq => ?_⟩
  have hnone : d.vpcMembers q.organizationId q.id = [] := by
    simpa [hq] using hmembers
  exact (Since.now h.known hnone).mono (h.known.grows e _)

theorem exec_emptied (hA : At u d w i r) (hB : Emptied u d w i r) (ho : exec u w.clock (r.began.getD
    w.clock) uuid ((program u).view r d) r.call = some o) : Reaches (program u) (Emptied u) d w e
    uuid i r o := by
  obtain ⟨_, hA⟩ := hA
  obtain ⟨call, held, pending, began⟩ := r
  cases call with
  | deleteExisting =>
    cases ho
    rw [view_none hA.1]
    exact deleteExisting_emptied h hA.2
  | deleteEvent q =>
    cases ho
    have hB : Detached u d w held q := hB
    exact (hB.mono (h.known.grows e _)).more (held_more _)
  | _ => exact reaches_quiet Stage.emptied emptied_apart (by rfl) ho

omit h

/-- What is known at a point: what has been checked of a change, and of a deletion. -/
abbrev Checking (u : Setup) (d : Db) (w : View) (i : Nat) (r : Running Key Write Call) : Prop :=
  (At u d w i r ∧ Checked u d w i r) ∧ Emptied u d w i r

theorem deletions : Duties (program u) (guards u) Inv (Checking u) :=
  annotate_stages Stage.emptied checks emptied_apart rfl emptied_mono
    (fun h hA => exec_emptied h hA.1) (fun hx hc _ => emptied_commit hx hc)

end Annotation

/-! ## 2. Invariants -/

variable (s : ServiceRow)

/-- The Flash service is attached to the VPC of that id. -/
def ServiceRow.attached (vpc : Uuid) : Prop :=
  ∃ f, s.spec = .flash f ∧ f.attachedTo vpc = true

/-- The row is that of the VPC the service names, and admits it. -/
structure Admits (v s : ServiceRow) (f : FlashSpec) (n : FlashVpcAttachment) : Prop where
  id : v.id = n.vpcId
  organization : v.organizationId = s.organizationId
  project : v.projectId = s.projectId
  live : v.live = true
  spec : ∃ vpc, v.spec = .vpc vpc ∧ vpc.fits f = true

/-- The service is attached to a VPC. -/
structure Attachment (f : FlashSpec) (n : FlashVpcAttachment) : Prop where
  spec : s.spec = .flash f
  network : f.network = some n

/-- **What services say of their VPCs.** -/
structure VpcOk : Prop where
  vpc : ∀ s ∈ d.serviceInstances, ∀ f n, Attachment s f n → ∃ v ∈ d.serviceInstances, Admits v s f n
  names : ∀ s ∈ d.serviceInstances, ∀ s' ∈ d.serviceInstances, ∀ f n f' n', Attachment s f n →
    Attachment s' f' n' → n.vpcId = n'.vpcId → n.nameOf s.id = n'.nameOf s'.id → s.id = s'.id

/-- The service a rule of the VPC names is attached to it. -/
def RuleHolds (v : ServiceRow) (id : Uuid) : Prop :=
  ∃ s ∈ d.serviceInstances, s.id = id ∧ s.live = true ∧ s.organizationId = v.organizationId ∧
    s.projectId = v.projectId ∧ s.attached v.id

/-- **What rules say of services**: it holds, or held with the rules as they are. -/
def RulesOk : Prop :=
  ∀ v ∈ d.serviceInstances, v.live = true → ∀ vpc, v.spec = .vpc vpc → ∀ id ∈ vpc.ruleServices,
    ∃ σ ∈ w.seen, ∃ v₀ ∈ σ.db.serviceInstances, v₀.Same v ∧ RuleHolds σ.db v₀ id

section Invariants
variable {u : Setup} {d d₀ : Db} {w w' : View} {e : Event Db Key Write Call} {uuid : Nat → Nat}
  {i : Nat} {r : Running Key Write Call} {c : Call} {q : ServiceDeletion} {ch : Change}
  {spec : ServiceSpec} {s s' v v' : ServiceRow} {f : FlashSpec} {n : FlashVpcAttachment}
  {vpc : VpcSpec} {held locks : Locks}

theorem Attachment.attached (h : Attachment s f n) : s.attached n.vpcId :=
  ⟨f, h.spec, by simp [FlashSpec.attachedTo, h.network]⟩

theorem Attachment.same (hs : s.Same s') (h : Attachment s' f n) : Attachment s f n :=
  ⟨hs.spec.symm.trans h.spec, h.network⟩

theorem Admits.provider (h : Admits v s f n) : v.provider = .vpc := by
  obtain ⟨vpc, hvpc, _⟩ := h.spec
  rw [ServiceRow.provider, hvpc]
  rfl

/-- The same rows, but for state and status. -/
theorem Admits.same (h : Admits v s f n) (hv : v.Same v') (hl : v'.live = v.live)
    (hs : s.Same s') : Admits v' s' f n where
  id := hv.id.trans h.id
  organization := hv.organization.trans (h.organization.trans hs.organization.symm)
  project := hv.project.trans (h.project.trans hs.project.symm)
  live := hl.trans h.live
  spec := by
    rw [hv.spec]
    exact h.spec

theorem mem_vpcMembers {organization id : Uuid} : s ∈ d.vpcMembers organization id ↔
    s ∈ d.serviceInstances ∧ s.organizationId = organization ∧ s.attached id := by
  simp only [Db.vpcMembers, mem_filter, Bool.and_eq_true, beq_iff_eq, Option.any_eq_true,
    ServiceSpec.flash?_eq_some, ServiceRow.attached]

/-- What a locked account has attached to a VPC, it had attached to it. -/
theorem members_origin (hl : TenantLocked u s.organizationId locks) (h : Meanwhile u locks d₀ d)
    (hs : s ∈ d.serviceInstances) {id : Uuid} (ha : s.attached id) :
    ∃ s₀ ∈ d₀.vpcMembers s.organizationId id, s₀.Same s := by
  obtain ⟨f, hf, hn⟩ := ha
  have hp : s.provider.scoped = true := by
    rw [ServiceRow.provider, hf]
    rfl
  obtain ⟨s₀, hs₀, hrep⟩ := scoped_origin hl h s hs rfl hp
  have hsame := hrep.same
  exact ⟨s₀, mem_vpcMembers.mpr ⟨hs₀, hsame.organization.symm, f, hsame.spec.symm.trans hf, hn⟩,
    hsame⟩

/-- The VPC of a service is not deleted. -/
theorem Detached.none (h : Detached u d w held q) (hq : q.provider = .vpc)
    (hs : s ∈ d.serviceInstances) (horg : s.organizationId = q.organizationId) :
    ¬ s.attached q.id := by
  intro ha
  obtain ⟨σ, _, hnone, hd⟩ := h.2 hq
  have hl : TenantLocked u s.organizationId (lockTenantAllocations u q.organizationId) := by
    rw [horg]
    exact Tenancy.locked fun _ hl => hl
  obtain ⟨s₀, hs₀, _⟩ := members_origin hl hd hs ha
  rw [horg, hnone] at hs₀
  cases hs₀

/-- What `prepare_vpc_spec` has checked. -/
structure VpcPrepared (d : Db) (organization project id : Uuid) (vpc : VpcSpec) : Prop where
  fits : ∀ s ∈ d.vpcMembers organization id, ∀ f, s.spec = .flash f → vpc.fits f = true
  rules : ∀ service ∈ vpc.ruleServices, ∃ s ∈ d.vpcMembers organization id, s.id = service ∧
    s.projectId = project ∧ s.live = true

theorem prepareVpcSpec_ok {organization project id : Uuid} {creating : Bool} {vpc' : VpcSpec}
    (h : d.prepareVpcSpec u organization project id creating vpc = .ok vpc') :
    vpc' = vpc ∧ VpcPrepared d organization project id vpc := by
  unfold Db.prepareVpcSpec at h
  split at h
  · cases h
  split_ifs at h with hcount hfits hrules
  cases h
  simp only [Bool.not_eq_true, any_eq_false] at hfits hrules
  refine ⟨rfl, fun s hs f hf => ?_, fun service hservice => ?_⟩
  · have hrow := hfits s hs
    simpa [hf, ServiceSpec.flash?] using hrow
  have hrow := hrules service hservice
  simp only [Bool.not_eq_false', any_eq_true, Bool.and_eq_true, beq_iff_eq] at hrow
  obtain ⟨s, hs, ⟨hid, hproject⟩, hlive⟩ := hrow
  exact ⟨s, hs, hid, hproject, hlive⟩

theorem prepareSpec_vpc (h : prepareSpec u d ch = .ok spec) (hspec : spec = .vpc vpc) :
    VpcPrepared d ch.organizationId ((ch.existing.map (·.projectId)).getD ch.projectId) ch.id
      vpc := by
  have hprovider := prepareSpec_provider h
  rw [hspec] at hprovider
  unfold prepareSpec at h
  split at h
  · rename_i hreq
    rw [hreq] at hprovider
    cases hprovider
  · rename_i hreq
    rw [hreq] at hprovider
    cases hprovider
  · rename_i hreq
    rw [hreq] at hprovider
    cases hprovider
  · obtain ⟨vpc', hvpc, h⟩ := bind_ok h
    cases h
    cases hspec
    obtain ⟨rfl, hok⟩ := prepareVpcSpec_ok hvpc
    exact hok
  · rename_i hreq
    rw [hreq] at hprovider
    cases hprovider

theorem vpc?_some (h : spec.vpc? = some vpc) : spec = .vpc vpc := by
  cases spec with
  | vpc => cases h; rfl
  | _ => cases h

/-- What `validate_vpc_attachment` has checked. -/
structure AttachmentOk (d : Db) (ch : Change) (f : FlashSpec) (n : FlashVpcAttachment)
    (v : ServiceRow) : Prop where
  row : v ∈ d.serviceInstances
  id : v.id = n.vpcId
  organization : v.organizationId = ch.organizationId
  project : v.projectId = ch.projectId
  live : v.live = true
  spec : ∃ vpc, v.spec = .vpc vpc ∧ vpc.fits f = true
  names : ∀ s ∈ d.vpcMembers ch.organizationId n.vpcId, ∀ f' n', Attachment s f' n' →
    n'.nameOf s.id = n.nameOf ch.id → s.id = ch.id

theorem validateVpcAttachment_ok {locked : Option Uuid}
    (h : d.validateVpcAttachment ch.organizationId ch.projectId ch.id f = .ok locked)
    (hn : f.network = some n) : ∃ v, locked = some v.id ∧ AttachmentOk d ch f n v := by
  unfold Db.validateVpcAttachment at h
  rw [hn] at h
  dsimp only at h
  split at h
  · cases h
  rename_i v hv
  have hmem := mem_of_find?_eq_some hv
  have hfound := find?_some hv
  simp only [Bool.and_eq_true, beq_iff_eq] at hfound
  obtain ⟨⟨⟨hid, horg⟩, hproject⟩, _⟩ := hfound
  split_ifs at h with hdeleting hfits hname
  cases h
  refine ⟨v, rfl, hmem, hid, horg, hproject, bne_iff_ne.mpr hdeleting, ?_, ?_⟩
  · simp only [Bool.not_eq_true', Bool.not_eq_false, Option.any_eq_true] at hfits
    obtain ⟨vpc, hvpc, hfit⟩ := hfits
    exact ⟨vpc, vpc?_some hvpc, hfit⟩
  · intro s hs f' n' ha heq
    by_contra hne
    apply hname
    refine any_eq_true.mpr ⟨s, hs, ?_⟩
    simp [hne, ha.spec, ha.network, ServiceSpec.flash?, heq]

/-! ## 3. Commits -/

/-- A VPC that is written fits all services attached to it. -/
theorem Prepared.fits (h : Prepared u d w ch (.vpc vpc)) (hspec : ch.requested.provider = .vpc)
    (hs : s ∈ d.serviceInstances) (horg : s.organizationId = ch.organizationId)
    (ha : s.attached ch.id) (hf : s.spec = .flash f) : vpc.fits f = true := by
  obtain ⟨σ, _, hprep, hd⟩ := h
  have hl : TenantLocked u s.organizationId (ch.locks u) := by
    rw [horg]
    exact tenantLocked_preparation (by rw [hspec]; rfl)
  obtain ⟨s₀, hs₀, hsame⟩ := members_origin hl hd hs ha
  rw [horg] at hs₀
  exact (prepareSpec_vpc hprep rfl).fits s₀ hs₀ f (hsame.spec.symm.trans hf)

/-- The row of the VPC that admits a service is still there when that is written. -/
theorem VpcAdmits.row (h : VpcAdmits u d w ch spec held) (hspec : spec = .flash f)
    (hn : f.network = some n) (hlocks : ch.requested.provider = .flash) :
    ∃ v ∈ d.serviceInstances, v.id = n.vpcId ∧ v.organizationId = ch.organizationId ∧
      v.projectId = ch.projectId ∧ v.live = true ∧ (∃ vpc, v.spec = .vpc vpc ∧ vpc.fits f = true) ∧
      ∀ s ∈ d.serviceInstances, s.organizationId = ch.organizationId → ∀ f' n',
        Attachment s f' n' → n'.vpcId = n.vpcId → n'.nameOf s.id = n.nameOf ch.id →
          s.id = ch.id := by
  obtain ⟨locked, hheld, σ, _, hok, hd⟩ := h f hspec
  obtain ⟨v, rfl, hv⟩ := validateVpcAttachment_ok hok hn
  have hvl : (Key.service v.id, LockMode.share) ∈ ch.locks u ++ vpcLocks (some v.id) :=
    mem_append_right _ mem_cons_self
  refine ⟨v, row_stays hvl hd hv.row, hv.id, hv.organization, hv.project, hv.live, hv.spec, ?_⟩
  intro s hs horg f' n' ha hvpc hname
  have hl : TenantLocked u s.organizationId (ch.locks u ++ vpcLocks (some v.id)) := by
    rw [horg]
    intro k hk
    exact mem_append_left _ (tenantLocked_preparation (by rw [hlocks]; rfl) k hk)
  obtain ⟨s₀, hs₀, hsame⟩ := members_origin hl hd hs ha.attached
  rw [horg, hvpc] at hs₀
  have hid := hv.names s₀ hs₀ f' n' (ha.same hsame) (by rw [← hsame.id]; exact hname)
  exact hsame.id.trans hid

/-- A stop leaves the attachment as it is. -/
theorem Changes.stopped (h : Changes ch s) (hk : ch.kind = .stop) (hfit : Fitting ch (.flash f))
    (hn : f.network = some n) : ∃ f₀, Attachment s f₀ n ∧ f₀.region = f.region ∧
      ch.projectId = s.projectId := by
  have hsw := h.stop hk
  have hspec := (hfit.stop hk).trans hsw.requested
  obtain ⟨f₀, hf₀⟩ := ServiceSpec.provider_flash hsw.provider
  rw [hf₀] at hspec
  cases hspec
  exact ⟨f₀, ⟨hf₀, hn⟩, rfl, hsw.project⟩

theorem fits_same {f' : FlashSpec} (hr : f'.region = f.region) (hn : f'.network = f.network) :
    vpc.fits f' = vpc.fits f := by
  unfold VpcSpec.fits
  rw [hr, hn]

/-- **A Flash service that is written**: its VPC admits it, and no other service there has its
name. -/
theorem VpcOk.written (hJ : VpcOk d) (hi : Inv d w) (hch : Changing u d held ch (.flash f))
    (hpass : ch.kind ≠ .stop → Passed u d w ch (.flash f) held) (hn : f.network = some n) :
    (∃ v ∈ d.serviceInstances, Admits v (ch.result (.flash f)) f n) ∧
      ∀ s ∈ d.serviceInstances, ∀ f' n', Attachment s f' n' → n'.vpcId = n.vpcId →
        n'.nameOf s.id = n.nameOf ch.id → s.id = ch.id := by
  have hres := hch.result
  by_cases hk : ch.kind = .stop
  · -- a stop checks nothing, and changes neither the VPC nor the name
    cases hex : ch.existing with
    | none => cases hk.symm.trans (hch.locked.kind.mp hex)
    | some old =>
      obtain ⟨hlocked, hold⟩ := hch.locked.row old hex
      obtain ⟨f₀, ha, hregion, hproject⟩ := hold.stopped hk hch.fitting hn
      refine ⟨?_, fun s hs f' n' hs' hvpc hname => ?_⟩
      · obtain ⟨v, hv, hadmits⟩ := hJ.vpc old hlocked.row f₀ n ha
        obtain ⟨vpc, hspec, hfits⟩ := hadmits.spec
        refine ⟨v, hv, hadmits.id, ?_, ?_, hadmits.live, vpc, hspec, ?_⟩
        · rw [hres.organization, ← hold.organization]
          exact hadmits.organization
        · rw [hres.project, hproject]
          exact hadmits.project
        · rw [← fits_same hregion (ha.network.trans hn.symm)]
          exact hfits
      · rw [← hold.id] at hname ⊢
        exact hJ.names s hs old hlocked.row f' n' f₀ n hs' ha hvpc hname
  · obtain ⟨v, hv, hid, horg, hproject, hlive, hspec, hnames⟩ :=
      (hpass hk).vpc.row rfl hn hch.fitting.provider.symm
    refine ⟨⟨v, hv, hid, ?_, ?_, hlive, hspec⟩, fun s hs f' n' ha hvpc hname => ?_⟩
    · rw [hres.organization]
      exact horg
    · rw [hres.project]
      exact hproject
    -- what is attached to a VPC is in its account
    obtain ⟨v', hv', hadmits⟩ := hJ.vpc s hs f' n' ha
    have hsame : v' = v := hi.services.eq hv' hv (hadmits.id.trans (hvpc.trans hid.symm))
    refine hnames s hs ?_ f' n' ha hvpc hname
    rw [← hadmits.organization, hsame]
    exact horg

/-- **The VPC of a service that is attached admits it after a commit**, too. -/
theorem vpc_after (hA : Checking u d w i r) (hc : r.call.stage.commits = true)
    (hs : s ∈ d.serviceInstances) (ha : Attachment s f n)
    (hv : v ∈ d.serviceInstances) (hadmits : Admits v s f n) :
    ∃ v' ∈ ((program u).view r d).serviceInstances, Admits v' s f n := by
  obtain ⟨⟨⟨hP, hA⟩, hB⟩, hE⟩ := hA
  cases row_after hP hA hc hv with
  | kept v' hv' hsame hlive => exact ⟨v', hv', hadmits.same hsame hlive (.refl s)⟩
  | changed ch spec hat hex hmem =>
    have hch := hA.changing hat
    have hres := hch.result
    have hold := (hch.locked.row v hex).2
    have hprovider : ch.requested.provider = .vpc := hold.provider.symm.trans hadmits.provider
    have hkind : ch.kind ≠ .stop := by
      intro hk
      cases (hold.stop hk).provider.symm.trans hadmits.provider
    obtain ⟨vpc, hspec⟩ : ∃ vpc, spec = .vpc vpc := by
      have hp := hch.fitting.provider.trans hprovider
      cases spec with
      | vpc vpc => exact ⟨vpc, rfl⟩
      | _ => cases hp
    subst hspec
    unfold Checked at hB
    rw [hat] at hB
    have horg : s.organizationId = ch.organizationId :=
      hadmits.organization.symm.trans hold.organization
    have hid : ch.id = n.vpcId := hold.id.symm.trans hadmits.id
    have hfits : vpc.fits f = true :=
      (hB hkind).prepared.fits hprovider hs horg (hid ▸ ha.attached) ha.spec
    have hproject : ch.projectId = v.projectId := by
      rcases hold.project with hflash | hproject
      · cases hflash.symm.trans hadmits.provider
      · exact hproject
    refine ⟨_, hmem, hres.id.trans hid, hres.organization.trans horg.symm, ?_, hres.live,
      vpc, hres.configured, hfits⟩
    rw [hres.project, hproject]
    exact hadmits.project
  | deleted q hat =>
    unfold Emptied at hE
    unfold Point at hA
    rw [hat] at hE hA
    have hE : Detached u d w r.held q := hE
    obtain ⟨_, _, hq⟩ := hA
    have hid : q.id = n.vpcId := hq.id.symm.trans hadmits.id
    refine absurd (hid ▸ ha.attached) (hE.none (hq.provider.symm.trans hadmits.provider) hs ?_)
    exact hadmits.organization.symm.trans hq.organization
  | removed _ _ hdel =>
    rw [hadmits.live] at hdel
    cases hdel

/-- The commit of a Flash service leaves the VPCs as they are. -/
theorem vpc_beside (hP : Pending u d w r.held r.pending) (hA : Point u d w r)
    (hc : r.call.stage.commits = true) (hat : r.call = .changeCommit ch (.flash f))
    (hv : v ∈ d.serviceInstances) (hadmits : Admits v s f n) :
    ∃ v' ∈ ((program u).view r d).serviceInstances, Admits v' s f n := by
  cases row_after hP hA hc hv with
  | kept v' hv' hsame hlive => exact ⟨v', hv', hadmits.same hsame hlive (.refl s)⟩
  | changed _ _ hat' hex =>
    cases hat.symm.trans hat'
    have hch := hA.changing hat
    have hold := (hch.locked.row v hex).2
    cases hadmits.provider.symm.trans (hold.provider.trans hch.fitting.provider.symm)
  | deleted _ hat' | removed _ hat' => cases hat.symm.trans hat'

/-- **A commit keeps what services say of their VPCs.** -/
theorem VpcOk.commit (h : Ready (guards u) Inv d w e uuid i r) (hA : Checking u d w i r)
    (hJ : VpcOk d) (hc : r.call.stage.commits = true) : VpcOk ((program u).view r d) := by
  have hwritten {ch : Change} {spec : ServiceSpec} {f : FlashSpec} {n : FlashVpcAttachment}
      (hat : r.call = .changeCommit ch spec) (ha : Attachment (ch.result spec) f n) :
      spec = .flash f ∧ (ch.result spec).id = ch.id ∧
        (∃ v ∈ d.serviceInstances, Admits v (ch.result spec) f n) ∧
        ∀ s ∈ d.serviceInstances, ∀ f' n', Attachment s f' n' → n'.vpcId = n.vpcId →
          n'.nameOf s.id = n.nameOf ch.id → s.id = ch.id := by
    obtain ⟨⟨⟨_, hA⟩, hB⟩, _⟩ := hA
    have hch := hA.changing hat
    have hspec : spec = .flash f := hch.result.configured.symm.trans ha.spec
    subst hspec
    unfold Checked at hB
    rw [hat] at hB
    obtain ⟨hvpc, hnames⟩ := hJ.written h.inv hch hB ha.network
    exact ⟨rfl, hch.result.id, hvpc, hnames⟩
  obtain ⟨⟨hP, hPt⟩, _⟩ := hA.1
  constructor
  · intro s' hs' f n ha
    rcases commit_service hP hPt hc hs' with ⟨s, hs, hsame, _⟩ | ⟨ch, spec, hat, rfl⟩
    · have ha₀ := ha.same hsame
      obtain ⟨v, hv, hadmits⟩ := hJ.vpc s hs f n ha₀
      obtain ⟨v', hv', hadmits'⟩ := vpc_after hA hc hs ha₀ hv hadmits
      exact ⟨v', hv', hadmits'.same (.refl v') rfl hsame⟩
    · obtain ⟨rfl, _, ⟨v, hv, hadmits⟩, _⟩ := hwritten hat ha
      exact vpc_beside hP hPt hc hat hv hadmits
  intro s hs s' hs' f n f' n' ha ha' hvpc hname
  rcases commit_service hP hPt hc hs with ⟨s₀, hs₀, hsame, _⟩ | ⟨ch, spec, hat, rfl⟩
  · have ha₀ := ha.same hsame
    rw [hsame.id] at hname ⊢
    rcases commit_service hP hPt hc hs' with ⟨s₁, hs₁, hsame', _⟩ | ⟨ch, spec, hat, rfl⟩
    · rw [hsame'.id] at hname ⊢
      exact hJ.names s₀ hs₀ s₁ hs₁ f n f' n' ha₀ (ha'.same hsame') hvpc hname
    obtain ⟨_, hid, _, hnames⟩ := hwritten hat ha'
    rw [hid] at hname ⊢
    exact hnames s₀ hs₀ f n ha₀ hvpc hname
  · obtain ⟨_, hid, _, hnames⟩ := hwritten hat ha
    rw [hid] at hname ⊢
    rcases commit_service hP hPt hc hs' with ⟨s₁, hs₁, hsame', _⟩ | ⟨ch', spec', hat', rfl⟩
    · rw [hsame'.id] at hname ⊢
      exact (hnames s₁ hs₁ f' n' (ha'.same hsame') hvpc.symm hname.symm).symm
    · cases hat.symm.trans hat'
      exact hid.symm

/-- **A VPC that is written**: the services its rules name are attached to it. -/
theorem rules_written (hA : Checking u d w i r) (hc : r.call.stage.commits = true)
    (hat : r.call = .changeCommit ch (.vpc vpc)) :
    ∀ id ∈ vpc.ruleServices, RuleHolds ((program u).view r d) (ch.result (.vpc vpc)) id := by
  obtain ⟨⟨⟨hP, hA⟩, hB⟩, _⟩ := hA
  have hch := hA.changing hat
  have hres := hch.result
  have hprovider : ch.requested.provider = .vpc := hch.fitting.provider.symm
  have hkind : ch.kind ≠ .stop := by
    intro hk
    cases hex : ch.existing with
    | none => cases hk.symm.trans (hch.locked.kind.mp hex)
    | some old =>
      have hold := (hch.locked.row old hex).2
      cases (hold.stop hk).provider.symm.trans (hold.provider.trans hprovider)
  unfold Checked at hB
  rw [hat] at hB
  obtain ⟨σ, _, hprep, hd⟩ := (hB hkind).prepared
  intro id hid
  obtain ⟨s₀, hs₀, rfl, hproject, hlive⟩ := (prepareSpec_vpc hprep rfl).rules id hid
  obtain ⟨hs₀, horg, f, hf, hattached⟩ := mem_vpcMembers.mp hs₀
  -- the service is attached still, under the lock of the account
  have hl : TenantLocked u ch.organizationId (ch.locks u) :=
    tenantLocked_preparation (by rw [hprovider]; rfl)
  have hscoped : s₀.provider.scoped = true := by
    rw [ServiceRow.provider, hf]
    rfl
  obtain ⟨s, hs, hrep⟩ := scoped_stays hl hd hs₀ horg hscoped hlive
  have hsame := hrep.same
  have hproject' : s₀.projectId = ch.projectId := by
    rw [hproject]
    cases hex : ch.existing with
    | none => rfl
    | some old =>
      have hold := (hch.locked.row old hex).2
      rcases hold.project with hflash | hmoved
      · cases hflash.symm.trans (hold.provider.trans hprovider)
      · exact hmoved.symm
  cases row_after hP hA hc hs with
  | kept s' hs' hsame' hlive' =>
    have hall := hsame.trans hsame'
    refine ⟨s', hs', hall.id, ?_, ?_, ?_, f, hall.spec.trans hf, ?_⟩
    · rw [hlive', hrep.live]
      exact hlive
    · rw [hall.organization, horg, hres.organization]
    · rw [hall.project, hproject', hres.project]
    · rw [hres.id]
      exact hattached
  | changed _ _ hat' hex =>
    cases hat.symm.trans hat'
    have hold := (hch.locked.row s hex).2
    have hs : s.provider = .flash := by
      rw [ServiceRow.provider, hsame.spec, hf]
      rfl
    cases hs.symm.trans (hold.provider.trans hprovider)
  | deleted _ hat' | removed _ hat' => cases hat.symm.trans hat'

theorem RulesOk.mono (hw : w.Grows d w') (h : RulesOk d w) : RulesOk d w' := by
  intro v hv hlive vpc hspec id hid
  obtain ⟨σ, hσ, hrest⟩ := h v hv hlive vpc hspec id hid
  exact ⟨σ, hw.seen σ hσ, hrest⟩

theorem RulesOk.commit (hA : Checking u d w i r) (hR : RulesOk d w)
    (hc : r.call.stage.commits = true) (hw : w.Grows ((program u).view r d) w') :
    RulesOk ((program u).view r d) w' := by
  intro v' hv' hlive vpc hspec id hid
  obtain ⟨⟨hP, hPt⟩, _⟩ := hA.1
  rcases commit_service hP hPt hc hv' with ⟨v, hv, hsame, hlives⟩ | ⟨ch, spec, hat, rfl⟩
  · obtain ⟨σ, hσ, v₀, hv₀, hsame₀, hrule⟩ :=
      hR v hv (hlives hlive) vpc (hsame.spec.symm.trans hspec) id hid
    exact ⟨σ, hw.seen σ hσ, v₀, hv₀, hsame₀.trans hsame, hrule⟩
  have hspec' : spec = .vpc vpc := (hPt.changing hat).result.configured.symm.trans hspec
  subst hspec'
  obtain ⟨σ, hσ, hdb⟩ := hw.here
  refine ⟨σ, hσ, _, ?_, .refl _, ?_⟩
  · rw [hdb]
    exact hv'
  · rw [hdb]
    exact rules_written hA hc hat id hid

/-- The invariants hold with the outline. -/
theorem vpcs : Duties (program u) (guards u)
    (fun d w => Inv d w ∧ (VpcOk d ∧ RulesOk d w)) (Checking u) :=
  deletions.keep (fun hw h => ⟨h.1, h.2.mono hw⟩) fun h hA hJ ho _ hw =>
    ⟨hJ.1.commit h hA (exec_commits ho), hJ.2.commit hA (exec_commits ho) hw⟩

end Invariants

/-! ## 4. Runs -/

section Runs
variable {u : Setup} {d : Db} {t : Int} {issued : List Nat} {σ σ' : System Db Key Write Call}
  {past : List (Event Db Key Write Call)} {mover : Option Nat} {s v v' : ServiceRow} {ch : Change}
  {vpc : VpcSpec} {id : Uuid} {i : Nat}

/-- What is known in a state of a run. -/
abbrev VpcOutline (u : Setup) (past : List (Event Db Key Write Call))
    (σ : System Db Key Write Call) : Prop :=
  Holds (fun d w => Known ids d w ∧ (Inv d w ∧ (VpcOk d ∧ RulesOk d w)))
    (fun d w i r => Own (guards u) w r ∧ Checking u d w i r) past σ

theorem vpcs_run (h₀ : Initial d issued)
    (hr : Run (program u) (System.quiet d t issued) past σ) : VpcOutline u past σ := by
  refine vpcs.outline.run hr ⟨.initial h₀.issued, h₀.inv, ⟨?_, ?_⟩, ?_⟩
  · simp [h₀.services]
  · simp [h₀.services]
  · simp [RulesOk, h₀.services]

theorem RuleHolds.same (h : RuleHolds σ.db v id) (hs : v.Same v') : RuleHolds σ.db v' id := by
  obtain ⟨s, hmem, hid, hlive, horg, hproject, ha⟩ := h
  refine ⟨s, hmem, hid, hlive, horg.trans hs.organization.symm, hproject.trans hs.project.symm, ?_⟩
  rw [hs.id]
  exact ha

/-- The step commits an update that detaches the service from the VPC, or begins its deletion. -/
def Detaches (e : Event Db Key Write Call) (vpc id : Uuid) : Prop :=
  (∃ i ch f, e.Executes i (.changeCommit ch (.flash f)) ∧ ch.id = id ∧ f.attachedTo vpc = false) ∨
    ∃ i q s, e.Executes i (.deleteCommit q s) ∧ s.id = id

/-- **What ends a rule**: nothing but a detachment or a deletion of the service. -/
theorem rule_step (h : VpcOutline u past σ) (h' : VpcOutline u (⟨σ, mover⟩ :: past) σ')
    (hs : StepBy (program u) σ mover σ') (hrule : RuleHolds σ.db v id)
    (hv' : v' ∈ σ'.db.serviceInstances) (hsame : v.Same v') :
    RuleHolds σ'.db v' id ∨ Detaches ⟨σ, mover⟩ v.id id := by
  cases hs with
  | commit i r _ _ hcall _ ho =>
    obtain ⟨_, ⟨⟨hP, hA⟩, _⟩, _⟩ := h.loc i r hcall
    obtain ⟨s, hmem, rfl, hlive, horg, hproject, f, hf, hattached⟩ := hrule
    cases row_after hP hA (exec_commits ho) hmem with
    | kept s' hs' hsame' hlive' =>
      refine .inl ⟨s', hs', hsame'.id, hlive'.trans hlive, ?_, ?_, f, hsame'.spec.trans hf, ?_⟩
      · rw [hsame'.organization, horg, hsame.organization]
      · rw [hsame'.project, hproject, hsame.project]
      · rw [hsame.id]
        exact hattached
    | changed ch spec hat hex hnew =>
      have hch := hA.changing hat
      have hold := (hch.locked.row s hex).2
      have hflash : s.provider = .flash := by
        rw [ServiceRow.provider, hf]
        rfl
      have hprovider : spec.provider = .flash :=
        hch.fitting.provider.trans (hold.provider.symm.trans hflash)
      obtain ⟨f', rfl⟩ := ServiceSpec.provider_flash hprovider
      cases hatt : f'.attachedTo v.id with
      | false => exact .inr (.inl ⟨i, ch, f', ⟨rfl, r, hcall, hat⟩, hold.id.symm, hatt⟩)
      | true =>
        -- it stays attached, and so in the project of the VPC
        obtain ⟨n, hn, hvpc⟩ := (Option.any_eq_true _ _).mp hatt
        obtain ⟨v₁, hv₁, hadmits⟩ :=
          h'.inv.2.2.1.vpc _ hnew f' n ⟨hch.result.configured, hn⟩
        have hid : v₁.id = v'.id := hadmits.id.trans ((beq_iff_eq.mp hvpc).trans hsame.id.symm)
        have heq : v₁ = v' := h'.inv.2.1.services.eq hv₁ hv' hid
        subst heq
        refine .inl ⟨_, hnew, hch.result.id.trans hold.id.symm, hch.result.live,
          hadmits.organization.symm, hadmits.project.symm, f', hch.result.configured, ?_⟩
        rw [hsame.id]
        exact hatt
    | deleted q hat => exact .inr (.inr ⟨i, q, s, ⟨rfl, r, hcall, hat⟩, rfl⟩)
    | removed _ _ hdel =>
      rw [hlive] at hdel
      cases hdel
  | _ => exact .inl (hrule.same hsame)

/-- The result of a change is in the database when that is committed, and not before. -/
theorem rules_step (h : VpcOutline u past σ) (hs : StepBy (program u) σ (some i) σ')
    (hx : Event.Executes ⟨σ, some i⟩ i (.changeCommit ch (.vpc vpc)))
    (hmem : ch.result (.vpc vpc) ∈ σ'.db.serviceInstances) :
    ∀ id ∈ vpc.ruleServices, RuleHolds σ'.db (ch.result (.vpc vpc)) id := by
  obtain ⟨_, r, hcall, hat⟩ := hx
  obtain ⟨_, hA⟩ := h.loc i r hcall
  obtain ⟨⟨hP, hPt⟩, _⟩ := hA.1
  have hch := hPt.changing hat
  have hfresh : ch.result (.vpc vpc) ∉ σ.db.serviceInstances := by
    intro hmem
    cases hex : ch.existing with
    | none =>
      refine hPt.unknown hP hat hex ?_
      rw [← hch.result.id]
      exact h.inv.2.1.owned _ hmem
    | some old =>
      have hold := (hch.locked.row old hex)
      have heq := h.inv.2.1.services.eq hmem hold.1.row (hch.result.id.trans hold.2.id.symm)
      have hgen := congrArg ServiceRow.generation heq
      simp [Change.result, hex, ServiceRow.changed] at hgen
  generalize hm : some i = mover at hs
  cases hs with
  | commit _ _ _ _ hcall' _ ho =>
    cases hm
    cases hcall.symm.trans hcall'
    exact rules_written hA (exec_commits ho) hat
  | _ => exact absurd hmem hfresh

end Runs

/-- **Flash services and their VPCs.** In every state of every run: -/
theorem vpcs_kept {u : Setup} {d : Db} {t : Int} {issued : List Nat} (h₀ : Initial d issued)
    {past : List (Event Db Key Write Call)} {σ : System Db Key Write Call}
    (hr : Run (program u) (System.quiet d t issued) past σ) :
    -- a service names a VPC of its account and project that is there and not in deletion, with its
    -- region and all of its security groups
    (∀ s ∈ σ.db.serviceInstances, ∀ f n, s.spec = .flash f → f.network = some n →
      ∃ v ∈ σ.db.serviceInstances, ∃ vpc, v.id = n.vpcId ∧ v.spec = .vpc vpc ∧
        v.organizationId = s.organizationId ∧ v.projectId = s.projectId ∧ v.state ≠ .deleting ∧
        vpc.region = f.region ∧ ∀ g ∈ n.securityGroups, g ∈ vpc.securityGroups) ∧
    -- and two services in one VPC have different names there
    ∀ s ∈ σ.db.serviceInstances, ∀ s' ∈ σ.db.serviceInstances, ∀ f n f' n', s.spec = .flash f →
      f.network = some n → s'.spec = .flash f' → f'.network = some n' → n.vpcId = n'.vpcId →
      n.nameOf s.id = n'.nameOf s'.id → s = s' := by
  obtain ⟨_, hi, hJ, _⟩ := (vpcs_run h₀ hr).inv
  constructor
  · intro s hs f n hf hn
    obtain ⟨v, hv, hadmits⟩ := hJ.vpc s hs f n ⟨hf, hn⟩
    obtain ⟨vpc, hspec, hfits⟩ := hadmits.spec
    simp only [VpcSpec.fits, hn, Option.all_some, Bool.and_eq_true, beq_iff_eq,
      all_eq_true] at hfits
    exact ⟨v, hv, vpc, hadmits.id, hspec, hadmits.organization, hadmits.project,
      bne_iff_ne.mp hadmits.live, hfits.1, fun g hg => contains_iff_mem.mp (hfits.2 g hg)⟩
  · intro s hs s' hs' f n f' n' hf hn hf' hn' hvpc hname
    exact hi.services.eq hs hs' (hJ.names s hs s' hs' f n f' n' ⟨hf, hn⟩ ⟨hf', hn'⟩ hvpc hname)

/-- The principal of the account creates a VPC. -/
def createVpc (id : Uuid) (name : String) (spec : VpcSpec) : Call :=
  .createServiceInstance { organizationId := 1, projectId := 2, principalId := 20, name, id,
                           spec := .vpc spec }

/-- A VPC, and a Flash service that is attached to it. -/
def flashAttached : List (Move Call) :=
  runs 0 (createVpc 40 "net" { region := "tokyo" }) 13 ++
    runs 1 (createFlash 30 "app" { plainFlash with network := some { vpcId := 40 } }) 14

theorem vpcs_kept_attached : ∃ past σ,
    Run (program standalone) (System.quiet oneAccount 0 [20, 1]) past σ ∧
      ∃ s ∈ σ.db.serviceInstances, ∃ f n, s.spec = .flash f ∧ f.network = some n ∧
        ∃ v ∈ σ.db.serviceInstances, v.id = n.vpcId ∧ v.state ≠ .deleting := by
  have hplay : ((Machine.quiet oneAccount 0 [20, 1]).play (program standalone)
      flashAttached).any (fun m => m.db.serviceInstances.any fun s =>
        s.spec.flash?.any fun f => f.network.isSome) = true := by
    decide +kernel
  obtain ⟨m, past, hrun, hcheck⟩ := play_any hplay
  simp only [any_eq_true, Option.any_eq_true, ServiceSpec.flash?_eq_some,
    Option.isSome_iff_exists] at hcheck
  obtain ⟨s, hs, f, hf, n, hn⟩ := hcheck
  obtain ⟨hvpc, _⟩ := vpcs_kept oneAccount_initial hrun
  obtain ⟨v, hv, _, hid, _, _, _, hlive, _⟩ := hvpc s hs f n hf hn
  exact ⟨past, m.system, hrun, s, hs, f, n, hf, hn, v, hv, hid, hlive⟩

/-- **The services that rules name.** In every state of every run: -/
theorem rules_held {u : Setup} {d : Db} {t : Int} {issued : List Nat} (h₀ : Initial d issued)
    {past : List (Event Db Key Write Call)} {σ : System Db Key Write Call}
    (hr : Run (program u) (System.quiet d t issued) past σ) :
    -- a service that a rule of a VPC names is attached to it, or was when it had these rules
    (∀ v ∈ σ.db.serviceInstances, v.state ≠ .deleting → ∀ vpc, v.spec = .vpc vpc →
      ∀ id ∈ vpc.ruleServices, RuleHolds σ.db v id ∨
        ∃ e ∈ past, ∃ v₀ ∈ e.state.db.serviceInstances, v₀.Same v ∧ RuleHolds e.state.db v₀ id) ∧
    -- all are when the VPC is created or updated
    (∀ i ch vpc σ', Event.Executes ⟨σ, some i⟩ i (.changeCommit ch (.vpc vpc)) →
      StepBy (program u) σ (some i) σ' → ch.result (.vpc vpc) ∈ σ'.db.serviceInstances →
      ∀ id ∈ vpc.ruleServices, RuleHolds σ'.db (ch.result (.vpc vpc)) id) ∧
    -- and one that is stays so until it is detached or its deletion begins
    ∀ mover σ', StepBy (program u) σ mover σ' → ∀ v id, RuleHolds σ.db v id →
      ∀ v' ∈ σ'.db.serviceInstances, v.Same v' →
        RuleHolds σ'.db v' id ∨ Detaches ⟨σ, mover⟩ v.id id := by
  have hout := vpcs_run h₀ hr
  refine ⟨fun v hv hlive vpc hspec id hid => ?_,
    fun i ch vpc σ' hx hs hmem => rules_step hout hs hx hmem,
    fun mover σ' hs v id hrule v' hv' hsame =>
      rule_step hout (vpcs_run h₀ (hr.step hs)) hs hrule hv' hsame⟩
  obtain ⟨σ₀, hσ₀, v₀, hv₀, hsame, hrule⟩ :=
    hout.inv.2.2.2 v hv (bne_iff_ne.mpr hlive) vpc hspec id hid
  rcases mem_cons.mp hσ₀ with rfl | hσ₀
  · exact .inl (hrule.same hsame)
  · obtain ⟨e, he, rfl⟩ := mem_map.mp hσ₀
    exact .inr ⟨e, he, v₀, hv₀, hsame, hrule⟩

/-- Then a rule of the VPC names the service. -/
def ruleWritten : List (Move Call) :=
  flashAttached ++ runs 2 (.updateServiceInstance {
    organizationId := 1, id := 40, principalId := 20, name := "net",
    spec := .vpc { region := "tokyo",
                   rules := [{ source := .service 30, destination := .all, protocol := .tcp,
                               port := 80 }] } }) 10

theorem rules_held_written : ∃ past σ,
    Run (program standalone) (System.quiet oneAccount 0 [20, 1]) past σ ∧
      ∃ v ∈ σ.db.serviceInstances, ∃ vpc, v.spec = .vpc vpc ∧ ∃ id ∈ vpc.ruleServices,
        RuleHolds σ.db v id ∨ ∃ e ∈ past, ∃ v₀ ∈ e.state.db.serviceInstances, v₀.Same v ∧
          RuleHolds e.state.db v₀ id := by
  have hplay : ((Machine.quiet oneAccount 0 [20, 1]).play (program standalone)
      ruleWritten).any (fun m => m.db.serviceInstances.any fun s => s.live &&
        s.spec.vpc?.any fun vpc => vpc.ruleServices.contains 30) = true := by
    decide +kernel
  obtain ⟨m, past, hrun, hcheck⟩ := play_any hplay
  simp only [any_eq_true, Option.any_eq_true, Bool.and_eq_true, contains_iff_mem]
    at hcheck
  obtain ⟨v, hv, hlive, vpc, hvpc, hid⟩ := hcheck
  have hspec := vpc?_some hvpc
  obtain ⟨hheld, _⟩ := rules_held oneAccount_initial hrun
  exact ⟨past, m.system, hrun, v, hv, vpc, hspec, 30, hid,
    hheld v hv (bne_iff_ne.mp hlive) vpc hspec 30 hid⟩

/-- Then the service leaves the VPC. -/
def ruleBroken : List (Move Call) :=
  ruleWritten ++ runs 3 (updateFlash 30 "app" plainFlash) 12

/-- **A rule names a service that is not attached.** -/
theorem rules_broken : ∃ past σ,
    Run (program standalone) (System.quiet oneAccount 0 [20, 1]) past σ ∧
      ∃ v ∈ σ.db.serviceInstances, v.state ≠ .deleting ∧ ∃ vpc, v.spec = .vpc vpc ∧
        ∃ id ∈ vpc.ruleServices, ¬ RuleHolds σ.db v id := by
  have hplay : ((Machine.quiet oneAccount 0 [20, 1]).play (program standalone)
      ruleBroken).any (fun m => m.db.serviceInstances.any fun v => (v.live &&
        v.spec.vpc?.any fun vpc => vpc.ruleServices.contains 30) &&
        m.db.serviceInstances.all fun s => s.spec.flash?.all fun f => !f.attachedTo v.id) =
          true := by
    decide +kernel
  obtain ⟨m, past, hrun, hcheck⟩ := play_any hplay
  simp only [any_eq_true, Option.any_eq_true, Bool.and_eq_true, contains_iff_mem,
    all_eq_true] at hcheck
  obtain ⟨v, hv, ⟨hlive, vpc, hvpc, hid⟩, hnone⟩ := hcheck
  refine ⟨past, m.system, hrun, v, hv, bne_iff_ne.mp hlive, vpc, vpc?_some hvpc, 30, hid, ?_⟩
  rintro ⟨s, hs, _, _, _, _, f, hf, hattached⟩
  have hrow := hnone s hs
  rw [hf] at hrow
  simp [ServiceSpec.flash?, hattached] at hrow

end HeteroCloud.Services
