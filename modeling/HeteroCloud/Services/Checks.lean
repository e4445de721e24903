/-
  File:      Services/Checks.lean
  Subject:   WHAT A CHANGE OF A SERVICE WAS CHECKED AGAINST, as it is known when it is committed.

  Each check reads the database once. Until the change is committed others commit, but nothing that
  needs one of its locks (`Drift`). So what is said of a change at its commit is that every check
  succeeded on a state passed, and what has become of that state since (`Since`).
-/
import HeteroCloud.Services.Lifecycle

namespace HeteroCloud.Services

open Base Iam List
open Store (ServiceInstanceState StoreError)

/-! ## 1. Checks -/

variable (u : Setup)

/-- What becomes of the database while the locks are held. -/
abbrev Meanwhile (locks : Locks) : Db → Db → Prop :=
  Drift (program u) (guards u) locks

/-- It was found on a state passed, and the locks have been held since. -/
def Since (locks : Locks) (d : Db) (w : View) (found : Db → Prop) : Prop :=
  ∃ σ ∈ w.seen, found σ.db ∧ Meanwhile u locks σ.db d

/-- The locks under which the specification is prepared. -/
def Change.locks (ch : Change) : Locks :=
  preparationLocks u ch.organizationId ch.requested.provider

/-- The lock on the VPC a Flash service is attached to. -/
def vpcLocks (vpc : Option Uuid) : Locks := vpc.toList.map fun id => (.service id, .share)

section Checks
variable (u : Setup) (d : Db) (w : View) (ch : Change) (spec : ServiceSpec)

def Prepared : Prop := Since u (ch.locks u) d w fun d₀ => prepareSpec u d₀ ch = .ok spec

def CloudAllows : Prop := Since u (ch.locks u) d w fun d₀ =>
  d₀.validateCloudOrganizationAllocation u ch.organizationId ch.excluded (ch.previous spec) spec =
    .ok ()

def MemberAllows : Prop := Since u (ch.locks u) d w fun d₀ => ∀ user, ch.quotaUserId = some user →
  d₀.validateMemberAllocation ch.organizationId user ch.excluded (ch.previous spec) spec = .ok ()

/-- An update keeps the disks. -/
def DisksKept : Prop := ∀ s old f, ch.kind = .update → ch.existing = some s →
  s.spec = .flash old → spec = .flash f → validateFlashDiskUpdate old s.status f = .ok ()

variable (held : Locks)

/-- The VPC admits the service, and is locked. -/
def VpcAdmits : Prop := ∀ f, spec = .flash f → ∃ vpc,
  (∀ l ∈ vpcLocks vpc, l ∈ held) ∧ Since u (ch.locks u ++ vpcLocks vpc) d w fun d₀ =>
    d₀.validateVpcAttachment ch.organizationId ch.projectId ch.id f = .ok vpc

/-- **All checks of a change.** -/
structure Passed : Prop where
  prepared : Prepared u d w ch spec
  cloud : CloudAllows u d w ch spec
  member : MemberAllows u d w ch spec
  disks : DisksKept ch spec
  vpc : VpcAdmits u d w ch spec held

end Checks

/-- The checks made so far. A stop makes none. -/
def Checked (d : Db) (w : View) (_ : Nat) (r : Running Key Write Call) : Prop :=
  match r.call with
  | .cloudAllocation ch spec => Prepared u d w ch spec
  | .memberAllocation ch spec => Prepared u d w ch spec ∧ CloudAllows u d w ch spec
  | .attach ch spec => Prepared u d w ch spec ∧ CloudAllows u d w ch spec ∧
      MemberAllows u d w ch spec
  | .writeService ch spec | .requestUser ch spec | .writeRequest ch spec | .changeEvent ch spec
  | .changeCommit ch spec => ch.kind ≠ .stop → Passed u d w ch spec r.held
  | _ => True

/-- The stages of which it says something. -/
def Stage.checking : Stage → Bool
  | .cloudAllocation | .memberAllocation | .attach | .writeService | .requestUser | .writeRequest
  | .changeEvent | .changeCommit => true
  | _ => false

section Outline
variable {u : Setup} {d : Db} {w w' : View} {e : Event Db Key Write Call} {uuid : Nat → Nat}
  {i : Nat} {r : Running Key Write Call} {o : Statement} {ch : Change} {spec : ServiceSpec}
  {locks held held' others : Locks} {found : Db → Prop} {x : Write}

/-! ## 2. The outline -/

theorem Since.now (hk : Known ids d w) (h : found d) : Since u locks d w found := by
  obtain ⟨σ, hσ, rfl⟩ := hk.here
  exact ⟨σ, hσ, h, .here _⟩

theorem Since.mono (hw : w.Grows d w') (h : Since u locks d w found) :
    Since u locks d w' found := by
  obtain ⟨σ, hσ, hfound, hd⟩ := h
  exact ⟨σ, hw.seen σ hσ, hfound, hd⟩

theorem Since.commit (hx : Committed (guards u) w others x) (hc : Compatible others held)
    (hs : ∀ l ∈ locks, l ∈ held) (h : Since u locks d w found) :
    Since u locks (x.apply d) w found := by
  obtain ⟨σ, hσ, hfound, hd⟩ := h
  exact ⟨σ, hσ, hfound, hd.commit hx hc hs⟩

theorem VpcAdmits.more (hs : ∀ l ∈ held, l ∈ held') (h : VpcAdmits u d w ch spec held) :
    VpcAdmits u d w ch spec held' := by
  intro f hf
  obtain ⟨vpc, hv, hsince⟩ := h f hf
  exact ⟨vpc, fun l hl => hs l (hv l hl), hsince⟩

theorem Passed.more (hs : ∀ l ∈ held, l ∈ held') (h : Passed u d w ch spec held) :
    Passed u d w ch spec held' :=
  { h with vpc := h.vpc.more hs }

theorem Passed.mono (hw : w.Grows d w') (h : Passed u d w ch spec held) :
    Passed u d w' ch spec held where
  prepared := h.prepared.mono hw
  cloud := h.cloud.mono hw
  member := h.member.mono hw
  disks := h.disks
  vpc f hf := by
    obtain ⟨vpc, hv, hsince⟩ := h.vpc f hf
    exact ⟨vpc, hv, hsince.mono hw⟩

theorem Passed.commit (hx : Committed (guards u) w others x) (hc : Compatible others held)
    (hl : ∀ l ∈ ch.locks u, l ∈ held) (h : Passed u d w ch spec held) :
    Passed u (x.apply d) w ch spec held where
  prepared := h.prepared.commit hx hc hl
  cloud := h.cloud.commit hx hc hl
  member := h.member.commit hx hc hl
  disks := h.disks
  vpc f hf := by
    obtain ⟨vpc, hv, hsince⟩ := h.vpc f hf
    refine ⟨vpc, hv, hsince.commit hx hc fun l hm => ?_⟩
    rcases mem_append.mp hm with hm | hm
    · exact hl l hm
    · exact hv l hm

theorem checked_apart (h : r.call.stage.checking = false) : Checked u d w i r := by
  obtain ⟨call, held, pending, began⟩ := r
  cases call with
  | cloudAllocation | memberAllocation | attach | writeService | requestUser | writeRequest
  | changeEvent | changeCommit => cases h
  | _ => exact trivial

theorem checked_mono (hw : w.Grows d w') (h : Checked u d w i r) : Checked u d w' i r := by
  obtain ⟨call, held, pending, began⟩ := r
  cases call with
  | cloudAllocation ch spec =>
    have h : Prepared u d w ch spec := h
    exact h.mono hw
  | memberAllocation => exact ⟨h.1.mono hw, h.2.mono hw⟩
  | attach => exact ⟨h.1.mono hw, h.2.1.mono hw, h.2.2.mono hw⟩
  | writeService | requestUser | writeRequest | changeEvent | changeCommit =>
    exact fun hk => (h hk).mono hw
  | _ => exact trivial

theorem checked_commit (hx : Committed (guards u) w others x) (hc : Compatible others r.held)
    (hA : At u d w i r) (h : Checked u d w i r) : Checked u (x.apply d) w i r := by
  obtain ⟨_, hA⟩ := hA
  obtain ⟨call, held, pending, began⟩ := r
  cases call with
  | cloudAllocation ch spec =>
    have h : Prepared u d w ch spec := h
    exact h.commit hx hc hA.2.1.locks
  | memberAllocation =>
    exact ⟨h.1.commit hx hc hA.2.1.locks, h.2.commit hx hc hA.2.1.locks⟩
  | attach =>
    exact ⟨h.1.commit hx hc hA.2.1.locks, h.2.1.commit hx hc hA.2.1.locks,
      h.2.2.commit hx hc hA.2.1.locks⟩
  | writeService => exact fun hk => (h hk).commit hx hc hA.2.1.locks
  | requestUser | writeRequest => exact fun hk => (h hk).commit hx hc hA.2.1.locked.locks
  | changeEvent | changeCommit => exact fun hk => (h hk).commit hx hc hA.2.locked.locks
  | _ => exact trivial

/-- The statement reaches a point at which the checks made are known. -/
abbrev ReachesChecked (u : Setup) := Reaches (program u) (Checked u)

theorem checked_abort (error : StoreError) : ReachesChecked u d w e uuid i r (abort error) :=
  trivial

section
variable (h : Ready (guards u) Inv d w e uuid i r)
include h

theorem prepare_checked : ReachesChecked u d w e uuid i r (prepare u d ch) := by
  refine reaches_check checked_abort fun spec hspec => ?_
  have hp : Prepared u d w ch spec := Since.now h.known hspec
  exact hp.mono (h.known.grows e _)

variable (hp : Prepared u d w ch spec)
include hp

theorem cloudAllocation_checked : ReachesChecked u d w e uuid i r (cloudAllocation u d ch spec) :=
    by
  have hg : w.Grows d (Then u w e uuid) := h.known.grows e _
  refine reaches_check checked_abort fun _ hok => ?_
  exact ⟨hp.mono hg, (Since.now h.known hok).mono hg⟩

theorem memberAllocation_checked (hcloud : CloudAllows u d w ch spec) : ReachesChecked u d w e uuid
    i r (memberAllocation d ch spec) := by
  have hg : w.Grows d (Then u w e uuid) := h.known.grows e _
  have hnext (hmember : ∀ user, ch.quotaUserId = some user → d.validateMemberAllocation
      ch.organizationId user ch.excluded (ch.previous spec) spec = .ok ()) :
      ReachesChecked u d w e uuid i r (.stmt [] [] (.attach ch spec)) :=
    ⟨hp.mono hg, hcloud.mono hg, (Since.now h.known hmember).mono hg⟩
  unfold memberAllocation
  split
  · rename_i hnone
    refine hnext fun user huser => ?_
    cases hnone.symm.trans huser
  · rename_i user huser
    refine reaches_check checked_abort fun _ hok => hnext fun user' huser' => ?_
    cases huser.symm.trans huser'
    exact hok

theorem attach_checked (hcloud : CloudAllows u d w ch spec) (hmember : MemberAllows u d w ch spec) :
    ReachesChecked u d w e uuid i r (attach d ch spec) := by
  have hg : w.Grows d (Then u w e uuid) := h.known.grows e _
  unfold attach
  split
  · rename_i f
    refine reaches_check checked_abort fun _ hdisks => ?_
    refine reaches_check checked_abort fun vpc hvpc => fun _ => ?_
    refine ⟨hp.mono hg, hcloud.mono hg, hmember.mono hg, ?_, ?_⟩
    · rintro s old _ hk hs hold ⟨⟩
      simpa [hk, hs, hold, ServiceSpec.flash?] using hdisks
    rintro _ ⟨⟩
    refine ⟨vpc, fun l hl => mem_append_left _ hl, ?_⟩
    exact (Since.now h.known hvpc).mono hg
  · rename_i hother
    refine fun _ => ⟨hp.mono hg, hcloud.mono hg, hmember.mono hg, ?_, ?_⟩
    · intro s old f _ _ _ hf
      exact absurd hf (hother f)
    · intro f hf
      exact absurd hf (hother f)

end
variable {view : Db}

theorem switchExisting_checked {q : FlashSwitch} : ReachesChecked u d w e uuid i r (switchExisting
    view q) := by
  unfold switchExisting
  split
  · exact checked_abort _
  rename_i s hs
  split
  · exact checked_abort _
  split
  · exact fun _ _ => trivial
  split_ifs with hq
  · intro hk
    exact absurd (by simp [FlashSwitch.change, hq]) hk
  refine checked_apart (i := i) ?_
  show (q.change s).begin.stage.checking = false
  unfold Change.begin
  split <;> rfl

section
variable (h : Ready (guards u) Inv d w e uuid i r) (hc : ch.kind ≠ .stop → Passed u d w ch spec
  r.held)
include h hc

theorem writeService_checked : ReachesChecked u d w e uuid i r (writeService d ch spec) := by
  have hnext {locks : Locks} {writes : List Write} :
      ReachesChecked u d w e uuid i r (.stmt locks writes (ch.afterRow spec)) := by
    unfold Change.afterRow
    split_ifs
    · exact fun hk => ((hc hk).mono (h.known.grows e _)).more (held_more _)
    · exact fun hk => ((hc hk).mono (h.known.grows e _)).more (held_more _)
  unfold writeService
  dsimp only
  split_ifs
  · exact checked_abort _
  · exact checked_abort _
  · exact checked_abort _
  · exact checked_abort _
  · exact hnext
  · exact hnext

theorem requestUser_checked : ReachesChecked u d w e uuid i r (requestUser view ch spec) := by
  unfold requestUser
  split
  · exact checked_abort _
  · exact fun hk => (hc hk).mono (h.known.grows e _)

theorem writeRequest_checked : ReachesChecked u d w e uuid i r (writeRequest view ch spec) := by
  unfold writeRequest
  split_ifs
  · exact fun hk => ((hc hk).mono (h.known.grows e _)).more (held_more _)
  · exact checked_abort _

omit hc

/-- **Every statement leads to a point at which the checks made are known.** -/
theorem exec_checked (hA : At u d w i r) (hB : Checked u d w i r) (ho : exec u w.clock (r.began.getD
    w.clock) uuid ((program u).view r d) r.call = some o) : ReachesChecked u d w e uuid i r o := by
  obtain ⟨_, hA⟩ := hA
  obtain ⟨call, held, pending, began⟩ := r
  have hview (hp : pending = []) : (program u).view ⟨call, held, pending, began⟩ d = d :=
    view_none hp
  cases call with
  | prepare => cases ho; rw [hview hA.1]; exact prepare_checked h
  | cloudAllocation => cases ho; rw [hview hA.1]; exact cloudAllocation_checked h hB
  | memberAllocation =>
    cases ho
    rw [hview hA.1]
    exact memberAllocation_checked h hB.1 hB.2
  | attach =>
    cases ho
    rw [hview hA.1]
    exact attach_checked h hB.1 hB.2.1 hB.2.2
  | switchExisting => cases ho; exact switchExisting_checked
  | writeService => cases ho; rw [hview hA.1]; exact writeService_checked h hB
  | requestUser => cases ho; exact requestUser_checked h hB
  | writeRequest => cases ho; exact writeRequest_checked h hB
  | changeEvent =>
    cases ho
    exact fun hk => ((hB hk).mono (h.known.grows e _)).more (held_more _)
  | _ => exact reaches_quiet Stage.checking checked_apart (by rfl) ho

end

theorem checks : Duties (program u) (guards u) Inv
    (fun d w i r => At u d w i r ∧ Checked u d w i r) :=
  annotate_stages Stage.checking duties checked_apart rfl checked_mono exec_checked checked_commit

/-- What is known in a state of a run. -/
abbrev CheckedOutline (u : Setup) (past : List (Event Db Key Write Call))
    (σ : System Db Key Write Call) : Prop :=
  Holds (fun d w => Known ids d w ∧ Inv d w)
    (fun d w i r => Own (guards u) w r ∧ At u d w i r ∧ Checked u d w i r) past σ

theorem checked_run {t : Int} {issued : List Nat} {past : List (Event Db Key Write Call)}
    {σ : System Db Key Write Call} (h₀ : Initial d issued)
    (hr : Run (program u) (System.quiet d t issued) past σ) : CheckedOutline u past σ :=
  checks.outline.run hr ⟨.initial h₀.issued, h₀.inv⟩

end Outline

/-! ## 3. The rows after a step -/

/-- Two rows of one service under one configuration. -/
structure ServiceRow.Same (s s' : ServiceRow) : Prop where
  id : s'.id = s.id
  organization : s'.organizationId = s.organizationId
  project : s'.projectId = s.projectId
  name : s'.name = s.name
  spec : s'.spec = s.spec

/-- The call `i` is about to commit the change. -/
structure Commits (past : List (Event Db Key Write Call))
    (σ : System Db Key Write Call) (i : Nat) (ch : Change) (spec : ServiceSpec) (held : Locks) :
    Prop where
  executes : Event.Executes ⟨σ, some i⟩ i (.changeCommit ch spec)
  changing : Changing u σ.db held ch spec
  unknown : ch.existing = none → ch.id ∉ σ.db.knownServices
  passed : ch.kind ≠ .stop → Passed u σ.db (σ.world past) ch spec held

section Rows
variable {u : Setup} {d : Db} {w : View} {x : Write} {held : Locks} {s s' old new : ServiceRow}
  {past : List (Event Db Key Write Call)} {σ σ' : System Db Key Write Call}
  {mover : Option Nat} {ch : Change} {spec : ServiceSpec} {organization : Uuid}

theorem ServiceRow.Same.refl (s : ServiceRow) : s.Same s := ⟨rfl, rfl, rfl, rfl, rfl⟩

variable {s'' : ServiceRow}

theorem ServiceRow.Same.trans (h : s.Same s') (h' : s'.Same s'') : s.Same s'' :=
  ⟨h'.id.trans h.id, h'.organization.trans h.organization, h'.project.trans h.project,
    h'.name.trans h.name, h'.spec.trans h.spec⟩

theorem ServiceRow.Same.provider (h : s.Same s') : s'.provider = s.provider := by
  unfold ServiceRow.provider
  rw [h.spec]

/-- A write that replaces a row and is no change keeps its configuration. -/
theorem replaces_configured (hx : x.allows) (hr : x.replaces = some (old, new)) :
    (old.Same new ∧ (new.live = true → old.live = true)) ∨
      ∃ projectId name spec, x = .changeService old projectId name spec := by
  cases x with
  | reportService =>
    cases hr
    exact .inl ⟨⟨rfl, rfl, rfl, rfl, rfl⟩, fun _ => bne_iff_ne.mpr hx.1⟩
  | changeService o projectId name spec =>
    cases hr
    exact .inr ⟨projectId, name, spec, rfl⟩
  | deleteService =>
    cases hr
    exact .inl ⟨⟨rfl, rfl, rfl, rfl, rfl⟩, fun h => by cases h⟩
  | assignService =>
    cases hr
    exact .inl ⟨⟨rfl, rfl, rfl, rfl, rfl⟩, fun h => h⟩
  | _ => cases hr

/-- **Where a write is committed**: the point it belongs to, and what it is there. -/
def Write.origin (x : Write) (c : Call) : Prop :=
  match x with
  | .insertService s => ∃ ch spec, c = .changeCommit ch spec ∧ ch.existing = none ∧ s = ch.row spec
  | .changeService old projectId name spec => ∃ ch, c = .changeCommit ch spec ∧
      ch.existing = some old ∧ projectId = ch.projectId ∧ name = ch.name
  | .dropServiceTokens service => ∃ ch spec old, c = .changeCommit ch spec ∧
      ch.existing = some old ∧ ch.dropsTokens spec = true ∧ service = old.id
  | .putGpuRequest service gpuType principal => ∃ ch spec, c = .changeCommit ch spec ∧
      ch.gpuType spec = some gpuType ∧ service = ch.id ∧ principal = ch.principalId
  | .dropGpuRequest service => ∃ ch spec, c = .changeCommit ch spec ∧
      ch.gpuType spec = none ∧ service = ch.id
  | .deleteService s => ∃ q, c = .deleteCommit q s
  | .removeService _ => ∃ dl, c = .completeCommit dl
  | .assignService s user => ∃ resource serviceAccount,
      c = .quotaCommit (.assign s.organizationId resource user serviceAccount)
  | .setPrincipalOwner _ user => ∃ organization resource serviceAccount,
      c = .quotaCommit (.assign organization resource user serviceAccount)
  | .claimEvent _ _ => ∃ ev exchange, c = .claimCommit ev exchange
  | .insertToken t => c = .mintCommit t
  | .dropExpiredTokens _ => ∃ t, c = .mintCommit t
  | .setPrincipalEnabled role enabled => ∃ organization,
      c = .enabledCommit organization role enabled
  | .dropPrincipalTokens organization role => c = .enabledCommit organization role false
  | .insertPrincipal p => c = .settle ∨ (p.enabled = true ∧
      ∃ management user, c = .quotaCommit (.createAccount management user))
  | .insertAccount _ => ∃ management user, c = .quotaCommit (.createAccount management user)
  | .insertMembership _ user => ∃ management, c = .quotaCommit (.createAccount management user)
  | .setGpuDevices _ => ∃ gpuTypes, c = .syncCommit gpuTypes
  | .setQuotaDefaults limits => c = .quotaCommit (.updateDefaults limits)
  | .setOrganizationQuota organization (some limits) =>
      c = .quotaCommit (.setOrganization organization limits)
  | .setOrganizationQuota organization none => c = .quotaCommit (.clearOrganization organization)
  | .setMemberQuota organization user limits =>
      c = .quotaCommit (.setMember organization user limits)
  | .enableWeeklyQuotas => c = .quotaCommit .enableWeekly
  | .putSecret service name => ∃ q row, c = .putSecretCommit q row ∧ service = q.id ∧ name = q.name
  | .deletePrincipal _ | .setSurroundings _ | .deleteSecret _ _ | .deliverEvent _ _
  | .retryEvent _ _ => c = .settle
  | .reportService _ _ _ | .insertEvent _ => True

theorem serviceWrites_origin (h : x ∈ ch.serviceWrites spec) :
    x.origin (.changeCommit ch spec) := by
  unfold Change.serviceWrites at h
  cases hex : ch.existing with
  | none =>
    rw [hex] at h
    rw [mem_singleton.mp h]
    exact ⟨ch, spec, rfl, hex, rfl⟩
  | some old =>
    rw [hex] at h
    rcases mem_append.mp h with h | h
    · split_ifs at h with hdrops
      · rw [mem_singleton.mp h]
        exact ⟨ch, spec, old, rfl, hex, hdrops, rfl⟩
      · cases h
    · rw [mem_singleton.mp h]
      exact ⟨ch, rfl, hex, rfl, rfl⟩

theorem requestWrites_origin (h : x ∈ ch.requestWrites spec) :
    x.origin (.changeCommit ch spec) := by
  unfold Change.requestWrites at h
  split_ifs at h
  · cases h
  split at h
  · rename_i hgpu
    rw [mem_singleton.mp h]
    exact ⟨ch, spec, rfl, hgpu, rfl⟩
  · rename_i gpuType hgpu
    rw [mem_singleton.mp h]
    exact ⟨ch, spec, rfl, hgpu, rfl, rfl⟩

theorem enabledWrites_origin {role : Uuid} {enabled : Bool}
    (h : x ∈ enabledWrites organization role enabled) :
    x.origin (.enabledCommit organization role enabled) := by
  cases enabled with
  | true =>
    rw [mem_singleton.mp h]
    exact ⟨organization, rfl⟩
  | false =>
    rcases mem_pair.mp h with rfl | rfl
    · exact ⟨organization, rfl⟩
    · exact (rfl : Call.enabledCommit organization role false = _)

theorem QuotaOp.Writes.origin {op : QuotaOp} {base : List Write} (hb : op.Writes u base)
    (hx : x ∈ base) : x.origin (.quotaCommit op) := by
  have hone {y : Write} (hp : base = [y]) : x = y := by
    rw [hp] at hx
    exact mem_singleton.mp hx
  cases op with
  | updateDefaults | setOrganization | clearOrganization | setMember | enableWeekly =>
    rw [hone hb]; exact rfl
  | assign organization resource _ serviceAccount =>
    rcases hb with ⟨s, hp, rfl⟩ | ⟨p, hp⟩
    · rw [hone hp]
      exact ⟨resource, serviceAccount, rfl⟩
    · rw [hone hp]
      exact ⟨organization, resource, serviceAccount, rfl⟩
  | createAccount management user =>
    obtain ⟨a, p, _, _, _, _, _, henabled, rfl⟩ := hb
    rcases mem_cons.mp hx with rfl | hx
    · exact ⟨management, user, rfl⟩
    rcases mem_pair.mp hx with rfl | rfl
    · exact .inr ⟨henabled, management, user, rfl⟩
    · exact ⟨management, rfl⟩
  | reconcile =>
    rw [show base = [] from hb] at hx
    cases hx

variable {r : Running Key Write Call}

/-- A change about to be committed. -/
theorem Point.changing (hA : Point u d w r) (hat : r.call = .changeCommit ch spec) : Changing u d
    r.held ch spec := by
  unfold Point at hA
  rw [hat] at hA
  exact hA.2

/-- **Every write of a commit belongs to its point.** -/
theorem commit_origin (hA : Point u d w r) (hc : r.call.stage.commits = true) (hx : x ∈ r.pending) :
    x.origin r.call := by
  obtain ⟨call, held, pending, began⟩ := r
  have hnone (hp : pending = []) : False := by
    rw [show pending = [] from hp] at hx
    cases hx
  have hone {y : Write} (hp : pending = [y]) : x = y := by
    rw [show pending = [y] from hp] at hx
    exact mem_singleton.mp hx
  have htwo {y z : Write} (hp : pending = [y, z]) : x = y ∨ x = z := by
    rw [show pending = [y, z] from hp] at hx
    exact mem_pair.mp hx
  cases call with
  | changeCommit =>
    obtain ⟨⟨id, now, hp⟩, _⟩ := hA
    rw [show pending = _ from hp] at hx
    rcases mem_append.mp hx with hx | hx
    · rcases mem_append.mp hx with hx | hx
      · exact serviceWrites_origin hx
      · exact requestWrites_origin hx
    · rw [mem_singleton.mp hx]
      exact trivial
  | createExisting => exact (hnone hA).elim
  | switchExisting | deleteExisting => exact (hnone hA.1).elim
  | deleteCommit q =>
    obtain ⟨⟨id, now, hp⟩, _⟩ := hA
    rcases htwo hp with rfl | rfl
    · exact ⟨q, rfl⟩
    · exact trivial
  | observationCommit =>
    obtain ⟨s, state, status, hp, _⟩ := hA
    rw [hone hp]
    exact trivial
  | mintCommit t =>
    obtain ⟨now, hp⟩ := hA
    rcases htwo hp with rfl | rfl
    · exact ⟨t, rfl⟩
    · exact (rfl : Call.mintCommit t = _)
  | enabledCommit organization role enabled =>
    rw [show pending = enabledWrites organization role enabled from hA] at hx
    exact enabledWrites_origin hx
  | quotaCommit =>
    obtain ⟨base, es, hp, hbase⟩ := hA
    rw [show pending = _ from hp] at hx
    rcases mem_append.mp hx with hx | hx
    · exact hbase.origin hx
    · obtain ⟨ev, _, rfl⟩ := mem_map.mp hx
      exact trivial
  | syncCommit gpuTypes =>
    obtain ⟨⟨devices, es, hp⟩, _⟩ := hA
    rw [show pending = _ from hp] at hx
    rcases mem_cons.mp hx with rfl | hx
    · exact ⟨gpuTypes, rfl⟩
    · obtain ⟨ev, _, rfl⟩ := mem_map.mp hx
      exact trivial
  | claimCommit ev exchange =>
    obtain ⟨⟨now, hp⟩, _⟩ := hA
    rw [hone hp]
    exact ⟨ev, exchange, rfl⟩
  | completeCommit dl =>
    rcases hA.1 with hp | ⟨s, hp, _⟩
    · exact (hnone hp).elim
    · rw [hone hp]
      exact ⟨dl, rfl⟩
  | markCommit =>
    rcases hA.1 with hp | ⟨s, state, status, hp, _⟩
    · exact (hnone hp).elim
    · rw [hone hp]
      exact trivial
  | putSecretCommit q row =>
    rw [hone hA]
    exact ⟨q, row, rfl, rfl, rfl⟩
  | settle =>
    obtain ⟨y, hp, hplain⟩ := hA
    rw [hone hp]
    cases y with
    | insertPrincipal => exact .inl rfl
    | deletePrincipal | setSurroundings | deleteSecret | deliverEvent | retryEvent => exact rfl
    | _ => cases hplain
  | _ => cases hc

/-- A service that is created is new. -/
theorem Point.unknown (hP : Pending u d w r.held r.pending) (hA : Point u d w r) (hat : r.call =
    .changeCommit ch spec) (hnone : ch.existing = none) : ch.id ∉ d.knownServices := by
  unfold Point at hA
  rw [hat] at hA
  obtain ⟨⟨id, now, hp⟩, _⟩ := hA
  refine hP.new_unknown (fun y (hy : y ∈ ch.serviceWrites spec) => ?_) hnone
  rw [hp]
  exact mem_append_left _ (mem_append_left _ hy)

/-- **A row after a commit** is configured as one before it, or is what a change makes of it. -/
theorem commit_service (hP : Pending u d w r.held r.pending) (hA : Point u d w r) (hc :
    r.call.stage.commits = true) (hmem : s' ∈ ((program u).view r d).serviceInstances) : (∃ s ∈
    d.serviceInstances, s.Same s' ∧ (s'.live = true → s.live = true)) ∨ ∃ ch spec, r.call =
    .changeCommit ch spec ∧ s' = ch.result spec := by
  have hsame (hdb : s' ∈ d.serviceInstances) :
      ∃ s ∈ d.serviceInstances, s.Same s' ∧ (s'.live = true → s.live = true) :=
    ⟨s', hdb, .refl s', fun h => h⟩
  rcases hP.services with hnone | ⟨x, hx, hallows, happly⟩
  · exact .inl (hsame (hnone ▸ hmem))
  have horigin := commit_origin hA hc hx
  have hmem : s' ∈ (x.apply d).serviceInstances := happly ▸ hmem
  rcases mem_services hmem with ⟨rfl, _⟩ | hmem | ⟨old, hold, hr⟩
  · obtain ⟨ch, spec, hat, hex, rfl⟩ := horigin
    refine .inr ⟨ch, spec, hat, ?_⟩
    rw [Change.result, hex]
  · exact .inl (hsame hmem)
  rcases replaces_configured hallows hr with hkeep | ⟨projectId, name, spec, rfl⟩
  · exact .inl ⟨old, hold, hkeep⟩
  cases hr
  obtain ⟨ch, hat, hex, rfl, rfl⟩ := horigin
  refine .inr ⟨ch, spec, hat, ?_⟩
  rw [Change.result, hex]

/-- **What a commit makes of a row.** -/
inductive RowAfter (d' : Db) (c : Call) (s : ServiceRow) : Prop
  | kept (s' : ServiceRow) (h : s' ∈ d'.serviceInstances) (same : s.Same s')
      (live : s'.live = s.live)
  | changed (ch : Change) (spec : ServiceSpec) (hat : c = .changeCommit ch spec)
      (existing : ch.existing = some s) (h : ch.result spec ∈ d'.serviceInstances)
  | deleted (q : ServiceDeletion) (hat : c = .deleteCommit q s)
  | removed (dl : Delivery) (hat : c = .completeCommit dl) (deleting : s.live = false)

theorem row_after (hP : Pending u d w r.held r.pending) (hA : Point u d w r) (hc :
    r.call.stage.commits = true) (hs : s ∈ d.serviceInstances) : RowAfter ((program u).view r d)
    r.call s := by
  rcases hP.services with hnone | ⟨x, hx, hallows, happly⟩
  · have hmem : s ∈ ((program u).view r d).serviceInstances := by
      rw [show ((program u).view r d).serviceInstances = d.serviceInstances from hnone]
      exact hs
    exact .kept s hmem (.refl s) rfl
  have horigin := commit_origin hA hc hx
  have hview {a : ServiceRow} (h : a ∈ (x.apply d).serviceInstances) :
      a ∈ ((program u).view r d).serviceInstances := by
    rw [show ((program u).view r d).serviceInstances = (x.apply d).serviceInstances from happly]
    exact h
  rcases apply_keeps (x := x) hs with hs | ⟨new, hnew, hr⟩ | rfl
  · exact .kept s (hview hs) (.refl s) rfl
  · cases x with
    | reportService =>
      cases hr
      refine .kept _ (hview hnew) ⟨rfl, rfl, rfl, rfl, rfl⟩ ?_
      rw [show s.live = true from bne_iff_ne.mpr hallows.1]
      exact bne_iff_ne.mpr hallows.2
    | changeService _ _ _ spec =>
      cases hr
      obtain ⟨ch, hat, hex, rfl, rfl⟩ := horigin
      refine .changed ch spec hat hex ?_
      rw [Change.result, hex]
      exact hview hnew
    | deleteService =>
      cases hr
      obtain ⟨q, hat⟩ := horigin
      exact .deleted q hat
    | assignService =>
      cases hr
      exact .kept _ (hview hnew) ⟨rfl, rfl, rfl, rfl, rfl⟩ rfl
    | _ => cases hr
  · obtain ⟨dl, hat⟩ := horigin
    have hstate : s.state = .deleting := hallows
    refine .removed dl hat ?_
    rw [ServiceRow.live, hstate]
    rfl

/-- The same of a step, with what was checked. -/
theorem step_service (h : CheckedOutline u past σ) (hs : StepBy (program u) σ mover σ')
    (hmem : s' ∈ σ'.db.serviceInstances) :
    (∃ s ∈ σ.db.serviceInstances, s.Same s' ∧ (s'.live = true → s.live = true)) ∨
      ∃ i ch spec held, mover = some i ∧ Commits u past σ i ch spec held ∧
        s' = ch.result spec := by
  cases hs with
  | commit i r _ _ hcall _ ho =>
    obtain ⟨_, ⟨hP, hA⟩, hB⟩ := h.loc i r hcall
    rcases commit_service hP hA (exec_commits ho) hmem with hkept | ⟨ch, spec, hat, hrow⟩
    · exact .inl hkept
    unfold Checked at hB
    rw [hat] at hB
    exact .inr ⟨i, ch, spec, r.held, rfl, ⟨⟨rfl, r, hcall, hat⟩, hA.changing hat,
      hA.unknown hP hat, hB⟩, hrow⟩
  | _ => exact .inl ⟨s', hmem, .refl s', fun h => h⟩

/-! ## 4. What the locks keep of services -/

/-- The provider is one whose services are changed under the locks of their account. -/
def Provider.scoped : Provider → Bool
  | .other _ => false
  | _ => true

/-- The locks of the account, as `lock_tenant_allocations` takes them. -/
def Tenancy (u : Setup) (organization : Uuid) (held : Locks) : Prop :=
  ∀ l ∈ lockTenantAllocations u organization, l ∈ held

/-- The keys of the account are locked. -/
def TenantLocked (u : Setup) (organization : Uuid) (locks : Locks) : Prop :=
  ∀ k ∈ tenantKeys u organization, (k, .exclusive) ∈ locks

/-- The second row is the first, but for its state and status. -/
structure ServiceRow.Reported (s s' : ServiceRow) : Prop where
  row : s' = s.reported s'.state s'.status
  live : s'.live = s.live

theorem ServiceRow.Reported.refl (s : ServiceRow) : s.Reported s := ⟨rfl, rfl⟩

theorem ServiceRow.Reported.trans (h : s.Reported s') (h' : s'.Reported s'') : s.Reported s'' := by
  refine ⟨?_, h'.live.trans h.live⟩
  have hrow := h'.row
  rw [h.row] at hrow
  exact hrow

theorem ServiceRow.Reported.same (h : s.Reported s') : s.Same s' := by
  rw [h.row]
  exact ⟨rfl, rfl, rfl, rfl, rfl⟩

theorem Tenancy.locked {held : Locks} {organization : Uuid} (h : Tenancy u organization held) :
    TenantLocked u organization held :=
  fun _ hk => h _ (tenant_locked hk)

variable {provider : Provider}

theorem tenantLocked_preparation {organization : Uuid} (h : provider.scoped = true) : TenantLocked u
    organization (preparationLocks u organization provider) := by
  intro k hk
  refine scope_locked ?_
  cases provider with
  | other => cases h
  | flash | syouyu | flow | vpc => exact mem_append_left _ hk

theorem tenant_scope {organization : Uuid} {k : Key} (h : provider.scoped = true) (hk : k ∈
    tenantKeys u organization) : k ∈ scopeKeys u organization provider := by
  cases provider with
  | other => cases h
  | flash | syouyu | flow | vpc => exact mem_append_left _ hk

variable {locks : Locks} {d₀ : Db}

theorem allocations_key : Key.allocations organization ∈ tenantKeys u organization :=
  mem_append_right _ mem_cons_self

section
variable (hl : TenantLocked u organization locks)
include hl

/-- While the account is locked, nothing replaces a row of its services but a report. -/
theorem tenant_replaces (hx : Foreign (guards u) locks x) (hr : x.replaces = some (old, new)) (horg
    : old.organizationId = organization) (hp : old.provider.scoped = true) : old.Reported new := by
  have hfree : Key.allocations organization ∉ x.needs u := fun hk =>
    hx.free _ hk .exclusive (hl _ allocations_key)
  subst horg
  cases x with
  | reportService =>
    cases hr
    refine ⟨rfl, ?_⟩
    rw [show old.live = true from bne_iff_ne.mpr hx.allowed.1]
    exact bne_iff_ne.mpr hx.allowed.2
  | changeService =>
    cases hr
    exact absurd (mem_cons_of_mem _ (tenant_scope hp allocations_key)) hfree
  | deleteService | assignService =>
    cases hr
    exact absurd (mem_cons_of_mem _ allocations_key) hfree
  | _ => cases hr

/-- **The services of an account that is locked** are those it had, but for reports. -/
theorem scoped_origin (h : Meanwhile u locks d₀ d) : ∀ s ∈ d.serviceInstances, s.organizationId =
    organization → s.provider.scoped = true → ∃ s₀ ∈ d₀.serviceInstances, s₀.Reported s := by
  refine h.keeps (Q := fun d => ∀ s ∈ d.serviceInstances, s.organizationId = organization →
    s.provider.scoped = true → ∃ s₀ ∈ d₀.serviceInstances, s₀.Reported s) ?_ ?_
  · intro x d hx hd s hs horg hp
    rcases mem_services hs with ⟨rfl, _⟩ | hs | ⟨old, hold, hr⟩
    · have hk : Key.allocations organization ∈ (Write.insertService s).needs u := by
        rw [← horg]
        exact mem_cons_of_mem _ (tenant_scope hp allocations_key)
      exact absurd (hl _ allocations_key) (hx.free _ hk .exclusive)
    · exact hd s hs horg hp
    · have hsame := x.replaces_same hx.allowed hr
      have horg' : old.organizationId = organization := hsame.2.1.symm.trans horg
      have hp' : old.provider.scoped = true := hsame.2.2 ▸ hp
      obtain ⟨s₀, hs₀, hrep⟩ := hd old hold horg' hp'
      exact ⟨s₀, hs₀, hrep.trans (tenant_replaces hl hx hr horg' hp')⟩
  · exact fun s hs _ _ => ⟨s, hs, .refl s⟩

/-- **Those that are not in deletion are still there.** -/
theorem scoped_stays (h : Meanwhile u locks d₀ d) {s₀ : ServiceRow} (hs : s₀ ∈ d₀.serviceInstances)
    (horg : s₀.organizationId = organization) (hp : s₀.provider.scoped = true) (hlive : s₀.live =
    true) : ∃ s ∈ d.serviceInstances, s₀.Reported s := by
  refine h.keeps (Q := fun d => ∃ s ∈ d.serviceInstances, s₀.Reported s) ?_ ⟨s₀, hs, .refl s₀⟩
  rintro x d hx ⟨s, hs, hrep⟩
  rcases apply_keeps (x := x) hs with hs | ⟨new, hnew, hr⟩ | rfl
  · exact ⟨s, hs, hrep⟩
  · have horg' : s.organizationId = organization := hrep.same.organization.trans horg
    have hp' : s.provider.scoped = true := by rw [hrep.same.provider]; exact hp
    exact ⟨new, hnew, hrep.trans (tenant_replaces hl hx hr horg' hp')⟩
  · have hdel : s.state = .deleting := hx.allowed
    have hlive' : s.live = true := hrep.live.trans hlive
    exact absurd hdel (bne_iff_ne.mp hlive')

end

/-- **The services of a provider while its key is locked**: none is new, and none is changed. -/
theorem keyed_origin {key : Key} (hk : ∀ organization, key ∈ scopeKeys u organization provider) (hl
    : (key, .exclusive) ∈ locks) (h : Meanwhile u locks d₀ d) : ∀ s ∈ d.serviceInstances, s.provider
    = provider → ∃ s₀ ∈ d₀.serviceInstances, s₀.Same s ∧ (s.live = true → s₀.live = true) := by
  refine h.keeps (Q := fun d => ∀ s ∈ d.serviceInstances, s.provider = provider →
    ∃ s₀ ∈ d₀.serviceInstances, s₀.Same s ∧ (s.live = true → s₀.live = true)) ?_ ?_
  · intro x d hx hd s hs hprovider
    have hfree : key ∉ x.needs u := fun hneed => hx.free _ hneed .exclusive hl
    rcases mem_services hs with ⟨rfl, _⟩ | hs | ⟨old, hold, hr⟩
    · refine absurd (mem_cons_of_mem _ ?_) hfree
      rw [hprovider]
      exact hk _
    · exact hd s hs hprovider
    have hsame := x.replaces_same hx.allowed hr
    obtain ⟨s₀, hs₀, hkeep, hlive⟩ := hd old hold (hsame.2.2.symm.trans hprovider)
    rcases replaces_configured hx.allowed hr with ⟨hkept, hlive'⟩ | ⟨_, _, _, rfl⟩
    · exact ⟨s₀, hs₀, hkeep.trans hkept, fun h => hlive (hlive' h)⟩
    cases hr
    refine absurd (mem_cons_of_mem _ ?_) hfree
    rw [← hsame.2.2, hprovider]
    exact hk _
  · exact fun s hs _ => ⟨s, hs, .refl s, fun h => h⟩

/-- **A row that is locked stays.** -/
theorem row_stays {m : LockMode} (hl : (.service s.id, m) ∈ locks) (h : Meanwhile u locks d₀ d)
    (hs : s ∈ d₀.serviceInstances) : s ∈ d.serviceInstances := by
  refine h.keeps (Q := fun d => s ∈ d.serviceInstances) ?_ hs
  intro x d hx hs
  have hfree : Key.service s.id ∉ x.needs u := fun hk => hx.free _ hk m hl
  refine services_stay hs (fun new hr => hfree (service_needed hr)) ?_
  rintro rfl
  exact hfree mem_cons_self

end Rows

/-! ## 5. A prepared Flash service -/

section Flash
variable {u : Setup} {d : Db} {ch : Change} {spec : ServiceSpec} {checks : SpecChecks}
  {rows : List ServiceSpec} {occupied : List NodePort} {existing : List FlashPort}
  {quota : ResourceQuotaLimits} {requested f : FlashSpec}

/-- What `prepare_flash_spec` has checked; it sets the ports and nothing else. -/
structure FlashPrepared (checks : SpecChecks) (rows : List ServiceSpec)
    (occupied : List NodePort) (existing : List FlashPort) (quota : ResourceQuotaLimits)
    (requested f : FlashSpec) : Prop where
  service : passes (flashServiceErrors quota.flash requested) = .ok ()
  ports : flashPorts existing occupied requested = .ok f.ports
  totals : passes (flashTotalErrors quota.flash (.ofRequest rows requested)) = .ok ()
  only : f = { requested with ports := f.ports }
  valid : f.validate checks = none

theorem prepareFlashSpec_ok
    (h : prepareFlashSpec checks rows occupied existing quota requested = .ok f) :
    FlashPrepared checks rows occupied existing quota requested f := by
  obtain ⟨_, hservice, h⟩ := bind_ok h
  obtain ⟨ports, hports, h⟩ := bind_ok h
  obtain ⟨_, htotals, h⟩ := bind_ok h
  dsimp only at h
  split at h
  · cases h
  rename_i hvalid
  cases h
  exact ⟨hservice, hports, htotals, rfl, hvalid⟩

/-- A Flash service is prepared under the limits of its account. -/
theorem prepareSpec_flash (h : prepareSpec u d ch = .ok spec)
    (hreq : ch.requested = .flash requested) :
    ∃ f quota, spec = .flash f ∧ d.resourceQuota ch.organizationId = .ok quota ∧
      FlashPrepared u.checks (d.accountSpecs ch.excluded ch.organizationId .flash)
        (d.occupiedPorts ch.excluded) ch.existingPorts quota requested f := by
  unfold prepareSpec at h
  rw [hreq] at h
  obtain ⟨quota, hquota, h⟩ := bind_ok h
  obtain ⟨f, hf, h⟩ := bind_ok h
  cases h
  exact ⟨f, quota, rfl, hquota, prepareFlashSpec_ok hf⟩

end Flash

/-! ## 6. Flash services to run on -/

/-- A small Flash service, reachable inside the cluster only. -/
def plainFlash : FlashSpec where
  region := "tokyo"
  image := "registry/app:1"
  replicas := 1
  cpuMillis := 500
  memoryMib := 512
  ports := []
  exposure := { exposureType := .internal, trafficMode := .forwarded }

/-- The principal of the account creates it. -/
def createFlash (id : Uuid) (name : String) (spec : FlashSpec) : Call :=
  .createServiceInstance { organizationId := 1, projectId := 2, principalId := 20, name, id,
                           spec := .flash spec }

def updateFlash (id : Uuid) (name : String) (spec : FlashSpec) : Call :=
  .updateFlashService { organizationId := 1, id, principalId := 20, name, spec }

/-- The call `i` starts and makes its steps. -/
def runs (i : Nat) (c : Call) (steps : Nat) : List (Move Call) :=
  .start c :: List.replicate steps (.step i)

end HeteroCloud.Services
