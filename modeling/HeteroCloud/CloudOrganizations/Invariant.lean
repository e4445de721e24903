/-
  File:      CloudOrganizations/Invariant.lean
  Subject:   THE SHAPE OF THE CLOUD ORGANIZATIONS IN EVERY INTERLEAVING.

  `At d r` is what a call knows at its program point: which rows it has checked, under which lock,
  and what it has written so far. Each statement leads from one such assertion to the next
  (`exec_at`), every commit publishes a committable write set, and other calls' commits keep the
  assertion (`At.stable`). So the outline holds (`outline`), and with it the shape:
-/
import HeteroCloud.CloudOrganizations.Backfill
import HeteroCloud.CloudOrganizations.Levels

namespace HeteroCloud.CloudOrganizations

open Base Iam Store List

/-! ## 1. Assertions -/

abbrev View := World Db Key Write Call

variable (d : Db) (w : View)

/-- The committed database: the shape holds, and every id in use was drawn. -/
structure Inv : Prop where
  cloud : CloudOk d
  issued : ∀ k ∈ cloudIds d, k ∈ w.issued

/-- The attachment call may still insert: the target has room, or the row is there. -/
def HasRoom (kind : TargetKind) (t : ScpAttachmentRow) : Prop :=
  (attachedTo (attachments d kind) t.targetId).length < 10 ∨
    t ∈ attachedTo (attachments d kind) t.targetId

/-- What a call knows at its program point. -/
def At (r : Running Key Write Call) : Prop :=
  match r.call with
  | .createOrganizationInsert _ _ => r.pending = [] ∨ ∃ u, r.pending = [.insertUser u]
  | .createUnitInsert _ parentId => r.pending = [] ∧
      ∃ u ∈ d.cloudOrganizationalUnits, u.id = parentId ∧ ShallowUnit d u
  | .memberUser parentId _ o | .memberOrganization parentId _ _ o =>
      r.pending = [] ∧ (o, parentId) ∈ targets d .unit
  | .memberDelete parentId _ _ o accountId => (o, parentId) ∈ targets d .unit ∧
      ∃ n, NewIds d r.held n ∧ accountId = n.organizationId ∧ r.pending = [.insertOrganization n]
  | .memberAccount parentId _ _ o accountId => (o, parentId) ∈ targets d .unit ∧
      ∃ n, NewIds d r.held n ∧ accountId = n.organizationId ∧ r.pending =
        [.insertOrganization n, .deleteCloudOrganization n.cloudOrganizationId]
  | .insertPrincipal _ _ _ | .insertMembership _ _ _ | .commit =>
      Committable d r.held r.pending
  | .attachmentTarget o _ _ _ _ =>
      r.pending = [] ∧ (.cloudOrganization o, .exclusive) ∈ r.held
  | .attachmentCount o kind targetId policyId _ | .attachmentFull o kind targetId policyId =>
      r.pending = [] ∧ CoveredAttachment d r.held kind ⟨o, targetId, policyId⟩
  | .attachmentInsert o kind targetId policyId =>
      r.pending = [] ∧ CoveredAttachment d r.held kind ⟨o, targetId, policyId⟩ ∧
        HasRoom d kind ⟨o, targetId, policyId⟩
  | .attachmentDelete o kind targetId policyId =>
      r.pending = [] ∧ CoveredAttachment d r.held kind ⟨o, targetId, policyId⟩ ∧
        2 ≤ (attachedTo (attachments d kind) targetId).length
  | _ => r.pending = []

/-- A call under way: the row keys it holds were drawn, and it is where it should be. -/
structure Loc (_ : Nat) (r : Running Key Write Call) : Prop where
  locked : ∀ k, (.row k, .exclusive) ∈ r.held → k ∈ w.issued
  here : At d r

/-! ## 2. Other calls' commits -/

section Stable
variable {d d' : Db} {held : List (Key × LockMode)} {r : Running Key Write Call}

/-- **The assertion survives the commits of calls with compatible locks.** -/
theorem At.stable (hd : CloudOk d) (hd' : CloudOk d') (he : Evolves held d d')
    (hc : Compatible held r.held) (h : At d r) : At d' r := by
  obtain ⟨call, held', pending, began⟩ := r
  cases call with
  | createUnitInsert =>
    obtain ⟨hp, u, hu, hi, hs⟩ := h
    exact ⟨hp, u, he.units u hu, hi, hs.stable he⟩
  | memberUser | memberOrganization => exact ⟨h.1, he.targets .unit _ h.2⟩
  | memberDelete | memberAccount =>
    obtain ⟨ht, n, hn, hr⟩ := h
    exact ⟨he.targets .unit _ ht, n, hn.stable he hc, hr⟩
  | insertPrincipal | insertMembership | commit => exact Committable.stable hd hd' he hc h
  | attachmentCount | attachmentFull => exact ⟨h.1, h.2.stable he⟩
  | attachmentInsert =>
    obtain ⟨hp, hcov, hroom⟩ := h
    refine ⟨hp, hcov.stable he, ?_⟩
    unfold HasRoom at hroom ⊢
    rwa [hcov.attachedTo_eq he hc]
  | attachmentDelete =>
    obtain ⟨hp, hcov, hlen⟩ := h
    refine ⟨hp, hcov.stable he, ?_⟩
    rwa [hcov.attachedTo_eq he hc]
  | _ => exact h

end Stable

/-! ## 3. Statements -/

section Statements
variable {d : Db} {w : View} {held : List (Key × LockMode)} {uuid : Nat → Nat}

theorem mem_rowLocks {k : Uuid} {ids : List Uuid} :
    ((Key.row k, LockMode.exclusive) ∈ rowLocks ids) ↔ k ∈ ids := by
  simp [rowLocks]

/-- A value drawn now is in no row. -/
theorem Inv.absent (hI : Inv d w) (hu : Fresh uuid w.issued) (k : Nat) : Absent d (uuid k) :=
  absent_iff.mpr fun h => hu.2 k (hI.issued _ h)

theorem Inv.newIds (hI : Inv d w) (hu : Fresh uuid w.issued) :
    NewIds d (rowLocks (newOrganization uuid).ids ++ held) (newOrganization uuid) where
  nodup := by simp [newOrganization, NewOrganization.ids, hu.1.eq_iff]
  absent k hk := by
    simp only [newOrganization, NewOrganization.ids, mem_cons, not_mem_nil,
      or_false] at hk
    rcases hk with rfl | rfl | rfl | rfl <;> exact hI.absent hu _
  locked k hk := mem_append_left _ (mem_rowLocks.mpr hk)

theorem Inv.newId (hI : Inv d w) (hu : Fresh uuid w.issued) (k : Nat) :
    NewId d (rowLocks [uuid k] ++ held) (uuid k) :=
  ⟨hI.absent hu k, mem_append_left _ (mem_rowLocks.mpr (mem_singleton.mpr rfl))⟩

/-- The one managed policy of the organization of a unit, and what the triggers attach. -/
theorem managed_of_unit (hd : CloudOk d) {o k : Uuid} (ht : (o, k) ∈ targets d .unit) :
    ∃ p, managedPolicies d.cloudServiceControlPolicies o = [p] ∧
      ∀ id, defaultAttachments d o id = [⟨o, id, p.id⟩] := by
  obtain ⟨u, hu, hue⟩ := mem_map.mp ht
  rw [Prod.mk.injEq] at hue
  obtain ⟨x, hx, hxe⟩ := hd.tree.organization u hu
  obtain ⟨p, hp⟩ := hd.policies.managed x hx
  rw [hxe, hue.1] at hp
  exact ⟨p, hp, fun id => by simp [defaultAttachments, hp]⟩

/-- The depth query counts the units from the parent to the root. -/
theorem unitDepth_shallow (hd : CloudOk d) {managementAccountId parentId : Uuid}
    (h0 : unitDepth d managementAccountId parentId ≠ 0)
    (h5 : unitDepth d managementAccountId parentId ≤ 5) :
    ∃ u ∈ d.cloudOrganizationalUnits, u.id = parentId ∧ ShallowUnit d u := by
  unfold unitDepth at h0 h5
  have hk := hd.tree.key
  cases hf : d.cloudOrganizationalUnits.filter fun u =>
      u.id == parentId && managesUnit d managementAccountId u with
  | nil => simp [hf] at h0
  | cons u rest =>
    have hu : u ∈ d.cloudOrganizationalUnits.filter fun u =>
        u.id == parentId && managesUnit d managementAccountId u := by
      rw [hf]
      exact mem_cons_self
    obtain ⟨hum, huq⟩ := mem_filter.mp hu
    simp only [Bool.and_eq_true, beq_iff_eq] at huq
    have hone : (d.cloudOrganizationalUnits.filter fun u =>
        u.id == parentId && managesUnit d managementAccountId u) = [u] := by
      refine filter_eq_singleton hk.nodup hum (by simp [huq]) fun x hx hxq => ?_
      simp only [Bool.and_eq_true, beq_iff_eq] at hxq
      exact hk.eq hx hum (hxq.1.trans huq.1.symm)
    obtain ⟨path, hpath, _⟩ := hd.tree.path u hum
    have hroot : path.any (·.parentId == none) = true := by
      obtain ⟨x, hx, hxe⟩ := hpath.exists_root
      exact any_eq_true.mpr ⟨x, hx, beq_iff_eq.mpr hxe⟩
    simp only [hone, flatMap_singleton, ancestors_unit hk hpath, hroot, if_true] at h5
    exact ⟨u, hum, huq.1, path, hpath, h5⟩

/-- The count of the code, which also compares the organization, counts the target's rows. -/
theorem attachmentCount_eq (hd : CloudOk d) (kind : TargetKind) {o targetId : Uuid}
    (ht : (o, targetId) ∈ targets d kind) :
    ((attachments d kind).filter fun t => t.organizationId == o && t.targetId == targetId) =
      attachedTo (attachments d kind) targetId := by
  refine filter_congr fun t htm => ?_
  by_cases e : t.targetId = targetId
  · have := target_organization hd kind ((hd.attachments kind).target t htm) ht e
    simp_all
  · simp [e]

end Statements

/-! ## 4. Each program point -/

section Points
variable {d : Db} {w : View} {held : List (Key × LockMode)} {pending : List Write}
  {began : Option Int} {uuid : Nat → Nat} {i : Nat} {o : Outcome Key Write Call}

/-- What one statement at `call` leads to. -/
abbrev Leads (d : Db) (w : View) (uuid : Nat → Nat) (i : Nat) (r : Running Key Write Call)
    (o : Outcome Key Write Call) : Prop :=
  ∀ e, After program Inv (fun _ => Evolves) Loc d w e uuid i r o

theorem Loc.ended {e : StoreError} : Loc d w i ⟨.done (.error e), [], [], none⟩ :=
  ⟨fun _ h => absurd h not_mem_nil, rfl⟩

variable {r : Running Key Write Call}

/-- The end of a call that changed nothing. -/
theorem Leads.ended {e : StoreError} : Leads d w uuid i r (.rollback (.done (.error e))) :=
  fun _ => .ended

variable {c c' : Call}
variable (hL : Loc d w i ⟨c, held, pending, began⟩)
include hL

/-- A read moves to the next point with the same locks. -/
theorem Loc.read (h : At d ⟨c', held, pending, began⟩) : Leads d w uuid i ⟨c, held, pending, began⟩
    (.read c') :=
  fun _ => ⟨fun k hk => mem_append_left _ (hL.locked k hk), h⟩

variable {locks : List (Key × LockMode)}

/-- A statement moves to the next point; the row keys it locks are known or drawn by it. -/
theorem Loc.stmt {writes : List Write} (hl : ∀ k, (.row k, .exclusive) ∈ locks → k ∈ w.issued ∨ k ∈
    program.drawn uuid) (h : At d ⟨c', locks ++ held, pending ++ writes, some (began.getD w.clock)⟩)
    : Leads d w uuid i ⟨c, held, pending, began⟩ (.stmt locks writes c') := by
  refine fun _ => ⟨fun k hk => ?_, h⟩
  rcases mem_append.mp hk with hk | hk
  · rcases hl k hk with hi | hi
    · exact mem_append_left _ hi
    · exact mem_append_right _ hi
  · exact mem_append_left _ (hL.locked k hk)

omit hL

/-- Row locks on drawn values. -/
theorem drawn_locks {ids : List Nat} (h : ∀ k ∈ ids, ∃ i, i < 5 ∧ k = uuid i) (k : Nat)
    (hk : (Key.row k, LockMode.exclusive) ∈ rowLocks ids) :
    k ∈ w.issued ∨ k ∈ program.drawn uuid := by
  obtain ⟨i, hi, rfl⟩ := h k (mem_rowLocks.mp hk)
  exact .inr (mem_map.mpr ⟨i, mem_range.mpr hi, rfl⟩)

theorem drawn_one (k : Nat) (hk : (Key.row k, LockMode.exclusive) ∈ rowLocks [uuid 0]) :
    k ∈ w.issued ∨ k ∈ program.drawn uuid :=
  drawn_locks (fun _ h => ⟨0, by omega, mem_singleton.mp h⟩) k hk

theorem drawn_new (k : Nat)
    (hk : (Key.row k, LockMode.exclusive) ∈ rowLocks (newOrganization uuid).ids) :
    k ∈ w.issued ∨ k ∈ program.drawn uuid := by
  refine drawn_locks (fun i hi => ?_) k hk
  simp only [newOrganization, NewOrganization.ids, mem_cons, not_mem_nil,
    or_false] at hi
  rcases hi with rfl | rfl | rfl | rfl
  exacts [⟨0, by omega, rfl⟩, ⟨2, by omega, rfl⟩, ⟨3, by omega, rfl⟩, ⟨4, by omega, rfl⟩]

/-- Locks that are not row locks. -/
theorem no_row_locks (h : ∀ x ∈ locks, ∀ k, x.1 ≠ .row k) (k : Nat) (hk : (Key.row k,
    LockMode.exclusive) ∈ locks) : k ∈ w.issued ∨ k ∈ program.drawn uuid :=
  absurd rfl (h _ hk k)

/-- Every statement of a call at `c` leads on. -/
abbrev LeadsOn (d : Db) (w : View) (held : List (Key × LockMode)) (pending : List Write)
    (began : Option Int) (uuid : Nat → Nat) (i : Nat) (c : Call) : Prop :=
  ∀ ⦃o⦄, Inv d w → Loc d w i ⟨c, held, pending, began⟩ → Fresh uuid w.issued →
    exec uuid (program.applyAll pending d) c = some o →
    Leads d w uuid i ⟨c, held, pending, began⟩ o

/-! ### New accounts -/

variable {displayName : String}
variable {userId : Uuid}

theorem createOrganizationInsert_leads : LeadsOn d w held pending began uuid i
    (.createOrganizationInsert userId displayName) := by
  intro o hI hL hu ho
  cases ho
  refine hL.stmt drawn_new ?_
  show Committable d _ (pending ++ _)
  rcases hL.here with h | ⟨u, h⟩
  · rw [show pending = [] from h]
    exact .organization _ (hI.newIds hu)
  · rw [show pending = [.insertUser u] from h]
    exact .registration u _ (hI.newIds hu)

/-- Rows outside the organization tables are added to a committable write set. -/
theorem neutral_leads {write : Write} (hw : write.isNeutral = true) (hL : Loc d w i ⟨c, held,
    pending, began⟩) (hc : Committable d held pending) (hc' : ∀ held' ws b, Committable d held' ws →
    At d ⟨c', held', ws, b⟩) : Leads d w uuid i ⟨c, held, pending, began⟩ (.stmt (rowLocks [uuid 0])
    [write] c') :=
  hL.stmt drawn_one (hc' _ _ _ (.neutral _ _
    (hc.more_locks fun _ hx => mem_append_right _ hx) hw))

theorem commit_leads : LeadsOn d w held pending began uuid i .commit := by
  intro o hI hL _ ho
  cases ho
  obtain ⟨hok, hev⟩ := committable_ok hI.cloud hL.here
  refine fun _ => ⟨hev, fun w' hw => ⟨⟨hok, fun k hk => hw.issued k ?_⟩,
    fun _ h => absurd h not_mem_nil, rfl⟩⟩
  refine mem_append_left _ ?_
  -- an id that was never drawn is in no row and locked by nobody, so the commit did not add it
  by_contra hn
  have habs : Absent d k := absent_iff.mpr fun h => hn (hI.issued k h)
  exact absent_iff.mp (hev.ids k habs fun h => hn (hL.locked k h)) hk

/-! ### Units -/

variable {managementAccountId parentId : Uuid}

theorem createCloudOrganizationalUnit_leads : LeadsOn d w held pending began uuid i
    (.createCloudOrganizationalUnit managementAccountId parentId) := by
  intro o hI hL _ ho
  obtain rfl : pending = [] := hL.here
  rw [Program.applyAll_nil] at ho
  simp only [exec] at ho
  by_cases h0 : unitDepth d managementAccountId parentId = 0
  · rw [if_pos h0] at ho
    cases ho
    exact hL.read rfl
  rw [if_neg h0] at ho
  by_cases h5 : 5 < unitDepth d managementAccountId parentId
  · rw [if_pos h5] at ho
    cases ho
    exact hL.read rfl
  · rw [if_neg h5] at ho
    cases ho
    exact hL.read ⟨rfl, unitDepth_shallow hI.cloud h0 (Nat.le_of_not_lt h5)⟩

theorem createUnitInsert_leads : LeadsOn d w held pending began uuid i (.createUnitInsert
    managementAccountId parentId) := by
  intro o hI hL hu ho
  obtain ⟨rfl, p, hpm, hpi, hs⟩ : pending = [] ∧ _ := hL.here
  rw [Program.applyAll_nil] at ho
  simp only [exec] at ho
  cases hf : d.cloudOrganizationalUnits.find? fun u =>
      u.id == parentId && managesUnit d managementAccountId u with
  | none =>
    simp only [hf] at ho
    cases ho
    exact hL.read rfl
  | some q =>
    simp only [hf] at ho
    cases ho
    have hq := find?_some hf
    simp only [Bool.and_eq_true, beq_iff_eq] at hq
    have hqp : q = p := hI.cloud.tree.key.eq (mem_of_find?_eq_some hf) hpm
      (hq.1.trans hpi.symm)
    subst hqp
    obtain ⟨policy, hm, hdef⟩ := managed_of_unit hI.cloud
      (mem_map_of_mem hpm : (q.organizationId, q.id) ∈ targets d .unit)
    rw [hdef]
    exact hL.stmt drawn_one
      (.unit ⟨uuid 0, q.organizationId, some q.id⟩ q policy (hI.newId hu 0) rfl rfl hs hm)

/-! ### Member accounts -/

theorem createCloudMemberAccount_leads : LeadsOn d w held pending began uuid i
    (.createCloudMemberAccount managementAccountId parentId userId) := by
  intro o _ hL _ ho
  obtain rfl : pending = [] := hL.here
  rw [Program.applyAll_nil] at ho
  simp only [exec] at ho
  cases hf : d.cloudOrganizations.find? fun o => o.managementAccountId == managementAccountId &&
      d.cloudOrganizationalUnits.any fun u => u.organizationId == o.id && u.id == parentId with
  | none =>
    simp only [hf] at ho
    cases ho
    exact Leads.ended
  | some x =>
    simp only [hf] at ho
    cases ho
    have hq := find?_some hf
    simp only [Bool.and_eq_true, any_eq_true, beq_iff_eq] at hq
    obtain ⟨u, hu, he⟩ := hq.2
    refine hL.stmt (no_row_locks (by simp)) ⟨rfl, mem_map.mpr ⟨u, hu, ?_⟩⟩
    rw [he.1, he.2]

variable {cloudOrganizationId : Uuid}

theorem memberOrganization_leads : LeadsOn d w held pending began uuid i (.memberOrganization
    parentId userId displayName cloudOrganizationId) := by
  intro o hI hL hu ho
  cases ho
  obtain ⟨rfl, ht⟩ : pending = [] ∧ _ := hL.here
  exact hL.stmt drawn_new ⟨ht, _, hI.newIds hu, rfl, rfl⟩

variable {accountId : Uuid}

/-- The `DELETE` hits the organization the trigger created, and no other. -/
theorem memberDelete_leads : LeadsOn d w held pending began uuid i (.memberDelete parentId userId
    displayName cloudOrganizationId accountId) := by
  intro o hI hL _ ho
  obtain ⟨ht, n, hn, ha, hp⟩ := hL.here
  obtain rfl : pending = [.insertOrganization n] := hp
  have hf : (d.cloudOrganizations ++
      [(⟨n.cloudOrganizationId, n.organizationId⟩ : CloudOrganizationRow)]).filter
      (·.managementAccountId == accountId) = [⟨n.cloudOrganizationId, n.organizationId⟩] := by
    rw [filter_append, filter_eq_nil_iff.mpr fun x hx e => ?_, ha]
    · simp
    obtain ⟨m, hm, he⟩ := hI.cloud.management x hx
    rw [beq_iff_eq, ha, ← he] at e
    exact (hn.absent _ (mem_ids_organization n)).organization m hm e
  simp only [exec, Program.applyAll_cons, Program.applyAll_nil, program, Write.apply, hf,
    map_cons, map_nil] at ho
  cases ho
  exact hL.stmt (no_row_locks (by simp)) ⟨ht, n, hn, ha, rfl⟩

theorem memberAccount_leads : LeadsOn d w held pending began uuid i (.memberAccount parentId userId
    displayName cloudOrganizationId accountId) := by
  intro o hI hL _ ho
  obtain ⟨ht, n, hn, ha, hp⟩ := hL.here
  simp only at hp
  obtain ⟨policy, hm, hdef⟩ := managed_of_unit hI.cloud ht
  have hdef' : defaultAttachments (program.applyAll pending d) cloudOrganizationId accountId =
      [⟨cloudOrganizationId, accountId, policy.id⟩] := by
    rw [← hdef accountId, hp]
    unfold defaultAttachments
    rw [memberDelete_policies hI.cloud hn]
  simp only [exec, hdef'] at ho
  cases ho
  refine hL.stmt (no_row_locks (by simp)) ?_
  show Committable d held (pending ++ _)
  rw [hp]
  exact .memberAccount n ⟨accountId, cloudOrganizationId, parentId⟩ policy hn ha ht hm

/-! ### Moves and policies -/

theorem moveCloudMemberAccount_leads : LeadsOn d w held pending began uuid i
    (.moveCloudMemberAccount managementAccountId accountId parentId) := by
  intro o hI hL _ ho
  obtain rfl : pending = [] := hL.here
  rw [Program.applyAll_nil] at ho
  simp only [exec] at ho
  split at ho
  · next hq =>
    cases ho
    simp only [any_eq_true, Bool.and_eq_true, beq_iff_eq] at hq
    obtain ⟨a, ha, ⟨hae, _⟩, u, hu, ⟨hui, huo⟩, _⟩ := hq
    refine hL.stmt (fun k hk => .inl (hI.issued k ?_)) ?_
    · obtain ⟨x, hx, hxe⟩ := hI.cloud.accounts.account a ha
      rw [mem_rowLocks, mem_singleton] at hk
      rw [hk, ← hae, ← hxe]
      unfold cloudIds
      simp only [mem_append]
      exact .inl (.inl (.inl (mem_map_of_mem hx)))
    · refine .move accountId parentId (fun b hb hbe => mem_map.mpr ⟨u, hu, ?_⟩) ⟨a, ha, hae⟩
      rw [hI.cloud.accounts.key.eq hb ha (hbe.trans hae.symm), huo, hui]
  · cases ho
    exact hL.read rfl

theorem createServiceControlPolicy_leads {document : PolicyDocument} : LeadsOn d w held pending
    began uuid i (.createServiceControlPolicy managementAccountId document) := by
  intro o hI hL hu ho
  obtain rfl : pending = [] := hL.here
  rw [Program.applyAll_nil] at ho
  simp only [exec] at ho
  cases hf : d.cloudOrganizations.find? (·.managementAccountId == managementAccountId) with
  | none =>
    simp only [hf] at ho
    cases ho
    exact hL.read rfl
  | some x =>
    simp only [hf] at ho
    cases ho
    refine hL.stmt drawn_one
      (.policy _ (hI.newId hu 0) ⟨x, mem_of_find?_eq_some hf, rfl⟩ rfl ?_)
    rw [PolicyDocument.fromValue_toValue]
    rfl

/-! ### Attachments -/

theorem changeServiceControlAttachment_leads {targetId policyId : Uuid} {kind : Option TargetKind}
    {attach : Bool} : LeadsOn d w held pending began uuid i (.changeServiceControlAttachment
    managementAccountId kind targetId policyId attach) := by
  intro o _ hL _ ho
  obtain rfl : pending = [] := hL.here
  rw [Program.applyAll_nil] at ho
  simp only [exec] at ho
  cases hf : d.cloudOrganizations.find? (·.managementAccountId == managementAccountId) with
  | none =>
    simp only [hf] at ho
    cases ho
    exact Leads.ended
  | some =>
    simp only [hf] at ho
    cases ho
    refine hL.stmt (no_row_locks (by simp)) ?_
    cases kind with
    | none => exact rfl
    | some => exact ⟨rfl, mem_cons_self⟩

section Attachments
variable {organizationId targetId policyId : Uuid} {kind : TargetKind} {attach : Bool}

theorem attachmentTarget_leads :
    LeadsOn d w held pending began uuid i
      (.attachmentTarget organizationId kind targetId policyId attach) := by
  intro o _ hL _ ho
  obtain ⟨rfl, hl⟩ : pending = [] ∧ _ := hL.here
  rw [Program.applyAll_nil] at ho
  simp only [exec] at ho
  split at ho
  · next hq =>
    cases ho
    simp only [Bool.and_eq_true, contains_iff_mem, any_eq_true, beq_iff_eq] at hq
    obtain ⟨ht, p, hpm, hpe⟩ := hq
    exact hL.stmt (no_row_locks (by simp)) ⟨rfl, hl, ht, p, hpm, hpe⟩
  · cases ho
    exact Leads.ended

theorem attachmentCount_leads :
    LeadsOn d w held pending began uuid i
      (.attachmentCount organizationId kind targetId policyId attach) := by
  intro o hI hL _ ho
  obtain ⟨rfl, hc⟩ : pending = [] ∧ _ := hL.here
  rw [Program.applyAll_nil] at ho
  simp only [exec, attachmentCount_eq hI.cloud kind hc.target] at ho
  cases attach with
  | true =>
    rw [if_pos rfl] at ho
    by_cases h10 : 10 ≤ (attachedTo (attachments d kind) targetId).length
    · rw [if_pos h10] at ho
      cases ho
      exact hL.stmt (no_row_locks (by simp)) ⟨rfl, hc⟩
    · rw [if_neg h10] at ho
      cases ho
      exact hL.stmt (no_row_locks (by simp)) ⟨rfl, hc, .inl (Nat.lt_of_not_le h10)⟩
  | false =>
    rw [if_neg Bool.false_ne_true] at ho
    by_cases h1 : (attachedTo (attachments d kind) targetId).length ≤ 1
    · rw [if_pos h1] at ho
      cases ho
      exact Leads.ended
    · rw [if_neg h1] at ho
      cases ho
      exact hL.stmt (no_row_locks (by simp)) ⟨rfl, hc, Nat.lt_of_not_le h1⟩

theorem attachmentFull_leads :
    LeadsOn d w held pending began uuid i
      (.attachmentFull organizationId kind targetId policyId) := by
  intro o _ hL _ ho
  obtain ⟨rfl, hc⟩ : pending = [] ∧ _ := hL.here
  rw [Program.applyAll_nil] at ho
  simp only [exec] at ho
  split at ho
  · next hq =>
    cases ho
    obtain ⟨t, ht, hr⟩ := any_eq_true.mp hq
    simp only [isRow, Bool.and_eq_true, beq_iff_eq] at hr
    have he : t = ⟨organizationId, targetId, policyId⟩ := by
      rw [← hr.1.1, ← hr.1.2, ← hr.2]
    refine hL.stmt (no_row_locks (by simp)) ⟨rfl, hc, .inr ?_⟩
    exact mem_filter.mpr ⟨he ▸ ht, beq_self_eq_true _⟩
  · cases ho
    exact Leads.ended

theorem attachmentInsert_leads :
    LeadsOn d w held pending began uuid i
      (.attachmentInsert organizationId kind targetId policyId) := by
  intro o _ hL _ ho
  obtain ⟨rfl, hc, hroom⟩ : pending = [] ∧ _ := hL.here
  rw [Program.applyAll_nil] at ho
  simp only [exec] at ho
  split at ho
  · cases ho
    exact hL.stmt (no_row_locks (by simp)) .nothing
  next hq =>
  cases ho
  have hnew : ∀ s ∈ attachedTo (attachments d kind) targetId, s.policyId ≠ policyId := by
    intro s hs e
    obtain ⟨hm, ht⟩ := mem_filter.mp hs
    exact hq (any_eq_true.mpr ⟨s, hm, by simp [e, beq_iff_eq.mp ht]⟩)
  refine hL.stmt (no_row_locks (by simp)) (.attach kind _ hc hnew ?_)
  rcases hroom with h | h
  · exact h
  · exact absurd rfl (hnew _ h)

theorem attachmentDelete_leads :
    LeadsOn d w held pending began uuid i
      (.attachmentDelete organizationId kind targetId policyId) := by
  intro o _ hL _ ho
  obtain ⟨rfl, hc, hlen⟩ : pending = [] ∧ _ := hL.here
  rw [Program.applyAll_nil] at ho
  simp only [exec] at ho
  split at ho
  · cases ho
    exact Leads.ended
  · cases ho
    exact hL.stmt (no_row_locks (by simp)) (.detach kind _ hc hlen)

end Attachments

/-- A look at the active user leads on or ends the call. -/
theorem activeUser_leads {c : Call} {next : UserRow → Call} (hL : Loc d w i ⟨c, held, pending, began⟩)
    (hn : ∀ u, At d ⟨next u, (.user userId, .share) :: held, pending ++ [],
      some (began.getD w.clock)⟩)
    (ho : (match activeUser d userId with
      | none => some (.rollback (.done (.error .notFound)))
      | some u => some (.stmt [(.user userId, .share)] [] (next u))) = some o) :
    Leads d w uuid i ⟨c, held, pending, began⟩ o := by
  cases hf : activeUser d userId with
  | none =>
    simp only [hf] at ho
    cases ho
    exact Leads.ended
  | some u =>
    simp only [hf] at ho
    cases ho
    exact hL.stmt (no_row_locks (by simp)) (hn u)

/-- **Every statement leads from its assertion to the next.** -/
theorem exec_leads (hI : Inv d w) (hL : Loc d w i r) (hu : Fresh uuid w.issued) (ho : exec uuid
    (program.view r d) r.call = some o) : Leads d w uuid i r o := by
  obtain ⟨call, held, pending, began⟩ := r
  cases call with
  | register displayName =>
    cases ho
    obtain rfl : pending = [] := hL.here
    exact hL.stmt drawn_one (.inr ⟨⟨uuid 0, displayName, .active⟩, rfl⟩)
  | createOrganization =>
    obtain rfl : pending = [] := hL.here
    refine activeUser_leads hL (fun u => ?_) ho
    exact .inl rfl
  | createOrganizationInsert => exact createOrganizationInsert_leads hI hL hu ho
  | createCloudOrganizationalUnit => exact createCloudOrganizationalUnit_leads hI hL hu ho
  | createUnitInsert => exact createUnitInsert_leads hI hL hu ho
  | createCloudMemberAccount => exact createCloudMemberAccount_leads hI hL hu ho
  | memberUser =>
    obtain ⟨rfl, ht⟩ : pending = [] ∧ _ := hL.here
    refine activeUser_leads hL (fun u => ?_) ho
    exact ⟨rfl, ht⟩
  | memberOrganization => exact memberOrganization_leads hI hL hu ho
  | memberDelete => exact memberDelete_leads hI hL hu ho
  | memberAccount => exact memberAccount_leads hI hL hu ho
  | insertPrincipal | insertMembership =>
    cases ho
    exact neutral_leads (by rfl) hL hL.here fun _ _ _ h => h
  | moveCloudMemberAccount => exact moveCloudMemberAccount_leads hI hL hu ho
  | createServiceControlPolicy => exact createServiceControlPolicy_leads hI hL hu ho
  | changeServiceControlAttachment => exact changeServiceControlAttachment_leads hI hL hu ho
  | attachmentTarget => exact attachmentTarget_leads hI hL hu ho
  | attachmentCount => exact attachmentCount_leads hI hL hu ho
  | attachmentFull => exact attachmentFull_leads hI hL hu ho
  | attachmentInsert => exact attachmentInsert_leads hI hL hu ho
  | attachmentDelete => exact attachmentDelete_leads hI hL hu ho
  | abort =>
    cases ho
    exact Leads.ended
  | commit => exact commit_leads hI hL hu ho
  | done => cases ho

end Points

/-! ## 5. Every interleaving -/

/-- **The outline of the operations.** -/
theorem outline : Outline program Inv (fun _ => Evolves) Loc where
  mono_inv hw h := ⟨h.cloud, fun k hk => hw.issued k (h.issued k hk)⟩
  mono_loc hw _ h := ⟨fun k hk => hw.issued k (h.locked k hk), h.here⟩
  start {_ _ _ c} _ hc := by
    refine ⟨fun _ h => absurd h not_mem_nil, ?_⟩
    cases c <;> first | rfl | cases hc
  step {_ _ e _ _ _ _} hI hL _ hu ho := exec_leads hI hL hu ho e
  stable hw hI hI' hG hL hc :=
    ⟨fun k hk => hw.issued k (hL.locked k hk), hL.here.stable hI.cloud hI'.cloud hG hc⟩
  fail {_ _ _ r c} _ _ hc := by
    have he : c = .done (.error (.sql false)) := by
      simp only [program] at hc
      split at hc
      · cases hc
      · cases hc
        rfl
    rw [he]
    exact .ended

/-- **In every reachable state the organizations have their shape.** -/
theorem reach_cloudOk {d : Db} {t : Int} {is : List Nat} {σ : System Db Key Write Call}
    (hd : CloudOk d) (hi : ∀ k ∈ cloudIds d, k ∈ is) (h : Reach program (System.quiet d t is) σ) :
    CloudOk σ.db := by
  obtain ⟨past, hr⟩ := h.run
  exact (outline.run hr ⟨hd, hi⟩).inv.cloud

/-! ## 6. What the shape means -/

section Meaning
variable {d : Db}

/-- `y` is the parent of the unit `x`. -/
def ParentOf (d : Db) (x y : Uuid) : Prop :=
  ∃ u ∈ d.cloudOrganizationalUnits, u.id = x ∧ u.parentId = some y

/-- The units of an organization: a single root, no cycle, and from each unit a path to the root
over at most five levels below it. -/
structure OneTree (d : Db) (o : CloudOrganizationRow) : Prop where
  root : ∃ r ∈ d.cloudOrganizationalUnits, r.organizationId = o.id ∧ r.parentId = none ∧
    ∀ u ∈ d.cloudOrganizationalUnits, u.organizationId = o.id → u.parentId = none → u = r
  path : ∀ u ∈ d.cloudOrganizationalUnits, u.organizationId = o.id →
    ∃ path, PathToRoot d.cloudOrganizationalUnits u path ∧ path.length ≤ 5 + 1
  acyclic : ∀ u ∈ d.cloudOrganizationalUnits, ¬ Relation.TransGen (ParentOf d) u.id u.id

/-- Between 1 and 10 policies are attached to the target. -/
def Covered (d : Db) (kind : TargetKind) (targetId : Uuid) : Prop :=
  1 ≤ (attachedTo (attachments d kind) targetId).length ∧
    (attachedTo (attachments d kind) targetId).length ≤ 10

/-- The documents at a target are those of the attached policies, none left out. -/
def PoliciesAt (d : Db) (kind : TargetKind) (targetId : Uuid) (ds : List PolicyDocument) : Prop :=
  ds.map some = (attachedTo (attachments d kind) targetId).map fun t =>
    (d.cloudServiceControlPolicies.find? (·.id == t.policyId)).bind fun p =>
      PolicyDocument.fromValue p.document

/-- What `service_control_levels` returns for an account: one level for each unit on its path to
the root and one for the account. -/
def LevelsOf (d : Db) (a : CloudOrganizationAccountRow) (levels : List (List PolicyDocument)) :
    Prop :=
  ∃ u path unitLevels level, u.id = a.parentId ∧ PathToRoot d.cloudOrganizationalUnits u path ∧
    List.Forall₂ (fun w ds => PoliciesAt d .unit w.id ds) path unitLevels ∧
    PoliciesAt d .account a.accountId level ∧ levels.Perm (unitLevels ++ [level])

/-- An account in its organization. -/
structure AccountOk (d : Db) (account : OrganizationRow) (a : CloudOrganizationAccountRow)
    (o : CloudOrganizationRow) : Prop where
  member : a ∈ d.cloudOrganizationAccounts ∧ a.accountId = account.id
  organization : o ∈ d.cloudOrganizations ∧ o.id = a.organizationId
  covered : Covered d .account account.id
  managementLevels : o.managementAccountId = account.id → d.serviceControlLevels account.id = .ok []
  levels : o.managementAccountId ≠ account.id → d.cloudSecurityActivation.scpEnabled = true →
    ∃ levels, d.serviceControlLevels account.id = .ok levels ∧ LevelsOf d a levels

/-- Going to the parent shortens the path to the root. -/
theorem parents_shorten (hk : UniqueKey (·.id) d.cloudOrganizationalUnits) {x y : Uuid}
    (h : Relation.TransGen (ParentOf d) x y) :
    ∀ {u path}, PathToRoot d.cloudOrganizationalUnits u path → u.id = x →
      ∃ w rest, PathToRoot d.cloudOrganizationalUnits w rest ∧ w.id = y ∧
        rest.length < path.length := by
  have one : ∀ {x y : Uuid}, ParentOf d x y → ∀ {u path},
      PathToRoot d.cloudOrganizationalUnits u path → u.id = x →
      ∃ w rest, PathToRoot d.cloudOrganizationalUnits w rest ∧ w.id = y ∧
        rest.length < path.length := by
    rintro x y ⟨v, hv, hvx, hvy⟩ u path hpath hux
    have he : u = v := hk.eq hpath.mem hv (hux.trans hvx.symm)
    cases hpath with
    | root _ hp => rw [he, hvy] at hp; cases hp
    | up _ hp _ h =>
      rw [he, hvy, Option.some.injEq] at hp
      exact ⟨_, _, h, hp.symm, by simp⟩
  induction h with
  | single hxy => exact fun hp hx => one hxy hp hx
  | tail _ hyz ih =>
    intro u path hp hx
    obtain ⟨w, rest, hw, hwy, hlt⟩ := ih hp hx
    obtain ⟨z, rest', hz, hzy, hlt'⟩ := one hyz hw hwy
    exact ⟨z, rest', hz, hzy, Nat.lt_trans hlt' hlt⟩

variable (h : CloudOk d)
include h

theorem CloudOk.oneTree {o : CloudOrganizationRow} (ho : o ∈ d.cloudOrganizations) : OneTree d o
    where
  root := by
    obtain ⟨r, hr, hro, hrp⟩ := h.tree.root o ho
    exact ⟨r, hr, hro, hrp, fun u hu huo hup =>
      h.tree.rootUnique u hu r hr hup hrp (huo.trans hro.symm)⟩
  path u hu _ := h.tree.path u hu
  acyclic u hu hc := by
    obtain ⟨path, hpath, _⟩ := h.tree.path u hu
    obtain ⟨w, rest, hw, hwu, hlt⟩ := parents_shorten h.tree.key hc hpath rfl
    have he : w = u := h.tree.key.eq hw.mem hu hwu
    subst he
    rw [hw.unique h.tree.key hpath] at hlt
    exact Nat.lt_irrefl _ hlt

theorem CloudOk.covered (kind : TargetKind) {x : Uuid × Uuid} (hx : x ∈ targets d kind) : Covered d
    kind x.2 :=
  (h.attachments kind).count x hx

theorem CloudOk.policiesAt (kind : TargetKind) (targetId : Uuid) : PoliciesAt d kind targetId
    (attachedPolicies d (CloudOrganizations.attachments d kind) targetId) :=
  attachedPolicies_all h.policies (h.attachments kind) targetId

theorem CloudOk.accountOk {account : OrganizationRow} (hc : account ∈ d.organizations) : ∃ a o,
    AccountOk d account a o := by
  obtain ⟨a, ha, hac⟩ := h.accounts.member account hc
  obtain ⟨u, hu, huo, hui⟩ := h.accounts.parent a ha
  obtain ⟨o, ho, hou⟩ := h.tree.organization u hu
  obtain ⟨path, hpath, _⟩ := h.tree.path u hu
  have hoa : o.id = a.organizationId := hou.trans huo
  refine ⟨a, o, ⟨ha, hac⟩, ⟨ho, hoa⟩, ?_, fun hm => ?_, fun hm hs => ?_⟩
  · rw [← hac]
    exact h.covered .account (mem_map_of_mem ha)
  · rw [← hac] at hm ⊢
    exact serviceControlLevels_management h ha ho hoa hm
  rw [← hac] at hm ⊢
  obtain ⟨levels, hl, hperm⟩ := serviceControlLevels_member h hs ha ho hoa hm hui huo hpath
  refine ⟨levels, hl, u, path, _, _, hui, hpath, ?_, h.policiesAt .account a.accountId, hperm⟩
  rw [forall₂_map_right_iff]
  exact forall₂_same.mpr fun w _ => h.policiesAt .unit w.id

end Meaning

end HeteroCloud.CloudOrganizations
