/-
  File:      CloudOrganizations/Levels.lean
  Subject:   THE SERVICE CONTROL LEVELS of an account, in a database of the right shape.

  `service_control_levels` groups the rows of one query by target. In a state with `CloudOk` the
  groups are the account and the units on its path to the root, one each, with exactly the
  policies attached there (`serviceControlLevels_member`); the management account has none.
-/
import HeteroCloud.CloudOrganizations.Tree
import HeteroCloud.Store.Isolation

namespace HeteroCloud.CloudOrganizations

open Base Iam Store List

/-! ## 1. Grouping rows by target -/

/-- The rows of one target. -/
structure ScpBlock where
  targetId : Uuid
  isRoot : Bool
  documents : List (Option Json)

def ScpBlock.rows (b : ScpBlock) : List ScpRow :=
  b.documents.map fun document => { targetId := b.targetId, isRoot := b.isRoot, document }

section Blocks
variable {blocks : List ScpBlock}

/-- Only the block of a target contributes to its level. -/
theorem filterMap_blocks (hk : UniqueKey (·.targetId) blocks) {b : ScpBlock} (hb : b ∈ blocks) :
    ((blocks.flatMap ScpBlock.rows).filterMap fun r =>
      if r.targetId == b.targetId then r.document else none) = b.documents.filterMap id := by
  induction blocks with
  | nil => cases hb
  | cons c rest ih =>
    obtain ⟨hc, hrest⟩ := nodup_cons.mp hk
    have hself (x : ScpBlock) (y : ScpBlock) : (x.rows.filterMap fun r =>
        if r.targetId == y.targetId then r.document else none) =
          if x.targetId = y.targetId then x.documents.filterMap id else [] := by
      unfold ScpBlock.rows
      rw [filterMap_map]
      by_cases he : x.targetId = y.targetId <;> simp [he]
    rw [flatMap_cons, filterMap_append, hself]
    rcases mem_cons.mp hb with rfl | hb
    · have hnone : ((rest.flatMap ScpBlock.rows).filterMap fun r =>
          if r.targetId == b.targetId then r.document else none) = [] := by
        refine filterMap_eq_nil_iff.mpr fun r hr => ?_
        obtain ⟨x, hx, hrx⟩ := mem_flatMap.mp hr
        obtain ⟨_, _, rfl⟩ := mem_map.mp hrx
        have hne : x.targetId ≠ b.targetId := fun e => hc (mem_map.mpr ⟨x, hx, e⟩)
        simp [hne]
      rw [if_pos rfl, hnone, append_nil]
    · have hne : c.targetId ≠ b.targetId := fun e => hc (mem_map.mpr ⟨b, hb, e.symm⟩)
      rw [if_neg hne, nil_append, ih hrest hb]

theorem mem_targets_iff (hd : ∀ b ∈ blocks, b.documents ≠ []) (t : Uuid) :
    t ∈ (blocks.flatMap ScpBlock.rows).map (·.targetId) ↔ t ∈ blocks.map (·.targetId) := by
  simp only [mem_map, mem_flatMap, ScpBlock.rows]
  constructor
  · rintro ⟨_, ⟨b, hb, _, _, rfl⟩, rfl⟩
    exact ⟨b, hb, rfl⟩
  rintro ⟨b, hb, rfl⟩
  obtain ⟨document, hdoc⟩ := exists_mem_of_ne_nil _ (hd b hb)
  exact ⟨_, ⟨b, hb, document, hdoc, rfl⟩, rfl⟩

/-- **One level per target**, with the documents of its block. -/
theorem scpLevels_blocks (hk : UniqueKey (·.targetId) blocks)
    (hd : ∀ b ∈ blocks, b.documents ≠ []) :
    ((scpLevels (blocks.flatMap ScpBlock.rows)).map (·.2)).Perm
      (blocks.map fun b => b.documents.filterMap id) := by
  have ht : (orderBy id ((blocks.flatMap ScpBlock.rows).map (·.targetId)).dedup).Perm
      (blocks.map (·.targetId)) := by
    refine (orderBy_perm _ _).trans ?_
    rw [perm_ext_iff_of_nodup (nodup_dedup _) hk]
    intro t
    rw [mem_dedup, mem_targets_iff hd]
  unfold scpLevels
  rw [map_map]
  refine (ht.map _).trans (List.Perm.of_eq ?_)
  rw [map_map]
  exact map_congr_left fun b hb => filterMap_blocks hk hb

end Blocks

/-! ## 2. Reading the levels -/

theorem readLevels_ok (levels : List (List Json))
    (h : ∀ ds ∈ levels, ∀ d ∈ ds, (PolicyDocument.fromValue d).isSome) :
    levels.mapM readDocuments = .ok (levels.map (·.filterMap PolicyDocument.fromValue)) := by
  induction levels with
  | nil => rfl
  | cons ds _ ih =>
    rw [mapM_cons, readDocuments_eq, if_pos (h ds (mem_cons_self ..)),
      ih fun es hes => h es (mem_cons_of_mem ds hes)]
    rfl

/-- The policies attached to a target, decoded. -/
def attachedPolicies (d : Db) (attachments : List ScpAttachmentRow) (targetId : Uuid) :
    List PolicyDocument :=
  (attachedTo attachments targetId).filterMap fun t =>
    (d.cloudServiceControlPolicies.find? (·.id == t.policyId)).bind fun p =>
      PolicyDocument.fromValue p.document

section Documents
variable {d : Db} {targets : List (Uuid × Uuid)} {attachments : List ScpAttachmentRow}

section
variable (hp : PoliciesOk d.cloudOrganizations d.cloudServiceControlPolicies) (h : AttachmentsOk
  targets d.cloudServiceControlPolicies attachments)
include hp h

/-- The policy of an attachment is found, and its document can be read. -/
theorem attachment_document {t : ScpAttachmentRow} (ht : t ∈ attachments) : ∃ p,
    d.cloudServiceControlPolicies.find? (·.id == t.policyId) = some p ∧ (PolicyDocument.fromValue
    p.document).isSome := by
  obtain ⟨p, hm, _, hi⟩ := h.policy t ht
  cases hq : d.cloudServiceControlPolicies.find? (·.id == t.policyId) with
  | none => exact absurd (beq_iff_eq.mpr hi) (find?_eq_none.mp hq p hm)
  | some q => exact ⟨q, rfl, hp.document q (find?_key hq).1⟩

/-- No attached policy is lost. -/
theorem attachedPolicies_all (targetId : Uuid) : (attachedPolicies d attachments targetId).map some
    = (attachedTo attachments targetId).map fun t => (d.cloudServiceControlPolicies.find? (·.id ==
    t.policyId)).bind fun p => PolicyDocument.fromValue p.document := by
  have hmem : ∀ t ∈ attachedTo attachments targetId, t ∈ attachments :=
    fun t ht => (mem_filter.mp ht).1
  unfold attachedPolicies
  generalize attachedTo attachments targetId = ts at hmem ⊢
  induction ts with
  | nil => rfl
  | cons t _ ih =>
    obtain ⟨p, hf, hs⟩ := attachment_document hp h (hmem t mem_cons_self)
    obtain ⟨x, hx⟩ := Option.isSome_iff_exists.mp hs
    have ht : ((d.cloudServiceControlPolicies.find? (·.id == t.policyId)).bind fun p =>
        PolicyDocument.fromValue p.document) = some x := by rw [hf]; exact hx
    simp only [filterMap_cons, map_cons, ht,
      ih fun s hs => hmem s (mem_cons_of_mem _ hs)]

/-- The left join of a target has rows, all with a document that can be read. -/
theorem attachedDocuments_ok {x : Uuid × Uuid} (hx : x ∈ targets) : d.attachedDocuments attachments
    x.2 ≠ [] ∧ (∀ j ∈ (d.attachedDocuments attachments x.2).filterMap id, (PolicyDocument.fromValue
    j).isSome) ∧ ((d.attachedDocuments attachments x.2).filterMap id).filterMap
    PolicyDocument.fromValue = attachedPolicies d attachments x.2 := by
  have hne : attachedTo attachments x.2 ≠ [] :=
    length_pos_iff.mp (h.count x hx).1
  have he : d.attachedDocuments attachments x.2 = (attachedTo attachments x.2).map fun t =>
      (d.cloudServiceControlPolicies.find? (·.id == t.policyId)).map (·.document) := by
    unfold Db.attachedDocuments
    exact if_neg (by simpa [attachedTo] using hne)
  have hmem : ∀ t ∈ attachedTo attachments x.2, t ∈ attachments :=
    fun t ht => (mem_filter.mp ht).1
  rw [he]
  refine ⟨by simpa using hne, fun j hj => ?_, ?_⟩
  · obtain ⟨o, ho, hoj⟩ := mem_filterMap.mp hj
    obtain ⟨t, ht, rfl⟩ := mem_map.mp ho
    obtain ⟨p, hp, hs⟩ := attachment_document hp h (hmem t ht)
    rw [hp] at hoj
    cases hoj
    exact hs
  · unfold attachedPolicies
    rw [filterMap_map, filterMap_filterMap]
    refine filterMap_congr fun t _ => ?_
    simp only [Function.comp_apply, id_eq]
    cases d.cloudServiceControlPolicies.find? (·.id == t.policyId) <;> rfl

end
end Documents

/-! ## 3. The levels of an account -/

section Levels
variable {d : Db} {a : CloudOrganizationAccountRow} {u : CloudOrganizationalUnitRow}
  {path : List CloudOrganizationalUnitRow}
variable {units : List CloudOrganizationalUnitRow}

theorem PathToRoot.eq_cons (h : PathToRoot units u path) : path = u :: path.tail := by
  cases h <;> rfl

/-- The top of a path is a root. -/
theorem PathToRoot.exists_root (h : PathToRoot units u path) : ∃ r ∈ path, r.parentId = none := by
  induction h with
  | root _ hp => exact ⟨_, mem_singleton.mpr rfl, hp⟩
  | up _ _ _ _ ih =>
    obtain ⟨r, hr, he⟩ := ih
    exact ⟨r, mem_cons_of_mem _ hr, he⟩

/-- The recursive queries start at a unit and stop by themselves: they return its path. -/
theorem ancestors_unit (hk : UniqueKey (·.id) units) (hpath : PathToRoot units u path) : ancestors
    units (units.filter (·.organizationId == u.organizationId)).length u [u.id] = path := by
  have hnodup := hpath.nodup hk
  have hlen : path.length ≤ (units.filter (·.organizationId == u.organizationId)).length := by
    refine (subperm_of_subset hnodup fun w hw => mem_filter.mpr ?_).length_le
    obtain ⟨hwo, rest, hrest, _⟩ := hpath.of_mem hw
    exact ⟨hrest.mem, beq_iff_eq.mpr hwo⟩
  refine ancestors_eq_path hk hpath (by omega) fun w hw => ?_
  rw [mem_singleton]
  rw [hpath.eq_cons, nodup_cons] at hnodup
  intro e
  have hwm : w ∈ path := mem_of_mem_tail hw
  obtain ⟨_, rest, hrest, _⟩ := hpath.of_mem hwm
  exact hnodup.1 (hk.eq hrest.mem hpath.mem e ▸ hw)

/-- The recursive query of an account is the path of its unit. -/
theorem accountAncestors_eq (h : CloudOk d) (hi : u.id = a.parentId)
    (ho : u.organizationId = a.organizationId)
    (hpath : PathToRoot d.cloudOrganizationalUnits u path) : d.accountAncestors a = path := by
  have hk := h.tree.key
  have hf : (d.cloudOrganizationalUnits.filter fun u =>
      u.id == a.parentId && u.organizationId == a.organizationId) = [u] := by
    refine filter_eq_singleton hk.nodup hpath.mem (by simp [hi, ho]) fun w hw hq => ?_
    simp at hq
    exact hk.eq hw hpath.mem (hq.1.trans hi.symm)
  unfold Db.accountAncestors
  rw [hf, flatMap_singleton, ← ho]
  exact ancestors_unit hk hpath

variable {o : CloudOrganizationRow}

/-- The organization of an account is found. -/
theorem cloudOrganizationForAccount_eq (h : CloudOk d) (ha : a ∈ d.cloudOrganizationAccounts) (ho :
    o ∈ d.cloudOrganizations) (hao : o.id = a.organizationId) : ∃ x, d.cloudOrganizationForAccount
    a.accountId = some x ∧ x.managementAccountId = o.managementAccountId := by
  have hfind (i : Uuid) (hi : ∃ m ∈ d.organizations, m.id = i) :
      ∃ m, d.organizations.find? (·.id == i) = some m := by
    obtain ⟨m, hm, rfl⟩ := hi
    exact Option.isSome_iff_exists.mp (find?_isSome.mpr ⟨m, hm, beq_self_eq_true _⟩)
  obtain ⟨c, hc⟩ := hfind a.accountId (h.accounts.account a ha)
  obtain ⟨m, hm⟩ := hfind o.managementAccountId (h.management o ho)
  obtain ⟨r, hr, hro, hrp⟩ := h.tree.root o ho
  obtain ⟨x, hx⟩ := Option.isSome_iff_exists.mp (find?_isSome (p := fun u =>
    u.organizationId == o.id && u.parentId == none).mpr ⟨r, hr, by simp [hro, hrp]⟩)
  unfold Db.cloudOrganizationForAccount
  simp only [Option.bind_eq_bind, h.accounts.key.find?_eq ha rfl, Option.bind_some,
    h.organizationsKey.find?_eq ho hao, hm, hc, hx]
  exact ⟨_, rfl, rfl⟩

/-- The targets of an account's levels: the units of its path and itself. -/
def accountBlocks (d : Db) (a : CloudOrganizationAccountRow)
    (path : List CloudOrganizationalUnitRow) : List ScpBlock :=
  path.map (fun u => ⟨u.id, u.parentId == none,
    d.attachedDocuments d.cloudScpUnitAttachments u.id⟩) ++
  [⟨a.accountId, false, d.attachedDocuments d.cloudScpAccountAttachments a.accountId⟩]

variable (h : CloudOk d) (ha : a ∈ d.cloudOrganizationAccounts)
include h ha

theorem scpRows_eq (hi : u.id = a.parentId) (ho : u.organizationId = a.organizationId) (hpath :
    PathToRoot d.cloudOrganizationalUnits u path) : d.scpRows a.accountId = (accountBlocks d a
    path).flatMap ScpBlock.rows := by
  have hf : (d.cloudOrganizationAccounts.filter (·.accountId == a.accountId)) = [a] :=
    filter_eq_singleton h.accounts.key.nodup ha (beq_self_eq_true _) fun b hb hq =>
      h.accounts.key.eq hb ha (beq_iff_eq.mp hq)
  unfold Db.scpRows accountBlocks
  rw [hf, flatMap_singleton, accountAncestors_eq h hi ho hpath, flatMap_append,
    flatMap_map, flatMap_singleton]
  rfl

theorem accountBlocks_key (hpath : PathToRoot d.cloudOrganizationalUnits u path) : UniqueKey
    (·.targetId) (accountBlocks d a path) := by
  have hmem : ∀ w ∈ path, w ∈ d.cloudOrganizationalUnits := fun w hw =>
    (hpath.of_mem hw).2.elim fun _ h => h.1.mem
  unfold accountBlocks
  refine UniqueKey.append ?_ (nodup_singleton _) ?_
  · unfold UniqueKey
    rw [map_map]
    refine (hpath.nodup h.tree.key).map_on fun x hx y hy e => ?_
    exact h.tree.key.eq (hmem x hx) (hmem y hy) e
  · intro b hb c hc
    obtain ⟨w, hw, rfl⟩ := mem_map.mp hc
    obtain ⟨x, hx, he⟩ := h.accounts.account a ha
    rw [mem_singleton.mp hb]
    exact fun e => h.accounts.notUnit x hx w (hmem w hw) (e.trans he.symm)

omit ha

/-- **The levels of a member account**: one for itself and one for every unit on its path to the
root, each holding the policies attached there. -/
theorem serviceControlLevels_member (hs : d.cloudSecurityActivation.scpEnabled = true) (ha : a ∈
    d.cloudOrganizationAccounts) (hom : o ∈ d.cloudOrganizations) (hao : o.id = a.organizationId)
    (hm : o.managementAccountId ≠ a.accountId) (hi : u.id = a.parentId) (ho : u.organizationId =
    a.organizationId) (hpath : PathToRoot d.cloudOrganizationalUnits u path) : ∃ levels,
    d.serviceControlLevels a.accountId = .ok levels ∧ levels.Perm (path.map (fun u =>
    attachedPolicies d d.cloudScpUnitAttachments u.id) ++ [attachedPolicies d
    d.cloudScpAccountAttachments a.accountId]) := by
  have hunit : ∀ w ∈ path, (w.organizationId, w.id) ∈ unitTargets d.cloudOrganizationalUnits :=
    fun w hw => mem_map_of_mem ((hpath.of_mem hw).2.elim fun _ h => h.1.mem)
  have hdu := fun w hw => attachedDocuments_ok h.policies h.unitAttachments (hunit w hw)
  have hda := attachedDocuments_ok h.policies h.accountAttachments (mem_map_of_mem ha)
  have hdocs : ∀ b ∈ accountBlocks d a path, b.documents ≠ [] ∧
      ∀ j ∈ b.documents.filterMap id, (PolicyDocument.fromValue j).isSome := by
    intro b hb
    rcases mem_append.mp hb with hb | hb
    · obtain ⟨w, hw, rfl⟩ := mem_map.mp hb
      exact ⟨(hdu w hw).1, (hdu w hw).2.1⟩
    · rw [mem_singleton.mp hb]
      exact ⟨hda.1, hda.2.1⟩
  have hroot : (d.scpRows a.accountId).any (·.isRoot) = true := by
    obtain ⟨r, hr, hrp⟩ := hpath.exists_root
    obtain ⟨j, hj⟩ := exists_mem_of_ne_nil _ (hdu r hr).1
    rw [scpRows_eq h ha hi ho hpath, any_eq_true]
    refine ⟨⟨r.id, r.parentId == none, j⟩, mem_flatMap.mpr ⟨_, mem_append_left _
      (mem_map_of_mem hr), mem_map_of_mem hj⟩, by simp [hrp]⟩
  obtain ⟨x, hx, hxm⟩ := cloudOrganizationForAccount_eq h ha hom hao
  have hperm := scpLevels_blocks (accountBlocks_key h ha hpath) fun b hb => (hdocs b hb).1
  rw [← scpRows_eq h ha hi ho hpath] at hperm
  have hread := readLevels_ok ((scpLevels (d.scpRows a.accountId)).map (·.2)) fun ds hds => by
    obtain ⟨b, hb, rfl⟩ := mem_map.mp (hperm.mem_iff.mp hds)
    exact (hdocs b hb).2
  refine ⟨_, ?_, (hperm.map (·.filterMap PolicyDocument.fromValue)).trans (List.Perm.of_eq ?_)⟩
  · unfold Db.serviceControlLevels
    rw [hs, hx]
    simp only [Bool.not_true, Bool.false_eq_true, if_false, hxm, if_neg hm, hroot]
    rw [mapM_map] at hread
    exact hread
  · unfold accountBlocks
    rw [map_map, map_append, map_map, map_singleton]
    congr 1
    · exact map_congr_left fun w hw => (hdu w hw).2.2
    · exact congrArg (fun l => [l]) hda.2.2

/-- The management account has no levels. -/
theorem serviceControlLevels_management (ha : a ∈ d.cloudOrganizationAccounts) (hom : o ∈
    d.cloudOrganizations) (hao : o.id = a.organizationId) (hm : o.managementAccountId = a.accountId)
    : d.serviceControlLevels a.accountId = .ok [] := by
  obtain ⟨x, hx, hxm⟩ := cloudOrganizationForAccount_eq h ha hom hao
  unfold Db.serviceControlLevels
  rw [hx]
  simp only [hxm, hm]
  cases d.cloudSecurityActivation.scpEnabled <;> rfl

end Levels
end HeteroCloud.CloudOrganizations
