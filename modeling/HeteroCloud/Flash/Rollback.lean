/-
  File:      Flash/Rollback.lean
  Subject:   ROLLBACKS (crates/heterocloud-store/src/flash_operations.rs): `rollback_spec` takes the
             execution settings of an earlier revision and leaves everything else as it is. Either
             specification is valid; what is put together from them need not be.
-/
import HeteroCloud.Flash.Document
import HeteroCloud.Services.Checks

namespace HeteroCloud.Flash

open Base Iam Services List

/-! ## 1. Documents -/

/-- The members that stay as they are. -/
def currentKeys : List String :=
  ["task_role", "env", "secret_env", "secret_files", "network", "exposure", "egress", "stopped",
    "restore_from_backup_id", "metadata", "region"]

variable (current next : Json) (key : String)

def keepCurrent : Option Json :=
  match current.get key with
  | some value => next.set key value
  | none => some (next.remove key)

/-- A disk is never shrunk. -/
def keepSize : Option Json :=
  match (current.get key).bind Json.asNat with
  | some value =>
      let previous := ((next.get key).bind Json.asNat).getD 0
      next.set key (.int (max previous value : Nat))
  | none => some next

/-- `rollback_spec`. -/
def rollbackDocument (target current : Json) : Option Json := do
  let next ← currentKeys.foldlM (keepCurrent current) target
  ["ephemeral_storage_gib", "persistent_storage_gib"].foldlM (keepSize current) next

section Documents
variable {target current : List (String × Json)} {keys : List String} {key : String}

theorem keepCurrent_object (target current : List (String × Json)) (key : String) :
    ∃ next, keepCurrent (.object current) (.object target) key = some (.object next) ∧
      (∀ k, next.lookup k = if k = key then current.lookup k else target.lookup k) ∧
      ∀ m ∈ next, m.1 = key ∨ m ∈ target := by
  unfold keepCurrent
  rw [Json.get_object]
  cases hvalue : current.lookup key with
  | some value =>
    refine ⟨_, rfl, fun k => ?_, fun m hm => Json.mem_setIn hm⟩
    by_cases hk : k = key
    · rw [if_pos hk, hk, Json.lookup_setIn_self, hvalue]
    · rw [if_neg hk, Json.lookup_setIn_other value hk]
  | none =>
    refine ⟨_, rfl, fun k => ?_, fun m hm => .inr (mem_filter.mp hm).1⟩
    by_cases hk : k = key
    · rw [if_pos hk, hk, Json.lookup_remove_self, hvalue]
    · rw [if_neg hk, Json.lookup_remove_other hk]

/-- **Members of the current document** take the place of those of the target. -/
theorem keepCurrent_all (current : List (String × Json)) (keys : List String)
    (target : List (String × Json)) :
    ∃ next, keys.foldlM (keepCurrent (.object current)) (.object target) = some (.object next) ∧
      (∀ k, next.lookup k = if k ∈ keys then current.lookup k else target.lookup k) ∧
      ∀ m ∈ next, m.1 ∈ keys ∨ m ∈ target := by
  induction keys generalizing target with
  | nil => exact ⟨target, rfl, fun k => by simp, fun m hm => .inr hm⟩
  | cons key keys ih =>
    obtain ⟨first, hfirst, hlookup, hmem⟩ := keepCurrent_object target current key
    obtain ⟨next, hnext, hlookup', hmem'⟩ := ih first
    refine ⟨next, ?_, fun k => ?_, fun m hm => ?_⟩
    · rw [foldlM_cons, hfirst]
      exact hnext
    · rw [hlookup', hlookup]
      by_cases hk : k ∈ keys
      · rw [if_pos hk, if_pos (mem_cons_of_mem _ hk)]
      rw [if_neg hk]
      by_cases hkey : k = key
      · rw [if_pos hkey, if_pos (hkey ▸ mem_cons_self)]
      · rw [if_neg hkey, if_neg (by simp [hkey, hk])]
    · rcases hmem' m hm with h | h
      · exact .inl (mem_cons_of_mem _ h)
      rcases hmem m h with h | h
      · exact .inl (h ▸ mem_cons_self)
      · exact .inr h

variable (previous value : Option Json)

/-- The larger of two sizes. -/
def largerSize : Option Json :=
  match value.bind Json.asNat with
  | some n => some (.int (max ((previous.bind Json.asNat).getD 0) n : Nat))
  | none => previous

theorem keepSize_object (target current : List (String × Json)) (key : String) :
    ∃ next, keepSize (.object current) (.object target) key = some (.object next) ∧
      next.lookup key = largerSize (target.lookup key) (current.lookup key) ∧
      (∀ k, k ≠ key → next.lookup k = target.lookup k) ∧ ∀ m ∈ next, m.1 = key ∨ m ∈ target := by
  unfold keepSize largerSize
  rw [Json.get_object, Json.get_object]
  cases (current.lookup key).bind Json.asNat with
  | some =>
    exact ⟨_, rfl, Json.lookup_setIn_self .., fun k hk => Json.lookup_setIn_other _ hk,
      fun m hm => Json.mem_setIn hm⟩
  | none => exact ⟨target, rfl, rfl, fun _ _ => rfl, fun m hm => .inr hm⟩

/-- **The document of a rollback**, member by member. -/
theorem rollbackDocument_object (target current : List (String × Json)) :
    ∃ next, rollbackDocument (.object target) (.object current) = some (.object next) ∧
      (∀ k ∈ currentKeys, next.lookup k = current.lookup k) ∧
      (∀ k ∈ ["ephemeral_storage_gib", "persistent_storage_gib"],
        next.lookup k = largerSize (target.lookup k) (current.lookup k)) ∧
      (∀ k, k ∉ currentKeys → k ∉ ["ephemeral_storage_gib", "persistent_storage_gib"] →
        next.lookup k = target.lookup k) ∧
      ((∀ m ∈ target, m.1 ∈ flashKeys) → ∀ m ∈ next, m.1 ∈ flashKeys) := by
  obtain ⟨first, hfirst, hlookup, hmem⟩ := keepCurrent_all current currentKeys target
  obtain ⟨second, hsecond, hsize, hother, hmem'⟩ :=
    keepSize_object first current "ephemeral_storage_gib"
  obtain ⟨next, hnext, hsize', hother', hmem''⟩ :=
    keepSize_object second current "persistent_storage_gib"
  have hkeep {k : String} (he : k ≠ "ephemeral_storage_gib") (hp : k ≠ "persistent_storage_gib") :
      next.lookup k = if k ∈ currentKeys then current.lookup k else target.lookup k := by
    rw [hother' k hp, hother k he, hlookup k]
  refine ⟨next, ?_, fun k hk => ?_, fun k hk => ?_, fun k hk hsizes => ?_, fun hknown m hm => ?_⟩
  · unfold rollbackDocument
    rw [hfirst]
    simp only [Option.bind_eq_bind, Option.bind_some, foldlM_cons, foldlM_nil, hsecond,
      hnext]
    rfl
  · rw [hkeep (fun e => by subst e; revert hk; decide) (fun e => by subst e; revert hk; decide),
      if_pos hk]
  · rcases mem_pair.mp hk with rfl | rfl
    · rw [hother' _ (by decide), hsize, hlookup, if_neg (by decide)]
    · rw [hsize', hother _ (by decide), hlookup, if_neg (by decide)]
  · rw [hkeep (fun e => hsizes (e ▸ by simp)) (fun e => hsizes (e ▸ by simp)), if_neg hk]
  have hsub : ∀ k ∈ currentKeys, k ∈ flashKeys := by decide
  rcases hmem'' m hm with h | h
  · rw [h]
    decide
  rcases hmem' m h with h | h
  · rw [h]
    decide
  rcases hmem m h with h | h
  · exact hsub _ h
  · exact hknown m h

theorem asNat_eq {j : Json} {n : Nat} (h : j.asNat = some n) : j = .int n := by
  unfold Json.asNat at h
  split at h
  · cases h
    rfl
  · cases h

theorem largerSize_again : largerSize previous (largerSize previous value) = largerSize previous
    value := by
  cases hvalue : value.bind Json.asNat with
  | some n =>
    have hsize : largerSize previous value =
        some (.int (max ((previous.bind Json.asNat).getD 0) n : Nat)) := by
      simp only [largerSize, hvalue]
    rw [hsize]
    simp only [largerSize, Option.bind_some]
    exact congrArg (fun m : Nat => some (Json.int m)) (by omega)
  | none =>
    have hsize : largerSize previous value = previous := by simp only [largerSize, hvalue]
    rw [hsize]
    cases hprevious : previous.bind Json.asNat with
    | none => simp only [largerSize, hprevious]
    | some =>
      obtain ⟨j, rfl, hj⟩ := Option.bind_eq_some_iff.mp hprevious
      rw [asNat_eq hj] at hprevious ⊢
      simp only [largerSize, hprevious, Option.getD_some, Nat.max_self]

theorem largerSize_le {previous value : Option Json} {n : Nat}
    (h : value.bind Json.asNat = some n) :
    ∃ m, (largerSize previous value).bind Json.asNat = some m ∧ n ≤ m := by
  simp only [largerSize, h, Option.bind_some]
  exact ⟨_, rfl, Nat.le_max_right _ _⟩

/-- **What a rollback changes.** Identity, secrets, network and the like are as they were, whatever
the target; no disk is smaller than it was; everything else is the target's; and the same rollback
again changes nothing. -/
theorem rollbackDocument_frame (target current : List (String × Json)) :
    ∃ next, rollbackDocument (.object target) (.object current) = some (.object next) ∧
      (∀ k ∈ currentKeys, next.lookup k = current.lookup k) ∧
      (∀ target', ∃ next',
        rollbackDocument (.object target') (.object current) = some (.object next') ∧
          ∀ k ∈ currentKeys, next'.lookup k = next.lookup k) ∧
      (∀ k ∈ ["ephemeral_storage_gib", "persistent_storage_gib"], ∀ n,
        (current.lookup k).bind Json.asNat = some n →
          ∃ m, (next.lookup k).bind Json.asNat = some m ∧ n ≤ m) ∧
      (∀ k, k ∉ currentKeys → k ∉ ["ephemeral_storage_gib", "persistent_storage_gib"] →
        next.lookup k = target.lookup k) ∧
      ∃ again, rollbackDocument (.object target) (.object next) = some (.object again) ∧
        ∀ k, again.lookup k = next.lookup k := by
  obtain ⟨next, hnext, hcurrent, hsize, htarget, _⟩ := rollbackDocument_object target current
  refine ⟨next, hnext, hcurrent, fun target' => ?_, fun k hk n hn => ?_, htarget, ?_⟩
  · obtain ⟨next', hnext', hcurrent', _⟩ := rollbackDocument_object target' current
    exact ⟨next', hnext', fun k hk => (hcurrent' k hk).trans (hcurrent k hk).symm⟩
  · rw [hsize k hk]
    exact largerSize_le hn
  obtain ⟨again, hagain, hcurrent', hsize', htarget', _⟩ := rollbackDocument_object target next
  refine ⟨again, hagain, fun k => ?_⟩
  by_cases hk : k ∈ currentKeys
  · exact hcurrent' k hk
  by_cases hs : k ∈ ["ephemeral_storage_gib", "persistent_storage_gib"]
  · rw [hsize' k hs, hsize k hs]
    exact largerSize_again _ _
  · rw [htarget' k hk hs, htarget k hk hs]

end Documents

/-! ## 2. Reading them -/

section Reading
variable {crates : Crates} {others : SpecChecks} {target current : List (String × Json)}
  {t c : FlashSpec} {j j' : Json}

theorem readBelow_some {bound n : Nat} (h : readBelow bound j = some n) :
    j.asNat = some n ∧ n < bound := by
  obtain ⟨h, hlt⟩ := Option.filter_eq_some_iff.mp h
  exact ⟨h, by simpa using hlt⟩

theorem readBelow_max {bound m n : Nat} (hm : m < bound) (hn : n < bound) :
    readBelow bound (.int (max m n : Nat)) = some (max m n) :=
  readBelow_int (Nat.max_lt.mpr ⟨hm, hn⟩)

theorem ofNat_max {m n : Nat} (hm : m < UInt32.size) (hn : n < UInt32.size) :
    UInt32.ofNat (max m n) = max (UInt32.ofNat m) (UInt32.ofNat n) := by
  have hle : UInt32.ofNat m ≤ UInt32.ofNat n ↔ m ≤ n := by
    rw [UInt32.le_iff_toNat_le, UInt32.toNat_ofNat_of_lt' hm, UInt32.toNat_ofNat_of_lt' hn]
  show _ = if UInt32.ofNat m ≤ UInt32.ofNat n then UInt32.ofNat n else UInt32.ofNat m
  by_cases h : m ≤ n
  · rw [Nat.max_eq_right h, if_pos (hle.mpr h)]
  · rw [Nat.max_eq_left (by omega), if_neg fun h' => h (hle.mp h')]

/-- The size of the disk. -/
theorem larger_ephemeral (ht : Json.orDefault 10 readU32 (some j) = some t.ephemeralStorageGib)
    (hc : Json.orDefault 10 readU32 (some j') = some c.ephemeralStorageGib) :
    Json.orDefault 10 readU32 (largerSize (some j) (some j')) =
      some (max t.ephemeralStorageGib c.ephemeralStorageGib) := by
  obtain ⟨m, hm, hmt⟩ := Option.map_eq_some_iff.mp ht
  obtain ⟨n, hn, hnc⟩ := Option.map_eq_some_iff.mp hc
  obtain ⟨hjm, hm⟩ := readBelow_some hm
  obtain ⟨hjn, hn⟩ := readBelow_some hn
  simp only [largerSize, Option.bind_some, hjm, hjn, Option.getD_some, Json.orDefault, readU32,
    readBelow_max hm hn, Option.map_some, ofNat_max hm hn, hmt, hnc]

/-- An optional number: absent, `null` or a number. -/
theorem optional_below {value : Option Json} {n : Option Nat}
    (h : Json.optional (readBelow UInt32.size) value = some n) :
    value.bind Json.asNat = n ∧ ∀ size ∈ n, size < UInt32.size := by
  unfold Json.optional at h
  split at h
  · cases h
    exact ⟨rfl, fun _ h => absurd h (Option.not_mem_none _)⟩
  · cases h
    exact ⟨rfl, fun _ h => absurd h (Option.not_mem_none _)⟩
  obtain ⟨size, hsize, rfl⟩ := Option.map_eq_some_iff.mp h
  obtain ⟨hread, hlt⟩ := readBelow_some hsize
  refine ⟨hread, fun _ h => ?_⟩
  cases h
  exact hlt

/-- The size of the persistent disk. -/
theorem larger_persistent {previous value : Option Json}
    (ht : Json.optional (readBelow UInt32.size) previous = some t.persistentStorageGib)
    (hc : Json.optional (readBelow UInt32.size) value = some c.persistentStorageGib) :
    Json.optional (readBelow UInt32.size) (largerSize previous value) =
      some (rollbackSpec t c).persistentStorageGib := by
  obtain ⟨hm, hmlt⟩ := optional_below ht
  obtain ⟨hn, hnlt⟩ := optional_below hc
  simp only [largerSize, rollbackSpec, hm, hn]
  cases hsize : c.persistentStorageGib with
  | none => exact ht
  | some n =>
    have hlt : t.persistentStorageGib.getD 0 < UInt32.size := by
      cases hsize' : t.persistentStorageGib with
      | none => simp
      | some m => exact hmlt m hsize'
    exact congrArg (Option.map some) (readBelow_max hlt (hnlt n hsize))

/-- **The document that is put together is read as the specification that is put together.** -/
theorem rollback_reads (ht : Reads crates target t) (hc : Reads crates current c)
    (hknown : ∀ m ∈ target, m.1 ∈ flashKeys)
    (hsized : target.lookup "ephemeral_storage_gib" ≠ none)
    (hsized' : current.lookup "ephemeral_storage_gib" ≠ none) :
    ∃ j, rollbackDocument (.object target) (.object current) = some j ∧
      FlashSpec.fromValue crates j = some (rollbackSpec t c) := by
  obtain ⟨next, hnext, hcur, hsize, hkeep, hmem⟩ := rollbackDocument_object target current
  refine ⟨_, hnext, fromValue_object.mpr ⟨hmem hknown, ?_⟩⟩
  have hold {k : String} (h : k ∉ currentKeys ∧
      k ∉ ["ephemeral_storage_gib", "persistent_storage_gib"]) :
      next.lookup k = target.lookup k := hkeep k h.1 h.2
  exact {
    region := hcur "region" (by decide) ▸ hc.region
    image := hold (k := "image") (by decide) ▸ ht.image
    taskRole := hcur "task_role" (by decide) ▸ hc.taskRole
    replicas := hold (k := "replicas") (by decide) ▸ ht.replicas
    stopped := hcur "stopped" (by decide) ▸ hc.stopped
    autoscaling := hold (k := "autoscaling") (by decide) ▸ ht.autoscaling
    cpuMillis := hold (k := "cpu_millis") (by decide) ▸ ht.cpuMillis
    memoryMib := hold (k := "memory_mib") (by decide) ▸ ht.memoryMib
    gpuType := hold (k := "gpu_type") (by decide) ▸ ht.gpuType
    ephemeralStorageGib := by
      rw [hsize "ephemeral_storage_gib" (by decide)]
      obtain ⟨j, hj⟩ := Option.ne_none_iff_exists'.mp hsized
      obtain ⟨j', hj'⟩ := Option.ne_none_iff_exists'.mp hsized'
      have ht := ht.ephemeralStorageGib
      have hc := hc.ephemeralStorageGib
      rw [hj] at ht ⊢
      rw [hj'] at hc ⊢
      exact larger_ephemeral ht hc
    rootfsStorageGib := hold (k := "rootfs_storage_gib") (by decide) ▸ ht.rootfsStorageGib
    persistentStorageGib := by
      rw [hsize "persistent_storage_gib" (by decide)]
      exact larger_persistent ht.persistentStorageGib hc.persistentStorageGib
    restoreFromBackupId := hcur "restore_from_backup_id" (by decide) ▸ hc.restoreFromBackupId
    ports := hold (k := "ports") (by decide) ▸ ht.ports
    exposure := hcur "exposure" (by decide) ▸ hc.exposure
    egress := hcur "egress" (by decide) ▸ hc.egress
    network := hcur "network" (by decide) ▸ hc.network
    secretEnv := hcur "secret_env" (by decide) ▸ hc.secretEnv
    secretFiles := hcur "secret_files" (by decide) ▸ hc.secretFiles
    env := hcur "env" (by decide) ▸ hc.env
    metadata := hcur "metadata" (by decide) ▸ hc.metadata
    settings := by
      have h := ht.settings
      unfold readSettings at h ⊢
      rw [hold (k := "deployment") (by decide), hold (k := "command") (by decide),
        hold (k := "args") (by decide)]
      exact h }

end Reading

/-! ## 3. Validity -/

/-- **What a rollback needs** of the revision and of the service as it is: a service that scales to
zero is on the web, a service on the web has one TCP port, and the disks have room in each other. -/
structure Compatible (target current : FlashSpec) : Prop where
  scaling : ∀ a, target.autoscaling = some a → a.minReplicas = 0 →
    current.exposure.endpointMode = .web
  web : current.exposure.endpointMode = .web →
    target.ports.length = 1 ∧ ∀ p ∈ target.ports, p.protocol = .tcp
  room : ∀ size, (rollbackSpec target current).persistentStorageGib = some size →
    size + target.rootfsStorageGib.getD 1 <
      (max target.ephemeralStorageGib current.ephemeralStorageGib).toNat

section Validity
variable {crates : Crates} {others : SpecChecks} {t c : FlashSpec}

theorem rollback_head (ht : flashHead t = none) (hc : flashHead c = none) :
    flashHead (rollbackSpec t c) = none := by
  unfold flashHead at *
  rw [firstRefusal_none] at *
  simp only [forall_mem_cons] at *
  exact ⟨ht.1, hc.2.1, ht.2.2.1, by simp⟩

theorem rollback_rest (ht : flashRest crates t = none) (hc : flashRest crates c = none) :
    flashRest crates (rollbackSpec t c) = none := by
  unfold flashRest at *
  rw [firstRefusal_none] at *
  simp only [forall_mem_append] at *
  exact ⟨⟨hc.1.1, ht.1.2⟩, hc.2⟩

theorem rollback_resources (ht : ∀ e ∈ t.resourceErrors, e = none)
    (hc : ∀ e ∈ c.resourceErrors, e = none)
    (hroom : ∀ size, (rollbackSpec t c).persistentStorageGib = some size →
      size + t.rootfsStorageGib.getD 1 < (max t.ephemeralStorageGib c.ephemeralStorageGib).toNat) :
    ∀ e ∈ (rollbackSpec t c).resourceErrors, e = none := by
  have hmax : (max t.ephemeralStorageGib c.ephemeralStorageGib).toNat =
      max t.ephemeralStorageGib.toNat c.ephemeralStorageGib.toNat := by
    show (if t.ephemeralStorageGib ≤ c.ephemeralStorageGib then c.ephemeralStorageGib
      else t.ephemeralStorageGib).toNat = _
    split_ifs with h
    · exact (Nat.max_eq_right h).symm
    · exact (Nat.max_eq_left (Nat.le_of_not_le h)).symm
  simp only [FlashSpec.resourceErrors, forall_mem_cons, refuse_none, Bool.not_eq_false',
    within_iff] at ht hc ⊢
  obtain ⟨hcpu, hmemory, hgpu, hgpus, hdisk, hrootfs, hpersistent, _⟩ := ht
  obtain ⟨_, _, _, _, hdisk', _, hpersistent', _⟩ := hc
  have hdisk'' : (rollbackSpec t c).ephemeralStorageGib.toNat =
      max t.ephemeralStorageGib.toNat c.ephemeralStorageGib.toNat := hmax
  rw [hmax] at hroom
  refine ⟨hcpu, hmemory, hgpu, hgpus, ?_, ?_, ?_, by simp⟩
  · rw [hdisk'']
    omega
  · rw [hdisk'']
    show (t.rootfsStorageGib.any _) = false
    cases hsize : t.rootfsStorageGib with
    | none => rfl
    | some =>
      rw [hsize] at hrootfs
      simp only [Option.any_some, Bool.or_eq_false_iff, decide_eq_false_iff_not,
        beq_eq_false_iff_ne] at hrootfs ⊢
      omega
  cases hsize : (rollbackSpec t c).persistentStorageGib with
  | none => rfl
  | some size =>
    rw [hdisk'']
    simp only [Option.any_some, Bool.or_eq_false_iff, decide_eq_false_iff_not,
      beq_eq_false_iff_ne]
    refine ⟨?_, Nat.not_le.mpr (hroom size hsize)⟩
    simp only [rollbackSpec] at hsize
    cases hcurrent : c.persistentStorageGib with
    | some =>
      rw [hcurrent] at hsize hpersistent'
      simp only [Option.any_some, Bool.or_eq_false_iff, beq_eq_false_iff_ne] at hpersistent'
      cases hsize
      omega
    | none =>
      rw [hcurrent] at hsize
      have hsize : t.persistentStorageGib = some size := hsize
      rw [hsize] at hpersistent
      simp only [Option.any_some, Bool.or_eq_false_iff, beq_eq_false_iff_ne] at hpersistent
      exact hpersistent.1

theorem rollback_scaling {a : FlashAutoscaling} (ht : ∀ e ∈ t.scalingErrors a, e = none) :
    (∀ e ∈ (rollbackSpec t c).scalingErrors a, e = none) ↔
      (a.minReplicas = 0 → c.exposure.endpointMode = .web) := by
  simp only [FlashSpec.scalingErrors, forall_mem_cons, refuse_none] at ht ⊢
  obtain ⟨hbounds, _, hidle, htargets, _⟩ := ht
  constructor
  · rintro ⟨_, h, _⟩ hzero
    rw [decide_eq_true hzero, Bool.true_and, decide_eq_false_iff_not, not_not] at h
    exact h
  · intro h
    refine ⟨hbounds, ?_, hidle, htargets, by simp⟩
    by_cases hzero : a.minReplicas = 0
    · simp [rollbackSpec, h hzero]
    · simp [hzero]

theorem rollback_exposure (hc : ∀ e ∈ c.exposureErrors, e = none) :
    (∀ e ∈ (rollbackSpec t c).exposureErrors, e = none) ↔
      (c.exposure.endpointMode = .web →
        t.ports.length = 1 ∧ ∀ p ∈ t.ports, p.protocol = .tcp) := by
  simp only [FlashSpec.exposureErrors, forall_mem_cons, refuse_none] at hc ⊢
  obtain ⟨htraffic, hmode, hauth, _, hcidrs, hnetwork, _⟩ := hc
  have hone : (decide (c.exposure.endpointMode = .web) && (t.ports.length != 1 ||
      t.ports.head?.any fun p => decide (p.protocol ≠ .tcp))) = false ↔
      (c.exposure.endpointMode = .web →
        t.ports.length = 1 ∧ ∀ p ∈ t.ports, p.protocol = .tcp) := by
    by_cases hweb : c.exposure.endpointMode = .web
    · rw [decide_eq_true hweb, Bool.true_and, Bool.or_eq_false_iff, bne_eq_false_iff_eq]
      constructor
      · rintro ⟨hlength, hhead⟩ _
        obtain ⟨p, hp⟩ := length_eq_one_iff.mp hlength
        rw [hp] at hhead ⊢
        simpa using hhead
      · intro h
        obtain ⟨hlength, hall⟩ := h hweb
        obtain ⟨p, hp⟩ := length_eq_one_iff.mp hlength
        rw [hp] at hall ⊢
        simpa using hall
    · simp [hweb]
  exact ⟨fun h => hone.mp h.2.2.2.1, fun h =>
    ⟨htraffic, hmode, hauth, hone.mpr h, hcidrs, hnetwork, by simp⟩⟩

/-- **The specification that is put together is valid** if and only if its parts are compatible. -/
theorem rollback_iff (ht : Valid (flashChecks crates others) true t)
    (hc : Valid (flashChecks crates others) true c) :
    Valid (flashChecks crates others) false (rollbackSpec t c) ↔ Compatible t c := by
  constructor
  · intro h
    refine ⟨fun a ha => ?_, ?_, fun size hsize => ?_⟩
    · exact (rollback_scaling (ht.scaling a ha)).mp (h.scaling a ha)
    · exact (rollback_exposure hc.exposure).mp h.exposure
    have hres := h.resources
    simp only [FlashSpec.resourceErrors, forall_mem_cons, refuse_none] at hres
    obtain ⟨_, _, _, _, _, _, hroom, _⟩ := hres
    rw [hsize] at hroom
    simp at hroom
    exact hroom.2
  · intro h
    exact {
      head := rollback_head ht.head hc.head
      replicas := ht.replicas
      scaling := fun a ha => (rollback_scaling (ht.scaling a ha)).mpr (h.scaling a ha)
      resources := rollback_resources ht.resources hc.resources h.room
      count := ht.count
      ports := by
        have hid : (t.ports.map fun port => { port with servicePort := port.servicePort }) =
          t.ports := map_id _
        rw [show (rollbackSpec t c).ports = t.ports from rfl, ← hid]
        exact portError_request (·.servicePort) ht.ports
      exposure := (rollback_exposure hc.exposure).mpr h.web
      rest := rollback_rest ht.rest hc.rest }

end Validity

/-- **Rollbacks.** What `rollback_spec` puts together from two specifications of a service always
deserialises, and passes `validate_request` if and only if they are compatible. -/
theorem rollback_valid {crates : Crates} {others : SpecChecks} {target current : Json}
    {t c : FlashSpec} (ht : Stored crates others target t) (hc : Stored crates others current c) :
    ∃ j r, rollbackDocument target current = some j ∧ FlashSpec.fromValue crates j = some r ∧
      (r.validateRequest (flashChecks crates others) = none ↔ Compatible t c) := by
  obtain ⟨rt, rfl⟩ := ht.members
  obtain ⟨rc, rfl⟩ := hc.members
  obtain ⟨hknown, hreads⟩ := fromValue_object.mp ht.reads
  obtain ⟨_, hreads'⟩ := fromValue_object.mp hc.reads
  have hsized := ht.sized
  have hsized' := hc.sized
  rw [Json.get_object] at hsized hsized'
  obtain ⟨j, hj, hread⟩ := rollback_reads hreads hreads' hknown hsized hsized'
  refine ⟨j, _, hj, hread, ?_⟩
  rw [FlashSpec.validateRequest, validateInner_iff]
  exact rollback_iff (validateInner_iff.mp ht.valid) (validateInner_iff.mp hc.valid)

/-! ## 4. A service -/

/-- The code's checks on the demonstration's accounts. -/
def checkedSetup : Setup := { standalone with checks := flashChecks noCrates noChecks }

def movedToTheWeb : List (Move Call) :=
  runs 0 (createFlash 30 "app" twoPorts) 14 ++ runs 1 (updateFlash 30 "app" onTheWeb) 12

/-- **A service that moved to the web** with fewer ports cannot be rolled back. -/
theorem rollback_refused :
    (∃ past σ, Run (program checkedSetup) (System.quiet oneAccount 0 [20, 1]) past σ ∧
      (∃ e ∈ past, ∃ s ∈ e.state.db.serviceInstances, s.id = 30 ∧ s.spec = .flash twoPorts) ∧
      ∃ s ∈ σ.db.serviceInstances, s.id = 30 ∧ s.spec = .flash onTheWeb) ∧
    Stored noCrates noChecks twoPortsDocument twoPorts ∧
    Stored noCrates noChecks onTheWebDocument onTheWeb ∧
    ∃ j r, rollbackDocument twoPortsDocument onTheWebDocument = some j ∧
      FlashSpec.fromValue noCrates j = some r ∧
      r.validateRequest (flashChecks noCrates noChecks) =
        some "web endpoint_mode requires exactly one TCP port" := by
  have hplay : ((Machine.quiet oneAccount 0 [20, 1]).record (program checkedSetup) []
      movedToTheWeb).any (fun x => (x.1.any fun y => y.1.db.serviceInstances.any fun s =>
        s.id == 30 && s.spec == .flash twoPorts) &&
        x.2.db.serviceInstances.any fun s => s.id == 30 && s.spec == .flash onTheWeb) = true := by
    decide +kernel
  refine ⟨?_, twoPorts_stored, onTheWeb_stored, ?_⟩
  · obtain ⟨trail, m, hrun, hcheck⟩ := record_any hplay
    simp only [any_eq_true, Bool.and_eq_true, beq_iff_eq] at hcheck
    obtain ⟨⟨y, hy, s, hs, hid, hspec⟩, s', hs', hid', hspec'⟩ := hcheck
    exact ⟨_, _, hrun, ⟨_, mem_map_of_mem hy, s, hs, hid, hspec⟩, s', hs', hid', hspec'⟩
  · have hrefused : ((rollbackDocument twoPortsDocument onTheWebDocument).bind
        (FlashSpec.fromValue noCrates)).map (·.validateRequest (flashChecks noCrates noChecks)) =
        some (some "web endpoint_mode requires exactly one TCP port") := by
      decide +kernel
    obtain ⟨r, hr, hmessage⟩ := Option.map_eq_some_iff.mp hrefused
    obtain ⟨j, hj, hread⟩ := Option.bind_eq_some_iff.mp hr
    exact ⟨j, r, hj, hread, hmessage⟩

/-- The other way round the revisions are compatible. -/
theorem rollback_valid_inside : ∃ j r,
    rollbackDocument onTheWebDocument twoPortsDocument = some j ∧
      FlashSpec.fromValue noCrates j = some r ∧
      r.validateRequest (flashChecks noCrates noChecks) = none := by
  obtain ⟨j, r, hj, hread, hiff⟩ := rollback_valid onTheWeb_stored twoPorts_stored
  refine ⟨j, r, hj, hread, hiff.mpr ⟨fun a ha => ?_, fun hweb => ?_, fun size hsize => ?_⟩⟩
  · cases ha
  · cases hweb
  · cases hsize

end HeteroCloud.Flash
