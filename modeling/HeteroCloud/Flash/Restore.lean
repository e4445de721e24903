/-
  File:      Flash/Restore.lean
  Subject:   WHAT A BACKUP KEEPS OF A SERVICE, and what a restored service is
             (crates/heterocloud-store/src/flash_backups.rs, api flash_backup_routes.rs).

  `request_flash_backup_to` empties members of the stored document; `restored_spec` reads it back
  and resets more. Of identities, secrets and network access nothing comes through.
-/
import HeteroCloud.Api.Authorize
import HeteroCloud.Backups.Store
import HeteroCloud.Flash.Document

namespace HeteroCloud.Flash

open Base Iam Services Backups List
open Api (ApiError)

/-! ## 1. Documents -/

variable (resolvedImage : Option String)

/-- What `request_flash_backup_to` does to the document: `spec[key] = …`. -/
def backupDocument (spec : Json) : Option Json := do
  let spec ← spec.set "env" (.object [])
  let spec ← spec.set "secret_env" (.object [])
  let spec ← spec.set "secret_files" (.object [])
  let spec ← spec.set "task_role" .null
  let spec ← spec.set "network" .null
  let exposure ← (spec.index "exposure").set "authentication" .null
  let spec ← spec.set "exposure" exposure
  match resolvedImage with
  | some image => spec.set "image" (.string image)
  | none => return spec

/-- The members it sets; `exposure` are those of the exposure. -/
def backupEdits (exposure : List (String × Json)) : List (String × Json) :=
  [("env", .object []), ("secret_env", .object []), ("secret_files", .object []),
    ("task_role", .null), ("network", .null),
    ("exposure", .object (Json.setIn "authentication" .null exposure))] ++
  (resolvedImage.map fun image => ("image", Json.string image)).toList

def backupKeys : List String :=
  ["env", "secret_env", "secret_files", "task_role", "network", "exposure", "image"]

section Documents
variable {crates : Crates} {others : SpecChecks} {r e : List (String × Json)} {s : FlashSpec}

theorem backupDocument_object (resolvedImage : Option String)
    (he : r.lookup "exposure" = some (.object e)) :
    backupDocument resolvedImage (.object r) =
      some (.object (Json.setAll (backupEdits resolvedImage e) r)) := by
  have hindex : (Json.object (Json.setAll [("env", .object []), ("secret_env", .object []),
      ("secret_files", .object []), ("task_role", .null), ("network", .null)] r)).index "exposure" =
      .object e := by
    rw [Json.index, Json.get_object, Json.lookup_setAll (by decide), he]
    rfl
  unfold backupDocument
  simp only [Json.set, Option.bind_eq_bind, Option.bind_some]
  simp only [Json.setAll, foldl_cons, foldl_nil] at hindex
  rw [hindex]
  cases resolvedImage with
  | none | some => rfl

/-- The exposure of a backup has no authentication. -/
theorem exposure_reads {exposure : FlashExposure}
    (h : FlashExposure.fromValue (.object e) = some exposure) :
    FlashExposure.fromValue (.object (Json.setIn "authentication" .null e)) =
      some { exposure with authentication := none } := by
  obtain ⟨r, hrecord, h⟩ := Option.bind_eq_some_iff.mp h
  simp only [Json.record] at hrecord
  split_ifs at hrecord with hknown
  cases hrecord
  have hknown' : ((Json.setIn "authentication" .null e).all fun m =>
      exposureKeys.contains m.1) = true := by
    rw [all_eq_true] at hknown ⊢
    intro m hm
    rcases Json.mem_setIn hm with h | h
    · rw [h]
      decide
    · exact hknown m h
  have hother {k : String} (hk : k ≠ "authentication") :
      (Json.setIn "authentication" .null e).lookup k = e.lookup k :=
    Json.lookup_setIn_other _ hk
  unfold readExposure at h
  obtain ⟨exposureType, htype, h⟩ := Option.bind_eq_some_iff.mp h
  obtain ⟨trafficMode, hmode, h⟩ := Option.bind_eq_some_iff.mp h
  obtain ⟨endpointMode, hendpoint, h⟩ := Option.bind_eq_some_iff.mp h
  obtain ⟨allowed, hallowed, h⟩ := Option.bind_eq_some_iff.mp h
  obtain ⟨denied, hdenied, h⟩ := Option.bind_eq_some_iff.mp h
  obtain ⟨authentication, _, h⟩ := Option.bind_eq_some_iff.mp h
  cases h
  simp only [FlashExposure.fromValue, Json.record, if_pos hknown', Option.bind_some, readExposure]
  rw [hother (k := "type") (by decide), hother (k := "traffic_mode") (by decide),
    hother (k := "endpoint_mode") (by decide), hother (k := "allowed_source_cidrs") (by decide),
    hother (k := "denied_source_cidrs") (by decide), Json.lookup_setIn_self, htype, hmode,
    hendpoint, hallowed, hdenied]
  rfl

theorem backupEdits_nodup {resolvedImage : Option String} :
    ((backupEdits resolvedImage e).map (·.1)).Nodup := by
  cases resolvedImage with
  | none | some => simp [backupEdits]

theorem backupEdits_keys {resolvedImage : Option String} {k : String}
    (h : k ∈ (backupEdits resolvedImage e).map (·.1)) : k ∈ backupKeys := by
  cases resolvedImage with
  | none =>
    simp only [backupEdits, Option.map_none, Option.toList_none, append_nil] at h
    exact (by decide : ["env", "secret_env", "secret_files", "task_role", "network", "exposure"] ⊆
      backupKeys) h
  | some => exact h

/-- **The document of a backup is read as the specification of the backup.** -/
theorem backup_reads (q : BackupRequest) (he : r.lookup "exposure" = some (.object e))
    (hknown : ∀ m ∈ r, m.1 ∈ flashKeys) (h : Reads crates r s) :
    ∃ j, backupDocument q.resolvedImage (.object r) = some j ∧
      FlashSpec.fromValue crates j = some (q.spec s) := by
  refine ⟨_, backupDocument_object q.resolvedImage he, fromValue_object.mpr ⟨?_, ?_⟩⟩
  · intro m hm
    rcases Json.mem_setAll hm with hm | hm
    · exact (by decide : backupKeys ⊆ flashKeys) (backupEdits_keys hm)
    · exact hknown m hm
  have hlookup (k : String) : (Json.setAll (backupEdits q.resolvedImage e) r).lookup k =
      ((backupEdits q.resolvedImage e).lookup k).or (r.lookup k) :=
    Json.lookup_setAll backupEdits_nodup
  have hkeep {k : String} (hk : k ∉ backupKeys) :
      (Json.setAll (backupEdits q.resolvedImage e) r).lookup k = r.lookup k := by
    rw [hlookup, lookup_eq_none_iff.mpr fun m hm => bne_iff_ne.mpr fun e => hk ?_]
    · rfl
    · exact backupEdits_keys (mem_map.mpr ⟨m, hm, e.symm⟩)
  exact {
    region := hkeep (k := "region") (by decide) ▸ h.region
    image := by
      rw [hlookup]
      have himage := h.image
      cases hq : q.resolvedImage with
      | none =>
        rw [BackupRequest.spec, hq]
        exact himage
      | some =>
        rw [BackupRequest.spec, hq]
        rfl
    taskRole := by rw [hlookup]; rfl
    replicas := hkeep (k := "replicas") (by decide) ▸ h.replicas
    stopped := hkeep (k := "stopped") (by decide) ▸ h.stopped
    autoscaling := hkeep (k := "autoscaling") (by decide) ▸ h.autoscaling
    cpuMillis := hkeep (k := "cpu_millis") (by decide) ▸ h.cpuMillis
    memoryMib := hkeep (k := "memory_mib") (by decide) ▸ h.memoryMib
    gpuType := hkeep (k := "gpu_type") (by decide) ▸ h.gpuType
    ephemeralStorageGib := hkeep (k := "ephemeral_storage_gib") (by decide) ▸ h.ephemeralStorageGib
    rootfsStorageGib := hkeep (k := "rootfs_storage_gib") (by decide) ▸ h.rootfsStorageGib
    persistentStorageGib := hkeep (k := "persistent_storage_gib") (by decide) ▸ h.persistentStorageGib
    restoreFromBackupId := hkeep (k := "restore_from_backup_id") (by decide) ▸ h.restoreFromBackupId
    ports := hkeep (k := "ports") (by decide) ▸ h.ports
    exposure := by
      have hexposure := h.exposure
      rw [he] at hexposure
      rw [hlookup]
      exact exposure_reads hexposure
    egress := hkeep (k := "egress") (by decide) ▸ h.egress
    network := by rw [hlookup]; rfl
    secretEnv := by rw [hlookup]; rfl
    secretFiles := by rw [hlookup]; rfl
    env := by rw [hlookup]; rfl
    metadata := hkeep (k := "metadata") (by decide) ▸ h.metadata
    settings := by
      have hsettings := h.settings
      unfold readSettings at hsettings ⊢
      rw [hkeep (k := "deployment") (by decide), hkeep (k := "command") (by decide),
        hkeep (k := "args") (by decide)]
      exact hsettings }

end Documents

/-! ## 2. Restored specifications -/

/-- What `restored_spec` makes of a specification: only the contents of the disk are restored. -/
def restored (id : Uuid) (s : FlashSpec) : FlashSpec :=
  { s with
    restoreFromBackupId := some id
    stopped := true
    replicas := 1
    autoscaling := none
    taskRole := none
    network := none
    env := .object []
    secretEnv := []
    secretFiles := []
    gpuType := none
    exposure := { exposureType := .internal, trafficMode := .forwarded, endpointMode := .ip,
                  authentication := none, allowedSourceCidrs := [], deniedSourceCidrs := [] }
    egress := { mode := .disabled }
    ports := s.ports.map fun port => { port with servicePort := 0 } }

/-- `restored_spec`. -/
def restoredSpec (crates : Crates) (others : SpecChecks) (value : Json) (id : Uuid) :
    Except ApiError FlashSpec :=
  match FlashSpec.fromValue crates value with
  | none => .error .internal
  | some spec =>
    match (restored id spec).validateRequest (flashChecks crates others) with
    | some message => .error (.badRequest s!"invalid Flash spec: {message}")
    | none => .ok (restored id spec)

/-- A specification without what a restore resets. -/
def disk (s : FlashSpec) : FlashSpec :=
  { s with
    env := .null
    secretEnv := []
    secretFiles := []
    taskRole := none
    network := none
    exposure := { exposureType := .internal, trafficMode := .forwarded }
    egress := {}
    gpuType := none
    replicas := 0
    autoscaling := none
    stopped := false
    restoreFromBackupId := none
    ports := s.ports.map fun port => { port with servicePort := 0 } }

section Restored
variable {crates : Crates} {others : SpecChecks} {s s' : FlashSpec} {id : Uuid} {q : BackupRequest}
  {j j' : Json}

/-- **A restored specification depends on the disk only.** -/
theorem restored_disk (q : BackupRequest) (id : Uuid) (s : FlashSpec) :
    restored id (q.spec s) = restored id (q.spec (disk s)) := by
  simp only [restored, BackupRequest.spec, disk, map_map, Function.comp_def]

theorem image_valid (h : flashHead s = none) : imageRefusal s.image = none :=
  firstRefusal_none.mp h _ (by simp)

theorem restored_head (h : flashHead s = none) (himage : imageRefusal (q.spec s).image = none) :
    flashHead (restored id (q.spec s)) = none := by
  unfold flashHead at *
  rw [firstRefusal_none] at *
  simp only [forall_mem_cons] at *
  exact ⟨h.1, h.2.1, himage, by simp⟩

/-- What is checked of texts that were reset passes. -/
theorem restored_rest (h : flashRest crates s = none) :
    flashRest crates (restored id (q.spec s)) = none := by
  unfold flashRest at *
  rw [firstRefusal_none] at *
  simp only [forall_mem_append] at *
  refine ⟨⟨⟨⟨?_, ?_⟩, ?_⟩, h.1.2⟩, h.2⟩
  · simp [restored, exposureTexts, parseFlashCidrs, parseFlashCidrsFrom, refusalOf]
  · simp only [forall_mem_cons]
    exact ⟨rfl, rfl, by simp⟩
  have hnone : environmentErrors (environmentOf (restored id (q.spec s)).env)
      (restored id (q.spec s)) = List.replicate 8 none := rfl
  rw [hnone]
  intro e he
  exact (mem_replicate.mp he).2

/-- **A restored specification is valid.** -/
theorem restored_valid (id : Uuid) (h : Valid (flashChecks crates others) true s)
    (himage : imageRefusal (q.spec s).image = none) :
    Valid (flashChecks crates others) false (restored id (q.spec s)) := by
  have hres := h.resources
  simp only [FlashSpec.resourceErrors, forall_mem_cons, refuse_none] at hres
  obtain ⟨hcpu, hmemory, _, _, hdisk, hrootfs, hpersistent, _⟩ := hres
  exact {
    head := restored_head h.head himage
    replicas := rfl
    scaling := fun a ha => absurd ha.symm (Option.some_ne_none a)
    resources := by
      simp only [FlashSpec.resourceErrors, forall_mem_cons, refuse_none]
      exact ⟨hcpu, hmemory, rfl, rfl, hdisk, hrootfs, hpersistent, by simp⟩
    count := by
      show (s.ports.map _).length ≤ _
      rw [length_map]
      exact h.count
    ports := portError_request (fun _ => 0) h.ports
    exposure := by
      simp only [FlashSpec.exposureErrors, forall_mem_cons, refuse_none]
      exact ⟨rfl, rfl, rfl, rfl, rfl, rfl, by simp⟩
    rest := restored_rest h.rest }

/-- Reading a backup and restoring it. -/
theorem restored_backup (q : BackupRequest) (id : Uuid) (h : Stored crates others j s) :
    ∃ j', backupDocument q.resolvedImage j = some j' ∧
      restoredSpec crates others j' id =
        match (restored id (q.spec s)).validateRequest (flashChecks crates others) with
        | some message => .error (.badRequest s!"invalid Flash spec: {message}")
        | none => .ok (restored id (q.spec s)) := by
  obtain ⟨r, rfl⟩ := h.members
  obtain ⟨e, he⟩ := h.exposure
  rw [Json.get_object] at he
  obtain ⟨hknown, hreads⟩ := fromValue_object.mp h.reads
  obtain ⟨j', hj', hread⟩ := backup_reads q he hknown hreads
  refine ⟨j', hj', ?_⟩
  unfold restoredSpec
  rw [hread]

end Restored

/-- **Restores.** Two stored specifications that differ only in identities, secrets, network access
and placement are restored, from backups with one image, as one specification; and the restore of a
stored specification succeeds and gives a valid one that is stopped, internal and without egress. -/
theorem restores_kept (crates : Crates) (others : SpecChecks) (id : Uuid) :
    (∀ q q' : BackupRequest, q.resolvedImage = q'.resolvedImage → ∀ j j' s s',
      Stored crates others j s → Stored crates others j' s' → disk s = disk s' →
        (backupDocument q.resolvedImage j).map (restoredSpec crates others · id) =
          (backupDocument q'.resolvedImage j').map (restoredSpec crates others · id)) ∧
    ∀ q : BackupRequest, (∀ image, q.resolvedImage = some image → imageRefusal image = none) →
      ∀ j s, Stored crates others j s →
        ∃ value spec, backupDocument q.resolvedImage j = some value ∧
          restoredSpec crates others value id = .ok spec ∧ spec.stopped = true ∧
          spec.exposure.exposureType = .internal ∧ spec.egress.mode = .disabled ∧
          spec.validateRequest (flashChecks crates others) = none := by
  constructor
  · intro q q' hq j j' s s' h h' hdisk
    obtain ⟨value, hvalue, hspec⟩ := restored_backup q id h
    obtain ⟨value', hvalue', hspec'⟩ := restored_backup q id h'
    rw [← hq, hvalue, hvalue', Option.map_some, Option.map_some, hspec, hspec',
      restored_disk q id s, restored_disk q id s', hdisk]
  intro q himage j s h
  have hvalid := validateInner_iff.mp h.valid
  have hresolved : imageRefusal (q.spec s).image = none := by
    cases hq : q.resolvedImage with
    | none =>
      rw [BackupRequest.spec, hq]
      exact image_valid hvalid.head
    | some image =>
      rw [BackupRequest.spec, hq]
      exact himage image hq
  have hrestored := validateInner_iff.mpr (restored_valid id hvalid hresolved)
  obtain ⟨value, hvalue, hspec⟩ := restored_backup q id h
  rw [show (restored id (q.spec s)).validateRequest (flashChecks crates others) = none from
    hrestored] at hspec
  exact ⟨value, _, hvalue, hspec, rfl, rfl, rfl, hrestored⟩

/-- A backup of a service. -/
def backupOf : BackupRequest where
  organization := 1
  service := 30
  principal := 20
  requestId := 7
  name := "nightly"
  volumeSizeBytes := 1
  sourcePvcUid := "pvc"
  resolvedImage
  expectedGeneration := 1
  destination := none

theorem restores_kept_web : ∃ value spec,
    backupDocument (some "registry/app@1") onTheWebDocument = some value ∧
      restoredSpec noCrates noChecks value 9 = .ok spec ∧ spec.stopped = true ∧
      spec.exposure.exposureType = .internal ∧ spec.egress.mode = .disabled ∧
      spec.validateRequest (flashChecks noCrates noChecks) = none := by
  obtain ⟨_, hrestore⟩ := restores_kept noCrates noChecks 9
  refine hrestore (backupOf (some "registry/app@1")) (fun image himage => ?_) onTheWebDocument
    onTheWeb onTheWeb_stored
  cases himage
  decide +kernel

end HeteroCloud.Flash
