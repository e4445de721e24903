/-
  File:      Backups/Reconciler.lean
  Subject:   BACKUPS IN THE HANDS OF RECONCILERS (crates/heterocloud-api/src/flash_backups.rs) and
             what holds of their rows whatever the reconcilers of several replicas do.

  A reconciler reads a batch of rows and goes through it: it writes back the phase and status it
  read, asks the provider, and writes what follows from the answer. Each store call, and the
  receiving of each answer, is an action of its own. Requests, deletions, retention and changes of
  services run beside them. What the provider does is not modelled: it may answer anything.
-/
import HeteroCloud.Backups.Store
import HeteroCloud.Base.Atomic

namespace HeteroCloud.Backups

open Base.Atomic Iam Services List
open Base (Json updateWhere)
open Store (StoreError)

/-! ## 1. Answers of the provider -/

/-- The status of an answer that is no success, or any other error. -/
inductive ProviderError where
  | providerStatus (code : Nat)
  | other
  deriving DecidableEq, Repr

variable (value : Json)

/-- The phases a provider may report. -/
def reportedPhase : Option Phase :=
  match value.index "phase" with
  | .string "pending" => some .pending
  | .string "creating" => some .creating
  | .string "ready" => some .ready
  | .string "error" => some .error
  | .string "deleting" => some .deleting
  | _ => none

/-- A text of at most 40 bytes. -/
def shortText : Json → Json
  | .string s => if s.utf8ByteSize ≤ 40 then .string s else .null
  | _ => .null

def isHexDigit (c : Char) : Bool :=
  c.isDigit || ('a' ≤ c && c ≤ 'f') || ('A' ≤ c && c ≤ 'F')

def hashText : Json → Json
  | .string s => if s.utf8ByteSize = 64 ∧ s.toList.all isHexDigit then .string s else .null
  | _ => .null

def countOf : Json :=
  match value.asNat with
  | some n => .int n
  | none => .null

def validatedVerification : Json :=
  match value.index "phase" with
  | .string phase =>
      if ["queued", "restoring", "cleaning", "passed", "failed"].contains phase then
        .object [("cleanup_verified", .bool (value.index "cleanup_verified" == .bool true)),
          ("completed_at", shortText (value.index "completed_at")),
          ("phase", .string phase),
          ("sampled_bytes", countOf (value.index "sampled_bytes")),
          ("sampled_files", countOf (value.index "sampled_files")),
          ("sha256", hashText (value.index "sha256")),
          ("started_at", shortText (value.index "started_at"))]
      else .null
  | _ => .null

/-- Arbitrary error bodies of the backend are not kept. -/
def validatedMessage : Json :=
  match value with
  | .string m =>
      if ["backup_storage_error", "backup_storage_missing", "backup_source_unavailable"].contains m
      then .string m else .null
  | _ => .null

variable (lib : ThirdParty) (id : Uuid)

/-- The phase with the status kept. -/
def validatedStatus (value : Json) : Except ProviderError (Phase × Json) :=
  if (value.get "id").bind Json.asString ≠ some (lib.uuidText id) then .error (.providerStatus 502)
  else match reportedPhase value with
  | none => .error (.providerStatus 502)
  | some phase => .ok (phase, .object [("completed_at", value.index "completed_at"),
      ("id", .string (lib.uuidText id)), ("message", validatedMessage (value.index "message")),
      ("phase", value.index "phase"),
      ("restore_verification", validatedVerification (value.index "restore_verification"))])

/-- What an answer means. -/
inductive Verdict where
  | reported (phase : Phase) (status : Json)
  | refused
  | unavailable
  deriving DecidableEq

def verdict (response : Except ProviderError Json) : Verdict :=
  match response.bind (validatedStatus lib id) with
  | .ok (phase, status) => .reported phase status
  | .error (.providerStatus code) =>
      if [400, 403, 404, 409].contains code then .refused else .unavailable
  | .error .other => .unavailable

/-- The phase and status to write; `verifiedAt` is the time of the answer. -/
def Verdict.write (v : Verdict) (backup : FlashBackup) (verifiedAt : String) :
    Option (Phase × Json) :=
  match v with
  | .reported phase status =>
      ((status.set "last_verified_at" (.string verifiedAt)).bind
        (·.set "provider_unavailable" (.bool false))).map fun status => (phase, status)
  | .refused => some (.error, .object [("message", .string "backup_source_unavailable")])
  | .unavailable =>
      (backup.status.set "provider_unavailable" (.bool true)).map fun status =>
        (backup.phase, status)

/-! ## 2. The program -/

inductive ProviderRequest where
  | create (id : Uuid) (name sourcePvcUid : String) (volumeSizeBytes : Nat)
      (destination : Option Uuid)
  | get (id : Uuid)
  | delete (id : Uuid)
  deriving DecidableEq

variable (b : FlashBackup)

def FlashBackup.request : ProviderRequest :=
  if b.phase = .pending then
    .create b.id b.name b.sourcePvcUid b.volumeSizeBytes b.destinationId
  else .get b.id

inductive Point where
  | request (q : BackupRequest)
  | requestDelete (organization id : Uuid)
  | expire (policy : BackupPolicy)
  | attach (policy : BackupPolicy) (id : Uuid)
  /-- Services and destinations change. -/
  | change
  /-- Waits for the next tick. -/
  | reconciler
  | next (batch : List FlashBackup)
  | restores (backup : FlashBackup) (rest : List FlashBackup)
  | ask (request : ProviderRequest) (backup : FlashBackup) (rest : List FlashBackup)
  | record (backup : FlashBackup) (rest : List FlashBackup) (phase : Phase) (status : Json)
  | release (backup : FlashBackup) (rest : List FlashBackup)
  | answered (result : Except StoreError FlashBackup)
  | done

inductive Choice where
  /-- The call is made at `now`; a new row takes the id. -/
  | call (now : Time) (id : Uuid)
  | fail
  | answer (response : Except ProviderError Json) (verifiedAt : String)
  | change (services : List ServiceRow) (destinations : List Destination)

structure Setup where
  lib : ThirdParty
  /-- The organization a service is created in. -/
  home : Uuid → Uuid

variable (u : Setup) (t : Tables)

/-- Writes of the reconciler; `next` goes on with its loop. -/
def actReconciler : Point → Choice → Option (Tables × Point)
  | .reconciler, .call now _ => some (t, .next (pendingFlashBackups now t))
  | .reconciler, .fail => some (t, .reconciler)
  | .next [], .call _ _ => some (t, .reconciler)
  | .next (b :: rest), .call now _ =>
      some (updateFlashBackupStatus now b.id b.phase b.status t,
        if b.deleteRequested then .restores b rest else .ask b.request b rest)
  | .next (b :: rest), .fail =>
      some (t, if b.deleteRequested then .restores b rest else .ask b.request b rest)
  | .restores b rest, .call _ _ =>
      some (t, if flashBackupRestorePending b.id t then .next rest else .ask (.delete b.id) b rest)
  | .restores _ rest, .fail => some (t, .next rest)
  | .ask (.delete _) b rest, .answer response _ =>
      match response with
      | .ok value =>
          some (t, if value.index "deleted" = .bool true then .release b rest else .next rest)
      | .error _ => some (t, .next rest)
  | .ask _ b rest, .answer response verifiedAt =>
      ((verdict u.lib b.id response).write b verifiedAt).map fun w => (t, .record b rest w.1 w.2)
  | .record b rest phase status, .call now _ =>
      some (updateFlashBackupStatus now b.id phase status t, .next rest)
  | .record _ rest _ _, .fail => some (t, .next rest)
  | .release b rest, .call now _ => some (releaseFlashBackup now b.id t, .next rest)
  | .release _ rest, .fail => some (t, .next rest)
  | _, _ => none

def act (a : Choice) (t : Tables) (l : Point) : Option (Tables × Point) :=
  match l, a with
  | .request q, .call now id =>
      match requestFlashBackupTo now id q t with
      | .ok (t', b) => some (t', .answered (.ok b))
      | .error e => some (t, .answered (.error e))
  | .request _, .fail => some (t, .answered (.error (.sql false)))
  | .requestDelete o id, .call now _ =>
      match requestFlashBackupDelete now o id t with
      | .ok (t', b) => some (t', .answered (.ok b))
      | .error e => some (t, .answered (.error e))
  | .requestDelete _ _, .fail => some (t, .answered (.error (.sql false)))
  | .expire p, .call now _ => some (expireScheduledBackups now p t, .done)
  | .expire _, .fail => some (t, .done)
  | .attach p id, .call _ _ => some (attachScheduledBackup p id t, .done)
  | .attach _ _, .fail => some (t, .done)
  | .change, .change services destinations =>
      if services.all fun s => u.home s.id == s.organizationId then
        some ({ t with services := services, destinations := destinations }, .done)
      else none
  | l, a => actReconciler u t l a

def isStart : Point → Bool
  | .request _ | .requestDelete _ _ | .expire _ | .attach _ _ | .change | .reconciler => true
  | _ => false

/-- No locks are held between two store calls. -/
def program : Program Tables Point Choice Empty where
  start := isStart
  locks _ := []
  act := act u

/-! ## 3. What an action does -/

/-- The backups in a reconciler's hands. -/
def Point.batch : Point → List FlashBackup
  | .next batch => batch
  | .restores b rest | .ask _ b rest | .record b rest _ _ | .release b rest => b :: rest
  | _ => []

/-- The turn of a backup in the loop. -/
def FlashBackup.turn (rest : List FlashBackup) : Point :=
  if b.deleteRequested then .restores b rest else .ask b.request b rest

/-- **What one action does**: what it writes, and where the call goes on. -/
inductive Does (u : Setup) (t : Tables) (a : Choice) : Point → Tables → Point → Prop where
  | ends (l l' : Point) (h : l' = .reconciler ∨ l' = .done ∨ ∃ e, l' = .answered (.error e)) :
      Does u t a l t l'
  | request (q : BackupRequest) (now : Time) (id : Uuid) (t' : Tables) (b : FlashBackup)
      (h : requestFlashBackupTo now id q t = .ok (t', b)) :
      Does u t a (.request q) t' (.answered (.ok b))
  | requestDelete (o id : Uuid) (now : Time) (t' : Tables) (b : FlashBackup)
      (h : requestFlashBackupDelete now o id t = .ok (t', b)) :
      Does u t a (.requestDelete o id) t' (.answered (.ok b))
  | expire (p : BackupPolicy) (now : Time) :
      Does u t a (.expire p) (expireScheduledBackups now p t) .done
  | attach (p : BackupPolicy) (id : Uuid) :
      Does u t a (.attach p id) (attachScheduledBackup p id t) .done
  | change (services : List ServiceRow) (destinations : List Destination)
      (h : ∀ s ∈ services, u.home s.id = s.organizationId) :
      Does u t a .change { t with services := services, destinations := destinations } .done
  | reads (now : Time) : Does u t a .reconciler t (.next (pendingFlashBackups now t))
  /-- What was read is written back. -/
  | back (b : FlashBackup) (rest : List FlashBackup) (now : Time) :
      Does u t a (.next (b :: rest)) (updateFlashBackupStatus now b.id b.phase b.status t)
        (b.turn rest)
  | turn (b : FlashBackup) (rest : List FlashBackup) :
      Does u t a (.next (b :: rest)) t (b.turn rest)
  | deletes (b : FlashBackup) (rest : List FlashBackup)
      (h : flashBackupRestorePending b.id t = false) :
      Does u t a (.restores b rest) t (.ask (.delete b.id) b rest)
  | skips (l : Point) (b : FlashBackup) (rest : List FlashBackup) (h : l.batch = b :: rest) :
      Does u t a l t (.next rest)
  | deleted (r : ProviderRequest) (b : FlashBackup) (rest : List FlashBackup) :
      Does u t a (.ask r b rest) t (.release b rest)
  | judges (r : ProviderRequest) (b : FlashBackup) (rest : List FlashBackup)
      (response : Except ProviderError Json) (verifiedAt : String) (w : Phase × Json)
      (ha : a = .answer response verifiedAt)
      (hw : (verdict u.lib b.id response).write b verifiedAt = some w) :
      Does u t a (.ask r b rest) t (.record b rest w.1 w.2)
  | records (b : FlashBackup) (rest : List FlashBackup) (phase : Phase) (status : Json)
      (now : Time) : Does u t a (.record b rest phase status)
        (updateFlashBackupStatus now b.id phase status t) (.next rest)
  | releases (b : FlashBackup) (rest : List FlashBackup) (now : Time) :
      Does u t a (.release b rest) (releaseFlashBackup now b.id t) (.next rest)

section Does
variable {u : Setup} {t t' : Tables} {l l' : Point} {a : Choice}

theorem actReconciler_does (h : actReconciler u t l a = some (t', l')) : Does u t a l t' l' := by
  unfold actReconciler at h
  split at h
  · cases h
    exact .reads _
  · cases h
    exact .ends _ _ (.inl rfl)
  · cases h
    exact .ends _ _ (.inl rfl)
  · cases h
    exact .back _ _ _
  · cases h
    exact .turn _ _
  · cases h
    split
    · exact .skips _ _ _ rfl
    · rename_i hpending
      exact .deletes _ _ (Bool.eq_false_iff.mpr hpending)
  · cases h
    exact .skips _ _ _ rfl
  · split at h
    · cases h
      split
      · exact .deleted _ _ _
      · exact .skips _ _ _ rfl
    · cases h
      exact .skips _ _ _ rfl
  · obtain ⟨w, hw, h⟩ := Option.map_eq_some_iff.mp h
    cases h
    exact .judges _ _ _ _ _ w rfl hw
  · cases h
    exact .records _ _ _ _ _
  · cases h
    exact .skips _ _ _ rfl
  · cases h
    exact .releases _ _ _
  · cases h
    exact .skips _ _ _ rfl
  · cases h

theorem act_does (h : act u a t l = some (t', l')) : Does u t a l t' l' := by
  unfold act at h
  split at h
  · split at h
    · rename_i hreq
      cases h
      exact .request _ _ _ _ _ hreq
    · cases h
      exact .ends _ _ (.inr (.inr ⟨_, rfl⟩))
  · cases h
    exact .ends _ _ (.inr (.inr ⟨_, rfl⟩))
  · split at h
    · rename_i hreq
      cases h
      exact .requestDelete _ _ _ _ _ hreq
    · cases h
      exact .ends _ _ (.inr (.inr ⟨_, rfl⟩))
  · cases h
    exact .ends _ _ (.inr (.inr ⟨_, rfl⟩))
  · cases h
    exact .expire _ _
  · cases h
    exact .ends _ _ (.inr (.inl rfl))
  · cases h
    exact .attach _ _
  · cases h
    exact .ends _ _ (.inr (.inl rfl))
  · split at h
    · rename_i hhome
      cases h
      exact .change _ _ fun s hs => beq_iff_eq.mp (all_eq_true.mp hhome s hs)
    · cases h
  · exact actReconciler_does h

end Does

/-! ## 4. What an action keeps -/

/-- The row of a backup that was read is a later version of it. -/
structure Known (b : FlashBackup) : Prop where
  consistent : b.Consistent
  row : ∃ row ∈ t.flashBackups, Later b row

/-- Rows stay. -/
def Grows (t t' : Tables) : Prop := ∀ b ∈ t.flashBackups, ∃ b' ∈ t'.flashBackups, Later b b'

structure At (l : Point) : Prop where
  known : ∀ b ∈ l.batch, Known t b
  phase : ∀ b rest phase status, l = .record b rest phase status → phase = .deleted →
    b.deletedAt.isSome

section Actions
variable {u : Setup} {t t' : Tables} {l l' : Point} {a : Choice} {b : FlashBackup}
  {p : FlashBackup → Bool} {f : FlashBackup → FlashBackup}

theorem Grows.refl (t : Tables) : Grows t t := fun b hb => ⟨b, hb, Later.refl b⟩

theorem Grows.trans {t'' : Tables} (h : Grows t t') (h' : Grows t' t'') : Grows t t'' := by
  intro b hb
  obtain ⟨b', hb', hl⟩ := h b hb
  obtain ⟨b'', hb'', hl'⟩ := h' b' hb'
  exact ⟨b'', hb'', hl.trans hl'⟩

theorem Grows.update (hf : ∀ b ∈ t.flashBackups, p b = true → Later b (f b)) :
    Grows t { t with flashBackups := updateWhere p f t.flashBackups } := by
  intro b hb
  refine ⟨_, mem_map_of_mem hb, ?_⟩
  by_cases hp : p b = true
  · rw [if_pos hp]
    exact hf b hb hp
  · rw [if_neg hp]
    exact Later.refl b

theorem Known.grows (h : Known t b) (hg : Grows t t') : Known t' b := by
  obtain ⟨row, hrow, hl⟩ := h.row
  obtain ⟨row', hrow', hl'⟩ := hg row hrow
  exact ⟨h.consistent, row', hrow', hl.trans hl'⟩

theorem At.grows (h : At t l) (hg : Grows t t') : At t' l :=
  ⟨fun b hb => (h.known b hb).grows hg, h.phase⟩

/-- A call that ends holds nothing. -/
theorem At.ended (t : Tables) (h : l.batch = [])
    (hr : ∀ b rest phase status, l ≠ .record b rest phase status) : At t l := by
  refine ⟨fun b hb => ?_, fun b rest phase status he => absurd he (hr _ _ _ _)⟩
  rw [h] at hb
  cases hb

/-- A phase written is that of a tombstone only if the row was read as one. -/
theorem write_phase {v : Verdict} {w : Phase × Json} {verifiedAt : String}
    (hv : ∀ phase status, v = .reported phase status → phase ≠ .deleted)
    (h : v.write b verifiedAt = some w) (hc : b.Consistent) (hw : w.1 = .deleted) :
    b.deletedAt.isSome := by
  cases v with
  | reported phase status =>
    obtain ⟨_, _, rfl⟩ := Option.map_eq_some_iff.mp h
    exact absurd hw (hv phase status rfl)
  | refused =>
    cases h
    cases hw
  | unavailable =>
    obtain ⟨_, _, rfl⟩ := Option.map_eq_some_iff.mp h
    exact hc.tombstone.mp hw

variable {phase : Phase}

theorem reportedPhase_ne {value : Json} (h : reportedPhase value = some phase) : phase ≠
    .deleted := by
  unfold reportedPhase at h
  split at h <;> cases h <;> exact fun h => Phase.noConfusion h

theorem verdict_phase {lib : ThirdParty} {id : Uuid} {r : Except ProviderError Json} {status : Json}
    (h : verdict lib id r = .reported phase status) : phase ≠ .deleted := by
  unfold verdict at h
  split at h
  · rename_i phase' status' hr
    cases h
    cases r with
    | error => cases hr
    | ok value =>
      have hr : validatedStatus lib id value = .ok (phase, status) := hr
      unfold validatedStatus at hr
      split at hr
      · cases hr
      split at hr
      · cases hr
      rename_i hp
      cases hr
      exact reportedPhase_ne hp
  · split at h <;> cases h
  · cases h

/-- **Recording a status.** -/
theorem update_keeps (now : Time) (status : Json) (hi : t.Inv u.home) (hk : Known t b) (hp : phase =
    .deleted → b.deletedAt.isSome) : (updateFlashBackupStatus now b.id phase status t).Inv u.home ∧
    Grows t (updateFlashBackupStatus now b.id phase status t) := by
  obtain ⟨row, hrow, hl⟩ := hk.row
  refine ⟨hi.update fun c hc hid => ⟨later_record c, ?_⟩, Grows.update fun c _ _ => later_record c⟩
  have he : c = row := hi.unique.eq hc hrow ((beq_iff_eq.mp hid).trans hl.id.symm)
  subst he
  exact consistent_record (hi.consistent c hc) fun hd => hl.deletedAt (hp hd)

theorem release_keeps (now : Time) (id : Uuid) (hi : t.Inv u.home) :
    (releaseFlashBackup now id t).Inv u.home ∧ Grows t (releaseFlashBackup now id t) := by
  refine ⟨hi.update fun c _ hp => ⟨later_release c, ?_⟩, Grows.update fun c _ _ => later_release c⟩
  rw [Bool.and_eq_true] at hp
  exact consistent_release hp.2

theorem turn_at {rest : List FlashBackup} (h : ∀ c ∈ b :: rest, Known t c) :
    At t (b.turn rest) := by
  unfold FlashBackup.turn
  split
  · exact ⟨h, by simp⟩
  · exact ⟨h, by simp⟩

/-- **One action**: the invariant is kept, rows stay, and the call knows what it holds. -/
theorem act_keeps (hi : t.Inv u.home) (hl : At t l) (h : act u a t l = some (t', l')) :
    t'.Inv u.home ∧ Grows t t' ∧ At t' l' := by
  have hdone (t : Tables) : At t .done := At.ended t rfl (by simp)
  have hanswered (t : Tables) (r : Except StoreError FlashBackup) : At t (.answered r) :=
    At.ended t rfl (by simp)
  have hrest {b : FlashBackup} {rest : List FlashBackup} (hb : ∀ c ∈ b :: rest, Known t c)
      (hg : Grows t t') : At t' (.next rest) :=
    ⟨fun c hc => (hb c (mem_cons_of_mem _ hc)).grows hg, by simp⟩
  cases act_does h with
  | ends _ _ hend =>
    refine ⟨hi, Grows.refl t, ?_⟩
    rcases hend with rfl | rfl | ⟨e, rfl⟩
    · exact At.ended t rfl (by simp)
    · exact hdone t
    · exact hanswered t _
  | request _ _ _ _ _ hreq =>
    refine ⟨requestFlashBackupTo_inv hi hreq, ?_, hanswered _ _⟩
    rcases requestFlashBackupTo_spec hreq with ⟨rfl, _⟩ | ⟨rfl, _, _⟩
    · exact Grows.refl _
    · exact fun c hc => ⟨c, mem_append_left _ hc, Later.refl c⟩
  | requestDelete _ _ _ _ _ hreq =>
    rw [requestFlashBackupDelete_spec hreq]
    refine ⟨hi.update fun c hc hp => ⟨later_requestDelete c, ?_⟩,
      Grows.update fun c _ _ => later_requestDelete c, hanswered _ _⟩
    rw [Bool.and_eq_true] at hp
    exact consistent_requestDelete (hi.consistent c hc) hp.2
  | expire =>
    refine ⟨hi.update fun c hc hp => ⟨later_requestDelete c, ?_⟩,
      Grows.update fun c _ _ => later_requestDelete c, hdone _⟩
    exact consistent_requestDelete (hi.consistent c hc) (expired_reserves hi hc hp)
  | attach p =>
    have hlater (c : FlashBackup) :
        Later c { c with scheduleServiceId := some p.serviceInstanceId } :=
      ⟨rfl, rfl, rfl, rfl, rfl, fun h => h, fun h => h⟩
    refine ⟨hi.update fun c hc _ => ⟨hlater c, ?_⟩, Grows.update fun c _ _ => hlater c, hdone _⟩
    have hcons := hi.consistent c hc
    exact ⟨hcons.tombstone, hcons.requested, hcons.deleting⟩
  | change _ _ hhome =>
    exact ⟨{ hi with servicesHome := hhome }, fun c hc => ⟨c, hc, Later.refl c⟩, hdone _⟩
  | reads =>
    refine ⟨hi, Grows.refl t, fun b hb => ?_, by simp⟩
    have hmem := mem_pending hb
    exact ⟨hi.consistent b hmem, b, hmem, Later.refl b⟩
  | back b _ now =>
    have hb := hl.known b mem_cons_self
    obtain ⟨hinv, hg⟩ := update_keeps now b.status hi hb hb.consistent.tombstone.mp
    exact ⟨hinv, hg, turn_at fun c hc => (hl.known c hc).grows hg⟩
  | turn => exact ⟨hi, Grows.refl t, turn_at hl.known⟩
  | deletes | deleted =>
    exact ⟨hi, Grows.refl t, hl.known, by simp⟩
  | skips _ _ _ hb => exact ⟨hi, Grows.refl t, hrest (hb ▸ hl.known) (Grows.refl t)⟩
  | judges _ b _ _ _ _ _ hw =>
    refine ⟨hi, Grows.refl t, hl.known, fun _ _ _ _ he hd => ?_⟩
    cases he
    exact write_phase (fun _ _ => verdict_phase) hw (hl.known b mem_cons_self).consistent hd
  | records b rest phase status now =>
    obtain ⟨hinv, hg⟩ := update_keeps now status hi (hl.known b mem_cons_self)
      (hl.phase b rest phase status rfl)
    exact ⟨hinv, hg, hrest hl.known hg⟩
  | releases b _ now =>
    obtain ⟨hinv, hg⟩ := release_keeps now b.id hi
    exact ⟨hinv, hg, hrest hl.known hg⟩

end Actions

/-! ## 5. Runs -/

section Runs
variable {u : Setup} {t : Tables} {past : List (Event Tables Point Choice)}
  {σ σ' : System Tables Point}

/-- **The table under any number of calls.** -/
theorem outline (u : Setup) : Outline (program u) (fun _ _ _ => True) (fun _ _ => True)
    (·.Inv u.home) At where
  start hs _ := by
    refine At.ended _ ?_ ?_
    · revert hs
      show isStart _ = true → _
      unfold isStart
      split <;> intro h <;> first | rfl | cases h
    · intro b rest phase status he
      rw [he] at hs
      cases hs
  act hi hl _ h := by
    obtain ⟨hi', _, hl'⟩ := act_keeps hi hl h
    exact ⟨hi', hl'⟩
  stable hi hl _ h _ hm := hm.grows (act_keeps hi hl h).2.1

/-- A table without backups; services stay in their organizations. -/
structure Initial (u : Setup) (t : Tables) : Prop where
  none : t.flashBackups = []
  services : ∀ s ∈ t.services, u.home s.id = s.organizationId

theorem Initial.inv (h : Initial u t) : t.Inv u.home := by
  refine ⟨?_, ?_, ?_, ?_, h.services, fun o => ?_, fun o => ?_, fun o s => ?_⟩
  · rw [h.none]
    exact nodup_nil
  · rw [h.none]
    exact nodup_nil
  · rw [h.none]
    exact fun b hb => by cases hb
  · rw [h.none]
    exact fun b hb => by cases hb
  · simp [Tables.count, h.none]
  · simp [Tables.bytes, h.none]
  · simp [Tables.serviceCount, h.none]

section
variable (hr : Run (program u) (System.quiet t) past σ) (h₀ : Initial u t)
include hr h₀

theorem holds_run : Holds (·.Inv u.home) At σ :=
  (outline u).run_any hr (Holds.quiet h₀.inv)

variable {e : Event Tables Point Choice}

theorem holds_passed (he : e ∈ past) : Holds (·.Inv u.home) At e.state := by
  obtain ⟨before, _, _, _, hb, _, _⟩ := hr.split he
  exact holds_run hb h₀

/-- Rows stay along a run. -/
theorem grows_run {later : List (Event Tables Point Choice)} (hl : Run (program u) σ later σ') :
    Grows σ.shared σ'.shared := by
  induction hl with
  | start => exact Grows.refl _
  | step hl hs ih =>
    have h := holds_run (hr.append hl) h₀
    refine ih.trans ?_
    cases hs with
    | start => exact Grows.refl _
    | act i l _ _ _ hi ha => exact (act_keeps h.inv (h.loc i l hi) ha).2.1

/-- Rows of a state passed are still there. -/
theorem grows_from (he : e ∈ past) : Grows e.state.shared σ.shared := by
  obtain ⟨before, after, σ₁, rfl, hb, hs, ha⟩ := hr.split he
  have hstep : Run (program u) e.state [e] σ₁ := Run.start.step hs
  exact grows_run hb h₀ (hstep.append ha)

end

/-- The backups of a service are those of its organization. -/
theorem serviceCount_home (h : t.Inv u.home) (service : Uuid) :
    t.flashBackups.countP (fun b => b.serviceInstanceId == service && b.reserves) =
      t.serviceCount (u.home service) service := by
  refine countP_congr fun b hb => ?_
  have hh := h.backupsHome b hb
  simp only [Bool.and_eq_true, beq_iff_eq]
  constructor
  · rintro ⟨rfl, hr⟩
    exact ⟨⟨hh.symm, hr⟩, rfl⟩
  · rintro ⟨⟨_, hr⟩, hs⟩
    exact ⟨hs, hr⟩

/-- **Backups are absorbed and bounded.** In every state of every run: a row is a tombstone exactly
when `deleted_at` is set; requested deletions and tombstones of earlier states are still there;
organizations and services keep within their quotas; and a request made again returns its row,
which stays as it is, or fails. -/
theorem backups_absorbed (hr : Run (program u) (System.quiet t) past σ) (h₀ : Initial u t) :
    (∀ b ∈ σ.shared.flashBackups, b.phase = .deleted ↔ b.deletedAt.isSome) ∧
    (∀ e ∈ past, ∀ b ∈ e.state.shared.flashBackups, ∃ b' ∈ σ.shared.flashBackups, b'.id = b.id ∧
      (b.deleteRequested → b'.deleteRequested) ∧ (b.phase = .deleted → b'.phase = .deleted)) ∧
    (∀ organization,
      σ.shared.flashBackups.countP
        (fun b => b.organizationId == organization && b.phase != .deleted) ≤ 100 ∧
      ((σ.shared.flashBackups.filter fun b =>
        b.organizationId == organization && b.phase != .deleted).map (·.volumeSizeBytes)).sum ≤
        128 * 1024 ^ 3) ∧
    (∀ service, σ.shared.flashBackups.countP
      (fun b => b.serviceInstanceId == service && b.phase != .deleted) ≤ 10) ∧
    (σ.shared.flashBackups.map fun b => (b.organizationId, b.requestId)).Nodup ∧
    (∀ i q a σ', Step (program u) σ (.act i (.request q) a) σ' →
      ∀ b ∈ σ.shared.flashBackups, b.organizationId = q.organization → b.requestId = q.requestId →
        σ'.shared = σ.shared ∧ (σ'.calls i = some (.answered (.ok b)) ∨
          ∃ e, σ'.calls i = some (.answered (.error e)))) := by
  have h := holds_run hr h₀
  refine ⟨fun b hb => (h.inv.consistent b hb).tombstone, fun e he b hb => ?_,
    fun o => ⟨h.inv.count o, h.inv.bytes o⟩, fun service => ?_, h.inv.requests,
    fun i q a σ' hs b hb ho hq => ?_⟩
  · -- a row of an earlier state
    obtain ⟨b', hmem, hl⟩ := grows_from hr h₀ he b hb
    have hb₀ := (holds_passed hr h₀ he).inv.consistent b hb
    exact ⟨b', hmem, hl.id, hl.deleteRequested, hl.deleted hb₀ (h.inv.consistent b' hmem)⟩
  · have heq := serviceCount_home h.inv service
    unfold FlashBackup.reserves at heq
    rw [heq]
    exact h.inv.serviceCount _ _
  cases hs with
  | act _ _ _ s l' _ ha =>
    have ha : act u a σ.shared (.request q) = some (s, l') := ha
    rw [System.set_same]
    cases a with
    | call now id =>
      simp only [act] at ha
      rcases requestFlashBackupTo_again now id h.inv hb ho hq with he | ⟨e, he⟩
      · rw [he] at ha
        cases ha
        exact ⟨rfl, .inl rfl⟩
      · rw [he] at ha
        cases ha
        exact ⟨rfl, .inr ⟨e, rfl⟩⟩
    | fail =>
      cases ha
      exact ⟨rfl, .inr ⟨_, rfl⟩⟩
    | answer | change => cases ha

end Runs

/-! ## 6. A run -/

/-- One organization; identifiers have no text. -/
def oneOrganization : Setup := ⟨noLibrary, fun _ => 1⟩

/-- A Flash service with a disk. -/
def oneService : Tables where
  services := [⟨10, 1, 2, "db", .flash {
    region := "jp", image := "postgres", replicas := 1, cpuMillis := 100, memoryMib := 128,
    persistentStorageGib := some 5, ports := [], exposure := ⟨.internal, .forwarded, .ip, [], [],
    none⟩ }, 1, .ready, .object [], none⟩]
  destinations := []
  flashBackups := []

/-- A request for a backup of that service. -/
def oneRequest : BackupRequest :=
  ⟨1, 10, 20, 30, "nightly", 5368709120, "pvc", none, 1, none⟩

theorem oneService_initial : Initial oneOrganization oneService :=
  ⟨rfl, fun s hs => by rw [mem_singleton.mp hs]; rfl⟩

/-- A request, made twice, and a deletion. -/
theorem backups_absorbed_nightly : ∃ past σ,
    Run (program oneOrganization) (System.quiet oneService) past σ ∧
    σ.shared.flashBackups.map (·.phase) = [.deleting] ∧
    ∀ service, σ.shared.flashBackups.countP
      (fun b => b.serviceInstanceId == service && b.phase != .deleted) ≤ 10 := by
  obtain ⟨trail, m, hr, hc⟩ := play_any (program oneOrganization) oneService
    [.start (.request oneRequest), .act 0 (.call 5 40), .start (.request oneRequest),
      .act 1 (.call 6 41), .start (.requestDelete 1 40), .act 2 (.call 7 42)]
    (fun x => x.2.shared.flashBackups.map (·.phase) == [.deleting]) (by decide +kernel)
  exact ⟨_, _, hr, beq_iff_eq.mp hc, (backups_absorbed hr oneService_initial).2.2.2.1⟩

end HeteroCloud.Backups
