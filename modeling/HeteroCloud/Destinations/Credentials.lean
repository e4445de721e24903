/-
  File:      Destinations/Credentials.lean
  Subject:   BACKUP DESTINATIONS and their credentials (migrations/0034, crates/heterocloud-store/
             src/flash_backup_destinations.rs, crates/heterocloud-api/src/
             flash_backup_destination_routes.rs, flash_backups.rs): the key pair of a destination is
             given to the secret manager and then to the provider.

  `apply` holds an advisory lock of the destination from before the first of the two calls to its
  end. A call that fails has no effect on the system called; an answer that cannot be read may come
  from a call that had its effect. What a destination may look like is left to `Setup.validate`.
-/
import HeteroCloud.Api.Authorize
import HeteroCloud.Base.Atomic

namespace HeteroCloud.Destinations

open Base.Atomic Iam List
open Api (ApiError)
open Base (Json UniqueKey updateWhere orderBy)
open Store (StoreError)

/-! ## 1. Rows and store calls -/

inductive DestinationState where
  | pending
  | ready
  | error
  deriving DecidableEq, Repr

/-- `flash_backup_destinations`. -/
structure FlashBackupDestination where
  id : Uuid
  organizationId : Uuid
  principalId : Uuid
  requestId : Uuid
  name : String
  endpoint : String
  bucket : String
  region : String
  bucketPrefix : String
  virtualHosted : Bool
  state : DestinationState := .pending
  createdAt : Nat
  updatedAt : Nat
  deriving DecidableEq, Repr

structure Credentials where
  accessKey : String
  secretKey : String
  deriving DecidableEq, Repr

structure NewFlashBackupDestination where
  name : String
  requestId : Uuid
  endpoint : String
  bucket : String
  region : String
  bucketPrefix : String := ""
  virtualHosted : Bool := false
  credentials : Credentials
  deriving DecidableEq

structure World where
  flashBackupDestinations : List FlashBackupDestination
  /-- What the secret manager took for each destination, newest first. -/
  secrets : List (Uuid × Credentials)
  /-- The pairs in the `PUT`s the provider accepted, newest first. -/
  accepted : List (Uuid × Credentials)

/-- The newest pair of a destination. -/
def newest (log : List (Uuid × Credentials)) (id : Uuid) : Option Credentials :=
  (log.find? fun e => e.1 == id).map (·.2)

def FlashBackupDestination.conflicts (d : FlashBackupDestination) (principal : Uuid)
    (input : NewFlashBackupDestination) : Bool :=
  d.principalId != principal || d.name != input.name || d.endpoint != input.endpoint ||
    d.bucket != input.bucket || d.region != input.region ||
    d.bucketPrefix != input.bucketPrefix || d.virtualHosted != input.virtualHosted

variable (now : Nat)

def NewFlashBackupDestination.row (input : NewFlashBackupDestination) (now : Nat)
    (id organization principal : Uuid) : FlashBackupDestination where
  id := id
  organizationId := organization
  principalId := principal
  requestId := input.requestId
  name := input.name
  endpoint := input.endpoint
  bucket := input.bucket
  region := input.region
  bucketPrefix := input.bucketPrefix
  virtualHosted := input.virtualHosted
  createdAt := now
  updatedAt := now

variable (w : World)

/-- `reserve_flash_backup_destination`. The last check is the primary key. -/
def reserveFlashBackupDestination (id organization principal : Uuid) (input :
    NewFlashBackupDestination) (w : World) : Except StoreError (World × FlashBackupDestination) :=
  match w.flashBackupDestinations.find? fun d =>
    d.organizationId == organization && d.requestId == input.requestId with
  | some existing =>
      if existing.conflicts principal input then .error .conflict else .ok (w, existing)
  | none =>
    if 20 ≤ w.flashBackupDestinations.countP fun d => d.organizationId == organization then
      .error (.requestRejected "At most 20 backup destinations per organization.")
    else if w.flashBackupDestinations.any fun d =>
        d.organizationId == organization && d.name == input.name then .error .conflict
    else if w.flashBackupDestinations.any fun d => d.id == id then .error (.sql true)
    else
      let row := input.row now id organization principal
      .ok ({ w with flashBackupDestinations := w.flashBackupDestinations ++ [row] }, row)

/-- `flash_backup_destination`. -/
def flashBackupDestination (organization id : Uuid) (w : World) :
    Except StoreError FlashBackupDestination :=
  match w.flashBackupDestinations.find? fun d =>
    d.organizationId == organization && d.id == id with
  | some d => .ok d
  | none => .error .notFound

/-- `flash_backup_destinations_to_refresh`; rows of the same time come in the table's order. -/
def flashBackupDestinationsToRefresh : List FlashBackupDestination :=
  (orderBy (·.updatedAt) w.flashBackupDestinations).take 32

def FlashBackupDestination.became (ready : Bool) (d : FlashBackupDestination) :
    FlashBackupDestination :=
  { d with state := if ready then .ready else .pending, updatedAt := now }

/-- `refresh_flash_backup_destination`: only if the row has not been updated since. -/
def refreshFlashBackupDestination (seen : FlashBackupDestination) (ready : Option Bool) (w : World)
    : World :=
  { w with
    flashBackupDestinations :=
      updateWhere (fun d => d.organizationId == seen.organizationId && d.id == seen.id &&
          d.updatedAt == seen.updatedAt)
        (fun d =>
          { d with
            state := ready.elim d.state fun r => if r then .ready else .pending
            updatedAt := now }) w.flashBackupDestinations }

/-! ## 2. The program -/

structure Setup where
  lib : ThirdParty
  /-- `validate`: the message of a refusal. -/
  validate : NewFlashBackupDestination → Option String

inductive ProviderError where
  | providerStatus (code : Nat)
  | other
  deriving DecidableEq, Repr

/-- Whether a text has no control character is the library's. -/
def credentialValid (value : String) : Bool :=
  value != "" && value.utf8ByteSize ≤ 4096 &&
    value.toList.all fun c => !(c.val < 32 || (127 ≤ c.val && c.val < 160))

variable (lib : ThirdParty) (value : Json)

/-- The answer names the destination. -/
def answersFor (organization id : Uuid) : Bool :=
  (value.index "id").asString == some (lib.uuidText id) &&
    (value.index "organization_id").asString == some (lib.uuidText organization)

def verifiedReady (organization id : Uuid) : Except ApiError Bool :=
  if !answersFor lib value organization id then .error .flashProviderUnavailable
  else match (value.index "ready").asBool with
  | some ready => .ok ready
  | none => .error .flashProviderUnavailable

def putError : ProviderError → ApiError
  | .providerStatus 400 => .badRequest "Invalid S3 destination."
  | .providerStatus 409 => .conflict
  | _ => .flashProviderUnavailable

/-- What `apply` works with. -/
structure Applying where
  organization : Uuid
  principal : Uuid
  destination : FlashBackupDestination
  credentials : Credentials

inductive Point where
  | create (organization principal : Uuid) (input : NewFlashBackupDestination)
  | rotateCredentials (organization principal id : Uuid) (credentials : Credentials)
  | apply (q : Applying)
  /-- Under the lock, before the secret manager is called. -/
  | store (q : Applying)
  /-- The secret manager has the pair. -/
  | put (q : Applying)
  | record (q : Applying) (ready : Bool)
  | refresh
  | get (seen : FlashBackupDestination)
  | refreshed (seen : FlashBackupDestination) (ready : Option Bool)
  | answered (result : Except ApiError FlashBackupDestination)
  | done

inductive Choice where
  /-- The store is called at `now`; a new row takes the id. -/
  | call (now : Nat) (id : Uuid)
  /-- A row of the batch to refresh. -/
  | pick (n : Nat)
  | fail (error : ApiError)
  /-- The secret manager takes the pair. -/
  | stored
  /-- The provider answers: whether it accepted the call, and the answer. -/
  | answer (accepted : Bool) (response : Except ProviderError Json)

variable (u : Setup)

/-- `apply`. Its transaction is begun, and its lock taken, in the first action. -/
def actApply (w : World) : Point → Choice → Option (World × Point)
  | .apply q, .call _ _ =>
      if !credentialValid q.credentials.accessKey || !credentialValid q.credentials.secretKey then
        some (w, .answered (.error (.badRequest "Invalid S3 credentials.")))
      else some (w, .store q)
  | .apply _, .fail error => some (w, .answered (.error error))
  | .store q, .stored =>
      some ({ w with secrets := (q.destination.id, q.credentials) :: w.secrets }, .put q)
  | .store _, .fail error => some (w, .answered (.error error))
  | .put q, .answer accepted response =>
      let w' := if accepted then
        { w with accepted := (q.destination.id, q.credentials) :: w.accepted } else w
      match response with
      | .error error => some (w', .answered (.error (putError error)))
      | .ok value =>
          if !accepted then none
          else match verifiedReady u.lib value q.organization q.destination.id with
          | .error error => some (w', .answered (.error error))
          | .ok ready => some (w', .record q ready)
  | .put _, .fail error => some (w, .answered (.error error))
  | .record q ready, .call now _ =>
      let sel (d : FlashBackupDestination) :=
        d.organizationId == q.organization && d.id == q.destination.id
      match w.flashBackupDestinations.find? sel with
      | none => some (w, .answered (.error .notFound))
      | some d => some ({ w with
          flashBackupDestinations :=
            updateWhere sel (·.became now ready) w.flashBackupDestinations },
          .answered (.ok (d.became now ready)))
  | .record _ _, .fail error => some (w, .answered (.error error))
  | _, _ => none

def act (a : Choice) (w : World) (l : Point) : Option (World × Point) :=
  match l, a with
  | .create o p input, .call now id =>
      match u.validate input with
      | some message => some (w, .answered (.error (.badRequest message)))
      | none =>
        match reserveFlashBackupDestination now id o p input w with
        | .error e => some (w, .answered (.error (.fromStore e)))
        | .ok (w', d) => some (w', .apply ⟨o, p, d, input.credentials⟩)
  | .create _ _ _, .fail error => some (w, .answered (.error error))
  | .rotateCredentials o p id credentials, .call _ _ =>
      match flashBackupDestination o id w with
      | .error e => some (w, .answered (.error (.fromStore e)))
      | .ok d => some (w, .apply ⟨o, p, d, credentials⟩)
  | .rotateCredentials _ _ _ _, .fail error => some (w, .answered (.error error))
  | .refresh, .pick n => ((flashBackupDestinationsToRefresh w)[n]?).map fun d => (w, .get d)
  | .get seen, .answer _ response =>
      let ready := match response with
        | .ok value => if answersFor u.lib value seen.organizationId seen.id then
            (value.index "ready").asBool else none
        | .error _ => none
      some (w, .refreshed seen ready)
  | .refreshed seen ready, .call now _ =>
      some (refreshFlashBackupDestination now seen ready w, .done)
  | .refreshed _ _, .fail _ => some (w, .done)
  | l, a => actApply u w l a

def isStart : Point → Bool
  | .create _ _ _ | .rotateCredentials _ _ _ _ | .refresh => true
  | _ => false

/-- The destination whose lock is held. -/
def locks : Point → List Uuid
  | .store q | .put q | .record q _ => [q.destination.id]
  | _ => []

def program : Program World Point Choice Uuid where
  start := isStart
  locks := locks
  act := act u

/-! ## 3. The two copies of a pair -/

/-- The call is between the secret manager and the provider, for this destination. -/
def Point.between (id : Uuid) : Point → Bool
  | .put q => q.destination.id == id
  | _ => false

/-- An `apply` that the secret manager has served is served by the provider as well. -/
def Completes (_ : World) : Point → Choice → Prop
  | .put _, .answer accepted _ => accepted = true
  | .put _, .fail _ => False
  | _, _ => True

def Agree (id : Uuid) : Prop := newest w.secrets id = newest w.accepted id

section Pairs
variable {u : Setup} {w w' : World} {l l' : Point} {a : Choice} {σ σ' : System World Point}
  {past : List (Event World Point Choice)}

theorem newest_cons (log : List (Uuid × Credentials)) (id k : Uuid) (c : Credentials) :
    newest ((id, c) :: log) k = if id = k then some c else newest log k := by
  unfold newest
  by_cases h : id = k
  · simp [h]
  · simp [h]

/-- **What an action does to the two copies.** -/
inductive Writes (w w' : World) (l l' : Point) (a : Choice) : Prop where
  | nothing (hs : w'.secrets = w.secrets) (ha : w'.accepted = w.accepted)
      (hl : ∀ q, l = .put q → ¬ Completes w l a) (hn : ∀ id, l'.between id = false)
  | stored (q : Applying) (hl : l = .store q) (hl' : l' = .put q)
      (hs : w'.secrets = (q.destination.id, q.credentials) :: w.secrets)
      (ha : w'.accepted = w.accepted)
  | accepted (q : Applying) (hl : l = .put q) (hs : w'.secrets = w.secrets)
      (ha : w'.accepted = (q.destination.id, q.credentials) :: w.accepted)
      (hn : ∀ id, l'.between id = false)

theorem Writes.idle (hs : w'.secrets = w.secrets := by rfl) (ha : w'.accepted = w.accepted := by rfl)
    (hl : ∀ q, l ≠ .put q := by simp) (hn : ∀ id, l'.between id = false := by exact fun _ => rfl) :
    Writes w w' l l' a := .nothing hs ha (fun q he => absurd he (hl q)) hn

theorem actApply_writes (h : actApply u w l a = some (w', l')) : Writes w w' l l' a := by
  unfold actApply at h
  split at h
  · split at h
    · cases h
      exact .idle
    · cases h
      exact .idle
  · cases h
    exact .idle
  · rename_i q
    cases h
    exact .stored q rfl rfl rfl rfl
  · cases h
    exact .idle
  · rename_i q accepted response
    dsimp only at h
    cases accepted with
    | true =>
      have hdone {p : Point} (hp : ∀ id, p.between id = false) : Writes w
          { w with accepted := (q.destination.id, q.credentials) :: w.accepted } (.put q) p
          (.answer true response) := .accepted q rfl rfl rfl hp
      rw [if_pos rfl] at h
      split at h
      · cases h
        exact hdone fun _ => rfl
      split at h
      · cases h
      split at h
      · cases h
        exact hdone fun _ => rfl
      · cases h
        exact hdone fun _ => rfl
    | false =>
      rw [if_neg Bool.false_ne_true] at h
      split at h
      · cases h
        exact .nothing rfl rfl (fun _ _ hc => Bool.noConfusion hc) fun _ => rfl
      · cases h
  · cases h
    exact .nothing rfl rfl (fun _ _ hc => hc) fun _ => rfl
  · dsimp only at h
    split at h
    · cases h
      exact .idle
    · cases h
      exact .idle
  · cases h
    exact .idle
  · cases h

theorem reserve_copies {now : Nat} {id o p : Uuid} {input : NewFlashBackupDestination}
    {d : FlashBackupDestination}
    (h : reserveFlashBackupDestination now id o p input w = .ok (w', d)) :
    w'.secrets = w.secrets ∧ w'.accepted = w.accepted := by
  unfold reserveFlashBackupDestination at h
  split at h
  · split at h
    · cases h
    · cases h
      exact ⟨rfl, rfl⟩
  split at h
  · cases h
  split at h
  · cases h
  split at h
  · cases h
  · cases h
    exact ⟨rfl, rfl⟩

theorem act_writes (h : act u a w l = some (w', l')) : Writes w w' l l' a := by
  unfold act at h
  split at h
  · split at h
    · cases h
      exact .idle
    split at h
    · cases h
      exact .idle
    rename_i hres
    cases h
    obtain ⟨hs, ha⟩ := reserve_copies hres
    exact .idle hs ha
  · cases h
    exact .idle
  · split at h
    · cases h
      exact .idle
    · cases h
      exact .idle
  · cases h
    exact .idle
  · obtain ⟨d, _, h⟩ := Option.map_eq_some_iff.mp h
    cases h
    exact .idle
  · cases h
    exact .idle
  · cases h
    exact .idle
  · cases h
    exact .idle
  · exact actApply_writes h

/-- **The state of the two copies**: they agree, or one call is between the two and the secret
manager has its pair. -/
structure Copies (σ : System World Point) : Prop where
  agree : ∀ id, (∀ i l, σ.calls i = some l → l.between id = false) → Agree σ.shared id
  pair : ∀ i q, σ.calls i = some (.put q) →
    newest σ.shared.secrets q.destination.id = some q.credentials

/-- A pair given for another destination. -/
theorem newest_other {log : List (Uuid × Credentials)} {id k : Uuid} {c : Credentials}
    (h : id ≠ k) : newest ((id, c) :: log) k = newest log k := by
  rw [newest_cons, if_neg h]

/-- The calls of the state before, from those after, but for the one that acts. -/
theorem between_before {s : World} {i : Nat} {id : Uuid} (hi : σ.calls i = some l)
    (hl : l.between id = false)
    (h : ∀ j m, (σ.set s i l').calls j = some m → m.between id = false) :
    ∀ j m, σ.calls j = some m → m.between id = false := by
  intro j m hj
  by_cases e : j = i
  · subst e
    rw [hi] at hj
    cases hj
    exact hl
  · exact h j m (by rw [System.set_other e]; exact hj)

/-- A call that comes to hold a pair, after an action that leads elsewhere. -/
theorem put_before {s : World} {i j : Nat} {q : Applying} (hn : ∀ id, l'.between id = false)
    (hj : (σ.set s i l').calls j = some (.put q)) : σ.calls j = some (.put q) := by
  by_cases e : j = i
  · subst e
    rw [System.set_same] at hj
    cases hj
    have := hn q.destination.id
    simp [Point.between] at this
  · rwa [System.set_other e] at hj

/-- **One step.** -/
theorem Copies.step (h : Copies σ) {label : Label Point Choice}
    (hok : (⟨σ, label⟩ : Event World Point Choice).Admits Completes)
    (hs : Step (program u) σ label σ') : Copies σ' := by
  cases hs with
  | start i l hi hstart =>
    have hnone (id : Uuid) : l.between id = false := by
      cases l <;> first | rfl | cases hstart
    refine ⟨fun id hb => h.agree id fun j m hj => ?_, fun j q hj => h.pair j q (put_before hnone hj)⟩
    by_cases e : j = i
    · subst e
      rw [hi] at hj
      cases hj
    · exact hb j m (by rw [System.set_other e]; exact hj)
  | act i l a s _ hi ha hf =>
    cases act_writes ha with
    | nothing hsec hacc hl hn =>
      have hquiet (id : Uuid) : l.between id = false := by
        cases l with
        | put q => exact absurd hok (hl q rfl)
        | _ => rfl
      refine ⟨fun id hb => ?_, fun j q hj => ?_⟩
      · have hagree := h.agree id (between_before hi (hquiet id) hb)
        unfold Agree at hagree ⊢
        show newest s.secrets id = newest s.accepted id
        rw [hsec, hacc]
        exact hagree
      · show newest s.secrets _ = _
        rw [hsec]
        exact h.pair j q (put_before hn hj)
    | stored q hl hl' hsec hacc =>
      subst hl hl'
      refine ⟨fun id hb => ?_, fun j q₂ hj => ?_⟩
      · have hne : q.destination.id ≠ id := by
          intro he
          have := hb i _ (System.set_same _ _ _ _)
          simp [Point.between, he] at this
        have hagree := h.agree id (between_before hi rfl hb)
        unfold Agree at hagree ⊢
        show newest s.secrets id = newest s.accepted id
        rw [hsec, hacc, newest_other hne]
        exact hagree
      · show newest s.secrets _ = _
        rw [hsec]
        by_cases e : j = i
        · subst e
          rw [System.set_same] at hj
          cases hj
          rw [newest_cons, if_pos rfl]
        rw [System.set_other e] at hj
        -- both would hold the lock
        have hne : q.destination.id ≠ q₂.destination.id := by
          intro he
          refine hf j _ e hj (a := q.destination.id) mem_cons_self ?_
          rw [he]
          exact mem_cons_self
        rw [newest_other hne]
        exact h.pair j q₂ hj
    | accepted q hl hsec hacc hn =>
      subst hl
      refine ⟨fun id hb => ?_, fun j q₂ hj => ?_⟩
      · unfold Agree
        show newest s.secrets id = newest s.accepted id
        rw [hsec, hacc]
        by_cases he : q.destination.id = id
        · subst he
          rw [newest_cons, if_pos rfl]
          exact h.pair i q hi
        · rw [newest_other he]
          exact h.agree id (between_before hi (by simp [Point.between, he]) hb)
      · show newest s.secrets _ = _
        rw [hsec]
        exact h.pair j q₂ (put_before hn hj)

end Pairs

/-! ## 4. Runs -/

/-- The two copies agree to begin with. -/
def Initial : Prop := ∀ id, Agree w id

section Runs
variable {u : Setup} {w : World} {σ : System World Point}
  {past : List (Event World Point Choice)}

theorem copies_run (hr : Run (program u) (System.quiet w) past σ) (h₀ : Initial w)
    (hok : ∀ e ∈ past, e.Admits Completes) : Copies σ := by
  induction hr with
  | start => exact ⟨fun id _ => h₀ id, fun i q hi => by cases hi⟩
  | step _ hs ih =>
    have hrest := ih fun e he => hok e (mem_cons_of_mem _ he)
    exact hrest.step (hok _ mem_cons_self) hs

/-- `apply` runs for the destination. -/
def Point.applies (id : Uuid) : Point → Bool
  | .apply q | .store q | .put q | .record q _ => q.destination.id == id
  | _ => false

/-- **The two copies of a pair.** If no `apply` ends between the acceptance of its pair by the secret
manager and by the provider, then in every state of the run: for a destination for which no `apply`
is running, ready or not, the secret manager holds the pair of the last `PUT` the provider
accepted. -/
theorem credentials_agree (hr : Run (program u) (System.quiet w) past σ) (h₀ : Initial w)
    (hok : ∀ e ∈ past, e.Admits Completes) (d : FlashBackupDestination)
    (hidle : ∀ i l, σ.calls i = some l → l.applies d.id = false) :
    newest σ.shared.secrets d.id = newest σ.shared.accepted d.id := by
  refine (copies_run hr h₀ hok).agree d.id fun i l hi => ?_
  have hap := hidle i l hi
  cases l with
  | put => exact hap
  | _ => rfl

end Runs

/-! ## 5. Two runs -/

def demo : Setup := ⟨noLibrary, fun _ => none⟩

def nothing : World := ⟨[], [], []⟩

theorem nothing_initial : Initial nothing := fun _ => rfl

/-- A destination with the pair `a`/`b`. -/
def newDestination : NewFlashBackupDestination :=
  { name := "offsite", requestId := 30, endpoint := "https://s3.example.org", bucket := "backups"
    region := "jp", credentials := ⟨"a", "b"⟩ }

/-- The provider accepts and reports that the destination is ready. -/
def readyAnswer : Choice :=
  .answer true (.ok (.object
    [("id", .string ""), ("organization_id", .string ""), ("ready", .bool true)]))

/-- The destination is created. -/
def creates : List (Move Point Choice) :=
  [.start (.create 1 20 newDestination), .act 0 (.call 5 40), .act 0 (.call 6 0), .act 0 .stored,
    .act 0 readyAnswer, .act 0 (.call 7 0)]

/-- Its pair is rotated to `c`/`d`, and the secret manager takes it. -/
def rotates : List (Move Point Choice) :=
  [.start (.rotateCredentials 1 20 40 ⟨"c", "d"⟩), .act 1 (.call 8 0), .act 1 (.call 9 0),
    .act 1 .stored]

/-- A request to put a pair is answered, and accepted. -/
def putAccepted : Label Point Choice → Bool
  | .act _ (.put _) (.answer accepted _) => accepted
  | .act _ (.put _) _ => false
  | _ => true

/-- A destination is created and its pair rotated. -/
theorem credentials_agree_rotated : ∃ past σ, Run (program demo) (System.quiet nothing) past σ ∧
    newest σ.shared.secrets 40 = some ⟨"c", "d"⟩ ∧
    newest σ.shared.accepted 40 = some ⟨"c", "d"⟩ := by
  obtain ⟨trail, m, hr, hc⟩ := play_any (program demo) nothing
    (creates ++ rotates ++ [.act 1 readyAnswer, .act 1 (.call 10 0)])
    (fun x => newest x.2.shared.secrets 40 == some ⟨"c", "d"⟩ &&
      x.2.calls.all (fun l => !l.applies 40) && x.1.all fun y => putAccepted y.2)
    (by decide +kernel)
  simp only [Bool.and_eq_true, beq_iff_eq] at hc
  obtain ⟨⟨hnew, hidle⟩, hall⟩ := hc
  have hagree := credentials_agree hr nothing_initial (fun e he => ?_)
    (newDestination.row 5 40 1 20) fun i l hi => ?_
  · exact ⟨_, _, hr, hnew, hagree ▸ hnew⟩
  · obtain ⟨y, hy, rfl⟩ := mem_map.mp he
    have hy := all_eq_true.mp hall y hy
    unfold Event.Admits
    split
    · exact trivial
    rename_i hlabel
    have hlabel : y.2 = _ := hlabel
    rw [hlabel] at hy
    unfold Completes
    split
    · exact hy
    · cases hy
    · exact trivial
  · have := all_eq_true.mp hidle l (mem_of_getElem? hi)
    simpa [newDestination, NewFlashBackupDestination.row] using this

/-- **The provider refuses the new pair after the secret manager took it**: the call ends, the row
stays ready, and the two hold different pairs. -/
theorem credentials_differ : ∃ w past σ, Initial w ∧ Run (program demo) (System.quiet w) past σ ∧
    ∃ d ∈ σ.shared.flashBackupDestinations, d.state = .ready ∧
      (∀ i l, σ.calls i = some l → l.applies d.id = false) ∧
      newest σ.shared.secrets d.id ≠ newest σ.shared.accepted d.id := by
  obtain ⟨trail, m, hr, hc⟩ := play_any (program demo) nothing
    (creates ++ rotates ++ [.act 1 (.answer false (.error (.providerStatus 503)))])
    (fun x => x.2.shared.flashBackupDestinations.any fun d => d.state == .ready &&
      x.2.calls.all (fun l => !l.applies d.id) &&
      newest x.2.shared.secrets d.id != newest x.2.shared.accepted d.id)
    (by decide +kernel)
  obtain ⟨d, hd, hc⟩ := any_eq_true.mp hc
  simp only [Bool.and_eq_true, beq_iff_eq, bne_iff_ne] at hc
  obtain ⟨⟨hready, hidle⟩, hne⟩ := hc
  refine ⟨nothing, _, _, nothing_initial, hr, d, hd, hready, fun i l hi => ?_, hne⟩
  have := all_eq_true.mp hidle l (mem_of_getElem? hi)
  simpa using this

end HeteroCloud.Destinations
