/-
  File:      Backups/Scheduler.lean
  Subject:   SCHEDULED BACKUPS (crates/heterocloud-api/src/flash_operations.rs): the schedulers of
             several replicas beside everything that writes the tables of backups and policies.

  A scheduler claims policies and goes through them: it asks for a backup under an id that is a hash
  of the service and of the second it is scheduled for, and gives the policy back. A call may fail,
  and it may be made although its answer is lost; a scheduler that stops for good takes no action
  any more. Transactions begin before they act, at different times.
-/
import HeteroCloud.Backups.Policies
import HeteroCloud.Backups.Reconciler

namespace HeteroCloud.Backups.Scheduler

open Base.Atomic Iam Services List
open Base (Json UniqueKey updateWhere)
open Store (StoreError)

/-! ## 1. The program -/

structure State where
  tables : Tables
  policies : List FlashBackupPolicy
  /-- The time. -/
  clock : Time

structure Setup extends Backups.Setup where
  /-- The first 16 bytes of the SHA-256 hash of a text. -/
  digest : String → Uuid
  /-- `%Y%m%d-%H%M%S`. -/
  formatTime : Time → String

/-- The service and its disk, as the provider describes it. -/
structure Source where
  generation : Nat
  volumeSizeBytes : Int
  sourcePvcUid : String
  resolvedImage : Option String

/-- `Value::as_i64`. -/
def asI64 (value : Json) : Option Int :=
  value.asInt.filter fun n => decide (-(i64Max : Int) - 1 ≤ n ∧ n ≤ i64Max)

def sourceOf (generation : Nat) (observed : Json) : Option Source := do
  let volumeSizeBytes ← asI64 (observed.index "volume_size_bytes")
  let sourcePvcUid ← (observed.index "source_pvc_uid").asString
  return ⟨generation, volumeSizeBytes, sourcePvcUid, (observed.index "resolved_image").asString⟩

/-- The second a policy is scheduled for. -/
def timestamp (p : FlashBackupPolicy) : Nat := p.nextRunAt / second

variable (u : Setup) (service : Uuid)

def Setup.requestId (timestamp : Nat) : Uuid :=
  u.digest (u.lib.uuidText service ++ ":" ++ toString timestamp)

def Setup.request (p : FlashBackupPolicy) (source : Source) : BackupRequest where
  organization := p.organizationId
  service := p.serviceInstanceId
  principal := p.principalId
  requestId := u.requestId p.serviceInstanceId (timestamp p)
  name := "scheduled-" ++ u.formatTime p.nextRunAt
  volumeSizeBytes := source.volumeSizeBytes
  sourcePvcUid := source.sourcePvcUid
  resolvedImage := source.resolvedImage
  expectedGeneration := source.generation
  destination := p.destinationId

inductive Point where
  /-- A call of `Backups.program`. -/
  | backups (l : Backups.Point)
  | put (q : PolicyEdit)
  | putWrite (q : PolicyEdit)
  | runNow (organization service : Uuid)
  /-- Waits for the next tick. -/
  | scheduler
  -- `run_backup_policy`
  | permission (p : FlashBackupPolicy) (rest : List FlashBackupPolicy)
  | source (p : FlashBackupPolicy) (rest : List FlashBackupPolicy)
  | observe (p : FlashBackupPolicy) (rest : List FlashBackupPolicy) (generation : Nat)
  | request (p : FlashBackupPolicy) (rest : List FlashBackupPolicy) (source : Source)
  | attach (p : FlashBackupPolicy) (rest : List FlashBackupPolicy) (id : Uuid)
  | finish (p : FlashBackupPolicy) (rest : List FlashBackupPolicy) (backup : Option Uuid)
      (error : Option String)
  /-- Time passes. -/
  | time
  | answered (result : Except StoreError Unit)

inductive Choice where
  | backups (a : Backups.Choice)
  /-- The call is made by a transaction that began at `now`; a new row takes the id, and the rows of
  `skip` are locked. -/
  | call (now : Time) (id : Uuid) (skip : List Uuid)
  /-- It is made, but its answer is lost. -/
  | lost (now : Time) (id : Uuid) (skip : List Uuid)
  | fail
  | permit (allowed : Bool)
  | answer (response : Option Json)
  | tick (clock : Time)

/-- The loop over the claimed policies. -/
def nextPolicy : List FlashBackupPolicy → Point
  | [] => .scheduler
  | p :: rest => .permission p rest

/-- What a store call does, and where its answer leads. -/
def calls (now : Time) (id : Uuid) (skip : List Uuid) (s : State) :
    Point → Option (State × Point)
  | .put q => some (s, match q.check s.tables with
      | some e => .answered (.error e)
      | none => .putWrite q)
  | .putWrite q =>
      match putFlashBackupPolicy now q s.tables s.policies with
      | .ok ps => some ({ s with policies := ps }, .answered (.ok ()))
      | .error e => some (s, .answered (.error e))
  | .runNow organization service =>
      match runFlashBackupPolicyNow now organization service s.policies with
      | .ok ps => some ({ s with policies := ps }, .answered (.ok ()))
      | .error e => some (s, .answered (.error e))
  | .scheduler =>
      let r := claimBackupPolicies now skip s.tables s.policies
      some ({ s with policies := r.1 }, nextPolicy r.2)
  | .source p rest => some (s,
      match s.tables.source p.organizationId p.serviceInstanceId with
      | some (row, _) => .observe p rest row.generation
      | none => .finish p rest none (some "backup_source_unavailable"))
  | .request p rest source =>
      match requestFlashBackupTo now id (u.request p source) s.tables with
      | .ok (t, b) => some ({ s with tables := t }, .attach p rest b.id)
      | .error _ => some (s, .finish p rest none (some "backup_quota_or_source_unavailable"))
  | .attach p rest id =>
      some ({ s with tables := attachScheduledBackup p.retention id s.tables },
        .finish p rest (some id) none)
  | .finish p rest backup error =>
      some ({ s with policies := finishBackupPolicy now p backup error s.policies },
        nextPolicy rest)
  | _ => none

/-- Where a store call without an answer leads. -/
def failed : Point → Option Point
  | .put _ | .putWrite _ | .runNow _ _ => some (.answered (.error (.sql false)))
  | .scheduler => some .scheduler
  | .source p rest => some (.finish p rest none (some "backup_source_unavailable"))
  | .request p rest _ => some (.finish p rest none (some "backup_quota_or_source_unavailable"))
  | .attach p rest _ => some (.finish p rest none (some "backup_storage_unavailable"))
  | .finish _ rest _ _ => some (nextPolicy rest)
  | _ => none

/-- What the answers of the authorizer and of the provider lead to. -/
def answers : Point → Choice → Option Point
  | .permission p rest, .permit allowed => some (if allowed then .source p rest
      else .finish p rest none (some "backup_permission_revoked"))
  | .observe p rest generation, .answer response => some (
      match response.bind (sourceOf generation) with
      | some source => .request p rest source
      | none => .finish p rest none (some "backup_source_unavailable"))
  | _, _ => none

def act (u : Setup) (a : Choice) (s : State) (l : Point) : Option (State × Point) :=
  match l, a with
  | .backups l, .backups a =>
      (Backups.act u.toSetup a s.tables l).map fun r => ({ s with tables := r.1 }, .backups r.2)
  | .time, .tick clock => if s.clock ≤ clock then some ({ s with clock := clock }, .time) else none
  | l, .call now id skip => if now ≤ s.clock then calls u now id skip s l else none
  | l, .lost now id skip =>
      if now ≤ s.clock then
        (calls u now id skip s l).bind fun r => (failed l).map fun l' => (r.1, l')
      else none
  | l, .fail => (failed l).map fun l' => (s, l')
  | l, a => (answers l a).map fun l' => (s, l')

def isStart : Point → Bool
  | .backups l => Backups.isStart l
  | .put _ | .runNow _ _ | .scheduler | .time => true
  | _ => false

def program : Program State Point Choice Empty where
  start := isStart
  locks _ := []
  act := act u

/-! ## 2. Events -/

abbrev Past := List (Event State Point Choice)

/-- The policies a scheduler has claimed and not given back. -/
def Point.held : Point → List FlashBackupPolicy
  | .permission p rest | .source p rest | .observe p rest _ | .request p rest _ |
    .attach p rest _ | .finish p rest _ _ => p :: rest
  | _ => []

/-- A store call that is made. -/
def Choice.made : Choice → Option (Time × Uuid × List Uuid)
  | .call now id skip | .lost now id skip => some (now, id, skip)
  | _ => none

def Point.writesPolicies : Point → Bool
  | .putWrite _ | .runNow _ _ | .scheduler | .finish _ _ _ _ => true
  | _ => false

/-- The time of a transaction that writes policies. -/
def stamp : Label Point Choice → Option Time
  | .act _ l a => if l.writesPolicies then a.made.map (·.1) else none
  | .start _ _ => none

variable (past : Past)

def stamps : List Time := past.filterMap fun e => stamp e.label

/-- **Transactions that write policies begin at different times.** -/
def Distinct : Prop := (stamps past).Nodup

/-- The rows that a claim writes. -/
def claimed (s : State) (l : Point) (a : Choice) : List FlashBackupPolicy :=
  match l, a.made with
  | .scheduler, some (now, _, skip) => (claimBackupPolicies now skip s.tables s.policies).2
  | _, _ => []

/-- The policy is edited. -/
def edits (s : State) (l : Point) (a : Choice) : Bool :=
  match l, a.made with
  | .putWrite q, some (now, _, _) =>
      q.service == service && (putFlashBackupPolicy now q s.tables s.policies).isOk
  | .runNow organization service', some (now, _, _) => service' == service &&
      (runFlashBackupPolicyNow now organization service s.policies).isOk
  | _, _ => false

/-- `run_backup_policy` makes a backup row for the service and the second. -/
def creates (time : Nat) (s : State) (l : Point) (a : Choice) : Bool :=
  match l, a.made with
  | .request p _ source, some (now, id, _) =>
      p.serviceInstanceId == service && timestamp p == time &&
      (s.tables.request p.organizationId (u.requestId service time)).isNone &&
      (requestFlashBackupTo now id (u.request p source) s.tables).isOk
  | _, _ => false

/-- What an event does, by the label of its action. -/
def ofEvent (f : State → Point → Choice → Bool) (e : Event State Point Choice) : Bool :=
  match e.label with
  | .act _ l a => f e.state.shared l a
  | .start _ _ => false

/-- **The scheduler `i` is given the policy by this claim.** -/
def Claims (i : Nat) (c : FlashBackupPolicy) (e : Event State Point Choice) : Prop :=
  ∃ now id skip, e.label = .act i .scheduler (.call now id skip) ∧
    c ∈ claimed e.state.shared .scheduler (.call now id skip)

/-- **The policy is claimed again or edited.** -/
def supersedes (c : FlashBackupPolicy) (s : State) (l : Point) (a : Choice) : Bool :=
  (claimed s l a).any (·.serviceInstanceId == c.serviceInstanceId) ||
    edits c.serviceInstanceId s l a

/-- A claim of the scheduler `i` that was superseded later. -/
def Superseded (i : Nat) (c : FlashBackupPolicy) : Prop :=
  ∃ after e before, past = after ++ e :: before ∧ ofEvent (supersedes c) e = true ∧
    ∃ e₀ ∈ before, Claims i c e₀

/-! ## 3. One action -/

/-- The policy that is given back. -/
def Point.finishes : Point → Option FlashBackupPolicy
  | .finish p _ _ _ => some p
  | _ => none

def Point.inner : Point → Option Backups.Point
  | .backups l => some l
  | _ => none

/-- A point of the same call that holds no more; a policy that is given back is not held. -/
structure Follows (l l' : Point) : Prop where
  held : l'.held.Sublist l.held
  finished : l.finishes ≠ none → l'.held = l.held.tail
  inner : l'.inner = none

section Actions
variable {u : Setup} {a : Choice} {s s' : State} {l l' : Point} {now : Time} {id : Uuid}
  {skip : List Uuid}
variable (ps : List FlashBackupPolicy)

theorem held_nextPolicy : (nextPolicy ps).held = ps := by
  cases ps <;> rfl

theorem inner_nextPolicy : (nextPolicy ps).inner = none := by
  cases ps <;> rfl

theorem Follows.keep (h : l'.held = l.held) (hl : l.finishes = none) (hl' : l'.inner = none) :
    Follows l l' := by
  refine ⟨?_, fun hne => absurd hl hne, hl'⟩
  rw [h]

theorem Follows.next (p : FlashBackupPolicy) (rest : List FlashBackupPolicy)
    (hl : l.held = p :: rest) : Follows l (nextPolicy rest) := by
  refine ⟨?_, fun _ => ?_, inner_nextPolicy rest⟩
  · rw [held_nextPolicy, hl]
    exact sublist_cons_self p rest
  · rw [held_nextPolicy, hl]
    rfl

theorem failed_follows (h : failed l = some l') : Follows l l' := by
  cases l <;> simp only [failed] at h <;> cases h
  case finish p rest _ _ => exact .next p rest rfl
  all_goals exact .keep rfl rfl rfl

theorem answers_follows (h : answers l a = some l') : Follows l l' := by
  unfold answers at h
  split at h
  · cases h
    split
    · exact .keep rfl rfl rfl
    · exact .keep rfl rfl rfl
  · cases h
    split
    · exact .keep rfl rfl rfl
    · exact .keep rfl rfl rfl
  · cases h

/-- **What an action is.** -/
inductive Acts (u : Setup) (a : Choice) (s : State) (l : Point) (s' : State) (l' : Point) :
    Prop where
  | inner (l₀ l₁ : Backups.Point) (b : Backups.Choice) (t : Tables) (hl : l = .backups l₀)
      (ha : Backups.act u.toSetup b s.tables l₀ = some (t, l₁))
      (hs : s' = { s with tables := t }) (hl' : l' = .backups l₁) (hm : a.made = none)
  | time (clock : Time) (hc : s.clock ≤ clock) (hs : s' = { s with clock := clock })
      (hl : l = .time) (hl' : l' = .time) (hm : a.made = none)
  | call (now : Time) (id : Uuid) (skip : List Uuid) (l₁ : Point)
      (hm : a.made = some (now, id, skip)) (hnow : now ≤ s.clock)
      (hc : calls u now id skip s l = some (s', l₁))
      (hl' : a = .call now id skip ∧ l' = l₁ ∨ Follows l l')
  | quiet (hs : s' = s) (hf : Follows l l') (hm : a.made = none)

theorem act_acts (h : act u a s l = some (s', l')) : Acts u a s l s' l' := by
  unfold act at h
  split at h
  · rename_i l₀ b
    obtain ⟨⟨t, l₁⟩, hb, he⟩ := Option.map_eq_some_iff.mp h
    cases he
    exact .inner l₀ l₁ b t rfl hb rfl rfl rfl
  · split at h
    · rename_i hc
      cases h
      exact .time _ hc rfl rfl rfl rfl
    · cases h
  · split at h
    · rename_i now id skip hnow
      exact .call now id skip l' rfl hnow h (.inl ⟨rfl, rfl⟩)
    · cases h
  · split at h
    · rename_i now id skip hnow
      obtain ⟨⟨s₁, l₁⟩, hc, h⟩ := Option.bind_eq_some_iff.mp h
      obtain ⟨l₂, hf, he⟩ := Option.map_eq_some_iff.mp h
      cases he
      exact .call now id skip l₁ rfl hnow hc (.inr (failed_follows hf))
    · cases h
  · obtain ⟨l₁, hf, he⟩ := Option.map_eq_some_iff.mp h
    cases he
    exact .quiet rfl (failed_follows hf) rfl
  · rename_i hcall hlost _ _ _
    obtain ⟨l₁, hf, he⟩ := Option.map_eq_some_iff.mp h
    cases he
    refine .quiet rfl (answers_follows hf) ?_
    cases a with
    | call now id skip => exact absurd rfl (hcall now id skip)
    | lost now id skip => exact absurd rfl (hlost now id skip)
    | backups | fail | permit | answer | tick => rfl

/-- A store call is made. -/
theorem Acts.made (h : Acts u a s l s' l') (hm : a.made = some (now, id, skip)) :
    ∃ l₁, calls u now id skip s l = some (s', l₁) := by
  cases h with
  | call _ _ _ l₁ hm' _ hc =>
    cases hm.symm.trans hm'
    exact ⟨l₁, hc⟩
  | inner _ _ _ _ _ _ _ _ hm' | time _ _ _ _ _ hm' | quiet _ _ hm' => cases hm.symm.trans hm'

/-- **The invariant.** -/
structure Inv (u : Setup) (s : State) : Prop where
  tables : s.tables.Inv u.home
  unique : UniqueKey (·.serviceInstanceId) s.policies
  home : ∀ p ∈ s.policies, u.home p.serviceInstanceId = p.organizationId

theorem later_attach (p : BackupPolicy) (b : FlashBackup) :
    Later b { b with scheduleServiceId := some p.serviceInstanceId } :=
  ⟨rfl, rfl, rfl, rfl, rfl, fun h => h, fun h => h⟩

/-- **What a store call does**: to the policies, to the backups, and to what is held. -/
structure Called (u : Setup) (now : Time) (s : State) (l : Point) (s' : State) (l' : Point)
    (claims : List FlashBackupPolicy) : Prop where
  follows : Follows l l' ∨ l = .scheduler ∧ l' = nextPolicy claims
  clock : s'.clock = s.clock
  policies : s'.policies = s.policies ∨ l.writesPolicies = true ∧
    (Inv u s → Changes u.home now l.finishes s.policies s'.policies)
  tables : Inv u s → s'.tables.Inv u.home ∧ Grows s.tables s'.tables

/-- Nothing is changed. -/
theorem Called.same {claims : List FlashBackupPolicy} (hf : Follows l l') :
    Called u now s l s l' claims :=
  ⟨.inl hf, rfl, .inl rfl, fun hi => ⟨hi.tables, Grows.refl _⟩⟩

/-- Policies are changed. -/
theorem Called.policy {claims ps : List FlashBackupPolicy}
    (hf : Follows l l' ∨ l = .scheduler ∧ l' = nextPolicy claims) (hw : l.writesPolicies = true)
    (hc : Inv u s → Changes u.home now l.finishes s.policies ps) :
    Called u now s l { s with policies := ps } l' claims :=
  ⟨hf, rfl, .inr ⟨hw, hc⟩, fun hi => ⟨hi.tables, Grows.refl _⟩⟩

theorem calls_called (h : calls u now id skip s l = some (s', l')) :
    Called u now s l s' l' (claimed s l (.call now id skip)) := by
  cases l with
  | put | source =>
    cases h
    refine .same ?_
    split <;> exact .keep rfl rfl rfl
  | putWrite =>
    simp only [calls] at h
    split at h
    · rename_i ps hput
      cases h
      exact .policy (.inl (.keep rfl rfl rfl)) rfl fun hi => put_changes _ hi.tables hput
    · cases h
      exact .same (.keep rfl rfl rfl)
  | runNow =>
    simp only [calls] at h
    split at h
    · rename_i ps hrun
      cases h
      exact .policy (.inl (.keep rfl rfl rfl)) rfl fun _ => runNow_changes _ hrun
    · cases h
      exact .same (.keep rfl rfl rfl)
  | scheduler =>
    cases h
    exact .policy (.inr ⟨rfl, rfl⟩) rfl fun hi => claim_changes _ hi.unique
  | request =>
    simp only [calls] at h
    split at h
    · rename_i t b hreq
      cases h
      refine ⟨.inl (.keep rfl rfl rfl), rfl, .inl rfl,
        fun hi => ⟨requestFlashBackupTo_inv hi.tables hreq, ?_⟩⟩
      rcases requestFlashBackupTo_spec hreq with ⟨rfl, _⟩ | ⟨rfl, _, _⟩
      · exact Grows.refl _
      · exact fun c hc => ⟨c, mem_append_left _ hc, Later.refl c⟩
    · cases h
      exact .same (.keep rfl rfl rfl)
  | attach p =>
    cases h
    refine ⟨.inl (.keep rfl rfl rfl), rfl, .inl rfl, fun hi => ⟨hi.tables.update fun c hc _ =>
      ⟨later_attach p.retention c, ?_⟩, Grows.update fun c _ _ => later_attach p.retention c⟩⟩
    have hcons := hi.tables.consistent c hc
    exact ⟨hcons.tombstone, hcons.requested, hcons.deleting⟩
  | finish p rest backup error =>
    cases h
    exact .policy (.inl (.next p rest rfl)) rfl fun _ => finish_changes p backup error
  | _ => cases h

/-- A claim that was made holds, or has expired. -/
def Leased (s : State) (c : FlashBackupPolicy) : Prop :=
  ∃ lease, c.leaseUntil = some lease ∧ (lease < s.clock ∨
    ∃ p ∈ s.policies, p.serviceInstanceId = c.serviceInstanceId ∧ p.leaseUntil = some lease)

/-- What holds at a point. -/
structure Holding (u : Setup) (s : State) (l : Point) : Prop where
  inner : ∀ l₀, l.inner = some l₀ → At s.tables l₀
  unique : UniqueKey (·.serviceInstanceId) l.held
  home : ∀ c ∈ l.held, u.home c.serviceInstanceId = c.organizationId
  leased : ∀ c ∈ l.held, Leased s c

theorem Holding.empty (h : l.held = []) (hl : l.inner = none) : Holding u s l := by
  refine ⟨fun l₀ he => ?_, ?_, fun c hc => ?_, fun c hc => ?_⟩
  · rw [hl] at he
    cases he
  · rw [h]
    exact nodup_nil
  · rw [h] at hc
    cases hc
  · rw [h] at hc
    cases hc

/-- Two schedulers have different leases. -/
def Apart (l m : Point) : Prop := ∀ c ∈ l.held, ∀ d ∈ m.held, c.leaseUntil ≠ d.leaseUntil

variable {c : FlashBackupPolicy}

/-- **A lease is kept** by calls that do not finish it. -/
theorem Leased.changes {mine : Option FlashBackupPolicy} (h : Leased s c) (hc : Changes u.home now
    mine s.policies s'.policies) (hnow : now ≤ s.clock) (hclock : s'.clock = s.clock) (hmine : ∀ d,
    mine = some d → d.serviceInstanceId = c.serviceInstanceId → d.leaseUntil ≠ c.leaseUntil) :
    Leased s' c := by
  obtain ⟨lease, hlease, hexpired | ⟨p, hp, hservice, hrow⟩⟩ := h
  · exact ⟨lease, hlease, .inl (hclock ▸ hexpired)⟩
  obtain ⟨p', hp', hb⟩ := hc.kept p hp
  refine ⟨lease, hlease, ?_⟩
  cases hb.change with
  | same he =>
    subst he
    exact .inr ⟨p', hp', hservice, hrow⟩
  | edited hl => exact .inr ⟨p', hp', hb.service.trans hservice, hl.trans hrow⟩
  | claimed hfree =>
    left
    rw [FlashBackupPolicy.free, hrow] at hfree
    have hlt : lease < now := of_decide_eq_true hfree
    rw [hclock]
    exact Nat.lt_of_lt_of_le hlt hnow
  | finished d hd hs hl =>
    exact absurd (hl.symm.trans (hrow.trans hlease.symm)) (hmine d hd (hs.trans hservice))

theorem Leased.same (h : Leased s c) (hp : s'.policies = s.policies) (hc : s.clock ≤ s'.clock) :
    Leased s' c := by
  obtain ⟨lease, hlease, hexpired | hrow⟩ := h
  · exact ⟨lease, hlease, .inl (Nat.lt_of_lt_of_le hexpired hc)⟩
  · rw [← hp] at hrow
    exact ⟨lease, hlease, .inr hrow⟩

/-- **What an action keeps**: the tables, and leases it does not finish. -/
structure Keeps (u : Setup) (s s' : State) (l : Point) : Prop where
  inv : Inv u s'
  grows : Grows s.tables s'.tables
  leased : ∀ c, Leased s c → (∀ d, l.finishes = some d →
    d.serviceInstanceId = c.serviceInstanceId → d.leaseUntil ≠ c.leaseUntil) → Leased s' c

theorem act_keeps (h : Acts u a s l s' l') (hi : Inv u s) (hl : Holding u s l) :
    Keeps u s s' l := by
  cases h with
  | inner l₀ _ _ _ hl₀ ha hs =>
    subst hs
    have hat := hl.inner l₀ (by rw [hl₀]; rfl)
    obtain ⟨hinv, hg, _⟩ := Backups.act_keeps hi.tables hat ha
    exact ⟨⟨hinv, hi.unique, hi.home⟩, hg, fun c hc _ => hc.same rfl (Nat.le_refl _)⟩
  | time _ hc hs =>
    subst hs
    exact ⟨⟨hi.tables, hi.unique, hi.home⟩, Grows.refl _, fun c hl _ => hl.same rfl hc⟩
  | call _ _ _ _ _ hnow hc =>
    have hcalled := calls_called hc
    obtain ⟨htables, hgrows⟩ := hcalled.tables hi
    rcases hcalled.policies with hsame | ⟨_, hch⟩
    · refine ⟨⟨htables, ?_, ?_⟩, hgrows,
        fun c hc _ => hc.same hsame (Nat.le_of_eq hcalled.clock.symm)⟩
      · rw [hsame]
        exact hi.unique
      · rw [hsame]
        exact hi.home
    · have hch := hch hi
      exact ⟨⟨htables, hch.unique hi.unique, hch.organizations hi.home⟩, hgrows,
        fun c hc hne => hc.changes hch hnow hcalled.clock hne⟩
  | quiet hs =>
    subst hs
    exact ⟨hi, Grows.refl _, fun c hc _ => hc⟩

/-- A scheduler that gives a policy back holds no other of its service. -/
theorem Follows.others (hf : Follows l l') (h : Holding u s l) {d : FlashBackupPolicy} (hc : c ∈
    l'.held) (hd : l.finishes = some d) : d.serviceInstanceId ≠ c.serviceInstanceId := by
  have hne : l.finishes ≠ none := by
    rw [hd]
    exact Option.some_ne_none d
  rw [hf.finished hne] at hc
  intro hs
  cases l <;> cases hd
  exact absurd (mem_map.mpr ⟨c, hc, hs.symm⟩) (nodup_cons.mp h.unique).1

/-- A point that holds less. -/
theorem Holding.follows (h : Holding u s l) (hk : Keeps u s s' l) (hf : Follows l l') :
    Holding u s' l' := by
  refine ⟨fun l₀ he => ?_, h.unique.sublist (hf.held.map _), fun c hc => ?_, fun c hc => ?_⟩
  · rw [hf.inner] at he
    cases he
  · exact h.home c (hf.held.subset hc)
  · exact hk.leased c (h.leased c (hf.held.subset hc))
      fun d hd hs => absurd hs (hf.others h hc hd)

/-- **The policies of a claim.** -/
theorem Holding.claim (hi : Inv u s)
    (hc : calls u now id skip s .scheduler = some (s', l')) : Holding u s' l' := by
  cases hc
  refine ⟨fun l₀ he => ?_, ?_, fun c hc => ?_, fun c hc => ?_⟩
  · rw [inner_nextPolicy] at he
    cases he
  · rw [held_nextPolicy]
    exact claimed_unique hi.unique
  · rw [held_nextPolicy] at hc
    obtain ⟨_, _, p, hp, rfl⟩ := claimed_mem hc
    exact hi.home p hp
  · rw [held_nextPolicy] at hc
    obtain ⟨hlease, hmem, _⟩ := claimed_mem hc
    exact ⟨_, hlease, .inr ⟨c, hmem, rfl, hlease⟩⟩

end Actions

/-! ## 4. Leases over runs -/

/-- Tables without backups and policies. -/
structure Initial (u : Setup) (s : State) : Prop where
  tables : Backups.Initial u.toSetup s.tables
  policies : s.policies = []

section Runs
variable {u : Setup} {s₀ : State} {past before : Past} {σ σ' : System State Point} {i j : Nat}
  {c d : FlashBackupPolicy} {l m : Point} {e e' : Event State Point Choice}

/-- **The policies and their holders.** -/
theorem outline (u : Setup) :
    Outline (program u) (fun _ _ _ => True) Apart (Inv u) (Holding u) where
  start {s l} hs hi := by
    cases l with
    | backups l₀ =>
      have hat : At s.tables l₀ := (Backups.outline u.toSetup).start hs hi.tables
      refine ⟨fun l₁ he => ?_, nodup_nil, fun c hc => ?_, fun c hc => ?_⟩
      · cases he
        exact hat
      · cases hc
      · cases hc
    | put | runNow | scheduler | time => exact .empty rfl rfl
    | _ => cases hs
  act {a s l s' l'} hi hl _ h := by
    have hacts := act_acts h
    have hk := act_keeps hacts hi hl
    refine ⟨hk.inv, ?_⟩
    cases hacts with
    | inner l₀ _ _ _ hl₀ ha hs hl' =>
      subst hs hl'
      have hat := (Backups.act_keeps hi.tables (hl.inner l₀ (by rw [hl₀]; rfl)) ha).2.2
      refine ⟨fun l₂ he => ?_, nodup_nil, fun c hc => ?_, fun c hc => ?_⟩
      · cases he
        exact hat
      · cases hc
      · cases hc
    | time _ _ _ _ hl' =>
      subst hl'
      exact .empty rfl rfl
    | call _ _ _ _ _ _ hc hl' =>
      rcases hl' with ⟨_, rfl⟩ | hf
      · rcases (calls_called hc).follows with hf | ⟨rfl, _⟩
        · exact hl.follows hk hf
        · exact .claim hi hc
      · exact hl.follows hk hf
    | quiet _ hf => exact hl.follows hk hf
  stable {a s l s' l' m} hi hl _ h hR hm := by
    have hk := act_keeps (act_acts h) hi hl
    refine ⟨fun l₀ he => (hm.inner l₀ he).grows hk.grows, hm.unique, hm.home, fun c hc => ?_⟩
    refine hk.leased c (hm.leased c hc) fun d hd _ => hR d ?_ c hc
    cases l <;> cases hd
    exact mem_cons_self

theorem Initial.holds (h : Initial u s₀) : Holds (Inv u) (Holding u) (System.quiet s₀) := by
  refine Holds.quiet ⟨h.tables.inv, ?_, ?_⟩
  · rw [h.policies]
    exact nodup_nil
  · rw [h.policies]
    exact fun p hp => by cases hp

theorem start_held (h : isStart l = true) : l.held = [] := by
  cases l <;> first | rfl | cases h

/-- **What a scheduler holds it has claimed.** -/
theorem held_claimed (hr : Run (program u) (System.quiet s₀) past σ) (hi : σ.calls i = some l)
    (hc : c ∈ l.held) : ∃ e ∈ past, Claims i c e := by
  induction hr generalizing l with
  | start => cases hi
  | @step past σ σ' label hr hs ih =>
    have hold {l : Point} (hl : σ.calls i = some l) (hc : c ∈ l.held) :
        ∃ e ∈ ⟨σ, label⟩ :: past, Claims i c e := by
      obtain ⟨e, he, hcl⟩ := ih hl hc
      exact ⟨e, mem_cons_of_mem _ he, hcl⟩
    cases hs with
    | start k _ _ hstart =>
      by_cases hik : i = k
      · subst hik
        rw [System.set_same] at hi
        cases hi
        rw [start_held hstart] at hc
        cases hc
      · rw [System.set_other hik] at hi
        exact hold hi hc
    | act k _ _ _ _ hk ha =>
      by_cases hik : i = k
      · subst hik
        rw [System.set_same] at hi
        cases hi
        cases act_acts ha with
        | inner _ _ _ _ _ _ _ hl' | time _ _ _ _ hl' =>
          subst hl'
          cases hc
        | call now id skip _ _ _ hcall hl' =>
          rcases hl' with ⟨rfl, rfl⟩ | hfollows
          · rcases (calls_called hcall).follows with hfollows | ⟨rfl, rfl⟩
            · exact hold hk (hfollows.held.subset hc)
            · rw [held_nextPolicy] at hc
              exact ⟨_, mem_cons_self, now, id, skip, rfl, hc⟩
          · exact hold hk (hfollows.held.subset hc)
        | quiet _ hfollows => exact hold hk (hfollows.held.subset hc)
      · rw [System.set_other hik] at hi
        exact hold hi hc

/-- The lease of a claim is that of its time. -/
theorem Claims.lease (h : Claims i c e) : ∃ now, stamp e.label = some now ∧
    c.leaseUntil = some (now + leaseTime) := by
  obtain ⟨now, id, skip, he, hc⟩ := h
  refine ⟨now, ?_, (claimed_mem hc).1⟩
  rw [he]
  rfl

variable {now : Time}

/-- Two events at the same time are one. -/
theorem Distinct.eq (hd : Distinct past) (he : e ∈ past) (he' : e' ∈ past) (h : stamp e.label = some
    now) (h' : stamp e'.label = some now) : e = e' :=
  Base.eq_of_filterMap_nodup hd he he' h h'

theorem Distinct.of_append (after : Past) (h : Distinct (after ++ before)) : Distinct before := by
  unfold Distinct stamps at h ⊢
  rw [filterMap_append] at h
  exact (nodup_append.mp h).2.1

variable (hr : Run (program u) (System.quiet s₀) past σ)
include hr

/-- **Two schedulers have different leases.** -/
theorem apart_run (hd : Distinct past) : σ.Apart Apart := by
  intro i j l m hne hi hj c hc d hdm heq
  obtain ⟨e, he, hcl⟩ := held_claimed hr hi hc
  obtain ⟨e', he', hcl'⟩ := held_claimed hr hj hdm
  obtain ⟨now, hs, hl⟩ := hcl.lease
  obtain ⟨now', hs', hl'⟩ := hcl'.lease
  have hnow : now = now' := by
    have h := Option.some.inj (hl.symm.trans (heq.trans hl'))
    exact Nat.add_right_cancel h
  subst hnow
  have hee := hd.eq he he' hs hs'
  obtain ⟨_, _, _, hlab, _⟩ := hcl
  obtain ⟨_, _, _, hlab', _⟩ := hcl'
  rw [hee, hlab'] at hlab
  cases hlab
  exact hne rfl

theorem holds_run (h₀ : Initial u s₀) (hd : Distinct past) : Holds (Inv u) (Holding u) σ := by
  refine (outline u).run hr (fun e _ => admits_any e) (fun e he => ?_) h₀.holds
  obtain ⟨before, after, _, rfl, hb, _, _⟩ := hr.split he
  exact apart_run hb (Distinct.of_append (after ++ [e]) (by simpa using hd))

omit hr

/-- The lease has not expired. -/
def Unexpired (s : State) (c : FlashBackupPolicy) : Prop :=
  ∃ lease, c.leaseUntil = some lease ∧ s.clock ≤ lease

theorem unexpired_row (h : Holding u σ.shared l) (hc : c ∈ l.held)
    (hx : Unexpired σ.shared c) : ∃ p ∈ σ.shared.policies,
      p.serviceInstanceId = c.serviceInstanceId ∧ p.leaseUntil = c.leaseUntil := by
  obtain ⟨lease, hlease, hexpired | ⟨p, hp, hs, hl⟩⟩ := h.leased c hc
  · obtain ⟨lease', hlease', hle⟩ := hx
    cases hlease.symm.trans hlease'
    exact absurd hle (Nat.not_le.mpr hexpired)
  · exact ⟨p, hp, hs, hl.trans hlease.symm⟩

/-! ## 5. Backups over runs -/

variable {a : Choice} {service : Uuid} {time : Nat}

theorem creates_iff {s : State} (h : creates u service time s l a = true) : ∃ p rest source now id
    skip, l = .request p rest source ∧ a.made = some (now, id, skip) ∧ p.serviceInstanceId = service
    ∧ timestamp p = time ∧ s.tables.request p.organizationId (u.requestId service time) = none ∧
    (requestFlashBackupTo now id (u.request p source) s.tables).isOk = true := by
  unfold creates at h
  split at h
  · rename_i p rest source now id skip hm
    simp only [Bool.and_eq_true, beq_iff_eq, Option.isNone_iff_eq_none] at h
    exact ⟨p, rest, source, now, id, skip, rfl, hm, h.1.1.1, h.1.1.2, h.1.2, h.2⟩
  · cases h

/-- A backup for the service and the second. -/
def Made (u : Setup) (service : Uuid) (time : Nat) (t : Tables) : Prop :=
  ∃ b ∈ t.flashBackups, b.organizationId = u.home service ∧
    b.requestId = u.requestId service time

theorem Made.grows {t t' : Tables} (h : Made u service time t) (hg : Grows t t') : Made u service
    time t' := by
  obtain ⟨b, hb, ho, hr⟩ := h
  obtain ⟨b', hb', hl⟩ := hg b hb
  exact ⟨b', hb', hl.organizationId.trans ho, hl.requestId.trans hr⟩

variable {l' : Point} {s s' : State}

/-- **A backup that is made was not made before.** -/
theorem creates_made (hl : Holding u s l) (h : creates u service time s l a = true) (ha : Acts u a s
    l s' l') : ¬ Made u service time s.tables ∧ Made u service time s'.tables := by
  obtain ⟨p, rest, source, now, id, skip, rfl, hm, rfl, rfl, hnone, hok⟩ := creates_iff h
  have hhome := hl.home p mem_cons_self
  constructor
  · rintro ⟨b, hb, ho, hr⟩
    refine absurd ?_ (find?_eq_none.mp hnone b hb)
    rw [ho, hr, hhome]
    simp
  obtain ⟨l₁, hc⟩ := ha.made hm
  simp only [calls] at hc
  split at hc
  · rename_i t b hreq
    cases hc
    rcases requestFlashBackupTo_spec hreq with ⟨rfl, hex⟩ | ⟨rfl, _, hins⟩
    · have hex : s.tables.request p.organizationId
        (u.requestId p.serviceInstanceId (timestamp p)) = some b := hex
      rw [hnone] at hex
      cases hex
    · obtain ⟨now₁, row, spec, hb⟩ := hins.row
      refine ⟨b, mem_append_right _ (mem_singleton_self b), ?_, ?_⟩
      · rw [hhome, hb]
        rfl
      · rw [hb]
        rfl
  · rename_i hreq
    rw [hreq] at hok
    cases hok

include hr

/-- **A service and a second have at most one backup made for them.** -/
theorem created_once (h₀ : Initial u s₀) (hd : Distinct past) (service : Uuid) (time : Nat) :
    past.countP (ofEvent (creates u service time)) = 0 ∨ past.countP (ofEvent (creates u service
    time)) = 1 ∧ Made u service time σ.shared.tables := by
  induction hr with
  | start => exact .inl rfl
  | @step past σ σ' label hr hs ih =>
    have hd' : Distinct past := Distinct.of_append [_] hd
    have h := holds_run hr h₀ hd'
    have ih := ih hd'
    rw [countP_cons]
    cases hs with
    | start =>
      rw [if_neg (by simp [ofEvent])]
      exact ih
    | act k l a _ _ hk ha =>
      have hacts := act_acts ha
      have hloc := h.loc k l hk
      have hk' := act_keeps hacts h.inv hloc
      by_cases hc : creates u service time σ.shared l a = true
      · obtain ⟨hnot, hmade⟩ := creates_made hloc hc hacts
        rcases ih with hzero | ⟨_, hmade'⟩
        · have hcount : ofEvent (creates u service time) ⟨σ, .act k l a⟩ = true := hc
          rw [if_pos hcount, hzero]
          exact .inr ⟨rfl, hmade⟩
        · exact absurd hmade' hnot
      · have hcount : ¬ ofEvent (creates u service time) ⟨σ, .act k l a⟩ = true := hc
        rw [if_neg hcount]
        rcases ih with hzero | ⟨hone, hmade⟩
        · exact .inl hzero
        · exact .inr ⟨hone, hmade.grows hk'.grows⟩

omit hr

/-! ## 6. Claims that were superseded -/

/-- The row is not as it was claimed. -/
def Stale (c : FlashBackupPolicy) (s : State) : Prop :=
  ∀ p ∈ s.policies, p.serviceInstanceId = c.serviceInstanceId →
    p.leaseUntil ≠ c.leaseUntil ∨ p.updatedAt ≠ c.updatedAt

/-- A time other than those of the claim and of the version it is of. -/
structure Later (c : FlashBackupPolicy) (now : Time) : Prop where
  lease : c.leaseUntil ≠ some (now + leaseTime)
  held : c.leaseUntil ≠ none
  updated : c.updatedAt ≠ now

variable {p p' : FlashBackupPolicy}

/-- A row that is changed at another time is not as it was claimed. -/
theorem Becomes.stale {mine : Option FlashBackupPolicy} (h : Becomes now mine p p') (hc : Later c
    now) : p' = p ∨ p'.leaseUntil ≠ c.leaseUntil ∨ p'.updatedAt ≠ c.updatedAt := by
  cases h.change with
  | same he => exact .inl he
  | edited _ hu =>
    rw [hu]
    exact .inr (.inr hc.updated.symm)
  | claimed _ hl =>
    rw [hl]
    exact .inr (.inl hc.lease.symm)
  | finished _ _ _ _ hl =>
    rw [hl]
    exact .inr (.inl hc.held.symm)

/-- The time of a call that writes policies. -/
theorem stamp_call {id : Uuid} {skip : List Uuid} (i : Nat) (hw : l.writesPolicies = true) (hm :
    a.made = some (now, id, skip)) : stamp (.act i l a) = some now := by
  simp only [stamp, hw, hm]
  rfl

/-- **One step**: stale claims stay stale. -/
theorem stale_step (h : Acts u a s l s' l') (hi : Inv u s) (hs : Stale c s) (hc : ∀ now, stamp (.act
    i l a) = some now → Later c now) : Stale c s' := by
  cases h with
  | inner _ _ _ _ _ _ he | time _ _ he | quiet he =>
    subst he
    exact hs
  | call now _ _ _ hm _ hcall =>
    rcases (calls_called hcall).policies with hsame | ⟨hw, hch⟩
    · unfold Stale
      rw [hsame]
      exact hs
    have hlater := hc now (stamp_call i hw hm)
    intro p' hp' hservice
    rcases (hch hi).origin p' hp' with ⟨p, hp, hb⟩ | ⟨hlease, _, _⟩
    · rcases Becomes.stale hb hlater with rfl | hstale
      · exact hs p' hp hservice
      · exact hstale
    · rw [hlease]
      exact .inl hlater.held.symm

/-- The times of a run. -/
theorem mem_stamps (he : e ∈ past) (h : stamp e.label = some now) : now ∈ stamps past :=
  mem_filterMap.mpr ⟨e, he, h⟩

include hr

/-- **The version of a row is the time of a call.** -/
theorem updatedAt_stamps (h₀ : Initial u s₀) (hd : Distinct past) (hp : p ∈ σ.shared.policies) :
    p.updatedAt ∈ stamps past := by
  induction hr generalizing p with
  | start =>
    have hp : p ∈ s₀.policies := hp
    rw [h₀.policies] at hp
    cases hp
  | @step past σ σ' label hr hs ih =>
    have hd' : Distinct past := Distinct.of_append [_] hd
    have h := holds_run hr h₀ hd'
    have hold {q : FlashBackupPolicy} (hq : q ∈ σ.shared.policies) :
        q.updatedAt ∈ stamps (⟨σ, label⟩ :: past) := by
      obtain ⟨e, he, hst⟩ := mem_filterMap.mp (ih hd' hq)
      exact mem_stamps (mem_cons_of_mem _ he) hst
    cases hs with
    | start => exact hold hp
    | act k l a s _ _ ha =>
      have hp : p ∈ s.policies := hp
      cases act_acts ha with
      | inner _ _ _ _ _ _ he | time _ _ he | quiet he =>
        subst he
        exact hold hp
      | call now _ _ _ hm _ hcall =>
        rcases (calls_called hcall).policies with hsame | ⟨hw, hch⟩
        · rw [hsame] at hp
          exact hold hp
        have hnew : now ∈ stamps (⟨σ, .act k l a⟩ :: past) :=
          mem_stamps mem_cons_self (stamp_call k hw hm)
        rcases (hch h.inv).origin p hp with ⟨q, hq, hb⟩ | ⟨_, hu, _⟩
        · rcases hb.updated with hu | hu
          · rw [hu]
            exact hold hq
          · rw [hu]
            exact hnew
        · rw [hu]
          exact hnew

omit hr

/-- **Every call after a claim is at another time.** -/
theorem later_of_claim {after : Past} (hr : Run (program u) (System.quiet s₀) before σ) (h₀ :
    Initial u s₀) (hd : Distinct (after ++ before)) (hcl : ∃ e₀ ∈ before, Claims i c e₀) (he : e ∈
    after) (hs : stamp e.label = some now) : Later c now := by
  obtain ⟨e₀, he₀, hcl⟩ := hcl
  have hfresh {now' : Time} (hn : now' ∈ stamps before) : now' ≠ now := by
    intro heq
    unfold Distinct stamps at hd
    rw [filterMap_append] at hd
    exact (nodup_append.mp hd).2.2 now (mem_stamps he hs) now' hn heq.symm
  obtain ⟨now₀, hs₀, hlease⟩ := hcl.lease
  refine ⟨fun h => ?_, fun h => ?_, ?_⟩
  · have h := Option.some.inj (hlease.symm.trans h)
    exact hfresh (mem_stamps he₀ hs₀) (Nat.add_right_cancel h)
  · rw [hlease] at h
    cases h
  obtain ⟨_, _, _, _, hmem⟩ := hcl
  obtain ⟨_, _, q, hq, rfl⟩ := claimed_mem hmem
  obtain ⟨b, a, _, rfl, hb, _, _⟩ := hr.split he₀
  have hd₀ : Distinct b := Distinct.of_append (after ++ (a ++ [e₀])) (by simpa using hd)
  obtain ⟨e₁, he₁, hst⟩ := mem_filterMap.mp (updatedAt_stamps hb h₀ hd₀ hq)
  exact hfresh (mem_stamps (mem_append_right _ (mem_cons_of_mem _ he₁)) hst)

/-- **A run**: stale claims stay stale. -/
theorem stale_run {after : Past} (hr : Run (program u) (System.quiet s₀) before σ)
    (h₀ : Initial u s₀) (hr' : Run (program u) σ after σ') (hd : Distinct (after ++ before))
    (hs : Stale c σ.shared)
    (hc : ∀ e ∈ after, ∀ now, stamp e.label = some now → Later c now) : Stale c σ'.shared := by
  induction hr' with
  | start => exact hs
  | @step after σ₁ σ₂ label hr' hstep ih =>
    have hd' : Distinct (after ++ before) := Distinct.of_append [_] hd
    have h := holds_run (hr.append hr') h₀ hd'
    have hstale := ih hd' fun e he => hc e (mem_cons_of_mem _ he)
    cases hstep with
    | start => exact hstale
    | act _ _ _ _ _ _ ha =>
      exact stale_step (act_acts ha) h.inv hstale (hc _ mem_cons_self)

variable {ps ps' : List FlashBackupPolicy}

/-- A policy that is put has the time of the call. -/
theorem put_updated {q : PolicyEdit} {t : Tables} (h : putFlashBackupPolicy now q t ps = .ok ps')
    (hp' : p' ∈ ps') (hs : p'.serviceInstanceId = q.service) : p'.updatedAt = now := by
  unfold putFlashBackupPolicy at h
  split at h
  · cases h
  split at h
  · cases h
  split at h
  · cases h
    obtain ⟨p, hp, ⟨_, rfl⟩ | ⟨hsel, rfl⟩⟩ := Base.mem_updateWhere hp'
    · rfl
    · rw [beq_eq_false_iff_ne] at hsel
      exact absurd hs hsel
  · rename_i hnone
    cases h
    rcases mem_append.mp hp' with hold | hnew
    · have hsel : (p'.serviceInstanceId == q.service) = true := beq_iff_eq.mpr hs
      exact absurd (any_eq_true.mpr ⟨p', hold, hsel⟩) hnone
    · rw [mem_singleton.mp hnew]
      rfl

/-- So has a policy that is run now: the row of the service is the one that was selected. -/
theorem runNow_updated {organization service : Uuid} (hu : UniqueKey (·.serviceInstanceId) ps) (h :
    runFlashBackupPolicyNow now organization service ps = .ok ps') (hp' : p' ∈ ps') (hs :
    p'.serviceInstanceId = service) : p'.updatedAt = now := by
  unfold runFlashBackupPolicyNow at h
  dsimp only at h
  split at h
  · rename_i hany
    cases h
    obtain ⟨p, hp, ⟨_, rfl⟩ | ⟨hsel, rfl⟩⟩ := Base.mem_updateWhere hp'
    · rfl
    obtain ⟨q, hq, hselq⟩ := any_eq_true.mp hany
    have hqs := hselq
    simp only [Bool.and_eq_true, beq_iff_eq] at hqs
    have heq : q = p' := hu.eq hq hp (hqs.1.1.2.trans hs.symm)
    rw [heq, hsel] at hselq
    cases hselq
  · cases h

/-- **An edit.** -/
theorem edits_stale (h : Acts u a s l s' l') (hi : Inv u s) (he : edits c.serviceInstanceId s l a =
    true) (hc : ∀ now, stamp (.act i l a) = some now → Later c now) : Stale c s' := by
  intro p' hp' hservice
  unfold edits at he
  split at he
  · rename_i q now id skip hm
    simp only [Bool.and_eq_true, beq_iff_eq] at he
    obtain ⟨l₁, hcall⟩ := h.made hm
    simp only [calls] at hcall
    split at hcall
    · rename_i ps hput
      cases hcall
      rw [put_updated hput hp' (hservice.trans he.1.symm)]
      exact .inr (hc now (stamp_call i rfl hm)).updated.symm
    · rename_i hput
      rw [hput] at he
      cases he.2
  · rename_i organization service now id skip hm
    simp only [Bool.and_eq_true, beq_iff_eq] at he
    obtain ⟨rfl, hok⟩ := he
    obtain ⟨l₁, hcall⟩ := h.made hm
    simp only [calls] at hcall
    split at hcall
    · rename_i ps hrun
      cases hcall
      rw [runNow_updated hi.unique hrun hp' hservice]
      exact .inr (hc now (stamp_call i rfl hm)).updated.symm
    · rename_i hrun
      rw [hrun] at hok
      cases hok
  · cases he

/-- **Another claim.** -/
theorem claimed_stale (h : Acts u a s l s' l') (hi' : Inv u s') (hcl : d ∈ claimed s l a) (hdc :
    d.serviceInstanceId = c.serviceInstanceId) (hc : ∀ now, stamp (.act i l a) = some now → Later c
    now) : Stale c s' := by
  intro p' hp' hservice
  unfold claimed at hcl
  split at hcl
  · rename_i now id skip hm
    obtain ⟨l₁, hcall⟩ := h.made hm
    cases hcall
    obtain ⟨hlease, hmem, _⟩ := claimed_mem hcl
    have heq : d = p' := hi'.unique.eq hmem hp' (hdc.trans hservice.symm)
    rw [← heq, hlease]
    exact .inl (hc now (stamp_call i rfl hm)).lease.symm
  · cases hcl

include hr

/-- **A claim that was superseded is stale.** -/
theorem Superseded.stale (h₀ : Initial u s₀) (hd : Distinct past) (h : Superseded past i c) : Stale
    c σ.shared := by
  obtain ⟨after, e, before, rfl, hsup, hcl⟩ := h
  obtain ⟨σ₁, hb, hstep, ha⟩ := hr.cut
  obtain ⟨σe, label⟩ := e
  have hd₁ : Distinct ((⟨σe, label⟩ : Event State Point Choice) :: before) :=
    Distinct.of_append after hd
  have hr₁ := hb.step hstep
  have hsplit : after ++ ⟨σe, label⟩ :: before = (after ++ [⟨σe, label⟩]) ++ before := by simp
  have hlater (e : Event State Point Choice) (he : e ∈ after ++ [⟨σe, label⟩]) (now : Time)
      (hs : stamp e.label = some now) : Later c now :=
    later_of_claim hb h₀ (hsplit ▸ hd) hcl he hs
  -- the step that superseded it
  have hstale : Stale c σ₁.shared := by
    have hholds := holds_run hb h₀ (Distinct.of_append [_] hd₁)
    have hholds₁ := holds_run hr₁ h₀ hd₁
    cases hstep with
    | start => cases hsup
    | act _ _ _ _ _ _ hact =>
      have hnow := hlater _ (mem_append_right _ mem_cons_self)
      rcases Bool.or_eq_true_iff.mp hsup with hclaim | hedit
      · obtain ⟨d, hdm, hds⟩ := any_eq_true.mp hclaim
        exact claimed_stale (act_acts hact) hholds₁.inv hdm (beq_iff_eq.mp hds) hnow
      · exact edits_stale (act_acts hact) hholds.inv hedit hnow
  exact stale_run hr₁ h₀ ha hd hstale fun e he => hlater e (mem_append_left _ he)

omit hr

/-- **Giving back a stale claim changes nothing.** -/
theorem finish_stale {rest : List FlashBackupPolicy} {backup : Option Uuid} {error : Option String}
    (hs : Stale c σ.shared) (hstep : Step (program u) σ (.act i (.finish c rest backup error) a) σ')
    : σ'.shared.policies = σ.shared.policies := by
  cases hstep with
  | act _ _ _ s _ _ ha =>
    show s.policies = σ.shared.policies
    cases act_acts ha with
    | call _ _ _ _ _ _ hcall =>
      cases hcall
      refine finish_none backup error fun p hp => ?_
      by_contra hcur
      rw [Bool.not_eq_false, FlashBackupPolicy.current] at hcur
      simp only [Bool.and_eq_true, beq_iff_eq] at hcur
      rcases hs p hp hcur.1.1.1 with hlease | hupdated
      · exact hlease hcur.1.1.2.2
      · exact hupdated hcur.2
    | quiet hs => rw [hs]
    | inner _ _ _ _ hl₀ | time _ _ _ hl₀ => cases hl₀

/-- **Scheduled backups.** Whatever the schedulers of several replicas, the users and the
reconcilers do, however calls fail: `run_backup_policy` makes at most one backup row for a service
and a second; two schedulers never hold unexpired leases of one policy; and a scheduler whose claim
was superseded by another one or by an edit leaves the policies as they are when it gives the policy
back. -/
theorem schedules_once (hr : Run (program u) (System.quiet s₀) past σ) (h₀ : Initial u s₀)
    (hd : Distinct past) :
    (∀ service time, past.countP (ofEvent (creates u service time)) ≤ 1) ∧
    (∀ i j l m c d, i ≠ j → σ.calls i = some l → σ.calls j = some m → c ∈ l.held → d ∈ m.held →
      c.serviceInstanceId = d.serviceInstanceId →
      ¬ (Unexpired σ.shared c ∧ Unexpired σ.shared d)) ∧
    (∀ i c rest backup error a σ',
      Step (program u) σ (.act i (.finish c rest backup error) a) σ' → Superseded past i c →
      σ'.shared.policies = σ.shared.policies) := by
  refine ⟨fun service time => ?_, ?_, fun i c rest backup error a σ' hstep hsup => ?_⟩
  · rcases created_once hr h₀ hd service time with hzero | ⟨hone, _⟩
    · omega
    · omega
  · rintro i j l m c d hne hi hj hc hdm hservice ⟨hx, hx'⟩
    have h := holds_run hr h₀ hd
    obtain ⟨p, hp, hps, hpl⟩ := unexpired_row (h.loc i l hi) hc hx
    obtain ⟨q, hq, hqs, hql⟩ := unexpired_row (h.loc j m hj) hdm hx'
    have heq : p = q := h.inv.unique.eq hp hq (hps.trans (hservice.trans hqs.symm))
    rw [← heq, hpl] at hql
    exact apart_run hr hd i j l m hne hi hj c hc d hdm hql
  · exact finish_stale (hsup.stale hr h₀ hd) hstep

end Runs

/-! ## 7. A run -/

/-- One organization; all hashes are the same. -/
def oneScheduler : Setup := { oneOrganization with digest := fun _ => 7, formatTime := fun _ => "" }

/-- The disk of the service. -/
def oneDisk : Json :=
  .object [("source_pvc_uid", .string "pvc"), ("volume_size_bytes", .int 5368709120)]

/-- A policy for the service of `oneService`. -/
def daily : PolicyEdit := ⟨1, 10, 20, ⟨true, 86400, 2, false, none⟩⟩

/-- The policy is claimed, a backup is made; the policy is edited, the lease expires, and another
scheduler claims the policy. -/
def twoSchedulers : List (Move Point Choice) :=
  [.start .time, .act 0 (.tick 10), .start (.put daily), .act 1 (.call 0 0 []),
    .act 1 (.call 1 0 []), .start .scheduler, .act 2 (.call 2 0 []), .act 2 (.permit true),
    .act 2 (.call 3 0 []), .act 2 (.answer (some oneDisk)), .act 2 (.call 4 40 []),
    .act 2 (.lost 5 0 []), .start (.put daily), .act 3 (.call 6 0 []), .act 3 (.call 7 0 []),
    .act 0 (.tick 200000000), .start .scheduler, .act 4 (.call 199999999 0 [])]

/-- Both schedulers hold the policy; one of the leases has expired. -/
theorem schedules_once_two : ∃ past σ,
    Run (program oneScheduler) (System.quiet ⟨oneService, [], 0⟩) past σ ∧ Distinct past ∧
    (σ.shared.tables.flashBackups.length = 1 ∧
      ∃ c d, (∃ l, σ.calls 2 = some l ∧ c ∈ l.held) ∧ (∃ m, σ.calls 4 = some m ∧ d ∈ m.held) ∧
        c.serviceInstanceId = d.serviceInstanceId ∧
        ¬ (Unexpired σ.shared c ∧ Unexpired σ.shared d)) ∧
    ∀ service time, past.countP (ofEvent (creates oneScheduler service time)) ≤ 1 := by
  obtain ⟨trail, m, hr, hc⟩ := play_any (program oneScheduler) ⟨oneService, [], 0⟩ twoSchedulers
    (fun x => decide ((x.1.filterMap fun y => stamp y.2).Nodup) &&
      decide (x.2.shared.tables.flashBackups.length = 1) &&
      (x.2.calls[2]?.bind (·.held.head?)).any fun c => (x.2.calls[4]?.bind (·.held.head?)).any
        fun d => c.serviceInstanceId == d.serviceInstanceId) (by decide +kernel)
  simp only [Bool.and_eq_true, decide_eq_true_eq] at hc
  obtain ⟨⟨hnodup, hone⟩, hheld⟩ := hc
  have hd : Distinct (Trail.events trail) := by
    unfold Distinct stamps Trail.events
    rw [filterMap_map]
    exact hnodup
  have h₀ : Initial oneScheduler ⟨oneService, [], 0⟩ := ⟨oneService_initial, rfl⟩
  have h := schedules_once hr h₀ hd
  obtain ⟨c, hc, hany⟩ := (Option.any_eq_true _ _).mp hheld
  obtain ⟨d, hd', hservice⟩ := (Option.any_eq_true _ _).mp hany
  obtain ⟨l, hl, hc⟩ := Option.bind_eq_some_iff.mp hc
  obtain ⟨l', hl', hd'⟩ := Option.bind_eq_some_iff.mp hd'
  have hc := mem_of_mem_head? hc
  have hd' := mem_of_mem_head? hd'
  exact ⟨_, _, hr, hd, ⟨hone, c, d, ⟨l, hl, hc⟩, ⟨l', hl', hd'⟩, beq_iff_eq.mp hservice,
    h.2.1 2 4 l l' c d (by decide) hl hl' hc hd' (beq_iff_eq.mp hservice)⟩, h.1⟩

end HeteroCloud.Backups.Scheduler
