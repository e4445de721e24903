/-
  File:      FlowAccess/Outline.lean
  Subject:   THE PROOF OUTLINE of the operations on credentials and contexts: what holds at each
             point, and that others' commits keep it.

  A call that has locked a credential keeps the row it read (`LockedCredential`) and keeps others
  from minting with it, so the contexts a cascade has selected stay all there are to revoke
  (`Selected`). Writes that are ready for a commit are `Good`.
-/
import HeteroCloud.FlowAccess.Invariant

namespace HeteroCloud.FlowAccess

open Base Iam List

/-! ## 1. Assertions -/

/-- The context is of no use any more. -/
def Dead (t : Int) (x : FlowAccessContextRow) : Prop := x.revokedAt ≠ none ∨ x.expiresAt ≤ t

variable (d : Db) (held : Locks)

/-- The credential is locked, and the row is the one that was read. -/
structure LockedCredential (c : FlowDeveloperCredentialRow) : Prop where
  held : (.credential c.id, .exclusive) ∈ held
  row : c ∈ d.flowDeveloperCredentials

/-- The context is locked, and not revoked. -/
structure LockedContext (k : Uuid) : Prop where
  held : (.context k, .exclusive) ∈ held
  row : ∃ x ∈ d.flowAccessContexts, x.contextId = k ∧ x.revokedAt = none

/-- A mint that has found its credential. -/
structure MintLocked (m : Minting) : Prop where
  locked : LockedCredential d held m.credential
  secret : m.credential.secret = m.input.secret
  unrevoked : m.credential.revokedAt = none
  permissions : ∀ p ∈ m.input.permissions, p ∈ m.credential.permissions

variable (w : View)

/-- The contexts of the credential that are not dead are locked and listed. -/
structure Selected (held : Locks) (c : Uuid) (ks : List Uuid) : Prop where
  nodup : ks.Nodup
  locked : ∀ k ∈ ks, LockedContext d held k
  covers : ∀ x ∈ d.flowAccessContexts, x.credentialId = some c →
    Dead w.clock x ∨ x.contextId ∈ ks

/-- What a cascade has written of the credential. -/
def Cascade.base (k : Cascade) (t : Int) : List Write :=
  match k.mutation with
  | .revoke => if k.credential.revokedAt = none then [.revokeCredential k.credential.id t] else []
  | .rotate secret => [.setSecret k.credential.id secret]

/-- A cascade that has revoked the contexts `ks`, and inserted the events of `told`. -/
structure Cascading (held : Locks) (k : Cascade) (ks told : List Uuid)
    (ws : List Write) : Prop where
  locked : LockedCredential d held k.credential
  selected : Selected d w held k.credential.id ks
  pending : ∃ t t', ∃ es : List RevokeEventRow,
    ws = k.base t ++ ks.map (.revokeContext · t') ++ es.map .insertEvent ∧
      es.map (·.aggregateId) = told

/-- Writes that only touch a credential, change a service or delete contexts. -/
def Write.calm : Write → Bool
  | .touchCredential _ _ | .setService _ | .deleteContext _ => true
  | _ => false

/-- A context that is deleted is locked and dead. -/
def Prunes (held : Locks) (ws : List Write) : Prop :=
  ∀ k, .deleteContext k ∈ ws → (.context k, .exclusive) ∈ held ∧
    ∀ x ∈ d.flowAccessContexts, x.contextId = k → Dead w.clock x

/-- **Writes that are ready for a commit.** -/
structure Good (held : Locks) (ws : List Write) : Prop where
  distinct : (ws.flatMap Write.makes).Nodup
  credential : ∀ c, .insertCredential c ∈ ws → c.revokedAt = none
  context : ∀ x, .insertContext x ∈ ws → x.revokedAt = none ∧ ∀ k, x.credentialId = some k →
    (∃ c, LockedCredential d held c ∧ c.id = k ∧ Within x c ∧ c.revokedAt = none) ∧
      ∀ t, .revokeCredential k t ∉ ws
  balanced : ∀ k, eventsFor k ws = if revokes k ws then 1 else 0
  unrevoked : ∀ k, revokes k ws = true → LockedContext d held k
  covered : ∀ k t, .revokeCredential k t ∈ ws → (.credential k, .exclusive) ∈ held ∧
    ∀ x ∈ d.flowAccessContexts, x.credentialId = some k →
      Dead w.clock x ∨ revokes x.contextId ws = true
  pruned : Prunes d w held ws

/-- The write changes no credential but the time of its last use, and mints no context. -/
def Write.Plain : Write → Prop
  | .revokeCredential _ _ | .setSecret _ _ => False
  | .insertContext x => x.credentialId = none
  | _ => True

/-- The writes of a call that neither mints nor changes a credential. -/
structure Settled (held : Locks) (ws : List Write) : Prop where
  good : Good d w held ws
  plain : ∀ x ∈ ws, x.Plain

/-- The writes of a mint. -/
structure Minted (held : Locks) (m : Minting) (ws : List Write) : Prop where
  locked : MintLocked d held m
  good : Good d w held ws
  context : ∃ id rest, ws = .insertContext (m.context id) :: rest ∧
    ∀ x ∈ rest, x.calm = true

/-- What holds at each point. -/
def Point (r : Running Key Write Call) : Prop :=
  match r.call with
  | .mutateCredential k => r.pending = [] ∧ LockedCredential d r.held k.credential ∧
      (k.mutation = .revoke → k.credential.revokedAt = none)
  | .cascadeContexts k => (∃ t, r.pending = k.base t) ∧ LockedCredential d r.held k.credential
  | .cascadeUpdate k contexts => (∃ t, r.pending = k.base t) ∧
      LockedCredential d r.held k.credential ∧
      Selected d w r.held k.credential.id (contexts.map (·.contextId))
  | .cascadeEvents k _ rest => ∃ ks told, ks = told ++ rest.map (·.contextId) ∧
      Cascading d w r.held k ks told r.pending
  | .cascadeCommit k _ => ∃ ks, Cascading d w r.held k ks ks r.pending
  | .recordPrune _ => Settled d w r.held r.pending ∧ ∃ x, r.pending = [.insertContext x]
  | .mintRetention m | .mintInsert m => r.pending = [] ∧ MintLocked d r.held m
  | .mintPrune m => Minted d w r.held m r.pending ∧ ∃ x, r.pending = [.insertContext x]
  | .mintTouch m | .mintCommit m => Minted d w r.held m r.pending
  | .revokeContext v _ => r.pending = [] ∧ LockedContext d r.held v.contextId
  | .revokeEvent v _ => (∃ t, r.pending = [.revokeContext v.contextId t]) ∧
      LockedContext d r.held v.contextId
  | .touchCredential _ _ | .commit _ => Settled d w r.held r.pending
  | .done _ => True
  | _ => r.pending = []

/-- The same, and that the transaction began before. -/
def At (_ : Nat) (r : Running Key Write Call) : Prop :=
  (∀ t, r.began = some t → t ≤ w.clock) ∧ Point d w r

section Stable
variable {d : Db} {w w' : View} {held held' : Locks} {x : Write} {others : Locks}
  {c : FlowDeveloperCredentialRow} {k : Uuid} {ws ys : List Write}

/-! ## 2. Others' commits -/

variable {y : FlowAccessContextRow}

theorem Dead.later {t : Int} {z : FlowAccessContextRow} (hl : y.Later z) (h : Dead t y) : Dead t
    z := by
  rcases h with h | h
  · exact .inl (hl.revoked h)
  · exact .inr (hl.expires ▸ h)

theorem Dead.mono {t t' : Int} (ht : t ≤ t') (h : Dead t y) : Dead t' y :=
  h.imp_right fun hexp => Int.le_trans hexp ht

section
variable (hx : Committed guards w others x) (hc : Compatible others held)
include hx hc

/-- A write that changes a credential holds its lock. -/
theorem LockedCredential.apply (h : LockedCredential d held c) : LockedCredential (x.apply d) held
    c := by
  have hother (id : Uuid) (hneed : .credential id ∈ x.needs) : (c.id == id) = false := by
    refine beq_eq_false_iff_ne.mpr fun he => ?_
    exact hc.exclusive (hx.needs (.credential id) hneed) .exclusive (he ▸ h.held)
  have hsame : x.credential c = c := by
    cases x with
    | revokeCredential id | setSecret id | touchCredential id =>
      simp [Write.credential, hother id mem_cons_self]
    | _ => rfl
  exact ⟨h.held, hsame ▸ credentials_stay h.row⟩

/-- A write that changes, inserts or deletes a context holds its lock. -/
theorem context_same (hh : (.context k, .exclusive) ∈ held) {y : FlowAccessContextRow} (hy :
    y.contextId = k) : y ∈ (x.apply d).flowAccessContexts ↔ y ∈ d.flowAccessContexts := by
  have hother {id : Uuid} (hneed : .context id ∈ x.needs) : id ≠ k := by
    rintro rfl
    exact hc.exclusive (hx.needs (.context id) hneed) .exclusive hh
  cases x with
  | insertContext z =>
    have hne : z.contextId ≠ k := hother mem_cons_self
    have hyz : y ≠ z := by
      rintro rfl
      exact hne hy
    simp [Write.apply, hyz]
  | revokeContext id t =>
    have hne : id ≠ k := hother mem_cons_self
    have hfix (z : FlowAccessContextRow) (hz : z.contextId = k) :
        Write.context (.revokeContext id t) z = z := by
      simp [Write.context, hz, Ne.symm hne]
    constructor
    · intro h
      obtain ⟨z, hz, he⟩ := mem_map.mp h
      have hzk : z.contextId = k := by
        rw [← hy, ← he, Write.context_id]
      rw [hfix z hzk] at he
      exact he ▸ hz
    · intro h
      exact mem_map.mpr ⟨y, h, hfix y hy⟩
  | deleteContext id =>
    have hne : id ≠ k := hother mem_cons_self
    simp [Write.apply, hy, Ne.symm hne]
  | _ => exact Iff.rfl

theorem LockedContext.apply (h : LockedContext d held k) : LockedContext (x.apply d) held k := by
  obtain ⟨y, hy, hk, hn⟩ := h.row
  exact ⟨h.held, y, (context_same hx hc h.held hk).mpr hy, hk, hn⟩

theorem MintLocked.apply {m : Minting} (h : MintLocked d held m) : MintLocked (x.apply d) held m :=
  ⟨h.locked.apply hx hc, h.secret, h.unrevoked, h.permissions⟩

variable (hh : (.credential k, .exclusive) ∈ held)
include hh

/-- Nobody else mints with a credential that is locked. -/
theorem covers_apply (listed : Uuid → Prop) (h : ∀ y ∈ d.flowAccessContexts, y.credentialId = some k
    → Dead w.clock y ∨ listed y.contextId) : ∀ y ∈ (x.apply d).flowAccessContexts, y.credentialId =
    some k → Dead w.clock y ∨ listed y.contextId :=
    by
  intro y hy hk
  rcases mem_contexts hy with rfl | ⟨z, hz, rfl⟩
  · have hneed : Key.credential k ∈ (Write.insertContext y).needs := by
      simp [Write.needs, hk]
    exact absurd hh (hc.exclusive (hx.needs _ hneed) .exclusive)
  · have hl := x.context_later z
    rw [x.context_id]
    exact (h z hz (hl.credential ▸ hk)).imp_left (.later hl)

theorem Selected.apply {ks : List Uuid} (h : Selected d w held k ks) : Selected (x.apply d) w held k
    ks :=
  ⟨h.nodup, fun k hk => (h.locked k hk).apply hx hc, covers_apply hx hc hh (· ∈ ks) h.covers⟩

omit hh

theorem Cascading.apply {k : Cascade} {ks told : List Uuid} (h : Cascading d w held k ks told ws) :
    Cascading (x.apply d) w held k ks told ws :=
  ⟨h.locked.apply hx hc, h.selected.apply hx hc h.locked.held, h.pending⟩

theorem Prunes.apply (h : Prunes d w held ws) : Prunes (x.apply d) w held ws := by
  intro k hk
  obtain ⟨hh, hdead⟩ := h k hk
  exact ⟨hh, fun y hy hid => hdead y ((context_same hx hc hh hid).mp hy) hid⟩

theorem Good.apply (h : Good d w held ws) : Good (x.apply d) w held ws where
  distinct := h.distinct
  credential := h.credential
  context y hy := by
    obtain ⟨hn, hmint⟩ := h.context y hy
    refine ⟨hn, fun k hk => ?_⟩
    obtain ⟨⟨c, hl, hrest⟩, hno⟩ := hmint k hk
    exact ⟨⟨c, hl.apply hx hc, hrest⟩, hno⟩
  balanced := h.balanced
  unrevoked k hk := (h.unrevoked k hk).apply hx hc
  covered k t hk := by
    obtain ⟨hh, hcovers⟩ := h.covered k t hk
    exact ⟨hh, covers_apply hx hc hh (fun k => revokes k ws = true) hcovers⟩
  pruned := h.pruned.apply hx hc

theorem Settled.apply (h : Settled d w held ws) : Settled (x.apply d) w held ws :=
  ⟨h.good.apply hx hc, h.plain⟩

theorem Minted.apply {m : Minting} (h : Minted d w held m ws) : Minted (x.apply d) w held m ws :=
  ⟨h.locked.apply hx hc, h.good.apply hx hc, h.context⟩

omit hc

/-- **A commit of another call keeps every assertion.** -/
theorem At.apply {i : Nat} {r : Running Key Write Call} (hc : Compatible others r.held) (h : At d w
    i r) : At (x.apply d) w i r := by
  obtain ⟨hbegan, h⟩ := h
  refine ⟨hbegan, ?_⟩
  obtain ⟨call, held, pending, began⟩ := r
  cases call with
  | mutateCredential => exact ⟨h.1, h.2.1.apply hx hc, h.2.2⟩
  | cascadeContexts | mintRetention | mintInsert | revokeContext | revokeEvent =>
    exact ⟨h.1, h.2.apply hx hc⟩
  | cascadeUpdate => exact ⟨h.1, h.2.1.apply hx hc, h.2.2.apply hx hc h.2.1.held⟩
  | cascadeEvents =>
    obtain ⟨ks, told, hks, h⟩ := h
    exact ⟨ks, told, hks, h.apply hx hc⟩
  | cascadeCommit =>
    obtain ⟨ks, h⟩ := h
    exact ⟨ks, h.apply hx hc⟩
  | recordPrune | mintPrune => exact ⟨h.1.apply hx hc, h.2⟩
  | mintTouch | mintCommit => exact Minted.apply hx hc h
  | touchCredential | commit => exact Settled.apply hx hc h
  | _ => exact h

end

/-! ## 3. Later worlds, and more locks -/

section
variable (ht : w.clock ≤ w'.clock)
include ht

theorem Selected.mono {ks : List Uuid} (h : Selected d w held k ks) : Selected d w' held k ks :=
  ⟨h.nodup, h.locked, fun x hx hk => (h.covers x hx hk).imp_left (.mono ht)⟩

theorem Cascading.mono {k : Cascade} {ks told : List Uuid} (h : Cascading d w held k ks told ws) :
    Cascading d w' held k ks told ws :=
  ⟨h.locked, h.selected.mono ht, h.pending⟩

theorem Prunes.mono (h : Prunes d w held ws) : Prunes d w' held ws :=
  fun k hk => ⟨(h k hk).1, fun x hx hid => ((h k hk).2 x hx hid).mono ht⟩

theorem Good.mono (h : Good d w held ws) : Good d w' held ws :=
  { h with
    covered := fun k t hk => ⟨(h.covered k t hk).1, fun x hx hc =>
      ((h.covered k t hk).2 x hx hc).imp_left (.mono ht)⟩
    pruned := h.pruned.mono ht }

theorem Settled.mono (h : Settled d w held ws) : Settled d w' held ws :=
  ⟨h.good.mono ht, h.plain⟩

theorem Minted.mono {m : Minting} (h : Minted d w held m ws) : Minted d w' held m ws :=
  ⟨h.locked, h.good.mono ht, h.context⟩

theorem At.mono {i : Nat} {r : Running Key Write Call} (h : At d w i r) : At d w' i r := by
  obtain ⟨hbegan, h⟩ := h
  refine ⟨fun t h => Int.le_trans (hbegan t h) ht, ?_⟩
  obtain ⟨call, held, pending, began⟩ := r
  cases call with
  | cascadeUpdate => exact ⟨h.1, h.2.1, h.2.2.mono ht⟩
  | cascadeEvents =>
    obtain ⟨ks, told, hks, h⟩ := h
    exact ⟨ks, told, hks, h.mono ht⟩
  | cascadeCommit =>
    obtain ⟨ks, h⟩ := h
    exact ⟨ks, h.mono ht⟩
  | recordPrune | mintPrune => exact ⟨h.1.mono ht, h.2⟩
  | mintTouch | mintCommit => exact Minted.mono ht h
  | touchCredential | commit => exact Settled.mono ht h
  | _ => exact h

end

section
variable (hs : ∀ l ∈ held, l ∈ held')
include hs

theorem LockedCredential.more (h : LockedCredential d held c) : LockedCredential d held' c :=
  ⟨hs _ h.held, h.row⟩

theorem LockedContext.more (h : LockedContext d held k) : LockedContext d held' k :=
  ⟨hs _ h.held, h.row⟩

theorem MintLocked.more {m : Minting} (h : MintLocked d held m) : MintLocked d held' m :=
  ⟨h.locked.more hs, h.secret, h.unrevoked, h.permissions⟩

theorem Selected.more {ks : List Uuid} (h : Selected d w held k ks) : Selected d w held' k ks :=
  ⟨h.nodup, fun k hk => (h.locked k hk).more hs, h.covers⟩

theorem Cascading.more {k : Cascade} {ks told : List Uuid} (h : Cascading d w held k ks told ws) :
    Cascading d w held' k ks told ws :=
  ⟨h.locked.more hs, h.selected.more hs, h.pending⟩

theorem Good.more (h : Good d w held ws) : Good d w held' ws where
  distinct := h.distinct
  credential := h.credential
  context y hy := by
    obtain ⟨hn, hmint⟩ := h.context y hy
    refine ⟨hn, fun k hk => ?_⟩
    obtain ⟨⟨c, hl, hrest⟩, hno⟩ := hmint k hk
    exact ⟨⟨c, hl.more hs, hrest⟩, hno⟩
  balanced := h.balanced
  unrevoked k hk := (h.unrevoked k hk).more hs
  covered k t hk := ⟨hs _ (h.covered k t hk).1, (h.covered k t hk).2⟩
  pruned k hk := ⟨hs _ (h.pruned k hk).1, (h.pruned k hk).2⟩

end

/-! ## 4. Good writes -/

theorem Write.calm_makes (h : x.calm = true) : x.makes = [] := by
  cases x with
  | touchCredential | setService | deleteContext => rfl
  | _ => cases h

theorem Write.calm_eventOf (h : x.calm = true) : x.eventOf k = false := by
  cases x with
  | touchCredential | setService | deleteContext => rfl
  | _ => cases h

theorem Write.calm_revokesContext (h : x.calm = true) : x.revokesContext k = false := by
  cases x with
  | touchCredential | setService | deleteContext => rfl
  | _ => cases h

/-- Calm writes may follow. -/
theorem Good.calm (h : Good d w held ws) (hy : ∀ x ∈ ys, x.calm = true)
    (hp : Prunes d w held ys) : Good d w held (ws ++ ys) := by
  have hmakes : (ws ++ ys).flatMap Write.makes = ws.flatMap Write.makes := by
    have hnone : ys.flatMap Write.makes = [] :=
      flatMap_eq_nil_iff.mpr fun x hx => Write.calm_makes (hy x hx)
    rw [flatMap_append, hnone, append_nil]
  have hevents (k : Uuid) : eventsFor k (ws ++ ys) = eventsFor k ws := by
    have hnone : ys.countP (Write.eventOf k) = 0 :=
      countP_eq_zero.mpr fun x hx => by simp [Write.calm_eventOf (hy x hx)]
    rw [eventsFor, countP_append, hnone]
    rfl
  have hrevokes (k : Uuid) : revokes k (ws ++ ys) = revokes k ws := by
    have hnone : ys.any (Write.revokesContext k) = false :=
      any_eq_false.mpr fun x hx => by simp [Write.calm_revokesContext (hy x hx)]
    rw [revokes, any_append, hnone, Bool.or_false]
    rfl
  have hold {x : Write} (hx : x ∈ ws ++ ys) (hn : x.calm = false) : x ∈ ws := by
    rcases mem_append.mp hx with hx | hx
    · exact hx
    · cases hn.symm.trans (hy x hx)
  constructor
  · rw [hmakes]
    exact h.distinct
  · exact fun c hc => h.credential c (hold hc rfl)
  · intro y hy'
    obtain ⟨hn, hmint⟩ := h.context y (hold hy' rfl)
    exact ⟨hn, fun k hk => ⟨(hmint k hk).1, fun t ht => (hmint k hk).2 t (hold ht rfl)⟩⟩
  · intro k
    rw [hevents, hrevokes]
    exact h.balanced k
  · intro k hk
    exact h.unrevoked k (hrevokes k ▸ hk)
  · intro k t hk
    obtain ⟨hh, hcovers⟩ := h.covered k t (hold hk rfl)
    refine ⟨hh, fun x hx hxk => ?_⟩
    rw [hrevokes]
    exact hcovers x hx hxk
  · intro k hk
    rcases mem_append.mp hk with hk | hk
    · exact h.pruned k hk
    · exact hp k hk

/-- No writes. -/
theorem Good.nothing : Good d w held [] := by
  constructor <;> simp [eventsFor, revokes, Prunes]

theorem calm_plain (h : x.calm = true) : x.Plain := by
  cases x with
  | touchCredential | setService | deleteContext => exact trivial
  | _ => cases h

theorem Settled.calm (h : Settled d w held ws) (hy : ∀ x ∈ ys, x.calm = true)
    (hp : Prunes d w held ys) : Settled d w held (ws ++ ys) := by
  refine ⟨h.good.calm hy hp, fun x hx => ?_⟩
  rcases mem_append.mp hx with hx | hx
  · exact h.plain x hx
  · exact calm_plain (hy x hx)

theorem Settled.nothing : Settled d w held [] := ⟨.nothing, forall_mem_nil _⟩

theorem Settled.more (hs : ∀ l ∈ held, l ∈ held') (h : Settled d w held ws) :
    Settled d w held' ws :=
  ⟨h.good.more hs, h.plain⟩

/-- One context and its event. -/
theorem Good.revocation {t : Int} {e : RevokeEventRow} (h : LockedContext d held k)
    (he : e.aggregateId = k) : Good d w held [.revokeContext k t, .insertEvent e] := by
  constructor
  · exact nodup_nil
  · simp
  · simp
  · intro j
    simp only [eventsFor, revokes, countP_cons, countP_nil, any_cons, any_nil,
      Write.eventOf, Write.revokesContext, he]
    split_ifs <;> simp_all
  · intro j hj
    simp only [revokes, any_cons, any_nil, Write.revokesContext, Bool.or_false,
      beq_iff_eq] at hj
    exact hj ▸ h
  · simp
  · simp [Prunes]

/-- A new context. -/
theorem Good.inserts (hn : y.revokedAt = none) (hc : ∀ k, y.credentialId = some k → ∃ c,
    LockedCredential d held c ∧ c.id = k ∧ Within y c ∧ c.revokedAt = none) : Good d w held
    [.insertContext y] := by
  constructor
  · exact nodup_singleton _
  · simp
  · intro z hz
    cases mem_singleton.mp hz
    exact ⟨hn, fun k hk => ⟨hc k hk, by simp⟩⟩
  · simp [eventsFor, revokes, Write.eventOf, Write.revokesContext]
  · simp [revokes, Write.revokesContext]
  · simp
  · simp [Prunes]

/-- A new credential. -/
theorem Good.creates {c : FlowDeveloperCredentialRow} (hn : c.revokedAt = none) :
    Good d w held [.insertCredential c] := by
  constructor
  · exact nodup_singleton _
  · simpa using hn
  · simp
  · simp [eventsFor, revokes, Write.eventOf, Write.revokesContext]
  · simp [revokes, Write.revokesContext]
  · simp
  · simp [Prunes]

end Stable
end HeteroCloud.FlowAccess
