/-
  File:      Backups/Snapshots.lean
  Subject:   WHAT A RECONCILER'S WRITE REPLACES.

  A reconciler writes back what its batch query read, before it asks the provider and again when
  the provider does not answer. With two reconcilers that hold the same backup, the write of one
  can replace what the other recorded since by the older values.
-/
import HeteroCloud.Backups.Reconciler

namespace HeteroCloud.Backups

open Base.Atomic Iam Services List
open Base (Json UniqueKey updateWhere)
open Store (StoreError)

/-! ## 1. The property -/

/-- The points of a reconciler at which it writes. -/
def Point.writes : Point → List Uuid
  | .next (b :: _) | .record b _ _ _ | .release b _ => [b.id]
  | _ => []

def Point.releases : Point → Bool
  | .release _ _ => true
  | _ => false

/-- The phase and status `w` come from an answer for the backup that the call `i` has received, and
the row has been the same in the sense of `same` since. -/
def ComesFrom (u : Setup) (past : List (Event Tables Point Choice)) (i : Nat) (id : Uuid)
    (w : Phase × Json) (same : FlashBackup → Prop) : Prop :=
  ∃ after before e request backup rest response verifiedAt, past = after ++ e :: before ∧
    e.label = .act i (.ask request backup rest) (.answer response verifiedAt) ∧ backup.id = id ∧
    verdict u.lib id response ≠ .unavailable ∧
    (verdict u.lib id response).write backup verifiedAt = some w ∧
    ∀ e' ∈ after ++ [e], ∀ row ∈ e'.state.shared.flashBackups, row.id = id → same row

/-- **The row `b` becomes `b'` by a write of the reconciler `i` at `l`**: a phase or verification
that is replaced was recorded before the answer that the new one comes from was received. -/
structure Fresh (u : Setup) (past : List (Event Tables Point Choice)) (i : Nat) (l : Point)
    (b b' : FlashBackup) : Prop where
  phase : b'.phase ≠ b.phase → l.releases = true ∨
    ∃ w, ComesFrom u past i b.id w (·.phase = b.phase) ∧ b'.phase = w.1
  verified : verification b'.status ≠ verification b.status → l.releases = true ∨
    ∃ w, ComesFrom u past i b.id w (fun row => verification row.status = verification b.status) ∧
      verification b'.status = verification w.2

/-- No backup is in the hands of both. -/
def Separate (l m : Point) : Prop := (l.batch.map (·.id)).Disjoint (m.batch.map (·.id))

/-! ## 2. What is in the hands of one reconciler -/

/-- The row has the phase and verification that were read, but for a deletion requested since. -/
def Matches (t : Tables) (b : FlashBackup) : Prop :=
  ∀ row ∈ t.flashBackups, row.id = b.id → verification row.status = verification b.status ∧
    (row.deleteRequested = false → row.phase = b.phase)

/-- What the rows with other ids come from. -/
def Leaves (ids : List Uuid) (t t' : Tables) : Prop :=
  ∀ row' ∈ t'.flashBackups, row'.id ∉ ids →
    (∃ row ∈ t.flashBackups, row.id = row'.id ∧
      verification row'.status = verification row.status ∧
      (row'.deleteRequested = false → row.deleteRequested = false ∧ row'.phase = row.phase)) ∨
    ∀ row ∈ t.flashBackups, row.id ≠ row'.id

structure Held (t : Tables) (l : Point) : Prop where
  base : At t l
  unique : UniqueKey (·.id) l.batch
  same : ∀ b ∈ l.batch, Matches t b

section Leaving
variable {u : Setup} {t t' : Tables} {l l' m : Point} {a : Choice} {b : FlashBackup}
  {ids : List Uuid} {p : FlashBackup → Bool} {f : FlashBackup → FlashBackup}

theorem Leaves.refl (ids : List Uuid) (t : Tables) : Leaves ids t t :=
  fun row hrow _ => .inl ⟨row, hrow, rfl, rfl, fun h => ⟨h, rfl⟩⟩

/-- Rows with the ids are changed. -/
theorem Leaves.update (hid : ∀ row, (f row).id = row.id)
    (hp : ∀ row, p row = true → row.id ∈ ids) :
    Leaves ids t { t with flashBackups := updateWhere p f t.flashBackups } := by
  intro row' hrow' hne
  obtain ⟨row, hrow, ⟨hsel, rfl⟩ | ⟨_, rfl⟩⟩ := Base.mem_updateWhere hrow'
  · rw [hid] at hne
    exact absurd (hp row hsel) hne
  · exact .inl ⟨row', hrow, rfl, rfl, fun h => ⟨h, rfl⟩⟩

/-- A deletion is requested. -/
theorem Leaves.requestDelete (now : Time) :
    Leaves ids t { t with flashBackups := updateWhere p (·.requestDelete now) t.flashBackups } := by
  intro row' hrow' _
  obtain ⟨row, hrow, ⟨_, rfl⟩ | ⟨_, rfl⟩⟩ := Base.mem_updateWhere hrow'
  · exact .inl ⟨row, hrow, rfl, rfl, fun h => Bool.noConfusion h⟩
  · exact .inl ⟨row', hrow, rfl, rfl, fun h => ⟨h, rfl⟩⟩

/-- **What an action leaves alone.** -/
theorem act_leaves (h : act u a t l = some (t', l')) : Leaves l.writes t t' := by
  have hone {b : FlashBackup} {now : Time} {phase : Phase} {status : Json} :
      Leaves [b.id] t (updateFlashBackupStatus now b.id phase status t) :=
    Leaves.update (fun _ => rfl) fun row hrow => mem_singleton.mpr (beq_iff_eq.mp hrow)
  cases act_does h with
  | request _ _ _ _ _ hreq =>
    rcases requestFlashBackupTo_spec hreq with ⟨rfl, _⟩ | ⟨rfl, _, hins⟩
    · exact Leaves.refl _ _
    intro row' hrow' hne
    rcases mem_append.mp hrow' with hold | hnew
    · exact Leaves.refl _ t row' hold hne
    · rw [mem_singleton.mp hnew]
      exact .inr hins.id
  | requestDelete _ _ _ _ _ hreq =>
    rw [requestFlashBackupDelete_spec hreq]
    exact Leaves.requestDelete _
  | expire => exact Leaves.requestDelete _
  | attach =>
    intro row' hrow' _
    obtain ⟨row, hrow, ⟨_, rfl⟩ | ⟨_, rfl⟩⟩ := Base.mem_updateWhere hrow'
    · exact .inl ⟨row, hrow, rfl, rfl, fun h => ⟨h, rfl⟩⟩
    · exact .inl ⟨row', hrow, rfl, rfl, fun h => ⟨h, rfl⟩⟩
  | change => exact fun row hrow hne => Leaves.refl [] t row hrow hne
  | back | records => exact hone
  | releases =>
    refine Leaves.update (fun _ => rfl) fun row hrow => ?_
    rw [Bool.and_eq_true] at hrow
    exact mem_singleton.mpr (beq_iff_eq.mp hrow.1)
  | _ => exact Leaves.refl _ t

theorem Matches.leaves (h : Matches t b) (hk : Known t b) (hl : Leaves ids t t')
    (hb : b.id ∉ ids) : Matches t' b := by
  intro row' hrow' hid
  rcases hl row' hrow' (hid ▸ hb) with ⟨row, hrow, he, hver, hreq⟩ | hnew
  · obtain ⟨hv, hp⟩ := h row hrow (he.trans hid)
    refine ⟨hver.trans hv, fun hd => ?_⟩
    obtain ⟨hd', hphase⟩ := hreq hd
    rw [hphase]
    exact hp hd'
  · obtain ⟨row, hrow, hlater⟩ := hk.row
    exact absurd (hlater.id.trans hid.symm) (hnew row hrow)

/-- What a point writes is in its batch. -/
theorem writes_batch {id : Uuid} (h : id ∈ l.writes) : id ∈ l.batch.map (·.id) := by
  unfold Point.writes at h
  split at h
  · rw [mem_singleton.mp h]
    exact mem_cons_self
  · rw [mem_singleton.mp h]
    exact mem_cons_self
  · rw [mem_singleton.mp h]
    exact mem_cons_self
  · cases h

/-- **Another reconciler's backups are left alone.** -/
theorem Held.stable (hm : Held t m) (hi : t.Inv u.home) (hl : Held t l)
    (h : act u a t l = some (t', l')) (hs : Separate l m) : Held t' m := by
  refine ⟨hm.base.grows (act_keeps hi hl.base h).2.1, hm.unique, fun b hb => ?_⟩
  refine (hm.same b hb).leaves (hm.base.known b hb) (act_leaves h) fun hw => ?_
  exact hs (writes_batch hw) (mem_map_of_mem hb)

/-- The rest of a batch. -/
theorem Held.rest {rest : List FlashBackup} (hl : Held t l) (hb : l.batch = b :: rest)
    (h : act u a t l = some (t', l')) (hw : l.writes ⊆ [b.id]) (hbase : At t' l')
    (hnext : l'.batch = rest) : Held t' l' := by
  have hu := hl.unique
  rw [hb] at hu
  refine ⟨hbase, ?_, fun c hc => ?_⟩
  · rw [hnext]
    exact (nodup_cons.mp hu).2
  rw [hnext] at hc
  have hmem : c ∈ l.batch := hb ▸ mem_cons_of_mem _ hc
  refine (hl.same c hmem).leaves (hl.base.known c hmem) (act_leaves h) fun hid => ?_
  have he := mem_singleton.mp (hw hid)
  exact (nodup_cons.mp hu).1 (mem_map.mpr ⟨c, hc, he⟩)

/-- The row that was written back has what was read. -/
theorem matches_record {now : Time} (hi : t.Inv u.home) :
    Matches (updateFlashBackupStatus now b.id b.phase b.status t) b := by
  intro row' hrow' hid
  obtain ⟨row, hrow, ⟨_, rfl⟩ | ⟨hne, rfl⟩⟩ := Base.mem_updateWhere hrow'
  · refine ⟨rfl, fun hd => ?_⟩
    have hd : row.deleteRequested = false := hd
    have hlive : ¬ row.deletedAt.isSome := by
      intro ht
      rw [(hi.consistent row hrow).requested ht] at hd
      cases hd
    show (if row.deletedAt.isSome then Phase.deleted
      else if row.deleteRequested then .deleting else b.phase) = b.phase
    rw [if_neg hlive, hd]
    rfl
  · rw [beq_eq_false_iff_ne] at hne
    exact absurd hid hne

/-- **What an action does to the batch.** -/
inductive Moves (t t' : Tables) (l l' : Point) : Prop where
  | empty (h : l'.batch = [])
  | reads (now : Time) (ht : t' = t) (h : l'.batch = pendingFlashBackups now t)
  | keeps (ht : t' = t) (h : l'.batch = l.batch)
  | back (b : FlashBackup) (rest : List FlashBackup) (now : Time) (hl : l = .next (b :: rest))
      (ht : t' = updateFlashBackupStatus now b.id b.phase b.status t) (h : l'.batch = b :: rest)
  | drops (b : FlashBackup) (rest : List FlashBackup) (hl : l.batch = b :: rest)
      (hw : l.writes ⊆ [b.id]) (h : l'.batch = rest)

theorem writes_first {rest : List FlashBackup} (h : l.batch = b :: rest) : l.writes ⊆ [b.id] := by
  unfold Point.writes
  split
  · cases h
    exact List.Subset.refl _
  · cases h
    exact List.Subset.refl _
  · cases h
    exact List.Subset.refl _
  · exact nil_subset _

theorem turn_batch (rest : List FlashBackup) : (b.turn rest).batch = b :: rest := by
  unfold FlashBackup.turn
  split <;> rfl

theorem act_moves (h : act u a t l = some (t', l')) : Moves t t' l l' := by
  cases act_does h with
  | ends _ _ hend =>
    refine .empty ?_
    rcases hend with rfl | rfl | ⟨e, rfl⟩ <;> rfl
  | request | requestDelete | expire | attach | change => exact .empty rfl
  | reads now => exact .reads now rfl rfl
  | back b rest now => exact .back b rest now rfl rfl (turn_batch rest)
  | turn b rest => exact .keeps rfl (turn_batch rest)
  | deletes | deleted | judges => exact .keeps rfl rfl
  | skips _ b rest hb => exact .drops b rest hb (writes_first hb) rfl
  | records b rest | releases b rest => exact .drops b rest rfl (writes_first rfl) rfl

/-- **The batch of the call that acts.** -/
theorem act_held (hi : t.Inv u.home) (hl : Held t l) (h : act u a t l = some (t', l')) :
    Held t' l' := by
  have hbase := (act_keeps hi hl.base h).2.2
  cases act_moves h with
  | empty he =>
    refine ⟨hbase, ?_, fun b hb => ?_⟩
    · rw [he]
      exact nodup_nil
    · rw [he] at hb
      cases hb
  | reads _ ht he =>
    subst ht
    refine ⟨hbase, ?_, fun b hb row hrow hid => ?_⟩
    · rw [he]
      exact pending_unique hi.unique
    rw [he] at hb
    rw [hi.unique.eq hrow (mem_pending hb) hid]
    exact ⟨rfl, fun _ => rfl⟩
  | keeps ht he =>
    subst ht
    refine ⟨hbase, ?_, fun b hb => ?_⟩
    · rw [he]
      exact hl.unique
    · rw [he] at hb
      exact hl.same b hb
  | back b _ _ hpoint ht he =>
    subst hpoint
    have hu := hl.unique
    refine ⟨hbase, ?_, fun c hc => ?_⟩
    · rw [he]
      exact hu
    rw [he] at hc
    rcases mem_cons.mp hc with rfl | hrest
    · rw [ht]
      exact matches_record hi
    refine (hl.same c hc).leaves (hl.base.known c hc) (act_leaves h) fun hid => ?_
    have hid : c.id = b.id := mem_singleton.mp hid
    exact (nodup_cons.mp hu).1 (mem_map.mpr ⟨c, hrest, hid⟩)
  | drops _ _ hb hw he => exact hl.rest hb h hw hbase he

end Leaving

/-! ## 3. Runs with one holder for each backup -/

section Runs
variable {u : Setup} {t : Tables} {past : List (Event Tables Point Choice)}
  {σ σ' : System Tables Point} {i : Nat} {l : Point} {a : Choice} {b b' : FlashBackup}

theorem outline_separate (u : Setup) :
    Outline (program u) (fun _ _ _ => True) Separate (·.Inv u.home) Held where
  start {t l} hs hi := by
    have hempty : l.batch = [] := by
      cases l <;> first | rfl | cases hs
    refine ⟨(outline u).start hs hi, ?_, fun b hb => ?_⟩
    · rw [hempty]
      exact nodup_nil
    · rw [hempty] at hb
      cases hb
  act hi hl _ h := ⟨(act_keeps hi hl.base h).1, act_held hi hl h⟩
  stable hi hl _ h hs hm := hm.stable hi hl h hs

/-- The row under the same id after a change of rows. -/
theorem row_updated {p : FlashBackup → Bool} {f : FlashBackup → FlashBackup} {t : Tables}
    (hu : UniqueKey (·.id) t.flashBackups) (hid : ∀ row, (f row).id = row.id)
    (hb : b ∈ t.flashBackups) (hb' : b' ∈ updateWhere p f t.flashBackups) (he : b'.id = b.id) :
    b' = if p b then f b else b := by
  obtain ⟨row, hrow, ⟨hp, rfl⟩ | ⟨hp, rfl⟩⟩ := Base.mem_updateWhere hb'
  · rw [hid] at he
    rw [← hu.eq hrow hb he, if_pos hp]
  · rw [← hu.eq hrow hb he, hp]
    rfl

/-- **A reconciler's write, by the point it is made at.** -/
theorem write_cases (hi : σ.shared.Inv u.home) (hs : Step (program u) σ (.act i l a) σ')
    (hw : l.writes ≠ []) (hb : b ∈ σ.shared.flashBackups) (hb' : b' ∈ σ'.shared.flashBackups)
    (he : b'.id = b.id) : b' = b ∨ l.releases = true ∨
      (∃ c rest now, l = .next (c :: rest) ∧ c.id = b.id ∧ b' = b.record now c.phase c.status) ∨
      ∃ c rest phase status now, l = .record c rest phase status ∧ c.id = b.id ∧
        b' = b.record now phase status := by
  cases hs with
  | act _ _ _ s l' _ ha =>
    have ha : act u a σ.shared l = some (s, l') := ha
    have hsame (h : s = σ.shared) : b' = b := by
      subst h
      exact hi.unique.eq hb' hb he
    have hrecord {c : FlashBackup} {now : Time} {phase : Phase} {status : Json}
        (h : s = updateFlashBackupStatus now c.id phase status σ.shared) :
        b' = b ∨ c.id = b.id ∧ b' = b.record now phase status := by
      subst h
      have hrow := row_updated (p := fun row => row.id == c.id)
        (f := (·.record now phase status)) hi.unique (fun _ => rfl) hb hb' he
      by_cases hid : b.id = c.id
      · rw [if_pos (beq_iff_eq.mpr hid)] at hrow
        exact .inr ⟨hid.symm, hrow⟩
      · rw [if_neg (fun h => hid (beq_iff_eq.mp h))] at hrow
        exact .inl hrow
    cases l with
    | next batch =>
      cases batch with
      | nil => exact absurd rfl hw
      | cons c rest =>
        cases a with
        | call now =>
          cases ha
          rcases hrecord rfl with h | ⟨hid, h⟩
          · exact .inl h
          · exact .inr (.inr (.inl ⟨c, rest, now, rfl, hid, h⟩))
        | fail =>
          cases ha
          exact .inl (hsame rfl)
        | answer | change => cases ha
    | record c rest phase status =>
      cases a with
      | call now =>
        cases ha
        rcases hrecord rfl with h | ⟨hid, h⟩
        · exact .inl h
        · exact .inr (.inr (.inr ⟨c, rest, phase, status, now, rfl, hid, h⟩))
      | fail =>
        cases ha
        exact .inl (hsame rfl)
      | answer | change => cases ha
    | release => exact .inr (.inl rfl)
    | _ => exact absurd rfl hw

/-- Recording a phase replaces one only where no deletion is requested. -/
theorem record_phase {now : Time} {phase : Phase} {status : Json} (hc : b.Consistent)
    (h : (b.record now phase status).phase ≠ b.phase) :
    b.deleteRequested = false ∧ (b.record now phase status).phase = phase := by
  have hphase : (b.record now phase status).phase =
    if b.deletedAt.isSome then .deleted else if b.deleteRequested then .deleting else phase := rfl
  by_cases hr : b.deleteRequested = true
  · rw [hphase, hc.phase_eq hr] at h
    simp [hr] at h
  have hlive : ¬ b.deletedAt.isSome := fun ht => hr (hc.requested ht)
  rw [hphase, if_neg hlive, if_neg hr]
  exact ⟨Bool.eq_false_iff.mpr hr, rfl⟩

/-- What a provider that does not answer leaves in the status. -/
theorem write_unavailable {w : Phase × Json} {verifiedAt : String}
    (h : Verdict.unavailable.write b verifiedAt = some w) :
    w.1 = b.phase ∧ verification w.2 = verification b.status := by
  obtain ⟨status, hs, rfl⟩ := Option.map_eq_some_iff.mp h
  exact ⟨rfl, Json.index_set hs (by decide)⟩

/-- How a reconciler comes to record a status. -/
theorem record_from {t t' : Tables} {m : Point} {c : FlashBackup} {rest : List FlashBackup}
    {phase : Phase} {status : Json} (h : act u a t m = some (t', .record c rest phase status)) :
    ∃ request response verifiedAt, m = .ask request c rest ∧ a = .answer response verifiedAt ∧
      (verdict u.lib c.id response).write c verifiedAt = some (phase, status) := by
  generalize hl : Point.record c rest phase status = l at h
  cases act_does h with
  | ends _ _ hend => rcases hend with rfl | rfl | ⟨e, rfl⟩ <;> cases hl
  | back | turn =>
    unfold FlashBackup.turn at hl
    split at hl <;> cases hl
  | judges r _ _ response verifiedAt _ ha hw =>
    cases hl
    exact ⟨r, response, verifiedAt, rfl, ha, hw⟩
  | _ => cases hl

/-- **With one holder for each backup, what a reconciler replaces is older than what it writes.** -/
theorem reconcilers_write_fresh (hr : Run (program u) (System.quiet t) past σ) (h₀ : Initial u t)
    (hsep : ∀ e ∈ past, e.state.Apart Separate) (hs : Step (program u) σ (.act i l a) σ')
    (hw : l.writes ≠ []) (hb : b ∈ σ.shared.flashBackups) (hb' : b' ∈ σ'.shared.flashBackups)
    (he : b'.id = b.id) : Fresh u past i l b b' := by
  have hholds : Holds (·.Inv u.home) Held σ :=
    (outline_separate u).run hr (fun e _ => admits_any e) hsep (Holds.quiet h₀.inv)
  have hpassed (e : Event Tables Point Choice) (he : e ∈ past) :
      Holds (·.Inv u.home) Held e.state :=
    (outline_separate u).passed hr (fun e _ => admits_any e) hsep (Holds.quiet h₀.inv) he
  have hinv := hholds.inv
  have hcall : σ.calls i = some l := by
    cases hs with
    | act _ _ _ _ _ hi => exact hi
  have hheld := hholds.loc i l hcall
  rcases write_cases hinv hs hw hb hb' he with rfl | hrel | ⟨c, rest, now, rfl, hid, rfl⟩ |
    ⟨c, rest, phase, status, now, rfl, hid, rfl⟩
  · exact ⟨fun h => absurd rfl h, fun h => absurd rfl h⟩
  · exact ⟨fun _ => .inl hrel, fun _ => .inl hrel⟩
  · -- what was read is still there
    obtain ⟨hver, hphase⟩ := hheld.same c mem_cons_self b hb hid.symm
    refine ⟨fun h => ?_, fun h => absurd hver.symm h⟩
    obtain ⟨hd, hnew⟩ := record_phase (hinv.consistent b hb) h
    rw [hnew] at h
    exact absurd (hphase hd).symm h
  -- the answer was received by the call itself, and the row has not changed since
  obtain ⟨hver, hphase⟩ := hheld.same c mem_cons_self b hb hid.symm
  obtain ⟨after, before, σ₁, m, a₁, s, hpast, hm, hact, hsince⟩ :=
    hr.since (fun _ => rfl) hcall rfl
  have hact : act u a₁ σ₁.shared m = some (s, .record c rest phase status) := hact
  obtain ⟨request, response, verifiedAt, rfl, rfl, hwrite⟩ := record_from hact
  have hrow (e : Event Tables Point Choice)
      (he : e ∈ after ++ [⟨σ₁, .act i (.ask request c rest) (.answer response verifiedAt)⟩]) :
      e ∈ past ∧ Matches e.state.shared c := by
    rcases mem_append.mp he with he | he
    · have hmem : e ∈ past := hpast ▸ mem_append_left _ he
      exact ⟨hmem, ((hpassed e hmem).loc i _ (hsince e he)).same c mem_cons_self⟩
    have hmem : e ∈ past := by
      rw [hpast, mem_singleton.mp he]
      exact mem_append_right _ mem_cons_self
    rw [mem_singleton.mp he] at hmem ⊢
    exact ⟨hmem, ((hpassed _ hmem).loc i _ hm).same c mem_cons_self⟩
  refine ⟨fun h => .inr ⟨(phase, status), ?_⟩, fun h => .inr ⟨(phase, status), ?_, rfl⟩⟩
  · obtain ⟨hd, hnew⟩ := record_phase (hinv.consistent b hb) h
    have hav : verdict u.lib c.id response ≠ .unavailable := by
      intro hun
      rw [hun] at hwrite
      rw [hnew] at h
      exact h ((write_unavailable hwrite).1.trans (hphase hd).symm)
    refine ⟨⟨after, before, _, request, c, rest, response, verifiedAt, hpast, rfl, hid,
      hid ▸ hav, hid ▸ hwrite, fun e he row hrowmem hrid => ?_⟩, hnew⟩
    obtain ⟨hmem, hmatch⟩ := hrow e he
    -- no deletion was requested then, or it still were
    have hlive : row.deleteRequested = false := by
      by_contra hreq
      obtain ⟨row', hrow', hlater⟩ := grows_from hr h₀ hmem row hrowmem
      have hsame : row' = b := hinv.unique.eq hrow' hb (hlater.id.trans hrid)
      have hreq' := hlater.deleteRequested (Bool.eq_true_of_not_eq_false hreq)
      rw [hsame, hd] at hreq'
      cases hreq'
    rw [(hmatch row hrowmem (hrid.trans hid.symm)).2 hlive, hphase hd]
  · have hav : verdict u.lib c.id response ≠ .unavailable := by
      intro hun
      rw [hun] at hwrite
      exact h ((write_unavailable hwrite).2.trans hver.symm)
    refine ⟨after, before, _, request, c, rest, response, verifiedAt, hpast, rfl, hid,
      hid ▸ hav, hid ▸ hwrite, fun e he row hrowmem hrid => ?_⟩
    obtain ⟨_, hmatch⟩ := hrow e he
    rw [(hmatch row hrowmem (hrid.trans hid.symm)).1, hver]

end Runs

/-! ## 4. One reconciler, and two -/

/-- The provider reports that the backup is ready. -/
def readyAnswer : Choice :=
  .answer (.ok (.object [("id", .string ""), ("phase", .string "ready")])) "12:00"

/-- The hands of any two calls are separate. -/
def separateCalls (m : Machine Tables Point) : Bool :=
  decide (m.calls.Pairwise fun l l' =>
    ((l.batch.map (·.id)).all fun k => !(l'.batch.map (·.id)).contains k) = true)

variable {m : Machine Tables Point}

theorem separate_apart (h : separateCalls m = true) : m.system.Apart Separate := by
  refine Machine.apart (fun l l' => disjoint_symm) ((of_decide_eq_true h).imp ?_)
  intro l l' hall k hk hk'
  have := all_eq_true.mp hall k hk
  simp [hk'] at this

/-- A run of one reconciler up to where it records that the backup is ready. -/
def oneReconciler : List (Move Point Choice) :=
  [.start (.request oneRequest), .act 0 (.call 5 40), .start .reconciler, .act 1 (.call 6 0),
    .act 1 (.call 7 0), .act 1 readyAnswer, .act 1 (.call 8 0)]

/-- The last action of the call `i` replaces the phase of a row. -/
def replaces (i : Nat) (old new : Phase) (x : Trail Tables Point Choice × Machine Tables Point) :
    Bool :=
  match x.1 with
  | (m, .act j l _) :: _ => j == i && !l.writes.isEmpty &&
      m.shared.flashBackups.any fun b => b.phase == old &&
        x.2.shared.flashBackups.any fun b' => b'.id == b.id && b'.phase == new
  | _ => false

theorem replaces_spec {i : Nat} {old new : Phase} {trail : Trail Tables Point Choice} (h : replaces
    i old new (trail, m) = true) : ∃ m₀ l a rest, trail = (m₀, .act i l a) :: rest ∧ l.writes ≠ [] ∧
    ∃ b ∈ m₀.shared.flashBackups, ∃ b' ∈ m.shared.flashBackups, b'.id = b.id ∧ b.phase = old ∧
    b'.phase = new := by
  unfold replaces at h
  split at h
  · rename_i m₀ j l a rest htrail
    simp only [Bool.and_eq_true, beq_iff_eq, any_eq_true, Bool.not_eq_true',
      isEmpty_eq_false_iff] at h
    obtain ⟨⟨rfl, hw⟩, b, hb, hold, b', hb', hid, hnew⟩ := h
    exact ⟨m₀, l, a, rest, htrail, hw, b, hb, b', hb', hid, hold, hnew⟩
  · cases h

/-- One reconciler records `ready` for `pending`. -/
theorem reconcilers_write_fresh_ready : ∃ past σ σ' i l a b b',
    Run (program oneOrganization) (System.quiet oneService) past σ ∧
    Step (program oneOrganization) σ (.act i l a) σ' ∧ b ∈ σ.shared.flashBackups ∧
    b' ∈ σ'.shared.flashBackups ∧ b.phase = .pending ∧ b'.phase = .ready ∧
    Fresh oneOrganization past i l b b' := by
  obtain ⟨trail, m, hr, hc⟩ := play_any (program oneOrganization) oneService oneReconciler
    (fun x => replaces 1 .pending .ready x && x.1.all fun y => separateCalls y.1)
    (by decide +kernel)
  obtain ⟨hrep, hsep⟩ := Bool.and_eq_true_iff.mp hc
  obtain ⟨m₀, l, a, rest, rfl, hw, b, hb, b', hb', hid, hold, hnew⟩ := replaces_spec hrep
  cases hr with
  | step hrun hs =>
    refine ⟨_, _, _, 1, l, a, b, b', hrun, hs, hb, hb', hold, hnew,
      reconcilers_write_fresh hrun oneService_initial (fun e he => ?_) hs hw hb hb' hid⟩
    obtain ⟨y, hy, rfl⟩ := mem_map.mp he
    exact separate_apart (all_eq_true.mp hsep y (mem_cons_of_mem _ hy))

/-- Two reconcilers read the backup; the second records that it is ready; the first writes back what
it had read. -/
def twoReconcilers : List (Move Point Choice) :=
  [.start (.request oneRequest), .act 0 (.call 5 40), .start .reconciler, .act 1 (.call 6 0),
    .start .reconciler, .act 2 (.call 6 0), .act 2 (.call 7 0), .act 2 readyAnswer,
    .act 2 (.call 8 0), .act 1 (.call 9 0)]

/-- The call `i` has not asked the provider. -/
def silent (i : Nat) (trail : Trail Tables Point Choice) : Bool :=
  trail.all fun y =>
    match y.2 with
    | .act j (.ask _ _ _) _ => j != i
    | _ => true

/-- **A recorded `ready` is replaced by the `pending` read before it**, by a reconciler that has
received no answer at all. -/
theorem reconcilers_write_stale : ∃ t past σ σ' i l a b b', Initial oneOrganization t ∧
    Run (program oneOrganization) (System.quiet t) past σ ∧
    Step (program oneOrganization) σ (.act i l a) σ' ∧ l.writes ≠ [] ∧
    b ∈ σ.shared.flashBackups ∧ b' ∈ σ'.shared.flashBackups ∧ b'.id = b.id ∧
    b.phase = .ready ∧ b'.phase = .pending ∧ ¬ Fresh oneOrganization past i l b b' := by
  obtain ⟨trail, m, hr, hc⟩ := play_any (program oneOrganization) oneService twoReconcilers
    (fun x => replaces 1 .ready .pending x && silent 1 x.1 &&
      x.1.all fun y => match y.2 with | .act _ (.release _ _) _ => false | _ => true)
    (by decide +kernel)
  simp only [Bool.and_eq_true] at hc
  obtain ⟨⟨hrep, hsilent⟩, hrel⟩ := hc
  obtain ⟨m₀, l, a, rest, rfl, hw, b, hb, b', hb', hid, hold, hnew⟩ := replaces_spec hrep
  cases hr with
  | step hrun hs =>
    refine ⟨oneService, _, _, _, 1, l, a, b, b', oneService_initial, hrun, hs, hw, hb, hb', hid,
      hold, hnew, fun hf => ?_⟩
    rcases hf.phase (by rw [hold, hnew]; exact fun h => Phase.noConfusion h) with
      hr | ⟨w, ⟨after, before, e, request, backup, rest', response, verified, hpast, hlabel, _⟩, _⟩
    · have hno := all_eq_true.mp hrel _ mem_cons_self
      cases l with
      | release => cases hno
      | _ => cases hr
    have hmem : e ∈ Trail.events rest := by
      unfold Trail.events
      rw [hpast]
      exact mem_append_right _ mem_cons_self
    obtain ⟨y, hy, rfl⟩ := mem_map.mp hmem
    have hno := all_eq_true.mp hsilent y (mem_cons_of_mem _ hy)
    have hlabel : y.2 = .act 1 (.ask request backup rest') (.answer response verified) := hlabel
    rw [hlabel] at hno
    cases hno

end HeteroCloud.Backups
