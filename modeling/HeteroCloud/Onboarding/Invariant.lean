/-
  File:      Onboarding/Invariant.lean
  Subject:   WHAT HOLDS OF INVITATIONS AND DEVICE AUTHORIZATIONS in every committed state, against
             the steps made and the states passed before.

  * `Inv` -- a used invitation was accepted by a step made before, an approved authorization was
    approved by one, and a row that was there before has only moved on (`Later`).
-/
import HeteroCloud.Base.Runs
import HeteroCloud.Onboarding.Program

namespace HeteroCloud.Onboarding

open Base Iam List

/-! ## 1. Steps that accept, approve and issue -/

/-- The invitation whose use the statement at this point commits. -/
def Call.accepts : Call → Option Uuid
  | .joinCommit v _ | .registerCommit v _ => some v.invitation
  | _ => none

/-- The step commits the use of the invitation. -/
def Accepts (e : Event Db Key Write Call) (invitation : Uuid) : Prop :=
  ∃ i c, e.Executes i c ∧ c.accepts = some invitation

/-- The authorization was approved by `user`, by time `t`: in one call, the approval came before
the expiry, the user was a member, and the approval was committed. -/
def ApprovedAt (w : View) (a : CliDeviceAuthorizationRow) (user : Uuid) (t : Int) : Prop :=
  ∃ j b, b.id = a.id ∧ b.organizationId = a.organizationId ∧ b.expiresAt = a.expiresAt ∧
    (∃ e ∈ w.done, e.Executes j (.approveCheck b user) ∧ e.state.clock < b.expiresAt) ∧
    (∃ e ∈ w.done, e.Executes j (.approveMember b user) ∧
      e.state.db.isMember b.organizationId user = true) ∧
    ∃ e ∈ w.done, e.Executes j (.approveCommit b user) ∧ e.state.clock ≤ t

/-- The invitation `i` at a later time. -/
structure InvitationRow.Later (i j : InvitationRow) : Prop where
  organization : j.organizationId = i.organizationId
  expires : j.expiresAt = i.expiresAt
  revoked : j.revokedAt = i.revokedAt
  used : i.usedCount = 1 → j.usedCount = 1

/-- The authorization `a` at a later time. -/
structure CliDeviceAuthorizationRow.Later (a b : CliDeviceAuthorizationRow) : Prop where
  organization : b.organizationId = a.organizationId
  expires : b.expiresAt = a.expiresAt
  consumed : a.status = .consumed → b.status = .consumed
  settled : a.status ≠ .pending → b.status ≠ .pending ∧ b.approvedUserId = a.approvedUserId

theorem InvitationRow.Later.refl (i : InvitationRow) : i.Later i := ⟨rfl, rfl, rfl, fun h => h⟩

theorem InvitationRow.Later.trans {i j k : InvitationRow} (h : i.Later j) (h' : j.Later k) :
    i.Later k :=
  ⟨h'.organization.trans h.organization, h'.expires.trans h.expires, h'.revoked.trans h.revoked,
    fun hu => h'.used (h.used hu)⟩

theorem CliDeviceAuthorizationRow.Later.refl (a : CliDeviceAuthorizationRow) : a.Later a :=
  ⟨rfl, rfl, fun h => h, fun h => ⟨h, rfl⟩⟩

theorem CliDeviceAuthorizationRow.Later.trans {a b c : CliDeviceAuthorizationRow}
    (h : a.Later b) (h' : b.Later c) : a.Later c where
  organization := h'.organization.trans h.organization
  expires := h'.expires.trans h.expires
  consumed hc := h'.consumed (h.consumed hc)
  settled hs := by
    obtain ⟨hb, hu⟩ := h.settled hs
    obtain ⟨hc, hu'⟩ := h'.settled hb
    exact ⟨hc, hu'.trans hu⟩

/-! ## 2. The invariant -/

structure Inv (d : Db) (w : View) : Prop where
  invitations : UniqueKey (·.id) d.invitations
  devices : UniqueKey (·.id) d.cliDeviceAuthorizations
  used : ∀ i ∈ d.invitations, i.usedCount = 0 ∨ i.usedCount = 1 ∧ ∃ e ∈ w.done, Accepts e i.id
  approved : ∀ a ∈ d.cliDeviceAuthorizations, a.status = .approved →
    ∀ user, a.approvedUserId = some user → ApprovedAt w a user w.clock
  keptInvitation : ∀ σ ∈ w.seen, ∀ i ∈ σ.db.invitations, ∃ j ∈ d.invitations,
    j.id = i.id ∧ i.Later j
  keptDevice : ∀ σ ∈ w.seen, ∀ a ∈ σ.db.cliDeviceAuthorizations,
    ∀ b ∈ d.cliDeviceAuthorizations, b.id = a.id → a.Later b

section Inv
variable {d : Db} {w w' : View}
variable {user : Uuid}
variable {a : CliDeviceAuthorizationRow}

theorem ApprovedAt.mono {t t' : Int} (hd : ∀ e ∈ w.done, e ∈ w'.done) (ht : t ≤ t') (h : ApprovedAt
    w a user t) : ApprovedAt w' a user t' := by
  obtain ⟨j, b, hid, ho, hx, ⟨e, he, hc⟩, ⟨e', he', hm⟩, e'', he'', hcommit, hclock⟩ := h
  exact ⟨j, b, hid, ho, hx, ⟨e, hd e he, hc⟩, ⟨e', hd e' he', hm⟩, e'', hd e'' he'', hcommit,
    Int.le_trans hclock ht⟩

/-- The invariant in a later world, on the same database. -/
theorem Inv.mono (hw : w.Grows d w') (h : Inv d w) : Inv d w' where
  invitations := h.invitations
  devices := h.devices
  used i hi := by
    rcases h.used i hi with h0 | ⟨h1, e, he, ha⟩
    · exact .inl h0
    · exact .inr ⟨h1, e, hw.done e he, ha⟩
  approved a ha hs user hu := (h.approved a ha hs user hu).mono hw.done hw.clock
  keptInvitation σ hσ i hi := by
    rcases hw.only σ hσ with hold | hdb
    · exact h.keptInvitation σ hold i hi
    · exact ⟨i, hdb ▸ hi, rfl, .refl i⟩
  keptDevice σ hσ a ha b hb hid := by
    rcases hw.only σ hσ with hold | hdb
    · exact h.keptDevice σ hold a ha b hb hid
    · rw [h.devices.eq hb (hdb ▸ ha) hid]
      exact .refl a

/-! ## 3. What a write does to the two tables -/

/-- A row of `cli_device_authorizations` after the write. -/
def Write.device : Write → CliDeviceAuthorizationRow → CliDeviceAuthorizationRow
  | .pollDevice id t, a => if a.id == id then { a with lastPolledAt := some t } else a
  | .approveDevice id user t, a => if a.id == id then
      { a with status := .approved, approvedUserId := some user, approvedAt := some t } else a
  | .consumeDevice id t, a => if a.id == id then
      { a with status := .consumed, consumedAt := some t } else a
  | _, a => a

variable {x : Write}
variable {b : CliDeviceAuthorizationRow}

theorem mem_devices (h : b ∈ (x.apply d).cliDeviceAuthorizations) : x = .insertDevice b ∨ ∃ a ∈
    d.cliDeviceAuthorizations, b = x.device a := by
  cases x with
  | insertDevice =>
    rcases mem_append.mp h with h | h
    · exact .inr ⟨b, h, rfl⟩
    · rw [mem_singleton.mp h]
      exact .inl rfl
  | pollDevice | approveDevice | consumeDevice =>
    obtain ⟨a, ha, rfl⟩ := mem_map.mp h
    exact .inr ⟨a, ha, rfl⟩
  | deleteDevice => exact .inr ⟨b, mem_of_mem_filter h, rfl⟩
  | _ => exact .inr ⟨b, h, rfl⟩

/-- A row of `invitations` after the write. -/
def Write.invitation : Write → InvitationRow → InvitationRow
  | .useInvitation id, i => if i.id == id then { i with usedCount := 1 } else i
  | _, i => i

variable {j : InvitationRow}

theorem mem_invitations (h : j ∈ (x.apply d).invitations) : x = .insertInvitation j ∨ ∃ i ∈
    d.invitations, j = x.invitation i := by
  cases x with
  | insertInvitation =>
    rcases mem_append.mp h with h | h
    · exact .inr ⟨j, h, rfl⟩
    · rw [mem_singleton.mp h]
      exact .inl rfl
  | useInvitation =>
    obtain ⟨i, hi, rfl⟩ := mem_map.mp h
    exact .inr ⟨i, hi, rfl⟩
  | _ => exact .inr ⟨j, h, rfl⟩

theorem invitations_stay {i : InvitationRow} (h : i ∈ d.invitations) : x.invitation i ∈ (x.apply
    d).invitations := by
  cases x with
  | insertInvitation => exact mem_append_left _ h
  | useInvitation id => exact mem_map_of_mem (f := fun i => if i.id == id then _ else i) h
  | _ => exact h

theorem Write.invitation_later (x : Write) (i : InvitationRow) :
    (x.invitation i).id = i.id ∧ i.Later (x.invitation i) := by
  cases x with
  | useInvitation =>
    simp only [Write.invitation]
    split_ifs
    · exact ⟨rfl, rfl, rfl, rfl, fun _ => rfl⟩
    · exact ⟨rfl, .refl i⟩
  | _ => exact ⟨rfl, .refl i⟩

theorem Write.device_id (x : Write) (a : CliDeviceAuthorizationRow) : (x.device a).id = a.id := by
  cases x with
  | pollDevice | approveDevice | consumeDevice =>
    simp only [Write.device]
    split_ifs <;> rfl
  | _ => rfl

/-! ## 4. Writes that keep the invariant -/

/-- What a write needs. -/
def Fits (d : Db) (w : View) : Write → Prop
  | .insertInvitation i => i.usedCount = 0 ∧ ¬ Born ids w i.id ∧ i.id ∉ ids d
  | .useInvitation id => ∃ e ∈ w.done, Accepts e id
  | .insertDevice a => a.status = .pending ∧ ¬ Born ids w a.id ∧ a.id ∉ ids d
  | .approveDevice id user _ => ∀ a ∈ d.cliDeviceAuthorizations, a.id = id →
      a.status = .pending ∧ ApprovedAt w a user w.clock
  | _ => True

def FitsAll (w : View) : List Write → Db → Prop
  | [], _ => True
  | x :: xs, d => Fits d w x ∧ FitsAll w xs (x.apply d)

/-- The row after a write that fits is the row at a later time. -/
theorem Fits.device_later (hf : Fits d w x) (ha : a ∈ d.cliDeviceAuthorizations) : a.Later (x.device
    a) := by
  cases x with
  | pollDevice =>
    simp only [Write.device]
    split_ifs
    · exact ⟨rfl, rfl, fun h => h, fun h => ⟨h, rfl⟩⟩
    · exact .refl a
  | consumeDevice =>
    simp only [Write.device]
    split_ifs
    · exact ⟨rfl, rfl, fun _ => rfl, fun _ => ⟨by simp, rfl⟩⟩
    · exact .refl a
  | approveDevice =>
    simp only [Write.device]
    split_ifs with h
    · have hp : a.status = .pending := (hf a ha (beq_iff_eq.mp h)).1
      exact ⟨rfl, rfl, fun hc => (by cases hp.symm.trans hc), fun hs => absurd hp hs⟩
    · exact .refl a
  | _ => exact .refl a

theorem Inv.used_apply (h : Inv d w) (hf : Fits d w x) (hj : j ∈ (x.apply d).invitations) :
    j.usedCount = 0 ∨ j.usedCount = 1 ∧ ∃ e ∈ w.done, Accepts e j.id := by
  rcases mem_invitations hj with rfl | ⟨i, hi, rfl⟩
  · exact .inl hf.1
  cases x with
  | useInvitation =>
    simp only [Write.invitation]
    split_ifs with he
    · rw [← beq_iff_eq.mp he] at hf
      exact .inr ⟨rfl, hf⟩
    · exact h.used i hi
  | _ => exact h.used i hi

/-- What is said of an approval does not depend on the columns a write changes. -/
theorem ApprovedAt.same {t : Int} (h : ApprovedAt w a user t) (hid : b.id = a.id) (hl : a.Later b) :
    ApprovedAt w b user t := by
  obtain ⟨j, c, hc, ho, hx, hrest⟩ := h
  exact ⟨j, c, hc.trans hid.symm, ho.trans hl.organization.symm, hx.trans hl.expires.symm, hrest⟩

theorem Inv.approved_apply (h : Inv d w) (hf : Fits d w x) (hb : b ∈ (x.apply
    d).cliDeviceAuthorizations) (hs : b.status = .approved) (hu : b.approvedUserId = some user) :
    ApprovedAt w b user w.clock := by
  rcases mem_devices hb with rfl | ⟨a, ha, rfl⟩
  · cases hf.1.symm.trans hs
  refine ApprovedAt.same ?_ (x.device_id a) (hf.device_later ha)
  cases x with
  | pollDevice =>
    simp only [Write.device] at hs hu
    split_ifs at hs hu
    · exact h.approved a ha hs user hu
    · exact h.approved a ha hs user hu
  | approveDevice =>
    simp only [Write.device] at hs hu
    split_ifs at hs hu with he
    · cases hu
      exact (hf a ha (beq_iff_eq.mp he)).2
    · exact h.approved a ha hs user hu
  | consumeDevice =>
    simp only [Write.device] at hs hu
    split_ifs at hs hu
    exact h.approved a ha hs user hu
  | _ => exact h.approved a ha hs user hu

theorem unique_apply (h : Inv d w) (hf : Fits d w x) : UniqueKey (·.id) (x.apply d).invitations ∧
    UniqueKey (·.id) (x.apply d).cliDeviceAuthorizations := by
  have hdev {id : Uuid} {f : CliDeviceAuthorizationRow → CliDeviceAuthorizationRow}
      (hk : ∀ a, (f a).id = a.id) :
      UniqueKey (·.id) (d.updateDevice id f).cliDeviceAuthorizations := h.devices.update hk
  cases x with
  | insertInvitation =>
    exact ⟨h.invitations.insert fun j hj he => hf.2.2 (he ▸ mem_ids_invitation hj), h.devices⟩
  | useInvitation => exact ⟨h.invitations.update fun _ => rfl, h.devices⟩
  | insertDevice =>
    exact ⟨h.invitations, h.devices.insert fun b hb he => hf.2.2 (he ▸ mem_ids_device hb)⟩
  | pollDevice | approveDevice | consumeDevice => exact ⟨h.invitations, hdev fun _ => rfl⟩
  | deleteDevice => exact ⟨h.invitations, h.devices.filter _⟩
  | _ => exact ⟨h.invitations, h.devices⟩

/-- **A write that fits keeps the invariant.** -/
theorem Inv.apply (h : Inv d w) (hf : Fits d w x) : Inv (x.apply d) w where
  invitations := (unique_apply h hf).1
  devices := (unique_apply h hf).2
  used _ hj := h.used_apply hf hj
  approved _ hb hs _ hu := h.approved_apply hf hb hs hu
  keptInvitation σ hσ i hi := by
    obtain ⟨j, hj, hid, hl⟩ := h.keptInvitation σ hσ i hi
    obtain ⟨hid', hl'⟩ := x.invitation_later j
    exact ⟨x.invitation j, invitations_stay hj, hid'.trans hid, hl.trans hl'⟩
  keptDevice σ hσ a ha b hb hid := by
    rcases mem_devices hb with rfl | ⟨c, hc, rfl⟩
    · -- the row is new, and its id was never in use
      exact absurd ⟨σ, hσ, hid ▸ mem_ids_device ha⟩ hf.2.1
    · have hca : c.id = a.id := (x.device_id c).symm.trans hid
      exact (h.keptDevice σ hσ a ha c hc hca).trans (hf.device_later hc)

/-- The writes in order. -/
abbrev applyAll (ws : List Write) (d : Db) : Db := ws.foldl (fun d x => x.apply d) d

variable {ws : List Write}

theorem Inv.applyAll (h : Inv d w) (hf : FitsAll w ws d) : Inv (applyAll ws d) w := by
  induction ws generalizing d with
  | nil => exact h
  | cons _ _ ih => exact ih (h.apply hf.1) hf.2

theorem fitsAll_append {ws ws' : List Write} (h : FitsAll w ws d)
    (h' : FitsAll w ws' (Onboarding.applyAll ws d)) : FitsAll w (ws ++ ws') d := by
  induction ws generalizing d with
  | nil => exact h'
  | cons _ _ ih => exact ⟨h.1, ih h.2 h'⟩

/-! ## 5. Writes that fit anywhere -/

/-- The write is none the invariant speaks about, and makes no id. -/
structure Harmless (x : Write) : Prop where
  fits : ∀ d w, Fits d w x
  makes : x.makes = []

theorem harmless_fits (h : ∀ x ∈ ws, Harmless x) : FitsAll w ws d := by
  induction ws generalizing d with
  | nil => exact trivial
  | cons x _ ih =>
    exact ⟨(h x mem_cons_self).fits d w, ih fun y hy => h y (mem_cons_of_mem _ hy)⟩

theorem harmless_ids (h : ∀ x ∈ ws, Harmless x) {k : Nat} (hk : k ∈ ids (applyAll ws d)) : k ∈ ids
    d := by
  induction ws generalizing d with
  | nil => exact hk
  | cons x _ ih =>
    have hk' : k ∈ ids (x.apply d) := ih (fun y hy => h y (mem_cons_of_mem _ hy)) hk
    rcases Write.mem_ids hk' with hk' | hk'
    · exact hk'
    · rw [(h x mem_cons_self).makes] at hk'
      exact absurd hk' not_mem_nil

end Inv
end HeteroCloud.Onboarding
