/-
  File:      FlowAccess/Credentials.lean
  Subject:   WHAT A FLOW DEVELOPER CREDENTIAL IS GOOD FOR, and for how long, in every interleaving.
-/
import HeteroCloud.Base.Schedule
import HeteroCloud.FlowAccess.Points

namespace HeteroCloud.FlowAccess

open Base Iam List

section Credentials
variable {d : Db} {t : Int} {issued : List Nat} {past before later : List (Event Db Key Write Call)}
  {σ σ₁ σ' : System Db Key Write Call} {mover : Option Nat} {ws : List Write}

/-! ## 1. Commits -/

variable (e : Event Db Key Write Call)

/-- The step commits a revocation or a rotation of the credential. -/
def Mutates (k : Cascade) : Prop :=
  ∃ i count, e.Executes i (.cascadeCommit k count)

/-- The step commits a mint of the context. -/
def Mints (m : Minting) (context : Uuid) : Prop :=
  ∃ i r, e.mover = some i ∧ e.state.runs i = some r ∧ r.call = .mintCommit m ∧
    .insertContext (m.context context) ∈ r.pending

/-- The points whose statement is a commit. -/
inductive Call.Commits : Call → Prop where
  | cascade (k : Cascade) (count : Nat) : Commits (.cascadeCommit k count)
  | mint (m : Minting) : Commits (.mintCommit m)
  | other (success : Success) : Commits (.commit success)

theorem exec_commit {clock now : Int} {uuid : Nat → Nat} {call c : Call}
    (ho : exec clock now uuid d call = some (.commit c)) : call.Commits := by
  cases call with
  | cascadeCommit k count => exact .cascade k count
  | mintCommit m => exact .mint m
  | commit success => exact .other success
  | createFlowDeveloperCredential =>
    simp only [exec, Option.some.injEq] at ho
    split_ifs at ho
  | credentialService =>
    simp only [exec, credentialService, Option.some.injEq] at ho
    split at ho <;> cases ho
  | credentialCount =>
    simp only [exec, credentialCount, abort, Option.some.injEq] at ho
    split_ifs at ho
  | insertCredential =>
    simp only [exec, insertCredential, abort, Option.some.injEq] at ho
    split_ifs at ho
  | revokeFlowDeveloperCredential =>
    simp only [exec, revokeFlowDeveloperCredential, Option.some.injEq] at ho
    split at ho <;> cases ho
  | rotateFlowDeveloperCredential =>
    simp only [exec, rotateFlowDeveloperCredential, abort, Option.some.injEq] at ho
    split at ho
    · split_ifs at ho
    · cases ho
  | mutateCredential =>
    simp only [exec, mutateCredential, abort, Option.some.injEq] at ho
    split at ho
    · cases ho
    · split_ifs at ho
  | cascadeUpdate =>
    simp only [exec, cascadeUpdate, abort, Option.some.injEq] at ho
    split_ifs at ho
  | cascadeEvents _ _ rest => cases rest <;> cases ho
  | recordInsert =>
    simp only [exec, recordInsert, abort, Option.some.injEq] at ho
    split_ifs at ho
  | mintFlowAccessContext =>
    simp only [exec, mintFlowAccessContext, settle, Option.some.injEq] at ho
    split at ho
    · split_ifs at ho
    · cases ho
  | listForDeveloperCredential =>
    simp only [exec, listForDeveloperCredential, settle, Option.some.injEq] at ho
    split at ho <;> cases ho
  | revokeContextWithDeveloperCredential =>
    simp only [exec, revokeContextWithDeveloperCredential, settle, Option.some.injEq] at ho
    split at ho <;> cases ho
  | lockCredentialContext =>
    simp only [exec, lockCredentialContext, Option.some.injEq] at ho
    split at ho <;> cases ho
  | revokeFlowAccessContext =>
    simp only [exec, revokeFlowAccessContext, Option.some.injEq] at ho
    split at ho <;> cases ho
  | _ => cases ho

/-- A step leaves the database, or commits the writes of a call that can. -/
theorem step_database (hs : StepBy program σ mover σ') :
    σ'.db = σ.db ∨ ∃ i r, mover = some i ∧ σ.runs i = some r ∧ r.call.Commits ∧
      σ'.db = applyAll r.pending σ.db := by
  cases hs with
  | commit i r uuid c hi _ ho =>
    have hexec : exec σ.clock (r.began.getD σ.clock) uuid (program.view r σ.db) r.call =
        some (.commit c) := ho
    exact .inr ⟨i, r, rfl, hi, exec_commit hexec, rfl⟩
  | _ => exact .inl rfl

variable (h : Outlined past σ)
include h

/-- What is committed is good. -/
theorem Outlined.good {i : Nat} {r : Running Key Write Call} (hi : σ.runs i = some r) (hc :
    r.call.Commits) : Good σ.db (σ.world past) r.held r.pending := by
  obtain ⟨_, _, hA⟩ := h.loc i r hi
  obtain ⟨call, held, pending, began⟩ := r
  cases hc with
  | cascade =>
    obtain ⟨ks, hk⟩ := hA
    exact hk.good
  | mint => exact Minted.good hA
  | other => exact Settled.good hA

/-! ## 2. One step -/

/-- Only a rotation sets a secret. -/
theorem secret_step (hs : StepBy program σ mover σ') {c c' : FlowDeveloperCredentialRow} (hc : c ∈
    σ.db.flowDeveloperCredentials) (hc' : c' ∈ σ'.db.flowDeveloperCredentials) (hid : c'.id = c.id)
    : c'.secret = c.secret ∨ ∃ k, Mutates ⟨σ, mover⟩ k ∧ k.credential.id = c.id ∧ k.mutation =
    .rotate c'.secret := by
  obtain ⟨hknown, hinv⟩ := h.inv
  rcases step_database hs with hdb | ⟨i, r, hm, hi, hcommits, hdb⟩
  · rw [hdb] at hc'
    rw [hinv.credentials.eq hc' hc hid]
    exact .inl rfl
  obtain ⟨hown, _, hA⟩ := h.loc i r hi
  rw [hdb] at hc'
  obtain ⟨b, hsource, hb, _, _, hsecret⟩ := credential_origin hc'
  have hbc : b.id = c.id := hb.symm.trans hid
  have hbd : b ∈ σ.db.flowDeveloperCredentials := by
    refine hsource.resolve_right fun hnew => ?_
    have hunborn := (hown.committed _ hnew).unborn b.id mem_cons_self
    exact hunborn (hknown.born (hbc ▸ mem_ids_credential hc))
  cases hinv.credentials.eq hbd hc hbc
  refine hsecret.imp_right fun hset => ?_
  obtain ⟨call, held, pending, began⟩ := r
  cases hcommits with
  | cascade k count =>
    obtain ⟨ks, hk⟩ := hA
    rcases hk.mem hset with ⟨_, he⟩ | ⟨secret, hrotate, he⟩ | ⟨_, _, he⟩ | ⟨_, he⟩
    · cases he
    · obtain ⟨hkid, rfl⟩ := Write.setSecret.inj he
      exact ⟨k, ⟨i, count, hm, _, hi, rfl⟩, hkid.symm, hrotate⟩
    · cases he
    · cases he
  | mint =>
    obtain ⟨id, rest, hp, hcalm⟩ := Minted.context hA
    rw [show pending = _ from hp] at hset
    rcases mem_cons.mp hset with he | hrest
    · cases he
    · cases hcalm _ hrest
  | other => exact absurd (Settled.plain hA _ hset) not_false

variable {y : FlowAccessContextRow}

/-- Only a mint makes a context with a credential. -/
theorem context_step (hs : StepBy program σ mover σ') (hy : y ∈ σ'.db.flowAccessContexts) {k : Uuid}
    (hk : y.credentialId = some k) : (∃ x ∈ σ.db.flowAccessContexts, x.contextId = y.contextId ∧
    x.Later y) ∨ ∃ m, Mints ⟨σ, mover⟩ m y.contextId := by
  rcases step_database hs with hdb | ⟨i, r, hm, hi, hcommits, hdb⟩
  · exact .inl ⟨y, hdb ▸ hy, rfl, .refl y⟩
  obtain ⟨_, _, hA⟩ := h.loc i r hi
  rw [hdb] at hy
  obtain ⟨x, hx⟩ := context_origin hy
  rcases hx.source with ⟨hin, _⟩ | hnew
  · exact .inl ⟨x, hin, hx.id.symm, hx.later⟩
  obtain ⟨call, held, pending, began⟩ := r
  cases hcommits with
  | cascade =>
    obtain ⟨ks, hc⟩ := hA
    rcases hc.mem hnew with ⟨_, he⟩ | ⟨_, _, he⟩ | ⟨_, _, he⟩ | ⟨_, he⟩ <;> cases he
  | mint m =>
    obtain ⟨id, rest, hp, hcalm⟩ := Minted.context hA
    have hxm : x = m.context id := by
      rw [show pending = _ from hp] at hnew
      rcases mem_cons.mp hnew with he | hrest
      · cases he
        rfl
      · cases hcalm _ hrest
    have hid : y.contextId = id := by
      rw [hx.id, hxm]
      rfl
    refine .inr ⟨m, i, _, hm, hi, rfl, ?_⟩
    rw [hid, ← hxm]
    exact hnew
  | other =>
    have hnone : x.credentialId = none := Settled.plain hA _ hnew
    rw [← hx.later.credential, hk] at hnone
    cases hnone

omit h
variable {x : FlowAccessContextRow}

/-- A context that no write deletes stays. -/
theorem contexts_stay (hx : x ∈ d.flowAccessContexts) (hd : .deleteContext x.contextId ∉ ws) : ∃ y ∈
    (applyAll ws d).flowAccessContexts, y.contextId = x.contextId := by
  induction ws generalizing d x with
  | nil => exact ⟨x, hx, rfl⟩
  | cons z _ ih =>
    rw [mem_cons, not_or] at hd
    have hz : z.context x ∈ (z.apply d).flowAccessContexts := by
      cases z with
      | insertContext => exact mem_append_left _ hx
      | revokeContext => exact mem_map_of_mem hx
      | deleteContext id =>
        have hne : x.contextId ≠ id := fun he => hd.1 (he ▸ rfl)
        exact mem_filter.mpr ⟨hx, by simpa [Write.context] using hne⟩
      | _ => exact hx
    obtain ⟨y, hy, hid⟩ := ih hz (by rw [z.context_id]; exact hd.2)
    exact ⟨y, hy, hid.trans (z.context_id x)⟩

/-- A context is deleted only when it is revoked or expired. -/
theorem delete_step (h : Outlined past σ) (hs : StepBy program σ mover σ') (hx : x ∈
    σ.db.flowAccessContexts) (hgone : ∀ y ∈ σ'.db.flowAccessContexts, y.contextId ≠ x.contextId) :
    Dead σ.clock x := by
  rcases step_database hs with hdb | ⟨i, r, _, hi, hcommits, hdb⟩
  · exact absurd rfl (hgone x (hdb ▸ hx))
  rw [hdb] at hgone
  by_cases hdel : .deleteContext x.contextId ∈ r.pending
  · exact ((h.good hi hcommits).pruned _ hdel).2 x hx rfl
  · obtain ⟨y, hy, hid⟩ := contexts_stay hx hdel
    exact absurd hid (hgone y hy)

variable {c : FlowDeveloperCredentialRow}

/-- A row of `flow_developer_credentials` after all writes. -/
theorem credential_after (hc : c ∈ d.flowDeveloperCredentials) : ws.foldl (fun c x => x.credential
    c) c ∈ (applyAll ws d).flowDeveloperCredentials := by
  induction ws generalizing d c with
  | nil => exact hc
  | cons _ _ ih => exact ih (credentials_stay hc)

variable {k : Cascade}

/-- After a cascade's changes to the credential, its other writes leave it. -/
theorem Cascading.credential_after {w : View} {held : Locks} {ks told : List Uuid} (h : Cascading d
    w held k ks told ws) : ∃ t, ws.foldl (fun c x => x.credential c) k.credential = (k.base t).foldl
    (fun c x => x.credential c) k.credential := by
  obtain ⟨t, t', es, rfl, _⟩ := h.pending
  have hcontexts (c : FlowDeveloperCredentialRow) :
      (ks.map (Write.revokeContext · t')).foldl (fun c x => x.credential c) c = c := by
    rw [foldl_map]
    exact foldl_fixed ks
  have hevents (c : FlowDeveloperCredentialRow) :
      (es.map Write.insertEvent).foldl (fun c x => x.credential c) c = c := by
    rw [foldl_map]
    exact foldl_fixed es
  exact ⟨t, by rw [foldl_append, foldl_append, hcontexts, hevents]⟩

/-- **A revocation or rotation** ends the contexts of the credential, and does what it is for. -/
theorem mutate_step (h : Outlined past σ) (hs : StepBy program σ mover σ') (hk : Mutates ⟨σ, mover⟩
    k) : (∀ y ∈ σ'.db.flowAccessContexts, y.credentialId = some k.credential.id → Dead σ'.clock y) ∧
    ∃ c ∈ σ'.db.flowDeveloperCredentials, c.id = k.credential.id ∧ (k.mutation = .revoke →
    c.revokedAt ≠ none) ∧ ∀ secret, k.mutation = .rotate secret → c.secret = secret := by
  obtain ⟨i, count, hm, r, hi, hcall⟩ := hk
  have hm' : mover = some i := hm
  subst hm'
  obtain ⟨_, _, hA⟩ := h.loc i r hi
  have hdb : σ'.db = applyAll r.pending σ.db := by
    refine step_commits (c := .done (.ok (k.success count))) hs hi fun _ _ _ _ => ?_
    rw [hcall]
    rfl
  have hclock := step_clock hs
  obtain ⟨call, held, pending, began⟩ := r
  cases hcall
  obtain ⟨ks, hc⟩ := hA
  rw [hdb]
  constructor
  · intro y hy hyk
    obtain ⟨x, hx⟩ := context_origin hy
    have hxk : x.credentialId = some k.credential.id := hx.later.credential ▸ hyk
    rcases hx.source with ⟨hin, hrevoked⟩ | hnew
    · rcases hc.selected.covers x hin hxk with hdead | hlisted
      · exact (hdead.later hx.later).mono hclock
      refine .inl (hrevoked ?_)
      rw [hc.revokes]
      exact contains_iff_mem.mpr hlisted
    · rcases hc.mem hnew with ⟨_, he⟩ | ⟨_, _, he⟩ | ⟨_, _, he⟩ | ⟨_, he⟩ <;> cases he
  · obtain ⟨t, ht⟩ := hc.credential_after
    refine ⟨_, credential_after hc.locked.row, ?_⟩
    rw [ht]
    unfold Cascade.base
    split
    · rename_i hrevoke
      rw [hrevoke]
      split_ifs with hn
      · exact ⟨by simp [Write.credential], by simp [Write.credential], by simp⟩
      · exact ⟨rfl, fun _ => hn, by simp⟩
    · rename_i secret hrotate
      rw [hrotate]
      exact ⟨by simp [Write.credential], by simp, by simp [Write.credential]⟩

/-! ## 3. Runs -/

variable (h₀ : Initial d issued) (hb : Run program (System.quiet d t issued) before σ₁) (hl : Run
  program σ₁ later σ)
include h₀ hb hl

/-- A credential at a state passed before, and now. -/
theorem kept_credential (hc : c ∈ σ₁.db.flowDeveloperCredentials) : ∃ c' ∈
    σ.db.flowDeveloperCredentials, c'.id = c.id ∧ c.Later c' := by
  have hseen : σ₁ ∈ (σ.world (later ++ before)).seen := by
    rcases mem_cons.mp hl.seen with rfl | hmem
    · exact mem_cons_self
    refine mem_cons_of_mem _ ?_
    rw [map_append]
    exact mem_append_left _ hmem
  exact (outline_run h₀ (hb.append hl)).inv.2.keptCredential σ₁ hseen c hc

/-- **Where a secret comes from**: it was there, or a rotation set it since. -/
theorem secret_run {c c' : FlowDeveloperCredentialRow} (hc : c ∈ σ₁.db.flowDeveloperCredentials)
    (hc' : c' ∈ σ.db.flowDeveloperCredentials) (hid : c'.id = c.id) : c'.secret = c.secret ∨ ∃ e ∈
    later, ∃ k, Mutates e k ∧ k.credential.id = c.id ∧ k.mutation = .rotate c'.secret := by
  induction hl generalizing c' with
  | start =>
    rw [(outline_run h₀ hb).inv.2.credentials.eq hc' hc hid]
    exact .inl rfl
  | @step later σ σ' mover hl hs ih =>
    obtain ⟨b, hb', hbid, _⟩ := kept_credential h₀ hb hl hc
    have hout := outline_run h₀ (hb.append hl)
    rcases secret_step hout hs hb' hc' (hid.trans hbid.symm) with hsame | ⟨k, hk, hkid, hrotate⟩
    · rcases ih hb' hbid with hold | ⟨e, he, k, hk, hkid, hrotate⟩
      · exact .inl (hsame.trans hold)
      · exact .inr ⟨e, mem_cons_of_mem _ he, k, hk, hkid, hsame ▸ hrotate⟩
    · exact .inr ⟨_, mem_cons_self, k, hk, hkid.trans hbid, hrotate⟩

/-- **Where a context comes from**: once all are dead, what is not was minted since. -/
theorem context_run {k : Uuid} (hdead : ∀ x ∈ σ₁.db.flowAccessContexts, x.credentialId = some k →
    Dead σ₁.clock x) (hy : y ∈ σ.db.flowAccessContexts) (hk : y.credentialId = some k) : Dead
    σ.clock y ∨ ∃ e ∈ later, ∃ m, Mints e m y.contextId := by
  induction hl generalizing y with
  | start => exact .inl (hdead y hy hk)
  | @step later σ σ' mover hl hs ih =>
    have hout := outline_run h₀ (hb.append hl)
    rcases context_step hout hs hy hk with ⟨x, hx, hid, hlater⟩ | ⟨m, hm⟩
    · rcases ih hx (hlater.credential ▸ hk) with hx' | ⟨e, he, m, hm⟩
      · exact .inl ((hx'.later hlater).mono (step_clock hs))
      · exact .inr ⟨e, mem_cons_of_mem _ he, m, hid ▸ hm⟩
    · exact .inr ⟨_, mem_cons_self, m, hm⟩

omit hl hb h₀

/-- What a mint has found holds when it commits. -/
theorem Outlined.minting (h : Outlined past σ) {m : Minting} {context : Uuid}
    (hm : Mints ⟨σ, mover⟩ m context) : m.credential ∈ σ.db.flowDeveloperCredentials ∧
      m.credential.secret = m.input.secret ∧ m.credential.revokedAt = none := by
  obtain ⟨i, r, _, hi, hcall, _⟩ := hm
  obtain ⟨_, _, hA⟩ := h.loc i r hi
  obtain ⟨call, held, pending, began⟩ := r
  cases hcall
  have hlocked := Minted.locked hA
  exact ⟨hlocked.locked.row, hlocked.secret, hlocked.unrevoked⟩

/-- **A mint after a mutation**: not after a revocation, and with a secret set since. -/
theorem mint_after (h₀ : Initial d issued) (hb : Run program (System.quiet d t issued) before σ₁)
    (hl : Run program σ₁ later σ) (hc : c ∈ σ₁.db.flowDeveloperCredentials) (hid : c.id =
    k.credential.id) (hrevoke : k.mutation = .revoke → c.revokedAt ≠ none) (hrotate : ∀ secret,
    k.mutation = .rotate secret → c.secret = secret) {m : Minting} {context : Uuid} (hm : Mints ⟨σ,
    mover⟩ m context) (hmk : m.credential.id = k.credential.id) : k.mutation ≠ .revoke ∧ (k.mutation
    = .rotate m.input.secret ∨ ∃ e ∈ later, ∃ k', Mutates e k' ∧ k'.credential.id = k.credential.id
    ∧ k'.mutation = .rotate m.input.secret) := by
  have hout := outline_run h₀ (hb.append hl)
  obtain ⟨hrow, hsecret, hn⟩ := hout.minting hm
  have hmc : m.credential.id = c.id := hmk.trans hid.symm
  have hlive : k.mutation ≠ .revoke := by
    intro hr
    obtain ⟨c', hc', hid', hlater⟩ := kept_credential h₀ hb hl hc
    cases hout.inv.2.credentials.eq hc' hrow (hid'.trans hmc.symm)
    exact hlater.revoked (hrevoke hr) hn
  refine ⟨hlive, ?_⟩
  rcases secret_run h₀ hb hl hc hrow hmc with hsame | ⟨e, he, k', hk', hid', hr⟩
  · cases hmut : k.mutation with
    | revoke => exact absurd hmut hlive
    | rotate secret =>
      left
      rw [← hsecret, hsame, hrotate secret hmut]
  · exact .inr ⟨e, he, k', hk', hid'.trans hid, hsecret ▸ hr⟩

end Credentials

/-! ## 4. The theorem -/

/-- One Flow service that is ready. -/
def flowAccount : Db where
  principals := [⟨20, 1, true⟩]
  serviceInstances := [⟨30, 1, 2, "flow", .ready, 1⟩]

theorem flowAccount_initial : Initial flowAccount [] := by
  constructor <;> simp [flowAccount, ids, UniqueKey]

/-- A credential is created, used for a context, rotated and used again. -/
def rotation : List (Move Call) :=
  .start (.createFlowDeveloperCredential
      ⟨1, 30, 20, "ci", ⟨"hfd_1", 7⟩, ["flow:UseTurn"], 1000, 0⟩ 5) :: List.replicate 5 (.step 0) ++
    .start (.mintFlowAccessContext ⟨⟨"hfd_1", 7⟩, 20, ["flow:UseTurn"], 1, 900⟩) ::
    List.replicate 6 (.step 1) ++
    .start (.rotateFlowDeveloperCredential 1 30 4 ⟨"hfd_2", 8⟩ 20) :: List.replicate 7 (.step 2) ++
    .start (.mintFlowAccessContext ⟨⟨"hfd_2", 8⟩, 20, [], 2, 900⟩) :: List.replicate 6 (.step 3)

/-- A mutation whose credential has a context of its own at the end. -/
def mutated (x : Trail Db Key Write Call × Machine Db Key Write Call) : Bool :=
  x.1.any fun y => match y.2.bind fun i => y.1.calls[i]?.map (i, ·) with
    | some (_, ⟨.cascadeCommit k _, _, _, _⟩) =>
      x.2.db.flowAccessContexts.any (·.credentialId == some k.credential.id)
    | _ => false

end HeteroCloud.FlowAccess
