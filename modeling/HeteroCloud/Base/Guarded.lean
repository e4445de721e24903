/-
  File:      Base/Guarded.lean
  Subject:   WRITES UNDER THEIR LOCKS: the proof rule for programs in which every write names the
             locks it needs and the ids it brings into the database.

  Then a commit is nothing but a list of writes under locks its call holds (`Publishes`), and an
  assertion survives it if it survives every single write under compatible locks. An id that has
  once been in a committed row is `Born`; ids of rows not committed yet are locked under a key of
  their own and not born, so no row ever comes back under an id that was in use.

  * `Duties` -- what is to be shown of a program, its invariant `I` and its assertions `A`;
  * `Duties.annotate`, `Duties.keep` -- more assertions, and a stronger invariant, over an outline
    that has been shown.
-/
import HeteroCloud.Base.Transaction

namespace HeteroCloud.Base

open List

variable {D K W C : Type}

/-! ## 1. Guards and ids -/

/-- What the writes of a program need and make. -/
structure Guards (D K W : Type) where
  /-- The writes that are made at all. -/
  allows : W → Prop
  /-- The keys a write needs, locked exclusively. -/
  needs : W → List K
  /-- The ids a write brings into the database. -/
  makes : W → List Nat
  /-- The key of an id that no committed row has had. -/
  fresh : Nat → K
  /-- The ids in the database. -/
  ids : D → List Nat

section Ids
variable (ids : D → List Nat) (g : Guards D K W)
variable (w : World D K W C)

/-- The id has been in a committed state. -/
def Born (k : Nat) : Prop := ∃ σ ∈ w.seen, k ∈ ids σ.db

/-- The database is the last state passed, and every id that is born was drawn. -/
structure Known (d : D) (w : World D K W C) : Prop where
  here : ∃ σ ∈ w.seen, σ.db = d
  issued : ∀ k, Born ids w k → k ∈ w.issued

variable (held : List (K × LockMode)) (x : W)

/-- The write under the locks held. -/
structure Guarded : Prop where
  allowed : g.allows x
  needs : ∀ k ∈ g.needs x, (k, .exclusive) ∈ held
  makes : ∀ n ∈ g.makes x, (g.fresh n, .exclusive) ∈ held

/-- The same, when it is committed: the ids it makes are not born. -/
structure Committed : Prop extends
    Guarded g held x where
  unborn : ∀ n ∈ g.makes x, ¬ Born g.ids w n

/-- A commit. -/
def Publishes (P : Program D K W C) (w : World D K W C) (held : List (K × LockMode)) (d d' : D) :
    Prop :=
  ∃ ws, d' = P.applyAll ws d ∧ ∀ x ∈ ws, Committed g w held x

/-- A call's new ids are its own, and its writes are under its locks. -/
structure Own (r : Running K W C) : Prop where
  fresh : ∀ n m, (g.fresh n, m) ∈ r.held → n ∈ w.issued ∧ ¬ Born g.ids w n
  pending : ∀ x ∈ r.pending, Guarded g r.held x

end Ids

section Born
variable {ids : D → List Nat} {g : Guards D K W} {d d' : D} {w w' : World D K W C}
  {held held' : List (K × LockMode)} {r : Running K W C} {k : Nat} {x : W}

theorem Guarded.more (h : Guarded g held x) (hs : ∀ l ∈ held, l ∈ held') : Guarded g held' x :=
  ⟨h.allowed, fun k hk => hs _ (h.needs k hk), fun n hn => hs _ (h.makes n hn)⟩

theorem Born.mono (hw : w.Grows d w') (h : Born ids w k) : Born ids w' k := by
  obtain ⟨σ, hσ, hk⟩ := h
  exact ⟨σ, hw.seen σ hσ, hk⟩

theorem Born.old (hw : w.Grows d w') (h : Born ids w' k) : Born ids w k ∨ k ∈ ids d := by
  obtain ⟨σ, hσ, hk⟩ := h
  rcases hw.only σ hσ with hm | he
  · exact .inl ⟨σ, hm, hk⟩
  · exact .inr (he ▸ hk)

theorem Known.born (h : Known ids d w) (hk : k ∈ ids d) : Born ids w k := by
  obtain ⟨σ, hσ, he⟩ := h.here
  exact ⟨σ, hσ, he ▸ hk⟩

/-- At the start, what the tables hold was drawn. -/
theorem Known.initial {t : Int} {issued : List Nat} (h : ∀ k ∈ ids d, k ∈ issued) :
    Known ids d ((System.quiet d t issued : System D K W C).world []) := by
  refine ⟨⟨_, mem_singleton_self _, rfl⟩, fun k hk => ?_⟩
  obtain ⟨σ, hσ, hk⟩ := hk
  rw [mem_singleton.mp hσ] at hk
  exact h k hk

theorem Known.mono (hw : w.Grows d w') (h : Known ids d w) : Known ids d w' := by
  refine ⟨hw.here, fun k hk => hw.issued k (h.issued k ?_)⟩
  rcases hk.old hw with hk | hk
  · exact hk
  · exact h.born hk

theorem Known.grows (h : Known ids d w) (e : Event D K W C) (new : List Nat) :
    w.Grows d (w.after e new) :=
  ⟨Int.le_refl _, fun _ hk => mem_append_left _ hk, fun _ h => mem_cons_of_mem _ h,
    fun _ h => h, fun _ h => .inl h, h.here⟩

/-- A value drawn now is not born. -/
theorem Known.drawn (h : Known ids d w) {uuid : Nat → Nat} (hu : Fresh uuid w.issued) (n : Nat) :
    ¬ Born ids w (uuid n) :=
  fun hb => hu.2 n (h.issued _ hb)

theorem Own.nothing (c : C) : Own g w ⟨c, [], [], none⟩ :=
  ⟨fun _ _ h => absurd h not_mem_nil, forall_mem_nil _⟩

theorem Own.mono (hk : Known g.ids d w) (hw : w.Grows d w') (h : Own g w r) : Own g w' r := by
  refine ⟨fun n m hm => ?_, h.pending⟩
  obtain ⟨hi, hb⟩ := h.fresh n m hm
  refine ⟨hw.issued n hi, fun hb' => hb ?_⟩
  rcases hb'.old hw with h' | h'
  · exact h'
  · exact hk.born h'

/-- At its commit a call's writes make only ids that are not born. -/
theorem Own.committed (h : Own g w r) : ∀ x ∈ r.pending, Committed g w r.held x := by
  intro x hx
  have hg := h.pending x hx
  exact { hg with unborn := fun n hn => (h.fresh n _ (hg.makes n hn)).2 }

end Born

/-! ## 2. The rule -/

section Rule
variable (P : Program D K W C) (g : Guards D K W) (I : D → World D K W C → Prop)
  (A : D → World D K W C → Nat → Running K W C → Prop)

/-- What a statement has to establish. -/
def Next (d : D) (w : World D K W C) (e : Event D K W C) (uuid : Nat → Nat) (i : Nat)
    (r : Running K W C) : Outcome K W C → Prop
  | .read c => A d (w.after e (P.drawn uuid)) i { r with call := c }
  | .stmt locks writes c => (∀ n m, (g.fresh n, m) ∈ locks → n ∈ P.drawn uuid) ∧
      (∀ x ∈ writes, Guarded g (locks ++ r.held) x) ∧ A d (w.after e (P.drawn uuid)) i
        ⟨c, locks ++ r.held, r.pending ++ writes, some (r.began.getD w.clock)⟩
  | .commit c => ∀ w', (w.after e []).Grows (P.view r d) w' → Known g.ids (P.view r d) w' →
      I (P.view r d) w' ∧ A (P.view r d) w' i ⟨c, [], [], none⟩
  | .rollback c => A d (w.after e []) i ⟨c, [], [], none⟩

/-- A call about to execute its statement. -/
structure Ready (d : D) (w : World D K W C) (e : Event D K W C) (uuid : Nat → Nat) (i : Nat)
    (r : Running K W C) : Prop where
  known : Known g.ids d w
  inv : I d w
  own : Own g w r
  makes : e.Makes d w.clock i r
  fresh : Fresh uuid w.issued

/-- **What is to be shown of a program** whose writes are guarded. -/
structure Duties : Prop where
  ids : ∀ {x d k}, k ∈ g.ids (P.apply x d) → k ∈ g.ids d ∨ k ∈ g.makes x
  mono_inv : ∀ {d w w'}, w.Grows d w' → I d w → I d w'
  mono_at : ∀ {d w w' i r}, w.Grows d w' → A d w i r → A d w' i r
  start : ∀ {d w i c}, P.start c → A d w i ⟨c, [], [], none⟩
  step : ∀ {d w e i r uuid o}, Known g.ids d w → I d w → Own g w r → A d w i r →
    e.Makes d w.clock i r → Fresh uuid w.issued →
    P.exec w.clock (r.began.getD w.clock) uuid (P.view r d) r.call = some o →
    Next P g I A d w e uuid i r o
  stable : ∀ {d w held x i r}, Committed g w held x → Compatible held r.held → A d w i r →
    A (P.apply x d) w i r
  fail : ∀ {d w i r c}, A d w i r → P.fail r.call = some c → A d w i ⟨c, [], [], none⟩

end Rule

section Outline
variable {P : Program D K W C} {g : Guards D K W} {I : D → World D K W C → Prop}
  {A : D → World D K W C → Nat → Running K W C → Prop} {d d' : D} {w w' : World D K W C}
  {held : List (K × LockMode)}

/-- What every single write keeps, a commit keeps. -/
theorem applyAll_keeps {Q : D → Prop} {ws : List W} (hq : ∀ x ∈ ws, ∀ d, Q d → Q (P.apply x d)) :
    ∀ {d}, Q d → Q (P.applyAll ws d) := by
  induction ws with
  | nil => exact fun h => h
  | cons x _ ih =>
      intro d h
      exact ih (fun y hy => hq y (mem_cons_of_mem _ hy)) (hq x mem_cons_self d h)

variable (O : Duties P g I A)
include O

/-- The ids after a commit were there or are made by it. -/
theorem Duties.ids_applyAll {k : Nat} (ws : List W) : ∀ {d}, k ∈ g.ids (P.applyAll ws d) → k ∈ g.ids
    d ∨ ∃ x ∈ ws, k ∈ g.makes x := by
  induction ws with
  | nil => exact fun h => .inl h
  | cons x _ ih =>
      intro d h
      rcases ih h with h | ⟨y, hy, hk⟩
      · rcases O.ids h with h | h
        · exact .inl h
        · exact .inr ⟨x, mem_cons_self, h⟩
      · exact .inr ⟨y, mem_cons_of_mem _ hy, hk⟩

/-- An id in the database after a commit is born, or new and locked by the committing call. -/
theorem Duties.ids_publishes (hk : Known g.ids d w) (hG : Publishes g P w held d d') {k : Nat} (h :
    k ∈ g.ids d') : Born g.ids w k ∨ (g.fresh k, .exclusive) ∈ held := by
  obtain ⟨ws, rfl, hws⟩ := hG
  rcases O.ids_applyAll ws h with h | ⟨x, hx, h⟩
  · exact .inl (hk.born h)
  · exact .inr ((hws x hx).makes k h)

theorem Own.stable (hk : Known g.ids d w) (hw : w.Grows d' w') (hG : Publishes g P w held d d') {r :
    Running K W C} (h : Own g w r) (hc : Compatible held r.held) : Own g w' r := by
  refine ⟨fun n m hm => ?_, h.pending⟩
  obtain ⟨hi, hb⟩ := h.fresh n m hm
  refine ⟨hw.issued n hi, fun hb' => ?_⟩
  rcases hb'.old hw with h' | h'
  · exact hb h'
  rcases O.ids_publishes hk hG h' with h' | h'
  · exact hb h'
  · exact hc.exclusive h' m hm

/-- **The duties make an outline.** -/
theorem Duties.outline : Outline P (fun d w => Known g.ids d w ∧ I d w) (Publishes g P) (fun d w i r
    => Own g w r ∧ A d w i r) where
  mono_inv hw h := ⟨h.1.mono hw, O.mono_inv hw h.2⟩
  mono_loc hw hI h := ⟨h.1.mono hI.1 hw, O.mono_at hw h.2⟩
  start _ hc := ⟨.nothing _, O.start hc⟩
  step {d w e i r uuid o} hI hL he hu ho := by
    have hnext := O.step hI.1 hI.2 hL.1 hL.2 he hu ho
    cases o with
    | read =>
        have hown := hL.1.mono hI.1 (hI.1.grows e (P.drawn uuid))
        exact ⟨⟨hown.fresh, hown.pending⟩, hnext⟩
    | stmt =>
        obtain ⟨hfresh, hguard, hA⟩ := hnext
        have hown := hL.1.mono hI.1 (hI.1.grows e (P.drawn uuid))
        refine ⟨⟨fun n m hm => ?_, fun x hx => ?_⟩, hA⟩
        · rcases mem_append.mp hm with hm | hm
          · have hn := hfresh n m hm
            obtain ⟨j, _, rfl⟩ := mem_map.mp hn
            exact ⟨mem_append_right _ hn, hI.1.drawn hu j⟩
          · exact hown.fresh n m hm
        · rcases mem_append.mp hx with hx | hx
          · exact (hown.pending x hx).more fun l hl => mem_append_right _ hl
          · exact hguard x hx
    | commit c =>
        have hG : Publishes g P w r.held d (P.view r d) := ⟨r.pending, rfl, hL.1.committed⟩
        refine ⟨hG, fun w' hw => ?_⟩
        have hk : Known g.ids (P.view r d) w' := by
          refine ⟨hw.here, fun k hb => hw.issued k (mem_append_left _ ?_)⟩
          rcases hb.old hw with h | h
          · exact hI.1.issued k h
          rcases O.ids_publishes hI.1 hG h with h | h
          · exact hI.1.issued k h
          · exact (hL.1.fresh k _ h).1
        obtain ⟨hI', hA⟩ := hnext w' hw hk
        exact ⟨⟨hk, hI'⟩, .nothing c, hA⟩
    | rollback c => exact ⟨.nothing c, hnext⟩
  stable {d d' w w' held i r} hw hI _ hG hL hc := by
    refine ⟨hL.1.stable O hI.1 hw hG hc, O.mono_at hw ?_⟩
    obtain ⟨ws, rfl, hws⟩ := hG
    exact applyAll_keeps (Q := fun d => A d w i r) (fun x hx d h => O.stable (hws x hx) hc h) hL.2
  fail _ hL hc := ⟨.nothing _, O.fail hL.2 hc⟩

/-- **What every single write keeps holds from then on.** -/
theorem Duties.later {Q : D → World D K W C → Prop} (hm : ∀ {d w w'}, w.Grows d w' → Q d w → Q d w')
    (hq : ∀ {d w held x}, Committed g w held x → Q d w → Q (P.apply x d) w) {past later : List
    (Event D K W C)} {σ σ' : System D K W C} (h : Holds (fun d w => Known g.ids d w ∧ I d w) (fun d
    w i r => Own g w r ∧ A d w i r) past σ) (h₀ : Q σ.db (σ.world past)) (hr : Run P σ later σ') : ∃
    all, Q σ'.db (σ'.world all) := by
  obtain ⟨all, _, h'⟩ := O.outline.later (fun hw _ hQ => hm hw hQ)
    (fun {d d' w w' held} hw _ hG hQ => by
      obtain ⟨ws, rfl, hws⟩ := hG
      exact hm hw (applyAll_keeps (Q := fun d => Q d w) (fun x hx d hQ => hq (hws x hx) hQ) hQ))
    h h₀ hr
  exact ⟨all, h'⟩

omit O

/-! ## 3. More about the same program -/

/-- What holds at the point a statement leads to. -/
def Reaches (P : Program D K W C) (B : D → World D K W C → Nat → Running K W C → Prop) (d : D)
    (w : World D K W C) (e : Event D K W C) (uuid : Nat → Nat) (i : Nat) (r : Running K W C) :
    Outcome K W C → Prop
  | .read c => B d (w.after e (P.drawn uuid)) i { r with call := c }
  | .stmt locks writes c => B d (w.after e (P.drawn uuid)) i
      ⟨c, locks ++ r.held, r.pending ++ writes, some (r.began.getD w.clock)⟩
  | .commit c => ∀ w', (w.after e []).Grows (P.view r d) w' →
      B (P.view r d) w' i ⟨c, [], [], none⟩
  | .rollback c => B d (w.after e []) i ⟨c, [], [], none⟩

/-- **Assertions `B` over an outline** `I`, `A` that has been shown. -/
structure Annotation (P : Program D K W C) (g : Guards D K W) (I : D → World D K W C → Prop)
    (A B : D → World D K W C → Nat → Running K W C → Prop) : Prop where
  mono_at : ∀ {d w w' i r}, w.Grows d w' → B d w i r → B d w' i r
  start : ∀ {d w i c}, P.start c → B d w i ⟨c, [], [], none⟩
  step : ∀ {d w e i r uuid o}, Ready g I d w e uuid i r → A d w i r → B d w i r →
    P.exec w.clock (r.began.getD w.clock) uuid (P.view r d) r.call = some o →
    Reaches P B d w e uuid i r o
  stable : ∀ {d w held x i r}, Committed g w held x → Compatible held r.held → A d w i r →
    B d w i r → B (P.apply x d) w i r
  fail : ∀ {d w i r c}, A d w i r → B d w i r → P.fail r.call = some c →
    B d w i ⟨c, [], [], none⟩

/-- **The two together are an outline.** -/
theorem Duties.annotate (O : Duties P g I A)
    {B : D → World D K W C → Nat → Running K W C → Prop} (N : Annotation P g I A B) :
    Duties P g I (fun d w i r => A d w i r ∧ B d w i r) where
  ids := O.ids
  mono_inv := O.mono_inv
  mono_at hw h := ⟨O.mono_at hw h.1, N.mono_at hw h.2⟩
  start hc := ⟨O.start hc, N.start hc⟩
  step {d w e i r uuid o} hk hI hown hA he hu ho := by
    have hnext := O.step hk hI hown hA.1 he hu ho
    have hmore := N.step ⟨hk, hI, hown, he, hu⟩ hA.1 hA.2 ho
    cases o with
    | read | rollback => exact ⟨hnext, hmore⟩
    | stmt => exact ⟨hnext.1, hnext.2.1, hnext.2.2, hmore⟩
    | commit =>
      intro w' hw hk'
      obtain ⟨hI', hA'⟩ := hnext w' hw hk'
      exact ⟨hI', hA', hmore w' hw⟩
  stable hx hc h := ⟨O.stable hx hc h.1, N.stable hx hc h.1 h.2⟩
  fail h hc := ⟨O.fail h.1 hc, N.fail h.1 h.2 hc⟩

/-- The writes of a commit make a later world. -/
theorem World.Grows.commit {e : Event D K W C} (h : (w.after e []).Grows d' w') : w.Grows d' w' :=
  ⟨h.clock, fun k hk => h.issued k (mem_append_left _ hk),
    fun e' he => h.done e' (mem_cons_of_mem _ he), h.seen, h.only, h.here⟩

/-- **What every commit keeps is an invariant.** -/
theorem Duties.keep (O : Duties P g I A) {J : D → World D K W C → Prop}
    (hm : ∀ {d w w'}, w.Grows d w' → J d w → J d w')
    (hJ : ∀ {d w e i r uuid c}, Ready g I d w e uuid i r → A d w i r → J d w →
      P.exec w.clock (r.began.getD w.clock) uuid (P.view r d) r.call = some (.commit c) →
      ∀ w', w.Grows (P.view r d) w' → J (P.view r d) w') :
    Duties P g (fun d w => I d w ∧ J d w) A where
  ids := O.ids
  mono_inv hw h := ⟨O.mono_inv hw h.1, hm hw h.2⟩
  mono_at := O.mono_at
  start := O.start
  step {d w e i r uuid o} hk hI hown hA he hu ho := by
    have hnext := O.step hk hI.1 hown hA he hu ho
    cases o with
    | read | stmt | rollback => exact hnext
    | commit =>
      intro w' hw hk'
      obtain ⟨hI', hA'⟩ := hnext w' hw hk'
      exact ⟨⟨hI', hJ ⟨hk, hI.1, hown, he, hu⟩ hA hI.2 ho w' hw.commit⟩, hA'⟩
  stable := O.stable
  fail := O.fail

end Outline

/-! ## 4. What others commit meanwhile -/

section Drift
variable (P : Program D K W C) (g : Guards D K W) (locks : List (K × LockMode))

/-- A write that a call may commit while another call holds `locks`. -/
structure Foreign (x : W) : Prop where
  allowed : g.allows x
  free : ∀ k ∈ g.needs x, ∀ m, (k, m) ∉ locks

/-- **The second database comes from the first by such writes.** -/
inductive Drift : D → D → Prop where
  | here (d : D) : Drift d d
  | write {d₀ d : D} {x : W} (h : Drift d₀ d) (hx : Foreign g locks x) : Drift d₀ (P.apply x d)

end Drift

section Meanwhile
variable {P : Program D K W C} {g : Guards D K W} {w : World D K W C} {d₀ d : D} {x : W}
  {locks held others : List (K × LockMode)}

/-- What is committed under locks compatible with those held. -/
theorem Committed.foreign (hx : Committed g w others x) (hc : Compatible others held)
    (hs : ∀ l ∈ locks, l ∈ held) : Foreign g locks x :=
  ⟨hx.allowed, fun k hk m hm => hc.exclusive (hx.needs k hk) m (hs _ hm)⟩

theorem Drift.commit (h : Drift P g locks d₀ d) (hx : Committed g w others x)
    (hc : Compatible others held) (hs : ∀ l ∈ locks, l ∈ held) :
    Drift P g locks d₀ (P.apply x d) :=
  h.write (hx.foreign hc hs)

/-- **What every such write keeps is kept meanwhile.** -/
theorem Drift.keeps {Q : D → Prop} (h : Drift P g locks d₀ d)
    (hq : ∀ {x d}, Foreign g locks x → Q d → Q (P.apply x d)) (h₀ : Q d₀) : Q d := by
  induction h with
  | here => exact h₀
  | write _ hx ih => exact hq hx ih

end Meanwhile
end HeteroCloud.Base
