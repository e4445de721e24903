/-
  File:      Base/Atomic.lean
  Subject:   CALLS THAT ACT ON ONE SHARED STATE, one atomic action at a time.

  A call is a program point with its local values. Its next action depends on the shared state and
  on a choice: the answers of other systems, what fails, the time. Locks are held by program points;
  an action is taken only when no other call holds a lock of the point it leads to. Any number of
  calls run, and their actions interleave freely.

  * `Step`, `Run` -- one action, and every interleaving of actions, with the states passed;
  * `Run.apart` -- two different calls never hold the same lock;
  * `Outline`, `Outline.run` -- the proof rule: an invariant of the state and an assertion at every
    point hold in every state of a run all of whose actions are admitted, if each action keeps the
    invariant, establishes its own assertion and keeps those of calls it is apart from;
  * `Machine.play` -- runs that can be computed.
-/
import Mathlib.Data.List.Basic
import Mathlib.Logic.Function.Basic
import Mathlib.Tactic.Common

namespace HeteroCloud.Base.Atomic

open List

/-! ## 1. Programs and runs -/

structure Program (S L A K : Type) where
  /-- The points a call may start at. -/
  start : L → Bool
  /-- The locks held at a point. -/
  locks : L → List K
  /-- The action at a point, if there is one. -/
  act : A → S → L → Option (S × L)

structure System (S L : Type) where
  shared : S
  calls : Nat → Option L

inductive Label (L A : Type) where
  | start (i : Nat) (l : L)
  /-- The call `i` acts at the point `l`. -/
  | act (i : Nat) (l : L) (a : A)

structure Event (S L A : Type) where
  state : System S L
  label : Label L A

variable {S L A K : Type}

def System.set (σ : System S L) (s : S) (i : Nat) (l : L) : System S L :=
  ⟨s, Function.update σ.calls i (some l)⟩

/-- No calls run. -/
def System.quiet (s : S) : System S L := ⟨s, fun _ => none⟩

/-- Two different calls are in the relation. -/
def System.Apart (σ : System S L) (R : L → L → Prop) : Prop :=
  ∀ i j l m, i ≠ j → σ.calls i = some l → σ.calls j = some m → R l m

/-- No other call holds one of the locks. -/
def System.Free (σ : System S L) (P : Program S L A K) (i : Nat) (ks : List K) : Prop :=
  ∀ j m, j ≠ i → σ.calls j = some m → ks.Disjoint (P.locks m)

inductive Step (P : Program S L A K) : System S L → Label L A → System S L → Prop where
  | start (σ : System S L) (i : Nat) (l : L) (hi : σ.calls i = none) (hs : P.start l = true)
      (hl : P.locks l = []) : Step P σ (.start i l) (σ.set σ.shared i l)
  | act (σ : System S L) (i : Nat) (l : L) (a : A) (s : S) (l' : L) (hi : σ.calls i = some l)
      (ha : P.act a σ.shared l = some (s, l')) (hf : σ.Free P i (P.locks l')) :
      Step P σ (.act i l a) (σ.set s i l')

/-- A run, with the states passed and the actions taken in them, newest first. -/
inductive Run (P : Program S L A K) (σ₀ : System S L) : List (Event S L A) → System S L → Prop where
  | start : Run P σ₀ [] σ₀
  | step {past : List (Event S L A)} {σ σ' : System S L} {label : Label L A}
      (h : Run P σ₀ past σ) (hs : Step P σ label σ') : Run P σ₀ (⟨σ, label⟩ :: past) σ'

section Runs
variable {P : Program S L A K} {σ₀ σ σ' : System S L} {past later : List (Event S L A)}

theorem System.set_same (σ : System S L) (s : S) (i : Nat) (l : L) :
    (σ.set s i l).calls i = some l :=
  Function.update_self ..

theorem System.set_other {s : S} {i j : Nat} {l : L} (h : j ≠ i) :
    (σ.set s i l).calls j = σ.calls j :=
  Function.update_of_ne h ..

theorem Run.append (h : Run P σ₀ past σ) (h' : Run P σ later σ') :
    Run P σ₀ (later ++ past) σ' := by
  induction h' with
  | start => exact h
  | step _ hs ih => exact ih.step hs

/-- A run is cut where one of its actions was taken. -/
theorem Run.split (h : Run P σ₀ past σ) {e : Event S L A} (he : e ∈ past) :
    ∃ before after σ₁, past = after ++ e :: before ∧ Run P σ₀ before e.state ∧
      Step P e.state e.label σ₁ ∧ Run P σ₁ after σ := by
  induction h with
  | start => cases he
  | @step past σ σ' label hr hs ih =>
    rcases mem_cons.mp he with rfl | he
    · exact ⟨past, [], σ', rfl, hr, hs, .start⟩
    · obtain ⟨before, after, σ₁, rfl, hb, hs₁, ha⟩ := ih he
      exact ⟨before, ⟨σ, label⟩ :: after, σ₁, rfl, hb, hs₁, ha.step hs⟩

/-- A run is cut at an action it is listed with. -/
theorem Run.cut {before after : List (Event S L A)} {e : Event S L A}
    (h : Run P σ₀ (after ++ e :: before) σ) :
    ∃ σ₁, Run P σ₀ before e.state ∧ Step P e.state e.label σ₁ ∧ Run P σ₁ after σ := by
  induction after generalizing σ with
  | nil =>
    cases h with
    | step hr hs => exact ⟨σ, hr, hs, .start⟩
  | cons _ _ ih =>
    cases h with
    | step hr hs =>
      obtain ⟨σ₁, hb, hs₁, ha⟩ := ih hr
      exact ⟨σ₁, hb, hs₁, ha.step hs⟩

/-- A call is where it was, or it has just moved. -/
theorem Step.calls {label : Label L A} (h : Step P σ label σ') {j : Nat} {m : L}
    (hj : σ'.calls j = some m) : σ.calls j = some m ∨
      (∃ l, label = .start j l ∧ m = l) ∨ ∃ l a, label = .act j l a ∧
        P.act a σ.shared l = some (σ'.shared, m) := by
  cases h with
  | start i l =>
    by_cases e : j = i
    · subst e
      rw [System.set_same] at hj
      exact .inr (.inl ⟨l, rfl, (Option.some.inj hj).symm⟩)
    · rw [System.set_other e] at hj
      exact .inl hj
  | act i l a _ _ _ ha =>
    by_cases e : j = i
    · subst e
      rw [System.set_same] at hj
      cases hj
      exact .inr (.inr ⟨l, a, rfl, ha⟩)
    · rw [System.set_other e] at hj
      exact .inl hj

/-- **How a call came to the point it is at**: by an action of its own, and it has been there since.
-/
theorem Run.since (h : Run P σ₀ past σ) (h₀ : ∀ i, σ₀.calls i = none) {i : Nat} {l : L}
    (hi : σ.calls i = some l) (hl : P.start l = false) :
    ∃ after before σ₁ m a s, past = after ++ ⟨σ₁, .act i m a⟩ :: before ∧
      σ₁.calls i = some m ∧ P.act a σ₁.shared m = some (s, l) ∧
      ∀ e ∈ after, e.state.calls i = some l := by
  induction h with
  | start =>
    rw [h₀ i] at hi
    cases hi
  | @step past σ σ' label hr hs ih =>
    rcases hs.calls hi with hold | ⟨m, rfl, rfl⟩ | ⟨m, a, rfl, ha⟩
    · obtain ⟨after, before, σ₁, m, a, s, rfl, hm, ha, hrest⟩ := ih hold
      refine ⟨⟨σ, label⟩ :: after, before, σ₁, m, a, s, rfl, hm, ha, fun e he => ?_⟩
      rcases mem_cons.mp he with rfl | he
      · exact hold
      · exact hrest e he
    · cases hs with
      | start _ _ _ hstart =>
        rw [hl] at hstart
        cases hstart
    · cases hs with
      | act _ _ _ _ _ hm => exact ⟨[], past, σ, m, a, _, rfl, hm, ha, fun e he => by cases he⟩

end Runs

/-! ## 2. The rule -/

/-- What the label does is admitted: its action is, in the state and at the point it is taken. -/
def Event.Admits (ok : S → L → A → Prop) (e : Event S L A) : Prop :=
  match e.label with
  | .start _ _ => True
  | .act _ l a => ok e.state.shared l a

/-- **What is to be shown** of an invariant `J` and assertions `B`, for actions that are admitted
and calls that are apart. -/
structure Outline (P : Program S L A K) (ok : S → L → A → Prop) (R : L → L → Prop)
    (J : S → Prop) (B : S → L → Prop) : Prop where
  start : ∀ {s l}, P.start l = true → J s → B s l
  act : ∀ {a s l s' l'}, J s → B s l → ok s l a → P.act a s l = some (s', l') → J s' ∧ B s' l'
  stable : ∀ {a s l s' l' m}, J s → B s l → ok s l a → P.act a s l = some (s', l') → R l m →
    B s m → B s' m

/-- The invariant and the assertions hold. -/
structure Holds (J : S → Prop) (B : S → L → Prop) (σ : System S L) : Prop where
  inv : J σ.shared
  loc : ∀ i l, σ.calls i = some l → B σ.shared l

section Rule
variable {P : Program S L A K} {ok : S → L → A → Prop} {R : L → L → Prop} {J : S → Prop}
  {B : S → L → Prop} {σ₀ σ σ' : System S L} {past : List (Event S L A)}
variable (O : Outline P ok R J B)
include O

/-- One step. -/
theorem Outline.step (h : Holds J B σ) (hR : σ.Apart R) {label : Label L A} (hok : (⟨σ, label⟩ :
    Event S L A).Admits ok) (hs : Step P σ label σ') : Holds J B σ' := by
  cases hs with
  | start i _ _ hstart =>
    refine ⟨h.inv, fun j m hj => ?_⟩
    by_cases e : j = i
    · subst e
      rw [System.set_same] at hj
      cases hj
      exact O.start hstart h.inv
    · rw [System.set_other e] at hj
      exact h.loc j m hj
  | act i l _ _ _ hi ha =>
    have hown := O.act h.inv (h.loc i l hi) hok ha
    refine ⟨hown.1, fun j m hj => ?_⟩
    by_cases e : j = i
    · subst e
      rw [System.set_same] at hj
      cases hj
      exact hown.2
    · rw [System.set_other e] at hj
      exact O.stable h.inv (h.loc i l hi) hok ha (hR i j l m (Ne.symm e) hi hj) (h.loc j m hj)

/-- **The rule**: they hold in every state of a run whose actions are all admitted and whose calls
are always apart. -/
theorem Outline.run (hr : Run P σ₀ past σ) (hok : ∀ e ∈ past, e.Admits ok) (hR : ∀ e ∈ past,
    e.state.Apart R) (h₀ : Holds J B σ₀) : Holds J B σ := by
  induction hr with
  | start => exact h₀
  | step _ hs ih =>
    have hrest := ih (fun e he => hok e (mem_cons_of_mem _ he))
      (fun e he => hR e (mem_cons_of_mem _ he))
    exact O.step hrest (hR _ mem_cons_self) (hok _ mem_cons_self) hs

/-- So they hold in every state passed. -/
theorem Outline.passed (hr : Run P σ₀ past σ) (hok : ∀ e ∈ past, e.Admits ok) (hR : ∀ e ∈ past,
    e.state.Apart R) (h₀ : Holds J B σ₀) {e : Event S L A} (he : e ∈ past) : Holds J B e.state := by
  obtain ⟨before, after, _, rfl, hb, _, _⟩ := hr.split he
  have hmem (e' : Event S L A) (he' : e' ∈ before) : e' ∈ after ++ e :: before :=
    mem_append_right _ (mem_cons_of_mem _ he')
  exact O.run hb (fun e' he' => hok e' (hmem e' he')) (fun e' he' => hR e' (hmem e' he')) h₀

omit O

theorem Holds.quiet {s : S} (h : J s) : Holds J B (System.quiet s) :=
  ⟨h, fun _ _ hi => absurd hi (by simp [System.quiet])⟩

/-- Nothing is asked of actions or of two calls. -/
theorem admits_any (e : Event S L A) : e.Admits fun _ _ _ => True := by
  unfold Event.Admits
  split
  · exact trivial
  · exact trivial

/-- **The rule without conditions.** -/
theorem Outline.run_any (O : Outline P (fun _ _ _ => True) (fun _ _ => True) J B)
    (hr : Run P σ₀ past σ) (h₀ : Holds J B σ₀) : Holds J B σ :=
  O.run hr (fun e _ => admits_any e) (fun _ _ _ _ _ _ _ _ _ => trivial) h₀

end Rule

/-! ## 3. Runs that can be computed -/

/-- A system whose calls are listed. -/
structure Machine (S L : Type) where
  shared : S
  calls : List L

inductive Move (L A : Type) where
  | start (l : L)
  | act (i : Nat) (a : A)

/-- The states passed and the actions taken in them, newest first. -/
abbrev Trail (S L A : Type) := List (Machine S L × Label L A)

section Play

def Machine.system (m : Machine S L) : System S L := ⟨m.shared, fun i => m.calls[i]?⟩

variable [DecidableEq K] (P : Program S L A K)

/-- No other call holds one of the locks. -/
def Machine.free (m : Machine S L) (i : Nat) (ks : List K) : Bool :=
  m.calls.zipIdx.all fun q => q.2 == i || ks.all fun k => !(P.locks q.1).contains k

def Machine.move (m : Machine S L) : Move L A → Option (Label L A × Machine S L)
  | .start l =>
      if P.start l && (P.locks l).isEmpty then
        some (.start m.calls.length l, ⟨m.shared, m.calls ++ [l]⟩)
      else none
  | .act i a => m.calls[i]?.bind fun l => (P.act a m.shared l).bind fun (s, l') =>
      if m.free P i (P.locks l') then some (.act i l a, ⟨s, m.calls.set i l'⟩) else none

def Machine.play (m : Machine S L) (trail : Trail S L A) :
    List (Move L A) → Option (Trail S L A × Machine S L)
  | [] => some (trail, m)
  | move :: rest => (m.move P move).bind fun (label, m') => m'.play ((m, label) :: trail) rest

end Play

/-- Every two of the calls are in the relation. -/
theorem Machine.apart {m : Machine S L} {R : L → L → Prop} (hR : ∀ l l', R l l' → R l' l)
    (h : m.calls.Pairwise R) : m.system.Apart R := by
  intro i j l l' hne hi hj
  obtain ⟨hil, rfl⟩ := List.getElem?_eq_some_iff.mp hi
  obtain ⟨hjl, rfl⟩ := List.getElem?_eq_some_iff.mp hj
  rcases Nat.lt_or_gt_of_ne hne with hlt | hlt
  · exact pairwise_iff_getElem.mp h i j hil hjl hlt
  · exact hR _ _ (pairwise_iff_getElem.mp h j i hjl hil hlt)

def Trail.events (trail : Trail S L A) : List (Event S L A) :=
  trail.map fun x => ⟨x.1.system, x.2⟩

section Sound
variable [DecidableEq K] {P : Program S L A K} {m m' : Machine S L}

theorem Machine.free_of {i : Nat} {ks : List K} (h : m.free P i ks = true) :
    m.system.Free P i ks := by
  intro j q hne hj k hk hq
  have hmem : (q, j) ∈ m.calls.zipIdx := mk_mem_zipIdx_iff_getElem?.mpr hj
  have hall := all_eq_true.mp h _ hmem
  simp only [Bool.or_eq_true, beq_iff_eq] at hall
  have hnot := all_eq_true.mp (hall.resolve_left hne) k hk
  simp [hq] at hnot

/-- **A move is a step.** -/
theorem Machine.move_step {move : Move L A} {label : Label L A}
    (h : m.move P move = some (label, m')) : Step P m.system label m'.system := by
  cases move with
  | start l =>
    simp only [Machine.move] at h
    split_ifs at h with hc
    cases h
    rw [Bool.and_eq_true, List.isEmpty_iff] at hc
    have hs := Step.start (P := P) m.system m.calls.length l
      (getElem?_eq_none (Nat.le_refl _)) hc.1 hc.2
    have he : (⟨m.shared, m.calls ++ [l]⟩ : Machine S L).system =
        m.system.set m.system.shared m.calls.length l := by
      unfold Machine.system System.set
      congr 1
      funext j
      rw [Function.update_apply]
      rcases Nat.lt_trichotomy j m.calls.length with hj | rfl | hj
      · rw [if_neg (Nat.ne_of_lt hj), getElem?_append_left hj]
      · simp
      · rw [if_neg (Nat.ne_of_gt hj), getElem?_eq_none (by simp; omega)]
        exact (getElem?_eq_none (Nat.le_of_lt hj)).symm
    rwa [he]
  | act i a =>
    obtain ⟨l, hl, h⟩ := Option.bind_eq_some_iff.mp h
    obtain ⟨⟨s, l'⟩, ha, h⟩ := Option.bind_eq_some_iff.mp h
    dsimp only at h
    split_ifs at h with hf
    cases h
    have hs := Step.act (P := P) m.system i l a s l' hl ha (Machine.free_of hf)
    have he : (⟨s, m.calls.set i l'⟩ : Machine S L).system = m.system.set s i l' := by
      obtain ⟨hi, _⟩ := List.getElem?_eq_some_iff.mp hl
      unfold Machine.system System.set
      congr 1
      funext j
      rw [Function.update_apply, getElem?_set]
      by_cases e : i = j
      · subst e
        simp [hi]
      · rw [if_neg e, if_neg (Ne.symm e)]
    rwa [he]

theorem Machine.play_run {moves : List (Move L A)} {trail all : Trail S L A}
    (h : m.play P trail moves = some (all, m')) {σ₀ : System S L}
    (h₀ : Run P σ₀ trail.events m.system) : Run P σ₀ all.events m'.system := by
  induction moves generalizing m trail with
  | nil =>
    cases h
    exact h₀
  | cons _ _ ih =>
    obtain ⟨⟨label, m₁⟩, h₁, h⟩ := Option.bind_eq_some_iff.mp h
    exact ih h (h₀.step (Machine.move_step h₁))

/-- **A schedule that can be played from a quiet system**, to a machine that passes a check. -/
theorem play_any (P : Program S L A K) (s : S) (moves : List (Move L A))
    (check : Trail S L A × Machine S L → Bool)
    (h : ((⟨s, []⟩ : Machine S L).play P [] moves).any check = true) :
    ∃ trail m, Run P (System.quiet s) (Trail.events trail) m.system ∧ check (trail, m) = true := by
  obtain ⟨⟨trail, m⟩, hm, hc⟩ := (Option.any_eq_true _ _).mp h
  have h₀ : Run P (System.quiet s) (Trail.events []) (⟨s, []⟩ : Machine S L).system := by
    have he : (⟨s, []⟩ : Machine S L).system = System.quiet s := by
      simp [Machine.system, System.quiet]
    rw [he]
    exact .start
  exact ⟨trail, m, Machine.play_run hm h₀, hc⟩

end Sound
end HeteroCloud.Base.Atomic
