/-
  File:      Base/Transaction.lean
  Subject:   CALLS THAT RUN TRANSACTIONS ON ONE SHARED DATABASE, statement by statement.

  A call is a program point with its local values. Its next statement (`Program.exec`) reads the
  database as the call sees it: the committed state under the call's own uncommitted writes
  (`Running.view`), so a statement sees what is committed when it runs (READ COMMITTED) and a
  transaction sees its own writes. A statement may take locks, held to the end of the
  transaction; it runs only when no other call holds a conflicting one (a blocked statement is a
  statement that has not run yet). Its writes stay private until `commit` publishes all of them
  at once. Any number of calls run, and the steps of different calls interleave freely.

  * `Step`, `Reach`, `Run` -- one step of one call, and every interleaving of steps;
  * `Outline`, `Outline.run` -- the proof rule: an invariant of the committed database and an
    assertion at every program point hold in every reachable system once each statement keeps
    its own call's assertion and each commit keeps the invariant and the assertions of all calls
    whose locks are compatible with the committing call's. Assertions may refer to the states
    passed and the steps made before (`World`).
-/
import Mathlib.Logic.Relation
import Mathlib.Logic.Function.Basic
import Mathlib.Tactic.Common

namespace HeteroCloud.Base

open List

/-! ## 1. Locks -/

/-- Strength of a lock: `FOR SHARE` or `FOR UPDATE`. -/
inductive LockMode where
  | share
  | exclusive
  deriving DecidableEq, Repr

/-- Two lists of locks held by different calls: a common key is shared on both sides. -/
def Compatible {K : Type} (xs ys : List (K × LockMode)) : Prop :=
  ∀ x ∈ xs, ∀ y ∈ ys, x.1 = y.1 → x.2 = .share ∧ y.2 = .share

section Locks
variable {K : Type}
variable {xs ys : List (K × LockMode)}

theorem compatible_symm (h : Compatible xs ys) : Compatible ys xs :=
  fun y hy x hx e => (h x hx y hy e.symm).symm

theorem compatible_nil (ys : List (K × LockMode)) : Compatible [] ys :=
  (forall_mem_nil _)

theorem compatible_append {xs xs' ys : List (K × LockMode)} (h : Compatible xs ys)
    (h' : Compatible xs' ys) : Compatible (xs ++ xs') ys := by
  intro x hx y hy e
  rcases mem_append.mp hx with hx | hx
  · exact h x hx y hy e
  · exact h' x hx y hy e

/-- **Mutual exclusion**: a key one call holds exclusively is held by no other call. -/
theorem Compatible.exclusive (h : Compatible xs ys) {k : K} (hk : (k, .exclusive) ∈ xs) (m :
    LockMode) : (k, m) ∉ ys := by
  intro hm
  have := (h _ hk _ hm rfl).1
  cases this

/-- The same, seen from the call that holds the key. -/
theorem Compatible.not_held (h : Compatible xs ys) {k : K} (hk : (k, .exclusive) ∈ ys) : (k,
    .exclusive) ∉ xs :=
  (compatible_symm h).exclusive hk .exclusive

end Locks

/-! ## 2. Programs and systems -/

/-- What the next statement of a call does. -/
inductive Outcome (K W C : Type) where
  /-- A statement outside any transaction that writes nothing. -/
  | read (next : C)
  /-- A statement of a transaction: it takes `locks` and adds `writes` to the private writes. -/
  | stmt (locks : List (K × LockMode)) (writes : List W) (next : C)
  | commit (next : C)
  | rollback (next : C)

/-- The calls of a system. `D` is the database, `W` one row write, `K` a lock key and `C` a
    program point with its local values. `exec` gets the clock, the start time of the
    transaction, the stream of values the generators draw, and the call's view. -/
structure Program (D K W C : Type) where
  apply : W → D → D
  exec : Int → Int → (Nat → Nat) → D → C → Option (Outcome K W C)
  /-- Where a call continues when its statement fails (a lost connection, a violated
      constraint, a deadlock victim): the transaction is rolled back. -/
  fail : C → Option C
  start : C → Prop
  /-- How many generated values one statement may draw. -/
  width : Nat

/-- A call under way. -/
structure Running (K W C : Type) where
  call : C
  held : List (K × LockMode)
  pending : List W
  began : Option Int

/-- The committed database, the clock, every value ever drawn, and the calls under way. -/
structure System (D K W C : Type) where
  db : D
  clock : Int
  issued : List Nat
  runs : Nat → Option (Running K W C)

variable {D K W C : Type}

/-- A system on which no call has started. -/
def System.quiet (d : D) (clock : Int) (issued : List Nat) : System D K W C :=
  ⟨d, clock, issued, fun _ => none⟩

/-- The generated values: pairwise different and never drawn before. -/
def Fresh (uuid : Nat → Nat) (issued : List Nat) : Prop :=
  Function.Injective uuid ∧ ∀ k, uuid k ∉ issued

namespace Program

variable (P : Program D K W C)

/-- Writes applied in order. -/
def applyAll (ws : List W) (d : D) : D := ws.foldl (fun d w => P.apply w d) d

@[simp] theorem applyAll_nil (d : D) : P.applyAll [] d = d := rfl

@[simp] theorem applyAll_cons (w : W) (ws : List W) (d : D) :
    P.applyAll (w :: ws) d = P.applyAll ws (P.apply w d) := rfl

@[simp] theorem applyAll_append (ws ws' : List W) (d : D) :
    P.applyAll (ws ++ ws') d = P.applyAll ws' (P.applyAll ws d) := by
  simp [applyAll]

/-- The database as the call sees it. -/
def view (r : Running K W C) (d : D) : D := P.applyAll r.pending d

/-- The values one statement draws. -/
def drawn (uuid : Nat → Nat) : List Nat := (List.range P.width).map uuid

/-- The next statement of the call `r` on `σ`. -/
def next (σ : System D K W C) (uuid : Nat → Nat) (r : Running K W C) :
    Option (Outcome K W C) :=
  P.exec σ.clock (r.began.getD σ.clock) uuid (P.view r σ.db) r.call

end Program
variable (σ : System D K W C) (i : Nat)

/-- The call `i` becomes `r`. -/
def System.set (r : Running K W C) : System D K W C :=
  { σ with runs := Function.update σ.runs i (some r) }

/-- No call other than `i` holds a lock that conflicts with `locks`. -/
def System.Free (locks : List (K × LockMode)) : Prop :=
  ∀ j q, j ≠ i → σ.runs j = some q → Compatible locks q.held

/-- **One step**, and the call whose statement it executes, if any. -/
inductive StepBy (P : Program D K W C) :
    System D K W C → Option Nat → System D K W C → Prop where
  | tick (σ : System D K W C) (t : Int) (ht : σ.clock ≤ t) :
      StepBy P σ none { σ with clock := t }
  | start (σ : System D K W C) (i : Nat) (c : C) (hi : σ.runs i = none) (hc : P.start c) :
      StepBy P σ none (σ.set i ⟨c, [], [], none⟩)
  | read (σ : System D K W C) (i : Nat) (r : Running K W C) (uuid : Nat → Nat) (c : C)
      (hi : σ.runs i = some r) (hu : Fresh uuid σ.issued)
      (ho : P.next σ uuid r = some (.read c)) :
      StepBy P σ (some i) { σ.set i { r with call := c } with issued := σ.issued ++ P.drawn uuid }
  | stmt (σ : System D K W C) (i : Nat) (r : Running K W C) (uuid : Nat → Nat)
      (locks : List (K × LockMode)) (writes : List W) (c : C)
      (hi : σ.runs i = some r) (hu : Fresh uuid σ.issued)
      (ho : P.next σ uuid r = some (.stmt locks writes c)) (hf : σ.Free i locks) :
      StepBy P σ (some i) { σ.set i ⟨c, locks ++ r.held, r.pending ++ writes,
        some (r.began.getD σ.clock)⟩ with issued := σ.issued ++ P.drawn uuid }
  | commit (σ : System D K W C) (i : Nat) (r : Running K W C) (uuid : Nat → Nat) (c : C)
      (hi : σ.runs i = some r) (hu : Fresh uuid σ.issued)
      (ho : P.next σ uuid r = some (.commit c)) :
      StepBy P σ (some i) { σ.set i ⟨c, [], [], none⟩ with db := P.view r σ.db }
  | rollback (σ : System D K W C) (i : Nat) (r : Running K W C) (uuid : Nat → Nat) (c : C)
      (hi : σ.runs i = some r) (hu : Fresh uuid σ.issued)
      (ho : P.next σ uuid r = some (.rollback c)) :
      StepBy P σ (some i) (σ.set i ⟨c, [], [], none⟩)
  | fail (σ : System D K W C) (i : Nat) (r : Running K W C) (c : C)
      (hi : σ.runs i = some r) (hc : P.fail r.call = some c) :
      StepBy P σ none (σ.set i ⟨c, [], [], none⟩)

variable (P : Program D K W C)

/-- One step. -/
def Step (σ σ' : System D K W C) : Prop := ∃ mover, StepBy P σ mover σ'

/-- Every interleaving of steps. -/
def Reach : System D K W C → System D K W C → Prop :=
  Relation.ReflTransGen (Step P)

section Reach
variable {P : Program D K W C}
variable {who : Option Nat} {σ σ' : System D K W C}

theorem step_clock (h : StepBy P σ who σ') : σ.clock ≤ σ'.clock := by
  cases h with
  | tick t ht => exact ht
  | _ => exact Int.le_refl _

theorem step_issued (h : StepBy P σ who σ') {k : Nat} (hk : k ∈ σ.issued) : k ∈ σ'.issued := by
  cases h with
  | read | stmt => exact mem_append_left _ hk
  | _ => exact hk

/-- Two different calls never hold conflicting locks. -/
def LocksOk (σ : System D K W C) : Prop :=
  ∀ i j r q, i ≠ j → σ.runs i = some r → σ.runs j = some q → Compatible r.held q.held

variable {r : Running K W C}

theorem locksOk_set {σ : System D K W C} {i : Nat} (h : LocksOk σ) (hr : σ.Free i r.held) : LocksOk
    (σ.set i r) := by
  intro j k q q' hne hj hk
  simp only [System.set, Function.update_apply] at hj hk
  by_cases ej : j = i
  · subst ej
    rw [if_pos rfl] at hj
    rw [if_neg (Ne.symm hne)] at hk
    cases hj
    exact hr k q' (Ne.symm hne) hk
  · rw [if_neg ej] at hj
    by_cases ek : k = i
    · subst ek
      rw [if_pos rfl] at hk
      cases hk
      exact compatible_symm (hr j q hne hj)
    · rw [if_neg ek] at hk
      exact h j k q q' hne hj hk

theorem locksOk_free {σ : System D K W C} {i : Nat} (h : LocksOk σ) (hi : σ.runs i = some r) :
    σ.Free i r.held :=
  fun j q hne hj => h i j r q (Ne.symm hne) hi hj

theorem free_nil (σ : System D K W C) (i : Nat) : σ.Free i [] :=
  fun _ q _ _ => compatible_nil q.held

/-- **Locks stay exclusive.** -/
theorem step_locks (h : LocksOk σ) (hs : StepBy P σ who σ') : LocksOk σ' := by
  cases hs with
  | tick => exact h
  | start i | rollback i | fail i => exact locksOk_set h (free_nil σ i)
  | read i r _ c hi =>
      have hf : σ.Free i r.held := locksOk_free h hi
      exact locksOk_set (r := { r with call := c }) h hf
  | stmt _ r _ locks writes c hi _ _ hf =>
      exact locksOk_set (r := ⟨c, locks ++ r.held, r.pending ++ writes, _⟩) h
        fun j q hne hj => compatible_append (hf j q hne hj) (locksOk_free h hi j q hne hj)
  | commit i r _ c => exact locksOk_set (r := ⟨c, [], [], none⟩) h (free_nil σ i)

end Reach

/-- A step of a run: the state it left, and the call whose statement it executed. -/
structure Event (D K W C : Type) where
  state : System D K W C
  mover : Option Nat

/-- A run with its steps, newest first. -/
inductive Run (P : Program D K W C) (σ₀ : System D K W C) :
    List (Event D K W C) → System D K W C → Prop where
  | start : Run P σ₀ [] σ₀
  | step {past : List (Event D K W C)} {σ σ' : System D K W C} {mover : Option Nat}
      (h : Run P σ₀ past σ) (hs : StepBy P σ mover σ') : Run P σ₀ (⟨σ, mover⟩ :: past) σ'

theorem Reach.run {P : Program D K W C} {σ₀ σ : System D K W C} (h : Reach P σ₀ σ) :
    ∃ past, Run P σ₀ past σ := by
  induction h with
  | refl => exact ⟨[], .start⟩
  | tail _ hs ih =>
      obtain ⟨past, h⟩ := ih
      obtain ⟨mover, hs⟩ := hs
      exact ⟨_, h.step hs⟩

/-! ## 3. The proof rule -/

/-- What an assertion may refer to besides the database: the clock, the values drawn so far, the
    steps made so far, and the states passed so far, this one included. -/
structure World (D K W C : Type) where
  clock : Int
  issued : List Nat
  done : List (Event D K W C)
  seen : List (System D K W C)

/-- A later world, on the database `d`: every state passed meanwhile has it. -/
structure World.Grows (d : D) (w w' : World D K W C) : Prop where
  clock : w.clock ≤ w'.clock
  issued : ∀ k ∈ w.issued, k ∈ w'.issued
  done : ∀ e ∈ w.done, e ∈ w'.done
  seen : ∀ σ ∈ w.seen, σ ∈ w'.seen
  only : ∀ σ ∈ w'.seen, σ ∈ w.seen ∨ σ.db = d
  here : ∃ σ ∈ w'.seen, σ.db = d

/-- The world after a step that drew values. -/
def World.after (w : World D K W C) (e : Event D K W C) (ids : List Nat) : World D K W C :=
  { w with issued := w.issued ++ ids, done := e :: w.done }

def System.world (past : List (Event D K W C)) : World D K W C :=
  ⟨σ.clock, σ.issued, past, σ :: past.map (·.state)⟩

/-- The step the call `i`, at `r`, is about to make on the database `d`. -/
structure Event.Makes (e : Event D K W C) (d : D) (clock : Int) (i : Nat) (r : Running K W C) :
    Prop where
  db : e.state.db = d
  clock : e.state.clock = clock
  runs : e.state.runs i = some r
  mover : e.mover = some i

section Rule
variable (P : Program D K W C) (I : D → World D K W C → Prop)
  (G : World D K W C → List (K × LockMode) → D → D → Prop)
  (L : D → World D K W C → Nat → Running K W C → Prop)

/-- What holds after the step `e`, an outcome of the call `i`. A commit has to keep the invariant
    and is seen by others as a `G` step. -/
def After (d : D) (w : World D K W C) (e : Event D K W C) (uuid : Nat → Nat) (i : Nat)
    (r : Running K W C) : Outcome K W C → Prop
  | .read c => L d (w.after e (P.drawn uuid)) i { r with call := c }
  | .stmt locks writes c => L d (w.after e (P.drawn uuid)) i
      ⟨c, locks ++ r.held, r.pending ++ writes, some (r.began.getD w.clock)⟩
  | .commit c => G w r.held d (P.view r d) ∧ ∀ w', (w.after e []).Grows (P.view r d) w' →
      I (P.view r d) w' ∧ L (P.view r d) w' i ⟨c, [], [], none⟩
  | .rollback c => L d (w.after e []) i ⟨c, [], [], none⟩

/-- **A proof outline**: `I` is the invariant of the committed database, `L` the assertion that
    holds at a call's program point, and `G` what a commit may do to the database. -/
structure Outline : Prop where
  mono_inv : ∀ {d w w'}, w.Grows d w' → I d w → I d w'
  mono_loc : ∀ {d w w' i r}, w.Grows d w' → I d w → L d w i r → L d w' i r
  start : ∀ {d w i c}, I d w → P.start c → L d w i ⟨c, [], [], none⟩
  step : ∀ {d w e i r uuid o}, I d w → L d w i r → e.Makes d w.clock i r → Fresh uuid w.issued →
    P.exec w.clock (r.began.getD w.clock) uuid (P.view r d) r.call = some o →
    After P I G L d w e uuid i r o
  stable : ∀ {d d' w w' held i r}, w.Grows d' w' → I d w → I d' w' → G w held d d' →
    L d w i r → Compatible held r.held → L d' w' i r
  fail : ∀ {d w i r c}, I d w → L d w i r → P.fail r.call = some c → L d w i ⟨c, [], [], none⟩

/-- The outline's assertion of a whole system. -/
structure Holds (past : List (Event D K W C)) (σ : System D K W C) : Prop where
  inv : I σ.db (σ.world past)
  loc : ∀ i r, σ.runs i = some r → L σ.db (σ.world past) i r
  locks : LocksOk σ

end Rule

section Outline
variable {P : Program D K W C} {I : D → World D K W C → Prop}
  {G : World D K W C → List (K × LockMode) → D → D → Prop}
  {L : D → World D K W C → Nat → Running K W C → Prop}
  {σ σ' : System D K W C} {past : List (Event D K W C)} {mover : Option Nat}

theorem world_step (past : List (Event D K W C)) (hs : StepBy P σ mover σ') :
    (σ.world past).Grows σ'.db (σ'.world (⟨σ, mover⟩ :: past)) where
  clock := step_clock hs
  issued _ hk := step_issued hs hk
  done _ h := mem_cons_of_mem _ h
  seen _ h := mem_cons_of_mem _ h
  only _ h := by
    rcases mem_cons.mp h with rfl | h
    · exact .inr rfl
    · exact .inl h
  here := ⟨σ', mem_cons_self, rfl⟩

/-- The world after a step that drew `ids` is the world of its result. -/
theorem world_after (past : List (Event D K W C)) {ids : List Nat} (hs : StepBy P σ mover σ')
    (hc : σ'.clock = σ.clock) (hi : σ'.issued = σ.issued ++ ids) :
    ((σ.world past).after ⟨σ, mover⟩ ids).Grows σ'.db (σ'.world (⟨σ, mover⟩ :: past)) :=
  { world_step past hs with
    clock := Int.le_of_eq hc.symm
    issued := fun k hk => by
      show k ∈ σ'.issued
      rw [hi]
      exact hk
    done := fun _ h => h }

theorem grows_after (past : List (Event D K W C)) (e : Event D K W C) (ids : List Nat) :
    (σ.world past).Grows σ.db ((σ.world past).after e ids) where
  clock := Int.le_refl _
  issued _ hk := mem_append_left _ hk
  done _ h := mem_cons_of_mem _ h
  seen _ h := h
  only _ h := .inl h
  here := ⟨σ, mem_cons_self, rfl⟩

variable {r : Running K W C}

theorem makes_next {i : Nat} (hi : σ.runs i = some r) : Event.Makes ⟨σ, some i⟩ σ.db σ.clock i r :=
  ⟨rfl, rfl, hi, rfl⟩

/-- After the call `i` moved to `r`, the assertions of all calls: the mover's own, and the
    others', carried over to the new database and world. -/
theorem loc_set {i : Nat} {d : D} {w : World D K W C} (hr : L d w i r) (ho : ∀ j q, j ≠ i → σ.runs j
    = some q → L d w j q) : ∀ j q, (σ.set i r).runs j = some q → L d w j q := by
  intro j q hj
  simp only [System.set, Function.update_apply] at hj
  by_cases e : j = i
  · rw [if_pos e] at hj
    cases hj
    exact e ▸ hr
  · rw [if_neg e] at hj
    exact ho j q e hj

variable (O : Outline P I G L)
include O

theorem Outline.holds_step (h : Holds I L past σ) (hs : StepBy P σ mover σ') : Holds I L (⟨σ, mover⟩
    :: past) σ' := by
  have hl := step_locks h.locks hs
  have hw := world_step past hs
  have hcopy := hs
  -- a step that does not commit leaves the database, so everything carries over
  have hinv : σ'.db = σ.db → I σ.db (σ'.world (⟨σ, mover⟩ :: past)) := fun e =>
    O.mono_inv (e ▸ hw) h.inv
  have hloc : σ'.db = σ.db → ∀ i r, σ.runs i = some r →
      L σ.db (σ'.world (⟨σ, mover⟩ :: past)) i r :=
    fun e i r hi => O.mono_loc (e ▸ hw) h.inv (h.loc i r hi)
  have hafter (e : Event D K W C) (ids : List Nat) : I σ.db ((σ.world past).after e ids) :=
    O.mono_inv (grows_after past e ids) h.inv
  cases hs with
  | tick => exact ⟨hinv rfl, hloc rfl, hl⟩
  | start _ _ _ hc =>
      exact ⟨hinv rfl, loc_set (O.start (hinv rfl) hc) fun j q _ => hloc rfl j q, hl⟩
  | read i r _ _ hi hu ho | stmt i r _ _ _ _ hi hu ho =>
      have ha := O.step h.inv (h.loc i r hi) (makes_next hi) hu ho
      exact ⟨hinv rfl, loc_set (O.mono_loc (world_after past hcopy rfl rfl) (hafter _ _) ha)
        fun j q _ => hloc rfl j q, hl⟩
  | commit i r _ _ hi hu ho =>
      obtain ⟨hG, hnext⟩ := O.step h.inv (h.loc i r hi) (makes_next hi) hu ho
      obtain ⟨hI, hL⟩ := hnext _ (world_after past hcopy rfl (append_nil _).symm)
      refine ⟨hI, loc_set hL fun j q hne hj => ?_, hl⟩
      exact O.stable hw h.inv hI hG (h.loc j q hj) (h.locks i j r q (Ne.symm hne) hi hj)
  | rollback i r _ _ hi hu ho =>
      have ha := O.step h.inv (h.loc i r hi) (makes_next hi) hu ho
      exact ⟨hinv rfl, loc_set (O.mono_loc (world_after past hcopy rfl (append_nil _).symm)
        (hafter _ _) ha) fun j q _ => hloc rfl j q, hl⟩
  | fail i r c hi hc =>
      exact ⟨hinv rfl, loc_set (O.fail (hinv rfl) (hloc rfl i r hi) hc)
        fun j q _ => hloc rfl j q, hl⟩

/-- **The rule**: the outline holds in every state of every interleaving. -/
theorem Outline.run {d : D} {t : Int} {is : List Nat} (h : Run P (System.quiet d t is) past σ) (h₀ :
    I d ((System.quiet d t is).world [])) : Holds I L past σ := by
  induction h with
  | start => exact ⟨h₀, (fun _ _ hi => nomatch hi), (fun _ _ _ _ _ hi _ => nomatch hi)⟩
  | step _ hs ih => exact O.holds_step ih hs

/-- **What commits keep stays from then on**: a property of the database that every `G` step
    keeps holds in every later state. -/
theorem Outline.later {Q : D → World D K W C → Prop} (hm : ∀ {d w w'}, w.Grows d w' → I d w → Q d w
    → Q d w') (hq : ∀ {d d' w w' held}, w.Grows d' w' → I d w → G w held d d' → Q d w → Q d' w') (h
    : Holds I L past σ) (h₀ : Q σ.db (σ.world past)) {later : List (Event D K W C)} (hr : Run P σ
    later σ') : ∃ all, Holds I L all σ' ∧ Q σ'.db (σ'.world all) := by
  induction hr with
  | start => exact ⟨past, h, h₀⟩
  | step _ hs ih =>
      obtain ⟨all, hold, hQ⟩ := ih
      refine ⟨_, O.holds_step hold hs, ?_⟩
      have hw := world_step all hs
      cases hs with
      | commit i r _ _ hi hu ho =>
          obtain ⟨hG, _⟩ := O.step hold.inv (hold.loc i r hi) (makes_next hi) hu ho
          exact hq hw hold.inv hG hQ
      | _ => exact hm hw hold.inv hQ

end Outline
end HeteroCloud.Base
