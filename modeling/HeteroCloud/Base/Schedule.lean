/-
  File:      Base/Schedule.lean
  Subject:   RUNS THAT CAN BE COMPUTED: a schedule says which call moves next, `Machine.play` plays
             it, and what it plays is a run (`play_run`).

  A machine lists its calls. New values are drawn above all values drawn before. `Machine.record`
  keeps the machines it passed, for what is said of the steps of a run (`record_any`).
-/
import HeteroCloud.Base.Runs

namespace HeteroCloud.Base

open List

variable {D K W C : Type}

/-! ## 1. Machines -/

/-- A system whose calls are listed. -/
structure Machine (D K W C : Type) where
  db : D
  clock : Int
  issued : List Nat
  calls : List (Running K W C)

/-- One entry of a schedule. -/
inductive Move (C : Type) where
  | tick (t : Int)
  | start (c : C)
  | step (i : Nat)
  | fail (i : Nat)

/-- The call whose statement the move executes. -/
def Move.mover : Move C → Option Nat
  | .step i => some i
  | _ => none

namespace Machine

def system (m : Machine D K W C) : System D K W C :=
  ⟨m.db, m.clock, m.issued, fun i => m.calls[i]?⟩

def quiet (d : D) (clock : Int) (issued : List Nat) : Machine D K W C := ⟨d, clock, issued, []⟩

/-- The call `i` becomes `r`. -/
def put (m : Machine D K W C) (i : Nat) (r : Running K W C) : Machine D K W C :=
  { m with calls := m.calls.set i r }

end Machine
variable (issued : List Nat)

/-- The values drawn next. -/
def draw (n : Nat) : Nat := issued.foldr max 0 + 1 + n

section Play
variable [DecidableEq K]

def compatible (xs ys : List (K × LockMode)) : Bool :=
  xs.all fun x => ys.all fun y => x.1 != y.1 || (x.2 == .share && y.2 == .share)

/-- No other call holds a lock that conflicts. -/
def Machine.free (m : Machine D K W C) (i : Nat) (locks : List (K × LockMode)) : Bool :=
  m.calls.zipIdx.all fun q => q.2 == i || compatible locks q.1.held

variable (P : Program D K W C) [DecidablePred P.start]

/-- The call `i` makes the step its statement decided on. -/
def Machine.take (m : Machine D K W C) (i : Nat) (r : Running K W C) (uuid : Nat → Nat) :
    Outcome K W C → Option (Machine D K W C)
  | .read c => some { m.put i { r with call := c } with issued := m.issued ++ P.drawn uuid }
  | .stmt locks writes c =>
      if m.free i locks then
        some { m.put i ⟨c, locks ++ r.held, r.pending ++ writes,
          some (r.began.getD m.clock)⟩ with issued := m.issued ++ P.drawn uuid }
      else none
  | .commit c => some { m.put i ⟨c, [], [], none⟩ with db := P.view r m.db }
  | .rollback c => some (m.put i ⟨c, [], [], none⟩)

def Machine.move (m : Machine D K W C) : Move C → Option (Machine D K W C)
  | .tick t => if m.clock ≤ t then some { m with clock := t } else none
  | .start c =>
      if P.start c then some { m with calls := m.calls ++ [⟨c, [], [], none⟩] } else none
  | .step i => m.calls[i]?.bind fun r =>
      (P.next m.system (draw m.issued) r).bind (m.take P i r (draw m.issued))
  | .fail i => m.calls[i]?.bind fun r => (P.fail r.call).map fun c => m.put i ⟨c, [], [], none⟩

def Machine.play (m : Machine D K W C) : List (Move C) → Option (Machine D K W C)
  | [] => some m
  | move :: rest => (m.move P move).bind fun m' => m'.play rest

/-- The machines passed and who moved on each, newest first. -/
abbrev Trail (D K W C : Type) := List (Machine D K W C × Option Nat)

/-- The same, with the trail. -/
def Machine.record (m : Machine D K W C) (trail : Trail D K W C) :
    List (Move C) → Option (Trail D K W C × Machine D K W C)
  | [] => some (trail, m)
  | move :: rest => (m.move P move).bind fun m' => m'.record ((m, move.mover) :: trail) rest

end Play

def Trail.events (trail : Trail D K W C) : List (Event D K W C) :=
  trail.map fun x => ⟨x.1.system, x.2⟩

/-- The point whose statement is executed on the machine. -/
def Machine.executed (m : Machine D K W C) (who : Option Nat) : Option C :=
  (who.bind fun i => m.calls[i]?).map (·.call)

variable {m : Machine D K W C}
variable {who : Option Nat}

/-- A step that executes a statement of a machine. -/
theorem Machine.executed_of {i : Nat} {c : C} (h : Event.Executes ⟨m.system, who⟩ i c) : m.executed
    who = some c := by
  obtain ⟨hwho, r, hr, rfl⟩ := h
  have hwho : who = some i := hwho
  have hr : m.calls[i]? = some r := hr
  rw [Machine.executed, hwho, Option.bind_some, hr]
  rfl

theorem Machine.executes_of {c : C} (h : m.executed who = some c) : ∃ i, Event.Executes ⟨m.system,
    who⟩ i c := by
  obtain ⟨r, hr, hcall⟩ := Option.map_eq_some_iff.mp h
  obtain ⟨i, hwho, hr⟩ := Option.bind_eq_some_iff.mp hr
  exact ⟨i, hwho, r, hr, hcall⟩

/-- A step of the call `i` changed what `f` reads of the database. -/
def Trail.changes {β : Type} [DecidableEq β] (f : D → β) (i : Nat) :
    Trail D K W C → Machine D K W C → Bool
  | [], _ => false
  | (m, who) :: trail, m' => (who == some i && f m.db != f m'.db) || changes f i trail m

theorem Trail.not_idle {β : Type} [DecidableEq β] {f : D → β} {i : Nat} {trail : Trail D K W C} (h :
    trail.changes f i m = true) : ¬ Idle i trail.events m.system := by
  induction trail generalizing m with
  | nil => cases h
  | cons x _ ih =>
    obtain ⟨m₀, who⟩ := x
    intro hidle
    simp only [changes, Bool.or_eq_true, Bool.and_eq_true, beq_iff_eq, bne_iff_ne] at h
    rcases h with ⟨hwho, hne⟩ | h
    · have hdb : m.db = m₀.db := hidle.1 hwho
      exact hne (congrArg f hdb.symm)
    · exact ih h hidle.2

/-! ## 2. What is played is a run -/

theorem draw_fresh : Fresh (draw issued) issued := by
  have hle (k : Nat) (hk : k ∈ issued) : k ≤ issued.foldr max 0 := by
    induction issued with
    | nil => cases hk
    | cons _ _ ih =>
      rcases mem_cons.mp hk with rfl | hk
      · exact Nat.le_max_left _ _
      · exact Nat.le_trans (ih hk) (Nat.le_max_right _ _)
  constructor
  · intro a b h
    unfold draw at h
    omega
  · intro k hk
    have := hle _ hk
    unfold draw at this
    omega

section Sound
variable {m m' : Machine D K W C} {i : Nat} {r : Running K W C}

theorem Machine.quiet_system (d : D) (clock : Int) (issued : List Nat) :
    (Machine.quiet d clock issued : Machine D K W C).system =
      System.quiet d clock issued := by
  simp [Machine.quiet, Machine.system, System.quiet]

theorem Machine.put_system (h : m.calls[i]? = some r) (q : Running K W C) :
    (m.put i q).system = m.system.set i q := by
  obtain ⟨hi, _⟩ := List.getElem?_eq_some_iff.mp h
  have hruns : (fun j => (m.calls.set i q)[j]?) =
      Function.update (fun j => m.calls[j]?) i (some q) := by
    funext j
    rw [Function.update_apply, getElem?_set]
    by_cases e : i = j
    · subst e
      simp [hi]
    · rw [if_neg e, if_neg (Ne.symm e)]
  unfold Machine.put Machine.system System.set
  rw [hruns]

theorem Machine.start_system (c : C) :
    ({ m with calls := m.calls ++ [⟨c, [], [], none⟩] } : Machine D K W C).system =
      m.system.set m.calls.length ⟨c, [], [], none⟩ := by
  have hruns : (fun j => (m.calls ++ [(⟨c, [], [], none⟩ : Running K W C)])[j]?) =
      Function.update (fun j => m.calls[j]?) m.calls.length (some ⟨c, [], [], none⟩) := by
    funext j
    rw [Function.update_apply]
    rcases Nat.lt_trichotomy j m.calls.length with hj | rfl | hj
    · rw [if_neg (Nat.ne_of_lt hj), getElem?_append_left hj]
    · simp
    · rw [if_neg (Nat.ne_of_gt hj), getElem?_eq_none (by simp; omega),
        getElem?_eq_none (Nat.le_of_lt hj)]
  unfold Machine.system System.set
  rw [hruns]

variable [DecidableEq K]

theorem compatible_of {xs ys : List (K × LockMode)} (h : compatible xs ys = true) :
    Compatible xs ys := by
  intro x hx y hy e
  have hxy := all_eq_true.mp (all_eq_true.mp h x hx) y hy
  simpa [e] using hxy

theorem Machine.free_of {locks : List (K × LockMode)} (h : m.free i locks = true) :
    m.system.Free i locks := by
  intro j q hne hj
  have hmem : (q, j) ∈ m.calls.zipIdx := mk_mem_zipIdx_iff_getElem?.mpr hj
  have hq := all_eq_true.mp h _ hmem
  simp only [Bool.or_eq_true, beq_iff_eq] at hq
  exact compatible_of (hq.resolve_left hne)

variable {P : Program D K W C}

theorem take_step {uuid : Nat → Nat} {o : Outcome K W C} (hr : m.calls[i]? = some r)
    (hu : Fresh uuid m.issued) (ho : P.next m.system uuid r = some o)
    (h : m.take P i r uuid o = some m') : StepBy P m.system (some i) m'.system := by
  have hput (q : Running K W C) := Machine.put_system hr q
  cases o with
  | read c =>
    cases h
    have hs := StepBy.read m.system i r uuid c hr hu ho
    rw [← hput] at hs
    exact hs
  | stmt locks writes c =>
    simp only [Machine.take] at h
    split_ifs at h with hf
    cases h
    have hs := StepBy.stmt m.system i r uuid locks writes c hr hu ho (Machine.free_of hf)
    rw [← hput] at hs
    exact hs
  | commit c =>
    cases h
    have hs := StepBy.commit m.system i r uuid c hr hu ho
    rw [← hput] at hs
    exact hs
  | rollback c =>
    cases h
    have hs := StepBy.rollback m.system i r uuid c hr hu ho
    rw [← hput] at hs
    exact hs

variable [DecidablePred P.start]

/-- **A move is a step.** -/
theorem move_step {move : Move C} (h : m.move P move = some m') :
    StepBy P m.system move.mover m'.system := by
  cases move with
  | tick t =>
    simp only [Machine.move] at h
    split_ifs at h with ht
    cases h
    exact .tick m.system t ht
  | start c =>
    simp only [Machine.move] at h
    split_ifs at h with hc
    cases h
    rw [Machine.start_system]
    exact .start m.system _ c (getElem?_eq_none (Nat.le_refl _)) hc
  | step =>
    obtain ⟨r, hr, h⟩ := Option.bind_eq_some_iff.mp h
    obtain ⟨o, ho, h⟩ := Option.bind_eq_some_iff.mp h
    exact take_step hr (draw_fresh m.issued) ho h
  | fail i =>
    obtain ⟨r, hr, h⟩ := Option.bind_eq_some_iff.mp h
    obtain ⟨c, hc, rfl⟩ := Option.map_eq_some_iff.mp h
    rw [Machine.put_system hr]
    exact .fail m.system i r c hr hc

variable {moves : List (Move C)}
variable {σ₀ : System D K W C}

/-- **What is played is a run.** -/
theorem play_run (h : m.play P moves = some m') {past : List (Event D K W C)} (h₀ : Run P σ₀ past
    m.system) : ∃ all, Run P σ₀ all m'.system := by
  induction moves generalizing m past with
  | nil =>
    cases h
    exact ⟨past, h₀⟩
  | cons _ _ ih =>
    obtain ⟨m₁, h₁, h⟩ := Option.bind_eq_some_iff.mp h
    exact ih h (h₀.step (move_step h₁))

/-- A schedule that can be played from a quiet system, to a machine that passes a check. -/
theorem play_any {d : D} {t : Int} {issued : List Nat} {check : Machine D K W C → Bool} (h :
    ((Machine.quiet d t issued).play P moves).any check = true) : ∃ m past, Run P (System.quiet d t
    issued) past m.system ∧ check m = true := by
  obtain ⟨m, hm, hc⟩ := (Option.any_eq_true _ _).mp h
  have h₀ : Run P (System.quiet d t issued) [] (Machine.quiet d t issued).system := by
    rw [Machine.quiet_system]
    exact .start
  obtain ⟨past, hr⟩ := play_run hm h₀
  exact ⟨m, past, hr, hc⟩

theorem record_run {trail all : Trail D K W C} (h : m.record P trail moves = some (all, m')) (h₀ :
    Run P σ₀ trail.events m.system) : Run P σ₀ all.events m'.system := by
  induction moves generalizing m trail with
  | nil =>
    cases h
    exact h₀
  | cons _ _ ih =>
    obtain ⟨m₁, h₁, h⟩ := Option.bind_eq_some_iff.mp h
    exact ih h (h₀.step (move_step h₁))

/-- The same for what is said of the steps, too. -/
theorem record_any {d : D} {t : Int} {issued : List Nat} {check : Trail D K W C × Machine D K W C →
    Bool} (h : ((Machine.quiet d t issued).record P [] moves).any check = true) : ∃ trail m, Run P
    (System.quiet d t issued) (Trail.events trail) m.system ∧ check (trail, m) = true := by
  obtain ⟨⟨trail, m⟩, hm, hc⟩ := (Option.any_eq_true _ _).mp h
  have h₀ : Run P (System.quiet d t issued) (Trail.events [])
      (Machine.quiet d t issued).system := by
    rw [Machine.quiet_system]
    exact .start
  exact ⟨trail, m, record_run hm h₀, hc⟩

end Sound
end HeteroCloud.Base
