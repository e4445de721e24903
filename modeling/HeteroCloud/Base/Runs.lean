/-
  File:      Base/Runs.lean
  Subject:   WHOLE RUNS of a program: cutting them at a step, what a call has done so far, and calls
             that leave the database alone.

  * `Idle`, `Run.idle` -- a call whose points are all reached without a commit has not changed the
    database.
-/
import HeteroCloud.Base.Guarded

namespace HeteroCloud.Base

section Runs
variable {D K W C : Type} {P : Program D K W C} {σ₀ σ σ' : System D K W C}
  {past later : List (Event D K W C)} {mover : Option Nat} {i : Nat}

/-! ## 1. Parts of a run -/

/-- The step executes the statement of the call `i` at the point `c`. -/
def Event.Executes (e : Event D K W C) (i : Nat) (c : C) : Prop :=
  e.mover = some i ∧ ∃ r, e.state.runs i = some r ∧ r.call = c

variable {e : Event D K W C} {r : Running K W C}

theorem Ready.executes {g : Guards D K W} {I : D → World D K W C → Prop} {d : D} {w : World D K W C}
    {uuid : Nat → Nat} (h : Ready g I d w e uuid i r) : e.Executes i r.call :=
  ⟨h.makes.mover, r, h.makes.runs, rfl⟩

/-- The state a run starts from is one of those it passes. -/
theorem Run.seen (h : Run P σ₀ past σ) : σ₀ ∈ σ :: past.map (·.state) := by
  induction h with
  | start => exact List.mem_singleton_self _
  | step _ _ ih => exact List.mem_cons_of_mem _ ih

theorem Run.append (h : Run P σ₀ past σ) (h' : Run P σ later σ') :
    Run P σ₀ (later ++ past) σ' := by
  induction h' with
  | start => exact h
  | step _ hs ih => exact ih.step hs

/-- **A run cut at a step.** -/
theorem Run.cut {before after : List (Event D K W C)} (h : Run P σ₀ (after ++ e :: before) σ) : ∃
    σ₁, Run P σ₀ before e.state ∧ StepBy P e.state e.mover σ₁ ∧ Run P σ₁ after σ := by
  induction after generalizing σ with
  | nil =>
    cases h with
    | step h hs => exact ⟨σ, h, hs, .start⟩
  | cons _ _ ih =>
    cases h with
    | step h hs =>
      obtain ⟨σ₁, hb, hstep, ha⟩ := ih h
      exact ⟨σ₁, hb, hstep, ha.step hs⟩

/-- **A step of a run.** -/
theorem Run.split (h : Run P σ₀ past σ) (he : e ∈ past) : ∃ before after σ₁, Run P σ₀ before e.state
    ∧ StepBy P e.state e.mover σ₁ ∧ Run P σ₁ after σ ∧ past = after ++ e :: before := by
  obtain ⟨after, before, rfl⟩ := List.append_of_mem he
  obtain ⟨σ₁, hb, hs, ha⟩ := h.cut
  exact ⟨before, after, σ₁, hb, hs, ha, rfl⟩

theorem Run.clock (h : Run P σ past σ') : σ.clock ≤ σ'.clock := by
  induction h with
  | start => exact Int.le_refl _
  | step _ hs ih => exact Int.le_trans ih (step_clock hs)

/-- The clock at a step lies between the clocks at the ends of the run. -/
theorem Run.clock_event (h : Run P σ past σ') (he : e ∈ past) : σ.clock ≤ e.state.clock ∧
    e.state.clock ≤ σ'.clock := by
  obtain ⟨_, _, _, hb, hs, ha, _⟩ := h.split he
  exact ⟨hb.clock, Int.le_trans (step_clock hs) ha.clock⟩

/-! ## 2. Calls -/

theorem set_runs_self (σ : System D K W C) (i : Nat) (r : Running K W C) :
    (σ.set i r).runs i = some r :=
  Function.update_self ..

variable {j : Nat}

theorem set_runs_other (hne : i ≠ j) (r : Running K W C) : (σ.set j r).runs i = σ.runs i :=
  Function.update_of_ne hne ..

/-- Only a call that has started makes steps. -/
theorem step_mover (hs : StepBy P σ (some i) σ') : ∃ r, σ.runs i = some r := by
  cases hs with
  | read _ r _ _ hi | stmt _ r _ _ _ _ hi | commit _ r _ _ hi | rollback _ r _ _ hi => exact ⟨r, hi⟩

/-- The statement of a call that can only commit publishes what the call has written. -/
theorem step_commits {c : C} (hs : StepBy P σ (some i) σ') (hi : σ.runs i = some r) (hc : ∀ t s uuid
    d, P.exec t s uuid d r.call = some (.commit c)) : σ'.db = P.view r σ.db := by
  cases hs with
  | read _ _ _ _ hq _ ho | stmt _ _ _ _ _ _ hq _ ho | rollback _ _ _ _ hq _ ho =>
    cases hi.symm.trans hq
    cases (hc ..).symm.trans ho
  | commit _ _ _ _ hq =>
    cases hi.symm.trans hq
    rfl

theorem set_started (h : σ.runs i ≠ none) : (σ.set j r).runs i ≠ none := by
  by_cases e : i = j
  · rw [e, set_runs_self]
    exact Option.some_ne_none r
  · rw [set_runs_other e]
    exact h

theorem step_started (hs : StepBy P σ mover σ') (h : σ.runs i ≠ none) : σ'.runs i ≠ none := by
  cases hs with
  | tick => exact h
  | _ => exact set_started h

theorem Run.started (hr : Run P σ past σ') (h : σ.runs i ≠ none) : σ'.runs i ≠ none := by
  induction hr with
  | start => exact h
  | step _ hs ih => exact step_started hs ih

/-- **A call that has not started has made no step.** -/
theorem Run.not_before (h : Run P σ₀ past σ) (hi : σ.runs i = none) (he : e ∈ past) : e.mover ≠ some
    i := by
  intro hm
  obtain ⟨_, _, σ₁, _, hs, ha, _⟩ := h.split he
  rw [hm] at hs
  obtain ⟨r, hr⟩ := step_mover hs
  have hsome : e.state.runs i ≠ none := by
    rw [hr]
    exact Option.some_ne_none r
  exact ha.started (step_started hs hsome) hi

/-! ## 3. Calls without a commit -/

/-- Where the call continues. -/
def Outcome.next : Outcome K W C → C
  | .read c | .stmt _ _ c | .commit c | .rollback c => c

/-- No step of the call `i` has changed the database. -/
def Idle (i : Nat) : List (Event D K W C) → System D K W C → Prop
  | [], _ => True
  | e :: past, σ => (e.mover = some i → σ.db = e.state.db) ∧ Idle i past e.state

/-- The points `clean` are reached without a commit. -/
structure Clean (P : Program D K W C) (clean : C → Prop) : Prop where
  exec : ∀ {t s uuid d c o}, P.exec t s uuid d c = some o → clean o.next → clean c
  commit : ∀ {t s uuid d c c'}, P.exec t s uuid d c = some (.commit c') → ¬ clean c'
  fail : ∀ {c c'}, P.fail c = some c' → clean c' → clean c

variable {clean : C → Prop}

/-- What is said of the call `i` after it moved to `r'`, before it did. -/
theorem clean_set {r s : Running K W C} (hj : σ.runs j = some r) (hback : clean s.call → clean
    r.call) (h : ∀ q, (σ.set j s).runs i = some q → clean q.call) : ∀ q, σ.runs i = some q → clean
    q.call := by
  intro q hq
  by_cases e : i = j
  · subst e
    cases hj.symm.trans hq
    exact hback (h s (set_runs_self σ i s))
  · exact h q ((set_runs_other e s).trans hq)

theorem Clean.step (hc : Clean P clean) (hs : StepBy P σ mover σ')
    (h : ∀ r, σ'.runs i = some r → clean r.call) :
    (mover = some i → σ'.db = σ.db) ∧ ∀ r, σ.runs i = some r → clean r.call := by
  cases hs with
  | tick => exact ⟨fun _ => rfl, h⟩
  | start j _ hj =>
    refine ⟨fun _ => rfl, fun r hr => ?_⟩
    have hne : i ≠ j := by
      rintro rfl
      cases hj.symm.trans hr
    exact h r ((set_runs_other hne _).trans hr)
  | read _ r _ c hj _ ho =>
    exact ⟨fun _ => rfl, clean_set (s := { r with call := c }) hj (hc.exec ho) h⟩
  | stmt _ r _ locks writes c hj _ ho =>
    exact ⟨fun _ => rfl,
      clean_set (s := ⟨c, locks ++ r.held, r.pending ++ writes, _⟩) hj (hc.exec ho) h⟩
  | commit _ _ _ c hj _ ho =>
    refine ⟨fun hm => ?_, clean_set (s := ⟨c, [], [], none⟩) hj (hc.exec ho) h⟩
    cases hm
    exact absurd (h ⟨c, [], [], none⟩ (set_runs_self σ i _)) (hc.commit ho)
  | rollback _ _ _ c hj _ ho =>
    exact ⟨fun _ => rfl, clean_set (s := ⟨c, [], [], none⟩) hj (hc.exec ho) h⟩
  | fail j r c hj hf =>
    exact ⟨fun _ => rfl, clean_set (s := ⟨c, [], [], none⟩) hj (hc.fail hf) h⟩

/-- **A call at a clean point has not changed the database.** -/
theorem Run.idle (hc : Clean P clean) (hr : Run P σ₀ past σ)
    (h : ∀ r, σ.runs i = some r → clean r.call) : Idle i past σ := by
  induction hr with
  | start => exact trivial
  | step _ hs ih =>
    obtain ⟨hdb, hback⟩ := hc.step hs h
    exact ⟨hdb, ih hback⟩

end Runs
end HeteroCloud.Base
