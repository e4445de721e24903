/-
  File:      Base/Numbers.lean
  Subject:   `u64` ARITHMETIC on natural numbers, and PREFIX RANGES: the numbers that agree with a
             number above its lowest bits.

  * `mem_iff` -- such a range is one quotient;
  * `Prefix.nested` -- two of them that meet are nested, so that mutual containment decides whether
    two ranges are disjoint (`Prefix.disjoint_iff`).
-/
import Mathlib.Algebra.Group.Nat.Defs
import Mathlib.Tactic.Common

namespace HeteroCloud.Base

/-! ## 1. `u64` arithmetic -/

/-- `u64::MAX`. -/
def u64Max : Nat := 18446744073709551615

/-- The nearest `u64`. -/
def saturate (n : Nat) : Nat := min n u64Max

section
variable (a b : Nat)

def saturatingAdd : Nat := saturate (a + b)

def saturatingMul : Nat := saturate (a * b)

def wrappingAdd : Nat := (a + b) % (u64Max + 1)

def wrappingMul : Nat := (a * b) % (u64Max + 1)

def checkedAdd : Option Nat := if a + b ≤ u64Max then some (a + b) else none

def checkedMul : Option Nat := if a * b ≤ u64Max then some (a * b) else none

end

/-! ## 2. Prefix ranges -/

/-- A number and how many of its lowest bits are free. -/
structure Prefix where
  base : Nat
  free : Nat
  deriving DecidableEq, Repr

namespace Prefix

def first (p : Prefix) : Nat := p.base / 2 ^ p.free * 2 ^ p.free

def last (p : Prefix) : Nat := p.first + (2 ^ p.free - 1)

/-- The number is in the range. -/
def Has (p : Prefix) (x : Nat) : Prop := p.first ≤ x ∧ x ≤ p.last

/-- The other range is a part of this one. -/
def contains (p q : Prefix) : Bool := decide (p.first ≤ q.first) && decide (q.last ≤ p.last)

/-- The same range from its first number. -/
def trunc (p : Prefix) : Prefix := { p with base := p.first }

variable {p q : Prefix} {x : Nat}

theorem has_iff : p.Has x ↔ x / 2 ^ p.free = p.base / 2 ^ p.free := by
  have hpos : 0 < 2 ^ p.free := Nat.two_pow_pos _
  have hdiv := Nat.div_add_mod x (2 ^ p.free)
  have hmod := Nat.mod_lt x hpos
  unfold Has last first
  constructor
  · rintro ⟨hfirst, hlast⟩
    refine Nat.div_eq_of_lt_le hfirst ?_
    rw [Nat.add_mul]
    omega
  · intro h
    rw [h, Nat.mul_comm] at hdiv
    omega

theorem has_first (p : Prefix) : p.Has p.first := ⟨Nat.le_refl _, Nat.le_add_right _ _⟩

theorem has_last (p : Prefix) : p.Has p.last := ⟨Nat.le_add_right _ _, Nat.le_refl _⟩

theorem trunc_has : p.trunc.Has x ↔ p.Has x := by
  rw [has_iff, has_iff]
  show x / 2 ^ p.free = p.first / 2 ^ p.free ↔ _
  rw [first, Nat.mul_div_cancel _ (Nat.two_pow_pos _)]

theorem lt_of_has {width : Nat} (hfree : p.free ≤ width) (hbase : p.base < 2 ^ width)
    (hx : p.Has x) : x < 2 ^ width := by
  obtain ⟨k, rfl⟩ := Nat.exists_eq_add_of_le hfree
  rw [has_iff] at hx
  rw [Nat.pow_add, Nat.mul_comm] at hbase ⊢
  have hpos : 0 < 2 ^ p.free := Nat.two_pow_pos _
  rw [← Nat.div_lt_iff_lt_mul hpos] at hbase ⊢
  rw [hx]
  exact hbase

/-- With fewer free bits, what meets is inside. -/
theorem contains_of_meet (hfree : q.free ≤ p.free) (hp : p.Has x) (hq : q.Has x) :
    p.contains q = true := by
  have hall : ∀ y, q.Has y → p.Has y := by
    intro y hy
    rw [has_iff] at *
    obtain ⟨k, hk⟩ := Nat.exists_eq_add_of_le hfree
    rw [← hp, hk, Nat.pow_add, ← Nat.div_div_eq_div_mul, ← Nat.div_div_eq_div_mul, hy, hq]
  have hfirst := (hall _ q.has_first).1
  have hlast := (hall _ q.has_last).2
  simp [contains, hfirst, hlast]

theorem has_of_contains (h : p.contains q = true) (hx : q.Has x) : p.Has x := by
  simp only [contains, Bool.and_eq_true, decide_eq_true_eq] at h
  exact ⟨Nat.le_trans h.1 hx.1, Nat.le_trans hx.2 h.2⟩

/-- **Ranges that meet are nested.** -/
theorem nested (hp : p.Has x) (hq : q.Has x) : p.contains q = true ∨ q.contains p = true := by
  rcases Nat.le_total q.free p.free with h | h
  · exact .inl (contains_of_meet h hp hq)
  · exact .inr (contains_of_meet h hq hp)

/-- **Disjoint ranges** are those of which none is a part of the other. -/
theorem disjoint_iff :
    (∀ x, p.Has x → ¬ q.Has x) ↔ (p.contains q || q.contains p) = false := by
  rw [Bool.or_eq_false_iff]
  constructor
  · intro h
    refine ⟨Bool.eq_false_iff.mpr fun hc => ?_, Bool.eq_false_iff.mpr fun hc => ?_⟩
    · exact h _ (has_of_contains hc q.has_first) q.has_first
    · exact h _ p.has_first (has_of_contains hc p.has_first)
  · rintro ⟨hp, hq⟩ x hx hx'
    rcases nested hx hx' with h | h
    · rw [hp] at h
      cases h
    · rw [hq] at h
      cases h

end Prefix
end HeteroCloud.Base
