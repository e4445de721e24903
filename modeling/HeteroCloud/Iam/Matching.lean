/-
  File:      Iam/Matching.lean
  Subject:   WHAT PATTERNS MATCH: the matcher of policies against the meaning of `*` and `?`.

  The loop remembers one `*` only, the last. That is enough: the piece of the pattern between two
  `*`s stands for a text of its own length, so if an earlier `*` skipped more, the last one could
  skip more instead (`left_star`). But the loop compares characters before it looks for a `*`, so a
  `*` of the pattern that meets a `*` of the value is taken for itself, and not remembered.
-/
import HeteroCloud.Base.Text
import HeteroCloud.Iam.Evaluation

namespace HeteroCloud.Iam

open Base List

section Loop
variable {pattern value : List Char} {p v retry : Nat} {star : Option Nat} {c : Char}

/-! ## 1. What is left -/

/-- The pattern matches from here, or from a later character after the remembered `*`. -/
def Left (pattern value : List Char) (p v : Nat) (star : Option Nat) (retry : Nat) : Prop :=
  Glob (pattern.drop p) (value.drop v) ∨ ∃ index, star = some index ∧ ∃ n, retry < n ∧
    n ≤ value.length ∧ Glob (pattern.drop (index + 1)) (value.drop n)

/-- Since the remembered `*` there was no other, and character met character. -/
structure Scanned (pattern value : List Char) (p v : Nat) (star : Option Nat) (retry : Nat) :
    Prop extends LoopOk pattern p v star retry where
  inside : p ≤ pattern.length
  within : v ≤ value.length
  length : ∀ index, star = some index → p = index + 1 + (v - retry)
  plain : ∀ index, star = some index → ∀ j, index < j → j < p → pattern[j]? ≠ some '*'

variable (h : Scanned pattern value p v star retry)
include h
variable {index : Nat}

/-- The piece since the remembered `*`. -/
theorem Scanned.segment (hs : star = some index) : ∃ segment, pattern.drop (index + 1) = segment ++
    pattern.drop p ∧ segment.length = v - retry ∧ ∀ c ∈ segment, c ≠ '*' := by
  have hp := h.length index hs
  have hinside := h.inside
  refine ⟨(pattern.drop (index + 1)).take (v - retry), ?_, ?_, ?_⟩
  · have hdrop : pattern.drop p = (pattern.drop (index + 1)).drop (v - retry) := by
      rw [drop_drop, hp]
    rw [hdrop, take_append_drop]
  · simp only [length_take, length_drop]
    omega
  intro c hc hstar
  obtain ⟨j, hj, rfl⟩ := mem_iff_getElem.mp hc
  simp only [length_take, length_drop] at hj
  have hat : pattern[index + 1 + j]? = some '*' := by
    rw [← hstar]
    simp
  exact h.plain index hs (index + 1 + j) (by omega) (by omega) hat

/-- After a piece without `*`, the rest matches further on. -/
theorem Scanned.further {n : Nat} (hs : star = some index) (hn : retry < n) (hle : n ≤ value.length)
    (hglob : Glob (pattern.drop (index + 1)) (value.drop n)) : ∃ m, v < m ∧ m ≤ value.length ∧ Glob
    (pattern.drop p) (value.drop m) := by
  obtain ⟨segment, hsplit, hlen, hplain⟩ := h.segment hs
  rw [hsplit] at hglob
  obtain ⟨hfits, hrest⟩ := hglob.segment hplain
  rw [length_drop] at hfits
  rw [drop_drop] at hrest
  have hretry := h.retry_le
  exact ⟨n + segment.length, by omega, by omega, hrest⟩

omit h

theorem drop_cons_of {l : List Char} {i : Nat} (h : l[i]? = some c) :
    l.drop i = c :: l.drop (i + 1) := by
  obtain ⟨hi, rfl⟩ := List.getElem?_eq_some_iff.mp h
  exact drop_eq_getElem_cons hi

/-! ## 2. One round -/

variable {k : Char}

/-- Character meets character. -/
theorem left_char (hv : value[v]? = some c) (hk : pattern[p]? = some k) (hmeet : k = '?' ∨ k = c)
    (hstar : k ≠ '*') : Left pattern value p v star retry ↔ Left pattern value (p + 1) (v + 1) star
    retry := by
  unfold Left
  rw [drop_cons_of hv, drop_cons_of hk, glob_char_iff hmeet hstar]

/-- A `*` that meets a `*` stands for it. -/
theorem left_literal (hv : value[v]? = some '*') (hk : pattern[p]? = some '*')
    (h : Left pattern value (p + 1) (v + 1) star retry) : Left pattern value p v star retry := by
  unfold Left at h ⊢
  rw [drop_cons_of hv, drop_cons_of hk]
  rcases h with h | h
  · exact .inl (.star ['*'] rfl h)
  · exact .inr h

include h

/-- **A new `*`.** What the earlier one could skip, this one can. -/
theorem left_star (hk : pattern[p]? = some '*') : Left pattern value p v star retry ↔ Left pattern
    value (p + 1) v (some p) v := by
  have hp : p < pattern.length := (List.getElem?_eq_some_iff.mp hk).1
  have hskip : Glob (pattern.drop p) (value.drop v) ↔
      ∃ n, v ≤ n ∧ n ≤ value.length ∧ Glob (pattern.drop (p + 1)) (value.drop n) := by
    have hwithin := h.within
    rw [drop_cons_of hk, glob_star_iff]
    constructor
    · rintro ⟨n, hn, hglob⟩
      rw [length_drop] at hn
      rw [drop_drop] at hglob
      exact ⟨v + n, by omega, by omega, hglob⟩
    · rintro ⟨n, hn, hle, hglob⟩
      refine ⟨n - v, by rw [length_drop]; omega, ?_⟩
      rw [drop_drop, show v + (n - v) = n by omega]
      exact hglob
  have hnew : Left pattern value (p + 1) v (some p) v ↔
      ∃ n, v ≤ n ∧ n ≤ value.length ∧ Glob (pattern.drop (p + 1)) (value.drop n) := by
    constructor
    · rintro (hglob | ⟨_, ⟨⟩, n, hn, hle, hglob⟩)
      · exact ⟨v, Nat.le_refl v, h.within, hglob⟩
      · exact ⟨n, Nat.le_of_lt hn, hle, hglob⟩
    · rintro ⟨n, hn, hle, hglob⟩
      rcases Nat.eq_or_lt_of_le hn with rfl | hn
      · exact .inl hglob
      · exact .inr ⟨p, rfl, n, hn, hle, hglob⟩
  rw [hnew, ← hskip]
  constructor
  · rintro (hglob | ⟨index, hs, n, hn, hle, hglob⟩)
    · exact hglob
    -- the piece up to here has its own length, so the rest matches further on
    obtain ⟨m, hm, hml, hrest⟩ := h.further hs hn hle hglob
    rw [drop_cons_of hk, glob_star_iff] at hrest
    obtain ⟨k, hkl, hk'⟩ := hrest
    rw [length_drop] at hkl
    rw [drop_drop] at hk'
    exact hskip.mpr ⟨m + k, by omega, by omega, hk'⟩
  · exact .inl

omit h

/-- Nothing matches here. -/
theorem not_glob_here (hv : value[v]? = some c)
    (hlit : ¬ (pattern[p]? = some '?' ∨ pattern[p]? = some c)) (hstar : pattern[p]? ≠ some '*') :
    ¬ Glob (pattern.drop p) (value.drop v) := by
  rw [drop_cons_of hv]
  cases hk : pattern[p]? with
  | none =>
    rw [drop_eq_nil_of_le (List.getElem?_eq_none_iff.mp hk), glob_empty_iff]
    exact cons_ne_nil _ _
  | some =>
    rw [drop_cons_of hk]
    rw [hk] at hlit hstar
    refine glob_mismatch ?_ ?_ ?_
    · rintro rfl
      exact hlit (.inl rfl)
    · rintro rfl
      exact hstar rfl
    · rintro rfl
      exact hlit (.inr rfl)

/-- The loop goes back: the remembered `*` skips one character more. -/
theorem left_retry (hr : retry < value.length) (hnot : ¬ Glob (pattern.drop p) (value.drop v)) :
    Left pattern value p v (some index) retry ↔ Left pattern value (index + 1) (retry + 1) (some
    index) (retry + 1) := by
  constructor
  · rintro (hglob | ⟨_, ⟨⟩, n, hn, hle, hglob⟩)
    · exact absurd hglob hnot
    rcases Nat.eq_or_lt_of_le (Nat.succ_le_of_lt hn) with rfl | hn
    · exact .inl hglob
    · exact .inr ⟨index, rfl, n, hn, hle, hglob⟩
  · rintro (hglob | ⟨_, ⟨⟩, n, hn, hle, hglob⟩)
    · exact .inr ⟨index, rfl, retry + 1, Nat.lt_succ_self _, hr, hglob⟩
    · exact .inr ⟨index, rfl, n, by omega, hle, hglob⟩

include h

/-- At the end of the value the rest of the pattern has to be empty, but for `*`s. -/
theorem left_final (hv : value[v]? = none) : Left pattern value p v star retry ↔ Glob (pattern.drop
    p) [] := by
  have hend : value.length ≤ v := List.getElem?_eq_none_iff.mp hv
  unfold Left
  rw [drop_eq_nil_of_le hend]
  constructor
  · rintro (hglob | ⟨index, hs, n, hn, hle, hglob⟩)
    · exact hglob
    · obtain ⟨m, hm, hml, _⟩ := h.further hs hn hle hglob
      omega
  · exact .inl

/-! ## 3. The loop -/

theorem Scanned.meet (hv : value[v]? = some c) (hk : pattern[p]? = some k) (hplain : k ≠ '*') :
    Scanned pattern value (p + 1) (v + 1) star retry := by
  have hp : p < pattern.length := (List.getElem?_eq_some_iff.mp hk).1
  have hvl : v < value.length := (List.getElem?_eq_some_iff.mp hv).1
  have hretry := h.retry_le
  refine ⟨⟨by omega, fun index hs => ?_⟩, hp, hvl, fun index hs => ?_, fun index hs j hj hjp => ?_⟩
  · have hlt := h.star_lt index hs
    exact ⟨by omega, hlt.2⟩
  · have hlen := h.length index hs
    omega
  by_cases he : j = p
  · subst he
    rw [hk]
    exact fun heq => hplain (Option.some.inj heq)
  · exact h.plain index hs j hj (by omega)

theorem Scanned.remember (hk : pattern[p]? = some '*') : Scanned pattern value (p + 1) v (some p)
    v := by
  have hp : p < pattern.length := (List.getElem?_eq_some_iff.mp hk).1
  refine ⟨⟨Nat.le_refl v, ?_⟩, hp, h.within, ?_, ?_⟩
  · rintro index ⟨⟩
    exact ⟨Nat.lt_succ_self p, hp⟩
  · rintro index ⟨⟩
    omega
  · rintro index ⟨⟩ j hj hjp
    omega

omit h

theorem Scanned.back (h : Scanned pattern value p v (some index) retry) (hr : retry < value.length)
    : Scanned pattern value (index + 1) (retry + 1) (some index) (retry + 1) := by
  have hlt := h.star_lt index rfl
  refine ⟨⟨Nat.le_refl _, ?_⟩, hlt.2, hr, ?_, ?_⟩
  · rintro i ⟨⟩
    exact ⟨Nat.lt_succ_self _, hlt.2⟩
  · rintro i ⟨⟩
    omega
  · rintro i ⟨⟩ j hj hjp
    omega

/-- The last lines of the matcher. -/
def accepts (pattern : List Char) : Option Nat → Bool
  | some p => ((pattern.drop p).dropWhile (· == '*')).isEmpty
  | none => false

/-- Pattern and value do not both have a `*`. -/
def Apart (pattern value : List Char) : Prop := '*' ∉ pattern ∨ '*' ∉ value

/-- A `*` of the pattern never meets one of the value. -/
theorem Apart.plain (h : Apart pattern value) (hv : value[v]? = some c) (hk : pattern[p]? = some k)
    (hmeet : k = '?' ∨ k = c) : k ≠ '*' := by
  rintro rfl
  rcases hmeet with hany | rfl
  · exact absurd hany (by decide)
  rcases h with h | h
  · exact h (mem_of_getElem? hk)
  · exact h (mem_of_getElem? hv)

/-- **The loop answers whether what is left matches**, given the steps it takes. Induction over the
fuel, one case for each branch of the loop. -/
theorem loop_iff (happart : Apart pattern value) (fuel : Nat) {p v retry : Nat} {star : Option Nat}
    (h : Scanned pattern value p v star retry)
    (hf : loopSteps pattern value v star retry < fuel) :
    accepts pattern (patternLoop pattern value fuel p v star retry) = true ↔
      Left pattern value p v star retry := by
  induction fuel generalizing p v star retry with
  | zero => omega
  | succ _ ih =>
    unfold patternLoop
    cases hv : value[v]? with
    | none =>
      rw [left_final h hv, glob_nil_iff]
      rfl
    | some c =>
      have hvl : v < value.length := (List.getElem?_eq_some_iff.mp hv).1
      have hretry := h.retry_le
      simp only
      split_ifs with hlit hstar
      · obtain ⟨k, hk, hmeet⟩ : ∃ k, pattern[p]? = some k ∧ (k = '?' ∨ k = c) := by
          rcases hlit with hlit | hlit
          · exact ⟨'?', hlit, .inl rfl⟩
          · exact ⟨c, hlit, .inr rfl⟩
        have hplain := happart.plain hv hk hmeet
        rw [left_char hv hk hmeet hplain]
        refine ih (h.meet hv hk hplain) ?_
        unfold loopSteps at hf ⊢
        omega
      · rw [left_star h hstar]
        refine ih (h.remember hstar) ?_
        have hless := loopSteps_star value h.toLoopOk (List.getElem?_eq_some_iff.mp hstar).1
        omega
      · have hnot := not_glob_here hv hlit hstar
        cases star with
        | none =>
          refine iff_of_false (by simp [accepts]) ?_
          rintro (hglob | ⟨index, hs, _⟩)
          · exact hnot hglob
          · cases hs
        | some index =>
          rw [left_retry (by omega) hnot]
          refine ih (h.back (by omega)) ?_
          have hless := loopSteps_retry pattern (some index) hretry hvl
          omega

/-- **What the loop accepts matches**, whatever the value. -/
theorem loop_sound (fuel : Nat) {p v retry : Nat} {star : Option Nat} (hw : v ≤ value.length)
    (hr : retry ≤ v)
    (ha : accepts pattern (patternLoop pattern value fuel p v star retry) = true) :
    Left pattern value p v star retry := by
  induction fuel generalizing p v star retry with
  | zero => cases ha
  | succ _ ih =>
    unfold patternLoop at ha
    cases hv : value[v]? with
    | none =>
      rw [hv] at ha
      refine .inl ?_
      rw [drop_eq_nil_of_le (List.getElem?_eq_none_iff.mp hv), glob_nil_iff]
      exact ha
    | some c =>
      have hvl : v < value.length := (List.getElem?_eq_some_iff.mp hv).1
      rw [hv] at ha
      simp only at ha
      split_ifs at ha with hlit hstar
      · obtain ⟨k, hk, hmeet⟩ : ∃ k, pattern[p]? = some k ∧ (k = '?' ∨ k = c) := by
          rcases hlit with hlit | hlit
          · exact ⟨'?', hlit, .inl rfl⟩
          · exact ⟨c, hlit, .inr rfl⟩
        have hnext := ih hvl (by omega) ha
        by_cases hplain : k = '*'
        · subst hplain
          rcases hmeet with hany | rfl
          · exact absurd hany (by decide)
          · exact left_literal hv hk hnext
        · exact (left_char hv hk hmeet hplain).mpr hnext
      · rcases ih hw (Nat.le_refl v) ha with hglob | ⟨_, ⟨⟩, n, hn, hle, hglob⟩
        · refine .inl ?_
          rw [drop_cons_of hstar]
          exact .star [] rfl hglob
        · refine .inl ?_
          rw [drop_cons_of hstar, glob_star_iff]
          refine ⟨n - v, by rw [length_drop]; omega, ?_⟩
          rw [drop_drop, show v + (n - v) = n by omega]
          exact hglob
      · cases star with
        | none => cases ha
        | some index =>
          rcases ih (by omega) (Nat.le_refl _) ha with hglob | ⟨_, ⟨⟩, n, hn, hle, hglob⟩
          · exact .inr ⟨index, rfl, retry + 1, Nat.lt_succ_self _, by omega, hglob⟩
          · exact .inr ⟨index, rfl, n, by omega, hle, hglob⟩

end Loop

/-! ## 4. The matchers -/

section Matchers
variable {pattern value : List Char}

theorem left_start : Left pattern value 0 0 none 0 ↔ Glob pattern value := by
  constructor
  · rintro (hglob | ⟨index, hs, _⟩)
    · exact hglob
    · cases hs
  · exact .inl

theorem charsMatch_accepts : charsMatch pattern value =
    accepts pattern (patternLoop pattern value (patternFuel pattern value) 0 0 none 0) := by
  unfold charsMatch accepts
  rfl

theorem charsMatch_sound (h : charsMatch pattern value = true) : Glob pattern value := by
  rw [charsMatch_accepts] at h
  exact left_start.mp (loop_sound _ (Nat.zero_le _) (Nat.le_refl 0) h)

theorem charsMatch_iff (h : Apart pattern value) :
    charsMatch pattern value = true ↔ Glob pattern value := by
  rw [charsMatch_accepts, ← left_start]
  refine loop_iff h _ ⟨⟨Nat.le_refl 0, ?_⟩, Nat.zero_le _, Nat.zero_le _, ?_, ?_⟩ ?_
  · rintro index ⟨⟩
  · rintro index ⟨⟩
  · rintro index ⟨⟩
  unfold loopSteps patternFuel
  simp only [Option.elim_none, Nat.sub_zero]
  omega

/-- Lower-casing makes no `*`. -/
theorem star_lowercase (s : String) : '*' ∈ asciiLowercase s ↔ '*' ∈ s.toList := by
  unfold asciiLowercase
  constructor
  · intro h
    obtain ⟨c, hc, hlow⟩ := mem_map.mp h
    unfold Char.toLower at hlow
    split at hlow
    · rename_i hupper
      have hval : c.val + 32 = 42 := congrArg Char.val hlow
      have hlow : (65 : UInt32) ≤ c.val := hupper.1
      have hhigh : c.val ≤ (90 : UInt32) := hupper.2
      rw [UInt32.le_iff_toNat_le] at hlow hhigh
      have hsum := congrArg UInt32.toNat hval
      rw [UInt32.toNat_add] at hsum
      simp only [UInt32.reduceToNat] at hlow hhigh hsum
      omega
    · rw [← hlow]
      exact hc
  · intro h
    exact mem_map.mpr ⟨'*', h, by decide⟩

end Matchers

end HeteroCloud.Iam
