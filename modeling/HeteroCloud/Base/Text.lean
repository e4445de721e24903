/-
  File:      Base/Text.lean
  Subject:   CUTTING TEXT, character by character, and WILDCARD PATTERNS: `*` stands for any
             characters, `?` for one, every other character for itself (`Glob`).

  `stripPrefix` and `splitOnce` take a text apart; put together again the parts give the text
  (`stripPrefix_eq`, `splitOnce_eq`), and what was put together comes apart again
  (`stripPrefix_append`, `splitOnce_append`, `splitn_append`, `splitAtByte_append`). Lengths and
  offsets are in bytes (`byteLen`).
-/
import Mathlib.Data.List.Basic
import Mathlib.Tactic.Common

namespace HeteroCloud.Base

open List

/-- The rest after a leading part. -/
def stripPrefix : List Char → List Char → Option (List Char)
  | [], s => some s
  | _ :: _, [] => none
  | p :: ps, c :: cs => if c = p then stripPrefix ps cs else none

/-- The parts before and after the first occurrence of a separator. -/
def splitOnce (separator : List Char) : List Char → Option (List Char × List Char)
  | [] => (stripPrefix separator []).map fun rest => ([], rest)
  | c :: cs =>
      match stripPrefix separator (c :: cs) with
      | some rest => some ([], rest)
      | none => (splitOnce separator cs).map fun (before, after) => (c :: before, after)

theorem stripPrefix_eq {p s rest : List Char} (h : stripPrefix p s = some rest) :
    s = p ++ rest := by
  induction p generalizing s with
  | nil => exact Option.some.inj h
  | cons a p ih =>
    cases s with
    | nil => cases h
    | cons c =>
      unfold stripPrefix at h
      by_cases e : c = a
      · rw [if_pos e] at h
        rw [ih h, e]
        rfl
      · rw [if_neg e] at h
        cases h

theorem splitOnce_eq {separator s before after : List Char}
    (h : splitOnce separator s = some (before, after)) : s = before ++ separator ++ after := by
  induction s generalizing before with
  | nil =>
    obtain ⟨rest, hr, he⟩ := Option.map_eq_some_iff.mp h
    cases he
    exact stripPrefix_eq hr
  | cons c cs ih =>
    unfold splitOnce at h
    cases hs : stripPrefix separator (c :: cs) with
    | some =>
      rw [hs] at h
      cases h
      exact stripPrefix_eq hs
    | none =>
      rw [hs] at h
      obtain ⟨⟨b, a⟩, hb, he⟩ := Option.map_eq_some_iff.mp h
      cases he
      rw [ih hb]
      rfl

/-- `str::len`, in bytes. -/
def byteLen : List Char → Nat
  | [] => 0
  | c :: cs => c.utf8Size + byteLen cs

/-- `str::get(..n)` and `str::get(n..)`, where `n` bytes are a number of characters. -/
def splitAtByte : Nat → List Char → Option (List Char × List Char)
  | 0, s => some ([], s)
  | _ + 1, [] => none
  | n + 1, c :: cs =>
      if c.utf8Size ≤ n + 1 then
        (splitAtByte (n + 1 - c.utf8Size) cs).map fun (before, after) => (c :: before, after)
      else none

/-- `str::splitn`: at most `n` parts, the last one uncut. -/
def splitn (separator : Char) : Nat → List Char → List (List Char)
  | 0, _ => []
  | 1, s => [s]
  | n + 2, s =>
      match splitOnce [separator] s with
      | none => [s]
      | some (before, after) => before :: splitn separator (n + 1) after

theorem stripPrefix_append (p s : List Char) : stripPrefix p (p ++ s) = some s := by
  induction p with
  | nil => rfl
  | cons a p ih => rwa [cons_append, stripPrefix, if_pos rfl]

theorem splitOnce_append {c : Char} {s : List Char} (h : c ∉ s) (rest : List Char) :
    splitOnce [c] (s ++ c :: rest) = some (s, rest) := by
  induction s with
  | nil => simp [splitOnce, stripPrefix]
  | cons a s ih =>
    rw [mem_cons, not_or] at h
    simp [splitOnce, stripPrefix, Ne.symm h.1, ih h.2]

theorem splitn_append {c : Char} {s : List Char} (h : c ∉ s) (n : Nat) (rest : List Char) :
    splitn c (n + 2) (s ++ c :: rest) = s :: splitn c (n + 1) rest := by
  rw [splitn, splitOnce_append h]

theorem splitn_head {c : Char} {n : Nat} {s a b : List Char} {parts : List (List Char)}
    (h : splitn c (n + 2) s = a :: b :: parts) : ∃ rest, s = a ++ [c] ++ rest := by
  rw [splitn] at h
  cases hs : splitOnce [c] s with
  | none =>
    rw [hs] at h
    cases h
  | some parts =>
    rw [hs] at h
    rw [← (cons.inj h).1]
    exact ⟨parts.2, splitOnce_eq hs⟩

theorem splitAtByte_append (s rest : List Char) :
    splitAtByte (byteLen s) (s ++ rest) = some (s, rest) := by
  induction s with
  | nil => simp [byteLen, splitAtByte]
  | cons c s ih =>
    have hpos : 0 < c.utf8Size := c.utf8Size_pos
    have hlen : byteLen (c :: s) = c.utf8Size - 1 + byteLen s + 1 := by
      rw [byteLen]
      omega
    have hrest : c.utf8Size - 1 + byteLen s + 1 - c.utf8Size = byteLen s := by omega
    rw [hlen, cons_append, splitAtByte, if_pos (by omega), hrest, ih]
    rfl

theorem utf8Size_ascii {c : Char} (h : c.toNat ≤ 127) : c.utf8Size = 1 := by
  have hval : c.val ≤ 127 := UInt32.le_iff_toNat_le.mpr h
  exact Char.utf8Size_eq_one_iff.mpr hval

theorem code_between {c : Char} {m n : UInt32}
    (h : (decide (m ≤ c.val) && decide (c.val ≤ n)) = true) :
    m.toNat ≤ c.toNat ∧ c.toNat ≤ n.toNat := by
  rw [Bool.and_eq_true, decide_eq_true_eq, decide_eq_true_eq] at h
  exact ⟨UInt32.le_iff_toNat_le.mp h.1, UInt32.le_iff_toNat_le.mp h.2⟩

theorem byteLen_append (s t : List Char) : byteLen (s ++ t) = byteLen s + byteLen t := by
  induction s with
  | nil => exact (Nat.zero_add _).symm
  | cons c s ih => rw [cons_append, byteLen, byteLen, ih, Nat.add_assoc]

theorem byteLen_ascii {s : List Char} (h : ∀ c ∈ s, c.utf8Size = 1) : byteLen s = s.length := by
  induction s with
  | nil => rfl
  | cons c s ih =>
    rw [forall_mem_cons] at h
    rw [byteLen, h.1, ih h.2, length_cons, Nat.add_comm]

end HeteroCloud.Base

namespace HeteroCloud.Base

/-- The text can be split as the pattern says. -/
inductive Glob : List Char → List Char → Prop
  | nil : Glob [] []
  | star {pattern text rest : List Char} (skipped : List Char) (split : text = skipped ++ rest)
      (h : Glob pattern rest) : Glob ('*' :: pattern) text
  | any {pattern text : List Char} (c : Char) (h : Glob pattern text) :
      Glob ('?' :: pattern) (c :: text)
  | char {pattern text : List Char} (c : Char) (hstar : c ≠ '*') (hany : c ≠ '?')
      (h : Glob pattern text) : Glob (c :: pattern) (c :: text)

section Glob
variable {pattern rest text : List Char} {c k : Char}

theorem glob_empty_iff : Glob [] text ↔ text = [] := by
  constructor
  · intro h
    cases h
    rfl
  · rintro rfl
    exact .nil

/-- A `*` skips some characters. -/
theorem glob_star_iff :
    Glob ('*' :: pattern) text ↔ ∃ n ≤ text.length, Glob pattern (text.drop n) := by
  constructor
  · intro h
    cases h with
    | star skipped split h =>
      rw [split]
      refine ⟨skipped.length, by simp, ?_⟩
      rw [List.drop_left]
      exact h
    | char c hstar => exact absurd rfl hstar
  · rintro ⟨n, _, h⟩
    exact .star (text.take n) (List.take_append_drop n text).symm h

/-- Any other character stands for one character. -/
theorem glob_char_iff (h : c = '?' ∨ c = k) (hstar : c ≠ '*') :
    Glob (c :: pattern) (k :: text) ↔ Glob pattern text := by
  constructor
  · intro hglob
    cases hglob with
    | star => exact absurd rfl hstar
    | any _ h | char _ _ _ h => exact h
  · intro hglob
    by_cases hany : c = '?'
    · subst hany
      exact .any k hglob
    rcases h with h | rfl
    · exact absurd h hany
    · exact .char c hstar hany hglob

theorem glob_mismatch (hany : c ≠ '?') (hstar : c ≠ '*') (hne : c ≠ k) :
    ¬ Glob (c :: pattern) (k :: text) := by
  intro h
  cases h with
  | star => exact hstar rfl
  | any => exact hany rfl
  | char => exact hne rfl

/-- The empty text is what a pattern of `*`s only stands for. -/
theorem glob_nil_iff : Glob pattern [] ↔ (pattern.dropWhile (· == '*')).isEmpty = true := by
  induction pattern with
  | nil => simp [glob_empty_iff]
  | cons c pattern ih =>
    by_cases hstar : c = '*'
    · subst hstar
      rw [glob_star_iff]
      simp [ih]
    · have hnot : ¬ Glob (c :: pattern) [] := by
        intro h
        cases h
        exact hstar rfl
      simp [hnot, hstar]

/-- A piece without `*`. -/
theorem Glob.segment {piece : List Char} (hplain : ∀ c ∈ piece, c ≠ '*')
    (h : Glob (piece ++ rest) text) :
    piece.length ≤ text.length ∧ Glob rest (text.drop piece.length) := by
  induction piece generalizing text with
  | nil => exact ⟨Nat.zero_le _, by simpa using h⟩
  | cons c piece ih =>
    have hrest : ∀ c ∈ piece, c ≠ '*' := fun c hc => hplain c (List.mem_cons_of_mem _ hc)
    cases h with
    | star => exact absurd rfl (hplain '*' List.mem_cons_self)
    | any _ h | char _ _ _ h =>
      obtain ⟨hlen, hglob⟩ := ih hrest h
      exact ⟨Nat.succ_le_succ hlen, by simpa using hglob⟩

end Glob
end HeteroCloud.Base
