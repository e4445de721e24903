/-
  File:      Base/Table.lean
  Subject:   TABLES as lists of rows: keys, and queries that depend only on the rows they select.

  * `UniqueKey key t` -- no two rows of `t` share a key;
  * `updateWhere`, `replaceRow`, `Within` -- rows changed in place, and which keys a changed table
    can have;
  * `SameRows P t t'` -- the tables hold the same rows among those with `P`; a query that selects
    only such rows gives the same answer in both, up to the order the query leaves open;
  * `totalWhere p f t` -- a sum over the rows with `p`.
-/
import Mathlib.Algebra.GroupWithZero.Nat
import Mathlib.Data.List.Dedup
import Mathlib.Data.List.Perm.Basic
import Mathlib.Data.List.Sort
import Mathlib.Data.List.Nodup

namespace HeteroCloud.Base

open List

section Table
variable {α κ : Type}

/-! ## 1. Keys -/

/-- Pairwise different keys. -/
def UniqueKey (key : α → κ) (t : List α) : Prop := (t.map key).Nodup

instance [DecidableEq κ] (key : α → κ) (t : List α) : Decidable (UniqueKey key t) :=
  inferInstanceAs (Decidable (t.map key).Nodup)

theorem UniqueKey.nodup {key : α → κ} {t : List α} (h : UniqueKey key t) : t.Nodup :=
  List.Nodup.of_map key h

variable {a : α}

theorem UniqueKey.eq {key : α → κ} {t : List α} (h : UniqueKey key t) {b : α} (ha : a ∈ t) (hb : b ∈
    t) (hk : key a = key b) : a = b :=
  inj_on_of_nodup_map h ha hb hk

/-- Appending rows under new keys. -/
theorem UniqueKey.append {key : α → κ} {t rows : List α} (h : UniqueKey key t)
    (hr : UniqueKey key rows) (hn : ∀ a ∈ rows, ∀ b ∈ t, key b ≠ key a) :
    UniqueKey key (t ++ rows) := by
  unfold UniqueKey at *
  rw [map_append, nodup_append]
  refine ⟨h, hr, fun k hk l hl e => ?_⟩
  obtain ⟨b, hb, rfl⟩ := mem_map.mp hk
  obtain ⟨a, ha, rfl⟩ := mem_map.mp hl
  exact hn a ha b hb e

/-- Rows with the same value are the same, if no value occurs twice. -/
theorem eq_of_filterMap_nodup {f : α → Option κ} {t : List α} (h : (t.filterMap f).Nodup) {b : α}
    (ha : a ∈ t) (hb : b ∈ t) {k : κ} (hfa : f a = some k) (hfb : f b = some k) : a = b := by
  induction t with
  | nil => cases ha
  | cons x t ih =>
    have hother {c : α} (hc : c ∈ t) (hfx : f x = some k) (hfc : f c = some k) : False := by
      rw [filterMap_cons_some hfx] at h
      exact (nodup_cons.mp h).1 (mem_filterMap.mpr ⟨c, hc, hfc⟩)
    have htail : (t.filterMap f).Nodup :=
      h.sublist ((sublist_cons_self x t).filterMap f)
    rcases mem_cons.mp ha with hax | hat
    · subst hax
      rcases mem_cons.mp hb with hbx | hbt
      · exact hbx.symm
      · exact absurd (hother hbt hfa hfb) not_false
    · rcases mem_cons.mp hb with hbx | hbt
      · subst hbx
        exact absurd (hother hat hfb hfa) not_false
      · exact ih htail hat hbt

/-- A selection that only one row of the table satisfies. -/
theorem filter_eq_singleton {t : List α} (hn : t.Nodup) {p : α → Bool} (ha : a ∈ t) (hp : p a =
    true) (hu : ∀ b ∈ t, p b = true → b = a) : t.filter p = [a] := by
  have hperm : (t.filter p).Perm [a] := by
    rw [perm_ext_iff_of_nodup (hn.filter p) (nodup_singleton a)]
    intro b
    rw [mem_filter, mem_singleton]
    exact ⟨fun h => hu b h.1 h.2, fun h => h ▸ ⟨ha, hp⟩⟩
  exact perm_singleton.mp hperm

/-- The row found under a key. -/
theorem find?_key [DecidableEq κ] {key : α → κ} {t : List α} {k : κ} (h : t.find? (fun x => key x ==
    k) = some a) : a ∈ t ∧ key a = k :=
  ⟨mem_of_find?_eq_some h, by simpa using find?_some h⟩

/-- A row is found by a condition that gives its key. -/
theorem UniqueKey.find?_of {key : α → κ} {t : List α} (h : UniqueKey key t) {p : α → Bool} (ha : a ∈
    t) (hp : p a = true) (hk : ∀ b ∈ t, p b = true → key b = key a) : t.find? p = some a := by
  cases hf : t.find? p with
  | none => exact absurd hp (find?_eq_none.mp hf a ha)
  | some b =>
    have hb := mem_of_find?_eq_some hf
    rw [h.eq hb ha (hk b hb (find?_some hf))]

/-- A row is found under its key. -/
theorem UniqueKey.find?_eq [DecidableEq κ] {key : α → κ} {t : List α} (h : UniqueKey key t) {k : κ}
    (ha : a ∈ t) (hk : key a = k) : t.find? (fun x => key x == k) = some a :=
  h.find?_of ha (beq_iff_eq.mpr hk) fun _ _ hb => (beq_iff_eq.mp hb).trans hk.symm

/-! ## 2. Changing rows -/

variable (p : α → Bool)

/-- The rows that satisfy `p`, changed by `f`. -/
def updateWhere (f : α → α) (t : List α) : List α :=
  t.map fun a => if p a then f a else a

section Change
variable {p : α → Bool} {f : α → α} {t : List α}

/-- The row an updated row comes from. -/
theorem mem_updateWhere {b : α} (h : b ∈ updateWhere p f t) :
    ∃ a ∈ t, (p a = true ∧ b = f a) ∨ (p a = false ∧ b = a) := by
  obtain ⟨a, ha, rfl⟩ := mem_map.mp h
  refine ⟨a, ha, ?_⟩
  by_cases hp : p a = true
  · exact .inl ⟨hp, if_pos hp⟩
  · exact .inr ⟨Bool.eq_false_iff.mpr hp, if_neg hp⟩

/-- An update that keeps the key keeps the keys. -/
theorem map_updateWhere {key : α → κ} (hk : ∀ a, key (f a) = key a) :
    (updateWhere p f t).map key = t.map key := by
  unfold updateWhere
  rw [map_map]
  refine map_congr_left fun a _ => ?_
  by_cases hp : p a = true
  · rw [Function.comp_apply, if_pos hp, hk]
  · rw [Function.comp_apply, if_neg hp]

theorem UniqueKey.map {key : α → κ} (h : UniqueKey key t) (hk : ∀ a, key (f a) = key a) :
    UniqueKey key (t.map f) := by
  have he : key ∘ f = key := funext hk
  unfold UniqueKey
  rw [map_map, he]
  exact h

theorem UniqueKey.update {key : α → κ} (h : UniqueKey key t) (hk : ∀ a, key (f a) = key a) :
    UniqueKey key (updateWhere p f t) :=
  h.map fun a => by
    by_cases hp : p a = true
    · rw [if_pos hp, hk]
    · rw [if_neg hp]

theorem UniqueKey.filter {key : α → κ} (h : UniqueKey key t) (q : α → Bool) :
    UniqueKey key (t.filter q) :=
  h.sublist (filter_sublist.map key)

theorem UniqueKey.insert {key : α → κ} (h : UniqueKey key t) {a : α}
    (hn : ∀ b ∈ t, key b ≠ key a) : UniqueKey key (t ++ [a]) :=
  h.append (nodup_singleton _) fun b hb c hc => by
    rw [mem_singleton.mp hb]
    exact hn c hc

/-- One row replaced by another. -/
def replaceRow [DecidableEq α] (a b : α) (t : List α) : List α :=
  t.map fun c => if c = a then b else c

theorem replaceRow_cases [DecidableEq α] {a b c : α} (h : c ∈ replaceRow a b t) :
    (c ∈ t ∧ c ≠ a) ∨ (a ∈ t ∧ c = b) := by
  obtain ⟨e, he, rfl⟩ := mem_map.mp h
  by_cases hea : e = a
  · rw [if_pos hea]
    exact .inr ⟨hea ▸ he, rfl⟩
  · rw [if_neg hea]
    exact .inl ⟨he, hea⟩

theorem mem_replaceRow [DecidableEq α] {a b c : α} (h : c ∈ replaceRow a b t) :
    c ∈ t ∨ (a ∈ t ∧ c = b) :=
  (replaceRow_cases h).imp_left And.left

/-- Another row stays. -/
theorem replaceRow_other [DecidableEq α] {a b c : α} (h : c ∈ t) (hne : c ≠ a) :
    c ∈ replaceRow a b t :=
  mem_map.mpr ⟨c, h, if_neg hne⟩

theorem replaceRow_self [DecidableEq α] {a b : α} (h : a ∈ t) : b ∈ replaceRow a b t :=
  mem_map.mpr ⟨a, h, if_pos rfl⟩

theorem UniqueKey.replaceRow [DecidableEq α] {key : α → κ} (h : UniqueKey key t) {a b : α}
    (hk : key b = key a) : UniqueKey key (replaceRow a b t) :=
  h.map fun c => by
    by_cases hc : c = a
    · rw [if_pos hc, hk, hc]
    · rw [if_neg hc]

/-- The keys of a table after a change: those it had, and new ones. -/
def Within (key : α → κ) (new : List κ) (t t' : List α) : Prop :=
  ∀ b ∈ t', (∃ a ∈ t, key a = key b) ∨ key b ∈ new

variable {key : α → κ} {new : List κ}

theorem Within.refl (t : List α) : Within key new t t := fun b hb => .inl ⟨b, hb, rfl⟩

theorem Within.insert (a : α) : Within key [key a] t (t ++ [a]) := by
  intro b hb
  rcases mem_append.mp hb with hb | hb
  · exact .inl ⟨b, hb, rfl⟩
  · rw [mem_singleton.mp hb]
    exact .inr (mem_singleton_self _)

theorem Within.filter (q : α → Bool) : Within key new t (t.filter q) :=
  fun b hb => .inl ⟨b, mem_of_mem_filter hb, rfl⟩

theorem Within.map (hk : ∀ a, key (f a) = key a) : Within key new t (t.map f) := by
  intro b hb
  obtain ⟨a, ha, rfl⟩ := mem_map.mp hb
  exact .inl ⟨a, ha, (hk a).symm⟩

theorem Within.update (hk : ∀ a, key (f a) = key a) : Within key new t (updateWhere p f t) :=
  .map fun a => by
    by_cases hp : p a = true
    · rw [if_pos hp, hk]
    · rw [if_neg hp]

theorem Within.mem {t' : List α} (h : Within key new t t') {k : κ} (hk : k ∈ t'.map key) :
    k ∈ t.map key ∨ k ∈ new := by
  obtain ⟨b, hb, rfl⟩ := mem_map.mp hk
  rcases h b hb with ⟨a, ha, he⟩ | hn
  · exact .inl (he ▸ mem_map_of_mem ha)
  · exact .inr hn

end Change

/-! ## 3. Tables with the same rows -/

variable (P : α → Prop) (t t' : List α)

/-- The rows with `P` are the same in both tables. -/
def SameRows : Prop := ∀ a, P a → (a ∈ t ↔ a ∈ t')

/-- Two selections that agree on the common rows and select nothing else. -/
structure SameSelection (p p' : α → Bool) : Prop where
  left : ∀ a ∈ t, p a = true → P a
  right : ∀ a ∈ t', p' a = true → P a
  agree : ∀ a ∈ t, P a → p a = p' a

section Selection
variable {P : α → Prop} {t t' : List α} {p p' : α → Bool}

theorem SameSelection.same (hp : ∀ a, p a = true → P a) : SameSelection P t t' p p :=
  ⟨fun a _ => hp a, fun a _ => hp a, fun _ _ _ => rfl⟩

variable (h : SameRows P t t') (hs : SameSelection P t t' p p')
include h hs

/-- The same rows are selected. -/
theorem SameRows.select (a : α) : a ∈ t ∧ p a = true ↔ a ∈ t' ∧ p' a = true := by
  constructor
  · rintro ⟨hm, hq⟩
    have ha := hs.left a hm hq
    exact ⟨(h a ha).mp hm, hs.agree a hm ha ▸ hq⟩
  · rintro ⟨hm, hq⟩
    have ha := hs.right a hm hq
    have hm' := (h a ha).mpr hm
    exact ⟨hm', hs.agree a hm' ha ▸ hq⟩

theorem SameRows.any_eq : t.any p = t'.any p' := by
  rw [Bool.eq_iff_iff, any_eq_true, any_eq_true]
  exact exists_congr fun a => h.select hs a

/-- In some order. -/
theorem SameRows.filter_perm (ht : t.Nodup) (ht' : t'.Nodup) : (t.filter p).Perm (t'.filter p') :=
    by
  rw [perm_ext_iff_of_nodup (ht.filter p) (ht'.filter p')]
  intro a
  rw [mem_filter, mem_filter]
  exact h.select hs a

/-- A selection of at most one row. -/
theorem SameRows.find?_eq (hu : ∀ a ∈ t, ∀ b ∈ t, p a = true → p b = true → a = b) : t.find? p =
    t'.find? p' := by
  cases ht : t.find? p with
  | none =>
    rw [find?_eq_none] at ht
    refine (find?_eq_none.mpr fun a ha hq => ?_).symm
    have hm := (h.select hs a).mpr ⟨ha, hq⟩
    exact ht a hm.1 hm.2
  | some a =>
    have hm := (h.select hs a).mp ⟨mem_of_find?_eq_some ht, find?_some ht⟩
    cases ht' : t'.find? p' with
    | none =>
      rw [find?_eq_none] at ht'
      exact absurd hm.2 (ht' a hm.1)
    | some b =>
      have hb := (h.select hs b).mpr ⟨mem_of_find?_eq_some ht', find?_some ht'⟩
      rw [hu a (mem_of_find?_eq_some ht) b hb.1 (find?_some ht) hb.2]

end Selection

/-! ## 4. `ORDER BY` -/

variable (key : α → Nat)

/-- The rows by ascending key. -/
def orderBy (t : List α) : List α :=
  t.insertionSort fun a b => key a ≤ key b

theorem orderBy_perm (t : List α) : (orderBy key t).Perm t :=
  perm_insertionSort _ t

/-- With different keys the order is determined by the rows. -/
theorem orderBy_eq {key : α → Nat} {t t' : List α} (h : t.Perm t') (hu : UniqueKey key t) :
    orderBy key t = orderBy key t' := by
  have hs (l : List α) : (orderBy key l).Pairwise fun a b => key a ≤ key b :=
    pairwise_insertionSort _ l
  have hp : (orderBy key t).Perm (orderBy key t') :=
    (orderBy_perm key t).trans (h.trans (orderBy_perm key t').symm)
  refine hp.eq_of_pairwise (fun a b ha hb hab hba => ?_) (hs t) (hs t')
  have hb' : b ∈ t := h.mem_iff.mpr ((orderBy_perm key t').mem_iff.mp hb)
  exact hu.eq ((orderBy_perm key t).mem_iff.mp ha) hb' (Nat.le_antisymm hab hba)

/-- `SELECT DISTINCT ON`: the first row of each key. -/
def distinctOn [DecidableEq κ] (key : α → κ) : List α → List α
  | [] => []
  | a :: l => a :: (distinctOn key l).filter (key · != key a)

section Distinct
variable [DecidableEq κ] {key : α → κ} {l : List α} {a b : α}

theorem distinctOn_subset (h : a ∈ distinctOn key l) : a ∈ l := by
  induction l with
  | nil => exact h
  | cons x l ih =>
    rcases mem_cons.mp h with rfl | h
    · exact mem_cons_self
    · exact mem_cons_of_mem _ (ih (mem_filter.mp h).1)

theorem distinctOn_unique : UniqueKey key (distinctOn key l) := by
  induction l with
  | nil => exact nodup_nil
  | cons x l ih =>
    refine nodup_cons.mpr ⟨fun h => ?_, ih.filter _⟩
    obtain ⟨b, hb, hkey⟩ := mem_map.mp h
    exact bne_iff_ne.mp (mem_filter.mp hb).2 hkey

theorem distinctOn_cover (h : a ∈ l) : ∃ b ∈ distinctOn key l, key b = key a := by
  induction l with
  | nil => exact absurd h not_mem_nil
  | cons x l ih =>
    by_cases hx : key a = key x
    · exact ⟨x, mem_cons_self, hx.symm⟩
    · obtain ⟨b, hb, hkey⟩ := ih ((mem_cons.mp h).resolve_left fun hax => hx (hax ▸ rfl))
      exact ⟨b, mem_cons_of_mem _ (mem_filter.mpr ⟨hb, bne_iff_ne.mpr (hkey ▸ hx)⟩), hkey⟩

/-- In a sorted table the row kept is the first of its key. -/
theorem distinctOn_first {R : α → α → Prop} (hs : l.Pairwise R) (ha : a ∈ distinctOn key l)
    (hb : b ∈ l) (hkey : key b = key a) : b = a ∨ R a b := by
  induction l with
  | nil => exact absurd hb not_mem_nil
  | cons x l ih =>
    obtain ⟨hx, hs⟩ := pairwise_cons.mp hs
    rcases mem_cons.mp ha with rfl | ha
    · exact (mem_cons.mp hb).imp_right (hx b)
    · obtain ⟨ha, hne⟩ := mem_filter.mp ha
      refine ih hs ha ((mem_cons.mp hb).resolve_left fun hbx => ?_)
      exact bne_iff_ne.mp hne (hkey ▸ hbx ▸ rfl)

end Distinct

/-! ## 5. `sum` -/

/-- The sum of `f` over the rows with `p`. -/
def totalWhere (f : α → Nat) (t : List α) : Nat := ((t.filter p).map f).sum

section Total
variable {p q : α → Bool} {f : α → Nat} {t t' : List α}

@[simp] theorem totalWhere_nil : totalWhere p f ([] : List α) = 0 := rfl

theorem totalWhere_cons (a : α) (t : List α) :
    totalWhere p f (a :: t) = (if p a then f a else 0) + totalWhere p f t := by
  unfold totalWhere
  by_cases h : p a = true
  · rw [filter_cons_of_pos h, map_cons, sum_cons, if_pos h]
  · rw [filter_cons_of_neg h, if_neg h, Nat.zero_add]

theorem totalWhere_append (t t' : List α) :
    totalWhere p f (t ++ t') = totalWhere p f t + totalWhere p f t' := by
  simp [totalWhere]

theorem totalWhere_congr {g : α → Nat} (h : ∀ a ∈ t, p a = q a ∧ (p a = true → f a = g a)) :
    totalWhere p f t = totalWhere q g t := by
  induction t with
  | nil => rfl
  | cons a t ih =>
    have hrest := ih fun b hb => h b (mem_cons_of_mem _ hb)
    obtain ⟨hpq, hfg⟩ := h a mem_cons_self
    rw [totalWhere_cons, totalWhere_cons, hrest, ← hpq]
    by_cases hp : p a = true
    · rw [if_pos hp, if_pos hp, hfg hp]
    · rw [if_neg hp, if_neg hp]

theorem totalWhere_mono (h : ∀ a ∈ t, p a = true → q a = true) :
    totalWhere p f t ≤ totalWhere q f t := by
  induction t with
  | nil => exact Nat.le_refl _
  | cons a t ih =>
    have hrest := ih fun b hb => h b (mem_cons_of_mem _ hb)
    have hone := h a mem_cons_self
    rw [totalWhere_cons, totalWhere_cons]
    by_cases hp : p a = true
    · rw [if_pos hp, if_pos (hone hp)]
      omega
    · rw [if_neg hp]
      omega

theorem totalWhere_map (g : α → α) (t : List α) :
    totalWhere p f (t.map g) = totalWhere (fun a => p (g a)) (fun a => f (g a)) t := by
  induction t with
  | nil => rfl
  | cons a t ih => rw [map_cons, totalWhere_cons, totalWhere_cons, ih]

variable [DecidableEq κ] {key : α → κ}
end Total
end Table
end HeteroCloud.Base
