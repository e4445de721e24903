/-
  File:      Base/Waiting.lean
  Subject:   WAITING FOR LOCKS: a lock manager with queues, and when nobody waits in a circle.

  A transaction makes its requests in order and may end after any of them, which releases what it
  holds. A request for what the transaction holds in that mode is granted at once. Any other one is
  granted when no other transaction holds the lock in a conflicting mode and no conflicting request
  for it has been waiting for longer; until then the transaction waits.

  * `Manager.Step`, `Manager.Reach` -- the manager;
  * `Manager.WaitsFor` -- whom a transaction waits for;
  * `Ordered` -- every request is for more than what was requested before, or repeats a request.
-/
import HeteroCloud.Base.Transaction

namespace HeteroCloud.Base

open List

variable {K : Type}

/-! ## 1. The manager -/

/-- Two modes of one lock that exclude each other. -/
def LockMode.Conflicts (m m' : LockMode) : Prop := ¬ (m = .share ∧ m' = .share)

/-- A transaction: what it holds, the requests to come, and the ticket it waits with for the first
of them. -/
structure Session (K : Type) where
  held : List (K × LockMode)
  requests : List (K × LockMode)
  ticket : Option Nat

structure Manager (K : Type) where
  sessions : Nat → Option (Session K)
  /-- The next ticket. -/
  tickets : Nat

namespace Manager

def idle : Manager K := ⟨fun _ => none, 0⟩

variable (m : Manager K) (i : Nat)

def set (s : Option (Session K)) : Manager K :=
  { m with sessions := Function.update m.sessions i s }

/-- The transaction `i` waits for the lock since it took the ticket. -/
def Waits (k : K) (mode : LockMode) (ticket : Nat) : Prop :=
  ∃ s, m.sessions i = some s ∧ s.ticket = some ticket ∧ s.requests.head? = some (k, mode)

variable (j : Nat)

/-- The transaction `j` holds the lock in a mode that excludes the request. -/
def HeldAgainst (k : K) (mode : LockMode) : Prop :=
  ∃ s mode', m.sessions j = some s ∧ (k, mode') ∈ s.held ∧ mode.Conflicts mode'

/-- The transaction `j` has been waiting for longer with a request that excludes this one. -/
def AheadOf (k : K) (mode : LockMode) (ticket : Nat) : Prop :=
  ∃ mode' ticket', m.Waits j k mode' ticket' ∧ ticket' < ticket ∧ mode.Conflicts mode'

/-- The transaction `j` keeps another one with the request from its lock. -/
def Against (k : K) (mode : LockMode) (ticket : Nat) : Prop :=
  m.HeldAgainst j k mode ∨ m.AheadOf j k mode ticket

/-- **The transaction `i` waits for `j`.** -/
def WaitsFor (i j : Nat) : Prop :=
  i ≠ j ∧ ∃ k mode ticket, m.Waits i k mode ticket ∧ m.Against j k mode ticket

/-- One step: `scripts` are the requests a transaction can make. -/
inductive Step (scripts : List (K × LockMode) → Prop) : Manager K → Manager K → Prop where
  | begin (m : Manager K) (i : Nat) (script : List (K × LockMode)) (hi : m.sessions i = none)
      (hs : scripts script) : Step scripts m (m.set i (some ⟨[], script, none⟩))
  | again (m : Manager K) (i : Nat) (s : Session K) (l : K × LockMode) (rest : List (K × LockMode))
      (hi : m.sessions i = some s) (hr : s.requests = l :: rest) (hheld : l ∈ s.held) :
      Step scripts m (m.set i (some ⟨s.held, rest, none⟩))
  | wait (m : Manager K) (i j : Nat) (s : Session K) (l : K × LockMode)
      (rest : List (K × LockMode)) (hi : m.sessions i = some s) (hr : s.requests = l :: rest)
      (ht : s.ticket = none) (hheld : l ∉ s.held) (hj : j ≠ i)
      (hb : m.Against j l.1 l.2 m.tickets) :
      Step scripts m { m.set i (some ⟨s.held, s.requests, some m.tickets⟩) with
        tickets := m.tickets + 1 }
  | grant (m : Manager K) (i : Nat) (s : Session K) (l : K × LockMode) (rest : List (K × LockMode))
      (hi : m.sessions i = some s) (hr : s.requests = l :: rest) (hheld : l ∉ s.held)
      (hfree : ∀ j, j ≠ i → ¬ m.Against j l.1 l.2 (s.ticket.getD m.tickets)) :
      Step scripts m (m.set i (some ⟨l :: s.held, rest, none⟩))
  | finish (m : Manager K) (i : Nat) : Step scripts m (m.set i none)

/-- Every interleaving of transactions. -/
def Reach (scripts : List (K × LockMode) → Prop) : Manager K → Manager K → Prop :=
  Relation.ReflTransGen (Step scripts)

end Manager

/-! ## 2. Requests in order -/

variable (rank : K → Nat)

/-- The request is for more than all of the locks, or for one of them again. -/
def Exceeds (before : List (K × LockMode)) (l : K × LockMode) : Prop :=
  l ∈ before ∨ ∀ l' ∈ before, rank l'.1 < rank l.1

/-- **Requests in order**, after those `before`. -/
def OrderedFrom (rank : K → Nat) : List (K × LockMode) → List (K × LockMode) → Prop
  | _, [] => True
  | before, l :: rest => Exceeds rank before l ∧ OrderedFrom rank (l :: before) rest

def Ordered (script : List (K × LockMode)) : Prop := OrderedFrom rank [] script

section Order
variable {rank : K → Nat} {before before' script : List (K × LockMode)}
variable {l : K × LockMode}

theorem Exceeds.congr (h : Exceeds rank before l) (he : ∀ x, x ∈ before' ↔ x ∈ before) : Exceeds
    rank before' l := by
  rcases h with h | h
  · exact .inl ((he l).mpr h)
  · exact .inr fun x hx => h x ((he x).mp hx)

/-- Only what has been requested matters. -/
theorem OrderedFrom.congr (h : OrderedFrom rank before script)
    (he : ∀ x, x ∈ before' ↔ x ∈ before) : OrderedFrom rank before' script := by
  induction script generalizing before before' with
  | nil => exact trivial
  | cons _ _ ih =>
    refine ⟨h.1.congr he, ih h.2 fun x => ?_⟩
    rw [mem_cons, mem_cons, he x]

theorem OrderedFrom.append {more : List (K × LockMode)} (h : OrderedFrom rank before script)
    (h' : OrderedFrom rank (script ++ before) more) : OrderedFrom rank before (script ++ more) := by
  induction script generalizing before with
  | nil => exact h'
  | cons _ _ ih =>
    refine ⟨h.1, ih h.2 (h'.congr fun x => ?_)⟩
    simp only [mem_append, mem_cons]
    tauto

/-- Requests that are repeated. -/
theorem OrderedFrom.repeated (h : ∀ l ∈ script, l ∈ before) : OrderedFrom rank before script := by
  induction script generalizing before with
  | nil => exact trivial
  | cons l _ ih =>
    refine ⟨.inl (h l mem_cons_self), ih fun x hx => ?_⟩
    exact mem_cons_of_mem _ (h x (mem_cons_of_mem _ hx))

/-- One more request. -/
theorem OrderedFrom.last (h : ∀ l' ∈ before, rank l'.1 < rank l.1) : OrderedFrom rank before [l] :=
  ⟨.inr h, trivial⟩

end Order

/-! ## 3. No circles -/

/-- The requests to come are in order after what the transaction holds, and it waits for what it
does not hold. -/
structure Session.Good (s : Session K) : Prop where
  ordered : OrderedFrom rank s.held s.requests
  waits : s.ticket ≠ none → ∃ l, s.requests.head? = some l ∧ l ∉ s.held

namespace Manager

variable {rank : K → Nat} {scripts : List (K × LockMode) → Prop} {m m' : Manager K} {i j : Nat}

def Good (rank : K → Nat) (m : Manager K) : Prop :=
  ∀ i s, m.sessions i = some s → s.Good rank

theorem set_self (m : Manager K) (i : Nat) (s : Option (Session K)) :
    (m.set i s).sessions i = s :=
  Function.update_self ..

theorem set_other (m : Manager K) {i j : Nat} (h : j ≠ i) (s : Option (Session K)) :
    (m.set i s).sessions j = m.sessions j :=
  Function.update_of_ne h ..

theorem Good.set (h : m.Good rank) {s : Option (Session K)}
    (hs : ∀ s', s = some s' → s'.Good rank) : (m.set i s).Good rank := by
  intro j s' hj
  by_cases e : j = i
  · subst e
    rw [set_self] at hj
    exact hs s' hj
  · rw [set_other m e] at hj
    exact h j s' hj

variable (hs : ∀ script, scripts script → Ordered rank script)
include hs

/-- **One step** keeps the transactions in order. -/
theorem Good.step (h : m.Good rank) (hstep : Step scripts m m') : m'.Good rank := by
  cases hstep with
  | begin _ script _ hscript =>
    refine h.set fun s' he => ?_
    cases he
    exact ⟨hs script hscript, fun hne => absurd rfl hne⟩
  | again i s _ _ hi hr hheld =>
    have hgood := h i s hi
    refine h.set fun s' he => ?_
    cases he
    have hordered := hgood.ordered
    rw [hr] at hordered
    refine ⟨hordered.2.congr fun x => ?_, fun hne => absurd rfl hne⟩
    rw [mem_cons]
    exact ⟨.inr, fun hx => hx.elim (fun e => e ▸ hheld) fun hx => hx⟩
  | wait i _ s l _ hi hr _ hheld =>
    have hgood := h i s hi
    refine h.set (i := i) fun s' he => ?_
    cases he
    exact ⟨hgood.ordered, fun _ => ⟨l, by rw [hr]; rfl, hheld⟩⟩
  | grant i s _ _ hi hr =>
    have hgood := h i s hi
    refine h.set fun s' he => ?_
    cases he
    have hordered := hgood.ordered
    rw [hr] at hordered
    exact ⟨hordered.2, fun hne => absurd rfl hne⟩
  | finish =>
    refine h.set fun s' he => ?_
    cases he

theorem Good.reach (hr : Reach scripts idle m) : m.Good rank := by
  induction hr with
  | refl =>
    intro i s hi
    cases hi
  | tail _ hstep ih => exact ih.step hs hstep

omit hs

/-- Of two waiting transactions the second has come further: it waits for more, or for the same for
longer. -/
def Further (rank : K → Nat) (m : Manager K) (i j : Nat) : Prop :=
  ∃ k mode ticket k' mode' ticket', m.Waits i k mode ticket ∧ m.Waits j k' mode' ticket' ∧
    (rank k < rank k' ∨ rank k = rank k' ∧ ticket' < ticket)

variable {k : K} {mode mode' : LockMode} {ticket : Nat}

theorem Waits.unique {k' : K} {ticket' : Nat} (h : m.Waits i k mode ticket) (h' : m.Waits i k' mode'
    ticket') : k = k' ∧ mode = mode' ∧ ticket = ticket' := by
  obtain ⟨s, hs, ht, hr⟩ := h
  obtain ⟨s', hs', ht', hr'⟩ := h'
  cases hs.symm.trans hs'
  cases ht.symm.trans ht'
  cases hr.symm.trans hr'
  exact ⟨rfl, rfl, rfl⟩

/-- A waiting transaction waits for more than all it holds. -/
theorem Good.waits_more (h : m.Good rank) {k' : K} {s : Session K} (hj : m.sessions j = some s)
    (hheld : (k, mode) ∈ s.held) (hw : m.Waits j k' mode' ticket) : rank k < rank k' := by
  obtain ⟨s', hs', ht, hhead⟩ := hw
  cases hj.symm.trans hs'
  have hgood := h j s hj
  obtain ⟨l, hl, hnot⟩ := hgood.waits (by rw [ht]; exact Option.some_ne_none _)
  cases hhead.symm.trans hl
  have hordered := hgood.ordered
  obtain ⟨rest, hrest⟩ : ∃ rest, s.requests = (k', mode') :: rest := by
    cases hr : s.requests with
    | nil =>
      rw [hr] at hl
      cases hl
    | cons a rest =>
      rw [hr] at hl
      cases hl
      exact ⟨rest, rfl⟩
  rw [hrest] at hordered
  rcases hordered.1 with hin | hmore
  · exact absurd hin hnot
  · exact hmore _ hheld

/-- **Who is waited for and waits has come further.** -/
theorem Good.further (h : m.Good rank) (hw : m.WaitsFor i j) (hj : m.Waits j k mode ticket) :
    Further rank m i j := by
  obtain ⟨_, k₀, mode₀, ticket₀, hi, hagainst⟩ := hw
  refine ⟨k₀, mode₀, ticket₀, k, mode, ticket, hi, hj, ?_⟩
  rcases hagainst with ⟨s, mode', hs, hheld, _⟩ | ⟨mode', ticket', hahead, hlt, _⟩
  · exact .inl (h.waits_more hs hheld hj)
  · obtain ⟨rfl, _, rfl⟩ := hahead.unique hj
    exact .inr ⟨rfl, hlt⟩

theorem Further.trans {a b c : Nat} (h : Further rank m a b) (h' : Further rank m b c) :
    Further rank m a c := by
  obtain ⟨k, mode, ticket, k', mode', ticket', ha, hb, hlt⟩ := h
  obtain ⟨k₁, mode₁, ticket₁, k₂, mode₂, ticket₂, hb', hc, hlt'⟩ := h'
  obtain ⟨rfl, _, rfl⟩ := hb.unique hb'
  refine ⟨k, mode, ticket, k₂, mode₂, ticket₂, ha, hc, ?_⟩
  omega

theorem Further.irrefl (i : Nat) : ¬ Further rank m i i := by
  rintro ⟨k, mode, ticket, k', mode', ticket', h, h', hlt⟩
  obtain ⟨rfl, _, rfl⟩ := h.unique h'
  omega

theorem WaitsFor.waits (h : m.WaitsFor i j) : ∃ k mode ticket, m.Waits i k mode ticket := by
  obtain ⟨_, k, mode, ticket, hw, _⟩ := h
  exact ⟨k, mode, ticket, hw⟩

theorem Good.chain (h : m.Good rank) (hc : Relation.TransGen m.WaitsFor i j) (hj : m.Waits j k mode
    ticket) : Further rank m i j := by
  induction hc generalizing k mode ticket with
  | single hw => exact h.further hw hj
  | tail _ hw ih =>
    obtain ⟨k', mode', ticket', hb⟩ := hw.waits
    exact (ih hb).trans (h.further hw hj)

include hs

/-- **Nobody waits in a circle**, if every transaction requests its locks in order. -/
theorem acyclic (hr : Reach scripts idle m) (i : Nat) : ¬ Relation.TransGen m.WaitsFor i i := by
  intro hc
  have hgood := Good.reach hs hr
  obtain ⟨b, hw, _⟩ := Relation.TransGen.head'_iff.mp hc
  obtain ⟨k, mode, ticket, hi⟩ := hw.waits
  exact Further.irrefl i (hgood.chain hc hi)

end Manager
end HeteroCloud.Base
