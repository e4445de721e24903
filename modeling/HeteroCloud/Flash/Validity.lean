/-
  File:      Flash/Validity.lean
  Subject:   WHAT THE CHECKS ESTABLISH (crates/heterocloud-domain/src/lib.rs): the secrets of a valid
             specification and the networks its egress may reach.
-/
import HeteroCloud.Base.Numbers
import HeteroCloud.Flash.Document
import Mathlib.Data.List.Nodup

namespace HeteroCloud.Flash

open Base Iam Services List

/-! ## 1. Secrets -/

/-- The variable of a secret file. -/
def fileVariable (file : String × String) : String × String :=
  (FlashSpec.secretFileVariable file.1, file.2)

/-- The loop of `effective_secret_env` ends only if no name was taken before. -/
theorem effectiveSecretEnv_ok {s : FlashSpec} {effective : List (String × String)}
    (h : s.effectiveSecretEnv = .ok effective) :
    effective = s.secretEnv ++ s.secretFiles.map fileVariable ∧
      (s.secretFiles.map fun f => (fileVariable f).1).Nodup ∧
      ∀ f ∈ s.secretFiles, ∀ e ∈ s.secretEnv, e.1 ≠ (fileVariable f).1 := by
  obtain ⟨files, hfiles⟩ : ∃ files, s.secretFiles = files := ⟨_, rfl⟩
  induction files generalizing s with
  | nil =>
    simp only [FlashSpec.effectiveSecretEnv, hfiles, foldlM_nil] at h
    cases h
    simp [hfiles]
  | cons f files ih =>
    simp only [FlashSpec.effectiveSecretEnv, hfiles, foldlM_cons] at h
    by_cases htaken : s.secretEnv.any (·.1 == FlashSpec.secretFileVariable f.1) = true
    · rw [if_pos htaken] at h
      cases h
    rw [if_neg htaken] at h
    have hfree := htaken
    obtain ⟨heq, hnodup, hother⟩ := ih (s :=
      { s with secretEnv := s.secretEnv ++ [fileVariable f], secretFiles := files }) h rfl
    simp only [any_eq_true, beq_iff_eq, not_exists, not_and] at hfree
    refine ⟨by rw [heq, hfiles]; simp, ?_, ?_⟩
    · rw [hfiles, map_cons, nodup_cons]
      refine ⟨fun hm => ?_, hnodup⟩
      obtain ⟨g, hg, hname⟩ := mem_map.mp hm
      exact hother g hg _ (mem_append_right _ mem_cons_self) hname.symm
    · rw [hfiles, forall_mem_cons]
      exact ⟨hfree, fun g hg e he => hother g hg e (mem_append_left _ he)⟩

/-- **Secrets as variables.** Of a valid specification, each entry of `secret_env` is kept, each of
`secret_files` is there once under its converted name, and there is nothing else; the names are
valid and are not those of plain variables, and different files are different variables. -/
theorem effectiveSecretEnv_exact {crates : Crates} {others : SpecChecks} {assigned : Bool}
    {s : FlashSpec} (h : s.validateInner (flashChecks crates others) assigned = none) :
    ∃ effective, s.effectiveSecretEnv = .ok effective ∧
      (∀ e, e ∈ effective ↔ e ∈ s.secretEnv ∨ e ∈ s.secretFiles.map fileVariable) ∧
      (∀ f ∈ s.secretFiles, (effective.map (·.1)).count (fileVariable f).1 = 1) ∧
      effective.length = s.secretEnv.length + s.secretFiles.length ∧
      (∀ e ∈ effective, validFlashEnvName e.1 = true ∧
        ∀ v ∈ environmentOf s.env, v.1 ≠ e.1) ∧
      ∀ f ∈ s.secretFiles, ∀ g ∈ s.secretFiles, f.1 ≠ g.1 →
        (fileVariable f).1 ≠ (fileVariable g).1 := by
  have hrest : flashRest crates s = none := (validateInner_iff.mp h).rest
  unfold flashRest at hrest
  rw [firstRefusal_none] at hrest
  simp only [forall_mem_append] at hrest
  have henv := hrest.1.1.2
  unfold environmentErrors at henv
  cases heff : s.effectiveSecretEnv with
  | error message =>
    rw [heff] at henv
    exact absurd (henv (some message) (by simp)) (by simp)
  | ok =>
    rw [heff] at henv
    simp only [forall_mem_append, forall_mem_cons, refuse_none] at henv
    obtain ⟨_, _, _, _, hvalid, hplain, _⟩ := henv
    obtain ⟨rfl, hnodup, hother⟩ := effectiveSecretEnv_ok heff
    have hinj := inj_on_of_nodup_map hnodup
    refine ⟨_, rfl, fun e => mem_append, fun f hf => ?_, by simp, fun e he => ⟨?_, ?_⟩,
      fun f hf g hg hne hname => hne (by rw [hinj hf hg hname])⟩
    · have hnone : (s.secretEnv.map (·.1)).count (fileVariable f).1 = 0 := by
        refine count_eq_zero.mpr fun hm => ?_
        obtain ⟨e, he, hname⟩ := mem_map.mp hm
        exact hother f hf e he hname
      rw [map_append, count_append, hnone, map_map, Nat.zero_add]
      exact count_eq_one_of_mem hnodup (mem_map_of_mem hf)
    · have := any_eq_false.mp hvalid e he
      simp only [Bool.or_eq_true, Bool.not_eq_true', not_or, Bool.not_eq_false] at this
      exact this.1
    · intro v hv hname
      have := find?_eq_none.mp (Option.map_eq_none_iff.mp hplain) e he
      exact this (any_eq_true.mpr ⟨v, hv, by simpa using hname⟩)

/-- A variable and a file. -/
theorem effectiveSecretEnv_exact_two : ∃ effective, FlashSpec.effectiveSecretEnv
    { twoPorts with secretEnv := [("TOKEN", "token")], secretFiles := [("db-key", "db")] } =
      .ok effective ∧ ("DB_KEY", "db") ∈ effective ∧ effective.length = 2 := by
  obtain ⟨effective, hok, hmem, -, hlength, -⟩ := @effectiveSecretEnv_exact noCrates noChecks true
    { twoPorts with secretEnv := [("TOKEN", "token")], secretFiles := [("db-key", "db")] }
    (by decide +kernel)
  exact ⟨effective, hok, (hmem _).mpr (.inr (by decide)), hlength⟩

/-! ## 2. Networks -/

inductive IpFamily where
  | v4
  | v6
  deriving DecidableEq, Repr

def IpFamily.bits : IpFamily → Nat
  | .v4 => 32
  | .v6 => 128

structure IpAddr where
  family : IpFamily
  value : Nat
  bound : value < 2 ^ family.bits
  deriving DecidableEq

/-- `ipnet::IpNet`: an address with the length of its prefix; host bits may be set. -/
structure IpNet where
  addr : IpAddr
  prefixLen : Nat
  bound : prefixLen ≤ addr.family.bits
  deriving DecidableEq

namespace IpNet

/-- `IpNet::from`: a single address. -/
def ofAddr (addr : IpAddr) : IpNet := ⟨addr, addr.family.bits, Nat.le_refl _⟩

variable (n : IpNet)

def range : Prefix := ⟨n.addr.value, n.addr.family.bits - n.prefixLen⟩

/-- The address belongs to the network. -/
def Has (n : IpNet) (x : IpAddr) : Prop := x.family = n.addr.family ∧ n.range.Has x.value

theorem range_le : n.range.first ≤ n.addr.value := Nat.div_mul_le_self _ _

/-- `trunc`: without the host bits. -/
def trunc : IpNet :=
  ⟨⟨n.addr.family, n.range.first, Nat.lt_of_le_of_lt n.range_le n.addr.bound⟩, n.prefixLen,
    n.bound⟩

/-- `contains` of a network: those of the other family are not contained. -/
def contains (n m : IpNet) : Bool :=
  decide (n.addr.family = m.addr.family) && n.range.contains m.range

def v4 (a b c d len : Nat) (h : ((a * 256 + b) * 256 + c) * 256 + d < 2 ^ 32 := by decide)
    (h' : len ≤ 32 := by decide) : IpNet := ⟨⟨.v4, _, h⟩, len, h'⟩

def v6 (value len : Nat) (h : value < 2 ^ 128 := by decide) (h' : len ≤ 128 := by decide) :
    IpNet := ⟨⟨.v6, value, h⟩, len, h'⟩

theorem trunc_has {n : IpNet} {x : IpAddr} : n.trunc.Has x ↔ n.Has x :=
  and_congr_right fun _ => Prefix.trunc_has

/-- Networks are disjoint if none contains the other. -/
theorem disjoint_iff {n m : IpNet} :
    (∀ x, n.Has x → ¬ m.Has x) ↔ (n.contains m || m.contains n) = false := by
  by_cases hf : n.addr.family = m.addr.family
  · simp only [contains, hf, decide_true, Bool.true_and, ← Prefix.disjoint_iff, Has, not_and]
    refine ⟨fun h x hn hm => ?_, fun h x hn _ => h _ hn.2⟩
    have hx : x < 2 ^ n.addr.family.bits :=
      Prefix.lt_of_has (Nat.sub_le _ _) n.addr.bound hn
    exact h ⟨n.addr.family, x, hx⟩ ⟨hf, hn⟩ hf hm
  · have hf' : ¬ m.addr.family = n.addr.family := fun h => hf h.symm
    simp only [contains, hf, hf', decide_false, Bool.false_and, Bool.or_false, iff_true]
    exact fun x hn hm => hf (hn.1.symm.trans hm.1)

end IpNet

/-- The networks no service may reach. -/
def protectedNetworks : List IpNet :=
  [.v6 0 128, .v6 1 128, .v4 0 0 0 0 8, .v4 10 0 0 0 8, .v4 100 64 0 0 10, .v4 127 0 0 0 8,
    .v4 169 254 0 0 16, .v4 172 16 0 0 12, .v4 192 0 0 0 24, .v4 192 88 99 0 24,
    .v4 192 168 0 0 16, .v4 198 18 0 0 15, .v4 224 0 0 0 3, .v6 (0xfc00 * 2 ^ 112) 7,
    .v6 (0xfe80 * 2 ^ 112) 10, .v6 (0xff00 * 2 ^ 112) 8]

/-- The readers and the text of networks; a text is read as the network it was written from. -/
structure IpCrate where
  parseNet : String → Option IpNet
  parseAddr : String → Option IpAddr
  display : IpNet → String
  parse_display : ∀ n, parseNet (display n) = some n

variable (ip : IpCrate) (value : String)

/-- A network or an address. -/
def IpCrate.parse : Option IpNet :=
  (ip.parseNet value).or ((ip.parseAddr value).map IpNet.ofAddr)

/-- The overlap with a protected network, as it is tested. -/
def IpNet.overlaps (n : IpNet) : Bool :=
  protectedNetworks.any fun p => n.contains p || p.contains n

/-- The checks of networks by what `ipnet` reads. -/
def Crates.withNetworks (crates : Crates) (ip : IpCrate) : Crates :=
  { crates with
    network := fun value => (ip.parse value).map fun n => ip.display n.trunc
    infrastructure := fun text => (ip.parseNet text).any IpNet.overlaps }

/-! ## 3. Egress -/

/-- Neither empty nor with white space around it. -/
def Trimmed : Prop :=
  (value.isEmpty || value.toList.head?.any isWhitespace ||
    value.toList.getLast?.any isWhitespace) = false

section Lists
variable {crates : Crates} {field : String} {values normalized nets : List String}

theorem mapM_eq_some_iff {α β : Type} (f : α → Option β) (l : List α) (bs : List β) :
    l.mapM f = some bs ↔ l.map f = bs.map some := by
  induction l generalizing bs with
  | nil => cases bs <;> simp
  | cons a l ih =>
    rw [mapM_cons, map_cons]
    cases bs with
    | nil => cases f a <;> cases l.mapM f <;> simp
    | cons =>
      rw [map_cons, List.cons.injEq, ← ih]
      cases f a <;> cases l.mapM f <;> simp

/-- The loop ends if every entry is read, and as a network that was not there before. -/
theorem parseFlashCidrsFrom_iff :
    parseFlashCidrsFrom crates field normalized values = .ok nets ↔
      (∀ v ∈ values, Trimmed v) ∧ ∃ ts : List String, values.mapM crates.network = some ts ∧
        ts.Nodup ∧ (∀ t ∈ ts, t ∉ normalized) ∧ nets = ts.reverse ++ normalized := by
  induction values generalizing normalized with
  | nil => simp [parseFlashCidrsFrom, eq_comm (a := nets)]
  | cons v values ih =>
    rw [parseFlashCidrsFrom, forall_mem_cons, mapM_cons]
    by_cases htrim : Trimmed v
    · rw [if_neg (Bool.eq_false_iff.mp htrim)]
      cases hnet : crates.network v with
      | none => simp
      | some t =>
        by_cases hseen : t ∈ normalized
        · cases hrest : values.mapM crates.network with
          | none | some => simp [hseen]
        cases hrest : values.mapM crates.network with
        | none => simp [hseen, ih, hrest]
        | some rest =>
          have hne : (∀ x ∈ rest, ¬ x = t) ↔ t ∉ rest :=
            ⟨fun h ht => h t ht rfl, fun h x hx e => h (e ▸ hx)⟩
          simp only [contains_eq_mem, hseen, decide_false, Bool.false_eq_true, if_false, ih,
            hrest, htrim, true_and]
          simp [hseen, forall_and, hne]
          tauto
    · rw [if_pos (Bool.not_eq_false _ ▸ htrim)]
      simp [htrim]

/-- When the egress of a specification passes. -/
theorem validateFlashEgress_iff {egress : FlashEgress} :
    validateFlashEgress crates egress = none ↔ ∃ allowed denied,
      parseFlashCidrs crates "allowed_destination_cidrs" egress.allowedDestinationCidrs
        maxFlashDestinationCidrs = .ok allowed ∧
      parseFlashCidrs crates "denied_destination_cidrs" egress.deniedDestinationCidrs
        maxFlashDestinationCidrs = .ok denied ∧
      (egress.mode = .restricted ∨ allowed = []) ∧
      ∀ t ∈ allowed, crates.infrastructure t = false := by
  unfold validateFlashEgress
  cases parseFlashCidrs crates "allowed_destination_cidrs" egress.allowedDestinationCidrs
      maxFlashDestinationCidrs with
  | error e => simp [bind, Except.bind, refusalOf]
  | ok allowed =>
    cases parseFlashCidrs crates "denied_destination_cidrs" egress.deniedDestinationCidrs
        maxFlashDestinationCidrs with
    | error e => simp [bind, Except.bind, refusalOf]
    | ok denied =>
      by_cases hmode : egress.mode ≠ .restricted ∧ allowed ≠ []
      · simp [bind, Except.bind, refusalOf, hmode, throw, throwThe, MonadExceptOf.throw]
      have hopen : egress.mode = .restricted ∨ allowed = [] := by tauto
      cases hfind : allowed.find? crates.infrastructure with
      | some t =>
        have hbad := find?_some hfind
        have hmem := mem_of_find?_eq_some hfind
        simpa [bind, Except.bind, refusalOf, hmode, throw, throwThe, MonadExceptOf.throw, hfind,
          hopen] using ⟨t, hmem, hbad⟩
      | none =>
        have hgood := find?_eq_none.mp hfind
        simpa [bind, Except.bind, refusalOf, hmode, pure, Except.pure, hfind, hopen] using hgood

end Lists

/-- **Entries that can be read**, and as different networks. -/
structure WellFormed (values : List String) : Prop where
  count : values.length ≤ maxFlashDestinationCidrs
  trimmed : ∀ v ∈ values, Trimmed v
  read : ∀ v ∈ values, (ip.parse v).isSome
  distinct : values.Pairwise fun v w => (ip.parse v).map IpNet.trunc ≠ (ip.parse w).map IpNet.trunc

section Egress
variable {crates : Crates} {ip : IpCrate} {field : String} {values : List String}

theorem display_inj {n m : IpNet} (h : ip.display n = ip.display m) : n = m := by
  have hn := ip.parse_display n
  rw [h, ip.parse_display] at hn
  exact (Option.some.inj hn).symm

theorem parseFlashCidrs_wellFormed (h : WellFormed ip values) : ∃ nets,
    parseFlashCidrs (crates.withNetworks ip) field values maxFlashDestinationCidrs = .ok nets ∧
      ∀ t ∈ nets, ∃ v ∈ values, ∃ n, ip.parse v = some n ∧ t = ip.display n.trunc := by
  have hread : ∀ v ∈ values, ∃ n, ip.parse v = some n :=
    fun v hv => Option.isSome_iff_exists.mp (h.read v hv)
  let text := fun v => ((crates.withNetworks ip).network v).getD ""
  have htext : ∀ v ∈ values, ∀ n, ip.parse v = some n → text v = ip.display n.trunc := by
    intro v _ n hn
    simp [text, Crates.withNetworks, hn]
  refine ⟨(values.map text).reverse ++ [], ?_, fun t ht => ?_⟩
  · unfold parseFlashCidrs
    rw [if_neg (Nat.not_lt.mpr h.count), parseFlashCidrsFrom_iff]
    refine ⟨h.trimmed, _, (mapM_eq_some_iff _ _ _).mpr ?_, ?_, by simp, rfl⟩
    · rw [map_map]
      refine map_congr_left fun v hv => ?_
      obtain ⟨n, hn⟩ := hread v hv
      simp [text, Crates.withNetworks, hn]
    · refine pairwise_map.mpr (h.distinct.imp_of_mem fun {v w} hv hw hne heq => hne ?_)
      obtain ⟨n, hn⟩ := hread v hv
      obtain ⟨m, hm⟩ := hread w hw
      rw [htext v hv n hn, htext w hw m hm] at heq
      rw [hn, hm, Option.map_some, Option.map_some, display_inj heq]
  · simp only [append_nil, mem_reverse, mem_map] at ht
    obtain ⟨v, hv, rfl⟩ := ht
    obtain ⟨n, hn⟩ := hread v hv
    exact ⟨v, hv, n, hn, htext v hv n hn⟩

theorem parseFlashCidrs_mem {nets : List String} {maximum : Nat}
    (h : parseFlashCidrs (crates.withNetworks ip) field values maximum = .ok nets) {v : String}
    (hv : v ∈ values) : ∃ n, ip.parse v = some n ∧ ip.display n.trunc ∈ nets := by
  unfold parseFlashCidrs at h
  split at h
  · cases h
  obtain ⟨-, ts, hmap, -, -, rfl⟩ := parseFlashCidrsFrom_iff.mp h
  have hmem := mem_map_of_mem (f := (crates.withNetworks ip).network) hv
  rw [(mapM_eq_some_iff _ _ _).mp hmap] at hmem
  obtain ⟨t, ht, hnet⟩ := mem_map.mp hmem
  obtain ⟨n, hn, rfl⟩ := Option.map_eq_some_iff.mp hnet.symm
  exact ⟨n, hn, by simp [ht]⟩

theorem overlaps_iff {n : IpNet} : (crates.withNetworks ip).infrastructure (ip.display n.trunc) =
    false ↔ ∀ p ∈ protectedNetworks, ∀ x, n.Has x → ¬ p.Has x := by
  show (ip.parseNet (ip.display n.trunc)).any IpNet.overlaps = false ↔ _
  rw [ip.parse_display, Option.any_some, IpNet.overlaps, any_eq_false]
  refine forall_congr' fun p => forall_congr' fun _ => ?_
  rw [Bool.not_eq_true, ← IpNet.disjoint_iff]
  simp only [IpNet.trunc_has]

end Egress

end HeteroCloud.Flash
