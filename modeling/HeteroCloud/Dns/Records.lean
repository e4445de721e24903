/-
  File:      Dns/Records.lean
  Subject:   PUBLIC NAMES of a cluster (`normalize_domain`, `build_records`, `node_label`,
             crates/heterocloud-cli/src/lib.rs).

  Text is a list of characters. The letters of a node are the digits of a bijective base 26:
  `labelLoop_injective` tells nodes apart, and `labelLoop_length` bounds their names through
  `capacity`. What passes `normalize_domain` is `Accepted`, from which the rest follows.
-/
import HeteroCloud.Base.Numbers
import HeteroCloud.Base.Text
import HeteroCloud.Iam.Document
import Mathlib.Data.List.DropRight
import Mathlib.Data.List.Nodup

namespace HeteroCloud.Dns

open Base Iam List

/-! ## 1. Domains -/

inductive CliError where
  | invalidDomain (input : List Char)

def maxBaseDomainLength : Nat := 230

def labelCharacter (c : Char) : Bool := c.isLower || c.isDigit || c == '-'

/-- What `normalize_domain` refuses in a label. -/
def refusedLabel (label : List Char) : Bool :=
  label.isEmpty || byteLen label > 63 || label.head? == some '-' || label.getLast? == some '-' ||
    !label.all labelCharacter

def refusedDomain (domain : List Char) : Bool :=
  domain.isEmpty || byteLen domain > maxBaseDomainLength || !domain.all (·.toNat < 128) ||
    !domain.contains '.' || (domain.splitOn '.').any refusedLabel

/-- `input.trim().trim_end_matches('.').to_ascii_lowercase()`. -/
def trimmed (input : List Char) : List Char :=
  (((input.dropWhile isWhitespace).rdropWhile isWhitespace).rdropWhile (· == '.')).map Char.toLower

def normalizeDomain (input : List Char) : Except CliError (List Char) :=
  if refusedDomain (trimmed input) then .error (.invalidDomain input) else .ok (trimmed input)

/-! ## 2. Records -/

/-- The `while` loop of `node_label`: the letters as they are pushed. -/
def labelLoop (number : Nat) : List Char :=
  if number = 0 then []
  else Char.ofNat ('a'.toNat + (number - 1) % 26) :: labelLoop ((number - 1) / 26)

def nodeLabel (index : Nat) : List Char := (labelLoop (index + 1)).reverse

/-- A slice: its length is a `usize`. -/
structure Slice (α : Type) where
  items : List α
  fits : items.length ≤ u64Max

structure DnsRecord where
  recordType : String
  name : List Char
  value : UInt32
  ttl : UInt32
  service : String
  node : List Char

def nodeScopedServicePrefixes : List String := ["cloud"]

/-- `{service}-{node}.{domain}`. -/
def nodeName (service : String) (node domain : List Char) : List Char :=
  service.toList ++ '-' :: node ++ '.' :: domain

/-- `{service}.{domain}`. -/
def scopedName (service : String) (domain : List Char) : List Char :=
  service.toList ++ '.' :: domain

variable (domain : List Char) (addresses : Slice UInt32) (ttl : UInt32)

/-- The first loop of `build_records`. -/
def nodeRecords : List DnsRecord :=
  addresses.items.zipIdx.flatMap fun entry => nodeScopedServicePrefixes.map fun service =>
    ⟨"A", nodeName service (nodeLabel entry.2) domain, entry.1, ttl, service, nodeLabel entry.2⟩

/-- One of the loops after it. -/
def clusterRecords (service : String) (name : List Char) : List DnsRecord :=
  addresses.items.map fun address => ⟨"A", name, address, ttl, service, "cluster".toList⟩

def buildRecords : List DnsRecord :=
  nodeRecords domain addresses ttl ++ clusterRecords addresses ttl "cloud" domain ++
    ["flow", "registry", "s3"].flatMap fun service =>
      clusterRecords addresses ttl service (scopedName service domain)

/-! ## 3. Labels of nodes -/

theorem letter_code : ∀ k < 26, (Char.ofNat ('a'.toNat + k)).toNat = 97 + k := by decide

theorem labelLoop_injective {m n : Nat} (h : labelLoop m = labelLoop n) : m = n := by
  induction m using Nat.strongRecOn generalizing n with
  | _ m ih =>
    rw [labelLoop.eq_def m, labelLoop.eq_def n] at h
    split_ifs at h with hm hn hn
    · rw [hm, hn]
    · obtain ⟨hhead, htail⟩ := cons.inj h
      have hcode := congrArg Char.toNat hhead
      have hmod (a : Nat) : a % 26 < 26 := Nat.mod_lt a (by decide)
      rw [letter_code _ (hmod _), letter_code _ (hmod _)] at hcode
      have hdiv := ih _ (by omega) htail
      omega

theorem labelLoop_letters {n : Nat} : ∀ c ∈ labelLoop n, labelCharacter c = true := by
  induction n using Nat.strongRecOn with
  | _ n ih =>
    rw [labelLoop]
    split_ifs with hn
    · exact forall_mem_nil _
    · have hletter : ∀ k < 26, labelCharacter (Char.ofNat ('a'.toNat + k)) = true := by decide
      exact forall_mem_cons.mpr ⟨hletter _ (Nat.mod_lt _ (by decide)), ih _ (by omega)⟩

/-- The largest number with `k` letters. -/
def capacity : Nat → Nat
  | 0 => 0
  | k + 1 => 26 * capacity k + 26

theorem labelLoop_length {k n : Nat} (h : n ≤ capacity k) : (labelLoop n).length ≤ k := by
  induction k generalizing n with
  | zero =>
    rw [Nat.le_zero.mp h, labelLoop]
    rfl
  | succ k ih =>
    rw [labelLoop]
    split_ifs with hn
    · exact Nat.zero_le _
    · have hcap : n ≤ 26 * capacity k + 26 := h
      exact Nat.succ_le_succ (ih (by omega))

theorem nodeLabel_length {index : Nat} (h : index < u64Max) : (nodeLabel index).length ≤ 14 := by
  rw [nodeLabel, length_reverse]
  exact labelLoop_length (Nat.le_trans h (by decide))

/-! ## 4. Accepted domains -/

/-- The characters of a domain. -/
def Plain (c : Char) : Prop := labelCharacter c = true ∨ c = '.'

theorem Plain.code {c : Char} (h : Plain c) : (97 ≤ c.toNat ∧ c.toNat ≤ 122) ∨
    (45 ≤ c.toNat ∧ c.toNat ≤ 57) := by
  rcases h with h | rfl
  · rcases Bool.or_eq_true_iff.mp h with h | h
    · rcases Bool.or_eq_true_iff.mp h with h | h
      · exact .inl (code_between h)
      · exact .inr ((code_between h).imp_left (Nat.le_trans (by decide)))
    · rw [beq_iff_eq.mp h]
      decide
  · decide

theorem Plain.utf8Size {c : Char} (h : Plain c) : c.utf8Size = 1 := by
  have hc := h.code
  exact utf8Size_ascii (by omega)

theorem Plain.trimmed {c : Char} (h : Plain c) : isWhitespace c = false := by
  have hc := h.code
  simp [isWhitespace]
  omega

theorem Plain.toLower {c : Char} (h : Plain c) : c.toLower = c := by
  have hc := h.code
  refine dif_neg fun hupper => ?_
  have h1 : 65 ≤ c.toNat := UInt32.le_iff_toNat_le.mp hupper.1
  have h2 : c.toNat ≤ 90 := UInt32.le_iff_toNat_le.mp hupper.2
  omega

/-- A name that can be asked for. -/
structure WellFormed (name : List Char) : Prop where
  short : byteLen name ≤ 253
  labels : ∀ label ∈ name.splitOn '.', 1 ≤ byteLen label ∧ byteLen label ≤ 63 ∧
    ∀ c ∈ label, labelCharacter c = true

/-- What `normalize_domain` lets pass. -/
structure Accepted (domain : List Char) : Prop extends WellFormed domain where
  room : byteLen domain ≤ 230

theorem byteLen_label {label : List Char} (h : ∀ c ∈ label, labelCharacter c = true) :
    byteLen label = label.length :=
  byteLen_ascii fun c hc => Plain.utf8Size (.inl (h c hc))

theorem Accepted.of_not_refused {d : List Char} (h : refusedDomain d = false) : Accepted d := by
  simp only [refusedDomain, Bool.or_eq_false_iff, decide_eq_false_iff_not, not_lt,
    any_eq_false, refusedLabel, Bool.not_eq_true, isEmpty_eq_false_iff, Bool.not_eq_false',
    all_eq_true] at h
  obtain ⟨⟨⟨⟨_, hroom⟩, _⟩, _⟩, hlabels⟩ := h
  refine ⟨⟨Nat.le_trans hroom (by decide), fun label hl => ?_⟩, hroom⟩
  obtain ⟨⟨⟨⟨hne, hlen⟩, _⟩, _⟩, hall⟩ := hlabels label hl
  exact ⟨byteLen_label hall ▸ length_pos_iff.mpr hne, hlen, hall⟩

section
variable {d : List Char} (h : Accepted d)
include h

/-- Every character stands in a label or parts two of them. -/
theorem Accepted.plain : ∀ c ∈ d, Plain c := by
  have hmem (labels : List (List Char)) (c : Char) (hc : c ∈ ['.'].intercalate labels) :
      c = '.' ∨ ∃ label ∈ labels, c ∈ label := by
    induction labels with
    | nil => cases hc
    | cons label labels ih =>
      cases labels with
      | nil => exact .inr ⟨label, mem_cons_self, by simpa [intercalate] using hc⟩
      | cons =>
        rw [intercalate_cons_cons, mem_append, mem_append, mem_singleton] at hc
        rcases hc with (hc | hc) | hc
        · exact .inr ⟨label, mem_cons_self, hc⟩
        · exact .inl hc
        · exact (ih hc).imp_right fun ⟨l, hl, hcl⟩ => ⟨l, mem_cons_of_mem _ hl, hcl⟩
  intro c hc
  rw [← show ['.'].intercalate (d.splitOn '.') = d from intercalate_splitOn '.'] at hc
  rcases hmem _ c hc with rfl | ⟨label, hl, hcl⟩
  · exact .inr rfl
  · exact .inl ((h.labels label hl).2.2 c hcl)

theorem Accepted.last (hne : d ≠ []) : d.getLast hne ≠ '.' := by
  intro hdot
  have hd : d = d.dropLast ++ '.' :: [] := by
    rw [← hdot]
    exact (dropLast_append_getLast hne).symm
  have hsplit : [] ∈ d.splitOn '.' := by
    rw [hd, splitOn, splitOnP_append_cons _ _ rfl]
    exact mem_append_right _ (by simp)
  exact absurd (h.labels [] hsplit).1 (by decide)

/-- Nothing is left to normalize. -/
theorem Accepted.trimmed_eq : trimmed d = d := by
  have hplain (c : Char) (hc : c ∈ d) : ¬ isWhitespace c = true := by
    simp [(h.plain c hc).trimmed]
  have hlower : d.map Char.toLower = d :=
    (map_congr_left fun c hc => (h.plain c hc).toLower).trans (map_id d)
  have hfront : d.dropWhile isWhitespace = d :=
    dropWhile_eq_self_iff.mpr fun _ => hplain _ (getElem_mem _)
  have hback : d.rdropWhile isWhitespace = d :=
    rdropWhile_eq_self_iff.mpr fun _ => hplain _ (getLast_mem _)
  have hdots : d.rdropWhile (· == '.') = d :=
    rdropWhile_eq_self_iff.mpr fun hne he => h.last hne (beq_iff_eq.mp he)
  rw [trimmed, hfront, hback, hdots, hlower]

end

/-! ## 5. Names -/

/-- A label in front of an accepted domain. -/
theorem Accepted.name {d label : List Char} (h : Accepted d)
    (hall : ∀ c ∈ label, labelCharacter c = true) (hne : label ≠ []) (hlen : label.length ≤ 20) :
    WellFormed (label ++ '.' :: d) := by
  have hb := byteLen_label hall
  constructor
  · rw [byteLen_append, hb]
    have hdot : byteLen ('.' :: d) = 1 + byteLen d := byteLen_append ['.'] d
    have := h.room
    omega
  · have hsplit : (label ++ '.' :: d).splitOn '.' = label :: d.splitOn '.' := by
      rw [splitOn, splitOnP_append_cons _ _ rfl, splitOnP_eq_singleton fun c hc => ?_]
      · rfl
      · refine beq_eq_false_iff_ne.mpr ?_
        rintro rfl
        exact absurd (hall '.' hc) (by decide)
    rw [hsplit]
    refine forall_mem_cons.mpr ⟨⟨?_, by omega, hall⟩, h.labels⟩
    rw [hb]
    exact length_pos_iff.mpr hne

variable {domain addresses ttl}

theorem nodeRecords_names : (nodeRecords domain addresses ttl).map (·.name) =
    (range addresses.items.length).map fun index => nodeName "cloud" (nodeLabel index) domain := by
  rw [range_eq_range', ← zipIdx_map_snd 0 addresses.items, map_map, nodeRecords, map_flatMap]
  exact map_eq_flatMap.symm

theorem nodeRecords_name {r : DnsRecord} (hr : r ∈ nodeRecords domain addresses ttl) :
    ∃ index < addresses.items.length, r.name = nodeName "cloud" (nodeLabel index) domain := by
  have hname := mem_map_of_mem hr (f := (·.name))
  rw [nodeRecords_names] at hname
  obtain ⟨index, hi, he⟩ := mem_map.mp hname
  exact ⟨index, mem_range.mp hi, he.symm⟩

theorem Accepted.nodeName (h : Accepted domain) {index : Nat} (hi : index < u64Max) :
    WellFormed (nodeName "cloud" (nodeLabel index) domain) := by
  refine h.name (forall_mem_append.mpr ⟨all_eq_true.mp (by decide +kernel),
    forall_mem_cons.mpr ⟨by decide, ?_⟩⟩) (by simp) ?_
  · exact fun c hc => labelLoop_letters c (mem_reverse.mp hc)
  · have hl := nodeLabel_length hi
    simp
    omega

end HeteroCloud.Dns
