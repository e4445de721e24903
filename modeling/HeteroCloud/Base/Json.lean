/-
  File:      Base/Json.lean
  Subject:   JSON VALUES and the ways a typed value is read from one.

  An object is its list of members in key order with pairwise different keys (`serde_json::Value`
  and `jsonb` keep it so). A record is read from its members (`Json.record`: unknown names are
  refused), each by its own reader; a missing member is `none`.

  * `lookup_setIn_self`, `lookup_setIn_other`, `lookup_remove_self`, `lookup_remove_other`,
    `lookup_setAll` -- the members of an object after some are set or removed.
-/
import Mathlib.Tactic.Common

namespace HeteroCloud.Base

open List

/-- A JSON value. A number is a whole number or the text of another one. -/
inductive Json where
  | null
  | bool (b : Bool)
  | int (n : Int)
  | float (text : String)
  | string (s : String)
  | array (items : List Json)
  | object (members : List (String × Json))
  deriving Repr

mutual

/-- Equality of values, member by member. -/
def Json.decEq : (x y : Json) → Decidable (x = y)
  | .null, .null => isTrue rfl
  | .bool a, .bool b => decidable_of_iff (a = b) (by simp)
  | .int a, .int b => decidable_of_iff (a = b) (by simp)
  | .float a, .float b => decidable_of_iff (a = b) (by simp)
  | .string a, .string b => decidable_of_iff (a = b) (by simp)
  | .array xs, .array ys =>
      match Json.decEqItems xs ys with
      | isTrue h => isTrue (by rw [h])
      | isFalse h => isFalse (by simpa using h)
  | .object xs, .object ys =>
      match Json.decEqMembers xs ys with
      | isTrue h => isTrue (by rw [h])
      | isFalse h => isFalse (by simpa using h)
  | .null, .bool _ | .null, .int _ | .null, .float _ | .null, .string _ | .null, .array _
  | .null, .object _ | .bool _, .null | .bool _, .int _ | .bool _, .float _ | .bool _, .string _
  | .bool _, .array _ | .bool _, .object _ | .int _, .null | .int _, .bool _ | .int _, .float _
  | .int _, .string _ | .int _, .array _ | .int _, .object _ | .float _, .null
  | .float _, .bool _ | .float _, .int _ | .float _, .string _ | .float _, .array _
  | .float _, .object _ | .string _, .null | .string _, .bool _ | .string _, .int _
  | .string _, .float _ | .string _, .array _ | .string _, .object _ | .array _, .null
  | .array _, .bool _ | .array _, .int _ | .array _, .float _ | .array _, .string _
  | .array _, .object _ | .object _, .null | .object _, .bool _ | .object _, .int _
  | .object _, .float _ | .object _, .string _ | .object _, .array _ => isFalse (by simp)

def Json.decEqItems : (xs ys : List Json) → Decidable (xs = ys)
  | [], [] => isTrue rfl
  | [], _ :: _ => isFalse (by simp)
  | _ :: _, [] => isFalse (by simp)
  | x :: xs, y :: ys =>
      match Json.decEq x y, Json.decEqItems xs ys with
      | isTrue h, isTrue h' => isTrue (by rw [h, h'])
      | isFalse h, _ => isFalse (by simp [h])
      | _, isFalse h => isFalse (by simp [h])

def Json.decEqMembers : (xs ys : List (String × Json)) → Decidable (xs = ys)
  | [], [] => isTrue rfl
  | [], _ :: _ => isFalse (by simp)
  | _ :: _, [] => isFalse (by simp)
  | (k, x) :: xs, (l, y) :: ys =>
      match (inferInstance : Decidable (k = l)), Json.decEq x y, Json.decEqMembers xs ys with
      | isTrue h, isTrue h', isTrue h'' => isTrue (by rw [h, h', h''])
      | isFalse h, _, _ => isFalse (by simp [h])
      | _, isFalse h, _ => isFalse (by simp [h])
      | _, _, isFalse h => isFalse (by simp [h])

end

instance : DecidableEq Json := Json.decEq

namespace Json

/-- A derived struct reader with `deny_unknown_fields`: the members of an object all of whose
names are known, or the items of an array as the fields in order. The first `required` fields
have no default, so an array must hold them. -/
def record (required : Nat) (keys : List String) : Json → Option (List (String × Json))
  | .object members => if members.all fun m => keys.contains m.1 then some members else none
  | .array items =>
      if required ≤ items.length ∧ items.length ≤ keys.length then some (keys.zip items) else none
  | _ => none

variable (key : String)

/-- `Value::get`: a member of an object. -/
def get : Json → Option Json
  | .object members => (members.find? fun m => m.1 == key).map (·.2)
  | _ => none

/-- A member of an object in its place by name, in the place of one of the same name. -/
def setIn (key : String) (value : Json) : List (String × Json) → List (String × Json)
  | [] => [(key, value)]
  | (k, v) :: rest =>
      if k = key then (key, value) :: rest
      else if key < k then (key, value) :: (k, v) :: rest
      else (k, v) :: setIn key value rest

variable (j : Json)

/-- `value[key] = …`: `null` becomes an object, and what is neither an object nor `null` has no
members to set (the code ends there). -/
def set (key : String) (value : Json) : Option Json :=
  match j with
  | .object members => some (.object (setIn key value members))
  | .null => some (.object [(key, value)])
  | _ => none

/-- `value[key]`. -/
def index : Json := (j.get key).getD .null

def asBool : Json → Option Bool
  | .bool b => some b
  | _ => none

def asInt : Json → Option Int
  | .int n => some n
  | _ => none

/-- `Value::as_u64`. -/
def asNat : Json → Option Nat
  | .int (.ofNat n) => some n
  | _ => none

def asString : Json → Option String
  | .string s => some s
  | _ => none

/-- A list read item by item. -/
def asList {α : Type} (read : Json → Option α) : Json → Option (List α)
  | .array items => items.mapM read
  | _ => none

/-- A map read value by value, in key order. -/
def asMap {α : Type} (read : Json → Option α) : Json → Option (List (String × α))
  | .object members => members.mapM fun m => (read m.2).map fun a => (m.1, a)
  | _ => none

/-- A member of type `Option<T>`: absent and `null` are `None`. -/
def optional {α : Type} (read : Json → Option α) : Option Json → Option (Option α)
  | none => some none
  | some .null => some none
  | some j => (read j).map some

/-- A member with `#[serde(default)]`. -/
def orDefault {α : Type} (default : α) (read : Json → Option α) : Option Json → Option α
  | none => some default
  | some j => read j

/-- `Map::remove`. -/
def remove (key : String) : Json :=
  match j with
  | .object members => .object (members.filter fun m => m.1 != key)
  | j => j

theorem find?_setIn {key other : String} (value : Json) (members : List (String × Json))
    (h : other ≠ key) : (setIn key value members).find? (fun m => m.1 == other) =
      members.find? fun m => m.1 == other := by
  have hne : (key == other) = false := beq_eq_false_iff_ne.mpr h.symm
  induction members with
  | nil => simp [setIn, hne]
  | cons m _ ih =>
    obtain ⟨k, v⟩ := m
    rw [setIn]
    by_cases hk : k = key
    · subst hk
      simp [hne]
    rw [if_neg hk]
    by_cases hlt : key < k
    · simp [hlt, hne]
    · rw [if_neg hlt, find?_cons, find?_cons, ih]

/-- Another member is not affected. -/
theorem index_set {key other : String} {value j j' : Json}
    (h : j.set key value = some j') (hne : other ≠ key) : j'.index other = j.index other := by
  unfold Json.set at h
  split at h
  · cases h
    simp only [index, get, find?_setIn value _ hne]
  · cases h
    simp [index, get, hne.symm]
  · cases h

/-! ## Members of objects -/

section Members
variable {key other : String} {value : Json} {members : List (String × Json)}

theorem find?_lookup (key : String) (members : List (String × Json)) :
    (members.find? fun m => m.1 == key).map (·.2) = members.lookup key := by
  induction members with
  | nil => rfl
  | cons m _ ih =>
    obtain ⟨k, v⟩ := m
    rw [find?_cons, lookup_cons, BEq.comm]
    by_cases h : (key == k) = true
    · simp [h]
    · rw [Bool.not_eq_true] at h
      simpa [h] using ih

theorem get_object : (Json.object members).get key = members.lookup key := find?_lookup key members

theorem lookup_setIn_other (value : Json) (h : other ≠ key) :
    (setIn key value members).lookup other = members.lookup other := by
  rw [← find?_lookup, ← find?_lookup, find?_setIn value members h]

theorem lookup_setIn_self (key : String) (value : Json) (members : List (String × Json)) :
    (setIn key value members).lookup key = some value := by
  induction members with
  | nil => simp [setIn]
  | cons m _ ih =>
    obtain ⟨k, v⟩ := m
    rw [setIn]
    split_ifs with hk hlt
    · simp
    · simp
    · rw [lookup_cons, beq_eq_false_iff_ne.mpr fun h => hk h.symm]
      exact ih

variable {m : String × Json}

theorem mem_setIn (h : m ∈ setIn key value members) : m.1 = key ∨ m ∈ members := by
  induction members with
  | nil =>
    rw [setIn, mem_singleton] at h
    exact .inl (by rw [h])
  | cons _ _ ih =>
    rw [setIn] at h
    split_ifs at h with hk hlt
    · rcases mem_cons.mp h with rfl | h
      · exact .inl rfl
      · exact .inr (mem_cons_of_mem _ h)
    · rcases mem_cons.mp h with rfl | h
      · exact .inl rfl
      · exact .inr h
    · rcases mem_cons.mp h with rfl | h
      · exact .inr mem_cons_self
      rcases ih h with h | h
      · exact .inl h
      · exact .inr (mem_cons_of_mem _ h)

theorem lookup_remove_other (h : other ≠ key) :
    (members.filter fun m => m.1 != key).lookup other = members.lookup other := by
  induction members with
  | nil => rfl
  | cons m _ ih =>
    obtain ⟨k, v⟩ := m
    by_cases hk : k = key
    · subst hk
      rw [filter_cons_of_neg (by simp), ih, lookup_cons, beq_eq_false_iff_ne.mpr h]
    · rw [filter_cons_of_pos (by simpa using hk), lookup_cons, lookup_cons, ih]

theorem lookup_remove_self (key : String) (members : List (String × Json)) :
    (members.filter fun m => m.1 != key).lookup key = none := by
  rw [lookup_eq_none_iff]
  intro m hm
  have h := (mem_filter.mp hm).2
  exact bne_iff_ne.mpr (bne_iff_ne.mp h).symm

/-- Several members, one after the other. -/
def setAll (edits members : List (String × Json)) : List (String × Json) :=
  edits.foldl (fun members e => setIn e.1 e.2 members) members

variable {edits : List (String × Json)}

theorem lookup_setAll (h : (edits.map (·.1)).Nodup) : (setAll edits members).lookup key =
    (edits.lookup key).or (members.lookup key) := by
  induction edits generalizing members with
  | nil => rfl
  | cons e rest ih =>
    obtain ⟨k, v⟩ := e
    rw [map_cons, nodup_cons] at h
    have hrest : (setAll ((k, v) :: rest) members).lookup key =
        (rest.lookup key).or ((setIn k v members).lookup key) := ih h.2
    rw [hrest, lookup_cons]
    by_cases hk : key = k
    · subst hk
      have hnone : rest.lookup key = none := by
        rw [lookup_eq_none_iff]
        intro m hm
        exact bne_iff_ne.mpr fun e => h.1 (mem_map.mpr ⟨m, hm, e.symm⟩)
      rw [hnone, lookup_setIn_self, beq_self_eq_true]
      rfl
    · rw [lookup_setIn_other v hk, beq_eq_false_iff_ne.mpr hk]

theorem mem_setAll (h : m ∈ setAll edits members) : m.1 ∈ edits.map (·.1) ∨ m ∈ members := by
  induction edits generalizing members with
  | nil => exact .inr h
  | cons _ _ ih =>
    rcases ih h with h | h
    · exact .inl (mem_cons_of_mem _ h)
    rcases mem_setIn h with h | h
    · exact .inl (h ▸ mem_cons_self)
    · exact .inr h

end Members
end Json
end HeteroCloud.Base
