import DeviceSdk.Iot.Map
import DeviceSdk.Lib.Double

/-!
# JSON documents and the two libraries that read them

A document, with its numbers as they are written. `parson.c` reads a number that is an integer
with `strtoull`, which takes a minus sign too, and any other as a double; what it writes again is
read by the IoT utilities library, whose functions are parameters.

## Main definitions

- `JsonDoc`, `JsonDoc.toIot` — a document, and the data that the IoT library makes of it
- `parseNumber`, `JsonDoc.reserialize` — numbers in parson, and a document that it has written
- `JsonDoc.NumbersKept` — each number means the same after that

## Main results

- `JsonDoc.toIot_reserialize_iff`
- `parson_double_eq_iff` — when parson's double is that of the text
-/

namespace DeviceSdk

/-- A JSON document, with its numbers as texts. -/
inductive JsonDoc
  | null
  | bool (b : Bool)
  | number (lit : String)
  | string (s : String)
  | array (xs : List JsonDoc)
  | object (members : List (String × JsonDoc))

/-- Data that is a number. -/
def IotData.IsNumber (d : IotData) : Prop := (∃ t, d.type = .int t) ∨ d.type = .float64

theorem IotData.IsNumber.cases {d : IotData} (h : d.IsNumber) :
    (∃ t bits, d = .int t bits) ∨ ∃ x, d = .float64 x := by
  cases d with
  | int t bits => exact .inl ⟨t, bits, rfl⟩
  | float64 x => exact .inr ⟨x, rfl⟩
  | _ => simp [IotData.IsNumber, IotData.type] at h

/-- What the C library and the IoT utilities library do with the text of a number. -/
structure JsonNumbers where
  /-- `strtod`. -/
  strtod : String → ℚ
  /-- `sprintf` with `%1.17g`. -/
  print : ℚ → String
  /-- `iot_data_from_json`, on a number. -/
  fromJson : String → { d : IotData // d.IsNumber }
  /-- `iot_data_cast` to a double. -/
  number : IotData → Option ℚ

/-- The number that decimal digits stand for. -/
def digitsValue (ds : List Char) : ℕ := ds.foldl (fun n c => 10 * n + (c.toNat - '0'.toNat)) 0

/-- The integer that a number without a fraction and an exponent stands for. -/
def integerLiteral (lit : String) : Option ℤ :=
  match lit.toList with
  | '-' :: ds => if ds ≠ [] ∧ ds.all Char.isDigit then some (-(digitsValue ds : ℤ)) else none
  | ds => if ds ≠ [] ∧ ds.all Char.isDigit then some (digitsValue ds) else none

/-- A number in parson: an unsigned integer, or a double. -/
inductive ParsonNumber
  | uint (u : ℕ)
  | number (x : ℚ)

/-- `parse_number_value`. A minus sign makes `strtoull` negate its result modulo `2 ^ 64`. -/
def parseNumber (lib : JsonNumbers) (lit : String) : ParsonNumber :=
  match integerLiteral lit with
  | some n => if n.natAbs < 2 ^ 64 then .uint (n % 2 ^ 64).toNat else .number (lib.strtod lit)
  | none => .number (lib.strtod lit)

namespace ParsonNumber

/-- `json_serialize_to_string`, on a number. -/
def text (lib : JsonNumbers) : ParsonNumber → String
  | uint u => toString u
  | number x => lib.print x

/-- `json_value_get_number`. -/
def double : ParsonNumber → ℚ
  | uint u => Double.ofNat u
  | number x => x

end ParsonNumber

/-- The text of a number, once parson has read and written it. -/
def reprint (lib : JsonNumbers) (lit : String) : String := (parseNumber lib lit).text lib

/-- The entries of a map, each added to those before it. -/
def mapOf (entries : List (String × IotData)) : List (String × IotData) :=
  (IotMap.empty.addAll entries).entries

namespace JsonDoc

section

variable (lib : JsonNumbers)

mutual

/-- `iot_data_from_json`. -/
def toIot : JsonDoc → IotData
  | null => .null
  | bool b => .bool b
  | number lit => (lib.fromJson lit).1
  | string s => .string s
  | array xs => .vector (toIotList xs)
  | object members => .map (mapOf (toIotMembers members))

def toIotList : List JsonDoc → List IotData
  | [] => []
  | x :: xs => toIot x :: toIotList xs

def toIotMembers : List (String × JsonDoc) → List (String × IotData)
  | [] => []
  | (k, x) :: ms => (k, toIot x) :: toIotMembers ms

end

mutual

/-- A document as parson writes it after reading it. -/
def reserialize : JsonDoc → JsonDoc
  | number lit => number (reprint lib lit)
  | array xs => array (reserializeList xs)
  | object members => object (reserializeMembers members)
  | d => d

def reserializeList : List JsonDoc → List JsonDoc
  | [] => []
  | x :: xs => reserialize x :: reserializeList xs

def reserializeMembers : List (String × JsonDoc) → List (String × JsonDoc)
  | [] => []
  | (k, x) :: ms => (k, reserialize x) :: reserializeMembers ms

end

mutual

/-- Every number of the document means the same once parson has written it. -/
def NumbersKept : JsonDoc → Prop
  | number lit => (lib.fromJson (reprint lib lit)).1 = (lib.fromJson lit).1
  | array xs => NumbersKeptList xs
  | object members => NumbersKeptMembers members
  | _ => True

def NumbersKeptList : List JsonDoc → Prop
  | [] => True
  | x :: xs => NumbersKept x ∧ NumbersKeptList xs

def NumbersKeptMembers : List (String × JsonDoc) → Prop
  | [] => True
  | (_, x) :: ms => NumbersKept x ∧ NumbersKeptMembers ms

end

end

mutual

/-- The names of every object are different from each other. Parson refuses other documents. -/
def Distinct : JsonDoc → Prop
  | array xs => DistinctList xs
  | object members => (members.map Prod.fst).Nodup ∧ DistinctMembers members
  | _ => True

def DistinctList : List JsonDoc → Prop
  | [] => True
  | x :: xs => Distinct x ∧ DistinctList xs

def DistinctMembers : List (String × JsonDoc) → Prop
  | [] => True
  | (_, x) :: ms => Distinct x ∧ DistinctMembers ms

end

end JsonDoc

theorem lookup_mapOf {entries : List (String × IotData)} (h : (entries.map Prod.fst).Nodup)
    (n : String) : (mapOf entries).lookup n = entries.lookup n := by
  have hadd := IotMap.lookup_addAll_of_nodup h IotMap.empty n
  rw [IotMap.lookup, IotMap.lookup, IotMap.empty, List.lookup_nil, Option.or_none] at hadd
  exact hadd

theorem mapOf_perm {entries : List (String × IotData)} (h : (entries.map Prod.fst).Nodup) :
    (mapOf entries).Perm entries := by
  have hmap : ((mapOf entries).map Prod.fst).Nodup := (IotMap.empty.addAll entries).keys_nodup
  rw [List.perm_ext_iff_of_nodup hmap.of_map h.of_map]
  rintro ⟨k, v⟩
  rw [← List.lookup_eq_some_iff_mem hmap, ← List.lookup_eq_some_iff_mem h, lookup_mapOf h]

theorem mapOf_of_ordered {entries : List (String × IotData)} (h : KeyOrdered entries) :
    mapOf entries = entries := by
  have hnodup : (entries.map Prod.fst).Nodup := (IotMap.mk entries h).keys_nodup
  exact (mapOf_perm hnodup).eq_of_pairwise (fun a b _ _ hab hba => absurd hab hba.asymm)
    (IotMap.empty.addAll entries).ordered h

/-- Maps from entries under the same keys are equal where the entries are. -/
theorem mapOf_eq_iff {a b : List (String × IotData)} (hkeys : a.map Prod.fst = b.map Prod.fst)
    (h : (a.map Prod.fst).Nodup) : mapOf a = mapOf b ↔ a = b := by
  constructor
  · intro hab
    apply List.eq_of_lookup_eq hkeys h
    intro n
    rw [← lookup_mapOf h, hab, lookup_mapOf (hkeys ▸ h)]
  · intro hab
    rw [hab]

namespace JsonDoc

variable (lib : JsonNumbers)

theorem toIotMembers_eq_map (members : List (String × JsonDoc)) :
    toIotMembers lib members = members.map fun m => (m.1, m.2.toIot lib) := by
  induction members with
  | nil => rfl
  | cons m ms ih => rw [toIotMembers, ih, List.map_cons]

theorem toIotList_eq_map (xs : List JsonDoc) : toIotList lib xs = xs.map (toIot lib) := by
  induction xs with
  | nil => rfl
  | cons x xs ih => rw [toIotList, ih, List.map_cons]

theorem lookup_toIotMembers (members : List (String × JsonDoc)) (key : String) :
    (toIotMembers lib members).lookup key = (members.lookup key).map (toIot lib) := by
  induction members with
  | nil => rfl
  | cons m ms ih =>
    obtain ⟨k, x⟩ := m
    rw [toIotMembers, List.lookup_cons_ite, ih, List.lookup_cons_ite]
    split <;> rfl

theorem keys_toIotMembers (members : List (String × JsonDoc)) :
    (toIotMembers lib members).map Prod.fst = members.map Prod.fst := by
  rw [toIotMembers_eq_map, List.map_map]
  rfl

theorem keys_reserializeMembers (members : List (String × JsonDoc)) :
    (reserializeMembers lib members).map Prod.fst = members.map Prod.fst := by
  induction members with
  | nil => rfl
  | cons m ms ih => rw [reserializeMembers, List.map_cons, List.map_cons, ih]

mutual

/-- A document that parson has written means the same exactly where each of its numbers does. -/
theorem toIot_reserialize_iff : (d : JsonDoc) → d.Distinct →
    ((d.reserialize lib).toIot lib = d.toIot lib ↔ d.NumbersKept lib)
  | null, _ => by simp [reserialize, NumbersKept]
  | bool _, _ => by simp [reserialize, NumbersKept]
  | string _, _ => by simp [reserialize, NumbersKept]
  | number _, _ => by simp [reserialize, NumbersKept, toIot]
  | array xs, h => by
    rw [Distinct] at h
    simp only [reserialize, toIot, NumbersKept, IotData.vector.injEq]
    exact toIotList_reserialize_iff xs h
  | object members, h => by
    rw [Distinct] at h
    have hkeys : (toIotMembers lib (reserializeMembers lib members)).map Prod.fst =
        (toIotMembers lib members).map Prod.fst := by
      rw [keys_toIotMembers, keys_toIotMembers, keys_reserializeMembers]
    have hnodup : ((toIotMembers lib (reserializeMembers lib members)).map Prod.fst).Nodup := by
      rw [keys_toIotMembers, keys_reserializeMembers]
      exact h.1
    simp only [reserialize, toIot, NumbersKept, IotData.map.injEq]
    rw [mapOf_eq_iff hkeys hnodup]
    exact toIotMembers_reserialize_iff members h.2

theorem toIotList_reserialize_iff : (xs : List JsonDoc) → DistinctList xs →
    (toIotList lib (reserializeList lib xs) = toIotList lib xs ↔ NumbersKeptList lib xs)
  | [], _ => by simp [reserializeList, NumbersKeptList]
  | x :: xs, h => by
    rw [DistinctList] at h
    simp only [reserializeList, toIotList, NumbersKeptList, List.cons.injEq]
    exact and_congr (toIot_reserialize_iff x h.1) (toIotList_reserialize_iff xs h.2)

theorem toIotMembers_reserialize_iff : (members : List (String × JsonDoc)) →
    DistinctMembers members →
    (toIotMembers lib (reserializeMembers lib members) = toIotMembers lib members ↔
      NumbersKeptMembers lib members)
  | [], _ => by simp [reserializeMembers, NumbersKeptMembers]
  | (k, x) :: ms, h => by
    rw [DistinctMembers] at h
    simp only [reserializeMembers, toIotMembers, NumbersKeptMembers, List.cons.injEq,
      Prod.mk.injEq, true_and]
    exact and_congr (toIot_reserialize_iff x h.1) (toIotMembers_reserialize_iff ms h.2)

end

end JsonDoc

/-- A negative integer that `strtoull` takes for an unsigned one. -/
def NegativeInteger (lit : String) : Prop :=
  ∃ n, integerLiteral lit = some n ∧ n < 0 ∧ n.natAbs < 2 ^ 64

/-- `strtod` gives the nearest double of an integer. -/
def JsonNumbers.Rounds (lib : JsonNumbers) : Prop :=
  ∀ lit n, integerLiteral lit = some n → n.natAbs < 2 ^ 64 →
    lib.strtod lit = (Double.ofInt n : ℚ)

/-- The IoT library makes of the text the number that `strtod` makes of it. -/
def JsonNumbers.Casts (lib : JsonNumbers) (lit : String) : Prop :=
  lib.number (lib.fromJson lit).1 = some (lib.strtod lit)

theorem double_of_negativeInteger {lib : JsonNumbers} (hlib : lib.Rounds) {lit : String}
    (h : NegativeInteger lit) : lib.strtod lit < (parseNumber lib lit).double := by
  obtain ⟨n, hn, hneg, hlt⟩ := h
  have hstrtod : lib.strtod lit < 0 := by
    rw [hlib lit n hn hlt]
    exact_mod_cast Double.ofInt_neg_of_neg hneg
  simp only [parseNumber, hn, if_pos hlt, ParsonNumber.double]
  exact hstrtod.trans_le (by positivity)

theorem double_of_not_negativeInteger {lib : JsonNumbers} (hlib : lib.Rounds) {lit : String}
    (h : ¬NegativeInteger lit) : (parseNumber lib lit).double = lib.strtod lit := by
  rw [parseNumber]
  cases hn : integerLiteral lit with
  | none => rfl
  | some n =>
    by_cases hlt : n.natAbs < 2 ^ 64
    · have hnonneg : 0 ≤ n := by
        by_contra hneg
        exact h ⟨n, hn, not_le.mp hneg, hlt⟩
      obtain ⟨a, rfl⟩ := Int.eq_ofNat_of_zero_le hnonneg
      have ha : ((a : ℤ) % 2 ^ 64).toNat = a := by omega
      simp only [if_pos hlt, ParsonNumber.double]
      rw [ha, hlib lit a hn hlt, Double.ofInt_natCast]
      rfl
    · simp only [if_neg hlt, ParsonNumber.double]

/-- Parson's double is that of the text, except for a negative integer. -/
theorem parson_double_eq_iff {lib : JsonNumbers} (hlib : lib.Rounds) (lit : String) :
    (parseNumber lib lit).double = lib.strtod lit ↔ ¬NegativeInteger lit := by
  refine ⟨fun h hneg => ?_, double_of_not_negativeInteger hlib⟩
  exact (double_of_negativeInteger hlib hneg).ne' h

end DeviceSdk
