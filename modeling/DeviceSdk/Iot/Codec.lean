import DeviceSdk.Iot.Data
import DeviceSdk.Lib.AssocMap

/-!
# Conversions that the SDK takes from its libraries

Text, JSON and base64 conversions of the IoT utilities library, and the long double
arithmetic of the C library, are parameters. Where a conversion promises the type of
its result, the result carries that promise.

## Main definitions

- `Codec` — conversions between text and data
- `FloatOps` — long double arithmetic
- `Json`, `Json.toIot` — JSON values, and the data that they decode to
- `IotData.mapAdd`, `IotData.mapMerge` — additions to a string map
-/

namespace DeviceSdk

/-- A JSON value. A number that is written as an integer is kept as one. -/
inductive Json
  | null
  | bool (b : Bool)
  | number (x : Flt)
  | uint (n : ℕ)
  | string (s : String)
  | array (xs : List Json)
  | object (members : List (String × Json))

/-- Conversions between data and text. -/
structure Codec where
  /-- `iot_data_from_json`. -/
  fromJson : String → Option IotData
  /-- `iot_data_to_json`. -/
  toJson : IotData → String
  /-- `iot_data_alloc_array_from_base64`, with the bytes of the array. -/
  fromBase64 : String → Option (List UInt8)
  /-- `iot_b64_encode`. -/
  toBase64 : List UInt8 → String
  /-- `iot_data_alloc_from_string`: a value of the type asked for, or nothing. -/
  fromString : (t : DataType) → String → Option { d : IotData // d.type = t }
  /-- `iot_data_cast`: a value of the type asked for, or nothing. -/
  cast : IotData → (t : DataType) → Option { d : IotData // d.type = t }
  /-- `iot_data_transform` to a double. -/
  toFloat64 : IotData → Option Flt
  /-- The length of what `iot_data_to_cbor` produces. -/
  cborSize : IotData → ℕ
  /-- `json_serialize_to_string`. -/
  serialize : Json → String
  /-- The number that a JSON number decodes to: an integer, or a double. -/
  number : Flt → BitVec 64 ⊕ Flt

/-- Long double arithmetic. -/
structure FloatOps where
  /-- The double with the given bits. -/
  ofBits : BitVec 64 → Flt
  /-- The value of a signed 64-bit integer. -/
  ofInt : BitVec 64 → Flt
  /-- Conversion to a signed 64-bit integer. -/
  toInt : Flt → BitVec 64
  add : Flt → Flt → Flt
  sub : Flt → Flt → Flt
  mul : Flt → Flt → Flt
  div : Flt → Flt → Flt
  pow : Flt → Flt → Flt
  log : Flt → Flt
  /-- `llroundl`. -/
  llround : Flt → BitVec 64
  /-- Rounding to a float, to a double. -/
  f32 : Flt → Flt
  f64 : Flt → Flt

namespace Flt

/-- The order of floating point numbers, in which nothing is comparable to a NaN. -/
def le : Flt → Flt → Bool
  | nan, _ | _, nan => false
  | inf true, _ | _, inf false => true
  | finite p, finite q => decide (p ≤ q)
  | inf false, _ | _, inf true => false

/-- `isfinite`. -/
def isFinite : Flt → Bool
  | finite _ => true
  | _ => false

/-- `FLT_MAX`. -/
def fltMax : Flt := finite ((2 - 2⁻¹ ^ 23) * 2 ^ 127)

/-- `DBL_MAX`. -/
def dblMax : Flt := finite ((2 - 2⁻¹ ^ 52) * 2 ^ 1023)

def neg : Flt → Flt
  | finite q => finite (-q)
  | inf b => inf !b
  | nan => nan

/-- `fabs`. -/
def abs : Flt → Flt
  | finite q => finite |q|
  | inf _ => inf false
  | nan => nan

/-- The strict order of floating point numbers. -/
def lt (x y : Flt) : Bool := x.le y && !y.le x

end Flt

namespace Json

variable (c : Codec)

mutual

/-- The data that `iot_data_from_json` makes of a JSON value. -/
def toIot : Json → IotData
  | null => .null
  | bool b => .bool b
  | number x =>
    match c.number x with
    | .inl i => .int .int64 i
    | .inr f => .float64 f
  | uint n =>
    match c.number (.finite n) with
    | .inl i => .int .int64 i
    | .inr f => .float64 f
  | string s => .string s
  | array xs => .vector (toIotList xs)
  | object members => .map (toIotMembers members)

def toIotList : List Json → List IotData
  | [] => []
  | x :: xs => toIot x :: toIotList xs

def toIotMembers : List (String × Json) → List (String × IotData)
  | [] => []
  | (k, x) :: xs => (k, toIot x) :: toIotMembers xs

end

/-- A member of an object decodes in its place. -/
theorem lookup_toIotMembers (members : List (String × Json)) (key : String) :
    (toIotMembers c members).lookup key = (members.lookup key).map (toIot c) := by
  induction members with
  | nil => rfl
  | cons m ms ih =>
    obtain ⟨k, x⟩ := m
    by_cases hk : key = k
    · subst hk
      simp [toIotMembers]
    · have hb : (key == k) = false := by simpa using hk
      simpa [toIotMembers, List.lookup_cons, hb] using ih

end Json

namespace IotData

/-- `iot_data_map_add` on the entries of a map, which stand in key order. -/
def mapAdd (key : String) (value : IotData) :
    List (String × IotData) → List (String × IotData)
  | [] => [(key, value)]
  | (k, v) :: es =>
    if key = k then (key, value) :: es
    else if key < k then (key, value) :: (k, v) :: es
    else (k, v) :: mapAdd key value es

/-- What a map holds after an addition. -/
theorem lookup_mapAdd (key : String) (value : IotData) (entries : List (String × IotData))
    (n : String) :
    (mapAdd key value entries).lookup n = if n = key then some value else entries.lookup n := by
  induction entries with
  | nil => simp [mapAdd, List.lookup_cons_ite]
  | cons e es ih =>
    obtain ⟨k, v⟩ := e
    rw [mapAdd, List.lookup_cons_ite n k]
    by_cases hk : key = k
    · subst hk
      rw [if_pos rfl, List.lookup_cons_ite]
      by_cases hn : n = key <;> simp [hn]
    · rw [if_neg hk]
      by_cases hlt : key < k
      · rw [if_pos hlt, List.lookup_cons_ite, List.lookup_cons_ite]
      · rw [if_neg hlt, List.lookup_cons_ite, ih]
        by_cases hn : n = k
        · have hne : n ≠ key := fun h => hk (h.symm.trans hn)
          rw [if_pos hn, if_neg hne, if_pos hn]
        · rw [if_neg hn, if_neg hn]

/-- `iot_data_map_merge`, of a map that may be absent. -/
def mapMerge (entries : List (String × IotData)) (src : Option IotData) :
    List (String × IotData) :=
  match src with
  | some (.map es) => es.foldl (fun acc e => mapAdd e.1 e.2 acc) entries
  | _ => entries

end IotData

end DeviceSdk
