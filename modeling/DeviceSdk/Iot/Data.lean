import Mathlib

/-!
# Typed data values

The `iot_data_t` values that the SDK reads, transforms and hands to a driver,
together with the type codes of `iot_typecode_t`. Only the kinds of data that a
device profile can name, and those a JSON document can decode to, are present.

## Main definitions

- `IntTy`, `DataType`, `TypeCode` — the type enumeration and the type codes
- `IotData` — the values themselves
- `IotData.typecode` — `iot_data_typecode`
- `IotData.stringMapGet` and its typed variants — lookups in a string map
-/

namespace DeviceSdk

/-- The integer kinds of `iot_data_type_t`. -/
inductive IntTy
  | int8 | uint8 | int16 | uint16 | int32 | uint32 | int64 | uint64
  deriving DecidableEq, Repr

namespace IntTy

def width : IntTy → ℕ
  | int8 | uint8 => 8
  | int16 | uint16 => 16
  | int32 | uint32 => 32
  | int64 | uint64 => 64

def signed : IntTy → Bool
  | int8 | int16 | int32 | int64 => true
  | uint8 | uint16 | uint32 | uint64 => false

end IntTy

/-- `iot_data_type_t`, in the order of the enumeration. -/
inductive DataType
  | int (t : IntTy)
  | float32 | float64 | bool | pointer | string | null | binary
  | array | vector | list | map | multi | invalid
  deriving DecidableEq, Repr

/-- `iot_typecode_t`: a kind, with the element and key kinds of a collection. -/
structure TypeCode where
  type : DataType
  elementType : DataType
  keyType : DataType
  deriving DecidableEq, Repr

/-- A type code that is not a collection. -/
def TypeCode.scalar (t : DataType) : TypeCode := ⟨t, .invalid, .invalid⟩

/-- A floating point value. Finite values are the rationals they denote. -/
inductive Flt
  | finite (q : ℚ)
  | inf (negative : Bool)
  | nan
  deriving DecidableEq

/-- An `iot_data_t` value. The entries of a map stand in the order of the
    library's own key ordering, so that equality of values is `iot_data_equal`. -/
inductive IotData
  | int (t : IntTy) (bits : BitVec t.width)
  | float32 (x : Flt)
  | float64 (x : Flt)
  | bool (b : Bool)
  | string (s : String)
  | null
  | binary (bytes : List UInt8)
  | array (elementType : DataType) (xs : List IotData)
  | vector (xs : List IotData)
  | map (entries : List (String × IotData))

namespace IotData

-- The nested occurrences in `array`, `vector` and `map` rule out `deriving`; the
-- three functions recurse along values, lists of values and lists of entries.
mutual

/-- `iot_data_equal`. -/
def equal : IotData → IotData → Bool
  | .int t x, .int u y => decide ((⟨t, x⟩ : Σ t : IntTy, BitVec t.width) = ⟨u, y⟩)
  | .float32 x, .float32 y => decide (x = y)
  | .float64 x, .float64 y => decide (x = y)
  | .bool x, .bool y => decide (x = y)
  | .string x, .string y => decide (x = y)
  | .null, .null => true
  | .binary x, .binary y => decide (x = y)
  | .array t xs, .array u ys => decide (t = u) && equalList xs ys
  | .vector xs, .vector ys => equalList xs ys
  | .map xs, .map ys => equalEntries xs ys
  | _, _ => false

def equalList : List IotData → List IotData → Bool
  | [], [] => true
  | x :: xs, y :: ys => equal x y && equalList xs ys
  | _, _ => false

def equalEntries : List (String × IotData) → List (String × IotData) → Bool
  | [], [] => true
  | (k, x) :: xs, (l, y) :: ys => decide (k = l) && equal x y && equalEntries xs ys
  | _, _ => false

end

mutual

theorem equal_iff : (a b : IotData) → (equal a b = true ↔ a = b)
  | .int _ _, b => by cases b <;> simp [equal]
  | .float32 _, b => by cases b <;> simp [equal]
  | .float64 _, b => by cases b <;> simp [equal]
  | .bool _, b => by cases b <;> simp [equal]
  | .string _, b => by cases b <;> simp [equal]
  | .null, b => by cases b <;> simp [equal]
  | .binary _, b => by cases b <;> simp [equal]
  | .array _ xs, b => by
    cases b with
    | array _ ys => simp [equal, equalList_iff xs ys]
    | _ => simp [equal]
  | .vector xs, b => by
    cases b with
    | vector ys => simp [equal, equalList_iff xs ys]
    | _ => simp [equal]
  | .map xs, b => by
    cases b with
    | map ys => simp [equal, equalEntries_iff xs ys]
    | _ => simp [equal]

theorem equalList_iff : (xs ys : List IotData) → (equalList xs ys = true ↔ xs = ys)
  | [], ys => by cases ys <;> simp [equalList]
  | x :: xs, ys => by
    cases ys with
    | nil => simp [equalList]
    | cons y ys => simp [equalList, equal_iff x y, equalList_iff xs ys]

theorem equalEntries_iff :
    (xs ys : List (String × IotData)) → (equalEntries xs ys = true ↔ xs = ys)
  | [], ys => by cases ys <;> simp [equalEntries]
  | (k, x) :: xs, ys => by
    cases ys with
    | nil => simp [equalEntries]
    | cons y ys =>
      obtain ⟨l, y⟩ := y
      simp [equalEntries, equal_iff x y, equalEntries_iff xs ys]

end

/-- Equality of values is decided by `iot_data_equal`. -/
instance : DecidableEq IotData := fun a b => decidable_of_iff _ (equal_iff a b)

/-- `iot_data_type`. -/
def type : IotData → DataType
  | .int t _ => .int t
  | .float32 _ => .float32
  | .float64 _ => .float64
  | .bool _ => .bool
  | .string _ => .string
  | .null => .null
  | .binary _ => .binary
  | .array _ _ => .array
  | .vector _ => .vector
  | .map _ => .map

/-- `iot_data_typecode`. A map decoded from JSON has string keys and mixed values. -/
def typecode : IotData → TypeCode
  | .array t _ => ⟨.array, t, .invalid⟩
  | .map _ => ⟨.map, .multi, .string⟩
  | .vector _ => ⟨.vector, .multi, .invalid⟩
  | d => .scalar d.type

/-- `iot_data_string_map_get`, on a value that may be absent or no map at all. -/
def stringMapGet (d : Option IotData) (key : String) : Option IotData :=
  match d with
  | some (.map entries) => entries.lookup key
  | _ => none

/-- `iot_data_string_map_get_string`: the entry, when it is a string. -/
def stringMapGetString (d : Option IotData) (key : String) : Option String :=
  match stringMapGet d key with
  | some (.string s) => some s
  | _ => none

/-- `iot_data_string_map_get_bool`: the entry when it is a boolean, else the default. -/
def stringMapGetBool (d : Option IotData) (key : String) (dfl : Bool) : Bool :=
  match stringMapGet d key with
  | some (.bool b) => b
  | _ => dfl

end IotData

end DeviceSdk
