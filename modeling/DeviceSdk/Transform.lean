import DeviceSdk.Iot.Codec
import DeviceSdk.Types

/-!
# Transformations of readings and of values to be written

`transform.c`. Integers are transformed as `long long int`, with the wrap-around of
two's complement; floating point values as `long double`.

## Main definitions

- `getLLInt`, `setLLInt` — between values of the integer types and 64-bit integers
- `transformOutgoing`, `transformIncoming`, `transformValidate`

## Main results

- `transformIncoming_type` — a transformed value keeps the type of its resource
-/

namespace DeviceSdk

/-- `transformsOn`. -/
def transformsOn (pv : PropertyValue) : Bool :=
  pv.offset.enabled || pv.scale.enabled || pv.base.enabled || pv.shift.enabled || pv.mask.enabled

namespace IntTy

/-- The least and the greatest value of an integer type. -/
def minimum (t : IntTy) : ℤ := if t.signed then -2 ^ (t.width - 1) else 0

def maximum (t : IntTy) : ℤ := if t.signed then 2 ^ (t.width - 1) - 1 else 2 ^ t.width - 1

end IntTy

/-- `getLLInt`, on a value of type `t`. -/
def getLLInt (value : IotData) (t : IntTy) : BitVec 64 :=
  match value with
  | .int _ bits =>
    if t.signed then (bits.setWidth t.width).signExtend 64 else (bits.setWidth t.width).setWidth 64
  | _ => 0

/-- `setLLInt`: nothing where the value is out of the range of the type. An unsigned
    64-bit integer is compared as the signed one it was computed as. -/
def setLLInt (llival : BitVec 64) (t : IntTy) : Option IotData :=
  if t.minimum ≤ llival.toInt ∧ llival.toInt ≤ t.maximum then
    some (.int t (llival.setWidth t.width))
  else none

/-- `getLongDouble`. -/
def getLongDouble : IotData → Flt
  | .float64 x => x
  | .float32 x => x
  | _ => .nan

variable (ops : FloatOps)

/-- `setLongDouble`, for a double and for a float. -/
def setLongDouble (ldval : Flt) (double : Bool) : Option IotData :=
  if double then
    if ldval.le Flt.dblMax && Flt.dblMax.neg.le ldval then some (.float64 (ops.f64 ldval)) else none
  else
    if ldval.le Flt.fltMax && Flt.fltMax.neg.le ldval then some (.float32 (ops.f32 ldval)) else none

/-- Apply a step of a transformation, where the profile asks for it. -/
def TransformArg.apply {α : Type} (arg : TransformArg) (f : BitVec 64 → α → α) (x : α) : α :=
  if arg.enabled then f arg.value x else x

/-- A shift by the signed amount `n`, to the left where `n` is negative. -/
def shiftOut (n x : BitVec 64) : BitVec 64 :=
  if n.slt 0 then x <<< (-n).toNat else x.sshiftRight n.toNat

/-- A shift by the signed amount `n`, to the right where `n` is negative. -/
def shiftIn (n x : BitVec 64) : BitVec 64 :=
  if n.slt 0 then x.sshiftRight (-n).toNat else x <<< n.toNat

/-- The integer branch of `edgex_transform_outgoing`. -/
def outgoingInt (props : PropertyValue) (x : BitVec 64) : BitVec 64 :=
  let x := props.mask.apply (fun m x => x &&& m) x
  let x := props.shift.apply shiftOut x
  let x := props.base.apply (fun b x => ops.toInt (ops.pow (ops.ofInt b) (ops.ofInt x))) x
  let x := props.scale.apply (fun s x => x * s) x
  props.offset.apply (fun o x => x + o) x

/-- The floating point branch of `edgex_transform_outgoing`. -/
def outgoingFloat (props : PropertyValue) (x : Flt) : Flt :=
  let x := props.base.apply (fun b x => ops.pow (ops.ofBits b) x) x
  let x := props.scale.apply (fun s x => ops.mul x (ops.ofBits s)) x
  props.offset.apply (fun o x => ops.add x (ops.ofBits o)) x

/-- `edgex_transform_outgoing`. The type that counts is that of the reading. -/
def transformOutgoing (value : IotData) (props : PropertyValue) (mappings : Option IotData) :
    IotData :=
  match value with
  | .float32 x =>
    if transformsOn props && x.isFinite then
      (setLongDouble ops (outgoingFloat ops props x) false).getD (.string "overflow")
    else value
  | .float64 x =>
    if transformsOn props && x.isFinite then
      (setLongDouble ops (outgoingFloat ops props x) true).getD (.string "overflow")
    else value
  | .int t _ =>
    if transformsOn props then
      (setLLInt (outgoingInt ops props (getLLInt value t)) t).getD (.string "overflow")
    else value
  | .string s =>
    match mappings with
    | some (.map entries) => (entries.lookup s).getD value
    | _ => value
  | _ => value

/-- The integer branch of `edgex_transform_incoming`. -/
def incomingInt (props : PropertyValue) (x : BitVec 64) : BitVec 64 :=
  let x := props.offset.apply (fun o x => x - o) x
  let x := props.scale.apply (fun s x => x.sdiv s) x
  let x := props.base.apply
    (fun b x => ops.llround (ops.div (ops.log (ops.ofInt x)) (ops.log (ops.ofInt b)))) x
  let x := props.shift.apply shiftIn x
  props.mask.apply (fun m x => x &&& m) x

/-- The floating point branch of `edgex_transform_incoming`. -/
def incomingFloat (props : PropertyValue) (x : Flt) : Flt :=
  let x := props.offset.apply (fun o x => ops.sub x (ops.ofBits o)) x
  let x := props.scale.apply (fun s x => ops.div x (ops.ofBits s)) x
  props.base.apply (fun b x => ops.div (ops.log x) (ops.log (ops.ofBits b))) x

/-- The search of `edgex_transform_incoming` through the mappings: the first key whose
    value is the text. -/
def mappedKey (s : String) : List (String × IotData) → Option String
  | [] => none
  | (k, v) :: es => if v = .string s then some k else mappedKey s es

/-- The string branch of `edgex_transform_incoming`. -/
def incomingString (value : IotData) (mappings : Option IotData) : IotData :=
  match value, mappings with
  | .string s, some (.map entries) => ((mappedKey s entries).map .string).getD value
  | _, _ => value

/-- `edgex_transform_incoming`. The type that counts is that of the resource. -/
def transformIncoming (value : IotData) (props : PropertyValue) (mappings : Option IotData) :
    Option IotData :=
  match props.type.type with
  | .float32 =>
    if transformsOn props && (getLongDouble value).isFinite then
      setLongDouble ops (incomingFloat ops props (getLongDouble value)) false
    else some value
  | .float64 =>
    if transformsOn props && (getLongDouble value).isFinite then
      setLongDouble ops (incomingFloat ops props (getLongDouble value)) true
    else some value
  | .int t =>
    if transformsOn props then setLLInt (incomingInt ops props (getLLInt value t)) t
    else some value
  | .string => some (incomingString value mappings)
  | _ => some value

/-- `edgex_transform_validate`. -/
def transformValidate (val : IotData) (props : PropertyValue) : Bool :=
  match props.type.type with
  | .float32 | .float64 =>
    let x := getLongDouble val
    (!props.maximum.enabled || x.le (ops.ofBits props.maximum.value)) &&
      (!props.minimum.enabled || (ops.ofBits props.minimum.value).le x)
  | .int t =>
    let x := getLLInt val t
    (!props.maximum.enabled || x.sle props.maximum.value) &&
      (!props.minimum.enabled || props.minimum.value.sle x)
  | _ => true

theorem setLongDouble_type {ldval : Flt} {double : Bool} {v : IotData}
    (h : setLongDouble ops ldval double = some v) :
    v.type = if double then .float64 else .float32 := by
  rw [setLongDouble] at h
  split at h
  · next hd =>
    split at h
    · obtain rfl := Option.some.inj h
      simp [hd, IotData.type]
    · cases h
  · next hd =>
    split at h
    · obtain rfl := Option.some.inj h
      simp [hd, IotData.type]
    · cases h

theorem setLLInt_type {llival : BitVec 64} {t : IntTy} {v : IotData}
    (h : setLLInt llival t = some v) : v.type = .int t := by
  rw [setLLInt] at h
  split at h
  · obtain rfl := Option.some.inj h
    rfl
  · cases h

theorem incomingString_type {value : IotData} (hv : value.type = .string)
    (mappings : Option IotData) : (incomingString value mappings).type = .string := by
  unfold incomingString
  split
  · next s entries =>
    cases mappedKey s entries <;> rfl
  · exact hv

/-- What a value is transformed to has the type of the resource, if the value had it. -/
theorem transformIncoming_type {value v : IotData} {props : PropertyValue}
    {mappings : Option IotData} (hv : value.type = props.type.type)
    (h : transformIncoming ops value props mappings = some v) : v.type = props.type.type := by
  have hsame : some value = some v → v.type = props.type.type := by
    intro he
    rw [← Option.some.inj he]
    exact hv
  unfold transformIncoming at h
  split at h
  · next ht =>
    split at h
    · rw [setLongDouble_type ops h, ht]
      rfl
    · exact hsame h
  · next ht =>
    split at h
    · rw [setLongDouble_type ops h, ht]
      rfl
    · exact hsame h
  · next t ht =>
    split at h
    · rw [setLLInt_type h, ht]
    · exact hsame h
  · next ht =>
    rw [← Option.some.inj h, ht]
    exact incomingString_type (hv.trans ht) mappings
  · exact hsame h

end DeviceSdk
