import DeviceSdk.Profile.Read
import DeviceSdk.Transform.Bitfield

/-!
# Arithmetic that C leaves undefined

The integer branch of `edgex_transform_incoming` once more, with the operations as C defines
them: each may have no result at all. Where all of them have one the branch computes what the
model with wrap-around says.

## Main definitions

- `incomingIntC`, `transformIncomingC`
- `Transformable` — the arguments for which a value has a defined transformation

## Main results

- `transformIncomingC_eq_ok` — what a defined transformation gives
- `transformIncoming_defined_iff`
-/

namespace DeviceSdk

open Word

/-- Apply a step that may have no result, where the profile asks for it. -/
def TransformArg.applyC (arg : TransformArg) (f : BitVec 64 → BitVec 64 → Except Fault (BitVec 64))
    (x : BitVec 64) : Except Fault (BitVec 64) :=
  if arg.enabled then f arg.value x else .ok x

/-- The shift of `edgex_transform_incoming`. -/
def shiftInC (n x : BitVec 64) : Except Fault (BitVec 64) :=
  if n.slt 0 then negC n >>= sarC x else shlC x n

variable (ops : FloatOps)

/-- The integer branch of `edgex_transform_incoming`. -/
def incomingIntC (props : PropertyValue) (x : BitVec 64) : Except Fault (BitVec 64) := do
  let x ← props.offset.applyC (fun o x => subC x o) x
  let x ← props.scale.applyC (fun s x => sdivC x s) x
  let x := props.base.apply
    (fun b x => ops.llround (ops.div (ops.log (ops.ofInt x)) (ops.log (ops.ofInt b)))) x
  let x ← props.shift.applyC shiftInC x
  return props.mask.apply (fun m x => x &&& m) x

/-- `edgex_transform_incoming`. Only its integer branch has operations without a result. -/
def transformIncomingC (value : IotData) (props : PropertyValue) (mappings : Option IotData) :
    Except Fault (Option IotData) :=
  match props.type.type with
  | .int t =>
    if transformsOn props then
      (incomingIntC ops props (getLLInt value t)).map fun llival => setLLInt llival t
    else .ok (some value)
  | _ => .ok (transformIncoming ops value props mappings)

/-- The arguments for which a value has a defined transformation, with `v` the value as the
    accumulator holds it. -/
structure Transformable (props : PropertyValue) (v : ℤ) : Prop where
  difference : Fits 64 (v - props.offsetD.toInt)
  divisor : props.scaleD ≠ 0
  quotient : ¬(v - props.offsetD.toInt = -2 ^ 63 ∧ props.scaleD.toInt = -1)
  shift : |props.shiftD.toInt| ≤ 63

theorem TransformArg.applyC_eq_getD {f : BitVec 64 → BitVec 64 → Except Fault (BitVec 64)}
    {d : BitVec 64} (hd : ∀ x, f d x = .ok x) (arg : TransformArg) (x : BitVec 64) :
    arg.applyC f x = f (arg.getD d) x := by
  cases he : arg.enabled <;> simp [TransformArg.applyC, TransformArg.getD, he, hd]

theorem shiftInC_eq_ok {n x r : BitVec 64} :
    shiftInC n x = .ok r ↔ |n.toInt| ≤ 63 ∧ shiftIn n x = r := by
  rw [shiftInC, shiftIn, abs_le]
  have hlo := n.le_toInt
  have hhi := n.toInt_lt
  by_cases hneg : n.toInt < 0
  · have hslt : n.slt 0 = true := by simpa [BitVec.slt] using hneg
    have hminus (hfit : Fits 64 (-n.toInt)) : (-n).toInt = -n.toInt := by
      rw [← BitVec.zero_sub]
      simpa using toInt_sub_of_fits (x := 0#64) (y := n) (by decide) (by simpa using hfit)
    rw [if_pos hslt, if_pos hslt, bind_eq_ok]
    constructor
    · rintro ⟨k, hk, hr⟩
      obtain ⟨hfit, rfl⟩ := negC_eq_ok.mp hk
      obtain ⟨hrange, rfl⟩ := sarC_eq_ok.mp hr
      rw [hminus hfit] at hrange
      exact ⟨by omega, rfl⟩
    · rintro ⟨hrange, rfl⟩
      have hfit : Fits 64 (-n.toInt) := ⟨by omega, by omega⟩
      refine ⟨-n, negC_eq_ok.mpr ⟨hfit, rfl⟩, sarC_eq_ok.mpr ⟨?_, rfl⟩⟩
      rw [hminus hfit]
      omega
  · have hslt : ¬n.slt 0 = true := by simpa [BitVec.slt] using hneg
    rw [if_neg hslt, if_neg hslt, shlC_eq_ok]
    have hiff : (0 ≤ n.toInt ∧ n.toInt < (64 : ℕ)) ↔ (-63 ≤ n.toInt ∧ n.toInt ≤ 63) := by omega
    rw [hiff]

/-- The steps of a value to be written have a result exactly for the arguments above, and then it
    is that of the model with wrap-around. -/
theorem incomingIntC_eq_ok {props : PropertyValue} (hbase : props.base.enabled = false)
    {x r : BitVec 64} :
    incomingIntC ops props x = .ok r ↔
      Transformable props x.toInt ∧ incomingInt ops props x = r := by
  have hsub (y : BitVec 64) : subC y 0 = .ok y := subC_eq_ok.mpr ⟨by simp [fits_toInt], by simp⟩
  have hdiv (y : BitVec 64) : sdivC y 1 = .ok y :=
    sdivC_eq_ok.mpr ⟨by decide, by simp [fits_toInt], BitVec.sdiv_one⟩
  have hshift (y : BitVec 64) : shiftInC 0 y = .ok y :=
    shiftInC_eq_ok.mpr ⟨by decide, by simp [shiftIn]⟩
  have hmask (y : BitVec 64) : y &&& BitVec.allOnes 64 = y := BitVec.and_allOnes
  rw [incomingIntC, incomingInt_eq ops hbase]
  simp only [TransformArg.apply_off hbase,
    TransformArg.applyC_eq_getD (f := fun o x => subC x o) hsub,
    TransformArg.applyC_eq_getD (f := fun s x => sdivC x s) hdiv,
    TransformArg.applyC_eq_getD hshift,
    TransformArg.apply_eq_getD (f := fun m x => x &&& m) hmask, bind_eq_ok]
  constructor
  · rintro ⟨a, ha, b, hb, c, hc, hr⟩
    obtain ⟨hfit, rfl⟩ := subC_eq_ok.mp ha
    obtain ⟨hne, hquot, rfl⟩ := sdivC_eq_ok.mp hb
    obtain ⟨hle, rfl⟩ := shiftInC_eq_ok.mp hc
    rw [toInt_sub_of_fits (by decide) hfit] at hquot
    exact ⟨⟨hfit, hne, (fits_tdiv_iff hfit).mp hquot, hle⟩, Except.ok.inj hr⟩
  · rintro ⟨⟨hfit, hne, hquot, hle⟩, rfl⟩
    refine ⟨_, subC_eq_ok.mpr ⟨hfit, rfl⟩, _, sdivC_eq_ok.mpr ⟨hne, ?_, rfl⟩, _,
      shiftInC_eq_ok.mpr ⟨hle, rfl⟩, rfl⟩
    change Fits 64 ((x - props.offsetD).toInt.tdiv props.scaleD.toInt)
    rw [toInt_sub_of_fits (by decide) hfit]
    exact (fits_tdiv_iff hfit).mpr hquot

theorem map_eq_ok {α β : Type} {x : Except Fault α} {f : α → β} {r : β} :
    x.map f = .ok r ↔ ∃ a, x = .ok a ∧ f a = r := by
  cases x <;> simp [Except.map]

theorem transformable_off {props : PropertyValue} (hoff : transformsOn props = false)
    (x : BitVec 64) : Transformable props x.toInt := by
  simp only [transformsOn, Bool.or_eq_false_iff] at hoff
  constructor <;>
    simp [PropertyValue.offsetD, PropertyValue.scaleD, PropertyValue.shiftD, TransformArg.getD,
      hoff, fits_toInt]

/-- A defined transformation of a value of an integer resource is that of the model with
    wrap-around, and the arguments above are those for which it is defined. -/
theorem transformIncomingC_eq_ok {props : PropertyValue} {t : IntTy}
    (htype : props.type.type = .int t) (hbase : props.base.enabled = false) {value : IotData}
    {mappings r : Option IotData} :
    transformIncomingC ops value props mappings = .ok r ↔
      Transformable props (getLLInt value t).toInt ∧
        transformIncoming ops value props mappings = r := by
  simp only [transformIncomingC, transformIncoming, htype]
  cases hon : transformsOn props with
  | false => simp [transformable_off hon]
  | true =>
    simp only [if_true, map_eq_ok, incomingIntC_eq_ok ops hbase]
    constructor
    · rintro ⟨a, ⟨h, rfl⟩, hr⟩
      exact ⟨h, hr⟩
    · rintro ⟨h, hr⟩
      exact ⟨_, ⟨h, rfl⟩, hr⟩

/-- Of the integer resources of a profile, those without a base: the transformation of a value to
    be written is defined exactly for the arguments above, and then ends in a value or in the
    overflow that is reported. -/
theorem transformIncoming_defined_iff (c : NumberCast) (doc : IotData) :
    ∀ prof, profileRead c doc = some prof → ∀ devres ∈ prof.deviceResources, ∀ t,
      devres.properties.type.type = .int t → devres.properties.base.enabled = false →
      ∀ (bits : BitVec t.width) (mappings : Option IotData),
      ((∃ r, transformIncomingC ops (.int t bits) devres.properties mappings = .ok r) ↔
        Transformable devres.properties (getLLInt (.int t bits) t).toInt) ∧
      ∀ r, transformIncomingC ops (.int t bits) devres.properties mappings = .ok r →
        r = transformIncoming ops (.int t bits) devres.properties mappings := by
  intro prof _ devres _ t htype hbase bits mappings
  have hok (r : Option IotData) :
      transformIncomingC ops (.int t bits) devres.properties mappings = .ok r ↔ _ :=
    transformIncomingC_eq_ok ops htype hbase
  refine ⟨⟨?_, ?_⟩, ?_⟩
  · rintro ⟨r, h⟩
    exact ((hok r).mp h).1
  · intro h
    exact ⟨_, (hok _).mpr ⟨h, rfl⟩⟩
  · intro r h
    exact ((hok r).mp h).2.symm

/-- Integers as they are, which is what the library makes of them. -/
def integerCast : NumberCast where
  int64 := fun
    | .int .int64 bits => some bits
    | .int t bits => some (getLLInt (.int t bits) t)
    | _ => none
  float64 := fun _ => none

/-- A profile of one integer resource that asks for a scale. -/
def scaledProfile (scale : BitVec 64) : IotData :=
  .map [("deviceCommands", .vector []),
    ("deviceResources", .vector [.map [("name", .string "Level"),
      ("properties", .map [("scale", .int .int64 scale), ("valueType", .string "Int32")])]]),
    ("name", .string "Tank")]

/-- The resource that it is read as. -/
def scaledResource (scale : BitVec 64) : DeviceResource where
  name := "Level"
  properties := { type := .scalar (.int .int32), scale := ⟨true, scale⟩ }

theorem scaledProfile_read (scale : BitVec 64) :
    ∃ prof, profileRead integerCast (scaledProfile scale) = some prof ∧
      prof.deviceResources = [scaledResource scale] :=
  ⟨_, rfl, rfl⟩

theorem transformIncoming_defined_half :
    ∃ r, transformIncomingC exactFloats (.int .int32 10) (scaledResource 2).properties none =
      .ok r := by
  obtain ⟨prof, hprof, hres⟩ := scaledProfile_read 2
  have h := transformIncoming_defined_iff exactFloats integerCast (scaledProfile 2) prof hprof
    (scaledResource 2) (by simp [hres]) .int32 rfl rfl 10 none
  exact h.1.mpr ⟨by decide, by decide, by decide, by decide⟩

/-- A scale of zero is read as one, and divided by. -/
theorem transformIncoming_not_defined :
    ¬∀ (ops : FloatOps) (c : NumberCast) (doc : IotData) (prof : DeviceProfile),
      profileRead c doc = some prof → ∀ devres ∈ prof.deviceResources, ∀ t,
      devres.properties.type.type = .int t → devres.properties.base.enabled = false →
      ∀ (bits : BitVec t.width) (mappings : Option IotData),
        ∃ r, transformIncomingC ops (.int t bits) devres.properties mappings = .ok r := by
  intro h
  obtain ⟨prof, hprof, hres⟩ := scaledProfile_read 0
  obtain ⟨r, hr⟩ := h exactFloats integerCast (scaledProfile 0) prof hprof (scaledResource 0)
    (by simp [hres]) .int32 rfl rfl 10 none
  have hne := ((transformIncomingC_eq_ok exactFloats rfl rfl).mp hr).1.divisor
  exact absurd hne (by decide)

end DeviceSdk
