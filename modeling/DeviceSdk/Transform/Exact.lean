import DeviceSdk.Lib.Word
import DeviceSdk.Transform

/-!
# What a transformed reading should have been

The integer branch of `edgex_transform_outgoing` beside the same steps on the integers. The
accumulator is a signed 64-bit word: it holds the exact value up to multiples of `2 ^ 64`, less
what a right shift brings in from a sign that the value did not have.

## Main definitions

- `outgoingExact` — the steps of a reading on the integers
- `signLoss` — what the accumulator loses to a sign that is none
- `Carried` — when the accumulator holds enough of the exact value

## Main results

- `transformOutgoing_exact_iff`
-/

namespace DeviceSdk

/-- The argument of a step, or the given one where the profile does not ask for it. -/
def TransformArg.getD (arg : TransformArg) (d : BitVec 64) : BitVec 64 :=
  if arg.enabled then arg.value else d

theorem TransformArg.apply_eq_getD {α : Type} {f : BitVec 64 → α → α} {d : BitVec 64}
    (hd : ∀ x, f d x = x) (arg : TransformArg) (x : α) : arg.apply f x = f (arg.getD d) x := by
  cases he : arg.enabled <;> simp [TransformArg.apply, TransformArg.getD, he, hd]

theorem TransformArg.apply_off {α : Type} {arg : TransformArg} (h : arg.enabled = false)
    (f : BitVec 64 → α → α) (x : α) : arg.apply f x = x := by
  simp [TransformArg.apply, h]

namespace PropertyValue

/-- The arguments of the integer steps, with one that changes nothing where a step is not asked
    for. -/
def maskD (props : PropertyValue) : BitVec 64 := props.mask.getD (BitVec.allOnes 64)

def shiftD (props : PropertyValue) : BitVec 64 := props.shift.getD 0

def scaleD (props : PropertyValue) : BitVec 64 := props.scale.getD 1

def offsetD (props : PropertyValue) : BitVec 64 := props.offset.getD 0

theorem abs_shiftD_le {props : PropertyValue}
    (h : props.shift.enabled = true → |props.shift.value.toInt| ≤ 63) :
    |props.shiftD.toInt| ≤ 63 := by
  rw [shiftD, TransformArg.getD]
  split
  · next he => exact h he
  · decide

theorem scaleD_ne_zero {props : PropertyValue}
    (h : props.scale.enabled = true → props.scale.value ≠ 0) : props.scaleD ≠ 0 := by
  rw [scaleD, TransformArg.getD]
  split
  · next he => exact h he
  · decide

end PropertyValue

/-- The steps of a reading, where no power is taken. -/
theorem outgoingInt_eq (ops : FloatOps) {props : PropertyValue} (hbase : props.base.enabled = false)
    (x : BitVec 64) :
    outgoingInt ops props x =
      shiftOut props.shiftD (x &&& props.maskD) * props.scaleD + props.offsetD := by
  have hmask (y : BitVec 64) : y &&& BitVec.allOnes 64 = y := BitVec.and_allOnes
  have hshift (y : BitVec 64) : shiftOut 0 y = y := by simp [shiftOut]
  have hscale (y : BitVec 64) : y * 1 = y := BitVec.mul_one y
  have hoffset (y : BitVec 64) : y + 0 = y := BitVec.add_zero y
  rw [outgoingInt, TransformArg.apply_off hbase,
    TransformArg.apply_eq_getD (f := fun m x => x &&& m) hmask,
    TransformArg.apply_eq_getD hshift,
    TransformArg.apply_eq_getD (f := fun s x => x * s) hscale,
    TransformArg.apply_eq_getD (f := fun o x => x + o) hoffset]
  rfl

/-- A shift of an integer by the signed amount `n`, to the left where `n` is negative. -/
def exactShift (n x : ℤ) : ℤ := if n < 0 then x * 2 ^ n.natAbs else x / 2 ^ n.natAbs

/-- The masked value of a reading. -/
def exactMask (props : PropertyValue) (v : ℤ) : ℤ :=
  props.mask.apply (fun m x => Int.land x m.toInt) v

/-- The steps of a reading on the integers, where no power is taken. -/
def outgoingExact (props : PropertyValue) (v : ℤ) : ℤ :=
  let x := exactMask props v
  let x := props.shift.apply (fun n x => exactShift n.toInt x) x
  let x := props.scale.apply (fun s x => x * s.toInt) x
  props.offset.apply (fun o x => x + o.toInt) x

theorem outgoingExact_eq (props : PropertyValue) (v : ℤ) :
    outgoingExact props v =
      exactShift props.shiftD.toInt (exactMask props v) * props.scaleD.toInt +
        props.offsetD.toInt := by
  have hshift (y : ℤ) : exactShift (0 : BitVec 64).toInt y = y := by simp [exactShift]
  have hscale (y : ℤ) : y * (1 : BitVec 64).toInt = y := by simp
  have hoffset (y : ℤ) : y + (0 : BitVec 64).toInt = y := by simp
  rw [outgoingExact, TransformArg.apply_eq_getD (f := fun n x => exactShift n.toInt x) hshift,
    TransformArg.apply_eq_getD (f := fun s x => x * s.toInt) hscale,
    TransformArg.apply_eq_getD (f := fun o x => x + o.toInt) hoffset]
  rfl

namespace IntTy

/-- The value that the bits of an integer type stand for. -/
def toInt (t : IntTy) (bits : BitVec t.width) : ℤ :=
  if t.signed then bits.toInt else bits.toNat

theorem width_le (t : IntTy) : t.width ≤ 64 := by cases t <;> decide

theorem toInt_getLLInt {t : IntTy} (h : t.signed = true) (bits : BitVec t.width) :
    (getLLInt (.int t bits) t).toInt = bits.toInt := by
  rw [getLLInt, if_pos h, BitVec.setWidth_eq]
  exact BitVec.toInt_signExtend_of_le t.width_le

theorem toNat_getLLInt {t : IntTy} (h : t.signed = false) (bits : BitVec t.width) :
    (getLLInt (.int t bits) t).toNat = bits.toNat := by
  rw [getLLInt, if_neg (by simp [h]), BitVec.setWidth_eq, BitVec.toNat_setWidth]
  exact Nat.mod_eq_of_lt (bits.isLt.trans_le (Nat.pow_le_pow_right two_pos t.width_le))

end IntTy

theorem exactMask_toInt (props : PropertyValue) (x : BitVec 64) :
    exactMask props x.toInt = (x &&& props.maskD).toInt := by
  rw [exactMask, PropertyValue.maskD, TransformArg.apply, TransformArg.getD]
  split
  · exact Word.land_toInt x _
  · rw [BitVec.and_allOnes]

theorem exactMask_toNat (props : PropertyValue) (x : BitVec 64) :
    exactMask props x.toNat = (x &&& props.maskD).toNat := by
  rw [exactMask, PropertyValue.maskD, TransformArg.apply, TransformArg.getD]
  split
  · exact Word.land_toNat x _
  · rw [BitVec.and_allOnes]

/-- The accumulator after the mask takes the top bit of an unsigned value for a sign. -/
theorem toInt_masked (props : PropertyValue) (t : IntTy) (bits : BitVec t.width) :
    (getLLInt (.int t bits) t &&& props.maskD).toInt =
      exactMask props (t.toInt bits) -
        if 2 ^ 63 ≤ exactMask props (t.toInt bits) then 2 ^ 64 else 0 := by
  have hlt := (getLLInt (.int t bits) t &&& props.maskD).toInt_lt
  cases hs : t.signed with
  | true =>
    have hv : t.toInt bits = (getLLInt (.int t bits) t).toInt := by
      rw [IntTy.toInt_getLLInt hs, IntTy.toInt, if_pos hs]
    rw [hv, exactMask_toInt, if_neg (not_le.mpr hlt), sub_zero]
  | false =>
    have hv : t.toInt bits = (getLLInt (.int t bits) t).toNat := by
      rw [IntTy.toNat_getLLInt hs, IntTy.toInt, if_neg (by simp [hs])]
    rw [hv, exactMask_toNat, BitVec.toInt_eq_toNat_cond]
    split <;> split <;> omega

/-- What a right shift of the accumulator brings in from a sign that the masked value did not
    have, as it stands after the scale. -/
def signLoss (props : PropertyValue) (v : ℤ) : ℤ :=
  if 2 ^ 63 ≤ exactMask props v ∧ 0 ≤ props.shiftD.toInt then
    2 ^ (64 - props.shiftD.toInt.natAbs) * props.scaleD.toInt
  else 0

theorem toNat_neg_of_slt {n : BitVec 64} (hlo : -63 ≤ n.toInt) (hneg : n.toInt < 0) :
    (-n).toNat = n.toInt.natAbs := by
  have h := BitVec.toInt_eq_toNat_cond n
  rw [BitVec.toNat_neg]
  have hn := n.isLt
  split at h <;> omega

theorem toNat_of_nonneg {n : BitVec 64} (h : 0 ≤ n.toInt) : n.toNat = n.toInt.natAbs := by
  have hc := BitVec.toInt_eq_toNat_cond n
  have hn := n.isLt
  split at hc <;> omega

/-- A shift of the accumulator, less the sign, is that of the value up to multiples of
    `2 ^ 64`. -/
theorem toInt_shiftOut_modEq {n x : BitVec 64} {y : ℤ} (hn : |n.toInt| ≤ 63)
    (hx : x.toInt = y - if 2 ^ 63 ≤ y then 2 ^ 64 else 0) :
    (shiftOut n x).toInt ≡ exactShift n.toInt y -
      (if 2 ^ 63 ≤ y ∧ 0 ≤ n.toInt then 2 ^ (64 - n.toInt.natAbs) else 0) [ZMOD 2 ^ 64] := by
  obtain ⟨hlo, hhi⟩ := abs_le.mp hn
  rw [shiftOut, exactShift]
  by_cases hneg : n.toInt < 0
  · rw [if_pos (by simpa [BitVec.slt] using hneg), if_pos hneg, toNat_neg_of_slt hlo hneg,
      if_neg (by omega), sub_zero]
    refine (Word.toInt_shiftLeft_modEq x _).trans (Int.ModEq.mul_right _ ?_)
    rw [hx]
    split
    · exact (Int.modEq_iff_dvd.mpr ⟨1, by ring⟩)
    · rw [sub_zero]
  · rw [if_neg (by simpa [BitVec.slt] using hneg), if_neg hneg, BitVec.toInt_sshiftRight,
      toNat_of_nonneg (not_lt.mp hneg), Int.shiftRight_eq_div_pow, hx,
      Nat.cast_pow, Nat.cast_ofNat]
    by_cases hy : 2 ^ 63 ≤ y
    · have hpow : (2 : ℤ) ^ 64 = 2 ^ (64 - n.toInt.natAbs) * 2 ^ n.toInt.natAbs := by
        rw [← pow_add, Nat.sub_add_cancel (by omega)]
      rw [if_pos hy, if_pos ⟨hy, not_lt.mp hneg⟩, hpow,
        Int.sub_mul_ediv_right _ _ (by positivity)]
    · rw [if_neg hy, if_neg (by tauto), sub_zero, sub_zero]

/-- The accumulator at the end of a reading. -/
theorem toInt_outgoingInt_modEq (ops : FloatOps) {props : PropertyValue}
    (hbase : props.base.enabled = false) (hshift : |props.shiftD.toInt| ≤ 63) (t : IntTy)
    (bits : BitVec t.width) :
    (outgoingInt ops props (getLLInt (.int t bits) t)).toInt ≡
      outgoingExact props (t.toInt bits) - signLoss props (t.toInt bits) [ZMOD 2 ^ 64] := by
  have hx := toInt_shiftOut_modEq hshift (toInt_masked props t bits)
  have hsum := (Word.toInt_mul_modEq _ props.scaleD).trans (hx.mul_right props.scaleD.toInt)
  have heq : outgoingExact props (t.toInt bits) - signLoss props (t.toInt bits) =
      (exactShift props.shiftD.toInt (exactMask props (t.toInt bits)) -
        if 2 ^ 63 ≤ exactMask props (t.toInt bits) ∧ 0 ≤ props.shiftD.toInt then
          2 ^ (64 - props.shiftD.toInt.natAbs) else 0) * props.scaleD.toInt +
        props.offsetD.toInt := by
    rw [outgoingExact_eq, signLoss]
    split <;> ring
  rw [outgoingInt_eq ops hbase, heq]
  exact (Word.toInt_add_modEq _ _).trans (hsum.add_right _)

namespace IntTy

/-- The integers of a type. -/
def Holds (t : IntTy) (y : ℤ) : Prop := t.minimum ≤ y ∧ y ≤ t.maximum

instance (t : IntTy) (y : ℤ) : Decidable (t.Holds y) := inferInstanceAs (Decidable (_ ∧ _))

end IntTy

/-- The reading that an exact value calls for. -/
def exactReading (t : IntTy) (y : ℤ) : IotData :=
  if t.Holds y then .int t (BitVec.ofInt t.width y) else .string "overflow"

/-- When the accumulator holds enough of the exact value: a value of the type is below `2 ^ 63`
    and lost nothing to a sign; any other does not wrap around into the type. -/
def Carried (props : PropertyValue) (t : IntTy) (v : ℤ) : Prop :=
  if t.Holds (outgoingExact props v) then
    outgoingExact props v < 2 ^ 63 ∧ 2 ^ 64 ∣ signLoss props v
  else
    ∀ y, t.Holds y → y < 2 ^ 63 → ¬y ≡ outgoingExact props v - signLoss props v [ZMOD 2 ^ 64]

theorem IntTy.Holds.lower {t : IntTy} {y : ℤ} (h : t.Holds y) : -2 ^ 63 ≤ y := by
  have hmin : -2 ^ 63 ≤ t.minimum := by cases t <;> decide
  exact hmin.trans h.1

theorem IntTy.toInt_ofInt {t : IntTy} {y : ℤ} (h : t.Holds y) :
    t.toInt (BitVec.ofInt t.width y) = y := by
  cases t <;> simp [IntTy.Holds, IntTy.minimum, IntTy.maximum, IntTy.signed, IntTy.width] at h <;>
    simp [IntTy.toInt, IntTy.signed, IntTy.width, Int.bmod] <;> omega

theorem IntTy.holds_toInt (t : IntTy) (bits : BitVec t.width) : t.Holds (t.toInt bits) := by
  rw [IntTy.Holds, IntTy.toInt, IntTy.minimum, IntTy.maximum]
  cases t.signed with
  | true => exact ⟨bits.le_toInt, Int.le_sub_one_of_lt bits.toInt_lt⟩
  | false =>
    have hlt : (bits.toNat : ℤ) < 2 ^ t.width := by exact_mod_cast bits.isLt
    exact ⟨Int.natCast_nonneg _, Int.le_sub_one_of_lt hlt⟩

theorem IntTy.ofInt_toInt (t : IntTy) (bits : BitVec t.width) :
    BitVec.ofInt t.width (t.toInt bits) = bits := by
  rw [IntTy.toInt]
  split
  · exact BitVec.ofInt_toInt
  · rw [BitVec.ofInt_natCast, BitVec.ofNat_toNat, BitVec.setWidth_eq]

theorem exactReading_eq_iff (t : IntTy) (a e : ℤ) :
    exactReading t a = exactReading t e ↔ if t.Holds e then a = e else ¬t.Holds a := by
  unfold exactReading
  by_cases ha : t.Holds a <;> by_cases he : t.Holds e
  · simp only [if_pos ha, if_pos he, IotData.int.injEq, heq_eq_eq, true_and]
    constructor
    · intro h
      rw [← IntTy.toInt_ofInt ha, h, IntTy.toInt_ofInt he]
    · intro h
      rw [h]
  · simp [ha, he]
  · simp only [if_neg ha, if_pos he, reduceCtorEq, false_iff]
    rintro rfl
    exact ha he
  · simp [ha, he]

theorem setLLInt_of_holds {x : BitVec 64} {t : IntTy} (h : t.Holds x.toInt) :
    setLLInt x t = some (.int t (x.setWidth t.width)) := if_pos h

theorem setLLInt_of_not_holds {x : BitVec 64} {t : IntTy} (h : ¬t.Holds x.toInt) :
    setLLInt x t = none := if_neg h

theorem transformOutgoing_int (ops : FloatOps) {props : PropertyValue}
    (hon : transformsOn props = true) (t : IntTy) (bits : BitVec t.width)
    (mappings : Option IotData) :
    transformOutgoing ops (.int t bits) props mappings =
      exactReading t (outgoingInt ops props (getLLInt (.int t bits) t)).toInt := by
  rw [transformOutgoing, if_pos hon, exactReading, Word.ofInt_toInt_eq_setWidth t.width_le]
  by_cases h : t.Holds (outgoingInt ops props (getLLInt (.int t bits) t)).toInt
  · rw [setLLInt_of_holds h, if_pos h, Option.getD_some]
  · rw [setLLInt_of_not_holds h, if_neg h, Option.getD_none]

theorem outgoingExact_off {props : PropertyValue} (hoff : transformsOn props = false) (v : ℤ) :
    outgoingExact props v = v := by
  simp only [transformsOn, Bool.or_eq_false_iff] at hoff
  simp [outgoingExact, exactMask, TransformArg.apply, hoff]

/-- An accumulator that agrees with the exact value up to the loss gives the reading it calls for
    exactly where it holds enough of it. -/
theorem exactReading_accumulator_iff {props : PropertyValue} {t : IntTy} {v : ℤ} {x : BitVec 64}
    (hx : x.toInt ≡ outgoingExact props v - signLoss props v [ZMOD 2 ^ 64]) :
    exactReading t x.toInt = exactReading t (outgoingExact props v) ↔ Carried props t v := by
  rw [exactReading_eq_iff, Carried]
  split
  · next he =>
    constructor
    · intro h
      refine ⟨h ▸ x.toInt_lt, ?_⟩
      rw [h] at hx
      simpa using hx.symm.dvd
    · rintro ⟨hlt, hloss⟩
      refine Word.toInt_eq_of_modEq (by decide) (hx.trans ?_) ⟨he.lower, hlt⟩
      exact Int.modEq_iff_dvd.mpr (by simpa using hloss)
  · constructor
    · intro ha y hy hlt hmod
      have hxy : x.toInt = y :=
        Word.toInt_eq_of_modEq (by decide) (hx.trans hmod.symm) ⟨hy.lower, hlt⟩
      exact ha (hxy ▸ hy)
    · intro h ha
      exact h x.toInt ha x.toInt_lt hx

/-- A reading is the exact value, or the text where that is none of the type, exactly where no
    transformation is asked for or the accumulator holds enough of the exact value. -/
theorem transformOutgoing_exact_iff (ops : FloatOps) (props : PropertyValue) (t : IntTy)
    (bits : BitVec t.width) (mappings : Option IotData) (hbase : props.base.enabled = false)
    (hshift : props.shift.enabled = true → |props.shift.value.toInt| ≤ 63) :
    transformOutgoing ops (.int t bits) props mappings =
        exactReading t (outgoingExact props (t.toInt bits)) ↔
      transformsOn props = false ∨ Carried props t (t.toInt bits) := by
  cases hon : transformsOn props with
  | false =>
    rw [outgoingExact_off hon, exactReading, if_pos (t.holds_toInt bits), t.ofInt_toInt,
      transformOutgoing, if_neg (by simp [hon])]
    simp
  | true =>
    have hacc := toInt_outgoingInt_modEq ops hbase (PropertyValue.abs_shiftD_le hshift) t bits
    rw [transformOutgoing_int ops hon, exactReading_accumulator_iff hacc]
    simp

/-- Arithmetic on rational numbers, for which no rounding is needed. -/
def exactFloats : FloatOps where
  ofBits := fun _ => .nan
  ofInt := fun x => .finite x.toInt
  toInt := fun
    | .finite q => BitVec.ofInt 64 (q.num.tdiv q.den)
    | _ => 0
  add := fun
    | .finite p, .finite q => .finite (p + q)
    | _, _ => .nan
  sub := fun
    | .finite p, .finite q => .finite (p - q)
    | _, _ => .nan
  mul := fun
    | .finite p, .finite q => .finite (p * q)
    | _, _ => .nan
  div := fun
    | .finite p, .finite q => if q = 0 then .nan else .finite (p / q)
    | _, _ => .nan
  pow := fun
    | .finite p, .finite q => if q.den = 1 then .finite (p ^ q.num) else .nan
    | _, _ => .nan
  log := fun _ => .nan
  llround := fun
    | .finite q => BitVec.ofInt 64 (round q)
    | _ => 0
  f32 := id
  f64 := id

/-- A reading of a temperature in steps of a half, from -20 on. -/
def scaledProps (t : IntTy) : PropertyValue where
  type := .scalar (.int t)
  scale := ⟨true, 2⟩
  offset := ⟨true, BitVec.ofInt 64 (-20)⟩

theorem transformOutgoing_exact_five :
    transformOutgoing exactFloats (.int .int8 5) (scaledProps .int8) none =
      exactReading .int8 (outgoingExact (scaledProps .int8) 5) := by
  have h := transformOutgoing_exact_iff exactFloats (scaledProps .int8) .int8 5 none rfl (by decide)
  exact h.mpr (.inr ⟨by decide, by decide⟩)

/-- An unsigned 64-bit integer from `2 ^ 63` on is of the type, and is an overflow even where
    nothing is added to it. -/
theorem transformOutgoing_not_exact :
    ¬∀ (ops : FloatOps) (props : PropertyValue) (t : IntTy) (bits : BitVec t.width)
      (mappings : Option IotData), props.base.enabled = false →
      (props.shift.enabled = true → |props.shift.value.toInt| ≤ 63) →
      transformOutgoing ops (.int t bits) props mappings =
        exactReading t (outgoingExact props (t.toInt bits)) := by
  intro h
  have h63 := h exactFloats { type := .scalar (.int .uint64), offset := ⟨true, 0⟩ } .uint64
    (BitVec.ofNat 64 (2 ^ 63)) none rfl (by decide)
  exact absurd h63 (by decide)

end DeviceSdk
