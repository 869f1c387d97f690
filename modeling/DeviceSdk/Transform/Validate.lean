import DeviceSdk.Transform.Exact

/-!
# Limits of the values to be written

`edgex_transform_validate` compares an integer with its limits as `long long int`, whatever the
type. An unsigned 64-bit integer from `2 ^ 63` on is compared as the negative integer of its bits.

## Main definitions

- `WithinLimits` — the integers that the limits of a resource admit

## Main results

- `transformValidate_int` — what is compared with the limits
- `transformValidate_iff`
-/

namespace DeviceSdk

/-- Neither above an enabled maximum nor below an enabled minimum. -/
def WithinLimits (props : PropertyValue) (v : ℤ) : Prop :=
  (props.maximum.enabled = true → v ≤ props.maximum.value.toInt) ∧
    (props.minimum.enabled = true → props.minimum.value.toInt ≤ v)

/-- The comparison is one of 64-bit words. -/
theorem transformValidate_int (ops : FloatOps) {props : PropertyValue} {t : IntTy}
    (ht : props.type.type = .int t) (bits : BitVec t.width) :
    transformValidate ops (.int t bits) props = true ↔
      WithinLimits props (getLLInt (.int t bits) t).toInt := by
  rw [transformValidate, ht, WithinLimits]
  simp only [Bool.and_eq_true, Bool.or_eq_true, Bool.not_eq_true', BitVec.sle_iff_toInt_le]
  cases props.maximum.enabled <;> cases props.minimum.enabled <;> simp

/-- The word of a value is the value, less `2 ^ 64` where it takes the top bit for a sign. -/
theorem toInt_getLLInt_eq (t : IntTy) (bits : BitVec t.width) :
    (getLLInt (.int t bits) t).toInt =
      t.toInt bits - if 2 ^ 63 ≤ t.toInt bits then 2 ^ 64 else 0 := by
  have hmasked := toInt_masked { type := .scalar (.int t) } t bits
  have hmask : ({ type := .scalar (.int t) } : PropertyValue).maskD = BitVec.allOnes 64 := rfl
  rw [hmask, BitVec.and_allOnes, exactMask, TransformArg.apply_off rfl] at hmasked
  exact hmasked

/-- No minimum is above a value from `2 ^ 63` on, and every maximum is below it. -/
theorem withinLimits_large {props : PropertyValue} {v : ℤ} (h : 2 ^ 63 ≤ v) :
    WithinLimits props v ↔ props.maximum.enabled = false := by
  have hmax := props.maximum.value.toInt_lt
  have hmin := props.minimum.value.toInt_lt
  rw [WithinLimits]
  constructor
  · rintro ⟨hle, -⟩
    cases he : props.maximum.enabled with
    | false => rfl
    | true => exact absurd (hle he) (by omega)
  · intro he
    exact ⟨by simp [he], fun _ => by omega⟩

/-- The limits are enforced exactly on the values below `2 ^ 63`, and on those whose negative
    counterpart passes or fails as they do: it is out of the limits where there is a maximum, and
    not below the minimum where there is none. -/
theorem transformValidate_iff (ops : FloatOps) (props : PropertyValue) (t : IntTy)
    (ht : props.type.type = .int t) (bits : BitVec t.width) :
    (transformValidate ops (.int t bits) props = true ↔ WithinLimits props (t.toInt bits)) ↔
      t.toInt bits < 2 ^ 63 ∨
      (props.maximum.enabled = true ∧
        (props.maximum.value.toInt < t.toInt bits - 2 ^ 64 ∨
          (props.minimum.enabled = true ∧
            t.toInt bits - 2 ^ 64 < props.minimum.value.toInt))) ∨
      (props.maximum.enabled = false ∧
        (props.minimum.enabled = true →
          props.minimum.value.toInt ≤ t.toInt bits - 2 ^ 64)) := by
  rw [transformValidate_int ops ht, toInt_getLLInt_eq]
  generalize t.toInt bits = v
  by_cases hv : 2 ^ 63 ≤ v
  · rw [if_pos hv, withinLimits_large hv, WithinLimits]
    cases props.maximum.enabled <;> cases props.minimum.enabled <;>
      simp <;> omega
  · rw [if_neg hv, sub_zero]
    exact iff_of_true Iff.rfl (.inl (not_le.mp hv))

/-- An unsigned 64-bit integer that may be at most 100. -/
def limitedProps : PropertyValue where
  type := .scalar (.int .uint64)
  maximum := ⟨true, 100⟩

theorem transformValidate_iff_small :
    transformValidate exactFloats (.int .uint64 7) limitedProps = true ↔
      WithinLimits limitedProps (IntTy.uint64.toInt 7) :=
  (transformValidate_iff exactFloats limitedProps .uint64 rfl 7).mpr (.inl (by decide))

/-- `2 ^ 63` is compared as `-2 ^ 63`, and is not above 100. -/
theorem transformValidate_not_exact :
    ¬∀ (ops : FloatOps) (props : PropertyValue) (t : IntTy), props.type.type = .int t →
      ∀ bits : BitVec t.width,
        (transformValidate ops (.int t bits) props = true ↔ WithinLimits props (t.toInt bits)) := by
  intro h
  have hlarge := h exactFloats limitedProps .uint64 rfl (BitVec.ofNat 64 (2 ^ 63))
  have hle := (hlarge.mp (by decide)).1 rfl
  exact absurd hle (by decide)

end DeviceSdk
