import DeviceSdk.CmdInfo
import DeviceSdk.Transform.Exact

/-!
# Fields of a register

A resource with a mask and a shift names some of the bits of a register. A reading takes them
out; a value to be written is put back by the driver, which keeps the other bits of the register
with the mask it is handed.

## Main definitions

- `merge` — what the driver leaves in the register
- `StepsFit` — no step of a reading leaves the 64 bits

## Main results

- `shiftOut_field` — a field put back is read as it was
- `bitfield_write_read`
-/

namespace DeviceSdk

/-- The steps of a value to be written, where no logarithm is taken. -/
theorem incomingInt_eq (ops : FloatOps) {props : PropertyValue} (hbase : props.base.enabled = false)
    (x : BitVec 64) :
    incomingInt ops props x =
      shiftIn props.shiftD ((x - props.offsetD).sdiv props.scaleD) &&& props.maskD := by
  have hoffset (y : BitVec 64) : y - 0 = y := BitVec.sub_zero y
  have hscale (y : BitVec 64) : y.sdiv 1 = y := BitVec.sdiv_one
  have hshift (y : BitVec 64) : shiftIn 0 y = y := by simp [shiftIn]
  have hmask (y : BitVec 64) : y &&& BitVec.allOnes 64 = y := BitVec.and_allOnes
  rw [incomingInt, TransformArg.apply_off hbase,
    TransformArg.apply_eq_getD (f := fun m x => x &&& m) hmask,
    TransformArg.apply_eq_getD hshift,
    TransformArg.apply_eq_getD (f := fun s x => BitVec.sdiv x s) hscale,
    TransformArg.apply_eq_getD (f := fun o x => x - o) hoffset]
  rfl

/-- No step of a reading leaves the signed 64-bit integers. -/
structure StepsFit (props : PropertyValue) (v : ℤ) : Prop where
  shifted : Word.Fits 64 (exactShift props.shiftD.toInt (exactMask props v))
  scaled : Word.Fits 64 (exactShift props.shiftD.toInt (exactMask props v) * props.scaleD.toInt)
  added : Word.Fits 64 (outgoingExact props v)

/-- What a driver leaves in a register: the bits that the mask of the request keeps, and those of
    the value. -/
def merge {w : ℕ} (reqmask : BitVec 64) (r x : BitVec w) : BitVec w :=
  (r &&& reqmask.setWidth w) ||| x

theorem shiftOut_of_neg {n : BitVec 64} (hlo : -63 ≤ n.toInt) (hneg : n.toInt < 0)
    (x : BitVec 64) : shiftOut n x = x <<< n.toInt.natAbs := by
  rw [shiftOut, if_pos (by simpa [BitVec.slt] using hneg), toNat_neg_of_slt hlo hneg]

theorem shiftOut_of_nonneg {n : BitVec 64} (h : 0 ≤ n.toInt) (x : BitVec 64) :
    shiftOut n x = x.sshiftRight n.toInt.natAbs := by
  rw [shiftOut, if_neg (by simpa [BitVec.slt] using h), toNat_of_nonneg h]

theorem shiftIn_of_neg {n : BitVec 64} (hlo : -63 ≤ n.toInt) (hneg : n.toInt < 0)
    (x : BitVec 64) : shiftIn n x = x.sshiftRight n.toInt.natAbs := by
  rw [shiftIn, if_pos (by simpa [BitVec.slt] using hneg), toNat_neg_of_slt hlo hneg]

theorem shiftIn_of_nonneg {n : BitVec 64} (h : 0 ≤ n.toInt) (x : BitVec 64) :
    shiftIn n x = x <<< n.toInt.natAbs := by
  rw [shiftIn, if_neg (by simpa [BitVec.slt] using h), toNat_of_nonneg h]

/-- A field that is shifted out, back in and masked once more is shifted out as before: what a
    right shift lost does not come back. -/
theorem shiftOut_field {n m x : BitVec 64} (hn : |n.toInt| ≤ 63) (hx : (x &&& m).msb = false)
    (hfit : Word.Fits 64 (exactShift n.toInt (x &&& m).toInt)) :
    shiftOut n (shiftIn n (shiftOut n (x &&& m)) &&& m) = shiftOut n (x &&& m) := by
  obtain ⟨hlo, -⟩ := abs_le.mp hn
  by_cases hneg : n.toInt < 0
  · rw [exactShift, if_pos hneg] at hfit
    have hback := Word.sshiftRight_shiftLeft_cancel
      (Word.toInt_shiftLeft_of_fits (by decide) hfit)
    rw [shiftOut_of_neg hlo hneg (x &&& m), shiftIn_of_neg hlo hneg, hback, BitVec.and_assoc,
      BitVec.and_self, shiftOut_of_neg hlo hneg]
  · have hpos := not_lt.mp hneg
    -- The field is the masked value without the bits below the shift.
    have hfield (i : ℕ) : ((x &&& m) >>> n.toInt.natAbs <<< n.toInt.natAbs &&& m).getLsbD i =
        (decide (n.toInt.natAbs ≤ i) && (x &&& m).getLsbD i) := by
      rw [BitVec.getLsbD_and, Word.getLsbD_shiftRight_shiftLeft, BitVec.getLsbD_and, Bool.and_assoc,
        Bool.and_assoc, Bool.and_self]
    have hmsb : ((x &&& m) >>> n.toInt.natAbs <<< n.toInt.natAbs &&& m).msb = false := by
      rw [BitVec.msb_eq_getLsbD_last, hfield, ← BitVec.msb_eq_getLsbD_last, hx, Bool.and_false]
    rw [shiftOut_of_nonneg hpos (x &&& m), BitVec.sshiftRight_eq_of_msb_false hx,
      shiftIn_of_nonneg hpos, shiftOut_of_nonneg hpos, BitVec.sshiftRight_eq_of_msb_false hmsb]
    apply BitVec.eq_of_getLsbD_eq
    intro i _
    rw [BitVec.getLsbD_ushiftRight, hfield, BitVec.getLsbD_ushiftRight]
    simp

/-- A value of an unsigned type, as the accumulator that it was narrowed from. -/
theorem getLLInt_setWidth {t : IntTy} (ht : t.signed = false) {x : BitVec 64}
    (h : t.Holds x.toInt) : getLLInt (.int t (x.setWidth t.width)) t = x := by
  apply BitVec.eq_of_toNat_eq
  rw [IntTy.toNat_getLLInt ht, BitVec.toNat_setWidth]
  apply Nat.mod_eq_of_lt
  rw [IntTy.Holds, IntTy.minimum, IntTy.maximum, ht] at h
  have hx : x.toInt = x.toNat := by
    rw [toNat_of_nonneg (by simpa using h.1)]
    exact (Int.natAbs_of_nonneg (by simpa using h.1)).symm
  have hlt : (x.toNat : ℤ) < 2 ^ t.width := by
    rw [← hx]
    exact Int.lt_of_le_sub_one (by simpa using h.2)
  exact_mod_cast hlt

theorem getLsbD_getLLInt {t : IntTy} (ht : t.signed = false) (bits : BitVec t.width) (i : ℕ) :
    (getLLInt (.int t bits) t).getLsbD i = bits.getLsbD i := by
  rw [← BitVec.testBit_toNat, IntTy.toNat_getLLInt ht, BitVec.testBit_toNat]

/-- The bits of a merged register that the mask selects are those of the field. -/
theorem getLLInt_merge {t : IntTy} (ht : t.signed = false) {m x : BitVec 64}
    (h : t.Holds (x &&& m).toInt) (r : BitVec t.width) :
    getLLInt (.int t (merge (~~~m) r ((x &&& m).setWidth t.width))) t &&& m = x &&& m := by
  apply BitVec.eq_of_getLsbD_eq
  intro i _
  have hx : ((x &&& m).setWidth t.width).getLsbD i = (x &&& m).getLsbD i := by
    rw [← getLsbD_getLLInt ht, getLLInt_setWidth ht h]
  rw [BitVec.getLsbD_and, getLsbD_getLLInt ht, merge, BitVec.getLsbD_or, BitVec.getLsbD_and, hx,
    BitVec.getLsbD_setWidth, BitVec.getLsbD_not, BitVec.getLsbD_and]
  cases m.getLsbD i <;> simp

theorem merge_getLsbD {w : ℕ} {m x : BitVec 64} (hw : w ≤ 64) {i : ℕ} (hi : i < w)
    (hm : m.getLsbD i = false) (r : BitVec w) :
    (merge (~~~m) r ((x &&& m).setWidth w)).getLsbD i = r.getLsbD i := by
  rw [merge, BitVec.getLsbD_or, BitVec.getLsbD_and, BitVec.getLsbD_setWidth,
    BitVec.getLsbD_setWidth, BitVec.getLsbD_not, BitVec.getLsbD_and, hm]
  simp [hi, hi.trans_le hw]

theorem operationReq_mask (devres : DeviceResource) (ro : ResourceOperation) :
    (operationReq devres ro).req.mask = some (~~~devres.properties.maskD) := by
  simp only [operationReq, PropertyValue.maskD, TransformArg.getD]
  split
  · rfl
  · simp

/-- What a value to be written becomes, where it is one that was read: the field without what the
    shift lost. -/
theorem incomingInt_outgoingInt (ops : FloatOps) {props : PropertyValue}
    (hbase : props.base.enabled = false) (hshift : |props.shiftD.toInt| ≤ 63)
    (hscale : props.scaleD ≠ 0) {x : BitVec 64} (hfit : StepsFit props x.toInt) :
    incomingInt ops props (outgoingInt ops props x) =
      shiftIn props.shiftD (shiftOut props.shiftD (x &&& props.maskD)) &&& props.maskD := by
  obtain ⟨hshifted, hscaled, -⟩ := hfit
  rw [exactMask_toInt] at hshifted hscaled
  have hlt := (x &&& props.maskD).toInt_lt
  have hout : (shiftOut props.shiftD (x &&& props.maskD)).toInt =
      exactShift props.shiftD.toInt (x &&& props.maskD).toInt := by
    have hsign : ¬2 ^ 63 ≤ (x &&& props.maskD).toInt := not_le.mpr hlt
    have hmod := toInt_shiftOut_modEq (x := x &&& props.maskD) hshift
      (by rw [if_neg hsign, sub_zero])
    rw [if_neg fun h => hsign h.1, sub_zero] at hmod
    exact Word.toInt_eq_of_modEq (by decide) hmod hshifted
  rw [← hout] at hscaled
  rw [outgoingInt_eq ops hbase, incomingInt_eq ops hbase, BitVec.add_sub_cancel,
    Word.sdiv_mul_cancel hscale (Word.toInt_mul_of_fits (by decide) hscaled)]

section

variable (ops : FloatOps) {props : PropertyValue} {t : IntTy} {mappings : Option IotData}
  {v w : BitVec t.width} {x : IotData}

/-- What `bitfield_write_read` says of a value `x` that is written where `w` was read. -/
def WritesBack (props : PropertyValue) (t : IntTy) (mappings : Option IotData)
    (w : BitVec t.width) (x : IotData) : Prop :=
  ∃ bits : BitVec t.width, x = .int t bits ∧ ∀ r : BitVec t.width,
    transformOutgoing ops (.int t (merge (~~~props.maskD) r bits)) props mappings = .int t w ∧
    ∀ i < t.width, props.maskD.getLsbD i = false →
      (merge (~~~props.maskD) r bits).getLsbD i = r.getLsbD i

theorem writesBack_off (htype : props.type.type = .int t) (hoff : transformsOn props = false)
    (hwrite : transformIncoming ops (.int t w) props mappings = some x) :
    WritesBack ops props t mappings w x := by
  have hmask : props.maskD = BitVec.allOnes 64 := by
    simp only [transformsOn, Bool.or_eq_false_iff] at hoff
    rw [PropertyValue.maskD, TransformArg.getD, if_neg (by simp [hoff.2])]
  have hmerge (r : BitVec t.width) : merge (~~~props.maskD) r w = w := by
    simp [merge, hmask]
  simp only [transformIncoming, htype, hoff] at hwrite
  refine ⟨w, (Option.some.inj hwrite).symm, fun r => ⟨?_, ?_⟩⟩
  · rw [hmerge, transformOutgoing, if_neg (by simp [hoff])]
  · intro i hi hm
    rw [hmask, BitVec.getLsbD_allOnes, decide_eq_false_iff_not] at hm
    exact absurd (hi.trans_le t.width_le) hm

theorem writesBack_on (ht : t.signed = false) (htype : props.type.type = .int t)
    (hv : v.toNat < 2 ^ 63) (hon : transformsOn props = true) (hbase : props.base.enabled = false)
    (hshift : |props.shiftD.toInt| ≤ 63) (hscale : props.scaleD ≠ 0)
    (hfit : StepsFit props v.toNat)
    (hread : transformOutgoing ops (.int t v) props mappings = .int t w)
    (hwrite : transformIncoming ops (.int t w) props mappings = some x) :
    WritesBack ops props t mappings w x := by
  have hnat := IntTy.toNat_getLLInt ht v
  generalize hx0 : getLLInt (.int t v) t = x0 at hnat
  have hmsb : x0.msb = false := by
    rw [BitVec.msb_eq_decide, hnat]
    simpa using hv
  rw [← hnat, ← BitVec.toInt_eq_toNat_of_msb hmsb] at hfit
  -- What was read is the accumulator, so that writing starts from it.
  rw [transformOutgoing_int ops hon, hx0, exactReading] at hread
  split at hread
  case isFalse => cases hread
  case isTrue hholds =>
    have hw : w = (outgoingInt ops props x0).setWidth t.width := by
      rw [← Word.ofInt_toInt_eq_setWidth t.width_le]
      simpa using hread.symm
    simp only [transformIncoming, htype, hon, if_true] at hwrite
    rw [hw, getLLInt_setWidth ht hholds,
      incomingInt_outgoingInt ops hbase hshift hscale hfit] at hwrite
    have hfield : t.Holds (shiftIn props.shiftD (shiftOut props.shiftD (x0 &&& props.maskD)) &&&
        props.maskD).toInt := by
      by_contra h
      rw [setLLInt_of_not_holds h] at hwrite
      cases hwrite
    rw [setLLInt_of_holds hfield] at hwrite
    have hmasked : (x0 &&& props.maskD).msb = false := by rw [BitVec.msb_and, hmsb, Bool.false_and]
    have hsame := shiftOut_field hshift hmasked (by simpa [exactMask_toInt] using hfit.shifted)
    refine ⟨_, (Option.some.inj hwrite).symm, fun r => ⟨?_, ?_⟩⟩
    · have hacc (y : BitVec t.width)
          (hy : shiftOut props.shiftD (getLLInt (.int t y) t &&& props.maskD) =
            shiftOut props.shiftD (x0 &&& props.maskD)) :
          transformOutgoing ops (.int t y) props mappings = .int t w := by
        rw [transformOutgoing_int ops hon, outgoingInt_eq ops hbase, hy, ← outgoingInt_eq ops hbase,
          exactReading, if_pos hholds, Word.ofInt_toInt_eq_setWidth t.width_le, hw]
      apply hacc
      rw [getLLInt_merge ht hfield, hsame]
    · intro i hi hm
      exact merge_getLsbD t.width_le hi hm r

end

/-- A value that was read can be written back. Whatever else the register holds by then, it is
    read as that value again, and the bits outside of the mask stay. -/
theorem bitfield_write_read (ops : FloatOps) (devres : DeviceResource) (ro : ResourceOperation)
    (t : IntTy) (mappings : Option IotData) (v w : BitVec t.width) (x : IotData)
    (reqmask : BitVec 64) (ht : t.signed = false)
    (htype : devres.properties.type.type = .int t) (hv : v.toNat < 2 ^ 63)
    (hbase : devres.properties.base.enabled = false)
    (hshift : devres.properties.shift.enabled = true →
      |devres.properties.shift.value.toInt| ≤ 63)
    (hscale : devres.properties.scale.enabled = true → devres.properties.scale.value ≠ 0)
    (hfit : StepsFit devres.properties v.toNat)
    (hread : transformOutgoing ops (.int t v) devres.properties mappings = .int t w)
    (hwrite : transformIncoming ops (.int t w) devres.properties mappings = some x)
    (hreq : (operationReq devres ro).req.mask = some reqmask) :
    ∃ bits : BitVec t.width, x = .int t bits ∧ ∀ r : BitVec t.width,
      transformOutgoing ops (.int t (merge reqmask r bits)) devres.properties mappings = .int t w ∧
      ∀ i < t.width, devres.properties.maskD.getLsbD i = false →
        (merge reqmask r bits).getLsbD i = r.getLsbD i := by
  obtain rfl : ~~~devres.properties.maskD = reqmask :=
    Option.some.inj ((operationReq_mask devres ro).symm.trans hreq)
  generalize devres.properties = props at *
  cases hon : transformsOn props with
  | false => exact writesBack_off ops htype hon hwrite
  | true =>
    exact writesBack_on ops ht htype hv hon hbase (PropertyValue.abs_shiftD_le hshift)
      (PropertyValue.scaleD_ne_zero hscale) hfit hread hwrite

/-- The second byte of a 32-bit register. -/
def byteResource : DeviceResource where
  name := "B"
  properties := { type := .scalar (.int .uint32), mask := ⟨true, 0xff00⟩, shift := ⟨true, 8⟩ }

theorem bitfield_write_read_byte :
    ∃ bits : BitVec 32, IotData.int .uint32 0x1200 = .int .uint32 bits ∧ ∀ r : BitVec 32,
      transformOutgoing exactFloats (.int .uint32 (merge 0xffffffffffff00ff r bits))
        byteResource.properties none = .int .uint32 0x12 ∧
      ∀ i < 32, byteResource.properties.maskD.getLsbD i = false →
        (merge 0xffffffffffff00ff r bits).getLsbD i = r.getLsbD i :=
  bitfield_write_read exactFloats byteResource { deviceResource := "B" } .uint32 none 0xab1234 0x12
    (.int .uint32 0x1200) 0xffffffffffff00ff rfl rfl (by decide) rfl (fun _ => by decide)
    (fun h => by cases h) ⟨by decide, by decide, by decide⟩ (by decide) (by decide) (by decide)

end DeviceSdk
