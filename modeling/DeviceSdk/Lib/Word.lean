import Mathlib

/-!
# Machine words and the integers they stand for

Arithmetic on two's complement words agrees with that on the integers modulo `2 ^ w`, and the
bits of a word with those of its signed and of its unsigned value. The operations of C on signed
integers are defined only where the result fits.

## Main definitions

- `Word.Fits` — the integers that a signed word holds
- `Word.subC`, `Word.sdivC`, `Word.negC`, `Word.shlC`, `Word.sarC` — the operations of C

## Main results

- `Word.toInt_eq_of_modEq` — a residue in the signed range is the value of the word
- `Word.land_toInt`, `Word.land_toNat` — masks of a signed and of an unsigned value
- `Word.sdiv_mul_cancel` — division undoes a multiplication that does not overflow
- `Word.toNat_mul_lt_exact_iff` — when a bound that is a product in a word is exact
-/

namespace Word

variable {w : ℕ}

/-- The integers that a signed word of width `w` holds. -/
def Fits (w : ℕ) (y : ℤ) : Prop := -2 ^ (w - 1) ≤ y ∧ y < 2 ^ (w - 1)

instance (w : ℕ) (y : ℤ) : Decidable (Fits w y) := inferInstanceAs (Decidable (_ ∧ _))

theorem fits_toInt (x : BitVec w) : Fits w x.toInt := ⟨x.le_toInt, x.toInt_lt⟩

theorem toInt_eq_negSucc {x : BitVec w} (h : x.msb = true) :
    x.toInt = Int.negSucc (~~~x).toNat := by
  have hx : x.toNat < 2 ^ w := x.isLt
  rw [BitVec.toInt_eq_msb_cond, if_pos h, BitVec.toNat_not, Int.negSucc_eq]
  push_cast [Nat.sub_sub, Nat.one_add_le_iff.mpr hx]
  ring

theorem toInt_eq_ofNat {x : BitVec w} (h : x.msb = false) : x.toInt = Int.ofNat x.toNat :=
  BitVec.toInt_eq_toNat_of_msb h

theorem ldiff_toNat_not (x y : BitVec w) : Nat.ldiff x.toNat (~~~y).toNat = (x &&& y).toNat := by
  apply Nat.eq_of_testBit_eq
  intro i
  rw [Nat.testBit_ldiff, BitVec.testBit_toNat, BitVec.testBit_toNat, BitVec.testBit_toNat,
    BitVec.getLsbD_not, BitVec.getLsbD_and]
  by_cases hi : i < w
  · simp [hi]
  · simp [BitVec.getLsbD_of_ge x i (not_lt.mp hi)]

/-- The unsigned value of a word, masked by a signed integer. -/
theorem land_toNat (x y : BitVec w) : Int.land x.toNat y.toInt = (x &&& y).toNat := by
  cases hy : y.msb with
  | true =>
    rw [toInt_eq_negSucc hy, ← ldiff_toNat_not]
    rfl
  | false =>
    rw [toInt_eq_ofNat hy, BitVec.toNat_and]
    rfl

/-- The signed value of a word, masked by a signed integer. -/
theorem land_toInt (x y : BitVec w) : Int.land x.toInt y.toInt = (x &&& y).toInt := by
  cases hx : x.msb with
  | false =>
    have hand : (x &&& y).msb = false := by simp [BitVec.msb_and, hx]
    rw [toInt_eq_ofNat hx, toInt_eq_ofNat hand]
    exact land_toNat x y
  | true =>
    cases hy : y.msb with
    | false =>
      have hand : (x &&& y).msb = false := by simp [BitVec.msb_and, hy]
      rw [toInt_eq_negSucc hx, toInt_eq_ofNat hy, toInt_eq_ofNat hand, BitVec.and_comm,
        ← ldiff_toNat_not]
      rfl
    | true =>
      have hand : (x &&& y).msb = true := by simp [BitVec.msb_and, hx, hy]
      rw [toInt_eq_negSucc hx, toInt_eq_negSucc hy, toInt_eq_negSucc hand, BitVec.not_and,
        BitVec.toNat_or]
      rfl

theorem bmod_modEq (y : ℤ) (m : ℕ) : y.bmod m ≡ y [ZMOD m] := by
  rw [Int.ModEq, Int.bmod_emod]

theorem toInt_add_modEq (x y : BitVec w) : (x + y).toInt ≡ x.toInt + y.toInt [ZMOD 2 ^ w] := by
  rw [BitVec.toInt_add]
  exact_mod_cast bmod_modEq _ (2 ^ w)

theorem toInt_sub_modEq (x y : BitVec w) : (x - y).toInt ≡ x.toInt - y.toInt [ZMOD 2 ^ w] := by
  rw [BitVec.toInt_sub]
  exact_mod_cast bmod_modEq _ (2 ^ w)

theorem toInt_mul_modEq (x y : BitVec w) : (x * y).toInt ≡ x.toInt * y.toInt [ZMOD 2 ^ w] := by
  rw [BitVec.toInt_mul]
  exact_mod_cast bmod_modEq _ (2 ^ w)

theorem toNat_modEq_toInt (x : BitVec w) : (x.toNat : ℤ) ≡ x.toInt [ZMOD 2 ^ w] := by
  rw [BitVec.toInt_eq_toNat_bmod]
  exact_mod_cast (bmod_modEq _ (2 ^ w)).symm

theorem toInt_shiftLeft_modEq (x : BitVec w) (n : ℕ) :
    (x <<< n).toInt ≡ x.toInt * 2 ^ n [ZMOD 2 ^ w] := by
  rw [BitVec.toInt_shiftLeft, Nat.shiftLeft_eq]
  have h : ((x.toNat * 2 ^ n : ℕ) : ℤ) ≡ x.toInt * 2 ^ n [ZMOD 2 ^ w] := by
    push_cast
    exact (toNat_modEq_toInt x).mul_right _
  refine Int.ModEq.trans ?_ h
  exact_mod_cast bmod_modEq _ (2 ^ w)

theorem ofInt_toInt_eq_setWidth {m : ℕ} (h : m ≤ w) (x : BitVec w) :
    BitVec.ofInt m x.toInt = x.setWidth m := by
  apply BitVec.eq_of_toInt_eq
  rw [BitVec.toInt_ofInt, BitVec.toInt_setWidth, BitVec.toInt_eq_toNat_bmod]
  exact Int.bmod_bmod_of_dvd (Nat.pow_dvd_pow 2 h)

/-- A residue in the signed range is the value of the word. -/
theorem toInt_eq_of_modEq {x : BitVec w} {y : ℤ} (hw : 0 < w) (h : x.toInt ≡ y [ZMOD 2 ^ w])
    (hy : Fits w y) : x.toInt = y := by
  obtain ⟨hlo, hhi⟩ := hy
  have hxlo := x.le_toInt
  have hxhi := x.toInt_lt
  have htwice : (2 : ℤ) ^ w = 2 ^ (w - 1) + 2 ^ (w - 1) := by
    rw [← two_mul, ← pow_succ', Nat.sub_add_cancel hw]
  have hdvd : (2 : ℤ) ^ w ∣ y - x.toInt := h.dvd
  have hzero : y - x.toInt = 0 := Int.eq_zero_of_abs_lt_dvd hdvd (by rw [abs_lt]; omega)
  omega

theorem toInt_mul_of_fits {x y : BitVec w} (hw : 0 < w) (h : Fits w (x.toInt * y.toInt)) :
    (x * y).toInt = x.toInt * y.toInt :=
  toInt_eq_of_modEq hw (toInt_mul_modEq x y) h

theorem toInt_sub_of_fits {x y : BitVec w} (hw : 0 < w) (h : Fits w (x.toInt - y.toInt)) :
    (x - y).toInt = x.toInt - y.toInt :=
  toInt_eq_of_modEq hw (toInt_sub_modEq x y) h

theorem toInt_shiftLeft_of_fits {x : BitVec w} {n : ℕ} (hw : 0 < w)
    (h : Fits w (x.toInt * 2 ^ n)) : (x <<< n).toInt = x.toInt * 2 ^ n :=
  toInt_eq_of_modEq hw (toInt_shiftLeft_modEq x n) h

/-- A bound that is a product of words is the product of the numbers, as far as a quantity that
    is compared with it can tell: where the product does not wrap, and for a quantity that is
    within the wrapped product or above the whole one. -/
theorem toNat_mul_lt_exact_iff (x y : BitVec w) (s : ℕ) :
    ((x * y).toNat < s ↔ x.toNat * y.toNat < s) ↔
      x.toNat * y.toNat < 2 ^ w ∨ s ≤ x.toNat * y.toNat % 2 ^ w ∨ x.toNat * y.toNat < s := by
  rw [BitVec.toNat_mul]
  generalize x.toNat * y.toNat = a
  have hle : a % 2 ^ w ≤ a := Nat.mod_le a (2 ^ w)
  by_cases ha : a < 2 ^ w
  · simp [ha, Nat.mod_eq_of_lt ha]
  · have hlt : a % 2 ^ w < 2 ^ w := Nat.mod_lt a (Nat.two_pow_pos w)
    omega

/-- Division undoes a multiplication that does not overflow. -/
theorem sdiv_mul_cancel {x y : BitVec w} (hy : y ≠ 0) (hmul : (x * y).toInt = x.toInt * y.toInt) :
    (x * y).sdiv y = x := by
  have hy' : y.toInt ≠ 0 := by simpa [← BitVec.toInt_inj] using hy
  apply BitVec.eq_of_toInt_eq
  rw [BitVec.toInt_sdiv, hmul, Int.mul_tdiv_cancel _ hy', BitVec.toInt_bmod_cancel]

/-- A right shift undoes a left shift that does not overflow. -/
theorem sshiftRight_shiftLeft_cancel {x : BitVec w} {n : ℕ}
    (hshift : (x <<< n).toInt = x.toInt * 2 ^ n) : (x <<< n).sshiftRight n = x := by
  apply BitVec.eq_of_toInt_eq
  rw [BitVec.toInt_sshiftRight, hshift, Int.shiftRight_eq_div_pow]
  push_cast
  exact Int.mul_ediv_cancel _ (by positivity)

theorem getLsbD_shiftRight_shiftLeft (x : BitVec w) (k i : ℕ) :
    (x >>> k <<< k).getLsbD i = (decide (k ≤ i) && x.getLsbD i) := by
  rw [BitVec.getLsbD_shiftLeft, BitVec.getLsbD_ushiftRight]
  by_cases hi : i < w
  · by_cases hk : k ≤ i
    · simp [hi, hk, Nat.add_sub_cancel' hk]
    · simp [hk, not_le.mp hk]
  · simp [hi, BitVec.getLsbD_of_ge x i (not_lt.mp hi)]

/-- Why an operation of C on signed integers has no defined result. -/
inductive Fault
  | overflow | divByZero | shiftRange
  deriving DecidableEq

/-- `x - y`. -/
def subC (x y : BitVec w) : Except Fault (BitVec w) :=
  if Fits w (x.toInt - y.toInt) then .ok (x - y) else .error .overflow

/-- `x / y`. -/
def sdivC (x y : BitVec w) : Except Fault (BitVec w) :=
  if y = 0 then .error .divByZero
  else if Fits w (x.toInt.tdiv y.toInt) then .ok (x.sdiv y)
  else .error .overflow

/-- `-x`. -/
def negC (x : BitVec w) : Except Fault (BitVec w) :=
  if Fits w (-x.toInt) then .ok (-x) else .error .overflow

/-- `x << n`, as compilers define it on negative numbers too. -/
def shlC (x n : BitVec w) : Except Fault (BitVec w) :=
  if 0 ≤ n.toInt ∧ n.toInt < w then .ok (x <<< n.toNat) else .error .shiftRange

/-- `x >> n`. -/
def sarC (x n : BitVec w) : Except Fault (BitVec w) :=
  if 0 ≤ n.toInt ∧ n.toInt < w then .ok (x.sshiftRight n.toNat) else .error .shiftRange

theorem bind_eq_ok {α β : Type} {x : Except Fault α} {f : α → Except Fault β} {r : β} :
    x >>= f = .ok r ↔ ∃ a, x = .ok a ∧ f a = .ok r := by
  cases x with
  | error e => simp [bind, Except.bind]
  | ok a => simp [bind, Except.bind]

theorem subC_eq_ok {x y r : BitVec w} :
    subC x y = .ok r ↔ Fits w (x.toInt - y.toInt) ∧ x - y = r := by
  rw [subC]
  split <;> simp [*]

theorem sdivC_eq_ok {x y r : BitVec w} :
    sdivC x y = .ok r ↔ y ≠ 0 ∧ Fits w (x.toInt.tdiv y.toInt) ∧ x.sdiv y = r := by
  rw [sdivC]
  split_ifs <;> simp_all

theorem negC_eq_ok {x r : BitVec w} : negC x = .ok r ↔ Fits w (-x.toInt) ∧ -x = r := by
  rw [negC]
  split <;> simp [*]

theorem shlC_eq_ok {x n r : BitVec w} :
    shlC x n = .ok r ↔ (0 ≤ n.toInt ∧ n.toInt < w) ∧ x <<< n.toNat = r := by
  rw [shlC]
  split <;> simp [*]

theorem sarC_eq_ok {x n r : BitVec w} :
    sarC x n = .ok r ↔ (0 ≤ n.toInt ∧ n.toInt < w) ∧ x.sshiftRight n.toNat = r := by
  rw [sarC]
  split <;> simp [*]

theorem fits_of_natAbs_lt {y : ℤ} (h : y.natAbs < 2 ^ (w - 1)) : Fits w y := by
  have hcast : ((2 ^ (w - 1) : ℕ) : ℤ) = 2 ^ (w - 1) := by push_cast; rfl
  constructor <;> omega

/-- A quotient overflows in one case only. -/
theorem fits_tdiv_iff {x y : ℤ} (hx : Fits w x) :
    Fits w (x.tdiv y) ↔ ¬(x = -2 ^ (w - 1) ∧ y = -1) := by
  have hcast : ((2 ^ (w - 1) : ℕ) : ℤ) = 2 ^ (w - 1) := by push_cast; rfl
  have hpos : 0 < 2 ^ (w - 1) := Nat.two_pow_pos _
  have hle : x.natAbs ≤ 2 ^ (w - 1) := by
    obtain ⟨hlo, hhi⟩ := hx
    omega
  constructor
  · rintro h ⟨rfl, rfl⟩
    have hlt := h.2
    rw [Int.tdiv_neg, Int.tdiv_one, neg_neg] at hlt
    exact lt_irrefl _ hlt
  · intro h
    by_cases hmin : x = -2 ^ (w - 1)
    · have hy : y ≠ -1 := fun hy => h ⟨hmin, hy⟩
      by_cases hone : y = 1
      · rwa [hone, Int.tdiv_one]
      · by_cases hzero : y = 0
        · rw [hzero, Int.tdiv_zero]
          exact fits_of_natAbs_lt hpos
        · apply fits_of_natAbs_lt
          rw [Int.natAbs_tdiv]
          exact (Nat.div_lt_self (by omega) (by omega)).trans_le hle
    · apply fits_of_natAbs_lt
      rw [Int.natAbs_tdiv]
      have hlt : x.natAbs < 2 ^ (w - 1) := by
        obtain ⟨hlo, hhi⟩ := hx
        omega
      exact (Nat.div_le_self _ _).trans_lt hlt

end Word
