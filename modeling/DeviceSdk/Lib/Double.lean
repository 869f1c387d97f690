import Mathlib

/-!
# Whole numbers as doubles

The conversion of a whole number to the nearest double, ties to the even one. A double keeps
53 significant bits, so that exactly the numbers whose further bits are all zero survive it.

## Main definitions

- `Double.ofNat`, `Double.ofInt` — the conversion
- `Double.Exact` — the numbers that survive it

## Main results

- `Double.ofInt_eq_self_iff`
-/

namespace Double

/-- The unit in the last place of the doubles near `a`. -/
def unit (a : ℕ) : ℕ := 2 ^ (a.size - 53)

/-- The double nearest to a natural number. -/
def ofNat (a : ℕ) : ℕ :=
  let q := a / unit a
  let r := a % unit a
  if 2 * r < unit a ∨ (2 * r = unit a ∧ q % 2 = 0) then q * unit a else (q + 1) * unit a

/-- The double nearest to an integer. -/
def ofInt (n : ℤ) : ℤ := n.sign * ofNat n.natAbs

/-- An integer that is a double. -/
def Exact (n : ℤ) : Prop := unit n.natAbs ∣ n.natAbs

instance (n : ℤ) : Decidable (Exact n) := inferInstanceAs (Decidable (_ ∣ _))

theorem ofNat_eq_self_iff (a : ℕ) : ofNat a = a ↔ unit a ∣ a := by
  have hpos : 0 < unit a := Nat.two_pow_pos _
  have hdiv : a / unit a * unit a + a % unit a = a := Nat.div_add_mod' a (unit a)
  have hlt : a % unit a < unit a := Nat.mod_lt a hpos
  rw [Nat.dvd_iff_mod_eq_zero, ofNat]
  split
  next => omega
  next hup =>
    rw [add_mul, one_mul]
    omega

theorem ofInt_eq_self_iff (n : ℤ) : ofInt n = n ↔ Exact n := by
  rw [Exact, ← ofNat_eq_self_iff, ofInt]
  by_cases hn : n = 0
  · subst hn
    decide
  · have hsign : n.sign ≠ 0 := fun h => hn (Int.sign_eq_zero_iff_zero.mp h)
    constructor
    · intro h
      have hmul : n.sign * (ofNat n.natAbs : ℤ) = n.sign * (n.natAbs : ℤ) := by
        rw [h, Int.sign_mul_natAbs]
      exact_mod_cast mul_left_cancel₀ hsign hmul
    · intro h
      rw [h, Int.sign_mul_natAbs]

/-- What fits the 53 bits of a double is one. -/
theorem exact_of_lt {n : ℤ} (h : n.natAbs < 2 ^ 53) : Exact n := by
  have hsize : n.natAbs.size ≤ 53 := Nat.size_le.mpr h
  have hunit : unit n.natAbs = 1 := by
    rw [unit, Nat.sub_eq_zero_of_le hsize, pow_zero]
  rw [Exact, hunit]
  exact one_dvd _

theorem ofNat_pos {a : ℕ} (h : 0 < a) : 0 < ofNat a := by
  have hsize : 0 < a.size := Nat.size_pos.mpr h
  have hunit : unit a ≤ a := by
    have hlt : a.size - 53 < a.size := by omega
    exact Nat.lt_size.mp hlt
  have hq : 0 < a / unit a := Nat.div_pos hunit (Nat.two_pow_pos _)
  rw [ofNat]
  split
  · exact Nat.mul_pos hq (Nat.two_pow_pos _)
  · exact Nat.mul_pos (Nat.succ_pos _) (Nat.two_pow_pos _)

theorem ofInt_natCast (a : ℕ) : ofInt a = ofNat a := by
  rw [ofInt, Int.natAbs_natCast]
  cases a with
  | zero => decide
  | succ a => simp

theorem ofInt_neg (k : ℤ) : ofInt (-k) = -ofInt k := by
  rw [ofInt, Int.sign_neg, Int.natAbs_neg, neg_mul, ofInt]

theorem ofInt_neg_of_neg {n : ℤ} (h : n < 0) : ofInt n < 0 := by
  have hpos : (0 : ℤ) < ofNat n.natAbs := by
    exact_mod_cast ofNat_pos (Int.natAbs_pos.mpr h.ne)
  rw [ofInt, Int.sign_eq_neg_one_of_neg h]
  omega

end Double
