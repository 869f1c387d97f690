import DeviceSdk.Parson.Format
import DeviceSdk.Parson.Parse

/-!
# Doubles as text

The finite doubles of the C library, which are the numbers that are kept when they are rounded to 53
binary digits, none of them below the place -1074. `strtod` rounds to the nearest one and reports
what is out of range by `errno`. Whether it reports a number below 2 ^ -1022 that is no double is
left to the library. Written in seventeen decimal digits, a double is read again as itself.

## Main definitions

- `Binary64` — a finite double
- `strtod` — the double of a numeral
- `binary64` — the C library

## Main results

- `strtod_printDouble` — what is written of a double is read as the double
- `inRange_of_minNormal_lt` — doubles of which the text is always read
- `strtoull_printDouble_iff` — the doubles that are written as whole numbers
-/

namespace DeviceSdk.Parson

/-- The lowest place of a double. -/
def minExponent : ℤ := -1074

/-- Rounding to a double that may be too large. -/
def roundDouble (a : ℚ) : ℚ := Rounding.round 2 53 minExponent a

/-- A finite double: a sign, and a magnitude that is kept by rounding. -/
structure Binary64 where
  neg : Bool
  mag : ℚ
  nonneg : 0 ≤ mag
  rounded : roundDouble mag = mag
  finite : mag < 2 ^ 1024
  deriving DecidableEq

theorem Binary64.ext {x y : Binary64} (hneg : x.neg = y.neg) (hmag : x.mag = y.mag) : x = y := by
  cases x
  cases y
  obtain rfl : _ = _ := hneg
  obtain rfl : _ = _ := hmag
  rfl

/-- The number that a double is. -/
def Binary64.value (x : Binary64) : ℚ := if x.neg then -x.mag else x.mag

theorem roundDouble_digits {m : ℕ} (hm : m < 2 ^ 53) {e : ℤ} (he : minExponent ≤ e) :
    roundDouble (m * (2 : ℚ) ^ e) = m * (2 : ℚ) ^ e :=
  Rounding.round_eq_self (b := 2) (p := 53) (by decide) (by decide) he hm

theorem roundDouble_zero : roundDouble 0 = 0 := by
  have h := roundDouble_digits (m := 0) (by decide) (le_refl minExponent)
  rwa [Nat.cast_zero, zero_mul] at h

theorem digits_lt {m : ℕ} (hm : m < 2 ^ 53) {e : ℤ} (he : e ≤ 971) :
    (m : ℚ) * 2 ^ e < 2 ^ 1024 := by
  have hm' : (m : ℚ) < 2 ^ 53 := by exact_mod_cast hm
  have hexp : (2 : ℚ) ^ e ≤ 2 ^ 971 := by
    rw [← zpow_natCast]
    exact zpow_le_zpow_right₀ one_le_two he
  rw [show 1024 = 53 + 971 from rfl, pow_add]
  exact mul_lt_mul hm' hexp (zpow_pos two_pos e) (pow_nonneg zero_le_two _)

/-- The double of a significand and an exponent. -/
def Binary64.ofDigits (neg : Bool) (m : ℕ) (e : ℤ) (hm : m < 2 ^ 53)
    (he : minExponent ≤ e ∧ e ≤ 971) : Binary64 where
  neg := neg
  mag := m * 2 ^ e
  nonneg := mul_nonneg (Nat.cast_nonneg m) (zpow_nonneg zero_le_two e)
  rounded := roundDouble_digits hm he.1
  finite := digits_lt hm he.2

theorem roundDouble_nonneg {a : ℚ} (ha : 0 ≤ a) : 0 ≤ roundDouble a := by
  rcases ha.eq_or_lt with rfl | hpos
  · rw [roundDouble_zero]
  · obtain ⟨m, e, hround, -⟩ := Rounding.exists_digits (b := 2) (p := 53) (by decide) (by decide)
      minExponent hpos
    rw [roundDouble, hround]
    positivity

theorem roundDouble_roundDouble {a : ℚ} (ha : 0 ≤ a) :
    roundDouble (roundDouble a) = roundDouble a := by
  rcases ha.eq_or_lt with rfl | hpos
  · rw [roundDouble_zero, roundDouble_zero]
  · exact Rounding.round_round (b := 2) (p := 53) (by decide) (by decide) minExponent hpos

/-- The smallest double with all of its digits. -/
def minNormal : ℚ := 2 ^ (-1022 : ℤ)

theorem Numeral.magnitude_nonneg (n : Numeral) : 0 ≤ n.magnitude := by
  rw [magnitude]
  positivity

/-- `strtod`, or nothing where it sets `errno`. What is too large is out of range. Of what is too
    small to have all digits, and is no double, the library may say so. -/
def strtod (underflows : ℚ → Bool) (n : Numeral) : Option Binary64 :=
  if hlarge : roundDouble n.magnitude < 2 ^ 1024 then
    if n.magnitude < minNormal ∧ roundDouble n.magnitude ≠ n.magnitude ∧ underflows n.magnitude then
      none
    else
      some ⟨n.neg, roundDouble n.magnitude, roundDouble_nonneg n.magnitude_nonneg,
        roundDouble_roundDouble n.magnitude_nonneg, hlarge⟩
  else none

/-- Seventeen digits are enough to find a double again. -/
theorem roundDouble_seventeen {a : ℚ} (ha : 0 < a) (hround : roundDouble a = a) :
    roundDouble (Rounding.round 10 17 (Rounding.place 10 17 a) a) = a := by
  obtain ⟨m, e, hm, hlt, he, hlead⟩ := Rounding.exists_digits (b := 2) (p := 53) (by decide)
    (by decide) minExponent ha
  have herr := Rounding.abs_round_sub_mul_le (b := 10) (p := 17) (by decide) (by decide) ha le_rfl
  rw [roundDouble, hm] at hround
  have hm0 : 0 < m := by
    refine Nat.pos_of_ne_zero fun hzero => ?_
    rw [hzero, Nat.cast_zero, zero_mul] at hround
    exact ha.ne hround
  refine (Rounding.round_eq_of_close (by decide) (by decide) hm0 hlt he hlead (c := 10 ^ 16)
    (by decide) ?_).trans hround
  rw [hround]
  push_cast at herr ⊢
  exact herr

theorem roundDouble_printDouble (x : Binary64) :
    roundDouble (printDouble x.neg x.mag).magnitude = x.mag := by
  rcases x.nonneg.eq_or_lt with hzero | hpos
  · rw [← hzero, magnitude_printDouble_zero, roundDouble_zero]
  · rw [magnitude_printDouble _ hpos]
    exact roundDouble_seventeen hpos x.rounded

/-- What is written of a double is read as the double, or said to be out of range. -/
theorem strtod_printDouble (underflows : ℚ → Bool) (x : Binary64) :
    strtod underflows (printDouble x.neg x.mag) =
      if (printDouble x.neg x.mag).magnitude < minNormal ∧
          x.mag ≠ (printDouble x.neg x.mag).magnitude ∧
          underflows (printDouble x.neg x.mag).magnitude then none
      else some x := by
  have hround := roundDouble_printDouble x
  have hlarge : roundDouble (printDouble x.neg x.mag).magnitude < 2 ^ 1024 := by
    rw [hround]
    exact x.finite
  have hself : (⟨(printDouble x.neg x.mag).neg, roundDouble (printDouble x.neg x.mag).magnitude,
      roundDouble_nonneg (Numeral.magnitude_nonneg _),
      roundDouble_roundDouble (Numeral.magnitude_nonneg _), hlarge⟩ : Binary64) = x :=
    Binary64.ext (printDouble_neg x.neg x.mag) hround
  rw [strtod, dif_pos hlarge, hself, hround]

theorem strtod_isSome_iff (underflows : ℚ → Bool) (n : Numeral) :
    (strtod underflows n).isSome ↔ roundDouble n.magnitude < 2 ^ 1024 ∧
      ¬(n.magnitude < minNormal ∧ roundDouble n.magnitude ≠ n.magnitude ∧
        underflows n.magnitude) := by
  rw [strtod]
  split_ifs with hlarge hsmall
  · simp [hsmall]
  · simp [hlarge, hsmall]
  · simp [hlarge]

theorem magnitude_whole {n : Numeral} (hfrac : n.frac = none) (hexp : n.exp = none) :
    n.magnitude = digitsValue n.int := by
  rw [Numeral.magnitude, hfrac, hexp]
  simp

/-- A whole number of 64 bits is read. -/
theorem strtod_uint (underflows : ℚ → Bool) {n : Numeral} (h : n.strtoull.isSome) :
    (strtod underflows n).isSome := by
  rw [Numeral.strtoull] at h
  by_cases hwhole : n.frac = none ∧ n.exp = none ∧ digitsValue n.int < 2 ^ 64
  · obtain ⟨hfrac, hexp, hlt⟩ := hwhole
    have hmag := magnitude_whole hfrac hexp
    have hbound : (digitsValue n.int : ℚ) < 2 ^ 64 := by exact_mod_cast hlt
    rw [strtod_isSome_iff, hmag]
    rcases (digitsValue n.int).eq_zero_or_pos with hzero | hpos
    · rw [hzero, Nat.cast_zero, roundDouble_zero]
      simp
    · have hone : (1 : ℚ) ≤ digitsValue n.int := by exact_mod_cast hpos
      have hplace : minExponent ≤ Rounding.place 2 53 (digitsValue n.int) := by
        rw [Rounding.place, Int.log_natCast, minExponent]
        omega
      have herr := Rounding.abs_round_sub_mul_le (b := 2) (p := 53) (by decide) (by decide)
        (zero_lt_one.trans_le hone) hplace
      have hclose := (abs_le.mp (le_refl |roundDouble (digitsValue n.int) - digitsValue n.int|)).2
      refine ⟨?_, fun hsmall => ?_⟩
      · have hle : |roundDouble (digitsValue n.int) - digitsValue n.int| ≤ digitsValue n.int := by
          refine (le_mul_of_one_le_right (abs_nonneg _) ?_).trans herr
          norm_num
        have htwo : roundDouble (digitsValue n.int) < 2 ^ 65 := by linarith
        exact htwo.trans (pow_lt_pow_right₀ (by norm_num) (by norm_num))
      · have hnormal : minNormal ≤ 1 := zpow_le_one_of_nonpos₀ (by norm_num) (by norm_num)
        linarith [hsmall.1]
  · rw [if_neg hwhole] at h
    cases h

/-- The C library, which may set `errno` for a text that is no number, and for what is too small. -/
def binary64 (einval : Bool) (underflows : ℚ → Bool) : DoubleText Binary64 where
  strtod := strtod underflows
  einval
  print x := printDouble x.neg x.mag
  strtod_print x y h := by
    rw [strtod_printDouble] at h
    split_ifs at h
    exact (Option.some.inj h).symm
  isDecimal_print x := isDecimal_text (printDouble_leadingDigit x.neg x.nonneg)
  print_int x := (printDouble_leadingDigit x.neg x.nonneg).1
  strtod_uint _ h := strtod_uint underflows h

/-- What is written of a double above the smallest with all of its digits is no smaller. -/
theorem minNormal_le_printDouble {x : Binary64} (h : minNormal < x.mag) :
    minNormal ≤ (printDouble x.neg x.mag).magnitude := by
  have hpos : 0 < x.mag := (zpow_pos (by norm_num) _ : (0 : ℚ) < minNormal).trans h
  have hunit : (0 : ℚ) < 2 ^ minExponent := zpow_pos (by norm_num) _
  have hmin : minNormal = 2 ^ 52 * 2 ^ minExponent := by
    rw [minNormal, minExponent, ← zpow_natCast, ← zpow_add₀ (by norm_num)]
    rfl
  -- the double behind it is one unit larger
  have hnext : (2 ^ 52 + 1) * 2 ^ minExponent ≤ x.mag := by
    obtain ⟨m, e, hm, -, he, hlead⟩ := Rounding.exists_digits (b := 2) (p := 53) (by decide)
      (by decide) minExponent hpos
    have hx : x.mag = m * (2 : ℚ) ^ e := x.rounded.symm.trans hm
    rw [hx] at h ⊢
    rcases he.eq_or_lt with rfl | hlt
    · rw [hmin] at h
      have hmore : (2 : ℚ) ^ 52 < m := lt_of_mul_lt_mul_right h hunit.le
      have hmore' : (2 : ℚ) ^ 52 + 1 ≤ m := by exact_mod_cast hmore
      exact mul_le_mul_of_nonneg_right hmore' hunit.le
    · have hm52 : (2 : ℚ) ^ 52 ≤ m := by exact_mod_cast hlead.resolve_right hlt.ne'
      have hexp : 2 * (2 : ℚ) ^ minExponent ≤ 2 ^ e := by
        rw [← zpow_one_add₀ (by norm_num)]
        exact zpow_le_zpow_right₀ (by norm_num) (by omega)
      calc ((2 : ℚ) ^ 52 + 1) * 2 ^ minExponent
          ≤ 2 ^ 52 * (2 * (2 : ℚ) ^ minExponent) := by linarith
        _ ≤ m * (2 : ℚ) ^ e := mul_le_mul hm52 hexp (by positivity) (by positivity)
  have herr := Rounding.abs_round_sub_mul_le (b := 10) (p := 17) (by decide) (by decide) hpos le_rfl
  rw [magnitude_printDouble _ hpos]
  generalize Rounding.round 10 17 (Rounding.place 10 17 x.mag) x.mag = y at herr ⊢
  have hlow : x.mag - y ≤ |y - x.mag| := by
    rw [abs_sub_comm]
    exact le_abs_self _
  rw [hmin]
  norm_num at herr hnext ⊢
  linarith

/-- A double that is large enough is read where it was written. -/
theorem inRange_of_minNormal_lt (einval : Bool) (underflows : ℚ → Bool) {x : Binary64}
    (h : minNormal < x.mag) :
    ((binary64 einval underflows).strtod ((binary64 einval underflows).print x)).isSome := by
  show (strtod underflows (printDouble x.neg x.mag)).isSome
  rw [strtod_printDouble, if_neg fun hsmall => absurd hsmall.1
    (not_lt.mpr (minNormal_le_printDouble h))]
  rfl

/-- A double that is the nearest one to a whole number is a whole number. -/
theorem exists_natCast_roundDouble (n : ℕ) : ∃ k : ℕ, roundDouble n = k := by
  by_cases hn : n < 2 ^ 53
  · have h := roundDouble_digits hn (show minExponent ≤ 0 by decide)
    rw [zpow_zero, mul_one] at h
    exact ⟨n, h⟩
  · have hlarge : (2 : ℚ) ^ 53 ≤ n := by exact_mod_cast not_lt.mp hn
    have hpos : (0 : ℚ) < n := lt_of_lt_of_le (by norm_num) hlarge
    have hplace : (0 : ℤ) ≤ Rounding.placeFrom 2 53 minExponent n := by
      refine le_trans ?_ (le_max_right _ _)
      refine Rounding.le_place (by decide) (by decide) hpos (le_trans ?_ hlarge)
      norm_num
    obtain ⟨k, hk⟩ := Int.eq_ofNat_of_zero_le hplace
    have hnonneg : ((0 : ℤ) : ℚ) ≤
        (n : ℚ) / ((2 : ℕ) : ℚ) ^ Rounding.placeFrom 2 53 minExponent n := by
      rw [Int.cast_zero]
      positivity
    obtain ⟨i, hi⟩ := Int.eq_ofNat_of_zero_le
      (Rounding.nearest_mem hnonneg (Int.le_ceil _)).1
    refine ⟨i * 2 ^ k, ?_⟩
    rw [roundDouble, Rounding.round, hi, hk]
    push_cast
    rw [zpow_natCast]

/-- The doubles that are written as whole numbers are the whole numbers below 10 ^ 17. -/
theorem strtoull_printDouble_iff (x : Binary64) :
    (printDouble x.neg x.mag).strtoull.isSome ↔ ∃ n : ℕ, n < 10 ^ 17 ∧ x.mag = n := by
  constructor
  · intro h
    rw [Numeral.strtoull] at h
    by_cases hwhole : (printDouble x.neg x.mag).frac = none ∧
        (printDouble x.neg x.mag).exp = none ∧ digitsValue (printDouble x.neg x.mag).int < 2 ^ 64
    · obtain ⟨hfrac, hexp, -⟩ := hwhole
      have hmag := magnitude_whole hfrac hexp
      obtain ⟨n, hn⟩ := exists_natCast_roundDouble (digitsValue (printDouble x.neg x.mag).int)
      rw [← hmag, roundDouble_printDouble] at hn
      refine ⟨n, ?_, hn⟩
      by_contra hlarge
      have hlarge' : (10 : ℚ) ^ 17 ≤ x.mag := by
        rw [hn]
        exact_mod_cast not_lt.mp hlarge
      have hsome := printDouble_exp_of_le x.neg hlarge'
      rw [hexp] at hsome
      cases hsome
    · rw [if_neg hwhole] at h
      cases h
  · rintro ⟨n, hlt, hn⟩
    have hdigits : digitsValue (uintNumeral n).int < 2 ^ 64 := by
      rw [uintNumeral, digitsValue_printUint]
      exact hlt.trans (by decide)
    rw [hn, printDouble_natCast_eq x.neg hlt, Numeral.strtoull, if_pos ⟨rfl, rfl, hdigits⟩]
    rfl

end DeviceSdk.Parson
