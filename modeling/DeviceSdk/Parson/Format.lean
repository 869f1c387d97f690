import DeviceSdk.Lib.Rounding
import DeviceSdk.Parson.Number

/-!
# The text of a double

`parson.c` writes a double with `FLOAT_FORMAT`, which is `%1.17g`: it is rounded to seventeen
decimal digits, zeros at the end are left out, and numbers that are too large or too small for
seventeen digits get an exponent.

## Main definitions

- `digits17` — a number in seventeen digits
- `printDouble` — `sprintf` with `FLOAT_FORMAT`

## Main results

- `magnitude_printDouble` — what is written is the number in seventeen digits
- `printDouble_natCast` — a whole number below 10 ^ 17 is written with its digits
- `printDouble_exp_of_le` — a number from 10 ^ 17 on is written with an exponent
-/

namespace DeviceSdk.Parson

/-- A positive number in seventeen digits, with the exponent of the first. -/
def digits17 (a : ℚ) : ℕ × ℤ :=
  let m := (Rounding.nearest (a / 10 ^ Rounding.place 10 17 a)).toNat
  if m = 10 ^ 17 then (10 ^ 16, Rounding.place 10 17 a + 17)
  else (m, Rounding.place 10 17 a + 16)

/-- The last `k` digits of a number. -/
def lastDigits : ℕ → ℕ → Bytes
  | 0, _ => []
  | k + 1, n => lastDigits k (n / 10) ++ printUint (n % 10)

theorem lastDigits_isDigit (k n : ℕ) : ∀ b ∈ lastDigits k n, isDigit b = true := by
  induction k generalizing n with
  | zero => nofun
  | succ k ih => exact List.forall_mem_append.mpr ⟨ih _, printUint_isDigit _⟩

/-- The digits of `n` behind a point, without the zeros at the end, where there are `k` places. -/
def fraction (k n : ℕ) : Option Bytes :=
  if (lastDigits k n).rdropWhile (· == '0'.toUInt8) = [] then none
  else some ((lastDigits k n).rdropWhile (· == '0'.toUInt8))

theorem fraction_isDigit (k n : ℕ) : ∀ b ∈ (fraction k n).getD [], isDigit b = true := by
  intro b hb
  rw [fraction] at hb
  split at hb
  · cases hb
  · exact lastDigits_isDigit k n b ((List.rdropWhile_prefix _ _).subset hb)

/-- The number `m`, with its last `k` digits behind the point. -/
def pointNumeral (neg : Bool) (m k : ℕ) (exp : Option Exponent) : Numeral where
  neg
  int := printUint (m / 10 ^ k)
  frac := fraction k (m % 10 ^ k)
  exp
  int_digits := printUint_isDigit _
  frac_digits := fraction_isDigit _ _
  ne_nil := .inl (printUint_ne_nil _)

/-- An exponent, which has a sign and two digits at least. -/
def printExponent (x : ℤ) : Exponent where
  letter := 'e'.toUInt8
  sign := some (if x < 0 then '-'.toUInt8 else '+'.toUInt8)
  digits := (if x.natAbs < 10 then ['0'.toUInt8] else []) ++ printUint x.natAbs
  letter_eq := .inl rfl
  sign_eq := by
    intro c hc
    obtain rfl := Option.some.inj hc
    split
    · exact .inr rfl
    · exact .inl rfl
  digits_isDigit := by
    refine List.forall_mem_append.mpr ⟨fun b hb => ?_, printUint_isDigit _⟩
    split at hb
    · rw [List.mem_singleton.mp hb]
      decide
    · cases hb
  ne_nil := by simp [printUint_ne_nil]

/-- `sprintf` with `FLOAT_FORMAT`, of a finite double with the magnitude `a`. -/
def printDouble (neg : Bool) (a : ℚ) : Numeral :=
  if a = 0 then pointNumeral neg 0 0 none
  else if -4 ≤ (digits17 a).2 ∧ (digits17 a).2 < 17 then
    pointNumeral neg (digits17 a).1 (16 - (digits17 a).2).toNat none
  else pointNumeral neg (digits17 a).1 16 (some (printExponent (digits17 a).2))

-- ════════════════════════════════════════════════════════════════════════
-- The number of a text
-- ════════════════════════════════════════════════════════════════════════

theorem digitsValue_digit {n : ℕ} (h : n < 10) : digitsValue (printUint n) = n ∧
    (printUint n).length = 1 := by
  rw [digitsValue_printUint, printUint_of_lt h]
  exact ⟨rfl, rfl⟩

/-- The last digits of a number that has no others. -/
theorem lastDigits_spec (k : ℕ) {n : ℕ} (h : n < 10 ^ k) :
    (lastDigits k n).length = k ∧ digitsValue (lastDigits k n) = n := by
  induction k generalizing n with
  | zero =>
    obtain rfl : n = 0 := by omega
    exact ⟨rfl, rfl⟩
  | succ k ih =>
    obtain ⟨hlen, hval⟩ := ih (n := n / 10) (by rw [pow_succ] at h; omega)
    obtain ⟨hdigit, hone⟩ := digitsValue_digit (Nat.mod_lt n (by decide : 0 < 10))
    rw [lastDigits, List.length_append, digitsValue_append, hlen, hval, hone, hdigit]
    exact ⟨rfl, by omega⟩

/-- Zeros at the end count for powers of ten. -/
theorem digitsValue_rdropWhile (l : Bytes) :
    digitsValue l = digitsValue (l.rdropWhile (· == '0'.toUInt8)) *
      10 ^ (l.length - (l.rdropWhile (· == '0'.toUInt8)).length) := by
  induction l using List.reverseRecOn with
  | nil => rfl
  | append_singleton l d ih =>
    rw [List.rdropWhile_concat]
    split
    · next hd =>
      obtain rfl := eq_of_beq hd
      have hlen := (List.rdropWhile_prefix (· == '0'.toUInt8) (l := l)).length_le
      rw [digitsValue_concat, ih, List.length_append, List.length_singleton,
        Nat.sub_add_comm hlen, pow_succ]
      have hzero : '0'.toUInt8.toNat - '0'.toNat = 0 := by decide
      rw [hzero]
      ring
    · rw [Nat.sub_self, pow_zero, Nat.mul_one]

/-- The digits behind a point stand for the number they are made of. -/
theorem fraction_value {k n : ℕ} (h : n < 10 ^ k) :
    (digitsValue ((fraction k n).getD []) : ℚ) *
        (10 : ℚ) ^ (-(((fraction k n).getD []).length : ℤ)) = n * (10 : ℚ) ^ (-(k : ℤ)) := by
  obtain ⟨hlen, hval⟩ := lastDigits_spec k h
  have hstrip := digitsValue_rdropWhile (lastDigits k n)
  have hle := (List.rdropWhile_prefix (· == '0'.toUInt8) (l := lastDigits k n)).length_le
  have hget : (fraction k n).getD [] = (lastDigits k n).rdropWhile (· == '0'.toUInt8) := by
    rw [fraction]
    split
    · next hnil => exact hnil.symm
    · rfl
  rw [hval, hlen] at hstrip
  rw [hlen] at hle
  rw [hget]
  generalize (lastDigits k n).rdropWhile (· == '0'.toUInt8) = s at hstrip hle ⊢
  rw [hstrip, show -(s.length : ℤ) = ((k - s.length : ℕ) : ℤ) + -(k : ℤ) by omega,
    zpow_add₀ (by norm_num), zpow_natCast]
  push_cast
  ring

theorem magnitude_pointNumeral (neg : Bool) (m k : ℕ) (exp : Option Exponent) :
    (pointNumeral neg m k exp).magnitude =
      m * (10 : ℚ) ^ (exp.elim 0 Exponent.value - k) := by
  have hfrac := fraction_value (Nat.mod_lt m (Nat.pow_pos (by decide) : 0 < 10 ^ k))
  have hsplit : (m : ℚ) = (m / 10 ^ k : ℕ) * 10 ^ k + (m % 10 ^ k : ℕ) := by
    exact_mod_cast (Nat.div_add_mod' m (10 ^ k)).symm
  rw [Numeral.magnitude, pointNumeral]
  dsimp only
  generalize (fraction k (m % 10 ^ k)).getD [] = s at hfrac
  rw [digitsValue_append, digitsValue_printUint]
  generalize exp.elim 0 Exponent.value = x
  have hten : (10 : ℚ) ≠ 0 := by norm_num
  rw [sub_eq_add_neg, sub_eq_add_neg, zpow_add₀ hten, zpow_add₀ hten]
  push_cast
  have hs : (10 : ℚ) ^ s.length * (10 : ℚ) ^ (-(s.length : ℤ)) = 1 := by
    rw [zpow_neg, zpow_natCast, mul_inv_cancel₀ (pow_ne_zero _ hten)]
  have hk : (10 : ℚ) ^ k * (10 : ℚ) ^ (-(k : ℤ)) = 1 := by
    rw [zpow_neg, zpow_natCast, mul_inv_cancel₀ (pow_ne_zero _ hten)]
  generalize (10 : ℚ) ^ (-(s.length : ℤ)) = u at *
  generalize (10 : ℚ) ^ (-(k : ℤ)) = v at *
  rw [hsplit]
  linear_combination ((m / 10 ^ k : ℕ) : ℚ) * (10 : ℚ) ^ x * hs + (10 : ℚ) ^ x * hfrac -
    ((m / 10 ^ k : ℕ) : ℚ) * (10 : ℚ) ^ x * hk

theorem value_printExponent (x : ℤ) : (printExponent x).value = x := by
  have hdigits : digitsValue ((if x.natAbs < 10 then ['0'.toUInt8] else []) ++
      printUint x.natAbs) = x.natAbs := by
    rw [digitsValue_append, digitsValue_printUint]
    split
    · rw [show digitsValue ['0'.toUInt8] = 0 by decide, Nat.zero_mul, Nat.zero_add]
    · rw [show digitsValue [] = 0 from rfl, Nat.zero_mul, Nat.zero_add]
  have hsign : some (if x < 0 then '-'.toUInt8 else '+'.toUInt8) = some '-'.toUInt8 ↔ x < 0 := by
    by_cases hx : x < 0
    · simp [hx]
    · simp [hx, show '+'.toUInt8 ≠ '-'.toUInt8 by decide]
  simp only [Exponent.value, printExponent, hdigits, hsign]
  split <;> omega

-- ════════════════════════════════════════════════════════════════════════
-- The number that is written
-- ════════════════════════════════════════════════════════════════════════

/-- A positive number in seventeen digits: all of them are there, and they are the number, rounded
    to as many. -/
theorem digits17_spec {a : ℚ} (ha : 0 < a) :
    10 ^ 16 ≤ (digits17 a).1 ∧ ((digits17 a).1 : ℚ) * (10 : ℚ) ^ ((digits17 a).2 - 16) =
      Rounding.round 10 17 (Rounding.place 10 17 a) a := by
  have hsig := Rounding.significand_mem (b := 10) (p := 17) (by decide) (by decide) ha
  obtain ⟨hlo, hhi⟩ : 10 ^ 16 ≤ Rounding.nearest (a / (10 : ℚ) ^ Rounding.place 10 17 a) ∧
      Rounding.nearest (a / (10 : ℚ) ^ Rounding.place 10 17 a) ≤ 10 ^ 17 :=
    Rounding.nearest_mem (by exact_mod_cast hsig.1) (by exact_mod_cast hsig.2.le)
  have hround : Rounding.round 10 17 (Rounding.place 10 17 a) a =
      Rounding.nearest (a / (10 : ℚ) ^ Rounding.place 10 17 a) *
        (10 : ℚ) ^ Rounding.place 10 17 a := by
    rw [Rounding.round, Rounding.placeFrom, max_self]
    norm_cast
  rw [hround, digits17]
  generalize Rounding.place 10 17 a = e at *
  obtain ⟨n, hn⟩ := Int.eq_ofNat_of_zero_le (le_trans (by norm_num) hlo)
  rw [hn] at hlo hhi ⊢
  rw [Int.toNat_natCast]
  split
  · next hfull =>
    refine ⟨le_rfl, ?_⟩
    rw [hfull, show e + 17 - 16 = 1 + e by omega, zpow_add₀ (by norm_num), zpow_one]
    push_cast
    ring
  · next hlt =>
    refine ⟨by exact_mod_cast hlo, ?_⟩
    rw [show e + 16 - 16 = e by omega]
    rfl

/-- What is written of a number is the number in seventeen digits. -/
theorem magnitude_printDouble (neg : Bool) {a : ℚ} (ha : 0 < a) :
    (printDouble neg a).magnitude = Rounding.round 10 17 (Rounding.place 10 17 a) a := by
  obtain ⟨-, hround⟩ := digits17_spec ha
  rw [← hround, printDouble, if_neg ha.ne']
  split
  · next hfixed =>
    rw [magnitude_pointNumeral, Option.elim_none]
    congr 2
    omega
  · rw [magnitude_pointNumeral, Option.elim_some, value_printExponent]
    norm_cast

theorem magnitude_printDouble_zero (neg : Bool) : (printDouble neg 0).magnitude = 0 := by
  rw [printDouble, if_pos rfl, magnitude_pointNumeral, Nat.cast_zero, zero_mul]

theorem printDouble_neg (neg : Bool) (a : ℚ) : (printDouble neg a).neg = neg := by
  rw [printDouble]
  split_ifs <;> rfl

/-- What is written of a number has a digit in front of the point, and a zero there only alone. -/
theorem printDouble_leadingDigit (neg : Bool) {a : ℚ} (ha : 0 ≤ a) :
    (printDouble neg a).LeadingDigit := by
  have hpoint : ∀ m k exp, (m / 10 ^ k = 0 → exp = none) →
      (pointNumeral neg m k exp).LeadingDigit := by
    intro m k exp hexp
    refine ⟨printUint_ne_nil _, fun hzero => ?_⟩
    have hm : m / 10 ^ k = 0 := by
      by_contra hne
      exact printUint_head (Nat.pos_of_ne_zero hne) hzero
    refine ⟨?_, fun _ => hexp hm⟩
    show (printUint (m / 10 ^ k)).length = 1
    rw [hm]
    decide
  rw [printDouble]
  split_ifs with hzero hfixed
  · exact hpoint _ _ _ fun _ => rfl
  · exact hpoint _ _ _ fun _ => rfl
  · have hpos : 0 < a := lt_of_le_of_ne ha (Ne.symm hzero)
    obtain ⟨hlead, -⟩ := digits17_spec hpos
    refine hpoint _ _ _ fun hnone => ?_
    have hlarge : 0 < (digits17 a).1 / 10 ^ 16 := Nat.div_pos hlead (by positivity)
    omega

-- ════════════════════════════════════════════════════════════════════════
-- Whole numbers
-- ════════════════════════════════════════════════════════════════════════

theorem lastDigits_zero (k : ℕ) : lastDigits k 0 = List.replicate k '0'.toUInt8 := by
  have hzero : printUint 0 = ['0'.toUInt8] := by decide
  induction k with
  | zero => rfl
  | succ k ih => rw [lastDigits, Nat.zero_div, Nat.zero_mod, ih, hzero, List.replicate_succ']

theorem fraction_zero (k : ℕ) : fraction k 0 = none := by
  have hall : (lastDigits k 0).rdropWhile (· == '0'.toUInt8) = [] := by
    rw [List.rdropWhile_eq_nil_iff, lastDigits_zero]
    intro b hb
    rw [List.eq_of_mem_replicate hb]
    rfl
  rw [fraction, if_pos hall]

/-- A number below 10 ^ 17 is a whole number in its seventeen digits. -/
theorem digits17_natCast {n : ℕ} (hpos : 0 < n) (hlt : n < 10 ^ 17) :
    digits17 n = (n * 10 ^ (16 - Nat.log 10 n), (Nat.log 10 n : ℤ)) := by
  have hlog : Nat.log 10 n ≤ 16 := by
    have := Nat.log_lt_of_lt_pow hpos.ne' hlt
    omega
  have hplace : Rounding.place 10 17 (n : ℚ) = -((16 - Nat.log 10 n : ℕ) : ℤ) := by
    rw [Rounding.place, Int.log_natCast]
    omega
  have hsig := (Rounding.significand_mem (b := 10) (p := 17) (by decide) (by decide)
    (show (0 : ℚ) < n by exact_mod_cast hpos)).2
  have hscaled : (n : ℚ) / 10 ^ Rounding.place 10 17 (n : ℚ) =
      ((n * 10 ^ (16 - Nat.log 10 n) : ℕ) : ℤ) := by
    rw [hplace, zpow_neg, div_inv_eq_mul, zpow_natCast]
    push_cast
    rfl
  have hnearest : (Rounding.nearest ((n : ℚ) / 10 ^ Rounding.place 10 17 (n : ℚ))).toNat =
      n * 10 ^ (16 - Nat.log 10 n) := by
    rw [hscaled, Rounding.nearest_intCast, Int.toNat_natCast]
  have hne : n * 10 ^ (16 - Nat.log 10 n) ≠ 10 ^ 17 := by
    intro he
    rw [Nat.cast_ofNat, hscaled, he] at hsig
    norm_num at hsig
  rw [digits17, hnearest, if_neg hne, hplace]
  congr 1
  omega

theorem pointNumeral_whole (neg : Bool) (n k : ℕ) :
    pointNumeral neg (n * 10 ^ k) k none = { uintNumeral n with neg } := by
  have hpow : 0 < 10 ^ k := Nat.pow_pos (by decide)
  have hint : n * 10 ^ k / 10 ^ k = n := Nat.mul_div_cancel n hpow
  simp only [pointNumeral, uintNumeral, hint, Nat.mul_mod_left, fraction_zero]

/-- A whole number below 10 ^ 17 is written without a point and an exponent. -/
theorem printDouble_natCast_eq (neg : Bool) {n : ℕ} (hlt : n < 10 ^ 17) :
    printDouble neg n = { uintNumeral n with neg } := by
  rw [printDouble]
  cases n.eq_zero_or_pos with
  | inl hzero =>
    subst hzero
    rw [if_pos Nat.cast_zero]
    exact pointNumeral_whole neg 0 0
  | inr hpos =>
    have hlog : Nat.log 10 n < 17 := Nat.log_lt_of_lt_pow hpos.ne' hlt
    have hne : (n : ℚ) ≠ 0 := by exact_mod_cast hpos.ne'
    rw [if_neg hne, digits17_natCast hpos hlt, if_pos (by dsimp only; omega)]
    have hk : (16 - (Nat.log 10 n : ℤ)).toNat = 16 - Nat.log 10 n := by omega
    dsimp only
    rw [hk]
    exact pointNumeral_whole neg n _

/-- A whole number below 10 ^ 17 is written with its digits. -/
theorem printDouble_natCast (neg : Bool) {n : ℕ} (hlt : n < 10 ^ 17) :
    (printDouble neg n).text = (if neg then ['-'.toUInt8] else []) ++ printUint n := by
  rw [printDouble_natCast_eq neg hlt]
  simp [Numeral.text, Numeral.body, uintNumeral]

/-- A number from 10 ^ 17 on is written with an exponent. -/
theorem printDouble_exp_of_le (neg : Bool) {a : ℚ} (h : 10 ^ 17 ≤ a) :
    (printDouble neg a).exp.isSome := by
  have hpos : 0 < a := lt_of_lt_of_le (by norm_num) h
  have hlog : (17 : ℤ) ≤ Int.log 10 a := by
    rw [← Int.zpow_le_iff_le_log (by decide) hpos]
    exact_mod_cast h
  have hexp : 17 ≤ (digits17 a).2 := by
    rw [digits17, Rounding.place]
    split <;> dsimp only <;> omega
  rw [printDouble, if_neg hpos.ne', if_neg (by omega)]
  rfl

end DeviceSdk.Parson
