import Mathlib

/-!
# Rounding to a number of digits

A positive rational is rounded to a number of significant digits in a base, to the nearest such
number, and to the even one of two. There may be a lowest place, below which there are no digits.

## Main definitions

- `Rounding.nearest` — the nearest whole number
- `Rounding.place` — the place of the last digit
- `Rounding.round` — rounding

## Main results

- `Rounding.nearest_eq_of_abs_sub_lt`
- `Rounding.significand_mem` — a significand has all of its digits
- `Rounding.round_eq_self`, `Rounding.round_round` — the numbers that are kept
- `Rounding.round_eq_of_close` — a number that is found again from one close to it
-/

namespace Rounding

/-- The whole number nearest to `q`, and the even one of two. -/
def nearest (q : ℚ) : ℤ :=
  if Int.fract q < 1 / 2 ∨ (Int.fract q = 1 / 2 ∧ ⌊q⌋ % 2 = 0) then ⌊q⌋ else ⌊q⌋ + 1

theorem nearest_intCast (n : ℤ) : nearest n = n := by
  rw [nearest, Int.fract_intCast, if_pos (Or.inl (by norm_num)), Int.floor_intCast]

theorem abs_nearest_sub_le (q : ℚ) : |(nearest q : ℚ) - q| ≤ 1 / 2 := by
  have hfloor : (⌊q⌋ : ℚ) + Int.fract q = q := Int.floor_add_fract q
  have hnonneg := Int.fract_nonneg q
  have hlt := Int.fract_lt_one q
  rw [nearest, abs_le]
  split
  · next h =>
    have hle : Int.fract q ≤ 1 / 2 := h.elim le_of_lt fun h => h.1.le
    constructor <;> linarith
  · next h =>
    have hge : 1 / 2 ≤ Int.fract q := not_lt.mp fun hlt => h (Or.inl hlt)
    push_cast
    constructor <;> linarith

/-- What is less than a half away is the nearest. -/
theorem nearest_eq_of_abs_sub_lt {q : ℚ} {n : ℤ} (h : |q - n| < 1 / 2) : nearest q = n := by
  have hq := abs_le.mp (abs_nearest_sub_le q)
  have hn := abs_lt.mp h
  have hlt : ((nearest q - n : ℤ) : ℚ) < 1 := by
    push_cast
    linarith [hq.2, hn.2]
  have hgt : (-1 : ℚ) < ((nearest q - n : ℤ) : ℚ) := by
    push_cast
    linarith [hq.1, hn.1]
  have hlt' : nearest q - n < 1 := by exact_mod_cast hlt
  have hgt' : -1 < nearest q - n := by exact_mod_cast hgt
  omega

/-- Whole bounds are kept. -/
theorem nearest_mem {q : ℚ} {lo hi : ℤ} (hlo : (lo : ℚ) ≤ q) (hhi : q ≤ hi) :
    lo ≤ nearest q ∧ nearest q ≤ hi := by
  have hq := abs_le.mp (abs_nearest_sub_le q)
  have hgt : (lo : ℚ) - 1 < nearest q := by linarith [hq.1]
  have hlt : (nearest q : ℚ) < hi + 1 := by linarith [hq.2]
  have hgt' : lo - 1 < nearest q := by exact_mod_cast hgt
  have hlt' : nearest q < hi + 1 := by exact_mod_cast hlt
  omega

/-- The nearest whole number to a quotient, by its remainder. -/
theorem nearest_natCast_div (a : ℕ) {u : ℕ} (hu : 0 < u) :
    nearest ((a : ℚ) / u) =
      if 2 * (a % u) < u ∨ (2 * (a % u) = u ∧ a / u % 2 = 0) then ((a / u : ℕ) : ℤ)
      else ((a / u : ℕ) : ℤ) + 1 := by
  have hu' : (0 : ℚ) < u := by exact_mod_cast hu
  have hmod : a % u < u := Nat.mod_lt a hu
  have hdiv : ((a / u : ℕ) : ℚ) * u + (a % u : ℕ) = a := by exact_mod_cast Nat.div_add_mod' a u
  generalize a / u = q at *
  generalize a % u = r at *
  have hsplit : (a : ℚ) / u = q + r / u := by
    rw [← hdiv, add_div, mul_div_cancel_right₀ _ hu'.ne']
  have hlt : (r : ℚ) / u < 1 := by
    rw [div_lt_one hu']
    exact_mod_cast hmod
  have hnonneg : (0 : ℚ) ≤ r / u := by positivity
  have hfloor : ⌊(a : ℚ) / u⌋ = q := by
    rw [Int.floor_eq_iff, hsplit]
    constructor
    · rw [Int.cast_natCast]
      linarith
    · rw [Int.cast_natCast]
      linarith
  have hfract : Int.fract ((a : ℚ) / u) = r / u := by
    rw [Int.fract, hfloor, hsplit, Int.cast_natCast, add_sub_cancel_left]
  have hless : (r : ℚ) / u < 1 / 2 ↔ 2 * r < u := by
    rw [div_lt_div_iff₀ hu' two_pos, one_mul, mul_comm]
    exact_mod_cast Iff.rfl
  have hhalf : (r : ℚ) / u = 1 / 2 ↔ 2 * r = u := by
    rw [div_eq_div_iff hu'.ne' two_ne_zero, one_mul, mul_comm]
    exact_mod_cast Iff.rfl
  have heven : (q : ℤ) % 2 = 0 ↔ q % 2 = 0 := by omega
  simp only [nearest, hfloor, hfract, hless, hhalf, heven]

/-- The place of the last of `p` digits of a positive number. -/
def place (b p : ℕ) (q : ℚ) : ℤ := Int.log b q - (p - 1 : ℕ)

/-- A number that is counted in its last place has `p` digits. -/
theorem significand_mem {b p : ℕ} (hb : 1 < b) (hp : 0 < p) {q : ℚ} (hq : 0 < q) :
    (b : ℚ) ^ (p - 1) ≤ q / (b : ℚ) ^ place b p q ∧ q / (b : ℚ) ^ place b p q < (b : ℚ) ^ p := by
  have hpos : (0 : ℚ) < b := by exact_mod_cast hb.le
  have hlo := Int.zpow_log_le_self hb hq
  have hhi := Int.lt_zpow_succ_log_self hb q
  have hplace : (0 : ℚ) < (b : ℚ) ^ place b p q := zpow_pos hpos _
  rw [le_div_iff₀ hplace, div_lt_iff₀ hplace, ← zpow_natCast, ← zpow_natCast,
    ← zpow_add₀ hpos.ne', ← zpow_add₀ hpos.ne', place]
  constructor
  · rwa [add_sub_cancel]
  · have he : (p : ℤ) + (Int.log b q - (p - 1 : ℕ)) = Int.log b q + 1 := by omega
    rwa [he]

/-- The place in which a number is rounded to `p` digits, where there are none below `lo`. -/
def placeFrom (b p : ℕ) (lo : ℤ) (q : ℚ) : ℤ := max lo (place b p q)

theorem le_placeFrom (b p : ℕ) (lo : ℤ) (q : ℚ) : lo ≤ placeFrom b p lo q := le_max_left _ _

/-- A positive number, rounded to `p` digits in base `b` with none below the place `lo`. -/
def round (b p : ℕ) (lo : ℤ) (q : ℚ) : ℚ :=
  nearest (q / (b : ℚ) ^ placeFrom b p lo q) * (b : ℚ) ^ placeFrom b p lo q

section

variable {b p : ℕ} (hb : 1 < b)
include hb

theorem zpow_base_pos (k : ℤ) : (0 : ℚ) < (b : ℚ) ^ k := by
  have hpos : (0 : ℚ) < b := by exact_mod_cast hb.le
  exact zpow_pos hpos k

theorem zpow_base_add (k l : ℤ) : (b : ℚ) ^ (k + l) = (b : ℚ) ^ k * (b : ℚ) ^ l := by
  have hpos : (0 : ℚ) < b := by exact_mod_cast hb.le
  exact zpow_add₀ hpos.ne' k l

/-- A number below the power behind its `p` digits has its last digit in their place, or lower. -/
theorem place_le (hp : 0 < p) {q : ℚ} (hq : 0 < q) {e : ℤ} (h : q < (b : ℚ) ^ (e + p)) :
    place b p q ≤ e := by
  have hlog := (Int.lt_zpow_iff_log_lt hb hq).mp h
  rw [place]
  omega

/-- A number from the power of its first digit on has its last digit in that place, or higher. -/
theorem le_place (hp : 0 < p) {q : ℚ} (hq : 0 < q) {e : ℤ} (h : (b : ℚ) ^ (e + p - 1) ≤ q) :
    e ≤ place b p q := by
  have hlog := (Int.zpow_le_iff_le_log hb hq).mp h
  rw [place]
  omega

/-- Rounding is off by a half of the last place at most. -/
theorem abs_round_sub_le (lo : ℤ) (q : ℚ) :
    |round b p lo q - q| ≤ (b : ℚ) ^ placeFrom b p lo q / 2 := by
  have hpos := zpow_base_pos hb (placeFrom b p lo q)
  have hnear := abs_nearest_sub_le (q / (b : ℚ) ^ placeFrom b p lo q)
  have hscale : round b p lo q - q = (nearest (q / (b : ℚ) ^ placeFrom b p lo q) -
      q / (b : ℚ) ^ placeFrom b p lo q) * (b : ℚ) ^ placeFrom b p lo q := by
    rw [round, sub_mul, div_mul_cancel₀ q hpos.ne']
  rw [hscale, abs_mul, abs_of_pos hpos]
  linarith [mul_le_mul_of_nonneg_right hnear hpos.le]

/-- What is less than a half of the last place away from a number with digits there is rounded to
    that number. -/
theorem round_eq_of_place {lo e : ℤ} {y : ℚ} (he : placeFrom b p lo y = e) {m : ℤ}
    (h : |y - m * (b : ℚ) ^ e| < (b : ℚ) ^ e / 2) : round b p lo y = m * (b : ℚ) ^ e := by
  have hpos := zpow_base_pos hb e
  have hnear : nearest (y / (b : ℚ) ^ e) = m := by
    refine nearest_eq_of_abs_sub_lt ?_
    have hscale : y / (b : ℚ) ^ e - m = (y - m * (b : ℚ) ^ e) / (b : ℚ) ^ e := by
      rw [sub_div, mul_div_cancel_right₀ _ hpos.ne']
    rw [hscale, abs_div, abs_of_pos hpos, div_lt_iff₀ hpos]
    linarith
  rw [round, he, hnear]

/-- A number that is counted in a place that is not too low is kept. -/
theorem round_eq_self (hp : 0 < p) {lo e : ℤ} (he : lo ≤ e) {m : ℕ} (hm : m < b ^ p) :
    round b p lo (m * (b : ℚ) ^ e) = m * (b : ℚ) ^ e := by
  have hpos := zpow_base_pos hb e
  cases m.eq_zero_or_pos with
  | inl hzero =>
    subst hzero
    rw [round, Nat.cast_zero, zero_mul, zero_div, show (0 : ℚ) = (0 : ℤ) from rfl, nearest_intCast,
      Int.cast_zero, zero_mul]
  | inr hm0 =>
    have hq : (0 : ℚ) < m * (b : ℚ) ^ e := mul_pos (by exact_mod_cast hm0) hpos
    have hle : placeFrom b p lo (m * (b : ℚ) ^ e) ≤ e := by
      refine max_le he (place_le hb hp hq ?_)
      rw [zpow_base_add hb, mul_comm, zpow_natCast]
      exact (mul_lt_mul_iff_right₀ hpos).mpr (by exact_mod_cast hm)
    have hscale : m * (b : ℚ) ^ e / (b : ℚ) ^ placeFrom b p lo (m * (b : ℚ) ^ e) =
        ((m * b ^ (e - placeFrom b p lo (m * (b : ℚ) ^ e)).toNat : ℕ) : ℤ) := by
      have hsplit : e = ((e - placeFrom b p lo (m * (b : ℚ) ^ e)).toNat : ℤ) +
          placeFrom b p lo (m * (b : ℚ) ^ e) := by omega
      rw [div_eq_iff (zpow_base_pos hb _).ne']
      nth_rewrite 1 [hsplit]
      rw [zpow_base_add hb, zpow_natCast]
      push_cast
      ring
    rw [round, hscale, nearest_intCast, ← hscale, div_mul_cancel₀ _ (zpow_base_pos hb _).ne']

/-- A number that is rounded is counted in a place that is not too low, and has all of its digits
    unless the place is the lowest. -/
theorem exists_digits (hp : 0 < p) (lo : ℤ) {q : ℚ} (hq : 0 < q) :
    ∃ (m : ℕ) (e : ℤ), round b p lo q = m * (b : ℚ) ^ e ∧ m < b ^ p ∧ lo ≤ e ∧
      (b ^ (p - 1) ≤ m ∨ e = lo) := by
  have hpos := zpow_base_pos hb (placeFrom b p lo q)
  have hplace : place b p q ≤ placeFrom b p lo q := le_max_right _ _
  have hsig := significand_mem hb hp hq
  have hle : (b : ℚ) ^ place b p q ≤ (b : ℚ) ^ placeFrom b p lo q :=
    zpow_le_zpow_right₀ (by exact_mod_cast hb.le) hplace
  have hhi : q / (b : ℚ) ^ placeFrom b p lo q ≤ ((b ^ p : ℕ) : ℤ) := by
    have hdiv : q / (b : ℚ) ^ placeFrom b p lo q ≤ q / (b : ℚ) ^ place b p q :=
      div_le_div_of_nonneg_left hq.le (zpow_base_pos hb _) hle
    push_cast
    exact hdiv.trans hsig.2.le
  have hlo : ((0 : ℕ) : ℤ) ≤ q / (b : ℚ) ^ placeFrom b p lo q := by
    rw [Nat.cast_zero, Int.cast_zero]
    exact (div_pos hq hpos).le
  obtain ⟨hn0, hnp⟩ : ((0 : ℕ) : ℤ) ≤ nearest (q / (b : ℚ) ^ placeFrom b p lo q) ∧
      nearest (q / (b : ℚ) ^ placeFrom b p lo q) ≤ ((b ^ p : ℕ) : ℤ) :=
    nearest_mem (by exact_mod_cast hlo) (by exact_mod_cast hhi)
  obtain ⟨n, hn⟩ := Int.eq_ofNat_of_zero_le hn0
  have hround : round b p lo q = n * (b : ℚ) ^ placeFrom b p lo q := by
    rw [round, hn]
    rfl
  rw [hn] at hnp
  cases (Int.ofNat_le.mp hnp).eq_or_lt with
  | inl hfull =>
    -- one more digit, which is a one
    refine ⟨b ^ (p - 1), placeFrom b p lo q + 1, ?_, Nat.pow_lt_pow_right hb (by omega),
      (le_placeFrom b p lo q).trans (by omega), .inl le_rfl⟩
    have hpow : b ^ p = b ^ (p - 1) * b := by
      rw [← pow_succ, Nat.sub_add_cancel hp]
    rw [hround, hfull, hpow, zpow_base_add hb, zpow_one]
    push_cast
    ring
  | inr hlt =>
    refine ⟨n, placeFrom b p lo q, hround, hlt, le_placeFrom b p lo q, ?_⟩
    by_cases hlowest : placeFrom b p lo q = lo
    · exact .inr hlowest
    · refine .inl ?_
      have heq : placeFrom b p lo q = place b p q := by
        rw [placeFrom] at hlowest ⊢
        omega
      have hge : (((b ^ (p - 1) : ℕ) : ℤ) : ℚ) ≤ q / (b : ℚ) ^ placeFrom b p lo q := by
        rw [heq]
        push_cast
        exact hsig.1
      have hmem := (nearest_mem hge (by exact_mod_cast hhi)).1
      rw [hn] at hmem
      exact Int.ofNat_le.mp hmem

/-- What is rounded once is kept. -/
theorem round_round (hp : 0 < p) (lo : ℤ) {q : ℚ} (hq : 0 < q) :
    round b p lo (round b p lo q) = round b p lo q := by
  obtain ⟨m, e, hround, hm, he, -⟩ := exists_digits hb hp lo hq
  rw [hround, round_eq_self hb hp he hm]

/-- The error of rounding where no place is too low, as a part of the number. -/
theorem abs_round_sub_mul_le (hp : 0 < p) {lo : ℤ} {q : ℚ} (hq : 0 < q) (hlo : lo ≤ place b p q) :
    |round b p lo q - q| * (2 * (b : ℚ) ^ (p - 1)) ≤ q := by
  have hpos := zpow_base_pos hb (place b p q)
  have herr := abs_round_sub_le (p := p) hb lo q
  rw [placeFrom, max_eq_right hlo] at herr
  have hsig := (significand_mem hb hp hq).1
  rw [le_div_iff₀ hpos] at hsig
  have hscaled : (0 : ℚ) ≤ 2 * (b : ℚ) ^ (p - 1) := by positivity
  calc |round b p lo q - q| * (2 * (b : ℚ) ^ (p - 1))
      ≤ (b : ℚ) ^ place b p q / 2 * (2 * (b : ℚ) ^ (p - 1)) :=
        mul_le_mul_of_nonneg_right herr hscaled
    _ = (b : ℚ) ^ (p - 1) * (b : ℚ) ^ place b p q := by ring
    _ ≤ q := hsig

/-- A number with `p` digits is found again from what is off by a small part of it. -/
theorem round_eq_of_close (hp : 0 < p) {lo e : ℤ} {m : ℕ} (hm0 : 0 < m) (hm : m < b ^ p)
    (he : lo ≤ e) (hlead : b ^ (p - 1) ≤ m ∨ e = lo) {c : ℕ} (hc : b ^ p < c) {y : ℚ}
    (hy : |y - m * (b : ℚ) ^ e| * (2 * c) ≤ m * (b : ℚ) ^ e) :
    round b p lo y = m * (b : ℚ) ^ e := by
  have hu := zpow_base_pos hb e
  have hc0 : (0 : ℚ) < c := by exact_mod_cast (Nat.zero_le _).trans_lt hc
  have hm1 : (1 : ℚ) ≤ m := by exact_mod_cast hm0
  have hmp : (m : ℚ) + 1 ≤ (b : ℚ) ^ p := by exact_mod_cast hm
  have hcp : (b : ℚ) ^ p < c := by exact_mod_cast hc
  -- what is a part of less than `c` units is off by less than a half of one
  have hhalf : ∀ {v : ℚ}, 0 < v → m * (b : ℚ) ^ e ≤ (b : ℚ) ^ p * v →
      |y - m * (b : ℚ) ^ e| < v / 2 := by
    intro v hv hle
    have hlt : |y - m * (b : ℚ) ^ e| * (2 * c) < v * c := by
      calc |y - m * (b : ℚ) ^ e| * (2 * c) ≤ (b : ℚ) ^ p * v := hy.trans hle
        _ < c * v := mul_lt_mul_of_pos_right hcp hv
        _ = v * c := mul_comm _ _
    have htwo : |y - m * (b : ℚ) ^ e| * 2 * c < v * c := by linarith
    linarith [lt_of_mul_lt_mul_right htwo hc0.le]
  have hclose := hhalf hu (mul_le_mul_of_nonneg_right (by linarith) hu.le)
  obtain ⟨hlow, hhigh⟩ := abs_lt.mp hclose
  have hunit : (b : ℚ) ^ e ≤ m * (b : ℚ) ^ e := le_mul_of_one_le_left hu.le hm1
  have hy0 : 0 < y := by linarith
  have htop : (m + 1) * (b : ℚ) ^ e ≤ (b : ℚ) ^ p * (b : ℚ) ^ e :=
    mul_le_mul_of_nonneg_right hmp hu.le
  have hle : place b p y ≤ e := by
    refine place_le hb hp hy0 ?_
    rw [add_comm, zpow_base_add hb, zpow_natCast]
    linarith
  by_cases hfit : e ≤ placeFrom b p lo y
  · have hplace : placeFrom b p lo y = e := le_antisymm (max_le he hle) hfit
    exact round_eq_of_place (m := m) hb hplace hclose
  · -- below the power that is the number itself, the places are one lower
    have hlt : place b p y < e ∧ lo < e := by
      rw [placeFrom] at hfit
      omega
    have hbelow : y < (b : ℚ) ^ (p - 1) * (b : ℚ) ^ e := by
      have hnot := mt (le_place hb hp hy0) (not_le.mpr hlt.1)
      rwa [not_le, show e + (p : ℤ) - 1 = ((p - 1 : ℕ) : ℤ) + e by omega, zpow_base_add hb,
        zpow_natCast] at hnot
    have hlead' : b ^ (p - 1) ≤ m := hlead.resolve_right hlt.2.ne'
    have hm' : m = b ^ (p - 1) := by
      refine le_antisymm (not_lt.mp fun hmore => ?_) hlead'
      have hmore' : (b : ℚ) ^ (p - 1) + 1 ≤ m := by exact_mod_cast hmore
      have := mul_le_mul_of_nonneg_right hmore' hu.le
      linarith
    have hv := zpow_base_pos hb (e - 1)
    have hx : m * (b : ℚ) ^ e = ((b ^ p : ℕ) : ℤ) * (b : ℚ) ^ (e - 1) := by
      have hpow : b ^ p = b ^ (p - 1) * b := by
        rw [← pow_succ, Nat.sub_add_cancel hp]
      nth_rewrite 1 [show e = 1 + (e - 1) by omega]
      rw [zpow_base_add hb, zpow_one, hm', hpow]
      push_cast
      ring
    have hclose' := hhalf hv (by rw [hx]; push_cast; exact le_rfl)
    rw [hx] at hclose' ⊢
    refine round_eq_of_place hb ?_ hclose'
    have hge : e - 1 ≤ place b p y := by
      refine le_place hb hp hy0 ?_
      have hpow : b ^ (p - 1) + 1 ≤ b ^ p := Nat.pow_lt_pow_right hb (by omega)
      have hpow' : (b : ℚ) ^ (p - 1) + 1 ≤ ((b ^ p : ℕ) : ℤ) := by exact_mod_cast hpow
      have hmul := mul_le_mul_of_nonneg_right hpow' hv.le
      rw [show e - 1 + (p : ℤ) - 1 = ((p - 1 : ℕ) : ℤ) + (e - 1) by omega, zpow_base_add hb,
        zpow_natCast]
      linarith [(abs_lt.mp hclose').1]
    rw [placeFrom]
    omega

end

end Rounding
