import DeviceSdk.Dto.Document
import DeviceSdk.Lib.Utf8
import DeviceSdk.Parson.Binary64

/-!
# The numbers of device documents

The readers and writers of devices take the functions for numbers as parameters. Here they are those
that the model of `parson.c` uses: `strtod` rounds to doubles of 53 bits, and they are written in
seventeen digits.

## Main definitions

- `numeralOf` — the numeral that a text is
- `parsonNumbers` — the C library for device documents

## Main results

- `roundDouble_natCast` — a whole number is rounded to the double that is the nearest
- `parsonNumbers_rounds` — and so is the text of one by `strtod`
- `parseNumber_eq`, `reprint_eq` — the number of a text is that which `parse_number_value` gives,
  and it is written again as `json_serialize_to_string` does
-/

namespace DeviceSdk

open Parson (Binary64 JsonValue Numeral scanNumber)

-- ════════════════════════════════════════════════════════════════════════
-- Whole numbers as doubles
-- ════════════════════════════════════════════════════════════════════════

/-- A whole number is rounded to the double that is the nearest. -/
theorem roundDouble_natCast (a : ℕ) : Parson.roundDouble a = Double.ofNat a := by
  by_cases hsmall : a < 2 ^ 53
  · have hself := Parson.roundDouble_digits hsmall (show Parson.minExponent ≤ 0 by decide)
    rw [zpow_zero, mul_one] at hself
    have hexact : Double.ofNat a = a := by
      rw [Double.ofNat_eq_self_iff, Double.unit, Nat.sub_eq_zero_of_le (Nat.size_le.mpr hsmall)]
      exact one_dvd a
    rw [hself, hexact]
  · have hpos : 0 < a := lt_of_lt_of_le (by positivity) (not_lt.mp hsmall)
    have hsize : 53 < a.size := Nat.lt_size.mpr (not_lt.mp hsmall)
    have hplace : Rounding.placeFrom 2 53 Parson.minExponent a = ((a.size - 53 : ℕ) : ℤ) := by
      have hsize' : ((a.size - 53 : ℕ) : ℤ) + 53 = a.size := by omega
      have hpos' : (0 : ℚ) < a := by exact_mod_cast hpos
      have hle := Rounding.place_le (b := 2) (p := 53) (by decide) (by decide) hpos'
        (e := (a.size - 53 : ℕ)) (by
          push_cast
          rw [hsize', zpow_natCast]
          exact_mod_cast Nat.lt_size_self a)
      have hge := Rounding.le_place (b := 2) (p := 53) (by decide) (by decide) hpos'
        (e := (a.size - 53 : ℕ)) (by
          push_cast
          rw [hsize', show (a.size : ℤ) - 1 = ((a.size - 1 : ℕ) : ℤ) by omega, zpow_natCast]
          exact_mod_cast Nat.lt_size.mp (show a.size - 1 < a.size by omega))
      rw [Rounding.placeFrom, le_antisymm hle hge, Parson.minExponent]
      omega
    rw [Parson.roundDouble, Rounding.round, hplace, zpow_natCast]
    have hunit : ((2 : ℕ) : ℚ) ^ (a.size - 53) = (Double.unit a : ℕ) := by
      rw [Double.unit]
      push_cast
      rfl
    have hunit0 : 0 < Double.unit a := Nat.two_pow_pos _
    rw [hunit, Rounding.nearest_natCast_div a hunit0, Double.ofNat]
    split
    · push_cast
      rfl
    · push_cast
      rfl

-- ════════════════════════════════════════════════════════════════════════
-- Texts
-- ════════════════════════════════════════════════════════════════════════

/-- The numeral that a text is. -/
def numeralOf (lit : String) : Option Numeral :=
  match scanNumber (Utf8.bytes lit) with
  | some (n, []) => some n
  | _ => none

theorem numeralOf_iff {lit : String} {n : Numeral} :
    numeralOf lit = some n ↔ Utf8.bytes lit = n.text := by
  have hscan : numeralOf lit = some n ↔ scanNumber (Utf8.bytes lit) = some (n, []) := by
    rw [numeralOf]
    constructor
    · intro h
      split at h
      · next m hm => rw [hm, Option.some.inj h]
      · cases h
    · intro h
      rw [h]
  rw [hscan, Parson.scanNumber_iff, List.append_nil]
  refine and_iff_left_of_imp fun _ => ?_
  exact Parson.Numeral.ends_of_head fun b hb => by cases hb

/-- The number that a numeral without a fraction and an exponent stands for. -/
def wholeValue (n : Numeral) : Option ℤ :=
  if n.frac = none ∧ n.exp = none then
    some (if n.neg then -(Parson.digitsValue n.int : ℤ) else Parson.digitsValue n.int)
  else none

/-- The byte of a digit. -/
def digitByte (c : Char) : UInt8 := UInt8.ofNat c.toNat

theorem isDigit_bounds {c : Char} (h : c.isDigit = true) : 48 ≤ c.toNat ∧ c.toNat ≤ 57 := by
  rw [Char.isDigit, Bool.and_eq_true, decide_eq_true_eq, decide_eq_true_eq] at h
  exact h

theorem digitByte_toNat {c : Char} (h : c.isDigit = true) : (digitByte c).toNat = c.toNat := by
  have hle := (isDigit_bounds h).2
  rw [digitByte, UInt8.toNat_ofNat', Nat.mod_eq_of_lt (by omega)]

theorem digitByte_isDigit {c : Char} (h : c.isDigit = true) :
    Parson.isDigit (digitByte c) = true := by
  have hbounds := isDigit_bounds h
  have hbyte := digitByte_toNat h
  have hzero : '0'.toUInt8.toNat = 48 := rfl
  have hnine : '9'.toUInt8.toNat = 57 := rfl
  rw [Parson.isDigit, Bool.and_eq_true, decide_eq_true_eq, decide_eq_true_eq, UInt8.le_iff_toNat_le,
    UInt8.le_iff_toNat_le]
  omega

theorem bytes_digits {ds : List Char} (h : ds.all Char.isDigit = true) :
    ds.flatMap String.utf8EncodeChar = ds.map digitByte := by
  rw [← List.flatMap_pure_eq_map]
  refine List.flatMap_congr fun c hc => ?_
  have hle := (isDigit_bounds (List.all_eq_true.mp h c hc)).2
  exact Utf8.encode_of_lt (by omega)

theorem digitsValue_map_digitByte {ds : List Char} (h : ds.all Char.isDigit = true) :
    Parson.digitsValue (ds.map digitByte) = digitsValue ds := by
  rw [Parson.digitsValue, digitsValue, List.foldl_map]
  refine List.foldl_ext _ _ _ fun n c hc => ?_
  rw [digitByte_toNat (List.all_eq_true.mp h c hc)]

/-- The numeral of decimal digits. -/
def digitsNumeral (neg : Bool) (ds : List Char) (hne : ds ≠ []) (h : ds.all Char.isDigit = true) :
    Numeral where
  neg := neg
  int := ds.map digitByte
  frac := none
  exp := none
  int_digits := by
    intro b hb
    obtain ⟨c, hc, rfl⟩ := List.mem_map.mp hb
    exact digitByte_isDigit (List.all_eq_true.mp h c hc)
  frac_digits := Parson.noFraction_isDigit
  ne_nil := .inl (by simpa using hne)

theorem digitsNumeral_text (neg : Bool) {ds : List Char} (hne : ds ≠ [])
    (h : ds.all Char.isDigit = true) : (digitsNumeral neg ds hne h).text =
      (if neg then ['-'.toUInt8] else []) ++ ds.flatMap String.utf8EncodeChar := by
  rw [bytes_digits h]
  cases neg <;> simp [Numeral.text, Numeral.body, digitsNumeral]

theorem wholeValue_digitsNumeral (neg : Bool) {ds : List Char} (hne : ds ≠ [])
    (h : ds.all Char.isDigit = true) : wholeValue (digitsNumeral neg ds hne h) =
      some (if neg then -(digitsValue ds : ℤ) else digitsValue ds) := by
  rw [wholeValue, if_pos ⟨rfl, rfl⟩, digitsNumeral, digitsValue_map_digitByte h]

/-- The text of a whole number is a numeral of it. -/
theorem numeralOf_integer {lit : String} {k : ℤ} (h : integerLiteral lit = some k) :
    ∃ n, numeralOf lit = some n ∧ wholeValue n = some k := by
  have hbytes : Utf8.bytes lit = lit.toList.flatMap String.utf8EncodeChar := rfl
  rw [integerLiteral] at h
  split at h
  · next ds hlit =>
    by_cases hds : ds ≠ [] ∧ ds.all Char.isDigit = true
    · rw [if_pos hds] at h
      refine ⟨digitsNumeral true ds hds.1 hds.2, numeralOf_iff.mpr ?_, ?_⟩
      · rw [hbytes, hlit, digitsNumeral_text]
        rfl
      · rw [wholeValue_digitsNumeral, ← h]
        rfl
    · rw [if_neg hds] at h
      cases h
  · by_cases hds : lit.toList ≠ [] ∧ lit.toList.all Char.isDigit = true
    · rw [if_pos hds] at h
      refine ⟨digitsNumeral false lit.toList hds.1 hds.2, numeralOf_iff.mpr ?_, ?_⟩
      · rw [hbytes, digitsNumeral_text]
        rfl
      · rw [wholeValue_digitsNumeral, ← h]
        rfl
    · rw [if_neg hds] at h
      cases h

/-- Digits are the bytes of characters that are digits. -/
theorem exists_digits_of_bytes {bs : Parson.Bytes} (h : ∀ b ∈ bs, Parson.isDigit b = true) :
    ∃ ds : List Char, ds.all Char.isDigit = true ∧ ds.map digitByte = bs := by
  have hbyte : ∀ b, Parson.isDigit b = true →
      ∃ c : Char, c.isDigit = true ∧ digitByte c = b := by
    intro b hb
    rw [Parson.isDigit, Bool.and_eq_true, decide_eq_true_eq, decide_eq_true_eq,
      UInt8.le_iff_toNat_le, UInt8.le_iff_toNat_le] at hb
    have hzero : '0'.toUInt8.toNat = 48 := rfl
    have hnine : '9'.toUInt8.toNat = 57 := rfl
    have hchar : (Char.ofNat b.toNat).toNat = b.toNat := Utf8.toNat_charOfNat (.inl (by omega))
    refine ⟨Char.ofNat b.toNat, ?_, ?_⟩
    · have hle : 48 ≤ (Char.ofNat b.toNat).toNat ∧ (Char.ofNat b.toNat).toNat ≤ 57 := by
        rw [hchar]
        omega
      rw [Char.isDigit, Bool.and_eq_true, decide_eq_true_eq, decide_eq_true_eq]
      exact hle
    · rw [digitByte, hchar, UInt8.ofNat_toNat]
  induction bs with
  | nil => exact ⟨[], rfl, rfl⟩
  | cons b bs ih =>
    obtain ⟨c, hc, rfl⟩ := hbyte b (h b List.mem_cons_self)
    obtain ⟨ds, hds, rfl⟩ := ih fun d hd => h d (List.mem_cons_of_mem _ hd)
    exact ⟨c :: ds, by rw [List.all_cons, hc, hds, Bool.true_and], rfl⟩

/-- A numeral of a whole number is the text of it. -/
theorem integerLiteral_of_numeral {lit : String} {n : Numeral} (hn : numeralOf lit = some n)
    {k : ℤ} (hk : wholeValue n = some k) : integerLiteral lit = some k := by
  rw [wholeValue] at hk
  by_cases hwhole : n.frac = none ∧ n.exp = none
  · rw [if_pos hwhole] at hk
    obtain ⟨ds, hds, hint⟩ := exists_digits_of_bytes n.int_digits
    have hne : ds ≠ [] := by
      rintro rfl
      have hsome := n.ne_nil
      rw [← hint, hwhole.1] at hsome
      simp at hsome
    have htext : Utf8.bytes lit =
        (if n.neg then ['-'.toUInt8] else []) ++ ds.flatMap String.utf8EncodeChar := by
      rw [numeralOf_iff.mp hn, bytes_digits hds, hint, Numeral.text, Numeral.body, hwhole.1,
        hwhole.2]
      simp
    have hvalue : Parson.digitsValue n.int = digitsValue ds := by
      rw [← hint, digitsValue_map_digitByte hds]
    rw [hvalue] at hk
    have hlit : lit = String.ofList ((if n.neg then ['-'] else []) ++ ds) := by
      refine Utf8.bytes_injective ?_
      rw [htext, Utf8.bytes, String.toList_ofList, List.flatMap_append]
      cases n.neg <;> rfl
    rw [integerLiteral, hlit, String.toList_ofList]
    cases hneg : n.neg with
    | true =>
      rw [hneg] at hk
      simp only [if_true, List.singleton_append]
      rw [if_pos ⟨hne, hds⟩]
      exact hk
    | false =>
      rw [hneg] at hk
      rw [if_neg (by decide), List.nil_append]
      split
      · next ds' =>
        rw [List.all_cons] at hds
        exact absurd hds (by simp)
      · rw [if_pos ⟨hne, hds⟩]
        exact hk
  · rw [if_neg hwhole] at hk
    cases hk

/-- A text is that of a whole number when its numeral stands for one. -/
theorem integerLiteral_eq_wholeValue {lit : String} {n : Numeral} (hn : numeralOf lit = some n) :
    integerLiteral lit = wholeValue n := by
  cases hwhole : wholeValue n with
  | some k => exact integerLiteral_of_numeral hn hwhole
  | none =>
    by_contra hsome
    obtain ⟨k, hk⟩ := Option.ne_none_iff_exists'.mp hsome
    obtain ⟨m, hm, hvalue⟩ := numeralOf_integer hk
    obtain rfl : m = n := Option.some.inj (hm.symm.trans hn)
    rw [hwhole] at hvalue
    cases hvalue

/-- `strtoull` takes the whole numbers of 64 bits, and wraps those with a sign. -/
theorem strtoull_eq_wholeValue (n : Numeral) : n.strtoull =
    (wholeValue n).bind fun k => if k.natAbs < 2 ^ 64 then some (BitVec.ofInt 64 k) else none := by
  rw [Numeral.strtoull, wholeValue]
  by_cases hshape : n.frac = none ∧ n.exp = none
  · have hnatAbs : (if n.neg then -(Parson.digitsValue n.int : ℤ)
        else Parson.digitsValue n.int).natAbs = Parson.digitsValue n.int := by
      split <;> simp
    rw [if_pos hshape, Option.bind_some, hnatAbs]
    by_cases hlt : Parson.digitsValue n.int < 2 ^ 64
    · rw [if_pos ⟨hshape.1, hshape.2, hlt⟩, if_pos hlt]
      cases n.neg with
      | true => simp [BitVec.ofInt_neg]
      | false => simp
    · rw [if_neg fun h => hlt h.2.2, if_neg hlt]
  · rw [if_neg hshape, if_neg fun h => hshape ⟨h.1, h.2.1⟩, Option.bind_none]

-- ════════════════════════════════════════════════════════════════════════
-- The C library
-- ════════════════════════════════════════════════════════════════════════

/-- The C library for device documents, which may report what is too small, with what the IoT
    utilities library makes of numbers. -/
def parsonNumbers (underflows : ℚ → Bool) (fromJson : String → { d : IotData // d.IsNumber })
    (number : IotData → Option ℚ) : JsonNumbers where
  strtod lit := (((numeralOf lit).bind (Parson.strtod underflows)).map Binary64.value).getD 0
  print x := Utf8.text (Parson.printDouble (decide (x < 0)) |x|).text
  fromJson
  number

variable {underflows : ℚ → Bool} {fromJson : String → { d : IotData // d.IsNumber }}
  {number : IotData → Option ℚ}

/-- `strtod` gives the double that is nearest to a whole number. -/
theorem parsonNumbers_rounds : (parsonNumbers underflows fromJson number).Rounds := by
  intro lit k hk hlt
  obtain ⟨n, hn, hwhole⟩ := numeralOf_integer hk
  have hsome : (Parson.strtod underflows n).isSome := by
    refine Parson.strtod_uint underflows ?_
    rw [strtoull_eq_wholeValue, hwhole, Option.bind_some, if_pos hlt]
    rfl
  rw [wholeValue] at hwhole
  by_cases hshape : n.frac = none ∧ n.exp = none
  · rw [if_pos hshape, Option.some_inj] at hwhole
    obtain ⟨x, hx⟩ := Option.isSome_iff_exists.mp hsome
    have hspec : x.neg = n.neg ∧ x.mag = Parson.roundDouble n.magnitude := by
      rw [Parson.strtod] at hx
      split_ifs at hx
      obtain rfl := Option.some.inj hx
      exact ⟨rfl, rfl⟩
    have hmag : x.mag = (Double.ofNat (Parson.digitsValue n.int) : ℕ) := by
      rw [hspec.2, Parson.magnitude_whole hshape.1 hshape.2, roundDouble_natCast]
    simp only [parsonNumbers, hn, Option.bind_some, hx, Option.map_some, Option.getD_some]
    rw [Binary64.value, hspec.1, hmag, ← hwhole]
    split
    · rw [Double.ofInt_neg, Double.ofInt_natCast]
      push_cast
      rfl
    · rw [Double.ofInt_natCast]
      rfl
  · rw [if_neg hshape] at hwhole
    cases hwhole

/-- What `parse_number_value` makes of a numeral, as a number of a device document. -/
def ParsonNumber.ofValue : JsonValue Binary64 → Option ParsonNumber
  | .uint u => some (.uint u.toNat)
  | .number x => some (.number (x.value))
  | _ => none

/-- The number of a text is that which `parse_number_value` gives. -/
theorem parseNumber_eq {einval : Bool} {lit : String} {n : Numeral} (hn : numeralOf lit = some n)
    {v : JsonValue Binary64} (hv : n.value (Parson.binary64 einval underflows) = some v) :
    ParsonNumber.ofValue v = some (parseNumber (parsonNumbers underflows fromJson number) lit) := by
  rw [Numeral.value] at hv
  cases hx : (Parson.binary64 einval underflows).strtod n with
  | none =>
    rw [hx] at hv
    cases hv
  | some x =>
    have hstrtod : (parsonNumbers underflows fromJson number).strtod lit = x.value := by
      have hx' : Parson.strtod underflows n = some x := hx
      simp only [parsonNumbers, hn, Option.bind_some, hx', Option.map_some, Option.getD_some]
    rw [hx] at hv
    dsimp only at hv
    split_ifs at hv with hdecimal
    rw [strtoull_eq_wholeValue] at hv
    rw [parseNumber, hstrtod, integerLiteral_eq_wholeValue hn]
    cases hwhole : wholeValue n with
    | none =>
      rw [hwhole, Option.bind_none] at hv
      rw [← Option.some.inj hv]
      rfl
    | some k =>
      rw [hwhole, Option.bind_some] at hv
      dsimp only
      split_ifs at hv ⊢
      · rw [← Option.some.inj hv, ParsonNumber.ofValue, BitVec.toNat_ofInt]
        rfl
      · rw [← Option.some.inj hv]
        rfl

theorem bytes_toString (u : ℕ) : Utf8.bytes (toString u) = Parson.printUint u := by
  have hdigits : (Nat.toDigits 10 u).all Char.isDigit = true :=
    List.all_eq_true.mpr fun c hc => Nat.isDigit_of_mem_toDigits (by decide) (by decide) hc
  rw [Nat.toString_eq_repr, Nat.repr_eq_ofList_toDigits, Utf8.bytes, String.toList_ofList,
    bytes_digits hdigits, Parson.printUint]
  rfl

/-- A number that is read is written again as `json_serialize_to_string` writes it. A zero has no
    sign here. -/
theorem reprint_eq {einval : Bool} {lit : String} {n : Numeral} (hn : numeralOf lit = some n)
    {v : JsonValue Binary64} (hv : n.value (Parson.binary64 einval underflows) = some v)
    (hzero : ∀ x, v = .number x → x.mag = 0 → x.neg = false) (pretty : Bool) (level : ℕ) :
    reprint (parsonNumbers underflows fromJson number) lit =
      Utf8.text (Parson.serialize (Parson.binary64 einval underflows) pretty v level) := by
  have hread : ParsonNumber.ofValue v =
      some (parseNumber (parsonNumbers underflows fromJson number) lit) := parseNumber_eq hn hv
  rw [reprint]
  cases v with
  | uint u =>
    rw [← Option.some.inj hread, ParsonNumber.text, Parson.serialize, ← bytes_toString,
      Utf8.text_bytes]
  | number x =>
    have hsign : decide (x.value < 0) = x.neg ∧ |x.value| = x.mag := by
      rw [Binary64.value]
      cases hneg : x.neg with
      | true =>
        have hpos : 0 < x.mag := by
          refine lt_of_le_of_ne x.nonneg fun heq => ?_
          rw [hzero x rfl heq.symm] at hneg
          cases hneg
        exact ⟨decide_eq_true (neg_lt_zero.mpr hpos), (abs_neg _).trans (abs_of_pos hpos)⟩
      | false => exact ⟨decide_eq_false (not_lt.mpr x.nonneg), abs_of_nonneg x.nonneg⟩
    rw [← Option.some.inj hread, ParsonNumber.text, parsonNumbers]
    dsimp only
    rw [hsign.1, hsign.2]
    rfl
  | _ => cases hread

end DeviceSdk
