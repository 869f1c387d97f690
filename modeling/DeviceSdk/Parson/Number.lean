import DeviceSdk.Lib.Scan
import DeviceSdk.Parson.Text

/-!
# Numbers of JSON documents

`parse_number_value` of `parson.c` leaves it to `strtod` and `strtoull` where a number ends. Here is
what `strtod` takes of a text when it is a decimal numeral, and the value that `strtoull` gives it.

## Main definitions

- `Numeral`, `Numeral.text` — a decimal numeral
- `scanNumber` — the numeral at the start of a text
- `Numeral.Ends` — a rest that the numeral does not go on in
- `Numeral.magnitude` — the number that a numeral stands for
- `Numeral.strtoull`, `printUint`

## Main results

- `scanNumber_iff`
- `scanNumber_printUint` — a number that is written is read again
-/

namespace DeviceSdk.Parson

/-- A decimal digit. -/
def isDigit (b : UInt8) : Bool := '0'.toUInt8 ≤ b && b ≤ '9'.toUInt8

/-- The exponent of a numeral. -/
structure Exponent where
  letter : UInt8
  sign : Option UInt8
  digits : Bytes
  letter_eq : letter = 'e'.toUInt8 ∨ letter = 'E'.toUInt8
  sign_eq : ∀ c ∈ sign, c = '+'.toUInt8 ∨ c = '-'.toUInt8
  digits_isDigit : ∀ b ∈ digits, isDigit b = true
  ne_nil : digits ≠ []

def Exponent.text (e : Exponent) : Bytes := e.letter :: (e.sign.toList ++ e.digits)

/-- A decimal numeral as `strtod` knows it: digits with a point somewhere, of which there is
    one digit at least, and perhaps an exponent. -/
structure Numeral where
  neg : Bool
  int : Bytes
  frac : Option Bytes
  exp : Option Exponent
  int_digits : ∀ b ∈ int, isDigit b = true
  frac_digits : ∀ b ∈ frac.getD [], isDigit b = true
  ne_nil : int ≠ [] ∨ frac.getD [] ≠ []

namespace Numeral

/-- A numeral without its sign. -/
def body (n : Numeral) : Bytes :=
  n.int ++ (n.frac.elim [] ('.'.toUInt8 :: ·) ++ n.exp.elim [] Exponent.text)

def text (n : Numeral) : Bytes := (if n.neg then ['-'.toUInt8] else []) ++ n.body

end Numeral

-- ════════════════════════════════════════════════════════════════════════
-- Scanning
-- ════════════════════════════════════════════════════════════════════════

/-- The sign of an exponent. -/
def scanSign : Bytes → Option UInt8 × Bytes
  | [] => (none, [])
  | c :: s => if c = '+'.toUInt8 ∨ c = '-'.toUInt8 then (some c, s) else (none, c :: s)

theorem scanSign_sign (s : Bytes) : ∀ c ∈ (scanSign s).1, c = '+'.toUInt8 ∨ c = '-'.toUInt8 := by
  intro d hd
  cases s with
  | nil => cases hd
  | cons c s =>
    rw [scanSign] at hd
    split_ifs at hd with hc
    · obtain rfl : c = d := Option.some.inj hd
      exact hc
    · cases hd

/-- The exponent at the start of a text. Without digits there is none. -/
def scanExponent : Bytes → Option (Exponent × Bytes)
  | [] => none
  | c :: s =>
    if hc : c = 'e'.toUInt8 ∨ c = 'E'.toUInt8 then
      if hd : (scanSign s).2.takeWhile isDigit ≠ [] then
        some (⟨c, (scanSign s).1, (scanSign s).2.takeWhile isDigit, hc, scanSign_sign s,
          fun _ h => List.mem_takeWhile_imp h, hd⟩, (scanSign s).2.dropWhile isDigit)
      else none
    else none

/-- The point and the digits behind it. -/
def scanFraction : Bytes → Option Bytes × Bytes
  | [] => (none, [])
  | c :: s =>
    if c = '.'.toUInt8 then (some (s.takeWhile isDigit), s.dropWhile isDigit)
    else (none, c :: s)

theorem scanFraction_digits (s : Bytes) : ∀ b ∈ (scanFraction s).1.getD [], isDigit b = true := by
  intro b hb
  cases s with
  | nil => cases hb
  | cons c s =>
    rw [scanFraction] at hb
    split_ifs at hb
    · exact List.mem_takeWhile_imp hb
    · cases hb

/-- The numeral without a sign at the start of a text. -/
def scanBody (neg : Bool) (s : Bytes) : Option (Numeral × Bytes) :=
  if h : s.takeWhile isDigit ≠ [] ∨ (scanFraction (s.dropWhile isDigit)).1.getD [] ≠ [] then
    let n : Option Exponent → Numeral := fun exp =>
      ⟨neg, s.takeWhile isDigit, (scanFraction (s.dropWhile isDigit)).1, exp,
        fun _ h => List.mem_takeWhile_imp h, scanFraction_digits _, h⟩
    match scanExponent (scanFraction (s.dropWhile isDigit)).2 with
    | some (e, rest) => some (n (some e), rest)
    | none => some (n none, (scanFraction (s.dropWhile isDigit)).2)
  else none

/-- The numeral at the start of a text. -/
def scanNumber : Bytes → Option (Numeral × Bytes)
  | [] => none
  | c :: s => if c = '-'.toUInt8 then scanBody true s else scanBody false (c :: s)

/-- A numeral does not go on in the rest of a text. -/
def Numeral.Ends (n : Numeral) (rest : Bytes) : Prop :=
  Scan.Stops isDigit rest ∧
    (n.exp = none → scanExponent rest = none ∧ (n.frac = none → rest.head? ≠ some '.'.toUInt8))

theorem isDigit_ne {b d : UInt8} (h : isDigit b = true) (hd : isDigit d = false) : b ≠ d := by
  rintro rfl
  rw [h] at hd
  cases hd

theorem scanSign_append (s : Bytes) : (scanSign s).1.toList ++ (scanSign s).2 = s := by
  cases s with
  | nil => rfl
  | cons c s =>
    rw [scanSign]
    split_ifs <;> rfl

/-- A sign in front of a digit is read, and no digit is a sign. -/
theorem scanSign_of_digit {sign : Option UInt8} {s : Bytes}
    (hsign : ∀ c ∈ sign, c = '+'.toUInt8 ∨ c = '-'.toUInt8) (hs : ¬ Scan.Stops isDigit s) :
    scanSign (sign.toList ++ s) = (sign, s) := by
  cases sign with
  | some c => exact if_pos (hsign c rfl)
  | none =>
    cases s with
    | nil => exact absurd (fun c hc => by cases hc) hs
    | cons b s =>
      have hb : isDigit b = true := by
        rw [Scan.stops_cons] at hs
        simpa using hs
      have hne : ¬ (b = '+'.toUInt8 ∨ b = '-'.toUInt8) := by
        rintro (h | h)
        · exact isDigit_ne hb (by decide) h
        · exact isDigit_ne hb (by decide) h
      exact if_neg hne

theorem not_stops_append {ds rest : Bytes} (hd : ∀ b ∈ ds, isDigit b = true) (hne : ds ≠ []) :
    ¬ Scan.Stops isDigit (ds ++ rest) := by
  cases ds with
  | nil => exact absurd rfl hne
  | cons b ds =>
    rw [List.cons_append, Scan.stops_cons, hd b List.mem_cons_self]
    decide

theorem scanExponent_iff {s rest : Bytes} {e : Exponent} :
    scanExponent s = some (e, rest) ↔ s = e.text ++ rest ∧ Scan.Stops isDigit rest := by
  constructor
  · intro h
    cases s with
    | nil => cases h
    | cons c s =>
      rw [scanExponent] at h
      split_ifs at h with hc hd
      obtain ⟨rfl, rfl⟩ := Prod.mk.inj (Option.some.inj h)
      refine ⟨?_, Scan.stops_dropWhile _⟩
      rw [Exponent.text, List.cons_append, List.append_assoc, List.takeWhile_append_dropWhile,
        scanSign_append]
  · rintro ⟨rfl, hstop⟩
    obtain ⟨letter, sign, digits, hletter, hsign, hdigits, hne⟩ := e
    have hscan : scanSign (sign.toList ++ (digits ++ rest)) = (sign, digits ++ rest) :=
      scanSign_of_digit hsign (not_stops_append hdigits hne)
    obtain ⟨htake, hdrop⟩ := Scan.munch_iff.mpr ⟨rfl, hdigits, hstop⟩
    simp only [Exponent.text, List.cons_append, List.append_assoc, scanExponent, hscan, htake,
      hdrop, dif_pos hletter, dif_pos hne]

theorem scanFraction_append (s : Bytes) :
    (scanFraction s).1.elim [] ('.'.toUInt8 :: ·) ++ (scanFraction s).2 = s := by
  cases s with
  | nil => rfl
  | cons c s =>
    rw [scanFraction]
    split_ifs with hc
    · rw [hc]
      exact congrArg _ List.takeWhile_append_dropWhile
    · rfl

theorem stops_scanFraction {s : Bytes} (h : Scan.Stops isDigit s) :
    Scan.Stops isDigit (scanFraction s).2 := by
  cases s with
  | nil => exact h
  | cons c s =>
    rw [scanFraction]
    split_ifs with hc
    · exact Scan.stops_dropWhile _
    · exact h

theorem scanFraction_none {s : Bytes} (h : (scanFraction s).1 = none) :
    (scanFraction s).2.head? ≠ some '.'.toUInt8 := by
  cases s with
  | nil => exact fun h => by cases h
  | cons c s =>
    rw [scanFraction] at h ⊢
    split_ifs at h ⊢ with hc
    exact fun heq => hc (Option.some.inj heq)

/-- The digits behind a point, or no point. -/
theorem scanFraction_of {frac : Option Bytes} {rest : Bytes}
    (hdigits : ∀ b ∈ frac.getD [], isDigit b = true) (hstop : Scan.Stops isDigit rest)
    (hpoint : frac = none → rest.head? ≠ some '.'.toUInt8) :
    scanFraction (frac.elim [] ('.'.toUInt8 :: ·) ++ rest) = (frac, rest) := by
  cases frac with
  | none =>
    cases rest with
    | nil => rfl
    | cons c rest => exact if_neg fun hc => hpoint rfl (congrArg some hc)
  | some ds =>
    obtain ⟨htake, hdrop⟩ := Scan.munch_iff.mpr ⟨rfl, hdigits, hstop⟩
    simp only [Option.elim_some, List.cons_append, scanFraction, if_true]
    rw [Option.getD_some] at htake hdrop
    rw [htake, hdrop]

/-- What stands behind the digits of a numeral and its fraction. -/
def Numeral.tail (n : Numeral) (rest : Bytes) : Bytes := n.exp.elim [] Exponent.text ++ rest

theorem Numeral.Ends.tail {n : Numeral} {rest : Bytes} (h : n.Ends rest) :
    Scan.Stops isDigit (n.tail rest) ∧
      (n.frac = none → (n.tail rest).head? ≠ some '.'.toUInt8) := by
  rw [Numeral.tail]
  cases he : n.exp with
  | none => exact ⟨h.1, (h.2 he).2⟩
  | some e =>
    rw [Option.elim_some, Exponent.text, List.cons_append, Scan.stops_cons, List.head?_cons]
    rcases e.letter_eq with hl | hl <;> rw [hl] <;> exact ⟨by decide, fun _ => by decide⟩

/-- `scanBody` finds the numerals that the rest does not prolong. -/
theorem scanBody_iff {neg : Bool} {s rest : Bytes} {n : Numeral} :
    scanBody neg s = some (n, rest) ↔ s = n.body ++ rest ∧ n.neg = neg ∧ n.Ends rest := by
  constructor
  · intro h
    rw [scanBody] at h
    split_ifs at h with hne
    have hs : s.takeWhile isDigit ++ ((scanFraction (s.dropWhile isDigit)).1.elim []
        ('.'.toUInt8 :: ·) ++ (scanFraction (s.dropWhile isDigit)).2) = s := by
      rw [scanFraction_append, List.takeWhile_append_dropWhile]
    cases he : scanExponent (scanFraction (s.dropWhile isDigit)).2 with
    | none =>
      simp only [he] at h
      obtain ⟨rfl, rfl⟩ := Prod.mk.inj (Option.some.inj h)
      refine ⟨?_, rfl, stops_scanFraction (Scan.stops_dropWhile s),
        fun _ => ⟨he, scanFraction_none⟩⟩
      rw [Numeral.body, Option.elim_none, List.append_nil, List.append_assoc]
      exact hs.symm
    | some p =>
      obtain ⟨e, rest'⟩ := p
      simp only [he] at h
      obtain ⟨rfl, rfl⟩ := Prod.mk.inj (Option.some.inj h)
      obtain ⟨heq, hstop⟩ := scanExponent_iff.mp he
      refine ⟨?_, rfl, hstop, fun hnone => by cases hnone⟩
      rw [heq] at hs
      rw [Numeral.body, Option.elim_some, List.append_assoc, List.append_assoc]
      exact hs.symm
  · rintro ⟨hs, rfl, hends⟩
    obtain ⟨htail, hpoint⟩ := hends.tail
    obtain ⟨neg, int, frac, exp, hint, hfrac, hne⟩ := n
    simp only [Numeral.tail] at htail hpoint
    have hs' : s = int ++ (frac.elim [] ('.'.toUInt8 :: ·) ++
        (exp.elim [] Exponent.text ++ rest)) := by
      rw [hs, Numeral.body, List.append_assoc, List.append_assoc]
    have hstop : Scan.Stops isDigit (frac.elim [] ('.'.toUInt8 :: ·) ++
        (exp.elim [] Exponent.text ++ rest)) := by
      cases frac with
      | none => exact htail
      | some ds =>
        rw [Option.elim_some, List.cons_append, Scan.stops_cons]
        decide
    obtain ⟨htake, hdrop⟩ := Scan.munch_iff.mpr ⟨hs', hint, hstop⟩
    have hscan := scanFraction_of hfrac htail hpoint
    cases exp with
    | none =>
      have he : scanExponent rest = none := (hends.2 rfl).1
      simp only [Option.elim_none, List.nil_append] at hdrop hscan
      simp only [scanBody, htake, hdrop, hscan, he, dif_pos hne]
    | some e =>
      have he : scanExponent (e.text ++ rest) = some (e, rest) :=
        scanExponent_iff.mpr ⟨rfl, hends.1⟩
      simp only [Option.elim_some] at hdrop hscan
      simp only [scanBody, htake, hdrop, hscan, he, dif_pos hne]

/-- The first byte of a numeral without its sign. -/
theorem Numeral.body_head (n : Numeral) :
    ∃ b t, n.body = b :: t ∧ (isDigit b = true ∨ b = '.'.toUInt8) := by
  rw [Numeral.body]
  cases hi : n.int with
  | cons b int => exact ⟨b, _, rfl, .inl (n.int_digits b (by rw [hi]; exact List.mem_cons_self))⟩
  | nil =>
    cases hf : n.frac with
    | none =>
      have hne := n.ne_nil
      rw [hi, hf] at hne
      simp at hne
    | some ds => exact ⟨_, _, rfl, .inr rfl⟩

/-- `strtod` finds the numerals that the rest does not prolong. -/
theorem scanNumber_iff {s rest : Bytes} {n : Numeral} :
    scanNumber s = some (n, rest) ↔ s = n.text ++ rest ∧ n.Ends rest := by
  obtain ⟨b, t, hbody, hb⟩ := n.body_head
  have hne : b ≠ '-'.toUInt8 := by
    rcases hb with hb | rfl
    · exact isDigit_ne hb (by decide)
    · decide
  cases s with
  | nil =>
    constructor
    · intro h
      cases h
    · rintro ⟨h, -⟩
      rw [Numeral.text, hbody] at h
      simp at h
  | cons c s =>
    rw [scanNumber, Numeral.text]
    by_cases hc : c = '-'.toUInt8
    · rw [if_pos hc, scanBody_iff]
      cases n.neg with
      | true => simp [hc]
      | false =>
        constructor
        · rintro ⟨-, h, -⟩
          cases h
        · rintro ⟨h, -⟩
          rw [if_neg (by decide), List.nil_append, hbody] at h
          exact absurd ((List.cons.inj h).1.symm.trans hc) hne
    · rw [if_neg hc, scanBody_iff]
      cases n.neg with
      | true =>
        constructor
        · rintro ⟨-, h, -⟩
          cases h
        · rintro ⟨h, -⟩
          exact absurd (List.cons.inj h).1 hc
      | false => simp

/-- A byte of a numeral. -/
def NumeralByte (b : UInt8) : Prop :=
  isDigit b = true ∨ b ∈ ['.'.toUInt8, 'e'.toUInt8, 'E'.toUInt8, '+'.toUInt8, '-'.toUInt8]

theorem Exponent.numeralByte (e : Exponent) : ∀ b ∈ e.text, NumeralByte b := by
  intro b hb
  rw [Exponent.text] at hb
  rcases List.mem_cons.mp hb with rfl | hb
  · rcases e.letter_eq with h | h <;> rw [h] <;> exact .inr (by decide)
  rcases List.mem_append.mp hb with hb | hb
  · rcases e.sign_eq b (by simpa using hb) with h | h <;> rw [h] <;> exact .inr (by decide)
  · exact .inl (e.digits_isDigit b hb)

theorem Numeral.body_numeralByte (n : Numeral) : ∀ b ∈ n.body, NumeralByte b := by
  intro b hb
  rcases List.mem_append.mp hb with hb | hb
  · exact .inl (n.int_digits b hb)
  rcases List.mem_append.mp hb with hb | hb
  · cases hf : n.frac with
    | none => rw [hf] at hb; cases hb
    | some ds =>
      rw [hf] at hb
      rcases List.mem_cons.mp hb with rfl | hb
      · exact .inr (by decide)
      · exact .inl (n.frac_digits b (by rw [hf]; exact hb))
  · cases he : n.exp with
    | none => rw [he] at hb; cases hb
    | some e =>
      rw [he] at hb
      exact e.numeralByte b hb

/-- A rest that no byte of a numeral starts does not prolong one. -/
theorem Numeral.ends_of_head {n : Numeral} {rest : Bytes}
    (h : ∀ b, rest.head? = some b → ¬ NumeralByte b) : n.Ends rest := by
  refine ⟨fun b hb => ?_, fun _ => ⟨?_, fun _ hp => ?_⟩⟩
  · have hnot := h b hb
    rw [NumeralByte, not_or] at hnot
    simpa using hnot.1
  · cases rest with
    | nil => rfl
    | cons c rest =>
      have hnot : ¬ (c = 'e'.toUInt8 ∨ c = 'E'.toUInt8) := by
        rintro (rfl | rfl) <;> exact h _ rfl (.inr (by decide))
      rw [scanExponent, dif_neg hnot]
  · exact h _ hp (.inr (by decide))

theorem scanNumber_text (n : Numeral) : scanNumber n.text = some (n, []) :=
  scanNumber_iff.mpr ⟨(List.append_nil _).symm, Numeral.ends_of_head fun _ hb => by cases hb⟩

-- ════════════════════════════════════════════════════════════════════════
-- Whole numbers
-- ════════════════════════════════════════════════════════════════════════

/-- The value of decimal digits. -/
def digitsValue (ds : Bytes) : ℕ := ds.foldl (fun n b => 10 * n + (b.toNat - '0'.toNat)) 0

/-- The power of ten that an exponent stands for. -/
def Exponent.value (e : Exponent) : ℤ :=
  if e.sign = some '-'.toUInt8 then -(digitsValue e.digits : ℤ) else digitsValue e.digits

/-- The number that a numeral stands for, without its sign. -/
def Numeral.magnitude (n : Numeral) : ℚ :=
  digitsValue (n.int ++ n.frac.getD []) *
    (10 : ℚ) ^ (n.exp.elim 0 Exponent.value - (n.frac.getD []).length)

/-- `strtoull`, where it takes the whole numeral and the number is in range. A sign in front makes
    it the negative of the number, among those of 64 bits. -/
def Numeral.strtoull (n : Numeral) : Option (BitVec 64) :=
  if n.frac = none ∧ n.exp = none ∧ digitsValue n.int < 2 ^ 64 then
    some (if n.neg then -BitVec.ofNat 64 (digitsValue n.int)
      else BitVec.ofNat 64 (digitsValue n.int))
  else none

/-- `is_decimal`. -/
def isDecimal (t : Bytes) : Bool :=
  !(decide (1 < t.length) && t[0]? == some '0'.toUInt8 && t[1]? != some '.'.toUInt8) &&
    !(decide (2 < t.length) && t.take 2 == ['-'.toUInt8, '0'.toUInt8] &&
      t[2]? != some '.'.toUInt8) &&
    t.all fun b => decide (b ≠ 'x'.toUInt8 ∧ b ≠ 'X'.toUInt8)

/-- `sprintf` of an unsigned number. -/
def printUint (u : ℕ) : Bytes := (Nat.toDigits 10 u).map Char.toUInt8

theorem printUint_of_le {u : ℕ} (h : 10 ≤ u) :
    printUint u = printUint (u / 10) ++ printUint (u % 10) := by
  rw [printUint, Nat.toDigits_of_base_le (by decide) h, List.map_append, printUint, printUint,
    Nat.toDigits_of_lt_base (Nat.mod_lt u (by decide))]

theorem printUint_of_lt {u : ℕ} (h : u < 10) : printUint u = [UInt8.ofNat (u + '0'.toNat)] := by
  rw [printUint, Nat.toDigits_of_lt_base h]
  have hall : ∀ n < 10, [(Nat.digitChar n).toUInt8] = [UInt8.ofNat (n + '0'.toNat)] := by decide
  exact hall u h

theorem printUint_isDigit (u : ℕ) : ∀ b ∈ printUint u, isDigit b = true := by
  induction u using Nat.strongRecOn with
  | _ u ih =>
    by_cases h : u < 10
    · have hall : ∀ n < 10, ∀ b ∈ [UInt8.ofNat (n + '0'.toNat)], isDigit b = true := by
        decide +kernel
      rw [printUint_of_lt h]
      exact hall u h
    · rw [printUint_of_le (Nat.le_of_not_lt h)]
      exact List.forall_mem_append.mpr ⟨ih _ (by omega), ih _ (by omega)⟩

theorem printUint_ne_nil (u : ℕ) : printUint u ≠ [] := by
  rw [printUint]
  exact fun h => Nat.toDigits_ne_nil (List.map_eq_nil_iff.mp h)

theorem digitsValue_concat (ds : Bytes) (b : UInt8) :
    digitsValue (ds ++ [b]) = 10 * digitsValue ds + (b.toNat - '0'.toNat) := by
  rw [digitsValue, List.foldl_append]
  rfl

theorem digitsValue_append (a b : Bytes) :
    digitsValue (a ++ b) = digitsValue a * 10 ^ b.length + digitsValue b := by
  induction b using List.reverseRecOn with
  | nil => simp [digitsValue]
  | append_singleton b d ih =>
    rw [← List.append_assoc, digitsValue_concat, digitsValue_concat, ih, List.length_append,
      List.length_singleton, pow_succ]
    ring

theorem digitsValue_printUint (u : ℕ) : digitsValue (printUint u) = u := by
  induction u using Nat.strongRecOn with
  | _ u ih =>
    by_cases h : u < 10
    · have hall : ∀ n < 10, digitsValue [UInt8.ofNat (n + '0'.toNat)] = n := by decide
      rw [printUint_of_lt h]
      exact hall u h
    · have hlt : u % 10 < 10 := Nat.mod_lt u (by decide)
      have hzero : '0'.toNat = 48 := rfl
      rw [printUint_of_le (Nat.le_of_not_lt h), printUint_of_lt hlt, digitsValue_concat,
        ih _ (by omega), toNat_ofNat_byte (by omega)]
      omega

/-- A number that is printed starts with a zero only when it is zero. -/
theorem printUint_head {u : ℕ} (h : 0 < u) : (printUint u).head? ≠ some '0'.toUInt8 := by
  induction u using Nat.strongRecOn with
  | _ u ih =>
    by_cases h : u < 10
    · have hall : ∀ n < 10, 0 < n → [UInt8.ofNat (n + '0'.toNat)].head? ≠ some '0'.toUInt8 := by
        decide
      rw [printUint_of_lt h]
      exact hall u h ‹_›
    · rw [printUint_of_le (Nat.le_of_not_lt h), List.head?_append_of_ne_nil _ (printUint_ne_nil _)]
      exact ih _ (by omega) (by omega)

theorem noFraction_isDigit : ∀ b ∈ (none : Option Bytes).getD [], isDigit b = true := by
  intro b hb
  cases hb

/-- The numeral of an unsigned number. -/
def uintNumeral (u : ℕ) : Numeral where
  neg := false
  int := printUint u
  frac := none
  exp := none
  int_digits := printUint_isDigit u
  frac_digits := noFraction_isDigit
  ne_nil := .inl (printUint_ne_nil u)

theorem uintNumeral_text (u : ℕ) : (uintNumeral u).text = printUint u := by
  simp [Numeral.text, Numeral.body, uintNumeral]

theorem uintNumeral_strtoull (u : BitVec 64) : (uintNumeral u.toNat).strtoull = some u := by
  rw [Numeral.strtoull, if_pos ⟨rfl, rfl, by rw [uintNumeral, digitsValue_printUint]; exact u.isLt⟩]
  simp [uintNumeral, digitsValue_printUint]

theorem isDigit_ne_x {b : UInt8} (h : isDigit b = true) : b ≠ 'x'.toUInt8 ∧ b ≠ 'X'.toUInt8 :=
  ⟨isDigit_ne h (by decide), isDigit_ne h (by decide)⟩

theorem NumeralByte.ne_x {b : UInt8} (h : NumeralByte b) : b ≠ 'x'.toUInt8 ∧ b ≠ 'X'.toUInt8 := by
  rcases h with h | h
  · exact isDigit_ne_x h
  · have hall : ∀ c ∈ ['.'.toUInt8, 'e'.toUInt8, 'E'.toUInt8, '+'.toUInt8, '-'.toUInt8],
        c ≠ 'x'.toUInt8 ∧ c ≠ 'X'.toUInt8 := by decide +kernel
    exact hall b h

/-- A numeral that starts with a zero has a point behind it, or nothing. -/
def Numeral.LeadingDigit (n : Numeral) : Prop :=
  n.int ≠ [] ∧ (n.int.head? = some '0'.toUInt8 →
    n.int.length = 1 ∧ (n.frac = none → n.exp = none))

theorem Numeral.body_second (n : Numeral) (h : n.LeadingDigit)
    (hzero : n.body[0]? = some '0'.toUInt8) : n.body.length ≤ 1 ∨ n.body[1]? = some '.'.toUInt8 := by
  obtain ⟨hne, hlead⟩ := h
  obtain ⟨b, int, hint⟩ := List.exists_cons_of_ne_nil hne
  rw [hint] at hlead
  rw [Numeral.body, hint] at hzero ⊢
  obtain ⟨hlen, hexp⟩ := hlead hzero
  obtain rfl : int = [] := List.eq_nil_of_length_eq_zero (Nat.succ.inj hlen)
  cases hf : n.frac with
  | none =>
    rw [hexp hf]
    exact .inl le_rfl
  | some ds => exact .inr rfl

/-- `is_decimal` takes a numeral without leading zeros. -/
theorem isDecimal_text {n : Numeral} (h : n.LeadingDigit) : isDecimal n.text = true := by
  have hx : (n.text.all fun b => decide (b ≠ 'x'.toUInt8 ∧ b ≠ 'X'.toUInt8)) = true := by
    rw [List.all_eq_true]
    intro b hb
    refine decide_eq_true ?_
    rcases List.mem_append.mp hb with hb | hb
    · split_ifs at hb
      · rw [List.mem_singleton.mp hb]
        decide
      · cases hb
    · exact (n.body_numeralByte b hb).ne_x
  have hsecond := n.body_second h
  have hsign : '-'.toUInt8 ≠ '0'.toUInt8 := by decide
  rw [isDecimal, hx, Bool.and_true, Numeral.text]
  cases n.neg with
  | true =>
    rw [if_pos rfl, List.singleton_append]
    generalize n.body = body at hsecond
    cases body with
    | nil => decide
    | cons b body =>
      by_cases hb : b = '0'.toUInt8
      · obtain hlen | hpoint := hsecond (congrArg some hb)
        · have hlen' : ¬ 2 < body.length + 1 + 1 := by
            rw [List.length_cons] at hlen
            omega
          simp [hlen', hsign]
        · rw [List.getElem?_cons_succ] at hpoint
          simp [hpoint, hsign]
      · simp [hb, hsign]
  | false =>
    rw [if_neg (by decide), List.nil_append]
    obtain ⟨b, t, hbody, hb⟩ := n.body_head
    have hminus : b ≠ '-'.toUInt8 := by
      rcases hb with hb | rfl
      · exact isDigit_ne hb (by decide)
      · decide
    rw [hbody] at hsecond ⊢
    by_cases hzero : b = '0'.toUInt8
    · obtain hlen | hpoint := hsecond (congrArg some hzero)
      · rw [List.length_cons] at hlen
        simp [List.eq_nil_of_length_eq_zero (Nat.le_zero.mp (Nat.le_of_succ_le_succ hlen))]
      · rw [List.getElem?_cons_succ] at hpoint
        simp [hpoint, hminus]
    · simp [hzero, hminus]

theorem uintNumeral_leadingDigit (u : ℕ) : (uintNumeral u).LeadingDigit := by
  refine ⟨printUint_ne_nil u, fun hzero => ⟨?_, fun _ => rfl⟩⟩
  by_cases hu : u = 0
  · rw [hu]
    decide
  · exact absurd hzero (printUint_head (Nat.pos_of_ne_zero hu))

theorem isDecimal_printUint (u : ℕ) : isDecimal (printUint u) = true := by
  rw [← uintNumeral_text]
  exact isDecimal_text (uintNumeral_leadingDigit u)

end DeviceSdk.Parson
