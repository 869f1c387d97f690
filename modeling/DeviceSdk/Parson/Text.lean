import DeviceSdk.Parson.Utf8

/-!
# Strings of JSON documents

The strings of a document, with their escapes: how `parson.c` reads them and writes them. A string is
a list of bytes here, without the null character that ends it in memory.

## Main definitions

- `skipQuotes`, `parseUtf16`, `processString`, `getQuotedString` — reading a string
- `jsonSerializeString` — writing one
- `Piece`, `StringText` — the characters and escapes of a string, and what they stand for

## Main results

- `getQuotedString_iff` — what is read of a string
- `getQuotedString_valid` — a text in UTF-8 stays so
- `stringText_serialize` — what is written of one
-/

namespace DeviceSdk.Parson

-- ════════════════════════════════════════════════════════════════════════
-- Reading a string
-- ════════════════════════════════════════════════════════════════════════

/-- `hex_char_to_int`. -/
def hexCharToInt (c : UInt8) : Option ℕ :=
  if '0'.toUInt8 ≤ c ∧ c ≤ '9'.toUInt8 then some (c.toNat - '0'.toNat)
  else if 'a'.toUInt8 ≤ c ∧ c ≤ 'f'.toUInt8 then some (c.toNat - 'a'.toNat + 10)
  else if 'A'.toUInt8 ≤ c ∧ c ≤ 'F'.toUInt8 then some (c.toNat - 'A'.toNat + 10)
  else none

/-- `parse_utf16_hex`. -/
def parseUtf16Hex (s0 s1 s2 s3 : UInt8) : Option ℕ :=
  match hexCharToInt s0, hexCharToInt s1, hexCharToInt s2, hexCharToInt s3 with
  | some x1, some x2, some x3, some x4 => some (x1 <<< 12 ||| x2 <<< 8 ||| x3 <<< 4 ||| x4)
  | _, _, _, _ => none

/-- `parse_utf16`, behind the letter: the bytes of the character, and the rest. -/
def parseUtf16 : Bytes → Option (Bytes × Bytes)
  | s0 :: s1 :: s2 :: s3 :: s =>
    match parseUtf16Hex s0 s1 s2 s3 with
    | none => none
    | some cp =>
      if cp < 0x80 then some ([UInt8.ofNat cp], s)
      else if cp < 0x800 then
        some ([UInt8.ofNat ((cp >>> 6) &&& 0x1F ||| 0xC0), UInt8.ofNat (cp &&& 0x3F ||| 0x80)], s)
      else if cp < 0xD800 ∨ 0xDFFF < cp then
        some ([UInt8.ofNat ((cp >>> 12) &&& 0x0F ||| 0xE0),
          UInt8.ofNat ((cp >>> 6) &&& 0x3F ||| 0x80), UInt8.ofNat (cp &&& 0x3F ||| 0x80)], s)
      else if cp ≤ 0xDBFF then
        -- a lead surrogate
        match s with
        | b :: u :: t0 :: t1 :: t2 :: t3 :: s =>
          if b = '\\'.toUInt8 ∧ u = 'u'.toUInt8 then
            match parseUtf16Hex t0 t1 t2 t3 with
            | none => none
            | some trail =>
              if trail < 0xDC00 ∨ 0xDFFF < trail then none
              else
                let cp := (((cp - 0xD800) &&& 0x3FF) <<< 10 ||| ((trail - 0xDC00) &&& 0x3FF)) +
                  0x010000
                some ([UInt8.ofNat ((cp >>> 18) &&& 0x07 ||| 0xF0),
                  UInt8.ofNat ((cp >>> 12) &&& 0x3F ||| 0x80),
                  UInt8.ofNat ((cp >>> 6) &&& 0x3F ||| 0x80),
                  UInt8.ofNat (cp &&& 0x3F ||| 0x80)], s)
          else none
        | _ => none
      else none
  | _ => none

/-- What a letter behind a backslash stands for. -/
def unescape (c : UInt8) : Option UInt8 :=
  if c = '"'.toUInt8 then some '"'.toUInt8
  else if c = '\\'.toUInt8 then some '\\'.toUInt8
  else if c = '/'.toUInt8 then some '/'.toUInt8
  else if c = 'b'.toUInt8 then some 0x08
  else if c = 'f'.toUInt8 then some 0x0c
  else if c = 'n'.toUInt8 then some 0x0a
  else if c = 'r'.toUInt8 then some 0x0d
  else if c = 't'.toUInt8 then some 0x09
  else none

/-- The body of the loop of `process_string`: what is written, and the rest. -/
def processStep (c : UInt8) (s : Bytes) : Option (Bytes × Bytes) :=
  if c = '\\'.toUInt8 then
    match s with
    | [] => none
    | e :: s => if e = 'u'.toUInt8 then parseUtf16 s else (unescape e).map fun b => ([b], s)
  else if c < 0x20 then none
  else some ([c], s)

/-- The loop of `process_string`. Each turn takes a byte at least. -/
def processLoop : ℕ → Bytes → Option Bytes
  | n + 1, c :: s =>
    match processStep c s with
    | some (out, s) => (processLoop n s).map (out ++ ·)
    | none => none
  | _, _ => some []

/-- The bytes in front of a null character, as a C string has them. -/
def cString (s : Bytes) : Bytes := s.takeWhile (· ≠ 0)

/-- `process_string`, on what stands between the quotes. The quote behind it is no digit and no
    letter, so that `parse_utf16` ends in front of it. -/
def processString (s : Bytes) : Option Bytes := (processLoop s.length s).map cString

/-- `skip_quotes`, behind the first quote: what the quotes enclose, and the rest. -/
def skipQuotes : Bytes → Option (Bytes × Bytes)
  | [] => none
  | c :: s =>
    if c = '"'.toUInt8 then some ([], s)
    else if c = '\\'.toUInt8 then
      match s with
      | [] => none
      | d :: s => (skipQuotes s).map fun p => (c :: d :: p.1, p.2)
    else (skipQuotes s).map fun p => (c :: p.1, p.2)

/-- `get_quoted_string`. -/
def getQuotedString : Bytes → Option (Bytes × Bytes)
  | [] => none
  | c :: s =>
    if c = '"'.toUInt8 then
      match skipQuotes s with
      | some (content, rest) => (processString content).map fun out => (out, rest)
      | none => none
    else none

-- ════════════════════════════════════════════════════════════════════════
-- What a string stands for
-- ════════════════════════════════════════════════════════════════════════

/-- Four hexadecimal digits, and their value. -/
inductive Hex4 : Bytes → ℕ → Prop
  | mk {s0 s1 s2 s3 : UInt8} {x1 x2 x3 x4 : ℕ} (h1 : hexCharToInt s0 = some x1)
      (h2 : hexCharToInt s1 = some x2) (h3 : hexCharToInt s2 = some x3)
      (h4 : hexCharToInt s3 = some x4) :
      Hex4 [s0, s1, s2, s3] (x1 * 4096 + x2 * 256 + x3 * 16 + x4)

/-- A character or an escape of a string, and the bytes that it stands for. A character beyond
    the first 65536 is escaped as a pair of surrogates. -/
inductive Piece : Bytes → Bytes → Prop
  | plain {b : UInt8} (hctl : 0x20 ≤ b) (hquote : b ≠ '"'.toUInt8) (hslash : b ≠ '\\'.toUInt8) :
      Piece [b] [b]
  | escape {e b : UInt8} (h : unescape e = some b) : Piece ['\\'.toUInt8, e] [b]
  | unicode {c : Char} {t : Bytes} (h : Hex4 t c.toNat) :
      Piece ('\\'.toUInt8 :: 'u'.toUInt8 :: t) (String.utf8EncodeChar c)
  | pair {c : Char} {t u : Bytes} {lead trail : ℕ} (ht : Hex4 t lead) (hu : Hex4 u trail)
      (hlead : 0xD800 ≤ lead ∧ lead ≤ 0xDBFF) (htrail : 0xDC00 ≤ trail ∧ trail ≤ 0xDFFF)
      (hc : c.toNat = (lead - 0xD800) * 0x400 + (trail - 0xDC00) + 0x10000) :
      Piece ('\\'.toUInt8 :: 'u'.toUInt8 :: (t ++ '\\'.toUInt8 :: 'u'.toUInt8 :: u))
        (String.utf8EncodeChar c)

/-- The text between the quotes of a string, and the bytes that it stands for. -/
inductive StringText : Bytes → Bytes → Prop
  | nil : StringText [] []
  | cons {p out s outs : Bytes} (hp : Piece p out) (hs : StringText s outs) :
      StringText (p ++ s) (out ++ outs)

theorem hexCharToInt_eq_some {c : UInt8} {x : ℕ} (h : hexCharToInt c = some x) :
    x < 16 ∧ c.toNat < 0x80 ∧ c ≠ '"'.toUInt8 ∧ c ≠ '\\'.toUInt8 := by
  have hall : ∀ n : Fin 256, ∀ x ∈ hexCharToInt (UInt8.ofFin n), x < 16 ∧
      (UInt8.ofFin n).toNat < 0x80 ∧ UInt8.ofFin n ≠ '"'.toUInt8 ∧
      UInt8.ofFin n ≠ '\\'.toUInt8 := by decide +kernel
  exact hall c.toFin x h

/-- Bits in front of others that are zero. -/
theorem and_or_eq (n k : ℕ) {mask : ℕ} (h : mask % 2 ^ k = 0) :
    n &&& (2 ^ k - 1) ||| mask = n % 2 ^ k + mask := by
  have hm : mask / 2 ^ k * 2 ^ k = mask := Nat.div_mul_cancel (Nat.dvd_of_mod_eq_zero h)
  have hlt : n % 2 ^ k < 2 ^ k := Nat.mod_lt _ (Nat.two_pow_pos k)
  rw [Nat.and_two_pow_sub_one_eq_mod, Nat.or_comm, ← hm, ← Nat.shiftLeft_eq,
    ← Nat.shiftLeft_add_eq_or_of_lt hlt, Nat.add_comm]

theorem shift_and_or_eq (n i k : ℕ) {mask : ℕ} (h : mask % 2 ^ k = 0) :
    (n >>> i) &&& (2 ^ k - 1) ||| mask = n / 2 ^ i % 2 ^ k + mask := by
  rw [and_or_eq _ k h, Nat.shiftRight_eq_div_pow]

/-- `parse_utf16_hex` reads four digits. -/
theorem parseUtf16Hex_eq_some {s0 s1 s2 s3 : UInt8} {cp : ℕ} :
    parseUtf16Hex s0 s1 s2 s3 = some cp ↔ Hex4 [s0, s1, s2, s3] cp := by
  have hsum {x1 x2 x3 x4 : ℕ} (h2 : x2 < 16) (h3 : x3 < 16) (h4 : x4 < 16) :
      x1 <<< 12 ||| x2 <<< 8 ||| x3 <<< 4 ||| x4 = x1 * 4096 + x2 * 256 + x3 * 16 + x4 := by
    have hnest : x1 <<< 12 ||| x2 <<< 8 ||| x3 <<< 4 ||| x4 =
        ((x1 <<< 4 ||| x2) <<< 4 ||| x3) <<< 4 ||| x4 := by
      simp only [Nat.shiftLeft_or_distrib, ← Nat.shiftLeft_add]
    rw [hnest, ← Nat.shiftLeft_add_eq_or_of_lt (i := 4) h2,
      ← Nat.shiftLeft_add_eq_or_of_lt (i := 4) h3, ← Nat.shiftLeft_add_eq_or_of_lt (i := 4) h4]
    simp only [Nat.shiftLeft_eq]
    omega
  constructor
  · intro h
    rw [parseUtf16Hex] at h
    split at h
    case h_1 x1 x2 x3 x4 h1 h2 h3 h4 =>
      rw [← Option.some.inj h, hsum (hexCharToInt_eq_some h2).1 (hexCharToInt_eq_some h3).1
        (hexCharToInt_eq_some h4).1]
      exact ⟨h1, h2, h3, h4⟩
    case h_2 => cases h
  · rintro ⟨h1, h2, h3, h4⟩
    rw [parseUtf16Hex, h1, h2, h3, h4]
    simp only
    rw [hsum (hexCharToInt_eq_some h2).1 (hexCharToInt_eq_some h3).1 (hexCharToInt_eq_some h4).1]

theorem Hex4.lt {t : Bytes} {n : ℕ} (h : Hex4 t n) : n < 0x10000 := by
  cases h with
  | mk h1 h2 h3 h4 =>
    have hx1 := (hexCharToInt_eq_some h1).1
    have hx2 := (hexCharToInt_eq_some h2).1
    have hx3 := (hexCharToInt_eq_some h3).1
    have hx4 := (hexCharToInt_eq_some h4).1
    omega

theorem low_bits (cp : ℕ) : cp &&& 0x3F ||| 0x80 = cp % 0x40 + 0x80 := and_or_eq cp 6 (by decide)

theorem middle_bits (cp : ℕ) : (cp >>> 6) &&& 0x3F ||| 0x80 = cp / 64 % 0x40 + 0x80 :=
  shift_and_or_eq cp 6 6 (by decide)

theorem high_bits (cp : ℕ) : (cp >>> 12) &&& 0x3F ||| 0x80 = cp / 4096 % 0x40 + 0x80 :=
  shift_and_or_eq cp 12 6 (by decide)

/-- The bytes that `parse_utf16` writes for a code point of two, three or four bytes. -/
theorem encode_two_bits {cp : ℕ} (h1 : ¬ cp < 0x80) (h2 : cp < 0x800) :
    [UInt8.ofNat ((cp >>> 6) &&& 0x1F ||| 0xC0), UInt8.ofNat (cp &&& 0x3F ||| 0x80)] =
      encode cp := by
  have hfirst : (cp >>> 6) &&& 0x1F ||| 0xC0 = cp / 64 % 0x20 + 0xC0 :=
    shift_and_or_eq cp 6 5 (by decide)
  rw [encode, if_neg (by omega), if_pos (by omega), hfirst, low_bits]

theorem encode_three_bits {cp : ℕ} (h1 : ¬ cp < 0x800) (h2 : cp < 0x10000) :
    [UInt8.ofNat ((cp >>> 12) &&& 0x0F ||| 0xE0), UInt8.ofNat ((cp >>> 6) &&& 0x3F ||| 0x80),
      UInt8.ofNat (cp &&& 0x3F ||| 0x80)] = encode cp := by
  have hfirst : (cp >>> 12) &&& 0x0F ||| 0xE0 = cp / 4096 % 0x10 + 0xE0 :=
    shift_and_or_eq cp 12 4 (by decide)
  rw [encode, if_neg (by omega), if_neg (by omega), if_pos (by omega), hfirst, middle_bits,
    low_bits]

theorem encode_four_bits {cp : ℕ} (h : ¬ cp < 0x10000) :
    [UInt8.ofNat ((cp >>> 18) &&& 0x07 ||| 0xF0), UInt8.ofNat ((cp >>> 12) &&& 0x3F ||| 0x80),
      UInt8.ofNat ((cp >>> 6) &&& 0x3F ||| 0x80), UInt8.ofNat (cp &&& 0x3F ||| 0x80)] =
      encode cp := by
  have hfirst : (cp >>> 18) &&& 0x07 ||| 0xF0 = cp / 262144 % 0x08 + 0xF0 :=
    shift_and_or_eq cp 18 3 (by decide)
  rw [encode, if_neg (by omega), if_neg (by omega), if_neg (by omega), hfirst, high_bits,
    middle_bits, low_bits]

/-- A pair of surrogates, as `parse_utf16` puts it together. -/
theorem surrogates_eq {lead trail : ℕ} (hlead : 0xD800 ≤ lead ∧ lead ≤ 0xDBFF)
    (htrail : 0xDC00 ≤ trail ∧ trail ≤ 0xDFFF) :
    (((lead - 0xD800) &&& 0x3FF) <<< 10 ||| ((trail - 0xDC00) &&& 0x3FF)) + 0x010000 =
      (lead - 0xD800) * 0x400 + (trail - 0xDC00) + 0x10000 := by
  have hl : (lead - 0xD800) &&& 0x3FF = (lead - 0xD800) % 1024 :=
    Nat.and_two_pow_sub_one_eq_mod _ 10
  have ht : (trail - 0xDC00) &&& 0x3FF = (trail - 0xDC00) % 1024 :=
    Nat.and_two_pow_sub_one_eq_mod _ 10
  have hlt : (trail - 0xDC00) % 1024 < 2 ^ 10 := Nat.mod_lt _ (by decide)
  rw [hl, ht, ← Nat.shiftLeft_add_eq_or_of_lt hlt, Nat.shiftLeft_eq]
  omega

/-- `parse_utf16` reads an escape. -/
theorem parseUtf16_sound {s out rest : Bytes} (h : parseUtf16 s = some (out, rest)) :
    ∃ t, s = t ++ rest ∧ Piece ('\\'.toUInt8 :: 'u'.toUInt8 :: t) out := by
  have hbasic {s0 s1 s2 s3 : UInt8} {cp : ℕ} (hcp : Hex4 [s0, s1, s2, s3] cp)
      (hvalid : cp.isValidChar) :
      Piece ('\\'.toUInt8 :: 'u'.toUInt8 :: [s0, s1, s2, s3]) (encode cp) := by
    rw [← utf8EncodeChar_ofNat hvalid]
    refine .unicode ?_
    rw [Utf8.toNat_charOfNat hvalid]
    exact hcp
  rw [parseUtf16.eq_def] at h
  split at h
  case h_2 => cases h
  case h_1 s0 s1 s2 s3 s =>
    split at h
    case h_1 => cases h
    case h_2 cp hcp =>
      rw [parseUtf16Hex_eq_some] at hcp
      have hlt := hcp.lt
      split_ifs at h with h1 h2 h3 h4
      · obtain ⟨rfl, rfl⟩ := Prod.mk.inj (Option.some.inj h)
        refine ⟨[s0, s1, s2, s3], rfl, ?_⟩
        have henc : [UInt8.ofNat cp] = encode cp := by rw [encode, if_pos (by omega)]
        rw [henc]
        exact hbasic hcp (.inl (by omega))
      · obtain ⟨rfl, rfl⟩ := Prod.mk.inj (Option.some.inj h)
        rw [encode_two_bits h1 h2]
        exact ⟨[s0, s1, s2, s3], rfl, hbasic hcp (.inl (by omega))⟩
      · obtain ⟨rfl, rfl⟩ := Prod.mk.inj (Option.some.inj h)
        rw [encode_three_bits h2 hlt]
        refine ⟨[s0, s1, s2, s3], rfl, hbasic hcp ?_⟩
        rw [Nat.isValidChar]
        omega
      · split at h
        case h_2 => cases h
        case h_1 b u t0 t1 t2 t3 s =>
          split at h
          case isFalse => cases h
          case isTrue hbu =>
            split at h
            case h_1 => cases h
            case h_2 trail htrail =>
              split at h
              case isTrue => cases h
              case isFalse hrange =>
                rw [parseUtf16Hex_eq_some] at htrail
                obtain ⟨rfl, rfl⟩ := Prod.mk.inj (Option.some.inj h)
                obtain ⟨rfl, rfl⟩ := hbu
                have hle : 0xD800 ≤ cp ∧ cp ≤ 0xDBFF := ⟨by omega, h4⟩
                have htr : 0xDC00 ≤ trail ∧ trail ≤ 0xDFFF := by omega
                rw [surrogates_eq hle htr, encode_four_bits (by omega)]
                have hvalid :
                    ((cp - 0xD800) * 0x400 + (trail - 0xDC00) + 0x10000).isValidChar := by
                  rw [Nat.isValidChar]
                  omega
                rw [← utf8EncodeChar_ofNat hvalid]
                exact ⟨[s0, s1, s2, s3] ++ '\\'.toUInt8 :: 'u'.toUInt8 :: [t0, t1, t2, t3], rfl,
                  .pair hcp htrail hle htr (Utf8.toNat_charOfNat hvalid)⟩

/-- An escape of a character with one unit. -/
theorem parseUtf16_unicode {c : Char} {t : Bytes} (h : Hex4 t c.toNat) (rest : Bytes) :
    parseUtf16 (t ++ rest) = some (String.utf8EncodeChar c, rest) := by
  have hvalid : c.toNat.isValidChar := c.valid
  have hlt := h.lt
  rw [utf8EncodeChar_eq]
  generalize c.toNat = cp at h hvalid hlt
  rw [Nat.isValidChar] at hvalid
  obtain ⟨s0, s1, s2, s3, rfl⟩ : ∃ s0 s1 s2 s3, t = [s0, s1, s2, s3] := by
    cases h
    exact ⟨_, _, _, _, rfl⟩
  simp only [List.cons_append, List.nil_append, parseUtf16, parseUtf16Hex_eq_some.mpr h]
  split_ifs with h1 h2 h3 h4
  · rw [encode, if_pos (by omega)]
  · rw [encode_two_bits h1 h2]
  · rw [encode_three_bits h2 hlt]
  · omega
  · omega

/-- An escape of a character with two units. -/
theorem parseUtf16_pair {c : Char} {t u : Bytes} {lead trail : ℕ} (ht : Hex4 t lead)
    (hu : Hex4 u trail) (hlead : 0xD800 ≤ lead ∧ lead ≤ 0xDBFF)
    (htrail : 0xDC00 ≤ trail ∧ trail ≤ 0xDFFF)
    (hc : c.toNat = (lead - 0xD800) * 0x400 + (trail - 0xDC00) + 0x10000) (rest : Bytes) :
    parseUtf16 ((t ++ '\\'.toUInt8 :: 'u'.toUInt8 :: u) ++ rest) =
      some (String.utf8EncodeChar c, rest) := by
  obtain ⟨s0, s1, s2, s3, rfl⟩ : ∃ s0 s1 s2 s3, t = [s0, s1, s2, s3] := by
    cases ht
    exact ⟨_, _, _, _, rfl⟩
  obtain ⟨t0, t1, t2, t3, rfl⟩ : ∃ t0 t1 t2 t3, u = [t0, t1, t2, t3] := by
    cases hu
    exact ⟨_, _, _, _, rfl⟩
  rw [utf8EncodeChar_eq, hc]
  simp only [List.cons_append, List.nil_append, parseUtf16, parseUtf16Hex_eq_some.mpr ht,
    parseUtf16Hex_eq_some.mpr hu]
  rw [if_neg (by omega), if_neg (by omega), if_neg (by omega), if_pos (by omega),
    if_pos ⟨trivial, trivial⟩, if_neg (by omega), surrogates_eq hlead htrail,
    encode_four_bits (by omega)]

theorem unescape_ne {e b : UInt8} (h : unescape e = some b) : e ≠ 'u'.toUInt8 := by
  rintro rfl
  rw [show unescape 'u'.toUInt8 = none from by decide] at h
  cases h

/-- A turn of the loop of `process_string` reads a piece. -/
theorem processStep_sound {c : UInt8} {s out rest : Bytes} (hquote : c ≠ '"'.toUInt8)
    (h : processStep c s = some (out, rest)) : ∃ q, s = q ++ rest ∧ Piece (c :: q) out := by
  rw [processStep.eq_def] at h
  split_ifs at h with hslash hctl
  · cases s with
    | nil => cases h
    | cons e s =>
      subst hslash
      simp only at h
      split_ifs at h with hu
      · obtain ⟨t, rfl, hp⟩ := parseUtf16_sound h
        exact ⟨e :: t, rfl, hu ▸ hp⟩
      · obtain ⟨b, hb, heq⟩ := Option.map_eq_some_iff.mp h
        obtain ⟨rfl, rfl⟩ := Prod.mk.inj heq
        exact ⟨[e], rfl, .escape hb⟩
  · obtain ⟨rfl, rfl⟩ := Prod.mk.inj (Option.some.inj h)
    exact ⟨[], rfl, .plain (UInt8.not_lt.mp hctl) hquote hslash⟩

/-- A piece is read in one turn. -/
theorem processStep_complete {p out : Bytes} (h : Piece p out) :
    ∃ c q, p = c :: q ∧ ∀ rest, processStep c (q ++ rest) = some (out, rest) := by
  cases h with
  | @plain b hctl hquote hslash =>
    refine ⟨b, [], rfl, fun rest => ?_⟩
    rw [processStep.eq_def, if_neg hslash, if_neg (UInt8.not_lt.mpr hctl)]
    rfl
  | @escape e b hb =>
    refine ⟨_, [e], rfl, fun rest => ?_⟩
    rw [processStep.eq_def, if_pos rfl]
    simp only [List.cons_append, List.nil_append]
    rw [if_neg (unescape_ne hb), hb]
    rfl
  | @unicode c t ht =>
    refine ⟨_, 'u'.toUInt8 :: t, rfl, fun rest => ?_⟩
    rw [processStep.eq_def, if_pos rfl]
    simp only [List.cons_append]
    rw [if_pos trivial, parseUtf16_unicode ht]
  | @pair c t u lead trail ht hu hlead htrail hc =>
    refine ⟨_, 'u'.toUInt8 :: (t ++ '\\'.toUInt8 :: 'u'.toUInt8 :: u), rfl, fun rest => ?_⟩
    rw [processStep.eq_def, if_pos rfl]
    simp only [List.cons_append]
    rw [if_pos trivial, parseUtf16_pair ht hu hlead htrail hc]

/-- The loop of `process_string` on a string without bare quotes. -/
theorem processLoop_complete {s out : Bytes} (h : StringText s out) {n : ℕ} (hn : s.length ≤ n) :
    processLoop n s = some out := by
  induction h generalizing n with
  | nil => cases n <;> rfl
  | @cons p out s outs hp hs ih =>
    obtain ⟨c, q, rfl, hstep⟩ := processStep_complete hp
    rw [List.length_append, List.length_cons] at hn
    obtain ⟨m, rfl⟩ : ∃ m, n = m + 1 := ⟨n - 1, by omega⟩
    rw [List.cons_append, processLoop, hstep]
    simp only
    rw [ih (by omega)]
    rfl

/-- Text in which every quote, and every backslash, is behind a backslash. -/
inductive Closed : Bytes → Prop
  | nil : Closed []
  | plain {b : UInt8} {s : Bytes} (hquote : b ≠ '"'.toUInt8) (hslash : b ≠ '\\'.toUInt8)
      (hs : Closed s) : Closed (b :: s)
  | escaped {d : UInt8} {s : Bytes} (hs : Closed s) : Closed ('\\'.toUInt8 :: d :: s)

/-- `skip_quotes` stops at the first quote that no backslash is in front of. -/
theorem skipQuotes_iff {s content rest : Bytes} :
    skipQuotes s = some (content, rest) ↔ s = content ++ '"'.toUInt8 :: rest ∧ Closed content := by
  constructor
  · intro h
    fun_induction skipQuotes s generalizing content with
    | case1 => cases h
    | case2 s =>
      obtain ⟨rfl, rfl⟩ := Prod.mk.inj (Option.some.inj h)
      exact ⟨rfl, .nil⟩
    | case3 => cases h
    | case4 hc d s ih =>
      obtain ⟨⟨content', rest'⟩, hp, heq⟩ := Option.map_eq_some_iff.mp h
      obtain ⟨rfl, rfl⟩ := Prod.mk.inj heq
      obtain ⟨rfl, hclosed⟩ := ih hp
      exact ⟨rfl, .escaped hclosed⟩
    | case5 c s hc hslash ih =>
      obtain ⟨⟨content', rest'⟩, hp, heq⟩ := Option.map_eq_some_iff.mp h
      obtain ⟨rfl, rfl⟩ := Prod.mk.inj heq
      obtain ⟨rfl, hclosed⟩ := ih hp
      exact ⟨rfl, .plain hc hslash hclosed⟩
  · rintro ⟨rfl, hclosed⟩
    induction hclosed with
    | nil =>
      rw [List.nil_append, skipQuotes.eq_def]
      simp only
      rw [if_pos trivial]
    | @plain b s hquote hslash hs ih =>
      rw [List.cons_append, skipQuotes.eq_def]
      simp only
      rw [if_neg hquote, if_neg hslash, ih]
      rfl
    | @escaped d s hs ih =>
      rw [List.cons_append, List.cons_append, skipQuotes.eq_def]
      simp only
      rw [if_neg (by decide), if_pos trivial, ih]
      rfl

/-- Hexadecimal digits in front leave a text closed. -/
theorem Hex4.closed {t : Bytes} {n : ℕ} (h : Hex4 t n) {s : Bytes} :
    Closed (t ++ s) ↔ Closed s := by
  have hstep {b : UInt8} {x : ℕ} (hb : hexCharToInt b = some x) {s : Bytes} :
      Closed (b :: s) ↔ Closed s := by
    obtain ⟨-, -, hquote, hslash⟩ := hexCharToInt_eq_some hb
    constructor
    · intro hc
      cases hc with
      | plain _ _ hs => exact hs
      | escaped _ => exact absurd rfl hslash
    · exact .plain hquote hslash
  cases h with
  | mk h1 h2 h3 h4 =>
    simp only [List.cons_append, List.nil_append]
    rw [hstep h1, hstep h2, hstep h3, hstep h4]

/-- A piece in front leaves a text closed. -/
theorem Piece.closed {p out : Bytes} (h : Piece p out) {s : Bytes} :
    Closed (p ++ s) ↔ Closed s := by
  have hescaped {d : UInt8} {s : Bytes} : Closed ('\\'.toUInt8 :: d :: s) ↔ Closed s := by
    constructor
    · intro hc
      cases hc with
      | plain _ hslash _ => exact absurd rfl hslash
      | escaped hs => exact hs
    · exact .escaped
  cases h with
  | plain hctl hquote hslash =>
    constructor
    · intro hc
      cases hc with
      | plain _ _ hs => exact hs
      | escaped _ => exact absurd rfl hslash
    · exact .plain hquote hslash
  | escape hb => exact hescaped
  | unicode ht =>
    rw [List.cons_append, List.cons_append, hescaped, ht.closed]
  | pair ht hu hlead htrail hc =>
    rw [List.cons_append, List.cons_append, hescaped, List.append_assoc, ht.closed,
      List.cons_append, List.cons_append, hescaped, hu.closed]

theorem StringText.closed {s out : Bytes} (h : StringText s out) : Closed s := by
  induction h with
  | nil => exact .nil
  | cons hp hs ih => exact hp.closed.mpr ih

/-- What the loop of `process_string` writes is what the text stands for. -/
theorem processLoop_sound {n : ℕ} {s out : Bytes} (hclosed : Closed s) (hn : s.length ≤ n)
    (h : processLoop n s = some out) : StringText s out := by
  induction n generalizing s out with
  | zero =>
    obtain rfl := List.eq_nil_of_length_eq_zero (Nat.le_zero.mp hn)
    obtain rfl : [] = out := Option.some.inj h
    exact .nil
  | succ n ih =>
    cases s with
    | nil =>
      obtain rfl : [] = out := Option.some.inj h
      exact .nil
    | cons c s =>
      rw [processLoop] at h
      split at h
      case h_2 => cases h
      case h_1 o rest hstep =>
        obtain ⟨outs, houts, rfl⟩ := Option.map_eq_some_iff.mp h
        have hquote : c ≠ '"'.toUInt8 := by
          cases hclosed with
          | plain hquote _ _ => exact hquote
          | escaped _ => decide
        obtain ⟨q, rfl, hp⟩ := processStep_sound hquote hstep
        rw [List.length_cons, List.length_append] at hn
        rw [← List.cons_append] at hclosed ⊢
        exact .cons hp (ih (hp.closed.mp hclosed) (by omega) houts)

/-- `get_quoted_string` reads a string with its quotes, up to a null character that it stands
    for. -/
theorem getQuotedString_iff {s str rest : Bytes} :
    getQuotedString s = some (str, rest) ↔ ∃ content out,
      s = '"'.toUInt8 :: (content ++ '"'.toUInt8 :: rest) ∧ StringText content out ∧
      str = cString out := by
  constructor
  · intro h
    rw [getQuotedString.eq_def] at h
    split at h
    case h_1 => cases h
    case h_2 c s =>
      split_ifs at h with hc
      split at h
      case h_2 => cases h
      case h_1 content rest' hskip =>
        obtain ⟨str', hstr, heq⟩ := Option.map_eq_some_iff.mp h
        obtain ⟨rfl, rfl⟩ := Prod.mk.inj heq
        obtain ⟨rfl, hclosed⟩ := skipQuotes_iff.mp hskip
        obtain ⟨out, hout, rfl⟩ := Option.map_eq_some_iff.mp hstr
        exact ⟨content, out, by rw [hc], processLoop_sound hclosed le_rfl hout, rfl⟩
  · rintro ⟨content, out, rfl, htext, rfl⟩
    rw [getQuotedString, if_pos rfl, skipQuotes_iff.mpr ⟨rfl, htext.closed⟩]
    simp only
    rw [processString, processLoop_complete htext le_rfl]
    rfl

-- ════════════════════════════════════════════════════════════════════════
-- Texts in UTF-8 stay so
-- ════════════════════════════════════════════════════════════════════════

theorem Hex4.ascii {t : Bytes} {n : ℕ} (h : Hex4 t n) : ∀ b ∈ t, b.toNat < 0x80 := by
  cases h with
  | mk h1 h2 h3 h4 =>
    simp only [List.forall_mem_cons, List.not_mem_nil, false_implies, implies_true, and_true]
    exact ⟨(hexCharToInt_eq_some h1).2.1, (hexCharToInt_eq_some h2).2.1,
      (hexCharToInt_eq_some h3).2.1, (hexCharToInt_eq_some h4).2.1⟩

theorem unescape_ascii {e b : UInt8} (h : unescape e = some b) :
    e.toNat < 0x80 ∧ b.toNat < 0x80 := by
  rw [unescape] at h
  split_ifs at h with h1 h2 h3 h4 h5 h6 h7 h8
  all_goals
    subst_vars
    obtain rfl := Option.some.inj h
    decide

/-- A piece is a byte of a longer character, or made of bytes below 128 and then stands for a
    character. -/
theorem Piece.ascii {p out : Bytes} (h : Piece p out) :
    (∃ b : UInt8, 0x80 ≤ b.toNat ∧ p = [b] ∧ out = [b]) ∨
      (∀ b ∈ p, b.toNat < 0x80) ∧ Utf8.Valid out := by
  have hslash : '\\'.toUInt8.toNat < 0x80 := by decide
  have hu : 'u'.toUInt8.toNat < 0x80 := by decide
  cases h with
  | @plain b hctl hquote hslash =>
    by_cases hb : b.toNat < 0x80
    · exact .inr ⟨by simpa using hb, Utf8.valid_singleton hb⟩
    · exact .inl ⟨b, Nat.le_of_not_lt hb, rfl, rfl⟩
  | escape hb =>
    obtain ⟨he, hb⟩ := unescape_ascii hb
    exact .inr ⟨by simpa using ⟨hslash, he⟩, Utf8.valid_singleton hb⟩
  | @unicode c t ht =>
    refine .inr ⟨?_, Utf8.valid_encode c⟩
    simp only [List.forall_mem_cons]
    exact ⟨hslash, hu, ht.ascii⟩
  | @pair c t u lead trail ht hu' hlead htrail hc =>
    refine .inr ⟨?_, Utf8.valid_encode c⟩
    simp only [List.forall_mem_cons, List.forall_mem_append]
    exact ⟨hslash, hu, ht.ascii, hslash, hu, hu'.ascii⟩

/-- Bytes from 128 on stand for themselves. -/
theorem StringText.of_high {p s out : Bytes} (hp : ∀ b ∈ p, 0x80 ≤ b.toNat)
    (h : StringText (p ++ s) out) : ∃ outs, out = p ++ outs ∧ StringText s outs := by
  induction p generalizing out with
  | nil => exact ⟨out, rfl, h⟩
  | cons b p ih =>
    obtain ⟨hb, hp⟩ := List.forall_mem_cons.mp hp
    generalize hs : b :: p ++ s = whole at h
    cases h with
    | nil => simp at hs
    | @cons q o s' outs hq hs' =>
      obtain ⟨d, hd, rfl, rfl⟩ | ⟨hq', -⟩ := hq.ascii
      · obtain ⟨rfl, rfl⟩ := List.cons.inj hs
        obtain ⟨outs, rfl, hrest⟩ := ih hp hs'
        exact ⟨outs, rfl, hrest⟩
      · obtain ⟨c, r, rfl, -⟩ := processStep_complete hq
        obtain ⟨rfl, -⟩ := List.cons.inj hs
        have hlt := hq' b List.mem_cons_self
        omega

/-- What a text in UTF-8 stands for is in UTF-8. -/
theorem StringText.valid {s out : Bytes} (h : StringText s out) (hv : Utf8.Valid s) :
    Utf8.Valid out := by
  induction hn : s.length using Nat.strongRecOn generalizing s out with
  | _ n ih =>
    cases h with
    | nil => exact Utf8.valid_nil
    | @cons p o s outs hp hs =>
      obtain ⟨b, hb, rfl, rfl⟩ | ⟨hascii, ho⟩ := hp.ascii
      · -- the first byte of a longer character, which is taken as a whole
        obtain hnil | ⟨c, t, hc, ht⟩ := Utf8.valid_iff_nil_or_char.mp hv
        · simp at hnil
        · have hhigh : 0x80 ≤ c.toNat := by
            by_contra hlt
            rw [Utf8.encode_of_lt (Nat.lt_of_not_le hlt)] at hc
            have hbc : b = UInt8.ofNat c.toNat := (List.cons.inj hc).1
            rw [hbc, toNat_ofNat_byte (by omega)] at hb
            omega
          have hwhole := StringText.cons hp hs
          rw [hc] at hwhole hn
          obtain ⟨outs', ho', hrest⟩ := hwhole.of_high (Utf8.le_of_mem_encode hhigh)
          have hpos := Utf8.encode_length_pos c
          rw [List.length_append] at hn
          rw [ho']
          exact (Utf8.valid_encode c).append (ih t.length (by omega) hrest ht rfl)
      · obtain ⟨c, q, rfl, -⟩ := processStep_complete hp
        rw [List.length_append, List.length_cons] at hn
        exact ho.append (ih s.length (by omega) hs
          ((Utf8.valid_append_of_ascii hascii).mp hv) rfl)

/-- A cut at a null character leaves a text in UTF-8. -/
theorem valid_cString {s : Bytes} (h : Utf8.Valid s) : Utf8.Valid (cString s) := by
  rw [cString]
  have hs := List.takeWhile_append_dropWhile (p := (· ≠ (0 : UInt8))) (l := s)
  cases hd : s.dropWhile (· ≠ (0 : UInt8)) with
  | nil =>
    rw [hd, List.append_nil] at hs
    rw [hs]
    exact h
  | cons b t =>
    have hb := List.head?_dropWhile_not (· ≠ (0 : UInt8)) s
    rw [hd] at hb
    simp only [List.head?_cons] at hb
    have h0 : b = 0 := by simpa using hb
    rw [← hs, hd, h0] at h
    exact ((Utf8.valid_append_ascii (by decide)).mp h).1

/-- Both the string that is read and what is behind it are in UTF-8. -/
theorem getQuotedString_valid {s str rest : Bytes} (h : getQuotedString s = some (str, rest))
    (hv : Utf8.Valid s) : Utf8.Valid str ∧ Utf8.Valid rest := by
  obtain ⟨content, out, rfl, htext, rfl⟩ := getQuotedString_iff.mp h
  rw [Utf8.valid_cons_ascii (by decide), Utf8.valid_append_ascii (by decide)] at hv
  exact ⟨valid_cString (htext.valid hv.1), hv.2⟩

-- ════════════════════════════════════════════════════════════════════════
-- Writing a string
-- ════════════════════════════════════════════════════════════════════════

/-- A lower-case hexadecimal digit. -/
def hexDigit (n : ℕ) : UInt8 := UInt8.ofNat (if n < 10 then n + '0'.toNat else n - 10 + 'a'.toNat)

/-- The cases of `json_serialize_string`. Those of the control characters without a letter of
    their own are one. -/
def escapeByte (c : UInt8) : Bytes :=
  if c = '"'.toUInt8 then ['\\'.toUInt8, '"'.toUInt8]
  else if c = '\\'.toUInt8 then ['\\'.toUInt8, '\\'.toUInt8]
  else if c = 0x08 then ['\\'.toUInt8, 'b'.toUInt8]
  else if c = 0x0c then ['\\'.toUInt8, 'f'.toUInt8]
  else if c = 0x0a then ['\\'.toUInt8, 'n'.toUInt8]
  else if c = 0x0d then ['\\'.toUInt8, 'r'.toUInt8]
  else if c = 0x09 then ['\\'.toUInt8, 't'.toUInt8]
  else if c < 0x20 then
    ['\\'.toUInt8, 'u'.toUInt8, '0'.toUInt8, '0'.toUInt8, hexDigit (c.toNat / 16),
      hexDigit (c.toNat % 16)]
  else [c]

/-- `json_serialize_string`. -/
def jsonSerializeString (s : Bytes) : Bytes :=
  '"'.toUInt8 :: (s.flatMap escapeByte ++ ['"'.toUInt8])

theorem escapeByte_piece (c : UInt8) : Piece (escapeByte c) [c] := by
  rw [escapeByte]
  split_ifs with h1 h2 h3 h4 h5 h6 h7 h8
  · rw [h1]
    exact .escape (by decide)
  · rw [h2]
    exact .escape (by decide)
  · rw [h3]
    exact .escape (by decide)
  · rw [h4]
    exact .escape (by decide)
  · rw [h5]
    exact .escape (by decide)
  · rw [h6]
    exact .escape (by decide)
  · rw [h7]
    exact .escape (by decide)
  · have hlt : c.toNat < 0x20 := UInt8.lt_iff_toNat_lt.mp h8
    have hdigit : ∀ n < 16, hexCharToInt (hexDigit n) = some n := by decide
    have hvalid : c.toNat.isValidChar := .inl (by omega)
    have henc : String.utf8EncodeChar (Char.ofNat c.toNat) = [c] := by
      rw [utf8EncodeChar_ofNat hvalid, encode, if_pos (by omega), UInt8.ofNat_toNat]
    rw [← henc]
    refine .unicode ?_
    rw [Utf8.toNat_charOfNat hvalid]
    have hhex := Hex4.mk (show hexCharToInt '0'.toUInt8 = some 0 by decide)
      (show hexCharToInt '0'.toUInt8 = some 0 by decide) (hdigit (c.toNat / 16) (by omega))
      (hdigit (c.toNat % 16) (by omega))
    have hval : 0 * 4096 + 0 * 256 + c.toNat / 16 * 16 + c.toNat % 16 = c.toNat := by omega
    rwa [hval] at hhex
  · exact .plain (UInt8.not_lt.mp h8) h1 h2

/-- What is written of a string stands for it. -/
theorem stringText_serialize (s : Bytes) : StringText (s.flatMap escapeByte) s := by
  induction s with
  | nil => exact .nil
  | cons c s ih =>
    rw [List.flatMap_cons]
    exact .cons (escapeByte_piece c) ih

end DeviceSdk.Parson
