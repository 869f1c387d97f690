import DeviceSdk.Lib.Utf8

/-!
# The check for UTF-8

`parson.c`, the JSON library of the SDK, takes a string into a JSON value only after a look at its
bytes: first bytes and continuation bytes, encodings that are longer than they have to be, surrogates.

## Main definitions

- `verifyUtf8Sequence`, `isValidUtf8`
- `encode` — the bytes of a code point

## Main results

- `isValidUtf8_iff` — the check accepts the encodings of texts
-/

namespace DeviceSdk.Parson

/-- The bytes of a C string. -/
abbrev Bytes := List UInt8

/-- `IS_CONT`. -/
def isCont (b : UInt8) : Bool := b &&& 0xC0 == 0x80

/-- `num_bytes_in_utf8_sequence`. -/
def numBytesInUtf8Sequence (c : UInt8) : ℕ :=
  if c = 0xC0 ∨ c = 0xC1 ∨ 0xF4 < c ∨ isCont c then 0
  else if c &&& 0x80 = 0 then 1
  else if c &&& 0xE0 = 0xC0 then 2
  else if c &&& 0xF0 = 0xE0 then 3
  else if c &&& 0xF8 = 0xF0 then 4
  else 0

/-- The code point that the first `len` bytes spell, where they go on as they start. -/
def codePoint (len : ℕ) (s : Bytes) : Option ℕ :=
  match len, s with
  | 1, a :: _ => some a.toNat
  | 2, a :: b :: _ =>
    if isCont b then some ((a.toNat &&& 0x1F) <<< 6 ||| (b.toNat &&& 0x3F)) else none
  | 3, a :: b :: c :: _ =>
    if isCont b ∧ isCont c then
      some (((a.toNat &&& 0xF) <<< 6 ||| (b.toNat &&& 0x3F)) <<< 6 ||| (c.toNat &&& 0x3F))
    else none
  | 4, a :: b :: c :: d :: _ =>
    if isCont b ∧ isCont c ∧ isCont d then
      some ((((a.toNat &&& 0x7) <<< 6 ||| (b.toNat &&& 0x3F)) <<< 6 ||| (c.toNat &&& 0x3F)) <<< 6
        ||| (d.toNat &&& 0x3F))
    else none
  | _, _ => none

/-- `verify_utf8_sequence`, with the length of the sequence. -/
def verifyUtf8Sequence (s : Bytes) : Option ℕ :=
  let len := numBytesInUtf8Sequence (s.headD 0)
  match codePoint len s with
  | none => none
  | some cp =>
    if (cp < 0x80 ∧ 1 < len) ∨ (cp < 0x800 ∧ 2 < len) ∨ (cp < 0x10000 ∧ 3 < len) then none
    else if 0x10FFFF < cp then none
    else if 0xD800 ≤ cp ∧ cp ≤ 0xDFFF then none
    else some len

/-- `is_valid_utf8`. -/
def isValidUtf8 : Bytes → Bool
  | [] => true
  | c :: s =>
    match verifyUtf8Sequence (c :: s) with
    | none => false
    | some len => isValidUtf8 (s.drop (len - 1))
termination_by s => s.length
decreasing_by simp only [List.length_drop, List.length_cons]; omega

theorem isCont_iff {b : UInt8} : isCont b = true ↔ 0x80 ≤ b.toNat ∧ b.toNat < 0xC0 := by
  have h : ∀ n : Fin 256, isCont (UInt8.ofFin n) = true ↔
      0x80 ≤ (UInt8.ofFin n).toNat ∧ (UInt8.ofFin n).toNat < 0xC0 := by decide +kernel
  exact h b.toFin

theorem numBytes_eq (c : UInt8) : numBytesInUtf8Sequence c =
    if c.toNat < 0x80 then 1 else if c.toNat < 0xC2 then 0 else if c.toNat < 0xE0 then 2
    else if c.toNat < 0xF0 then 3 else if c.toNat < 0xF5 then 4 else 0 := by
  have h : ∀ n : Fin 256, numBytesInUtf8Sequence (UInt8.ofFin n) =
      if (UInt8.ofFin n).toNat < 0x80 then 1 else if (UInt8.ofFin n).toNat < 0xC2 then 0
      else if (UInt8.ofFin n).toNat < 0xE0 then 2 else if (UInt8.ofFin n).toNat < 0xF0 then 3
      else if (UInt8.ofFin n).toNat < 0xF5 then 4 else 0 := by decide +kernel
  exact h c.toFin

/-- The first bytes of sequences of each length. -/
theorem first_byte {c : UInt8} {len : ℕ} (h : numBytesInUtf8Sequence c = len) :
    (len = 1 → c.toNat < 0x80) ∧ (len = 2 → 0xC2 ≤ c.toNat ∧ c.toNat < 0xE0) ∧
      (len = 3 → 0xE0 ≤ c.toNat ∧ c.toNat < 0xF0) ∧
      (len = 4 → 0xF0 ≤ c.toNat ∧ c.toNat < 0xF8) := by
  rw [numBytes_eq] at h
  split_ifs at h <;> omega

/-- Six more bits of a code point. -/
theorem shift_or_eq (a b : ℕ) : a <<< 6 ||| (b &&& 0x3F) = a * 64 + b % 64 := by
  have hmod : b &&& 0x3F = b % 64 := Nat.and_two_pow_sub_one_eq_mod b 6
  have hlt : b % 64 < 2 ^ 6 := Nat.mod_lt _ (by decide)
  rw [hmod, ← Nat.shiftLeft_add_eq_or_of_lt hlt, Nat.shiftLeft_eq]

theorem codePoint_two (a b : UInt8) (t : Bytes) (hb : isCont b = true) :
    codePoint 2 (a :: b :: t) = some (a.toNat % 32 * 64 + b.toNat % 64) := by
  have hmod : a.toNat &&& 0x1F = a.toNat % 32 := Nat.and_two_pow_sub_one_eq_mod _ 5
  rw [codePoint, if_pos hb, shift_or_eq, hmod]

theorem codePoint_three (a b c : UInt8) (t : Bytes) (hb : isCont b = true ∧ isCont c = true) :
    codePoint 3 (a :: b :: c :: t) =
      some ((a.toNat % 16 * 64 + b.toNat % 64) * 64 + c.toNat % 64) := by
  have hmod : a.toNat &&& 0xF = a.toNat % 16 := Nat.and_two_pow_sub_one_eq_mod _ 4
  rw [codePoint, if_pos hb, shift_or_eq, shift_or_eq, hmod]

theorem codePoint_four (a b c d : UInt8) (t : Bytes)
    (hb : isCont b = true ∧ isCont c = true ∧ isCont d = true) :
    codePoint 4 (a :: b :: c :: d :: t) =
      some (((a.toNat % 8 * 64 + b.toNat % 64) * 64 + c.toNat % 64) * 64 + d.toNat % 64) := by
  have hmod : a.toNat &&& 0x7 = a.toNat % 8 := Nat.and_two_pow_sub_one_eq_mod _ 3
  rw [codePoint, if_pos hb, shift_or_eq, shift_or_eq, shift_or_eq, hmod]

/-- The bytes of a sequence, by their number. -/
theorem codePoint_eq_some {len : ℕ} {s : Bytes} {cp : ℕ} (h : codePoint len s = some cp) :
    (∃ a t, len = 1 ∧ s = a :: t ∧ cp = a.toNat) ∨
    (∃ a b t, len = 2 ∧ s = a :: b :: t ∧ isCont b = true ∧
      cp = a.toNat % 32 * 64 + b.toNat % 64) ∨
    (∃ a b c t, len = 3 ∧ s = a :: b :: c :: t ∧ (isCont b = true ∧ isCont c = true) ∧
      cp = (a.toNat % 16 * 64 + b.toNat % 64) * 64 + c.toNat % 64) ∨
    ∃ a b c d t, len = 4 ∧ s = a :: b :: c :: d :: t ∧
      (isCont b = true ∧ isCont c = true ∧ isCont d = true) ∧
      cp = ((a.toNat % 8 * 64 + b.toNat % 64) * 64 + c.toNat % 64) * 64 + d.toNat % 64 := by
  rw [codePoint.eq_def] at h
  split at h
  case h_1 => exact .inl ⟨_, _, rfl, rfl, (Option.some.inj h).symm⟩
  case h_2 a b t =>
    split at h
    case isFalse => cases h
    case isTrue hb =>
      have heq := codePoint_two a b t hb
      rw [codePoint, if_pos hb, h] at heq
      exact .inr (.inl ⟨a, b, t, rfl, rfl, hb, Option.some.inj heq⟩)
  case h_3 a b c t =>
    split at h
    case isFalse => cases h
    case isTrue hb =>
      have heq := codePoint_three a b c t hb
      rw [codePoint, if_pos hb, h] at heq
      exact .inr (.inr (.inl ⟨a, b, c, t, rfl, rfl, hb, Option.some.inj heq⟩))
  case h_4 a b c d t =>
    split at h
    case isFalse => cases h
    case isTrue hb =>
      have heq := codePoint_four a b c d t hb
      rw [codePoint, if_pos hb, h] at heq
      exact .inr (.inr (.inr ⟨a, b, c, d, t, rfl, rfl, hb, Option.some.inj heq⟩))
  case h_5 => cases h

/-- The bytes of a code point, as `utf8EncodeChar` has them. -/
def encode (v : ℕ) : Bytes :=
  if v ≤ 0x7f then [UInt8.ofNat v]
  else if v ≤ 0x7ff then [UInt8.ofNat (v / 64 % 0x20 + 0xc0), UInt8.ofNat (v % 0x40 + 0x80)]
  else if v ≤ 0xffff then
    [UInt8.ofNat (v / 4096 % 0x10 + 0xe0), UInt8.ofNat (v / 64 % 0x40 + 0x80),
      UInt8.ofNat (v % 0x40 + 0x80)]
  else
    [UInt8.ofNat (v / 262144 % 0x08 + 0xf0), UInt8.ofNat (v / 4096 % 0x40 + 0x80),
      UInt8.ofNat (v / 64 % 0x40 + 0x80), UInt8.ofNat (v % 0x40 + 0x80)]

theorem utf8EncodeChar_eq (c : Char) : String.utf8EncodeChar c = encode c.toNat := rfl

theorem utf8EncodeChar_ofNat {v : ℕ} (h : v.isValidChar) :
    String.utf8EncodeChar (Char.ofNat v) = encode v := by
  rw [utf8EncodeChar_eq, Utf8.toNat_charOfNat h]

theorem ofNat_eq_iff {n : ℕ} {b : UInt8} (h : n < 256) : UInt8.ofNat n = b ↔ n = b.toNat := by
  rw [← UInt8.toNat_inj, UInt8.toNat_ofNat', Nat.mod_eq_of_lt h]

/-- The bytes of a code point of two, three or four bytes, from the bytes themselves. -/
theorem encode_two {a b : UInt8} (ha : 0xC2 ≤ a.toNat ∧ a.toNat < 0xE0) (hb : isCont b = true) :
    encode (a.toNat % 32 * 64 + b.toNat % 64) = [a, b] := by
  rw [isCont_iff] at hb
  rw [encode, if_neg (by omega), if_pos (by omega), (ofNat_eq_iff (by omega)).mpr, 
    (ofNat_eq_iff (by omega)).mpr] <;> omega

theorem encode_three {a b c : UInt8} (ha : 0xE0 ≤ a.toNat ∧ a.toNat < 0xF0)
    (hb : isCont b = true ∧ isCont c = true)
    (hover : 0x800 ≤ (a.toNat % 16 * 64 + b.toNat % 64) * 64 + c.toNat % 64) :
    encode ((a.toNat % 16 * 64 + b.toNat % 64) * 64 + c.toNat % 64) = [a, b, c] := by
  rw [isCont_iff, isCont_iff] at hb
  rw [encode, if_neg (by omega), if_neg (by omega), if_pos (by omega),
    (ofNat_eq_iff (by omega)).mpr, (ofNat_eq_iff (by omega)).mpr,
    (ofNat_eq_iff (by omega)).mpr] <;> omega

theorem encode_four {a b c d : UInt8} (ha : 0xF0 ≤ a.toNat ∧ a.toNat < 0xF8)
    (hb : isCont b = true ∧ isCont c = true ∧ isCont d = true)
    (hover : 0x10000 ≤
      ((a.toNat % 8 * 64 + b.toNat % 64) * 64 + c.toNat % 64) * 64 + d.toNat % 64) :
    encode (((a.toNat % 8 * 64 + b.toNat % 64) * 64 + c.toNat % 64) * 64 + d.toNat % 64) =
      [a, b, c, d] := by
  rw [isCont_iff, isCont_iff, isCont_iff] at hb
  rw [encode, if_neg (by omega), if_neg (by omega), if_neg (by omega),
    (ofNat_eq_iff (by omega)).mpr, (ofNat_eq_iff (by omega)).mpr,
    (ofNat_eq_iff (by omega)).mpr, (ofNat_eq_iff (by omega)).mpr] <;> omega

/-- The sequence that `verify_utf8_sequence` accepts is a character. -/
theorem verifyUtf8Sequence_sound {s : Bytes} {len : ℕ} (h : verifyUtf8Sequence s = some len) :
    ∃ c t, s = String.utf8EncodeChar c ++ t ∧ len = (String.utf8EncodeChar c).length := by
  rw [verifyUtf8Sequence] at h
  split at h
  case h_1 => cases h
  case h_2 cp hcp =>
    split at h
    case isTrue => cases h
    split at h
    case isTrue => cases h
    split at h
    case isTrue => cases h
    case isFalse hover hmax hsur =>
      have hvalid : cp.isValidChar := by
        rw [Nat.isValidChar]
        omega
      have hlen := Option.some.inj h
      rw [hlen] at hcp hover
      refine ⟨Char.ofNat cp, s.drop len, ?_⟩
      rw [utf8EncodeChar_ofNat hvalid]
      obtain ⟨h1, h2, h3, h4⟩ := first_byte hlen
      obtain ⟨a, t, rfl, rfl, rfl⟩ | ⟨a, b, t, rfl, rfl, hb, rfl⟩ |
        ⟨a, b, c, t, rfl, rfl, hb, rfl⟩ | ⟨a, b, c, d, t, rfl, rfl, hb, rfl⟩ :=
        codePoint_eq_some hcp
      · have ha : a.toNat ≤ 0x7f := Nat.le_of_lt_succ (h1 rfl)
        rw [encode, if_pos ha, UInt8.ofNat_toNat]
        exact ⟨rfl, rfl⟩
      · rw [encode_two (a := a) (h2 rfl) hb]
        exact ⟨rfl, rfl⟩
      · rw [encode_three (a := a) (h3 rfl) hb (by omega)]
        exact ⟨rfl, rfl⟩
      · rw [encode_four (a := a) (h4 rfl) hb (by omega)]
        exact ⟨rfl, rfl⟩

theorem toNat_ofNat_byte {n : ℕ} (h : n < 256) : (UInt8.ofNat n).toNat = n :=
  ((ofNat_eq_iff h).mp rfl).symm

theorem isCont_low (n : ℕ) : isCont (UInt8.ofNat (n % 0x40 + 0x80)) = true := by
  rw [isCont_iff, toNat_ofNat_byte (by omega)]
  omega

/-- A character at the start is accepted, whatever follows it. -/
theorem verifyUtf8Sequence_complete (c : Char) (t : Bytes) :
    verifyUtf8Sequence (String.utf8EncodeChar c ++ t) =
      some (String.utf8EncodeChar c).length := by
  have hvalid : c.toNat.isValidChar := c.valid
  rw [utf8EncodeChar_eq]
  generalize c.toNat = v at hvalid
  rw [Nat.isValidChar] at hvalid
  rw [verifyUtf8Sequence, encode]
  split_ifs with h1 h2 h3
  · have hlen : numBytesInUtf8Sequence (UInt8.ofNat v) = 1 := by
      rw [numBytes_eq, toNat_ofNat_byte (by omega), if_pos (by omega)]
    simp only [List.cons_append, List.nil_append, List.headD_cons, hlen, codePoint,
      toNat_ofNat_byte (n := v) (by omega)]
    rw [if_neg (by omega), if_neg (by omega), if_neg (by omega)]
    rfl
  · have hlen : numBytesInUtf8Sequence (UInt8.ofNat (v / 64 % 0x20 + 0xc0)) = 2 := by
      rw [numBytes_eq, toNat_ofNat_byte (by omega), if_neg (by omega), if_neg (by omega),
        if_pos (by omega)]
    have hcp : (v / 64 % 0x20 + 0xc0) % 32 * 64 + (v % 0x40 + 0x80) % 64 = v := by omega
    simp only [List.cons_append, List.nil_append, List.headD_cons, hlen,
      codePoint_two _ _ _ (isCont_low _)]
    rw [toNat_ofNat_byte (by omega), toNat_ofNat_byte (by omega), hcp]
    rw [if_neg (by omega), if_neg (by omega), if_neg (by omega)]
    rfl
  · have hlen : numBytesInUtf8Sequence (UInt8.ofNat (v / 4096 % 0x10 + 0xe0)) = 3 := by
      rw [numBytes_eq, toNat_ofNat_byte (by omega), if_neg (by omega), if_neg (by omega),
        if_neg (by omega), if_pos (by omega)]
    have hcp : ((v / 4096 % 0x10 + 0xe0) % 16 * 64 + (v / 64 % 0x40 + 0x80) % 64) * 64 +
        (v % 0x40 + 0x80) % 64 = v := by omega
    simp only [List.cons_append, List.nil_append, List.headD_cons, hlen,
      codePoint_three _ _ _ _ ⟨isCont_low _, isCont_low _⟩]
    rw [toNat_ofNat_byte (by omega), toNat_ofNat_byte (by omega), toNat_ofNat_byte (by omega),
      hcp]
    rw [if_neg (by omega), if_neg (by omega), if_neg (by omega)]
    rfl
  · have hlen : numBytesInUtf8Sequence (UInt8.ofNat (v / 262144 % 0x08 + 0xf0)) = 4 := by
      rw [numBytes_eq, toNat_ofNat_byte (by omega), if_neg (by omega), if_neg (by omega),
        if_neg (by omega), if_neg (by omega), if_pos (by omega)]
    have hcp : (((v / 262144 % 0x08 + 0xf0) % 8 * 64 + (v / 4096 % 0x40 + 0x80) % 64) * 64 +
        (v / 64 % 0x40 + 0x80) % 64) * 64 + (v % 0x40 + 0x80) % 64 = v := by omega
    simp only [List.cons_append, List.nil_append, List.headD_cons, hlen,
      codePoint_four _ _ _ _ _ ⟨isCont_low _, isCont_low _, isCont_low _⟩]
    rw [toNat_ofNat_byte (by omega), toNat_ofNat_byte (by omega), toNat_ofNat_byte (by omega),
      toNat_ofNat_byte (by omega), hcp]
    rw [if_neg (by omega), if_neg (by omega), if_neg (by omega)]
    rfl

/-- A step of the loop of `is_valid_utf8`. -/
theorem isValidUtf8_encode_append (c : Char) (t : Bytes) :
    isValidUtf8 (String.utf8EncodeChar c ++ t) = isValidUtf8 t := by
  have hv := verifyUtf8Sequence_complete c t
  cases he : String.utf8EncodeChar c with
  | nil =>
    have hpos := Utf8.encode_length_pos c
    rw [he] at hpos
    cases hpos
  | cons b bs =>
    rw [he, List.cons_append] at hv
    rw [List.cons_append, isValidUtf8, hv]
    simp

/-- `is_valid_utf8` accepts the bytes of texts, and no others. -/
theorem isValidUtf8_iff (s : Bytes) : isValidUtf8 s = true ↔ Utf8.Valid s := by
  constructor
  · intro h
    induction hn : s.length using Nat.strongRecOn generalizing s with
    | _ n ih =>
      cases s with
      | nil => exact Utf8.valid_nil
      | cons b s =>
        cases hv : verifyUtf8Sequence (b :: s) with
        | none => simp [isValidUtf8, hv] at h
        | some len =>
          obtain ⟨c, t, hs, -⟩ := verifyUtf8Sequence_sound hv
          have hpos := Utf8.encode_length_pos c
          have hlen := congrArg List.length hs
          rw [List.length_append] at hlen
          rw [hs, isValidUtf8_encode_append] at h
          rw [hs]
          exact (Utf8.valid_encode c).append (ih t.length (by omega) t h rfl)
  · rintro ⟨cs, rfl⟩
    induction cs with
    | nil => rw [List.flatMap_nil, isValidUtf8]
    | cons c cs ih => rw [List.flatMap_cons, isValidUtf8_encode_append, ih]

end DeviceSdk.Parson
