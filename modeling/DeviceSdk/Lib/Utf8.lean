import Mathlib

/-!
# Texts in UTF-8

The bytes of a text, one character after the other. A byte below 128 is a character of its own, so
that a text may be cut in front of such a byte and behind it.

## Main definitions

- `Utf8.Valid` — bytes that are the encoding of a text
- `Utf8.bytes`, `Utf8.text` — the bytes of a string, and back

## Main results

- `Utf8.valid_append_ascii` — a cut at a byte below 128
- `Utf8.text_bytes`, `Utf8.takeWhile_bytes` — there and back, and the part in front of a null
-/

namespace Utf8

/-- The bytes are the encoding of some characters. -/
def Valid (s : List UInt8) : Prop := ∃ cs : List Char, cs.flatMap String.utf8EncodeChar = s

theorem valid_nil : Valid [] := ⟨[], rfl⟩

theorem valid_encode (c : Char) : Valid (String.utf8EncodeChar c) := ⟨[c], by simp⟩

theorem Valid.append {s t : List UInt8} (hs : Valid s) (ht : Valid t) : Valid (s ++ t) := by
  obtain ⟨cs, rfl⟩ := hs
  obtain ⟨ds, rfl⟩ := ht
  exact ⟨cs ++ ds, List.flatMap_append⟩

/-- Bytes that are valid are empty, or start with a character. -/
theorem valid_iff_nil_or_char {s : List UInt8} :
    Valid s ↔ s = [] ∨ ∃ c t, s = String.utf8EncodeChar c ++ t ∧ Valid t := by
  constructor
  · rintro ⟨cs, rfl⟩
    cases cs with
    | nil => exact .inl rfl
    | cons c cs => exact .inr ⟨c, _, List.flatMap_cons, cs, rfl⟩
  · rintro (rfl | ⟨c, t, rfl, ht⟩)
    · exact valid_nil
    · exact (valid_encode c).append ht

theorem encode_of_lt {c : Char} (h : c.toNat < 0x80) :
    String.utf8EncodeChar c = [UInt8.ofNat c.toNat] := by
  have hle : c.val.toNat ≤ 0x7f := Nat.le_of_lt_succ h
  rw [String.utf8EncodeChar]
  exact if_pos hle

theorem encode_length_pos (c : Char) : 0 < (String.utf8EncodeChar c).length := by
  rw [String.length_utf8EncodeChar]
  exact Char.utf8Size_pos c

/-- The bytes of a character beyond the first 128 are at least 128. -/
theorem le_of_mem_encode {c : Char} (h : 0x80 ≤ c.toNat) :
    ∀ b ∈ String.utf8EncodeChar c, 0x80 ≤ b.toNat := by
  have hgt : ¬ c.val.toNat ≤ 0x7f := Nat.not_le_of_lt h
  intro b hb
  rw [String.utf8EncodeChar] at hb
  simp only [if_neg hgt] at hb
  split at hb
  · simp only [List.mem_cons, List.not_mem_nil, or_false] at hb
    rcases hb with rfl | rfl <;> rw [UInt8.toNat_ofNat'] <;> omega
  · split at hb
    · simp only [List.mem_cons, List.not_mem_nil, or_false] at hb
      rcases hb with rfl | rfl | rfl <;> rw [UInt8.toNat_ofNat'] <;> omega
    · simp only [List.mem_cons, List.not_mem_nil, or_false] at hb
      rcases hb with rfl | rfl | rfl | rfl <;> rw [UInt8.toNat_ofNat'] <;> omega

theorem toNat_charOfNat {n : ℕ} (h : n.isValidChar) : (Char.ofNat n).toNat = n := by
  rw [Char.toNat_ofNat, if_pos h]

/-- A byte below 128 is a character. -/
theorem valid_singleton {b : UInt8} (h : b.toNat < 0x80) : Valid [b] := by
  have hchar : (Char.ofNat b.toNat).toNat = b.toNat := toNat_charOfNat (.inl (by omega))
  refine ⟨[Char.ofNat b.toNat], ?_⟩
  rw [List.flatMap_singleton, encode_of_lt (by rw [hchar]; exact h), hchar, UInt8.ofNat_toNat]

/-- What follows a byte below 128 is valid on its own. -/
theorem valid_cons_ascii {b : UInt8} {s : List UInt8} (h : b.toNat < 0x80) :
    Valid (b :: s) ↔ Valid s := by
  constructor
  · intro hv
    obtain hnil | ⟨c, t, hc, ht⟩ := valid_iff_nil_or_char.mp hv
    · cases hnil
    · by_cases hlt : c.toNat < 0x80
      · rw [encode_of_lt hlt, List.singleton_append] at hc
        rw [(List.cons.inj hc).2]
        exact ht
      · have hmem : b ∈ String.utf8EncodeChar c := by
          cases he : String.utf8EncodeChar c with
          | nil =>
            have hpos := encode_length_pos c
            rw [he] at hpos
            cases hpos
          | cons d ds =>
            rw [he, List.cons_append] at hc
            rw [(List.cons.inj hc).1]
            exact List.mem_cons_self
        have hge := le_of_mem_encode (Nat.le_of_not_lt hlt) b hmem
        omega
  · exact fun hs => (valid_singleton h).append hs

/-- What follows bytes below 128 is valid on its own. -/
theorem valid_append_of_ascii {p s : List UInt8} (h : ∀ b ∈ p, b.toNat < 0x80) :
    Valid (p ++ s) ↔ Valid s := by
  induction p with
  | nil => rfl
  | cons b p ih =>
    obtain ⟨hb, hp⟩ := List.forall_mem_cons.mp h
    rw [List.cons_append, valid_cons_ascii hb, ih hp]

/-- A byte below 128 stands between characters. -/
theorem valid_append_ascii {b : UInt8} (h : b.toNat < 0x80) {s t : List UInt8} :
    Valid (s ++ b :: t) ↔ Valid s ∧ Valid t := by
  constructor
  · rintro ⟨cs, hcs⟩
    induction cs generalizing s with
    | nil => simp at hcs
    | cons c cs ih =>
      rw [List.flatMap_cons] at hcs
      obtain ⟨u, hu, hbt⟩ | ⟨u, rfl, hu⟩ := List.append_eq_append_iff.mp hcs.symm
      · cases u with
        | nil =>
          rw [List.append_nil] at hu
          rw [List.nil_append] at hbt
          exact ⟨hu ▸ valid_encode c, (valid_cons_ascii h).mp ⟨cs, hbt.symm⟩⟩
        | cons d ds =>
          -- the byte is part of the character, which is no other
          obtain ⟨rfl, ht⟩ := List.cons.inj hbt
          have hmem : b ∈ String.utf8EncodeChar c := by
            rw [hu]
            simp
          have hlt : c.toNat < 0x80 := by
            by_contra hge
            exact absurd (le_of_mem_encode (Nat.le_of_not_lt hge) b hmem) (Nat.not_le_of_lt h)
          rw [encode_of_lt hlt] at hu
          have hlen := congrArg List.length hu
          simp only [List.length_append, List.length_cons, List.length_nil] at hlen
          have hs : s = [] := List.eq_nil_of_length_eq_zero (by omega)
          have hds : ds = [] := List.eq_nil_of_length_eq_zero (by omega)
          rw [hs, ht, hds]
          exact ⟨valid_nil, cs, rfl⟩
      · -- the character ends before the byte
        obtain ⟨hs, ht⟩ := ih hu
        exact ⟨(valid_encode c).append hs, ht⟩
  · rintro ⟨hs, ht⟩
    exact hs.append ((valid_cons_ascii h).mpr ht)

/-- A cut in front of a byte below 128, or at the end. -/
theorem valid_append_of_head {s t : List UInt8} (h : ∀ b, t.head? = some b → b.toNat < 0x80) :
    Valid (s ++ t) ↔ Valid s ∧ Valid t := by
  cases t with
  | nil => simp [valid_nil]
  | cons b t =>
    have hb := h b rfl
    rw [valid_append_ascii hb, valid_cons_ascii hb]

theorem valid_of_ascii {s : List UInt8} (h : ∀ b ∈ s, b.toNat < 0x80) : Valid s := by
  have hv := valid_append_of_ascii (s := []) h
  rw [List.append_nil] at hv
  exact hv.mpr valid_nil

-- ════════════════════════════════════════════════════════════════════════
-- Strings
-- ════════════════════════════════════════════════════════════════════════

/-- The bytes of a string. -/
def bytes (s : String) : List UInt8 := s.toList.flatMap String.utf8EncodeChar

/-- The string that has these bytes. Bytes that are no text are taken for characters one by one. -/
def text (s : List UInt8) : String :=
  match s.toByteArray.utf8Decode? with
  | some cs => String.ofList cs.toList
  | none => String.ofList (s.map fun b => Char.ofNat b.toNat)

theorem text_bytes (s : String) : text (bytes s) = s := by
  have hdecode : (bytes s).toByteArray.utf8Decode? = some s.toList.toArray :=
    List.utf8Decode?_utf8Encode
  rw [text, hdecode]
  exact String.ofList_toList

theorem bytes_injective : Function.Injective bytes := fun a b h => by
  rw [← text_bytes a, h, text_bytes]

theorem encode_ne_zero {c : Char} (hc : c ≠ '\x00') : ∀ b ∈ String.utf8EncodeChar c, b ≠ 0 := by
  rintro b hb rfl
  by_cases hlt : c.toNat < 0x80
  · rw [encode_of_lt hlt, List.mem_singleton] at hb
    have hzero : c.toNat % 256 = 0 := by
      have := congrArg UInt8.toNat hb
      simpa using this.symm
    exact hc (Char.toNat_inj.mp (by rw [← Nat.mod_eq_of_lt (by omega : c.toNat < 256), hzero]; rfl))
  · exact absurd (le_of_mem_encode (Nat.le_of_not_lt hlt) 0 hb) (by decide)

/-- The bytes in front of a null are those of the characters in front of it. -/
theorem takeWhile_bytes (s : String) : (bytes s).takeWhile (· ≠ 0) =
    bytes (String.ofList (s.toList.takeWhile (· ≠ '\x00'))) := by
  rw [bytes, bytes, String.toList_ofList]
  induction s.toList with
  | nil => rfl
  | cons c cs ih =>
    by_cases hc : c = '\x00'
    · subst hc
      rfl
    · have hall : ∀ b ∈ String.utf8EncodeChar c, decide (b ≠ 0) = true := fun b hb =>
        decide_eq_true (encode_ne_zero hc b hb)
      rw [List.flatMap_cons, List.takeWhile_append_of_pos hall, ih,
        List.takeWhile_cons_of_pos (by simpa using hc), List.flatMap_cons]

end Utf8
