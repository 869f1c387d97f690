import DeviceSdk.Parson.RoundTrip

/-!
# Documents in UTF-8

`json_value_init_string` of `parson.c` takes a string only if it is UTF-8, and the parser takes any
bytes. Where a document is UTF-8 the parser finds nothing that the check would refuse, whatever
escapes its strings have, and what is written of the value is UTF-8 again.

## Main definitions

- `JsonValue.Encoded` — every string and name passes `is_valid_utf8`

## Main results

- `textOf_encoded`, `serialize_valid`
- `parseString_encoded`
-/

namespace DeviceSdk.Parson

variable {D : Type} (lib : DoubleText D)

namespace JsonValue

mutual

/-- The strings and names of a value pass `is_valid_utf8`. -/
def Encoded : JsonValue D → Prop
  | .string s => isValidUtf8 s = true
  | .array items => EncodedItems items
  | .object members => EncodedMembers members
  | .null => True
  | .boolean _ => True
  | .number _ => True
  | .uint _ => True

def EncodedItems : List (JsonValue D) → Prop
  | [] => True
  | x :: xs => Encoded x ∧ EncodedItems xs

def EncodedMembers : List (Bytes × JsonValue D) → Prop
  | [] => True
  | (name, x) :: ms => isValidUtf8 name = true ∧ Encoded x ∧ EncodedMembers ms

end

end JsonValue

-- ════════════════════════════════════════════════════════════════════════
-- Reading
-- ════════════════════════════════════════════════════════════════════════

theorem isspace_ascii {b : UInt8} (h : isspace b = true) : b.toNat < 0x80 := by
  have hall : ∀ n : Fin 256, isspace (UInt8.ofFin n) = true → (UInt8.ofFin n).toNat < 0x80 := by
    decide +kernel
  exact hall b.toFin h

theorem Spaces.ascii {ws : Bytes} (h : Spaces ws) : ∀ b ∈ ws, b.toNat < 0x80 :=
  fun b hb => isspace_ascii (h b hb)

theorem NumeralByte.ascii {b : UInt8} (h : NumeralByte b) : b.toNat < 0x80 := by
  have hall : ∀ n : Fin 256, (isDigit (UInt8.ofFin n) = true ∨
      UInt8.ofFin n ∈ ['.'.toUInt8, 'e'.toUInt8, 'E'.toUInt8, '+'.toUInt8, '-'.toUInt8]) →
      (UInt8.ofFin n).toNat < 0x80 := by decide +kernel
  exact hall b.toFin h

theorem Numeral.text_ascii (n : Numeral) : ∀ b ∈ n.text, b.toNat < 0x80 := by
  refine List.forall_mem_append.mpr ⟨fun b hb => ?_, fun b hb => (n.body_numeralByte b hb).ascii⟩
  split_ifs at hb
  · rw [List.mem_singleton.mp hb]
    decide
  · cases hb

theorem tokens_ascii : (∀ b ∈ nullToken, b.toNat < 0x80) ∧ (∀ b ∈ trueToken, b.toNat < 0x80) ∧
    (∀ b ∈ falseToken, b.toNat < 0x80) := by decide +kernel

/-- White space, and then a byte below 128 or the end. -/
theorem head_ascii {ws s : Bytes} (hws : Spaces ws) (hs : ∀ b, s.head? = some b → b.toNat < 0x80) :
    ∀ b, (ws ++ s).head? = some b → b.toNat < 0x80 := by
  cases ws with
  | nil => exact hs
  | cons c ws =>
    intro b hb
    obtain rfl : c = b := Option.some.inj hb
    exact hws.ascii c List.mem_cons_self

theorem QuotedText.valid {s q rest : Bytes} (h : QuotedText s q) (hv : Utf8.Valid (q ++ rest)) :
    isValidUtf8 s = true ∧ Utf8.Valid rest := by
  obtain ⟨hs, hrest⟩ := getQuotedString_valid (getQuotedString_iff_quotedText.mpr ⟨q, rfl, h⟩) hv
  exact ⟨(isValidUtf8_iff s).mpr hs, hrest⟩

mutual

/-- The strings of a text in UTF-8 are in UTF-8. -/
theorem textOf_encoded : (v : JsonValue D) → {t : Bytes} → TextOf lib v t → Utf8.Valid t → v.Encoded
  | .null, _, _, _ => trivial
  | .boolean _, _, _, _ => trivial
  | .number _, _, _, _ => trivial
  | .uint _, _, _, _ => trivial
  | .string _, t, h, hv => (QuotedText.valid h (by rwa [List.append_nil] : Utf8.Valid (t ++ []))).1
  | .array items, _, ⟨body, heq, hitems⟩, hv => by
    rw [heq, Utf8.valid_cons_ascii (by decide), Utf8.valid_append_ascii (by decide)] at hv
    exact itemsText_encoded items hitems hv.1
  | .object members, _, ⟨body, heq, hmembers⟩, hv => by
    rw [heq, Utf8.valid_cons_ascii (by decide), Utf8.valid_append_ascii (by decide)] at hv
    exact membersText_encoded members hmembers hv.1

theorem itemsText_encoded : (items : List (JsonValue D)) → {t : Bytes} → ItemsText lib items t →
    Utf8.Valid t → JsonValue.EncodedItems items
  | [], _, _, _ => trivial
  | x :: xs, _, ⟨a, u, b, r, heq, ha, hu, hb, hr⟩, hv => by
    have hhead : ∀ d, r.head? = some d → d.toNat < 0x80 := by
      obtain ⟨-, rfl⟩ | ⟨-, r', rfl, -⟩ := hr
      · exact fun d hd => by cases hd
      · intro d hd
        rw [← Option.some.inj hd]
        decide
    rw [heq, Utf8.valid_append_of_ascii ha.ascii, Utf8.valid_append_of_head (head_ascii hb hhead),
      Utf8.valid_append_of_ascii hb.ascii] at hv
    refine ⟨textOf_encoded x hu hv.1, ?_⟩
    obtain ⟨rfl, -⟩ | ⟨-, r', rfl, hr'⟩ := hr
    · trivial
    · exact itemsText_encoded xs hr' ((Utf8.valid_cons_ascii (by decide)).mp hv.2)

theorem membersText_encoded : (members : List (Bytes × JsonValue D)) → {t : Bytes} →
    MembersText lib members t → Utf8.Valid t → JsonValue.EncodedMembers members
  | [], _, _, _ => trivial
  | (name, x) :: ms, _, ⟨a, q, b, c, u, d, r, heq, ha, hq, hb, hc, hu, hd, hr⟩, hv => by
    have hhead : ∀ e, r.head? = some e → e.toNat < 0x80 := by
      obtain ⟨-, rfl⟩ | ⟨-, r', rfl, -⟩ := hr
      · exact fun e he => by cases he
      · intro e he
        rw [← Option.some.inj he]
        decide
    rw [heq, Utf8.valid_append_of_ascii ha.ascii] at hv
    obtain ⟨hname, hv⟩ := hq.valid hv
    rw [Utf8.valid_append_of_ascii hb.ascii, Utf8.valid_cons_ascii (by decide),
      Utf8.valid_append_of_ascii hc.ascii, Utf8.valid_append_of_head (head_ascii hd hhead),
      Utf8.valid_append_of_ascii hd.ascii] at hv
    refine ⟨hname, textOf_encoded x hu hv.1, ?_⟩
    obtain ⟨rfl, -⟩ | ⟨-, r', rfl, hr'⟩ := hr
    · trivial
    · exact membersText_encoded ms hr' ((Utf8.valid_cons_ascii (by decide)).mp hv.2)

end

/-- The last byte of a text of a value is below 128, so that the text is UTF-8 whatever is behind
    it. -/
theorem textOf_valid {v : JsonValue D} {t rest : Bytes} (h : TextOf lib v t)
    (hv : Utf8.Valid (t ++ rest)) : Utf8.Valid t := by
  have hcut (t' : Bytes) {b : UInt8} (hb : b.toNat < 0x80) (ht : t = t' ++ [b]) : Utf8.Valid t := by
    rw [ht, List.append_assoc, List.singleton_append, Utf8.valid_append_ascii hb] at hv
    rw [ht]
    exact hv.1.append (Utf8.valid_singleton hb)
  have hbracket {c d : UInt8} (hd : d.toNat < 0x80) {body : Bytes} (ht : t = c :: (body ++ [d])) :
      Utf8.Valid t := hcut (c :: body) hd ht
  cases v with
  | null =>
    rw [TextOf] at h
    rw [h]
    exact Utf8.valid_of_ascii tokens_ascii.1
  | boolean b =>
    rw [TextOf] at h
    rw [h]
    cases b with
    | true => exact Utf8.valid_of_ascii tokens_ascii.2.1
    | false => exact Utf8.valid_of_ascii tokens_ascii.2.2
  | number x =>
    obtain ⟨n, rfl, -⟩ := h
    exact Utf8.valid_of_ascii n.text_ascii
  | uint u =>
    obtain ⟨n, rfl, -⟩ := h
    exact Utf8.valid_of_ascii n.text_ascii
  | string s =>
    obtain ⟨content, out, ht, -⟩ := h
    exact hbracket (by decide) ht
  | array items =>
    obtain ⟨body, ht, -⟩ := h
    exact hbracket (by decide) ht
  | object members =>
    obtain ⟨body, ht, -⟩ := h
    exact hbracket (by decide) ht

theorem valid_skipBom {s : Bytes} (h : Utf8.Valid s) : Utf8.Valid (skipBom s) := by
  rw [skipBom]
  cases htoken : token [0xEF, 0xBB, 0xBF] s with
  | none => exact h
  | some r =>
    -- the mark is the encoding of a character
    have henc : String.utf8EncodeChar '\uFEFF' = [0xEF, 0xBB, 0xBF] := by decide
    rw [token_iff.mp htoken, ← henc, ← isValidUtf8_iff, isValidUtf8_encode_append,
      isValidUtf8_iff] at h
    exact h

-- ════════════════════════════════════════════════════════════════════════
-- Writing
-- ════════════════════════════════════════════════════════════════════════

theorem escapeByte_ascii {c : UInt8} (h : c.toNat < 0x80) :
    ∀ b ∈ escapeByte c, b.toNat < 0x80 := by
  have hdigit : ∀ n < 16, (hexDigit n).toNat < 0x80 := by decide
  have hpair {a b : UInt8} (ha : a.toNat < 0x80) (hb : b.toNat < 0x80) :
      ∀ d ∈ [a, b], d.toNat < 0x80 := by simp [ha, hb]
  have hfirst {s : Bytes} (hs : ∀ b ∈ s, b.toNat < 0x80) :
      ∀ b ∈ '\\'.toUInt8 :: s, b.toNat < 0x80 := List.forall_mem_cons.mpr ⟨by decide, hs⟩
  rw [escapeByte]
  split_ifs with h1 h2 h3 h4 h5 h6 h7 h8
  iterate 7 exact hpair (by decide) (by decide)
  · have hlt : c.toNat < 0x20 := UInt8.lt_iff_toNat_lt.mp h8
    refine hfirst (List.forall_mem_cons.mpr ⟨by decide, List.forall_mem_cons.mpr
      ⟨by decide, List.forall_mem_cons.mpr ⟨by decide, ?_⟩⟩⟩)
    exact hpair (hdigit _ (by omega)) (hdigit _ (by omega))
  · simpa using h

theorem escapeByte_high {c : UInt8} (h : 0x80 ≤ c.toNat) : escapeByte c = [c] := by
  have hne {d : UInt8} (hd : d.toNat < 0x80) : c ≠ d := by
    rintro rfl
    omega
  have hlt : ¬c < 0x20 := fun hlt => by
    have := UInt8.lt_iff_toNat_lt.mp hlt
    exact absurd this (by have : (0x20 : UInt8).toNat = 32 := rfl; omega)
  rw [escapeByte, if_neg (hne (by decide)), if_neg (hne (by decide)), if_neg (hne (by decide)),
    if_neg (hne (by decide)), if_neg (hne (by decide)), if_neg (hne (by decide)),
    if_neg (hne (by decide)), if_neg hlt]

theorem flatMap_escapeByte_high {s : Bytes} (h : ∀ b ∈ s, 0x80 ≤ b.toNat) :
    s.flatMap escapeByte = s := by
  induction s with
  | nil => rfl
  | cons c s ih =>
    obtain ⟨hc, hs⟩ := List.forall_mem_cons.mp h
    rw [List.flatMap_cons, ih hs, escapeByte_high hc]
    rfl

theorem flatMap_escapeByte_valid {s : Bytes} (h : Utf8.Valid s) :
    Utf8.Valid (s.flatMap escapeByte) := by
  obtain ⟨cs, rfl⟩ := h
  induction cs with
  | nil => exact Utf8.valid_nil
  | cons c cs ih =>
    rw [List.flatMap_cons, List.flatMap_append]
    refine Utf8.Valid.append ?_ ih
    by_cases hc : c.toNat < 0x80
    · rw [Utf8.encode_of_lt hc, List.flatMap_singleton]
      refine Utf8.valid_of_ascii (escapeByte_ascii ?_)
      rwa [toNat_ofNat_byte (by omega)]
    · rw [flatMap_escapeByte_high (Utf8.le_of_mem_encode (Nat.le_of_not_lt hc))]
      exact Utf8.valid_encode c

theorem jsonSerializeString_valid {s : Bytes} (h : isValidUtf8 s = true) :
    Utf8.Valid (jsonSerializeString s) := by
  rw [jsonSerializeString, Utf8.valid_cons_ascii (by decide), Utf8.valid_append_ascii (by decide)]
  exact ⟨flatMap_escapeByte_valid ((isValidUtf8_iff s).mp h), Utf8.valid_nil⟩

theorem comma_valid (last : Bool) : Utf8.Valid (if last then [] else [','.toUInt8]) := by
  cases last with
  | true => exact Utf8.valid_nil
  | false => exact Utf8.valid_singleton (by decide)

section

variable (pretty : Bool)

theorem extra_valid {s : Bytes} (h : ∀ b ∈ s, b.toNat < 0x80) : Utf8.Valid (extra pretty s) := by
  cases pretty with
  | true => exact Utf8.valid_of_ascii h
  | false => exact Utf8.valid_nil

mutual

/-- What is written of a value whose strings are UTF-8 is UTF-8. -/
theorem serialize_valid : (v : JsonValue D) → (level : ℕ) → v.Encoded →
    Utf8.Valid (serialize lib pretty v level)
  | .null, _, _ => Utf8.valid_of_ascii tokens_ascii.1
  | .boolean true, _, _ => Utf8.valid_of_ascii tokens_ascii.2.1
  | .boolean false, _, _ => Utf8.valid_of_ascii tokens_ascii.2.2
  | .number x, _, _ => Utf8.valid_of_ascii (lib.print x).text_ascii
  | .uint u, _, _ => by
    rw [serialize, ← uintNumeral_text]
    exact Utf8.valid_of_ascii (uintNumeral _).text_ascii
  | .string s, _, h => jsonSerializeString_valid h
  | .array items, level, h => by
    rw [serialize, Utf8.valid_cons_ascii (by decide), Utf8.valid_append_ascii (by decide)]
    exact ⟨((extra_valid _ spaces_newline.ascii).append (serializeItems_valid items level h)).append
      (extra_valid _ (spaces_indent level).ascii), Utf8.valid_nil⟩
  | .object members, level, h => by
    rw [serialize, Utf8.valid_cons_ascii (by decide), Utf8.valid_append_ascii (by decide)]
    exact ⟨((extra_valid _ spaces_newline.ascii).append
      (serializeMembers_valid members level h)).append
      (extra_valid _ (spaces_indent level).ascii), Utf8.valid_nil⟩

theorem serializeItems_valid : (items : List (JsonValue D)) → (level : ℕ) →
    JsonValue.EncodedItems items → Utf8.Valid (serializeItems lib pretty items level)
  | [], _, _ => Utf8.valid_nil
  | x :: xs, level, h => by
    rw [serializeItems]
    exact ((((extra_valid _ (spaces_indent _).ascii).append (serialize_valid x _ h.1)).append
      (comma_valid _)).append
      (extra_valid _ spaces_newline.ascii)).append (serializeItems_valid xs level h.2)

theorem serializeMembers_valid : (members : List (Bytes × JsonValue D)) → (level : ℕ) →
    JsonValue.EncodedMembers members → Utf8.Valid (serializeMembers lib pretty members level)
  | [], _, _ => Utf8.valid_nil
  | (name, x) :: ms, level, h => by
    rw [serializeMembers]
    have hname := jsonSerializeString_valid h.1
    have hcolon : Utf8.Valid (':'.toUInt8 :: extra pretty [0x20]) :=
      (Utf8.valid_cons_ascii (by decide)).mpr (extra_valid _ spaces_blank.ascii)
    exact ((((((extra_valid _ (spaces_indent _).ascii).append hname).append hcolon).append
      (serialize_valid x _ h.2.1)).append
      (comma_valid _)).append
      (extra_valid _ spaces_newline.ascii)).append (serializeMembers_valid ms level h.2.2)

end

end

/-- A document in UTF-8 has only strings that `json_value_init_string` would take, and the value is
    written in UTF-8. -/
theorem parseString_encoded (pretty : Bool) {text : Bytes} {v : JsonValue D}
    (htext : isValidUtf8 text = true) (h : parseString lib text = some v) :
    v.Encoded ∧ isValidUtf8 (serialize lib pretty v 0) = true := by
  have hencoded : v.Encoded := by
    obtain ⟨⟨w, rest⟩, hp, rfl⟩ := Option.map_eq_some_iff.mp h
    have hvalid := valid_skipBom (valid_cString ((isValidUtf8_iff text).mp htext))
    rcases parseValue_sound lib hp with ⟨ws, t, hs, hws, ht, -⟩ | ⟨-, rfl, -⟩
    · rw [hs, Utf8.valid_append_of_ascii hws.ascii] at hvalid
      exact textOf_encoded lib w ht (textOf_valid lib ht hvalid)
    · trivial
  exact ⟨hencoded, (isValidUtf8_iff _).mpr (serialize_valid lib pretty v 0 hencoded)⟩

/-- `"\\u00e9€"`, with an escape and a character of three bytes. -/
def sampleText : Bytes :=
  ['"'.toUInt8, '\\'.toUInt8, 'u'.toUInt8, '0'.toUInt8, '0'.toUInt8, 'e'.toUInt8, '9'.toUInt8,
    0xE2, 0x82, 0xAC, '"'.toUInt8]

theorem parseString_encoded_sample :
    isValidUtf8 [0xC3, 0xA9, 0xE2, 0x82, 0xAC] = true ∧
      isValidUtf8 (serialize sampleLib false (.string [0xC3, 0xA9, 0xE2, 0x82, 0xAC]) 0) = true := by
  have htext : isValidUtf8 sampleText = true := by
    rw [isValidUtf8_iff]
    exact ⟨['"', '\\', 'u', '0', '0', 'e', '9', '€', '"'], by decide⟩
  have hread : parseString sampleLib sampleText = some (.string [0xC3, 0xA9, 0xE2, 0x82, 0xAC]) := by
    rfl
  exact parseString_encoded sampleLib false htext hread

end DeviceSdk.Parson
