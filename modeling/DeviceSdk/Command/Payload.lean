import DeviceSdk.Command.Reqdata
import DeviceSdk.Parson.RoundTrip

/-!
# Payloads that `parson.c` reads

The parsers of `reqdata.c`, with `json_parse_string` of the vendored `parson.c`. What that makes of
any JSON text of a map of strings is the document that the requests are compared by, so that for
these parsers the two encodings agree without an assumption about JSON.

## Main definitions

- `Json.ofParson` — a value that `parson.c` has read
- `parsonParsers` — the parsers
- `jsonEncoding` — the encoding of a map that `parson.c` writes

## Main results

- `jsonParse_of_text`, `jsonParse_jsonEncoding` — a JSON text of a map is read as its document
- `parson_encodingsAgree_iff`
-/

namespace DeviceSdk

open Parson (Bytes DoubleText JsonValue TextOf MembersText)

variable {D : Type}

mutual

/-- A value that `json_parse_string` has read. A double is what `num` says. -/
def Json.ofParson (num : D → Flt) : JsonValue D → Json
  | .null => .null
  | .boolean b => .bool b
  | .number x => .number (num x)
  | .uint u => .uint u.toNat
  | .string s => .string (Utf8.text s)
  | .array items => .array (Json.ofItems num items)
  | .object members => .object (Json.ofMembers num members)

def Json.ofItems (num : D → Flt) : List (JsonValue D) → List Json
  | [] => []
  | x :: xs => Json.ofParson num x :: Json.ofItems num xs

def Json.ofMembers (num : D → Flt) : List (Bytes × JsonValue D) → List (String × Json)
  | [] => []
  | (name, x) :: ms => (Utf8.text name, Json.ofParson num x) :: Json.ofMembers num ms

end

/-- The parsers of `reqdata.c`, of which that of JSON is `parson.c`. -/
def parsonParsers (dt : DoubleText D) (num : D → Flt) (codec : Codec)
    (cborLoad : List UInt8 → Option CborDocument) : ReqdataLib where
  codec
  jsonParse body := (Parson.parseString dt body).map (Json.ofParson num)
  cborLoad

/-- The members of a map of strings, as they are written and as they are read. -/
def writtenMembers (m : List (String × String)) : List (Bytes × JsonValue D) :=
  m.map fun p => (Utf8.bytes p.1, .string (Utf8.bytes p.2))

def readMembers (m : List (String × String)) : List (Bytes × JsonValue D) :=
  m.map fun p => (Utf8.bytes (cText p.1), .string (Utf8.bytes (cText p.2)))

/-- What `json_serialize_to_string` writes of a map. -/
def jsonEncoding (dt : DoubleText D) (m : List (String × String)) : Bytes :=
  Parson.serialize dt false (.object (writtenMembers m)) 0

-- ════════════════════════════════════════════════════════════════════════
-- Reading
-- ════════════════════════════════════════════════════════════════════════

theorem names_readMembers (m : List (String × String)) :
    ((readMembers m : List (Bytes × JsonValue D)).map Prod.fst).Nodup ↔
      (m.map fun p => cText p.1).Nodup := by
  have hnames : (readMembers m : List (Bytes × JsonValue D)).map Prod.fst =
      (m.map fun p => cText p.1).map Utf8.bytes := by
    rw [readMembers, List.map_map, List.map_map]
    rfl
  rw [hnames]
  exact List.nodup_map_iff Utf8.bytes_injective

theorem distinct_readMembers (m : List (String × String)) :
    JsonValue.DistinctMembers (readMembers m : List (Bytes × JsonValue D)) := by
  induction m with
  | nil => trivial
  | cons p m ih => exact ⟨trivial, ih⟩

theorem depth_readMembers (m : List (String × String)) :
    JsonValue.depthMembers (readMembers m : List (Bytes × JsonValue D)) ≤ 1 := by
  induction m with
  | nil => exact Nat.zero_le _
  | cons p m ih => exact max_le le_rfl ih

theorem ofMembers_readMembers (num : D → Flt) (m : List (String × String)) :
    Json.ofMembers num (readMembers m) = m.map fun p => (cText p.1, .string (cText p.2)) := by
  induction m with
  | nil => rfl
  | cons p m ih =>
    rw [readMembers, List.map_cons, ← readMembers, Json.ofMembers, ih, Json.ofParson,
      Utf8.text_bytes, Utf8.text_bytes, List.map_cons]

section

variable (dt : DoubleText D) (num : D → Flt) (codec : Codec)
  (cborLoad : List UInt8 → Option CborDocument)

/-- A JSON text of a map is read as its document, which there is none of where two names are the
    same as strings of C. -/
theorem jsonParse_of_text {m : List (String × String)} {t : Bytes}
    (ht : TextOf dt (.object (readMembers m)) t) :
    (parsonParsers dt num codec cborLoad).jsonParse t = jsonDocument m := by
  have hdepth : (JsonValue.object (readMembers m : List (Bytes × JsonValue D))).depth ≤
      Parson.maxNesting + 1 := by
    have hone := depth_readMembers (D := D) m
    have hmax : 1 ≤ Parson.maxNesting := by decide
    exact Nat.add_le_add_right (hone.trans hmax) 1
  have hread := Parson.parseString_object dt ht (distinct_readMembers m) hdepth
  change (Parson.parseString dt t).map (Json.ofParson num) = _
  rw [hread, jsonDocument]
  simp only [names_readMembers]
  split_ifs with hnames
  · rw [Option.map_some, Json.ofParson, ofMembers_readMembers]
  · rfl

end

-- ════════════════════════════════════════════════════════════════════════
-- Writing
-- ════════════════════════════════════════════════════════════════════════

/-- A string is written with all of its characters, and read up to the first null. -/
theorem quotedText_bytes (s : String) :
    Parson.QuotedText (Utf8.bytes (cText s)) (Parson.jsonSerializeString (Utf8.bytes s)) :=
  ⟨_, _, rfl, Parson.stringText_serialize _, (Utf8.takeWhile_bytes s).symm⟩

theorem membersText_written (dt : DoubleText D) (level : ℕ) : (m : List (String × String)) →
    MembersText dt (readMembers m) (Parson.serializeMembers dt false (writtenMembers m) level)
  | [] => Parson.spaces_nil
  | (name, value) :: [] =>
    ⟨[], _, [], [], _, [], [], by simp [writtenMembers, Parson.serializeMembers, Parson.serialize,
      Parson.extra], Parson.spaces_nil, quotedText_bytes name, Parson.spaces_nil,
      Parson.spaces_nil, quotedText_bytes value, Parson.spaces_nil, .inl ⟨rfl, rfl⟩⟩
  | (name, value) :: p :: m =>
    ⟨[], _, [], [], _, [], _, by simp [writtenMembers, Parson.serializeMembers, Parson.serialize,
      Parson.extra], Parson.spaces_nil, quotedText_bytes name, Parson.spaces_nil,
      Parson.spaces_nil, quotedText_bytes value, Parson.spaces_nil,
      .inr ⟨List.cons_ne_nil _ _, _, rfl, membersText_written dt level (p :: m)⟩⟩

theorem textOf_jsonEncoding (dt : DoubleText D) (m : List (String × String)) :
    TextOf dt (.object (readMembers m)) (jsonEncoding dt m) :=
  ⟨Parson.serializeMembers dt false (writtenMembers m) 0,
    by simp [jsonEncoding, Parson.serialize, Parson.extra], membersText_written dt 0 m⟩

/-- What is written of a map is read as its document. -/
theorem jsonParse_jsonEncoding (dt : DoubleText D) (num : D → Flt) (codec : Codec)
    (cborLoad : List UInt8 → Option CborDocument) (m : List (String × String)) :
    (parsonParsers dt num codec cborLoad).jsonParse (jsonEncoding dt m) = jsonDocument m :=
  jsonParse_of_text dt num codec cborLoad (textOf_jsonEncoding dt m)

/-- For the parsers with `parson.c`, every JSON text of a map and its CBOR encoding give the same
    strings exactly when no name has a null character. -/
theorem parson_encodingsAgree_iff (dt : DoubleText D) (num : D → Flt) (codec : Codec)
    (cborLoad : List UInt8 → Option CborDocument) {m : List (String × String)}
    (hm : (m.map Prod.fst).Nodup) {jsonType cborType : Option String}
    (hjson : isCborContent jsonType = false) (hcbor : isCborContent cborType = true)
    {jsonBody cborBody : List UInt8} (ht : TextOf dt (.object (readMembers m)) jsonBody)
    (hc : cborLoad cborBody = some (cborDocument m)) :
    EncodingsAgree (parsonParsers dt num codec cborLoad) jsonType jsonBody cborType cborBody ↔
      ∀ p ∈ m, '\x00' ∉ p.1.toList :=
  encodingsAgree_iff _ hm hjson hcbor (jsonParse_of_text dt num codec cborLoad ht) hc

/-- The parsers with the C library, and a CBOR library that finds one speed. -/
def speedParsers : ReqdataLib :=
  parsonParsers Parson.sampleLib (fun x => .finite x.value) sampleParsers.codec fun _ =>
    some (cborDocument [("Speed", "9")])

theorem parson_encodingsAgree_speed :
    EncodingsAgree speedParsers none (jsonEncoding Parson.sampleLib [("Speed", "9")])
        (some "application/cbor") [] ↔
      ∀ p ∈ [("Speed", "9")], '\x00' ∉ p.1.toList :=
  parson_encodingsAgree_iff Parson.sampleLib (fun x => .finite x.value) sampleParsers.codec
    (fun _ => some (cborDocument [("Speed", "9")])) (by decide) rfl (by decide +kernel)
    (textOf_jsonEncoding Parson.sampleLib [("Speed", "9")]) rfl

end DeviceSdk
