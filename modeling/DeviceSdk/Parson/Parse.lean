import DeviceSdk.Parson.Number

/-!
# Reading and writing JSON documents

`json_parse_string` and `json_serialize_to_string` of `parson.c`. A value in an object or an array is
read one level deeper than the object or the array, and beyond `MAX_NESTING` nothing is read. The
conversions between doubles and text are those of the C library.

## Main definitions

- `JsonValue` — what a document is read into
- `DoubleText` — `strtod` and `sprintf` for doubles
- `parseValue`, `parseString` — `parse_value`, `json_parse_string`
- `serialize` — `json_serialize_to_string`, and its pretty variant
-/

namespace DeviceSdk.Parson

/-- `JSON_Value`, over the finite doubles. -/
inductive JsonValue (D : Type)
  | null
  | boolean (b : Bool)
  | number (x : D)
  | uint (u : BitVec 64)
  | string (s : Bytes)
  | array (items : List (JsonValue D))
  | object (members : List (Bytes × JsonValue D))

/-- What the C library makes of the text of a number, and of a finite double. -/
structure DoubleText (D : Type) where
  /-- `strtod`, or nothing where it sets `errno` to `ERANGE`. -/
  strtod : Numeral → Option D
  /-- `errno` is set where there is no number at all. -/
  einval : Bool
  /-- `sprintf` with `FLOAT_FORMAT`. -/
  print : D → Numeral
  /-- Seventeen digits tell a double from all others. -/
  strtod_print : ∀ x y, strtod (print x) = some y → y = x
  isDecimal_print : ∀ x, isDecimal (print x).text = true
  print_int : ∀ x, (print x).int ≠ []
  /-- No 64-bit number is out of range. -/
  strtod_uint : ∀ n : Numeral, n.strtoull.isSome → (strtod n).isSome

variable {D : Type} (lib : DoubleText D)

-- ════════════════════════════════════════════════════════════════════════
-- The parser
-- ════════════════════════════════════════════════════════════════════════

/-- `isspace`. -/
def isspace (b : UInt8) : Bool := b == 0x20 || (0x09 ≤ b && b ≤ 0x0d)

/-- `SKIP_WHITESPACES`. -/
def skipWhitespaces (s : Bytes) : Bytes := s.dropWhile isspace

/-- What is behind a sign. -/
def unsigned : Bytes → Bytes
  | [] => []
  | c :: s => if c = '-'.toUInt8 then s else c :: s

/-- `strtod` reads a hexadecimal number. -/
def isHex : Bytes → Bool
  | z :: x :: h :: s =>
    z == '0'.toUInt8 && (x == 'x'.toUInt8 || x == 'X'.toUInt8) &&
      ((hexCharToInt h).isSome ||
        (h == '.'.toUInt8 && (s.head?.bind hexCharToInt).isSome))
  | _ => false

/-- An ASCII letter in lower case. -/
def lower (b : UInt8) : UInt8 := if 'A'.toUInt8 ≤ b ∧ b ≤ 'Z'.toUInt8 then b + 0x20 else b

/-- `strtod` reads an infinity or a NaN. -/
def isSpecial (s : Bytes) : Bool :=
  let w := (s.take 3).map lower
  w == ['i'.toUInt8, 'n'.toUInt8, 'f'.toUInt8] || w == ['n'.toUInt8, 'a'.toUInt8, 'n'.toUInt8]

/-- The value that `parse_number_value` makes of a numeral. -/
def Numeral.value (n : Numeral) : Option (JsonValue D) :=
  match lib.strtod n with
  | none => none
  | some number =>
    if isDecimal n.text then
      match n.strtoull with
      | some u => some (.uint u)
      | none => some (.number number)
    else none

/-- `parse_number_value`. A hexadecimal number is refused by `is_decimal`, an infinity and a NaN by
    `json_value_init_number`. Where there is no number, both conversions end where they started. -/
def parseNumberValue (s : Bytes) : Option (JsonValue D × Bytes) :=
  if isHex (unsigned s) || isSpecial (unsigned s) then none
  else
    match scanNumber s with
    | some (n, rest) => (n.value lib).map fun v => (v, rest)
    | none => if lib.einval then none else some (.uint 0, s)

def trueToken : Bytes := ['t'.toUInt8, 'r'.toUInt8, 'u'.toUInt8, 'e'.toUInt8]
def falseToken : Bytes := ['f'.toUInt8, 'a'.toUInt8, 'l'.toUInt8, 's'.toUInt8, 'e'.toUInt8]
def nullToken : Bytes := ['n'.toUInt8, 'u'.toUInt8, 'l'.toUInt8, 'l'.toUInt8]

/-- `strncmp` with a token, and what is behind it. -/
def token (t s : Bytes) : Option Bytes :=
  if s.take t.length = t then some (s.drop t.length) else none

/-- `parse_boolean_value`. -/
def parseBooleanValue (s : Bytes) : Option (JsonValue D × Bytes) :=
  match token trueToken s with
  | some s => some (.boolean true, s)
  | none => (token falseToken s).map fun s => (.boolean false, s)

/-- `parse_null_value`. -/
def parseNullValue (s : Bytes) : Option (JsonValue D × Bytes) :=
  (token nullToken s).map fun s => (.null, s)

/-- `parse_string_value`. -/
def parseStringValue (s : Bytes) : Option (JsonValue D × Bytes) :=
  (getQuotedString s).map fun p => (.string p.1, p.2)

/-- `json_object_getn_value`. -/
def objectGet (name : Bytes) : List (Bytes × JsonValue D) → Option (JsonValue D)
  | [] => none
  | (n, value) :: members => if n = name then some value else objectGet name members

/-- `json_object_add`, which takes a name only once. -/
def objectAdd (members : List (Bytes × JsonValue D)) (name : Bytes) (value : JsonValue D) :
    Option (List (Bytes × JsonValue D)) :=
  match objectGet name members with
  | some _ => none
  | none => some (members ++ [(name, value)])

section

variable (parse : Bytes → Option (JsonValue D × Bytes))

/-- The loop of `parse_object_value`. Each turn takes a byte at least. -/
def parseMembers : ℕ → List (Bytes × JsonValue D) → Bytes →
    Option (List (Bytes × JsonValue D) × Bytes)
  | 0, _, _ => none
  | fuel + 1, members, s =>
    match getQuotedString s with
    | none => none
    | some (name, s) =>
      match skipWhitespaces s with
      | [] => none
      | c :: s =>
        if c ≠ ':'.toUInt8 then none
        else
          match parse s with
          | none => none
          | some (value, s) =>
            match objectAdd members name value with
            | none => none
            | some members =>
              match skipWhitespaces s with
              | [] => none
              | c :: s =>
                if c = ','.toUInt8 then parseMembers fuel members (skipWhitespaces s)
                else if c = '\x7d'.toUInt8 then some (members, s)
                else none

/-- The loop of `parse_array_value`. -/
def parseItems : ℕ → Bytes → Option (List (JsonValue D) × Bytes)
  | 0, _ => none
  | fuel + 1, s =>
    match parse s with
    | none => none
    | some (value, s) =>
      match skipWhitespaces s with
      | [] => none
      | c :: s =>
        if c = ','.toUInt8 then
          (parseItems fuel (skipWhitespaces s)).map fun p => (value :: p.1, p.2)
        else if c = ']'.toUInt8 then some ([value], s)
        else none

/-- `parse_object_value`, behind the brace. -/
def parseObjectValue (s : Bytes) : Option (JsonValue D × Bytes) :=
  match skipWhitespaces s with
  | [] => none
  | c :: s' =>
    if c = '\x7d'.toUInt8 then some (.object [], s')
    else (parseMembers parse (s.length + 1) [] (c :: s')).map fun p => (.object p.1, p.2)

/-- `parse_array_value`, behind the bracket. -/
def parseArrayValue (s : Bytes) : Option (JsonValue D × Bytes) :=
  match skipWhitespaces s with
  | [] => none
  | c :: s' =>
    if c = ']'.toUInt8 then some (.array [], s')
    else (parseItems parse (s.length + 1) (c :: s')).map fun p => (.array p.1, p.2)

end

/-- `MAX_NESTING`. -/
def maxNesting : ℕ := 2048

/-- `parse_value`, by the levels that are left: at `nesting` there are `maxNesting + 1 - nesting`. -/
def parseValue : ℕ → Bytes → Option (JsonValue D × Bytes)
  | 0, _ => none
  | room + 1, s =>
    match skipWhitespaces s with
    | [] => none
    | c :: s =>
      if c = '\x7b'.toUInt8 then parseObjectValue (parseValue room) s
      else if c = '['.toUInt8 then parseArrayValue (parseValue room) s
      else if c = '"'.toUInt8 then parseStringValue (c :: s)
      else if c = 'f'.toUInt8 ∨ c = 't'.toUInt8 then parseBooleanValue (c :: s)
      else if c = '-'.toUInt8 ∨ isDigit c then parseNumberValue lib (c :: s)
      else if c = 'n'.toUInt8 then parseNullValue (c :: s)
      else none

theorem parseValue_nil {room : ℕ} {s : Bytes} (h : skipWhitespaces s = []) :
    parseValue lib (room + 1) s = none := by
  rw [parseValue, h]

/-- The branches of `parse_value`, by the first byte that is no white space. -/
theorem parseValue_cons {room : ℕ} {s r : Bytes} {c : UInt8} (h : skipWhitespaces s = c :: r) :
    parseValue lib (room + 1) s =
      if c = '\x7b'.toUInt8 then parseObjectValue (parseValue lib room) r
      else if c = '['.toUInt8 then parseArrayValue (parseValue lib room) r
      else if c = '"'.toUInt8 then parseStringValue (c :: r)
      else if c = 'f'.toUInt8 ∨ c = 't'.toUInt8 then parseBooleanValue (c :: r)
      else if c = '-'.toUInt8 ∨ isDigit c then parseNumberValue lib (c :: r)
      else if c = 'n'.toUInt8 then parseNullValue (c :: r)
      else none := by
  rw [parseValue, h]

/-- What is behind a byte order mark. -/
def skipBom (s : Bytes) : Bytes := (token [0xEF, 0xBB, 0xBF] s).getD s

/-- `json_parse_string`. What is behind the value is not looked at. -/
def parseString (text : Bytes) : Option (JsonValue D) :=
  (parseValue lib (maxNesting + 1) (skipBom (cString text))).map Prod.fst

-- ════════════════════════════════════════════════════════════════════════
-- The serializer
-- ════════════════════════════════════════════════════════════════════════

/-- `append_indent`. -/
def indent (level : ℕ) : Bytes := List.replicate (4 * level) 0x20

section

variable (pretty : Bool)

/-- What the pretty variant writes in addition. -/
def extra (s : Bytes) : Bytes := if pretty then s else []

mutual

/-- `json_serialize_to_buffer_r`. -/
def serialize : JsonValue D → ℕ → Bytes
  | .null, _ => nullToken
  | .boolean b, _ => if b then trueToken else falseToken
  | .number x, _ => (lib.print x).text
  | .uint u, _ => printUint u.toNat
  | .string s, _ => jsonSerializeString s
  | .array items, level =>
    '['.toUInt8 :: (extra (pretty && !items.isEmpty) [0x0a] ++ serializeItems items level ++
      extra (pretty && !items.isEmpty) (indent level) ++ [']'.toUInt8])
  | .object members, level =>
    '\x7b'.toUInt8 :: (extra (pretty && !members.isEmpty) [0x0a] ++
      serializeMembers members level ++
      extra (pretty && !members.isEmpty) (indent level) ++ ['\x7d'.toUInt8])

/-- The loop over the items of an array. -/
def serializeItems : List (JsonValue D) → ℕ → Bytes
  | [], _ => []
  | value :: items, level =>
    extra pretty (indent (level + 1)) ++ serialize value (level + 1) ++
      (if items.isEmpty then [] else [','.toUInt8]) ++ extra pretty [0x0a] ++
      serializeItems items level

/-- The loop over the members of an object. A value is looked up by its name, which no member in
    front of it has. -/
def serializeMembers : List (Bytes × JsonValue D) → ℕ → Bytes
  | [], _ => []
  | (name, value) :: members, level =>
    extra pretty (indent (level + 1)) ++ jsonSerializeString name ++
      ':'.toUInt8 :: extra pretty [0x20] ++ serialize value (level + 1) ++
      (if members.isEmpty then [] else [','.toUInt8]) ++ extra pretty [0x0a] ++
      serializeMembers members level

end

end

end DeviceSdk.Parson
