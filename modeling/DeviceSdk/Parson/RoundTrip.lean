import DeviceSdk.Parson.Accepts
import DeviceSdk.Parson.Binary64

/-!
# Writing a document and reading it again

What `json_serialize_to_string` writes of a value, compact or pretty, is a text of the value, but for
the numbers: a double that is written without a point and an exponent is read as a 64-bit number. A
negative one comes back as a number from 2 ^ 63 on.

## Main definitions

- `JsonValue.reread` — a value as it comes back
- `JsonValue.Clean` — no string has a null character
- `JsonValue.InRange` — every double is read where it was written
- `JsonValue.Fractional` — no double is written as a whole number

## Main results

- `textOf_serialize` — what is written is a text of the value that comes back
- `parseString_serialize` — the round trip
- `parseString_reparse` — what was read once
-/

namespace DeviceSdk.Parson

variable {D : Type} (lib : DoubleText D)

namespace JsonValue

mutual

/-- The value that is read where this one was written. -/
def reread : JsonValue D → JsonValue D
  | .null => .null
  | .boolean b => .boolean b
  | .number x =>
    match (lib.print x).strtoull with
    | some u => .uint u
    | none => .number x
  | .uint u => .uint u
  | .string s => .string s
  | .array items => .array (rereadItems items)
  | .object members => .object (rereadMembers members)

def rereadItems : List (JsonValue D) → List (JsonValue D)
  | [] => []
  | x :: xs => reread x :: rereadItems xs

def rereadMembers : List (Bytes × JsonValue D) → List (Bytes × JsonValue D)
  | [] => []
  | (name, x) :: ms => (name, reread x) :: rereadMembers ms

end

mutual

/-- The strings and names of a value are those of C: without null characters. -/
def Clean : JsonValue D → Prop
  | .string s => 0 ∉ s
  | .array items => CleanItems items
  | .object members => CleanMembers members
  | .null => True
  | .boolean _ => True
  | .number _ => True
  | .uint _ => True

def CleanItems : List (JsonValue D) → Prop
  | [] => True
  | x :: xs => Clean x ∧ CleanItems xs

def CleanMembers : List (Bytes × JsonValue D) → Prop
  | [] => True
  | (name, x) :: ms => 0 ∉ name ∧ Clean x ∧ CleanMembers ms

end

mutual

/-- Every double of a value is read where it was written. A very small one may be reported as out of
    range. -/
def InRange : JsonValue D → Prop
  | .number x => (lib.strtod (lib.print x)).isSome
  | .array items => InRangeItems items
  | .object members => InRangeMembers members
  | .null => True
  | .boolean _ => True
  | .uint _ => True
  | .string _ => True

def InRangeItems : List (JsonValue D) → Prop
  | [] => True
  | x :: xs => InRange x ∧ InRangeItems xs

def InRangeMembers : List (Bytes × JsonValue D) → Prop
  | [] => True
  | (_, x) :: ms => InRange x ∧ InRangeMembers ms

end

mutual

/-- No double of a value is written as a whole number. -/
def Fractional : JsonValue D → Prop
  | .number x => (lib.print x).strtoull = none
  | .array items => FractionalItems items
  | .object members => FractionalMembers members
  | .null => True
  | .boolean _ => True
  | .uint _ => True
  | .string _ => True

def FractionalItems : List (JsonValue D) → Prop
  | [] => True
  | x :: xs => Fractional x ∧ FractionalItems xs

def FractionalMembers : List (Bytes × JsonValue D) → Prop
  | [] => True
  | (_, x) :: ms => Fractional x ∧ FractionalMembers ms

end

mutual

theorem reread_eq_self_iff : (v : JsonValue D) → (v.reread lib = v ↔ v.Fractional lib)
  | .null => by simp [reread, Fractional]
  | .boolean b => by simp [reread, Fractional]
  | .number x => by
    rw [reread, Fractional]
    cases (lib.print x).strtoull <;> simp
  | .uint u => by simp [reread, Fractional]
  | .string s => by simp [reread, Fractional]
  | .array items => by
    rw [reread, Fractional, ← rereadItems_eq_self_iff items]
    exact ⟨fun h => JsonValue.array.inj h, fun h => congrArg _ h⟩
  | .object members => by
    rw [reread, Fractional, ← rereadMembers_eq_self_iff members]
    exact ⟨fun h => JsonValue.object.inj h, fun h => congrArg _ h⟩

theorem rereadItems_eq_self_iff : (items : List (JsonValue D)) →
    (rereadItems lib items = items ↔ FractionalItems lib items)
  | [] => by simp [rereadItems, FractionalItems]
  | x :: xs => by
    rw [rereadItems, FractionalItems, List.cons.injEq, reread_eq_self_iff x,
      rereadItems_eq_self_iff xs]

theorem rereadMembers_eq_self_iff : (members : List (Bytes × JsonValue D)) →
    (rereadMembers lib members = members ↔ FractionalMembers lib members)
  | [] => by simp [rereadMembers, FractionalMembers]
  | (name, x) :: ms => by
    rw [rereadMembers, FractionalMembers, List.cons.injEq, Prod.mk.injEq, reread_eq_self_iff x,
      rereadMembers_eq_self_iff ms]
    exact ⟨fun h => ⟨h.1.2, h.2⟩, fun h => ⟨⟨rfl, h.1⟩, h.2⟩⟩

end

mutual

theorem reread_fractional : (v : JsonValue D) → (v.reread lib).Fractional lib
  | .null => trivial
  | .boolean _ => trivial
  | .number x => by
    rw [reread]
    cases h : (lib.print x).strtoull with
    | some u => trivial
    | none => exact h
  | .uint _ => trivial
  | .string _ => trivial
  | .array items => rereadItems_fractional items
  | .object members => rereadMembers_fractional members

theorem rereadItems_fractional : (items : List (JsonValue D)) →
    FractionalItems lib (rereadItems lib items)
  | [] => trivial
  | x :: xs => ⟨reread_fractional x, rereadItems_fractional xs⟩

theorem rereadMembers_fractional : (members : List (Bytes × JsonValue D)) →
    FractionalMembers lib (rereadMembers lib members)
  | [] => trivial
  | (_, x) :: ms => ⟨reread_fractional x, rereadMembers_fractional ms⟩

end

mutual

theorem reread_inRange : (v : JsonValue D) → v.InRange lib → (v.reread lib).InRange lib
  | .null, _ => trivial
  | .boolean _, _ => trivial
  | .number x, h => by
    rw [reread]
    cases (lib.print x).strtoull with
    | some u => trivial
    | none => exact h
  | .uint _, _ => trivial
  | .string _, _ => trivial
  | .array items, h => rereadItems_inRange items h
  | .object members, h => rereadMembers_inRange members h

theorem rereadItems_inRange : (items : List (JsonValue D)) → InRangeItems lib items →
    InRangeItems lib (rereadItems lib items)
  | [], _ => trivial
  | x :: xs, h => ⟨reread_inRange x h.1, rereadItems_inRange xs h.2⟩

theorem rereadMembers_inRange : (members : List (Bytes × JsonValue D)) →
    InRangeMembers lib members → InRangeMembers lib (rereadMembers lib members)
  | [], _ => trivial
  | (_, x) :: ms, h => ⟨reread_inRange x h.1, rereadMembers_inRange ms h.2⟩

end

mutual

theorem depth_reread : (v : JsonValue D) → (v.reread lib).depth = v.depth
  | .null => rfl
  | .boolean _ => rfl
  | .number x => by
    rw [reread]
    cases (lib.print x).strtoull <;> rfl
  | .uint _ => rfl
  | .string _ => rfl
  | .array items => congrArg (· + 1) (depth_rereadItems items)
  | .object members => congrArg (· + 1) (depth_rereadMembers members)

theorem depth_rereadItems : (items : List (JsonValue D)) →
    depthItems (rereadItems lib items) = depthItems items
  | [] => rfl
  | x :: xs => congrArg₂ max (depth_reread x) (depth_rereadItems xs)

theorem depth_rereadMembers : (members : List (Bytes × JsonValue D)) →
    depthMembers (rereadMembers lib members) = depthMembers members
  | [] => rfl
  | (_, x) :: ms => congrArg₂ max (depth_reread x) (depth_rereadMembers ms)

end

theorem map_fst_rereadMembers (members : List (Bytes × JsonValue D)) :
    (rereadMembers lib members).map Prod.fst = members.map Prod.fst := by
  induction members with
  | nil => rfl
  | cons m ms ih =>
    rw [rereadMembers, List.map_cons, List.map_cons, ih]

mutual

theorem distinct_reread : (v : JsonValue D) → ((v.reread lib).Distinct ↔ v.Distinct)
  | .null => Iff.rfl
  | .boolean _ => Iff.rfl
  | .number x => by
    rw [reread]
    cases (lib.print x).strtoull <;> exact Iff.rfl
  | .uint _ => Iff.rfl
  | .string _ => Iff.rfl
  | .array items => distinct_rereadItems items
  | .object members => by
    rw [reread, Distinct, Distinct, map_fst_rereadMembers, distinct_rereadMembers members]

theorem distinct_rereadItems : (items : List (JsonValue D)) →
    (DistinctItems (rereadItems lib items) ↔ DistinctItems items)
  | [] => Iff.rfl
  | x :: xs => and_congr (distinct_reread x) (distinct_rereadItems xs)

theorem distinct_rereadMembers : (members : List (Bytes × JsonValue D)) →
    (DistinctMembers (rereadMembers lib members) ↔ DistinctMembers members)
  | [] => Iff.rfl
  | (_, x) :: ms => and_congr (distinct_reread x) (distinct_rereadMembers ms)

end

end JsonValue

-- ════════════════════════════════════════════════════════════════════════
-- What is written
-- ════════════════════════════════════════════════════════════════════════

theorem cString_of_clean {s : Bytes} (h : 0 ∉ s) : cString s = s :=
  List.takeWhile_eq_self_iff.mpr fun _ hb => decide_eq_true fun h0 => h (h0 ▸ hb)

theorem spaces_extra {pretty : Bool} {s : Bytes} (h : Spaces s) : Spaces (extra pretty s) := by
  cases pretty with
  | true => exact h
  | false => exact spaces_nil

theorem spaces_indent (level : ℕ) : Spaces (indent level) := by
  intro b hb
  rw [List.eq_of_mem_replicate hb]
  decide

theorem spaces_newline : Spaces [0x0a] := by
  intro b hb
  rw [List.mem_singleton.mp hb]
  decide

theorem spaces_blank : Spaces [0x20] := by
  intro b hb
  rw [List.mem_singleton.mp hb]
  decide

theorem quotedText_serialize {s : Bytes} (h : 0 ∉ s) : QuotedText s (jsonSerializeString s) :=
  ⟨s.flatMap escapeByte, s, rfl, stringText_serialize s, (cString_of_clean h).symm⟩

/-- White space behind the last item. -/
theorem ItemsText.append_spaces {items : List (JsonValue D)} {ws t : Bytes} (hws : Spaces ws)
    (h : ItemsText lib items t) : ItemsText lib items (t ++ ws) := by
  induction items generalizing t with
  | nil => exact List.forall_mem_append.mpr ⟨h, hws⟩
  | cons x xs ih =>
    obtain ⟨a, u, b, r, rfl, ha, hu, hb, ⟨rfl, rfl⟩ | ⟨hxs, r', rfl, hr'⟩⟩ := h
    · exact ⟨a, u, b ++ ws, [], by simp, ha, hu, List.forall_mem_append.mpr ⟨hb, hws⟩,
        .inl ⟨rfl, rfl⟩⟩
    · exact ⟨a, u, b, ','.toUInt8 :: (r' ++ ws), by simp, ha, hu, hb, .inr ⟨hxs, _, rfl, ih hr'⟩⟩

theorem MembersText.append_spaces {members : List (Bytes × JsonValue D)} {ws t : Bytes}
    (hws : Spaces ws) (h : MembersText lib members t) : MembersText lib members (t ++ ws) := by
  induction members generalizing t with
  | nil => exact List.forall_mem_append.mpr ⟨h, hws⟩
  | cons m ms ih =>
    obtain ⟨a, q, b, c, u, d, r, rfl, ha, hq, hb, hc, hu, hd, ⟨rfl, rfl⟩ | ⟨hms, r', rfl, hr'⟩⟩ := h
    · exact ⟨a, q, b, c, u, d ++ ws, [], by simp, ha, hq, hb, hc, hu,
        List.forall_mem_append.mpr ⟨hd, hws⟩, .inl ⟨rfl, rfl⟩⟩
    · exact ⟨a, q, b, c, u, d, ','.toUInt8 :: (r' ++ ws), by simp, ha, hq, hb, hc, hu, hd,
        .inr ⟨hms, _, rfl, ih hr'⟩⟩

theorem numberText_print {x : D} (h : (lib.strtod (lib.print x)).isSome) :
    NumberText lib ((JsonValue.number x).reread lib) (lib.print x).text := by
  obtain ⟨y, hy⟩ := Option.isSome_iff_exists.mp h
  obtain rfl := lib.strtod_print x y hy
  refine ⟨lib.print y, rfl, ?_, .inr (lib.print_int y)⟩
  rw [Numeral.value, hy, JsonValue.reread]
  simp only
  rw [if_pos (lib.isDecimal_print y)]
  cases (lib.print y).strtoull <;> rfl

theorem numberText_uint (u : BitVec 64) :
    NumberText lib (JsonValue.uint u) (printUint u.toNat) := by
  have hsome := lib.strtod_uint (uintNumeral u.toNat) (by rw [uintNumeral_strtoull]; rfl)
  obtain ⟨x, hx⟩ := Option.isSome_iff_exists.mp hsome
  refine ⟨uintNumeral u.toNat, (uintNumeral_text _).symm, ?_, .inr (printUint_ne_nil _)⟩
  rw [Numeral.value, hx]
  simp only
  rw [uintNumeral_text, if_pos (isDecimal_printUint _), uintNumeral_strtoull]

section

variable (pretty : Bool)

mutual

/-- What is written of a value is a text of the value that is read. -/
theorem textOf_serialize : (v : JsonValue D) → (level : ℕ) → v.Clean → v.InRange lib →
    TextOf lib (v.reread lib) (serialize lib pretty v level)
  | .null, _, _, _ => rfl
  | .boolean _, _, _, _ => rfl
  | .number x, _, _, hrange => by
    have h := numberText_print lib hrange
    rw [JsonValue.reread] at h ⊢
    rw [serialize]
    cases hs : (lib.print x).strtoull with
    | some u => rw [hs] at h; exact h
    | none => rw [hs] at h; exact h
  | .uint u, _, _, _ => numberText_uint lib u
  | .string s, _, h, _ => quotedText_serialize h
  | .array items, level, h, hrange => by
    refine ⟨extra (pretty && !items.isEmpty) [0x0a] ++ (serializeItems lib pretty items level ++
      extra (pretty && !items.isEmpty) (indent level)), by simp [serialize], ?_⟩
    exact ItemsText.spaces_append lib (spaces_extra spaces_newline)
      (ItemsText.append_spaces lib (spaces_extra (spaces_indent level))
        (itemsText_serialize items level h hrange))
  | .object members, level, h, hrange => by
    refine ⟨extra (pretty && !members.isEmpty) [0x0a] ++
      (serializeMembers lib pretty members level ++
        extra (pretty && !members.isEmpty) (indent level)), by simp [serialize], ?_⟩
    exact MembersText.spaces_append lib (spaces_extra spaces_newline)
      (MembersText.append_spaces lib (spaces_extra (spaces_indent level))
        (membersText_serialize members level h hrange))

theorem itemsText_serialize : (items : List (JsonValue D)) → (level : ℕ) →
    JsonValue.CleanItems items → JsonValue.InRangeItems lib items →
    ItemsText lib (JsonValue.rereadItems lib items) (serializeItems lib pretty items level)
  | [], _, _, _ => spaces_nil
  | x :: [], level, h, hrange =>
    ⟨extra pretty (indent (level + 1)), serialize lib pretty x (level + 1), extra pretty [0x0a], [],
      by simp [serializeItems], spaces_extra (spaces_indent _),
      textOf_serialize x _ h.1 hrange.1, spaces_extra spaces_newline, .inl ⟨rfl, rfl⟩⟩
  | x :: y :: ys, level, h, hrange =>
    ⟨extra pretty (indent (level + 1)), serialize lib pretty x (level + 1), [],
      ','.toUInt8 :: (extra pretty [0x0a] ++ serializeItems lib pretty (y :: ys) level),
      by simp [serializeItems], spaces_extra (spaces_indent _),
      textOf_serialize x _ h.1 hrange.1, spaces_nil, .inr ⟨List.cons_ne_nil _ _, _, rfl,
        ItemsText.spaces_append lib (spaces_extra spaces_newline)
          (itemsText_serialize (y :: ys) level h.2 hrange.2)⟩⟩

theorem membersText_serialize : (members : List (Bytes × JsonValue D)) → (level : ℕ) →
    JsonValue.CleanMembers members → JsonValue.InRangeMembers lib members →
    MembersText lib (JsonValue.rereadMembers lib members)
      (serializeMembers lib pretty members level)
  | [], _, _, _ => spaces_nil
  | (name, x) :: [], level, h, hrange =>
    ⟨extra pretty (indent (level + 1)), jsonSerializeString name, [], extra pretty [0x20],
      serialize lib pretty x (level + 1), extra pretty [0x0a], [], by simp [serializeMembers],
      spaces_extra (spaces_indent _), quotedText_serialize h.1, spaces_nil,
      spaces_extra spaces_blank, textOf_serialize x _ h.2.1 hrange.1, spaces_extra spaces_newline,
      .inl ⟨rfl, rfl⟩⟩
  | (name, x) :: m :: ms, level, h, hrange =>
    ⟨extra pretty (indent (level + 1)), jsonSerializeString name, [], extra pretty [0x20],
      serialize lib pretty x (level + 1), [],
      ','.toUInt8 :: (extra pretty [0x0a] ++ serializeMembers lib pretty (m :: ms) level),
      by simp [serializeMembers], spaces_extra (spaces_indent _), quotedText_serialize h.1,
      spaces_nil, spaces_extra spaces_blank, textOf_serialize x _ h.2.1 hrange.1, spaces_nil,
      .inr ⟨List.cons_ne_nil _ _, _, rfl,
        MembersText.spaces_append lib (spaces_extra spaces_newline)
          (membersText_serialize (m :: ms) level h.2.2 hrange.2)⟩⟩

end

end

-- ════════════════════════════════════════════════════════════════════════
-- Null characters
-- ════════════════════════════════════════════════════════════════════════

theorem Spaces.no_null {ws : Bytes} (h : Spaces ws) : 0 ∉ ws := fun h0 =>
  absurd (h 0 h0) (by decide)

theorem Hex4.no_null {t : Bytes} {n : ℕ} (h : Hex4 t n) : 0 ∉ t := by
  have hne {b : UInt8} {x : ℕ} (hb : hexCharToInt b = some x) : 0 ≠ b := by
    rintro rfl
    cases hb
  cases h with
  | mk h1 h2 h3 h4 =>
    simp only [List.mem_cons, List.not_mem_nil, or_false, not_or]
    exact ⟨hne h1, hne h2, hne h3, hne h4⟩

theorem Piece.no_null {p out : Bytes} (h : Piece p out) : 0 ∉ p := by
  have hslash : (0 : UInt8) ≠ '\\'.toUInt8 := by decide
  have hu : (0 : UInt8) ≠ 'u'.toUInt8 := by decide
  cases h with
  | plain hctl hquote hslash =>
    rw [List.mem_singleton]
    rintro rfl
    exact absurd hctl (by decide)
  | escape hb =>
    simp only [List.mem_cons, List.not_mem_nil, or_false, not_or]
    refine ⟨hslash, ?_⟩
    rintro rfl
    cases hb
  | unicode ht =>
    simp only [List.mem_cons, not_or]
    exact ⟨hslash, hu, ht.no_null⟩
  | pair ht hu' hlead htrail hc =>
    simp only [List.mem_cons, List.mem_append, not_or]
    exact ⟨hslash, hu, ht.no_null, hslash, hu, hu'.no_null⟩

theorem StringText.no_null {s out : Bytes} (h : StringText s out) : 0 ∉ s := by
  induction h with
  | nil => exact List.not_mem_nil
  | cons hp hs ih => exact fun h0 => (List.mem_append.mp h0).elim hp.no_null ih

theorem QuotedText.no_null {s t : Bytes} (h : QuotedText s t) : 0 ∉ t ∧ 0 ∉ s := by
  obtain ⟨content, out, rfl, htext, rfl⟩ := h
  have hquote : (0 : UInt8) ≠ '"'.toUInt8 := by decide
  refine ⟨?_, fun h0 => ?_⟩
  · simp only [List.mem_cons, List.mem_append, List.not_mem_nil, or_false, not_or]
    exact ⟨hquote, htext.no_null, hquote⟩
  · have hne := List.mem_takeWhile_imp h0
    simp at hne

theorem NumberText.no_null {v : JsonValue D} {t : Bytes} (h : NumberText lib v t) : 0 ∉ t := by
  obtain ⟨n, rfl, -⟩ := h
  have hbody : 0 ∉ n.body := fun h0 => absurd (n.body_numeralByte 0 h0) (by
    rw [NumeralByte]
    decide)
  rw [Numeral.text]
  intro h0
  refine (List.mem_append.mp h0).elim (fun hs => ?_) hbody
  split_ifs at hs
  · exact absurd hs (by decide)
  · cases hs

mutual

/-- Neither a text of a value nor the strings of the value have null characters. -/
theorem TextOf.no_null : (v : JsonValue D) → {t : Bytes} → TextOf lib v t → 0 ∉ t ∧ v.Clean
  | .null, _, h => by
    rw [TextOf] at h
    rw [h]
    exact ⟨by decide, trivial⟩
  | .boolean b, _, h => by
    rw [TextOf] at h
    rw [h]
    exact ⟨by cases b <;> decide, trivial⟩
  | .number _, _, h => ⟨NumberText.no_null lib h, trivial⟩
  | .uint _, _, h => ⟨NumberText.no_null lib h, trivial⟩
  | .string _, _, h => QuotedText.no_null h
  | .array items, _, ⟨body, heq, hitems⟩ => by
    obtain ⟨hbody, hclean⟩ := ItemsText.no_null items hitems
    have hbrackets : (0 : UInt8) ≠ '['.toUInt8 ∧ (0 : UInt8) ≠ ']'.toUInt8 := by decide
    refine ⟨?_, hclean⟩
    rw [heq]
    simp only [List.mem_cons, List.mem_append, List.not_mem_nil, or_false, not_or]
    exact ⟨hbrackets.1, hbody, hbrackets.2⟩
  | .object members, _, ⟨body, heq, hmembers⟩ => by
    obtain ⟨hbody, hclean⟩ := MembersText.no_null members hmembers
    have hbraces : (0 : UInt8) ≠ '\x7b'.toUInt8 ∧ (0 : UInt8) ≠ '\x7d'.toUInt8 := by decide
    refine ⟨?_, hclean⟩
    rw [heq]
    simp only [List.mem_cons, List.mem_append, List.not_mem_nil, or_false, not_or]
    exact ⟨hbraces.1, hbody, hbraces.2⟩

theorem ItemsText.no_null : (items : List (JsonValue D)) → {t : Bytes} → ItemsText lib items t →
    0 ∉ t ∧ JsonValue.CleanItems items
  | [], _, h => ⟨Spaces.no_null h, trivial⟩
  | x :: xs, _, ⟨a, u, b, r, heq, ha, hu, hb, hr⟩ => by
    obtain ⟨hu0, hclean⟩ := TextOf.no_null x hu
    have hcomma : (0 : UInt8) ≠ ','.toUInt8 := by decide
    rw [heq]
    simp only [List.mem_append, not_or]
    obtain ⟨hxs, rfl⟩ | ⟨-, r', rfl, hr'⟩ := hr
    · rw [hxs]
      exact ⟨⟨ha.no_null, hu0, hb.no_null, List.not_mem_nil⟩, hclean, trivial⟩
    · obtain ⟨hr0, hcleans⟩ := ItemsText.no_null xs hr'
      refine ⟨⟨ha.no_null, hu0, hb.no_null, ?_⟩, hclean, hcleans⟩
      exact fun h0 => (List.mem_cons.mp h0).elim hcomma hr0

theorem MembersText.no_null : (members : List (Bytes × JsonValue D)) → {t : Bytes} →
    MembersText lib members t → 0 ∉ t ∧ JsonValue.CleanMembers members
  | [], _, h => ⟨Spaces.no_null h, trivial⟩
  | (name, x) :: ms, _, ⟨a, q, b, c, u, d, r, heq, ha, hq, hb, hc, hu, hd, hr⟩ => by
    obtain ⟨hu0, hclean⟩ := TextOf.no_null x hu
    obtain ⟨hq0, hname⟩ := hq.no_null
    have hcolon : (0 : UInt8) ≠ ':'.toUInt8 := by decide
    have hcomma : (0 : UInt8) ≠ ','.toUInt8 := by decide
    rw [heq]
    simp only [List.mem_append, List.mem_cons, not_or]
    obtain ⟨hms, rfl⟩ | ⟨-, r', rfl, hr'⟩ := hr
    · rw [hms]
      exact ⟨⟨ha.no_null, hq0, hb.no_null, hcolon, hc.no_null, hu0, hd.no_null, List.not_mem_nil⟩,
        hname, hclean, trivial⟩
    · obtain ⟨hr0, hcleans⟩ := MembersText.no_null ms hr'
      refine ⟨⟨ha.no_null, hq0, hb.no_null, hcolon, hc.no_null, hu0, hd.no_null, ?_⟩, hname, hclean,
        hcleans⟩
      exact fun h0 => (List.mem_cons.mp h0).elim hcomma hr0

end

-- ════════════════════════════════════════════════════════════════════════
-- The round trip
-- ════════════════════════════════════════════════════════════════════════

theorem skipBom_of_kind {v : JsonValue D} {c : UInt8} {r : Bytes} (h : Kind v c) :
    skipBom (c :: r) = c :: r := by
  have hne : c ≠ 0xEF := by
    have hdigit : isDigit 0xEF = false := by decide
    cases h with
    | null => decide
    | boolean b => cases b <;> decide
    | number h =>
      rcases h with rfl | h
      · decide
      · exact isDigit_ne h hdigit
    | uint h =>
      rcases h with rfl | h
      · decide
      · exact isDigit_ne h hdigit
    | string => decide
    | array => decide
    | object => decide
  have hnone : token [0xEF, 0xBB, 0xBF] (c :: r) = none := by
    rw [token, if_neg]
    intro heq
    exact hne (List.cons.inj heq).1
  rw [skipBom, hnone]
  rfl

theorem follows_nil (t : Bytes) : Follows t [] := follows_of_delimiter fun _ h => by cases h

/-- More levels to go change nothing about what is read. -/
theorem parseValue_mono {room room' : ℕ} (hroom : room ≤ room') {s : Bytes}
    {p : JsonValue D × Bytes} (h : parseValue lib room s = some p) :
    parseValue lib room' s = some p := by
  obtain ⟨v, rest⟩ := p
  rw [parseValue_iff] at h ⊢
  rcases h with ⟨ws, t, hs, hws, htext, hdistinct, hdepth, hfollows⟩ |
    ⟨heinval, hv, hpos, hrest⟩
  · exact .inl ⟨ws, t, hs, hws, htext, hdistinct, hdepth.trans hroom, hfollows⟩
  · exact .inr ⟨heinval, hv, Nat.lt_of_lt_of_le hpos hroom, hrest⟩

/-- A text of a value has no null and no byte order mark. -/
theorem TextOf.skipBom_cString {v : JsonValue D} {t : Bytes} (ht : TextOf lib v t) :
    skipBom (cString t) = t := by
  rw [cString_of_clean (TextOf.no_null lib v ht).1]
  obtain ⟨c, r, rfl, hc⟩ := TextOf.kind lib ht
  exact skipBom_of_kind hc

/-- A text of a value is read as the value, up to `MAX_NESTING`, and beyond not at all. -/
theorem parseString_text {v : JsonValue D} {t : Bytes} (ht : TextOf lib v t)
    (hdistinct : v.Distinct) :
    parseString lib t = if v.depth ≤ maxNesting + 1 then some v else none := by
  have hfull (room : ℕ) (hroom : v.depth ≤ room) : parseValue lib room t = some (v, []) := by
    have hreads := Reads.of_text ht hdistinct hroom (follows_nil t)
    rw [List.append_nil] at hreads
    exact parseValue_complete lib hreads
  rw [parseString, TextOf.skipBom_cString lib ht]
  split_ifs with hdepth
  · rw [hfull _ hdepth]
    rfl
  · -- what would be read is the value, which is too deep
    cases hp : parseValue lib (maxNesting + 1) t with
    | none => rfl
    | some p =>
      have hmono := parseValue_mono lib (Nat.le_of_not_le hdepth) hp
      rw [hfull v.depth le_rfl] at hmono
      obtain rfl := Option.some.inj hmono
      rcases parseValue_sound lib hp with ⟨-, -, -, -, -, -, hle, -⟩ | ⟨-, rfl, -⟩
      · exact absurd hle hdepth
      · exact absurd (show 1 ≤ maxNesting + 1 by decide) hdepth

/-- An object is read, unless two of its members have one name. -/
theorem parseString_object {members : List (Bytes × JsonValue D)} {t : Bytes}
    (ht : TextOf lib (.object members) t) (hdistinct : JsonValue.DistinctMembers members)
    (hdepth : (JsonValue.object members).depth ≤ maxNesting + 1) :
    parseString lib t =
      if (members.map Prod.fst).Nodup then some (.object members) else none := by
  split_ifs with hnodup
  · rw [parseString_text lib ht ⟨hnodup, hdistinct⟩, if_pos hdepth]
  · have hnone : parseValue lib (maxNesting + 1) (t ++ []) = none :=
      parseValue_duplicate lib ht hdistinct hdepth hnodup
    rw [List.append_nil] at hnone
    rw [parseString, TextOf.skipBom_cString lib ht, hnone, Option.map_none]

/-- What a document is read as has every name once, clean strings and few levels. -/
theorem parseString_shape {text : Bytes} {v : JsonValue D} (h : parseString lib text = some v) :
    v.Clean ∧ v.Distinct ∧ v.depth ≤ maxNesting + 1 := by
  obtain ⟨⟨w, rest⟩, hp, rfl⟩ := Option.map_eq_some_iff.mp h
  rcases parseValue_sound lib hp with ⟨ws, t, -, -, htext, hdistinct, hdepth, -⟩ | ⟨-, rfl, -⟩
  · exact ⟨(TextOf.no_null lib w htext).2, hdistinct, hdepth⟩
  · exact ⟨trivial, trivial, show 1 ≤ maxNesting + 1 by decide⟩

theorem serialize_text (pretty : Bool) {v : JsonValue D} (hclean : v.Clean)
    (hdistinct : v.Distinct) (hrange : v.InRange lib) :
    parseString lib (serialize lib pretty v 0) =
      if v.depth ≤ maxNesting + 1 then some (v.reread lib) else none := by
  have hread := parseString_text lib (textOf_serialize lib pretty v 0 hclean hrange)
    ((JsonValue.distinct_reread lib v).mpr hdistinct)
  rwa [JsonValue.depth_reread] at hread

/-- `json_parse_string` reads a value where a document starts with a text of it, or with a minus
    sign that has no number. -/
theorem parseString_iff (text : Bytes) (v : JsonValue D) : parseString lib text = some v ↔
    ∃ rest, Reads lib (maxNesting + 1) (skipBom (cString text)) v rest ∨
      ReadsSign lib (maxNesting + 1) (skipBom (cString text)) v rest := by
  rw [parseString, Option.map_eq_some_iff]
  constructor
  · rintro ⟨⟨w, rest⟩, hp, rfl⟩
    exact ⟨rest, (parseValue_iff lib).mp hp⟩
  · rintro ⟨rest, h⟩
    exact ⟨(v, rest), (parseValue_iff lib).mpr h, rfl⟩

/-- What is written of a value is read as the value, but for the numbers that are written as whole
    ones; a value that is nested too deep is not read. -/
theorem parseString_serialize (pretty : Bool) (v : JsonValue D) (hclean : v.Clean)
    (hdistinct : v.Distinct) (hrange : v.InRange lib) :
    parseString lib (serialize lib pretty v 0) =
        (if v.depth ≤ maxNesting + 1 then some (v.reread lib) else none) ∧
      (parseString lib (serialize lib pretty v 0) = some v ↔
        v.depth ≤ maxNesting + 1 ∧ v.Fractional lib) := by
  rw [serialize_text lib pretty hclean hdistinct hrange, ← JsonValue.reread_eq_self_iff]
  refine ⟨rfl, ?_⟩
  split_ifs with hdepth
  · simp [hdepth]
  · simp [hdepth]

/-- The C library, where it reports all that is too small. -/
def sampleLib : DoubleText Binary64 := binary64 false fun _ => true

def oneAndAHalf : Binary64 := .ofDigits false 3 (-1) (by decide) (by decide)

def minusOne : Binary64 := .ofDigits true 1 0 (by decide) (by decide)

/-- `{"a": [1.5, -1, true, "\n"]}`, with the two numbers as doubles. -/
def sampleValue : JsonValue Binary64 :=
  .object [(['a'.toUInt8],
    .array [.number oneAndAHalf, .number minusOne, .boolean true, .string [0x0a]])]

theorem sampleValue_inRange : sampleValue.InRange sampleLib := by
  have hsmall : minNormal < 1 := zpow_lt_one_of_neg₀ (by norm_num) (by norm_num)
  refine ⟨⟨inRange_of_minNormal_lt _ _ (hsmall.trans ?_),
    inRange_of_minNormal_lt _ _ (hsmall.trans_le ?_), trivial, trivial, trivial⟩, trivial⟩
  · norm_num [oneAndAHalf, Binary64.ofDigits]
  · norm_num [minusOne, Binary64.ofDigits]

theorem sampleValue_clean : sampleValue.Clean :=
  ⟨by decide, ⟨trivial, trivial, trivial, show (0 : UInt8) ∉ [0x0a] by decide, trivial⟩, trivial⟩

theorem sampleValue_distinct : sampleValue.Distinct :=
  ⟨by decide, ⟨trivial, trivial, trivial, trivial, trivial⟩, trivial⟩

theorem parseString_serialize_sample :
    parseString sampleLib (serialize sampleLib true sampleValue 0) =
        some (sampleValue.reread sampleLib) ∧
      parseString sampleLib (serialize sampleLib true sampleValue 0) ≠ some sampleValue := by
  obtain ⟨hread, hiff⟩ := parseString_serialize sampleLib true sampleValue sampleValue_clean
    sampleValue_distinct sampleValue_inRange
  rw [if_pos (by decide)] at hread
  refine ⟨hread, fun h => ?_⟩
  -- the second number is written as a whole number
  have hwhole : (printDouble minusOne.neg minusOne.mag).strtoull.isSome :=
    (strtoull_printDouble_iff minusOne).mpr ⟨1, by decide, by norm_num [minusOne, Binary64.ofDigits]⟩
  have hint : (printDouble minusOne.neg minusOne.mag).strtoull = none := (hiff.mp h).2.1.2.1
  rw [hint] at hwhole
  cases hwhole

/-- What was read of a document is written and read again, and from then on it stays as it is. -/
theorem parseString_reparse (pretty pretty' : Bool) {text : Bytes} {v : JsonValue D}
    (hread : parseString lib text = some v) (hrange : v.InRange lib) :
    parseString lib (serialize lib pretty v 0) = some (v.reread lib) ∧
      parseString lib (serialize lib pretty' (v.reread lib) 0) = some (v.reread lib) := by
  obtain ⟨hclean, hdistinct, hdepth⟩ := parseString_shape lib hread
  have hagain := serialize_text lib pretty hclean hdistinct hrange
  rw [if_pos hdepth] at hagain
  obtain ⟨hclean', hdistinct', hdepth'⟩ := parseString_shape lib hagain
  have hfix := serialize_text lib pretty' hclean' hdistinct' (JsonValue.reread_inRange lib v hrange)
  rw [if_pos hdepth', (JsonValue.reread_eq_self_iff lib _).mpr
    (JsonValue.reread_fractional lib v)] at hfix
  exact ⟨hagain, hfix⟩

theorem parseString_reparse_sample :
    let v := sampleValue.reread sampleLib
    parseString sampleLib (serialize sampleLib false v 0) = some (v.reread sampleLib) ∧
      parseString sampleLib (serialize sampleLib true (v.reread sampleLib) 0) =
        some (v.reread sampleLib) := by
  have hread := serialize_text sampleLib true sampleValue_clean sampleValue_distinct
    sampleValue_inRange
  rw [if_pos (by decide)] at hread
  exact parseString_reparse sampleLib false true hread
    (JsonValue.reread_inRange sampleLib _ sampleValue_inRange)

end DeviceSdk.Parson
