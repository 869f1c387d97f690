import DeviceSdk.Parson.Parse

/-!
# Texts of a JSON value

The texts of a JSON value, whatever white space they have and however their strings are escaped, and
what a document may start with to be read as a value. Objects have every name once, and a value is
nested only so deep. A minus sign without a number is read as zero where the C library does not
object.

## Main definitions

- `TextOf` — the texts of a value
- `JsonValue.Distinct`, `JsonValue.depth`
- `Reads`, `ReadsSign` — what is read at the start of a document

## Main results

- `parseNumberValue_iff` — what is read of a number
- `TextOf.kind` — the first byte of a text
- `follows_of_delimiter` — a number ends in front of a comma or a bracket
-/

namespace DeviceSdk.Parson

variable {D : Type} (lib : DoubleText D)

-- ════════════════════════════════════════════════════════════════════════
-- Texts of a value
-- ════════════════════════════════════════════════════════════════════════

/-- White space. -/
def Spaces (ws : Bytes) : Prop := ∀ b ∈ ws, isspace b = true

/-- A text of a string with its quotes. A string ends at its first null character. -/
def QuotedText (s t : Bytes) : Prop :=
  ∃ content out, t = '"'.toUInt8 :: (content ++ ['"'.toUInt8]) ∧ StringText content out ∧
    s = cString out

/-- A text of a number. A point may be in front of all digits only behind a minus sign. -/
def NumberText (v : JsonValue D) (t : Bytes) : Prop :=
  ∃ n : Numeral, t = n.text ∧ n.value lib = some v ∧ (n.neg = true ∨ n.int ≠ [])

mutual

/-- The texts of a value. -/
def TextOf : JsonValue D → Bytes → Prop
  | .null, t => t = nullToken
  | .boolean b, t => t = if b then trueToken else falseToken
  | .number x, t => NumberText lib (.number x) t
  | .uint u, t => NumberText lib (.uint u) t
  | .string s, t => QuotedText s t
  | .array items, t => ∃ body, t = '['.toUInt8 :: (body ++ [']'.toUInt8]) ∧ ItemsText items body
  | .object members, t =>
    ∃ body, t = '\x7b'.toUInt8 :: (body ++ ['\x7d'.toUInt8]) ∧ MembersText members body

/-- The texts of the items of an array, with commas between them. -/
def ItemsText : List (JsonValue D) → Bytes → Prop
  | [], t => Spaces t
  | x :: xs, t => ∃ a u b r, t = a ++ (u ++ (b ++ r)) ∧ Spaces a ∧ TextOf x u ∧ Spaces b ∧
      (xs = [] ∧ r = [] ∨ xs ≠ [] ∧ ∃ r', r = ','.toUInt8 :: r' ∧ ItemsText xs r')

/-- The texts of the members of an object. -/
def MembersText : List (Bytes × JsonValue D) → Bytes → Prop
  | [], t => Spaces t
  | (name, x) :: ms, t => ∃ a q b c u d r,
      t = a ++ (q ++ (b ++ ':'.toUInt8 :: (c ++ (u ++ (d ++ r))))) ∧
      Spaces a ∧ QuotedText name q ∧ Spaces b ∧ Spaces c ∧ TextOf x u ∧ Spaces d ∧
      (ms = [] ∧ r = [] ∨ ms ≠ [] ∧ ∃ r', r = ','.toUInt8 :: r' ∧ MembersText ms r')

end

namespace JsonValue

mutual

/-- The levels of a value. -/
def depth : JsonValue D → ℕ
  | .array items => depthItems items + 1
  | .object members => depthMembers members + 1
  | .null => 1
  | .boolean _ => 1
  | .number _ => 1
  | .uint _ => 1
  | .string _ => 1

def depthItems : List (JsonValue D) → ℕ
  | [] => 0
  | x :: xs => max (depth x) (depthItems xs)

def depthMembers : List (Bytes × JsonValue D) → ℕ
  | [] => 0
  | (_, x) :: ms => max (depth x) (depthMembers ms)

end

mutual

/-- No object has two members of one name. -/
def Distinct : JsonValue D → Prop
  | .array items => DistinctItems items
  | .object members => (members.map Prod.fst).Nodup ∧ DistinctMembers members
  | .null => True
  | .boolean _ => True
  | .number _ => True
  | .uint _ => True
  | .string _ => True

def DistinctItems : List (JsonValue D) → Prop
  | [] => True
  | x :: xs => Distinct x ∧ DistinctItems xs

def DistinctMembers : List (Bytes × JsonValue D) → Prop
  | [] => True
  | (_, x) :: ms => Distinct x ∧ DistinctMembers ms

end

theorem depth_pos (v : JsonValue D) : 0 < v.depth := by
  cases v <;> simp [depth]

end JsonValue

/-- A text is not prolonged by the rest of the document, if it is one of a number. -/
def Follows (t rest : Bytes) : Prop :=
  ∀ n : Numeral, scanNumber t = some (n, []) → n.Ends rest ∧ isHex (n.body ++ rest) = false

/-- A document starts with a text of a value. -/
def Reads (room : ℕ) (s : Bytes) (v : JsonValue D) (rest : Bytes) : Prop :=
  ∃ ws t, s = ws ++ (t ++ rest) ∧ Spaces ws ∧ TextOf lib v t ∧ v.Distinct ∧ v.depth ≤ room ∧
    Follows t rest

/-- A minus sign without a number. -/
def BareSign (s : Bytes) : Prop :=
  s.head? = some '-'.toUInt8 ∧ scanNumber s = none ∧ isHex (unsigned s) = false ∧
    isSpecial (unsigned s) = false

/-- A document starts with a minus sign that has no number behind it, and that stays unread. -/
def ReadsSign (room : ℕ) (s : Bytes) (v : JsonValue D) (rest : Bytes) : Prop :=
  lib.einval = false ∧ v = .uint 0 ∧ 0 < room ∧ ∃ ws, s = ws ++ rest ∧ Spaces ws ∧ BareSign rest

-- ════════════════════════════════════════════════════════════════════════
-- White space and first bytes
-- ════════════════════════════════════════════════════════════════════════

theorem spaces_nil : Spaces [] := fun _ h => by cases h

theorem skipWhitespaces_append {ws s : Bytes} (hws : Spaces ws) (hs : Scan.Stops isspace s) :
    skipWhitespaces (ws ++ s) = s :=
  (Scan.munch_iff.mpr ⟨rfl, hws, hs⟩).2

theorem exists_spaces (s : Bytes) : ∃ ws, Spaces ws ∧ s = ws ++ skipWhitespaces s :=
  ⟨s.takeWhile isspace, fun _ h => List.mem_takeWhile_imp h, List.takeWhile_append_dropWhile.symm⟩

theorem isDigit_not_space {b : UInt8} (h : isDigit b = true) : isspace b = false := by
  have hall : ∀ n : Fin 256, isDigit (UInt8.ofFin n) = true → isspace (UInt8.ofFin n) = false := by
    decide +kernel
  exact hall b.toFin h

/-- The byte that tells `parse_value` what kind of value it has before it. -/
inductive Kind : JsonValue D → UInt8 → Prop
  | null : Kind .null 'n'.toUInt8
  | boolean (b : Bool) : Kind (.boolean b) (if b then 't'.toUInt8 else 'f'.toUInt8)
  | number {x : D} {c : UInt8} (h : c = '-'.toUInt8 ∨ isDigit c = true) : Kind (.number x) c
  | uint {u : BitVec 64} {c : UInt8} (h : c = '-'.toUInt8 ∨ isDigit c = true) : Kind (.uint u) c
  | string (s : Bytes) : Kind (.string s) '"'.toUInt8
  | array (items : List (JsonValue D)) : Kind (.array items) '['.toUInt8
  | object (members : List (Bytes × JsonValue D)) : Kind (.object members) '\x7b'.toUInt8

theorem Kind.not_space {v : JsonValue D} {c : UInt8} (h : Kind v c) : isspace c = false := by
  cases h with
  | null => decide
  | boolean b => cases b <;> decide
  | number h =>
    rcases h with rfl | h
    · decide
    · exact isDigit_not_space h
  | uint h =>
    rcases h with rfl | h
    · decide
    · exact isDigit_not_space h
  | string => decide
  | array => decide
  | object => decide

theorem Kind.ne_bracket {v : JsonValue D} {c : UInt8} (h : Kind v c) : c ≠ ']'.toUInt8 := by
  have hdigit : isDigit ']'.toUInt8 = false := by decide
  cases h with
  | null => decide
  | boolean b => cases b <;> decide
  | number h =>
    rcases h with rfl | h
    · decide
    · exact isDigit_ne h hdigit
  | uint h =>
    rcases h with rfl | h
    · decide
    · exact isDigit_ne h hdigit
  | string => decide
  | array => decide
  | object => decide

theorem NumberText.head {v : JsonValue D} {t : Bytes} (h : NumberText lib v t) :
    ∃ c r, t = c :: r ∧ (c = '-'.toUInt8 ∨ isDigit c = true) := by
  obtain ⟨n, rfl, -, hn⟩ := h
  rw [Numeral.text]
  cases hneg : n.neg with
  | true => exact ⟨_, n.body, rfl, .inl rfl⟩
  | false =>
    rw [hneg] at hn
    have hne : n.int ≠ [] := by simpa using hn
    obtain ⟨b, bs, hb⟩ := List.exists_cons_of_ne_nil hne
    have hbody : n.body = b :: (bs ++ (n.frac.elim [] ('.'.toUInt8 :: ·) ++
        n.exp.elim [] Exponent.text)) := by
      rw [Numeral.body, hb]
      rfl
    exact ⟨b, _, hbody, .inr (n.int_digits b (by rw [hb]; exact List.mem_cons_self))⟩

theorem TextOf.kind {v : JsonValue D} {t : Bytes} (h : TextOf lib v t) :
    ∃ c r, t = c :: r ∧ Kind v c := by
  cases v with
  | null => exact ⟨_, _, h, .null⟩
  | boolean b =>
    cases b with
    | true => exact ⟨_, _, h, .boolean true⟩
    | false => exact ⟨_, _, h, .boolean false⟩
  | number x =>
    obtain ⟨c, r, rfl, hc⟩ := NumberText.head lib h
    exact ⟨c, r, rfl, .number hc⟩
  | uint u =>
    obtain ⟨c, r, rfl, hc⟩ := NumberText.head lib h
    exact ⟨c, r, rfl, .uint hc⟩
  | string s =>
    obtain ⟨content, out, rfl, -⟩ := h
    exact ⟨_, _, rfl, .string s⟩
  | array items =>
    obtain ⟨body, rfl, -⟩ := h
    exact ⟨_, _, rfl, .array items⟩
  | object members =>
    obtain ⟨body, rfl, -⟩ := h
    exact ⟨_, _, rfl, .object members⟩

-- ════════════════════════════════════════════════════════════════════════
-- Numbers
-- ════════════════════════════════════════════════════════════════════════

theorem unsigned_text_append (n : Numeral) (rest : Bytes) :
    unsigned (n.text ++ rest) = n.body ++ rest := by
  rw [Numeral.text]
  cases n.neg with
  | true => rfl
  | false =>
    obtain ⟨b, t, hbody, hb⟩ := n.body_head
    have hne : b ≠ '-'.toUInt8 := by
      rcases hb with hb | rfl
      · exact isDigit_ne hb (by decide)
      · decide
    rw [if_neg (by decide), List.nil_append, hbody, List.cons_append, unsigned, if_neg hne]

/-- The body of a numeral is no word. -/
theorem isSpecial_body_append (n : Numeral) (rest : Bytes) :
    isSpecial (n.body ++ rest) = false := by
  obtain ⟨b, t, hbody, hb⟩ := n.body_head
  have hlower : lower b ≠ 'i'.toUInt8 ∧ lower b ≠ 'n'.toUInt8 := by
    have hall : ∀ k : Fin 256, isDigit (UInt8.ofFin k) = true ∨ UInt8.ofFin k = '.'.toUInt8 →
        lower (UInt8.ofFin k) ≠ 'i'.toUInt8 ∧ lower (UInt8.ofFin k) ≠ 'n'.toUInt8 := by
      decide +kernel
    exact hall b.toFin hb
  rw [hbody, isSpecial]
  simp [hlower.1, hlower.2]

/-- A numeral becomes hexadecimal only through what is behind it. -/
theorem isHex_body_append {n : Numeral} {rest : Bytes}
    (h : ∀ b, rest.head? = some b → b ≠ 'x'.toUInt8 ∧ b ≠ 'X'.toUInt8) :
    isHex (n.body ++ rest) = false := by
  obtain ⟨b, t, hbody, hb⟩ := n.body_head
  have hx : ∀ c, (t ++ rest).head? = some c → c ≠ 'x'.toUInt8 ∧ c ≠ 'X'.toUInt8 := by
    intro c hc
    cases t with
    | nil => exact h c hc
    | cons d t =>
      obtain rfl : d = c := Option.some.inj hc
      rcases n.body_numeralByte d (by rw [hbody]; simp) with hd | hd
      · exact isDigit_ne_x hd
      · have hall : ∀ e ∈ ['.'.toUInt8, 'e'.toUInt8, 'E'.toUInt8, '+'.toUInt8, '-'.toUInt8],
            e ≠ 'x'.toUInt8 ∧ e ≠ 'X'.toUInt8 := by decide +kernel
        exact hall d hd
  rw [hbody, List.cons_append]
  cases htail : t ++ rest with
  | nil => rfl
  | cons c s =>
    obtain ⟨hx, hX⟩ := hx c (by rw [htail]; rfl)
    cases s with
    | nil => rfl
    | cons d s => simp [isHex, hx, hX]

theorem Numeral.value_kind {n : Numeral} {v : JsonValue D} (h : n.value lib = some v) :
    (∃ u, v = .uint u) ∨ ∃ x, v = .number x := by
  rw [Numeral.value] at h
  split at h
  · cases h
  · split_ifs at h
    split at h
    · exact .inl ⟨_, (Option.some.inj h).symm⟩
    · exact .inr ⟨_, (Option.some.inj h).symm⟩

/-- What `parse_number_value` reads. -/
theorem parseNumberValue_iff {s rest : Bytes} {v : JsonValue D} :
    parseNumberValue lib s = some (v, rest) ↔
      (∃ n : Numeral, s = n.text ++ rest ∧ n.value lib = some v ∧ n.Ends rest ∧
        isHex (n.body ++ rest) = false) ∨
      lib.einval = false ∧ v = .uint 0 ∧ s = rest ∧ scanNumber s = none ∧
        isHex (unsigned s) = false ∧ isSpecial (unsigned s) = false := by
  rw [parseNumberValue]
  cases hscan : scanNumber s with
  | some p =>
    obtain ⟨n, r⟩ := p
    obtain ⟨rfl, hends⟩ := scanNumber_iff.mp hscan
    rw [unsigned_text_append, isSpecial_body_append, Bool.or_false]
    simp only
    constructor
    · intro h
      split_ifs at h with hhex
      obtain ⟨w, hw, heq⟩ := Option.map_eq_some_iff.mp h
      obtain ⟨rfl, rfl⟩ := Prod.mk.inj heq
      exact .inl ⟨n, rfl, hw, hends, by simpa using hhex⟩
    · rintro (⟨m, heq, hv, hm, hhex⟩ | ⟨-, -, -, h, -⟩)
      · have hm' := scanNumber_iff.mpr ⟨heq, hm⟩
        rw [hscan] at hm'
        obtain ⟨rfl, rfl⟩ := Prod.mk.inj (Option.some.inj hm')
        rw [if_neg (by rw [hhex]; decide), hv]
        rfl
      · cases h
  | none =>
    constructor
    · intro h
      split_ifs at h with hhex heinval
      obtain ⟨rfl, rfl⟩ := Prod.mk.inj (Option.some.inj h)
      rw [Bool.or_eq_true, not_or, Bool.not_eq_true, Bool.not_eq_true] at hhex
      exact .inr ⟨by simpa using heinval, rfl, rfl, rfl, hhex⟩
    · rintro (⟨m, rfl, -, hm, -⟩ | ⟨heinval, rfl, rfl, -, hhex, hspecial⟩)
      · rw [scanNumber_iff.mpr ⟨rfl, hm⟩] at hscan
        cases hscan
      · rw [hhex, hspecial, heinval]
        rfl

-- ════════════════════════════════════════════════════════════════════════
-- What may follow
-- ════════════════════════════════════════════════════════════════════════

/-- A byte that may stand behind a value in an object or an array. -/
def Delimiter (b : UInt8) : Prop :=
  isspace b = true ∨ b ∈ [','.toUInt8, ']'.toUInt8, '\x7d'.toUInt8]

theorem Delimiter.not_numeral {b : UInt8} (h : Delimiter b) :
    ¬ NumeralByte b ∧ b ≠ 'x'.toUInt8 ∧ b ≠ 'X'.toUInt8 := by
  have hall : ∀ n : Fin 256, (isspace (UInt8.ofFin n) = true ∨
      UInt8.ofFin n ∈ [','.toUInt8, ']'.toUInt8, '\x7d'.toUInt8]) →
      ¬ (isDigit (UInt8.ofFin n) = true ∨
        UInt8.ofFin n ∈ ['.'.toUInt8, 'e'.toUInt8, 'E'.toUInt8, '+'.toUInt8, '-'.toUInt8]) ∧
      UInt8.ofFin n ≠ 'x'.toUInt8 ∧ UInt8.ofFin n ≠ 'X'.toUInt8 := by decide +kernel
  exact hall b.toFin h

theorem follows_of_delimiter {t rest : Bytes} (h : ∀ b, rest.head? = some b → Delimiter b) :
    Follows t rest := fun _ _ =>
  ⟨Numeral.ends_of_head fun b hb => (h b hb).not_numeral.1,
    isHex_body_append fun b hb => (h b hb).not_numeral.2⟩

/-- White space, a comma or a bracket. -/
theorem head_spaces_append {ws s : Bytes} (hws : Spaces ws)
    (hs : ∀ b, s.head? = some b → Delimiter b) :
    ∀ b, (ws ++ s).head? = some b → Delimiter b := by
  cases ws with
  | nil => exact hs
  | cons c ws =>
    intro b hb
    obtain rfl : c = b := Option.some.inj hb
    exact .inl (hws c List.mem_cons_self)

/-- A text that starts as no number does is not one. -/
theorem follows_of_head {c : UInt8} {r rest : Bytes}
    (h : isDigit c = false ∧ c ≠ '-'.toUInt8 ∧ c ≠ '.'.toUInt8) : Follows (c :: r) rest := by
  intro n hn
  obtain ⟨heq, -⟩ := scanNumber_iff.mp hn
  obtain ⟨b, t, hbody, hb⟩ := n.body_head
  rw [List.append_nil, Numeral.text, hbody] at heq
  split_ifs at heq
  · exact absurd (List.cons.inj heq).1 h.2.1
  · have hbc : c = b := (List.cons.inj heq).1
    rw [← hbc, h.1] at hb
    rcases hb with hb | hb
    · cases hb
    · exact absurd hb h.2.2

theorem Reads.of_text {lib : DoubleText D} {room : ℕ} {v : JsonValue D} {t rest : Bytes}
    (ht : TextOf lib v t) (hdistinct : v.Distinct) (hdepth : v.depth ≤ room)
    (hfollows : Follows t rest) : Reads lib room (t ++ rest) v rest :=
  ⟨[], t, rfl, spaces_nil, ht, hdistinct, hdepth, hfollows⟩

theorem ReadsSign.head {lib : DoubleText D} {room : ℕ} {s : Bytes} {v : JsonValue D} {rest : Bytes}
    (h : ReadsSign lib room s v rest) : ∃ r, skipWhitespaces rest = '-'.toUInt8 :: r := by
  obtain ⟨-, -, -, ws, rfl, -, hhead, -⟩ := h
  obtain ⟨r, rfl⟩ := List.head?_eq_some_iff.mp hhead
  exact ⟨r, rfl⟩

end DeviceSdk.Parson
