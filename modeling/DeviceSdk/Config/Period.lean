import DeviceSdk.Config.Populate
import DeviceSdk.Dto.Document
import DeviceSdk.Lib.Scan

/-!
# Times

The settings and the autoevents give times as texts: a number and a unit. `edgex_parsetime` reads
the number with `strtoul`, which passes over blanks and a sign, and stops at the largest integer.

## Main definitions

- `period` — the time that a text denotes
- `TimeText` — what `strtoul` finds in front of a unit
- `PeriodKept` — the texts that `edgex_parsetime` reads as they are meant

## Main results

- `strtoul_lead` — what `strtoul` makes of blanks, a sign and digits
- `parsetime_period_iff`
-/

namespace DeviceSdk

/-- A text of digits and a unit denotes a time in milliseconds, if that is less than `2 ^ 64`. No
    other text does. -/
def period (spec : String) : ℕ :=
  let ds := spec.toList.takeWhile Char.isDigit
  match timeSuffixes.lookup (String.ofList (spec.toList.dropWhile Char.isDigit)) with
  | some f =>
    if ds ≠ [] ∧ digitsValue ds * f.toNat < 2 ^ 64 then digitsValue ds * f.toNat else 0
  | none => 0

/-- What `strtoul` passes over in front of digits. -/
def IsLead (lead : List Char) : Prop :=
  ∃ blanks sign, lead = blanks ++ sign ∧ (∀ c ∈ blanks, isspace c = true) ∧
    (sign = [] ∨ sign = ['+'] ∨ sign = ['-'])

/-- A text of blanks and a sign, digits, and a unit of `f` milliseconds. -/
structure TimeText (spec : String) (lead ds : List Char) (f : BitVec 64) : Prop where
  isLead : IsLead lead
  nonempty : ds ≠ []
  digits : ∀ c ∈ ds, c.isDigit = true
  text : ∃ sfx, (sfx, f) ∈ timeSuffixes ∧ spec.toList = lead ++ (ds ++ sfx.toList)

/-- No blank and no sign stands before the digits and the time is less than `2 ^ 64`; or the digits
    are no more than `strtoul` can hold, and the time is a multiple of `2 ^ 64`, as zero is. -/
def PeriodKept (spec : String) : Prop :=
  ∀ lead ds f, TimeText spec lead ds f →
    (lead = [] ∧ digitsValue ds * f.toNat < 2 ^ 64) ∨
      (digitsValue ds < 2 ^ 64 ∧ 2 ^ 64 ∣ digitsValue ds * f.toNat)

-- ════════════════════════════════════════════════════════════════════════
-- What `strtoul` reads
-- ════════════════════════════════════════════════════════════════════════

/-- The number that `strtoul` makes of digits. -/
def leadValue (lead ds : List Char) : BitVec 64 :=
  if 2 ^ 64 ≤ digitsValue ds then BitVec.allOnes 64
  else if '-' ∈ lead then -BitVec.ofNat 64 (digitsValue ds) else BitVec.ofNat 64 (digitsValue ds)

theorem isspace_of_isDigit {c : Char} (h : c.isDigit = true) : isspace c = false := by
  simp only [Char.isDigit, Bool.and_eq_true, decide_eq_true_eq] at h
  obtain ⟨hlo, hhi⟩ := h
  have hlo' : 48 ≤ c.toNat := hlo
  have hblank : c ≠ ' ' := by
    rintro rfl
    exact absurd hlo' (by decide)
  simp only [isspace, Bool.or_eq_false_iff, Bool.and_eq_false_iff, decide_eq_false_iff_not]
  exact ⟨hblank, .inr (by omega)⟩

/-- Without its blanks, a text begins with the sign or a digit. -/
theorem dropWhile_blanks {blanks sign body : List Char} (hb : ∀ c ∈ blanks, isspace c = true)
    (hs : sign = [] ∨ sign = ['+'] ∨ sign = ['-']) (hbody : Scan.Stops isspace body) :
    (blanks ++ sign ++ body).dropWhile isspace = sign ++ body := by
  rw [List.append_assoc]
  refine (Scan.munch_iff.mpr ⟨rfl, hb, ?_⟩).2
  rcases hs with rfl | rfl | rfl
  · exact hbody
  · exact Scan.stops_cons.mpr rfl
  · exact Scan.stops_cons.mpr rfl

/-- The sign, and what is behind it. -/
def splitSign : List Char → Bool × List Char
  | '-' :: cs => (true, cs)
  | '+' :: cs => (false, cs)
  | cs => (false, cs)

theorem splitSign_digit {c : Char} (h : c.isDigit = true) (cs : List Char) :
    splitSign (c :: cs) = (false, c :: cs) := by
  rw [splitSign]
  all_goals
    intro _ he
    rw [(List.cons.inj he).1] at h
    cases h

/-- `strtoul`, once the blanks and the sign are passed. -/
theorem strtoul_eq (s : List Char) :
    strtoul s =
      let body := (splitSign (s.dropWhile isspace)).2
      let n := digitsValue (body.takeWhile Char.isDigit)
      if body.takeWhile Char.isDigit = [] then (0, s)
      else if 2 ^ 64 ≤ n then (BitVec.allOnes 64, body.dropWhile Char.isDigit)
      else (if (splitSign (s.dropWhile isspace)).1 then -BitVec.ofNat 64 n else BitVec.ofNat 64 n,
        body.dropWhile Char.isDigit) := rfl

theorem strtoul_lead {lead ds rest : List Char} (hlead : IsLead lead) (hne : ds ≠ [])
    (hds : ∀ c ∈ ds, c.isDigit = true) (hrest : Scan.Stops Char.isDigit rest) :
    strtoul (lead ++ (ds ++ rest)) = (leadValue lead ds, rest) := by
  obtain ⟨blanks, sign, rfl, hb, hs⟩ := hlead
  obtain ⟨c, cs, rfl⟩ := List.exists_cons_of_ne_nil hne
  have hc := hds c List.mem_cons_self
  obtain ⟨htake, hdrop⟩ := Scan.munch_iff.mpr ⟨rfl, hds, hrest⟩
  have hnot : '-' ∉ blanks := fun hmem => absurd (hb _ hmem) (by decide)
  have hstops : Scan.Stops isspace (c :: cs ++ rest) :=
    Scan.stops_cons.mpr (isspace_of_isDigit hc)
  have hskip := dropWhile_blanks hb hs hstops
  have hsplit : splitSign (sign ++ (c :: cs ++ rest)) = (decide ('-' ∈ sign), c :: cs ++ rest) := by
    rcases hs with rfl | rfl | rfl
    · exact splitSign_digit hc _
    · rfl
    · rfl
  rw [strtoul_eq, hskip, hsplit]
  dsimp only
  rw [htake, hdrop, if_neg hne, leadValue]
  simp only [List.mem_append, hnot, false_or, decide_eq_true_eq]
  split <;> rfl

theorem splitSign_cases (s : List Char) :
    ∃ sign, (sign = [] ∨ sign = ['+'] ∨ sign = ['-']) ∧ s = sign ++ (splitSign s).2 := by
  rw [splitSign.eq_def]
  split
  · exact ⟨['-'], .inr (.inr rfl), rfl⟩
  · exact ⟨['+'], .inr (.inl rfl), rfl⟩
  · exact ⟨[], .inl rfl, rfl⟩

/-- Either there is no number, or it stands behind blanks and a sign. -/
theorem strtoul_cases (s : List Char) :
    strtoul s = (0, s) ∨ ∃ lead ds rest, IsLead lead ∧ ds ≠ [] ∧ (∀ c ∈ ds, c.isDigit = true) ∧
      Scan.Stops Char.isDigit rest ∧ s = lead ++ (ds ++ rest) := by
  obtain ⟨hs, hb, -⟩ := (Scan.munch_iff (l := s) (p := isspace)).mp ⟨rfl, rfl⟩
  obtain ⟨sign, hsign, hbody⟩ := splitSign_cases (s.dropWhile isspace)
  rw [strtoul_eq]
  generalize (splitSign (s.dropWhile isspace)).2 = body at hbody ⊢
  obtain ⟨hsplit, hds, hrest⟩ := (Scan.munch_iff (l := body) (p := Char.isDigit)).mp ⟨rfl, rfl⟩
  by_cases hne : body.takeWhile Char.isDigit = []
  · exact .inl (if_pos hne)
  · refine .inr ⟨s.takeWhile isspace ++ sign, _, _, ⟨_, sign, rfl, hb, hsign⟩, hne, hds, hrest, ?_⟩
    rw [← hsplit, List.append_assoc, ← hbody]
    exact hs

-- ════════════════════════════════════════════════════════════════════════
-- Times
-- ════════════════════════════════════════════════════════════════════════

theorem lookup_timeSuffixes {sfx : String} {f : BitVec 64} :
    timeSuffixes.lookup sfx = some f ↔ (sfx, f) ∈ timeSuffixes :=
  List.lookup_eq_some_iff_mem (by decide)

theorem timeSuffixes_stops {sfx : String} {f : BitVec 64} (h : (sfx, f) ∈ timeSuffixes) :
    Scan.Stops Char.isDigit sfx.toList := by
  simp only [timeSuffixes, List.mem_cons, Prod.mk.injEq, List.not_mem_nil, or_false] at h
  rcases h with ⟨rfl, -⟩ | ⟨rfl, -⟩ | ⟨rfl, -⟩ | ⟨rfl, -⟩ <;> exact Scan.stops_cons.mpr rfl

theorem timeSuffixes_pos {sfx : String} {f : BitVec 64} (h : (sfx, f) ∈ timeSuffixes) :
    0 < f.toNat := by
  simp only [timeSuffixes, List.mem_cons, Prod.mk.injEq, List.not_mem_nil, or_false] at h
  rcases h with ⟨-, rfl⟩ | ⟨-, rfl⟩ | ⟨-, rfl⟩ | ⟨-, rfl⟩ <;> decide

variable {spec : String} {lead ds : List Char} {f : BitVec 64}

theorem TimeText.parsetime_eq (h : TimeText spec lead ds f) :
    parsetime spec = leadValue lead ds * f := by
  obtain ⟨sfx, hsfx, htext⟩ := h.text
  have hread := strtoul_lead h.isLead h.nonempty h.digits (timeSuffixes_stops hsfx)
  rw [parsetime, htext, hread]
  simp only [String.ofList_toList, lookup_timeSuffixes.mpr hsfx]

theorem parsetime_eq_zero (h : ¬∃ lead ds f, TimeText spec lead ds f) : parsetime spec = 0 := by
  rw [parsetime]
  rcases strtoul_cases spec.toList with hzero | ⟨lead, ds, rest, hlead, hne, hds, hrest, htext⟩
  · simp only [hzero]
    split
    · exact BitVec.zero_mul
    · rfl
  · rw [htext, strtoul_lead hlead hne hds hrest]
    dsimp only
    split
    next f hf =>
      refine absurd ⟨lead, ds, f, hlead, hne, hds, String.ofList rest, ?_, ?_⟩ h
      · exact lookup_timeSuffixes.mp hf
      · rw [String.toList_ofList]
        exact htext
    · rfl

/-- A digit does not stand where blanks and a sign do. -/
theorem IsLead.stops (h : IsLead lead) (hne : lead ≠ []) (rest : List Char) :
    Scan.Stops Char.isDigit (lead ++ rest) := by
  obtain ⟨c, cs, rfl⟩ := List.exists_cons_of_ne_nil hne
  apply Scan.stops_cons.mpr
  obtain ⟨blanks, sign, he, hb, hs⟩ := h
  cases blanks with
  | nil =>
    rcases hs with rfl | rfl | rfl
    · cases he
    · rw [(List.cons.inj he).1]
      rfl
    · rw [(List.cons.inj he).1]
      rfl
  | cons b bs =>
    rw [(List.cons.inj he).1]
    by_contra hdigit
    have hnot := isspace_of_isDigit (Bool.not_eq_false _ ▸ hdigit)
    rw [hb b List.mem_cons_self] at hnot
    cases hnot

theorem TimeText.period_eq (h : TimeText spec lead ds f) :
    period spec =
      if lead = [] ∧ digitsValue ds * f.toNat < 2 ^ 64 then digitsValue ds * f.toNat else 0 := by
  obtain ⟨sfx, hsfx, htext⟩ := h.text
  rw [period, htext]
  by_cases hlead : lead = []
  · subst hlead
    obtain ⟨htake, hdrop⟩ := Scan.munch_iff.mpr ⟨rfl, h.digits, timeSuffixes_stops hsfx⟩
    rw [List.nil_append, htake, hdrop, String.ofList_toList, lookup_timeSuffixes.mpr hsfx]
    simp [h.nonempty]
  · obtain ⟨htake, -⟩ := Scan.munch_iff.mpr
      ⟨(List.nil_append _).symm, by simp, h.isLead.stops hlead (ds ++ sfx.toList)⟩
    rw [htake, if_neg fun hc => hlead hc.1]
    split
    · simp
    · rfl

theorem period_eq_zero (h : ¬∃ lead ds f, TimeText spec lead ds f) : period spec = 0 := by
  rw [period]
  split
  next f hf =>
    apply if_neg
    rintro ⟨hne, -⟩
    obtain ⟨hsplit, hds, -⟩ := (Scan.munch_iff (p := Char.isDigit)).mp ⟨rfl, rfl⟩
    refine h ⟨[], _, f, ⟨[], [], rfl, by simp, .inl rfl⟩, hne, hds, _, lookup_timeSuffixes.mp hf, ?_⟩
    rw [String.toList_ofList]
    exact hsplit
  · rfl

/-- A number that is too large to hold gives a time of its own with each unit. -/
theorem saturated_ne_zero {sfx : String} (h : (sfx, f) ∈ timeSuffixes) :
    (BitVec.allOnes 64 * f).toNat ≠ 0 := by
  simp only [timeSuffixes, List.mem_cons, Prod.mk.injEq, List.not_mem_nil, or_false] at h
  rcases h with ⟨-, rfl⟩ | ⟨-, rfl⟩ | ⟨-, rfl⟩ | ⟨-, rfl⟩ <;> decide

theorem toNat_eq_zero_iff {x : BitVec 64} : x.toNat = 0 ↔ x = 0#64 := BitVec.toNat_inj (y := 0#64)

theorem toNat_ofNat_mul (d : ℕ) (f : BitVec 64) :
    (BitVec.ofNat 64 d * f).toNat = d * f.toNat % 2 ^ 64 := by
  rw [BitVec.toNat_mul, BitVec.toNat_ofNat, Nat.mod_mul_mod]

/-- A sign before the digits leaves zero as it is, and nothing else becomes zero by it. -/
theorem toNat_leadValue_mul_eq_zero {d : ℕ} (hd : digitsValue ds = d) (h : d < 2 ^ 64) :
    (leadValue lead ds * f).toNat = 0 ↔ 2 ^ 64 ∣ d * f.toNat := by
  rw [leadValue, hd, if_neg (by omega), Nat.dvd_iff_mod_eq_zero, ← toNat_ofNat_mul]
  split
  · rw [BitVec.neg_mul, toNat_eq_zero_iff, toNat_eq_zero_iff, BitVec.neg_eq_zero_iff]
  · rfl

/-- On a number with a unit, blanks and a sign before it included. -/
theorem TimeText.kept_iff (h : TimeText spec lead ds f) :
    (parsetime spec).toNat = period spec ↔
      (lead = [] ∧ digitsValue ds * f.toNat < 2 ^ 64) ∨
        (digitsValue ds < 2 ^ 64 ∧ 2 ^ 64 ∣ digitsValue ds * f.toNat) := by
  obtain ⟨sfx, hsfx, -⟩ := h.text
  rw [h.parsetime_eq, h.period_eq]
  generalize hd : digitsValue ds = d
  by_cases hlarge : 2 ^ 64 ≤ d
  · have hmul : d ≤ d * f.toNat := Nat.le_mul_of_pos_right d (timeSuffixes_pos hsfx)
    have hne := saturated_ne_zero hsfx
    rw [leadValue, hd, if_pos hlarge, if_neg (by omega)]
    exact iff_of_false hne (by omega)
  · by_cases hkept : lead = [] ∧ d * f.toNat < 2 ^ 64
    · rw [leadValue, hd, if_neg hlarge, if_pos hkept, hkept.1, if_neg (by simp), toNat_ofNat_mul]
      exact iff_of_true (Nat.mod_eq_of_lt hkept.2) (.inl ⟨rfl, hkept.2⟩)
    · rw [if_neg hkept, toNat_leadValue_mul_eq_zero hd (by omega)]
      constructor
      · exact fun hdvd => .inr ⟨by omega, hdvd⟩
      · rintro (hc | ⟨-, hdvd⟩)
        · exact absurd hc hkept
        · exact hdvd

/-- `edgex_parsetime` reads a text as it is meant exactly where no blank, no sign and no overflow
    makes a time of one that denotes none. -/
theorem parsetime_period_iff (spec : String) :
    (parsetime spec).toNat = period spec ↔ PeriodKept spec := by
  by_cases h : ∃ lead ds f, TimeText spec lead ds f
  · obtain ⟨lead, ds, f, ht⟩ := h
    constructor
    · exact fun hsame _ _ _ ht' => ht'.kept_iff.mp hsame
    · exact fun hkept => ht.kept_iff.mpr (hkept lead ds f ht)
  · rw [parsetime_eq_zero h, period_eq_zero h]
    exact iff_of_true rfl fun lead ds f ht => absurd ⟨lead, ds, f, ht⟩ h

/-- More seconds than there are milliseconds to count them in. -/
theorem overflowing_time_accepted :
    (parsetime "18446744073709552s").toNat = 384 ∧ period "18446744073709552s" = 0 := by
  decide

end DeviceSdk
