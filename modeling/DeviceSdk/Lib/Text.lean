import Mathlib

/-!
# Texts in texts

Two searches that code in C writes with `strncmp` and `strstr`: what stands behind a text at
the start of another, and behind the first place where it occurs at all.

## Main definitions

- `Text.behind` — the text behind a given start
- `Text.behindFirst` — the text behind the first occurrence

## Main results

- `Text.behindFirst_eq_some_iff` — how a text is put together that is found
-/

namespace Text

section Lists

variable {α : Type*} [DecidableEq α]

/-- What stands behind the first occurrence of `pat` in a list. -/
def behindFirstList (pat : List α) : List α → Option (List α)
  | [] => if pat = [] then some [] else none
  | c :: cs =>
    if pat <+: c :: cs then some ((c :: cs).drop pat.length) else behindFirstList pat cs

theorem behindFirstList_eq_some {pat l r : List α} (h : behindFirstList pat l = some r) :
    ∃ p, l = p ++ (pat ++ r) := by
  induction l with
  | nil =>
    rw [behindFirstList] at h
    split at h
    next hp =>
      cases h
      exact ⟨[], by simp [hp]⟩
    next => cases h
  | cons c cs ih =>
    rw [behindFirstList] at h
    split at h
    next hp =>
      obtain ⟨t, ht⟩ := hp
      rw [← ht, List.drop_left, Option.some_inj] at h
      exact ⟨[], by rw [← h, ht]; rfl⟩
    next =>
      obtain ⟨p, hp⟩ := ih h
      exact ⟨c :: p, by rw [hp]; rfl⟩

theorem behindFirstList_eq_none_iff {pat l : List α} :
    behindFirstList pat l = none ↔ ¬ pat <:+: l := by
  induction l with
  | nil => simp [behindFirstList]
  | cons c cs ih =>
    rw [behindFirstList, List.infix_cons_iff]
    by_cases hp : pat <+: c :: cs
    · simp [hp]
    · simp [hp, ih]

/-- What is in front of the first occurrence has no occurrence in it. -/
theorem exists_of_behindFirstList {pat l r : List α} (h : behindFirstList pat l = some r)
    (hpat : pat ≠ []) : ∃ p, ¬ pat <:+: p ∧ l = p ++ (pat ++ r) := by
  induction l with
  | nil =>
    rw [behindFirstList, if_neg hpat] at h
    cases h
  | cons c cs ih =>
    rw [behindFirstList] at h
    split at h
    next hp =>
      obtain ⟨t, ht⟩ := hp
      rw [← ht, List.drop_left, Option.some_inj] at h
      exact ⟨[], by simpa using hpat, by rw [← h, ht]; rfl⟩
    next hp =>
      obtain ⟨p, hinfix, rfl⟩ := ih h
      refine ⟨c :: p, ?_, rfl⟩
      rw [List.infix_cons_iff]
      rintro (hstart | hmem)
      · exact hp (hstart.trans (List.prefix_append (c :: p) _))
      · exact hinfix hmem

omit [DecidableEq α] in
/-- A pattern whose first element is not in its rest does not begin before its occurrence and end
    within it. -/
theorem not_prefix_append {c d : α} {t p r : List α} (hc : c ∉ t)
    (hp : ¬ (c :: t) <+: d :: p) : ¬ (c :: t) <+: d :: p ++ (c :: t ++ r) := by
  intro h
  have hd : d :: p <+: d :: p ++ (c :: t ++ r) := List.prefix_append _ _
  rcases List.prefix_or_prefix_of_prefix h hd with hle | hle
  · exact hp hle
  · obtain ⟨u, hu⟩ := hle
    rw [List.cons_append] at hu
    obtain ⟨rfl, rfl⟩ := List.cons.inj hu
    rw [← List.cons_append, List.prefix_append_right_inj] at h
    cases u with
    | nil =>
      rw [List.append_nil] at hp
      exact hp (List.prefix_refl _)
    | cons e u =>
      obtain ⟨v, hv⟩ := h
      rw [(List.cons.inj hv).1] at hc
      exact hc (List.mem_append_right _ List.mem_cons_self)

theorem behindFirstList_append {c : α} {t p r : List α} (hc : c ∉ t) (hp : ¬ (c :: t) <:+: p) :
    behindFirstList (c :: t) (p ++ (c :: t ++ r)) = some r := by
  induction p with
  | nil =>
    have hstart : (c :: t) <+: c :: t ++ r := List.prefix_append _ _
    rw [List.nil_append, List.cons_append, behindFirstList, ← List.cons_append, if_pos hstart,
      List.drop_left]
  | cons d p ih =>
    rw [List.infix_cons_iff, not_or] at hp
    have hno := not_prefix_append (r := r) hc hp.1
    rw [List.cons_append] at hno ⊢
    rw [behindFirstList, if_neg hno]
    exact ih hp.2

omit [DecidableEq α] in
/-- A separator that stands in a word at its start only: where the word and the separator are both
    found in a list, one of them ends before the other begins. -/
theorem prefix_or_prefix_of_append_eq {c : α} {t x y a b : List α} (hc : c ∉ t)
    (h : x ++ (c :: t ++ a) = y ++ c :: b) : x ++ c :: t <+: y ∨ y <+: x := by
  rcases List.append_eq_append_iff.mp h with ⟨u, rfl, hu⟩ | ⟨u, rfl, -⟩
  · cases u with
    | nil =>
      rw [List.append_nil]
      exact Or.inr (List.prefix_refl _)
    | cons d u =>
      obtain ⟨rfl, htail⟩ := List.cons.inj hu
      left
      rcases List.append_eq_append_iff.mp htail with ⟨v, rfl, -⟩ | ⟨v, rfl, hv⟩
      · rw [List.prefix_append_right_inj]
        exact List.prefix_append (c :: t) v
      · cases v with
        | nil => rw [List.append_nil]
        | cons e v =>
          obtain ⟨rfl, -⟩ := List.cons.inj hv
          exact absurd (List.mem_append_right _ List.mem_cons_self) hc
  · exact Or.inr (List.prefix_append _ _)

end Lists

/-- What stands behind `start` in a text that starts with it. -/
def behind (start s : String) : Option String :=
  if start.toList <+: s.toList then some (String.ofList (s.toList.drop start.toList.length))
  else none

/-- What stands behind the first occurrence of `pat` in a text. -/
def behindFirst (pat s : String) : Option String :=
  (behindFirstList pat.toList s.toList).map String.ofList

/-- A text occurs in another. -/
def Occurs (pat s : String) : Prop := pat.toList <:+: s.toList

instance (pat s : String) : Decidable (Occurs pat s) := inferInstanceAs (Decidable (_ <:+: _))

theorem behind_eq_some_iff {start s r : String} : behind start s = some r ↔ s = start ++ r := by
  rw [behind]
  constructor
  · intro h
    split at h
    next hp =>
      obtain ⟨t, ht⟩ := hp
      rw [← ht, List.drop_left, Option.some_inj] at h
      rw [← String.toList_inj, ← h, String.toList_append, String.toList_ofList, ht]
    next => cases h
  · rintro rfl
    have hp : start.toList <+: (start ++ r).toList := by
      rw [String.toList_append]
      exact List.prefix_append _ _
    rw [if_pos hp, String.toList_append, List.drop_left, String.ofList_toList]

theorem behind_append (start r : String) : behind start (start ++ r) = some r :=
  behind_eq_some_iff.mpr rfl

theorem behindFirst_eq_some {pat s r : String} (h : behindFirst pat s = some r) :
    ∃ p, s = p ++ (pat ++ r) := by
  obtain ⟨l, hl, rfl⟩ := Option.map_eq_some_iff.mp h
  obtain ⟨p, hp⟩ := behindFirstList_eq_some hl
  refine ⟨String.ofList p, ?_⟩
  rw [← String.toList_inj, hp]
  simp [String.toList_append]

theorem behindFirst_eq_none_iff {pat s : String} : behindFirst pat s = none ↔ ¬ Occurs pat s := by
  rw [behindFirst, Option.map_eq_none_iff, behindFirstList_eq_none_iff]
  rfl

/-- For a pattern whose first character is not in its rest: what stands behind the first
    occurrence. -/
theorem behindFirst_eq_some_iff {pat s r : String} {c : Char} {t : List Char}
    (hpat : pat.toList = c :: t) (hc : c ∉ t) :
    behindFirst pat s = some r ↔ ∃ p, ¬ Occurs pat p ∧ s = p ++ (pat ++ r) := by
  constructor
  · intro h
    obtain ⟨l, hl, rfl⟩ := Option.map_eq_some_iff.mp h
    obtain ⟨p, hp, hs⟩ := exists_of_behindFirstList hl (by simp [hpat])
    refine ⟨String.ofList p, ?_, ?_⟩
    · rwa [Occurs, String.toList_ofList]
    · rw [← String.toList_inj, hs]
      simp [String.toList_append]
  · rintro ⟨p, hp, rfl⟩
    rw [Occurs, hpat] at hp
    rw [behindFirst, String.toList_append, String.toList_append, hpat,
      behindFirstList_append hc hp, Option.map_some, String.ofList_toList]

theorem Occurs.append_left {pat s : String} (h : Occurs pat s) (t : String) :
    Occurs pat (t ++ s) := by
  rw [Occurs, String.toList_append]
  exact h.trans (List.suffix_append _ _).isInfix

end Text
