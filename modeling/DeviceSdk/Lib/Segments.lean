import Mathlib

/-!
# Segments of a text

A text is cut into segments at a separator. `List.splitOn` gives all of them, an empty one
at either end included; a scanner that stops at the end of the text does not see an empty
last segment.

## Main definitions

- `Segments.head`, `Segments.rest` — the text before and behind the first separator
- `Segments.scan` — the scanner
- `Segments.EndsEmpty` — the last segment is empty

## Main results

- `Segments.splitOn_eq_scan` — what the scanner misses
- `Segments.eq_or_below_of_splitOn` — texts whose segments start with those of another
-/

namespace Segments

variable {α : Type*} [DecidableEq α] (sep : α)

/-- The text before the first separator, or all of it. -/
def head (l : List α) : List α := l.takeWhile fun c => decide (c ≠ sep)

/-- The text behind the first separator, or nothing. -/
def rest (l : List α) : List α := l.drop ((head sep l).length + 1)

/-- A text without separators is its own head; any other falls into its head, the first
    separator and the rest. -/
theorem head_rest (l : List α) :
    (sep ∉ l ∧ head sep l = l ∧ rest sep l = []) ∨
      (sep ∉ head sep l ∧ l = head sep l ++ sep :: rest sep l) := by
  induction l with
  | nil => simp [head, rest]
  | cons c l ih =>
    by_cases hc : c = sep
    · subst hc
      right
      simp [head, rest]
    · have hhead : head sep (c :: l) = c :: head sep l := by simp [head, hc]
      have hrest : rest sep (c :: l) = rest sep l := by simp [rest, hhead]
      have hc' : sep ≠ c := Ne.symm hc
      rw [hhead, hrest]
      cases ih with
      | inl h => simp [h, hc']
      | inr h => exact Or.inr ⟨by simp [hc', h.1], congrArg (c :: ·) h.2⟩

theorem head_append {l : List α} (h : sep ∉ l) (r : List α) : head sep (l ++ sep :: r) = l := by
  have hl : ∀ c ∈ l, decide (c ≠ sep) = true := by
    intro c hc
    have hne : c ≠ sep := fun he => h (he ▸ hc)
    simpa using hne
  rw [head, List.takeWhile_append_of_pos hl]
  simp

theorem rest_length_lt {l : List α} (h : l ≠ []) : (rest sep l).length < l.length := by
  have hpos : 0 < l.length := List.length_pos_iff.mpr h
  rw [rest, List.length_drop]
  omega

/-- No segment contains the separator. -/
theorem not_mem_of_mem_splitOn {l s : List α} (h : s ∈ l.splitOn sep) : sep ∉ s := by
  induction hn : l.length using Nat.strong_induction_on generalizing l with
  | _ n ih =>
    cases head_rest sep l with
    | inl hl =>
      rw [List.splitOn_eq_singleton hl.1, List.mem_singleton] at h
      exact h ▸ hl.1
    | inr hl =>
      have hne : l ≠ [] := by
        intro hnil
        rw [hnil] at hl
        simp at hl
      rw [hl.2, List.splitOn_append_cons_self_of_not_mem hl.1, List.mem_cons] at h
      cases h with
      | inl h => exact h ▸ hl.1
      | inr h => exact ih _ (hn ▸ rest_length_lt sep hne) h rfl

/-- A text is the segments it was put together from, and of no others. -/
theorem splitOn_eq_iff {l : List α} {segs : List (List α)} (hne : segs ≠ []) :
    l.splitOn sep = segs ↔ (∀ s ∈ segs, sep ∉ s) ∧ l = [sep].intercalate segs := by
  constructor
  · rintro rfl
    exact ⟨fun s hs => not_mem_of_mem_splitOn sep hs, (List.intercalate_splitOn sep).symm⟩
  · rintro ⟨hsegs, rfl⟩
    exact List.splitOn_intercalate sep hsegs hne

omit [DecidableEq α] in
theorem intercalate_append {segs more : List (List α)} (hs : segs ≠ []) (hm : more ≠ []) :
    [sep].intercalate (segs ++ more) = [sep].intercalate segs ++ sep :: [sep].intercalate more := by
  induction segs with
  | nil => exact absurd rfl hs
  | cons s ss ih =>
    cases ss with
    | nil => simp [List.intercalate_cons_of_ne_nil hm]
    | cons t ts =>
      rw [List.cons_append, List.intercalate_cons_of_ne_nil (List.append_ne_nil_of_left_ne_nil
        (List.cons_ne_nil t ts) more), ih (List.cons_ne_nil t ts), List.intercalate_cons_cons]
      simp

/-- Segments at the start of those of another text: the texts are equal, or the second goes on
    behind a separator. -/
theorem eq_or_below_of_splitOn {a b : List α} (h : a.splitOn sep <+: b.splitOn sep) :
    a = b ∨ a ++ [sep] <+: b := by
  obtain ⟨more, hmore⟩ := h
  have hb : b = [sep].intercalate (a.splitOn sep ++ more) := by
    rw [hmore, List.intercalate_splitOn]
  by_cases hm : more = []
  · left
    rw [hb, hm, List.append_nil, List.intercalate_splitOn]
  · right
    rw [hb, intercalate_append sep (List.splitOn_ne_nil sep a) hm, List.intercalate_splitOn]
    exact ⟨[sep].intercalate more, by simp⟩

/-- A separator may be replaced by one that the text does not contain. -/
theorem splitOn_map_replace {sep new : α} {l : List α} (h : new ∉ l) :
    (l.map fun c => if c = sep then new else c).splitOn new = l.splitOn sep := by
  induction l with
  | nil => rfl
  | cons c cs ih =>
    rw [List.mem_cons, not_or] at h
    obtain ⟨hc, hcs⟩ := h
    rw [List.map_cons, List.splitOn_cons_eq_if_modifyHead, List.splitOn_cons_eq_if_modifyHead,
      ih hcs]
    by_cases hs : c = sep
    · simp [hs]
    · have hn : c ≠ new := Ne.symm hc
      simp [hs, hn]

/-- The segments that a scanner collects that stops where the text ends. Every turn but the last
    takes at least the separator, so the length of the text is fuel enough. -/
def scan : ℕ → List α → List (List α)
  | 0, _ => []
  | _ + 1, [] => []
  | n + 1, c :: l => head sep (c :: l) :: scan n (rest sep (c :: l))

/-- The last segment of a text is empty. -/
def EndsEmpty (l : List α) : Prop := l = [] ∨ l.getLast? = some sep

instance (l : List α) : Decidable (EndsEmpty sep l) := inferInstanceAs (Decidable (_ ∨ _))

omit [DecidableEq α] in
theorem endsEmpty_append_cons (l r : List α) :
    EndsEmpty sep (l ++ sep :: r) ↔ EndsEmpty sep r := by
  cases r with
  | nil => simp [EndsEmpty]
  | cons c r => simp [EndsEmpty, List.getLast?_append, List.getLast?_cons_cons]

/-- The scanner misses exactly an empty last segment. -/
theorem splitOn_eq_scan {n : ℕ} {l : List α} (h : l.length ≤ n) :
    l.splitOn sep = scan sep n l ++ if EndsEmpty sep l then [[]] else [] := by
  induction n generalizing l with
  | zero =>
    obtain rfl := List.length_eq_zero_iff.mp (Nat.le_zero.mp h)
    simp [scan, EndsEmpty]
  | succ n ih =>
    cases l with
    | nil => simp [scan, EndsEmpty]
    | cons c l =>
      have hlt := rest_length_lt sep (List.cons_ne_nil c l)
      have hle : (rest sep (c :: l)).length ≤ n := by omega
      rw [scan, List.cons_append]
      cases head_rest sep (c :: l) with
      | inl hl =>
        obtain ⟨hnot, hhead, hrest⟩ := hl
        have hends : ¬ EndsEmpty sep (c :: l) := by
          rintro (hnil | hlast)
          · cases hnil
          · exact hnot (List.mem_of_getLast? hlast)
        rw [List.splitOn_eq_singleton hnot, if_neg hends, hhead, hrest]
        cases n <;> rfl
      | inr hl =>
        have hends : EndsEmpty sep (c :: l) ↔ EndsEmpty sep (rest sep (c :: l)) := by
          rw [hl.2, endsEmpty_append_cons, ← hl.2]
        have hsplit : (c :: l).splitOn sep =
            head sep (c :: l) :: (rest sep (c :: l)).splitOn sep := by
          rw [← List.splitOn_append_cons_self_of_not_mem hl.1, ← hl.2]
        rw [hsplit, ih hle]
        simp only [hends]

end Segments
