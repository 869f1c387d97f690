import Mathlib.Data.List.TakeWhile

/-!
# Longest starts

A scanner takes as many characters of a class as there are. What it takes, and what it leaves, is
told by how the text is put together.

## Main definitions

- `Scan.Stops` — a text that no character of a class starts

## Main results

- `Scan.munch_iff` — the longest start, and the rest
-/

namespace Scan

variable {α : Type*} {p : α → Bool}

/-- No element of the class stands at the start. -/
def Stops (p : α → Bool) (l : List α) : Prop := ∀ c, l.head? = some c → p c = false

theorem stops_cons {c : α} {l : List α} : Stops p (c :: l) ↔ p c = false := by
  constructor
  · exact fun h => h c rfl
  · rintro h d hd
    rw [← Option.some.inj hd]
    exact h

theorem stops_dropWhile (l : List α) : Stops p (l.dropWhile p) := by
  intro c hc
  have hnot := List.head?_dropWhile_not p l
  rw [hc] at hnot
  exact hnot

/-- The longest start of a class, and what is behind it. -/
theorem munch_iff {l ds rest : List α} :
    l.takeWhile p = ds ∧ l.dropWhile p = rest ↔
      l = ds ++ rest ∧ (∀ c ∈ ds, p c = true) ∧ Stops p rest := by
  constructor
  · rintro ⟨rfl, rfl⟩
    exact ⟨List.takeWhile_append_dropWhile.symm, fun c hc => List.mem_takeWhile_imp hc,
      stops_dropWhile l⟩
  · rintro ⟨rfl, hds, hrest⟩
    rw [List.takeWhile_append_of_pos hds, List.dropWhile_append_of_pos hds]
    cases rest with
    | nil => simp
    | cons c cs =>
      have hc := stops_cons.mp hrest
      simp [hc]

end Scan
