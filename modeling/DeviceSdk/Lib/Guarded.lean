import Mathlib.Logic.Basic

/-!
# Programs that are defined under a condition

A program that may do what the language leaves undefined gives nothing there. What it amounts to
is a condition and a value: the program is defined exactly under the condition, and then it gives
the value.

## Main definitions

- `Guarded` — a condition and a value

## Main results

- `Guarded.bind`, `Guarded.foldlM` — the condition of a program from those of its parts
-/

/-- The program is defined exactly under the condition, and then it gives the value. -/
structure Guarded {α : Type*} (P : Prop) (x : Option α) (a : α) : Prop where
  defined : P → x = some a
  undefined : ¬P → x = none

namespace Guarded

variable {α β ι : Type*} {P Q : Prop} {x : Option α} {a : α}

theorem of_some (a : α) : Guarded True (some a) a := ⟨fun _ => rfl, fun h => absurd trivial h⟩

theorem of_none (h : ¬P) (a : α) : Guarded P none a := ⟨fun hp => absurd hp h, fun _ => rfl⟩

theorem congr (h : Guarded P x a) (hPQ : P ↔ Q) : Guarded Q x a :=
  ⟨fun hq => h.defined (hPQ.mpr hq), fun hq => h.undefined fun hp => hq (hPQ.mp hp)⟩

theorem condition (h : Guarded P x a) {b : α} (hx : x = some b) : P := by
  apply Classical.byContradiction
  intro hp
  rw [h.undefined hp] at hx
  cases hx

theorem value (h : Guarded P x a) {b : α} (hx : x = some b) : b = a :=
  Option.some.inj (hx.symm.trans (h.defined (h.condition hx)))

theorem map (h : Guarded P x a) (f : α → β) : Guarded P (x.map f) (f a) where
  defined := fun hp => by rw [h.defined hp, Option.map_some]
  undefined := fun hp => by rw [h.undefined hp, Option.map_none]

theorem bind {f : α → Option β} {b : β} (h : Guarded P x a) (hf : Guarded Q (f a) b) :
    Guarded (P ∧ Q) (x.bind f) b where
  defined := fun hpq => by rw [h.defined hpq.1, Option.bind_some, hf.defined hpq.2]
  undefined := by
    intro hpq
    by_cases hp : P
    · rw [h.defined hp, Option.bind_some]
      exact hf.undefined fun hq => hpq ⟨hp, hq⟩
    · rw [h.undefined hp, Option.bind_none]

/-- A loop is defined where every turn is, if the turns keep what the conditions rest on. -/
theorem foldlM {f : α → ι → Option α} {g : α → ι → α} {P : ι → Prop} {I : α → Prop}
    (hf : ∀ a i, I a → Guarded (P i) (f a i) (g a i)) (hI : ∀ a i, I a → I (g a i))
    (is : List ι) {a : α} (ha : I a) :
    Guarded (∀ i ∈ is, P i) (is.foldlM f a) (is.foldl g a) := by
  induction is generalizing a with
  | nil => exact (of_some a).congr (by simp)
  | cons i is ih =>
    rw [List.foldlM_cons, List.foldl_cons]
    exact ((hf a i ha).bind (ih (hI a i ha))).congr List.forall_mem_cons.symm

end Guarded
