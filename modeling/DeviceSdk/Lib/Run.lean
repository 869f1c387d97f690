import Mathlib.Data.List.Basic

/-!
# Runs of a state machine

A machine is a step function `σ → ι → σ` on states and inputs, and a run is the
list of its inputs. A property is lifted from one step to every run in two forms:
an invariant of every step holds along every run, and where a step is safe exactly
under a condition on the state before it, a run is safe exactly when each of its
steps meets the condition.

## Main definitions

- `Run.final` — the state at the end of a run
- `Run.Always` — a property holds in every state of a run
- `Run.Meets` — every step of a run meets a condition on the state it starts from
-/

namespace Run

variable {σ ι : Type*} (step : σ → ι → σ)

/-- The state that a run ends in. -/
def final (s : σ) (is : List ι) : σ := is.foldl step s

/-- `P` holds in every state of a run, the first and the last included. -/
def Always (P : σ → Prop) : σ → List ι → Prop
  | s, [] => P s
  | s, i :: is => P s ∧ Always P (step s i) is

/-- Every step of a run is taken from a state that meets `C`. -/
def Meets (C : σ → ι → Prop) : σ → List ι → Prop
  | _, [] => True
  | s, i :: is => C s i ∧ Meets C (step s i) is

@[simp] theorem final_nil (s : σ) : final step s [] = s := rfl

@[simp] theorem final_cons (s : σ) (i : ι) (is : List ι) :
    final step s (i :: is) = final step (step s i) is := rfl

theorem final_append (s : σ) (is is' : List ι) :
    final step s (is ++ is') = final step (final step s is) is' := List.foldl_append

variable {step}

/-- What every step keeps, a run keeps. -/
theorem final_inv {I : σ → Prop} (hstep : ∀ s i, I s → I (step s i)) {s : σ} (hs : I s)
    (is : List ι) : I (final step s is) := by
  induction is generalizing s with
  | nil => exact hs
  | cons i is ih => exact ih (hstep s i hs)

/-- A run is safe from its first state on. -/
theorem Always.start {P : σ → Prop} {s : σ} {is : List ι} (h : Always step P s is) : P s := by
  cases is with
  | nil => exact h
  | cons i is => exact h.1

/-- A run is safe when its steps meet a condition that keeps an invariant. -/
theorem always_of_meets {I P : σ → Prop} {C : σ → ι → Prop} (hP : ∀ s, I s → P s)
    (hstep : ∀ s i, I s → C s i → I (step s i)) {s : σ} (hs : I s) {is : List ι}
    (h : Meets step C s is) : Always step P s is := by
  induction is generalizing s with
  | nil => exact hP s hs
  | cons i is ih => exact ⟨hP s hs, ih (hstep s i hs h.1) h.2⟩

/-- A run is safe exactly when its steps meet the condition under which a single step
    is. The invariant `I` is what the argument for a single step may use. -/
theorem always_iff_meets {I P : σ → Prop} {C : σ → ι → Prop}
    (hI : ∀ s i, I s → P s → P (step s i) → I (step s i))
    (hstep : ∀ s i, I s → P s → (P (step s i) ↔ C s i)) {s : σ} (hs : I s) (hp : P s)
    (is : List ι) : Always step P s is ↔ Meets step C s is := by
  induction is generalizing s with
  | nil => exact ⟨fun _ => trivial, fun _ => hp⟩
  | cons i is ih =>
    constructor
    · rintro ⟨-, h⟩
      have hp' : P (step s i) := h.start
      exact ⟨(hstep s i hs hp).mp hp', (ih (hI s i hs hp hp') hp').mp h⟩
    · rintro ⟨hok, h⟩
      have hp' := (hstep s i hs hp).mpr hok
      exact ⟨hp, (ih (hI s i hs hp hp') hp').mpr h⟩

theorem meets_of_forall {C : σ → ι → Prop} (h : ∀ s i, C s i) (s : σ) (is : List ι) :
    Meets step C s is := by
  induction is generalizing s with
  | nil => trivial
  | cons i is ih => exact ⟨h s i, ih (step s i)⟩

/-- Conditions that agree wherever an invariant of every step holds are met by the same runs. -/
theorem meets_congr {I : σ → Prop} {C C' : σ → ι → Prop} (hI : ∀ s i, I s → I (step s i))
    (hC : ∀ s i, I s → (C s i ↔ C' s i)) {s : σ} (hs : I s) (is : List ι) :
    Meets step C s is ↔ Meets step C' s is := by
  induction is generalizing s with
  | nil => exact Iff.rfl
  | cons i is ih => exact and_congr (hC s i hs) (ih (hI s i hs))

/-- Where some input of a kind lowers a measure of every state outside `P`, inputs of that kind
    lead into `P`. -/
theorem exists_final_of_lt {P : σ → Prop} {K : ι → Prop} (measure : σ → ℕ)
    (h : ∀ s, ¬P s → ∃ i, K i ∧ measure (step s i) < measure s) (s : σ) :
    ∃ is, (∀ i ∈ is, K i) ∧ P (final step s is) := by
  induction hn : measure s using Nat.strongRecOn generalizing s with
  | _ n ih =>
    by_cases hP : P s
    · exact ⟨[], by simp, hP⟩
    · obtain ⟨i, hi, hlt⟩ := h s hP
      obtain ⟨is, his, hfinal⟩ := ih _ (hn ▸ hlt) (step s i) rfl
      exact ⟨i :: is, List.forall_mem_cons.mpr ⟨hi, his⟩, hfinal⟩

end Run
