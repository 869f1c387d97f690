import Mathlib.Data.Option.Basic

/-!
# Sources that override a value

A value has a kind, and a source may offer a value of any kind that it is asked for. A value
is overridden by what a source offers of its own kind, so overriding keeps the kind, and
overriding again and again is overriding once by all the sources in order of priority.

## Main definitions

- `Offer` — a source of values by kind
- `Offer.override` — replace a value by what a source offers
- `Offer.above` — one source before another

## Main results

- `Offer.override_override` — two passes are one
-/

/-- A source of values of each kind. -/
def Offer {V K : Type*} (kind : V → K) := (t : K) → Option { v : V // kind v = t }

namespace Offer

variable {V K : Type*} {kind : V → K}

/-- The source that offers nothing. -/
def none : Offer kind := fun _ => Option.none

/-- The first source, and the second for what the first does not offer. -/
def above (s s' : Offer kind) : Offer kind := fun t => (s t).or (s' t)

/-- A value, replaced by what the source offers of its kind. -/
def override (s : Offer kind) (v : V) : V :=
  match s (kind v) with
  | some w => w.1
  | Option.none => v

@[simp] theorem none_above (s : Offer kind) : none.above s = s := rfl

@[simp] theorem above_none (s : Offer kind) : s.above none = s := by
  funext t
  exact Option.or_none

theorem above_assoc (s s' s'' : Offer kind) : (s.above s').above s'' = s.above (s'.above s'') := by
  funext t
  exact Option.or_assoc

/-- A source that has been asked before adds nothing when it is asked again. -/
theorem above_above_above (s s' s'' : Offer kind) :
    s.above (s'.above (s.above s'')) = s.above (s'.above s'') := by
  funext t
  simp only [above]
  cases s t <;> simp

theorem override_of_some {s : Offer kind} {v : V} {w : { w : V // kind w = kind v }}
    (h : s (kind v) = some w) : s.override v = w.1 := by
  rw [override, h]

theorem override_of_none {s : Offer kind} {v : V} (h : s (kind v) = Option.none) :
    s.override v = v := by
  rw [override, h]

/-- Overriding keeps the kind. -/
theorem kind_override (s : Offer kind) (v : V) : kind (s.override v) = kind v := by
  cases h : s (kind v) with
  | none => rw [override_of_none h]
  | some w =>
    rw [override_of_some h]
    exact w.2

/-- Overriding by one source and then by another is overriding by both, the later first. -/
theorem override_override (s s' : Offer kind) (v : V) :
    s.override (s'.override v) = (s.above s').override v := by
  cases h' : s' (kind v) with
  | none =>
    have hv : (s.above s') (kind v) = s (kind v) := by simp [above, h']
    rw [override_of_none h', override, override, hv]
  | some w =>
    obtain ⟨w, hw⟩ := w
    rw [override_of_some h', override, override, above, h']
    -- The offer to `w` is the offer to `v`, whose kind it has.
    cases hs : s (kind v) with
    | none =>
      have hsw : s (kind w) = Option.none := by rw [hw, hs]
      simp [hsw]
    | some u =>
      have hsw : (s (kind w)).map Subtype.val = some u.1 := by rw [hw, hs]; rfl
      obtain ⟨u', hu', hval⟩ := Option.map_eq_some_iff.mp hsw
      simp [hu', hval]

/-- Behind a common first source, two sources give the same value exactly when the first has one
    or they agree themselves. -/
theorem override_above_eq_iff (s a b : Offer kind) (v : V) :
    (s.above a).override v = (s.above b).override v ↔
      (s (kind v)).isSome ∨ a.override v = b.override v := by
  cases hs : s (kind v) <;> simp [override, above, hs]

theorem override_eq_self_iff (s : Offer kind) (v : V) :
    s.override v = v ↔ ∀ w, s (kind v) = some w → w.1 = v := by
  cases hs : s (kind v) <;> simp [override, hs]

/-- The order of two sources does not matter exactly when they do not offer different values. -/
theorem override_above_comm_iff (a b : Offer kind) (v : V) :
    (a.above b).override v = (b.above a).override v ↔
      ∀ x y, b (kind v) = some x → a (kind v) = some y → x = y := by
  cases ha : a (kind v) with
  | none => cases hb : b (kind v) <;> simp [override, above, ha, hb]
  | some y =>
    cases hb : b (kind v) with
    | none => simp [override, above, ha, hb]
    | some x =>
      have hab : (a.above b).override v = y.1 := by simp [override, above, ha]
      have hba : (b.above a).override v = x.1 := by simp [override, above, hb]
      rw [hab, hba]
      constructor
      · intro h x' y' hx hy
        obtain rfl := Option.some.inj hx
        obtain rfl := Option.some.inj hy
        exact Subtype.ext h.symm
      · intro h
        exact congrArg Subtype.val (h x y rfl rfl).symm

end Offer
