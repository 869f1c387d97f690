import Mathlib.Data.List.Nodup
import Mathlib.Data.List.Perm.Subperm
import Mathlib.Tactic.ByContra

/-!
# Comparing lists by name

Two lists of named elements are compared by their lengths, and by a search in the second list, for
every element of the first, for the first element of its name. Where names repeat, this is not
equality up to order.

## Main definitions

- `Matching.IsFirst` — the first element of its name in a list
- `Matching.Agree` — a list in which a name has one meaning
- `Matching.Matches` — the comparison

## Main results

- `Matching.matches_perm_iff` — where the comparison is equality up to order
- `Matching.matches_iff_perm` — distinct names suffice
- `Matching.filterMap_perm_iff` — a choice that leaves elements out against one that does not
-/

namespace Matching

variable {α κ : Type*} [DecidableEq κ] {name : α → κ} {a b l : List α} {x y : α}

/-- The first element of its name in a list. -/
def IsFirst (name : α → κ) (l : List α) (x : α) : Prop :=
  (l.find? fun y => decide (name x = name y)) = some x

/-- Elements of one name are equal. -/
def Agree (name : α → κ) (l : List α) : Prop := ∀ x ∈ l, ∀ y ∈ l, name x = name y → x = y

/-- As many elements, and every element of the first list is the first of its name in the
    second. -/
def Matches (name : α → κ) (a b : List α) : Prop := a.length = b.length ∧ ∀ x ∈ a, IsFirst name b x

theorem IsFirst.mem (h : IsFirst name l x) : x ∈ l := List.mem_of_find?_eq_some h

theorem IsFirst.eq_of_name (hx : IsFirst name l x) (hy : IsFirst name l y) (h : name x = name y) :
    x = y := by
  rw [IsFirst, h] at hx
  exact Option.some.inj (hx.symm.trans hy)

theorem Agree.isFirst (h : Agree name l) (hx : x ∈ l) : IsFirst name l x := by
  have hsome : (l.find? fun y => decide (name x = name y)).isSome = true := by
    rw [List.find?_isSome]
    exact ⟨x, hx, decide_eq_true rfl⟩
  obtain ⟨y, hy⟩ := Option.isSome_iff_exists.mp hsome
  have hname : name x = name y := by simpa using List.find?_some hy
  rw [IsFirst, hy, h x hx y (List.mem_of_find?_eq_some hy) hname]

/-- On two orders of one list, the search succeeds where a name has one meaning. -/
theorem isFirst_perm_iff (h : a.Perm b) : (∀ x ∈ a, IsFirst name b x) ↔ Agree name a := by
  constructor
  · exact fun hfirst x hx y hy hname => (hfirst x hx).eq_of_name (hfirst y hy) hname
  · intro hagree x hx
    have hb : Agree name b := fun x hx y hy => hagree x (h.mem_iff.mpr hx) y (h.mem_iff.mpr hy)
    exact hb.isFirst (h.mem_iff.mp hx)

omit [DecidableEq κ] in
theorem agree_of_nodup (h : (a.map name).Nodup) : Agree name a :=
  fun _ hx _ hy hname => List.inj_on_of_nodup_map h hx hy hname

variable [DecidableEq α]

theorem perm_iff_count_le (h : a.length = b.length) :
    a.Perm b ↔ ∀ x ∈ a, a.count x ≤ b.count x := by
  constructor
  · exact fun hperm x _ => Nat.le_of_eq (hperm.count_eq x)
  · intro hcount
    exact (List.subperm_ext_iff.mpr hcount).perm_of_length_le (Nat.le_of_eq h.symm)

/-- The comparison is right exactly where the lists are not two orders of a list in which a name
    has two meanings, and no element that the first list repeats too often is passed over. -/
theorem matches_perm_iff (name : α → κ) (a b : List α) :
    (Matches name a b ↔ a.Perm b) ↔
      (a.Perm b → Agree name a) ∧
        ((∃ x ∈ a, b.count x < a.count x) → a.length ≠ b.length ∨ ∃ x ∈ a, ¬IsFirst name b x) := by
  constructor
  · intro h
    refine ⟨fun hperm => (isFirst_perm_iff hperm).mp (h.mpr hperm).2, ?_⟩
    rintro ⟨x, hx, hlt⟩
    by_contra hmatch
    simp only [not_or, not_not, not_exists, not_and] at hmatch
    have hle := (perm_iff_count_le hmatch.1).mp (h.mp hmatch) x hx
    omega
  · rintro ⟨hagree, hrepeat⟩
    constructor
    · rintro ⟨hlen, hfirst⟩
      refine (perm_iff_count_le hlen).mpr fun x hx => ?_
      by_contra hlt
      rcases hrepeat ⟨x, hx, Nat.lt_of_not_le hlt⟩ with hne | ⟨y, hy, hnot⟩
      · exact hne hlen
      · exact hnot (hfirst y hy)
    · exact fun hperm => ⟨hperm.length_eq, (isFirst_perm_iff hperm).mpr (hagree hperm)⟩

theorem matches_iff_perm (h : (a.map name).Nodup) : Matches name a b ↔ a.Perm b := by
  refine (matches_perm_iff name a b).mpr ⟨fun _ => agree_of_nodup h, ?_⟩
  rintro ⟨x, hx, hlt⟩
  rw [List.count_eq_one_of_mem h.of_map hx] at hlt
  have hnot : x ∉ b := List.count_eq_zero.mp (by omega)
  exact .inr ⟨x, hx, fun hfirst => hnot hfirst.mem⟩

section Choice

variable {γ β : Type*} {f g : γ → Option β} {l : List γ}

/-- A choice that leaves elements out gives no more of them. -/
theorem length_filterMap_le (h : ∀ x ∈ l, g x = none ∨ g x = f x) :
    (l.filterMap g).length ≤ (l.filterMap f).length := by
  induction l with
  | nil => exact Nat.le_refl _
  | cons x l ih =>
    have hle := ih fun y hy => h y (List.mem_cons_of_mem _ hy)
    rw [List.filterMap_cons, List.filterMap_cons]
    rcases h x List.mem_cons_self with hx | hx
    · rw [hx]
      cases f x with
      | none => exact hle
      | some y => exact Nat.le_succ_of_le hle
    · rw [hx]
      cases f x with
      | none => exact hle
      | some y => exact Nat.succ_le_succ hle

theorem eq_of_length_filterMap (h : ∀ x ∈ l, g x = none ∨ g x = f x)
    (hlen : (l.filterMap f).length ≤ (l.filterMap g).length) : ∀ x ∈ l, f x = g x := by
  induction l with
  | nil => simp
  | cons x l ih =>
    have hrest : ∀ y ∈ l, g y = none ∨ g y = f y := fun y hy => h y (List.mem_cons_of_mem _ hy)
    have hle := length_filterMap_le hrest
    rw [List.filterMap_cons, List.filterMap_cons] at hlen
    rw [List.forall_mem_cons]
    rcases h x List.mem_cons_self with hx | hx
    · rw [hx] at hlen ⊢
      cases hf : f x with
      | none =>
        rw [hf] at hlen
        exact ⟨rfl, ih hrest hlen⟩
      | some y =>
        rw [hf] at hlen
        exact absurd (Nat.le_trans hlen hle) (Nat.not_succ_le_self _)
    · rw [hx] at hlen ⊢
      refine ⟨rfl, ih hrest ?_⟩
      cases hf : f x with
      | none => rwa [hf] at hlen
      | some y =>
        rw [hf] at hlen
        exact Nat.le_of_succ_le_succ hlen

/-- A choice that leaves elements out chooses the same up to order only where it leaves out
    nothing. -/
theorem filterMap_perm_iff (h : ∀ x ∈ l, g x = none ∨ g x = f x) :
    (l.filterMap f).Perm (l.filterMap g) ↔ ∀ x ∈ l, f x = g x := by
  constructor
  · exact fun hperm => eq_of_length_filterMap h (Nat.le_of_eq hperm.length_eq)
  · intro heq
    rw [List.filterMap_congr heq]

end Choice

end Matching
