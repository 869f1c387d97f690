import Mathlib

/-!
# Association lists with one value type

What a lookup in an `AList` finds after an insertion or an erasure, stated as
equivalences so that a case analysis on the key is one `rcases`, and the values of
a map as a list.
-/

namespace AList

variable {α β : Type*} [DecidableEq α]

theorem lookup_insert_eq_some {m : AList fun _ : α => β} {k n : α} {v w : β} :
    (m.insert k v).lookup n = some w ↔ (n = k ∧ w = v) ∨ (n ≠ k ∧ m.lookup n = some w) := by
  by_cases h : n = k
  · subst h
    simp [eq_comm]
  · rw [lookup_insert_ne h]
    simp [h]

theorem lookup_erase_eq_some {m : AList fun _ : α => β} {k n : α} {w : β} :
    (m.erase k).lookup n = some w ↔ n ≠ k ∧ m.lookup n = some w := by
  by_cases h : n = k
  · subst h
    simp
  · rw [lookup_erase_ne h]
    simp [h]

/-- The values of a map, in the order of its entries. -/
def values (m : AList fun _ : α => β) : List β := m.entries.map fun e => e.2

theorem mem_values {m : AList fun _ : α => β} {w : β} :
    w ∈ m.values ↔ ∃ n, m.lookup n = some w := by
  constructor
  · intro h
    obtain ⟨e, he, rfl⟩ := List.mem_map.mp h
    exact ⟨e.1, mem_lookup_iff.mpr he⟩
  · rintro ⟨n, hn⟩
    exact List.mem_map.mpr ⟨⟨n, w⟩, mem_lookup_iff.mp hn, rfl⟩

/-- The entries of a map after additions under new keys. -/
theorem entries_foldl_insert {m : AList fun _ : α => β} {l : List (α × β)}
    (hl : (l.map Prod.fst).Nodup) (hm : ∀ e ∈ l, e.1 ∉ m) :
    (l.foldl (fun m e => m.insert e.1 e.2) m).entries.Perm
      (l.map (fun e => (⟨e.1, e.2⟩ : Sigma fun _ : α => β)) ++ m.entries) := by
  induction l generalizing m with
  | nil => exact List.Perm.refl _
  | cons e es ih =>
    obtain ⟨he, hes⟩ := List.nodup_cons.mp hl
    have hm' : ∀ f ∈ es, f.1 ∉ m.insert e.1 e.2 := by
      intro f hf hmem
      cases (AList.mem_insert m).mp hmem with
      | inl h => exact he (h ▸ List.mem_map_of_mem hf)
      | inr h => exact hm f (List.mem_cons_of_mem e hf) h
    have hnew := ih hes hm'
    rw [entries_insert_of_notMem (hm e List.mem_cons_self)] at hnew
    exact hnew.trans List.perm_middle

end AList

namespace List

/-- `List.lookup_cons` with a condition that can be decided by hand. -/
theorem lookup_cons_ite {α β : Type*} [DecidableEq α] (n k : α) (v : β) (es : List (α × β)) :
    ((k, v) :: es).lookup n = if n = k then some v else es.lookup n := by
  rw [lookup_cons]
  by_cases h : n = k
  · simp [h]
  · have hb : (n == k) = false := by simpa using h
    simp [h, hb]

/-- Images under the same keys, each key once, are permutations of each other only if they are
    equal. -/
theorem map_perm_map_iff_of_key {α β κ : Type*} {f g : α → β} (key : β → κ) {l : List α}
    (hkey : ∀ x ∈ l, key (f x) = key (g x)) (hl : (l.map fun x => key (g x)).Nodup) :
    (l.map f).Perm (l.map g) ↔ ∀ x ∈ l, f x = g x := by
  constructor
  · intro h x hx
    obtain ⟨y, hy, heq⟩ := mem_map.mp (h.mem_iff.mp (mem_map_of_mem hx))
    have hyx : key (g y) = key (g x) := by rw [heq, hkey x hx]
    obtain rfl := inj_on_of_nodup_map hl hy hx hyx
    exact heq.symm
  · intro h
    rw [map_congr_left h]

/-- Pairs under the same keys, each key once: they are the same pairs when each key has the same
    value. -/
theorem map_pair_perm_iff {α β γ : Type*} {l : List (α × γ)} (hl : (l.map Prod.fst).Nodup)
    (f g : α × γ → β) :
    (l.map fun e => (e.1, f e)).Perm (l.map fun e => (e.1, g e)) ↔ ∀ e ∈ l, f e = g e := by
  have hperm := map_perm_map_iff_of_key (f := fun e => (e.1, f e)) (g := fun e => (e.1, g e))
    Prod.fst (fun _ _ => rfl) hl
  simpa using hperm

/-- A lookup among pairs whose values are changed. -/
theorem lookup_map_value {α β γ : Type*} [DecidableEq α] (f : α → β → γ) (l : List (α × β))
    (n : α) : (l.map fun e => (e.1, f e.1 e.2)).lookup n = (l.lookup n).map (f n) := by
  induction l with
  | nil => rfl
  | cons e l ih =>
    obtain ⟨k, v⟩ := e
    rw [map_cons, lookup_cons_ite, lookup_cons_ite, ih]
    by_cases hn : n = k
    · subst hn
      rw [if_pos rfl, if_pos rfl, Option.map_some]
    · rw [if_neg hn, if_neg hn]

/-- A key whose pairs have one value has it. -/
theorem lookup_eq_some_of_forall {α β : Type*} [DecidableEq α] {l : List (α × β)} {n : α} {v : β}
    (hmem : (n, v) ∈ l) (hv : ∀ w, (n, w) ∈ l → w = v) : l.lookup n = some v := by
  induction l with
  | nil => cases hmem
  | cons e es ih =>
    obtain ⟨k, w⟩ := e
    rw [lookup_cons_ite]
    by_cases hn : n = k
    · subst hn
      rw [if_pos rfl, hv w mem_cons_self]
    · rw [if_neg hn]
      refine ih ?_ fun w hw => hv w (mem_cons_of_mem _ hw)
      cases mem_cons.mp hmem with
      | inl h => exact absurd (Prod.mk.inj h).1 hn
      | inr h => exact h

/-- A lookup among the pairs whose keys `f` translates back from `g`. -/
theorem lookup_filterMap_of_key {α β γ : Type*} [DecidableEq α] [DecidableEq γ] {f : α → Option γ}
    {g : γ → α} (hfg : ∀ a c, f a = some c ↔ a = g c) (l : List (α × β)) (c : γ) :
    (l.filterMap fun e => (f e.1).map fun c => (c, e.2)).lookup c = l.lookup (g c) := by
  induction l with
  | nil => rfl
  | cons e es ih =>
    obtain ⟨a, v⟩ := e
    rw [filterMap_cons, lookup_cons_ite]
    dsimp only
    cases hf : f a with
    | none =>
      have hne : g c ≠ a := fun h => by
        rw [(hfg a c).mpr h.symm] at hf
        cases hf
      rw [if_neg hne]
      exact ih
    | some d =>
      rw [Option.map_some]
      dsimp only
      rw [lookup_cons_ite, ih]
      by_cases hcd : c = d
      · rw [if_pos hcd, if_pos (hcd ▸ ((hfg a d).mp hf).symm)]
      · have hne : g c ≠ a := fun h => by
          rw [(hfg a c).mpr h.symm] at hf
          exact hcd (Option.some.inj hf)
        rw [if_neg hcd, if_neg hne]

/-- A lookup among the pairs that are made of a list, when the key of each element is less than
    that of the one before: the element with the greatest key counts. -/
theorem lookup_filterMap_of_decreasing {α β γ κ : Type*} [DecidableEq γ] [LinearOrder κ]
    {key : α → κ} {f : α → Option (γ × β)} {l : List α}
    (hl : l.Pairwise fun x y => key y < key x) (n : γ) (d : β) :
    (l.filterMap f).lookup n = some d ↔
      ∃ x ∈ l, f x = some (n, d) ∧ ∀ y ∈ l, ∀ d', f y = some (n, d') → key y ≤ key x := by
  induction l with
  | nil => simp
  | cons x l ih =>
    obtain ⟨hx, hl⟩ := pairwise_cons.mp hl
    have hskip (hfx : ∀ d', f x ≠ some (n, d')) :
        (∃ y ∈ l, f y = some (n, d) ∧ ∀ z ∈ l, ∀ d', f z = some (n, d') → key z ≤ key y) ↔
          ∃ y ∈ x :: l, f y = some (n, d) ∧
            ∀ z ∈ x :: l, ∀ d', f z = some (n, d') → key z ≤ key y := by
      constructor
      · rintro ⟨y, hy, hfy, hmax⟩
        refine ⟨y, mem_cons_of_mem _ hy, hfy, ?_⟩
        rw [forall_mem_cons]
        exact ⟨fun d' h => absurd h (hfx d'), hmax⟩
      · rintro ⟨y, hy, hfy, hmax⟩
        cases mem_cons.mp hy with
        | inl hyx => exact absurd (hyx ▸ hfy) (hfx d)
        | inr hy => exact ⟨y, hy, hfy, fun z hz => hmax z (mem_cons_of_mem _ hz)⟩
    rw [filterMap_cons]
    cases hf : f x with
    | none => exact (ih hl).trans (hskip (by simp [hf]))
    | some e =>
      obtain ⟨n', d₀⟩ := e
      dsimp only
      rw [lookup_cons_ite]
      by_cases hn : n = n'
      · subst hn
        rw [if_pos rfl, Option.some_inj]
        constructor
        · rintro rfl
          refine ⟨x, mem_cons_self, hf, ?_⟩
          rw [forall_mem_cons]
          exact ⟨fun _ _ => le_refl _, fun y hy _ _ => (hx y hy).le⟩
        · rintro ⟨y, hy, hfy, hmax⟩
          cases mem_cons.mp hy with
          | inl hyx =>
            rw [hyx, hf, Option.some_inj] at hfy
            exact (Prod.mk.inj hfy).2
          | inr hy => exact absurd (hmax x mem_cons_self d₀ hf) (not_le.mpr (hx y hy))
      · rw [if_neg hn]
        refine (ih hl).trans (hskip fun d' h => hn ?_)
        rw [hf, Option.some_inj] at h
        exact (Prod.mk.inj h).1.symm

section Nodup

variable {α β : Type*} [DecidableEq α]

/-- Where each key is there once, a lookup finds the pairs of the list. -/
theorem lookup_eq_some_iff_mem {l : List (α × β)} (hl : (l.map Prod.fst).Nodup) {n : α} {v : β} :
    l.lookup n = some v ↔ (n, v) ∈ l := by
  induction l with
  | nil => simp
  | cons e es ih =>
    obtain ⟨k, w⟩ := e
    obtain ⟨hk, hes⟩ := nodup_cons.mp hl
    rw [lookup_cons_ite, mem_cons, Prod.mk.injEq]
    by_cases hn : n = k
    · subst hn
      have hnot : (n, v) ∉ es := fun h => hk (mem_map.mpr ⟨(n, v), h, rfl⟩)
      simp [hnot, eq_comm]
    · simp [hn, ih hes]

theorem lookup_eq_none_of_notMem {l : List (α × β)} {n : α} (h : n ∉ l.map Prod.fst) :
    l.lookup n = none := by
  induction l with
  | nil => rfl
  | cons e es ih =>
    obtain ⟨k, v⟩ := e
    rw [map_cons, mem_cons, not_or] at h
    rw [lookup_cons_ite, if_neg h.1, ih h.2]

/-- Pairs under the same keys in the same order, each key once: equal lookups make them equal. -/
theorem eq_of_lookup_eq {l l' : List (α × β)} (hkeys : l.map Prod.fst = l'.map Prod.fst)
    (hl : (l.map Prod.fst).Nodup) (h : ∀ n, l.lookup n = l'.lookup n) : l = l' := by
  induction l generalizing l' with
  | nil => exact (map_eq_nil_iff.mp hkeys.symm).symm
  | cons e es ih =>
    cases l' with
    | nil => cases hkeys
    | cons e' es' =>
      obtain ⟨k, v⟩ := e
      obtain ⟨k', v'⟩ := e'
      obtain ⟨rfl, htail⟩ : k = k' ∧ es.map Prod.fst = es'.map Prod.fst := by simpa using hkeys
      obtain ⟨hk, hes⟩ := nodup_cons.mp hl
      have hv : v = v' := by simpa [lookup_cons_ite] using h k
      rw [hv, ih htail hes]
      intro n
      by_cases hn : n = k
      · rw [hn, lookup_eq_none_of_notMem hk, lookup_eq_none_of_notMem (htail ▸ hk)]
      · simpa [lookup_cons_ite, hn] using h n

theorem lookup_reverse_of_nodup {l : List (α × β)} (hl : (l.map Prod.fst).Nodup) (n : α) :
    l.reverse.lookup n = l.lookup n := by
  have hr : (l.reverse.map Prod.fst).Nodup := by
    rw [map_reverse]
    exact nodup_reverse.mpr hl
  apply Option.ext
  intro v
  rw [lookup_eq_some_iff_mem hr, lookup_eq_some_iff_mem hl, mem_reverse]

theorem exists_mem_of_lookup_ne_none {l : List (α × β)} {n : α} (h : l.lookup n ≠ none) :
    ∃ e ∈ l, e.1 = n := by
  induction l with
  | nil => exact absurd rfl h
  | cons e es ih =>
    obtain ⟨k, v⟩ := e
    rw [lookup_cons_ite] at h
    by_cases hn : n = k
    · exact ⟨(k, v), mem_cons_self, hn.symm⟩
    · rw [if_neg hn] at h
      obtain ⟨f, hf, hfn⟩ := ih h
      exact ⟨f, mem_cons_of_mem _ hf, hfn⟩

end Nodup

end List
