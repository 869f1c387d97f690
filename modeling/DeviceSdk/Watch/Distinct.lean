import DeviceSdk.Watch.List

/-!
# Names and counts of the watch list

A watcher enters the watch list when no watcher of its name is there. `add_locked` declines one
whose identifiers are not a map, which its callers do not see: `edgex_watchlist_populate` counts it
all the same, and `edgex_watchlist_update_watcher` returns without a watcher of that name.

## Main definitions

- `Watchlist.NamesDistinct` — no two watchers of a name
- `WatchOp.Right` — an operation returns and does what it should
- `WatchOp.Accepted` — no watcher is declined

## Main results

- `watchlist_right_iff` — along every run from the empty list
-/

namespace DeviceSdk

/-- The identifiers are a map. -/
def Watcher.Mapped (w : Watcher) : Prop := ∃ entries, w.identifiers = some (.map entries)

namespace Watchlist

/-- No two watchers of a list have the same name. -/
def NamesDistinct (wl : List Watcher) : Prop := (wl.map Watcher.name).Nodup

/-- A watcher that the loop of `edgex_watchlist_populate` comes to is in the list already, or has a
    map of identifiers. -/
def Takes (r : ℕ × List Watcher) (w : Watcher) : Prop :=
  present r.2 w.name = true ∨ w.Mapped

end Watchlist

open Watchlist (NamesDistinct present)

/-- What an operation should do: the number is that by which the list has grown; a watcher with the
    name and the contents is there; a watcher of the name was there, and the others are left in
    their order. -/
def WatchOp.Right (regcomp : String → Option Preg) (wl : List Watcher) : WatchOp → Prop
  | populate newlist =>
    (Watchlist.populate regcomp wl newlist).2.length =
      wl.length + (Watchlist.populate regcomp wl newlist).1
  | update updated =>
    ∃ w ∈ Watchlist.updateWatcher regcomp wl updated,
      w.name = updated.name ∧ watcherDup w = watcherDup updated
  | remove name =>
    ((Watchlist.removeWatcher wl name).1 = true ↔ ∃ w ∈ wl, w.name = name) ∧
      (Watchlist.removeWatcher wl name).2 = wl.filter fun w => decide (w.name ≠ name)

/-- No watcher that enters the list is declined. -/
def WatchOp.Accepted (regcomp : String → Option Preg) (wl : List Watcher) : WatchOp → Prop
  | populate newlist =>
    Run.Meets (Watchlist.populateOne regcomp) Watchlist.Takes (0, wl) newlist
  | update updated => present wl updated.name = true ∨ updated.Mapped
  | remove _ => True

-- ════════════════════════════════════════════════════════════════════════
-- Names
-- ════════════════════════════════════════════════════════════════════════

namespace Watchlist

variable {regcomp : String → Option Preg} {wl : List Watcher}

theorem present_iff {name : String} : present wl name = true ↔ ∃ w ∈ wl, w.name = name := by
  rw [present, List.any_eq_true]
  simp only [decide_eq_true_eq]

/-- A watcher with a map of identifiers goes to the front of the list. -/
theorem addLocked_of_mapped {w : Watcher} (h : w.Mapped) :
    ∃ added, addLocked regcomp wl w = added :: wl ∧ added.name = w.name ∧
      watcherDup added = watcherDup w := by
  obtain ⟨entries, he⟩ := h
  rw [addLocked, he]
  exact ⟨_, rfl, rfl, rfl⟩

/-- Any other watcher is declined. -/
theorem addLocked_of_not_mapped {w : Watcher} (h : ¬ w.Mapped) : addLocked regcomp wl w = wl := by
  rw [addLocked]
  split
  next entries he => exact absurd ⟨entries, he⟩ h
  next => rfl

theorem NamesDistinct.addLocked (h : NamesDistinct wl) {w : Watcher}
    (hnew : present wl w.name = false) : NamesDistinct (Watchlist.addLocked regcomp wl w) := by
  by_cases hw : w.Mapped
  · obtain ⟨added, hadd, hname, -⟩ : ∃ added, Watchlist.addLocked regcomp wl w = added :: wl ∧
        added.name = w.name ∧ watcherDup added = watcherDup w := addLocked_of_mapped hw
    rw [hadd]
    refine List.nodup_cons.mpr ⟨fun hmem => ?_, h⟩
    obtain ⟨u, hu, huname⟩ := List.mem_map.mp hmem
    rw [present_iff.mpr ⟨u, hu, huname.trans hname⟩] at hnew
    cases hnew
  · rw [addLocked_of_not_mapped hw]
    exact h

/-- A watcher takes the place of the one of its name. -/
theorem map_name_replaceFound (updated : Watcher) (wl : List Watcher) :
    (replaceFound updated wl).map Watcher.name = wl.map Watcher.name := by
  induction wl with
  | nil => rfl
  | cons w wl ih =>
    rw [replaceFound]
    split
    next hname =>
      rw [List.map_cons, List.map_cons, hname]
      rfl
    next => rw [List.map_cons, List.map_cons, ih]

theorem mem_replaceFound {updated : Watcher} (h : present wl updated.name = true) :
    watcherDup updated ∈ replaceFound updated wl := by
  induction wl with
  | nil => cases h
  | cons w wl ih =>
    rw [replaceFound]
    split
    next => exact List.mem_cons_self
    next hname =>
      refine List.mem_cons_of_mem _ (ih ?_)
      rw [present, List.any_cons, decide_eq_false hname, Bool.false_or] at h
      exact h

theorem NamesDistinct.populateOne {r : ℕ × List Watcher} (h : NamesDistinct r.2) (w : Watcher) :
    NamesDistinct (Watchlist.populateOne regcomp r w).2 := by
  rw [Watchlist.populateOne]
  split
  next => exact h
  next hnew => exact h.addLocked (Bool.eq_false_iff.mpr hnew)

end Watchlist

/-- No operation makes two watchers of a name. -/
theorem WatchOp.apply_namesDistinct {regcomp : String → Option Preg} {wl : List Watcher}
    (h : NamesDistinct wl) (op : WatchOp) : NamesDistinct (op.apply regcomp wl) := by
  cases op with
  | populate newlist =>
    exact Run.final_inv (I := fun r : ℕ × List Watcher => NamesDistinct r.2)
      (fun r w hr => hr.populateOne w) h newlist
  | update updated =>
    rw [apply, Watchlist.updateWatcher]
    split
    next =>
      rw [NamesDistinct, Watchlist.map_name_replaceFound]
      exact h
    next hnew => exact h.addLocked (Bool.eq_false_iff.mpr hnew)
  | remove name => exact h.sublist (List.eraseP_sublist.map _)

-- ════════════════════════════════════════════════════════════════════════
-- Counts and contents
-- ════════════════════════════════════════════════════════════════════════

namespace Watchlist

variable {regcomp : String → Option Preg} {wl : List Watcher}

/-- One turn counts at least by how much the list grows, and no more when the watcher is taken. -/
theorem populateOne_count (r : ℕ × List Watcher) (w : Watcher) :
    (populateOne regcomp r w).2.length + r.1 ≤ r.2.length + (populateOne regcomp r w).1 ∧
      ((populateOne regcomp r w).2.length + r.1 = r.2.length + (populateOne regcomp r w).1 ↔
        Takes r w) := by
  rw [populateOne, Takes]
  by_cases hp : present r.2 w.name = true
  · rw [if_pos hp]
    exact ⟨Nat.le_refl _, iff_of_true rfl (Or.inl hp)⟩
  · rw [if_neg hp]
    by_cases hw : w.Mapped
    · obtain ⟨added, hadd, -⟩ : ∃ added, addLocked regcomp r.2 w = added :: r.2 ∧
          added.name = w.name ∧ watcherDup added = watcherDup w := addLocked_of_mapped hw
      rw [hadd, List.length_cons]
      have hlen : r.2.length + 1 + r.1 = r.2.length + (r.1 + 1) := by omega
      exact ⟨hlen.le, iff_of_true hlen (Or.inr hw)⟩
    · rw [addLocked_of_not_mapped hw]
      have hlen : r.2.length + r.1 < r.2.length + (r.1 + 1) := by omega
      exact ⟨hlen.le, iff_of_false hlen.ne (not_or.mpr ⟨hp, hw⟩)⟩

/-- The whole loop counts at least by how much the list grows, and no more when every watcher is
    taken. -/
theorem populate_count (r : ℕ × List Watcher) (newlist : List Watcher) :
    (Run.final (populateOne regcomp) r newlist).2.length + r.1 ≤
        r.2.length + (Run.final (populateOne regcomp) r newlist).1 ∧
      ((Run.final (populateOne regcomp) r newlist).2.length + r.1 =
          r.2.length + (Run.final (populateOne regcomp) r newlist).1 ↔
        Run.Meets (populateOne regcomp) Takes r newlist) := by
  induction newlist generalizing r with
  | nil => exact ⟨Nat.le_refl _, iff_of_true rfl trivial⟩
  | cons w newlist ih =>
    obtain ⟨hle, heq⟩ := @populateOne_count regcomp r w
    obtain ⟨hle', heq'⟩ := ih (populateOne regcomp r w)
    rw [Run.final_cons, Run.Meets, ← heq, ← heq']
    exact ⟨by omega, by omega⟩

theorem updateWatcher_contains_iff (updated : Watcher) :
    (∃ w ∈ updateWatcher regcomp wl updated,
        w.name = updated.name ∧ watcherDup w = watcherDup updated) ↔
      present wl updated.name = true ∨ updated.Mapped := by
  rw [updateWatcher]
  by_cases hp : present wl updated.name = true
  · rw [if_pos hp]
    exact iff_of_true ⟨_, mem_replaceFound hp, rfl, rfl⟩ (Or.inl hp)
  · rw [if_neg hp]
    by_cases hw : updated.Mapped
    · obtain ⟨added, hadd, hname, hdup⟩ : ∃ added, addLocked regcomp wl updated = added :: wl ∧
          added.name = updated.name ∧ watcherDup added = watcherDup updated :=
        addLocked_of_mapped hw
      rw [hadd]
      exact iff_of_true ⟨added, List.mem_cons_self, hname, hdup⟩ (Or.inr hw)
    · rw [addLocked_of_not_mapped hw]
      refine iff_of_false ?_ (not_or.mpr ⟨hp, hw⟩)
      rintro ⟨w, hmem, hname, -⟩
      exact hp (present_iff.mpr ⟨w, hmem, hname⟩)

/-- With distinct names, the removal of the first watcher of a name removes every one. -/
theorem eraseP_name_eq_filter (h : NamesDistinct wl) (name : String) :
    wl.eraseP (fun w => decide (w.name = name)) = wl.filter fun w => decide (w.name ≠ name) := by
  induction wl with
  | nil => rfl
  | cons w wl ih =>
    obtain ⟨hw, hwl⟩ := List.nodup_cons.mp h
    by_cases hname : w.name = name
    · rw [List.eraseP_cons_of_pos (by simpa using hname),
        List.filter_cons_of_neg (by simpa using hname)]
      refine (List.filter_eq_self.mpr fun u hu => ?_).symm
      rw [decide_eq_true_iff]
      rintro rfl
      exact hw (hname ▸ List.mem_map_of_mem hu)
    · rw [List.eraseP_cons_of_neg (by simpa using hname),
        List.filter_cons_of_pos (by simpa using hname), ih hwl]

end Watchlist

/-- With distinct names, an operation does what it should exactly when no watcher is declined. -/
theorem WatchOp.right_iff {regcomp : String → Option Preg} {wl : List Watcher}
    (h : NamesDistinct wl) (op : WatchOp) : op.Right regcomp wl ↔ op.Accepted regcomp wl := by
  cases op with
  | populate newlist =>
    exact (@Watchlist.populate_count regcomp (0, wl) newlist).2
  | update updated => exact Watchlist.updateWatcher_contains_iff updated
  | remove name =>
    refine iff_of_true ⟨Watchlist.present_iff, ?_⟩ trivial
    exact Watchlist.eraseP_name_eq_filter h name

/-- Along every run from the empty list names are distinct, and every operation does what it should
    exactly when none of them declines a watcher. -/
theorem watchlist_right_iff (regcomp : String → Option Preg) (ops : List WatchOp) :
    (Run.Always (WatchOp.apply regcomp) NamesDistinct [] ops ∧
        Run.Meets (WatchOp.apply regcomp) (fun wl op => op.Right regcomp wl) [] ops) ↔
      Run.Meets (WatchOp.apply regcomp) (fun wl op => op.Accepted regcomp wl) [] ops := by
  have hnil : NamesDistinct [] := List.nodup_nil
  have hnames : Run.Always (WatchOp.apply regcomp) NamesDistinct [] ops :=
    Run.always_of_meets (fun _ h => h) (fun _ op h _ => op.apply_namesDistinct h) hnil
      (Run.meets_of_forall (C := fun _ _ => True) (fun _ _ => trivial) [] ops)
  rw [and_iff_right hnames]
  exact Run.meets_congr (fun _ op h => op.apply_namesDistinct h) (fun _ op h => op.right_iff h) hnil
    ops

/-- A watcher without identifiers is counted, but is not there. -/
theorem watchlist_counts_declined :
    ¬ ∀ (regcomp : String → Option Preg) (ops : List WatchOp),
      Run.Always (WatchOp.apply regcomp) NamesDistinct [] ops ∧
        Run.Meets (WatchOp.apply regcomp) (fun wl op => op.Right regcomp wl) [] ops := by
  intro h
  have hgrown : (0 : ℕ) = 0 + 1 :=
    (h literalRegcomp [.populate [{ name := "sensors", identifiers := none }]]).2.1
  cases hgrown

end DeviceSdk
