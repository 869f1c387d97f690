import DeviceSdk.Iot.Codec

/-!
# String maps

A string map of the IoT utilities library, with the order of its keys as part of the value:
a key occurs once, so that a lookup, an iteration and a merge agree about it.

## Main definitions

- `IotMap` — a string map
- `IotMap.add`, `IotMap.addAll`, `IotMap.merge`, `IotMap.mapValues`

## Main results

- `IotMap.lookup_add`, `lookup_addAll_of_nodup`, `lookup_merge`, `lookup_mapValues`
-/

namespace DeviceSdk

open IotData (mapAdd)

/-- The keys of a list of entries increase. -/
def KeyOrdered (entries : List (String × IotData)) : Prop :=
  entries.Pairwise fun e f => e.1 < f.1

theorem mem_mapAdd {key : String} {value : IotData} {entries : List (String × IotData)}
    {e : String × IotData} (h : e ∈ mapAdd key value entries) :
    e = (key, value) ∨ e ∈ entries := by
  induction entries with
  | nil => exact Or.inl (List.mem_singleton.mp h)
  | cons f fs ih =>
    obtain ⟨k, v⟩ := f
    rw [mapAdd] at h
    split at h
    next =>
      cases List.mem_cons.mp h with
      | inl h => exact Or.inl h
      | inr h => exact Or.inr (List.mem_cons_of_mem _ h)
    next =>
      split at h
      next => exact List.mem_cons.mp h
      next =>
        cases List.mem_cons.mp h with
        | inl h => exact Or.inr (h ▸ List.mem_cons_self)
        | inr h => exact (ih h).imp_right (List.mem_cons_of_mem _)

theorem KeyOrdered.mapAdd {entries : List (String × IotData)} (h : KeyOrdered entries)
    (key : String) (value : IotData) : KeyOrdered (IotData.mapAdd key value entries) := by
  induction entries with
  | nil => exact List.pairwise_singleton _ _
  | cons f fs ih =>
    obtain ⟨k, v⟩ := f
    obtain ⟨hlt, hfs⟩ := List.pairwise_cons.mp h
    rw [IotData.mapAdd]
    split
    next hk =>
      subst hk
      exact List.pairwise_cons.mpr ⟨hlt, hfs⟩
    next hk =>
      split
      next hkey =>
        refine List.pairwise_cons.mpr ⟨?_, h⟩
        intro e he
        cases List.mem_cons.mp he with
        | inl he => exact he ▸ hkey
        | inr he => exact lt_trans hkey (hlt e he)
      next hkey =>
        refine List.pairwise_cons.mpr ⟨?_, ih hfs⟩
        intro e he
        cases mem_mapAdd he with
        | inl he => exact he ▸ lt_of_le_of_ne (not_lt.mp hkey) (Ne.symm hk)
        | inr he => exact hlt e he

/-- A string map. -/
structure IotMap where
  entries : List (String × IotData)
  ordered : KeyOrdered entries

namespace IotMap

/-- `iot_data_alloc_map`. -/
def empty : IotMap := ⟨[], List.Pairwise.nil⟩

/-- The value under a key. -/
def lookup (m : IotMap) (key : String) : Option IotData := m.entries.lookup key

/-- The map as data. -/
def data (m : IotMap) : IotData := .map m.entries

/-- `iot_data_string_map_add`. -/
def add (m : IotMap) (key : String) (value : IotData) : IotMap :=
  ⟨mapAdd key value m.entries, m.ordered.mapAdd key value⟩

/-- Additions, one after the other. -/
def addAll (m : IotMap) (entries : List (String × IotData)) : IotMap :=
  entries.foldl (fun m e => m.add e.1 e.2) m

/-- `iot_data_map_merge`. -/
def merge (m src : IotMap) : IotMap := m.addAll src.entries

/-- `iot_data_map_iter_replace_value` on every entry. -/
def mapValues (m : IotMap) (f : String → IotData → IotData) : IotMap where
  entries := m.entries.map fun e => (e.1, f e.1 e.2)
  ordered := by
    rw [KeyOrdered, List.pairwise_map]
    exact m.ordered

theorem keys_nodup (m : IotMap) : (m.entries.map Prod.fst).Nodup := by
  rw [List.Nodup, List.pairwise_map]
  exact m.ordered.imp fun h => h.ne

theorem mem_entries_iff (m : IotMap) {key : String} {value : IotData} :
    (key, value) ∈ m.entries ↔ m.lookup key = some value :=
  (List.lookup_eq_some_iff_mem m.keys_nodup).symm

/-- Maps with the same entries are the same. -/
theorem eq_of_lookup {a b : IotMap} (h : ∀ n, a.lookup n = b.lookup n) : a = b := by
  have hmem : ∀ e, e ∈ a.entries ↔ e ∈ b.entries := by
    rintro ⟨k, v⟩
    rw [mem_entries_iff, mem_entries_iff, h]
  obtain ⟨a, ha⟩ := a
  obtain ⟨b, hb⟩ := b
  congr
  exact List.Pairwise.eq_of_mem_iff ha hb hmem

theorem lookup_add (m : IotMap) (key : String) (value : IotData) (n : String) :
    (m.add key value).lookup n = if n = key then some value else m.lookup n :=
  IotData.lookup_mapAdd key value m.entries n

theorem lookup_addAll_of_notMem {m : IotMap} {entries : List (String × IotData)} {n : String}
    (h : ∀ e ∈ entries, e.1 ≠ n) : (m.addAll entries).lookup n = m.lookup n := by
  induction entries generalizing m with
  | nil => rfl
  | cons e es ih =>
    have hn : n ≠ e.1 := fun he => h e List.mem_cons_self he.symm
    rw [addAll, List.foldl_cons]
    rw [← addAll, ih fun f hf => h f (List.mem_cons_of_mem e hf), lookup_add, if_neg hn]

/-- Additions under different keys: each key has its own value. -/
theorem lookup_addAll_of_nodup {entries : List (String × IotData)}
    (h : (entries.map Prod.fst).Nodup) (m : IotMap) (n : String) :
    (m.addAll entries).lookup n = (entries.lookup n).or (m.lookup n) := by
  induction entries generalizing m with
  | nil => rfl
  | cons e es ih =>
    obtain ⟨k, v⟩ := e
    obtain ⟨hk, hes⟩ := List.nodup_cons.mp h
    rw [addAll, List.foldl_cons, ← addAll, List.lookup_cons_ite]
    by_cases hn : n = k
    · subst hn
      have hnot : ∀ f ∈ es, f.1 ≠ n := by
        rintro f hf rfl
        exact hk (List.mem_map.mpr ⟨f, hf, rfl⟩)
      rw [lookup_addAll_of_notMem hnot, lookup_add, if_pos rfl, if_pos rfl]
      rfl
    · rw [ih hes, lookup_add, if_neg hn, if_neg hn]

/-- Additions: the last one under a key counts. -/
theorem lookup_addAll (m : IotMap) (entries : List (String × IotData)) (n : String) :
    (m.addAll entries).lookup n = (entries.reverse.lookup n).or (m.lookup n) := by
  induction entries generalizing m with
  | nil => rfl
  | cons e es ih =>
    obtain ⟨k, v⟩ := e
    rw [addAll, List.foldl_cons, ← addAll, ih, lookup_add, List.reverse_cons, List.lookup_append,
      List.lookup_cons_ite, List.lookup_nil]
    by_cases hn : n = k
    · rw [if_pos hn, if_pos hn, Option.or_assoc, Option.some_or]
    · rw [if_neg hn, if_neg hn, Option.or_none]

/-- The entries of the second map take the place of those of the first. -/
theorem lookup_merge (m src : IotMap) (n : String) :
    (m.merge src).lookup n = (src.lookup n).or (m.lookup n) :=
  lookup_addAll_of_nodup src.keys_nodup m n

theorem lookup_mapValues (m : IotMap) (f : String → IotData → IotData) (n : String) :
    (m.mapValues f).lookup n = (m.lookup n).map (f n) :=
  List.lookup_map_value f m.entries n

end IotMap

/-- Maps with the same entries are the same. -/
theorem KeyOrdered.eq_of_lookup {a b : List (String × IotData)} (ha : KeyOrdered a)
    (hb : KeyOrdered b) (h : ∀ n, a.lookup n = b.lookup n) : a = b := by
  have hmaps : (⟨a, ha⟩ : IotMap) = ⟨b, hb⟩ := IotMap.eq_of_lookup h
  exact congrArg IotMap.entries hmaps

end DeviceSdk
