import DeviceSdk.DevMap.Iterate
import DeviceSdk.DevMap.Ownership

/-!
# The device map in memory

The device map and the profile map are maps from names, and the hash map in memory represents such
a map: its operations are those of the map from names. `edgex_devmap_clear` on the map in memory is
then the removal of each device with the reference that the map has to it.

## Main definitions

- `MapBase.Represents` — a hash map in memory and a map from names
- `Store.clearDevice`, `Store.clearNames` — the loop of `edgex_devmap_clear`

## Main results

- `MapBase.Represents.insert`, `MapBase.Represents.erase`
- `devmap_clear`
-/

namespace DeviceSdk

section Represents

variable {V : Type}

/-- The map in memory has the entries of a map from names. -/
def MapBase.Represents (m : MapBase V) (a : NameMap V) : Prop :=
  ∃ t, MapInv m t ∧ entryOf t.flatten = fun name => a.lookup name

namespace MapBase

theorem represents_init : (init : MapBase V).Represents ∅ := ⟨[], mapInv_init, rfl⟩

namespace Represents

variable {m : MapBase V} {a : NameMap V}

theorem get (h : m.Represents a) (name : String) : m.get name = some (a.lookup name) := by
  obtain ⟨t, hinv, hentries⟩ := h
  rw [hinv.get_spec, hentries]

theorem lookup_insert_eq_update (a : NameMap V) (name : String) (value : V) :
    (fun n => (a.insert name value).lookup n) =
      Function.update (fun n => a.lookup n) name (some value) := by
  funext n
  by_cases hn : n = name
  · rw [hn, AList.lookup_insert, Function.update_self]
  · rw [AList.lookup_insert_ne hn, Function.update_of_ne hn]

theorem lookup_erase_eq_update (a : NameMap V) (name : String) :
    (fun n => (a.erase name).lookup n) = Function.update (fun n => a.lookup n) name none := by
  funext n
  by_cases hn : n = name
  · rw [hn, AList.lookup_erase, Function.update_self]
  · rw [AList.lookup_erase_ne hn, Function.update_of_ne hn]

/-- `edgex_map_set` is an insertion, unless a new name does not get its memory. -/
theorem insert (h : m.Represents a) (name : String) (value : V) (malloc : Option ℕ)
    (realloc : Bool) :
    ∃ m' err, m.set name value malloc realloc = some (m', err) ∧
      if name ∈ a ∨ m.Allocates malloc realloc then err = 0 ∧ m'.Represents (a.insert name value)
      else err = -1 ∧ m'.Represents a := by
  obtain ⟨t, hinv, hentries⟩ := h
  have hmem : (entryOf t.flatten name).isSome = true ↔ name ∈ a := by
    rw [hentries, AList.lookup_isSome]
  obtain ⟨m', t', hrun, hinv', hentries'⟩ := hinv.set_spec name value malloc realloc
  simp only [hmem] at hrun hentries'
  refine ⟨m', _, hrun, ?_⟩
  by_cases hok : name ∈ a ∨ m.Allocates malloc realloc
  · rw [if_pos hok] at hentries' ⊢
    refine ⟨if_pos hok, t', hinv', ?_⟩
    rw [hentries', hentries, lookup_insert_eq_update]
  · rw [if_neg hok] at hentries' ⊢
    exact ⟨if_neg hok, t', hinv', hentries'.trans hentries⟩

/-- `edgex_map_remove` is an erasure. -/
theorem erase (h : m.Represents a) (name : String) :
    ∃ m', m.remove name = some m' ∧ m'.Represents (a.erase name) := by
  obtain ⟨t, hinv, hentries⟩ := h
  obtain ⟨m', t', hrun, hinv', hentries'⟩ := hinv.remove_entries name
  refine ⟨m', hrun, t', hinv', ?_⟩
  rw [hentries', hentries, lookup_erase_eq_update]

end Represents

end MapBase

end Represents

-- ════════════════════════════════════════════════════════════════════════
-- Clearing the device map
-- ════════════════════════════════════════════════════════════════════════

namespace Store

/-- One turn of the loop in `edgex_devmap_clear`. -/
def clearDevice (s : Store) (name : String) : Store :=
  match s.devices.lookup name with
  | some d => (s.deviceRelease d).eraseDevice name
  | none => s

/-- The loop, for the names that an iteration visits. -/
def clearNames (s : Store) (names : List String) : Store := names.foldl clearDevice s

/-- It does not matter whether a device is released before or after it leaves the map. -/
theorem deviceRelease_eraseDevice (s : Store) (d : DeviceRef) (name : String) :
    (s.eraseDevice name).deviceRelease d = (s.deviceRelease d).eraseDevice name := by
  have hobj : (s.eraseDevice name).device d = s.device d := rfl
  rw [deviceRelease, deviceRelease, hobj]
  by_cases hrefs : (s.device d).refs = 1
  · rw [if_pos hrefs, if_pos hrefs]
    cases (s.device d).ownprofile <;> rfl
  · rw [if_neg hrefs, if_neg hrefs]
    rfl

theorem foldl_deviceRelease_eraseDevice (s : Store) (ds : List DeviceRef) (name : String) :
    ds.foldl deviceRelease (s.eraseDevice name) =
      (ds.foldl deviceRelease s).eraseDevice name := by
  induction ds generalizing s with
  | nil => rfl
  | cons d ds ih => rw [List.foldl_cons, List.foldl_cons, deviceRelease_eraseDevice, ih]

theorem foldl_deviceRelease_devices (s : Store) (ds : List DeviceRef) :
    (ds.foldl deviceRelease s).devices = s.devices := by
  induction ds generalizing s with
  | nil => rfl
  | cons d ds ih => rw [List.foldl_cons, ih, deviceRelease_devices]

/-- The devices can all be released first, and leave the map afterwards. -/
theorem clearNames_eq {s : Store} {names : List String} {ds : List DeviceRef}
    (hnodup : names.Nodup) (hds : names.map s.devices.lookup = ds.map some) :
    s.clearNames names = names.foldl eraseDevice (ds.foldl deviceRelease s) := by
  induction names generalizing s ds with
  | nil =>
    obtain rfl : ds = [] := List.map_eq_nil_iff.mp hds.symm
    rfl
  | cons name names ih =>
    obtain ⟨hnotin, hnodup⟩ := List.nodup_cons.mp hnodup
    obtain ⟨d, ds, rfl, hd, hds⟩ := List.map_eq_cons_iff.mp hds.symm
    have hrest : names.map ((s.deviceRelease d).eraseDevice name).devices.lookup =
        ds.map some := by
      rw [hds]
      refine List.map_congr_left fun n hn => ?_
      have hne : n ≠ name := fun heq => hnotin (heq ▸ hn)
      rw [eraseDevice, deviceRelease_devices, AList.lookup_erase_ne hne]
    have hturn : s.clearDevice name = (s.deviceRelease d).eraseDevice name := by
      rw [clearDevice, show s.devices.lookup name = some d from hd.symm]
    rw [List.foldl_cons, List.foldl_cons, ← foldl_deviceRelease_eraseDevice, ← ih hnodup hrest,
      ← hturn]
    rfl

theorem foldl_eraseDevice_lookup (s : Store) (names : List String) (n : String) :
    (names.foldl eraseDevice s).devices.lookup n =
      if n ∈ names then none else s.devices.lookup n := by
  induction names generalizing s with
  | nil => rfl
  | cons name names ih =>
    rw [List.foldl_cons, ih, eraseDevice]
    by_cases hn : n = name
    · subst hn
      simp
    · simp [hn]

/-- The map is empty once each of its names is gone. -/
theorem foldl_eraseDevice_devices {s : Store} {names : List String}
    (hall : ∀ name, name ∈ names ↔ (s.devices.lookup name).isSome) :
    (names.foldl eraseDevice s).devices = ∅ := by
  have hkeys : (names.foldl eraseDevice s).devices.keys = [] := by
    refine List.eq_nil_iff_forall_not_mem.mpr fun name => AList.lookup_eq_none.mp ?_
    rw [foldl_eraseDevice_lookup]
    split
    · rfl
    · next hn => exact Option.not_isSome_iff_eq_none.mp fun hsome => hn ((hall name).mpr hsome)
  exact AList.ext (List.map_eq_nil_iff.mp hkeys)

/-- Nothing but the device map changes. -/
theorem foldl_eraseDevice (s : Store) (names : List String) :
    names.foldl eraseDevice s = { s with devices := (names.foldl eraseDevice s).devices } := by
  induction names generalizing s with
  | nil => rfl
  | cons name names ih =>
    rw [List.foldl_cons, ih]
    rfl

end Store

/-- A device in the map that is released and leaves the map takes one reference with it, that of
    the map. It does not own its profile, so that no profile is freed. -/
theorem Shared.Counted.clearDevice {w : Shared} (h : w.Counted) (hs : w.store.Sound)
    (name : String) :
    Counted { w with store := w.store.clearDevice name } ∧ (w.store.clearDevice name).Sound := by
  rw [Store.clearDevice]
  cases hd : w.store.devices.lookup name with
  | none => exact ⟨h, hs⟩
  | some d =>
    have hm : w.store.Mapped d := ⟨name, hd⟩
    have hr := h.removeFromMap hm
    have hmem : d ∈ d :: w.held := List.mem_cons_self
    have hturn : (w.store.deviceRelease d).eraseDevice name =
        (w.store.removeFromMap d).deviceRelease d := by
      rw [Store.removeFromMap, h.linked.wf.device_name hd, Store.deviceRelease_eraseDevice]
    have hcounted := hr.release hmem
    rw [List.erase_cons_head] at hcounted
    have hsafe : (Turn.release d).Safe ⟨w.store.removeFromMap d, d :: w.held⟩ :=
      fun _ _ hown => absurd hm (h.linked.own_unmapped hown)
    dsimp only
    rw [hturn]
    exact ⟨hcounted, (Turn.release_sound_iff hr (hs.removeFromMap d) hmem).mpr hsafe⟩

theorem Shared.Counted.clearNames {w : Shared} (h : w.Counted) (hs : w.store.Sound)
    (names : List String) :
    Counted { w with store := w.store.clearNames names } ∧ (w.store.clearNames names).Sound := by
  induction names generalizing w with
  | nil => exact ⟨h, hs⟩
  | cons name names ih =>
    obtain ⟨h', hs'⟩ := h.clearDevice hs name
    exact ih h' hs'

/-- `edgex_devmap_clear` on the map in memory: it releases the devices, and leaves the map empty.
    The references that are left are those that are held. -/
theorem devmap_clear {w : Shared} (h : w.Counted) (hs : w.store.Sound) {m : MapBase DeviceRef}
    (hm : m.Represents w.store.devices) :
    ∃ m' s', m.clear Store.deviceRelease w.store = some (m', s') ∧ m'.Represents ∅ ∧
      Shared.Counted { w with store := { s' with devices := ∅ } } ∧
      Store.Sound { s' with devices := ∅ } := by
  obtain ⟨t, hinv, hentries⟩ := hm
  obtain ⟨m', names, ds, hrun, hkeys, hds, hempty⟩ :=
    hinv.right.clear Store Store.deviceRelease w.store
  obtain ⟨names', hkeys', hnodup, -, hall⟩ := hinv.right.iterate
  obtain rfl : names = names' := Option.some.inj (hkeys.symm.trans hkeys')
  rw [hentries] at hds hall
  have hsame := Store.foldl_deviceRelease_devices w.store ds
  have herased : (names.foldl Store.eraseDevice (ds.foldl Store.deviceRelease w.store)).devices =
      ∅ := Store.foldl_eraseDevice_devices (hsame.symm ▸ hall)
  have hs' : w.store.clearNames names =
      { ds.foldl Store.deviceRelease w.store with devices := ∅ } := by
    rw [Store.clearNames_eq hnodup hds, Store.foldl_eraseDevice, herased]
  refine ⟨m', _, hrun, ?_, ?_⟩
  · obtain ⟨t', hinv'⟩ := hempty.inv
    refine ⟨t', hinv', ?_⟩
    funext name
    exact Option.some.inj ((hinv'.get_spec name).symm.trans (hempty.get name))
  · rw [← hs']
    exact h.clearNames hs names

end DeviceSdk
