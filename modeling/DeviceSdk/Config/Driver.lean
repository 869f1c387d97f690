import DeviceSdk.Config.Update

/-!
# The driver's own configuration

The elements of the driver stand among those of the service, under `Driver/` and, where they may
change at run time, under `Writable/Driver/`. `edgex_private_config_defaults` puts them there,
`edgex_device_populateConfig` takes them out again, and `edgex_device_updateConf` copies new
values and calls the driver's `reconfigure`.

## Main definitions

- `DriverWritable` — the keys of the driver that may change
- `Reconfigured`, `reconfigureCall` — what becomes of the call
- `DriverHonoured` — what an update should do for the driver

## Main results

- `driverconf_roundtrip` — the driver gets its own keys and values
- `updateDriver_spec` — the loop over the configuration map
- `driver_honoured_iff`
-/

namespace DeviceSdk

/-- A key of the driver's configuration that may change at run time. -/
def DriverWritable (key : String) : Prop := "Writable/".toList <+: key.toList

instance (key : String) : Decidable (DriverWritable key) := inferInstanceAs (Decidable (_ <+: _))

theorem driverWritable_iff {key : String} : DriverWritable key ↔ ∃ x, key = "Writable/" ++ x := by
  constructor
  · rintro ⟨t, ht⟩
    refine ⟨String.ofList t, ?_⟩
    rw [← String.toList_inj, ← ht]
    simp
  · rintro ⟨x, rfl⟩
    rw [DriverWritable, String.toList_append]
    exact List.prefix_append _ _

theorem driverKey_writable (x : String) :
    driverKey ("Writable/" ++ x) = "Writable/Driver/" ++ x := by
  have hw : "Writable/".toList <+: ("Writable/" ++ x).toList := driverWritable_iff.mpr ⟨x, rfl⟩
  have hdrop : ("Writable/" ++ x).toList.drop 9 = x.toList := by simp
  rw [driverKey, if_pos hw, hdrop, String.ofList_toList]
  rfl

theorem driverKey_fixed {key : String} (h : ¬DriverWritable key) :
    driverKey key = "Driver/" ++ key := if_neg h

/-- The keys of the service that the loops take for writable elements of the driver. -/
theorem driverWritableKey_eq_some {k n : String} :
    driverWritableKey k = some n ↔ DriverWritable n ∧ k = driverKey n := by
  rw [driverWritableKey, Option.map_eq_some_iff]
  constructor
  · rintro ⟨x, hx, rfl⟩
    rw [Text.behind_eq_some_iff] at hx
    exact ⟨driverWritable_iff.mpr ⟨x, rfl⟩, by rw [hx, driverKey_writable]⟩
  · rintro ⟨hw, rfl⟩
    obtain ⟨x, rfl⟩ := driverWritable_iff.mp hw
    exact ⟨x, by rw [driverKey_writable, Text.behind_append], rfl⟩

theorem driverEntry_driverKey (key : String) (v : IotData) :
    driverEntry (driverKey key, v) = some (key, v) := by
  rw [driverEntry]
  by_cases hw : DriverWritable key
  · obtain ⟨x, rfl⟩ := driverWritable_iff.mp hw
    have hnot : Text.behind "Driver/" (driverKey ("Writable/" ++ x)) = none := by
      rw [driverKey_writable, Text.behind, if_neg]
      simp [String.toList_append]
    rw [hnot, driverWritableKey_eq_some.mpr ⟨hw, rfl⟩]
    rfl
  · rw [driverKey_fixed hw, Text.behind_append]

theorem driverKey_injective : Function.Injective driverKey := by
  intro a b h
  have ha := driverEntry_driverKey a .null
  rw [h, driverEntry_driverKey b .null] at ha
  simpa using ha.symm

section RoundTrip

variable (lib : ConfigLib) (driver : IotMap)

theorem lookup_driverDefaultEntries (key : String) :
    (driverDefaultEntries (some driver.data)).lookup (driverKey key) = driver.lookup key := by
  show (driver.entries.map fun e => (driverKey e.1, e.2)).lookup (driverKey key) =
    driver.entries.lookup key
  induction driver.entries with
  | nil => rfl
  | cons e es ih =>
    rw [List.map_cons, List.lookup_cons_ite, ih, List.lookup_cons_ite]
    simp only [driverKey_injective.eq_iff]

theorem driverDefaultEntries_nodup :
    ((driverDefaultEntries (some driver.data)).map Prod.fst).Nodup := by
  have hmap : (driverDefaultEntries (some driver.data)).map Prod.fst =
      (driver.entries.map Prod.fst).map driverKey := by
    simp [driverDefaultEntries, IotMap.data]
  rw [hmap]
  exact driver.keys_nodup.map driverKey_injective

/-- No key of the service itself is one of the driver. -/
theorem driverEntry_privateDefault {e : String × IotData} (h : e ∈ privateDefaultEntries lib) :
    driverEntry e = none := by
  have hkeys : ∀ k ∈ (privateDefaultEntries lib).map Prod.fst,
      Text.behind "Driver/" k = none ∧ driverWritableKey k = none := by
    simp only [privateDefaultEntries, List.map_cons, List.map_nil]
    decide +kernel
  obtain ⟨hfixed, hwritable⟩ := hkeys e.1 (List.mem_map_of_mem h)
  rw [driverEntry, hfixed, hwritable]
  rfl

theorem privateDefaultEntries_nodup : ((privateDefaultEntries lib).map Prod.fst).Nodup := by
  simp only [privateDefaultEntries, List.map_cons, List.map_nil]
  decide +kernel

theorem lookup_privateConfigDefaults (k : String) :
    (privateConfigDefaults lib (some driver.data)).lookup k =
      ((driverDefaultEntries (some driver.data)).lookup k).or
        ((privateDefaultEntries lib).lookup k) := by
  rw [privateConfigDefaults, IotMap.lookup_addAll_of_nodup (driverDefaultEntries_nodup driver),
    IotMap.lookup_addAll_of_nodup (privateDefaultEntries_nodup lib)]
  simp [IotMap.lookup, IotMap.empty]

/-- An element of the driver, among those of the service. -/
theorem lookup_privateConfigDefaults_driverKey (key : String) :
    (privateConfigDefaults lib (some driver.data)).lookup (driverKey key) = driver.lookup key := by
  have hnone : (privateDefaultEntries lib).lookup (driverKey key) = none := by
    rw [Option.eq_none_iff_forall_ne_some]
    intro v hv
    have hmem := (List.lookup_eq_some_iff_mem (privateDefaultEntries_nodup lib)).mp hv
    have hentry := driverEntry_privateDefault lib hmem
    rw [driverEntry_driverKey] at hentry
    cases hentry
  rw [lookup_privateConfigDefaults, lookup_driverDefaultEntries, hnone, Option.or_none]

/-- The entries of the built-in configuration that are elements of the driver. -/
theorem privateConfigDefaults_driverEntry {e : String × IotData} {n : String} {v : IotData}
    (h : e ∈ (privateConfigDefaults lib (some driver.data)).entries)
    (hentry : driverEntry e = some (n, v)) : e = (driverKey n, v) := by
  obtain ⟨k, w⟩ := e
  rw [IotMap.mem_entries_iff, lookup_privateConfigDefaults, Option.or_eq_some_iff] at h
  cases h with
  | inl h =>
    rw [List.lookup_eq_some_iff_mem (driverDefaultEntries_nodup driver)] at h
    obtain ⟨f, -, hf⟩ := List.mem_map.mp h
    rw [← hf, driverEntry_driverKey] at hentry
    cases hentry
    exact hf.symm
  | inr h =>
    have hmem := (List.lookup_eq_some_iff_mem (privateDefaultEntries_nodup lib)).mp h.2
    rw [driverEntry_privateDefault lib hmem] at hentry
    cases hentry

/-- The driver gets its own keys and values back. -/
theorem driverconf_roundtrip (svc : ServiceState) (key : String) :
    (populateConfig svc (privateConfigDefaults lib (some driver.data))).config.driverconf.lookup
      key = driver.lookup key := by
  generalize hconf : privateConfigDefaults lib (some driver.data) = conf
  have hkey {e : String × IotData} {n : String} {v : IotData} (he : e ∈ conf.entries)
      (hentry : driverEntry e = some (n, v)) : e = (driverKey n, v) := by
    subst hconf
    exact privateConfigDefaults_driverEntry lib driver he hentry
  have hnodup : ((conf.entries.filterMap driverEntry).map Prod.fst).Nodup := by
    rw [List.Nodup, List.pairwise_map, List.pairwise_filterMap]
    refine conf.ordered.imp_of_mem ?_
    intro e f he hf hlt b hb c hc hbc
    rw [hkey he hb, hkey hf hc, hbc] at hlt
    exact lt_irrefl _ hlt
  show (IotMap.empty.addAll (conf.entries.filterMap driverEntry)).lookup key = driver.lookup key
  rw [IotMap.lookup_addAll_of_nodup hnodup, IotMap.lookup, IotMap.empty, List.lookup_nil,
    Option.or_none, ← lookup_privateConfigDefaults_driverKey lib, hconf]
  apply Option.ext
  intro v
  rw [List.lookup_eq_some_iff_mem hnodup, List.mem_filterMap, ← IotMap.mem_entries_iff]
  constructor
  · rintro ⟨e, he, hentry⟩
    rwa [← hkey he hentry]
  · intro he
    exact ⟨_, he, driverEntry_driverKey key v⟩

end RoundTrip

/-- The value that a key of the driver has once the entries have been seen. -/
def driverValue (m : IotMap) (entries : List (String × IotData)) (n : String) : Option IotData :=
  (m.lookup n).map fun v =>
    if DriverWritable n then (entries.lookup (driverKey n)).getD v else v

/-- Some entry has another value for a writable element of the driver. -/
def DriverChanges (m : IotMap) (entries : List (String × IotData)) : Prop :=
  ∃ n v w, DriverWritable n ∧ m.lookup n = some v ∧ entries.lookup (driverKey n) = some w ∧ w ≠ v

section Same

variable {m : IotMap} {k : String} {w : IotData}
  (h : ∀ l v, DriverWritable l → driverKey l = k → m.lookup l = some v → w = v)

include h

/-- An entry that has no other value for an element of the driver leaves it as it is. -/
theorem driverValue_of_same (l : String) : driverValue m [(k, w)] l = m.lookup l := by
  rw [driverValue]
  cases hl : m.lookup l with
  | none => rfl
  | some v =>
    rw [List.lookup_cons_ite, Option.map_some]
    split_ifs with hw hk
    · rw [h l v hw hk hl]
      rfl
    · rfl
    · rfl

theorem not_driverChanges_of_same : ¬DriverChanges m [(k, w)] := by
  rintro ⟨l, v, w', hw, hl, hw', hne⟩
  rw [List.lookup_cons_ite] at hw'
  split_ifs at hw' with hk
  · rw [← Option.some.inj hw'] at hne
    exact hne (h l v hw hk hl)
  · cases hw'

end Same

/-- One entry of the loop. -/
theorem updateDriverEntry_spec (m : IotMap) (b : Bool) (k : String) (w : IotData) :
    (∀ l, (updateDriverEntry (m, b) (k, w)).1.lookup l = driverValue m [(k, w)] l) ∧
      ((updateDriverEntry (m, b) (k, w)).2 = true ↔ b = true ∨ DriverChanges m [(k, w)]) := by
  have hsame (hr : updateDriverEntry (m, b) (k, w) = (m, b))
      (h : ∀ l v, DriverWritable l → driverKey l = k → m.lookup l = some v → w = v) :
      (∀ l, (updateDriverEntry (m, b) (k, w)).1.lookup l = driverValue m [(k, w)] l) ∧
        ((updateDriverEntry (m, b) (k, w)).2 = true ↔ b = true ∨ DriverChanges m [(k, w)]) := by
    rw [hr]
    exact ⟨fun l => (driverValue_of_same h l).symm,
      (or_iff_left (not_driverChanges_of_same h)).symm⟩
  cases hkey : driverWritableKey k with
  | none =>
    refine hsame (by simp [updateDriverEntry, hkey]) ?_
    rintro l v hw rfl -
    rw [driverWritableKey_eq_some.mpr ⟨hw, rfl⟩] at hkey
    cases hkey
  | some n =>
    obtain ⟨hn, rfl⟩ := driverWritableKey_eq_some.mp hkey
    cases hl : m.lookup n with
    | none =>
      refine hsame (by simp [updateDriverEntry, hkey, hl]) ?_
      intro l v _ hk hlv
      rw [driverKey_injective hk, hl] at hlv
      cases hlv
    | some v =>
      by_cases hv : v.equal w = true
      · refine hsame (by simp [updateDriverEntry, hkey, hl, hv]) ?_
        intro l v' _ hk hlv
        rw [driverKey_injective hk, hl] at hlv
        rw [← Option.some.inj hlv]
        exact ((IotData.equal_iff v w).mp hv).symm
      · have hne : w ≠ v := fun h => hv ((IotData.equal_iff v w).mpr h.symm)
        have hr : updateDriverEntry (m, b) (driverKey n, w) = (m.add n w, true) := by
          simp [updateDriverEntry, hkey, hl, hv]
        rw [hr]
        constructor
        · intro l
          rw [IotMap.lookup_add, driverValue, List.lookup_cons_ite]
          by_cases hln : l = n
          · subst hln
            simp [hl, hn]
          · have hk : driverKey l ≠ driverKey n := fun h => hln (driverKey_injective h)
            simp [hln, hk]
        · refine ⟨fun _ => .inr ⟨n, v, w, hn, hl, ?_, hne⟩, fun _ => rfl⟩
          rw [List.lookup_cons_ite, if_pos rfl]

section Cons

variable {m m' : IotMap} {k : String} {w : IotData} {es : List (String × IotData)}
  (hm' : ∀ l, m'.lookup l = driverValue m [(k, w)] l) (hnone : es.lookup k = none)

include hm' hnone

theorem driverValue_cons (l : String) : driverValue m' es l = driverValue m ((k, w) :: es) l := by
  rw [driverValue, hm', driverValue, driverValue, Option.map_map]
  congr 1
  funext v
  rw [Function.comp_apply, List.lookup_cons_ite, List.lookup_cons_ite]
  by_cases hw : DriverWritable l
  · by_cases hk : driverKey l = k
    · simp [hw, hk, hnone]
    · simp [hw, hk]
  · simp [hw]

theorem driverChanges_cons :
    DriverChanges m [(k, w)] ∨ DriverChanges m' es ↔ DriverChanges m ((k, w) :: es) := by
  constructor
  · rintro (⟨n, v, u, hn, hl, hu, hne⟩ | ⟨n, v, u, hn, hl, hu, hne⟩)
    · refine ⟨n, v, u, hn, hl, ?_, hne⟩
      rw [List.lookup_cons_ite] at hu ⊢
      split_ifs at hu ⊢ with hk
      · exact hu
      · cases hu
    · have hk : driverKey n ≠ k := by
        rintro rfl
        rw [hnone] at hu
        cases hu
      rw [hm', driverValue] at hl
      refine ⟨n, v, u, hn, ?_, ?_, hne⟩
      · simpa [List.lookup_cons_ite, hk] using hl
      · rw [List.lookup_cons_ite, if_neg hk]
        exact hu
  · rintro ⟨n, v, u, hn, hl, hu, hne⟩
    rw [List.lookup_cons_ite] at hu
    split_ifs at hu with hk
    · exact .inl ⟨n, v, u, hn, hl, by rw [List.lookup_cons_ite, if_pos hk, hu], hne⟩
    · refine .inr ⟨n, v, u, hn, ?_, hu, hne⟩
      rw [hm', driverValue, hl]
      simp [List.lookup_cons_ite, hk]

end Cons

/-- The loop of `edgex_device_updateConf` over the entries of a map. -/
theorem updateDriver_spec {entries : List (String × IotData)}
    (hnodup : (entries.map Prod.fst).Nodup) (m : IotMap) (b : Bool) :
    (∀ l, (entries.foldl updateDriverEntry (m, b)).1.lookup l = driverValue m entries l) ∧
      ((entries.foldl updateDriverEntry (m, b)).2 = true ↔ b = true ∨ DriverChanges m entries) := by
  induction entries generalizing m b with
  | nil => simp [driverValue, DriverChanges]
  | cons e es ih =>
    obtain ⟨k, w⟩ := e
    obtain ⟨hk, hes⟩ := List.nodup_cons.mp hnodup
    have hnone : es.lookup k = none := by
      by_contra h
      obtain ⟨f, hf, rfl⟩ := List.exists_mem_of_lookup_ne_none h
      exact hk (List.mem_map.mpr ⟨f, hf, rfl⟩)
    obtain ⟨hlook, hset⟩ := updateDriverEntry_spec m b k w
    obtain ⟨hval, hflag⟩ := ih hes (updateDriverEntry (m, b) (k, w)).1
      (updateDriverEntry (m, b) (k, w)).2
    rw [List.foldl_cons]
    refine ⟨fun l => ?_, ?_⟩
    · rw [hval, driverValue_cons hlook hnone]
    · rw [hflag, hset, or_assoc, driverChanges_cons hlook hnone]

-- ════════════════════════════════════════════════════════════════════════
-- Updates
-- ════════════════════════════════════════════════════════════════════════

/-- What becomes of the call of the driver's `reconfigure`. -/
inductive Reconfigured
  | notCalled
  | called (driverconf : IotMap)
  /-- The call went through the null pointer of a driver that has registered none. -/
  | nullPointer

/-- The end of `edgex_device_updateConf`, which does not test the pointer. -/
def reconfigureCall (registered : Bool) (u : ConfUpdated) : Reconfigured :=
  match u.driver with
  | none => .notCalled
  | some driverconf => if registered then .called driverconf else .nullPointer

section Update

variable (lib : ConfigLib) (registered : Bool) (startup : IotMap) (svc : ServiceState)
  (pairs : NvPairs)

/-- A service after an update. -/
def afterUpdate : ServiceState := (updateConf lib svc pairs).svc

/-- Some writable element of the driver has another value after the update. -/
def DriverChanged : Prop :=
  ∃ key, DriverWritable key ∧
    (afterUpdate lib svc pairs).config.driverconf.lookup key ≠ svc.config.driverconf.lookup key

/-- What an update should do for a driver that was started with the map `startup`. -/
structure DriverHonoured : Prop where
  fixed : ∀ key, ¬DriverWritable key →
    (afterUpdate lib svc pairs).config.driverconf.lookup key = startup.lookup key
  tracked : ∀ key, DriverWritable key → startup.lookup key ≠ none →
    (afterUpdate lib svc pairs).config.driverconf.lookup key ≠ none ∧
      (afterUpdate lib svc pairs).config.driverconf.lookup key =
        (afterUpdate lib svc pairs).config.sdkconf.lookup (driverKey key)
  absent : ∀ key, startup.lookup key = none →
    (afterUpdate lib svc pairs).config.driverconf.lookup key = none
  notified : registered = true → DriverChanged lib svc pairs →
    reconfigureCall registered (updateConf lib svc pairs) =
      .called (afterUpdate lib svc pairs).config.driverconf
  spared : ¬(registered = true ∧ DriverChanged lib svc pairs) →
    reconfigureCall registered (updateConf lib svc pairs) = .notCalled

/-- A pair of the update has another value for a writable element of the driver. -/
def Disturbs : Prop :=
  ∃ key v, DriverWritable key ∧ svc.config.driverconf.lookup key = some v ∧
    (nvSource lib pairs (driverKey key)).override v ≠ v

/-- What the driver's map and the service's have to do with each other. -/
structure DriverTracked : Prop where
  fixed : ∀ key, ¬DriverWritable key → svc.config.driverconf.lookup key = startup.lookup key
  tracked : ∀ key, DriverWritable key → startup.lookup key ≠ none →
    svc.config.driverconf.lookup key ≠ none ∧
      svc.config.driverconf.lookup key = svc.config.sdkconf.lookup (driverKey key)
  absent : ∀ key, startup.lookup key = none → svc.config.driverconf.lookup key = none

theorem afterUpdate_sdkconf_lookup (key : String) :
    (afterUpdate lib svc pairs).config.sdkconf.lookup (driverKey key) =
      (svc.config.sdkconf.lookup (driverKey key)).map
        (nvSource lib pairs (driverKey key)).override := by
  rw [afterUpdate, updateConf_sdkconf]
  exact lookup_overrideConfigNvpairs (not_insecureKey_driverKey key) lib svc.config.sdkconf pairs

/-- The loop, in an update. -/
theorem afterUpdate_driverconf_lookup (key : String) :
    (afterUpdate lib svc pairs).config.driverconf.lookup key =
      driverValue svc.config.driverconf (afterUpdate lib svc pairs).config.sdkconf.entries key := by
  rw [afterUpdate, updateConf_sdkconf]
  exact (updateDriver_spec (overrideConfigNvpairs lib svc.config.sdkconf pairs).keys_nodup
    svc.config.driverconf false).1 key

/-- The call is made where the loop has replaced a value, with the map as it left it. -/
theorem reconfigureCall_updateConf :
    (DriverChanges svc.config.driverconf (afterUpdate lib svc pairs).config.sdkconf.entries →
      reconfigureCall registered (updateConf lib svc pairs) =
        if registered then .called (afterUpdate lib svc pairs).config.driverconf
        else .nullPointer) ∧
    (¬DriverChanges svc.config.driverconf (afterUpdate lib svc pairs).config.sdkconf.entries →
      reconfigureCall registered (updateConf lib svc pairs) = .notCalled) := by
  have hflag := (updateDriver_spec (overrideConfigNvpairs lib svc.config.sdkconf pairs).keys_nodup
    svc.config.driverconf false).2
  simp only [Bool.false_eq_true, false_or] at hflag
  have hdriver : (updateConf lib svc pairs).driver =
      if ((overrideConfigNvpairs lib svc.config.sdkconf pairs).entries.foldl updateDriverEntry
        (svc.config.driverconf, false)).2 then
        some (afterUpdate lib svc pairs).config.driverconf else none := rfl
  rw [reconfigureCall, hdriver, afterUpdate, updateConf_sdkconf]
  constructor
  · intro h
    rw [if_pos (hflag.mpr h)]
  · intro h
    rw [if_neg (fun hf => h (hflag.mp hf))]

variable {startup svc}

theorem DriverTracked.update (h : DriverTracked startup svc) :
    DriverTracked startup (afterUpdate lib svc pairs) := by
  refine ⟨?_, ?_, ?_⟩
  · intro key hw
    rw [afterUpdate_driverconf_lookup, driverValue, ← h.fixed key hw]
    simp [hw]
  · intro key hw hs
    obtain ⟨hne, heq⟩ := h.tracked key hw hs
    obtain ⟨v, hv⟩ := Option.ne_none_iff_exists'.mp hne
    have hsdk := afterUpdate_sdkconf_lookup lib svc pairs key
    rw [← heq, hv, Option.map_some] at hsdk
    rw [afterUpdate_driverconf_lookup, driverValue, hv, hsdk]
    rw [IotMap.lookup] at hsdk
    simp [hw, hsdk]
  · intro key hs
    have hnone := h.absent key hs
    rw [afterUpdate_driverconf_lookup, driverValue, hnone]
    rfl

/-- The value that the service's map gets for a writable element of the driver. -/
theorem DriverTracked.lookup_after (h : DriverTracked startup svc) {key : String} {v : IotData}
    (hw : DriverWritable key) (hv : svc.config.driverconf.lookup key = some v) :
    (afterUpdate lib svc pairs).config.sdkconf.lookup (driverKey key) =
      some ((nvSource lib pairs (driverKey key)).override v) := by
  have hs : startup.lookup key ≠ none := by
    intro hs
    rw [h.absent key hs] at hv
    cases hv
  rw [afterUpdate_sdkconf_lookup, ← (h.tracked key hw hs).2, hv, Option.map_some]

theorem driverChanges_iff_disturbs (h : DriverTracked startup svc) :
    DriverChanges svc.config.driverconf (afterUpdate lib svc pairs).config.sdkconf.entries ↔
      Disturbs lib svc pairs := by
  constructor
  · rintro ⟨key, v, w, hw, hv, hl, hne⟩
    have hafter := h.lookup_after lib pairs hw hv
    rw [IotMap.lookup, hl] at hafter
    rw [Option.some.inj hafter] at hne
    exact ⟨key, v, hw, hv, hne⟩
  · rintro ⟨key, v, hw, hv, hne⟩
    exact ⟨key, v, _, hw, hv, h.lookup_after lib pairs hw hv, hne⟩

theorem driverChanged_iff :
    DriverChanged lib svc pairs ↔
      DriverChanges svc.config.driverconf (afterUpdate lib svc pairs).config.sdkconf.entries := by
  simp only [DriverChanged, DriverChanges, afterUpdate_driverconf_lookup, driverValue]
  refine exists_congr fun key => ?_
  constructor
  · rintro ⟨hw, hne⟩
    cases hv : svc.config.driverconf.lookup key with
    | none => simp [hv] at hne
    | some v =>
      cases hl : (afterUpdate lib svc pairs).config.sdkconf.entries.lookup (driverKey key) with
      | none => simp [hv, hl] at hne
      | some w => exact ⟨v, w, hw, rfl, rfl, by simpa [hv, hl, hw] using hne⟩
  · rintro ⟨v, w, hw, hv, hl, hne⟩
    exact ⟨hw, by simpa [hv, hl, hw] using hne⟩

/-- An update does what it should exactly where there is a function to call, or nothing to call
    it for. -/
theorem driverHonoured_iff (h : DriverTracked startup svc) :
    DriverHonoured lib registered startup svc pairs ↔
      (registered = true ∨ ¬Disturbs lib svc pairs) := by
  obtain ⟨hcall, hspare⟩ := reconfigureCall_updateConf lib registered svc pairs
  rw [← driverChanged_iff] at hcall hspare
  rw [← driverChanges_iff_disturbs lib pairs h, ← driverChanged_iff]
  have hafter := h.update lib pairs
  cases registered with
  | true =>
    refine ⟨fun _ => .inl rfl, fun _ => ⟨hafter.fixed, hafter.tracked, hafter.absent, ?_, ?_⟩⟩
    · exact fun _ hc => hcall hc
    · exact fun hn => hspare fun hc => hn ⟨rfl, hc⟩
  | false =>
    constructor
    · intro hh
      refine .inr fun hc => ?_
      have hnull := hh.spared (by simp)
      rw [hcall hc] at hnull
      cases hnull
    · rintro (hr | hn)
      · cases hr
      · refine ⟨hafter.fixed, hafter.tracked, hafter.absent, ?_, fun _ => hspare hn⟩
        intro hr
        cases hr

end Update

/-- A service that was started with the built-in configuration for a driver. -/
def startedWith (lib : ConfigLib) (svc : ServiceState) (driver : IotMap) : ServiceState :=
  populateConfig svc (privateConfigDefaults lib (some driver.data))

theorem startedWith_tracked (lib : ConfigLib) (svc : ServiceState) (driver : IotMap) :
    DriverTracked driver (startedWith lib svc driver) := by
  have hround := driverconf_roundtrip lib driver svc
  refine ⟨fun key _ => hround key, fun key _ hs => ?_, fun key hs => (hround key).trans hs⟩
  have hsdk : (startedWith lib svc driver).config.sdkconf =
      privateConfigDefaults lib (some driver.data) := rfl
  rw [hsdk, lookup_privateConfigDefaults_driverKey, startedWith, hround]
  exact ⟨hs, rfl⟩

/-- A driver gets its own configuration back, and the updates from the registry do for it what
    they should exactly where it has registered a `reconfigure` or none of them has another value
    for one of its writable elements. -/
theorem driver_honoured_iff (lib : ConfigLib) (svc : ServiceState) (driver : IotMap)
    (registered : Bool) (updates : List NvPairs) :
    (∀ key, (startedWith lib svc driver).config.driverconf.lookup key = driver.lookup key) ∧
      (Run.Meets (afterUpdate lib) (DriverHonoured lib registered driver)
          (startedWith lib svc driver) updates ↔
        registered = true ∨ Run.Meets (afterUpdate lib) (fun s u => ¬Disturbs lib s u)
          (startedWith lib svc driver) updates) := by
  refine ⟨driverconf_roundtrip lib driver svc, ?_⟩
  rw [Run.meets_congr (I := DriverTracked driver) (fun s u h => h.update lib u)
    (fun s u h => driverHonoured_iff lib registered u h) (startedWith_tracked lib svc driver)]
  cases registered with
  | true => exact ⟨fun _ => .inl rfl, fun _ => Run.meets_of_forall (fun _ _ => .inl rfl) _ _⟩
  | false => simp

/-- A driver with one element, which may change at run time. -/
def rateDriver : IotMap := IotMap.empty.add "Writable/Rate" (.string "1")

/-- A driver without a `reconfigure` is called through a null pointer. -/
theorem unregistered_reconfigure_called :
    ¬∀ (lib : ConfigLib) (svc : ServiceState) (driver : IotMap) (registered : Bool)
      (updates : List NvPairs),
      (∀ key, (startedWith lib svc driver).config.driverconf.lookup key = driver.lookup key) ∧
        Run.Meets (afterUpdate lib) (DriverHonoured lib registered driver)
          (startedWith lib svc driver) updates := by
  intro h
  obtain ⟨hround, hhonoured, -⟩ :=
    h textConfigLib freshService rateDriver false [[("Writable/Driver/Rate", "2")]]
  have hquiet := (driverHonoured_iff textConfigLib false _
    (startedWith_tracked textConfigLib freshService rateDriver)).mp hhonoured
  rcases hquiet with hr | hquiet
  · cases hr
  · refine hquiet ⟨"Writable/Rate", .string "1", by decide, hround _, ?_⟩
    decide

end DeviceSdk
