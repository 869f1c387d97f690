import DeviceSdk.Config.Populate
import DeviceSdk.Config.Start
import DeviceSdk.Lib.Run

/-!
# Configuration updates

The updates that the registry sends while the service runs, in any order. Both callbacks
override the whole configuration map, and each derives only a part of the live state from it
again, so that the two can drift apart.

## Main definitions

- `ConfUpdate` — an update of the common or of the private configuration
- `ServiceState.InStep` — the live state is the one the configuration map asks for
- `ConfUpdate.Keeps` — the updates that leave the two in step

## Main results

- `updates_inStep_iff` — the live state follows the map along a run exactly when every
  update of it meets that condition
-/

namespace DeviceSdk

/-- An update from the registry. -/
inductive ConfUpdate
  | common (pairs : NvPairs)
  | priv (pairs : NvPairs)

/-- The names and values of an update. -/
def ConfUpdate.pairs : ConfUpdate → NvPairs
  | .common pairs => pairs
  | .priv pairs => pairs

/-- The service after an update. -/
def ServiceState.update (lib : ConfigLib) (svc : ServiceState) : ConfUpdate → ServiceState
  | .common pairs => updateCommonConf lib svc pairs
  | .priv pairs => (updateConf lib svc pairs).svc

/-- Whether the bit of a metric is set. -/
def Metric.Flagged (m : Metric) (flags : BitVec 64) : Prop := flags &&& m.mask ≠ 0#64

instance (m : Metric) (flags : BitVec 64) : Decidable (m.Flagged flags) :=
  inferInstanceAs (Decidable (_ ≠ _))

/-- The discovery period that two entries of a configuration map ask for. -/
def mapPeriod (enabled interval : Option IotData) : Option (BitVec 64) :=
  PeriodicDiscovery.period (dataBool enabled) ((dataUint 32 interval).setWidth 64)

/-- Every metric has its bit exactly when its entry is true, and a driver with discovery has a
    schedule exactly when discovery is enabled with an interval above zero, which is then its
    period. -/
def ServiceState.InStep (svc : ServiceState) : Prop :=
  (∀ m : Metric, m.Flagged svc.config.metrics.flags ↔
    dataBool (svc.config.sdkconf.lookup m.key) = true) ∧
  (svc.discovery.discfn = true → ∀ p, svc.discovery.schedule = some p ↔
    dataBool (svc.config.sdkconf.lookup "Device/Discovery/Enabled") = true ∧
      ∃ i : BitVec 32, dataUint 32 (svc.config.sdkconf.lookup "Device/Discovery/Interval") = i ∧
        0 < i ∧ p = secToNs (i.setWidth 64))

/-- The entry of a key after an update, by the values that the update offers. -/
def ServiceState.entryAfter (lib : ConfigLib) (svc : ServiceState) (u : ConfUpdate) (key : String) :
    Option IotData :=
  (svc.config.sdkconf.lookup key).map (nvSource lib u.pairs key).override

/-- The update asks for no other discovery schedule. -/
def ConfUpdate.Steady (lib : ConfigLib) (svc : ServiceState) (u : ConfUpdate) : Prop :=
  svc.discovery.discfn = true →
    mapPeriod (svc.entryAfter lib u "Device/Discovery/Enabled")
        (svc.entryAfter lib u "Device/Discovery/Interval") =
      mapPeriod (svc.config.sdkconf.lookup "Device/Discovery/Enabled")
        (svc.config.sdkconf.lookup "Device/Discovery/Interval")

/-- An update of the common configuration comes while the metric of read commands is off, and
    an update of the private configuration at most turns that metric on. Neither asks for
    another discovery schedule. -/
def ConfUpdate.Keeps (lib : ConfigLib) (svc : ServiceState) : ConfUpdate → Prop
  | .common pairs =>
    dataBool (svc.entryAfter lib (.common pairs) Metric.rdcmds.key) = false ∧
      ConfUpdate.Steady lib svc (.common pairs)
  | .priv pairs =>
    (∀ m : Metric, m ≠ .rdcmds →
      dataBool (svc.entryAfter lib (.priv pairs) m.key) =
        dataBool (svc.config.sdkconf.lookup m.key)) ∧
      (dataBool (svc.config.sdkconf.lookup Metric.rdcmds.key) = true →
        dataBool (svc.entryAfter lib (.priv pairs) Metric.rdcmds.key) = true) ∧
      ConfUpdate.Steady lib svc (.priv pairs)

theorem flagged_addFlag (map : IotMap) (flags : BitVec 64) (m n : Metric) :
    m.Flagged (addFlag map flags n) ↔ m.Flagged flags ∨ (m = n ∧ metricOn map n = true) := by
  rw [addFlag]
  cases metricOn map n with
  | false => simp
  | true =>
    have hmask : n.mask &&& m.mask = 0#64 ↔ m ≠ n := by
      cases m <;> cases n <;> decide
    rw [if_pos rfl, Metric.Flagged, Metric.Flagged, BitVec.and_or_distrib_right, ne_eq,
      BitVec.or_eq_zero_iff, hmask]
    tauto

/-- The common part of the configuration sets every bit anew, and that of the read commands is
    never among them. -/
theorem flagged_populateCommon (config : DeviceConfig) (map : IotMap) (m : Metric) :
    m.Flagged (populateCommonConfigFromMap config map).metrics.flags ↔
      m ≠ .rdcmds ∧ metricOn map m = true := by
  have hfirst : m.Flagged (if metricOn map .evsent then Metric.evsent.mask else 0) ↔
      m = .evsent ∧ metricOn map .evsent = true := by
    cases metricOn map .evsent <;> cases m <;> decide
  show m.Flagged (addFlag map (addFlag map (addFlag map _ .rdgsent) .secreq) .secsto) ↔ _
  rw [flagged_addFlag, flagged_addFlag, flagged_addFlag, hfirst]
  cases m <;> simp

theorem flagged_populate (config : DeviceConfig) (map : IotMap) (m : Metric) :
    m.Flagged (populateConfigFromMap config map).metrics.flags ↔
      m.Flagged config.metrics.flags ∨ (m = .rdcmds ∧ metricOn map .rdcmds = true) :=
  flagged_addFlag map config.metrics.flags m .rdcmds

theorem mapPeriod_eq_some_iff (enabled interval : Option IotData) (p : BitVec 64) :
    mapPeriod enabled interval = some p ↔
      dataBool enabled = true ∧
        ∃ i : BitVec 32, dataUint 32 interval = i ∧ 0 < i ∧ p = secToNs (i.setWidth 64) := by
  have hpos : (dataUint 32 interval).setWidth 64 ≠ 0#64 ↔ 0 < dataUint 32 interval := by
    generalize dataUint 32 interval = i
    rw [ne_eq, ← BitVec.toNat_inj, BitVec.lt_def, BitVec.toNat_setWidth]
    have hlt := i.isLt
    simp
    omega
  rw [mapPeriod, PeriodicDiscovery.period]
  constructor
  · intro h
    split at h
    next hc =>
      rw [Bool.and_eq_true, bne_iff_ne] at hc
      exact ⟨hc.1, _, rfl, hpos.mp hc.2, (Option.some_inj.mp h).symm⟩
    next => cases h
  · rintro ⟨he, i, rfl, hi, rfl⟩
    rw [if_pos]
    rw [Bool.and_eq_true, bne_iff_ne]
    exact ⟨he, hpos.mpr hi⟩

/-- The second half of `ServiceState.InStep`, as an equation. -/
theorem scheduled_iff (schedule : Option (BitVec 64)) (enabled interval : Option IotData) :
    (∀ p, schedule = some p ↔
      dataBool enabled = true ∧
        ∃ i : BitVec 32, dataUint 32 interval = i ∧ 0 < i ∧ p = secToNs (i.setWidth 64)) ↔
      schedule = mapPeriod enabled interval := by
  simp only [← mapPeriod_eq_some_iff]
  constructor
  · exact Option.ext
  · rintro rfl p
    exact Iff.rfl

/-- The live state in terms of the entries of the map. -/
theorem inStep_iff (svc : ServiceState) :
    svc.InStep ↔
      (∀ m : Metric, m.Flagged svc.config.metrics.flags ↔
        metricOn svc.config.sdkconf m = true) ∧
      (svc.discovery.discfn = true → svc.discovery.schedule =
        mapPeriod (svc.config.sdkconf.lookup "Device/Discovery/Enabled")
          (svc.config.sdkconf.lookup "Device/Discovery/Interval")) := by
  rw [ServiceState.InStep, scheduled_iff]
  rfl

/-- The schedule is the one that the record asks for. -/
def ServiceState.Scheduled (svc : ServiceState) : Prop :=
  svc.discovery.discfn = true → svc.discovery.schedule =
    PeriodicDiscovery.period svc.config.device.discoveryEnabled
      (svc.config.device.discoveryInterval.setWidth 64)

theorem scheduled_configureDiscovery (svc : ServiceState) : (configureDiscovery svc).Scheduled :=
  fun h => PeriodicDiscovery.configure_schedule (d := svc.discovery)
    ((PeriodicDiscovery.configure_discfn _ _ _).symm.trans h) _ _

section

variable (lib : ConfigLib) (svc : ServiceState)

theorem lookup_overridden (u : ConfUpdate) {key : String} (hk : ¬ InsecureKey key) :
    (overrideConfigNvpairs lib svc.config.sdkconf u.pairs).lookup key = svc.entryAfter lib u key :=
  lookup_overrideConfigNvpairs hk lib _ _

theorem Metric.not_insecureKey (m : Metric) : ¬ InsecureKey m.key := by
  cases m <;> decide +kernel

theorem metricOn_overridden (u : ConfUpdate) (m : Metric) :
    metricOn (overrideConfigNvpairs lib svc.config.sdkconf u.pairs) m =
      dataBool (svc.entryAfter lib u m.key) := by
  rw [metricOn, lookup_overridden lib svc u m.not_insecureKey]

theorem mapPeriod_overridden (u : ConfUpdate) :
    mapPeriod
        ((overrideConfigNvpairs lib svc.config.sdkconf u.pairs).lookup "Device/Discovery/Enabled")
        ((overrideConfigNvpairs lib svc.config.sdkconf u.pairs).lookup "Device/Discovery/Interval") =
      mapPeriod (svc.entryAfter lib u "Device/Discovery/Enabled")
        (svc.entryAfter lib u "Device/Discovery/Interval") := by
  rw [lookup_overridden lib svc u (by decide +kernel),
    lookup_overridden lib svc u (by decide +kernel)]

theorem updateCommonConf_config (pairs : NvPairs) :
    (updateCommonConf lib svc pairs).config =
      populateCommonConfigFromMap
        { svc.config with sdkconf := overrideConfigNvpairs lib svc.config.sdkconf pairs }
        (overrideConfigNvpairs lib svc.config.sdkconf pairs) := by
  simp only [updateCommonConf]
  split <;> rfl

theorem updateCommonConf_discovery (pairs : NvPairs) :
    (updateCommonConf lib svc pairs).discovery = svc.discovery := by
  simp only [updateCommonConf]
  split <;> rfl

/-- An update of the common configuration clears the bit of the read commands, and leaves the
    schedule alone. -/
theorem updateCommonConf_inStep_iff (hp : svc.InStep) (pairs : NvPairs) :
    (updateCommonConf lib svc pairs).InStep ↔ (ConfUpdate.common pairs).Keeps lib svc := by
  obtain ⟨-, hsched⟩ := (inStep_iff svc).mp hp
  have hmap : (updateCommonConf lib svc pairs).config.sdkconf =
      overrideConfigNvpairs lib svc.config.sdkconf (ConfUpdate.common pairs).pairs := by
    rw [updateCommonConf_config]
    rfl
  rw [inStep_iff, updateCommonConf_discovery, hmap, mapPeriod_overridden, ConfUpdate.Keeps,
    ConfUpdate.Steady]
  refine and_congr ?_ ?_
  · simp only [updateCommonConf_config, flagged_populateCommon]
    constructor
    · intro h
      have hr := h .rdcmds
      rw [metricOn_overridden] at hr
      exact Bool.eq_false_iff.mpr fun hon => (hr.mpr hon).1 rfl
    · intro hoff m
      by_cases hm : m = .rdcmds
      · subst hm
        rw [metricOn_overridden, hoff]
        simp
      · simp only [ne_eq, hm, not_false_eq_true, true_and]
        rfl
  · refine forall_congr' fun hd => ?_
    rw [hsched hd, eq_comm]

theorem updateConf_sdkconf (pairs : NvPairs) :
    (updateConf lib svc pairs).svc.config.sdkconf =
      overrideConfigNvpairs lib svc.config.sdkconf (ConfUpdate.priv pairs).pairs := rfl

theorem flagged_updateConf (pairs : NvPairs) (m : Metric) :
    m.Flagged (updateConf lib svc pairs).svc.config.metrics.flags ↔
      m.Flagged svc.config.metrics.flags ∨
        (m = .rdcmds ∧ dataBool (svc.entryAfter lib (.priv pairs) Metric.rdcmds.key) = true) := by
  rw [← metricOn_overridden]
  exact flagged_populate { svc.config with sdkconf := _ } _ m

/-- The schedule is made for the setting that the record had before. -/
theorem updateConf_scheduled (pairs : NvPairs) : (updateConf lib svc pairs).svc.Scheduled :=
  scheduled_configureDiscovery
    { svc with config := { populateConfigFromMap _ _ with loglevel := _ } }

theorem updateConf_discfn (pairs : NvPairs) :
    (updateConf lib svc pairs).svc.discovery.discfn = svc.discovery.discfn :=
  PeriodicDiscovery.configure_discfn _ _ _

theorem updateConf_schedule (hs : svc.Scheduled) (hd : svc.discovery.discfn = true)
    (pairs : NvPairs) :
    (updateConf lib svc pairs).svc.discovery.schedule = svc.discovery.schedule := by
  rw [hs hd]
  exact updateConf_scheduled lib svc pairs ((updateConf_discfn lib svc pairs).trans hd)

/-- An update of the private configuration only ever adds the bit of the read commands, and
    keeps the schedule. -/
theorem updateConf_inStep_iff (hs : svc.Scheduled) (hp : svc.InStep) (pairs : NvPairs) :
    (updateConf lib svc pairs).svc.InStep ↔ (ConfUpdate.priv pairs).Keeps lib svc := by
  obtain ⟨hflags, hsched⟩ := (inStep_iff svc).mp hp
  rw [inStep_iff, updateConf_sdkconf, mapPeriod_overridden, updateConf_discfn, ConfUpdate.Keeps,
    ConfUpdate.Steady, ← and_assoc]
  refine and_congr ?_ ?_
  · simp only [flagged_updateConf, hflags, metricOn_overridden]
    constructor
    · intro h
      refine ⟨?_, ?_⟩
      · intro m hm
        have hm' := h m
        simp only [hm, false_and, or_false] at hm'
        exact (Bool.eq_iff_iff.mpr hm').symm
      · intro hon
        exact (h .rdcmds).mp (Or.inl hon)
    · rintro ⟨hothers, hread⟩ m
      by_cases hm : m = .rdcmds
      · subst hm
        constructor
        · rintro (hon | ⟨-, hon⟩)
          · exact hread hon
          · exact hon
        · exact fun hon => Or.inr ⟨rfl, hon⟩
      · simp only [hm, false_and, or_false]
        rw [hothers m hm]
        rfl
  · refine forall_congr' fun hd => ?_
    rw [updateConf_schedule lib svc hs hd, hsched hd, eq_comm]

/-- While the live state follows the map, the schedule is the one that the record asks for. -/
theorem update_scheduled (u : ConfUpdate) (hp : (svc.update lib u).InStep) :
    (svc.update lib u).Scheduled := by
  cases u with
  | common pairs =>
    intro hd
    rw [((inStep_iff _).mp hp).2 hd]
    show _ = PeriodicDiscovery.period
      (updateCommonConf lib svc pairs).config.device.discoveryEnabled
      ((updateCommonConf lib svc pairs).config.device.discoveryInterval.setWidth 64)
    rw [ServiceState.update, updateCommonConf_config]
    rfl
  | priv pairs => exact updateConf_scheduled lib svc pairs

/-- A single update leaves the live state in step exactly when it is one that `Keeps` allows. -/
theorem update_inStep_iff (hs : svc.Scheduled) (hp : svc.InStep) (u : ConfUpdate) :
    (svc.update lib u).InStep ↔ u.Keeps lib svc := by
  cases u with
  | common pairs => exact updateCommonConf_inStep_iff lib svc hp pairs
  | priv pairs => exact updateConf_inStep_iff lib svc hs hp pairs

end

-- ════════════════════════════════════════════════════════════════════════
-- Runs
-- ════════════════════════════════════════════════════════════════════════

theorem configured_scheduled (svc : ServiceState) (configmap : IotMap) :
    (configured svc configmap).Scheduled :=
  scheduled_configureDiscovery (populateConfig svc configmap)

theorem configured_inStep (svc : ServiceState) (configmap : IotMap) :
    (configured svc configmap).InStep := by
  rw [inStep_iff]
  refine ⟨?_, configured_scheduled svc configmap⟩
  intro m
  have h := flagged_populate (populateCommonConfigFromMap { svc.config with
    sdkconf := configmap
    driverconf := IotMap.empty.addAll (configmap.entries.filterMap driverEntry) } configmap)
    configmap m
  rw [flagged_populateCommon] at h
  refine h.trans ?_
  show _ ↔ metricOn configmap m = true
  by_cases hm : m = .rdcmds
  · simp [hm]
  · simp [hm]

/-- From the start of the service on, and whatever the registry sends in whatever order: the
    metrics and the discovery schedule are the ones that the configuration map asks for, in
    every state, exactly when every update is one that `Keeps` allows. -/
theorem updates_inStep_iff (lib : ConfigLib) (svc : ServiceState) (configmap : IotMap)
    (us : List ConfUpdate) :
    Run.Always (ServiceState.update lib) ServiceState.InStep (configured svc configmap) us ↔
      Run.Meets (ServiceState.update lib) (fun s u => u.Keeps lib s) (configured svc configmap) us :=
  Run.always_iff_meets (I := ServiceState.Scheduled)
    (fun s u _ _ hp => update_scheduled lib s u hp)
    (fun s u hs hp => update_inStep_iff lib s hs hp u)
    (configured_scheduled svc configmap) (configured_inStep svc configmap) us

/-- A service before its configuration is put in place, for a driver with discovery. -/
def freshService : ServiceState where
  config :=
    { service := ⟨none, 0, [], none, 0, none, none, 0⟩
      device := { datatransform := false }
      metrics := ⟨0, none, none⟩
      loglevel := .warning
      driverconf := IotMap.empty
      sdkconf := IotMap.empty }
  discovery := ⟨true, none, 0, fun _ h => nomatch h⟩
  metricschedule := none
  secretstore := true

/-- The built-in configuration, with the metric of the read commands turned on. -/
def readCommandsOn : IotMap :=
  ((commonConfigDefaults sampleConfigLib "device-virtual").merge
    (privateConfigDefaults sampleConfigLib none)).add Metric.rdcmds.key (.bool true)

/-- Any update of the common configuration turns that metric off. -/
theorem common_update_clears_read_commands :
    ¬ ∀ (lib : ConfigLib) (svc : ServiceState) (configmap : IotMap) (us : List ConfUpdate),
      Run.Always (ServiceState.update lib) ServiceState.InStep (configured svc configmap) us := by
  intro h
  have hrun := h sampleConfigLib freshService readCommandsOn [.common [("Device/MaxCmdOps", "5")]]
  have hkeeps := (update_inStep_iff sampleConfigLib _ (configured_scheduled _ _)
    (configured_inStep _ _) (.common [("Device/MaxCmdOps", "5")])).mp hrun.2
  have hafter : (configured freshService readCommandsOn).entryAfter sampleConfigLib
      (.common [("Device/MaxCmdOps", "5")]) Metric.rdcmds.key = some (.bool true) := by
    show (readCommandsOn.lookup Metric.rdcmds.key).map _ = _
    rw [readCommandsOn, IotMap.lookup_add, if_pos rfl]
    rfl
  have hoff := hkeeps.1
  rw [hafter] at hoff
  cases hoff

end DeviceSdk
