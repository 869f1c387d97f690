import DeviceSdk.Config.Override

/-!
# Configuration at start-up

The part of `devsdk_service_start` that puts the configuration of the service together, up to
the map that is handed to `edgex_device_populateConfig`. Without a registry the common
configuration comes from a file, and is applied before the private file; with one it comes
from the registry, and is applied to what the files and the environment already settled.

## Main definitions

- `Startup` — what `devsdk_service_start` finds
- `serviceStart` — the maps it builds
- `Startup.priority` — the sources of a key, in order of priority

## Main results

- `start_ranked_iff` — the keys that get their value from the first source that has one
-/

namespace DeviceSdk

open IotData (stringMapGet)

/-- The registry that a service was told to use. -/
structure RegistryState where
  /-- `--overwrite`: the configuration in the registry is replaced and not read. -/
  overwrite : Bool
  /-- The outcome of `devsdk_registry_get_common_config`. -/
  commonconf : Option NvPairs
  /-- The outcome of `devsdk_registry_get_config`. -/
  regconf : Option NvPairs

/-- What `devsdk_service_start` finds. A file is absent when it cannot be loaded, and the
    registry has no state when it cannot be reached. -/
structure Startup where
  lib : ConfigLib
  svcname : String
  driverdfls : Option IotData
  configFile : Option IotData
  commonFile : Option IotData
  useRegistry : Bool
  secretsReady : Bool
  registry : Option RegistryState

/-- `iot_data_string_map_get_map`. -/
def stringMapGetMap (d : Option IotData) (key : String) : Option IotData :=
  match stringMapGet d key with
  | some (.map entries) => some (.map entries)
  | _ => none

/-- The override of the common map by one section of the common file. -/
def overrideSection (lib : ConfigLib) (config : IotMap) (commonFile : IotData) (node : String) :
    IotMap :=
  match stringMapGetMap (some commonFile) node with
  | some sec => overrideConfigMap lib config (some sec)
  | none => config

/-- What is left when the files and the environment have been applied. -/
structure LocalConfig where
  privateMap : IotMap
  configmap : IotMap

/-- The part of `devsdk_service_start` before the registry is asked. -/
def localConfig (s : Startup) (configFile : IotData) (commonMap : IotMap) : LocalConfig :=
  let commonMap := overrideConfigMap s.lib commonMap (some configFile)
  let privateMap :=
    overrideConfigMap s.lib (privateConfigDefaults s.lib s.driverdfls) (some configFile)
  let commonMap := overrideConfigEnv s.lib commonMap
  let privateMap := overrideConfigEnv s.lib privateMap
  { privateMap, configmap := (IotMap.empty.merge commonMap).merge privateMap }

/-- The pass over the configuration map for a list of pairs from the registry. -/
def applyRegistry (lib : ConfigLib) (configmap : IotMap) (pairs : NvPairs) : IotMap :=
  overrideConfigEnv lib (overrideConfigNvpairs lib configmap pairs)

/-- The maps of `devsdk_service_start`: the one for `edgex_device_populateConfig`, and the
    private one with whether it is uploaded. -/
structure StartResult where
  configmap : IotMap
  privateMap : IotMap
  uploadConfig : Bool

/-- The common map before the private file is applied. -/
def commonMapAtStart (s : Startup) : Option IotMap :=
  let commonMap := commonConfigDefaults s.lib s.svcname
  if s.useRegistry then some commonMap
  else s.commonFile.map fun commonFile =>
    overrideSection s.lib (overrideSection s.lib commonMap commonFile "all-services") commonFile
      "device-services"

/-- The part of `devsdk_service_start` that asks the registry. -/
def registryConfig (lib : ConfigLib) (l : LocalConfig) (registry : RegistryState) :
    Option StartResult :=
  if registry.overwrite then some ⟨l.configmap, l.privateMap, true⟩
  else
    registry.commonconf.map fun commonconf =>
      let configmap := applyRegistry lib l.configmap commonconf
      match registry.regconf with
      | some regconf => ⟨applyRegistry lib configmap regconf, l.privateMap, false⟩
      | none => ⟨configmap, l.privateMap, true⟩

/-- `devsdk_service_start`, up to the developer mode and remote host overrides. There is no
    result when it returns before them. -/
def serviceStart (s : Startup) : Option StartResult := do
  let configFile ← s.configFile
  let commonMap ← commonMapAtStart s
  let l := localConfig s configFile commonMap
  if !s.secretsReady then none
  else if s.useRegistry then s.registry.bind (registryConfig s.lib l)
  else some ⟨l.configmap, l.privateMap, false⟩

namespace Startup

/-- What the private entries of the registry offer for a key. -/
def registrySource (s : Startup) (key : String) : ValueOffer :=
  match s.useRegistry, s.registry with
  | true, some ⟨false, _, some regconf⟩ => nvSource s.lib regconf key
  | _, _ => Offer.none

/-- What the common configuration offers for a key: the registry, or else the section for
    device services of the common file, and behind it the section for all services. -/
def commonSource (s : Startup) (key : String) : ValueOffer :=
  match s.useRegistry, s.registry with
  | true, some ⟨false, some commonconf, _⟩ => nvSource s.lib commonconf key
  | true, _ => Offer.none
  | false, _ =>
    (mapSource s.lib (stringMapGetMap s.commonFile "device-services") key).above
      (mapSource s.lib (stringMapGetMap s.commonFile "all-services") key)

/-- The sources of a key, in order of priority. -/
def priority (s : Startup) (key : String) : ValueOffer :=
  (envSource s.lib key).above ((s.registrySource key).above
    ((mapSource s.lib s.configFile key).above (s.commonSource key)))

/-- The built-in default of a key. -/
def builtin (s : Startup) (key : String) : Option IotData :=
  ((privateConfigDefaults s.lib s.driverdfls).lookup key).or
    ((commonConfigDefaults s.lib s.svcname).lookup key)

/-- No source of lower priority gets in front of another for a key with the default `dfl`: one of
    the two sources of highest priority has a value; or else, with a registry, the private file
    and the common configuration do not offer different values; and without one, the private
    file has a value, or the key has no default among the private ones, or the common
    configuration offers nothing but the default. -/
def Ranked (s : Startup) (key : String) (dfl : IotData) : Prop :=
  (envSource s.lib key dfl.type).isSome ∨ (s.registrySource key dfl.type).isSome ∨
    match s.useRegistry with
    | true => ∀ x y, mapSource s.lib s.configFile key dfl.type = some x →
        s.commonSource key dfl.type = some y → x = y
    | false => (mapSource s.lib s.configFile key dfl.type).isSome ∨
        (privateConfigDefaults s.lib s.driverdfls).lookup key = none ∨
        ∀ y, s.commonSource key dfl.type = some y → y.1 = dfl

end Startup

-- ════════════════════════════════════════════════════════════════════════
-- What start-up gives to a key
-- ════════════════════════════════════════════════════════════════════════

theorem mapSource_none (lib : ConfigLib) (key : String) : mapSource lib none key = Offer.none := by
  funext t
  rw [mapSource, findEntry_none, Option.bind_none, Offer.none]

theorem override_none (v : IotData) : (Offer.none : ValueOffer).override v = v := rfl

section

variable {key : String} (hk : ¬ InsecureKey key)

include hk

theorem lookup_overrideSection (lib : ConfigLib) (config : IotMap) (commonFile : IotData)
    (node : String) :
    (overrideSection lib config commonFile node).lookup key =
      (config.lookup key).map
        (mapSource lib (stringMapGetMap (some commonFile) node) key).override := by
  rw [overrideSection]
  cases stringMapGetMap (some commonFile) node with
  | some sec => exact lookup_overrideConfigMap hk lib config (some sec)
  | none =>
    rw [mapSource_none]
    exact Option.map_id'.symm ▸ rfl

theorem lookup_applyRegistry (lib : ConfigLib) (configmap : IotMap) (pairs : NvPairs) :
    (applyRegistry lib configmap pairs).lookup key =
      (configmap.lookup key).map ((envSource lib key).above (nvSource lib pairs key)).override := by
  rw [applyRegistry, lookup_overrideConfigEnv, lookup_overrideConfigNvpairs hk, Option.map_map]
  congr 1
  funext v
  exact Offer.override_override _ _ v

/-- The common map, before and after the private file and the environment. -/
theorem lookup_commonMapAtStart {s : Startup} {commonMap : IotMap}
    (h : commonMapAtStart s = some commonMap) (hf : s.useRegistry = false) :
    commonMap.lookup key =
      ((commonConfigDefaults s.lib s.svcname).lookup key).map (s.commonSource key).override := by
  rw [commonMapAtStart, hf] at h
  obtain ⟨commonFile, hfile, rfl⟩ := Option.map_eq_some_iff.mp h
  rw [lookup_overrideSection hk, lookup_overrideSection hk, Option.map_map]
  congr 1
  funext v
  rw [Startup.commonSource, hf, hfile]
  exact Offer.override_override _ _ v

theorem lookup_localConfig (s : Startup) (configFile : IotData) (commonMap : IotMap) :
    (localConfig s configFile commonMap).configmap.lookup key =
      (((privateConfigDefaults s.lib s.driverdfls).lookup key).or (commonMap.lookup key)).map
        ((envSource s.lib key).above (mapSource s.lib (some configFile) key)).override := by
  have hover : (envSource s.lib key).override ∘ (mapSource s.lib (some configFile) key).override =
      ((envSource s.lib key).above (mapSource s.lib (some configFile) key)).override := by
    funext v
    exact Offer.override_override _ _ v
  simp only [localConfig]
  rw [IotMap.lookup_merge, IotMap.lookup_merge, lookup_overrideConfigEnv, lookup_overrideConfigEnv,
    lookup_overrideConfigMap hk, lookup_overrideConfigMap hk, Option.map_map, Option.map_map, hover]
  cases (privateConfigDefaults s.lib s.driverdfls).lookup key <;>
    cases commonMap.lookup key <;> rfl

end

/-- What a start-up that comes to a configuration has gone through. -/
theorem serviceStart_cases {s : Startup} {r : StartResult} (h : serviceStart s = some r) :
    ∃ configFile commonMap, s.configFile = some configFile ∧
      commonMapAtStart s = some commonMap ∧
      ((s.useRegistry = false ∧ r.configmap = (localConfig s configFile commonMap).configmap) ∨
        (s.useRegistry = true ∧ ∃ registry, s.registry = some registry ∧
          registryConfig s.lib (localConfig s configFile commonMap) registry = some r)) := by
  rw [serviceStart] at h
  obtain ⟨configFile, hfile, h⟩ := Option.bind_eq_some_iff.mp h
  obtain ⟨commonMap, hcommon, h⟩ := Option.bind_eq_some_iff.mp h
  refine ⟨configFile, commonMap, hfile, hcommon, ?_⟩
  split at h
  next => cases h
  next =>
    split at h
    next hreg =>
      obtain ⟨registry, hr, h⟩ := Option.bind_eq_some_iff.mp h
      exact Or.inr ⟨hreg, registry, hr, h⟩
    next hreg =>
      obtain rfl := Option.some.inj h
      exact Or.inl ⟨by simpa using hreg, rfl⟩

theorem Startup.builtin_notInsecure {s : Startup} {key : String} {dfl : IotData}
    (h : s.builtin key = some dfl) : ¬ InsecureKey key := by
  rw [builtin, Option.or_eq_some_iff] at h
  rcases h with h | ⟨-, h⟩
  · exact privateConfigDefaults_notInsecure s.lib s.driverdfls (by simp [h])
  · exact commonConfigDefaults_notInsecure s.lib s.svcname (by simp [h])

/-- Every key that start-up gives a value has a built-in default, but for those of the insecure
    secrets. -/
theorem Startup.builtin_of_lookup {s : Startup} {r : StartResult} (hr : serviceStart s = some r)
    {key : String} (hk : ¬ InsecureKey key) (hkey : r.configmap.lookup key ≠ none) :
    s.builtin key ≠ none := by
  intro hd
  rw [builtin, Option.or_eq_none_iff] at hd
  obtain ⟨hprivate, hdefault⟩ := hd
  obtain ⟨configFile, commonMap, -, hcommon, hmode⟩ := serviceStart_cases hr
  have hcommonKey : commonMap.lookup key = none := by
    cases hreg : s.useRegistry with
    | false => rw [lookup_commonMapAtStart hk hcommon hreg, hdefault, Option.map_none]
    | true =>
      rw [commonMapAtStart, hreg, if_pos rfl] at hcommon
      obtain rfl := Option.some.inj hcommon
      exact hdefault
  have hlocal : (localConfig s configFile commonMap).configmap.lookup key = none := by
    rw [lookup_localConfig hk, hprivate, hcommonKey, Option.or_none, Option.map_none]
  rcases hmode with ⟨-, hmap⟩ | ⟨-, ⟨overwrite, commonconf, regconf⟩, -, h⟩
  · rw [hmap] at hkey
    exact hkey hlocal
  · cases overwrite with
    | true =>
      obtain rfl := Option.some.inj h
      exact hkey hlocal
    | false =>
      obtain ⟨pairs, rfl, h⟩ := Option.map_eq_some_iff.mp h
      have hstep : (applyRegistry s.lib (localConfig s configFile commonMap).configmap
          pairs).lookup key = none := by
        rw [lookup_applyRegistry hk, hlocal, Option.map_none]
      cases regconf with
      | none =>
        obtain rfl := h
        exact hkey hstep
      | some regpairs =>
        obtain rfl := h
        refine hkey ?_
        rw [lookup_applyRegistry hk, hstep, Option.map_none]

/-- Without a registry, a key with a private default never sees the common configuration. -/
theorem lookup_start_file {s : Startup} {configFile : IotData} {commonMap : IotMap}
    (hfile : s.configFile = some configFile) (hcommon : commonMapAtStart s = some commonMap)
    (hreg : s.useRegistry = false) {key : String} {dfl : IotData} (hd : s.builtin key = some dfl) :
    (localConfig s configFile commonMap).configmap.lookup key =
      some (((envSource s.lib key).above ((mapSource s.lib s.configFile key).above
        (if (privateConfigDefaults s.lib s.driverdfls).lookup key = none then s.commonSource key
          else Offer.none))).override dfl) := by
  have hk := Startup.builtin_notInsecure hd
  rw [lookup_localConfig hk, lookup_commonMapAtStart hk hcommon hreg, hfile]
  rw [Startup.builtin] at hd
  cases hp : (privateConfigDefaults s.lib s.driverdfls).lookup key with
  | some d =>
    rw [hp] at hd
    obtain rfl : d = dfl := Option.some.inj hd
    simp
  | none =>
    rw [hp, Option.none_or] at hd
    rw [hd, if_pos rfl]
    simp only [Option.none_or, Option.map_some]
    rw [Offer.override_override, Offer.above_assoc]

/-- With a registry, the common configuration is applied to what the private file left. -/
theorem lookup_start_registry {s : Startup} {configFile : IotData} {commonMap : IotMap}
    (hfile : s.configFile = some configFile) (hcommon : commonMapAtStart s = some commonMap)
    (hreg : s.useRegistry = true) {registry : RegistryState} (hr : s.registry = some registry)
    {r : StartResult}
    (h : registryConfig s.lib (localConfig s configFile commonMap) registry = some r)
    {key : String} {dfl : IotData} (hd : s.builtin key = some dfl) :
    r.configmap.lookup key =
      some (((envSource s.lib key).above ((s.registrySource key).above
        ((s.commonSource key).above (mapSource s.lib s.configFile key)))).override dfl) := by
  have hk := Startup.builtin_notInsecure hd
  have hlocal : (localConfig s configFile commonMap).configmap.lookup key =
      some (((envSource s.lib key).above (mapSource s.lib s.configFile key)).override dfl) := by
    rw [commonMapAtStart, hreg, if_pos rfl] at hcommon
    obtain rfl := Option.some.inj hcommon
    rw [lookup_localConfig hk, ← Startup.builtin, hd, hfile]
    rfl
  obtain ⟨overwrite, commonconf, regconf⟩ := registry
  rw [Startup.registrySource, Startup.commonSource, hreg, hr]
  cases overwrite with
  | true =>
    obtain rfl := Option.some.inj h
    exact hlocal
  | false =>
    obtain ⟨pairs, rfl, h⟩ := Option.map_eq_some_iff.mp h
    have hstep : (applyRegistry s.lib (localConfig s configFile commonMap).configmap pairs).lookup
        key = some (((envSource s.lib key).above ((nvSource s.lib pairs key).above
          (mapSource s.lib s.configFile key))).override dfl) := by
      rw [lookup_applyRegistry hk, hlocal, Option.map_some, Offer.override_override,
        Offer.above_assoc, Offer.above_above_above]
    cases regconf with
    | none =>
      obtain rfl := h
      exact hstep
    | some regpairs =>
      obtain rfl := h
      show (applyRegistry s.lib _ regpairs).lookup key = _
      rw [lookup_applyRegistry hk, hstep, Option.map_some, Offer.override_override,
        Offer.above_assoc, Offer.above_above_above]

/-- For every start-up that comes to a configuration and every key with a built-in default, the
    value of the key is that of the first of its sources that has one of its type, exactly when
    no source of lower priority gets in front of another. -/
theorem start_ranked_iff (s : Startup) (r : StartResult) (hr : serviceStart s = some r)
    (key : String) (dfl : IotData) (hd : s.builtin key = some dfl) :
    r.configmap.lookup key = some ((s.priority key).override dfl) ↔ s.Ranked key dfl := by
  obtain ⟨configFile, commonMap, hfile, hcommon, hmode⟩ := serviceStart_cases hr
  rw [Startup.priority, Startup.Ranked]
  cases hmode with
  | inl hf =>
    obtain ⟨hreg, hmap⟩ := hf
    have hnone : s.registrySource key = Offer.none := by rw [Startup.registrySource, hreg]
    rw [hmap, lookup_start_file hfile hcommon hreg hd, Option.some_inj, hnone, hreg,
      Offer.none_above, Offer.override_above_eq_iff, Offer.override_above_eq_iff]
    by_cases hp : (privateConfigDefaults s.lib s.driverdfls).lookup key = none
    · simp [hp]
    · have hself : dfl = (s.commonSource key).override dfl ↔
          ∀ y, s.commonSource key dfl.type = some y → y.1 = dfl := by
        rw [eq_comm, Offer.override_eq_self_iff]
      rw [if_neg hp, override_none, hself]
      simp [hp, Offer.none]
  | inr hrg =>
    obtain ⟨hreg, registry, hreg', h⟩ := hrg
    rw [lookup_start_registry hfile hcommon hreg hreg' h hd, Option.some_inj,
      Offer.override_above_eq_iff, Offer.override_above_eq_iff, Offer.override_above_comm_iff, hreg]

/-- A service without a registry. The common file sets its port, and its own file the greatest
    size of an event. -/
def sampleStartup : Startup where
  lib := sampleConfigLib
  svcname := "device-virtual"
  driverdfls := none
  configFile := some (.map [("MaxEventSize", .int .int64 10)])
  commonFile := some (.map [("all-services", .map [("Service", .map [("Port", .int .int64 8080)])])])
  useRegistry := false
  secretsReady := true
  registry := none

theorem sampleStartup_starts : ∃ r, serviceStart sampleStartup = some r := ⟨_, rfl⟩

theorem sampleStartup_builtin_port :
    sampleStartup.builtin "Service/Port" = some (.int .uint16 59999) := by
  simp [Startup.builtin, privateConfigDefaults, privateDefaultEntries, driverDefaultEntries,
    sampleStartup, IotMap.addAll, IotMap.lookup_add]

/-- The private file decides where it has a value. -/
theorem start_ranked_maxEventSize :
    ∃ r, serviceStart sampleStartup = some r ∧ r.configmap.lookup "MaxEventSize" =
      some ((sampleStartup.priority "MaxEventSize").override (.int .uint32 0)) := by
  obtain ⟨r, hr⟩ := sampleStartup_starts
  have hd : sampleStartup.builtin "MaxEventSize" = some (.int .uint32 0) := by
    simp [Startup.builtin, privateConfigDefaults, privateDefaultEntries, driverDefaultEntries,
      sampleStartup, IotMap.addAll, IotMap.lookup_add]
  refine ⟨r, hr, (start_ranked_iff sampleStartup r hr "MaxEventSize" _ hd).mpr ?_⟩
  have hfind : findEntry sampleStartup.configFile "MaxEventSize" = some (.int .int64 10) := by
    decide
  right
  right
  left
  rw [mapSource, hfind]
  rfl

/-- A port from the common file is lost to the built-in default. -/
theorem common_port_lost :
    ¬ ∀ (s : Startup) (r : StartResult), serviceStart s = some r → ∀ (key : String) (dfl : IotData),
      s.builtin key = some dfl →
        r.configmap.lookup key = some ((s.priority key).override dfl) := by
  intro h
  obtain ⟨r, hr⟩ := sampleStartup_starts
  have hport := h sampleStartup r hr _ _ sampleStartup_builtin_port
  obtain ⟨configFile, commonMap, hfile, hcommon, ⟨hreg, hmap⟩ | ⟨hreg, -⟩⟩ := serviceStart_cases hr
  · have hprivate : (privateConfigDefaults sampleStartup.lib sampleStartup.driverdfls).lookup
        "Service/Port" ≠ none := by
      simp [privateConfigDefaults, privateDefaultEntries, driverDefaultEntries, sampleStartup,
        IotMap.addAll, IotMap.lookup_add]
    have hcode := lookup_start_file hfile hcommon hreg sampleStartup_builtin_port
    rw [← hmap, hport, if_neg hprivate, Option.some_inj] at hcode
    have hown : findEntry sampleStartup.configFile "Service/Port" = none := by decide
    simp [Startup.priority, Startup.registrySource, Startup.commonSource, Offer.override,
      Offer.above, Offer.none, envSource, mapSource, hown, IotData.type] at hcode
    revert hcode
    decide
  · cases hreg

end DeviceSdk
