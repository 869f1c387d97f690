import DeviceSdk.Config.Driver
import DeviceSdk.Config.Frame
import DeviceSdk.Config.RemoteHosts

/-!
# Typed reads of the configuration

`edgex_device_populateCommonConfigFromMap` and `edgex_device_populateConfigFromMap` read each key of
the configuration map by an accessor for values of one type. The tables of defaults fix the type of
each key, the developer mode and the remote hosts put values of the same types in their places, and
no override changes a type. One default has another type than its reader asks for.

## Main definitions

- `commonAccessors`, `privateAccessors` — the keys that are read, each with its type
- `startedConfig` — the configuration map that a service starts with
- `TypedConfig` — every accessor finds its key, with a value of its type

## Main results

- `accessors_typed_iff`
-/

namespace DeviceSdk

/-- A read of the configuration map, for values of one type. -/
structure Accessor where
  key : String
  type : DataType
  deriving DecidableEq

/-- The reads of `edgex_device_populateCommonConfigFromMap`. -/
def commonAccessors : List Accessor :=
  [⟨"Service/RequestTimeout", .string⟩,
    ⟨"Service/HealthCheckInterval", .string⟩,
    ⟨"Service/ServerBindAddr", .string⟩,
    ⟨"Service/MaxRequestSize", .int .uint64⟩,
    ⟨"Device/Labels", .vector⟩,
    ⟨"Device/DataTransform", .bool⟩,
    ⟨"Device/Discovery/Enabled", .bool⟩,
    ⟨"Device/Discovery/Interval", .int .uint32⟩,
    ⟨"Device/MaxCmdOps", .int .uint32⟩,
    ⟨"MaxEventSize", .int .uint32⟩,
    ⟨"Device/ProfilesDir", .string⟩,
    ⟨"Device/DevicesDir", .string⟩,
    ⟨"Device/ProvisionWatchersDir", .string⟩,
    ⟨"Device/AllowedFails", .int .uint32⟩,
    ⟨"Device/DeviceDownTimeout", .int .uint64⟩,
    ⟨"Writable/Telemetry/Interval", .string⟩,
    ⟨"Writable/Telemetry/Metrics/EventsSent", .bool⟩,
    ⟨"Writable/Telemetry/Metrics/ReadingsSent", .bool⟩,
    ⟨"Writable/Telemetry/Metrics/SecuritySecretsRequested", .bool⟩,
    ⟨"Writable/Telemetry/Metrics/SecuritySecretsStored", .bool⟩]

/-- The reads of `edgex_device_populateConfigFromMap`. -/
def privateAccessors : List Accessor :=
  [⟨"Service/Host", .string⟩,
    ⟨"Service/Port", .int .uint16⟩,
    ⟨"Service/StartupMsg", .string⟩,
    ⟨"Device/UpdateLastConnected", .bool⟩,
    ⟨"Device/EventQLength", .int .uint32⟩,
    ⟨"Writable/Telemetry/PublishTopicPrefix", .string⟩,
    ⟨"Writable/Telemetry/Metrics/ReadCommandsExecuted", .bool⟩]

/-- All of them. -/
def configAccessors : List Accessor := commonAccessors ++ privateAccessors

/-- The bits of the metrics depend on their entries alone. -/
theorem metricOn_congr {m m' : IotMap} {metric : Metric}
    (h : m.lookup metric.key = m'.lookup metric.key) : metricOn m metric = metricOn m' metric :=
  congrArg dataBool h

theorem addFlag_congr {m m' : IotMap} {metric : Metric}
    (h : m.lookup metric.key = m'.lookup metric.key) (flags : BitVec 64) :
    addFlag m flags metric = addFlag m' flags metric := by
  rw [addFlag, addFlag, metricOn_congr h]

section Reads

variable (config : DeviceConfig) {m m' : IotMap}

/-- No other key is read for the common part of the record. -/
theorem populateCommonConfigFromMap_congr
    (h : ∀ a ∈ commonAccessors, m.lookup a.key = m'.lookup a.key) :
    populateCommonConfigFromMap config m = populateCommonConfigFromMap config m' := by
  have hflag (metric : Metric) (hne : metric ≠ .rdcmds) :
      m.lookup metric.key = m'.lookup metric.key := by
    have hmem : (⟨metric.key, .bool⟩ : Accessor) ∈ commonAccessors := by
      revert hne
      cases metric <;> decide
    exact h _ hmem
  simp only [commonAccessors, List.forall_mem_cons] at h
  rw [populateCommonConfigFromMap, metricOn_congr (hflag .evsent (by decide)),
    addFlag_congr (hflag .rdgsent (by decide)), addFlag_congr (hflag .secreq (by decide)),
    addFlag_congr (hflag .secsto (by decide))]
  simp only [mapString, serviceLabels, h]
  rfl

/-- Nor for the rest of it. -/
theorem populateConfigFromMap_congr
    (h : ∀ a ∈ privateAccessors, m.lookup a.key = m'.lookup a.key) :
    populateConfigFromMap config m = populateConfigFromMap config m' := by
  have hflag : m.lookup Metric.rdcmds.key = m'.lookup Metric.rdcmds.key :=
    h ⟨Metric.rdcmds.key, .bool⟩ (by decide)
  simp only [privateAccessors, List.forall_mem_cons] at h
  rw [populateConfigFromMap, addFlag_congr hflag]
  simp only [mapString, h]
  rfl

end Reads

/-- The key is there, with a value of exactly the type that the accessor is for. -/
def Accessor.Finds (a : Accessor) (m : IotMap) : Prop :=
  ∃ v, m.lookup a.key = some v ∧ v.type = a.type

/-- Every accessor finds what it is for. -/
def TypedConfig (m : IotMap) : Prop := ∀ a ∈ configAccessors, a.Finds m

-- ════════════════════════════════════════════════════════════════════════
-- The map that a service starts with
-- ════════════════════════════════════════════════════════════════════════

/-- The options of a service that decide on its configuration map: the developer mode with the
    address that was found for it, and the text for the remote hosts. -/
structure StartOptions where
  devmode : Bool
  localIp : Option String
  remotehosts : Option String

/-- The hosts of a service that has processed its command line. A text that is refused ends it. -/
def processRemoteHosts (remotehosts : Option String) : Option ServiceHosts :=
  match remotehosts with
  | none => some {}
  | some hosts =>
    let (svc, ok) := parseRemoteServiceHosts {} (some hosts)
    if ok then some svc else none

/-- The overrides for the developer mode. -/
def applyDevMode (o : StartOptions) (configmap : IotMap) : IotMap :=
  match o.devmode, o.localIp with
  | true, some localIp =>
    configmap.addAll
      [("Service/Host", .string localIp),
        ("Clients/core-metadata/Host", .string "localhost"),
        ("Clients/core-metadata/Port", .int .uint16 59881),
        ("MessageBus/Host", .string "localhost")]
  | _, _ => configmap

/-- The overrides for the three remote hosts of a service that has them. Neither of the two keys
    that are looked up is among those added before. -/
def remoteEntries (configmap : IotMap) (svcname localHost remoteHost bindHost : String) :
    List (String × IotData) :=
  List.flatten
    [[("Service/Host", .string localHost),
      ("Service/ServerBindAddr", .string bindHost)],
    if mapString configmap "Clients/core-metadata/Host" = none then
      [("Clients/core-metadata/Port", .int .uint16 59881)] else [],
    [("Clients/core-metadata/Host", .string remoteHost),
      ("MessageBus/Host", .string remoteHost),
      ("MessageBus/Port", .int .uint16 1883),
      ("MessageBus/Protocol", .string "tcp"),
      ("MessageBus/Type", .string "mqtt"),
      ("MessageBus/AuthMode", .string "none"),
      ("MessageBus/Optional/ClientId",
        .string (String.ofList ((svcname ++ "-remote").toList.take 127)))],
    if mapString configmap "MessageBus/Optional/Topic" = none then
      [("MessageBus/Optional/Topic", .string "edgex")] else []]

/-- The part of `devsdk_service_start` for a service with remote hosts. It has all three of them,
    or none. -/
def applyRemoteHosts (svcname : String) (hosts : ServiceHosts) (configmap : IotMap) : IotMap :=
  match hosts.localHost, hosts.remoteHost, hosts.bindHost with
  | some localHost, some remoteHost, some bindHost =>
    configmap.addAll (remoteEntries configmap svcname localHost remoteHost bindHost)
  | _, _, _ => configmap

/-- The configuration map of a service that comes to `edgex_device_populateConfig`. -/
def startedConfig (s : Startup) (o : StartOptions) : Option IotMap := do
  let hosts ← processRemoteHosts o.remotehosts
  let r ← serviceStart s
  some (applyRemoteHosts s.svcname hosts (applyDevMode o r.configmap))

/-- A service has all three remote hosts or none. -/
theorem processRemoteHosts_complete {remotehosts : Option String} {hosts : ServiceHosts}
    (h : processRemoteHosts remotehosts = some hosts) :
    hosts = {} ∨ ∃ l r b, hosts = ⟨some l, some r, some b, true⟩ := by
  cases remotehosts with
  | none => exact Or.inl (Option.some.inj h).symm
  | some text =>
    simp only [processRemoteHosts, parseRemoteServiceHosts_some,
      Option.ite_none_right_eq_some] at h
    obtain ⟨hok, hhosts⟩ := h
    rw [storedHosts_accepted] at hok
    rcases hwords : Words.all ',' text.toList with _ | ⟨t, _ | ⟨u, _ | ⟨v, ws⟩⟩⟩
    all_goals rw [hwords] at hok hhosts
    · exact absurd hok (by decide)
    · exact absurd hok (by simp)
    · exact absurd hok (by simp)
    · exact Or.inr ⟨_, _, _, (Option.some.inj hhosts).symm⟩

-- ════════════════════════════════════════════════════════════════════════
-- The types in a map
-- ════════════════════════════════════════════════════════════════════════

namespace IotMap

/-- The type of the value of a key. -/
def typeOf (m : IotMap) (key : String) : Option DataType := (m.lookup key).map IotData.type

/-- The keys of entries, each with the type of its value. -/
def entryTypes (entries : List (String × IotData)) : List (String × DataType) :=
  entries.map fun e => (e.1, e.2.type)

/-- The types that additions leave: those of the last one under each key. -/
theorem typeOf_addAll (m : IotMap) (entries : List (String × IotData)) (key : String) :
    (m.addAll entries).typeOf key =
      ((entryTypes entries).reverse.lookup key).or (m.typeOf key) := by
  rw [typeOf, lookup_addAll, Option.map_or, entryTypes, ← List.map_reverse,
    List.lookup_map_value (fun _ v => IotData.type v)]
  rfl

end IotMap

theorem Accessor.finds_iff {a : Accessor} {m : IotMap} :
    a.Finds m ↔ m.typeOf a.key = some a.type := by
  rw [IotMap.typeOf, Option.map_eq_some_iff]
  exact Iff.rfl

/-- A frame keeps the type of every key outside the insecure secrets. -/
theorem ConfigFrame.typeOf_eq {config m : IotMap} (h : ConfigFrame config m) {key : String}
    (hkey : ¬ InsecureKey key) : m.typeOf key = config.typeOf key := by
  cases hc : config.lookup key with
  | none =>
    have hm : m.lookup key = none := by
      by_contra hne
      rcases h.added key hne with hcne | hinsecure
      · exact hcne hc
      · exact hkey hinsecure
    rw [IotMap.typeOf, IotMap.typeOf, hm, hc]
  | some v =>
    obtain ⟨w, hw, hwt⟩ := h.typed key v hkey hc
    rw [IotMap.typeOf, IotMap.typeOf, hw, hc, Option.map_some, Option.map_some, hwt]

/-- The type of the default for a key that is read. -/
def Accessor.defaultType (a : Accessor) : DataType :=
  if a.key = "Device/AllowedFails" then .int .int32 else a.type

/-- Every key that is read has the type of its default. -/
def DefaultTyped (m : IotMap) : Prop := ∀ a ∈ configAccessors, m.typeOf a.key = some a.defaultType

/-- Where the defaults decide on the types, one accessor is disappointed. -/
theorem DefaultTyped.finds_iff {m : IotMap} (h : DefaultTyped m) {a : Accessor}
    (ha : a ∈ configAccessors) : a.Finds m ↔ a.key ≠ "Device/AllowedFails" := by
  have hother : ∀ b ∈ configAccessors, b.key = "Device/AllowedFails" → b.type ≠ .int .int32 := by
    decide
  rw [Accessor.finds_iff, h a ha, Option.some_inj, Accessor.defaultType]
  by_cases hkey : a.key = "Device/AllowedFails"
  · rw [if_pos hkey]
    exact iff_of_false (Ne.symm (hother a ha hkey)) (fun hne => hne hkey)
  · rw [if_neg hkey]
    exact iff_of_true rfl hkey

theorem DefaultTyped.not_typedConfig {m : IotMap} (h : DefaultTyped m) : ¬ TypedConfig m := by
  intro htyped
  have hmem : (⟨"Device/AllowedFails", .int .uint32⟩ : Accessor) ∈ configAccessors := by decide
  exact (h.finds_iff hmem).mp (htyped _ hmem) rfl

-- ════════════════════════════════════════════════════════════════════════
-- From the defaults to every configuration
-- ════════════════════════════════════════════════════════════════════════

/-- No key that is read belongs to the driver. -/
theorem Accessor.ne_driverKey {a : Accessor} (h : a ∈ configAccessors) (key : String) :
    driverKey key ≠ a.key := by
  have hdriver : ∀ b ∈ configAccessors, driverEntry (b.key, .null) = none := by decide +kernel
  intro hkey
  have hnone := hdriver a h
  rw [← hkey, driverEntry_driverKey] at hnone
  cases hnone

theorem typeOf_privateConfigDefaults (lib : ConfigLib) (driverconf : Option IotData) {a : Accessor}
    (h : a ∈ configAccessors) :
    (privateConfigDefaults lib driverconf).typeOf a.key =
      (IotMap.entryTypes (privateDefaultEntries lib)).reverse.lookup a.key := by
  have hnot : ∀ e ∈ driverDefaultEntries driverconf, e.1 ≠ a.key := by
    intro e he
    unfold driverDefaultEntries at he
    split at he
    next entries =>
      obtain ⟨f, -, rfl⟩ := List.mem_map.mp he
      exact Accessor.ne_driverKey h f.1
    next => cases he
  rw [privateConfigDefaults, IotMap.typeOf, IotMap.lookup_addAll_of_notMem hnot]
  exact (IotMap.typeOf_addAll IotMap.empty _ a.key).trans Option.or_none

theorem typeOf_commonConfigDefaults (lib : ConfigLib) (svcname key : String) :
    (commonConfigDefaults lib svcname).typeOf key =
      (IotMap.entryTypes (commonDefaultEntries lib svcname)).reverse.lookup key :=
  (IotMap.typeOf_addAll IotMap.empty _ key).trans Option.or_none

/-- The two tables of defaults have every key that is read. -/
theorem Startup.builtin_typed (s : Startup) {a : Accessor} (h : a ∈ configAccessors) :
    (s.builtin a.key).map IotData.type = some a.defaultType := by
  have htables : ∀ b ∈ configAccessors,
      ((IotMap.entryTypes (privateDefaultEntries s.lib)).reverse.lookup b.key).or
        ((IotMap.entryTypes (commonDefaultEntries s.lib s.svcname)).reverse.lookup b.key) =
          some b.defaultType := by
    simp only [IotMap.entryTypes, privateDefaultEntries, commonDefaultEntries,
      deviceServiceDefaults, busConfigDefaults, secretStoreDefaults, List.map_append,
      List.map_cons, List.map_nil, IotData.type]
    decide +kernel
  rw [Startup.builtin, Option.map_or]
  exact (congrArg₂ Option.or (typeOf_privateConfigDefaults s.lib s.driverdfls h)
    (typeOf_commonConfigDefaults s.lib s.svcname a.key)).trans (htables a h)

/-- No key with a default belongs to the insecure secrets. -/
theorem Accessor.not_insecureKey {a : Accessor} (h : a ∈ configAccessors) :
    ¬ InsecureKey a.key := by
  obtain ⟨dfl, hd, -⟩ := Option.map_eq_some_iff.mp (sampleStartup.builtin_typed h)
  exact Startup.builtin_notInsecure hd

theorem DefaultTyped.frame {m m' : IotMap} (h : DefaultTyped m) (hframe : ConfigFrame m m') :
    DefaultTyped m' := fun a ha =>
  (hframe.typeOf_eq (Accessor.not_insecureKey ha)).trans (h a ha)

/-- The files, the environment and the registry keep the types of the defaults. -/
theorem serviceStart_typed {s : Startup} {r : StartResult} (h : serviceStart s = some r) :
    DefaultTyped r.configmap := by
  intro a ha
  obtain ⟨dfl, hd, htype⟩ := Option.map_eq_some_iff.mp (s.builtin_typed ha)
  have hkeep (offer : ValueOffer) : (offer.override dfl).type = a.defaultType :=
    (Offer.kind_override offer dfl).trans htype
  obtain ⟨configFile, commonMap, hfile, hcommon, ⟨hreg, hmap⟩ | ⟨hreg, registry, hr, hres⟩⟩ :=
    serviceStart_cases h
  · rw [hmap, IotMap.typeOf, lookup_start_file hfile hcommon hreg hd, Option.map_some, hkeep]
  · rw [IotMap.typeOf, lookup_start_registry hfile hcommon hreg hr hres hd, Option.map_some, hkeep]

/-- Additions keep the types when what they add to a key that is read has the type of its
    default. -/
theorem DefaultTyped.addAll {m : IotMap} (h : DefaultTyped m) {entries : List (String × IotData)}
    (hentries : ∀ a ∈ configAccessors, ∀ t ∈ (IotMap.entryTypes entries).reverse.lookup a.key,
      t = a.defaultType) : DefaultTyped (m.addAll entries) := by
  intro a ha
  rw [IotMap.typeOf_addAll]
  cases hadded : (IotMap.entryTypes entries).reverse.lookup a.key with
  | none => exact h a ha
  | some t => exact congrArg some (hentries a ha t hadded)

theorem DefaultTyped.devMode {m : IotMap} (h : DefaultTyped m) (o : StartOptions) :
    DefaultTyped (applyDevMode o m) := by
  rw [applyDevMode]
  split
  next =>
    refine h.addAll ?_
    simp only [IotMap.entryTypes, List.map_cons, List.map_nil, IotData.type]
    decide +kernel
  next => exact h

theorem DefaultTyped.remoteHosts {m : IotMap} (h : DefaultTyped m) (svcname : String)
    (hosts : ServiceHosts) : DefaultTyped (applyRemoteHosts svcname hosts m) := by
  rw [applyRemoteHosts]
  split
  next =>
    refine h.addAll ?_
    rw [remoteEntries]
    split <;> split <;>
      simp only [IotMap.entryTypes, List.flatten_cons, List.flatten_nil, List.map_append,
        List.map_cons, List.map_nil, IotData.type] <;>
      decide +kernel
  next => exact h

theorem startedConfig_typed {s : Startup} {o : StartOptions} {configmap : IotMap}
    (h : startedConfig s o = some configmap) : DefaultTyped configmap := by
  rw [startedConfig] at h
  obtain ⟨hosts, -, h⟩ := Option.bind_eq_some_iff.mp h
  obtain ⟨r, hr, h⟩ := Option.bind_eq_some_iff.mp h
  obtain rfl := Option.some.inj h
  exact ((serviceStart_typed hr).devMode o).remoteHosts s.svcname hosts

/-- An update overrides the configuration map by its pairs. -/
theorem update_sdkconf (lib : ConfigLib) (svc : ServiceState) (u : ConfUpdate) :
    (svc.update lib u).config.sdkconf =
      OverrideCall.apply lib svc.config.sdkconf (.nvpairs u.pairs) := by
  cases u with
  | common pairs =>
    rw [ServiceState.update, updateCommonConf_config]
    rfl
  | priv pairs => exact updateConf_sdkconf lib svc pairs

/-- In every configuration that a service starts with, and after any updates of it, every accessor
    finds its key with a value of its type but one: the default of that one has another type, and
    so the configuration is never as its readers ask for. -/
theorem accessors_typed_iff (s : Startup) (o : StartOptions) (configmap : IotMap)
    (h : startedConfig s o = some configmap) (lib : ConfigLib) (svc : ServiceState)
    (us : List ConfUpdate) :
    ¬ Run.Always (ServiceState.update lib) (fun t => TypedConfig t.config.sdkconf)
        (configured svc configmap) us ∧
      Run.Always (ServiceState.update lib)
        (fun t => ∀ a ∈ configAccessors,
          (a.Finds t.config.sdkconf ↔ a.key ≠ "Device/AllowedFails"))
        (configured svc configmap) us := by
  have hstart : DefaultTyped (configured svc configmap).config.sdkconf := startedConfig_typed h
  have hstep (t : ServiceState) (u : ConfUpdate) (ht : DefaultTyped t.config.sdkconf) :
      DefaultTyped (t.update lib u).config.sdkconf := by
    rw [update_sdkconf]
    exact ht.frame (OverrideCall.apply_frame lib _ _)
  constructor
  · exact fun htyped => hstart.not_typedConfig htyped.start
  · exact Run.always_of_meets (I := fun t => DefaultTyped t.config.sdkconf)
      (fun t ht a ha => ht.finds_iff ha) (fun t u ht _ => hstep t u ht) hstart
      (Run.meets_of_forall (fun _ _ => trivial) _ us)

/-- Options that leave the configuration alone. -/
def plainOptions : StartOptions := ⟨false, none, none⟩

theorem sampleStartup_configured : ∃ configmap, startedConfig sampleStartup plainOptions =
    some configmap := by
  obtain ⟨r, hr⟩ := sampleStartup_starts
  refine ⟨applyRemoteHosts sampleStartup.svcname {} (applyDevMode plainOptions r.configmap), ?_⟩
  rw [startedConfig, hr]
  rfl

theorem accessors_typed_sample : ∃ configmap,
    startedConfig sampleStartup plainOptions = some configmap ∧
      ¬ Run.Always (ServiceState.update sampleConfigLib) (fun t => TypedConfig t.config.sdkconf)
        (configured freshService configmap) [.common [("Device/MaxCmdOps", "5")]] := by
  obtain ⟨configmap, h⟩ := sampleStartup_configured
  exact ⟨configmap, h,
    (accessors_typed_iff sampleStartup plainOptions configmap h sampleConfigLib freshService _).1⟩

/-- The number of failures that are allowed is read as an unsigned number, and is none. -/
theorem allowedFails_mistyped :
    ¬ ∀ (s : Startup) (o : StartOptions) (configmap : IotMap),
      startedConfig s o = some configmap → ∀ (lib : ConfigLib) (svc : ServiceState)
        (us : List ConfUpdate),
        Run.Always (ServiceState.update lib) (fun t => TypedConfig t.config.sdkconf)
          (configured svc configmap) us := by
  intro htyped
  obtain ⟨configmap, h⟩ := sampleStartup_configured
  exact (startedConfig_typed h).not_typedConfig
    (htyped sampleStartup plainOptions configmap h sampleConfigLib freshService [])

end DeviceSdk
