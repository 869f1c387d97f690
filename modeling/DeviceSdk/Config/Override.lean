import DeviceSdk.Iot.Map
import DeviceSdk.Lib.Priority

/-!
# Configuration maps

The part of `config.c` that builds the two maps of defaults and overrides their values from
configuration files, environment variables and the registry. An override converts what it
finds to the type of the value it replaces, and leaves the value where that fails. Only the
entries below `Writable/InsecureSecrets/` are added where there were none.

## Main definitions

- `ConfigLib` — conversions and the environment
- `commonConfigDefaults`, `privateConfigDefaults`
- `overrideConfigMap`, `overrideConfigEnv`, `overrideConfigNvpairs`

## Main results

- `lookup_overrideConfigMap` and its two siblings — what a pass does to one key
- `commonConfigDefaults_notInsecure`, `privateConfigDefaults_notInsecure`
-/

namespace DeviceSdk

open IotData (stringMapGet)

/-- A source of values of each type. -/
abbrev ValueOffer := Offer IotData.type

/-- What the configuration code takes from its libraries and its environment. -/
structure ConfigLib where
  /-- `iot_data_transform`. -/
  transform : IotData → ValueOffer
  /-- `iot_data_alloc_from_string`. -/
  fromString : String → ValueOffer
  /-- `getenv`. -/
  getenv : String → Option String
  /-- The node name that `uname` gives. -/
  nodename : String

/-- A text, as a value that is a string. -/
def stringOffer (s : String) : ValueOffer
  | .string => some ⟨.string s, rfl⟩
  | _ => none

/-- A list of `devsdk_nvpairs`. -/
abbrev NvPairs := List (String × String)

/-- `devsdk_nvpairs_value`. -/
def nvpairsValue (nvp : NvPairs) (name : String) : Option String := nvp.lookup name

/-- `edgex_bus_config_defaults`. -/
def busConfigDefaults : List (String × IotData) :=
  [("MessageBus/Disabled", .bool false),
    ("MessageBus/Protocol", .string ""),
    ("MessageBus/Host", .string "localhost"),
    ("MessageBus/Port", .int .uint16 0),
    ("MessageBus/BaseTopicPrefix", .string "edgex"),
    ("MessageBus/AuthMode", .string "none"),
    ("MessageBus/SecretName", .string ""),
    ("MessageBus/Optional/ClientId", .string ""),
    ("MessageBus/Optional/Qos", .int .uint16 0),
    ("MessageBus/Optional/KeepAlive", .int .uint16 60),
    ("MessageBus/Optional/Retained", .bool false),
    ("MessageBus/Optional/CertFile", .string ""),
    ("MessageBus/Optional/KeyFile", .string ""),
    ("MessageBus/Optional/SkipCertVerify", .bool false)]

/-- The entries that `edgex_common_config_defaults` adds before those of the bus. -/
def deviceServiceDefaults (lib : ConfigLib) : List (String × IotData) :=
  [("Device/DataTransform", .bool true),
    ("Device/Discovery/Enabled", .bool true),
    ("Device/Discovery/Interval", .int .uint32 0),
    ("Device/MaxCmdOps", .int .uint32 0),
    ("Writable/Telemetry/Interval", .string "30s"),
    ("Writable/Telemetry/Metrics/EventsSent", .bool false),
    ("Writable/Telemetry/Metrics/ReadingsSent", .bool false),
    ("Writable/Telemetry/Metrics/SecuritySecretsRequested", .bool false),
    ("Writable/Telemetry/Metrics/SecuritySecretsStored", .bool false),
    ("Service/Host", .string lib.nodename),
    ("Service/Port", .int .uint16 59999),
    ("Service/RequestTimeout", .string "5s"),
    ("Service/StartupMsg", .string ""),
    ("Service/HealthCheckInterval", .string ""),
    ("Service/ServerBindAddr", .string ""),
    ("Service/MaxRequestSize", .int .uint64 0),
    ("Service/CORSConfiguration/EnableCORS", .bool false),
    ("Service/CORSConfiguration/CORSAllowCredentials", .bool false),
    ("Service/CORSConfiguration/CORSAllowedOrigin", .string "https://localhost"),
    ("Service/CORSConfiguration/CORSAllowedMethods", .string "GET, POST, PUT, PATCH, DELETE"),
    ("Service/CORSConfiguration/CORSAllowedHeaders",
      .string "Authorization, Accept, Accept-Language, Content-Language, Content-Type, X-Correlation-ID"),
    ("Service/CORSConfiguration/CORSExposeHeaders",
      .string "Cache-Control, Content-Language, Content-Length, Content-Type, Expires, Last-Modified, Pragma, X-Correlation-ID"),
    ("Service/CORSConfiguration/CORSMaxAge", .int .uint32 3600),
    ("Device/Labels", .vector []),
    ("Device/ProfilesDir", .string ""),
    ("Device/DevicesDir", .string ""),
    ("Device/ProvisionWatchersDir", .string ""),
    ("Device/EventQLength", .int .uint32 0),
    ("Device/AllowedFails", .int .int32 0),
    ("Device/DeviceDownTimeout", .int .uint64 0),
    ("MessageBus/Type", .string "mqtt")]

/-- The entries that it adds after those of the bus. -/
def secretStoreDefaults (svcname : String) : List (String × IotData) :=
  [("SecretStore/Type", .string "vault"),
    ("SecretStore/Host", .string "localhost"),
    ("SecretStore/Port", .int .uint16 8200),
    ("SecretStore/Protocol", .string "http"),
    ("SecretStore/Path", .string (svcname ++ "/")),
    ("SecretStore/RootCaCertPath", .string ""),
    ("SecretStore/ServerName", .string ""),
    ("SecretStore/TokenFile", .string ("/tmp/edgex/secrets/" ++ svcname ++ "/secrets-token.json")),
    ("SecretStore/Authentication/AuthType", .string "X-Vault-Token"),
    ("SecretStore/SecretsFile", .string ""),
    ("SecretStore/DisableScrubSecretsFile", .bool false)]

/-- The entries that `edgex_common_config_defaults` adds. -/
def commonDefaultEntries (lib : ConfigLib) (svcname : String) : List (String × IotData) :=
  deviceServiceDefaults lib ++ busConfigDefaults ++ secretStoreDefaults svcname

/-- `edgex_common_config_defaults`. -/
def commonConfigDefaults (lib : ConfigLib) (svcname : String) : IotMap :=
  IotMap.empty.addAll (commonDefaultEntries lib svcname)

/-- The entries that `edgex_private_config_defaults` adds for the service itself. -/
def privateDefaultEntries (lib : ConfigLib) : List (String × IotData) :=
  [("Writable/LogLevel", .string "WARNING"),
    ("Device/UpdateLastConnected", .bool false),
    ("MaxEventSize", .int .uint32 0),
    ("Writable/Telemetry/PublishTopicPrefix", .string "edgex/telemetry"),
    ("Writable/Telemetry/Metrics/ReadCommandsExecuted", .bool false),
    ("Service/Host", .string lib.nodename),
    ("Service/Port", .int .uint16 59999),
    ("Service/StartupMsg", .string "")]

/-- The key of a driver's configuration element, among those of the service. -/
def driverKey (key : String) : String :=
  if "Writable/".toList <+: key.toList then
    "Writable/" ++ "Driver/" ++ String.ofList (key.toList.drop 9)
  else "Driver/" ++ key

/-- The entries that `edgex_private_config_defaults` adds for the driver. -/
def driverDefaultEntries : Option IotData → List (String × IotData)
  | some (.map entries) => entries.map fun e => (driverKey e.1, e.2)
  | _ => []

/-- `edgex_private_config_defaults`. -/
def privateConfigDefaults (lib : ConfigLib) (driverconf : Option IotData) : IotMap :=
  (IotMap.empty.addAll (privateDefaultEntries lib)).addAll (driverDefaultEntries driverconf)

/-- `findEntry`: a key is looked up a segment at a time. -/
def findEntry (map : Option IotData) (key : String) : Option IotData :=
  (key.toList.splitOn '/').foldl (fun m segment => stringMapGet m (String.ofList segment)) map

/-- What a configuration file offers for a key. -/
def mapSource (lib : ConfigLib) (map : Option IotData) (key : String) : ValueOffer := fun t =>
  (findEntry map key).bind fun replace => lib.transform replace t

/-- The name of the environment variable for a key, as `checkOverride` writes it. -/
def envName (key : String) : String :=
  String.ofList
    (key.toList.map fun c => if c = '/' then '_' else if c.isLower then c.toUpper else c)

/-- What the environment offers for a key. -/
def envSource (lib : ConfigLib) (key : String) : ValueOffer := fun t =>
  (lib.getenv (envName key)).bind fun newtxt => lib.fromString newtxt t

/-- What a list of pairs offers for a key. -/
def nvSource (lib : ConfigLib) (pairs : NvPairs) (key : String) : ValueOffer := fun t =>
  (nvpairsValue pairs key).bind fun raw => lib.fromString raw t

/-- The entries of one table below `Writable/InsecureSecrets`. -/
def insecureTable (key : String) (tab : IotData) : List (String × IotData) :=
  match stringMapGet (some tab) "SecretName" with
  | none => []
  | some sname =>
    (match stringMapGet (some tab) "SecretData" with
      | some (.map secrets) => secrets.map fun elem =>
          ("Writable/InsecureSecrets/" ++ key ++ "/SecretData/" ++ elem.1, elem.2)
      | _ => []) ++
    [("Writable/InsecureSecrets/" ++ key ++ "/SecretName", sname)]

/-- The entries that `addInsecureSecretsMap` adds. -/
def insecureSecretsMap (config : Option IotData) : List (String × IotData) :=
  match stringMapGet (stringMapGet config "Writable") "InsecureSecrets" with
  | some (.map sub) => sub.flatMap fun e => insecureTable e.1 e.2
  | _ => []

/-- The entries that `addInsecureSecretsPairs` adds. -/
def insecureSecretsPairs (config : NvPairs) : List (String × IotData) :=
  (config.filter fun p => decide ("Writable/InsecureSecrets/".toList <+: p.1.toList)).map
    fun p => (p.1, .string p.2)

/-- `edgex_device_overrideConfig_map`. -/
def overrideConfigMap (lib : ConfigLib) (config : IotMap) (map : Option IotData) : IotMap :=
  (config.mapValues fun key v => (mapSource lib map key).override v).addAll
    (insecureSecretsMap map)

/-- `edgex_device_overrideConfig_env`. -/
def overrideConfigEnv (lib : ConfigLib) (config : IotMap) : IotMap :=
  config.mapValues fun key v => (envSource lib key).override v

/-- `edgex_device_overrideConfig_nvpairs`. -/
def overrideConfigNvpairs (lib : ConfigLib) (config : IotMap) (pairs : NvPairs) : IotMap :=
  (config.mapValues fun key v => (nvSource lib pairs key).override v).addAll
    (insecureSecretsPairs pairs)

-- ════════════════════════════════════════════════════════════════════════
-- What a pass does to a key
-- ════════════════════════════════════════════════════════════════════════

/-- A key below `Writable/InsecureSecrets/`. -/
def InsecureKey (key : String) : Prop := "Writable/InsecureSecrets/".toList <+: key.toList

instance (key : String) : Decidable (InsecureKey key) := inferInstanceAs (Decidable (_ <+: _))

theorem insecureKey_append (rest : String) : InsecureKey ("Writable/InsecureSecrets/" ++ rest) := by
  rw [InsecureKey, String.toList_append]
  exact List.prefix_append _ _

theorem insecureTable_keys {key : String} {tab : IotData} {e : String × IotData}
    (h : e ∈ insecureTable key tab) : InsecureKey e.1 := by
  rw [insecureTable] at h
  split at h
  next => cases h
  next sname _ =>
    cases List.mem_append.mp h with
    | inl h =>
      split at h
      next secrets _ =>
        obtain ⟨elem, -, rfl⟩ := List.mem_map.mp h
        simp only [String.append_assoc]
        exact insecureKey_append _
      next => cases h
    | inr h =>
      obtain rfl := List.mem_singleton.mp h
      simp only [String.append_assoc]
      exact insecureKey_append _

theorem insecureSecretsMap_keys {map : Option IotData} {e : String × IotData}
    (h : e ∈ insecureSecretsMap map) : InsecureKey e.1 := by
  rw [insecureSecretsMap] at h
  split at h
  next sub _ =>
    obtain ⟨f, -, hf⟩ := List.mem_flatMap.mp h
    exact insecureTable_keys hf
  next => cases h

theorem insecureSecretsPairs_keys {pairs : NvPairs} {e : String × IotData}
    (h : e ∈ insecureSecretsPairs pairs) : InsecureKey e.1 := by
  obtain ⟨p, hp, rfl⟩ := List.mem_map.mp h
  exact of_decide_eq_true (List.mem_filter.mp hp).2

section

variable {key : String} (hk : ¬ InsecureKey key) (lib : ConfigLib) (config : IotMap)

include hk

/-- A pass over a file overrides the value of a key by what the file offers for it. -/
theorem lookup_overrideConfigMap (map : Option IotData) :
    (overrideConfigMap lib config map).lookup key =
      (config.lookup key).map (mapSource lib map key).override := by
  have hnot : ∀ e ∈ insecureSecretsMap map, e.1 ≠ key := by
    rintro e he rfl
    exact hk (insecureSecretsMap_keys he)
  rw [overrideConfigMap, IotMap.lookup_addAll_of_notMem hnot, IotMap.lookup_mapValues]

theorem lookup_overrideConfigNvpairs (pairs : NvPairs) :
    (overrideConfigNvpairs lib config pairs).lookup key =
      (config.lookup key).map (nvSource lib pairs key).override := by
  have hnot : ∀ e ∈ insecureSecretsPairs pairs, e.1 ≠ key := by
    rintro e he rfl
    exact hk (insecureSecretsPairs_keys he)
  rw [overrideConfigNvpairs, IotMap.lookup_addAll_of_notMem hnot, IotMap.lookup_mapValues]

end

theorem findEntry_none (key : String) : findEntry none key = none := by
  rw [findEntry]
  induction key.toList.splitOn '/' with
  | nil => rfl
  | cons segment segments ih => exact ih

theorem lookup_overrideConfigEnv (lib : ConfigLib) (config : IotMap) (key : String) :
    (overrideConfigEnv lib config).lookup key =
      (config.lookup key).map (envSource lib key).override :=
  IotMap.lookup_mapValues config _ key

theorem not_insecureKey_of_lookup_addAll {m : IotMap} {entries : List (String × IotData)}
    (hm : ∀ k, m.lookup k ≠ none → ¬ InsecureKey k) (h : ∀ e ∈ entries, ¬ InsecureKey e.1)
    {key : String} (hkey : (m.addAll entries).lookup key ≠ none) : ¬ InsecureKey key := by
  by_cases hmem : ∃ e ∈ entries, e.1 = key
  · obtain ⟨e, he, rfl⟩ := hmem
    exact h e he
  · have hnot : ∀ e ∈ entries, e.1 ≠ key := fun e he hek => hmem ⟨e, he, hek⟩
    rw [IotMap.lookup_addAll_of_notMem hnot] at hkey
    exact hm key hkey

theorem not_insecureKey_driverKey (key : String) : ¬ InsecureKey (driverKey key) := by
  rw [InsecureKey, driverKey]
  split <;> simp [String.toList_append]

theorem commonConfigDefaults_notInsecure (lib : ConfigLib) (svcname : String) {key : String}
    (h : (commonConfigDefaults lib svcname).lookup key ≠ none) : ¬ InsecureKey key := by
  refine not_insecureKey_of_lookup_addAll (fun k hk => absurd rfl hk) ?_ h
  have hkeys : ∀ k ∈ (commonDefaultEntries lib svcname).map Prod.fst, ¬ InsecureKey k := by
    simp only [commonDefaultEntries, deviceServiceDefaults, busConfigDefaults, secretStoreDefaults,
      List.map_append, List.map_cons, List.map_nil]
    decide +kernel
  exact fun e he => hkeys e.1 (List.mem_map_of_mem he)

theorem privateConfigDefaults_notInsecure (lib : ConfigLib) (driverconf : Option IotData)
    {key : String} (h : (privateConfigDefaults lib driverconf).lookup key ≠ none) :
    ¬ InsecureKey key := by
  refine not_insecureKey_of_lookup_addAll (fun k hk => ?_) ?_ h
  · refine not_insecureKey_of_lookup_addAll (fun k hk => absurd rfl hk) ?_ hk
    have hkeys : ∀ k ∈ (privateDefaultEntries lib).map Prod.fst, ¬ InsecureKey k := by
      simp only [privateDefaultEntries, List.map_cons, List.map_nil]
      decide +kernel
    exact fun e he => hkeys e.1 (List.mem_map_of_mem he)
  · intro e he
    unfold driverDefaultEntries at he
    split at he
    next entries =>
      obtain ⟨f, -, rfl⟩ := List.mem_map.mp he
      exact not_insecureKey_driverKey f.1
    next => cases he

/-- Conversions of the numbers of a file to two narrower widths, in an environment without
    variables. -/
def sampleConfigLib : ConfigLib where
  transform d t :=
    match d, t with
    | .int .int64 x, .int .uint16 => some ⟨.int .uint16 (x.setWidth 16), rfl⟩
    | .int .int64 x, .int .uint32 => some ⟨.int .uint32 (x.setWidth 32), rfl⟩
    | _, _ => none
  fromString _ _ := none
  getenv _ := none
  nodename := "node"

/-- A library that reads texts as texts. -/
def textConfigLib : ConfigLib :=
  { sampleConfigLib with fromString := stringOffer }

end DeviceSdk
