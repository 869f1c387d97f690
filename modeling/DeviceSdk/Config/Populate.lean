import DeviceSdk.Config.Override
import DeviceSdk.DevMap.Store
import DeviceSdk.Lib.Text

/-!
# The live configuration

What `config.c` derives from the configuration map: the record that the rest of the SDK reads,
the schedule of periodic discovery and the schedule of the metrics. The record is filled by two
functions, one for the common part and one for the private part, and each of the two callbacks
of the registry calls one of them.

## Main definitions

- `DeviceConfig`, `PeriodicDiscovery`, `ServiceState` — the derived state
- `populateCommonConfigFromMap`, `populateConfigFromMap`, `populateConfig`
- `PeriodicDiscovery.configure` — `edgex_device_periodic_discovery_configure`
- `updateCommonConf`, `updateConf` — the callbacks

## Main results

- `PeriodicDiscovery.configure_schedule` — the schedule that a driver with discovery gets
-/

namespace DeviceSdk

/-- `isspace`, in the C locale. -/
def isspace (c : Char) : Bool := c = ' ' || (9 ≤ c.toNat && c.toNat ≤ 13)

/-- `strtoul` in base ten: the number, and the text behind it. -/
def strtoul (s : List Char) : BitVec 64 × List Char :=
  let (negative, body) : Bool × List Char :=
    match s.dropWhile isspace with
    | '-' :: cs => (true, cs)
    | '+' :: cs => (false, cs)
    | cs => (false, cs)
  let digits := body.takeWhile Char.isDigit
  let n := digits.foldl (fun n c => 10 * n + (c.toNat - '0'.toNat)) 0
  if digits = [] then (0, s)
  else if 2 ^ 64 ≤ n then (BitVec.allOnes 64, body.dropWhile Char.isDigit)
  else (if negative then -BitVec.ofNat 64 n else BitVec.ofNat 64 n, body.dropWhile Char.isDigit)

/-- `time_suffixes`. -/
def timeSuffixes : List (String × BitVec 64) :=
  [("ms", 1), ("s", 1000), ("m", 60000), ("h", 3600000)]

/-- `edgex_parsetime`: a time in milliseconds. -/
def parsetime (spec : String) : BitVec 64 :=
  let (fnum, fend) := strtoul spec.toList
  match timeSuffixes.lookup (String.ofList fend) with
  | some factor => fnum * factor
  | none => 0

/-- `iot_loglevel_t`. -/
inductive LogLevel
  | none | error | warning | info | debug | trace
  deriving DecidableEq, Repr

/-- `edgex_log_levels`, from the first level with a name on. -/
def logLevels : List (String × LogLevel) :=
  [("ERROR", .error), ("WARNING", .warning), ("INFO", .info), ("DEBUG", .debug), ("TRACE", .trace)]

/-- `edgex_logger_nametolevel`, which compares by `strcasecmp`. -/
def nametolevel (lstr : String) : Option LogLevel :=
  (logLevels.find? fun l => l.1.toLower = lstr.toLower).map Prod.snd

/-- `edgex_config_setloglevel`: the level that is left. -/
def setloglevel (lstr : String) (result : LogLevel) : LogLevel :=
  (nametolevel lstr).getD result

/-- `IOT_MS_TO_NS`. -/
def msToNs (ms : BitVec 64) : BitVec 64 := ms * 1000000

/-- `edgex_device_periodic_discovery_t`: a schedule is given by its period. -/
structure PeriodicDiscovery where
  /-- Whether the driver has a discovery function. -/
  discfn : Bool
  schedule : Option (BitVec 64)
  interval : BitVec 64
  period_eq : ∀ p, schedule = some p → p = secToNs interval

namespace PeriodicDiscovery

/-- A schedule with the interval as its period. -/
def create (d : PeriodicDiscovery) (interval : BitVec 64) : PeriodicDiscovery where
  discfn := d.discfn
  schedule := some (secToNs interval)
  interval := interval
  period_eq := fun _ h => (Option.some_inj.mp h).symm

/-- No schedule. -/
def delete (d : PeriodicDiscovery) : PeriodicDiscovery where
  discfn := d.discfn
  schedule := none
  interval := d.interval
  period_eq := fun _ h => nomatch h

/-- `edgex_device_periodic_discovery_configure`. -/
def configure (d : PeriodicDiscovery) (enabled : Bool) (interval : BitVec 64) :
    PeriodicDiscovery :=
  if d.schedule.isSome then
    if enabled && interval != 0 then
      if interval != d.interval then d.create interval else d
    else d.delete
  else if enabled && interval != 0 then
    -- A driver without discovery gets an error in the log.
    if d.discfn then d.create interval else d
  else d

/-- The period that a setting asks for. -/
def period (enabled : Bool) (interval : BitVec 64) : Option (BitVec 64) :=
  if enabled && interval != 0 then some (secToNs interval) else none

@[simp] theorem configure_discfn (d : PeriodicDiscovery) (enabled : Bool) (interval : BitVec 64) :
    (d.configure enabled interval).discfn = d.discfn := by
  rw [configure]
  split_ifs <;> rfl

theorem configure_schedule {d : PeriodicDiscovery} (h : d.discfn) (enabled : Bool)
    (interval : BitVec 64) :
    (d.configure enabled interval).schedule = period enabled interval := by
  rw [configure, period]
  cases hs : d.schedule with
  | none =>
    cases hw : enabled && interval != 0 with
    | true => simp [h, create]
    | false => simp [hs]
  | some p =>
    cases hw : enabled && interval != 0 with
    | true =>
      by_cases hi : interval = d.interval
      · simp [hs, d.period_eq p hs, hi]
      · simp [hi, create]
    | false => simp [delete]

end PeriodicDiscovery

/-- `edgex_device_serviceinfo`. -/
structure ServiceInfo where
  host : Option String
  port : BitVec 16
  labels : List String
  startupmsg : Option String
  timeout : BitVec 64
  checkinterval : Option String
  bindaddr : Option String
  maxreqsz : BitVec 64

/-- `edgex_device_deviceinfo`: what requests read of it, and the rest. -/
structure DeviceSection extends DeviceInfo where
  discoveryEnabled : Bool := false
  discoveryInterval : BitVec 32 := 0
  profilesdir : Option String := none
  devicesdir : Option String := none
  provisionwatchersdir : Option String := none
  eventqlen : BitVec 32 := 0

/-- `edgex_device_metricinfo`. -/
structure MetricInfo where
  flags : BitVec 64
  interval : Option String
  topic : Option String

/-- `edgex_device_config`. -/
structure DeviceConfig where
  service : ServiceInfo
  device : DeviceSection
  metrics : MetricInfo
  loglevel : LogLevel
  driverconf : IotMap
  sdkconf : IotMap

/-- The metrics, each with its bit and its entry. -/
inductive Metric
  | evsent | rdgsent | rdcmds | secreq | secsto
  deriving DecidableEq, Repr

namespace Metric

/-- `EX_METRIC_EVSENT` and its siblings. -/
def mask : Metric → BitVec 64
  | evsent => 0x1
  | rdgsent => 0x2
  | rdcmds => 0x4
  | secreq => 0x8
  | secsto => 0x10

/-- The entry of the configuration map. -/
def key : Metric → String
  | evsent => "Writable/Telemetry/Metrics/EventsSent"
  | rdgsent => "Writable/Telemetry/Metrics/ReadingsSent"
  | rdcmds => "Writable/Telemetry/Metrics/ReadCommandsExecuted"
  | secreq => "Writable/Telemetry/Metrics/SecuritySecretsRequested"
  | secsto => "Writable/Telemetry/Metrics/SecuritySecretsStored"

end Metric

/-- `iot_data_bool`. -/
def dataBool : Option IotData → Bool
  | some (.bool b) => b
  | _ => false

/-- `iot_data_ui16` and the other accessors of unsigned numbers. -/
def dataUint (w : ℕ) : Option IotData → BitVec w
  | some (.int _ x) => x.setWidth w
  | _ => 0

/-- `iot_data_string_map_get_string`. -/
def mapString (map : IotMap) (key : String) : Option String :=
  match map.lookup key with
  | some (.string s) => some s
  | _ => none

/-- The strings of a vector that has nothing else. -/
def vectorStrings (xs : List IotData) : List String :=
  (xs.mapM fun x : IotData => match x with | .string s => some s | _ => none).getD []

/-- The labels of the service. -/
def serviceLabels (map : IotMap) : List String :=
  match map.lookup "Device/Labels" with
  | some (.vector xs) => vectorStrings xs
  | _ => []

/-- Whether a metric is on in a configuration map. -/
def metricOn (map : IotMap) (m : Metric) : Bool := dataBool (map.lookup m.key)

/-- A flag word with the bit of a metric added where the metric is on. -/
def addFlag (map : IotMap) (flags : BitVec 64) (m : Metric) : BitVec 64 :=
  if metricOn map m then flags ||| m.mask else flags

/-- `edgex_device_populateCommonConfigFromMap`. -/
def populateCommonConfigFromMap (config : DeviceConfig) (map : IotMap) : DeviceConfig :=
  let flags := if metricOn map .evsent then Metric.evsent.mask else 0
  let flags := addFlag map flags .rdgsent
  let flags := addFlag map flags .secreq
  let flags := addFlag map flags .secsto
  { config with
    service := { config.service with
      timeout := (mapString map "Service/RequestTimeout").elim 0 parsetime
      checkinterval := mapString map "Service/HealthCheckInterval"
      bindaddr := mapString map "Service/ServerBindAddr"
      maxreqsz := dataUint 64 (map.lookup "Service/MaxRequestSize")
      labels := serviceLabels map }
    device := { config.device with
      datatransform := dataBool (map.lookup "Device/DataTransform")
      discoveryEnabled := dataBool (map.lookup "Device/Discovery/Enabled")
      discoveryInterval := dataUint 32 (map.lookup "Device/Discovery/Interval")
      maxcmdops := dataUint 32 (map.lookup "Device/MaxCmdOps")
      maxeventsize := dataUint 32 (map.lookup "MaxEventSize")
      profilesdir := mapString map "Device/ProfilesDir"
      devicesdir := mapString map "Device/DevicesDir"
      provisionwatchersdir := mapString map "Device/ProvisionWatchersDir"
      allowedFails := dataUint 32 (map.lookup "Device/AllowedFails")
      devDowntime := dataUint 64 (map.lookup "Device/DeviceDownTimeout") }
    metrics := { config.metrics with
      interval := mapString map "Writable/Telemetry/Interval"
      flags } }

/-- `edgex_device_populateConfigFromMap`. -/
def populateConfigFromMap (config : DeviceConfig) (map : IotMap) : DeviceConfig :=
  { config with
    service := { config.service with
      host := mapString map "Service/Host"
      port := dataUint 16 (map.lookup "Service/Port")
      startupmsg := mapString map "Service/StartupMsg" }
    device := { config.device with
      updatelastconnected := dataBool (map.lookup "Device/UpdateLastConnected")
      eventqlen := dataUint 32 (map.lookup "Device/EventQLength") }
    metrics := { config.metrics with
      topic := mapString map "Writable/Telemetry/PublishTopicPrefix"
      flags := addFlag map config.metrics.flags .rdcmds } }

-- ════════════════════════════════════════════════════════════════════════
-- The service
-- ════════════════════════════════════════════════════════════════════════

/-- The part of `devsdk_service_t` that the configuration decides. -/
structure ServiceState where
  config : DeviceConfig
  discovery : PeriodicDiscovery
  /-- The period of `metricschedule`. -/
  metricschedule : Option (BitVec 64)
  /-- Whether there is a secret store. -/
  secretstore : Bool

/-- The key under which the driver sees an entry that it may change at run time. -/
def driverWritableKey (key : String) : Option String :=
  (Text.behind "Writable/Driver/" key).map fun name => "Writable/" ++ name

/-- The entry of the driver's configuration for an entry of the service's. -/
def driverEntry (e : String × IotData) : Option (String × IotData) :=
  match Text.behind "Driver/" e.1 with
  | some name => some (name, e.2)
  | none => (driverWritableKey e.1).map fun nkey => (nkey, e.2)

/-- `edgex_device_populateConfig`. -/
def populateConfig (svc : ServiceState) (config : IotMap) : ServiceState :=
  let conf := { svc.config with
    sdkconf := config
    driverconf := IotMap.empty.addAll (config.entries.filterMap driverEntry) }
  let conf := populateConfigFromMap (populateCommonConfigFromMap conf config) config
  { svc with config := { conf with
      loglevel := (mapString config "Writable/LogLevel").elim conf.loglevel
        fun lstr => setloglevel lstr conf.loglevel } }

/-- `edgex_device_periodic_discovery_configure`, with the service's own setting. -/
def configureDiscovery (svc : ServiceState) : ServiceState :=
  { svc with
    discovery := svc.discovery.configure svc.config.device.discoveryEnabled
      (svc.config.device.discoveryInterval.setWidth 64) }

/-- `devsdk_schedule_metrics`. -/
def scheduleMetrics (svc : ServiceState) : ServiceState :=
  let interval := svc.config.metrics.interval.elim 0 parsetime
  { svc with metricschedule := if interval != 0 then some (msToNs interval) else none }

/-- A service with its configuration in place: `edgex_device_populateConfig`, and the schedules
    that `startConfigured` makes. -/
def configured (svc : ServiceState) (config : IotMap) : ServiceState :=
  scheduleMetrics (configureDiscovery (populateConfig svc config))

/-- `edgex_device_updateCommonConf`, once the service has a configuration map. -/
def updateCommonConf (lib : ConfigLib) (svc : ServiceState) (config : NvPairs) : ServiceState :=
  let sdkconf := overrideConfigNvpairs lib svc.config.sdkconf config
  let updatemetrics :=
    decide (svc.config.metrics.interval ≠ mapString sdkconf "Writable/Telemetry/Interval")
  let svc := { svc with
    config := populateCommonConfigFromMap { svc.config with sdkconf } sdkconf }
  if updatemetrics then scheduleMetrics svc else svc

/-- One entry of the loop of `edgex_device_updateConf` over the configuration map: a writable
    element of the driver that has a new value is replaced. -/
def updateDriverEntry (driver : IotMap × Bool) (e : String × IotData) : IotMap × Bool :=
  match driverWritableKey e.1 with
  | none => driver
  | some nkey =>
    match driver.1.lookup nkey with
    | none => driver
    | some driverval =>
      if driverval.equal e.2 then driver else (driver.1.add nkey e.2, true)

/-- What `edgex_device_updateConf` leaves, and what it hands on. -/
structure ConfUpdated where
  svc : ServiceState
  /-- The configuration given to `edgex_secrets_reconfigure`. -/
  secrets : Option IotMap
  /-- The configuration given to the driver's `reconfigure`. -/
  driver : Option IotMap

/-- `edgex_device_updateConf`. -/
def updateConf (lib : ConfigLib) (svc : ServiceState) (config : NvPairs) : ConfUpdated :=
  let sdkconf := overrideConfigNvpairs lib svc.config.sdkconf config
  let conf := populateConfigFromMap { svc.config with sdkconf } sdkconf
  let loglevel := (nvpairsValue config "Writable/LogLevel").elim conf.loglevel
    fun lname => setloglevel lname conf.loglevel
  let svc := configureDiscovery { svc with config := { conf with loglevel } }
  let (driverconf, updatedriver) :=
    sdkconf.entries.foldl updateDriverEntry (svc.config.driverconf, false)
  { svc := { svc with config := { svc.config with driverconf } }
    secrets := if svc.secretstore then some sdkconf else none
    driver := if updatedriver then some driverconf else none }

end DeviceSdk
