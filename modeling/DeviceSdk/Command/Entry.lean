import DeviceSdk.Command.Handler

/-!
# Entry points

The five places where a path starts, each with the device map that it works on: the two
command handlers, the autoevent runner, the probe of a device that is down, and the
posting of readings.

## Main definitions

- `onDevice` — find a device by name, and work on it
- `handlerV2`, `handlerV3` — `edgex_device_handler_device_namev2`, `…_devicev3`
- `busReply` — the part of `edgex_bus_handle_request` that sends a reply
- `aeRunner`, `deviceReturn`, `postReadings`
-/

namespace DeviceSdk

namespace Store

/-- The device and the profile that `edgex_devmap_device_byname` gives access to. -/
def found (s : Store) (name : String) : Option (DeviceObj × DeviceProfile) :=
  (s.devices.lookup name).map fun d =>
    ((s.deviceByname name).1.device d, ((s.deviceByname name).1.profileOf d).profile)

/-- Write what a path left in a device and its profile. -/
def writeBack (s : Store) (d : DeviceRef) (dev : DeviceObj) (prof : DeviceProfile) : Store :=
  { s.modifyDevice d fun obj => { obj with address := dev.address, retries := dev.retries } with
    profile := Function.update s.profile (s.device d).dev.profile
      { s.profileOf d with profile := prof } }

/-- Apply the releases of a path. -/
def applyReleases (s : Store) (d : DeviceRef) (t : List Effect) : Store :=
  t.foldl (fun s e => if e = .release then s.deviceRelease d else s) s

end Store

/-- What an entry point leaves: the device map, what it returns, and what it did. -/
structure Handled (α : Type) where
  store : Store
  val : α
  trace : List Effect

/-- `edgex_devmap_device_byname`, and what is done with the device that is found. -/
def onDevice {α : Type} (s : Store) (name : String)
    (f : DeviceObj → DeviceProfile → Step (α × DeviceProfile)) (absent : α) : Handled α :=
  match s.devices.lookup name with
  | none => { store := s, val := absent, trace := [.byname name false] }
  | some d =>
    let s := (s.deviceByname name).1
    let r := f (s.device d) (s.profileOf d).profile
    { store := (s.writeBack d r.dev r.val.2).applyReleases d r.trace
      val := r.val.1
      trace := .byname name true :: r.trace }

/-- On a device that is found, an entry point does and returns what its work on it does. -/
theorem onDevice_found {α : Type} {s : Store} {name : String}
    {f : DeviceObj → DeviceProfile → Step (α × DeviceProfile)} {absent : α} {dev : DeviceObj}
    {prof : DeviceProfile} (hf : s.found name = some (dev, prof)) :
    (onDevice s name f absent).trace = .byname name true :: (f dev prof).trace ∧
      (onDevice s name f absent).val = (f dev prof).val.1 := by
  obtain ⟨d, hd, hdp⟩ := Option.map_eq_some_iff.mp hf
  obtain ⟨rfl, rfl⟩ := Prod.mk.inj hdp
  simp [onDevice, hd]

variable (sdk : Sdk)

/-- `edgex_device_handler_device_namev2`. -/
def handlerV2 (s : Store) (req : HttpRequest) : Handled HttpReply :=
  if sdk.adminstate = .locked then
    { store := s, val := errorResponse httpLocked "device endpoint: service is locked", trace := [] }
  else
    onDevice s req.name (v2impl sdk req)
      (errorResponse httpNotFound ("No device named " ++ req.name))

/-- `edgex_device_handler_devicev3`. -/
def handlerV3 (s : Store) (req : BusRequest) : Handled (ℕ × Option Body) :=
  if sdk.adminstate = .locked then
    { store := s, val := (httpLocked, v3ErrorResponse "device endpoint: service is locked"),
      trace := [] }
  else
    onDevice s req.device (v3dispatch sdk req)
      (httpNotFound, v3ErrorResponse "No device named %s")

/-- The settings of a bus and of a message that decide how a reply is sent. -/
structure BusSettings where
  cbor : Bool := false
  msgb64payload : Bool := false
  hasRequestId : Bool := true

/-- The reply of `edgex_bus_handle_request`, sent after the handler returned. An event in
    it is encoded when the payload is base64 text, or when the reply is posted. -/
def busReply (bus : BusSettings) (reply : Option Body) : List Effect :=
  match reply with
  | some (.event ev) =>
    if (!bus.cbor && (bus.msgb64payload || ev.cbor)) || bus.hasRequestId then [.writeEvent ev]
    else []
  | _ => []

/-- `edgex_autoimpl`. `last` holds the readings of the last event, for `onChange`. -/
structure AutoImpl where
  device : String
  resource : CmdInfo
  onChange : Bool := false
  onChangeThreshold : ℚ := 0
  last : Option (ℕ → CommandResult) := none

/-- `values_exceed_threshold`. A reading always has a value here, so the check for `NULL` is left
    out. Where only one of the two values is a number, the code hands a `NULL` to `iot_data_f64`;
    a NaN stands for what it reads there. -/
def valuesExceedThreshold (newvals oldvals : ℕ → CommandResult) (nvals : ℕ) (threshold : Flt) :
    Bool :=
  (List.range nvals).any fun i =>
    match sdk.libs.codec.toFloat64 (newvals i).value, sdk.libs.codec.toFloat64 (oldvals i).value with
    | none, none => !(newvals i).value.equal (oldvals i).value
    | curr, prev =>
      threshold.lt
        (sdk.libs.float.f64 (sdk.libs.float.sub (curr.getD .nan) (prev.getD .nan))).abs

/-- `devsdk_commandresult_equal`. -/
def commandresultEqual (lhs rhs : ℕ → CommandResult) (n : ℕ) : Bool :=
  (List.range n).all fun i => (lhs i).value.equal (rhs i).value

/-- The decision of `ae_runner` to publish. -/
def shouldPublish (ai : AutoImpl) (results : ℕ → CommandResult) : Bool :=
  match ai.onChange, ai.last with
  | true, some last =>
    if 0 < ai.onChangeThreshold then
      valuesExceedThreshold sdk results last ai.resource.nreqs (.finite ai.onChangeThreshold)
    else !commandresultEqual results last ai.resource.nreqs
  | _, _ => true

/-- `devsdk_commandresult_dup`, which does not copy the origin. -/
def commandresultDup (res : ℕ → CommandResult) : ℕ → CommandResult :=
  fun i => { value := (res i).value }

/-- `ae_runner`, from the driver's readings on: the readings to compare with next time. -/
def runReadings (ai : AutoImpl) (dev : DeviceObj) (values : ℕ → CommandResult)
    (tags : Option IotData) : Step (Option (ℕ → CommandResult)) :=
  if shouldPublish sdk ai values then
    match cookEvent sdk dev ai.resource values tags with
    | some ev =>
      let q := requestSucceeded sdk dev
      { val := if ai.onChange then some (commandresultDup values) else ai.last
        dev := q.dev
        trace := [.processEvent] ++ sizeCheck sdk ++
          (if ev.tooLarge sdk.libs sdk.device.maxeventsize then [] else [.publish ev]) ++
          updateLastConnected sdk dev.dev.name ++ q.trace }
    | none =>
      { val := ai.last, dev,
        trace := [.processEvent, .inspect, .setOpstate dev.dev.name .down] }
  else
    let q := requestSucceeded sdk dev
    { val := ai.last, dev := q.dev, trace := q.trace }

/-- `ae_runner`, after the device was found. -/
def aeRun (ai : AutoImpl) (dev : DeviceObj) (prof : DeviceProfile) :
    Step (Option (ℕ → CommandResult) × DeviceProfile) :=
  if sdk.adminstate = .locked ∨ dev.dev.adminState = .locked ∨ dev.dev.operatingState = .down then
    { val := (ai.last, prof), dev, trace := [.inspect, .release] }
  else
    let a := obtainAddress sdk dev
    match a.val.1 with
    | none =>
      { val := (ai.last, prof)
        dev := a.dev
        trace := [.inspect] ++ a.trace ++ [.inspect, .release] }
    | some address =>
      let before := [.inspect] ++ a.trace ++
        [Effect.gethandler (some address) ai.resource.reqs none]
      match sdk.driver.gethandler (some address) (ai.resource.reqs.map CmdReq.req) none with
      | .error _ =>
        let q := requestFailed sdk a.dev
        { val := (ai.last, prof)
          dev := q.dev
          trace := before ++ [.inspect] ++ q.trace ++ [.release] }
      | .ok (values, tags) =>
        let q := runReadings sdk ai a.dev values tags
        { val := (q.val, prof), dev := q.dev, trace := before ++ q.trace ++ [.release] }

/-- `ae_runner`. -/
def aeRunner (s : Store) (ai : AutoImpl) : Handled (Option (ℕ → CommandResult)) :=
  onDevice s ai.device (aeRun sdk ai) ai.last

/-- The loop of `devsdk_device_return` that chooses the command to probe with. -/
def probeCommand (cmdinfo : List CmdInfo) : Option CmdInfo :=
  cmdinfo.find? fun cmd => !(!cmd.isget && decide (1 < cmd.nreqs))

/-- `devsdk_device_return`, after the device was found. The driver is given one request. -/
def probe (name : String) (dev : DeviceObj) (prof : DeviceProfile) : Step (Unit × DeviceProfile) :=
  if dev.dev.operatingState = .up then
    { val := ((), prof), dev, trace := [.inspect, .release] }
  else
    match probeCommand prof.cmdinfo with
    | none => { val := ((), prof), dev, trace := [.inspect, .release] }
    | some cmd =>
      let reqs := cmd.reqs.take 1
      { val := ((), prof)
        dev
        trace := [.inspect, .gethandler dev.address reqs none] ++
          (match sdk.driver.gethandler dev.address (reqs.map CmdReq.req) none with
            | .ok _ => [.setOpstate name .up]
            | .error _ => [.returnSchedule name (secToNs sdk.device.devDowntime)]) ++ [.release] }

/-- `devsdk_device_return`. -/
def deviceReturn (s : Store) (name : String) : Handled Unit :=
  onDevice s name (probe sdk name) ()

/-- `devsdk_post_readings`, after the device was found. It is released at once. -/
def post (devname resname : String) (values : ℕ → CommandResult) (tags : Option IotData)
    (dev : DeviceObj) (prof : DeviceProfile) : Step (Unit × DeviceProfile) :=
  let f := findcommand sdk.driver.createRes prof resname true
  { val := ((), f.1)
    dev
    trace := [.findcommand resname true, .release] ++
      match f.2 with
      | none => []
      | some command =>
        [.processEvent] ++
          match cookEvent sdk dev command values tags with
          | none => []
          | some ev =>
            sizeCheck sdk ++
              (if ev.tooLarge sdk.libs sdk.device.maxeventsize then [] else [.publish ev]) ++
              if sdk.device.updatelastconnected then [.lastConnected devname] else [] }

/-- `devsdk_post_readings`. -/
def postReadings (s : Store) (devname resname : String) (values : ℕ → CommandResult)
    (tags : Option IotData) : Handled Unit :=
  if sdk.adminstate = .locked then { store := s, val := (), trace := [] }
  else onDevice s devname (post sdk devname resname values tags) ()

end DeviceSdk
