import DeviceSdk.CmdInfo
import DeviceSdk.DevMap.Store
import DeviceSdk.Event

/-!
# What a command path does

The paths that lead to a driver are modelled with a record of what they do, in order:
calls to the driver, to core-metadata and to the message bus, and where they read the
device, its profile or an event that was built from them. Replies of the driver and of
the libraries are parameters.

## Main definitions

- `Effect` — one thing that a path does
- `seen` — the part of a trace that can be seen from outside the path
- `Driver`, `Sdk` — the driver, and the service that a path runs in
- `obtainAddress` — the address of a device, which the driver makes when it is needed
- `requestFailed`, `requestSucceeded` — the accounting of `opstate.c`
-/

namespace DeviceSdk

/-- What a path does. `inspect` is a read of the device, its profile or a command of
    its profile; `eventSize` and `writeEvent` encode an event. The requests of a call to
    the driver are recorded with the property values that belong to them. -/
inductive Effect
  | byname (name : String) (found : Bool)
  | release
  | inspect
  | findcommand (name : String) (forGet : Bool)
  | createAddr (protocols : List Protocol)
  | gethandler (address : Option Opaque) (reqs : List CmdReq) (params : Option IotData)
  | puthandler (address : Option Opaque) (reqs : List CmdReq)
      (values : List (Option IotData)) (params : Option IotData)
  | processEvent
  | eventSize
  | publish (ev : Event)
  | writeEvent (ev : Event)
  | lastConnected (devname : String)
  | setOpstate (devname : String) (st : OperatingState)
  | returnSchedule (devname : String) (wait : BitVec 64)
  deriving DecidableEq

/-- Something can be seen from outside the path: by the driver, by core-metadata, by the
    scheduler, or on the message bus. -/
@[simp] def Effect.seen : Effect → Bool
  | gethandler _ _ _ | puthandler _ _ _ _ | publish _ | setOpstate _ _ | returnSchedule _ _ => true
  | _ => false

/-- The part of a trace that can be seen from outside. -/
def seen (t : List Effect) : List Effect := t.filter Effect.seen

@[simp] theorem seen_nil : seen [] = [] := rfl

@[simp] theorem seen_cons (e : Effect) (t : List Effect) :
    seen (e :: t) = if e.seen then e :: seen t else seen t := List.filter_cons

@[simp] theorem seen_append (t u : List Effect) : seen (t ++ u) = seen t ++ seen u :=
  List.filter_append t u

/-- What is picked from a trace is picked from what is seen, if only that is of interest. -/
theorem filterMap_seen {β : Type} {f : Effect → Option β}
    (hf : ∀ e : Effect, e.seen = false → f e = none) (t : List Effect) :
    (seen t).filterMap f = t.filterMap f := by
  induction t with
  | nil => rfl
  | cons e t ih =>
    rw [seen_cons]
    cases he : e.seen with
    | true => rw [if_pos rfl, List.filterMap_cons, List.filterMap_cons, ih]
    | false => rw [if_neg Bool.false_ne_true, List.filterMap_cons_none (hf e he), ih]

/-- The functions of a driver. Where a function fails, there may be an exception. -/
structure Driver where
  createRes : CreateRes
  createAddr : List Protocol → Option Opaque × Option IotData
  gethandler : Option Opaque → List CommandRequest → Option IotData →
    Except (Option IotData) ((ℕ → CommandResult) × Option IotData)
  puthandler : Option Opaque → List CommandRequest → List (Option IotData) → Option IotData →
    Except (Option IotData) Unit

/-- The parts of `devsdk_service_t` that a command path uses. -/
structure Sdk where
  libs : Libs
  driver : Driver
  stamp : Stamp
  device : DeviceInfo := {}
  adminstate : AdminState := .unlocked
  reducedEvents : Bool := false

/-- The result of a step of a path: what it returns, the device as it leaves it, and
    what it did. -/
structure Step (α : Type) where
  val : α
  dev : DeviceObj
  trace : List Effect

/-- The body of a reply. -/
inductive Body
  | error (message : String)
  | base (message : String)
  | event (ev : Event)
  deriving DecidableEq

/-- `devsdk_http_reply`. -/
structure HttpReply where
  code : ℕ := 200
  body : Option Body := none
  deriving DecidableEq

/-- `edgex_error_response`. -/
def errorResponse (code : ℕ) (message : String) : HttpReply :=
  { code, body := some (.error message) }

/-- `edgex_v3_error_response`. The text is formatted for the log, but what goes into
    the reply is the format itself. -/
def v3ErrorResponse (format : String) : Option Body := some (.error format)

/-- The text of an exception of the driver. -/
def exceptionText (libs : Libs) (e : Option IotData) : String :=
  match e with
  | some e => libs.codec.toJson e
  | none => "(unknown)"

variable (sdk : Sdk)

/-- The address of a device. The driver is asked for it when it is not known yet. -/
def obtainAddress (dev : DeviceObj) : Step (Option Opaque × Option IotData) :=
  match dev.address with
  | some address => { val := (some address, none), dev, trace := [.inspect] }
  | none =>
    let r := sdk.driver.createAddr dev.dev.protocols
    { val := r
      dev := { dev with address := r.1 }
      trace := [.inspect, .createAddr dev.dev.protocols] }

/-- `devsdk_device_request_failed`. -/
def requestFailed (dev : DeviceObj) : Step Unit :=
  if sdk.device.allowedFails = 0 then { val := (), dev, trace := [] }
  else
    let dev := { dev with retries := dev.retries - 1 }
    if dev.retries = 0 then
      { val := ()
        dev
        trace := [.inspect, .setOpstate dev.dev.name .down] ++
          if sdk.device.devDowntime = 0 then []
          else [.returnSchedule dev.dev.name (secToNs sdk.device.devDowntime)] }
    else { val := (), dev, trace := [.inspect] }

/-- `devsdk_device_request_succeeded`. -/
def requestSucceeded (dev : DeviceObj) : Step Unit :=
  if sdk.device.allowedFails = 0 then { val := (), dev, trace := [] }
  else
    { val := ()
      dev := { dev with retries := sdk.device.allowedFails }
      trace := [.inspect] ++
        if dev.dev.operatingState = .down then [.setOpstate dev.dev.name .up] else [] }

/-- The update of the time a device was last connected, if it is configured. -/
def updateLastConnected (devname : String) : List Effect :=
  if sdk.device.updatelastconnected then [.inspect, .lastConnected devname] else []

theorem obtainAddress_trace (dev : DeviceObj) :
    (obtainAddress sdk dev).trace = [.inspect] ∨
      (obtainAddress sdk dev).trace = [.inspect, .createAddr dev.dev.protocols] := by
  rw [obtainAddress]
  split
  · exact Or.inl rfl
  · exact Or.inr rfl

/-- Asking for the address changes nothing else about a device. -/
theorem obtainAddress_dev (dev : DeviceObj) :
    (obtainAddress sdk dev).dev = { dev with address := (obtainAddress sdk dev).val.1 } := by
  rw [obtainAddress]
  split
  · next h => simp [← h]
  · rfl

@[simp] theorem seen_obtainAddress (dev : DeviceObj) :
    seen (obtainAddress sdk dev).trace = [] := by
  rcases obtainAddress_trace sdk dev with h | h <;> simp [h]

@[simp] theorem seen_updateLastConnected (devname : String) :
    seen (updateLastConnected sdk devname) = [] := by
  rw [updateLastConnected]
  split <;> rfl

/-- Of a failure, what is seen is the failure that uses up the last retry. -/
theorem seen_requestFailed (dev : DeviceObj) :
    seen (requestFailed sdk dev).trace =
      if sdk.device.allowedFails ≠ 0 ∧ dev.retries - 1 = 0 then
        .setOpstate dev.dev.name .down :: if sdk.device.devDowntime = 0 then [] else
          [.returnSchedule dev.dev.name (secToNs sdk.device.devDowntime)]
      else [] := by
  rw [requestFailed]
  by_cases hz : sdk.device.allowedFails = 0
  · rw [if_pos hz, if_neg fun h => h.1 hz]
    rfl
  · rw [if_neg hz]
    dsimp only
    by_cases hr : dev.retries - 1 = 0
    · have hboth : sdk.device.allowedFails ≠ 0 ∧ dev.retries - 1 = 0 := ⟨hz, hr⟩
      rw [if_pos hr, if_pos hboth, seen_append]
      split <;> rfl
    · rw [if_neg hr, if_neg fun h => hr h.2]
      rfl

/-- Of a success, what is seen is that of a device that is down. -/
theorem seen_requestSucceeded (dev : DeviceObj) :
    seen (requestSucceeded sdk dev).trace =
      if sdk.device.allowedFails ≠ 0 ∧ dev.dev.operatingState = .down then
        [.setOpstate dev.dev.name .up] else [] := by
  rw [requestSucceeded]
  by_cases hz : sdk.device.allowedFails = 0
  · rw [if_pos hz, if_neg fun h => h.1 hz]
    rfl
  · rw [if_neg hz, seen_append]
    by_cases hd : dev.dev.operatingState = .down
    · have hboth : sdk.device.allowedFails ≠ 0 ∧ dev.dev.operatingState = .down := ⟨hz, hd⟩
      rw [if_pos hd, if_pos hboth]
      rfl
    · rw [if_neg hd, if_neg fun h => hd h.2]
      rfl

end DeviceSdk
