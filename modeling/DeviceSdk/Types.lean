import DeviceSdk.Iot.Data

/-!
# Devices and device profiles

The records of `edgex.h` and `cmdinfo.h`, and the comparison functions that
`devsdk-base.c` generates for linked lists. A linked list is a `List`, a pointer
that may be `NULL` is an `Option`, and the opaque pointers that a driver returns
are `ℕ`.

## Main definitions

- `DeviceProfile`, `CmdInfo` — a profile and the commands prepared from it
- `Device` — a device, over the type of its reference to a profile
- `protocolsEqual`, `autoeventsEqual` — the `LIST_EQUAL_FUNCTION` instances
-/

namespace DeviceSdk

/-- `URL_BUF_SIZE`. -/
def urlBufSize : ℕ := 512

/-- `edgex_device_adminstate`. -/
inductive AdminState
  | locked | unlocked
  deriving DecidableEq, Repr

/-- `edgex_device_operatingstate`. -/
inductive OperatingState
  | up | down
  deriving DecidableEq, Repr

/-- The status codes of libmicrohttpd that the SDK uses. -/
def httpOk : ℕ := 200

def httpBadRequest : ℕ := 400

def httpNotFound : ℕ := 404

def httpMethodNotAllowed : ℕ := 405

def httpLocked : ℕ := 423

def httpInternalServerError : ℕ := 500

/-- A pointer that only the driver interprets. -/
abbrev Opaque := ℕ

/-- Seconds as nanoseconds, `IOT_SEC_TO_NS`. -/
def secToNs (s : BitVec 64) : BitVec 64 := s * 1000000000

/-- `edgex_transformArg`. The union of an integer and a double is its 64 bits. -/
structure TransformArg where
  enabled : Bool
  value : BitVec 64
  deriving DecidableEq

/-- A transformation that the profile does not ask for. -/
def TransformArg.off : TransformArg := ⟨false, 0⟩

/-- `edgex_propertyvalue`. -/
structure PropertyValue where
  type : TypeCode
  units : String := ""
  readable : Bool := true
  writable : Bool := true
  minimum : TransformArg := .off
  maximum : TransformArg := .off
  defaultvalue : String := ""
  mask : TransformArg := .off
  shift : TransformArg := .off
  scale : TransformArg := .off
  offset : TransformArg := .off
  base : TransformArg := .off
  assertion : String := ""
  mediaType : String := ""
  deriving DecidableEq

/-- `edgex_deviceresource`. -/
structure DeviceResource where
  name : String
  description : String := ""
  properties : PropertyValue
  attributes : Option IotData := none
  tags : Option IotData := none
  parsedAttrs : Option Opaque := none
  deriving DecidableEq

/-- `edgex_resourceoperation`. -/
structure ResourceOperation where
  deviceResource : String
  defaultValue : String := ""
  mappings : Option IotData := none
  deriving DecidableEq

/-- `edgex_devicecommand`. -/
structure DeviceCommand where
  name : String
  resourceOperations : List ResourceOperation
  readable : Bool := true
  writable : Bool := true
  tags : Option IotData := none
  deriving DecidableEq

/-- `devsdk_resource_t`: what the driver is told about a resource. -/
structure Resource where
  name : String
  attrs : Option Opaque
  tags : Option IotData
  type : TypeCode
  deriving DecidableEq

/-- `devsdk_commandrequest`. The mask is `none` while nothing was stored in it. -/
structure CommandRequest where
  resource : Resource
  mask : Option (BitVec 64)
  deriving DecidableEq

/-- One position of the four parallel arrays of `edgex_cmdinfo`. -/
structure CmdReq where
  req : CommandRequest
  pval : PropertyValue
  map : Option IotData
  dfl : Option String
  deriving DecidableEq

/-- `edgex_cmdinfo`: a command prepared for one direction. Of the profile it
    points back to only the name is ever read. -/
structure CmdInfo where
  name : String
  profile : String
  isget : Bool
  reqs : List CmdReq
  tags : Option IotData := none
  deriving DecidableEq

/-- The number of requests of a command. -/
def CmdInfo.nreqs (cmd : CmdInfo) : ℕ := cmd.reqs.length

/-- `edgex_deviceprofile`. An empty `cmdinfo` is the `NULL` of a profile whose
    commands were not prepared yet. -/
structure DeviceProfile where
  name : String
  description : Option String := none
  manufacturer : Option String := none
  model : Option String := none
  labels : List String := []
  deviceResources : List DeviceResource := []
  deviceCommands : List DeviceCommand := []
  cmdinfo : List CmdInfo := []
  deriving DecidableEq

/-- The profile that the device readers build: a name and nothing else. -/
def DeviceProfile.placeholder (name : String) : DeviceProfile := { name }

/-- `devsdk_protocols`, one element. -/
structure Protocol where
  name : String
  properties : IotData
  deriving DecidableEq

/-- `edgex_device_autoevents`, one element, without the schedule behind it. -/
structure AutoEvent where
  resource : String
  interval : String
  onChange : Bool := false
  onChangeThreshold : ℚ := 0
  deriving DecidableEq

/-- `edgex_device`, the part that describes the device. `P` is the type of its
    reference to a profile. `created` is `none` while nothing was stored in it. -/
structure Device (P : Type) where
  name : String
  profile : P
  parent : Option String := none
  description : String := ""
  labels : List String := []
  tags : Option IotData := none
  protocols : List Protocol := []
  autos : List AutoEvent := []
  adminState : AdminState := .unlocked
  operatingState : OperatingState := .up
  servicename : String := ""
  origin : ℕ := 0
  created : Option ℕ := none
  deriving DecidableEq

/-- `LIST_EQUAL_FUNCTION`: as many elements on both sides, and every element of
    the first list agrees with the first element of its name in the second. -/
def listEqual {α : Type} (name : α → String) (cmp : α → α → Bool) (l₁ l₂ : List α) : Bool :=
  decide (l₁.length = l₂.length) &&
    l₁.all fun l =>
      match l₂.find? fun f => decide (name l = name f) with
      | none => false
      | some found => cmp l found

/-- `protocol_equal`. -/
def protocolEqual (p₁ p₂ : Protocol) : Bool := p₁.properties.equal p₂.properties

/-- `devsdk_protocols_equal`. -/
def protocolsEqual : List Protocol → List Protocol → Bool :=
  listEqual Protocol.name protocolEqual

/-- `autoevent_equal`. -/
def autoeventEqual (e₁ e₂ : AutoEvent) : Bool :=
  decide (e₁.interval = e₂.interval) && decide (e₁.onChange = e₂.onChange) &&
    decide (e₁.onChangeThreshold = e₂.onChangeThreshold)

/-- `edgex_device_autoevents_equal`. -/
def autoeventsEqual : List AutoEvent → List AutoEvent → Bool :=
  listEqual AutoEvent.resource autoeventEqual

end DeviceSdk
