import DeviceSdk.Transform

/-!
# Events

`edgex_data_process_event` of `data.c`: the results of a get request are transformed
and checked against the assertions of the profile, and become an event. An event is a
map that is ready to be sent, with its encoding.

## Main definitions

- `CommandResult`, `Event` — `devsdk_commandresult`, `edgex_event_cooked`
- `processEvent` — `edgex_data_process_event`
- `Event.size` — `edgex_event_cooked_size`
-/

namespace DeviceSdk

/-- `devsdk_commandresult`. -/
structure CommandResult where
  origin : BitVec 64 := 0
  value : IotData
  deriving DecidableEq

/-- `edgex_event_cooked`. -/
structure Event where
  nrdgs : ℕ
  path : String
  value : IotData
  cbor : Bool
  deriving DecidableEq

/-- The time at which an event is built, and the identifiers that are generated for
    it: the first for the event, the following ones for its readings. -/
structure Stamp where
  timenow : BitVec 64
  genuuid : ℕ → String

/-- `EDGEX_API_VERSION`. -/
def apiVersion : String := "v3"

namespace IntTy

/-- The name of an integer type in EdgeX. -/
def edgexName : IntTy → String
  | int8 => "Int8"
  | uint8 => "Uint8"
  | int16 => "Int16"
  | uint16 => "Uint16"
  | int32 => "Int32"
  | uint32 => "Uint32"
  | int64 => "Int64"
  | uint64 => "Uint64"

end IntTy

/-- The tables `proptypes` and `arrProptypes`. -/
def proptypes : DataType → String
  | .int t => t.edgexName
  | .float32 => "Float32"
  | .float64 => "Float64"
  | .bool => "Bool"
  | .pointer => "Unused1"
  | .string => "String"
  | .null => "Unused2"
  | .binary => "Binary"
  | .array => "Unused3"
  | .vector => "Unused4"
  | .list => "Unused5"
  | .map => "Object"
  | .multi | .invalid => ""

def arrProptypes : DataType → String
  | .int t => t.edgexName ++ "Array"
  | .float32 => "Float32Array"
  | .float64 => "Float64Array"
  | .bool => "BoolArray"
  | _ => ""

/-- `edgex_typecode_tostring`. -/
def typecodeToString (tc : TypeCode) : String :=
  if tc.type = .array then arrProptypes tc.elementType else proptypes tc.type

/-- The libraries that events are built with. -/
structure Libs where
  codec : Codec
  float : FloatOps

variable (libs : Libs)

/-- `edgex_value_tostring`. -/
def valueToString : IotData → String
  | .binary bytes => libs.codec.toBase64 bytes
  | .string s => s
  | value => libs.codec.toJson value

/-- The first loop of `edgex_data_process_event`, over the requests from the `i`-th
    on: the results as transformed, or nothing where an assertion fails. -/
def cookResults (doTransforms : Bool) (values : ℕ → CommandResult) :
    List CmdReq → ℕ → Option (List CommandResult)
  | [], _ => some []
  | r :: rs, i =>
    let v := if doTransforms then
      { values i with value := transformOutgoing libs.float (values i).value r.pval r.map }
      else values i
    if r.pval.assertion ≠ "" ∧ valueToString libs v.value ≠ r.pval.assertion then none
    else (cookResults doTransforms values rs (i + 1)).map (v :: ·)

/-- The entries of a reading that depend on the type of its value. -/
def readingValue (r : CmdReq) (value : IotData) : List (String × IotData) :=
  match value with
  | .binary _ => [("binaryValue", value), ("mediaType", .string r.pval.mediaType)]
  | .array _ _ => [("value", .string (valueToString libs value))]
  | .map _ => [("objectValue", value)]
  | .string s => [("value", .string s)]
  | _ => [("value", .string (libs.codec.toJson value))]

/-- The `i`-th reading of an event. -/
def reading (stamp : Stamp) (reduced : Bool) (devname : String) (info : CmdInfo) (i : ℕ)
    (r : CmdReq) (v : CommandResult) : IotData :=
  let ids : List (String × IotData) :=
    if reduced then []
    else [("id", .string (stamp.genuuid (i + 1))), ("profileName", .string info.profile),
      ("deviceName", .string devname)]
  let resource : List (String × IotData) :=
    if !reduced || decide (1 < info.nreqs) || decide (r.req.resource.name ≠ info.name) then
      [("resourceName", .string r.req.resource.name)]
    else []
  let origin : List (String × IotData) :=
    if !reduced || (decide (v.origin ≠ 0) && decide (v.origin ≠ stamp.timenow)) then
      [("origin", .int .uint64 (if v.origin ≠ 0 then v.origin else stamp.timenow))]
    else []
  let tags : List (String × IotData) :=
    match r.req.resource.tags with
    | some tags => [("tags", tags)]
    | none => []
  let entries := ids ++ resource ++ [("valueType", .string (typecodeToString v.value.typecode))] ++
    origin ++ readingValue libs r v.value ++ tags
  .map (IotData.mapMerge [] (some (.map entries)))

/-- The readings of an event, from the `i`-th on. -/
def readings (stamp : Stamp) (reduced : Bool) (devname : String) (info : CmdInfo) :
    List CmdReq → List CommandResult → ℕ → List IotData
  | r :: rs, v :: vs, i =>
    reading libs stamp reduced devname info i r v ::
      readings stamp reduced devname info rs vs (i + 1)
  | _, _, _ => []

/-- The tags of an event: those of the driver, of the command and of the device, where
    later ones take precedence. -/
def eventTags (tags commandTags deviceTags : Option IotData) : List (String × IotData) :=
  IotData.mapMerge (IotData.mapMerge (IotData.mapMerge [] tags) commandTags) deviceTags

/-- The map of an event. -/
def eventValue (stamp : Stamp) (devname : String) (info : CmdInfo) (rvec : List IotData)
    (tags : List (String × IotData)) : IotData :=
  let evmap : List (String × IotData) :=
    [("apiVersion", .string apiVersion), ("id", .string (stamp.genuuid 0)),
      ("deviceName", .string devname), ("profileName", .string info.profile),
      ("sourceName", .string info.name), ("origin", .int .uint64 stamp.timenow),
      ("readings", .vector rvec)] ++ if tags = [] then [] else [("tags", .map tags)]
  .map (IotData.mapMerge []
    (some (.map [("apiVersion", .string apiVersion),
      ("event", .map (IotData.mapMerge [] (some (.map evmap)))),
      ("statusCode", .int .uint32 200)])))

/-- `edgex_data_process_event`. -/
def processEvent {P : Type} (stamp : Stamp) (device : Device P) (info : CmdInfo)
    (values : ℕ → CommandResult) (tags : Option IotData) (doTransforms reduced : Bool) :
    Option Event :=
  match cookResults libs doTransforms values info.reqs 0 with
  | none => none
  | some cooked =>
    some
      { nrdgs := info.nreqs
        path := info.profile ++ "/" ++ device.name ++ "/" ++ info.name
        value := eventValue stamp device.name info
          (readings libs stamp reduced device.name info info.reqs cooked 0)
          (eventTags tags info.tags device.tags)
        cbor := info.reqs.any fun r => decide (r.pval.type.type = .binary) }

/-- `edgex_event_cooked_size`. -/
def Event.size (e : Event) : ℕ :=
  if e.cbor then libs.codec.cborSize e.value else (libs.codec.toJson e.value).utf8ByteSize

/-- The size check against `MaxEventSize`, which is given in KiB and multiplied in 32
    bits. -/
def Event.tooLarge (maxeventsize : BitVec 32) (e : Event) : Bool :=
  decide (maxeventsize ≠ 0) && decide ((maxeventsize * 1024).toNat < e.size libs)

end DeviceSdk
