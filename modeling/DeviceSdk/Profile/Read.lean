import DeviceSdk.Watch.Discovered

/-!
# Reading a device profile

`edgex_profile_read` of `dto-read.c`, with the functions it is made of. Nothing stands for a use
of what the document does not have: of an absent value type, of a list that is not there, or of
the type code that a name outside of the tables leaves unset.

## Main definitions

- `typecodeFromEdgexName`, `getTransformArg`, `propertyvalueRead`
- `deviceresourceRead`, `devicecommandRead`, `profileRead`
-/

namespace DeviceSdk

open IotData (stringMapGet stringMapGetString)

/-- `iot_data_cast`, as `iot_data_string_map_get_number` uses it: to a signed 64-bit integer, and
    to a double, of which it gives the bits. -/
structure NumberCast where
  int64 : IotData → Option (BitVec 64)
  float64 : IotData → Option (BitVec 64)

/-- `get_string_dfl`. -/
def getStringDfl (obj : Option IotData) (name dfl : String) : String :=
  (stringMapGetString obj name).getD dfl

/-- `edgex_get_readwrite`. -/
def getReadwrite (obj : Option IotData) : Bool × Bool :=
  let rwstring := (stringMapGetString obj "readWrite").getD ""
  if rwstring = "" then (true, true)
  else (rwstring.toList.contains 'R', rwstring.toList.contains 'W')

variable (c : NumberCast)

/-- An argument that is on where there is a number. -/
def TransformArg.ofNumber : Option (BitVec 64) → TransformArg
  | some i => ⟨true, i⟩
  | none => .off

/-- `edgex_get_transformArg`. -/
def getTransformArg (obj : Option IotData) (name : String) (type : TypeCode) : TransformArg :=
  match type.type with
  | .int _ => .ofNumber ((stringMapGet obj name).bind c.int64)
  | .float32 | .float64 => .ofNumber ((stringMapGet obj name).bind c.float64)
  | _ => .off

/-- `arrProptypes`, with the types that its positions stand for. -/
def arrProptypeNames : List (String × DataType) :=
  [("Int8Array", .int .int8), ("Uint8Array", .int .uint8), ("Int16Array", .int .int16),
    ("Uint16Array", .int .uint16), ("Int32Array", .int .int32), ("Uint32Array", .int .uint32),
    ("Int64Array", .int .int64), ("Uint64Array", .int .uint64), ("Float32Array", .float32),
    ("Float64Array", .float64), ("BoolArray", .bool)]

/-- `proptypes`, with the types that its positions stand for. -/
def proptypeNames : List (String × DataType) :=
  [("Int8", .int .int8), ("Uint8", .int .uint8), ("Int16", .int .int16), ("Uint16", .int .uint16),
    ("Int32", .int .int32), ("Uint32", .int .uint32), ("Int64", .int .int64),
    ("Uint64", .int .uint64), ("Float32", .float32), ("Float64", .float64), ("Bool", .bool),
    ("Unused1", .pointer), ("String", .string), ("Unused2", .null), ("Binary", .binary),
    ("Unused3", .array), ("Unused4", .vector), ("Unused5", .list), ("Object", .map)]

/-- `typecode_from_edgex_name`. -/
def typecodeFromEdgexName (str : String) : Option TypeCode :=
  match arrProptypeNames.lookup str with
  | some t => some ⟨.array, t, .invalid⟩
  | none =>
    match proptypeNames.lookup str with
    | some t =>
      if "Unuse".toList.isPrefixOf str.toList then none
      else if t = .map then some ⟨.map, .multi, .string⟩
      else some ⟨t, .invalid, .invalid⟩
    | none => none

/-- The property value of a resource, once its type is known. -/
def propertyvalueOf (obj : Option IotData) (pt : TypeCode) : PropertyValue where
  scale := getTransformArg c obj "scale" pt
  offset := getTransformArg c obj "offset" pt
  base := getTransformArg c obj "base" pt
  mask := getTransformArg c obj "mask" pt
  shift := getTransformArg c obj "shift" pt
  minimum := getTransformArg c obj "minimum" pt
  maximum := getTransformArg c obj "maximum" pt
  type := pt
  readable := (getReadwrite obj).1
  writable := (getReadwrite obj).2
  defaultvalue := getString obj "defaultValue"
  assertion := getString obj "assertion"
  units := getString obj "units"
  mediaType :=
    getStringDfl obj "mediaType" (if pt.type = .binary then "application/octet-stream" else "")

/-- `propertyvalue_read`. -/
def propertyvalueRead (obj : Option IotData) : Option PropertyValue :=
  (stringMapGetString obj "valueType").bind fun str =>
    (typecodeFromEdgexName str).map (propertyvalueOf c obj)

/-- `deviceresource_read`. -/
def deviceresourceRead (obj : IotData) : Option DeviceResource :=
  (propertyvalueRead c (stringMapGet (some obj) "properties")).map fun properties =>
    { name := getString (some obj) "name"
      description := getString (some obj) "description"
      properties := properties
      attributes := stringMapGet (some obj) "attributes"
      tags := stringMapGet (some obj) "tags" }

/-- `edgex_resourceoperation_read`. -/
def resourceoperationRead (obj : IotData) : ResourceOperation where
  deviceResource := getString (some obj) "deviceResource"
  defaultValue := getString (some obj) "defaultValue"
  mappings := stringMapGet (some obj) "mappings"

/-- The elements of a list that the document must have. -/
def vectorOf (obj : IotData) (name : String) : Option (List IotData) :=
  match stringMapGet (some obj) name with
  | some (.vector xs) => some xs
  | _ => none

/-- `devicecommand_read`. -/
def devicecommandRead (obj : IotData) : Option DeviceCommand :=
  (vectorOf obj "resourceOperations").map fun ops =>
    { name := getString (some obj) "name"
      tags := stringMapGet (some obj) "tags"
      readable := (getReadwrite (some obj)).1
      writable := (getReadwrite (some obj)).2
      resourceOperations := ops.map resourceoperationRead }

/-- `edgex_profile_read`. -/
def profileRead (obj : IotData) : Option DeviceProfile := do
  let resources ← (← vectorOf obj "deviceResources").mapM (deviceresourceRead c)
  let commands ← (← vectorOf obj "deviceCommands").mapM devicecommandRead
  return {
    name := getString (some obj) "name"
    description := some (getString (some obj) "description")
    manufacturer := some (getString (some obj) "manufacturer")
    model := some (getString (some obj) "model")
    deviceResources := resources
    deviceCommands := commands }

end DeviceSdk
