import DeviceSdk.Types

/-!
# Copies of devices and profiles

The duplication functions of `edgex-rest.c`, member by member. A copy is as its original in every
member that describes it, save for one: the tags of a device command are copied from the fresh
element itself.

## Main definitions

- `deviceDup`, `deviceprofileDup` — the copies that the device map makes
- `edgexDeviceprofileDup`, `edgexDeviceDup` — the copies, over what the fresh memory held
- `ProfileCopy`, `DeviceCopy` — equality in every descriptive member

## Main results

- `devicecommandsDup_cons`, `edgexDeviceresourceDup_same` — what is copied of a command and of a
  resource
- `dup_same_iff`
-/

namespace DeviceSdk

-- ════════════════════════════════════════════════════════════════════════
-- The copies
-- ════════════════════════════════════════════════════════════════════════

/-- `propertyvalue_dup`. -/
def propertyvalueDup (pv : PropertyValue) : PropertyValue where
  type := pv.type
  readable := pv.readable
  writable := pv.writable
  minimum := pv.minimum
  maximum := pv.maximum
  defaultvalue := pv.defaultvalue
  mask := pv.mask
  shift := pv.shift
  scale := pv.scale
  offset := pv.offset
  base := pv.base
  assertion := pv.assertion
  units := pv.units
  mediaType := pv.mediaType

/-- `edgex_deviceresource_dup`. -/
def edgexDeviceresourceDup : List DeviceResource → List DeviceResource
  | [] => []
  | e :: es =>
    { name := e.name
      description := e.description
      tags := e.tags
      properties := propertyvalueDup e.properties
      attributes := e.attributes
      parsedAttrs := none } :: edgexDeviceresourceDup es

/-- `resourceoperation_dup`. -/
def resourceoperationDup : List ResourceOperation → List ResourceOperation
  | [] => []
  | ro :: ros =>
    { deviceResource := ro.deviceResource
      defaultValue := ro.defaultValue
      mappings := ro.mappings } :: resourceoperationDup ros

/-- What the memory of the new device commands held where `devicecommand_dup` reads their tags. -/
abbrev FreshMemory := ℕ → Option IotData

/-- `devicecommand_dup`. The tags are read from the new element itself. -/
def devicecommandsDup (mem : FreshMemory) : List DeviceCommand → List DeviceCommand
  | [] => []
  | pr :: prs =>
    { name := pr.name
      readable := pr.readable
      writable := pr.writable
      tags := mem 0
      resourceOperations := resourceoperationDup pr.resourceOperations } ::
        devicecommandsDup (fun i => mem (i + 1)) prs

/-- `devsdk_strings_dup`. -/
def stringsDup : List String → List String
  | [] => []
  | str :: strs => str :: stringsDup strs

/-- `edgex_deviceprofile_dup`, on a profile that is there. -/
def deviceprofileDup (mem : FreshMemory) (src : DeviceProfile) : DeviceProfile where
  name := src.name
  description := src.description
  manufacturer := src.manufacturer
  model := src.model
  labels := stringsDup src.labels
  deviceResources := edgexDeviceresourceDup src.deviceResources
  deviceCommands := devicecommandsDup mem src.deviceCommands
  cmdinfo := []

@[simp] theorem deviceprofileDup_name (mem : FreshMemory) (src : DeviceProfile) :
    (deviceprofileDup mem src).name = src.name := rfl

/-- `edgex_deviceprofile_dup`. -/
def edgexDeviceprofileDup (mem : FreshMemory) (src : Option DeviceProfile) :
    Option DeviceProfile :=
  src.map (deviceprofileDup mem)

/-- `autoevents_dup`. -/
def autoeventsDup : List AutoEvent → List AutoEvent
  | [] => []
  | e :: es =>
    { resource := e.resource
      interval := e.interval
      onChange := e.onChange
      onChangeThreshold := e.onChangeThreshold } :: autoeventsDup es

/-- `devsdk_protocols_dup`: each copy is pushed in front of the result. -/
def protocolsDup (e : List Protocol) : List Protocol :=
  e.foldl (fun result p => p :: result) []

/-- `edgex_device_dup`, apart from the profile, which the caller supplies. The time of creation is
    not copied. -/
def deviceDup {P Q : Type} (e : Device P) (profile : Q) : Device Q where
  name := e.name
  parent := e.parent
  description := e.description
  labels := stringsDup e.labels
  protocols := protocolsDup e.protocols
  tags := e.tags
  autos := autoeventsDup e.autos
  adminState := e.adminState
  operatingState := e.operatingState
  origin := e.origin
  servicename := e.servicename
  profile := profile
  created := none

/-- `edgex_device_dup`. -/
def edgexDeviceDup (mem : FreshMemory) (e : Device (Option DeviceProfile)) :
    Device (Option DeviceProfile) :=
  deviceDup e (edgexDeviceprofileDup mem e.profile)

theorem protocolsDup_eq_reverse (e : List Protocol) : protocolsDup e = e.reverse := by
  simp [protocolsDup]

theorem resourceoperationDup_eq (ros : List ResourceOperation) :
    resourceoperationDup ros = ros := by
  induction ros with
  | nil => rfl
  | cons ro ros ih => rw [resourceoperationDup, ih]

theorem stringsDup_eq (strs : List String) : stringsDup strs = strs := by
  induction strs with
  | nil => rfl
  | cons str strs ih => rw [stringsDup, ih]

theorem autoeventsDup_eq (es : List AutoEvent) : autoeventsDup es = es := by
  induction es with
  | nil => rfl
  | cons e es ih => rw [autoeventsDup, ih]

-- ════════════════════════════════════════════════════════════════════════
-- The members that describe
-- ════════════════════════════════════════════════════════════════════════

/-- Two resources that a driver was told the same about. -/
structure ResourceCopy (a b : DeviceResource) : Prop where
  name : a.name = b.name
  description : a.description = b.description
  properties : a.properties = b.properties
  attributes : a.attributes = b.attributes
  tags : a.tags = b.tags

/-- Two profiles, apart from what was prepared from them. -/
structure ProfileCopy (a b : DeviceProfile) : Prop where
  name : a.name = b.name
  description : a.description = b.description
  manufacturer : a.manufacturer = b.manufacturer
  model : a.model = b.model
  labels : a.labels = b.labels
  deviceResources : List.Forall₂ ResourceCopy a.deviceResources b.deviceResources
  deviceCommands : a.deviceCommands = b.deviceCommands

/-- Two devices, apart from the order of their protocols and the time of their creation. -/
structure DeviceCopy (a b : Device (Option DeviceProfile)) : Prop where
  name : a.name = b.name
  parent : a.parent = b.parent
  description : a.description = b.description
  labels : a.labels = b.labels
  tags : a.tags = b.tags
  protocols : a.protocols.Perm b.protocols
  autos : a.autos = b.autos
  adminState : a.adminState = b.adminState
  operatingState : a.operatingState = b.operatingState
  origin : a.origin = b.origin
  servicename : a.servicename = b.servicename
  profile : Option.Rel ProfileCopy a.profile b.profile

@[simp] theorem deviceDup_labels {P Q : Type} (e : Device P) (profile : Q) :
    (deviceDup e profile).labels = e.labels := stringsDup_eq e.labels

@[simp] theorem deviceDup_autos {P Q : Type} (e : Device P) (profile : Q) :
    (deviceDup e profile).autos = e.autos := autoeventsDup_eq e.autos

/-- A device command is copied but for its tags. -/
theorem devicecommandsDup_cons (mem : FreshMemory) (pr : DeviceCommand)
    (prs : List DeviceCommand) :
    devicecommandsDup mem (pr :: prs) =
      { pr with tags := mem 0 } :: devicecommandsDup (fun i => mem (i + 1)) prs := by
  rw [devicecommandsDup, resourceoperationDup_eq]

/-- A resource is copied, but for what a driver made of its attributes. -/
theorem edgexDeviceresourceDup_same (es : List DeviceResource) :
    List.Forall₂ ResourceCopy (edgexDeviceresourceDup es) es := by
  induction es with
  | nil => exact .nil
  | cons e es ih => exact .cons ⟨rfl, rfl, rfl, rfl, rfl⟩ ih

/-- The commands are copied, whatever the memory held, where there are none. -/
theorem devicecommandsDup_eq_iff (prs : List DeviceCommand) :
    (∀ mem, devicecommandsDup mem prs = prs) ↔ prs = [] := by
  constructor
  · intro h
    cases prs with
    | nil => rfl
    | cons pr prs =>
      have hnone := h fun _ => none
      have hnull := h fun _ => some .null
      rw [devicecommandsDup_cons] at hnone hnull
      have htags := congrArg DeviceCommand.tags
        ((List.cons.inj hnone).1.trans (List.cons.inj hnull).1.symm)
      cases htags
  · rintro rfl mem
    rfl

theorem deviceprofileDup_same_iff (mem : FreshMemory) (p : DeviceProfile) :
    ProfileCopy (deviceprofileDup mem p) p ↔
      devicecommandsDup mem p.deviceCommands = p.deviceCommands :=
  ⟨fun h => h.deviceCommands, fun h =>
    ⟨rfl, rfl, rfl, rfl, stringsDup_eq _, edgexDeviceresourceDup_same _, h⟩⟩

/-- A copy of a profile is as its original where there is no profile or no command in it. -/
theorem edgexDeviceprofileDup_same_iff (p : Option DeviceProfile) :
    (∀ mem, Option.Rel ProfileCopy (edgexDeviceprofileDup mem p) p) ↔
      ∀ q, p = some q → q.deviceCommands = [] := by
  cases p with
  | none =>
    constructor
    · exact fun _ q hq => nomatch hq
    · exact fun _ mem => .none
  | some q =>
    have hrel (mem : FreshMemory) :
        Option.Rel ProfileCopy (edgexDeviceprofileDup mem (some q)) (some q) ↔
          devicecommandsDup mem q.deviceCommands = q.deviceCommands := by
      rw [← deviceprofileDup_same_iff]
      exact Option.rel_some_some
    rw [forall_congr' hrel, devicecommandsDup_eq_iff]
    simp

theorem edgexDeviceDup_same_iff (mem : FreshMemory) (d : Device (Option DeviceProfile)) :
    DeviceCopy (edgexDeviceDup mem d) d ↔
      Option.Rel ProfileCopy (edgexDeviceprofileDup mem d.profile) d.profile := by
  constructor
  · exact fun h => h.profile
  · intro h
    refine ⟨rfl, rfl, rfl, stringsDup_eq _, rfl, ?_, autoeventsDup_eq _, rfl, rfl, rfl, rfl, h⟩
    show (protocolsDup d.protocols).Perm d.protocols
    rw [protocolsDup_eq_reverse]
    exact List.reverse_perm _

/-- Copies are as their originals, whatever the memory held that they were given, exactly where
    there is no device command. -/
theorem dup_same_iff (p : Option DeviceProfile) (d : Device (Option DeviceProfile)) :
    ((∀ mem, Option.Rel ProfileCopy (edgexDeviceprofileDup mem p) p) ↔
      ∀ q, p = some q → q.deviceCommands = []) ∧
    ((∀ mem, DeviceCopy (edgexDeviceDup mem d) d) ↔
      ∀ q, d.profile = some q → q.deviceCommands = []) := by
  refine ⟨edgexDeviceprofileDup_same_iff p, ?_⟩
  rw [forall_congr' fun mem => edgexDeviceDup_same_iff mem d]
  exact edgexDeviceprofileDup_same_iff d.profile

/-- The tags of a command are lost where the memory held nothing. -/
theorem dup_loses_command_tags :
    ¬∀ (mem : FreshMemory) (p : DeviceProfile),
      Option.Rel ProfileCopy (edgexDeviceprofileDup mem (some p)) (some p) := by
  intro h
  have hsame := h (fun _ => none)
    { name := "climate"
      deviceCommands :=
        [{ name := "all", resourceOperations := [], tags := some (.map [("site", .string "a")]) }] }
  exact absurd (Option.rel_some_some.mp hsame).deviceCommands (by decide)

end DeviceSdk
