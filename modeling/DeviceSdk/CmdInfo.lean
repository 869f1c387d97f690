import DeviceSdk.Types

/-!
# Commands prepared from a profile

`edgex_cmdinfo` records, as `device.c` prepares them from the device commands and
device resources of a profile when a command is looked up for the first time. The
attributes of a resource are parsed by the driver (`create_res`) and kept in the
profile; a resource whose attributes do not parse is left out.

## Main definitions

- `infoForRes`, `infoForDevRes` — the record for a device command, for a resource
- `populateCmdInfo` — all records of a profile
- `findcommand` — `edgex_deviceprofile_findcommand`

## Main results

- `findcommand_matches` — what is found has the name and the direction asked for
-/

namespace DeviceSdk

/-- `create_res` of a driver, on the attributes of a resource: the parsed attributes, and an
    exception. A driver may tell apart two resources whose attributes are equal. -/
abbrev CreateRes := DeviceResource → Option Opaque × Option IotData

/-- `findDevResource`. -/
def findDevResource (list : List DeviceResource) (name : String) : Option DeviceResource :=
  list.find? fun r => decide (r.name = name)

/-- Store parsed attributes in the resource that `findDevResource` finds. -/
def storeAttrs (name : String) (attrs : Option Opaque) :
    List DeviceResource → List DeviceResource
  | [] => []
  | r :: rs =>
    if r.name = name then { r with parsedAttrs := attrs } :: rs else r :: storeAttrs name attrs rs

variable (createRes : CreateRes)

/-- The first loop of `infoForRes`, which parses attributes. It stops where the driver returns
    nothing and there is an exception: its own, or one that an earlier call left. A resource
    operation that names no resource of the profile, which core-metadata does not admit, stops it
    too. -/
def parseAttrs : Option IotData → List DeviceResource → List ResourceOperation →
    List DeviceResource × Bool
  | _, resources, [] => (resources, true)
  | exception, resources, ro :: ros =>
    match findDevResource resources ro.deviceResource with
    | none => (resources, false)
    | some devres =>
      match devres.parsedAttrs with
      | some _ => parseAttrs exception resources ros
      | none =>
        let r := createRes devres
        let exception := r.2.or exception
        if r.1.isNone && exception.isSome then (resources, false)
        else parseAttrs exception (storeAttrs devres.name r.1 resources) ros

/-- `devsdk_resource_t` for a device resource. -/
def resourceOf (devres : DeviceResource) : Resource where
  name := devres.name
  attrs := devres.parsedAttrs
  tags := devres.tags
  type := devres.properties.type

/-- A default value, where it is not empty. -/
def nonEmpty (s : String) : Option String := if s = "" then none else some s

/-- One turn of the second loop of `infoForRes`. The requests start out zeroed. -/
def operationReq (devres : DeviceResource) (ro : ResourceOperation) : CmdReq where
  req :=
    { resource := resourceOf devres
      mask := some (if devres.properties.mask.enabled then ~~~devres.properties.mask.value else 0) }
  pval := devres.properties
  map := ro.mappings
  dfl := (nonEmpty ro.defaultValue).or (nonEmpty devres.properties.defaultvalue)

/-- `infoForRes`. -/
def infoForRes (prof : DeviceProfile) (cmd : DeviceCommand) (forGet : Bool) :
    DeviceProfile × Option CmdInfo :=
  let r := parseAttrs createRes none prof.deviceResources cmd.resourceOperations
  let prof := { prof with deviceResources := r.1 }
  if r.2 then
    (prof, some
      { name := cmd.name
        profile := prof.name
        isget := forGet
        reqs := cmd.resourceOperations.filterMap fun ro =>
          (findDevResource prof.deviceResources ro.deviceResource).map (operationReq · ro)
        tags := cmd.tags })
  else (prof, none)

/-- The request of `infoForDevRes`. Its memory is not zeroed, so the mask holds nothing
    definite unless the profile sets it. -/
def resourceReq (devres : DeviceResource) : CmdReq where
  req :=
    { resource := resourceOf devres
      mask := if devres.properties.mask.enabled then some (~~~devres.properties.mask.value) else none }
  pval := devres.properties
  map := none
  dfl := nonEmpty devres.properties.defaultvalue

/-- `infoForDevRes`, for the `i`-th resource of the profile. -/
def infoForDevRes (prof : DeviceProfile) (i : ℕ) (forGet : Bool) :
    DeviceProfile × Option CmdInfo :=
  match prof.deviceResources[i]? with
  | none => (prof, none)
  | some devres =>
    let r := match devres.parsedAttrs with
      | some attrs => (some attrs, none)
      | none => createRes devres
    let devres := { devres with parsedAttrs := r.1 }
    let prof := { prof with deviceResources := prof.deviceResources.set i devres }
    if r.2.isSome then (prof, none)
    else
      (prof, some
        { name := devres.name
          profile := prof.name
          isget := forGet
          reqs := [resourceReq devres]
          tags := none })

/-- `insertCmdInfo`. -/
def insertCmdInfo (r : DeviceProfile × Option CmdInfo) : DeviceProfile :=
  { r.1 with cmdinfo := r.1.cmdinfo ++ r.2.toList }

/-- The loop of `populateCmdInfo` over device commands, one turn. -/
def populateCommand (prof : DeviceProfile) (cmd : DeviceCommand) : DeviceProfile :=
  let prof := if cmd.readable then insertCmdInfo (infoForRes createRes prof cmd true) else prof
  if cmd.writable then insertCmdInfo (infoForRes createRes prof cmd false) else prof

/-- The loop of `populateCmdInfo` over device resources, one turn. A resource that
    shares its name with a device command has no record of its own. -/
def populateResource (prof : DeviceProfile) (i : ℕ) : DeviceProfile :=
  match prof.deviceResources[i]? with
  | none => prof
  | some devres =>
    if prof.deviceCommands.any fun dc => decide (dc.name = devres.name) then prof
    else
      let prof := if devres.properties.readable then
        insertCmdInfo (infoForDevRes createRes prof i true) else prof
      if devres.properties.writable then
        insertCmdInfo (infoForDevRes createRes prof i false) else prof

/-- `populateCmdInfo`. -/
def populateCmdInfo (prof : DeviceProfile) : DeviceProfile :=
  let prof := prof.deviceCommands.foldl (populateCommand createRes) prof
  (List.range prof.deviceResources.length).foldl (populateResource createRes) prof

/-- A profile with its commands prepared, as far as they can be. -/
def prepared (prof : DeviceProfile) : DeviceProfile :=
  if prof.cmdinfo.isEmpty then populateCmdInfo createRes prof else prof

/-- `edgex_deviceprofile_findcommand`. -/
def findcommand (prof : DeviceProfile) (name : String) (forGet : Bool) :
    DeviceProfile × Option CmdInfo :=
  (prepared createRes prof,
    (prepared createRes prof).cmdinfo.find? fun c => decide (c.name = name) && (c.isget == forGet))

theorem findcommand_matches {prof : DeviceProfile} {name : String} {forGet : Bool}
    {cmd : CmdInfo} (h : (findcommand createRes prof name forGet).2 = some cmd) :
    cmd.name = name ∧ cmd.isget = forGet ∧ cmd ∈ (prepared createRes prof).cmdinfo := by
  have hp := List.find?_some h
  have hm := List.mem_of_find?_eq_some h
  simp only [Bool.and_eq_true, decide_eq_true_eq, beq_iff_eq] at hp
  exact ⟨hp.1, hp.2, hm⟩

section Name

theorem infoForRes_name (prof : DeviceProfile) (cmd : DeviceCommand) (forGet : Bool) :
    (infoForRes createRes prof cmd forGet).1.name = prof.name := by
  simp only [infoForRes]
  split <;> rfl

theorem infoForDevRes_name (prof : DeviceProfile) (i : ℕ) (forGet : Bool) :
    (infoForDevRes createRes prof i forGet).1.name = prof.name := by
  rw [infoForDevRes]
  split
  · rfl
  · dsimp only
    split
    · rfl
    · split <;> rfl

theorem populateCommand_name (prof : DeviceProfile) (cmd : DeviceCommand) :
    (populateCommand createRes prof cmd).name = prof.name := by
  have hinsert : ∀ (prof : DeviceProfile) (forGet : Bool),
      (insertCmdInfo (infoForRes createRes prof cmd forGet)).name = prof.name :=
    fun prof forGet => infoForRes_name createRes prof cmd forGet
  simp only [populateCommand]
  split <;> split <;> simp only [hinsert]

theorem populateResource_name (prof : DeviceProfile) (i : ℕ) :
    (populateResource createRes prof i).name = prof.name := by
  have hinsert : ∀ (prof : DeviceProfile) (forGet : Bool),
      (insertCmdInfo (infoForDevRes createRes prof i forGet)).name = prof.name :=
    fun prof forGet => infoForDevRes_name createRes prof i forGet
  rw [populateResource]
  split
  · rfl
  · split
    · rfl
    · dsimp only
      split <;> split <;> simp only [hinsert]

/-- Preparing the commands of a profile does not rename it. -/
theorem prepared_name (prof : DeviceProfile) : (prepared createRes prof).name = prof.name := by
  have hfold : ∀ {ι : Type} (f : DeviceProfile → ι → DeviceProfile),
      (∀ prof i, (f prof i).name = prof.name) →
        ∀ (is : List ι) (prof : DeviceProfile), (is.foldl f prof).name = prof.name := by
    intro ι f hf is
    induction is with
    | nil => exact fun _ => rfl
    | cons i is ih => exact fun prof => (ih (f prof i)).trans (hf prof i)
  rw [prepared]
  split
  · simp only [populateCmdInfo]
    rw [hfold _ (populateResource_name createRes), hfold _ (populateCommand_name createRes)]
  · rfl

end Name

end DeviceSdk
