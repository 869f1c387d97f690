import DeviceSdk.Dto.Dup
import DeviceSdk.Lib.AssocMap

/-!
# The device map

`devmap.c`: two maps, devices by name and profiles by name, over a heap of device
and profile objects. The devices in the device map reference the profiles in the
profile map by pointer, so both kinds of object have addresses here, and several
devices can share one profile.

Each operation is split where the source releases its lock: the part under the
lock is one function, and the release of a replaced or removed device that
follows it outside the lock is another. The schedules behind autoevents belong to
`autoevent.c`; the operations here only record, in `calls`, when they start and
stop the autoevents of a device.

## Main definitions

- `Store` — the two maps and the heap
- `addLocked`, `releaseProfileLocked`, `updateInPlace` — the static helpers
- `replaceLocked`, `removeLocked`, `deviceByname`, `deviceRelease` — devices
- `addProfile`, `updateProfile` — profiles
-/

namespace DeviceSdk

/-- A finite map from names, as `edgex_map` provides it. -/
abbrev NameMap (α : Type) := AList fun _ : String => α

abbrev DeviceRef := ℕ
abbrev ProfileRef := ℕ

/-- `edgex_device_deviceinfo`, the device section of the configuration. -/
structure DeviceInfo where
  datatransform : Bool := true
  maxcmdops : BitVec 32 := 0
  maxeventsize : BitVec 32 := 0
  updatelastconnected : Bool := false
  allowedFails : BitVec 32 := 0
  devDowntime : BitVec 64 := 0
  deriving DecidableEq

/-- A profile in memory. `version` numbers the revisions of the profile that
    core-metadata has held; it is `none` for the placeholder that a device reader
    builds. `frees` counts how often `edgex_deviceprofile_free` was called on it. -/
structure ProfileObj where
  profile : DeviceProfile
  version : Option ℕ := none
  frees : ℕ := 0
  deriving DecidableEq

/-- A device in memory. It is freed when `refs` reaches zero. -/
structure DeviceObj where
  dev : Device ProfileRef
  address : Option Opaque := none
  refs : ℕ := 1
  retries : BitVec 32 := 0
  ownprofile : Bool := false
  deriving DecidableEq

/-- A call into `autoevent.c`: the autoevents of a device are started under a
    profile, or stopped. -/
inductive AutoeventCall
  | start (d : DeviceRef) (p : ProfileRef)
  | stop (d : DeviceRef)
  deriving DecidableEq

instance : Inhabited ProfileObj := ⟨{ profile := .placeholder "" }⟩

instance : Inhabited DeviceObj := ⟨{ dev := { name := "", profile := 0 }, refs := 0 }⟩

/-- `edgex_devmap_t` with the objects its maps lead to. Addresses from
    `nextDevice` and `nextProfile` on are not in use. -/
structure Store where
  devices : NameMap DeviceRef := ∅
  profiles : NameMap ProfileRef := ∅
  device : DeviceRef → DeviceObj := fun _ => default
  profile : ProfileRef → ProfileObj := fun _ => default
  nextDevice : DeviceRef := 0
  nextProfile : ProfileRef := 0
  calls : List AutoeventCall := []

/-- `edgex_devmap_outcome_t`. -/
inductive Outcome
  | updatedSdk | updatedDriver | created
  deriving DecidableEq, Repr

namespace Store

/-- `edgex_devmap_alloc`. -/
def alloc : Store := {}

/-- The profile object that a device points to. -/
def profileOf (s : Store) (d : DeviceRef) : ProfileObj := s.profile (s.device d).dev.profile

/-- Device `d` is in the device map. -/
def Mapped (s : Store) (d : DeviceRef) : Prop := ∃ n, s.devices.lookup n = some d

instance (s : Store) (d : DeviceRef) : Decidable (s.Mapped d) :=
  decidable_of_iff (d ∈ s.devices.values) AList.mem_values

/-- Enter a duplicate of `newdev`, pointing to the profile at `p`, in the device map. -/
def insertDevice (s : Store) (newdev : Device DeviceProfile) (p : ProfileRef)
    (retries : BitVec 32) : Store :=
  { s with
    devices := s.devices.insert newdev.name s.nextDevice
    device := Function.update s.device s.nextDevice
      { dev := deviceDup newdev p, refs := 1, retries := retries, ownprofile := false }
    nextDevice := s.nextDevice + 1 }

/-- Enter `obj` in the profile map under its own name. -/
def insertProfile (s : Store) (obj : ProfileObj) : Store :=
  { s with
    profiles := s.profiles.insert obj.profile.name s.nextProfile
    profile := Function.update s.profile s.nextProfile obj
    nextProfile := s.nextProfile + 1 }

/-- Write to the device at `d`. -/
def modifyDevice (s : Store) (d : DeviceRef) (f : DeviceObj → DeviceObj) : Store :=
  { s with device := Function.update s.device d (f (s.device d)) }

/-- `edgex_deviceprofile_free`. -/
def freeProfile (s : Store) (p : ProfileRef) : Store :=
  { s with
    profile := Function.update s.profile p
      { s.profile p with frees := (s.profile p).frees + 1 } }

/-- `edgex_map_remove` on the device map. -/
def eraseDevice (s : Store) (name : String) : Store :=
  { s with devices := s.devices.erase name }

/-- `edgex_map_remove` on the profile map. -/
def eraseProfile (s : Store) (name : String) : Store :=
  { s with profiles := s.profiles.erase name }

/-- Record calls into `autoevent.c`. -/
def call (s : Store) (cs : List AutoeventCall) : Store := { s with calls := s.calls ++ cs }

/-- The choice of a profile in `add_locked`. When the profile map has the profile,
    the copy that the duplicate brought along is freed at once and never gets an
    address here; otherwise that copy is what goes into the profile map. -/
def ensureProfile (uninit : FreshMemory) (s : Store) (dp : DeviceProfile) :
    Store × ProfileRef :=
  match s.profiles.lookup dp.name with
  | some pp => (s, pp)
  | none => (s.insertProfile { profile := deviceprofileDup uninit dp }, s.nextProfile)

/-- `add_locked`. -/
def addLocked (uninit : FreshMemory) (s : Store) (newdev : Device DeviceProfile)
    (retries : BitVec 32) : Store :=
  let r := s.ensureProfile uninit newdev.profile
  (r.1.insertDevice newdev r.2 retries).call [.start s.nextDevice r.2]

/-- `remove_locked`. -/
def removeFromMap (s : Store) (olddev : DeviceRef) : Store :=
  s.eraseDevice (s.device olddev).dev.name

/-- The scan of `release_profile_locked`: no device in the map has the profile. -/
def lastUser (s : Store) (olddev : DeviceRef) : Bool :=
  s.devices.values.all fun d =>
    decide ((s.device d).dev.profile ≠ (s.device olddev).dev.profile)

/-- `release_profile_locked`. -/
def releaseProfileLocked (s : Store) (olddev : DeviceRef) : Store :=
  if s.lastUser olddev then
    (s.eraseProfile (s.profileOf olddev).profile.name).modifyDevice olddev
      fun obj => { obj with ownprofile := true }
  else s

/-- `update_in_place` on a device whose profile has the name `pname`. The device
    comes back changed also where the answer is `false`: the admin state is
    stored before the later exits. -/
def updateInPlace (pname : String) (dest : Device ProfileRef) (src : Device DeviceProfile)
    (outcome : Outcome) : Bool × Device ProfileRef × Outcome :=
  if ¬ protocolsEqual dest.protocols src.protocols then (false, dest, .updatedDriver)
  else
    let outcome := if dest.adminState = src.adminState then outcome else .updatedDriver
    let dest := { dest with adminState := src.adminState }
    if pname ≠ src.profile.name then (false, dest, .updatedDriver)
    else if ¬ autoeventsEqual dest.autos src.autos then (false, dest, .updatedDriver)
    else
      (true,
        { dest with
          operatingState := src.operatingState
          created := src.created
          origin := src.origin
          description := src.description
          labels := src.labels },
        outcome)

-- ════════════════════════════════════════════════════════════════════════
-- Devices
-- ════════════════════════════════════════════════════════════════════════

/-- One turn of the loop in `edgex_devmap_populate_devices`. -/
def populateDevice (uninit : FreshMemory) (cfg : DeviceInfo) (s : Store)
    (d : Device DeviceProfile) : Store :=
  if s.devices.lookup d.name = none then s.addLocked uninit d cfg.allowedFails else s

/-- `edgex_devmap_populate_devices`. -/
def populateDevices (uninit : FreshMemory) (cfg : DeviceInfo) (s : Store)
    (devs : List (Device DeviceProfile)) : Store :=
  devs.foldl (populateDevice uninit cfg) s

/-- `update_in_place` on the device at `olddev`. -/
def updateAt (s : Store) (olddev : DeviceRef) (dev : Device DeviceProfile) :
    Bool × Device ProfileRef × Outcome :=
  updateInPlace (s.profileOf olddev).profile.name (s.device olddev).dev dev .updatedSdk

/-- The part of `edgex_devmap_replace_device` that removes the device at `olddev`
    and adds `dev` in its place. -/
def readdLocked (uninit : FreshMemory) (s : Store) (olddev : DeviceRef)
    (dev : Device DeviceProfile) : Store :=
  let s := (s.removeFromMap olddev).addLocked uninit dev (s.device olddev).retries
  if (s.profileOf olddev).profile.name ≠ dev.profile.name then s.releaseProfileLocked olddev
  else s

/-- `edgex_devmap_replace_device` up to the unlock. The last component is the
    device that is to be released after it. -/
def replaceLocked (uninit : FreshMemory) (cfg : DeviceInfo) (s : Store)
    (dev : Device DeviceProfile) : Store × Outcome × Option DeviceRef :=
  match s.devices.lookup dev.name with
  | none => (s.addLocked uninit dev cfg.allowedFails, .created, none)
  | some olddev =>
    let r := s.updateAt olddev dev
    let s := s.modifyDevice olddev fun obj => { obj with dev := r.2.1 }
    if r.1 then (s, r.2.2, none)
    else (s.readdLocked uninit olddev dev, r.2.2, some olddev)

/-- `edgex_device_release`. -/
def deviceRelease (s : Store) (d : DeviceRef) : Store :=
  let obj := s.device d
  let s := s.modifyDevice d fun obj => { obj with refs := obj.refs - 1 }
  if obj.refs = 1 then
    let s := s.call [.stop d]
    if obj.ownprofile then s.freeProfile obj.dev.profile else s
  else s

/-- `edgex_device_release` of a device that may be absent. -/
def releaseOption (s : Store) (d : Option DeviceRef) : Store :=
  match d with
  | some d => s.deviceRelease d
  | none => s

/-- `edgex_devmap_replace_device`. -/
def replaceDevice (uninit : FreshMemory) (cfg : DeviceInfo) (s : Store)
    (dev : Device DeviceProfile) : Store × Outcome :=
  let r := s.replaceLocked uninit cfg dev
  (r.1.releaseOption r.2.2, r.2.1)

/-- `edgex_devmap_device_byname`. -/
def deviceByname (s : Store) (name : String) : Store × Option DeviceRef :=
  match s.devices.lookup name with
  | some d => (s.modifyDevice d fun obj => { obj with refs := obj.refs + 1 }, some d)
  | none => (s, none)

/-- `edgex_devmap_removedevice_byname` up to the unlock. -/
def removeLocked (s : Store) (name : String) : Store × Option DeviceRef :=
  match s.devices.lookup name with
  | some olddev => ((s.removeFromMap olddev).releaseProfileLocked olddev, some olddev)
  | none => (s, none)

/-- `edgex_devmap_removedevice_byname`. -/
def removedeviceByname (s : Store) (name : String) : Store × Bool :=
  let r := s.removeLocked name
  (r.1.releaseOption r.2, r.2.isSome)

/-- `edgex_devmap_profile`. -/
def devmapProfile (s : Store) (name : String) : Option ProfileRef := s.profiles.lookup name

/-- `edgex_devmap_add_profile`, of revision `v` of a profile. -/
def addProfile (s : Store) (dp : DeviceProfile) (v : ℕ) : Store :=
  s.insertProfile { profile := dp, version := some v }

/-- One turn of the loop in `edgex_devmap_update_profile`. -/
def repoint (old dp : ProfileRef) (s : Store) (d : DeviceRef) : Store :=
  if (s.device d).dev.profile = old then
    (s.modifyDevice d fun obj => { obj with dev := { obj.dev with profile := dp } }).call
      [.stop d, .start d dp]
  else s

/-- The loop in `edgex_devmap_update_profile`. -/
def repointAll (old dp : ProfileRef) (s : Store) : Store :=
  s.devices.values.foldl (repoint old dp) s

/-- `edgex_devmap_update_profile`, to revision `v` of a profile. -/
def updateProfile (s : Store) (dp : DeviceProfile) (v : ℕ) : Store :=
  match s.profiles.lookup dp.name with
  | some old =>
    (((s.repointAll old s.nextProfile).eraseProfile dp.name).freeProfile old).insertProfile
      { profile := dp, version := some v }
  | none => s.insertProfile { profile := dp, version := some v }

end Store

end DeviceSdk
