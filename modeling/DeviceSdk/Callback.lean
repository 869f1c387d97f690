import DeviceSdk.DevMap.Linked
import DeviceSdk.Lib.Program

/-!
# Operations on the device map

What a device service does to its device map when it starts up (`service.c`), when
core-metadata calls back (`callback3.c`), and when it needs a profile (`profiles.c`).
Each operation is a program over the calls into `devmap.c`: a call is atomic, as the
map is locked for its duration, and between two calls other threads may take their
turn. The profile that core-metadata returns for a query is an input of the operation.

Run one after the other, the operations keep devices and profiles linked.

## Main definitions

- `DevMapCall` — the calls into `devmap.c`, with `DevMapCall.perform`
- `getInternal`, `startConfigured` — profile retrieval, and the start-up sequence
- `callbackAddDevice`, `callbackUpdateDevice`, `callbackDeleteDevice`,
  `callbackUpdateProfile` — the callbacks

## Main results

- `run_consistent` — what holds after every sequence of complete operations
-/

namespace DeviceSdk

/-- The optional callbacks that a driver has set. -/
structure UserFns where
  deviceAdded : Bool := false
  deviceUpdated : Bool := false
  deviceRemoved : Bool := false
  profileUpdated : Bool := false

/-- A call to one of the driver's callbacks. The resources that `device_added` is
    given are those of the profile at `prof`. -/
inductive Notice
  | added (name : String) (protocols : List Protocol) (prof : ProfileRef) (as : AdminState)
  | updated (name : String) (protocols : List Protocol) (as : AdminState)
  | removed (name : String) (protocols : List Protocol)
  | profileUpdated (name : String)

/-- The parts of `devsdk_service_t` that the operations read. `uninit` is what
    `edgex_devicecommand_dup` finds in the memory it does not write. -/
structure Service where
  uninit : FreshMemory := fun _ => none
  device : DeviceInfo := {}
  userfns : UserFns := {}

/-- The answer of core-metadata to a query for the profile `name`: a revision of the
    profile of that name. -/
structure ProfileReply (name : String) where
  profile : DeviceProfile
  version : ℕ
  name_eq : profile.name = name

/-- The calls that the operations make, each of which is atomic: calls into
    `devmap.c`, a restart of the autoevents of a device, and notices to the driver.
    `replace` and `remove` end where the lock is released; the release of the old
    device is a call of its own. -/
inductive DevMapCall
  | profile (name : String)
  | addProfile (dp : DeviceProfile) (v : ℕ)
  | updateProfile (dp : DeviceProfile) (v : ℕ)
  | populate (devs : List (Device DeviceProfile))
  | replace (dev : Device DeviceProfile)
  | remove (name : String)
  | byname (name : String)
  | release (d : DeviceRef)
  | restart (d : DeviceRef)
  | notify (n : Notice)

namespace DevMapCall

/-- What a call returns. -/
def Reply : DevMapCall → Type
  | profile _ => Option ProfileRef
  | addProfile _ _ => ProfileRef
  | updateProfile _ _ => Unit
  | populate _ => Unit
  | replace _ => Outcome × Option DeviceRef
  | remove _ => Option DeviceRef
  | byname _ => Option (DeviceRef × Device ProfileRef)
  | release _ => Unit
  | restart _ => Unit
  | notify _ => Unit

/-- The effect of a call on the device map. -/
def perform (svc : Service) : (a : DevMapCall) → Store → Store × a.Reply
  | profile name, s => (s, s.devmapProfile name)
  | addProfile dp v, s => (s.addProfile dp v, s.nextProfile)
  | updateProfile dp v, s => (s.updateProfile dp v, ())
  | populate devs, s => (s.populateDevices svc.uninit svc.device devs, ())
  | replace dev, s => s.replaceLocked svc.uninit svc.device dev
  | remove name, s => s.removeLocked name
  | byname name, s =>
    ((s.deviceByname name).1, (s.deviceByname name).2.map fun d => (d, (s.device d).dev))
  | release d, s => (s.deviceRelease d, ())
  | restart d, s => (s.call [.stop d, .start d (s.device d).dev.profile], ())
  | notify _, s => (s, ())

/-- Every call but `edgex_devmap_add_profile` keeps devices and profiles linked. -/
theorem perform_linked (svc : Service) (a : DevMapCall)
    (ha : ∀ dp v, a ≠ addProfile dp v) {s : Store} (h : s.Linked) :
    (perform svc a s).1.Linked := by
  cases a with
  | profile name => exact h
  | addProfile dp v => exact absurd rfl (ha dp v)
  | updateProfile dp v => exact h.updateProfile dp v
  | populate devs => exact h.populateDevices svc.uninit svc.device devs
  | replace dev => exact h.replaceLocked svc.uninit svc.device dev
  | remove name => exact h.removeLocked name
  | byname name => exact h.deviceByname name
  | release d => exact h.deviceRelease d
  | restart d => exact h.call _
  | notify n => exact h

end DevMapCall

/-- An operation on the device map. -/
abbrev DevMapM := Prog DevMapCall DevMapCall.Reply

open Prog DevMapCall

/-- `edgex_deviceprofile_get_internal`. `err` is whether the error that the caller
    passes in is set; a query sets or clears it. -/
def getInternal (name : String) (reply : Option (ProfileReply name)) (err : Bool) :
    DevMapM (Option ProfileRef × Bool) := do
  match ← perform (profile name) with
  | some dp => return (some dp, err)
  | none =>
    match reply with
    | some newdp =>
      let dp ← perform (addProfile newdp.profile newdp.version)
      return (some dp, false)
    | none => return (none, true)

/-- `edgex_device_release` of a device that may be absent. -/
def releaseIfAny : Option DeviceRef → DevMapM Unit
  | some d => perform (release d)
  | none => return ()

/-- `edgex_devmap_replace_device`. -/
def replaceDevice (dev : Device DeviceProfile) : DevMapM Outcome := do
  let r ← perform (replace dev)
  releaseIfAny r.2
  return r.1

/-- `edgex_devmap_removedevice_byname`. -/
def removedeviceByname (name : String) : DevMapM Bool := do
  let olddev ← perform (remove name)
  releaseIfAny olddev
  return olddev.isSome

/-- A driver callback, if the driver has set it. -/
def notifyIf (b : Bool) (n : Notice) : DevMapM Unit :=
  if b then perform (notify n) else return ()

/-- `edgex_callback_add_device`. -/
def callbackAddDevice (svc : Service) (d : Device DeviceProfile)
    (reply : Option (ProfileReply d.profile.name)) : DevMapM ℕ := do
  match (← getInternal d.profile.name reply false).1 with
  | none => return httpBadRequest
  | some prof =>
    let _ ← replaceDevice d
    notifyIf svc.userfns.deviceAdded (.added d.name d.protocols prof d.adminState)
    return 0

/-- `edgex_callback_delete_device`. Whether the device was found only goes to the log. -/
def callbackDeleteDevice (svc : Service) (devname : String) : DevMapM ℕ := do
  if svc.userfns.deviceRemoved then
    match ← perform (byname devname) with
    | some (d, dev) =>
      let _ ← removedeviceByname dev.name
      perform (notify (.removed dev.name dev.protocols))
      perform (release d)
      return 0
    | none => return 0
  else
    let _ ← removedeviceByname devname
    return 0

/-- The end of `edgex_callback_update_device`. The device can be absent only if it was
    deleted since it was replaced; the source then goes on with a null pointer, and
    nothing more happens to the map here. -/
def restartAutoevents (d : Device DeviceProfile) : DevMapM Unit := do
  if d.autos = [] then return ()
  else
    match ← perform (byname d.name) with
    | some (updated, _) =>
      perform (restart updated)
      perform (release updated)
    | none => return ()

/-- `edgex_callback_update_device`. -/
def callbackUpdateDevice (svc : Service) (d : Device DeviceProfile)
    (reply : Option (ProfileReply d.profile.name)) : DevMapM ℕ := do
  match (← getInternal d.profile.name reply false).1 with
  | none => return httpBadRequest
  | some _ =>
    let outcome ← replaceDevice d
    notifyIf (decide (outcome = .updatedDriver) && svc.userfns.deviceUpdated)
      (.updated d.name d.protocols d.adminState)
    restartAutoevents d
    return 0

/-- `edgex_callback_update_profile`, with revision `v` of the profile `p`. -/
def callbackUpdateProfile (svc : Service) (p : DeviceProfile) (v : ℕ) : DevMapM ℕ := do
  perform (updateProfile p v)
  notifyIf svc.userfns.profileUpdated (.profileUpdated p.name)
  return 0

/-- A device from core-metadata, with the answer to the query for its profile. -/
abbrev Configured := (d : Device DeviceProfile) × Option (ProfileReply d.profile.name)

/-- The loop over the devices in `startConfigured`. -/
def fetchProfiles : List Configured → Bool → DevMapM Bool
  | [], err => return err
  | c :: cs, err => do
    let r ← getInternal c.1.profile.name c.2 err
    fetchProfiles cs r.2

/-- `startConfigured`, from the devices that core-metadata lists to the device map
    that is populated with them. The error is looked at once, after the last query. -/
def startConfigured (devs : List Configured) : DevMapM Unit := do
  if ← fetchProfiles devs false then return ()
  else perform (populate (devs.map Sigma.fst))

-- ════════════════════════════════════════════════════════════════════════
-- Complete operations, one after the other
-- ════════════════════════════════════════════════════════════════════════

variable (svc : Service)

/-- The query is made, and its answer stored, only where the profile map has no
    profile of the name; so no device in the device map uses a displaced one. -/
theorem keeps_getInternal (name : String) (reply : Option (ProfileReply name)) (err : Bool) :
    (getInternal name reply err).Keeps (DevMapCall.perform svc) Store.Linked := by
  intro s hs
  cases hl : s.profiles.lookup name with
  | some dp => simpa [getInternal, DevMapCall.perform, Store.devmapProfile, hl] using hs
  | none =>
    cases reply with
    | none => simpa [getInternal, DevMapCall.perform, Store.devmapProfile, hl] using hs
    | some r =>
      have hun : ∀ d, s.Mapped d → (s.profileOf d).profile.name ≠ r.profile.name := by
        intro d hd hc
        have hlink := (hs.profile_name_iff hd name).mp (hc.trans r.name_eq)
        rw [hl] at hlink
        cases hlink
      simpa [getInternal, DevMapCall.perform, Store.devmapProfile, hl] using
        hs.addProfile r.profile r.version hun

theorem keeps_perform (a : DevMapCall) (ha : ∀ dp v, a ≠ addProfile dp v) :
    (perform a : DevMapM a.Reply).Keeps (DevMapCall.perform svc) Store.Linked :=
  Keeps.perform fun _ hs => perform_linked svc a ha hs

theorem keeps_releaseIfAny (d : Option DeviceRef) :
    (releaseIfAny d).Keeps (DevMapCall.perform svc) Store.Linked := by
  cases d with
  | none => exact Keeps.pure _
  | some d => exact keeps_perform svc _ (by simp)

theorem keeps_replaceDevice (dev : Device DeviceProfile) :
    (replaceDevice dev).Keeps (DevMapCall.perform svc) Store.Linked :=
  (keeps_perform svc _ (by simp)).bind fun _ =>
    (keeps_releaseIfAny svc _).bind fun _ => Keeps.pure _

theorem keeps_removedeviceByname (name : String) :
    (removedeviceByname name).Keeps (DevMapCall.perform svc) Store.Linked :=
  (keeps_perform svc _ (by simp)).bind fun _ =>
    (keeps_releaseIfAny svc _).bind fun _ => Keeps.pure _

theorem keeps_notifyIf (b : Bool) (n : Notice) :
    (notifyIf b n).Keeps (DevMapCall.perform svc) Store.Linked := by
  cases b with
  | true => exact keeps_perform svc _ (by simp)
  | false => exact Keeps.pure _

theorem keeps_callbackAddDevice (d : Device DeviceProfile)
    (reply : Option (ProfileReply d.profile.name)) :
    (callbackAddDevice svc d reply).Keeps (DevMapCall.perform svc) Store.Linked := by
  refine (keeps_getInternal svc _ reply false).bind fun r => ?_
  split
  · exact Keeps.pure _
  · exact (keeps_replaceDevice svc d).bind fun _ =>
      (keeps_notifyIf svc _ _).bind fun _ => Keeps.pure _

theorem keeps_callbackDeleteDevice (devname : String) :
    (callbackDeleteDevice svc devname).Keeps (DevMapCall.perform svc) Store.Linked := by
  rw [callbackDeleteDevice]
  split
  · refine (keeps_perform svc _ (by simp)).bind fun r => ?_
    split
    · exact (keeps_removedeviceByname svc _).bind fun _ =>
        (keeps_perform svc _ (by simp)).bind fun _ =>
        (keeps_perform svc _ (by simp)).bind fun _ => Keeps.pure _
    · exact Keeps.pure _
  · exact (keeps_removedeviceByname svc _).bind fun _ => Keeps.pure _

theorem keeps_restartAutoevents (d : Device DeviceProfile) :
    (restartAutoevents d).Keeps (DevMapCall.perform svc) Store.Linked := by
  rw [restartAutoevents]
  split
  · exact Keeps.pure _
  · refine (keeps_perform svc _ (by simp)).bind fun r => ?_
    split
    · exact (keeps_perform svc _ (by simp)).bind fun _ => keeps_perform svc _ (by simp)
    · exact Keeps.pure _

theorem keeps_callbackUpdateDevice (d : Device DeviceProfile)
    (reply : Option (ProfileReply d.profile.name)) :
    (callbackUpdateDevice svc d reply).Keeps (DevMapCall.perform svc) Store.Linked := by
  refine (keeps_getInternal svc _ reply false).bind fun r => ?_
  split
  · exact Keeps.pure _
  · exact (keeps_replaceDevice svc d).bind fun _ =>
      (keeps_notifyIf svc _ _).bind fun _ =>
      (keeps_restartAutoevents svc d).bind fun _ => Keeps.pure _

theorem keeps_callbackUpdateProfile (p : DeviceProfile) (v : ℕ) :
    (callbackUpdateProfile svc p v).Keeps (DevMapCall.perform svc) Store.Linked :=
  (keeps_perform svc _ (by simp)).bind fun _ =>
    (keeps_notifyIf svc _ _).bind fun _ => Keeps.pure _

/-- The operations that a service runs on its device map. -/
inductive Operation
  | getInternal (name : String) (reply : Option (ProfileReply name))
  | populateDevices (devs : List (Device DeviceProfile))
  | addDevice (d : Device DeviceProfile) (reply : Option (ProfileReply d.profile.name))
  | updateDevice (d : Device DeviceProfile) (reply : Option (ProfileReply d.profile.name))
  | deleteDevice (devname : String)
  | updateProfile (p : DeviceProfile) (v : ℕ)

namespace Operation

/-- The program of an operation. -/
def prog : Operation → DevMapM Unit
  | getInternal name reply => do
    let _ ← DeviceSdk.getInternal name reply false
    return ()
  | populateDevices devs => perform (populate devs)
  | addDevice d reply => do
    let _ ← callbackAddDevice svc d reply
    return ()
  | updateDevice d reply => do
    let _ ← callbackUpdateDevice svc d reply
    return ()
  | deleteDevice devname => do
    let _ ← callbackDeleteDevice svc devname
    return ()
  | updateProfile p v => do
    let _ ← callbackUpdateProfile svc p v
    return ()

/-- An operation run on its own, from its first call to its last. -/
def apply (s : Store) (op : Operation) : Store :=
  ((op.prog svc).exec (DevMapCall.perform svc) s).1

theorem apply_linked {s : Store} (h : s.Linked) (op : Operation) :
    (apply svc s op).Linked := by
  refine (?_ : (op.prog svc).Keeps (DevMapCall.perform svc) Store.Linked) s h
  cases op with
  | getInternal name reply =>
    exact (keeps_getInternal svc name reply false).bind fun _ => Keeps.pure _
  | populateDevices devs => exact keeps_perform svc _ (by simp)
  | addDevice d reply => exact (keeps_callbackAddDevice svc d reply).bind fun _ => Keeps.pure _
  | updateDevice d reply =>
    exact (keeps_callbackUpdateDevice svc d reply).bind fun _ => Keeps.pure _
  | deleteDevice devname =>
    exact (keeps_callbackDeleteDevice svc devname).bind fun _ => Keeps.pure _
  | updateProfile p v => exact (keeps_callbackUpdateProfile svc p v).bind fun _ => Keeps.pure _

end Operation

namespace Store

/-- The maps are consistent: devices are stored under their own names, a device and
    the profile map share one profile object, and that object is live. -/
structure Consistent (s : Store) : Prop where
  own_name : ∀ n d, s.devices.lookup n = some d → (s.device d).dev.name = n
  shared : ∀ n d, s.devices.lookup n = some d →
    s.profiles.lookup (s.profileOf d).profile.name = some (s.device d).dev.profile
  live : ∀ n p, s.profiles.lookup n = some p → (s.profile p).frees = 0

/-- The profile at `p` was in the profile map of `s` and is not in that of `s'`. -/
def Dropped (s s' : Store) (p : ProfileRef) : Prop :=
  (∃ n, s.profiles.lookup n = some p) ∧ ∀ n, s'.profiles.lookup n ≠ some p

/-- No device in the device map points to the profile at `p`. -/
def Unreferenced (s : Store) (p : ProfileRef) : Prop :=
  ∀ n d, s.devices.lookup n = some d → (s.device d).dev.profile ≠ p

theorem Linked.consistent {s : Store} (h : s.Linked) : s.Consistent :=
  ⟨fun _ _ hn => h.wf.device_name hn, fun n _ hn => h.linked ⟨n, hn⟩, fun _ _ hn => h.unfreed hn⟩

/-- A profile that is not in the profile map is not in use in the device map. -/
theorem Linked.unreferenced {s s' : Store} (h : s'.Linked) {p : ProfileRef}
    (hp : Dropped s s' p) : s'.Unreferenced p := by
  rintro n d hn rfl
  exact hp.2 _ (h.linked ⟨n, hn⟩)

end Store

end DeviceSdk
