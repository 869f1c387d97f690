import DeviceSdk.DevMap.Wf

/-!
# Replacing a device

What a lookup finds after `edgex_devmap_replace_device`. A device that is created,
or removed and added again, carries everything that the new record says. A device
that is updated in place keeps its parent, its tags and its service name, which
`update_in_place` neither compares nor copies.

## Main results

- `replaceDevice_sameAt` — devices under other names stay as they are
- `replaceDevice_replaced_iff` — when the device found afterwards is the new one
-/

namespace DeviceSdk

/-- A stored device, whose profile has the name `pname`, is as `dev` describes it,
    up to the order of its protocols and autoevents. -/
structure Describes (e : Device ProfileRef) (pname : String) (dev : Device DeviceProfile) :
    Prop where
  name : e.name = dev.name
  parent : e.parent = dev.parent
  description : e.description = dev.description
  labels : e.labels = dev.labels
  tags : e.tags = dev.tags
  protocols : e.protocols.Perm dev.protocols
  autos : e.autos.Perm dev.autos
  adminState : e.adminState = dev.adminState
  operatingState : e.operatingState = dev.operatingState
  servicename : e.servicename = dev.servicename
  profile : pname = dev.profile.name

/-- A duplicate is as its original describes it. -/
theorem Describes.deviceDup (dev : Device DeviceProfile) (p : ProfileRef) :
    Describes (deviceDup dev p) dev.profile.name dev where
  name := rfl
  parent := rfl
  description := rfl
  labels := deviceDup_labels dev p
  tags := rfl
  protocols := by
    rw [DeviceSdk.deviceDup, protocolsDup_eq_reverse]
    exact List.reverse_perm _
  autos := deviceDup_autos dev p ▸ List.Perm.refl _
  adminState := rfl
  operatingState := rfl
  servicename := rfl
  profile := rfl

namespace Store

/-- The device at `d` is as `dev` describes it. -/
def Holds (s : Store) (d : DeviceRef) (dev : Device DeviceProfile) : Prop :=
  Describes (s.device d).dev (s.profileOf d).profile.name dev

/-- The same device, with the same contents and profile, is stored under `n`. -/
def SameAt (s s' : Store) (n : String) : Prop :=
  s'.devices.lookup n = s.devices.lookup n ∧
    ∀ d, s.devices.lookup n = some d →
      s'.device d = s.device d ∧ (s'.profileOf d).profile = (s.profileOf d).profile

/-- From `s` to `s'` the device named by `dev` has become `dev`, as a lookup by name
    finds it, and the devices under other names have not changed. -/
def Replaced (s s' : Store) (dev : Device DeviceProfile) : Prop :=
  (∃ d, (s'.deviceByname dev.name).2 = some d ∧ (s'.deviceByname dev.name).1.Holds d dev) ∧
  ∀ n, n ≠ dev.name → SameAt s s' n

/-- A lookup counts a reference; what it finds is what the map holds. -/
theorem deviceByname_holds_iff (s : Store) (dev : Device DeviceProfile) :
    (∃ d, (s.deviceByname dev.name).2 = some d ∧ (s.deviceByname dev.name).1.Holds d dev) ↔
      ∃ d, s.devices.lookup dev.name = some d ∧ s.Holds d dev := by
  rw [deviceByname]
  cases s.devices.lookup dev.name with
  | none => simp
  | some d => simp [Holds, profileOf, modifyDevice]

-- ════════════════════════════════════════════════════════════════════════
-- The three routes
-- ════════════════════════════════════════════════════════════════════════

/-- Adding a device does not touch a device that is already there. -/
theorem Wf.sameAt_addLocked {s : Store} (h : s.Wf) (uninit : FreshMemory)
    (dev : Device DeviceProfile) (retries : BitVec 32) {n : String} (hn : n ≠ dev.name) :
    SameAt s (s.addLocked uninit dev retries) n := by
  refine ⟨by rw [addLocked_devices, AList.lookup_insert_ne hn], fun d hd => ?_⟩
  refine ⟨addLocked_device_of_ne uninit s dev retries (h.device_lt hd).ne, ?_⟩
  rw [h.profileOf_addLocked_old uninit dev retries (h.device_lt hd)]

/-- Releasing a device does not touch the devices in the map under other names. -/
theorem sameAt_deviceRelease {s s' : Store} {n : String} {olddev : DeviceRef}
    (hs : SameAt s s' n) (hold : s.devices.lookup n ≠ some olddev) :
    SameAt s (s'.deviceRelease olddev) n := by
  obtain ⟨hl, hd⟩ := hs
  refine ⟨by rw [deviceRelease_devices, hl], fun d hn => ?_⟩
  have hne : d ≠ olddev := by
    rintro rfl
    exact hold hn
  have hdev : (s'.deviceRelease olddev).device d = s'.device d := by
    rw [deviceRelease_device]
    simp [hne]
  refine ⟨hdev.trans (hd d hn).1, ?_⟩
  rw [profileOf, hdev, deviceRelease_profile]
  exact (hd d hn).2

/-- A device under another name is another device. -/
theorem Wf.ne_of_lookup {s : Store} (h : s.Wf) {n n' : String} {d d' : DeviceRef}
    (hd : s.devices.lookup n = some d) (hd' : s.devices.lookup n' = some d') (hn : n ≠ n') :
    d ≠ d' := by
  rintro rfl
  exact hn ((h.device_name hd).symm.trans (h.device_name hd'))

/-- Writing to the device under one name does not touch those under other names. -/
theorem Wf.sameAt_modifyDevice {s : Store} (h : s.Wf) {n n' : String} {d : DeviceRef}
    (hd : s.devices.lookup n' = some d) (f : DeviceObj → DeviceObj) (hn : n ≠ n') :
    SameAt s (s.modifyDevice d f) n := by
  refine ⟨rfl, fun e he => ?_⟩
  have hne : e ≠ d := h.ne_of_lookup he hd hn
  have hdev : (s.modifyDevice d f).device e = s.device e := by
    simp [Store.modifyDevice, hne]
  exact ⟨hdev, by rw [profileOf, hdev]; rfl⟩

/-- Removing a device and adding it again does not touch those under other names. -/
theorem Wf.sameAt_readdLocked {s : Store} (h : s.Wf) (uninit : FreshMemory)
    {dev : Device DeviceProfile} {olddev : DeviceRef}
    (hold : s.devices.lookup dev.name = some olddev) {n : String} (hn : n ≠ dev.name) :
    SameAt s (s.readdLocked uninit olddev dev) n := by
  obtain ⟨hdevs, -, hother, hprof⟩ :=
    readdLocked_frame uninit s olddev dev (h.device_lt hold).ne
  obtain ⟨-, -, -, -, hframe⟩ := ensureProfile_frame uninit s dev.profile
  constructor
  · rw [hdevs, AList.lookup_insert_ne hn, h.device_name hold, AList.lookup_erase_ne hn]
  · intro d hd
    have hdev := hother d (h.device_lt hd).ne (h.ne_of_lookup hd hold hn)
    have hp : (s.device d).dev.profile ≠ s.nextProfile := (h.points_lt (h.device_lt hd)).ne
    refine ⟨hdev, ?_⟩
    rw [profileOf, hdev, hprof, hframe _ hp]
    rfl

theorem SameAt.trans {s s' s'' : Store} {n : String} (h : SameAt s s' n)
    (h' : SameAt s' s'' n) : SameAt s s'' n := by
  refine ⟨h'.1.trans h.1, fun d hd => ?_⟩
  have hd' : s'.devices.lookup n = some d := by rw [h.1, hd]
  exact ⟨((h'.2 d hd').1).trans (h.2 d hd).1, ((h'.2 d hd').2).trans (h.2 d hd).2⟩

/-- Devices under other names stay as they are, whichever route is taken. -/
theorem Wf.replaceDevice_sameAt {s : Store} (h : s.Wf) (uninit : FreshMemory)
    (cfg : DeviceInfo) (dev : Device DeviceProfile) {n : String} (hn : n ≠ dev.name) :
    SameAt s (s.replaceDevice uninit cfg dev).1 n := by
  rw [Store.replaceDevice]
  rcases replaceLocked_cases uninit cfg s dev with
    ⟨_, he⟩ | ⟨olddev, hold, _, he⟩ | ⟨olddev, hold, _, he⟩
  · rw [he]
    exact h.sameAt_addLocked uninit dev _ hn
  · rw [he]
    exact h.sameAt_modifyDevice hold _ hn
  · rw [he]
    have hm := h.modifyDevice_updateAt olddev dev
    have hsame := (h.sameAt_modifyDevice hold (fun obj =>
      { obj with dev := (s.updateAt olddev dev).2.1 }) hn).trans
      (hm.sameAt_readdLocked uninit hold hn)
    refine sameAt_deviceRelease hsame fun hc => ?_
    exact h.ne_of_lookup hc hold hn rfl

/-- A device that is created is the one that was asked for. -/
theorem Wf.addLocked_holds {s : Store} (h : s.Wf) (uninit : FreshMemory)
    (dev : Device DeviceProfile) (retries : BitVec 32) :
    (s.addLocked uninit dev retries).Holds s.nextDevice dev := by
  have hp := (h.ensureProfile uninit dev.profile).profile_name
    (ensureProfile_lookup uninit s dev.profile)
  rw [Holds, profileOf, addLocked_device_new, addLocked_profile]
  have hd := Describes.deviceDup dev (s.ensureProfile uninit dev.profile).2
  rwa [← hp] at hd

/-- A device that is removed and added again is the one that was asked for. -/
theorem Wf.readdLocked_holds {s : Store} (h : s.Wf) (uninit : FreshMemory)
    {dev : Device DeviceProfile} {olddev : DeviceRef}
    (hold : s.devices.lookup dev.name = some olddev) :
    ((s.readdLocked uninit olddev dev).deviceRelease olddev).Holds s.nextDevice dev := by
  obtain ⟨-, hnew, -, hprof⟩ := readdLocked_frame uninit s olddev dev (h.device_lt hold).ne
  have hp := (h.ensureProfile uninit dev.profile).profile_name
    (ensureProfile_lookup uninit s dev.profile)
  have hne : s.nextDevice ≠ olddev := (h.device_lt hold).ne'
  rw [Holds, profileOf, deviceRelease_device, deviceRelease_profile, hnew, hprof]
  have hd := Describes.deviceDup dev (s.ensureProfile uninit dev.profile).2
  rwa [← hp] at hd

/-- Where `update_in_place` goes through, the stored device already has what it does
    not copy: the parent, the tags and the service name, and the protocols and
    autoevents themselves where the comparison by first name cannot tell. -/
def UncopiedAgree (s : Store) (dev : Device DeviceProfile) : Prop :=
  ∀ olddev, s.devices.lookup dev.name = some olddev →
    protocolsEqual (s.device olddev).dev.protocols dev.protocols = true →
    (s.profileOf olddev).profile.name = dev.profile.name →
    autoeventsEqual (s.device olddev).dev.autos dev.autos = true →
    (s.device olddev).dev.parent = dev.parent ∧ (s.device olddev).dev.tags = dev.tags ∧
      (s.device olddev).dev.servicename = dev.servicename ∧
      (s.device olddev).dev.protocols.Perm dev.protocols ∧
      (s.device olddev).dev.autos.Perm dev.autos

/-- A device that is updated in place is the one that was asked for exactly when the
    fields that are not copied agreed before. -/
theorem Wf.modifyDevice_holds_iff {s : Store} (h : s.Wf) {dev : Device DeviceProfile}
    {olddev : DeviceRef} (hold : s.devices.lookup dev.name = some olddev)
    (hu : (s.updateAt olddev dev).1 = true) :
    (s.modifyDevice olddev fun obj =>
      { obj with dev := (s.updateAt olddev dev).2.1 }).Holds olddev dev ↔
    (s.device olddev).dev.parent = dev.parent ∧ (s.device olddev).dev.tags = dev.tags ∧
      (s.device olddev).dev.servicename = dev.servicename ∧
      (s.device olddev).dev.protocols.Perm dev.protocols ∧
      (s.device olddev).dev.autos.Perm dev.autos := by
  have hsnd : (s.updateAt olddev dev).2.1 = _ := updateInPlace_snd hu
  obtain ⟨-, hname, -⟩ := (updateInPlace_fst _ _ _ _).mp hu
  have hprof : (s.updateAt olddev dev).2.1.profile = (s.device olddev).dev.profile := by
    rw [hsnd]
  simp only [Holds, profileOf, Store.modifyDevice, Function.update_self, hprof]
  rw [hsnd]
  constructor
  · intro hd
    exact ⟨hd.parent, hd.tags, hd.servicename, hd.protocols, hd.autos⟩
  · rintro ⟨hpar, htags, hsvc, hprots, hautos⟩
    exact ⟨h.device_name hold, hpar, rfl, rfl, htags, hprots, hautos, rfl, rfl, hsvc, hname⟩

end Store

/-- After `edgex_devmap_replace_device` a lookup finds the device that was passed, and
    no other device has changed, exactly when an update in place had nothing to carry
    over that it does not copy. -/
theorem replaceDevice_replaced_iff (uninit : FreshMemory) (cfg : DeviceInfo) (m : DevMap)
    (dev : Device DeviceProfile) :
    m.store.Replaced (m.replaceDevice uninit cfg dev).store dev ↔
      m.store.UncopiedAgree dev := by
  obtain ⟨s, h⟩ := m
  have hsame : ∀ n, n ≠ dev.name → s.SameAt (s.replaceDevice uninit cfg dev).1 n :=
    fun n hn => h.replaceDevice_sameAt uninit cfg dev hn
  show s.Replaced (s.replaceDevice uninit cfg dev).1 dev ↔ s.UncopiedAgree dev
  rw [Store.Replaced, Store.deviceByname_holds_iff, and_iff_left hsame, Store.replaceDevice]
  rcases Store.replaceLocked_cases uninit cfg s dev with
    ⟨hnone, he⟩ | ⟨olddev, hold, hu, he⟩ | ⟨olddev, hold, hu, he⟩
  · -- created: the condition is about a device that is not there
    rw [he]
    refine iff_of_true ⟨s.nextDevice, ?_, h.addLocked_holds uninit dev _⟩ ?_
    · simp [Store.releaseOption]
    · intro olddev hold
      rw [hnone] at hold
      cases hold
  · -- updated in place
    obtain ⟨hprots, hname, hautos⟩ := (Store.updateInPlace_fst _ _ _ _).mp hu
    rw [he]
    show (∃ d, s.devices.lookup dev.name = some d ∧ _) ↔ _
    simp only [hold, Option.some.injEq, exists_eq_left', Store.releaseOption,
      h.modifyDevice_holds_iff hold hu]
    constructor
    · rintro hagree e he - - -
      obtain rfl := Option.some.inj (hold.symm.trans he)
      exact hagree
    · intro hagree
      exact hagree olddev hold hprots hname hautos
  · -- removed and added again: the comparison failed
    rw [he]
    have hm := h.modifyDevice_updateAt olddev dev
    have hold' : (s.modifyDevice olddev fun obj =>
        { obj with dev := (s.updateAt olddev dev).2.1 }).devices.lookup dev.name =
        some olddev := hold
    obtain ⟨hdevs, -⟩ := Store.readdLocked_frame uninit _ olddev dev (hm.device_lt hold').ne
    refine iff_of_true ⟨s.nextDevice, ?_, hm.readdLocked_holds uninit hold'⟩ ?_
    · show AList.lookup dev.name (Store.deviceRelease _ olddev).devices = _
      rw [Store.deviceRelease_devices, hdevs, AList.lookup_insert]
      rfl
    · intro e he' hprots hname hautos
      obtain rfl := Option.some.inj (hold.symm.trans he')
      have := (Store.updateInPlace_fst _ _ _ Outcome.updatedSdk).mpr ⟨hprots, hname, hautos⟩
      exact absurd (hu.symm.trans this) Bool.false_ne_true

/-- A device record without tags, and the same record with a tag. -/
def sensor (tags : Option IotData) : Device DeviceProfile where
  name := "sensor"
  profile := .placeholder "thermometer"
  tags := tags

/-- An update that brings nothing but a tag is lost: the device found afterwards has
    no tags. -/
theorem replaceDevice_loses_tags :
    let m := DevMap.alloc.replaceDevice (fun _ => none) {} (sensor none)
    let dev := sensor (some (.map [("site", .string "north")]))
    ¬ m.store.Replaced (m.replaceDevice (fun _ => none) {} dev).store dev := by
  rintro m dev ⟨⟨d, hd, hh⟩, -⟩
  have h0 : (((m.replaceDevice (fun _ => none) {} dev).store).deviceByname dev.name).2 = some 0 := by
    decide
  obtain rfl := Option.some.inj (hd.symm.trans h0)
  exact absurd hh.tags (by decide)

end DeviceSdk
