import DeviceSdk.DevMap.Frame

/-!
# Well-formed device maps

Both maps of `devmap.c` are keyed by the name of the object they hold, and every
address in use was allocated. These facts hold in every state that the operations
can produce, whatever the order in which they run; `DevMap` is the type of the
stores that have them.

The lemmas follow the single writes of `Store`, so that an operation is covered by
the writes it consists of.
-/

namespace DeviceSdk

namespace Store

/-- The maps are keyed by the names of what they hold, and point below the
    allocation frontier. -/
structure Wf (s : Store) : Prop where
  device_name : ∀ {n d}, s.devices.lookup n = some d → (s.device d).dev.name = n
  device_lt : ∀ {n d}, s.devices.lookup n = some d → d < s.nextDevice
  profile_name : ∀ {n p}, s.profiles.lookup n = some p → (s.profile p).profile.name = n
  profile_lt : ∀ {n p}, s.profiles.lookup n = some p → p < s.nextProfile
  points_lt : ∀ {d}, d < s.nextDevice → (s.device d).dev.profile < s.nextProfile

theorem Wf.alloc : Store.alloc.Wf := by
  constructor <;> simp [Store.alloc]

/-- A device in the map is found there under its own name. -/
theorem Wf.lookup_of_mapped {s : Store} (h : s.Wf) {d : DeviceRef} (hd : s.Mapped d) :
    s.devices.lookup (s.device d).dev.name = some d := by
  obtain ⟨n, hn⟩ := hd
  rw [h.device_name hn]
  exact hn

theorem Wf.insertProfile {s : Store} (h : s.Wf) (obj : ProfileObj) :
    (s.insertProfile obj).Wf where
  device_name hn := h.device_name hn
  device_lt hn := h.device_lt hn
  profile_name {n p} hn := by
    rcases AList.lookup_insert_eq_some.mp hn with ⟨rfl, rfl⟩ | ⟨_, hn⟩
    · simp [Store.insertProfile]
    · have hp : p ≠ s.nextProfile := (h.profile_lt hn).ne
      simpa [Store.insertProfile, hp] using h.profile_name hn
  profile_lt {n p} hn := by
    rcases AList.lookup_insert_eq_some.mp hn with ⟨_, rfl⟩ | ⟨_, hn⟩
    · exact Nat.lt_succ_self _
    · exact (h.profile_lt hn).trans (Nat.lt_succ_self _)
  points_lt hd := (h.points_lt hd).trans (Nat.lt_succ_self _)

theorem Wf.insertDevice {s : Store} (h : s.Wf) (newdev : Device DeviceProfile)
    {p : ProfileRef} (hp : p < s.nextProfile) (retries : BitVec 32) :
    (s.insertDevice newdev p retries).Wf where
  device_name {n d} hn := by
    rcases AList.lookup_insert_eq_some.mp hn with ⟨rfl, rfl⟩ | ⟨_, hn⟩
    · simp [Store.insertDevice, deviceDup]
    · have hd : d ≠ s.nextDevice := (h.device_lt hn).ne
      simpa [Store.insertDevice, hd] using h.device_name hn
  device_lt {n d} hn := by
    rcases AList.lookup_insert_eq_some.mp hn with ⟨_, rfl⟩ | ⟨_, hn⟩
    · exact Nat.lt_succ_self _
    · exact (h.device_lt hn).trans (Nat.lt_succ_self _)
  profile_name hn := h.profile_name hn
  profile_lt hn := h.profile_lt hn
  points_lt {d} hd := by
    by_cases he : d = s.nextDevice
    · subst he
      simpa [Store.insertDevice, deviceDup] using hp
    · have hd' : d < s.nextDevice := (Nat.lt_succ_iff_lt_or_eq.mp hd).resolve_right he
      simpa [Store.insertDevice, he] using h.points_lt hd'

/-- A write to a device that keeps its name, and leaves it a profile in use. -/
theorem Wf.modifyDevice {s : Store} (h : s.Wf) {d : DeviceRef} {f : DeviceObj → DeviceObj}
    (hn : (f (s.device d)).dev.name = (s.device d).dev.name)
    (hp : d < s.nextDevice → (f (s.device d)).dev.profile < s.nextProfile) :
    (s.modifyDevice d f).Wf where
  device_name {n e} he := by
    by_cases hed : e = d
    · subst hed
      simpa [Store.modifyDevice, hn] using h.device_name he
    · simpa [Store.modifyDevice, hed] using h.device_name he
  device_lt he := h.device_lt he
  profile_name he := h.profile_name he
  profile_lt he := h.profile_lt he
  points_lt {e} he := by
    by_cases hed : e = d
    · subst hed
      simpa [Store.modifyDevice] using hp he
    · simpa [Store.modifyDevice, hed] using h.points_lt he

/-- A write to the bookkeeping of a device. -/
theorem Wf.modifyDevice_of_dev {s : Store} (h : s.Wf) {d : DeviceRef}
    {f : DeviceObj → DeviceObj} (hf : ∀ obj, (f obj).dev = obj.dev) :
    (s.modifyDevice d f).Wf :=
  h.modifyDevice (by rw [hf]) (fun hd => by rw [hf]; exact h.points_lt hd)

theorem Wf.freeProfile {s : Store} (h : s.Wf) (p : ProfileRef) : (s.freeProfile p).Wf where
  device_name hn := h.device_name hn
  device_lt hn := h.device_lt hn
  profile_name {n q} hn := by
    by_cases hq : q = p
    · subst hq
      simpa [Store.freeProfile] using h.profile_name hn
    · simpa [Store.freeProfile, hq] using h.profile_name hn
  profile_lt hn := h.profile_lt hn
  points_lt hd := h.points_lt hd

theorem Wf.eraseDevice {s : Store} (h : s.Wf) (name : String) : (s.eraseDevice name).Wf where
  device_name hn := h.device_name (AList.lookup_erase_eq_some.mp hn).2
  device_lt hn := h.device_lt (AList.lookup_erase_eq_some.mp hn).2
  profile_name hn := h.profile_name hn
  profile_lt hn := h.profile_lt hn
  points_lt hd := h.points_lt hd

theorem Wf.eraseProfile {s : Store} (h : s.Wf) (name : String) : (s.eraseProfile name).Wf where
  device_name hn := h.device_name hn
  device_lt hn := h.device_lt hn
  profile_name hn := h.profile_name (AList.lookup_erase_eq_some.mp hn).2
  profile_lt hn := h.profile_lt (AList.lookup_erase_eq_some.mp hn).2
  points_lt hd := h.points_lt hd

theorem Wf.call {s : Store} (h : s.Wf) (cs : List AutoeventCall) : (s.call cs).Wf :=
  ⟨h.device_name, h.device_lt, h.profile_name, h.profile_lt, h.points_lt⟩

-- ════════════════════════════════════════════════════════════════════════
-- The operations
-- ════════════════════════════════════════════════════════════════════════

theorem Wf.ensureProfile {s : Store} (h : s.Wf) (uninit : FreshMemory)
    (dp : DeviceProfile) : (s.ensureProfile uninit dp).1.Wf := by
  rw [Store.ensureProfile]
  split
  · exact h
  · exact h.insertProfile _

theorem Wf.addLocked {s : Store} (h : s.Wf) (uninit : FreshMemory)
    (newdev : Device DeviceProfile) (retries : BitVec 32) :
    (s.addLocked uninit newdev retries).Wf := by
  have he := h.ensureProfile uninit newdev.profile
  exact (he.insertDevice newdev (he.profile_lt (ensureProfile_lookup uninit s _)) retries).call _

/-- Adding a device leaves the profiles of the others as they were. -/
theorem Wf.profileOf_addLocked_old {s : Store} (h : s.Wf) (uninit : FreshMemory)
    (newdev : Device DeviceProfile) (retries : BitVec 32) {d : DeviceRef}
    (hd : d < s.nextDevice) :
    (s.addLocked uninit newdev retries).profileOf d = s.profileOf d := by
  obtain ⟨-, -, -, -, hframe⟩ := ensureProfile_frame uninit s newdev.profile
  rw [profileOf, addLocked_device_of_ne uninit s newdev retries hd.ne, addLocked_profile,
    hframe _ (h.points_lt hd).ne]
  rfl

theorem Wf.removeFromMap {s : Store} (h : s.Wf) (olddev : DeviceRef) :
    (s.removeFromMap olddev).Wf := h.eraseDevice _

theorem Wf.releaseProfileLocked {s : Store} (h : s.Wf) (olddev : DeviceRef) :
    (s.releaseProfileLocked olddev).Wf := by
  rw [Store.releaseProfileLocked]
  split
  · exact (h.eraseProfile _).modifyDevice_of_dev fun _ => rfl
  · exact h

theorem Wf.deviceRelease {s : Store} (h : s.Wf) (d : DeviceRef) : (s.deviceRelease d).Wf := by
  have hm : (s.modifyDevice d fun obj => { obj with refs := obj.refs - 1 }).Wf :=
    h.modifyDevice_of_dev fun _ => rfl
  rw [Store.deviceRelease]
  dsimp only
  split
  · split
    · exact (hm.call _).freeProfile _
    · exact hm.call _
  · exact hm

theorem Wf.releaseOption {s : Store} (h : s.Wf) (d : Option DeviceRef) :
    (s.releaseOption d).Wf := by
  cases d with
  | none => exact h
  | some d => exact h.deviceRelease d

theorem Wf.deviceByname {s : Store} (h : s.Wf) (name : String) :
    (s.deviceByname name).1.Wf := by
  rw [Store.deviceByname]
  split
  · dsimp only
    exact h.modifyDevice_of_dev fun _ => rfl
  · exact h

theorem Wf.removeLocked {s : Store} (h : s.Wf) (name : String) :
    (s.removeLocked name).1.Wf := by
  rw [Store.removeLocked]
  split
  · exact (h.removeFromMap _).releaseProfileLocked _
  · exact h

/-- The device as `update_in_place` leaves it can take its own place. -/
theorem Wf.modifyDevice_updateAt {s : Store} (h : s.Wf) (olddev : DeviceRef)
    (dev : Device DeviceProfile) :
    (s.modifyDevice olddev fun obj =>
      { obj with dev := (s.updateAt olddev dev).2.1 }).Wf := by
  have hu := updateInPlace_name_profile (s.profileOf olddev).profile.name
    (s.device olddev).dev dev .updatedSdk
  exact h.modifyDevice hu.1 (fun hd => by
    rw [show (s.updateAt olddev dev).2.1.profile = (s.device olddev).dev.profile from hu.2]
    exact h.points_lt hd)

theorem Wf.readdLocked {s : Store} (h : s.Wf) (uninit : FreshMemory) (olddev : DeviceRef)
    (dev : Device DeviceProfile) : (s.readdLocked uninit olddev dev).Wf := by
  have ha := (h.removeFromMap olddev).addLocked uninit dev (s.device olddev).retries
  unfold Store.readdLocked
  dsimp only
  split
  · exact ha.releaseProfileLocked olddev
  · exact ha

theorem Wf.replaceLocked {s : Store} (h : s.Wf) (uninit : FreshMemory) (cfg : DeviceInfo)
    (dev : Device DeviceProfile) : (s.replaceLocked uninit cfg dev).1.Wf := by
  rcases replaceLocked_cases uninit cfg s dev with
    ⟨_, he⟩ | ⟨olddev, _, _, he⟩ | ⟨olddev, _, _, he⟩
  · rw [he]
    exact h.addLocked uninit dev _
  · rw [he]
    exact h.modifyDevice_updateAt olddev dev
  · rw [he]
    exact (h.modifyDevice_updateAt olddev dev).readdLocked uninit olddev dev

theorem Wf.replaceDevice {s : Store} (h : s.Wf) (uninit : FreshMemory) (cfg : DeviceInfo)
    (dev : Device DeviceProfile) : (s.replaceDevice uninit cfg dev).1.Wf :=
  (h.replaceLocked uninit cfg dev).releaseOption _

theorem Wf.populateDevice {s : Store} (h : s.Wf) (uninit : FreshMemory) (cfg : DeviceInfo)
    (d : Device DeviceProfile) : (s.populateDevice uninit cfg d).Wf := by
  rw [Store.populateDevice]
  split
  · exact h.addLocked uninit d _
  · exact h

theorem Wf.populateDevices {s : Store} (h : s.Wf) (uninit : FreshMemory) (cfg : DeviceInfo)
    (devs : List (Device DeviceProfile)) : (s.populateDevices uninit cfg devs).Wf := by
  induction devs generalizing s with
  | nil => exact h
  | cons d devs ih => exact ih (h.populateDevice uninit cfg d)

theorem Wf.addProfile {s : Store} (h : s.Wf) (dp : DeviceProfile) (v : ℕ) :
    (s.addProfile dp v).Wf := h.insertProfile _

/-- What `edgex_devmap_update_profile` does to a profile object: the new one is
    stored, and the one it displaces is freed. -/
theorem Wf.updateProfile_profile {s : Store} (h : s.Wf) (dp : DeviceProfile) (v : ℕ)
    (p : ProfileRef) :
    (s.updateProfile dp v).profile p =
      if p = s.nextProfile then { profile := dp, version := some v }
      else if s.profiles.lookup dp.name = some p then
        { s.profile p with frees := (s.profile p).frees + 1 }
      else s.profile p := by
  rw [Store.updateProfile]
  split
  · next old hold =>
    obtain ⟨-, -, h₃, -, h₅⟩ := foldl_repoint_frame old s.nextProfile s.devices.values s
    have hlt : old ≠ s.nextProfile := (h.profile_lt hold).ne
    by_cases hp : p = s.nextProfile
    · subst hp
      simp [Store.insertProfile, Store.freeProfile, Store.eraseProfile, repointAll, h₅]
    · by_cases ho : p = old
      · subst ho
        simp [Store.insertProfile, Store.freeProfile, Store.eraseProfile, repointAll, h₃, h₅,
          hp, hold]
      · simp [Store.insertProfile, Store.freeProfile, Store.eraseProfile, repointAll, h₃, h₅,
          hp, hold, ho, Ne.symm ho]
  · next hnone =>
    by_cases hp : p = s.nextProfile
    · subst hp
      simp [Store.insertProfile]
    · simp [Store.insertProfile, hp, hnone]

theorem Wf.updateProfile {s : Store} (h : s.Wf) (dp : DeviceProfile) (v : ℕ) :
    (s.updateProfile dp v).Wf := by
  obtain ⟨hdev, hnd, hnp⟩ := updateProfile_frame s dp v
  constructor
  · intro n d hn
    rw [hdev] at hn
    rw [updateProfile_device]
    split <;> exact h.device_name hn
  · intro n d hn
    rw [hdev] at hn
    rw [hnd]
    exact h.device_lt hn
  · intro n p hn
    rw [updateProfile_lookup] at hn
    rw [h.updateProfile_profile]
    split at hn
    · next hname =>
      obtain rfl := Option.some.inj hn
      simpa using hname.symm
    · have hp : p ≠ s.nextProfile := (h.profile_lt hn).ne
      rw [if_neg hp]
      split <;> exact h.profile_name hn
  · intro n p hn
    rw [updateProfile_lookup] at hn
    rw [hnp]
    split at hn
    · obtain rfl := Option.some.inj hn
      exact Nat.lt_succ_self _
    · exact (h.profile_lt hn).trans (Nat.lt_succ_self _)
  · intro d hd
    rw [hnd] at hd
    rw [hnp, updateProfile_device]
    split
    · exact Nat.lt_succ_self _
    · exact (h.points_lt hd).trans (Nat.lt_succ_self _)

end Store

/-- A device map, with the objects it leads to, in a state that its operations can
    produce. -/
structure DevMap where
  store : Store
  wf : store.Wf

/-- `edgex_devmap_alloc`. -/
def DevMap.alloc : DevMap := ⟨Store.alloc, Store.Wf.alloc⟩

/-- `edgex_devmap_replace_device`. -/
def DevMap.replaceDevice (uninit : FreshMemory) (cfg : DeviceInfo) (m : DevMap)
    (dev : Device DeviceProfile) : DevMap :=
  ⟨(m.store.replaceDevice uninit cfg dev).1, m.wf.replaceDevice uninit cfg dev⟩

end DeviceSdk
