import DeviceSdk.DevMap.Store

/-!
# What the device map operations write

For each operation of `Store`, what it does to the maps and to the objects, and
what it leaves alone. Proofs about the device map go through these lemmas and do
not unfold the operations.
-/

namespace DeviceSdk

namespace Store

@[simp] theorem modifyDevice_device_self (s : Store) (d : DeviceRef)
    (f : DeviceObj → DeviceObj) : (s.modifyDevice d f).device d = f (s.device d) :=
  Function.update_self d _ s.device

theorem modifyDevice_device_of_ne (s : Store) {d e : DeviceRef} (f : DeviceObj → DeviceObj)
    (he : e ≠ d) : (s.modifyDevice d f).device e = s.device e :=
  Function.update_of_ne he _ s.device

/-- The profile that `add_locked` chooses is in the profile map, under the name
    that was asked for. -/
theorem ensureProfile_lookup (uninit : FreshMemory) (s : Store) (dp : DeviceProfile) :
    (s.ensureProfile uninit dp).1.profiles.lookup dp.name =
      some (s.ensureProfile uninit dp).2 := by
  rw [ensureProfile]
  split
  · next hpp => exact hpp
  · simp [Store.insertProfile]

/-- Choosing a profile adds at most a fresh profile object. -/
theorem ensureProfile_frame (uninit : FreshMemory) (s : Store) (dp : DeviceProfile) :
    (s.ensureProfile uninit dp).1.devices = s.devices ∧
      (s.ensureProfile uninit dp).1.device = s.device ∧
      (s.ensureProfile uninit dp).1.nextDevice = s.nextDevice ∧
      s.nextProfile ≤ (s.ensureProfile uninit dp).1.nextProfile ∧
      ∀ p, p ≠ s.nextProfile → (s.ensureProfile uninit dp).1.profile p = s.profile p := by
  rw [ensureProfile]
  split
  · exact ⟨rfl, rfl, rfl, le_rfl, fun _ _ => rfl⟩
  · refine ⟨rfl, rfl, rfl, Nat.le_succ _, fun p hp => ?_⟩
    simp [insertProfile, hp]

/-- Every profile that was in the profile map stays there when a device is added. -/
theorem ensureProfile_lookup_of_some (uninit : FreshMemory) (s : Store) (dp : DeviceProfile)
    {n : String} {p : ProfileRef} (hn : s.profiles.lookup n = some p) :
    (s.ensureProfile uninit dp).1.profiles.lookup n = some p := by
  rw [ensureProfile]
  split
  · exact hn
  · next hnone =>
    have hne : n ≠ dp.name := by
      rintro rfl
      rw [hnone] at hn
      cases hn
    simp only [insertProfile, deviceprofileDup_name]
    rw [AList.lookup_insert_ne hne]
    exact hn

@[simp] theorem addLocked_devices (uninit : FreshMemory) (s : Store)
    (newdev : Device DeviceProfile) (retries : BitVec 32) :
    (s.addLocked uninit newdev retries).devices =
      s.devices.insert newdev.name s.nextDevice := by
  obtain ⟨h₁, -, h₃, -⟩ := ensureProfile_frame uninit s newdev.profile
  simp [addLocked, insertDevice, call, h₁, h₃]

@[simp] theorem addLocked_profiles (uninit : FreshMemory) (s : Store)
    (newdev : Device DeviceProfile) (retries : BitVec 32) :
    (s.addLocked uninit newdev retries).profiles =
      (s.ensureProfile uninit newdev.profile).1.profiles := rfl

@[simp] theorem addLocked_profile (uninit : FreshMemory) (s : Store)
    (newdev : Device DeviceProfile) (retries : BitVec 32) :
    (s.addLocked uninit newdev retries).profile =
      (s.ensureProfile uninit newdev.profile).1.profile := rfl

@[simp] theorem addLocked_nextDevice (uninit : FreshMemory) (s : Store)
    (newdev : Device DeviceProfile) (retries : BitVec 32) :
    (s.addLocked uninit newdev retries).nextDevice = s.nextDevice + 1 := by
  obtain ⟨-, -, h₃, -⟩ := ensureProfile_frame uninit s newdev.profile
  simp [addLocked, insertDevice, call, h₃]

/-- The device object that `add_locked` creates. -/
@[simp] theorem addLocked_device_new (uninit : FreshMemory) (s : Store)
    (newdev : Device DeviceProfile) (retries : BitVec 32) :
    (s.addLocked uninit newdev retries).device s.nextDevice =
      { dev := deviceDup newdev (s.ensureProfile uninit newdev.profile).2, refs := 1,
        retries := retries, ownprofile := false } := by
  obtain ⟨-, -, h₃, -⟩ := ensureProfile_frame uninit s newdev.profile
  simp [addLocked, insertDevice, call, h₃]

theorem addLocked_device_of_ne (uninit : FreshMemory) (s : Store)
    (newdev : Device DeviceProfile) (retries : BitVec 32) {d : DeviceRef}
    (hd : d ≠ s.nextDevice) :
    (s.addLocked uninit newdev retries).device d = s.device d := by
  obtain ⟨-, h₂, h₃, -⟩ := ensureProfile_frame uninit s newdev.profile
  simp [addLocked, insertDevice, call, h₂, h₃, hd]

/-- A device that owns its profile after `add_locked` is not the new one. -/
theorem addLocked_device_of_own {uninit : FreshMemory} {s : Store}
    {newdev : Device DeviceProfile} {retries : BitVec 32} {d : DeviceRef}
    (hd : ((s.addLocked uninit newdev retries).device d).ownprofile = true) :
    d ≠ s.nextDevice ∧ (s.addLocked uninit newdev retries).device d = s.device d := by
  have hne : d ≠ s.nextDevice := by
    rintro rfl
    simp at hd
  exact ⟨hne, addLocked_device_of_ne uninit s newdev retries hne⟩

/-- A device that is in the map after `add_locked` is the new one, or was there before. -/
theorem mapped_of_addLocked {uninit : FreshMemory} {s : Store}
    {newdev : Device DeviceProfile} {retries : BitVec 32} {d : DeviceRef}
    (hd : (s.addLocked uninit newdev retries).Mapped d) : d = s.nextDevice ∨ s.Mapped d := by
  obtain ⟨n, hn⟩ := hd
  rw [addLocked_devices] at hn
  cases AList.lookup_insert_eq_some.mp hn with
  | inl hnew => exact Or.inl hnew.2
  | inr hold => exact Or.inr ⟨n, hold.2⟩

/-- `update_in_place` never touches the name of a device or its profile. -/
theorem updateInPlace_name_profile (pname : String) (dest : Device ProfileRef)
    (src : Device DeviceProfile) (outcome : Outcome) :
    (updateInPlace pname dest src outcome).2.1.name = dest.name ∧
      (updateInPlace pname dest src outcome).2.1.profile = dest.profile := by
  rw [updateInPlace]
  split
  · exact ⟨rfl, rfl⟩
  · dsimp only
    split
    · exact ⟨rfl, rfl⟩
    · split <;> exact ⟨rfl, rfl⟩

/-- When `update_in_place` goes through: nothing changed that autoevents or
    operations in progress depend on. -/
theorem updateInPlace_fst (pname : String) (dest : Device ProfileRef)
    (src : Device DeviceProfile) (outcome : Outcome) :
    (updateInPlace pname dest src outcome).1 = true ↔
      protocolsEqual dest.protocols src.protocols = true ∧ pname = src.profile.name ∧
        autoeventsEqual dest.autos src.autos = true := by
  rw [updateInPlace]
  by_cases h₁ : protocolsEqual dest.protocols src.protocols = true
  · by_cases h₂ : pname = src.profile.name
    · by_cases h₃ : autoeventsEqual dest.autos src.autos = true
      · simp [h₁, h₂, h₃]
      · simp [h₁, h₂, h₃]
    · simp [h₁, h₂]
  · simp [h₁]

/-- The device that `update_in_place` leaves when it goes through. -/
theorem updateInPlace_snd {pname : String} {dest : Device ProfileRef}
    {src : Device DeviceProfile} {outcome : Outcome}
    (h : (updateInPlace pname dest src outcome).1 = true) :
    (updateInPlace pname dest src outcome).2.1 =
      { dest with
        adminState := src.adminState
        operatingState := src.operatingState
        created := src.created
        origin := src.origin
        description := src.description
        labels := src.labels } := by
  obtain ⟨h₁, h₂, h₃⟩ := (updateInPlace_fst pname dest src outcome).mp h
  simp [updateInPlace, h₁, h₂, h₃]

/-- The scan of `release_profile_locked` looks at every device in the map. -/
theorem lastUser_iff (s : Store) (olddev : DeviceRef) :
    s.lastUser olddev = true ↔
      ∀ d, s.Mapped d → (s.device d).dev.profile ≠ (s.device olddev).dev.profile := by
  have hm : ∀ d, d ∈ s.devices.values ↔ s.Mapped d := fun d => AList.mem_values
  simp [lastUser, hm]

@[simp] theorem releaseProfileLocked_devices (s : Store) (olddev : DeviceRef) :
    (s.releaseProfileLocked olddev).devices = s.devices := by
  rw [releaseProfileLocked]
  split <;> rfl

@[simp] theorem releaseProfileLocked_profile (s : Store) (olddev : DeviceRef) :
    (s.releaseProfileLocked olddev).profile = s.profile := by
  rw [releaseProfileLocked]
  split <;> rfl

theorem releaseProfileLocked_next (s : Store) (olddev : DeviceRef) :
    (s.releaseProfileLocked olddev).nextDevice = s.nextDevice ∧
      (s.releaseProfileLocked olddev).nextProfile = s.nextProfile := by
  rw [releaseProfileLocked]
  split <;> exact ⟨rfl, rfl⟩

/-- `release_profile_locked` changes at most the ownership flag of a device. -/
theorem releaseProfileLocked_device (s : Store) (olddev d : DeviceRef) :
    (s.releaseProfileLocked olddev).device d =
      { s.device d with
        ownprofile := (s.device d).ownprofile || (decide (d = olddev) && s.lastUser olddev) } := by
  rw [releaseProfileLocked]
  by_cases hl : s.lastUser olddev = true
  · by_cases hd : d = olddev
    · subst hd
      simp [hl, modifyDevice, eraseProfile]
    · simp [hl, modifyDevice, eraseProfile, hd]
  · simp [hl]

/-- `release_profile_locked` takes at most the profile of the device from the map. -/
theorem releaseProfileLocked_lookup (s : Store) (olddev : DeviceRef) (n : String)
    (p : ProfileRef) :
    (s.releaseProfileLocked olddev).profiles.lookup n = some p ↔
      s.profiles.lookup n = some p ∧
        (s.lastUser olddev = true → n ≠ (s.profileOf olddev).profile.name) := by
  rw [releaseProfileLocked]
  by_cases hl : s.lastUser olddev = true
  · simp only [hl, if_true, modifyDevice, eraseProfile, true_implies]
    rw [AList.lookup_erase_eq_some, and_comm]
  · simp [hl]

@[simp] theorem deviceRelease_devices (s : Store) (d : DeviceRef) :
    (s.deviceRelease d).devices = s.devices := by
  rw [deviceRelease]
  dsimp only
  split
  · split <;> rfl
  · rfl

@[simp] theorem deviceRelease_profiles (s : Store) (d : DeviceRef) :
    (s.deviceRelease d).profiles = s.profiles := by
  rw [deviceRelease]
  dsimp only
  split
  · split <;> rfl
  · rfl

theorem deviceRelease_next (s : Store) (d : DeviceRef) :
    (s.deviceRelease d).nextDevice = s.nextDevice ∧
      (s.deviceRelease d).nextProfile = s.nextProfile := by
  rw [deviceRelease]
  dsimp only
  split
  · split <;> exact ⟨rfl, rfl⟩
  · exact ⟨rfl, rfl⟩

/-- `edgex_device_release` changes at most the reference count of a device. -/
theorem deviceRelease_device (s : Store) (d e : DeviceRef) :
    (s.deviceRelease d).device e =
      { s.device e with refs := (s.device e).refs - if e = d then 1 else 0 } := by
  have hm : ∀ t : Store, t.device = (s.modifyDevice d fun obj =>
      { obj with refs := obj.refs - 1 }).device →
      t.device e = { s.device e with refs := (s.device e).refs - if e = d then 1 else 0 } := by
    intro t ht
    rw [ht]
    by_cases he : e = d
    · subst he
      simp [modifyDevice]
    · simp [modifyDevice, he]
  rw [deviceRelease]
  dsimp only
  split
  · split <;> exact hm _ rfl
  · exact hm _ rfl

/-- `edgex_device_release` frees a profile when the last reference to its owner goes. -/
theorem deviceRelease_profile (s : Store) (d : DeviceRef) (p : ProfileRef) :
    (s.deviceRelease d).profile p =
      { s.profile p with
        frees := (s.profile p).frees +
          if (s.device d).refs = 1 ∧ (s.device d).ownprofile = true ∧
            (s.device d).dev.profile = p then 1 else 0 } := by
  rw [deviceRelease]
  dsimp only
  by_cases hr : (s.device d).refs = 1
  · by_cases ho : (s.device d).ownprofile = true
    · by_cases hp : p = (s.device d).dev.profile
      · subst hp
        simp [hr, ho, modifyDevice, call, freeProfile]
      · simp [hr, ho, modifyDevice, call, freeProfile, hp, Ne.symm hp]
    · simp [hr, ho, modifyDevice, call]
  · simp [hr, modifyDevice]

/-- The three routes of `edgex_devmap_replace_device`: the device is created,
    updated in place, or removed and added again. -/
theorem replaceLocked_cases (uninit : FreshMemory) (cfg : DeviceInfo) (s : Store)
    (dev : Device DeviceProfile) :
    (s.devices.lookup dev.name = none ∧
      s.replaceLocked uninit cfg dev =
        (s.addLocked uninit dev cfg.allowedFails, .created, none)) ∨
    (∃ olddev, s.devices.lookup dev.name = some olddev ∧
      (s.updateAt olddev dev).1 = true ∧
      s.replaceLocked uninit cfg dev =
        (s.modifyDevice olddev fun obj => { obj with dev := (s.updateAt olddev dev).2.1 },
          (s.updateAt olddev dev).2.2, none)) ∨
    (∃ olddev, s.devices.lookup dev.name = some olddev ∧
      (s.updateAt olddev dev).1 = false ∧
      s.replaceLocked uninit cfg dev =
        ((s.modifyDevice olddev fun obj => { obj with dev := (s.updateAt olddev dev).2.1 }
          ).readdLocked uninit olddev dev, (s.updateAt olddev dev).2.2, some olddev)) := by
  rw [replaceLocked]
  split
  · next hnone => exact Or.inl ⟨hnone, rfl⟩
  · next olddev hold =>
    cases hu : (s.updateAt olddev dev).1 with
    | true => exact Or.inr (Or.inl ⟨olddev, hold, hu, by simp [hu]⟩)
    | false => exact Or.inr (Or.inr ⟨olddev, hold, hu, by simp [hu]⟩)

/-- Removing a device and adding another in its place, as far as the device map and
    the other devices are concerned. -/
theorem readdLocked_frame (uninit : FreshMemory) (s : Store) (olddev : DeviceRef)
    (dev : Device DeviceProfile) (hold : olddev ≠ s.nextDevice) :
    let s' := s.readdLocked uninit olddev dev
    s'.devices = (s.devices.erase (s.device olddev).dev.name).insert dev.name s.nextDevice ∧
      s'.device s.nextDevice =
        { dev := deviceDup dev (s.ensureProfile uninit dev.profile).2, refs := 1,
          retries := (s.device olddev).retries, ownprofile := false } ∧
      (∀ d, d ≠ s.nextDevice → d ≠ olddev → s'.device d = s.device d) ∧
      s'.profile = (s.ensureProfile uninit dev.profile).1.profile := by
  have he : (s.removeFromMap olddev).ensureProfile uninit dev.profile =
      ((s.ensureProfile uninit dev.profile).1.removeFromMap olddev,
        (s.ensureProfile uninit dev.profile).2) := by
    unfold ensureProfile
    simp only [removeFromMap, eraseDevice]
    split <;> rfl
  obtain ⟨s₁, hs₁⟩ : ∃ s₁, s₁ = (s.removeFromMap olddev).addLocked uninit dev
    (s.device olddev).retries := ⟨_, rfl⟩
  have ha : s₁.devices = (s.devices.erase (s.device olddev).dev.name).insert dev.name
      s.nextDevice := by
    rw [hs₁]
    exact addLocked_devices uninit _ dev _
  have hn : s₁.device s.nextDevice =
      { dev := deviceDup dev (s.ensureProfile uninit dev.profile).2, refs := 1,
        retries := (s.device olddev).retries, ownprofile := false } := by
    have h := addLocked_device_new uninit (s.removeFromMap olddev) dev (s.device olddev).retries
    rw [he] at h
    rw [hs₁]
    exact h
  have ho : ∀ d, d ≠ s.nextDevice → s₁.device d = s.device d := by
    intro d hd
    rw [hs₁]
    exact addLocked_device_of_ne uninit (s.removeFromMap olddev) dev _ hd
  have hp : s₁.profile = (s.ensureProfile uninit dev.profile).1.profile := by
    rw [hs₁, addLocked_profile, he]
    rfl
  rw [readdLocked]
  dsimp only
  rw [← hs₁]
  split
  · refine ⟨?_, ?_, ?_, ?_⟩
    · rw [releaseProfileLocked_devices, ha]
    · rw [releaseProfileLocked_device, hn]
      simp [Ne.symm hold]
    · intro d hd hdo
      rw [releaseProfileLocked_device, ho d hd]
      simp [hdo]
    · rw [releaseProfileLocked_profile, hp]
  · exact ⟨ha, hn, fun d hd _ => ho d hd, hp⟩

/-- The loop over a list of devices writes to the devices of the list that point to
    `old`, and to nothing else. A device that occurs twice is met the second time
    with its new profile. -/
theorem foldl_repoint_device (old dp : ProfileRef) (ds : List DeviceRef) (s : Store)
    (d : DeviceRef) :
    (ds.foldl (repoint old dp) s).device d =
      if d ∈ ds ∧ (s.device d).dev.profile = old then
        { s.device d with dev := { (s.device d).dev with profile := dp } }
      else s.device d := by
  induction ds generalizing s with
  | nil => simp
  | cons e ds ih =>
    rw [List.foldl_cons, ih]
    by_cases he : d = e
    · subst he
      by_cases hp : (s.device d).dev.profile = old
      · simp [repoint, hp, modifyDevice, call]
      · simp [repoint, hp]
    · by_cases hp : (s.device e).dev.profile = old
      · simp [repoint, hp, modifyDevice, call, he]
      · simp [repoint, hp, he]

/-- The loop over a list of devices leaves everything but the devices alone. -/
theorem foldl_repoint_frame (old dp : ProfileRef) (ds : List DeviceRef) (s : Store) :
    let s' := ds.foldl (repoint old dp) s
    s'.devices = s.devices ∧ s'.profiles = s.profiles ∧ s'.profile = s.profile ∧
      s'.nextDevice = s.nextDevice ∧ s'.nextProfile = s.nextProfile := by
  induction ds generalizing s with
  | nil => exact ⟨rfl, rfl, rfl, rfl, rfl⟩
  | cons e ds ih =>
    have hr : (repoint old dp s e).devices = s.devices ∧
        (repoint old dp s e).profiles = s.profiles ∧
        (repoint old dp s e).profile = s.profile ∧
        (repoint old dp s e).nextDevice = s.nextDevice ∧
        (repoint old dp s e).nextProfile = s.nextProfile := by
      rw [repoint]
      split <;> exact ⟨rfl, rfl, rfl, rfl, rfl⟩
    obtain ⟨h₁, h₂, h₃, h₄, h₅⟩ := ih (repoint old dp s e)
    exact ⟨h₁.trans hr.1, h₂.trans hr.2.1, h₃.trans hr.2.2.1, h₄.trans hr.2.2.2.1,
      h₅.trans hr.2.2.2.2⟩

theorem repointAll_device (old dp : ProfileRef) (s : Store) (d : DeviceRef) :
    (s.repointAll old dp).device d =
      if s.Mapped d ∧ (s.device d).dev.profile = old then
        { s.device d with dev := { (s.device d).dev with profile := dp } }
      else s.device d := by
  have hm : d ∈ s.devices.values ↔ s.Mapped d := AList.mem_values
  rw [repointAll, foldl_repoint_device]
  simp only [hm]

/-- What `edgex_devmap_update_profile` leaves in the profile map. -/
theorem updateProfile_lookup (s : Store) (dp : DeviceProfile) (v : ℕ) (n : String) :
    (s.updateProfile dp v).profiles.lookup n =
      if n = dp.name then some s.nextProfile else s.profiles.lookup n := by
  rw [updateProfile]
  split
  · next old _ =>
    obtain ⟨-, h₂, -, -, h₅⟩ := foldl_repoint_frame old s.nextProfile s.devices.values s
    by_cases hn : n = dp.name
    · subst hn
      simp [insertProfile, freeProfile, eraseProfile, repointAll, h₅]
    · simp [insertProfile, freeProfile, eraseProfile, repointAll, h₂, hn,
        AList.lookup_insert_ne, AList.lookup_erase_ne]
  · by_cases hn : n = dp.name
    · subst hn
      simp [insertProfile]
    · simp [insertProfile, hn, AList.lookup_insert_ne]

/-- What `edgex_devmap_update_profile` does to a device: those in the map that
    point to the profile in the map are turned to the new one. -/
theorem updateProfile_device (s : Store) (dp : DeviceProfile) (v : ℕ) (d : DeviceRef) :
    (s.updateProfile dp v).device d =
      if s.Mapped d ∧ s.profiles.lookup dp.name = some (s.device d).dev.profile then
        { s.device d with dev := { (s.device d).dev with profile := s.nextProfile } }
      else s.device d := by
  rw [updateProfile]
  split
  · next old hold =>
    have h := repointAll_device old s.nextProfile s d
    simp only [insertProfile, freeProfile, eraseProfile, h, hold, Option.some.injEq, eq_comm]
  · next hnone => simp [insertProfile, hnone]

/-- `edgex_devmap_update_profile` leaves the device map alone. -/
theorem updateProfile_frame (s : Store) (dp : DeviceProfile) (v : ℕ) :
    (s.updateProfile dp v).devices = s.devices ∧
      (s.updateProfile dp v).nextDevice = s.nextDevice ∧
      (s.updateProfile dp v).nextProfile = s.nextProfile + 1 := by
  rw [updateProfile]
  split
  · next old _ =>
    obtain ⟨h₁, -, -, h₄, h₅⟩ := foldl_repoint_frame old s.nextProfile s.devices.values s
    exact ⟨h₁, h₄, congrArg (· + 1) h₅⟩
  · exact ⟨rfl, rfl, rfl⟩

end Store

end DeviceSdk
