import DeviceSdk.DevMap.Wf

/-!
# Devices and profiles stay linked

The devices in the device map reference the profiles in the profile map by pointer:
the profile that a device points to is the one that the profile map holds under its
name. `Linked` is this relation together with what keeps it: no profile in the map
has been freed, and a device that owns its profile has left the device map and taken
the profile from the profile map.

Each operation preserves `Linked`. The only one with a condition is
`edgex_devmap_add_profile`, which must not displace a profile that a device in the
map points to.
-/

namespace DeviceSdk

namespace Store

/-- Devices in the map share their profiles with the profile map. -/
structure Linked (s : Store) : Prop where
  wf : s.Wf
  linked : ∀ {d}, s.Mapped d →
    s.profiles.lookup (s.profileOf d).profile.name = some (s.device d).dev.profile
  unfreed : ∀ {n p}, s.profiles.lookup n = some p → (s.profile p).frees = 0
  own_lt : ∀ {d}, (s.device d).ownprofile = true → d < s.nextDevice
  own_unmapped : ∀ {d}, (s.device d).ownprofile = true → ¬ s.Mapped d
  own_notin : ∀ {d}, (s.device d).ownprofile = true →
    ∀ n, s.profiles.lookup n ≠ some (s.device d).dev.profile

theorem Linked.alloc : Store.alloc.Linked where
  wf := Wf.alloc
  linked := by rintro d ⟨n, hn⟩; simp [Store.alloc] at hn
  unfreed := by intro n p hn; simp [Store.alloc] at hn
  own_lt := by intro d hd; simp [Store.alloc, default] at hd
  own_unmapped := by intro d hd; simp [Store.alloc, default] at hd
  own_notin := by intro d hd; simp [Store.alloc, default] at hd

/-- A write to a device that changes neither its name, nor its profile, nor who owns
    the profile. -/
theorem Linked.modifyDevice {s : Store} (h : s.Linked) {d : DeviceRef}
    {f : DeviceObj → DeviceObj} (hn : (f (s.device d)).dev.name = (s.device d).dev.name)
    (hp : (f (s.device d)).dev.profile = (s.device d).dev.profile)
    (ho : (f (s.device d)).ownprofile = (s.device d).ownprofile) :
    (s.modifyDevice d f).Linked := by
  have hprof : ∀ e, ((s.modifyDevice d f).device e).dev.profile = (s.device e).dev.profile := by
    intro e
    by_cases he : e = d
    · subst he
      simpa [Store.modifyDevice] using hp
    · simp [Store.modifyDevice, he]
  have hown : ∀ e, ((s.modifyDevice d f).device e).ownprofile = (s.device e).ownprofile := by
    intro e
    by_cases he : e = d
    · subst he
      simpa [Store.modifyDevice] using ho
    · simp [Store.modifyDevice, he]
  constructor
  · exact h.wf.modifyDevice hn (fun hd => by rw [hp]; exact h.wf.points_lt hd)
  · intro e he
    rw [profileOf, hprof]
    exact h.linked he
  · exact fun hn => h.unfreed hn
  · intro e he
    rw [hown] at he
    exact h.own_lt he
  · intro e he
    rw [hown] at he
    exact h.own_unmapped he
  · intro e he
    rw [hown] at he
    rw [hprof]
    exact h.own_notin he

theorem Linked.call {s : Store} (h : s.Linked) (cs : List AutoeventCall) :
    (s.call cs).Linked :=
  ⟨h.wf.call cs, h.linked, h.unfreed, h.own_lt, h.own_unmapped, h.own_notin⟩

/-- Taking a device from the map. -/
theorem Linked.eraseDevice {s : Store} (h : s.Linked) (name : String) :
    (s.eraseDevice name).Linked := by
  have hm : ∀ {d}, (s.eraseDevice name).Mapped d → s.Mapped d := by
    rintro d ⟨n, hn⟩
    exact ⟨n, (AList.lookup_erase_eq_some.mp hn).2⟩
  exact ⟨h.wf.eraseDevice name, fun hd => h.linked (hm hd), h.unfreed, h.own_lt,
    fun hd hc => h.own_unmapped hd (hm hc), h.own_notin⟩

/-- Where `add_locked` gets its profile from: from the map, or it is the placeholder
    of the new device. -/
theorem ensureProfile_lookup_cases (uninit : FreshMemory) (s : Store) (dp : DeviceProfile)
    {n : String} {p : ProfileRef}
    (hn : (s.ensureProfile uninit dp).1.profiles.lookup n = some p) :
    s.profiles.lookup n = some p ∨
      (n = dp.name ∧ p = s.nextProfile ∧ s.profiles.lookup dp.name = none ∧
        (s.ensureProfile uninit dp).1.profile p = { profile := deviceprofileDup uninit dp }) := by
  cases hdp : s.profiles.lookup dp.name with
  | some pp =>
    simp only [ensureProfile, hdp] at hn
    exact Or.inl hn
  | none =>
    simp only [ensureProfile, hdp] at hn
    rcases AList.lookup_insert_eq_some.mp hn with ⟨hname, rfl⟩ | ⟨-, hold⟩
    · exact Or.inr ⟨hname, rfl, rfl, by simp [ensureProfile, hdp, insertProfile]⟩
    · exact Or.inl hold

theorem Linked.addLocked {s : Store} (h : s.Linked) (uninit : FreshMemory)
    (newdev : Device DeviceProfile) (retries : BitVec 32) :
    (s.addLocked uninit newdev retries).Linked where
  wf := h.wf.addLocked uninit newdev retries
  linked := by
    intro d hd
    by_cases he : d = s.nextDevice
    · subst he
      have hname := (h.wf.ensureProfile uninit newdev.profile).profile_name
        (ensureProfile_lookup uninit s newdev.profile)
      rw [profileOf, addLocked_device_new, addLocked_profile, addLocked_profiles]
      change AList.lookup ((s.ensureProfile uninit newdev.profile).1.profile
        (s.ensureProfile uninit newdev.profile).2).profile.name _ = _
      rw [hname]
      exact ensureProfile_lookup uninit s newdev.profile
    · have hold : s.Mapped d := (mapped_of_addLocked hd).resolve_left he
      have hlt : d < s.nextDevice := h.wf.device_lt (h.wf.lookup_of_mapped hold)
      rw [h.wf.profileOf_addLocked_old uninit newdev retries hlt,
        addLocked_device_of_ne uninit s newdev retries he]
      exact ensureProfile_lookup_of_some uninit s newdev.profile (h.linked hold)
  unfreed := by
    intro n p hn
    obtain ⟨-, -, -, -, hframe⟩ := ensureProfile_frame uninit s newdev.profile
    rw [addLocked_profile]
    rcases ensureProfile_lookup_cases uninit s newdev.profile hn with hn | ⟨-, -, -, hobj⟩
    · rw [hframe p (h.wf.profile_lt hn).ne]
      exact h.unfreed hn
    · rw [hobj]
  own_lt := by
    intro d hd
    rw [(addLocked_device_of_own hd).2] at hd
    rw [addLocked_nextDevice]
    exact (h.own_lt hd).trans (Nat.lt_succ_self _)
  own_unmapped := by
    intro d hd hm
    obtain ⟨hne, hsame⟩ := addLocked_device_of_own hd
    rw [hsame] at hd
    exact h.own_unmapped hd ((mapped_of_addLocked hm).resolve_left hne)
  own_notin := by
    intro d hd n hn
    obtain ⟨-, hsame⟩ := addLocked_device_of_own hd
    rw [hsame] at hd hn
    rcases ensureProfile_lookup_cases uninit s newdev.profile hn with hn | ⟨-, hp, -⟩
    · exact h.own_notin hd n hn
    · exact (h.wf.points_lt (h.own_lt hd)).ne hp

/-- Dropping the profile of a device that has left the map. -/
theorem Linked.releaseProfileLocked {s : Store} (h : s.Linked) {olddev : DeviceRef}
    (hun : ¬ s.Mapped olddev) (hlt : olddev < s.nextDevice)
    (hlink : s.profiles.lookup (s.profileOf olddev).profile.name =
      some (s.device olddev).dev.profile) :
    (s.releaseProfileLocked olddev).Linked := by
  have hdev : ∀ d, ((s.releaseProfileLocked olddev).device d).dev = (s.device d).dev := by
    intro d
    rw [releaseProfileLocked_device]
  have hmap : ∀ d, (s.releaseProfileLocked olddev).Mapped d ↔ s.Mapped d := by
    intro d
    simp [Mapped]
  have hown : ∀ {d}, ((s.releaseProfileLocked olddev).device d).ownprofile = true →
      (s.device d).ownprofile = true ∨ (d = olddev ∧ s.lastUser olddev = true) := by
    intro d hd
    rw [releaseProfileLocked_device] at hd
    simpa using hd
  constructor
  · exact h.wf.releaseProfileLocked olddev
  · intro d hd
    rw [hmap] at hd
    rw [profileOf, hdev, releaseProfileLocked_profile, releaseProfileLocked_lookup]
    refine ⟨h.linked hd, fun hlast hname => ?_⟩
    -- a device of that profile name would be a further user
    have hl := h.linked hd
    rw [profileOf, hname, hlink] at hl
    exact (lastUser_iff s olddev).mp hlast d hd (Option.some.inj hl).symm
  · intro n p hn
    rw [releaseProfileLocked_profile]
    exact h.unfreed ((releaseProfileLocked_lookup s olddev n p).mp hn).1
  · intro d hd
    rw [(releaseProfileLocked_next s olddev).1]
    rcases hown hd with ho | ⟨rfl, -⟩
    · exact h.own_lt ho
    · exact hlt
  · intro d hd hm
    rw [hmap] at hm
    rcases hown hd with ho | ⟨rfl, -⟩
    · exact h.own_unmapped ho hm
    · exact hun hm
  · intro d hd n hn
    rw [hdev] at hn
    obtain ⟨hold, hne⟩ := (releaseProfileLocked_lookup s olddev n _).mp hn
    rcases hown hd with ho | ⟨heq, hlast⟩
    · exact h.own_notin ho n hold
    · rw [heq] at hold
      exact hne hlast (h.wf.profile_name hold).symm

/-- `edgex_device_release` frees no profile of the map: an owned profile is not in it. -/
theorem Linked.deviceRelease {s : Store} (h : s.Linked) (d : DeviceRef) :
    (s.deviceRelease d).Linked := by
  have hdev : ∀ e, ((s.deviceRelease d).device e).dev = (s.device e).dev := by
    intro e
    rw [deviceRelease_device]
  have hown : ∀ e, ((s.deviceRelease d).device e).ownprofile = (s.device e).ownprofile := by
    intro e
    rw [deviceRelease_device]
  have hprof : ∀ p, ((s.deviceRelease d).profile p).profile = (s.profile p).profile := by
    intro p
    rw [deviceRelease_profile]
  have hmap : ∀ e, (s.deviceRelease d).Mapped e ↔ s.Mapped e := by
    intro e
    simp [Mapped]
  constructor
  · exact h.wf.deviceRelease d
  · intro e he
    rw [profileOf, hdev, hprof, deviceRelease_profiles]
    exact h.linked ((hmap e).mp he)
  · intro n p hn
    rw [deviceRelease_profiles] at hn
    rw [deviceRelease_profile, h.unfreed hn]
    split
    · next hfree => exact absurd (hfree.2.2 ▸ hn) (h.own_notin hfree.2.1 n)
    · rfl
  · intro e he
    rw [hown] at he
    rw [(deviceRelease_next s d).1]
    exact h.own_lt he
  · intro e he hm
    rw [hown] at he
    exact h.own_unmapped he ((hmap e).mp hm)
  · intro e he n
    rw [hown] at he
    rw [hdev, deviceRelease_profiles]
    exact h.own_notin he n

theorem Linked.releaseOption {s : Store} (h : s.Linked) (d : Option DeviceRef) :
    (s.releaseOption d).Linked := by
  cases d with
  | none => exact h
  | some d => exact h.deviceRelease d

theorem Linked.deviceByname {s : Store} (h : s.Linked) (name : String) :
    (s.deviceByname name).1.Linked := by
  rw [Store.deviceByname]
  split
  · dsimp only
    exact h.modifyDevice rfl rfl rfl
  · exact h

/-- A device is found in the map under one name only, so taking it out under its own
    name takes it out. -/
theorem Linked.not_mapped_removeFromMap {s : Store} (h : s.Linked) (olddev : DeviceRef) :
    ¬ (s.removeFromMap olddev).Mapped olddev := by
  rintro ⟨n, hn⟩
  obtain ⟨hne, hn⟩ := AList.lookup_erase_eq_some.mp hn
  exact hne (h.wf.device_name hn).symm

theorem Linked.removeLocked {s : Store} (h : s.Linked) (name : String) :
    (s.removeLocked name).1.Linked := by
  rw [Store.removeLocked]
  split
  · next olddev hold =>
    have hr : (s.removeFromMap olddev).Linked := h.eraseDevice _
    exact hr.releaseProfileLocked (h.not_mapped_removeFromMap olddev) (h.wf.device_lt hold)
      (h.linked ⟨name, hold⟩)
  · exact h

/-- Adding a device leaves an older device as it was, and its profile in the map. -/
theorem Linked.addLocked_old {s : Store} (h : s.Linked) (uninit : FreshMemory)
    (newdev : Device DeviceProfile) (retries : BitVec 32) {d : DeviceRef}
    (hd : d < s.nextDevice)
    (hlink : s.profiles.lookup (s.profileOf d).profile.name = some (s.device d).dev.profile) :
    let s' := s.addLocked uninit newdev retries
    (s'.Mapped d → s.Mapped d) ∧ s'.device d = s.device d ∧ s'.profileOf d = s.profileOf d ∧
      s'.profiles.lookup (s.profileOf d).profile.name = some (s.device d).dev.profile := by
  refine ⟨?_, ?_, ?_, ensureProfile_lookup_of_some uninit s newdev.profile hlink⟩
  · exact fun hm => (mapped_of_addLocked hm).resolve_left hd.ne
  · exact addLocked_device_of_ne uninit s newdev retries hd.ne
  · exact h.wf.profileOf_addLocked_old uninit newdev retries hd

theorem Linked.readdLocked {s : Store} (h : s.Linked) (uninit : FreshMemory)
    {olddev : DeviceRef} (hold : s.Mapped olddev) (dev : Device DeviceProfile) :
    (s.readdLocked uninit olddev dev).Linked := by
  have hlt : olddev < s.nextDevice := h.wf.device_lt (h.wf.lookup_of_mapped hold)
  have hr : (s.removeFromMap olddev).Linked := h.eraseDevice _
  have ha := hr.addLocked uninit dev (s.device olddev).retries
  obtain ⟨hm, hdev, hprof, hlink⟩ :=
    hr.addLocked_old uninit dev (s.device olddev).retries hlt (h.linked hold)
  unfold Store.readdLocked
  dsimp only
  split
  · refine ha.releaseProfileLocked (fun hc => h.not_mapped_removeFromMap olddev (hm hc)) ?_ ?_
    · rw [addLocked_nextDevice]
      exact hlt.trans (Nat.lt_succ_self _)
    · rw [hprof, hdev]
      exact hlink
  · exact ha

theorem Linked.modifyDevice_updateAt {s : Store} (h : s.Linked) (olddev : DeviceRef)
    (dev : Device DeviceProfile) :
    (s.modifyDevice olddev fun obj =>
      { obj with dev := (s.updateAt olddev dev).2.1 }).Linked := by
  have hu := updateInPlace_name_profile (s.profileOf olddev).profile.name
    (s.device olddev).dev dev .updatedSdk
  exact h.modifyDevice hu.1 hu.2 rfl

theorem Linked.replaceLocked {s : Store} (h : s.Linked) (uninit : FreshMemory)
    (cfg : DeviceInfo) (dev : Device DeviceProfile) :
    (s.replaceLocked uninit cfg dev).1.Linked := by
  rcases replaceLocked_cases uninit cfg s dev with
    ⟨_, he⟩ | ⟨olddev, _, _, he⟩ | ⟨olddev, hold, _, he⟩
  · rw [he]
    exact h.addLocked uninit dev _
  · rw [he]
    exact h.modifyDevice_updateAt olddev dev
  · rw [he]
    exact (h.modifyDevice_updateAt olddev dev).readdLocked uninit ⟨_, hold⟩ dev

theorem Linked.replaceDevice {s : Store} (h : s.Linked) (uninit : FreshMemory)
    (cfg : DeviceInfo) (dev : Device DeviceProfile) :
    (s.replaceDevice uninit cfg dev).1.Linked :=
  (h.replaceLocked uninit cfg dev).releaseOption _

theorem Linked.removedeviceByname {s : Store} (h : s.Linked) (name : String) :
    (s.removedeviceByname name).1.Linked :=
  (h.removeLocked name).releaseOption _

theorem Linked.populateDevice {s : Store} (h : s.Linked) (uninit : FreshMemory)
    (cfg : DeviceInfo) (d : Device DeviceProfile) : (s.populateDevice uninit cfg d).Linked := by
  rw [Store.populateDevice]
  split
  · exact h.addLocked uninit d _
  · exact h

theorem Linked.populateDevices {s : Store} (h : s.Linked) (uninit : FreshMemory)
    (cfg : DeviceInfo) (devs : List (Device DeviceProfile)) :
    (s.populateDevices uninit cfg devs).Linked := by
  induction devs generalizing s with
  | nil => exact h
  | cons d devs ih => exact ih (h.populateDevice uninit cfg d)

-- ════════════════════════════════════════════════════════════════════════
-- Profiles
-- ════════════════════════════════════════════════════════════════════════

/-- `edgex_devmap_add_profile` overwrites what the profile map has under the name, and
    turns no device. -/
theorem Linked.addProfile {s : Store} (h : s.Linked) (dp : DeviceProfile) (v : ℕ)
    (hun : ∀ d, s.Mapped d → (s.profileOf d).profile.name ≠ dp.name) :
    (s.addProfile dp v).Linked := by
  have hobj : ∀ p, p < s.nextProfile → (s.addProfile dp v).profile p = s.profile p := by
    intro p hp
    simp [Store.addProfile, insertProfile, (show p ≠ s.nextProfile from hp.ne)]
  constructor
  · exact h.wf.addProfile dp v
  · intro d hd
    have hlt := h.wf.points_lt (h.wf.device_lt (h.wf.lookup_of_mapped hd))
    have hname : ((s.addProfile dp v).profileOf d) = s.profileOf d := hobj _ hlt
    rw [hname]
    exact AList.lookup_insert_eq_some.mpr (Or.inr ⟨hun d hd, h.linked hd⟩)
  · intro n p hn
    rcases AList.lookup_insert_eq_some.mp hn with ⟨-, rfl⟩ | ⟨-, hn⟩
    · simp [Store.addProfile, insertProfile]
    · rw [hobj p (h.wf.profile_lt hn)]
      exact h.unfreed hn
  · exact h.own_lt
  · exact h.own_unmapped
  · intro d hd n hn
    rcases AList.lookup_insert_eq_some.mp hn with ⟨-, hp⟩ | ⟨-, hn⟩
    · exact (h.wf.points_lt (h.own_lt hd)).ne hp
    · exact h.own_notin hd n hn

/-- A device in the map has the profile of a name exactly when it points to what the
    profile map has there. -/
theorem Linked.profile_name_iff {s : Store} (h : s.Linked) {d : DeviceRef} (hd : s.Mapped d)
    (n : String) :
    (s.profileOf d).profile.name = n ↔ s.profiles.lookup n = some (s.device d).dev.profile := by
  constructor
  · rintro rfl
    exact h.linked hd
  · exact fun hn => h.wf.profile_name hn

/-- The update of a profile does not touch a device that owns its profile. -/
theorem Linked.updateProfile_device_of_own {s : Store} (h : s.Linked) {dp : DeviceProfile} {v : ℕ}
    {d : DeviceRef} (hd : ((s.updateProfile dp v).device d).ownprofile = true) :
    (s.updateProfile dp v).device d = s.device d := by
  have ho : (s.device d).ownprofile = true := by
    rw [updateProfile_device] at hd
    split at hd <;> exact hd
  rw [updateProfile_device, if_neg]
  exact fun hc => h.own_unmapped ho hc.1

theorem Linked.updateProfile {s : Store} (h : s.Linked) (dp : DeviceProfile) (v : ℕ) :
    (s.updateProfile dp v).Linked := by
  obtain ⟨hdevs, hnd, -⟩ := updateProfile_frame s dp v
  have hmap : ∀ d, (s.updateProfile dp v).Mapped d ↔ s.Mapped d := by
    intro d
    simp [Mapped, hdevs]
  constructor
  · exact h.wf.updateProfile dp v
  · intro d hd
    rw [hmap] at hd
    have hdev := updateProfile_device s dp v d
    by_cases hl : s.profiles.lookup dp.name = some (s.device d).dev.profile
    · rw [if_pos ⟨hd, hl⟩] at hdev
      rw [profileOf, updateProfile_lookup, hdev]
      simp [h.wf.updateProfile_profile]
    · -- a device of another profile keeps it, and no other entry of the map changes
      rw [if_neg (fun hc => hl hc.2)] at hdev
      have hne : (s.profileOf d).profile.name ≠ dp.name :=
        fun hc => hl ((h.profile_name_iff hd _).mp hc)
      have hlt := h.wf.points_lt (h.wf.device_lt (h.wf.lookup_of_mapped hd))
      have hobj : (s.updateProfile dp v).profileOf d = s.profileOf d := by
        rw [profileOf, hdev, h.wf.updateProfile_profile, if_neg hlt.ne, if_neg hl]
        rfl
      rw [hobj, updateProfile_lookup, hdev, if_neg hne]
      exact h.linked hd
  · intro n p hn
    rw [updateProfile_lookup] at hn
    rw [h.wf.updateProfile_profile]
    by_cases hname : n = dp.name
    · rw [if_pos hname] at hn
      rw [if_pos (Option.some.inj hn).symm]
    · rw [if_neg hname] at hn
      have hne : s.profiles.lookup dp.name ≠ some p :=
        fun hc => hname ((h.wf.profile_name hn).symm.trans (h.wf.profile_name hc))
      rw [if_neg (h.wf.profile_lt hn).ne, if_neg hne]
      exact h.unfreed hn
  · intro d hd
    rw [h.updateProfile_device_of_own hd] at hd
    rw [hnd]
    exact h.own_lt hd
  · intro d hd hm
    rw [h.updateProfile_device_of_own hd] at hd
    exact h.own_unmapped hd ((hmap d).mp hm)
  · intro d hd n hn
    have hsame := h.updateProfile_device_of_own hd
    rw [hsame] at hd
    rw [hsame, updateProfile_lookup] at hn
    split at hn
    · exact (h.wf.points_lt (h.own_lt hd)).ne (Option.some.inj hn).symm
    · exact h.own_notin hd n hn

end Store

end DeviceSdk
