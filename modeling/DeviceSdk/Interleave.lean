import DeviceSdk.Callback

/-!
# Profiles under interleaved operations

Start-up, callbacks and profile retrieval run in threads of their own. Each looks a
profile up, fetches it, adds it and adds a device in separate critical sections, so a
device can be added when its profile is not in the profile map, or when another
thread has put an older revision there.

A device in the map is up to date when its profile is one that core-metadata sent, and
not an older revision than the last profile update brought. A schedule keeps all
devices up to date exactly when each call that adds a device finds a profile that is
up to date in the profile map, and each profile update reaches the devices it is for.

## Main definitions

- `World` — the device map, with the revisions that profile updates brought
- `Store.UpToDate` — no device in the map has a placeholder or an outdated profile
- `DevMapCall.Safe` — the condition on a call

## Main results

- `schedule_upToDate_iff` — which schedules keep every device up to date
-/

namespace DeviceSdk

/-- The device map and, for each profile name, the revision that the last completed
    `edgex_devmap_update_profile` brought. -/
structure World where
  store : Store
  updated : String → Option ℕ := fun _ => none

/-- The revision of a profile is known, and not older than the last update. -/
def ProfileObj.Fresh (updated : String → Option ℕ) (obj : ProfileObj) : Prop :=
  ∃ v, obj.version = some v ∧ ∀ u, updated obj.profile.name = some u → u ≤ v

namespace Store

variable (updated : String → Option ℕ)

/-- Every device in the map has a profile from core-metadata that is not outdated. -/
def UpToDate (s : Store) : Prop :=
  ∀ n d, s.devices.lookup n = some d → (s.profileOf d).Fresh updated

/-- The profile map has a fresh profile of the name. -/
def HasFresh (s : Store) (name : String) : Prop :=
  ∃ p, s.profiles.lookup name = some p ∧ (s.profile p).Fresh updated

variable {updated}

/-- A placeholder is never fresh, so what `add_locked` gives to a device is fresh only
    if it was in the profile map. -/
theorem ensureProfile_fresh_iff (uninit : FreshMemory) (s : Store) (dp : DeviceProfile) :
    ((s.ensureProfile uninit dp).1.profile (s.ensureProfile uninit dp).2).Fresh updated ↔
      s.HasFresh updated dp.name := by
  cases hl : s.profiles.lookup dp.name with
  | some pp => simp [ensureProfile, HasFresh, hl]
  | none => simp [ensureProfile, HasFresh, hl, insertProfile, ProfileObj.Fresh]

theorem profileOf_addLocked_new (uninit : FreshMemory) (s : Store)
    (newdev : Device DeviceProfile) (retries : BitVec 32) :
    (s.addLocked uninit newdev retries).profileOf s.nextDevice =
      (s.ensureProfile uninit newdev.profile).1.profile
        (s.ensureProfile uninit newdev.profile).2 := by
  rw [profileOf, addLocked_device_new]
  rfl

/-- Adding a device, where the devices that stay are up to date. -/
theorem Wf.addLocked_upToDate_iff {s : Store} (h : s.Wf) (uninit : FreshMemory)
    (newdev : Device DeviceProfile) (retries : BitVec 32)
    (hstay : ∀ n d, n ≠ newdev.name → s.devices.lookup n = some d →
      (s.profileOf d).Fresh updated) :
    (s.addLocked uninit newdev retries).UpToDate updated ↔
      s.HasFresh updated newdev.profile.name := by
  constructor
  · intro hup
    have hnew := hup newdev.name s.nextDevice (by simp)
    rw [profileOf_addLocked_new] at hnew
    exact (ensureProfile_fresh_iff uninit s newdev.profile).mp hnew
  · intro hf n d hn
    rw [addLocked_devices] at hn
    rcases AList.lookup_insert_eq_some.mp hn with ⟨-, rfl⟩ | ⟨hne, hn⟩
    · rw [profileOf_addLocked_new]
      exact (ensureProfile_fresh_iff uninit s newdev.profile).mpr hf
    · rw [h.profileOf_addLocked_old uninit newdev retries (h.device_lt hn)]
      exact hstay n d hne hn

/-- What does not touch the device map, the profile of a device or the revision of a
    profile keeps devices up to date. -/
theorem upToDate_congr {s s' : Store} (hdevs : s'.devices = s.devices)
    (hobj : ∀ d, (s'.profileOf d).version = (s.profileOf d).version ∧
      (s'.profileOf d).profile = (s.profileOf d).profile) :
    s'.UpToDate updated ↔ s.UpToDate updated := by
  simp only [UpToDate, ProfileObj.Fresh, hdevs, (hobj _).1, (hobj _).2]

theorem releaseProfileLocked_upToDate_iff (s : Store) (olddev : DeviceRef) :
    (s.releaseProfileLocked olddev).UpToDate updated ↔ s.UpToDate updated := by
  refine upToDate_congr (releaseProfileLocked_devices s olddev) fun d => ?_
  rw [profileOf, releaseProfileLocked_device, releaseProfileLocked_profile]
  exact ⟨rfl, rfl⟩

theorem deviceRelease_upToDate_iff (s : Store) (d : DeviceRef) :
    (s.deviceRelease d).UpToDate updated ↔ s.UpToDate updated := by
  refine upToDate_congr (deviceRelease_devices s d) fun e => ?_
  rw [profileOf, deviceRelease_device, deviceRelease_profile]
  exact ⟨rfl, rfl⟩

theorem modifyDevice_upToDate_iff (s : Store) (d : DeviceRef) (f : DeviceObj → DeviceObj)
    (hp : (f (s.device d)).dev.profile = (s.device d).dev.profile) :
    (s.modifyDevice d f).UpToDate updated ↔ s.UpToDate updated := by
  refine upToDate_congr rfl fun e => ?_
  have hprof : ((s.modifyDevice d f).device e).dev.profile = (s.device e).dev.profile := by
    by_cases he : e = d
    · subst he
      simpa [modifyDevice] using hp
    · simp [modifyDevice, he]
  rw [profileOf, hprof]
  exact ⟨rfl, rfl⟩

theorem UpToDate.eraseDevice {s : Store} (h : s.UpToDate updated) (name : String) :
    (s.eraseDevice name).UpToDate updated :=
  fun n d hn => h n d (AList.lookup_erase_eq_some.mp hn).2

theorem Wf.readdLocked_upToDate_iff {s : Store} (h : s.Wf) (hup : s.UpToDate updated)
    (uninit : FreshMemory) {olddev : DeviceRef} (dev : Device DeviceProfile) :
    (s.readdLocked uninit olddev dev).UpToDate updated ↔ s.HasFresh updated dev.profile.name := by
  have hr : (s.removeFromMap olddev).UpToDate updated := hup.eraseDevice _
  have ha := (h.removeFromMap olddev).addLocked_upToDate_iff uninit dev (s.device olddev).retries
    fun n d _ hn => hr n d hn
  rw [Store.readdLocked]
  split
  · rw [releaseProfileLocked_upToDate_iff]
    exact ha
  · exact ha

theorem Wf.replaceLocked_upToDate_iff {s : Store} (h : s.Wf) (hup : s.UpToDate updated)
    (uninit : FreshMemory) (cfg : DeviceInfo) (dev : Device DeviceProfile) :
    (s.replaceLocked uninit cfg dev).1.UpToDate updated ↔
      ((∀ olddev, s.devices.lookup dev.name = some olddev → (s.updateAt olddev dev).1 = false) →
        s.HasFresh updated dev.profile.name) := by
  have hin : ∀ olddev, (s.modifyDevice olddev fun obj =>
      { obj with dev := (s.updateAt olddev dev).2.1 }).UpToDate updated ↔ s.UpToDate updated :=
    fun olddev => modifyDevice_upToDate_iff s olddev _
      (updateInPlace_name_profile _ (s.device olddev).dev dev .updatedSdk).2
  rcases replaceLocked_cases uninit cfg s dev with
    ⟨hnone, he⟩ | ⟨olddev, hold, hu, he⟩ | ⟨olddev, hold, hu, he⟩
  · rw [he, h.addLocked_upToDate_iff uninit dev _ fun n d _ hn => hup n d hn]
    simp [hnone]
  · rw [he, hin]
    simp [hold, hu, hup]
  · rw [he, (h.modifyDevice_updateAt olddev dev).readdLocked_upToDate_iff ((hin olddev).mpr hup)]
    simp only [hold, Option.some.injEq, forall_eq', hu, forall_const]
    exact Iff.rfl

/-- Each turn of the loop in `edgex_devmap_populate_devices` that adds a device finds
    its profile fresh in the profile map. -/
def PopulateSafe (updated : String → Option ℕ) (uninit : FreshMemory) (cfg : DeviceInfo) :
    Store → List (Device DeviceProfile) → Prop
  | _, [] => True
  | s, d :: devs =>
    (s.devices.lookup d.name = none → s.HasFresh updated d.profile.name) ∧
      PopulateSafe updated uninit cfg (s.populateDevice uninit cfg d) devs

/-- The loop takes no device from the map and turns none. -/
theorem Wf.populateDevices_upToDate {s : Store} (h : s.Wf) (uninit : FreshMemory)
    (cfg : DeviceInfo) (devs : List (Device DeviceProfile))
    (hup : (s.populateDevices uninit cfg devs).UpToDate updated) : s.UpToDate updated := by
  induction devs generalizing s with
  | nil => exact hup
  | cons e devs ih =>
    have he := ih (h.populateDevice uninit cfg e) hup
    intro n d hn
    rw [Store.populateDevice] at he
    split at he
    · next hnone =>
      have hne : n ≠ e.name := by
        rintro rfl
        rw [hnone] at hn
        cases hn
      rw [← h.profileOf_addLocked_old uninit e cfg.allowedFails (h.device_lt hn)]
      refine he n d ?_
      rw [addLocked_devices]
      exact AList.lookup_insert_eq_some.mpr (Or.inr ⟨hne, hn⟩)
    · exact he n d hn

theorem Wf.populateDevices_upToDate_iff {s : Store} (h : s.Wf) (hup : s.UpToDate updated)
    (uninit : FreshMemory) (cfg : DeviceInfo) (devs : List (Device DeviceProfile)) :
    (s.populateDevices uninit cfg devs).UpToDate updated ↔
      PopulateSafe updated uninit cfg s devs := by
  induction devs generalizing s with
  | nil => exact ⟨fun _ => trivial, fun _ => hup⟩
  | cons d devs ih =>
    have hd := h.populateDevice uninit cfg d
    have hturn : (s.populateDevice uninit cfg d).UpToDate updated ↔
        (s.devices.lookup d.name = none → s.HasFresh updated d.profile.name) := by
      rw [Store.populateDevice]
      split
      · next hnone =>
        rw [h.addLocked_upToDate_iff uninit d _ fun n e _ hn => hup n e hn]
        simp [hnone]
      · next hsome => simp [hsome, hup]
    constructor
    · intro hall
      have hup' := hd.populateDevices_upToDate uninit cfg devs hall
      exact ⟨hturn.mp hup', (ih hd hup').mp hall⟩
    · rintro ⟨hfirst, hrest⟩
      exact (ih hd (hturn.mpr hfirst)).mpr hrest

/-- A profile update leaves a device outdated only if the device uses a profile of
    that name other than the one in the profile map. -/
theorem Wf.updateProfile_upToDate_iff {s : Store} (h : s.Wf) (hup : s.UpToDate updated)
    (dp : DeviceProfile) (v : ℕ) :
    (s.updateProfile dp v).UpToDate (Function.update updated dp.name (some v)) ↔
      ∀ n d, s.devices.lookup n = some d → (s.profileOf d).profile.name = dp.name →
        s.profiles.lookup dp.name ≠ some (s.device d).dev.profile →
        ∃ u, (s.profileOf d).version = some u ∧ v ≤ u := by
  obtain ⟨hdevs, -, -⟩ := updateProfile_frame s dp v
  rw [UpToDate, hdevs]
  refine forall_congr' fun n => forall_congr' fun d => forall_congr' fun hn => ?_
  have hlt := h.points_lt (h.device_lt hn)
  have hdev := updateProfile_device s dp v d
  by_cases hl : s.profiles.lookup dp.name = some (s.device d).dev.profile
  · -- the device is turned to the new revision
    rw [if_pos ⟨⟨n, hn⟩, hl⟩] at hdev
    have hobj : (s.updateProfile dp v).profileOf d = { profile := dp, version := some v } := by
      rw [profileOf, hdev, h.updateProfile_profile, if_pos rfl]
    simp [hobj, hl, ProfileObj.Fresh]
  · -- the device keeps its profile, and the update may be newer
    rw [if_neg fun hc => hl hc.2] at hdev
    have hobj : (s.updateProfile dp v).profileOf d = s.profileOf d := by
      rw [profileOf, hdev, h.updateProfile_profile, if_neg hlt.ne, if_neg hl]
      rfl
    rw [hobj]
    by_cases hname : (s.profileOf d).profile.name = dp.name
    · simp [ProfileObj.Fresh, hname, hl]
    · have hf := hup n d hn
      simpa [ProfileObj.Fresh, hname, hl, Function.update_of_ne] using hf

end Store

namespace DevMapCall

/-- What a call adds to the record of updates. -/
def recordUpdate : DevMapCall → (String → Option ℕ) → String → Option ℕ
  | updateProfile dp v, updated => Function.update updated dp.name (some v)
  | _, updated => updated

/-- The effect of a call on the device map and the record of updates. -/
def performIn (svc : Service) (a : DevMapCall) (w : World) : World × a.Reply :=
  ({ store := (perform svc a w.store).1, updated := a.recordUpdate w.updated },
    (perform svc a w.store).2)

/-- The condition on a call: where it adds a device, the profile map has a fresh
    profile for it; where it updates a profile, each device that uses a profile of that
    name points to the one in the profile map, or has a revision as new. -/
def Safe (svc : Service) (a : DevMapCall) (w : World) : Prop :=
  match a with
  | replace dev =>
    (∀ olddev, w.store.devices.lookup dev.name = some olddev →
      (w.store.updateAt olddev dev).1 = false) → w.store.HasFresh w.updated dev.profile.name
  | populate devs => w.store.PopulateSafe w.updated svc.uninit svc.device devs
  | updateProfile dp v =>
    ∀ n d, w.store.devices.lookup n = some d → (w.store.profileOf d).profile.name = dp.name →
      w.store.profiles.lookup dp.name ≠ some (w.store.device d).dev.profile →
      ∃ u, (w.store.profileOf d).version = some u ∧ v ≤ u
  | _ => True

theorem performIn_wf (svc : Service) (a : DevMapCall) (w : World) (h : w.store.Wf) :
    (performIn svc a w).1.store.Wf := by
  cases a with
  | profile name => exact h
  | addProfile dp v => exact h.addProfile dp v
  | updateProfile dp v => exact h.updateProfile dp v
  | populate devs => exact h.populateDevices svc.uninit svc.device devs
  | replace dev => exact h.replaceLocked svc.uninit svc.device dev
  | remove name => exact h.removeLocked name
  | byname name => exact h.deviceByname name
  | release d => exact h.deviceRelease d
  | restart d => exact h.call _
  | notify n => exact h

theorem performIn_upToDate_iff (svc : Service) (a : DevMapCall) (w : World)
    (h : w.store.Wf) (hup : w.store.UpToDate w.updated) :
    (performIn svc a w).1.store.UpToDate (performIn svc a w).1.updated ↔ Safe svc a w := by
  cases a with
  | profile name => exact iff_of_true hup trivial
  | addProfile dp v =>
    -- no device is turned to the profile that is added
    refine iff_of_true (fun n d hn => ?_) trivial
    have hlt := h.points_lt (h.device_lt hn)
    have hobj : (w.store.addProfile dp v).profileOf d = w.store.profileOf d := by
      simp [Store.addProfile, Store.insertProfile, Store.profileOf, Function.update_of_ne hlt.ne]
    exact hobj ▸ hup n d hn
  | updateProfile dp v => exact h.updateProfile_upToDate_iff hup dp v
  | populate devs => exact h.populateDevices_upToDate_iff hup svc.uninit svc.device devs
  | replace dev => exact h.replaceLocked_upToDate_iff hup svc.uninit svc.device dev
  | remove name =>
    refine iff_of_true ?_ trivial
    show (w.store.removeLocked name).1.UpToDate w.updated
    rw [Store.removeLocked]
    split
    · rw [Store.releaseProfileLocked_upToDate_iff]
      exact hup.eraseDevice _
    · exact hup
  | byname name =>
    refine iff_of_true ?_ trivial
    show (w.store.deviceByname name).1.UpToDate w.updated
    rw [Store.deviceByname]
    split
    · exact (Store.modifyDevice_upToDate_iff _ _ _ rfl).mpr hup
    · exact hup
  | release d => exact iff_of_true ((Store.deviceRelease_upToDate_iff _ d).mpr hup) trivial
  | restart d => exact iff_of_true hup trivial
  | notify n => exact iff_of_true hup trivial

end DevMapCall

/-- What runs in a thread of its own. -/
inductive Task
  | start (devs : List Configured)
  | operation (op : Operation)

/-- The program of a thread. -/
def Task.prog (svc : Service) : Task → DevMapM Unit
  | start devs => startConfigured devs
  | operation op => op.prog svc

/-- An empty device map, and the threads that are to work on it. -/
def startPool (svc : Service) (tasks : List Task) :
    Pool DevMapCall DevMapCall.Reply Unit World :=
  { threads := tasks.map (Task.prog svc), state := { store := Store.alloc } }

/-- Whatever threads share a device map, whatever core-metadata answers each of them,
    and in whatever order they take their turns: every device in the map is up to date
    in every state exactly when each call on the way met its condition. -/
theorem schedule_upToDate_iff (svc : Service) (tasks : List Task) (sched : List ℕ) :
    Run.Always (Pool.step (DevMapCall.performIn svc))
        (fun c => c.state.store.UpToDate c.state.updated) (startPool svc tasks) sched ↔
      Run.Meets (Pool.step (DevMapCall.performIn svc))
        (fun c i => ∀ a, c.next? i = some a → a.Safe svc c.state) (startPool svc tasks) sched := by
  refine Pool.always_iff_meets (I := fun w : World => w.store.Wf)
    (P := fun w : World => w.store.UpToDate w.updated) (C := fun a w => a.Safe svc w)
    (DevMapCall.performIn_wf svc) (DevMapCall.performIn_upToDate_iff svc) (startPool svc tasks)
    Store.Wf.alloc ?_ sched
  intro n d hn
  cases hn

/-- Two devices of a service, the profile of the first of which core-metadata does
    not return when the service starts. -/
def boilerAndChiller : List Configured :=
  [⟨{ name := "boiler", profile := .placeholder "heating" }, none⟩,
    ⟨{ name := "chiller", profile := .placeholder "cooling" },
      some { profile := .placeholder "cooling", version := 1, name_eq := rfl }⟩]

/-- The second query clears the error of the first, so the device map is populated, and
    the boiler gets the placeholder for its profile. -/
theorem start_installs_placeholder :
    ¬ Run.Always (Pool.step (DevMapCall.performIn {}))
      (fun c => c.state.store.UpToDate c.state.updated)
      (startPool {} [.start boilerAndChiller]) [0, 0, 0, 0] := by
  rintro ⟨-, -, -, -, hup⟩
  obtain ⟨v, hv, -⟩ := hup "boiler" 0 (by decide)
  cases hv

end DeviceSdk
