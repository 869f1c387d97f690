import DeviceSdk.Autoevent.Schedules
import DeviceSdk.Lib.Run

/-!
# Schedules of devices that come and go

Schedules are started when a device object is added to the map, and deleted when the last
reference to the object is released. A device object that is replaced or removed keeps its
schedules until then. Requests hold references for as long as the driver works; a callback holds
the object that it has taken out of the map, and the update callback one that it restarts.

## Main definitions

- `ScheduleTurn`, `Scheduled.step` — the turns of requests and callbacks
- `Scheduled.Regular` — at most one schedule for each entry, none without a device, and each with
  a command of the device's profile
- `Scheduled.Apart` — the turns that start no schedule beside an older one, and leave none behind

## Main results

- `Ruled.step` — what one turn keeps
- `schedules_regular`
-/

namespace DeviceSdk

namespace Store

/-- What no operation changes: the names and autoevents of devices, and what profiles say. -/
structure Extends (s s' : Store) : Prop where
  nextDevice_le : s.nextDevice ≤ s'.nextDevice
  nextProfile_le : s.nextProfile ≤ s'.nextProfile
  name : ∀ d < s.nextDevice, (s'.device d).dev.name = (s.device d).dev.name
  autos : ∀ d < s.nextDevice, (s'.device d).dev.autos = (s.device d).dev.autos
  profile : ∀ p < s.nextProfile, (s'.profile p).profile = (s.profile p).profile

/-- No device is turned to another profile. -/
def KeepsPoints (s s' : Store) : Prop :=
  ∀ d < s.nextDevice, (s'.device d).dev.profile = (s.device d).dev.profile

theorem Extends.trans {s s' s'' : Store} (h : s.Extends s') (h' : s'.Extends s'') :
    s.Extends s'' where
  nextDevice_le := h.nextDevice_le.trans h'.nextDevice_le
  nextProfile_le := h.nextProfile_le.trans h'.nextProfile_le
  name d hd := (h'.name d (hd.trans_le h.nextDevice_le)).trans (h.name d hd)
  autos d hd := (h'.autos d (hd.trans_le h.nextDevice_le)).trans (h.autos d hd)
  profile p hp := (h'.profile p (hp.trans_le h.nextProfile_le)).trans (h.profile p hp)

theorem KeepsPoints.trans {s s' s'' : Store} (h : s.KeepsPoints s') (h' : s'.KeepsPoints s'')
    (hle : s.nextDevice ≤ s'.nextDevice) : s.KeepsPoints s'' :=
  fun d hd => (h' d (hd.trans_le hle)).trans (h d hd)

/-- Devices and profiles say what they said. -/
theorem extends_of_same (s s' : Store)
    (hdevice : ∀ d < s.nextDevice, (s'.device d).dev = (s.device d).dev)
    (hprofile : ∀ p < s.nextProfile, (s'.profile p).profile = (s.profile p).profile)
    (hnd : s.nextDevice ≤ s'.nextDevice) (hnp : s.nextProfile ≤ s'.nextProfile) :
    s.Extends s' ∧ s.KeepsPoints s' := by
  refine ⟨⟨hnd, hnp, fun d hd => ?_, fun d hd => ?_, hprofile⟩, fun d hd => ?_⟩
  · rw [hdevice d hd]
  · rw [hdevice d hd]
  · rw [hdevice d hd]

section Operations

variable (s : Store)

theorem extends_modifyDevice (d : DeviceRef) {f : DeviceObj → DeviceObj}
    (hname : (f (s.device d)).dev.name = (s.device d).dev.name)
    (hautos : (f (s.device d)).dev.autos = (s.device d).dev.autos) :
    s.Extends (s.modifyDevice d f) where
  nextDevice_le := le_rfl
  nextProfile_le := le_rfl
  name e _ := by
    by_cases he : e = d
    · rw [he, modifyDevice_device_self, hname]
    · rw [modifyDevice_device_of_ne s f he]
  autos e _ := by
    by_cases he : e = d
    · rw [he, modifyDevice_device_self, hautos]
    · rw [modifyDevice_device_of_ne s f he]
  profile _ _ := rfl

theorem keepsPoints_modifyDevice (d : DeviceRef) {f : DeviceObj → DeviceObj}
    (h : (f (s.device d)).dev.profile = (s.device d).dev.profile) :
    s.KeepsPoints (s.modifyDevice d f) := by
  intro e _
  by_cases he : e = d
  · rw [he, modifyDevice_device_self, h]
  · rw [modifyDevice_device_of_ne s f he]

theorem extends_addLocked (uninit : FreshMemory) (newdev : Device DeviceProfile)
    (retries : BitVec 32) :
    s.Extends (s.addLocked uninit newdev retries) ∧
      s.KeepsPoints (s.addLocked uninit newdev retries) := by
  obtain ⟨-, -, -, hle, hprofile⟩ := ensureProfile_frame uninit s newdev.profile
  apply extends_of_same
  · intro d hd
    rw [addLocked_device_of_ne uninit s newdev retries hd.ne]
  · intro p hp
    rw [addLocked_profile, hprofile p hp.ne]
  · rw [addLocked_nextDevice]
    exact Nat.le_succ _
  · exact hle

theorem extends_releaseProfileLocked (olddev : DeviceRef) :
    s.Extends (s.releaseProfileLocked olddev) ∧
      s.KeepsPoints (s.releaseProfileLocked olddev) := by
  obtain ⟨hnd, hnp⟩ := releaseProfileLocked_next s olddev
  apply extends_of_same
  · intro d _
    rw [releaseProfileLocked_device]
  · intro p _
    rw [releaseProfileLocked_profile]
  · exact hnd.ge
  · exact hnp.ge

theorem extends_readdLocked (uninit : FreshMemory) (olddev : DeviceRef)
    (dev : Device DeviceProfile) :
    (s.removeFromMap olddev).Extends (s.readdLocked uninit olddev dev) ∧
      (s.removeFromMap olddev).KeepsPoints (s.readdLocked uninit olddev dev) := by
  obtain ⟨hext, hpoints⟩ := (s.removeFromMap olddev).extends_addLocked uninit dev
    (s.device olddev).retries
  rw [readdLocked]
  split
  · obtain ⟨hext', hpoints'⟩ := ((s.removeFromMap olddev).addLocked uninit dev
      (s.device olddev).retries).extends_releaseProfileLocked olddev
    exact ⟨hext.trans hext', hpoints.trans hpoints' hext.nextDevice_le⟩
  · exact ⟨hext, hpoints⟩

theorem extends_deviceRelease (d : DeviceRef) :
    s.Extends (s.deviceRelease d) ∧ s.KeepsPoints (s.deviceRelease d) := by
  obtain ⟨hnd, hnp⟩ := deviceRelease_next s d
  apply extends_of_same
  · intro e _
    rw [deviceRelease_device]
  · intro p _
    rw [deviceRelease_profile]
  · exact hnd.ge
  · exact hnp.ge

theorem extends_insertProfile (obj : ProfileObj) :
    s.Extends (s.insertProfile obj) where
  nextDevice_le := le_rfl
  nextProfile_le := Nat.le_succ _
  name _ _ := rfl
  autos _ _ := rfl
  profile p hp := by simp [insertProfile, hp.ne]

variable {s}

theorem Wf.extends_updateProfile (h : s.Wf) (dp : DeviceProfile) (v : ℕ) :
    s.Extends (s.updateProfile dp v) := by
  obtain ⟨-, hnd, hnp⟩ := updateProfile_frame s dp v
  refine ⟨hnd.ge, hnp ▸ Nat.le_succ _, ?_, ?_, ?_⟩
  · intro d _
    rw [updateProfile_device]
    split <;> rfl
  · intro d _
    rw [updateProfile_device]
    split <;> rfl
  · intro p hp
    rw [h.updateProfile_profile, if_neg hp.ne]
    split <;> rfl

/-- `update_in_place` never touches the autoevents of a device. -/
theorem updateInPlace_autos (pname : String) (dest : Device ProfileRef)
    (src : Device DeviceProfile) (outcome : Outcome) :
    (updateInPlace pname dest src outcome).2.1.autos = dest.autos := by
  rw [updateInPlace]
  split
  · rfl
  · dsimp only
    split
    · rfl
    · split <;> rfl

end Operations

-- ════════════════════════════════════════════════════════════════════════
-- Calls into `autoevent.c`
-- ════════════════════════════════════════════════════════════════════════

theorem ensureProfile_calls (uninit : FreshMemory) (s : Store) (dp : DeviceProfile) :
    (s.ensureProfile uninit dp).1.calls = s.calls := by
  rw [ensureProfile]
  split <;> rfl

theorem addLocked_calls (uninit : FreshMemory) (s : Store) (newdev : Device DeviceProfile)
    (retries : BitVec 32) :
    (s.addLocked uninit newdev retries).calls =
      s.calls ++ [.start s.nextDevice (s.ensureProfile uninit newdev.profile).2] := by
  show (s.ensureProfile uninit newdev.profile).1.calls ++ _ = _
  rw [ensureProfile_calls]

theorem releaseProfileLocked_calls (s : Store) (olddev : DeviceRef) :
    (s.releaseProfileLocked olddev).calls = s.calls := by
  rw [releaseProfileLocked]
  split <;> rfl

/-- The profile that `add_locked` chooses depends on the profile map alone. -/
theorem ensureProfile_snd (uninit : FreshMemory) (s s' : Store)
    (hprofiles : s'.profiles = s.profiles) (hnext : s'.nextProfile = s.nextProfile)
    (dp : DeviceProfile) :
    (s'.ensureProfile uninit dp).2 = (s.ensureProfile uninit dp).2 := by
  rw [ensureProfile, ensureProfile, hprofiles, hnext]
  split <;> rfl

theorem readdLocked_calls (uninit : FreshMemory) (s : Store) (olddev : DeviceRef)
    (dev : Device DeviceProfile) :
    (s.readdLocked uninit olddev dev).calls =
      s.calls ++ [.start s.nextDevice (s.ensureProfile uninit dev.profile).2] := by
  have hadd := addLocked_calls uninit (s.removeFromMap olddev) dev (s.device olddev).retries
  rw [ensureProfile_snd uninit s (s.removeFromMap olddev) rfl rfl] at hadd
  rw [readdLocked]
  split
  · rw [releaseProfileLocked_calls]
    exact hadd
  · exact hadd

theorem deviceRelease_calls (s : Store) (d : DeviceRef) :
    (s.deviceRelease d).calls =
      s.calls ++ if (s.device d).refs = 1 then [.stop d] else [] := by
  rw [deviceRelease]
  dsimp only
  split
  · split <;> rfl
  · simp [modifyDevice]

/-- The devices that the loop of `edgex_devmap_update_profile` restarts. -/
theorem foldl_repoint_calls (old dp : ProfileRef) (es : List DeviceRef) (s : Store) :
    ∃ ds : List DeviceRef, (∀ d, d ∈ ds ↔ d ∈ es ∧ (s.device d).dev.profile = old) ∧
      (es.foldl (repoint old dp) s).calls =
        s.calls ++ ds.flatMap fun d => [.stop d, .start d dp] := by
  induction es generalizing s with
  | nil => exact ⟨[], by simp, by simp⟩
  | cons e es ih =>
    obtain ⟨ds, hds, hcalls⟩ := ih (repoint old dp s e)
    by_cases he : (s.device e).dev.profile = old
    · refine ⟨e :: ds, fun d => ?_, ?_⟩
      · by_cases hde : d = e
        · simp [hde, he]
        · have hsame : (repoint old dp s e).device d = s.device d := by
            simp [repoint, he, modifyDevice, call, hde]
          rw [List.mem_cons, hds, hsame, List.mem_cons]
          simp [hde]
      · rw [List.foldl_cons, hcalls, repoint, if_pos he]
        simp [call, modifyDevice]
    · have hskip : repoint old dp s e = s := by rw [repoint, if_neg he]
      rw [hskip] at hds hcalls
      refine ⟨ds, fun d => ?_, ?_⟩
      · rw [hds, List.mem_cons]
        constructor
        · exact fun hd => ⟨.inr hd.1, hd.2⟩
        · rintro ⟨rfl | hd, hp⟩
          · exact absurd hp he
          · exact ⟨hd, hp⟩
      · rw [List.foldl_cons, hskip, hcalls]

/-- The devices that `edgex_devmap_update_profile` restarts, all of them in the map. -/
theorem updateProfile_calls (s : Store) (dp : DeviceProfile) (v : ℕ) :
    ∃ ds : List DeviceRef,
      (∀ d, d ∈ ds ↔ s.Mapped d ∧ s.profiles.lookup dp.name = some (s.device d).dev.profile) ∧
      (s.updateProfile dp v).calls =
        s.calls ++ ds.flatMap fun d => [.stop d, .start d s.nextProfile] := by
  rw [updateProfile]
  cases hold : s.profiles.lookup dp.name with
  | none => exact ⟨[], by simp, by simp [insertProfile]⟩
  | some old =>
    obtain ⟨ds, hds, hcalls⟩ := foldl_repoint_calls old s.nextProfile s.devices.values s
    refine ⟨ds, fun d => ?_, hcalls⟩
    rw [hds, AList.mem_values, Option.some.injEq, eq_comm]
    rfl

/-- The devices in use of the profile are turned to the new one. -/
theorem updateProfile_points {s : Store} {dp : DeviceProfile} {ds : List DeviceRef}
    (hds : ∀ d, d ∈ ds ↔ s.Mapped d ∧ s.profiles.lookup dp.name = some (s.device d).dev.profile)
    (v : ℕ) (d : DeviceRef) :
    ((s.updateProfile dp v).device d).dev.profile =
      if d ∈ ds then s.nextProfile else (s.device d).dev.profile := by
  rw [updateProfile_device]
  by_cases hd : d ∈ ds
  · rw [if_pos ((hds d).mp hd), if_pos hd]
  · rw [if_neg fun hc => hd ((hds d).mpr hc), if_neg hd]

end Store

/-- The schedule runs the command that the profile of the device at `d` has for its entry. -/
def Schedule.Current (createRes : CreateRes) (s : Store) (x : Schedule) (d : DeviceRef) : Prop :=
  x.profile = (s.device d).dev.profile ∧
    (findcommand createRes (s.profileOf d).profile x.event.resource true).2 = some x.ai.resource

/-- The turns of requests and callbacks: a request gets a reference and releases it; a callback
    replaces or removes a device, and is left with the reference of the map; it looks up a device,
    stops and starts its autoevents, and releases it; it adds or updates a profile. A schedule that
    fires is a request, or takes itself out where there is no device of its name. -/
inductive ScheduleTurn
  | request (name : String)
  | requestEnd (d : DeviceRef)
  | replace (dev : Device DeviceProfile)
  | remove (name : String)
  | byname (name : String)
  | stop (d : DeviceRef)
  | start (d : DeviceRef)
  | release (d : DeviceRef)
  | addProfile (dp : DeviceProfile) (v : ℕ)
  | updateProfile (dp : DeviceProfile) (v : ℕ)
  | fire (a : AutoRef)

namespace Scheduled

section Step

variable (createRes : CreateRes) (uninit : FreshMemory) (cfg : DeviceInfo)

/-- One turn. Every call into `devmap.c` and `autoevent.c` is one turn, and a reference is
    released by who holds it. -/
def step (w : Scheduled) : ScheduleTurn → Scheduled
  | .request name =>
    { w with
      store := (w.store.deviceByname name).1
      requests := (w.store.deviceByname name).2.toList ++ w.requests }
  | .requestEnd d =>
    if d ∈ w.requests then
      { w with requests := w.requests.erase d }.follow createRes (w.store.deviceRelease d)
    else w
  | .replace dev =>
    { w with callbacks := (w.store.replaceLocked uninit cfg dev).2.2.toList ++ w.callbacks }.follow
      createRes (w.store.replaceLocked uninit cfg dev).1
  | .remove name =>
    { w with
      store := (w.store.removeLocked name).1
      callbacks := (w.store.removeLocked name).2.toList ++ w.callbacks }
  | .byname name =>
    { w with
      store := (w.store.deviceByname name).1
      callbacks := (w.store.deviceByname name).2.toList ++ w.callbacks }
  | .stop d => if d ∈ w.callbacks then w.autoeventStop d else w
  | .start d =>
    if d ∈ w.callbacks then w.autoeventStart createRes d (w.store.device d).dev.profile else w
  | .release d =>
    if d ∈ w.callbacks then
      { w with callbacks := w.callbacks.erase d }.follow createRes (w.store.deviceRelease d)
    else w
  | .addProfile dp v => { w with store := w.store.addProfile dp v }
  | .updateProfile dp v => w.follow createRes (w.store.updateProfile dp v)
  | .fire a => w.fire a

end Step

/-- For an entry of the device in the map under a name there are no more active schedules of that
    name than there are such entries; while no callback is in progress there is none of a name
    that is not in the map; and each runs the command of its device, and of the device in the map
    under the name that it looks up. -/
structure Regular (createRes : CreateRes) (w : Scheduled) : Prop where
  once : ∀ name d, w.store.devices.lookup name = some d → ∀ ae ∈ (w.store.device d).dev.autos,
    w.active.countP (fun x => decide (x.ai.device = name ∧ x.event = ae)) ≤
      (w.store.device d).dev.autos.count ae
  gone : w.callbacks = [] → ∀ x ∈ w.active, w.store.devices.lookup x.ai.device ≠ none
  own : ∀ x ∈ w.active, x.Current createRes w.store x.owner.1
  current : ∀ x ∈ w.active, ∀ d, w.store.devices.lookup x.ai.device = some d →
    x.Current createRes w.store d

/-- No active schedule of the name is for one of the entries, or of another profile. -/
def Clear (w : Scheduled) (name : String) (autos : List AutoEvent) (p : ProfileRef) : Prop :=
  ∀ x ∈ w.active, x.ai.device = name → x.event ∉ autos ∧ x.profile = p

/-- A device object is added only where no schedule of its name is active for one of its entries
    or under another profile. A profile is updated only where the devices that are turned to it
    have no schedules of their names but their own. A callback starts a device only while it has
    no active schedules, and while another device of its name in the map has none of its entries
    and the same profile; and where the last callback releases a device, no other schedule is left
    without a device in the map. -/
def Apart (uninit : FreshMemory) (w : Scheduled) : ScheduleTurn → Prop
  | .replace dev =>
    (∀ olddev, w.store.devices.lookup dev.name = some olddev →
      (w.store.updateAt olddev dev).1 = false) →
    w.Clear dev.name dev.autos (w.store.ensureProfile uninit dev.profile).2
  | .updateProfile dp _ =>
    ∀ d, w.store.Mapped d → w.store.profiles.lookup dp.name = some (w.store.device d).dev.profile →
      ∀ x ∈ w.active, x.ai.device = (w.store.device d).dev.name → x.owner.1 = d
  | .start d =>
    d ∈ w.callbacks → (∀ x ∈ w.active, x.owner.1 ≠ d) ∧
      ∀ e, w.store.devices.lookup (w.store.device d).dev.name = some e → e ≠ d →
        (∀ ae ∈ (w.store.device d).dev.autos, ae ∉ (w.store.device e).dev.autos) ∧
          (w.store.device d).dev.profile = (w.store.device e).dev.profile
  | .release d =>
    d ∈ w.callbacks → w.callbacks.erase d = [] →
      ∀ x ∈ w.active, w.store.devices.lookup x.ai.device = none →
        x.owner.1 = d ∧ (w.store.device d).refs = 1
  | _ => True

/-- Every record has the profile of its device; a schedule, where a device of its name is in the
    map, has the profile of that device; only that device's own schedules are for its entries. -/
structure Ruled (createRes : CreateRes) (w : Scheduled) : Prop where
  tracks : w.Tracks createRes
  wf : w.store.Wf
  held_lt : ∀ d ∈ w.callbacks, d < w.store.nextDevice
  points : ∀ {a x}, w.impl a = some x → x.profile = (w.store.device a.1).dev.profile
  entries : ∀ x ∈ w.active, ∀ d, w.store.devices.lookup x.ai.device = some d →
    x.event ∈ (w.store.device d).dev.autos → x.owner.1 = d
  current : ∀ x ∈ w.active, ∀ d, w.store.devices.lookup x.ai.device = some d →
    x.profile = (w.store.device d).dev.profile

/-- Without callbacks in progress, every schedule has a device in the map. -/
def Gone (w : Scheduled) : Prop :=
  w.callbacks = [] → ∀ x ∈ w.active, w.store.devices.lookup x.ai.device ≠ none

variable {createRes : CreateRes} {w : Scheduled}

theorem Gone.of_subset (h : w.Gone) {w' : Scheduled} (hcbs : w'.callbacks = w.callbacks)
    (hdevs : w'.store.devices = w.store.devices) (hsub : ∀ x ∈ w'.active, x ∈ w.active) :
    w'.Gone := by
  intro hnone x hx
  rw [hdevs]
  exact h (hcbs.symm.trans hnone) x (hsub x hx)

theorem Tracks.lt (h : w.Tracks createRes) {a : AutoRef} {x : Schedule} (ha : w.impl a = some x) :
    a.1 < w.store.nextDevice :=
  h.owner ha ▸ (h.of ha).lt

theorem Tracks.store (h : w.Tracks createRes) {s' : Store} (hext : w.store.Extends s') :
    Tracks createRes { w with store := s' } where
  attached := h.attached
  owner := h.owner
  distinct := h.distinct
  ids := h.ids
  ids_lt := h.ids_lt
  of ha := by
    have hof := h.of ha
    refine ⟨hof.lt.trans_le hext.nextDevice_le, ?_, ?_, hof.profile_lt.trans_le
      hext.nextProfile_le, ?_⟩
    · rw [hext.name _ hof.lt]
      exact hof.name
    · rw [hext.autos _ hof.lt]
      exact hof.event
    · rw [hext.profile _ hof.profile_lt]
      exact hof.command

/-- An operation that adds no device to the map, and turns none to another profile. -/
theorem Ruled.store (h : w.Ruled createRes) {s' : Store} {cbs rqs : List DeviceRef}
    (hext : w.store.Extends s') (hpoints : w.store.KeepsPoints s') (hwf : s'.Wf)
    (hdevs : ∀ n d, s'.devices.lookup n = some d → w.store.devices.lookup n = some d)
    (hcbs : ∀ d ∈ cbs, d < s'.nextDevice) :
    Ruled createRes { w with store := s', callbacks := cbs, requests := rqs } where
  tracks := by
    have htracks := h.tracks.store hext
    exact ⟨htracks.attached, htracks.owner, htracks.distinct, htracks.ids, htracks.ids_lt,
      htracks.of⟩
  wf := hwf
  held_lt := hcbs
  points ha := by
    rw [hpoints _ (h.tracks.lt ha)]
    exact h.points ha
  entries x hx d hd hmem := by
    have hd' := hdevs _ d hd
    rw [hext.autos d (h.wf.device_lt hd')] at hmem
    exact h.entries x hx d hd' hmem
  current x hx d hd := by
    have hd' := hdevs _ d hd
    rw [hpoints d (h.wf.device_lt hd')]
    exact h.current x hx d hd'

theorem Ruled.of_subset (h : w.Ruled createRes) {w' : Scheduled} (ht : w'.Tracks createRes)
    (hsame : SameMap w w') (hsub : ∀ x ∈ w'.active, x ∈ w.active)
    (himpl : ∀ {a x}, w'.impl a = some x → w.impl a = some x) : w'.Ruled createRes := by
  refine ⟨ht, ?_, ?_, ?_, ?_, ?_⟩
  · rw [hsame.store]
    exact h.wf
  · rw [hsame.callbacks, hsame.store]
    exact h.held_lt
  · rw [hsame.store]
    exact fun ha => h.points (himpl ha)
  · rw [hsame.store]
    exact fun x hx => h.entries x (hsub x hx)
  · rw [hsame.store]
    exact fun x hx => h.current x (hsub x hx)

theorem Ruled.autoeventStop (h : w.Ruled createRes) (d : DeviceRef) :
    (w.autoeventStop d).Ruled createRes := by
  obtain ⟨ht, hsame, hmem, himpl⟩ := h.tracks.autoeventStop d
  exact h.of_subset ht hsame (fun x hx => ((hmem x).mp hx).1) fun ha => ((himpl _ _).mp ha).1

theorem Ruled.fire (h : w.Ruled createRes) (a : AutoRef) : (w.fire a).Ruled createRes := by
  obtain ⟨ht, hsame, himpl, hsub⟩ := h.tracks.fire a
  exact h.of_subset ht hsame hsub fun ha => himpl ▸ ha

theorem follow_eq {s' : Store} {cs : List AutoeventCall} (h : s'.calls = w.store.calls ++ cs) :
    w.follow createRes s' = cs.foldl (perform createRes) { w with store := s' } := by
  rw [follow, h, List.drop_left]

/-- An operation that makes no calls. -/
theorem follow_of_calls {s' : Store} (h : s'.calls = w.store.calls) :
    w.follow createRes s' = { w with store := s' } := by
  have hcs : s'.calls = w.store.calls ++ [] := by rw [h, List.append_nil]
  rw [follow_eq hcs]
  rfl

/-- The release of a reference, with the stop that goes with the last one. -/
theorem Ruled.deviceRelease (h : w.Ruled createRes) (d : DeviceRef) (cbs rqs : List DeviceRef)
    (hcbs : ∀ e ∈ cbs, e ∈ w.callbacks) :
    Ruled createRes ({ w with callbacks := cbs, requests := rqs }.follow createRes
        (w.store.deviceRelease d)) ∧
      (∀ x, x ∈ ({ w with callbacks := cbs, requests := rqs }.follow createRes
          (w.store.deviceRelease d)).active ↔
        x ∈ w.active ∧ ((w.store.device d).refs = 1 → x.owner.1 ≠ d)) ∧
      SameMap { w with store := w.store.deviceRelease d, callbacks := cbs, requests := rqs }
        ({ w with callbacks := cbs, requests := rqs }.follow createRes
          (w.store.deviceRelease d)) := by
  obtain ⟨hext, hpoints⟩ := w.store.extends_deviceRelease d
  have hrel : Ruled createRes
      { w with store := w.store.deviceRelease d, callbacks := cbs, requests := rqs } := by
    refine h.store hext hpoints (h.wf.deviceRelease d) ?_ ?_
    · intro n e he
      rwa [Store.deviceRelease_devices] at he
    · intro e he
      exact (h.held_lt e (hcbs e he)).trans_le hext.nextDevice_le
  rw [follow_eq (w := { w with callbacks := cbs, requests := rqs }) (w.store.deviceRelease_calls d)]
  by_cases hrefs : (w.store.device d).refs = 1
  · rw [if_pos hrefs]
    obtain ⟨-, hsame, hmem, -⟩ := hrel.tracks.autoeventStop d
    refine ⟨hrel.autoeventStop d, fun x => ?_, hsame⟩
    rw [forall_prop_of_true hrefs]
    exact hmem x
  · rw [if_neg hrefs]
    exact ⟨hrel, fun x => by simp [hrefs], .rfl⟩

/-- A device is started that has no active schedules, while another device of its name in the map
    has none of its entries and the same profile. -/
theorem Ruled.autoeventStart (h : w.Ruled createRes) {d : DeviceRef} (hd : d < w.store.nextDevice)
    (hnone : ∀ x ∈ w.active, x.owner.1 ≠ d)
    (hfree : ∀ e, w.store.devices.lookup (w.store.device d).dev.name = some e → e ≠ d →
      (∀ ae ∈ (w.store.device d).dev.autos, ae ∉ (w.store.device e).dev.autos) ∧
        (w.store.device d).dev.profile = (w.store.device e).dev.profile) :
    Ruled createRes (w.autoeventStart createRes d (w.store.device d).dev.profile) ∧
      Started d (w.store.device d).dev.profile w
        (w.autoeventStart createRes d (w.store.device d).dev.profile) := by
  obtain ⟨ht, hstarted⟩ := h.tracks.autoeventStart hd (h.wf.points_lt hd) hnone
    fun ha => h.points ha
  have hstore := hstarted.same.store
  have hname : ∀ x ∈ (w.autoeventStart createRes d (w.store.device d).dev.profile).active,
      x.owner.1 = d → x.ai.device = (w.store.device d).dev.name := by
    intro x hx ho
    have hx' := (ht.of_active hx).name
    rwa [hstore, ho] at hx'
  refine ⟨⟨ht, ?_, ?_, ?_, ?_, ?_⟩, hstarted⟩
  · rw [hstore]
    exact h.wf
  · rw [hstore, hstarted.same.callbacks]
    exact h.held_lt
  · intro a x ha
    rw [hstore]
    rcases hstarted.records ha with ha' | ⟨ho, hxp⟩
    · exact h.points ha'
    · rw [ho, hxp]
  · intro x hx e he hmem
    rw [hstore] at he hmem
    rcases hstarted.new x hx with hx' | ⟨ho, -⟩
    · exact h.entries x hx' e he hmem
    · rw [hname x hx ho] at he
      rw [ho]
      by_contra hne
      have hevent := (ht.of_active hx).event
      rw [hstore, ho] at hevent
      exact (hfree e he fun hc => hne hc.symm).1 _ (List.mem_of_getElem? hevent) hmem
  · intro x hx e he
    rw [hstore] at he ⊢
    rcases hstarted.new x hx with hx' | ⟨ho, hxp⟩
    · exact h.current x hx' e he
    · rw [hname x hx ho] at he
      rw [hxp]
      by_cases hed : e = d
      · rw [hed]
      · exact (hfree e he hed).2

/-- A new device object enters the map, where no schedules of its name are in its way. -/
theorem Ruled.insertDevice (h : w.Ruled createRes) {s' : Store} {name : String}
    (hext : w.store.Extends s') (hpoints : w.store.KeepsPoints s') (hwf : s'.Wf)
    (hdevs : s'.devices = w.store.devices.insert name w.store.nextDevice)
    (hclear : w.Clear name (s'.device w.store.nextDevice).dev.autos
      (s'.device w.store.nextDevice).dev.profile) :
    Ruled createRes { w with store := s' } := by
  have hlookup : ∀ n d, s'.devices.lookup n = some d →
      (n = name ∧ d = w.store.nextDevice) ∨ (n ≠ name ∧ w.store.devices.lookup n = some d) := by
    intro n d hd
    rw [hdevs] at hd
    exact AList.lookup_insert_eq_some.mp hd
  refine ⟨h.tracks.store hext, hwf, ?_, ?_, ?_, ?_⟩
  · exact fun d hd => (h.held_lt d hd).trans_le hext.nextDevice_le
  · intro a x ha
    rw [hpoints _ (h.tracks.lt ha)]
    exact h.points ha
  · intro x hx d hd hmem
    rcases hlookup _ d hd with ⟨hn, rfl⟩ | ⟨-, hd'⟩
    · exact absurd hmem (hclear x hx hn).1
    · rw [hext.autos d (h.wf.device_lt hd')] at hmem
      exact h.entries x hx d hd' hmem
  · intro x hx d hd
    rcases hlookup _ d hd with ⟨hn, rfl⟩ | ⟨-, hd'⟩
    · exact (hclear x hx hn).2
    · rw [hpoints d (h.wf.device_lt hd')]
      exact h.current x hx d hd'

/-- A new device object enters the map, and its autoevents are started. -/
theorem Ruled.add (h : w.Ruled createRes) {s' : Store} {name : String} {p : ProfileRef}
    (hext : w.store.Extends s') (hpoints : w.store.KeepsPoints s') (hwf : s'.Wf)
    (hdevs : s'.devices = w.store.devices.insert name w.store.nextDevice)
    (hp : (s'.device w.store.nextDevice).dev.profile = p)
    (hclear : w.Clear name (s'.device w.store.nextDevice).dev.autos p) :
    Ruled createRes ({ w with store := s' }.autoeventStart createRes w.store.nextDevice p) ∧
      Started w.store.nextDevice p { w with store := s' }
        ({ w with store := s' }.autoeventStart createRes w.store.nextDevice p) := by
  subst hp
  have hself : s'.devices.lookup name = some w.store.nextDevice := by
    rw [hdevs]
    exact AList.lookup_insert w.store.devices
  refine (h.insertDevice hext hpoints hwf hdevs hclear).autoeventStart (hwf.device_lt hself) ?_ ?_
  · exact fun x hx => (h.tracks.of_active hx).lt.ne
  · intro e he hne
    have hname := hwf.device_name hself
    exact absurd (Option.some.inj (he.symm.trans (hname.symm ▸ hself))) hne

/-- The restarts of a profile update. -/
theorem Tracks.restarts (h : w.Tracks createRes) {p : ProfileRef} (ds : List DeviceRef)
    (hds : ∀ d ∈ ds, d < w.store.nextDevice) (hp : p < w.store.nextProfile) :
    let w' := (ds.flatMap fun d => [.stop d, .start d p]).foldl (perform createRes) w
    w'.Tracks createRes ∧ SameMap w w' ∧
      (∀ x ∈ w'.active, (x ∈ w.active ∧ x.owner.1 ∉ ds) ∨ (x.owner.1 ∈ ds ∧ x.profile = p)) ∧
      ∀ a x, w'.impl a = some x →
        (w.impl a = some x ∧ a.1 ∉ ds) ∨ (a.1 ∈ ds ∧ x.profile = p) := by
  induction ds generalizing w with
  | nil => exact ⟨h, .rfl, fun x hx => .inl ⟨hx, by simp⟩, fun a x ha => .inl ⟨ha, by simp⟩⟩
  | cons d ds ih =>
    obtain ⟨hd, hds'⟩ := List.forall_mem_cons.mp hds
    obtain ⟨hstop, hsame, hmem, himpl⟩ := h.autoeventStop d
    obtain ⟨hstart, hstarted⟩ := hstop.autoeventStart (d := d) (p := p) (hsame.store ▸ hd)
      (hsame.store ▸ hp) (fun x hx => ((hmem x).mp hx).2)
      fun ha => absurd rfl ((himpl _ _).mp ha).2
    have hstore := hsame.trans hstarted.same
    obtain ⟨ht, hsame', hnew, hrecords⟩ := ih hstart (by rw [hstore.store]; exact hds')
      (by rw [hstore.store]; exact hp)
    refine ⟨ht, hstore.trans hsame', fun x hx => ?_, fun a x ha => ?_⟩
    · rcases hnew x hx with ⟨hx', hnot⟩ | ⟨ho, hxp⟩
      · rcases hstarted.new x hx' with hx'' | ⟨ho, hxp⟩
        · obtain ⟨hactive, hne⟩ := (hmem x).mp hx''
          exact .inl ⟨hactive, by simp [hne, hnot]⟩
        · exact .inr ⟨by simp [ho], hxp⟩
      · exact .inr ⟨List.mem_cons_of_mem _ ho, hxp⟩
    · rcases hrecords a x ha with ⟨ha', hnot⟩ | ⟨ho, hxp⟩
      · rcases hstarted.records ha' with ha'' | ⟨ho, hxp⟩
        · obtain ⟨hrec, hne⟩ := (himpl a x).mp ha''
          exact .inl ⟨hrec, by simp [hne, hnot]⟩
        · exact .inr ⟨by simp [ho], hxp⟩
      · exact .inr ⟨List.mem_cons_of_mem _ ho, hxp⟩

theorem Ruled.updateProfile (h : w.Ruled createRes) (hgone : w.Gone) {uninit : FreshMemory}
    {dp : DeviceProfile} {v : ℕ} (hapart : w.Apart uninit (.updateProfile dp v)) :
    Ruled createRes (w.follow createRes (w.store.updateProfile dp v)) ∧
      Gone (w.follow createRes (w.store.updateProfile dp v)) := by
  obtain ⟨ds, hds, hcalls⟩ := w.store.updateProfile_calls dp v
  obtain ⟨hdevs, hnd, hnp⟩ := w.store.updateProfile_frame dp v
  have hext := h.wf.extends_updateProfile dp v
  have hwf := h.wf.updateProfile dp v
  have hpoint := Store.updateProfile_points hds v
  rw [follow_eq hcalls]
  obtain ⟨ht, hsame, hnew, hrecords⟩ := (h.tracks.store hext).restarts (p := w.store.nextProfile) ds
    (fun d hd => hnd ▸ h.wf.device_lt (h.wf.lookup_of_mapped ((hds d).mp hd).1))
    (hnp ▸ Nat.lt_succ_self _)
  have hstore := hsame.store
  dsimp only at hstore
  -- a schedule of a restarted device is under the name of that device
  have hrestarted : ∀ {x : Schedule}, x.Of createRes (w.store.updateProfile dp v) →
      x.owner.1 ∈ ds → w.store.devices.lookup x.ai.device = some x.owner.1 := by
    intro x hof ho
    have hmapped := h.wf.lookup_of_mapped ((hds _).mp ho).1
    rw [hof.name, hext.name _ (h.wf.device_lt hmapped)]
    exact hmapped
  refine ⟨⟨ht, ?_, ?_, ?_, ?_, ?_⟩, ?_⟩
  · rw [hstore]
    exact hwf
  · rw [hstore, hsame.callbacks]
    exact fun d hd => (h.held_lt d hd).trans_le hext.nextDevice_le
  · intro a x ha
    rw [hstore, hpoint]
    rcases hrecords a x ha with ⟨ha', hnot⟩ | ⟨ho, hxp⟩
    · rw [if_neg hnot]
      exact h.points ha'
    · rw [if_pos ho, hxp]
  · intro x hx d hd hmem
    rw [hstore, hdevs] at hd
    rw [hstore, hext.autos d (h.wf.device_lt hd)] at hmem
    rcases hnew x hx with ⟨hx', -⟩ | ⟨ho, -⟩
    · exact h.entries x hx' d hd hmem
    · exact Option.some.inj ((hrestarted (hstore ▸ ht.of_active hx) ho).symm.trans hd)
  · intro x hx d hd
    rw [hstore, hdevs] at hd
    rw [hstore, hpoint]
    rcases hnew x hx with ⟨hx', hnot⟩ | ⟨ho, hxp⟩
    · have hdnot : d ∉ ds := by
        intro hdds
        obtain ⟨hm, hl⟩ := (hds d).mp hdds
        have hown := hapart d hm hl x hx' (h.wf.device_name hd).symm
        exact hnot (hown ▸ hdds)
      rw [if_neg hdnot]
      exact h.current x hx' d hd
    · have hxd := Option.some.inj ((hrestarted (hstore ▸ ht.of_active hx) ho).symm.trans hd)
      rw [if_pos (hxd ▸ ho), hxp]
  · intro hcbs x hx
    rw [hsame.callbacks] at hcbs
    rw [hstore, hdevs]
    rcases hnew x hx with ⟨hx', -⟩ | ⟨ho, -⟩
    · exact hgone hcbs x hx'
    · rw [hrestarted (hstore ▸ ht.of_active hx) ho]
      exact Option.some_ne_none _

/-- A request or a callback gets a reference. -/
theorem Ruled.byname (h : w.Ruled createRes) (name : String) {cbs rqs : List DeviceRef}
    (hcbs : ∀ d ∈ cbs, d ∈ w.callbacks ∨ w.store.devices.lookup name = some d) :
    Ruled createRes
      { w with store := (w.store.deviceByname name).1, callbacks := cbs, requests := rqs } := by
  have hlt : ∀ d ∈ cbs, d < w.store.nextDevice :=
    fun d hd => (hcbs d hd).elim (h.held_lt d) h.wf.device_lt
  rw [Store.deviceByname]
  split
  next d _ =>
    dsimp only
    exact h.store (w.store.extends_modifyDevice d rfl rfl) (w.store.keepsPoints_modifyDevice d rfl)
      (h.wf.modifyDevice_of_dev fun _ => rfl) (fun _ _ hn => hn) hlt
  · obtain ⟨hext, hpoints⟩ :=
      w.store.extends_of_same w.store (fun _ _ => rfl) (fun _ _ => rfl) le_rfl le_rfl
    exact h.store hext hpoints h.wf (fun _ _ hn => hn) hlt

/-- A device leaves the map, and its reference is left to the callback. -/
theorem Ruled.removeFromMap (h : w.Ruled createRes) {name : String} {olddev : DeviceRef}
    (hold : w.store.devices.lookup name = some olddev) :
    Ruled createRes
      { w with store := w.store.removeFromMap olddev, callbacks := olddev :: w.callbacks } := by
  obtain ⟨hext, hpoints⟩ :=
    w.store.extends_of_same (w.store.removeFromMap olddev) (fun _ _ => rfl) (fun _ _ => rfl) le_rfl
      le_rfl
  refine h.store hext hpoints (h.wf.removeFromMap olddev)
    (fun n d hn => (AList.lookup_erase_eq_some.mp hn).2) ?_
  intro d hd
  cases List.mem_cons.mp hd with
  | inl he =>
    rw [he]
    exact h.wf.device_lt hold
  | inr hd' => exact h.held_lt d hd'

theorem Ruled.remove (h : w.Ruled createRes) (name : String) :
    Ruled createRes
      { w with
        store := (w.store.removeLocked name).1
        callbacks := (w.store.removeLocked name).2.toList ++ w.callbacks } := by
  rw [Store.removeLocked]
  split
  next olddev hold =>
    have hrem := h.removeFromMap hold
    obtain ⟨hext, hpoints⟩ := (w.store.removeFromMap olddev).extends_releaseProfileLocked olddev
    refine hrem.store hext hpoints (hrem.wf.releaseProfileLocked olddev) ?_ ?_
    · intro n d hn
      rwa [Store.releaseProfileLocked_devices] at hn
    · exact fun d hd => (hrem.held_lt d hd).trans_le hext.nextDevice_le
  · exact h

theorem Ruled.create (h : w.Ruled createRes) (hgone : w.Gone) {uninit : FreshMemory}
    {dev : Device DeviceProfile} (retries : BitVec 32)
    (hclear : w.Clear dev.name dev.autos (w.store.ensureProfile uninit dev.profile).2) :
    Ruled createRes (w.follow createRes (w.store.addLocked uninit dev retries)) ∧
      Gone (w.follow createRes (w.store.addLocked uninit dev retries)) := by
  obtain ⟨hext, hpoints⟩ := w.store.extends_addLocked uninit dev retries
  have hnew := w.store.addLocked_device_new uninit dev retries
  have hdevs := w.store.addLocked_devices uninit dev retries
  rw [follow_eq (w.store.addLocked_calls uninit dev retries)]
  obtain ⟨hruled, hstarted⟩ := h.add (p := (w.store.ensureProfile uninit dev.profile).2) hext
    hpoints (h.wf.addLocked uninit dev retries) hdevs (by rw [hnew]; rfl)
    (by rw [hnew, deviceDup_autos]; exact hclear)
  refine ⟨hruled, ?_⟩
  intro hcbs x hx
  have hlookup : ∀ n, n = dev.name ∨ w.store.devices.lookup n ≠ none →
      (w.store.addLocked uninit dev retries).devices.lookup n ≠ none := by
    intro n hn
    rw [hdevs]
    by_cases hname : n = dev.name
    · rw [hname, AList.lookup_insert]
      exact Option.some_ne_none _
    · rw [AList.lookup_insert_ne hname]
      exact hn.resolve_left hname
  show ({ w with store := w.store.addLocked uninit dev retries }.autoeventStart createRes
    w.store.nextDevice (w.store.ensureProfile uninit dev.profile).2).store.devices.lookup _ ≠ none
  rw [hstarted.same.store]
  apply hlookup
  rcases hstarted.new x hx with hx' | ⟨ho, -⟩
  · exact .inr (hgone (hstarted.same.callbacks.symm.trans hcbs) x hx')
  · have hname := (hruled.tracks.of_active hx).name
    rw [hstarted.same.store, ho, hnew] at hname
    exact .inl hname

theorem Ruled.readd (h : w.Ruled createRes) {uninit : FreshMemory}
    {dev : Device DeviceProfile} {olddev : DeviceRef}
    (hold : w.store.devices.lookup dev.name = some olddev)
    (hclear : w.Clear dev.name dev.autos (w.store.ensureProfile uninit dev.profile).2) :
    Ruled createRes ({ w with callbacks := olddev :: w.callbacks }.follow createRes
      (w.store.readdLocked uninit olddev dev)) := by
  obtain ⟨hext, hpoints⟩ := w.store.extends_readdLocked uninit olddev dev
  obtain ⟨hdevs, hnew, -, -⟩ := w.store.readdLocked_frame uninit olddev dev
    (h.wf.device_lt hold).ne
  rw [follow_eq (w := { w with callbacks := olddev :: w.callbacks })
    (w.store.readdLocked_calls uninit olddev dev)]
  have hprofile : ((w.store.readdLocked uninit olddev dev).device w.store.nextDevice).dev.profile =
      (w.store.ensureProfile uninit dev.profile).2 := by
    rw [hnew]
    rfl
  have hautos : ((w.store.readdLocked uninit olddev dev).device w.store.nextDevice).dev.autos =
      dev.autos := by
    rw [hnew, deviceDup_autos]
  rw [← hautos] at hclear
  exact ((h.removeFromMap hold).add hext hpoints (h.wf.readdLocked uninit olddev dev) hdevs
    hprofile hclear).1

theorem Ruled.updateAt (h : w.Ruled createRes) (olddev : DeviceRef)
    (dev : Device DeviceProfile) :
    Ruled createRes { w with store := w.store.modifyDevice olddev fun obj =>
      { obj with dev := (w.store.updateAt olddev dev).2.1 } } := by
  obtain ⟨hname, hprofile⟩ := Store.updateInPlace_name_profile
    (w.store.profileOf olddev).profile.name (w.store.device olddev).dev dev .updatedSdk
  have hautos := Store.updateInPlace_autos (w.store.profileOf olddev).profile.name
    (w.store.device olddev).dev dev .updatedSdk
  exact h.store (w.store.extends_modifyDevice olddev hname hautos)
    (w.store.keepsPoints_modifyDevice olddev hprofile) (h.wf.modifyDevice_updateAt olddev dev)
    (fun _ _ hn => hn) h.held_lt

/-- A device is created, updated in place, or removed and added again. -/
theorem Ruled.replace (h : w.Ruled createRes) (hgone : w.Gone) {uninit : FreshMemory}
    (cfg : DeviceInfo) {dev : Device DeviceProfile} (hapart : w.Apart uninit (.replace dev)) :
    Ruled createRes (w.step createRes uninit cfg (.replace dev)) ∧
      Gone (w.step createRes uninit cfg (.replace dev)) := by
  rw [step]
  rcases w.store.replaceLocked_cases uninit cfg dev with
    ⟨hnone, he⟩ | ⟨olddev, hold, -, he⟩ | ⟨olddev, hold, hup, he⟩
  · rw [he]
    have hclear := hapart fun olddev hold => absurd (hnone.symm.trans hold) (by simp)
    exact h.create hgone cfg.allowedFails hclear
  · rw [he]
    have hsame : w.follow createRes (w.store.modifyDevice olddev fun obj =>
        { obj with dev := (w.store.updateAt olddev dev).2.1 }) = _ := follow_of_calls rfl
    constructor
    · exact hsame ▸ h.updateAt olddev dev
    · exact hsame ▸ hgone
  · rw [he]
    have hclear := hapart fun olddev' hold' => by
      rw [← Option.some.inj (hold.symm.trans hold')]
      exact hup
    refine ⟨(h.updateAt olddev dev).readd hold ?_, ?_⟩
    · rw [← Store.ensureProfile_snd uninit w.store (w.store.modifyDevice olddev fun obj =>
        { obj with dev := (w.store.updateAt olddev dev).2.1 }) rfl rfl] at hclear
      exact hclear
    · intro hcbs
      rw [(sameMap_follow _ _).callbacks] at hcbs
      cases hcbs

/-- One turn that is apart from the older schedules. -/
theorem Ruled.step (h : w.Ruled createRes) (hgone : w.Gone) {uninit : FreshMemory}
    (cfg : DeviceInfo) {t : ScheduleTurn} (hapart : w.Apart uninit t) :
    Ruled createRes (w.step createRes uninit cfg t) ∧ Gone (w.step createRes uninit cfg t) := by
  cases t with
  | request name =>
    refine ⟨h.byname name fun d hd => .inl hd, ?_⟩
    rw [Scheduled.step, Store.deviceByname]
    split <;> exact hgone
  | requestEnd d =>
    rw [Scheduled.step]
    split
    · obtain ⟨hruled, hmem, hsame⟩ := h.deviceRelease d w.callbacks (w.requests.erase d)
        fun e he => he
      refine ⟨hruled, hgone.of_subset hsame.callbacks ?_ fun x hx => ((hmem x).mp hx).1⟩
      rw [hsame.store, Store.deviceRelease_devices]
    · exact ⟨h, hgone⟩
  | replace dev => exact h.replace hgone cfg hapart
  | remove name =>
    refine ⟨h.remove name, ?_⟩
    rw [Scheduled.step, Store.removeLocked]
    split
    · exact fun hcbs => absurd hcbs (List.cons_ne_nil _ _)
    · exact hgone
  | byname name =>
    refine ⟨h.byname name fun d hd => ?_, ?_⟩
    · rw [List.mem_append, Option.mem_toList, Store.deviceByname] at hd
      split at hd
      next e he =>
        refine hd.symm.imp id fun hde => ?_
        rw [he, Option.mem_some.mp hde]
      · exact .inl (by simpa using hd)
    · rw [Scheduled.step, Store.deviceByname]
      split
      · exact fun hcbs => absurd hcbs (List.cons_ne_nil _ _)
      · exact hgone
  | stop d =>
    rw [Scheduled.step]
    split
    · obtain ⟨-, hsame, hmem, -⟩ := h.tracks.autoeventStop d
      exact ⟨h.autoeventStop d, hgone.of_subset hsame.callbacks
        (congrArg Store.devices hsame.store) fun x hx => ((hmem x).mp hx).1⟩
    · exact ⟨h, hgone⟩
  | start d =>
    rw [Scheduled.step]
    split
    next hd =>
      obtain ⟨hnone, hfree⟩ := hapart hd
      obtain ⟨hruled, hstarted⟩ := h.autoeventStart (h.held_lt d hd) hnone hfree
      refine ⟨hruled, fun hcbs => ?_⟩
      rw [hstarted.same.callbacks] at hcbs
      rw [hcbs] at hd
      cases hd
    · exact ⟨h, hgone⟩
  | release d =>
    rw [Scheduled.step]
    split
    next hd =>
      obtain ⟨hruled, hmem, hsame⟩ := h.deviceRelease d (w.callbacks.erase d) w.requests
        fun e he => List.mem_of_mem_erase he
      refine ⟨hruled, fun hcbs x hx hnone => ?_⟩
      rw [hsame.store, Store.deviceRelease_devices] at hnone
      obtain ⟨hx', hstop⟩ := (hmem x).mp hx
      obtain ⟨ho, hrefs⟩ := hapart hd (hsame.callbacks.symm.trans hcbs) x hx' hnone
      exact hstop hrefs ho
    · exact ⟨h, hgone⟩
  | addProfile dp v =>
    refine ⟨?_, hgone⟩
    exact h.store (w.store.extends_insertProfile _) (fun _ _ => rfl) (h.wf.addProfile dp v)
      (fun _ _ hn => hn) h.held_lt
  | updateProfile dp v => exact h.updateProfile hgone hapart
  | fire a =>
    obtain ⟨-, hsame, -, hsub⟩ := h.tracks.fire a
    exact ⟨h.fire a, hgone.of_subset hsame.callbacks (congrArg Store.devices hsame.store) hsub⟩

theorem Ruled.current_of_profile (h : w.Ruled createRes) {x : Schedule} (hx : x ∈ w.active)
    {d : DeviceRef} (hd : x.profile = (w.store.device d).dev.profile) :
    x.Current createRes w.store d := by
  have hcommand := (h.tracks.of_active hx).command
  rw [hd] at hcommand
  exact ⟨hd, hcommand⟩

/-- The schedules of a device have its entries one to one. -/
theorem Tracks.countP_le (h : w.Tracks createRes) {d : DeviceRef} {ae : AutoEvent}
    {p : Schedule → Bool} (hp : ∀ x ∈ w.active, p x = true → x.owner.1 = d ∧ x.event = ae) :
    w.active.countP p ≤ (w.store.device d).dev.autos.count ae := by
  have hmem : ∀ x ∈ w.active.filter p, x ∈ w.active ∧ x.owner.1 = d ∧ x.event = ae := by
    intro x hx
    obtain ⟨hx', hpx⟩ := List.mem_filter.mp hx
    exact ⟨hx', hp x hx' hpx⟩
  have hinj : ∀ x ∈ w.active.filter p, ∀ y ∈ w.active.filter p,
      (x.event, x.owner.2) = (y.event, y.owner.2) → x = y := by
    intro x hx y hy hxy
    obtain ⟨hx', hxd, -⟩ := hmem x hx
    obtain ⟨hy', hyd, -⟩ := hmem y hy
    have howner : x.owner = y.owner := Prod.ext (hxd.trans hyd.symm) (Prod.mk.inj hxy).2
    have hattached := h.attached x hx'
    rw [howner, h.attached y hy'] at hattached
    exact (Option.some.inj hattached).symm
  have hnodup : ((w.active.filter p).map fun x => (x.event, x.owner.2)).Nodup :=
    List.Nodup.map_on (fun x hx y hy => hinj x hx y hy) (h.ids.of_map.filter p)
  have hsub : (w.active.filter p).map (fun x => (x.event, x.owner.2)) ⊆
      (w.store.device d).dev.autos.zipIdx.filter fun e => e.1 == ae := by
    intro e he
    obtain ⟨x, hx, rfl⟩ := List.mem_map.mp he
    obtain ⟨hx', hxd, hae⟩ := hmem x hx
    have hevent := (h.of_active hx').event
    rw [hxd] at hevent
    exact List.mem_filter.mpr ⟨List.mk_mem_zipIdx_iff_getElem?.mpr hevent, by simp [hae]⟩
  calc w.active.countP p
      = ((w.active.filter p).map fun x => (x.event, x.owner.2)).length := by
        rw [List.length_map, List.countP_eq_length_filter]
    _ ≤ ((w.store.device d).dev.autos.zipIdx.filter fun e => e.1 == ae).length :=
        (hnodup.subperm hsub).length_le
    _ = ((w.store.device d).dev.autos.zipIdx.map Prod.fst).count ae := by
        rw [← List.countP_eq_length_filter, List.count, List.countP_map]
        rfl
    _ = (w.store.device d).dev.autos.count ae := by rw [List.zipIdx_map_fst]

theorem Ruled.regular (h : w.Ruled createRes) (hgone : w.Gone) : w.Regular createRes where
  once name d hd ae hae := by
    apply h.tracks.countP_le
    intro x hx hp
    obtain ⟨hname, hevent⟩ := of_decide_eq_true hp
    refine ⟨h.entries x hx d ?_ ?_, hevent⟩
    · rw [hname]
      exact hd
    · rw [hevent]
      exact hae
  gone := hgone
  own x hx := h.current_of_profile hx (h.points (h.tracks.attached x hx))
  current x hx d hd := h.current_of_profile hx (h.current x hx d hd)

theorem ruled_empty : Ruled createRes {} where
  tracks := ⟨by simp, by simp, by simp, by simp, by simp, by simp⟩
  wf := Store.Wf.alloc
  held_lt := by simp
  points := by simp
  entries := by simp
  current := by simp

end Scheduled

open Scheduled

/-- In every run whose turns start no schedule beside an older one, and leave none behind, the
    schedules are regular throughout. -/
theorem schedules_regular (createRes : CreateRes) (uninit : FreshMemory) (cfg : DeviceInfo)
    (turns : List ScheduleTurn)
    (h : Run.Meets (step createRes uninit cfg) (Scheduled.Apart uninit) {} turns) :
    Run.Always (step createRes uninit cfg) (Regular createRes) {} turns := by
  refine Run.always_of_meets (I := fun w => w.Ruled createRes ∧ w.Gone) ?_ ?_ ?_ h
  · rintro w ⟨hruled, hgone⟩
    exact hruled.regular hgone
  · rintro w t ⟨hruled, hgone⟩ hapart
    exact hruled.step hgone cfg hapart
  · exact ⟨ruled_empty, fun _ x hx => absurd hx List.not_mem_nil⟩

/-- A device is removed during a request, and added again after its schedule is deleted. -/
theorem schedules_regular_readded :
    Run.Always (step (fun _ => (none, none)) (fun _ => none) {}) (Regular fun _ => (none, none)) {}
      [.addProfile reportingDevice.profile 0, .replace reportingDevice, .request "thermostat",
        .remove "thermostat", .requestEnd 0, .release 0, .replace reportingDevice] := by
  apply schedules_regular
  refine ⟨trivial, ?_, trivial, trivial, trivial, ?_, ?_, trivial⟩
  · exact fun _ x hx => absurd hx List.not_mem_nil
  · intro _ _ x hx hnone
    revert x
    decide
  · intro _ x hx hname
    revert x
    decide

/-- The device at another port. -/
def movedDevice : Device DeviceProfile :=
  { reportingDevice with
    protocols := [{ name := "modbus", properties := .map [("Port", .string "2")] }] }

/-- The device is replaced during a request: when the update callback is over, its entry has the
    schedules of both device objects. -/
theorem entry_scheduled_twice :
    ¬Run.Always (step (fun _ => (none, none)) (fun _ => none) {}) (Regular fun _ => (none, none)) {}
      [.addProfile reportingDevice.profile 0, .replace reportingDevice, .request "thermostat",
        .replace movedDevice, .release 0, .byname "thermostat", .stop 1, .start 1,
        .release 1] := by
  rintro ⟨-, -, -, -, -, -, -, -, -, h⟩
  have honce := h.once "thermostat" 1 (by decide) { resource := "temperature", interval := "10s" }
    (by decide)
  exact absurd honce (by decide)


end DeviceSdk
