import DeviceSdk.DevMap.Replace
import DeviceSdk.Opstate.Runs

/-!
# Counting failures

With `AllowedFails` set to `N`, a device that is up is to be marked down at the `N`-th
failure in a row, and not before. A row of failures starts when the device is created, at
a success, and when the device comes back up.

The counter in the device is full after a creation and after a success. Nothing refills
it when the device comes back up, and a device that is removed and added again takes over
the counter as it stands, while requests on the old object go on counting there. The law
holds in the runs where neither matters.

## Main definitions

- `consecutive` — how many failures in a row a device has had
- `Lawful` — the device was marked down at the right moments
- `Incident.Counted` — the counter is full when the device comes up, and requests end on
  the object that is in the map

## Main results

- `run_lawful` — in runs of such incidents, devices are marked down at the right moments
-/

namespace DeviceSdk

variable (sdk : Sdk) (name : String)

/-- The number of failures of a device since it was created, since its last success, and
    since it last came up. -/
def consecutive : List Happening → ℕ
  | [] => 0
  | .created n :: log => if n = name then 0 else consecutive log
  | .wentUp n :: log => if n = name then 0 else consecutive log
  | .ended n .succeeded _ _ :: log => if n = name then 0 else consecutive log
  | .ended n .failed _ _ :: log =>
    if n = name then consecutive log + 1 else consecutive log
  | _ :: log => consecutive log

/-- When the device is up and has failed `N` times in a row, it is marked down at that
    failure; and it is not marked down earlier. -/
def Lawful (N : ℕ) : List Happening → Prop
  | [] => True
  | .ended n how up down :: log =>
    (n = name →
      (how = .failed → up = true →
        consecutive name (.ended n how up down :: log) = N → down = true) ∧
      (down = true → N ≤ consecutive name (.ended n how up down :: log))) ∧ Lawful N log
  | _ :: log => Lawful N log

/-- The incidents under which the counter of a device keeps up. A request that is counted
    ends on the object in the map, a reading fails its assertion only after `N` failures,
    and the device comes up with a full counter. -/
def Incident.Counted (w : Supervision) : Incident → Prop
  | ended d how => (w.store.device d).dev.name = name →
      (how = .succeeded ∨ how = .failed → w.store.devices.lookup name = some d) ∧
      (how = .assertion → sdk.device.allowedFails.toNat ≤ consecutive name w.log)
  | replaceDevice dev => dev.name = name → dev.operatingState = .up →
      ∀ d, w.store.devices.lookup name = some d → (w.store.device d).dev.operatingState = .down →
        (w.store.device d).retries = sdk.device.allowedFails
  | _ => True

namespace Store

/-- The counter after a device was added or updated: full for a device that is new, and
    otherwise as it was. -/
theorem Wf.replaceDevice_counter {s : Store} (h : s.Wf) (uninit : FreshMemory)
    (cfg : DeviceInfo) (dev : Device DeviceProfile) :
    ∃ d, (s.replaceDevice uninit cfg dev).1.devices.lookup dev.name = some d ∧
      ((s.replaceDevice uninit cfg dev).1.device d).dev.operatingState = dev.operatingState ∧
      ((s.replaceDevice uninit cfg dev).1.device d).retries =
        ((s.devices.lookup dev.name).map fun old => (s.device old).retries).getD
          cfg.allowedFails := by
  rw [Store.replaceDevice]
  rcases replaceLocked_cases uninit cfg s dev with
    ⟨hnone, he⟩ | ⟨olddev, hold, hu, he⟩ | ⟨olddev, hold, hu, he⟩
  · rw [he]
    refine ⟨s.nextDevice, ?_, ?_, ?_⟩
    · simp [Store.releaseOption]
    · simp [Store.releaseOption, deviceDup]
    · simp [Store.releaseOption, hnone]
  · rw [he]
    refine ⟨olddev, hold, ?_, ?_⟩
    · have hsnd := updateInPlace_snd hu
      simp only [Store.releaseOption, modifyDevice_device_self, updateAt] at hsnd ⊢
      rw [hsnd]
    · simp [Store.releaseOption, hold]
  · rw [he]
    have hm := h.modifyDevice_updateAt olddev dev
    have hlt := hm.device_lt (show (s.modifyDevice olddev fun obj =>
      { obj with dev := (s.updateAt olddev dev).2.1 }).devices.lookup dev.name = some olddev
      from hold)
    obtain ⟨hdevs, hnew, -, -⟩ := readdLocked_frame uninit _ olddev dev hlt.ne
    refine ⟨s.nextDevice, ?_, ?_, ?_⟩
    · show AList.lookup dev.name (Store.deviceRelease _ olddev).devices = _
      rw [deviceRelease_devices, hdevs, AList.lookup_insert]
      rfl
    · show ((Store.deviceRelease _ olddev).device s.nextDevice).dev.operatingState = _
      rw [deviceRelease_device]
      exact congrArg (fun obj => obj.dev.operatingState) hnew
    · show ((Store.deviceRelease _ olddev).device s.nextDevice).retries = _
      rw [deviceRelease_device, hold]
      refine (congrArg (fun obj => obj.retries) hnew).trans ?_
      simp

/-- Removing a device leaves all counters alone. -/
theorem removedeviceByname_counter (s : Store) (name : String) (d : DeviceRef) :
    ((s.removedeviceByname name).1.device d).retries = (s.device d).retries := by
  rw [removedeviceByname, removeLocked]
  split
  · show ((deviceRelease _ _).device d).retries = _
    rw [deviceRelease_device, releaseProfileLocked_device]
    rfl
  · rfl

/-- What is in the map after a device was removed was there before. -/
theorem lookup_removedeviceByname {s : Store} (name n : String) {d : DeviceRef}
    (hd : (s.removedeviceByname name).1.devices.lookup n = some d) :
    s.devices.lookup n = some d := by
  rw [removedeviceByname, removeLocked] at hd
  split at hd
  · rw [show ∀ (t : Store) e, (t.releaseOption (some e)).devices = t.devices from
      deviceRelease_devices, releaseProfileLocked_devices] at hd
    exact (AList.lookup_erase_eq_some.mp hd).2
  · exact hd

theorem updateProfile_counter (s : Store) (dp : DeviceProfile) (v : ℕ) (d : DeviceRef) :
    ((s.updateProfile dp v).device d).retries = (s.device d).retries := by
  rw [updateProfile_device]
  split <;> rfl

end Store

/-- Preparing commands keeps the maps in order. -/
theorem prepare_wf {w : Supervision} (h : w.store.Wf) (d : DeviceRef) (createRes : CreateRes) :
    (w.prepare d createRes).store.Wf where
  device_name hn := h.device_name hn
  device_lt hn := h.device_lt hn
  profile_name {n p} hn := by
    show (Function.update w.store.profile _ _ p).profile.name = n
    by_cases hp : p = (w.store.device d).dev.profile
    · subst hp
      rw [Function.update_self]
      exact (prepared_name createRes _).trans (h.profile_name hn)
    · rw [Function.update_of_ne hp]
      exact h.profile_name hn
  profile_lt hn := h.profile_lt hn
  points_lt hd := h.points_lt hd

-- ════════════════════════════════════════════════════════════════════════
-- The law
-- ════════════════════════════════════════════════════════════════════════

/-- The counter in the map is `N` less the number of failures in a row, and the device was
    marked down at the right moments. -/
structure Counting (w : Supervision) : Prop where
  wf : w.store.Wf
  counter : ∀ d, w.store.devices.lookup name = some d →
    (w.store.device d).retries =
      sdk.device.allowedFails - BitVec.ofNat 32 (consecutive name w.log)
  lawful : Lawful name sdk.device.allowedFails.toNat w.log

theorem Counting.init : Counting sdk name {} where
  wf := Store.Wf.alloc
  counter d hd := by simp [Store.alloc] at hd
  lawful := trivial

/-- One more failure takes one off the counter. -/
theorem sub_ofNat_succ (N : BitVec 32) (c : ℕ) :
    N - BitVec.ofNat 32 c - 1 = N - BitVec.ofNat 32 (c + 1) := by
  rw [BitVec.ofNat_add, sub_sub]
  rfl

/-- The counter runs out at the `N`-th failure. -/
theorem sub_ofNat_toNat (N : BitVec 32) : N - BitVec.ofNat 32 N.toNat = 0 := by
  rw [BitVec.ofNat_toNat, BitVec.setWidth_eq, sub_self]

/-- A counter that has run out has counted `N` failures, or has wrapped around since. -/
theorem toNat_le_of_sub_ofNat_eq_zero {N : BitVec 32} {c : ℕ} (h : N - BitVec.ofNat 32 c = 0) :
    N.toNat ≤ c := by
  rw [sub_eq_zero.mp h, BitVec.toNat_ofNat]
  exact Nat.mod_le _ _

/-- A failure marks the device down when it uses up the counter. -/
theorem down_iff_of_failed {sdk : Sdk} (hN : sdk.device.allowedFails ≠ 0) (dev : DeviceObj) :
    Effect.setOpstate dev.dev.name .down ∈ (requestFailed sdk dev).trace ↔
      dev.retries - 1 = 0 := by
  have hseen : Effect.setOpstate dev.dev.name .down ∈ (requestFailed sdk dev).trace ↔
      Effect.setOpstate dev.dev.name .down ∈ seen (requestFailed sdk dev).trace := by
    simp [seen]
  rw [hseen, seen_requestFailed]
  constructor
  · intro hm
    by_contra hr
    rw [if_neg fun h => hr h.2] at hm
    cases hm
  · intro hr
    have hboth : sdk.device.allowedFails ≠ 0 ∧ dev.retries - 1 = 0 := ⟨hN, hr⟩
    rw [if_pos hboth]
    exact List.mem_cons_self

/-- A success does not mark the device down. -/
theorem not_down_of_succeeded (dev : DeviceObj) :
    Effect.setOpstate dev.dev.name .down ∉ (requestSucceeded sdk dev).trace := by
  rw [requestSucceeded]
  split
  · simp
  · dsimp only
    split <;> simp

section Ended

variable (w : Supervision) (d : DeviceRef) (how : Ending)

theorem ended_wf (h : w.store.Wf) : (w.ended sdk d how).store.Wf :=
  h.modifyDevice_of_dev (f := fun obj =>
    { obj with retries := (how.account sdk (w.store.device d)).dev.retries }) fun _ => rfl

theorem ended_retries_self : ((w.ended sdk d how).store.device d).retries =
    (how.account sdk (w.store.device d)).dev.retries := by
  show ((w.store.modifyDevice d fun obj => { obj with retries := _ }).device d).retries = _
  rw [Store.modifyDevice_device_self]

theorem ended_retries_of_ne {e : DeviceRef} (he : e ≠ d) :
    ((w.ended sdk d how).store.device e).retries = (w.store.device e).retries := by
  show ((w.store.modifyDevice d fun obj => { obj with retries := _ }).device e).retries = _
  rw [Store.modifyDevice_device_of_ne _ _ he]

end Ended

section Steps

variable {sdk name} {w : Supervision}

/-- A request on another device does not count. -/
theorem Counting.ended_other (h : Counting sdk name w) {d : DeviceRef} {how : Ending}
    (hname : (w.store.device d).dev.name ≠ name) : Counting sdk name (w.ended sdk d how) where
  wf := ended_wf sdk w d how h.wf
  counter e he := by
    have hne : e ≠ d := by
      rintro rfl
      exact hname (h.wf.device_name he)
    have hcount : consecutive name (w.ended sdk d how).log = consecutive name w.log := by
      cases how <;> simp [Supervision.ended, consecutive, hname]
    rw [hcount, ended_retries_of_ne sdk w d how hne]
    exact h.counter e he
  lawful := ⟨fun hn => absurd hn hname, h.lawful⟩

/-- A request that is not counted changes no counter. -/
theorem Counting.ended_uncounted (h : Counting sdk name w) {d : DeviceRef} {how : Ending}
    (hretries : (how.account sdk (w.store.device d)).dev.retries = (w.store.device d).retries)
    (hcount : consecutive name (w.ended sdk d how).log = consecutive name w.log)
    (hlaw : Lawful name sdk.device.allowedFails.toNat (w.ended sdk d how).log) :
    Counting sdk name (w.ended sdk d how) where
  wf := ended_wf sdk w d how h.wf
  counter e he := by
    rw [hcount]
    by_cases hed : e = d
    · subst hed
      rw [ended_retries_self, hretries]
      exact h.counter e he
    · rw [ended_retries_of_ne sdk w d how hed]
      exact h.counter e he
  lawful := hlaw

/-- A request that is counted on the object in the map. -/
theorem Counting.ended_counted (h : Counting sdk name w) {d : DeviceRef} {how : Ending}
    (hd : w.store.devices.lookup name = some d)
    (hretries : (how.account sdk (w.store.device d)).dev.retries =
      sdk.device.allowedFails - BitVec.ofNat 32 (consecutive name (w.ended sdk d how).log))
    (hlaw : Lawful name sdk.device.allowedFails.toNat (w.ended sdk d how).log) :
    Counting sdk name (w.ended sdk d how) where
  wf := ended_wf sdk w d how h.wf
  counter e he := by
    obtain rfl : d = e := Option.some.inj (hd.symm.trans he)
    rw [ended_retries_self, hretries]
  lawful := hlaw

/-- A request that ends keeps the law, if it is counted where it should be. -/
theorem Counting.ended (hN : sdk.device.allowedFails ≠ 0) (h : Counting sdk name w)
    {d : DeviceRef} {how : Ending} (hc : (Incident.ended d how).Counted sdk name w) :
    Counting sdk name (w.ended sdk d how) := by
  by_cases hname : (w.store.device d).dev.name = name
  swap
  · exact h.ended_other hname
  obtain ⟨hmapped, hassert⟩ := hc hname
  cases how with
  | succeeded =>
    refine h.ended_counted (hmapped (Or.inl rfl)) ?_ ⟨fun _ => ⟨by simp, ?_⟩, h.lawful⟩
    · have hzero : consecutive name (w.ended sdk d .succeeded).log = 0 := by
        simp [Supervision.ended, consecutive, hname]
      rw [hzero, Ending.account, requestSucceeded, if_neg hN]
      exact (sub_zero _).symm
    · intro hdown
      exact absurd (of_decide_eq_true hdown) (not_down_of_succeeded sdk _)
  | failed =>
    have hd := hmapped (Or.inr rfl)
    have hsucc : ∀ up down, consecutive name
        (.ended (w.store.device d).dev.name .failed up down :: w.log) =
          consecutive name w.log + 1 := by
      intro up down
      simp [consecutive, hname]
    have hretries : (w.store.device d).retries - 1 =
        sdk.device.allowedFails - BitVec.ofNat 32 (consecutive name w.log + 1) := by
      rw [h.counter d hd, sub_ofNat_succ]
    refine h.ended_counted hd ?_ ⟨fun _ => ⟨fun _ _ hlast => ?_, fun hdown => ?_⟩, h.lawful⟩
    · have hfailed : (requestFailed sdk (w.store.device d)).dev.retries =
          (w.store.device d).retries - 1 := by
        rw [requestFailed, if_neg hN]
        dsimp only
        split <;> rfl
      exact hfailed.trans (hretries.trans (by rw [Supervision.ended, hsucc]))
    · -- the `N`-th failure in a row
      rw [hsucc] at hlast
      rw [decide_eq_true_eq]
      refine (down_iff_of_failed hN _).mpr ?_
      rw [hretries, hlast, sub_ofNat_toNat]
    · rw [hsucc]
      have hzero := (down_iff_of_failed hN _).mp (of_decide_eq_true hdown)
      rw [hretries] at hzero
      exact toNat_le_of_sub_ofNat_eq_zero hzero
  | assertion =>
    have hsame : consecutive name (w.ended sdk d .assertion).log = consecutive name w.log := rfl
    refine h.ended_uncounted rfl hsame ⟨fun _ => ⟨by simp, fun _ => ?_⟩, h.lawful⟩
    exact hassert rfl
  | unaccounted =>
    refine h.ended_uncounted rfl rfl ⟨fun _ => ⟨by simp, fun hdown => ?_⟩, h.lawful⟩
    simp [Ending.account] at hdown

/-- A step that leaves the counter and the row of failures of the device alone. -/
theorem Counting.of_same (h : Counting sdk name w) {w' : Supervision} (hwf : w'.store.Wf)
    (hsame : ∀ d, w'.store.devices.lookup name = some d →
      w.store.devices.lookup name = some d ∧
        (w'.store.device d).retries = (w.store.device d).retries)
    (hcount : consecutive name w'.log = consecutive name w.log)
    (hlaw : Lawful name sdk.device.allowedFails.toNat w'.log) : Counting sdk name w' where
  wf := hwf
  counter d hd := by
    obtain ⟨hd', hr⟩ := hsame d hd
    rw [hr, hcount]
    exact h.counter d hd'
  lawful := hlaw

theorem lawful_stateChange (n : String) (before after : Option OperatingState) (N : ℕ)
    (log : List Happening) :
    Lawful name N (stateChange n before after ++ log) ↔ Lawful name N log := by
  unfold stateChange
  split <;> rfl

theorem consecutive_stateChange_of_ne {n : String} (hn : n ≠ name)
    (before after : Option OperatingState) (log : List Happening) :
    consecutive name (stateChange n before after ++ log) = consecutive name log := by
  unfold stateChange
  split <;> simp [consecutive, hn]

/-- A callback that adds or updates a device keeps the law, if a device comes up with a full
    counter. -/
theorem Counting.replaceDevice (uninit : FreshMemory) (h : Counting sdk name w)
    {dev : Device DeviceProfile} (hc : (Incident.replaceDevice dev).Counted sdk name w) :
    Counting sdk name (w.step sdk uninit (.replaceDevice dev)) := by
  have hwf := h.wf.replaceDevice uninit sdk.device dev
  have hlaw : Lawful name sdk.device.allowedFails.toNat
      (w.step sdk uninit (.replaceDevice dev)).log :=
    (lawful_stateChange _ _ _ _ _).mpr h.lawful
  by_cases hname : dev.name = name
  swap
  · obtain ⟨hlookup, hobj⟩ := h.wf.replaceDevice_sameAt uninit sdk.device dev (Ne.symm hname)
    refine h.of_same hwf (fun d hd => ?_) (consecutive_stateChange_of_ne hname _ _ _) hlaw
    have hd' : w.store.devices.lookup name = some d := hlookup.symm.trans hd
    exact ⟨hd', congrArg DeviceObj.retries (hobj d hd').1⟩
  subst hname
  obtain ⟨d', hd', hop, hretries⟩ := h.wf.replaceDevice_counter uninit sdk.device dev
  have hafter : (w.store.replaceDevice uninit sdk.device dev).1.opstate dev.name =
      some dev.operatingState := by
    rw [Store.opstate, hd', Option.map_some, hop]
  refine ⟨hwf, fun e he => ?_, hlaw⟩
  obtain rfl : d' = e := Option.some.inj (hd'.symm.trans he)
  refine hretries.trans ?_
  have hlog : (w.step sdk uninit (.replaceDevice dev)).log =
      stateChange dev.name (w.store.opstate dev.name) (some dev.operatingState) ++ w.log := by
    rw [← hafter]
    rfl
  rw [hlog, Store.opstate]
  cases hold : w.store.devices.lookup dev.name with
  | none =>
    -- created
    simp [stateChange, consecutive]
  | some old =>
    have hcounter := h.counter old hold
    rw [Option.map_some, Option.map_some, Option.getD_some]
    cases hup : dev.operatingState with
    | down =>
      rw [hcounter]
      cases (w.store.device old).dev.operatingState <;> rfl
    | up =>
      cases hdown : (w.store.device old).dev.operatingState with
      | up =>
        rw [hcounter]
        rfl
      | down =>
        -- the device comes up
        rw [hc rfl hup old hold hdown]
        simp [stateChange, consecutive]

/-- A probe is not a request, and leaves the device as it is. -/
theorem Counting.fires (h : Counting sdk name w) (n : String) (createRes : CreateRes) :
    Counting sdk name (w.fires n createRes) := by
  have hstore := w.fires_store n createRes
  have hlog : (w.fires n createRes).log = w.log ∨
      ∃ sent commands, (w.fires n createRes).log = .probed sent commands :: w.log := by
    rw [Supervision.fires]
    dsimp only
    split
    · exact Or.inl rfl
    · split
      · exact Or.inl rfl
      · exact Or.inr ⟨_, _, rfl⟩
  refine h.of_same (by rw [hstore]; exact h.wf) (fun d hd => ?_) ?_ ?_
  · rw [hstore] at hd ⊢
    exact ⟨hd, rfl⟩
  · rcases hlog with hl | ⟨sent, commands, hl⟩
    · rw [hl]
    · rw [hl]
      rfl
  · rcases hlog with hl | ⟨sent, commands, hl⟩
    · rw [hl]
      exact h.lawful
    · rw [hl]
      exact h.lawful

/-- A step keeps the law, if it is counted as it should be. -/
theorem Counting.step (hN : sdk.device.allowedFails ≠ 0) (uninit : FreshMemory)
    (h : Counting sdk name w) (i : Incident) (hc : i.Counted sdk name w) :
    Counting sdk name (w.step sdk uninit i) := by
  cases i with
  | ended d how => exact h.ended hN hc
  | replaceDevice dev => exact h.replaceDevice uninit hc
  | removeDevice n =>
    refine h.of_same ((h.wf.removeLocked n).releaseOption _) (fun d hd => ?_) rfl h.lawful
    exact ⟨Store.lookup_removedeviceByname n name hd,
      Store.removedeviceByname_counter w.store n d⟩
  | updateProfile dp v =>
    refine h.of_same (h.wf.updateProfile dp v) (fun d hd => ?_) rfl h.lawful
    have hdevices := (Store.updateProfile_frame w.store dp v).1
    exact ⟨hdevices ▸ hd, Store.updateProfile_counter w.store dp v d⟩
  | prepare d createRes =>
    exact h.of_same (prepare_wf h.wf d createRes) (fun _ hd => ⟨hd, rfl⟩) rfl h.lawful
  | fires n createRes =>
    show Counting sdk name (if n ∈ w.pending then w.fires n createRes else w)
    split
    · exact h.fires n createRes
    · exact h
  | marked n =>
    show Counting sdk name (if n ∈ w.marking then w.marked n else w)
    split
    · exact h.of_same h.wf (fun _ hd => ⟨hd, rfl⟩) rfl h.lawful
    · exact h
  | answered n responsive =>
    show Counting sdk name (if n ∈ w.probing then w.answered n responsive else w)
    split
    · exact h.of_same h.wf (fun _ hd => ⟨hd, rfl⟩) rfl h.lawful
    · exact h

end Steps

/-- In every run in which requests end on the device in the map and the device comes up
    with a full counter, the device is marked down at the `N`-th failure in a row when it
    is up, and never before. -/
theorem run_lawful (hN : sdk.device.allowedFails ≠ 0) (uninit : FreshMemory)
    (incidents : List Incident)
    (hrun : Run.Meets (Supervision.step sdk uninit) (fun w i => i.Counted sdk name w) {}
      incidents) :
    Run.Always (Supervision.step sdk uninit)
      (fun w => Lawful name sdk.device.allowedFails.toNat w.log) {} incidents :=
  Run.always_of_meets (I := Counting sdk name) (fun _ h => h.lawful)
    (fun _ i h hc => h.step hN uninit i hc) (Counting.init sdk name) hrun

/-- A service that allows for `N` failures. -/
def allowing (N : BitVec 32) : Sdk :=
  { sampleSdk with device := { allowedFails := N, devDowntime := 60 } }

/-- A sensor, up or down. -/
def flakySensor (operatingState : OperatingState) : Device DeviceProfile :=
  { name := "sensor", profile := .placeholder "thermometer", operatingState }

/-- A failure, a success, and two failures in a row. -/
def twoInARow : List Incident :=
  [.replaceDevice (flakySensor .up), .ended 0 .failed, .ended 0 .succeeded, .ended 0 .failed,
    .ended 0 .failed]

theorem run_lawful_twoInARow :
    Run.Always (Supervision.step (allowing 2) fun _ => none)
      (fun w => Lawful "sensor" (allowing 2).device.allowedFails.toNat w.log) {} twoInARow := by
  refine run_lawful (allowing 2) "sensor" (by decide) (fun _ => none) twoInARow
    ⟨?_, ?_, ?_, ?_, ?_, trivial⟩
  · intro _ _ d hd
    cases hd
  · exact fun _ => ⟨fun _ => by decide, nofun⟩
  · exact fun _ => ⟨fun _ => by decide, nofun⟩
  · exact fun _ => ⟨fun _ => by decide, nofun⟩
  · exact fun _ => ⟨fun _ => by decide, nofun⟩

/-- With one failure allowed, the sensor fails, is marked down, comes back up, and fails
    again. -/
def backAndFailing : List Incident :=
  [.replaceDevice (flakySensor .up), .ended 0 .failed, .replaceDevice (flakySensor .down),
    .replaceDevice (flakySensor .up), .ended 0 .failed]

/-- It is not marked down the second time. -/
theorem backAndFailing_unlawful :
    ¬ Run.Always (Supervision.step (allowing 1) fun _ => none)
      (fun w => Lawful "sensor" (allowing 1).device.allowedFails.toNat w.log) {}
      backAndFailing := by
  rintro ⟨-, -, -, -, -, h⟩
  have hdown := (h.1 rfl).1 rfl (by decide) (by decide)
  exact absurd hdown (by decide)

end DeviceSdk
