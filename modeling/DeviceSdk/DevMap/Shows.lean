import DeviceSdk.DevMap.Replace
import DeviceSdk.Interleave

/-!
# What the device map shows of core-metadata

Under a name the device map shows a device of core-metadata, or none. A call into `devmap.c` changes
what shows in a way that can be told from the call alone, whatever references, profiles and
addresses are behind it. So what shows under a name is an abstract state for programs over these
calls, and calls of other threads that replace or remove no device leave no trace in it.

## Main definitions

- `Reflects`, `Store.Shows` — what is stored under a name is as core-metadata has it
- `Store.SameView` — nothing of this has changed
- `view`, `sparing` — the calls as they are told of what shows under a name

## Main results

- `perform_shows`, `perform_admits`, `perform_sameView` — a call does what is told of it
-/

namespace DeviceSdk

/-- The device `e`, whose profile is called `pname`, is `dev` as far as every way to replace a
    device goes. -/
structure Reflects (e : Device ProfileRef) (pname : String) (dev : Device DeviceProfile) :
    Prop where
  name : e.name = dev.name
  description : e.description = dev.description
  labels : e.labels = dev.labels
  adminState : e.adminState = dev.adminState
  operatingState : e.operatingState = dev.operatingState
  protocols : e.protocols.Perm dev.protocols ∨ protocolsEqual e.protocols dev.protocols = true
  autos : e.autos.Perm dev.autos ∨ autoeventsEqual e.autos dev.autos = true
  profile : pname = dev.profile.name

theorem Describes.reflects {e : Device ProfileRef} {pname : String} {dev : Device DeviceProfile}
    (h : Describes e pname dev) : Reflects e pname dev :=
  ⟨h.name, h.description, h.labels, h.adminState, h.operatingState, .inl h.protocols,
    .inl h.autos, h.profile⟩

namespace Store

/-- Under `n` there is the device `dev`, or none. -/
def Shows (s : Store) (n : String) : Option (Device DeviceProfile) → Prop
  | none => s.devices.lookup n = none
  | some dev => ∃ d, s.devices.lookup n = some d ∧
      Reflects (s.device d).dev (s.profileOf d).profile.name dev

/-- What is stored under `n` has not changed, but for references and the revision of the
    profile. -/
structure SameView (s s' : Store) (n : String) : Prop where
  lookup : s'.devices.lookup n = s.devices.lookup n
  device : ∀ d, s.devices.lookup n = some d →
    ∃ p, (s'.device d).dev = { (s.device d).dev with profile := p }
  profile : ∀ d, s.devices.lookup n = some d →
    (s'.profileOf d).profile.name = (s.profileOf d).profile.name

theorem SameView.refl (s : Store) (n : String) : SameView s s n :=
  ⟨rfl, fun _ _ => ⟨_, rfl⟩, fun _ _ => rfl⟩

theorem SameView.trans {s s' s'' : Store} {n : String} (h : SameView s s' n)
    (h' : SameView s' s'' n) : SameView s s'' n where
  lookup := h'.lookup.trans h.lookup
  device d hd := by
    obtain ⟨p, hp⟩ := h.device d hd
    obtain ⟨q, hq⟩ := h'.device d (h.lookup.trans hd)
    exact ⟨q, by rw [hq, hp]⟩
  profile d hd := (h'.profile d (h.lookup.trans hd)).trans (h.profile d hd)

theorem SameAt.sameView {s s' : Store} {n : String} (h : SameAt s s' n) : SameView s s' n where
  lookup := h.1
  device d hd := ⟨(s.device d).dev.profile, by rw [(h.2 d hd).1]⟩
  profile d hd := by rw [(h.2 d hd).2]

/-- What shows is the same. -/
theorem SameView.shows {s s' : Store} {n : String} (h : SameView s s' n)
    {o : Option (Device DeviceProfile)} (hs : s.Shows n o) : s'.Shows n o := by
  cases o with
  | none => exact h.lookup.trans hs
  | some dev =>
    obtain ⟨d, hd, hr⟩ := hs
    obtain ⟨p, hp⟩ := h.device d hd
    refine ⟨d, h.lookup.trans hd, ?_⟩
    rw [hp, h.profile d hd]
    exact ⟨hr.name, hr.description, hr.labels, hr.adminState, hr.operatingState, hr.protocols,
      hr.autos, hr.profile⟩

theorem SameView.shows_iff {s s' : Store} {n : String} (h : SameView s s' n)
    {o : Option (Device DeviceProfile)} : s'.Shows n o ↔ s.Shows n o := by
  refine ⟨fun hs => ?_, h.shows⟩
  cases o with
  | none => exact h.lookup.symm.trans hs
  | some dev =>
    obtain ⟨d, hd, hr⟩ := hs
    rw [h.lookup] at hd
    obtain ⟨p, hp⟩ := h.device d hd
    rw [hp, h.profile d hd] at hr
    exact ⟨d, hd, hr.name, hr.description, hr.labels, hr.adminState, hr.operatingState,
      hr.protocols, hr.autos, hr.profile⟩

-- ════════════════════════════════════════════════════════════════════════
-- The calls into the device map
-- ════════════════════════════════════════════════════════════════════════

/-- Only the count of references to a device, or nothing, is written. -/
theorem sameView_of_dev {s t : Store} (hdevices : t.devices = s.devices)
    (hdev : ∀ d, (t.device d).dev = (s.device d).dev)
    (hprofile : ∀ p, (t.profile p).profile = (s.profile p).profile) (n : String) :
    SameView s t n where
  lookup := by rw [hdevices]
  device d _ := ⟨(s.device d).dev.profile, by rw [hdev]⟩
  profile d _ := by rw [profileOf, hdev, hprofile, profileOf]

theorem sameView_call (s : Store) (cs : List AutoeventCall) (n : String) :
    SameView s (s.call cs) n :=
  sameView_of_dev (s := s) (t := s.call cs) rfl (fun _ => rfl) (fun _ => rfl) n

theorem sameView_release (s : Store) (d : DeviceRef) (n : String) :
    SameView s (s.deviceRelease d) n := by
  refine sameView_of_dev (deviceRelease_devices s d) (fun e => ?_) (fun p => ?_) n
  · rw [deviceRelease_device]
  · rw [deviceRelease_profile]

theorem sameView_deviceByname (s : Store) (name n : String) :
    SameView s (s.deviceByname name).1 n := by
  rw [deviceByname]
  split
  · next d _ =>
    refine ⟨rfl, fun e _ => ⟨(s.device e).dev.profile, ?_⟩, fun e _ => ?_⟩
    · by_cases he : e = d
      · rw [he, modifyDevice_device_self]
      · rw [modifyDevice_device_of_ne s _ he]
    · by_cases he : e = d
      · rw [he, profileOf, modifyDevice_device_self]
        rfl
      · rw [profileOf, modifyDevice_device_of_ne s _ he]
        rfl
  · exact SameView.refl s n

theorem Wf.sameView_addProfile {s : Store} (h : s.Wf) (dp : DeviceProfile) (v : ℕ) (n : String) :
    SameView s (s.addProfile dp v) n where
  lookup := rfl
  device d _ := ⟨(s.device d).dev.profile, rfl⟩
  profile d hd := by
    have hne : (s.device d).dev.profile ≠ s.nextProfile := (h.points_lt (h.device_lt hd)).ne
    change (Function.update s.profile s.nextProfile _ (s.device d).dev.profile).profile.name = _
    rw [Function.update_of_ne hne]
    rfl

/-- A device is turned to a revision of its profile, which has the same name. -/
theorem Wf.sameView_updateProfile {s : Store} (h : s.Wf) (dp : DeviceProfile) (v : ℕ)
    (n : String) : SameView s (s.updateProfile dp v) n where
  lookup := by rw [(updateProfile_frame s dp v).1]
  device d hd := by
    rw [updateProfile_device]
    split
    · exact ⟨s.nextProfile, rfl⟩
    · exact ⟨(s.device d).dev.profile, rfl⟩
  profile d hd := by
    have hne : (s.device d).dev.profile ≠ s.nextProfile := (h.points_lt (h.device_lt hd)).ne
    rw [profileOf, updateProfile_device]
    split
    · next hmoved =>
      rw [h.updateProfile_profile, if_pos rfl]
      exact (h.profile_name hmoved.2).symm
    · rw [h.updateProfile_profile, if_neg hne, profileOf]
      split
      · rfl
      · rfl

/-- Under other names nothing changes when a device is removed. -/
theorem Wf.sameView_removeLocked {s : Store} (h : s.Wf) {name n : String} (hn : n ≠ name) :
    SameView s (s.removeLocked name).1 n := by
  rw [Store.removeLocked]
  split
  · next olddev hold =>
    refine ⟨?_, fun d _ => ⟨(s.device d).dev.profile, ?_⟩, fun d _ => ?_⟩
    · rw [releaseProfileLocked_devices, Store.removeFromMap, h.device_name hold, Store.eraseDevice,
        AList.lookup_erase_ne hn]
    · rw [releaseProfileLocked_device]
      rfl
    · rw [profileOf, releaseProfileLocked_device, releaseProfileLocked_profile]
      rfl
  · exact SameView.refl s n

theorem Wf.removeLocked_shows {s : Store} (h : s.Wf) (name : String) :
    (s.removeLocked name).1.Shows name none := by
  rw [Store.removeLocked]
  split
  · next olddev hold =>
    rw [Shows, releaseProfileLocked_devices, Store.removeFromMap, h.device_name hold, Store.eraseDevice,
      AList.lookup_erase]
  · next hnone => exact hnone

theorem Wf.sameView_replaceLocked {s : Store} (h : s.Wf) (uninit : FreshMemory)
    (cfg : DeviceInfo) (dev : Device DeviceProfile) {n : String} (hn : n ≠ dev.name) :
    SameView s (s.replaceLocked uninit cfg dev).1 n := by
  rcases replaceLocked_cases uninit cfg s dev with
    ⟨_, he⟩ | ⟨olddev, hold, _, he⟩ | ⟨olddev, hold, _, he⟩
  · rw [he]
    exact (h.sameAt_addLocked uninit dev _ hn).sameView
  · rw [he]
    exact (h.sameAt_modifyDevice hold (fun obj =>
      { obj with dev := (s.updateAt olddev dev).2.1 }) hn).sameView
  · rw [he]
    have hm := h.modifyDevice_updateAt olddev dev
    exact ((h.sameAt_modifyDevice hold (fun obj =>
      { obj with dev := (s.updateAt olddev dev).2.1 }) hn).trans
      (hm.sameAt_readdLocked uninit hold hn)).sameView

/-- A device that is replaced shows, whichever route is taken. -/
theorem Wf.replaceLocked_shows {s : Store} (h : s.Wf) (uninit : FreshMemory)
    (cfg : DeviceInfo) (dev : Device DeviceProfile) :
    (s.replaceLocked uninit cfg dev).1.Shows dev.name (some dev) := by
  rcases replaceLocked_cases uninit cfg s dev with
    ⟨_, he⟩ | ⟨olddev, hold, hu, he⟩ | ⟨olddev, hold, hu, he⟩
  · rw [he]
    exact ⟨s.nextDevice, by rw [addLocked_devices, AList.lookup_insert],
      (h.addLocked_holds uninit dev _).reflects⟩
  · rw [he]
    obtain ⟨hprots, hname, hautos⟩ := (updateInPlace_fst _ _ _ _).mp hu
    have hsnd : (s.updateAt olddev dev).2.1 = _ := updateInPlace_snd hu
    refine ⟨olddev, hold, ?_⟩
    have hprof : (s.updateAt olddev dev).2.1.profile = (s.device olddev).dev.profile := by
      rw [hsnd]
    rw [profileOf, modifyDevice_device_self]
    simp only [hprof]
    rw [hsnd]
    exact ⟨h.device_name hold, rfl, rfl, rfl, rfl, .inr hprots, .inr hautos, hname⟩
  · rw [he]
    have hm := h.modifyDevice_updateAt olddev dev
    have hold' : (s.modifyDevice olddev fun obj =>
        { obj with dev := (s.updateAt olddev dev).2.1 }).devices.lookup dev.name =
        some olddev := hold
    obtain ⟨hdevs, -⟩ := readdLocked_frame uninit _ olddev dev (hm.device_lt hold').ne
    have hholds := hm.readdLocked_holds uninit hold'
    rw [Holds, profileOf, deviceRelease_device, deviceRelease_profile] at hholds
    exact ⟨s.nextDevice, by rw [hdevs, AList.lookup_insert]; rfl, hholds.reflects⟩

-- ════════════════════════════════════════════════════════════════════════
-- The list of devices at start-up
-- ════════════════════════════════════════════════════════════════════════

theorem Wf.populateDevice_shows {s : Store} (h : s.Wf) (uninit : FreshMemory)
    (cfg : DeviceInfo) (d : Device DeviceProfile) {n : String} {o : Option (Device DeviceProfile)}
    (hs : s.Shows n o) :
    (s.populateDevice uninit cfg d).Shows n (o.or (if d.name = n then some d else none)) := by
  rw [Store.populateDevice]
  split
  · next habsent =>
    by_cases hn : n = d.name
    · subst hn
      obtain rfl : o = none := by
        cases o with
        | none => rfl
        | some dev =>
          obtain ⟨_, hstored, -⟩ := hs
          exact absurd (hstored.symm.trans habsent) (by simp)
      rw [if_pos rfl]
      exact ⟨s.nextDevice, by rw [addLocked_devices, AList.lookup_insert],
        (h.addLocked_holds uninit d _).reflects⟩
    · rw [if_neg (Ne.symm hn), Option.or_none]
      exact (h.sameAt_addLocked uninit d _ hn).sameView.shows hs
  · next hpresent =>
    cases o with
    | some dev => exact hs
    | none =>
      rw [if_neg, Option.none_or]
      · exact hs
      · rintro rfl
        exact hpresent hs

/-- A device that is there stays; of several devices of one name the first is entered. -/
theorem Wf.populateDevices_shows {s : Store} (h : s.Wf) (uninit : FreshMemory)
    (cfg : DeviceInfo) (devs : List (Device DeviceProfile)) {n : String}
    {o : Option (Device DeviceProfile)} (hs : s.Shows n o) :
    (s.populateDevices uninit cfg devs).Shows n
      (o.or (devs.find? fun d => decide (d.name = n))) := by
  induction devs generalizing s o with
  | nil => simpa [Store.populateDevices] using hs
  | cons d devs ih =>
    have hd := ih (h.populateDevice uninit cfg d) (h.populateDevice_shows uninit cfg d hs)
    rw [Option.or_assoc] at hd
    have hfind : ((d :: devs).find? fun d => decide (d.name = n)) =
        (if d.name = n then some d else none).or (devs.find? fun d => decide (d.name = n)) := by
      by_cases hn : d.name = n
      · simp [hn]
      · simp [hn]
    rw [hfind]
    exact hd

end Store

-- ════════════════════════════════════════════════════════════════════════
-- The calls, as they are told of one name
-- ════════════════════════════════════════════════════════════════════════

open Prog DevMapCall

namespace DevMapCall

/-- What shows under `n` after a call. -/
def effect (n : String) : DevMapCall → Option (Device DeviceProfile) →
    Option (Device DeviceProfile)
  | populate devs, o => o.or (devs.find? fun d => decide (d.name = n))
  | replace dev, o => if dev.name = n then some dev else o
  | remove name, o => if name = n then none else o
  | _, o => o

/-- A device that is found has the name it was looked up by, and one is found under `n` if there is
    one. -/
def Admits (n : String) : (a : DevMapCall) → Option (Device DeviceProfile) → a.Reply → Prop
  | byname name, o, r =>
    (∀ d dev, r = some (d, dev) → dev.name = name) ∧ (name = n → r = none → o = none)
  | _, _, _ => True

/-- The call changes nothing that shows under `n`. -/
def Spares (n : String) : DevMapCall → Prop
  | populate _ => False
  | replace dev => dev.name ≠ n
  | remove name => name ≠ n
  | _ => True

/-- The call changes nothing that shows under any name. -/
def Silent : DevMapCall → Prop
  | populate _ => False
  | replace _ => False
  | remove _ => False
  | _ => True

instance (a : DevMapCall) : Decidable a.Silent := by
  cases a
  all_goals first | exact .isTrue trivial | exact .isFalse id

theorem Silent.spares {a : DevMapCall} (ha : a.Silent) (n : String) : a.Spares n := by
  cases a with
  | populate devs => exact ha
  | replace dev => exact ha.elim
  | remove name => exact ha.elim
  | _ => trivial

variable (svc : Service)

theorem perform_wf (a : DevMapCall) {s : Store} (h : s.Wf) : (perform svc a s).1.Wf :=
  performIn_wf svc a { store := s } h

theorem perform_sameView {a : DevMapCall} {n : String} (ha : a.Spares n) {s : Store} (h : s.Wf) :
    s.SameView (perform svc a s).1 n := by
  cases a with
  | profile name => exact Store.SameView.refl s n
  | addProfile dp v => exact h.sameView_addProfile dp v n
  | updateProfile dp v => exact h.sameView_updateProfile dp v n
  | populate devs => exact ha.elim
  | replace dev => exact h.sameView_replaceLocked svc.uninit svc.device dev (Ne.symm ha)
  | remove name => exact h.sameView_removeLocked (Ne.symm ha)
  | byname name => exact Store.sameView_deviceByname s name n
  | release d => exact Store.sameView_release s d n
  | restart d => exact Store.sameView_call s _ n
  | notify notice => exact Store.SameView.refl s n

theorem effect_of_spares {a : DevMapCall} {n : String} (ha : a.Spares n)
    (o : Option (Device DeviceProfile)) : a.effect n o = o := by
  cases a with
  | populate devs => exact ha.elim
  | replace dev => exact if_neg ha
  | remove name => exact if_neg ha
  | _ => rfl

/-- A call does to the device map what is told of it. -/
theorem perform_shows (a : DevMapCall) {n : String} {s : Store} (h : s.Wf)
    {o : Option (Device DeviceProfile)} (hs : s.Shows n o) :
    (perform svc a s).1.Shows n (a.effect n o) := by
  by_cases ha : a.Spares n
  · rw [effect_of_spares ha]
    exact (perform_sameView svc ha h).shows hs
  · cases a with
    | populate devs => exact h.populateDevices_shows svc.uninit svc.device devs hs
    | replace dev =>
      obtain rfl : dev.name = n := not_not.mp ha
      rw [effect, if_pos rfl]
      exact h.replaceLocked_shows svc.uninit svc.device dev
    | remove name =>
      obtain rfl : name = n := not_not.mp ha
      rw [effect, if_pos rfl]
      exact h.removeLocked_shows name
    | _ => exact absurd trivial ha

theorem perform_admits (a : DevMapCall) {n : String} {s : Store} (h : s.Wf)
    {o : Option (Device DeviceProfile)} (hs : s.Shows n o) : a.Admits n o (perform svc a s).2 := by
  cases a with
  | byname name =>
    simp only [Admits, perform, Store.deviceByname]
    cases hl : s.devices.lookup name with
    | none =>
      refine ⟨by simp, ?_⟩
      rintro rfl -
      cases o with
      | none => rfl
      | some dev =>
        obtain ⟨_, hstored, -⟩ := hs
        exact absurd (hl.symm.trans hstored) (by simp)
    | some d =>
      refine ⟨?_, by simp⟩
      rintro e dev he
      cases he
      exact h.device_name hl
  | _ => trivial

end DevMapCall

/-- What the calls do to what shows under `n`. -/
def view (n : String) : Abstraction DevMapCall DevMapCall.Reply (Option (Device DeviceProfile)) where
  admits := DevMapCall.Admits n
  effect a _ := a.effect n

/-- Only calls that spare `n` are allowed. -/
def sparing (n : String) : Abstraction DevMapCall DevMapCall.Reply Unit where
  allows a _ := a.Spares n
  admits a _ r := ∃ o, a.Admits n o r
  effect _ _ _ := ()

end DeviceSdk
