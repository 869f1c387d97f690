import DeviceSdk.DevMap.Linked
import DeviceSdk.Lib.Run

/-!
# Who frees a profile

A device is counted: the device map has one reference to it, and every request that
works on it has one. A profile is not counted. It is freed when an update displaces it
from the profile map, or together with its owner, the last device in the map to use
it. Devices that have left the map while a request holds on to them are not considered
in either case, and can be left with a freed profile.

The parties here are the holders of references: `held` lists the references that are
still to be released, by a request that got one or by the thread that took a device out
of the map. Reference counts and ownership are exact in every state; no profile is
freed twice; and a run leaves no live device with a freed profile exactly when, at each
turn that frees a profile, no live device outside the map uses it.

## Main definitions

- `Shared` — the device map and the references that are held
- `Turn` — the turns of the parties, with `Turn.step`
- `Shared.Counted` — the invariant
- `Shared.Sound` — no live device has a freed profile, no profile is freed twice

## Main results

- `turns_sound_iff` — which runs are sound
-/

namespace DeviceSdk

namespace Store

/-- Each profile has at most one owner, and was freed if its owner was. -/
structure Owned (s : Store) : Prop where
  unique : ∀ {d e}, (s.device d).ownprofile = true → (s.device e).ownprofile = true →
    (s.device d).dev.profile = (s.device e).dev.profile → d = e
  frees : ∀ {d}, (s.device d).ownprofile = true →
    (s.profileOf d).frees = if (s.device d).refs = 0 then 1 else 0

theorem Owned.alloc : Store.alloc.Owned where
  unique := by intro d e hd; simp [Store.alloc, default] at hd
  frees := by intro d hd; simp [Store.alloc, default] at hd

/-- A write to a device that leaves alone what ownership depends on. -/
theorem Owned.modifyDevice {s : Store} (h : s.Owned) {d : DeviceRef}
    {f : DeviceObj → DeviceObj}
    (hp : (f (s.device d)).dev.profile = (s.device d).dev.profile)
    (ho : (f (s.device d)).ownprofile = (s.device d).ownprofile)
    (hr : (f (s.device d)).refs = 0 ↔ (s.device d).refs = 0) :
    (s.modifyDevice d f).Owned := by
  have hsame : ∀ e, ((s.modifyDevice d f).device e).dev.profile = (s.device e).dev.profile ∧
      ((s.modifyDevice d f).device e).ownprofile = (s.device e).ownprofile ∧
      (((s.modifyDevice d f).device e).refs = 0 ↔ (s.device e).refs = 0) := by
    intro e
    by_cases he : e = d
    · subst he
      simpa [Store.modifyDevice] using ⟨hp, ho, hr⟩
    · simp [Store.modifyDevice, he]
  constructor
  · intro d e hd he hde
    rw [(hsame d).2.1] at hd
    rw [(hsame e).2.1] at he
    rw [(hsame d).1, (hsame e).1] at hde
    exact h.unique hd he hde
  · intro e he
    rw [(hsame e).2.1] at he
    rw [profileOf, (hsame e).1]
    simp only [(hsame e).2.2]
    exact h.frees he

theorem Owned.addLocked {s : Store} (h : s.Owned) (hl : s.Linked) (uninit : FreshMemory)
    (newdev : Device DeviceProfile) (retries : BitVec 32) :
    (s.addLocked uninit newdev retries).Owned := by
  constructor
  · intro d e hd he hde
    rw [(addLocked_device_of_own hd).2, (addLocked_device_of_own he).2] at hde
    rw [(addLocked_device_of_own hd).2] at hd
    rw [(addLocked_device_of_own he).2] at he
    exact h.unique hd he hde
  · intro d hd
    have hsame := (addLocked_device_of_own hd).2
    rw [hsame] at hd
    rw [hl.wf.profileOf_addLocked_old uninit newdev retries (hl.own_lt hd), hsame]
    exact h.frees hd

/-- The profile of a device that has left the map, when it was in the profile map, had
    no owner yet. -/
theorem Owned.releaseProfileLocked {s : Store} (h : s.Owned) (hl : s.Linked)
    {olddev : DeviceRef} (hrefs : (s.device olddev).refs ≠ 0)
    (hlink : s.profiles.lookup (s.profileOf olddev).profile.name =
      some (s.device olddev).dev.profile) :
    (s.releaseProfileLocked olddev).Owned := by
  have hown : ∀ {d}, ((s.releaseProfileLocked olddev).device d).ownprofile = true →
      (s.device d).ownprofile = true ∨ d = olddev := by
    intro d hd
    rw [releaseProfileLocked_device] at hd
    simp only [Bool.or_eq_true, Bool.and_eq_true, decide_eq_true_eq] at hd
    exact hd.imp_right And.left
  have hnot : ∀ {e}, (s.device e).ownprofile = true →
      (s.device e).dev.profile ≠ (s.device olddev).dev.profile := by
    intro e he hc
    exact hl.own_notin he _ (hc ▸ hlink)
  have hdev : ∀ d, ((s.releaseProfileLocked olddev).device d).dev = (s.device d).dev ∧
      ((s.releaseProfileLocked olddev).device d).refs = (s.device d).refs := by
    intro d
    rw [releaseProfileLocked_device]
    exact ⟨rfl, rfl⟩
  constructor
  · intro d e hd he hde
    rw [(hdev d).1, (hdev e).1] at hde
    rcases hown hd with hd' | hd'
    · rcases hown he with he' | he'
      · exact h.unique hd' he' hde
      · exact absurd (he' ▸ hde) (hnot hd')
    · rcases hown he with he' | he'
      · exact absurd (hd' ▸ hde.symm) (hnot he')
      · exact hd'.trans he'.symm
  · intro d hd
    rw [profileOf, (hdev d).1, (hdev d).2, releaseProfileLocked_profile]
    rcases hown hd with ho | rfl
    · exact h.frees ho
    · rw [if_neg hrefs]
      exact hl.unfreed hlink

/-- The owner of a profile takes it along when its last reference goes. -/
theorem Owned.deviceRelease {s : Store} (h : s.Owned) {d : DeviceRef}
    (hrefs : (s.device d).refs ≠ 0) : (s.deviceRelease d).Owned := by
  constructor
  · intro e e' he he' hp
    rw [deviceRelease_device] at he he' hp
    rw [deviceRelease_device] at hp
    exact h.unique he he' hp
  · intro e he
    have ho : (s.device e).ownprofile = true := by
      rw [deviceRelease_device] at he
      exact he
    have hf : (s.profile (s.device e).dev.profile).frees =
        if (s.device e).refs = 0 then 1 else 0 := h.frees ho
    rw [profileOf, deviceRelease_device, deviceRelease_profile]
    dsimp only
    rw [hf]
    by_cases hde : e = d
    · subst hde
      rcases Nat.lt_or_ge 1 (s.device e).refs with hr | hr
      · have h₁ : (s.device e).refs ≠ 1 := by omega
        have h₂ : (s.device e).refs - 1 ≠ 0 := by omega
        simp [hrefs, h₁, h₂]
      · have h₁ : (s.device e).refs = 1 := by omega
        simp [ho, h₁]
    · -- another owner has another profile
      have hne : ¬ ((s.device d).refs = 1 ∧ (s.device d).ownprofile = true ∧
          (s.device d).dev.profile = (s.device e).dev.profile) :=
        fun hc => hde (h.unique ho hc.2.1 hc.2.2.symm)
      simp [hde, hne]

/-- An owned profile is not in the profile map, so an update does not meet it. -/
theorem Owned.updateProfile {s : Store} (h : s.Owned) (hl : s.Linked) (dp : DeviceProfile)
    (v : ℕ) : (s.updateProfile dp v).Owned := by
  constructor
  · intro d e hd he hde
    rw [hl.updateProfile_device_of_own hd, hl.updateProfile_device_of_own he] at hde
    rw [hl.updateProfile_device_of_own hd] at hd
    rw [hl.updateProfile_device_of_own he] at he
    exact h.unique hd he hde
  · intro d hd
    have hsame := hl.updateProfile_device_of_own hd
    rw [hsame] at hd
    rw [profileOf, hsame, hl.wf.updateProfile_profile,
      if_neg (hl.wf.points_lt (hl.own_lt hd)).ne, if_neg (hl.own_notin hd dp.name)]
    exact h.frees hd

/-- No live device has a freed profile, and no profile is freed twice. -/
structure Sound (s : Store) : Prop where
  live : ∀ d, 0 < (s.device d).refs → (s.profileOf d).frees = 0
  once : ∀ p, (s.profile p).frees ≤ 1

theorem Sound.alloc : Store.alloc.Sound where
  live := by intro d hd; simp [Store.alloc, default] at hd
  once := by intro p; simp [Store.alloc, default]

theorem Sound.modifyDevice {s : Store} (h : s.Sound) {d : DeviceRef}
    {f : DeviceObj → DeviceObj}
    (hp : (f (s.device d)).dev.profile = (s.device d).dev.profile)
    (hr : 0 < (f (s.device d)).refs → 0 < (s.device d).refs) : (s.modifyDevice d f).Sound where
  live := by
    intro e he
    by_cases hed : e = d
    · subst hed
      have he' : 0 < (f (s.device e)).refs := by simpa [Store.modifyDevice] using he
      simpa [Store.modifyDevice, profileOf, hp] using h.live e (hr he')
    · have he' : 0 < (s.device e).refs := by simpa [Store.modifyDevice, hed] using he
      simpa [Store.modifyDevice, profileOf, hed] using h.live e he'
  once := h.once

/-- The profile that a new device gets is in the profile map, and live. -/
theorem Sound.addLocked {s : Store} (h : s.Sound) (hl : s.Linked)
    (hlt : ∀ d, 0 < (s.device d).refs → d < s.nextDevice) (uninit : FreshMemory)
    (newdev : Device DeviceProfile) (retries : BitVec 32) :
    (s.addLocked uninit newdev retries).Sound := by
  have hl' := hl.addLocked uninit newdev retries
  constructor
  · intro d hd
    by_cases he : d = s.nextDevice
    · have hm : (s.addLocked uninit newdev retries).Mapped d := by
        refine ⟨newdev.name, ?_⟩
        rw [addLocked_devices, he]
        exact AList.lookup_insert s.devices
      exact hl'.unfreed (hl'.linked hm)
    · rw [addLocked_device_of_ne uninit s newdev retries he] at hd
      rw [hl.wf.profileOf_addLocked_old uninit newdev retries (hlt d hd)]
      exact h.live d hd
  · intro p
    obtain ⟨-, -, -, -, hframe⟩ := ensureProfile_frame uninit s newdev.profile
    by_cases hp : p = s.nextProfile
    · subst hp
      rw [addLocked_profile, ensureProfile]
      split
      · exact h.once _
      · simp [insertProfile]
    · rw [addLocked_profile, hframe p hp]
      exact h.once p

theorem Sound.removeFromMap {s : Store} (h : s.Sound) (olddev : DeviceRef) :
    (s.removeFromMap olddev).Sound := ⟨h.live, h.once⟩

theorem Sound.releaseProfileLocked {s : Store} (h : s.Sound) (olddev : DeviceRef) :
    (s.releaseProfileLocked olddev).Sound where
  live := by
    intro d hd
    rw [releaseProfileLocked_device] at hd
    rw [profileOf, releaseProfileLocked_device, releaseProfileLocked_profile]
    exact h.live d hd
  once := by
    intro p
    rw [releaseProfileLocked_profile]
    exact h.once p

end Store

namespace Store

theorem Wf.mapped_removeFromMap {s : Store} (h : s.Wf) {olddev d : DeviceRef}
    (hold : s.Mapped olddev) :
    (s.removeFromMap olddev).Mapped d ↔ s.Mapped d ∧ d ≠ olddev := by
  constructor
  · rintro ⟨n, hn⟩
    obtain ⟨hne, hn'⟩ := AList.lookup_erase_eq_some.mp hn
    refine ⟨⟨n, hn'⟩, ?_⟩
    rintro rfl
    exact hne (h.device_name hn').symm
  · rintro ⟨⟨n, hn⟩, hne⟩
    refine ⟨n, AList.lookup_erase_eq_some.mpr ⟨?_, hn⟩⟩
    rintro rfl
    exact hne (Option.some.inj (hn.symm.trans (h.lookup_of_mapped hold)))

theorem mapped_addLocked (uninit : FreshMemory) (s : Store) {newdev : Device DeviceProfile}
    (hnone : s.devices.lookup newdev.name = none) (retries : BitVec 32) (d : DeviceRef) :
    (s.addLocked uninit newdev retries).Mapped d ↔ d = s.nextDevice ∨ s.Mapped d := by
  refine ⟨mapped_of_addLocked, ?_⟩
  simp only [Mapped, addLocked_devices, AList.lookup_insert_eq_some]
  rintro (rfl | ⟨n, hn⟩)
  · exact ⟨newdev.name, Or.inl ⟨rfl, rfl⟩⟩
  · refine ⟨n, Or.inr ⟨?_, hn⟩⟩
    rintro rfl
    rw [hnone] at hn
    cases hn

end Store

/-- The device map, and the references to devices that are still to be released. -/
structure Shared where
  store : Store
  held : List DeviceRef := []

/-- The turns of the parties: a request gets a reference to a device; a reference is
    released; a device is replaced or removed, and the thread that does so is left with
    the reference of the map; a profile is updated. -/
inductive Turn
  | byname (name : String)
  | release (d : DeviceRef)
  | replace (dev : Device DeviceProfile)
  | remove (name : String)
  | updateProfile (dp : DeviceProfile) (v : ℕ)

namespace Turn

/-- A turn. Nobody releases a reference that is not held. -/
def step (uninit : FreshMemory) (cfg : DeviceInfo) (w : Shared) : Turn → Shared
  | byname name =>
    { store := (w.store.deviceByname name).1
      held := (w.store.deviceByname name).2.toList ++ w.held }
  | release d =>
    if d ∈ w.held then { store := w.store.deviceRelease d, held := w.held.erase d } else w
  | replace dev =>
    { store := (w.store.replaceLocked uninit cfg dev).1
      held := (w.store.replaceLocked uninit cfg dev).2.2.toList ++ w.held }
  | remove name =>
    { store := (w.store.removeLocked name).1
      held := (w.store.removeLocked name).2.toList ++ w.held }
  | updateProfile dp v => { w with store := w.store.updateProfile dp v }

/-- The condition on a turn: the profile that it frees, if any, is not in use by a live
    device outside the device map. -/
def Safe (w : Shared) : Turn → Prop
  | release d =>
    d ∈ w.held → (w.store.device d).refs = 1 → (w.store.device d).ownprofile = true →
      ∀ e, e ≠ d → 0 < (w.store.device e).refs →
        (w.store.device e).dev.profile ≠ (w.store.device d).dev.profile
  | updateProfile dp _ =>
    ∀ old, w.store.profiles.lookup dp.name = some old →
      ∀ d, 0 < (w.store.device d).refs → ¬ w.store.Mapped d →
        (w.store.device d).dev.profile ≠ old
  | _ => True

end Turn

namespace Shared

/-- Reference counts and ownership are exact. -/
structure Counted (w : Shared) : Prop where
  linked : w.store.Linked
  owned : w.store.Owned
  refs : ∀ d, (w.store.device d).refs = (if w.store.Mapped d then 1 else 0) + w.held.count d
  held_lt : ∀ d ∈ w.held, d < w.store.nextDevice

theorem Counted.alloc : Counted { store := Store.alloc } where
  linked := Store.Linked.alloc
  owned := Store.Owned.alloc
  refs := by
    intro d
    have hm : ¬ Store.alloc.Mapped d := by
      rintro ⟨n, hn⟩
      cases hn
    rw [if_neg hm]
    rfl
  held_lt := by simp

theorem Counted.lt_of_refs {w : Shared} (h : w.Counted) {d : DeviceRef}
    (hd : 0 < (w.store.device d).refs) : d < w.store.nextDevice := by
  rw [h.refs] at hd
  by_cases hm : w.store.Mapped d
  · exact h.linked.wf.device_lt (h.linked.wf.lookup_of_mapped hm)
  · have hc : 0 < w.held.count d := by simpa [hm] using hd
    exact h.held_lt d (List.count_pos_iff.mp hc)

theorem Counted.refs_of_mapped {w : Shared} (h : w.Counted) {d : DeviceRef}
    (hd : w.store.Mapped d) : (w.store.device d).refs ≠ 0 := by
  rw [h.refs, if_pos hd]
  omega

theorem Counted.refs_of_held {w : Shared} (h : w.Counted) {d : DeviceRef}
    (hd : d ∈ w.held) : (w.store.device d).refs ≠ 0 := by
  have hc := List.count_pos_iff.mpr hd
  rw [h.refs]
  omega

/-- A write to a device that changes neither its name, its profile, its owner nor its
    references. -/
theorem Counted.modifyDevice {w : Shared} (h : w.Counted) {d : DeviceRef}
    {f : DeviceObj → DeviceObj}
    (hn : (f (w.store.device d)).dev.name = (w.store.device d).dev.name)
    (hp : (f (w.store.device d)).dev.profile = (w.store.device d).dev.profile)
    (ho : (f (w.store.device d)).ownprofile = (w.store.device d).ownprofile)
    (hr : (f (w.store.device d)).refs = (w.store.device d).refs) :
    Counted { w with store := w.store.modifyDevice d f } where
  linked := h.linked.modifyDevice hn hp ho
  owned := h.owned.modifyDevice hp ho (by rw [hr])
  refs := by
    intro e
    refine Eq.trans ?_ (h.refs e)
    by_cases he : e = d
    · subst he
      simpa [Store.modifyDevice] using hr
    · simp [Store.modifyDevice, he]
  held_lt := h.held_lt

theorem Counted.modifyDevice_updateAt {w : Shared} (h : w.Counted) (olddev : DeviceRef)
    (dev : Device DeviceProfile) :
    Counted { w with store := w.store.modifyDevice olddev fun obj =>
      { obj with dev := (w.store.updateAt olddev dev).2.1 } } := by
  have hu := Store.updateInPlace_name_profile (w.store.profileOf olddev).profile.name
    (w.store.device olddev).dev dev .updatedSdk
  exact h.modifyDevice (f := fun obj => { obj with dev := (w.store.updateAt olddev dev).2.1 })
    hu.1 hu.2 rfl rfl

/-- A device that leaves the map leaves the reference of the map to a thread. -/
theorem Counted.removeFromMap {w : Shared} (h : w.Counted) {olddev : DeviceRef}
    (hold : w.store.Mapped olddev) :
    Counted { store := w.store.removeFromMap olddev, held := olddev :: w.held } where
  linked := h.linked.eraseDevice _
  owned := ⟨h.owned.unique, h.owned.frees⟩
  refs := by
    intro d
    have hd : (w.store.removeFromMap olddev).Mapped d ↔ w.store.Mapped d ∧ d ≠ olddev :=
      h.linked.wf.mapped_removeFromMap hold
    refine (h.refs d).trans ?_
    by_cases he : d = olddev
    · subst he
      simp [hd, hold]
      omega
    · simp [hd, he, Ne.symm he]
  held_lt := by
    intro d hd
    rcases List.mem_cons.mp hd with rfl | hd
    · exact h.linked.wf.device_lt (h.linked.wf.lookup_of_mapped hold)
    · exact h.held_lt d hd

/-- A new device starts with the reference of the map. -/
theorem Counted.addLocked {w : Shared} (h : w.Counted) (uninit : FreshMemory)
    {newdev : Device DeviceProfile} (hnone : w.store.devices.lookup newdev.name = none)
    (retries : BitVec 32) :
    Counted { w with store := w.store.addLocked uninit newdev retries } where
  linked := h.linked.addLocked uninit newdev retries
  owned := h.owned.addLocked h.linked uninit newdev retries
  refs := by
    intro d
    have hd := Store.mapped_addLocked uninit w.store hnone retries d
    by_cases he : d = w.store.nextDevice
    · subst he
      have hc : w.held.count w.store.nextDevice = 0 :=
        List.count_eq_zero.mpr fun hm => lt_irrefl _ (h.held_lt _ hm)
      simp [hd, hc]
    · simp only [hd, he, false_or]
      rw [Store.addLocked_device_of_ne uninit w.store newdev retries he]
      exact h.refs d
  held_lt := by
    intro d hd
    rw [Store.addLocked_nextDevice]
    exact (h.held_lt d hd).trans (Nat.lt_succ_self _)

theorem Counted.releaseProfileLocked {w : Shared} (h : w.Counted) {olddev : DeviceRef}
    (hun : ¬ w.store.Mapped olddev) (hheld : olddev ∈ w.held)
    (hlink : w.store.profiles.lookup (w.store.profileOf olddev).profile.name =
      some (w.store.device olddev).dev.profile) :
    Counted { w with store := w.store.releaseProfileLocked olddev } where
  linked := h.linked.releaseProfileLocked hun (h.held_lt olddev hheld) hlink
  owned := h.owned.releaseProfileLocked h.linked (h.refs_of_held hheld) hlink
  refs := by
    intro d
    have hm : (w.store.releaseProfileLocked olddev).Mapped d ↔ w.store.Mapped d := by
      simp [Store.Mapped]
    rw [Store.releaseProfileLocked_device]
    simp only [hm]
    exact h.refs d
  held_lt := by
    intro d hd
    rw [(Store.releaseProfileLocked_next w.store olddev).1]
    exact h.held_lt d hd

/-- Taking a device out of the map and entering another of its name. -/
theorem Counted.readdLocked {w : Shared} (h : w.Counted) (uninit : FreshMemory)
    {olddev : DeviceRef} {dev : Device DeviceProfile}
    (hold : w.store.devices.lookup dev.name = some olddev) :
    Counted { store := w.store.readdLocked uninit olddev dev, held := olddev :: w.held } := by
  have hm : w.store.Mapped olddev := ⟨_, hold⟩
  have hr := h.removeFromMap hm
  have hnone : (w.store.removeFromMap olddev).devices.lookup dev.name = none := by
    rw [Store.removeFromMap, Store.eraseDevice, h.linked.wf.device_name hold]
    exact AList.lookup_erase dev.name w.store.devices
  have ha := hr.addLocked uninit hnone (w.store.device olddev).retries
  obtain ⟨hun, hdev, hprof, hlink⟩ := hr.linked.addLocked_old uninit dev
    (w.store.device olddev).retries (h.linked.wf.device_lt hold) (h.linked.linked hm)
  rw [Store.readdLocked]
  split
  · refine ha.releaseProfileLocked ?_ List.mem_cons_self ?_
    · exact fun hc => h.linked.not_mapped_removeFromMap olddev (hun hc)
    · rw [hprof, hdev]
      exact hlink
  · exact ha

/-- The new device is sound, and nothing is freed yet. -/
theorem Counted.readdLocked_sound {w : Shared} (h : w.Counted) (hs : w.store.Sound)
    (uninit : FreshMemory) {olddev : DeviceRef} (hold : w.store.Mapped olddev)
    (dev : Device DeviceProfile) : (w.store.readdLocked uninit olddev dev).Sound := by
  have hr := h.removeFromMap hold
  have ha := (hs.removeFromMap olddev).addLocked hr.linked (fun _ hd => hr.lt_of_refs hd) uninit
    dev (w.store.device olddev).retries
  rw [Store.readdLocked]
  split
  · exact ha.releaseProfileLocked olddev
  · exact ha

/-- A request that gets a reference holds it. -/
theorem Counted.hold {w : Shared} (h : w.Counted) {name : String} {d : DeviceRef}
    (hd : w.store.devices.lookup name = some d) :
    Shared.Counted
      { store := w.store.modifyDevice d fun obj => { obj with refs := obj.refs + 1 }
        held := d :: w.held } := by
  have h₀ := h.refs_of_mapped ⟨name, hd⟩
  refine ⟨?_, ?_, ?_, ?_⟩
  · dsimp only
    exact h.linked.modifyDevice rfl rfl rfl
  · dsimp only
    exact h.owned.modifyDevice rfl rfl (by simp [h₀])
  · intro e
    have he := h.refs e
    show ((w.store.modifyDevice d fun obj => { obj with refs := obj.refs + 1 }).device e).refs =
      (if w.store.Mapped e then 1 else 0) + (d :: w.held).count e
    by_cases hed : e = d
    · subst hed
      rw [Store.modifyDevice_device_self, List.count_cons_self]
      dsimp only
      omega
    · rw [Store.modifyDevice_device_of_ne _ _ hed, List.count_cons_of_ne (Ne.symm hed)]
      exact he
  · intro e he
    rcases List.mem_cons.mp he with rfl | he
    · exact h.linked.wf.device_lt hd
    · exact h.held_lt e he

/-- A reference that is held can be released. -/
theorem Counted.release {w : Shared} (h : w.Counted) {d : DeviceRef} (hd : d ∈ w.held) :
    Shared.Counted { store := w.store.deviceRelease d, held := w.held.erase d } := by
  refine ⟨h.linked.deviceRelease d, h.owned.deviceRelease (h.refs_of_held hd), ?_, ?_⟩
  · intro e
    have hm : (w.store.deviceRelease d).Mapped e ↔ w.store.Mapped e := by
      simp [Store.Mapped]
    have he := h.refs e
    rw [Store.deviceRelease_device]
    simp only [hm]
    by_cases hed : e = d
    · subst hed
      have hc := List.count_pos_iff.mpr hd
      rw [List.count_erase_self, if_pos rfl]
      omega
    · rw [List.count_erase_of_ne hed, if_neg hed]
      exact he
  · intro e he
    rw [(Store.deviceRelease_next w.store d).1]
    exact h.held_lt e (List.mem_of_mem_erase he)

/-- An update of a profile moves no reference. -/
theorem Counted.updateProfile {w : Shared} (h : w.Counted) (dp : DeviceProfile) (v : ℕ) :
    Shared.Counted { w with store := w.store.updateProfile dp v } := by
  obtain ⟨hdevs, hnext, -⟩ := Store.updateProfile_frame w.store dp v
  refine ⟨h.linked.updateProfile dp v, h.owned.updateProfile h.linked dp v, ?_, ?_⟩
  · intro d
    have hm : (w.store.updateProfile dp v).Mapped d ↔ w.store.Mapped d := by
      simp [Store.Mapped, hdevs]
    have hr : ((w.store.updateProfile dp v).device d).refs = (w.store.device d).refs := by
      rw [Store.updateProfile_device]
      split <;> rfl
    show ((w.store.updateProfile dp v).device d).refs =
      (if (w.store.updateProfile dp v).Mapped d then 1 else 0) + w.held.count d
    simp only [hm, hr]
    exact h.refs d
  · intro d hd
    show d < (w.store.updateProfile dp v).nextDevice
    rw [hnext]
    exact h.held_lt d hd

end Shared

variable (uninit : FreshMemory) (cfg : DeviceInfo)

theorem Turn.step_counted {w : Shared} (h : w.Counted) (t : Turn) :
    (t.step uninit cfg w).Counted := by
  cases t with
  | byname name =>
    rw [step, Store.deviceByname]
    split
    · next d hd => exact h.hold hd
    · exact h
  | release d =>
    rw [step]
    split
    · next hd => exact h.release hd
    · exact h
  | replace dev =>
    rw [step]
    rcases Store.replaceLocked_cases uninit cfg w.store dev with
      ⟨hnone, he⟩ | ⟨olddev, _, _, he⟩ | ⟨olddev, hold, _, he⟩
    · rw [he]
      exact h.addLocked uninit hnone _
    · rw [he]
      exact h.modifyDevice_updateAt olddev dev
    · rw [he]
      exact (h.modifyDevice_updateAt olddev dev).readdLocked uninit hold
  | remove name =>
    rw [step, Store.removeLocked]
    split
    · next olddev hold =>
      have hm : w.store.Mapped olddev := ⟨name, hold⟩
      exact (h.removeFromMap hm).releaseProfileLocked
        (h.linked.not_mapped_removeFromMap olddev) List.mem_cons_self (h.linked.linked hm)
    · exact h
  | updateProfile dp v => exact h.updateProfile dp v

/-- A release frees a profile only for the last reference to its owner. -/
theorem Turn.release_sound_iff {w : Shared} (h : w.Counted) (hs : w.store.Sound)
    {d : DeviceRef} (hd : d ∈ w.held) :
    (w.store.deviceRelease d).Sound ↔ (Turn.release d).Safe w := by
  have hframe : ∀ e, ((w.store.deviceRelease d).device e).dev = (w.store.device e).dev := by
    intro e
    rw [Store.deviceRelease_device]
  have hpos : ∀ e, 0 < ((w.store.deviceRelease d).device e).refs →
      0 < (w.store.device e).refs ∧ (e = d → (w.store.device d).refs ≠ 1) := by
    intro e he
    rw [Store.deviceRelease_device] at he
    dsimp only at he
    split at he
    · next heq =>
      subst heq
      omega
    · next hne => exact ⟨by omega, fun heq => absurd heq hne⟩
  constructor
  · intro hs' _ hrefs ho e hne he
    -- the profile of the owner is freed now, and that of `e` is not
    have he' : 0 < ((w.store.deviceRelease d).device e).refs := by
      rw [Store.deviceRelease_device]
      simpa [hne] using he
    have hlive := hs'.live e he'
    rw [Store.profileOf, hframe, Store.deviceRelease_profile] at hlive
    intro hp
    simp [hrefs, ho, hp] at hlive
  · intro hsafe
    constructor
    · intro e he
      obtain ⟨he, hed⟩ := hpos e he
      rw [Store.profileOf, hframe, Store.deviceRelease_profile]
      have hlive : (w.store.profile (w.store.device e).dev.profile).frees = 0 := hs.live e he
      dsimp only
      rw [hlive, if_neg]
      rintro ⟨hrefs, ho, hp⟩
      by_cases heq : e = d
      · exact hed heq hrefs
      · exact hsafe hd hrefs ho e heq he hp.symm
    · intro p
      rw [Store.deviceRelease_profile]
      dsimp only
      split
      · next hfree =>
        obtain ⟨hrefs, ho, rfl⟩ := hfree
        have hf : (w.store.profile (w.store.device d).dev.profile).frees = 0 := by
          simpa [hrefs, Store.profileOf] using h.owned.frees ho
        omega
      · exact hs.once p

/-- A profile update frees the profile that it displaces, and turns only the devices in
    the map to the new one. -/
theorem Turn.updateProfile_sound_iff {w : Shared} (h : w.Counted) (hs : w.store.Sound)
    (dp : DeviceProfile) (v : ℕ) :
    (w.store.updateProfile dp v).Sound ↔ (Turn.updateProfile dp v).Safe w := by
  have hwf := h.linked.wf
  have hrefs : ∀ d, ((w.store.updateProfile dp v).device d).refs = (w.store.device d).refs := by
    intro d
    rw [Store.updateProfile_device]
    split <;> rfl
  constructor
  · intro hs' old hold d hd hun hp
    have hdev : (w.store.updateProfile dp v).device d = w.store.device d := by
      rw [Store.updateProfile_device, if_neg fun hc => hun hc.1]
    have hlive := hs'.live d ((hrefs d).symm ▸ hd)
    rw [Store.profileOf, hdev, hp, hwf.updateProfile_profile, if_neg (hwf.profile_lt hold).ne,
      if_pos hold] at hlive
    cases hlive
  · intro hsafe
    constructor
    · intro d hd
      rw [hrefs] at hd
      have hdev := Store.updateProfile_device w.store dp v d
      by_cases hl : w.store.profiles.lookup dp.name = some (w.store.device d).dev.profile
      · by_cases hm : w.store.Mapped d
        · rw [if_pos ⟨hm, hl⟩] at hdev
          rw [Store.profileOf, hdev, hwf.updateProfile_profile, if_pos rfl]
        · exact absurd rfl (hsafe _ hl d hd hm)
      · rw [if_neg fun hc => hl hc.2] at hdev
        rw [Store.profileOf, hdev, hwf.updateProfile_profile,
          if_neg (hwf.points_lt (h.lt_of_refs hd)).ne, if_neg hl]
        exact hs.live d hd
    · intro p
      rw [hwf.updateProfile_profile]
      split
      · exact Nat.zero_le 1
      · split
        · next hl => rw [h.linked.unfreed hl]
        · exact hs.once p

theorem Turn.step_sound_iff {w : Shared} (h : w.Counted) (hs : w.store.Sound) (t : Turn) :
    (t.step uninit cfg w).store.Sound ↔ t.Safe w := by
  have hlt : ∀ d, 0 < (w.store.device d).refs → d < w.store.nextDevice :=
    fun _ hd => h.lt_of_refs hd
  have hu : ∀ olddev dev, (w.store.modifyDevice olddev fun obj =>
      { obj with dev := (w.store.updateAt olddev dev).2.1 }).Sound := fun olddev dev =>
    hs.modifyDevice (Store.updateInPlace_name_profile (w.store.profileOf olddev).profile.name
      (w.store.device olddev).dev dev .updatedSdk).2 id
  cases t with
  | byname name =>
    refine iff_of_true ?_ trivial
    rw [step, Store.deviceByname]
    split
    · next d hd =>
      dsimp only
      refine hs.modifyDevice rfl fun _ => ?_
      exact Nat.pos_of_ne_zero (h.refs_of_mapped ⟨name, hd⟩)
    · exact hs
  | release d =>
    rw [step]
    split
    · next hd => exact release_sound_iff h hs hd
    · next hd => exact iff_of_true hs fun hc => absurd hc hd
  | replace dev =>
    refine iff_of_true ?_ trivial
    rw [step]
    rcases Store.replaceLocked_cases uninit cfg w.store dev with
      ⟨_, he⟩ | ⟨olddev, _, _, he⟩ | ⟨olddev, hold, _, he⟩
    · rw [he]
      exact hs.addLocked h.linked hlt uninit dev _
    · rw [he]
      exact hu olddev dev
    · rw [he]
      exact (h.modifyDevice_updateAt olddev dev).readdLocked_sound (hu olddev dev) uninit
        ⟨_, hold⟩ dev
  | remove name =>
    refine iff_of_true ?_ trivial
    rw [step, Store.removeLocked]
    split
    · next olddev _ =>
      exact (hs.removeFromMap olddev).releaseProfileLocked olddev
    · exact hs
  | updateProfile dp v => exact updateProfile_sound_iff h hs dp v

/-- Whatever the parties do, and in whatever order: in every state no live device has a
    freed profile and no profile was freed twice, exactly when every turn that freed a
    profile found no live device outside the map that uses it. -/
theorem turns_sound_iff (turns : List Turn) :
    Run.Always (fun w t => Turn.step uninit cfg w t) (fun w => w.store.Sound)
        { store := Store.alloc } turns ↔
      Run.Meets (fun w t => Turn.step uninit cfg w t) (fun w t => t.Safe w)
        { store := Store.alloc } turns :=
  Run.always_iff_meets (I := Shared.Counted)
    (fun _ t h _ _ => Turn.step_counted uninit cfg h t)
    (fun _ t h hs => Turn.step_sound_iff uninit cfg h hs t) Shared.Counted.alloc
    Store.Sound.alloc turns

/-- A device whose address is the port `port`. -/
def thermostat (port : String) : Device DeviceProfile :=
  { name := "thermostat", profile := .placeholder "heating",
    protocols := [{ name := "modbus", properties := .map [("Port", .string port)] }] }

/-- A request holds the thermostat while the thermostat is moved to another port, and
    its profile is updated before the request ends. -/
def movedWhileHeld : List Turn :=
  [.replace (thermostat "1"), .byname "thermostat", .replace (thermostat "2"), .release 0,
    .updateProfile (.placeholder "heating") 1]

/-- The request is left with a device whose profile has been freed. -/
theorem movedWhileHeld_unsound :
    ¬ Run.Always (fun w t => Turn.step (fun _ => none) {} w t) (fun w => w.store.Sound)
      { store := Store.alloc } movedWhileHeld := by
  rintro ⟨-, -, -, -, -, hs⟩
  exact absurd (hs.live 0 (by decide)) (by decide)

end DeviceSdk
