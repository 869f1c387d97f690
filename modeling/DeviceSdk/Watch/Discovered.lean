import DeviceSdk.DevMap.Frame
import DeviceSdk.Watch.List

/-!
# Discovered devices

`devsdk_add_discovered_devices`: a device that the driver discovered is submitted to
core-metadata when it is not in the device map and a provision watcher accepts one of its
protocols. A watcher that core-metadata holds as locked is read with `enabled` unset.

## Main definitions

- `pwRead` — `edgex_pw_read`
- `addDiscoveredDevices` — the three nested searches, with the submissions they make
- `Discovery.Honoured` — what is submitted for one device is what the enabled watchers ask for

## Main results

- `discovered_honoured_iff` — when that is so
-/

namespace DeviceSdk

open IotData (stringMapGet stringMapGetString stringMapGetBool)

/-- `get_string`. -/
def getString (obj : Option IotData) (name : String) : String :=
  (stringMapGetString obj name).getD ""

/-- `edgex_adminstate_read`. -/
def adminstateRead : Option IotData → AdminState
  | some (.string c) => if c = "LOCKED" then .locked else .unlocked
  | _ => .unlocked

/-- `edgex_autoevent_read`. A threshold that is no number leaves the zero of `calloc`. -/
def autoeventRead (number : IotData → Option ℚ) (obj : IotData) : AutoEvent where
  resource := getString (some obj) "sourceName"
  interval := getString (some obj) "interval"
  onChange := stringMapGetBool (some obj) "onChange" false
  onChangeThreshold := ((stringMapGet (some obj) "onChangeThreshold").bind number).getD 0

/-- `edgex_autoevents_read`, which pushes each element in front. -/
def autoeventsRead (number : IotData → Option ℚ) (obj : Option IotData) : List AutoEvent :=
  match stringMapGet obj "autoEvents" with
  | some (.vector aes) => aes.foldl (fun result ae => autoeventRead number ae :: result) []
  | _ => []

/-- `edgex_pw_read`. -/
def pwRead (number : IotData → Option ℚ) (obj : IotData) : Watcher :=
  let ddprops := stringMapGet (some obj) "discoveredDevice"
  { name := getString (some obj) "name"
    profile := getString ddprops "profileName"
    identifiers := stringMapGet (some obj) "identifiers"
    blockingIdentifiers := stringMapGet (some obj) "blockingIdentifiers"
    autoevents := autoeventsRead number ddprops
    adminstate := adminstateRead (stringMapGet ddprops "adminState")
    enabled := decide (adminstateRead (stringMapGet (some obj) "adminState") = .unlocked) }

/-- `devsdk_discovered_device`. -/
structure DiscoveredDevice where
  name : String
  parent : Option String := none
  description : String := ""
  protocols : List Protocol
  properties : Option IotData := none

/-- What `edgex_metadata_client_add_or_modify_device` is given. -/
structure Submission where
  name : String
  parent : Option String
  description : String
  labels : List String
  adminstate : AdminState
  protocols : List Protocol
  autos : List AutoEvent
  serviceName : String
  profileName : String

/-- The labels of a discovered device, each pushed in front of those before it. -/
def discoveredLabels (properties : Option IotData) : List String :=
  match stringMapGet properties "Labels" with
  | some (.vector ldata) =>
    ldata.foldl
      (fun labels l =>
        match l with
        | .string s => s :: labels
        | _ => labels)
      []
  | _ => []

/-- The submission of a device that watcher `w` accepts. -/
def submission (svcname : String) (d : DiscoveredDevice) (w : Watcher) : Submission where
  name := d.name
  parent := d.parent
  description := d.description
  labels := discoveredLabels d.properties
  adminstate := w.adminstate
  protocols := d.protocols
  autos := w.autoevents
  serviceName := svcname
  profileName := w.profile

/-- The loop over the protocols of a device, up to the first that a watcher accepts. -/
def matchProtocols (wl : List Watcher) (d : DiscoveredDevice) : Option Watcher :=
  d.protocols.findSome? fun prots => Watchlist.firstMatch wl prots.properties

/-- One turn of `devsdk_add_discovered_devices`, on device `i`. -/
def submitDiscovered (svcname : String) (wl : List Watcher) (r : Store × List (ℕ × Submission))
    (d : DiscoveredDevice × ℕ) : Store × List (ℕ × Submission) :=
  match r.1.deviceByname d.1.name with
  | (s, some existing) => (s.deviceRelease existing, r.2)
  | (s, none) =>
    match matchProtocols wl d.1 with
    | some w => (s, r.2 ++ [(d.2, submission svcname d.1 w)])
    | none => (s, r.2)

/-- `devsdk_add_discovered_devices`: the device map, and what was submitted for which
    position of the array. -/
def addDiscoveredDevices (svcname : String) (s : Store) (wl : List Watcher)
    (devices : List DiscoveredDevice) : Store × List (ℕ × Submission) :=
  Run.final (submitDiscovered svcname wl) (s, []) devices.zipIdx

/-- What was submitted for the device at position `i`. -/
def submittedFor (i : ℕ) (subs : List (ℕ × Submission)) : List Submission :=
  (subs.filter fun e => decide (e.1 = i)).map fun e => e.2

/-- What a turn submits for a device, in terms of the names in the device map. -/
def turnSubmits (svcname : String) (s : Store) (wl : List Watcher) (d : DiscoveredDevice) :
    Option Submission :=
  if s.devices.lookup d.name = none then (matchProtocols wl d).map (submission svcname d) else none

/-- A turn leaves the names of the device map alone, and adds what it submits. -/
theorem submitDiscovered_spec (svcname : String) (wl : List Watcher)
    (r : Store × List (ℕ × Submission)) (d : DiscoveredDevice) (i : ℕ) :
    (submitDiscovered svcname wl r (d, i)).1.devices = r.1.devices ∧
      (submitDiscovered svcname wl r (d, i)).2 =
        r.2 ++ ((turnSubmits svcname r.1 wl d).map fun s => (i, s)).toList := by
  cases hl : r.1.devices.lookup d.name with
  | some existing =>
    simp [submitDiscovered, turnSubmits, Store.deviceByname, hl, Store.modifyDevice]
  | none =>
    cases hm : matchProtocols wl d <;>
      simp [submitDiscovered, turnSubmits, Store.deviceByname, hl, hm]

theorem submittedFor_append (i : ℕ) (xs ys : List (ℕ × Submission)) :
    submittedFor i (xs ++ ys) = submittedFor i xs ++ submittedFor i ys := by
  simp [submittedFor]

theorem submittedFor_toList (i j : ℕ) (o : Option Submission) :
    submittedFor i ((o.map fun s => (j, s)).toList) = if j = i then o.toList else [] := by
  cases o with
  | none => simp [submittedFor]
  | some s =>
    by_cases h : j = i <;> simp [submittedFor, h]

/-- A run over the rest of an array submits for each of its positions what the turn does. -/
theorem submittedFor_final (svcname : String) (wl : List Watcher) (devices : List DiscoveredDevice)
    (k : ℕ) (r : Store × List (ℕ × Submission)) (i : ℕ) :
    submittedFor i (Run.final (submitDiscovered svcname wl) r (devices.zipIdx k)).2 =
      submittedFor i r.2 ++
        if k ≤ i then
          (devices[i - k]?.bind (turnSubmits svcname r.1 wl)).toList
        else [] := by
  induction devices generalizing k r with
  | nil => simp
  | cons d ds ih =>
    rw [List.zipIdx_cons, Run.final_cons, ih]
    obtain ⟨hnames, hsubs⟩ := submitDiscovered_spec svcname wl r d k
    have hturn : turnSubmits svcname (submitDiscovered svcname wl r (d, k)).1 wl =
        turnSubmits svcname r.1 wl := by
      funext e
      simp only [turnSubmits, hnames]
    rw [hsubs, hturn, submittedFor_append, submittedFor_toList, List.append_assoc]
    congr 1
    by_cases hki : k = i
    · subst hki
      simp
    · rw [if_neg hki, List.nil_append]
      by_cases hlt : k < i
      · have hsub : i - k = (i - (k + 1)) + 1 := by omega
        rw [if_pos (by omega), if_pos (by omega), hsub, List.getElem?_cons_succ]
      · rw [if_neg (by omega), if_neg (by omega)]

/-- Every device of the array is submitted at most once, as its turn has it. -/
theorem submittedFor_addDiscoveredDevices (svcname : String) (s : Store) (wl : List Watcher)
    (devices : List DiscoveredDevice) (i : Fin devices.length) :
    submittedFor i (addDiscoveredDevices svcname s wl devices).2 =
      (turnSubmits svcname s wl (devices.get i)).toList := by
  have h := submittedFor_final svcname wl devices 0 (s, []) i
  simpa [addDiscoveredDevices, submittedFor] using h

-- ════════════════════════════════════════════════════════════════════════
-- Enabled watchers
-- ════════════════════════════════════════════════════════════════════════

namespace Discovery

open Watchlist (matchpw)

/-- The first watcher that accepts, for the first protocol that one accepts. -/
def firstAccepting (wl : List Watcher) (d : DiscoveredDevice) : Option Watcher :=
  d.protocols.findSome? fun prots => wl.find? fun w => matchpw w prots.properties

/-- The same search among the enabled watchers. -/
def firstEnabled (wl : List Watcher) (d : DiscoveredDevice) : Option Watcher :=
  d.protocols.findSome? fun prots => wl.find? fun w => w.enabled && matchpw w prots.properties

/-- What is submitted for a device is what the enabled watchers ask for. -/
structure Honoured (s : Store) (wl : List Watcher) (d : DiscoveredDevice)
    (subs : List Submission) : Prop where
  submitted_iff : subs ≠ [] ↔ s.devices.lookup d.name = none ∧
    ∃ prots ∈ d.protocols, ∃ w ∈ wl, w.enabled = true ∧ matchpw w prots.properties = true
  once : subs.length ≤ 1
  data : ∀ sub ∈ subs, sub.name = d.name ∧ ∃ w, firstEnabled wl d = some w ∧
    sub.profileName = w.profile ∧ sub.adminstate = w.adminstate ∧ sub.autos = w.autoevents

/-- The watcher that accepts a device first is enabled, or the first enabled one would have
    given it the same profile, admin state and autoevents. -/
def EnabledFirst (wl : List Watcher) (d : DiscoveredDevice) : Prop :=
  ∀ w, firstAccepting wl d = some w → w.enabled = true ∨
    ∃ w', firstEnabled wl d = some w' ∧ w'.profile = w.profile ∧
      w'.adminstate = w.adminstate ∧ w'.autoevents = w.autoevents

theorem matchProtocols_eq (wl : List Watcher) (d : DiscoveredDevice) :
    matchProtocols wl d = (firstAccepting wl d).map watcherDup := by
  rw [matchProtocols, firstAccepting]
  induction d.protocols with
  | nil => rfl
  | cons p ps ih =>
    rw [List.findSome?_cons, List.findSome?_cons, ih, Watchlist.firstMatch]
    cases wl.find? fun w => matchpw w p.properties <;> rfl

theorem firstEnabled_isSome_iff (wl : List Watcher) (d : DiscoveredDevice) :
    (∃ w, firstEnabled wl d = some w) ↔
      ∃ prots ∈ d.protocols, ∃ w ∈ wl, w.enabled = true ∧ matchpw w prots.properties = true := by
  rw [← Option.isSome_iff_exists, firstEnabled, List.findSome?_isSome_iff]
  simp [List.find?_isSome]

/-- A search that finds an element finds it again among those with a property it has. -/
theorem find?_and {wl : List Watcher} {p q : Watcher → Bool} {w : Watcher}
    (h : wl.find? p = some w) (hq : q w = true) : wl.find? (fun w => q w && p w) = some w := by
  induction wl with
  | nil => cases h
  | cons u us ih =>
    rw [List.find?_cons] at h ⊢
    cases hp : p u with
    | true =>
      obtain rfl : u = w := by simpa [hp] using h
      simp [hq]
    | false =>
      rw [Bool.and_false]
      exact ih (by simpa [hp] using h)

/-- Where the first watcher that accepts is enabled, both searches find it. -/
theorem firstEnabled_of_firstAccepting {wl : List Watcher} {d : DiscoveredDevice} {w : Watcher}
    (h : firstAccepting wl d = some w) (hw : w.enabled = true) : firstEnabled wl d = some w := by
  rw [firstAccepting] at h
  rw [firstEnabled]
  generalize d.protocols = protocols at h ⊢
  induction protocols with
  | nil => cases h
  | cons p ps ih =>
    rw [List.findSome?_cons] at h ⊢
    cases hf : wl.find? fun u => matchpw u p.properties with
    | some u =>
      obtain rfl : u = w := by simpa [hf] using h
      rw [find?_and hf hw]
    | none =>
      have hnone : wl.find? (fun u => u.enabled && matchpw u p.properties) = none := by
        rw [List.find?_eq_none] at hf ⊢
        intro u hu
        simp [hf u hu]
      rw [hnone]
      exact ih (by simpa [hf] using h)

/-- A device in the map is not submitted, and the enabled watchers have no say in it. -/
theorem honoured_of_mapped {s : Store} {wl : List Watcher} {d : DiscoveredDevice}
    (h : s.devices.lookup d.name ≠ none) : Honoured s wl d [] where
  submitted_iff := by simp [h]
  once := Nat.zero_le 1
  data := by simp

/-- A device that no watcher accepts is not submitted. -/
theorem honoured_of_unaccepted {s : Store} {wl : List Watcher} {d : DiscoveredDevice}
    (h : firstAccepting wl d = none) : Honoured s wl d [] where
  submitted_iff := by
    rw [firstAccepting, List.findSome?_eq_none_iff] at h
    constructor
    · intro hne
      exact absurd rfl hne
    · rintro ⟨-, prots, hprots, w, hw, -, hm⟩
      have hnone := List.find?_eq_none.mp (h prots hprots) w hw
      exact absurd hm hnone
  once := Nat.zero_le 1
  data := by simp

/-- A device that is submitted for `w` is submitted as the enabled watchers ask for, exactly
    when the first of them asks for the same. -/
theorem honoured_singleton_iff {s : Store} {wl : List Watcher} {d : DiscoveredDevice}
    (h : s.devices.lookup d.name = none) (svcname : String) (w : Watcher) :
    Honoured s wl d [submission svcname d (watcherDup w)] ↔
      ∃ w', firstEnabled wl d = some w' ∧ w'.profile = w.profile ∧
        w'.adminstate = w.adminstate ∧ w'.autoevents = w.autoevents := by
  constructor
  · intro hon
    obtain ⟨-, w', hw', hp, ha, he⟩ := hon.data _ List.mem_cons_self
    exact ⟨w', hw', hp.symm, ha.symm, he.symm⟩
  · rintro ⟨w', hw', hp, ha, he⟩
    refine ⟨?_, le_refl 1, ?_⟩
    · have hsome := (firstEnabled_isSome_iff wl d).mp ⟨w', hw'⟩
      exact ⟨fun _ => ⟨h, hsome⟩, fun _ => List.cons_ne_nil _ _⟩
    · intro sub hsub
      obtain rfl := List.mem_singleton.mp hsub
      exact ⟨rfl, w', hw', hp.symm, ha.symm, he.symm⟩

end Discovery

/-- For every device of the array: what is submitted for it is what the enabled watchers ask
    for, exactly when it is in the device map or the watcher that accepts it first is enabled (or
    the first enabled one asks for the same). -/
theorem discovered_honoured_iff (svcname : String) (s : Store) (wl : List Watcher)
    (devices : List DiscoveredDevice) (i : Fin devices.length) :
    Discovery.Honoured s wl (devices.get i)
        (submittedFor i (addDiscoveredDevices svcname s wl devices).2) ↔
      (s.devices.lookup (devices.get i).name = none → Discovery.EnabledFirst wl (devices.get i)) := by
  rw [submittedFor_addDiscoveredDevices, turnSubmits, Discovery.matchProtocols_eq]
  by_cases hl : s.devices.lookup (devices.get i).name = none
  · rw [if_pos hl]
    cases hf : Discovery.firstAccepting wl (devices.get i) with
    | none =>
      refine ⟨fun _ _ w hw => ?_, fun _ => Discovery.honoured_of_unaccepted hf⟩
      cases hf.symm.trans hw
    | some w =>
      show Discovery.Honoured s wl (devices.get i) [submission svcname _ (watcherDup w)] ↔ _
      rw [Discovery.honoured_singleton_iff hl]
      constructor
      · intro h _ u hu
        obtain rfl : w = u := Option.some.inj (hf.symm.trans hu)
        exact Or.inr h
      · intro h
        by_cases hw : w.enabled = true
        · exact ⟨w, Discovery.firstEnabled_of_firstAccepting hf hw, rfl, rfl, rfl⟩
        · exact (h hl w hf).resolve_left hw
  · rw [if_neg hl]
    exact ⟨fun _ habs => absurd habs hl, fun _ => Discovery.honoured_of_mapped hl⟩

/-- The record of a locked provision watcher, as core-metadata sends it. -/
def lockedWatcherRecord : IotData :=
  .map [("adminState", .string "LOCKED"),
    ("discoveredDevice", .map [("adminState", .string "UNLOCKED"), ("profileName", .string "Sensor")]),
    ("identifiers", .map [("Model", .string "Thermo")]), ("name", .string "sensors")]

/-- A device that a locked watcher accepts is submitted. -/
theorem locked_watcher_submits :
    ¬ ∀ (regcomp : String → Option Preg) (number : IotData → Option ℚ) (svcname : String)
      (s : Store) (records : List IotData) (devices : List DiscoveredDevice)
      (i : Fin devices.length),
      let wl := (Watchlist.populate regcomp [] (records.map (pwRead number))).2
      Discovery.Honoured s wl (devices.get i)
        (submittedFor i (addDiscoveredDevices svcname s wl devices).2) := by
  intro h
  have hon := h literalRegcomp (fun _ => none) "device-virtual" Store.alloc [lockedWatcherRecord]
    [{ name := "t1", protocols := [⟨"other", .map [("Model", .string "Thermo-2")]⟩] }] ⟨0, by decide⟩
  obtain ⟨-, prots, -, w, hw, hen, -⟩ := hon.submitted_iff.mp (by decide)
  obtain rfl := List.mem_singleton.mp hw
  cases hen

end DeviceSdk
