import DeviceSdk.Command.Discipline
import DeviceSdk.Command.OnChange
import DeviceSdk.Lib.Word

/-!
# The limit on the size of events

An event is compared with `MaxEventSize` in four places, before it is handed on. The setting is
in KiB, and becomes bytes by a product in 32 bits, which from a setting of 4 GiB on is no longer
the number of bytes that was set.

## Main definitions

- `EventPath`, `EventPath.handsOn` — the places, and the event that each of them hands on
- `Sdk.unlimited` — the service without the limit
- `Event.Exceeds` — an event that is larger than the setting

## Main results

- `handsOn_eq_filter` — what the limit does to a path
- `eventLimit_iff`
-/

namespace DeviceSdk

/-- The event that an effect hands to `edgex_data_client_add_event`. -/
def Effect.published? : Effect → Option Event
  | publish ev => some ev
  | _ => none

/-- The event that a trace hands to `edgex_data_client_add_event`. -/
def publishedEvent (t : List Effect) : Option Event := t.findSome? Effect.published?

/-- The places where the size of an event is checked, with what they are called with. -/
inductive EventPath
  | restGet (dev : DeviceObj) (cmd : CmdInfo) (params : Option IotData) (reply : HttpReply)
  | busGet (dev : DeviceObj) (cmd : CmdInfo) (params : Option IotData)
  | autoevent (s : Store) (ai : AutoImpl)
  | postReadings (s : Store) (devname resname : String) (values : ℕ → CommandResult)
      (tags : Option IotData)

/-- The event that a path hands on: to the handler of the request, or to
    `edgex_data_client_add_event`. -/
def EventPath.handsOn (sdk : Sdk) : EventPath → Option Event
  | restGet dev cmd params reply => (runget2 sdk dev cmd params reply).val.1
  | busGet dev cmd params => (runget3 sdk dev cmd params).val.1
  | autoevent s ai => publishedEvent (aeRunner sdk s ai).trace
  | postReadings s devname resname values tags =>
    publishedEvent (DeviceSdk.postReadings sdk s devname resname values tags).trace

/-- The service without a limit on the size of events. -/
def Sdk.unlimited (sdk : Sdk) : Sdk := { sdk with device := { sdk.device with maxeventsize := 0 } }

/-- An event passes the check. -/
def Sdk.admits (sdk : Sdk) (ev : Event) : Bool := !ev.tooLarge sdk.libs sdk.device.maxeventsize

/-- There is a limit, and the event is larger than this many KiB. -/
def Event.Exceeds (libs : Libs) (maxeventsize : BitVec 32) (ev : Event) : Prop :=
  maxeventsize ≠ 0 ∧ maxeventsize.toNat * 1024 < ev.size libs

@[simp] theorem filter_unlimited (sdk : Sdk) (o : Option Event) :
    o.filter sdk.unlimited.admits = o := by
  cases o <;> rfl

section Published

@[simp] theorem publishedEvent_append (t u : List Effect) :
    publishedEvent (t ++ u) = (publishedEvent t).or (publishedEvent u) := List.findSome?_append

/-- Only the part of a trace that is about an event counts. -/
theorem publishedEvent_eventTrace (t : List Effect) :
    publishedEvent (eventTrace t) = publishedEvent t := by
  induction t with
  | nil => rfl
  | cons e t ih =>
    rw [eventTrace, List.filter_cons]
    cases e with
    | processEvent => exact ih
    | publish ev => rfl
    | _ => exact ih

variable (sdk : Sdk)

/-- An event is published, unless it is too large. -/
theorem publishedEvent_checked (ev : Event) :
    publishedEvent (if ev.tooLarge sdk.libs sdk.device.maxeventsize then [] else [.publish ev]) =
      (some ev).filter sdk.admits := by
  rw [Option.filter_some, Sdk.admits]
  cases ev.tooLarge sdk.libs sdk.device.maxeventsize <;> rfl

/-- The readings of a tick are published as their event, when they are to be. -/
theorem publishedEvent_runReadings (ai : AutoImpl) (dev : DeviceObj) (values : ℕ → CommandResult)
    (tags : Option IotData) :
    publishedEvent (runReadings sdk ai dev values tags).trace =
      if shouldPublish sdk ai values then
        (cookEvent sdk dev ai.resource values tags).filter sdk.admits
      else none := by
  rw [← publishedEvent_eventTrace, eventTrace_runReadings]
  split
  · cases cookEvent sdk dev ai.resource values tags with
    | none => rfl
    | some ev => exact publishedEvent_checked sdk ev
  · rfl

@[simp] theorem publishedEvent_sizeCheck : publishedEvent (sizeCheck sdk) = none := by
  rw [sizeCheck]
  split <;> rfl

/-- The readings of a driver are published as the event of the command that they are for. -/
theorem publishedEvent_post (devname resname : String) (values : ℕ → CommandResult)
    (tags : Option IotData) (dev : DeviceObj) (prof : DeviceProfile) :
    publishedEvent (post sdk devname resname values tags dev prof).trace =
      (findcommand sdk.driver.createRes prof resname true).2.bind fun command =>
        (cookEvent sdk dev command values tags).filter sdk.admits := by
  simp only [post]
  cases (findcommand sdk.driver.createRes prof resname true).2 with
  | none => rfl
  | some command =>
    cases hc : cookEvent sdk dev command values tags with
    | none =>
      simp only [hc, Option.bind_some]
      rfl
    | some ev =>
      have hlast : publishedEvent
          (if sdk.device.updatelastconnected then [.lastConnected devname] else []) = none := by
        split <;> rfl
      simp only [hc, publishedEvent_append, publishedEvent_sizeCheck, hlast,
        publishedEvent_checked, Option.or_none, Option.none_or, Option.bind_some]
      rfl

/-- A tick publishes the event of what it reads, when it is to be published. -/
theorem publishedEvent_aeRunner (s : Store) (ai : AutoImpl) :
    publishedEvent (aeRunner sdk s ai).trace =
      (tickReads sdk s ai).bind fun read =>
        if shouldPublish sdk ai read.2.1 then
          (cookEvent sdk read.1 ai.resource read.2.1 read.2.2).filter sdk.admits
        else none := by
  have hdone := aeRunner_reads sdk s ai
  rw [← publishedEvent_eventTrace]
  cases hr : tickReads sdk s ai with
  | none =>
    rw [hr] at hdone
    rw [hdone.2]
    rfl
  | some read =>
    obtain ⟨dev, values, tags⟩ := read
    rw [hr] at hdone
    rw [hdone.2, publishedEvent_eventTrace, publishedEvent_runReadings]
    rfl

/-- Readings are published on a device that is there, unless the service is locked. -/
theorem publishedEvent_postReadings (s : Store) (devname resname : String)
    (values : ℕ → CommandResult) (tags : Option IotData) :
    publishedEvent (postReadings sdk s devname resname values tags).trace =
      if sdk.adminstate = .locked then none
      else (s.found devname).bind fun p =>
        publishedEvent (post sdk devname resname values tags p.1 p.2).trace := by
  rw [postReadings]
  split
  · rfl
  · cases hf : s.found devname with
    | none =>
      have hd : s.devices.lookup devname = none := Option.map_eq_none_iff.mp hf
      simp only [onDevice, hd]
      rfl
    | some p =>
      rw [(onDevice_found hf).1]
      rfl

end Published

section Limit

variable (sdk : Sdk)

/-- A get request builds an event within the limit, or builds one without it that passes. -/
theorem eventBuilt_iff (dev : DeviceObj) (cmd : CmdInfo) (params : Option IotData) (ev : Event) :
    EventBuilt sdk dev cmd params ev ↔
      EventBuilt sdk.unlimited dev cmd params ev ∧ sdk.admits ev = true := by
  constructor
  · rintro ⟨address, values, tags, hread, haddr, hget, hcook, hsize⟩
    refine ⟨⟨address, values, tags, hread, haddr, hget, hcook, rfl⟩, ?_⟩
    rw [Sdk.admits, hsize]
    rfl
  · rintro ⟨⟨address, values, tags, hread, haddr, hget, hcook, -⟩, hsize⟩
    refine ⟨address, values, tags, hread, haddr, hget, hcook, ?_⟩
    rwa [Sdk.admits, Bool.not_eq_true'] at hsize

theorem handsOn_restGet (dev : DeviceObj) (cmd : CmdInfo) (params : Option IotData)
    (reply : HttpReply) :
    (EventPath.restGet dev cmd params reply).handsOn sdk =
      ((EventPath.restGet dev cmd params reply).handsOn sdk.unlimited).filter sdk.admits := by
  ext ev
  rw [Option.filter_eq_some_iff]
  simp only [EventPath.handsOn]
  rw [runget2_event_iff, runget2_event_iff]
  exact eventBuilt_iff sdk dev cmd params ev

/-- The limit takes from a path the events that do not pass the check, and changes nothing
    else. -/
theorem handsOn_eq_filter (path : EventPath) :
    path.handsOn sdk = (path.handsOn sdk.unlimited).filter sdk.admits := by
  cases path with
  | restGet dev cmd params reply => exact handsOn_restGet sdk dev cmd params reply
  | busGet dev cmd params =>
    simp only [EventPath.handsOn]
    rw [runget3_event sdk dev cmd params {}, runget3_event sdk.unlimited dev cmd params {}]
    exact handsOn_restGet sdk dev cmd params {}
  | autoevent s ai =>
    have hreads : tickReads sdk.unlimited s ai = tickReads sdk s ai := rfl
    simp only [EventPath.handsOn, publishedEvent_aeRunner, hreads, filter_unlimited]
    cases tickReads sdk s ai with
    | none => rfl
    | some read =>
      have hsame : shouldPublish sdk.unlimited ai read.2.1 = shouldPublish sdk ai read.2.1 := rfl
      simp only [Option.bind_some, hsame]
      split <;> rfl
  | postReadings s devname resname values tags =>
    have hlocked : sdk.unlimited.adminstate = sdk.adminstate := rfl
    have hres : sdk.unlimited.driver.createRes = sdk.driver.createRes := rfl
    simp only [EventPath.handsOn, publishedEvent_postReadings, publishedEvent_post, hlocked, hres,
      filter_unlimited]
    split
    · rfl
    · cases s.found devname with
      | none => rfl
      | some p =>
        simp only [Option.bind_some]
        cases (findcommand sdk.driver.createRes p.2 resname true).2 with
        | none => rfl
        | some command => rfl

/-- The check compares with the setting in bytes where that does not wrap, and elsewhere decides
    the same for the events that are within what is left of it or above the whole setting. -/
theorem tooLarge_exceeds_iff (libs : Libs) (maxeventsize : BitVec 32) (ev : Event) :
    (ev.tooLarge libs maxeventsize = true ↔ ev.Exceeds libs maxeventsize) ↔
      maxeventsize.toNat < 2 ^ 22 ∨ ev.size libs ≤ maxeventsize.toNat * 1024 % 2 ^ 32 ∨
        maxeventsize.toNat * 1024 < ev.size libs := by
  have hword := Word.toNat_mul_lt_exact_iff maxeventsize 1024 (ev.size libs)
  have hkib : (1024 : BitVec 32).toNat = 1024 := rfl
  have hfits : maxeventsize.toNat * 1024 < 2 ^ 32 ↔ maxeventsize.toNat < 2 ^ 22 := by omega
  rw [hkib, hfits] at hword
  rw [← hword, Event.tooLarge, Event.Exceeds, Bool.and_eq_true, decide_eq_true_iff,
    decide_eq_true_iff, and_congr_right_iff]
  constructor
  · intro h
    by_cases hn : maxeventsize = 0
    · simp [hn]
    · exact h hn
  · exact fun h _ => h

/-- Of an event that a path hands on without a limit: it is rejected with one if and only if it
    is larger than the setting, exactly where the setting is below 4 GiB, or the event within
    the setting modulo 4 GiB, or above the whole setting. -/
theorem eventLimit_iff (path : EventPath) (ev : Event)
    (h : path.handsOn sdk.unlimited = some ev) :
    (path.handsOn sdk = none ↔ ev.Exceeds sdk.libs sdk.device.maxeventsize) ↔
      sdk.device.maxeventsize.toNat < 2 ^ 22 ∨
        ev.size sdk.libs ≤ sdk.device.maxeventsize.toNat * 1024 % 2 ^ 32 ∨
        sdk.device.maxeventsize.toNat * 1024 < ev.size sdk.libs := by
  have hreject : path.handsOn sdk = none ↔
      ev.tooLarge sdk.libs sdk.device.maxeventsize = true := by
    rw [handsOn_eq_filter, h, Option.filter_some, Sdk.admits]
    cases ev.tooLarge sdk.libs sdk.device.maxeventsize <;> simp
  rw [hreject]
  exact tooLarge_exceeds_iff sdk.libs sdk.device.maxeventsize ev

end Limit

/-- The service at a tick of the sensor, with a picture of 2000 bytes, and the autoevent that
    takes it. -/
def pictureSdk (maxeventsize : BitVec 32) : Sdk :=
  (sensorTick maxeventsize (.binary [7])).sdk exactLibs

def picturePath : EventPath := .autoevent sensorStore (sensorAuto (.scalar .binary) 0)

theorem picture_handed (maxeventsize : BitVec 32) :
    ∃ ev, picturePath.handsOn (pictureSdk maxeventsize).unlimited = some ev ∧
      ev.size exactLibs = 2000 := by
  have hsize : (picturePath.handsOn (pictureSdk 0)).map (Event.size exactLibs) = some 2000 := by
    decide +kernel
  exact Option.map_eq_some_iff.mp hsize

/-- A limit of 1 KiB rejects the picture. -/
theorem eventLimit_picture :
    ∃ ev, picturePath.handsOn (pictureSdk 1).unlimited = some ev ∧
      (picturePath.handsOn (pictureSdk 1) = none ↔ ev.Exceeds exactLibs 1) := by
  obtain ⟨ev, hev, hsize⟩ := picture_handed 1
  exact ⟨ev, hev, (eventLimit_iff (pictureSdk 1) picturePath ev hev).mpr (Or.inl (by decide))⟩

/-- A limit of 4 GiB rejects it too. -/
theorem wrapped_limit_rejects :
    ¬ ∀ (sdk : Sdk) (path : EventPath) (ev : Event), path.handsOn sdk.unlimited = some ev →
      (path.handsOn sdk = none ↔ ev.Exceeds sdk.libs sdk.device.maxeventsize) := by
  intro h
  obtain ⟨ev, hev, hsize⟩ := picture_handed (2 ^ 22)
  have hnone : picturePath.handsOn (pictureSdk (2 ^ 22)) = none := by decide +kernel
  obtain ⟨-, hlarge⟩ := (h _ _ ev hev).mp hnone
  have hbytes : (pictureSdk (2 ^ 22)).device.maxeventsize.toNat * 1024 = 2 ^ 32 := rfl
  have hlibs : ev.size (pictureSdk (2 ^ 22)).libs = 2000 := hsize
  omega

end DeviceSdk
