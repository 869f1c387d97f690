import DeviceSdk.Command.Entry
import DeviceSdk.Lib.Run

/-!
# The supervision of devices

What `opstate.c` keeps about devices, over time: a failure counter in every device, and
return schedules. Requests on the bus and autoevents hold a device while the driver works,
so a request may end on a device object that was replaced in the meantime. Here the end of
a request is a step of its own, on whatever object the request holds. So are the answer of
core-metadata to a device that is marked down, and the answer of the driver to a probe: a
return schedule is made after them, and other things happen in between.

## Main definitions

- `Ending` — how a request ends, as far as `opstate.c` is concerned
- `Supervision`, `Incident`, `Supervision.step` — the state, and what happens to it
- `Happening` — what is recorded

## Main results

- `v3dispatch_ends`, `aeRun_ends` — requests on the bus and autoevents end in these ways
- `fires_answered_pending` — a probe that nothing comes between makes the schedules of
  `devsdk_device_return`
-/

namespace DeviceSdk

variable (sdk : Sdk)

/-- How a request ends: the driver succeeds or fails, a reading fails its assertion, or
    the request does not get as far as that. -/
inductive Ending
  | succeeded
  | failed
  | assertion
  | unaccounted
  deriving DecidableEq

/-- What is done about the end of a request. -/
def Ending.account (dev : DeviceObj) : Ending → Step Unit
  | succeeded => requestSucceeded sdk dev
  | failed => requestFailed sdk dev
  | assertion => { val := (), dev, trace := [.setOpstate dev.dev.name .down] }
  | unaccounted => { val := (), dev, trace := [] }

namespace Effect

/-- Core-metadata is asked to change an operating state, or a return schedule is made. -/
@[simp] def supervises : Effect → Bool
  | setOpstate _ _ | returnSchedule _ _ => true
  | _ => false

end Effect

/-- The part of a trace that has to do with supervision. -/
def supervision (t : List Effect) : List Effect := (seen t).filter Effect.supervises

@[simp] theorem supervision_nil : supervision [] = [] := rfl

@[simp] theorem supervision_cons (e : Effect) (t : List Effect) :
    supervision (e :: t) = if e.supervises then e :: supervision t else supervision t := by
  cases e <;> simp [supervision, List.filter_cons]

@[simp] theorem supervision_append (t u : List Effect) :
    supervision (t ++ u) = supervision t ++ supervision u := by
  simp [supervision]

theorem supervision_of_seen {t : List Effect} (h : seen t = []) : supervision t = [] := by
  rw [supervision, h]
  rfl

/-- A step of a path does about a device what is done about one way to end. -/
def Ends {α : Type} (dev : DeviceObj) (r : Step α) : Prop :=
  ∃ e : Ending, r.dev.retries = (e.account sdk dev).dev.retries ∧
    supervision r.trace = supervision (e.account sdk dev).trace

/-- The address of a device plays no part in the accounting. -/
theorem account_obtainAddress (e : Ending) (dev : DeviceObj) :
    (e.account sdk (obtainAddress sdk dev).dev).dev.retries =
        (e.account sdk dev).dev.retries ∧
      (e.account sdk (obtainAddress sdk dev).dev).trace = (e.account sdk dev).trace := by
  rw [obtainAddress_dev]
  cases e with
  | succeeded =>
    simp only [Ending.account, requestSucceeded]
    split <;> exact ⟨rfl, rfl⟩
  | failed =>
    simp only [Ending.account, requestFailed]
    split
    · exact ⟨rfl, rfl⟩
    · split <;> exact ⟨rfl, rfl⟩
  | assertion => exact ⟨rfl, rfl⟩
  | unaccounted => exact ⟨rfl, rfl⟩

/-- A step that ends one way after it has asked for the address. -/
theorem ends_of_account {α : Type} {dev : DeviceObj} {r : Step α} (e : Ending)
    (hr : r.dev.retries = (e.account sdk (obtainAddress sdk dev).dev).dev.retries)
    (ht : supervision r.trace =
      supervision (e.account sdk (obtainAddress sdk dev).dev).trace) : Ends sdk dev r := by
  obtain ⟨hretries, htrace⟩ := account_obtainAddress sdk e dev
  exact ⟨e, hr.trans hretries, ht.trans (by rw [htrace])⟩

@[simp] theorem supervision_obtainAddress (dev : DeviceObj) :
    supervision (obtainAddress sdk dev).trace = [] :=
  supervision_of_seen (seen_obtainAddress sdk dev)

@[simp] theorem supervision_updateLastConnected (devname : String) :
    supervision (updateLastConnected sdk devname) = [] :=
  supervision_of_seen (seen_updateLastConnected sdk devname)

@[simp] theorem supervision_sizeCheck : supervision (sizeCheck sdk) = [] :=
  supervision_of_seen (seen_sizeCheck sdk)

@[simp] theorem supervision_lookupCommand (prof : DeviceProfile) (name : String) (isGet : Bool) :
    supervision (lookupCommand sdk prof name isGet).2.2 = [] :=
  supervision_of_seen (seen_lookupCommand sdk prof name isGet)

theorem runget3_ends (dev : DeviceObj) (cmd : CmdInfo) (params : Option IotData) :
    Ends sdk dev (runget3 sdk dev cmd params) := by
  rw [runget3]
  split
  · exact ⟨.unaccounted, rfl, rfl⟩
  · dsimp only
    split
    · exact ends_of_account sdk .unaccounted rfl (by simp [Ending.account])
    · split
      · exact ends_of_account sdk .failed rfl (by simp [Ending.account])
      · split
        · refine ends_of_account sdk .assertion rfl ?_
          simp [Ending.account, obtainAddress_dev]
        · exact ends_of_account sdk .succeeded rfl (by simp [Ending.account])

theorem runput3_ends (dev : DeviceObj) (cmd : CmdInfo) (request params : Option IotData) :
    Ends sdk dev (runput3 sdk dev cmd request params) := by
  rw [runput3]
  dsimp only
  split
  · exact ⟨.unaccounted, rfl, rfl⟩
  · split
    · exact ends_of_account sdk .unaccounted rfl (by simp [Ending.account])
    · split
      · exact ends_of_account sdk .succeeded rfl (by simp [Ending.account])
      · exact ends_of_account sdk .failed rfl (by simp [Ending.account])

/-- What is not about supervision does not change how a step ends. -/
theorem Ends.congr {α β : Type} {dev : DeviceObj} {r : Step α} {r' : Step β} (h : Ends sdk dev r)
    (hdev : r'.dev = r.dev) (ht : supervision r'.trace = supervision r.trace) :
    Ends sdk dev r' := by
  obtain ⟨e, hr, htr⟩ := h
  exact ⟨e, by rw [hdev, hr], ht.trans htr⟩

theorem v3impl_ends (req : BusRequest) (isGet : Bool) (dev : DeviceObj) (prof : DeviceProfile) :
    Ends sdk dev (v3impl sdk req isGet dev prof) := by
  rw [v3impl]
  rcases runCommand_cases sdk _ _ req.cmd isGet dev prof with ⟨-, hdev, -, ht⟩ | ⟨cmd, -, -, hc⟩
  · refine ⟨.unaccounted, by rw [hdev]; rfl, ?_⟩
    rcases ht with ht | ht
    · simp [ht, Ending.account]
    · simp [ht, Ending.account]
  · rw [hc]
    cases isGet with
    | true =>
      refine (runget3_ends sdk dev cmd req.params).congr sdk ?_ ?_
      · simp only [if_true, get3]
        split <;> rfl
      · simp only [if_true, get3]
        split
        · simp
        · simp only [deliver3]
          split <;> simp
    | false =>
      refine (runput3_ends sdk dev cmd req.request req.params).congr sdk rfl ?_
      simp [put3]

/-- A request on the bus ends in one of these ways. -/
theorem v3dispatch_ends (req : BusRequest) (dev : DeviceObj) (prof : DeviceProfile) :
    Ends sdk dev (v3dispatch sdk req dev prof) := by
  rw [v3dispatch]
  split
  · exact v3impl_ends sdk req true dev prof
  · split
    · exact v3impl_ends sdk req false dev prof
    · exact ⟨.unaccounted, rfl, rfl⟩

theorem runReadings_ends (ai : AutoImpl) (dev : DeviceObj) (values : ℕ → CommandResult)
    (tags : Option IotData) : Ends sdk dev (runReadings sdk ai dev values tags) := by
  rw [runReadings]
  split
  · split
    · refine ⟨.succeeded, rfl, ?_⟩
      dsimp only
      split <;> simp [Ending.account]
    · exact ⟨.assertion, rfl, by simp [Ending.account]⟩
  · exact ⟨.succeeded, rfl, rfl⟩

/-- An autoevent ends in one of these ways. -/
theorem aeRun_ends (ai : AutoImpl) (dev : DeviceObj) (prof : DeviceProfile) :
    Ends sdk dev (aeRun sdk ai dev prof) := by
  rw [aeRun]
  split
  · exact ⟨.unaccounted, rfl, rfl⟩
  · dsimp only
    split
    · exact ends_of_account sdk .unaccounted rfl (by simp [Ending.account])
    · split
      · exact ends_of_account sdk .failed rfl (by simp [Ending.account])
      · next values tags _ =>
        obtain ⟨e, hr, ht⟩ := runReadings_ends sdk ai (obtainAddress sdk dev).dev values tags
        exact ends_of_account sdk e hr (by simp [ht])

-- ════════════════════════════════════════════════════════════════════════
-- The state over time
-- ════════════════════════════════════════════════════════════════════════

/-- What is recorded of a device. A request that ended is recorded with whether the device
    was up, and whether core-metadata was asked to mark it down; a probe with the command
    that was chosen, and the commands that the profile has. -/
inductive Happening
  | created (name : String)
  | wentUp (name : String)
  | ended (name : String) (how : Ending) (up down : Bool)
  | probed (sent : Option CmdInfo) (commands : List CmdInfo)

/-- The devices; the names of those that core-metadata is being asked to mark down, and that a
    return schedule is made for next; of the return schedules that have not fired yet; of the
    devices that the driver is being asked to probe; and what has happened, latest first. -/
structure Supervision where
  store : Store := Store.alloc
  marking : List String := []
  pending : List String := []
  probing : List String := []
  log : List Happening := []

/-- What happens to devices. A request that ended held the device at `d`. Core-metadata has
    answered a device that was `marked` down, and the driver has `answered` a probe. -/
inductive Incident
  | ended (d : DeviceRef) (how : Ending)
  | marked (name : String)
  | replaceDevice (dev : Device DeviceProfile)
  | removeDevice (name : String)
  | updateProfile (dp : DeviceProfile) (v : ℕ)
  | prepare (d : DeviceRef) (createRes : CreateRes)
  | fires (name : String) (createRes : CreateRes)
  | answered (name : String) (responsive : Bool)

/-- The operating state of the device in the map. -/
def Store.opstate (s : Store) (name : String) : Option OperatingState :=
  (s.devices.lookup name).map fun d => (s.device d).dev.operatingState

/-- What a callback that adds or updates a device amounts to. -/
def stateChange (name : String) (before after : Option OperatingState) : List Happening :=
  match before, after with
  | none, some _ => [.created name]
  | some .down, some .up => [.wentUp name]
  | _, _ => []

/-- The names that return schedules are made for. -/
def schedules (t : List Effect) : List String :=
  t.filterMap fun
    | .returnSchedule name _ => some name
    | _ => none

namespace Supervision

variable (uninit : FreshMemory)

/-- A request that held the device at `d` has ended. The schedule that its accounting makes is
    made once core-metadata has answered. -/
def ended (w : Supervision) (d : DeviceRef) (how : Ending) : Supervision :=
  let obj := w.store.device d
  let r := how.account sdk obj
  { w with
    store := w.store.modifyDevice d fun obj => { obj with retries := r.dev.retries }
    marking := schedules r.trace ++ w.marking
    log := .ended obj.dev.name how (decide (w.store.opstate obj.dev.name = some .up))
      (decide (.setOpstate obj.dev.name .down ∈ r.trace)) :: w.log }

/-- `devsdk_create_return_schedule`, after `devsdk_set_device_opstate` has returned. -/
def marked (w : Supervision) (name : String) : Supervision :=
  { w with marking := w.marking.erase name, pending := name :: w.pending }

/-- The commands of the profile of a device are prepared, on the first request for one. -/
def prepare (w : Supervision) (d : DeviceRef) (createRes : CreateRes) : Supervision :=
  { w with
    store :=
      { w.store with
        profile := Function.update w.store.profile (w.store.device d).dev.profile
          { w.store.profileOf d with
            profile := prepared createRes (w.store.profileOf d).profile } } }

/-- A return schedule fires: `devsdk_device_return`, up to the call of the driver. It leaves the
    device as it is. -/
def fires (w : Supervision) (name : String) (createRes : CreateRes) : Supervision :=
  let pending := w.pending.erase name
  match w.store.devices.lookup name with
  | none => { w with pending }
  | some d =>
    if (w.store.device d).dev.operatingState = .up then { w with pending }
    else
      let prof := (w.store.profileOf d).profile
      { w with
        pending
        probing := ((probeCommand prof.cmdinfo).map fun _ => name).toList ++ w.probing
        log := .probed (probeCommand prof.cmdinfo) (prepared createRes prof).cmdinfo :: w.log }

/-- `devsdk_device_return`, from the answer of the driver on. -/
def answered (w : Supervision) (name : String) (responsive : Bool) : Supervision :=
  { w with
    probing := w.probing.erase name
    pending := if responsive then w.pending else name :: w.pending }

/-- One incident. A schedule fires only if it is pending, and what was not asked is not
    answered. -/
def step (w : Supervision) : Incident → Supervision
  | .ended d how => w.ended sdk d how
  | .marked name => if name ∈ w.marking then w.marked name else w
  | .replaceDevice dev =>
    let s := (w.store.replaceDevice uninit sdk.device dev).1
    { w with
      store := s
      log := stateChange dev.name (w.store.opstate dev.name) (s.opstate dev.name) ++ w.log }
  | .removeDevice name => { w with store := (w.store.removedeviceByname name).1 }
  | .updateProfile dp v => { w with store := w.store.updateProfile dp v }
  | .prepare d createRes => w.prepare d createRes
  | .fires name createRes => if name ∈ w.pending then w.fires name createRes else w
  | .answered name responsive => if name ∈ w.probing then w.answered name responsive else w

/-- A schedule that fires changes no device. -/
theorem fires_store (w : Supervision) (name : String) (createRes : CreateRes) :
    (w.fires name createRes).store = w.store := by
  rw [fires]
  dsimp only
  split
  · rfl
  · split <;> rfl

/-- A probe of a device, and the driver's answer with nothing in between, leave the schedules
    that `devsdk_device_return` makes. -/
theorem fires_answered_pending {w : Supervision} {name : String} {d : DeviceRef}
    (hd : w.store.devices.lookup name = some d) (hp : name ∈ w.pending)
    (hidle : name ∉ w.probing) {responsive : Bool}
    (hdriver : ∀ cmd, probeCommand (w.store.profileOf d).profile.cmdinfo = some cmd →
      responsive = (sdk.driver.gethandler (w.store.device d).address
        ((cmd.reqs.take 1).map CmdReq.req) none).isOk) :
    (Run.final (step sdk uninit) w
      [.fires name sdk.driver.createRes, .answered name responsive]).pending =
    schedules (probe sdk name (w.store.device d) (w.store.profileOf d).profile).trace ++
      w.pending.erase name := by
  rw [Run.final_cons, Run.final_cons, Run.final_nil, step, if_pos hp, step, probe, fires]
  dsimp only
  rw [hd]
  dsimp only
  split
  · rfl
  · cases hcmd : probeCommand (w.store.profileOf d).profile.cmdinfo with
    | none => exact congrArg pending (if_neg hidle)
    | some cmd =>
      dsimp only
      have hasked : name ∈ (Option.map (fun _ => name) (some cmd)).toList ++ w.probing :=
        List.mem_cons_self
      rw [if_pos hasked, answered, hdriver cmd hcmd]
      cases sdk.driver.gethandler (w.store.device d).address
        ((cmd.reqs.take 1).map CmdReq.req) none <;> rfl

end Supervision

end DeviceSdk
