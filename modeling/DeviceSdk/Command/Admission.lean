import DeviceSdk.Command.Entry
import DeviceSdk.Lib.Run

/-!
# Admission of driver calls

Four paths lead to the driver, and each makes checks of its own before it calls it. Here
they are steps of one service, in any order, between changes of the admin state of the
service and of its devices.

Commands over REST and on the message bus check everything. The autoevent runner does not
look at `MaxCmdOps`, nor at whether a resource is readable; a probe looks at neither admin
state, and may pick a command that is not readable.

## Main definitions

- `Effect.Admitted` — what is asked of a call to the driver
- `LiveService`, `Input`, `LiveService.step` — a service and what happens to it
- `Input.Checked` — the condition under which an input leads to no other calls

## Main results

- `service_admitted_iff` — the runs in which all calls are admitted
-/

namespace DeviceSdk

variable (sdk : Sdk)

/-- A call to the driver is admitted: the service and the device are unlocked, there are
    no more requests than `MaxCmdOps`, and the resources are readable or writable. -/
def Effect.Admitted (dev : DeviceObj) : Effect → Prop
  | gethandler _ reqs _ => sdk.adminstate = .unlocked ∧ dev.dev.adminState = .unlocked ∧
      withinMaxCmdOps sdk reqs.length = true ∧ ∀ r ∈ reqs, r.pval.readable = true
  | puthandler _ reqs _ _ => sdk.adminstate = .unlocked ∧ dev.dev.adminState = .unlocked ∧
      withinMaxCmdOps sdk reqs.length = true ∧ ∀ r ∈ reqs, r.pval.writable = true
  | _ => True

instance (dev : DeviceObj) : DecidablePred (Effect.Admitted sdk dev)
  | .gethandler _ _ _ | .puthandler _ _ _ _ => inferInstanceAs (Decidable (_ ∧ _ ∧ _ ∧ _))
  | .byname _ _ | .release | .inspect | .findcommand _ _ | .createAddr _ | .processEvent |
    .eventSize | .publish _ | .writeEvent _ | .lastConnected _ | .setOpstate _ _ |
    .returnSchedule _ _ => isTrue trivial

@[simp] theorem admitted_publish (dev : DeviceObj) (ev : Event) :
    (Effect.publish ev).Admitted sdk dev := trivial

@[simp] theorem admitted_setOpstate (dev : DeviceObj) (devname : String) (st : OperatingState) :
    (Effect.setOpstate devname st).Admitted sdk dev := trivial

@[simp] theorem admitted_returnSchedule (dev : DeviceObj) (devname : String) (wait : BitVec 64) :
    (Effect.returnSchedule devname wait).Admitted sdk dev := trivial

/-- Every call in a trace is admitted. -/
def Admits (dev : DeviceObj) (t : List Effect) : Prop := ∀ e ∈ t, e.Admitted sdk dev

/-- Only what is seen from outside needs to be looked at. -/
theorem admits_iff_seen (dev : DeviceObj) (t : List Effect) :
    Admits sdk dev t ↔ ∀ e ∈ seen t, e.Admitted sdk dev := by
  constructor
  · intro h e he
    exact h e (List.mem_filter.mp he).1
  · intro h e he
    by_cases hs : e.seen = true
    · exact h e (List.mem_filter.mpr ⟨he, hs⟩)
    · cases e <;> first | exact trivial | exact absurd rfl hs

theorem requestFailed_admitted (dev dev' : DeviceObj) :
    ∀ e ∈ seen (requestFailed sdk dev).trace, e.Admitted sdk dev' := by
  rw [seen_requestFailed]
  split
  · split <;> simp
  · simp

theorem requestSucceeded_admitted (dev dev' : DeviceObj) :
    ∀ e ∈ seen (requestSucceeded sdk dev).trace, e.Admitted sdk dev' := by
  rw [seen_requestSucceeded]
  split <;> simp

theorem unreadable_eq_none_iff (cmd : CmdInfo) :
    unreadable cmd = none ↔ ∀ r ∈ cmd.reqs, r.pval.readable = true := by
  simp [unreadable]

section Commands

variable {sdk} {dev : DeviceObj} {cmd : CmdInfo} (hs : sdk.adminstate = .unlocked)
  (hr : refusal sdk dev cmd = none)
include hs hr

theorem admitted_gethandler (hu : unreadable cmd = none) (address : Option Opaque)
    (params : Option IotData) : (Effect.gethandler address cmd.reqs params).Admitted sdk dev := by
  obtain ⟨hd, -, hm⟩ := (refusal_eq_none_iff sdk dev cmd).mp hr
  exact ⟨hs, hd, hm, (unreadable_eq_none_iff cmd).mp hu⟩

theorem admitted_puthandler (hw : ∀ r ∈ cmd.reqs, r.pval.writable = true)
    (address : Option Opaque) (values : List (Option IotData)) (params : Option IotData) :
    (Effect.puthandler address cmd.reqs values params).Admitted sdk dev := by
  obtain ⟨hd, -, hm⟩ := (refusal_eq_none_iff sdk dev cmd).mp hr
  exact ⟨hs, hd, hm, hw⟩

theorem runget2_admits (params : Option IotData) (reply : HttpReply) :
    Admits sdk dev (runget2 sdk dev cmd params reply).trace := by
  rw [admits_iff_seen, runget2]
  cases hu : unreadable cmd with
  | some r => simp
  | none =>
    have hcall := admitted_gethandler hs hr hu
    dsimp only
    split
    · simp
    · split
      · simpa using hcall _ _
      · split <;> simpa using hcall _ _

theorem runget3_admits (params : Option IotData) :
    Admits sdk dev (runget3 sdk dev cmd params).trace := by
  rw [admits_iff_seen, runget3]
  cases hu : unreadable cmd with
  | some r => simp
  | none =>
    have hcall := admitted_gethandler hs hr hu
    dsimp only
    split
    · simp
    · split
      · simpa using ⟨hcall _ _, requestFailed_admitted sdk _ dev⟩
      · split
        · simpa using hcall _ _
        · simpa using ⟨hcall _ _, requestSucceeded_admitted sdk _ dev⟩

theorem runput2_admits (params : Option IotData) (rdata : ReqData) :
    Admits sdk dev (runput2 sdk dev cmd params rdata).trace := by
  rw [admits_iff_seen, runput2]
  dsimp only
  split
  · next hok =>
    have hcall := admitted_puthandler hs hr fun r hr' => by
      obtain ⟨v, hv⟩ := ((convertAll2_ok_iff sdk rdata cmd.reqs {}).mp hok).2 r hr'
      exact ((convert2_eq_ok_iff sdk rdata r v).mp hv).1
    split
    · simp
    · split <;> simpa using hcall _ _ _
  · simp

theorem runput3_admits (request params : Option IotData) :
    Admits sdk dev (runput3 sdk dev cmd request params).trace := by
  rw [admits_iff_seen, runput3]
  dsimp only
  split
  · simp
  · next hok =>
    have hcall := admitted_puthandler hs hr fun r hr' => by
      obtain ⟨v, hv⟩ := (convertAll3_none_iff sdk request cmd.reqs).mp hok r hr'
      exact ((convert3_eq_ok_iff sdk request r v).mp hv).1
    split
    · simp
    · split
      · simpa using ⟨hcall _ _ _, requestSucceeded_admitted sdk _ dev⟩
      · simpa using ⟨hcall _ _ _, requestFailed_admitted sdk _ dev⟩

end Commands

/-- A command handler makes admitted calls if what it does with a command that is not
    refused does. -/
theorem runCommand_admits {ρ : Type} {answers : Answers ρ} {run : CmdInfo → Step ρ}
    {dev : DeviceObj} (hrun : ∀ cmd, refusal sdk dev cmd = none → Admits sdk dev (run cmd).trace)
    (cmdname : String) (isGet : Bool) (prof : DeviceProfile) :
    Admits sdk dev (runCommand sdk answers run cmdname isGet dev prof).trace := by
  rw [admits_iff_seen]
  rcases runCommand_cases sdk answers run cmdname isGet dev prof with
    ⟨-, -, -, ht⟩ | ⟨cmd, -, hr, hc⟩
  · rcases ht with ht | ht
    · simp [ht]
    · simp [ht]
  · simpa [hc] using (admits_iff_seen sdk dev _).mp (hrun cmd hr)

section Handlers

variable {sdk} (hs : sdk.adminstate = .unlocked)
include hs

theorem v2impl_admits (req : HttpRequest) (dev : DeviceObj) (prof : DeviceProfile) :
    Admits sdk dev (v2impl sdk req dev prof).trace := by
  refine runCommand_admits sdk (fun cmd hr => ?_) _ _ _
  rw [admits_iff_seen]
  split
  · have hget := (admits_iff_seen sdk dev _).mp (runget2_admits hs hr req.qparams {})
    rw [get2]
    split
    · simpa using hget
    · rw [deliver2]
      cases pushes2 req.qparams <;> cases returns2 req.qparams <;>
        simpa [or_imp, forall_and] using hget
  · rw [put2]
    split
    · simp
    · simp
    · next rdata _ =>
      simpa using (admits_iff_seen sdk dev _).mp (runput2_admits hs hr req.qparams rdata)

theorem v3impl_admits (req : BusRequest) (isGet : Bool) (dev : DeviceObj)
    (prof : DeviceProfile) : Admits sdk dev (v3impl sdk req isGet dev prof).trace := by
  refine runCommand_admits sdk (fun cmd hr => ?_) _ _ _
  rw [admits_iff_seen]
  split
  · have hget := (admits_iff_seen sdk dev _).mp (runget3_admits hs hr req.params)
    rw [get3]
    split
    · simpa using hget
    · rw [deliver3]
      cases IotData.stringMapGetBool req.params dsPush false <;>
        simpa [or_imp, forall_and] using hget
  · simpa [put3] using (admits_iff_seen sdk dev _).mp (runput3_admits hs hr req.request req.params)

theorem v3dispatch_admits (req : BusRequest) (dev : DeviceObj) (prof : DeviceProfile) :
    Admits sdk dev (v3dispatch sdk req dev prof).trace := by
  rw [v3dispatch]
  split
  · exact v3impl_admits hs req true dev prof
  · split
    · exact v3impl_admits hs req false dev prof
    · simp [Admits]

end Handlers

/-- An autoevent is checked as commands are: it fires on a device that is locked or down,
    or has no address; or it makes no more requests than `MaxCmdOps`, of resources that are
    readable. -/
def AutoChecked (ai : AutoImpl) (dev : DeviceObj) : Prop :=
  sdk.adminstate = .unlocked → dev.dev.adminState = .unlocked → dev.dev.operatingState = .up →
    AddressAvailable sdk dev →
      withinMaxCmdOps sdk ai.resource.nreqs = true ∧ unreadable ai.resource = none

/-- A probe is checked as commands are: the device is up or there is no command to probe it
    with; or the service and the device are unlocked, and the resource is readable. -/
def ProbeChecked (dev : DeviceObj) (prof : DeviceProfile) : Prop :=
  dev.dev.operatingState = .down → ∀ cmd, probeCommand prof.cmdinfo = some cmd →
    sdk.adminstate = .unlocked ∧ dev.dev.adminState = .unlocked ∧
      ∀ r ∈ cmd.reqs.take 1, r.pval.readable = true

theorem runReadings_admitted (ai : AutoImpl) (dev dev' : DeviceObj) (values : ℕ → CommandResult)
    (tags : Option IotData) :
    ∀ e ∈ seen (runReadings sdk ai dev values tags).trace, e.Admitted sdk dev' := by
  rw [runReadings]
  split
  · split
    · dsimp only
      split <;> simpa using requestSucceeded_admitted sdk dev dev'
    · simp
  · exact requestSucceeded_admitted sdk dev dev'

theorem aeRun_admits_iff (ai : AutoImpl) (dev : DeviceObj) (prof : DeviceProfile) :
    Admits sdk dev (aeRun sdk ai dev prof).trace ↔ AutoChecked sdk ai dev := by
  rw [admits_iff_seen, aeRun]
  split
  · next hno =>
    refine iff_of_true (by simp) fun hs hd ho => ?_
    simp [hs, hd, ho] at hno
  · next hyes =>
    obtain ⟨hs, hd, ho⟩ : sdk.adminstate = .unlocked ∧ dev.dev.adminState = .unlocked ∧
        dev.dev.operatingState = .up := by
      cases ho : dev.dev.operatingState <;>
        simp_all [not_or, AdminState.ne_locked_iff, ← ne_eq]
    have hcall : ∀ address, (Effect.gethandler address ai.resource.reqs none).Admitted sdk dev ↔
        withinMaxCmdOps sdk ai.resource.nreqs = true ∧ unreadable ai.resource = none := by
      intro address
      rw [unreadable_eq_none_iff]
      exact ⟨fun h => h.2.2, fun h => ⟨hs, hd, h⟩⟩
    dsimp only
    cases ha : (obtainAddress sdk dev).val.1 with
    | none =>
      refine iff_of_true (by simp) fun _ _ _ havail => ?_
      simp [AddressAvailable, ha] at havail
    | some address =>
      have hiff : AutoChecked sdk ai dev ↔
          (Effect.gethandler (some address) ai.resource.reqs none).Admitted sdk dev := by
        rw [hcall]
        simp [AutoChecked, hs, hd, ho, AddressAvailable, ha]
      rw [hiff]
      dsimp only
      split
      · simpa using fun _ => requestFailed_admitted sdk _ dev
      · simpa using fun _ => runReadings_admitted sdk ai _ dev _ _

theorem withinMaxCmdOps_of_le_one {n : ℕ} (h : n ≤ 1) : withinMaxCmdOps sdk n = true := by
  rw [withinMaxCmdOps, Bool.or_eq_true, decide_eq_true_eq, decide_eq_true_eq]
  by_cases hz : sdk.device.maxcmdops.toNat = 0
  · exact Or.inl (BitVec.eq_of_toNat_eq hz)
  · exact Or.inr (by omega)

theorem probe_admits_iff (name : String) (dev : DeviceObj) (prof : DeviceProfile) :
    Admits sdk dev (probe sdk name dev prof).trace ↔ ProbeChecked sdk dev prof := by
  rw [admits_iff_seen, probe]
  split
  · next hup =>
    refine iff_of_true (by simp) fun hdown => ?_
    rw [hup] at hdown
    cases hdown
  · next hup =>
    have hdown : dev.dev.operatingState = .down := by
      cases ho : dev.dev.operatingState with
      | up => exact absurd ho hup
      | down => rfl
    split
    · next hnone => exact iff_of_true (by simp) fun _ cmd hc => by simp [hnone] at hc
    · next cmd hcmd =>
      have hone := withinMaxCmdOps_of_le_one sdk (List.length_take_le 1 cmd.reqs)
      have hiff : ProbeChecked sdk dev prof ↔
          (Effect.gethandler dev.address (cmd.reqs.take 1) none).Admitted sdk dev := by
        constructor
        · intro h
          obtain ⟨hs, hd, hread⟩ := h hdown cmd hcmd
          exact ⟨hs, hd, hone, hread⟩
        · rintro ⟨hs, hd, -, hread⟩ _ cmd' hcmd'
          obtain rfl : cmd = cmd' := Option.some.inj (hcmd.symm.trans hcmd')
          exact ⟨hs, hd, hread⟩
      rw [hiff]
      dsimp only
      split <;> simp

-- ════════════════════════════════════════════════════════════════════════
-- Runs of a service
-- ════════════════════════════════════════════════════════════════════════

/-- Something that a path did, with the service and the device as the path found them. -/
structure Performed where
  sdk : Sdk
  dev : DeviceObj
  effect : Effect

/-- A service that is running: its devices, its admin state, and what it has done. -/
structure LiveService where
  store : Store := Store.alloc
  adminstate : AdminState := .unlocked
  performed : List Performed := []

/-- What happens to a service: a command, a tick of an autoevent, a probe, or a change of
    an admin state. That of a device is changed by the callback that updates the device. -/
inductive Input
  | rest (req : HttpRequest)
  | bus (req : BusRequest)
  | tick (ai : AutoImpl)
  | probe (name : String)
  | setAdminstate (st : AdminState)
  | replaceDevice (dev : Device DeviceProfile)
  | removeDevice (name : String)
  | updateProfile (dp : DeviceProfile) (v : ℕ)

namespace LiveService

/-- The service as a path finds it. The driver, the clock and the configuration are those
    of the moment. -/
def current (w : LiveService) (sdk : Sdk) : Sdk := { sdk with adminstate := w.adminstate }

/-- An entry point has dealt with the device of a name. -/
def handled {α : Type} (w : LiveService) (sdk : Sdk) (name : String) (h : Handled α) : LiveService :=
  { w with
    store := h.store
    performed := w.performed ++
      match w.store.found name with
      | none => []
      | some (dev, _) => h.trace.map fun effect => { sdk, dev, effect } }

/-- One input, with the driver and so on at that moment. -/
def step (uninit : FreshMemory) (w : LiveService) (i : Sdk × Input) : LiveService :=
  match i.2 with
  | .rest req => w.handled (w.current i.1) req.name (handlerV2 (w.current i.1) w.store req)
  | .bus req => w.handled (w.current i.1) req.device (handlerV3 (w.current i.1) w.store req)
  | .tick ai => w.handled (w.current i.1) ai.device (aeRunner (w.current i.1) w.store ai)
  | .probe name => w.handled (w.current i.1) name (deviceReturn (w.current i.1) w.store name)
  | .setAdminstate st => { w with adminstate := st }
  | .replaceDevice dev => { w with store := (w.store.replaceDevice uninit i.1.device dev).1 }
  | .removeDevice name => { w with store := (w.store.removedeviceByname name).1 }
  | .updateProfile dp v => { w with store := w.store.updateProfile dp v }

/-- Every call that the service has made to the driver was admitted. -/
def AllAdmitted (w : LiveService) : Prop := ∀ p ∈ w.performed, p.effect.Admitted p.sdk p.dev

instance (w : LiveService) : Decidable w.AllAdmitted :=
  inferInstanceAs (Decidable (∀ p ∈ w.performed, p.effect.Admitted p.sdk p.dev))

end LiveService

/-- An input is checked as commands are. Commands always are. -/
def Input.Checked (sdk : Sdk) (s : Store) : Input → Prop
  | tick ai => ∀ dev prof, s.found ai.device = some (dev, prof) → AutoChecked sdk ai dev
  | probe name => ∀ dev prof, s.found name = some (dev, prof) → ProbeChecked sdk dev prof
  | _ => True

/-- What an entry point adds to the record. -/
theorem handled_allAdmitted_iff {α : Type} {w : LiveService} (hw : w.AllAdmitted) (name : String)
    (h : Handled α) : (w.handled sdk name h).AllAdmitted ↔
      ∀ dev prof, w.store.found name = some (dev, prof) → Admits sdk dev h.trace := by
  rw [LiveService.AllAdmitted, LiveService.handled]
  cases hf : w.store.found name with
  | none =>
    simp only [List.append_nil, reduceCtorEq, false_implies, implies_true, iff_true]
    exact hw
  | some r =>
    obtain ⟨dev, prof⟩ := r
    simp only [List.mem_append, List.mem_map, Option.some.injEq]
    constructor
    · rintro hall dev' prof' he e hm
      obtain ⟨rfl, rfl⟩ := Prod.mk.inj he
      exact hall _ (Or.inr ⟨e, hm, rfl⟩)
    · rintro hall p (hp | ⟨e, hm, rfl⟩)
      · exact hw p hp
      · exact hall dev prof rfl e hm

/-- The work on a device is what counts of an entry point. -/
theorem onDevice_admits_iff {α : Type} {s : Store} {name : String} {dev : DeviceObj}
    {prof : DeviceProfile} (hf : s.found name = some (dev, prof))
    (f : DeviceObj → DeviceProfile → Step (α × DeviceProfile)) (absent : α) :
    Admits sdk dev (onDevice s name f absent).trace ↔ Admits sdk dev (f dev prof).trace := by
  rw [(onDevice_found hf).1, admits_iff_seen, admits_iff_seen]
  simp

theorem LiveService.step_allAdmitted_iff (uninit : FreshMemory) {w : LiveService}
    (hw : w.AllAdmitted) (i : Sdk × Input) :
    (w.step uninit i).AllAdmitted ↔ i.2.Checked (w.current i.1) w.store := by
  obtain ⟨sdk, i⟩ := i
  -- commands are turned down when the service is locked, and checked otherwise
  have hcommand : ∀ {α : Type} (name : String)
      (f : DeviceObj → DeviceProfile → Step (α × DeviceProfile)) (locked absent : α),
      (w.adminstate = .unlocked → ∀ dev prof, Admits (w.current sdk) dev (f dev prof).trace) →
      (w.handled (w.current sdk) name
        (if (w.current sdk).adminstate = .locked then
          { store := w.store, val := locked, trace := [] }
        else onDevice w.store name f absent)).AllAdmitted := by
    intro α name f locked absent hf
    rw [handled_allAdmitted_iff _ hw]
    intro dev prof hfound
    split
    · simp [Admits]
    · next hl =>
      rw [onDevice_admits_iff _ hfound]
      exact hf (AdminState.ne_locked_iff.mp hl) dev prof
  cases i with
  | rest req =>
    exact iff_of_true (hcommand _ _ _ _ fun hs => v2impl_admits hs req) trivial
  | bus req =>
    exact iff_of_true (hcommand _ _ _ _ fun hs => v3dispatch_admits hs req) trivial
  | tick ai =>
    refine (handled_allAdmitted_iff _ hw _ _).trans ?_
    refine forall_congr' fun dev => forall_congr' fun prof => forall_congr' fun hf => ?_
    rw [aeRunner, onDevice_admits_iff _ hf, aeRun_admits_iff]
  | probe name =>
    refine (handled_allAdmitted_iff _ hw _ _).trans ?_
    refine forall_congr' fun dev => forall_congr' fun prof => forall_congr' fun hf => ?_
    rw [deviceReturn, onDevice_admits_iff _ hf, probe_admits_iff]
  | setAdminstate st => exact iff_of_true hw trivial
  | replaceDevice dev => exact iff_of_true hw trivial
  | removeDevice name => exact iff_of_true hw trivial
  | updateProfile dp v => exact iff_of_true hw trivial

/-- In a run of a service all calls to the driver are admitted exactly if every autoevent
    and every probe is checked as commands are. -/
theorem service_admitted_iff (uninit : FreshMemory) (store : Store) (adminstate : AdminState)
    (inputs : List (Sdk × Input)) :
    Run.Always (LiveService.step uninit) LiveService.AllAdmitted { store, adminstate } inputs ↔
      Run.Meets (LiveService.step uninit) (fun w i => i.2.Checked (w.current i.1) w.store)
        { store, adminstate } inputs :=
  Run.always_iff_meets (I := fun _ => True) (fun _ _ _ _ _ => trivial)
    (fun _ i _ hw => LiveService.step_allAdmitted_iff uninit hw i) trivial
    (by simp [LiveService.AllAdmitted]) inputs

/-- A lamp, in the given states. -/
def lamp (adminState : AdminState) (operatingState : OperatingState) : Device DeviceProfile :=
  { name := "lamp", profile := .placeholder "lamp", adminState, operatingState }

/-- A profile with one resource, which can be read. -/
def lampProfile : DeviceProfile where
  name := "lamp"
  deviceResources := [{ name := "state", properties := { type := ⟨.string, .multi, .string⟩ } }]

/-- A lamp is read, is locked while it is down, and is probed. -/
def probedWhileLocked : List (Sdk × Input) :=
  [(sampleSdk, .updateProfile lampProfile 1), (sampleSdk, .replaceDevice (lamp .unlocked .up)),
    (sampleSdk, .rest { name := "lamp", cmd := "state", isGet := true }),
    (sampleSdk, .replaceDevice (lamp .locked .down)), (sampleSdk, .probe "lamp")]

/-- The driver is called for a device that is locked. -/
theorem probedWhileLocked_not_admitted :
    ¬ Run.Always (LiveService.step fun _ => none) LiveService.AllAdmitted {} probedWhileLocked := by
  rintro ⟨-, -, -, -, -, h⟩
  have hlast : (Run.final (LiveService.step fun _ => none) {} probedWhileLocked).AllAdmitted := h
  exact absurd hlast (by decide)

end DeviceSdk
