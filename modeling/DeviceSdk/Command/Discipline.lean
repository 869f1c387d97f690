import DeviceSdk.Command.Entry
import DeviceSdk.DevMap.Frame

/-!
# References to devices on the command paths

A path that has found a device holds a reference to it, must release it once, and must
not look at the device, its profile, or an event that refers to their strings any more
after that.

Autoevents and probes do so. The command handlers encode the event of a get request
after they released the device, and the bus handler does not release it at all for an
operation other than get and set; the posting of readings releases the device before it
builds the event.

## Main definitions

- `Disciplined` — what is asked of a path
- `EventBuilt` — when a get request builds an event

## Main results

- `paths_disciplined_iff` — which requests are handled as they should be
-/

namespace DeviceSdk

namespace Effect

/-- The path reads the device, its profile or a command of its profile. -/
def readsDevice : Effect → Bool
  | inspect | findcommand _ _ | createAddr _ | gethandler _ _ _ | puthandler _ _ _ _ |
    processEvent => true
  | _ => false

/-- The path reads the strings of an event, some of which are those of the device and
    its profile. -/
def readsEvent : Effect → Bool
  | eventSize | publish _ | writeEvent _ => true
  | _ => false

/-- A reference to a device was obtained. -/
def acquires : Effect → Bool
  | byname _ found => found
  | _ => false

/-- Neither obtains a reference nor releases one. -/
@[simp] def plain : Effect → Bool
  | byname _ found => !found
  | release => false
  | _ => true

end Effect

/-- Every reference is released once, nothing is read after the release, and reference
    counts come out as they were. -/
structure Disciplined (s : Store) (store : Store) (t : List Effect) : Prop where
  balanced : t.countP Effect.acquires = t.count .release
  quiet : ∀ pre post, t = pre ++ .release :: post →
    ∀ e ∈ post, e.readsDevice = false ∧ e.readsEvent = false
  refs : ∀ d, (store.device d).refs = (s.device d).refs

section Plain

theorem countP_acquires_of_plain {t : List Effect} (h : t.all Effect.plain = true) :
    t.countP Effect.acquires = 0 := by
  rw [List.countP_eq_zero]
  intro e he
  have hp := List.all_eq_true.mp h e he
  cases e <;> simp_all [Effect.acquires]

theorem release_notMem_of_plain {t : List Effect} (h : t.all Effect.plain = true) :
    Effect.release ∉ t := by
  intro hm
  have hp := List.all_eq_true.mp h _ hm
  simp [Effect.plain] at hp

theorem applyReleases_of_plain (s : Store) (d : DeviceRef) {t : List Effect}
    (h : t.all Effect.plain = true) : s.applyReleases d t = s := by
  induction t with
  | nil => rfl
  | cons e t ih =>
    simp only [List.all_cons, Bool.and_eq_true] at h
    have he : e ≠ .release := by
      rintro rfl
      simp [Effect.plain] at h
    rw [Store.applyReleases, List.foldl_cons, if_neg he]
    exact ih h.2

theorem applyReleases_append (s : Store) (d : DeviceRef) (t u : List Effect) :
    s.applyReleases d (t ++ u) = (s.applyReleases d t).applyReleases d u :=
  List.foldl_append

end Plain

/-- A device after a path wrote to it. -/
theorem writeBack_device (s : Store) (d e : DeviceRef) (dev : DeviceObj) (prof : DeviceProfile) :
    (s.writeBack d dev prof).device e =
      if e = d then { s.device d with address := dev.address, retries := dev.retries }
      else s.device e := by
  show (s.modifyDevice d fun obj =>
    { obj with address := dev.address, retries := dev.retries }).device e = _
  by_cases he : e = d
  · subst he
    rw [Store.modifyDevice_device_self, if_pos rfl]
  · rw [Store.modifyDevice_device_of_ne _ _ he, if_neg he]

/-- A device while a path holds it. -/
theorem deviceByname_device {s : Store} {name : String} {d : DeviceRef}
    (hd : s.devices.lookup name = some d) (e : DeviceRef) :
    (s.deviceByname name).1.device e =
      { s.device e with refs := (s.device e).refs + if e = d then 1 else 0 } := by
  have hs : (s.deviceByname name).1 =
      s.modifyDevice d fun obj => { obj with refs := obj.refs + 1 } := by
    simp [Store.deviceByname, hd]
  rw [hs]
  by_cases he : e = d
  · subst he
    rw [Store.modifyDevice_device_self, if_pos rfl]
  · rw [Store.modifyDevice_device_of_ne _ _ he, if_neg he, Nat.add_zero]

section Paths

variable {α : Type} {s : Store} {name : String}
  {f : DeviceObj → DeviceProfile → Step (α × DeviceProfile)} {absent : α}

/-- A device that is not there is not worked on. -/
theorem disciplined_absent (hn : s.found name = none) {after : List Effect}
    (ha : after.all Effect.plain = true) :
    Disciplined s (onDevice s name f absent).store
      ((onDevice s name f absent).trace ++ after) := by
  have hl : s.devices.lookup name = none := by simpa [Store.found] using hn
  have ht : onDevice s name f absent =
      { store := s, val := absent, trace := [.byname name false] } := by
    simp [onDevice, hl]
  have hnot : Effect.release ∉ [Effect.byname name false] ++ after := by
    simpa using release_notMem_of_plain ha
  rw [ht]
  refine ⟨?_, ?_, fun _ => rfl⟩
  · rw [List.count_eq_zero.mpr hnot, List.countP_append, countP_acquires_of_plain ha]
    rfl
  · intro pre post he
    exact absurd (he ▸ List.mem_append_right _ List.mem_cons_self) hnot

/-- A path that releases the device once, after `pre` and before `post`, is disciplined
    exactly if it reads nothing in `post`. -/
theorem disciplined_found_iff {dev : DeviceObj} {prof : DeviceProfile}
    (hf : s.found name = some (dev, prof)) {pre post after : List Effect}
    (ht : (f dev prof).trace = pre ++ .release :: post) (hpre : pre.all Effect.plain = true)
    (hpost : post.all Effect.plain = true) (hafter : after.all Effect.plain = true) :
    Disciplined s (onDevice s name f absent).store
        ((onDevice s name f absent).trace ++ after) ↔
      ∀ e ∈ post ++ after, e.readsDevice = false ∧ e.readsEvent = false := by
  obtain ⟨d, hd, hdp⟩ := Option.map_eq_some_iff.mp hf
  obtain ⟨rfl, rfl⟩ := Prod.mk.inj hdp
  have htrace : (onDevice s name f absent).trace ++ after =
      (.byname name true :: pre) ++ .release :: (post ++ after) := by
    simp [(onDevice_found hf).1, ht]
  have hrest : (post ++ after).all Effect.plain = true := by simp [hpost, hafter]
  have hfirst : Effect.release ∉ Effect.byname name true :: pre := by
    simpa using release_notMem_of_plain hpre
  constructor
  · intro h e he
    exact h.quiet _ _ htrace e he
  · intro h
    refine ⟨?_, ?_, ?_⟩
    · rw [htrace, List.countP_append, List.countP_cons, List.countP_cons, List.count_append,
        List.count_cons_self, countP_acquires_of_plain hpre, countP_acquires_of_plain hrest,
        List.count_eq_zero.mpr hfirst,
        List.count_eq_zero.mpr (release_notMem_of_plain hrest)]
      rfl
    · intro pre' post' he e hm
      -- there is no other release in the trace
      rw [htrace] at he
      obtain ⟨-, -, hsame⟩ :=
        (List.append_cons_inj_of_notMem hfirst (release_notMem_of_plain hrest)).mp he
      exact h e (hsame ▸ hm)
    · intro e
      have hstore : (onDevice s name f absent).store =
          (((s.deviceByname name).1.writeBack d (f ((s.deviceByname name).1.device d)
            ((s.deviceByname name).1.profileOf d).profile).dev
            (f ((s.deviceByname name).1.device d)
              ((s.deviceByname name).1.profileOf d).profile).val.2).deviceRelease d) := by
        have hone : ∀ t : Store, t.applyReleases d (pre ++ .release :: post) =
            t.deviceRelease d := by
          intro t
          rw [applyReleases_append, applyReleases_of_plain t d hpre]
          exact applyReleases_of_plain (t.deviceRelease d) d hpost
        simp [onDevice, hd, ht, hone]
      rw [hstore, Store.deviceRelease_device]
      dsimp only
      rw [writeBack_device]
      simp only [deviceByname_device hd]
      split <;> simp [*]

end Paths

variable (sdk : Sdk)

@[simp] theorem obtainAddress_plain (dev : DeviceObj) :
    (obtainAddress sdk dev).trace.all Effect.plain = true := by
  rcases obtainAddress_trace sdk dev with h | h <;> simp [h]

@[simp] theorem updateLastConnected_plain (devname : String) :
    (updateLastConnected sdk devname).all Effect.plain = true := by
  rw [updateLastConnected]
  split <;> rfl

@[simp] theorem sizeCheck_plain : (sizeCheck sdk).all Effect.plain = true := by
  rw [sizeCheck]
  split <;> rfl

@[simp] theorem requestFailed_plain (dev : DeviceObj) :
    (requestFailed sdk dev).trace.all Effect.plain = true := by
  rw [requestFailed]
  split
  · rfl
  · dsimp only
    split
    · split <;> rfl
    · rfl

@[simp] theorem requestSucceeded_plain (dev : DeviceObj) :
    (requestSucceeded sdk dev).trace.all Effect.plain = true := by
  rw [requestSucceeded]
  split
  · rfl
  · dsimp only
    split <;> rfl

@[simp] theorem runput2_plain (dev : DeviceObj) (cmd : CmdInfo) (params : Option IotData)
    (rdata : ReqData) : (runput2 sdk dev cmd params rdata).trace.all Effect.plain = true := by
  rw [runput2]
  dsimp only
  split
  · split
    · simp
    · split <;> simp
  · rfl

@[simp] theorem runput3_plain (dev : DeviceObj) (cmd : CmdInfo)
    (request params : Option IotData) :
    (runput3 sdk dev cmd request params).trace.all Effect.plain = true := by
  rw [runput3]
  dsimp only
  split
  · rfl
  · split
    · simp
    · split <;> simp

@[simp] theorem runget2_plain (dev : DeviceObj) (cmd : CmdInfo) (params : Option IotData)
    (reply : HttpReply) : (runget2 sdk dev cmd params reply).trace.all Effect.plain = true := by
  rw [runget2]
  split
  · rfl
  · dsimp only
    split
    · simp
    · split
      · simp
      · split <;> simp

@[simp] theorem runget3_plain (dev : DeviceObj) (cmd : CmdInfo) (params : Option IotData) :
    (runget3 sdk dev cmd params).trace.all Effect.plain = true := by
  rw [runget3]
  split
  · rfl
  · dsimp only
    split
    · simp
    · split
      · simp
      · split <;> simp

@[simp] theorem lookupCommand_plain (prof : DeviceProfile) (name : String) (isGet : Bool) :
    (lookupCommand sdk prof name isGet).2.2.all Effect.plain = true := by
  rw [lookupCommand]
  dsimp only
  split <;> simp

/-- A get request gets an event from the driver: the resources are readable, there is an
    address, and the driver answers with readings that pass the assertions and give an
    event that is not too large. -/
def EventBuilt (dev : DeviceObj) (cmd : CmdInfo) (params : Option IotData) (ev : Event) : Prop :=
  ∃ address values tags, unreadable cmd = none ∧ (obtainAddress sdk dev).val.1 = some address ∧
    sdk.driver.gethandler (some address) (cmd.reqs.map CmdReq.req) params = .ok (values, tags) ∧
    cookEvent sdk dev cmd values tags = some ev ∧
    ev.tooLarge sdk.libs sdk.device.maxeventsize = false

/-- The address of a device does not go into its events. -/
theorem cookEvent_obtainAddress (dev : DeviceObj) (cmd : CmdInfo) (values : ℕ → CommandResult)
    (tags : Option IotData) :
    cookEvent sdk (obtainAddress sdk dev).dev cmd values tags =
      cookEvent sdk dev cmd values tags := by
  rw [obtainAddress_dev]
  rfl

theorem runget2_event_iff (dev : DeviceObj) (cmd : CmdInfo) (params : Option IotData)
    (reply : HttpReply) (ev : Event) :
    (runget2 sdk dev cmd params reply).val.1 = some ev ↔ EventBuilt sdk dev cmd params ev := by
  rw [runget2, EventBuilt]
  cases hu : unreadable cmd with
  | some r => simp
  | none =>
    cases ha : (obtainAddress sdk dev).val.1 with
    | none => simp [ha]
    | some address =>
      cases hg : sdk.driver.gethandler (some address) (cmd.reqs.map CmdReq.req) params with
      | error e => simp [ha, hg]
      | ok r =>
        obtain ⟨values, tags⟩ := r
        cases hc : cookEvent sdk dev cmd values tags with
        | none => simp [ha, hg, cookEvent_obtainAddress, hc]
        | some ev' =>
          by_cases hl : ev'.tooLarge sdk.libs sdk.device.maxeventsize = true
          · simp [ha, hg, cookEvent_obtainAddress, hc, hl]
            rintro rfl
            exact hl
          · simp [ha, hg, cookEvent_obtainAddress, hc, hl]
            rintro rfl
            simpa using hl

/-- Both kinds of get request build the same event. -/
theorem runget3_event (dev : DeviceObj) (cmd : CmdInfo) (params : Option IotData)
    (reply : HttpReply) :
    (runget3 sdk dev cmd params).val.1 = (runget2 sdk dev cmd params reply).val.1 := by
  rw [runget3, runget2]
  split
  · rfl
  · dsimp only
    split
    · rfl
    · split
      · rfl
      · split
        · rfl
        · dsimp only
          split <;> rfl

/-- A failed get request is not answered with an event. -/
theorem runget3_busReply (bus : BusSettings) (dev : DeviceObj) (cmd : CmdInfo)
    (params : Option IotData) : busReply bus (runget3 sdk dev cmd params).val.2 = [] := by
  rw [runget3]
  split
  · rfl
  · dsimp only
    split
    · rfl
    · split
      · rfl
      · split
        · rfl
        · dsimp only
          split <;> rfl

/-- A set request is not answered with an event. -/
theorem runput3_busReply (bus : BusSettings) (dev : DeviceObj) (cmd : CmdInfo)
    (request params : Option IotData) :
    busReply bus (runput3 sdk dev cmd request params).val.2 = [] := by
  rw [runput3]
  dsimp only
  split
  · rfl
  · split
    · rfl
    · split <;> rfl

/-- Nothing is read in the part of a trace after the release. -/
def Quiet (t : List Effect) : Prop := ∀ e ∈ t, e.readsDevice = false ∧ e.readsEvent = false

theorem quiet_nil : Quiet [] := by
  intro e he
  cases he

theorem deliver2_quiet_iff (qparams : Option IotData) (ev : Event) :
    Quiet (deliver2 qparams ev).2 ↔ pushes2 qparams = false ∧ returns2 qparams = false := by
  rw [deliver2]
  cases pushes2 qparams <;> cases returns2 qparams <;>
    simp [Quiet, Effect.readsDevice, Effect.readsEvent]

/-- A trace that has one release, and is quiet from there on and in what follows exactly
    if `Q` holds. -/
def ReleasesOnce (t after : List Effect) (Q : Prop) : Prop :=
  ∃ pre post, t = pre ++ .release :: post ∧ pre.all Effect.plain = true ∧
    post.all Effect.plain = true ∧ (Quiet (post ++ after) ↔ Q)

theorem releasesOnce_at_end {t : List Effect} (ht : t.all Effect.plain = true) {Q : Prop}
    (hq : Q) : ReleasesOnce (t ++ [.release]) [] Q :=
  ⟨t, [], rfl, ht, rfl, iff_of_true quiet_nil hq⟩

theorem ReleasesOnce.prepend {t u after : List Effect} {Q Q' : Prop} (h : ReleasesOnce u after Q)
    (ht : t.all Effect.plain = true) (hq : Q ↔ Q') : ReleasesOnce (t ++ u) after Q' := by
  obtain ⟨pre, post, rfl, hpre, hpost, hquiet⟩ := h
  refine ⟨t ++ pre, post, by simp, ?_, hpost, hquiet.trans hq⟩
  rw [List.all_append, ht, hpre]
  rfl

/-- A command that is turned down releases the device at the end; one that is run
    releases it as its run does. `A` is what follows on a reply. -/
theorem runCommand_releasesOnce {ρ : Type} {answers : Answers ρ} {run : CmdInfo → Step ρ}
    {A : ρ → List Effect} (hw : A answers.wrongMethod = [])
    (hm : A answers.missing = []) (hr : ∀ why cmd, A (answers.refused why cmd) = [])
    (cmdname : String) (isGet : Bool) (dev : DeviceObj) (prof : DeviceProfile)
    {Q : CmdInfo → Prop} (hrun : ∀ cmd, ReleasesOnce (run cmd).trace (A (run cmd).val) (Q cmd)) :
    ReleasesOnce (runCommand sdk answers run cmdname isGet dev prof).trace
      (A (runCommand sdk answers run cmdname isGet dev prof).val.1)
      (∀ cmd, (lookupCommand sdk prof cmdname isGet).2.1 = .command cmd →
        refusal sdk dev cmd = none → Q cmd) := by
  have hplain := lookupCommand_plain sdk prof cmdname isGet
  rcases runCommand_cases sdk answers run cmdname isGet dev prof with
    ⟨hno, -, hval, ht⟩ | ⟨cmd, hf, hr, hc⟩
  · have hq : ∀ cmd, (lookupCommand sdk prof cmdname isGet).2.1 = .command cmd →
        refusal sdk dev cmd = none → Q cmd := fun cmd hf hr => absurd hr (hno cmd hf)
    have hafter : A (runCommand sdk answers run cmdname isGet dev prof).val.1 = [] := by
      rcases hval with hv | hv | ⟨why, cmd, hv⟩
      · rw [hv, hw]
      · rw [hv, hm]
      · rw [hv, hr]
    rw [hafter]
    rcases ht with ht | ht
    · rw [ht]
      exact releasesOnce_at_end hplain hq
    · rw [ht]
      exact releasesOnce_at_end (by simp [hplain]) hq
  · rw [hc]
    refine (hrun cmd).prepend (by simp [hplain]) ⟨fun hq cmd' hf' _ => ?_, fun h => h cmd hf hr⟩
    obtain rfl : cmd = cmd' := by simpa [hf] using hf'
    exact hq

/-- A REST command releases its device once. What it reads after that is the event of a
    get request. -/
theorem v2impl_releasesOnce (req : HttpRequest) (dev : DeviceObj) (prof : DeviceProfile) :
    ReleasesOnce (v2impl sdk req dev prof).trace []
      (∀ cmd, (lookupCommand sdk prof req.cmd req.isGet).2.1 = .command cmd →
        refusal sdk dev cmd = none → req.isGet = true →
        ∀ ev, EventBuilt sdk dev cmd req.qparams ev →
          pushes2 req.qparams = false ∧ returns2 req.qparams = false) := by
  refine runCommand_releasesOnce sdk (A := fun _ => []) rfl rfl (fun _ _ => rfl) req.cmd
    req.isGet dev prof fun cmd => ?_
  by_cases hget : req.isGet = true
  · simp only [hget, if_true, true_implies, ← runget2_event_iff sdk dev cmd req.qparams {}]
    rw [get2]
    cases hev : (runget2 sdk dev cmd req.qparams {}).val.1 with
    | none => exact releasesOnce_at_end (runget2_plain sdk dev cmd req.qparams {}) (by simp)
    | some ev =>
      refine ⟨_, (deliver2 req.qparams ev).2, by simp, runget2_plain sdk dev cmd req.qparams {},
        ?_, ?_⟩
      · simp only [deliver2]
        cases pushes2 req.qparams <;> cases returns2 req.qparams <;> rfl
      · rw [List.append_nil, deliver2_quiet_iff]
        simp
  · have hq : req.isGet = true → ∀ ev, EventBuilt sdk dev cmd req.qparams ev →
        pushes2 req.qparams = false ∧ returns2 req.qparams = false := fun h => absurd h hget
    rw [if_neg hget, put2]
    split
    · exact releasesOnce_at_end (t := []) rfl hq
    · exact releasesOnce_at_end (t := []) rfl hq
    · exact releasesOnce_at_end (runput2_plain sdk dev cmd _ _) hq

/-- A reply with an event is encoded by the bus. -/
def BusSettings.encodes (bus : BusSettings) (ev : Event) : Bool :=
  (!bus.cbor && (bus.msgb64payload || ev.cbor)) || bus.hasRequestId

/-- A command on the bus that gets as far as `edgex_device_v3impl` releases its device
    once. What is read after that is the event of a get request, when it is published or
    sent as the reply. -/
theorem v3impl_releasesOnce (bus : BusSettings) (req : BusRequest) (isGet : Bool)
    (dev : DeviceObj) (prof : DeviceProfile) :
    ReleasesOnce (v3impl sdk req isGet dev prof).trace
      (busReply bus (v3impl sdk req isGet dev prof).val.1.2)
      (∀ cmd, (lookupCommand sdk prof req.cmd isGet).2.1 = .command cmd →
        refusal sdk dev cmd = none → isGet = true →
        ∀ ev, EventBuilt sdk dev cmd req.params ev →
          IotData.stringMapGetBool req.params dsPush false = false ∧
            (IotData.stringMapGetBool req.params dsReturn true = true →
              bus.encodes ev = false)) := by
  refine runCommand_releasesOnce sdk (A := fun r : ℕ × Option Body => busReply bus r.2) rfl rfl
    (fun _ _ => rfl) req.cmd isGet dev prof fun cmd => ?_
  cases isGet with
  | true =>
    simp only [if_true, true_implies, ← runget2_event_iff sdk dev cmd req.params {},
      ← runget3_event sdk dev cmd req.params {}]
    rw [get3]
    cases hev : (runget3 sdk dev cmd req.params).val.1 with
    | none =>
      have hbody : busReply bus (runget3 sdk dev cmd req.params).val.2 = [] :=
        runget3_busReply sdk bus dev cmd req.params
      dsimp only
      rw [hbody]
      exact releasesOnce_at_end (runget3_plain sdk dev cmd req.params) (by simp)
    | some ev =>
      refine ⟨_, (deliver3 req.params ev).2, by simp, runget3_plain sdk dev cmd req.params, ?_, ?_⟩
      · simp only [deliver3]
        cases IotData.stringMapGetBool req.params dsPush false <;> rfl
      · simp only [deliver3, busReply, BusSettings.encodes]
        cases IotData.stringMapGetBool req.params dsPush false <;>
          cases IotData.stringMapGetBool req.params dsReturn true <;>
          simp [Quiet, Effect.readsDevice, Effect.readsEvent]
  | false =>
    have hbody : busReply bus (runput3 sdk dev cmd req.request req.params).val.2 = [] :=
      runput3_busReply sdk bus dev cmd req.request req.params
    simp only [put3, Bool.false_eq_true, if_false, hbody]
    exact releasesOnce_at_end (runput3_plain sdk dev cmd _ _) (by simp)

@[simp] theorem runReadings_plain (ai : AutoImpl) (dev : DeviceObj) (values : ℕ → CommandResult)
    (tags : Option IotData) : (runReadings sdk ai dev values tags).trace.all Effect.plain = true := by
  rw [runReadings]
  split
  · split
    · dsimp only
      split <;> simp
    · rfl
  · simp

/-- The autoevent runner releases its device at the end. -/
theorem aeRun_releasesOnce (ai : AutoImpl) (dev : DeviceObj) (prof : DeviceProfile) :
    ReleasesOnce (aeRun sdk ai dev prof).trace [] True := by
  rw [aeRun]
  split
  · exact releasesOnce_at_end (t := [.inspect]) rfl trivial
  · dsimp only
    split
    · rw [show ([.inspect, .release] : List Effect) = [.inspect] ++ [.release] from rfl,
        ← List.append_assoc]
      exact releasesOnce_at_end (by simp) trivial
    · split
      · exact releasesOnce_at_end (by simp) trivial
      · exact releasesOnce_at_end (by simp) trivial

/-- A probe releases its device at the end. -/
theorem probe_releasesOnce (name : String) (dev : DeviceObj) (prof : DeviceProfile) :
    ReleasesOnce (probe sdk name dev prof).trace [] True := by
  rw [probe]
  split
  · exact releasesOnce_at_end (t := [.inspect]) rfl trivial
  · split
    · exact releasesOnce_at_end (t := [.inspect]) rfl trivial
    · refine releasesOnce_at_end ?_ trivial
      split <;> simp

/-- Readings are posted on a device that was released already. -/
theorem post_releasesOnce (devname resname : String) (values : ℕ → CommandResult)
    (tags : Option IotData) (dev : DeviceObj) (prof : DeviceProfile) :
    ReleasesOnce (post sdk devname resname values tags dev prof).trace []
      ((findcommand sdk.driver.createRes prof resname true).2 = none) := by
  refine ⟨[.findcommand resname true], _, rfl, rfl, ?_, ?_⟩
  · split
    · rfl
    · split
      · rfl
      · split <;> split <;> simp
  · split
    · next h => simpa [h] using quiet_nil
    · next h =>
      refine iff_of_false (fun hq => ?_) (by simp [h])
      have hread := hq .processEvent (by simp)
      exact absurd hread.1 (by decide)

theorem busReply_plain (bus : BusSettings) (reply : Option Body) :
    (busReply bus reply).all Effect.plain = true := by
  unfold busReply
  split
  · split <;> rfl
  · rfl

-- ════════════════════════════════════════════════════════════════════════
-- The entry points
-- ════════════════════════════════════════════════════════════════════════

section Entry

variable {α : Type} (s : Store) (name : String)
  {f : DeviceObj → DeviceProfile → Step (α × DeviceProfile)} (absent : α) {A : α → List Effect}

/-- An entry point whose work releases the device once is disciplined exactly if, on a
    device that is found, it is quiet after the release. -/
theorem onDevice_disciplined_iff (hplain : ∀ v, (A v).all Effect.plain = true)
    {Q : DeviceObj → DeviceProfile → Prop}
    (hrun : ∀ dev prof, ReleasesOnce (f dev prof).trace (A (f dev prof).val.1) (Q dev prof)) :
    Disciplined s (onDevice s name f absent).store
        ((onDevice s name f absent).trace ++ A (onDevice s name f absent).val) ↔
      ∀ dev prof, s.found name = some (dev, prof) → Q dev prof := by
  cases hf : s.found name with
  | none => simpa using disciplined_absent hf (hplain _)
  | some r =>
    obtain ⟨dev, prof⟩ := r
    obtain ⟨pre, post, ht, hpre, hpost, hquiet⟩ := hrun dev prof
    rw [disciplined_found_iff hf ht hpre hpost (hplain _), (onDevice_found hf).2]
    refine hquiet.trans ⟨?_, fun h => h dev prof rfl⟩
    rintro hq dev' prof' he
    obtain ⟨rfl, rfl⟩ := Prod.mk.inj (Option.some.inj he)
    exact hq

/-- An entry point that does not release the device it found is not disciplined. -/
theorem not_disciplined_of_unreleased {dev : DeviceObj} {prof : DeviceProfile}
    (hf : s.found name = some (dev, prof)) (ht : (f dev prof).trace = [])
    (ha : A (onDevice s name f absent).val = []) :
    ¬ Disciplined s (onDevice s name f absent).store
      ((onDevice s name f absent).trace ++ A (onDevice s name f absent).val) := by
  intro h
  have hb := h.balanced
  rw [ha, (onDevice_found hf).1, ht] at hb
  simp [Effect.acquires] at hb

theorem disciplined_nil : Disciplined s s [] where
  balanced := rfl
  quiet := by simp
  refs := fun _ => rfl

end Entry

/-- The event of a get request that a REST request makes is neither published nor
    returned. -/
def RestKeepsEvent (s : Store) (req : HttpRequest) : Prop :=
  sdk.adminstate ≠ .locked → req.isGet = true → ∀ dev prof, s.found req.name = some (dev, prof) →
    ∀ cmd, (lookupCommand sdk prof req.cmd true).2.1 = .command cmd → refusal sdk dev cmd = none →
      ∀ ev, EventBuilt sdk dev cmd req.qparams ev →
        pushes2 req.qparams = false ∧ returns2 req.qparams = false

/-- A bus request for a device that is there is a get or a set, and the event of a get
    request is neither published nor encoded as the reply. -/
def BusKeepsEvent (s : Store) (bus : BusSettings) (req : BusRequest) : Prop :=
  sdk.adminstate ≠ .locked → ∀ dev prof, s.found req.device = some (dev, prof) →
    (req.op = "get" ∨ req.op = "set") ∧ (req.op = "get" →
      ∀ cmd, (lookupCommand sdk prof req.cmd true).2.1 = .command cmd →
        refusal sdk dev cmd = none → ∀ ev, EventBuilt sdk dev cmd req.params ev →
          IotData.stringMapGetBool req.params dsPush false = false ∧
            (IotData.stringMapGetBool req.params dsReturn true = true → bus.encodes ev = false))

theorem handlerV2_disciplined_iff (s : Store) (req : HttpRequest) :
    Disciplined s (handlerV2 sdk s req).store (handlerV2 sdk s req).trace ↔
      RestKeepsEvent sdk s req := by
  by_cases hl : sdk.adminstate = .locked
  · rw [handlerV2, if_pos hl]
    exact iff_of_true (disciplined_nil s) fun h => absurd hl h
  · rw [handlerV2, if_neg hl, RestKeepsEvent]
    have h := onDevice_disciplined_iff s req.name (f := v2impl sdk req)
      (errorResponse httpNotFound ("No device named " ++ req.name)) (A := fun _ => [])
      (fun _ => rfl) (v2impl_releasesOnce sdk req)
    rw [List.append_nil] at h
    rw [h]
    constructor
    · intro hq _ hget dev prof hf cmd hc hr ev hev
      exact hq dev prof hf cmd (hget ▸ hc) hr hget ev hev
    · intro hq dev prof hf cmd hc hr hget ev hev
      exact hq hl hget dev prof hf cmd (hget ▸ hc) hr ev hev

theorem handlerV3_disciplined_iff (s : Store) (bus : BusSettings) (req : BusRequest) :
    Disciplined s (handlerV3 sdk s req).store
        ((handlerV3 sdk s req).trace ++ busReply bus (handlerV3 sdk s req).val.2) ↔
      BusKeepsEvent sdk s bus req := by
  by_cases hl : sdk.adminstate = .locked
  · rw [handlerV3, if_pos hl]
    exact iff_of_true (disciplined_nil s) fun h => absurd hl h
  rw [handlerV3, if_neg hl, BusKeepsEvent]
  by_cases hget : req.op = "get"
  · have hd : v3dispatch sdk req = v3impl sdk req true := by
      funext dev prof
      rw [v3dispatch, if_pos hget]
    have h := onDevice_disciplined_iff s req.device (f := v3impl sdk req true)
      (httpNotFound, v3ErrorResponse "No device named %s")
      (A := fun r : ℕ × Option Body => busReply bus r.2) (fun r => busReply_plain bus r.2)
      (v3impl_releasesOnce sdk bus req true)
    rw [hd, h]
    simp [hl, hget]
  by_cases hset : req.op = "set"
  · have hd : v3dispatch sdk req = v3impl sdk req false := by
      funext dev prof
      rw [v3dispatch, if_neg hget, if_pos hset]
    have h := onDevice_disciplined_iff s req.device (f := v3impl sdk req false)
      (httpNotFound, v3ErrorResponse "No device named %s")
      (A := fun r : ℕ × Option Body => busReply bus r.2) (fun r => busReply_plain bus r.2)
      (v3impl_releasesOnce sdk bus req false)
    rw [hd, h]
    simp [hset]
  · have hd : ∀ dev prof, (v3dispatch sdk req dev prof).trace = [] ∧
        busReply bus (v3dispatch sdk req dev prof).val.1.2 = [] := by
      intro dev prof
      rw [v3dispatch, if_neg hget, if_neg hset]
      exact ⟨rfl, rfl⟩
    cases hf : s.found req.device with
    | none =>
      exact iff_of_true (disciplined_absent hf (busReply_plain bus _)) (by simp)
    | some r =>
      obtain ⟨dev, prof⟩ := r
      refine iff_of_false ?_ (by simp [hl, hget, hset])
      refine not_disciplined_of_unreleased s req.device _
        (A := fun r : ℕ × Option Body => busReply bus r.2) hf (hd dev prof).1 ?_
      rw [(onDevice_found hf).2]
      exact (hd dev prof).2

theorem aeRunner_disciplined (s : Store) (ai : AutoImpl) :
    Disciplined s (aeRunner sdk s ai).store (aeRunner sdk s ai).trace := by
  have h := onDevice_disciplined_iff s ai.device ai.last (A := fun _ => []) (fun _ => rfl)
    (aeRun_releasesOnce sdk ai)
  rw [List.append_nil] at h
  exact h.mpr fun _ _ _ => trivial

theorem deviceReturn_disciplined (s : Store) (name : String) :
    Disciplined s (deviceReturn sdk s name).store (deviceReturn sdk s name).trace := by
  have h := onDevice_disciplined_iff s name () (A := fun _ => []) (fun _ => rfl)
    (probe_releasesOnce sdk name)
  rw [List.append_nil] at h
  exact h.mpr fun _ _ _ => trivial

theorem postReadings_disciplined_iff (s : Store) (devname resname : String)
    (values : ℕ → CommandResult) (tags : Option IotData) :
    Disciplined s (postReadings sdk s devname resname values tags).store
        (postReadings sdk s devname resname values tags).trace ↔
      (sdk.adminstate ≠ .locked → ∀ dev prof, s.found devname = some (dev, prof) →
        (findcommand sdk.driver.createRes prof resname true).2 = none) := by
  by_cases hl : sdk.adminstate = .locked
  · rw [postReadings, if_pos hl]
    exact iff_of_true (disciplined_nil s) fun h => absurd hl h
  · rw [postReadings, if_neg hl]
    have h := onDevice_disciplined_iff s devname () (A := fun _ => []) (fun _ => rfl)
      (post_releasesOnce sdk devname resname values tags)
    rw [List.append_nil] at h
    rw [h]
    exact ⟨fun hq _ => hq, fun hq => hq hl⟩

/-- Which requests, messages and ticks are handled without a leaked reference and
    without a read of what was released: all autoevents and probes; commands whose event
    stays inside the handler, on the bus only gets and sets; posted readings only if
    there is no such resource or command. -/
theorem paths_disciplined_iff (s : Store) :
    (∀ req, Disciplined s (handlerV2 sdk s req).store (handlerV2 sdk s req).trace ↔
      RestKeepsEvent sdk s req) ∧
    (∀ bus req, Disciplined s (handlerV3 sdk s req).store
        ((handlerV3 sdk s req).trace ++ busReply bus (handlerV3 sdk s req).val.2) ↔
      BusKeepsEvent sdk s bus req) ∧
    (∀ ai, Disciplined s (aeRunner sdk s ai).store (aeRunner sdk s ai).trace) ∧
    (∀ name, Disciplined s (deviceReturn sdk s name).store (deviceReturn sdk s name).trace) ∧
    ∀ devname resname values tags,
      Disciplined s (postReadings sdk s devname resname values tags).store
          (postReadings sdk s devname resname values tags).trace ↔
        (sdk.adminstate ≠ .locked → ∀ dev prof, s.found devname = some (dev, prof) →
          (findcommand sdk.driver.createRes prof resname true).2 = none) :=
  ⟨handlerV2_disciplined_iff sdk s, handlerV3_disciplined_iff sdk s, aeRunner_disciplined sdk s,
    deviceReturn_disciplined sdk s, postReadings_disciplined_iff sdk s⟩

/-- A device map with one device, a lamp that can be switched and asked for its state. -/
def lampStore (adminState : AdminState) (operatingState : OperatingState) : Store where
  devices := AList.singleton "lamp" 0
  profiles := AList.singleton "lamp" 0
  device := fun _ =>
    { dev := { name := "lamp", profile := 0, adminState, operatingState }, refs := 1 }
  profile := fun _ =>
    { profile :=
        { name := "lamp"
          deviceResources := [{ name := "state", properties := { type := ⟨.string, .multi, .string⟩ } }] } }
  nextDevice := 1
  nextProfile := 1

/-- A bus request with an operation other than get and set keeps its reference to the
    device. -/
theorem handlerV3_leaks_reference :
    let r := handlerV3 sampleSdk (lampStore .unlocked .up)
      { device := "lamp", cmd := "state", op := "delete" }
    ¬ Disciplined (lampStore .unlocked .up) r.store (r.trace ++ busReply {} r.val.2) ∧
      (r.store.device 0).refs = 2 := by
  refine ⟨fun h => ?_, by decide⟩
  exact absurd (h.refs 0) (by decide)

end DeviceSdk
