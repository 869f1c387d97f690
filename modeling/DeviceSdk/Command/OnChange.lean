import DeviceSdk.Command.Entry
import DeviceSdk.Lib.Run

/-!
# Autoevents on change

An autoevent with `onChange` compares its readings with those of an earlier tick, and publishes
no event when they have not changed. The comparison is with the readings that were last turned
into an event, which is the last one that was published only if every event is.

## Main definitions

- `Tick`, `tickReads` — a tick, and what the driver reads at it
- `OnChangeRun`, `tickStep` — the runs of an autoevent
- `ReadingsMatch` — readings that are no news
- `Tick.Keeps` — the ticks that keep the comparison with the last event published

## Main results

- `aeRunner_reads` — what a tick does with its readings
- `onChange_suppressed_matches` — along every run of such ticks, an event is suppressed only
  when its readings match those last published
-/

namespace DeviceSdk

/-- The service at a tick. What it computes with is the same at all ticks. -/
structure Tick where
  driver : Driver
  stamp : Stamp
  device : DeviceInfo := {}
  adminstate : AdminState := .unlocked
  reducedEvents : Bool := false
  store : Store

def Tick.sdk (libs : Libs) (t : Tick) : Sdk where
  libs := libs
  driver := t.driver
  stamp := t.stamp
  device := t.device
  adminstate := t.adminstate
  reducedEvents := t.reducedEvents

/-- What `ae_runner` reads: the device as it is then, and the readings and the tags that the
    driver gives. -/
def tickReads (sdk : Sdk) (s : Store) (ai : AutoImpl) :
    Option (DeviceObj × (ℕ → CommandResult) × Option IotData) :=
  match s.found ai.device with
  | none => none
  | some (dev, _) =>
    if sdk.adminstate = .locked ∨ dev.dev.adminState = .locked ∨ dev.dev.operatingState = .down then
      none
    else
      match (obtainAddress sdk dev).val.1 with
      | none => none
      | some address =>
        match sdk.driver.gethandler (some address) (ai.resource.reqs.map CmdReq.req) none with
        | .error _ => none
        | .ok (values, tags) => some ((obtainAddress sdk dev).dev, values, tags)

/-- An event is built, or handed to `edgex_data_client_add_event`. -/
def Effect.ofEvent : Effect → Bool
  | processEvent | publish _ => true
  | _ => false

/-- The part of a trace that is about an event. -/
def eventTrace (t : List Effect) : List Effect := t.filter Effect.ofEvent

/-- An event is handed to `edgex_data_client_add_event`. -/
def Effect.isPublish : Effect → Bool
  | publish _ => true
  | _ => false

/-- An autoevent after some ticks, with the readings of the last event that was handed to
    `edgex_data_client_add_event`, and those of the last tick if it built no event. -/
structure OnChangeRun where
  ai : AutoImpl
  handed : Option (ℕ → CommandResult) := none
  suppressed : Option (ℕ → CommandResult) := none

/-- A tick of an autoevent. -/
def tickStep (libs : Libs) (s : OnChangeRun) (t : Tick) : OnChangeRun :=
  let r := aeRunner (t.sdk libs) t.store s.ai
  let values := (tickReads (t.sdk libs) t.store s.ai).map fun read => read.2.1
  let done := eventTrace r.trace
  { ai := { s.ai with last := r.val }
    handed := if done.any Effect.isPublish then values else s.handed
    suppressed := if done = [] then values else none }

/-- Readings that are no news: equal without a threshold; and with one, numbers that differ by
    no more than it, and other values that are equal. -/
def ReadingsMatch (libs : Libs) (ai : AutoImpl) (values handed : ℕ → CommandResult) : Prop :=
  ∀ i < ai.resource.nreqs,
    if 0 < ai.onChangeThreshold then
      match libs.codec.toFloat64 (values i).value, libs.codec.toFloat64 (handed i).value with
      | some (.finite p), some (.finite q) => |p - q| ≤ ai.onChangeThreshold
      | _, _ => (values i).value = (handed i).value
    else (values i).value = (handed i).value

/-- A tick that read and built no event read what was last published. -/
def OnChangeRun.Matching (libs : Libs) (s : OnChangeRun) : Prop :=
  ∀ values, s.suppressed = some values →
    ∃ handed, s.handed = some handed ∧ ReadingsMatch libs s.ai values handed

/-- An event that is built at the tick is not too large to be published; and, with a threshold,
    no reading is a number where the one it is compared with is none, or the other way round. -/
def Tick.Keeps (libs : Libs) (s : OnChangeRun) (t : Tick) : Prop :=
  ∀ dev values tags, tickReads (t.sdk libs) t.store s.ai = some (dev, values, tags) →
    (∀ ev, shouldPublish (t.sdk libs) s.ai values = true →
      cookEvent (t.sdk libs) dev s.ai.resource values tags = some ev →
        ev.tooLarge libs t.device.maxeventsize = false) ∧
    (0 < s.ai.onChangeThreshold → ∀ last, s.ai.last = some last → ∀ i < s.ai.resource.nreqs,
      (libs.codec.toFloat64 (values i).value).isSome =
        (libs.codec.toFloat64 (last i).value).isSome)

/-- Conversion to a double is a partial function to the rationals, and so is the arithmetic. -/
structure RationalNumbers (libs : Libs) : Prop where
  finite : ∀ d x, libs.codec.toFloat64 d = some x → ∃ q, x = .finite q
  difference : ∀ p q : ℚ,
    libs.float.f64 (libs.float.sub (.finite p) (.finite q)) = .finite (p - q)

section Traces

variable (sdk : Sdk)

@[simp] theorem eventTrace_append (t u : List Effect) :
    eventTrace (t ++ u) = eventTrace t ++ eventTrace u := List.filter_append t u

theorem eventTrace_obtainAddress (dev : DeviceObj) :
    eventTrace (obtainAddress sdk dev).trace = [] := by
  cases obtainAddress_trace sdk dev with
  | inl h => rw [h]; rfl
  | inr h => rw [h]; rfl

theorem eventTrace_requestFailed (dev : DeviceObj) :
    eventTrace (requestFailed sdk dev).trace = [] := by
  simp only [requestFailed]
  split_ifs <;> rfl

theorem eventTrace_requestSucceeded (dev : DeviceObj) :
    eventTrace (requestSucceeded sdk dev).trace = [] := by
  rw [requestSucceeded]
  split_ifs <;> rfl

/-- What the readings of a tick come to: nothing, or an event that is built and, when it is not
    too large, published. -/
theorem eventTrace_runReadings (ai : AutoImpl) (dev : DeviceObj) (values : ℕ → CommandResult)
    (tags : Option IotData) :
    eventTrace (runReadings sdk ai dev values tags).trace =
      if shouldPublish sdk ai values then
        .processEvent ::
          match cookEvent sdk dev ai.resource values tags with
          | some ev => if ev.tooLarge sdk.libs sdk.device.maxeventsize then [] else [.publish ev]
          | none => []
      else [] := by
  rw [runReadings]
  split
  next =>
    cases cookEvent sdk dev ai.resource values tags with
    | none => rfl
    | some ev =>
      have hsize : eventTrace (sizeCheck sdk) = [] := by
        rw [sizeCheck]
        split <;> rfl
      have hlast : eventTrace (updateLastConnected sdk dev.dev.name) = [] := by
        rw [updateLastConnected]
        split <;> rfl
      simp only [eventTrace_append, hsize, hlast, eventTrace_requestSucceeded, List.append_nil]
      split <;> rfl
  next => exact eventTrace_requestSucceeded sdk dev

/-- A tick that reads nothing keeps the readings to compare with and builds no event; any other
    does what its readings ask for. -/
theorem aeRun_reads (ai : AutoImpl) (dev : DeviceObj) (prof : DeviceProfile) (s : Store)
    (hf : s.found ai.device = some (dev, prof)) :
    match tickReads sdk s ai with
    | none => (aeRun sdk ai dev prof).val.1 = ai.last ∧
        eventTrace (aeRun sdk ai dev prof).trace = []
    | some (dev', values, tags) =>
      (aeRun sdk ai dev prof).val.1 = (runReadings sdk ai dev' values tags).val ∧
        eventTrace (aeRun sdk ai dev prof).trace =
          eventTrace (runReadings sdk ai dev' values tags).trace := by
  simp only [tickReads, hf, aeRun]
  by_cases hl : sdk.adminstate = .locked ∨ dev.dev.adminState = .locked ∨
      dev.dev.operatingState = .down
  · simp only [if_pos hl]
    exact ⟨trivial, rfl⟩
  · simp only [if_neg hl]
    cases (obtainAddress sdk dev).val.1 with
    | none =>
      refine ⟨rfl, ?_⟩
      simp only [eventTrace_append, eventTrace_obtainAddress]
      rfl
    | some address =>
      cases hg : sdk.driver.gethandler (some address) (ai.resource.reqs.map CmdReq.req) none with
      | error e =>
        simp only [hg]
        refine ⟨trivial, ?_⟩
        simp only [eventTrace_append, eventTrace_obtainAddress, eventTrace_requestFailed]
        rfl
      | ok r =>
        obtain ⟨values, tags⟩ := r
        simp only [hg]
        refine ⟨trivial, ?_⟩
        simp only [eventTrace_append, eventTrace_obtainAddress]
        exact List.append_nil _

theorem aeRunner_reads (s : Store) (ai : AutoImpl) :
    match tickReads sdk s ai with
    | none => (aeRunner sdk s ai).val = ai.last ∧ eventTrace (aeRunner sdk s ai).trace = []
    | some (dev, values, tags) =>
      (aeRunner sdk s ai).val = (runReadings sdk ai dev values tags).val ∧
        eventTrace (aeRunner sdk s ai).trace =
          eventTrace (runReadings sdk ai dev values tags).trace := by
  cases hf : s.found ai.device with
  | none =>
    have hl : s.devices.lookup ai.device = none := Option.map_eq_none_iff.mp hf
    simp only [tickReads, hf, aeRunner, onDevice, hl]
    exact ⟨trivial, rfl⟩
  | some p =>
    obtain ⟨dev, prof⟩ := p
    have hdone : (aeRunner sdk s ai).trace = _ ∧ (aeRunner sdk s ai).val = _ := onDevice_found hf
    rw [hdone.1, hdone.2]
    exact aeRun_reads sdk ai dev prof s hf

end Traces

theorem Flt.lt_finite_eq_false_iff {p q : ℚ} :
    Flt.lt (.finite p) (.finite q) = false ↔ q ≤ p := by
  simp only [Flt.lt, Flt.le, Bool.and_eq_false_iff, Bool.not_eq_false', decide_eq_false_iff_not,
    decide_eq_true_eq, not_le]
  constructor
  · rintro (h | h)
    · exact h.le
    · exact h
  · exact Or.inr

/-- An event is suppressed when there are readings to compare with, and the comparison finds no
    news. -/
theorem match_of_suppressed {libs : Libs} (hlibs : RationalNumbers libs) {t : Tick}
    {ai : AutoImpl} (hon : ai.onChange = true) {values : ℕ → CommandResult}
    (hsame : ∀ last, ai.last = some last → 0 < ai.onChangeThreshold →
      ∀ i < ai.resource.nreqs, (libs.codec.toFloat64 (values i).value).isSome =
        (libs.codec.toFloat64 (last i).value).isSome)
    (h : shouldPublish (t.sdk libs) ai values = false) :
    ∃ last, ai.last = some last ∧ ReadingsMatch libs ai values last := by
  cases hl : ai.last with
  | none => simp [shouldPublish, hon, hl] at h
  | some last =>
    refine ⟨last, rfl, ?_⟩
    intro i hi
    simp only [shouldPublish, hon, hl] at h
    by_cases ht : 0 < ai.onChangeThreshold
    · rw [if_pos ht] at h
      rw [if_pos ht]
      have hpair := List.any_eq_false.mp h i (List.mem_range.mpr hi)
      have hside := hsame last hl ht i hi
      simp only [Tick.sdk] at hpair
      cases hx : libs.codec.toFloat64 (values i).value with
      | none =>
        cases hy : libs.codec.toFloat64 (last i).value with
        | none =>
          simp only [hx, hy, Bool.not_eq_true, Bool.not_eq_false'] at hpair
          exact (IotData.equal_iff _ _).mp hpair
        | some y => simp [hx, hy] at hside
      | some x =>
        cases hy : libs.codec.toFloat64 (last i).value with
        | none => simp [hx, hy] at hside
        | some y =>
          obtain ⟨p, rfl⟩ := hlibs.finite _ _ hx
          obtain ⟨q, rfl⟩ := hlibs.finite _ _ hy
          simp only [hx, hy, Option.getD_some, hlibs.difference, Flt.abs, Bool.not_eq_true,
            Flt.lt_finite_eq_false_iff] at hpair
          exact hpair
    · rw [if_neg ht] at h
      rw [if_neg ht]
      rw [Bool.not_eq_false', commandresultEqual, List.all_eq_true] at h
      exact (IotData.equal_iff _ _).mp (h i (List.mem_range.mpr hi))

/-- The readings to compare with are those last published. -/
structure OnChangeRun.Based (libs : Libs) (s : OnChangeRun) : Prop where
  onChange : s.ai.onChange = true
  last : ∀ last, s.ai.last = some last →
    ∃ handed, s.handed = some handed ∧ ∀ i, (last i).value = (handed i).value
  matching : s.Matching libs

theorem ReadingsMatch.of_values {libs : Libs} {ai : AutoImpl}
    {values last handed : ℕ → CommandResult} (h : ReadingsMatch libs ai values last)
    (hv : ∀ i, (last i).value = (handed i).value) : ReadingsMatch libs ai values handed := by
  intro i hi
  have hi' := h i hi
  rwa [hv i] at hi'

section Step

variable {libs : Libs} (hlibs : RationalNumbers libs) {s : OnChangeRun} {t : Tick}

/-- A tick at which nothing is read. -/
theorem OnChangeRun.Based.unread (h : s.Based libs)
    (hread : tickReads (t.sdk libs) t.store s.ai = none) : (tickStep libs s t).Based libs := by
  have hdone := aeRunner_reads (t.sdk libs) t.store s.ai
  rw [hread] at hdone
  obtain ⟨hval, htrace⟩ := hdone
  have hstep : tickStep libs s t = { ai := s.ai, handed := s.handed, suppressed := none } := by
    simp [tickStep, hval, htrace, hread]
  rw [hstep]
  exact ⟨h.onChange, h.last, fun values hv => nomatch hv⟩

/-- What a tick does at which the driver was read. -/
theorem tickStep_cases (hon : s.ai.onChange = true) {dev : DeviceObj}
    {values : ℕ → CommandResult} {tags : Option IotData}
    (hread : tickReads (t.sdk libs) t.store s.ai = some (dev, values, tags)) :
    (shouldPublish (t.sdk libs) s.ai values = false ∧
      tickStep libs s t = { ai := s.ai, handed := s.handed, suppressed := some values }) ∨
    tickStep libs s t = { ai := s.ai, handed := s.handed, suppressed := none } ∨
    ∃ ev, shouldPublish (t.sdk libs) s.ai values = true ∧
      cookEvent (t.sdk libs) dev s.ai.resource values tags = some ev ∧
      tickStep libs s t =
        { ai := { s.ai with last := some (commandresultDup values) }
          handed := if ev.tooLarge libs t.device.maxeventsize then s.handed else some values
          suppressed := none } := by
  have hdone := aeRunner_reads (t.sdk libs) t.store s.ai
  rw [hread] at hdone
  obtain ⟨hval, htrace⟩ := hdone
  rw [eventTrace_runReadings] at htrace
  rw [runReadings] at hval
  cases hp : shouldPublish (t.sdk libs) s.ai values with
  | false =>
    simp only [hp, Bool.false_eq_true, if_false] at hval htrace
    exact Or.inl ⟨rfl, by simp [tickStep, hval, htrace, hread]⟩
  | true =>
    simp only [hp, if_true] at hval htrace
    cases hc : cookEvent (t.sdk libs) dev s.ai.resource values tags with
    | none =>
      simp only [hc] at hval htrace
      exact Or.inr (Or.inl (by simp [tickStep, hval, htrace, Effect.isPublish]))
    | some ev =>
      refine Or.inr (Or.inr ⟨ev, rfl, rfl, ?_⟩)
      have hsize : ev.tooLarge (t.sdk libs).libs (t.sdk libs).device.maxeventsize =
          ev.tooLarge libs t.device.maxeventsize := rfl
      cases hl : ev.tooLarge libs t.device.maxeventsize <;>
        simp [tickStep, hc, hon, hsize, hl, hval, htrace, hread, Effect.isPublish]

include hlibs in
/-- A tick at which the driver was read. -/
theorem OnChangeRun.Based.read (h : s.Based libs) (hk : t.Keeps libs s) {dev : DeviceObj}
    {values : ℕ → CommandResult} {tags : Option IotData}
    (hread : tickReads (t.sdk libs) t.store s.ai = some (dev, values, tags)) :
    (tickStep libs s t).Based libs := by
  obtain ⟨hsmall, hsides⟩ := hk dev values tags hread
  obtain ⟨hp, hstep⟩ | hstep | ⟨ev, hp, hc, hstep⟩ := tickStep_cases h.onChange hread
  · obtain ⟨last, hlast, hmatch⟩ := match_of_suppressed hlibs h.onChange
      (fun last hl ht => hsides ht last hl) hp
    obtain ⟨handed, hhanded, hsame⟩ := h.last last hlast
    rw [hstep]
    refine ⟨h.onChange, h.last, ?_⟩
    intro v hv
    cases hv
    exact ⟨handed, hhanded, hmatch.of_values hsame⟩
  · rw [hstep]
    exact ⟨h.onChange, h.last, fun values hv => nomatch hv⟩
  · have hfits : ev.tooLarge libs t.device.maxeventsize = false := hsmall ev hp hc
    rw [hstep, hfits]
    refine ⟨h.onChange, ?_, fun values hv => nomatch hv⟩
    intro last hl
    cases hl
    exact ⟨values, rfl, fun i => rfl⟩

include hlibs in
/-- A tick that keeps the comparison keeps the readings to compare with those last published. -/
theorem OnChangeRun.Based.tickStep (h : s.Based libs) (hk : t.Keeps libs s) :
    (DeviceSdk.tickStep libs s t).Based libs := by
  cases hread : tickReads (t.sdk libs) t.store s.ai with
  | none => exact h.unread hread
  | some read =>
    obtain ⟨dev, values, tags⟩ := read
    exact h.read hlibs hk hread

end Step

/-- In every run of ticks of an autoevent on change from its start: at every tick where the
    driver was read and no event was built, the readings match those of the last event handed
    to `edgex_data_client_add_event`, if every tick keeps the comparison with it. -/
theorem onChange_suppressed_matches (libs : Libs) (hlibs : RationalNumbers libs) (ai : AutoImpl)
    (hon : ai.onChange = true) (hfresh : ai.last = none) (ticks : List Tick)
    (h : Run.Meets (tickStep libs) (fun s t => t.Keeps libs s) { ai := ai } ticks) :
    Run.Always (tickStep libs) (OnChangeRun.Matching libs) { ai := ai } ticks := by
  refine Run.always_of_meets (fun s hs => OnChangeRun.Based.matching hs)
    (fun s t hs hk => hs.tickStep hlibs hk) ?_ h
  refine ⟨hon, ?_, fun values hv => nomatch hv⟩
  intro last hl
  rw [hfresh] at hl
  cases hl

/-- Libraries with exact arithmetic, in which the encoding of an event takes 2000 bytes. -/
def exactLibs : Libs where
  codec :=
    { sampleLibs.codec with
      toFloat64 := fun d =>
        match d with
        | .float64 (.finite q) => some (.finite q)
        | _ => none
      cborSize := fun _ => 2000 }
  float :=
    { sampleLibs.float with
      sub := fun x y =>
        match x, y with
        | .finite p, .finite q => .finite (p - q)
        | _, _ => .nan }

theorem exactLibs_rational : RationalNumbers exactLibs where
  finite := by
    intro d x h
    simp only [exactLibs] at h
    split at h
    next q =>
      cases h
      exact ⟨q, rfl⟩
    next => cases h
  difference := fun _ _ => rfl

/-- A device map with one sensor. -/
def sensorStore : Store where
  devices := AList.singleton "sensor" 0
  profiles := AList.singleton "sensor" 0
  device := fun _ => { dev := { name := "sensor", profile := 0 }, refs := 1 }
  profile := fun _ => { profile := { name := "sensor" } }
  nextDevice := 1
  nextProfile := 1

/-- A tick at which the sensor reads a value. -/
def sensorTick (maxeventsize : BitVec 32) (value : IotData) : Tick where
  driver := { sampleDriver with gethandler := fun _ _ _ => .ok (fun _ => { value }, none) }
  stamp := { timenow := 1, genuuid := fun _ => "id" }
  device := { maxeventsize }
  store := sensorStore

/-- An autoevent on change of the sensor. -/
def sensorAuto (type : TypeCode) (threshold : ℚ) : AutoImpl where
  device := "sensor"
  resource := { setCommand type with isget := true }
  onChange := true
  onChangeThreshold := threshold

/-- The sensor reads 20 and then 20.3. -/
def warmTicks : List Tick :=
  [sensorTick 0 (.float64 (.finite 20)), sensorTick 0 (.float64 (.finite (203 / 10)))]

theorem warmTicks_keep :
    Run.Meets (tickStep exactLibs) (fun s t => t.Keeps exactLibs s)
      { ai := sensorAuto (.scalar .float64) (1 / 2) } warmTicks := by
  refine ⟨?_, ?_, trivial⟩
  · intro dev values tags _
    refine ⟨fun ev _ _ => rfl, fun _ last hlast => ?_⟩
    cases hlast
  · intro dev values tags hread
    refine ⟨fun ev _ _ => rfl, fun _ last hlast i _ => ?_⟩
    cases hread
    cases hlast
    rfl

/-- The second reading is suppressed, and matches the first. -/
theorem onChange_suppressed_warm :
    (Run.final (tickStep exactLibs) { ai := sensorAuto (.scalar .float64) (1 / 2) }
      warmTicks).suppressed.isSome = true ∧
    Run.Always (tickStep exactLibs) (OnChangeRun.Matching exactLibs)
      { ai := sensorAuto (.scalar .float64) (1 / 2) } warmTicks :=
  ⟨by decide +kernel, onChange_suppressed_matches exactLibs exactLibs_rational
    (sensorAuto (.scalar .float64) (1 / 2)) rfl rfl warmTicks warmTicks_keep⟩

/-- The sensor takes the same picture twice, whose event is larger than `MaxEventSize`. -/
def pictureTicks : List Tick := [sensorTick 1 (.binary [7]), sensorTick 1 (.binary [7])]

/-- Nothing was ever published, and the second event is suppressed as unchanged. -/
theorem unpublished_suppressed :
    ¬ ∀ (libs : Libs), RationalNumbers libs → ∀ ai : AutoImpl, ai.onChange = true →
      ai.last = none → ∀ ticks : List Tick,
        Run.Always (tickStep libs) (OnChangeRun.Matching libs) { ai := ai } ticks := by
  intro h
  obtain ⟨-, -, hlast⟩ := h exactLibs exactLibs_rational (sensorAuto (.scalar .binary) 0) rfl rfl
    pictureTicks
  have hsuppressed : (Run.final (tickStep exactLibs) { ai := sensorAuto (.scalar .binary) 0 }
      pictureTicks).suppressed.isSome = true := by decide +kernel
  have hnone : (Run.final (tickStep exactLibs) { ai := sensorAuto (.scalar .binary) 0 }
      pictureTicks).handed.isNone = true := by decide +kernel
  obtain ⟨values, hvalues⟩ := Option.isSome_iff_exists.mp hsuppressed
  obtain ⟨handed, hhanded, -⟩ := hlast values hvalues
  rw [Option.isNone_iff_eq_none] at hnone
  cases hnone.symm.trans hhanded

end DeviceSdk
