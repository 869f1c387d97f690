import DeviceSdk.Command.Discipline
import DeviceSdk.Command.Object

/-!
# REST and the message bus

A command can be sent over REST or on the message bus, and the two handlers are written
out separately. They check a command alike. What differs is what comes after the checks:
only the bus counts failures and successes, a failed get request has status 1 on the bus,
flags and values that are not strings are read in different ways, and only REST publishes
an event when asked to by a string.

## Main definitions

- `Agree` — two paths look the same from outside, and to the failure counter
- `GetAgrees`, `SetAgrees` — when the two kinds of request do

## Main results

- `conversionsAgree_iff` — the loops over the resources agree on a request object
- `handlers_agree_iff` — when the handlers agree on a command
- `setAgrees_of_strings_iff` — what that comes to for values that are strings
-/

namespace DeviceSdk

variable (sdk : Sdk)

namespace Effect

/-- The driver is asked to read or to write. -/
@[simp] def callsDriver : Effect → Bool
  | gethandler _ _ _ | puthandler _ _ _ _ => true
  | _ => false

/-- An event is published. -/
@[simp] def publishes : Effect → Bool
  | publish _ => true
  | _ => false

/-- Core-metadata is asked to change an operating state. -/
@[simp] def setsOpstate : Effect → Bool
  | setOpstate _ _ => true
  | _ => false

end Effect

/-- How a REST request failed, if it did. -/
def failure2 (reply : HttpReply) : Option ℕ :=
  if reply.code = httpOk then none else some reply.code

/-- How a bus request failed, if it did. -/
def failure3 (reply : ℕ × Option Body) : Option ℕ :=
  if reply.1 = 0 then none else some reply.1

/-- Two paths call the driver alike, publish the same events, have the same effect on a
    failure counter and on operating states, and succeed or fail alike. -/
structure Agree (t u : List Effect) (retries retries' : BitVec 32) (failure failure' : Option ℕ) :
    Prop where
  calls : (seen t).filter Effect.callsDriver = (seen u).filter Effect.callsDriver
  published : (seen t).filter Effect.publishes = (seen u).filter Effect.publishes
  opstates : (seen t).filter Effect.setsOpstate = (seen u).filter Effect.setsOpstate
  retries : retries = retries'
  status : failure = failure'

theorem Agree.of_seen {t u : List Effect} (h : seen t = seen u) {r : BitVec 32}
    {f : Option ℕ} : Agree t u r r f f where
  calls := by rw [h]
  published := by rw [h]
  opstates := by rw [h]
  retries := rfl
  status := rfl

/-- Only what is seen of two paths matters. -/
theorem agree_congr {t t' u u' : List Effect} (ht : seen t = seen t') (hu : seen u = seen u')
    {r r' : BitVec 32} {f f' : Option ℕ} : Agree t u r r' f f' ↔ Agree t' u' r r' f f' := by
  constructor
  · rintro ⟨hc, hp, ho, hr, hs⟩
    exact ⟨by rw [← ht, ← hu, hc], by rw [← ht, ← hu, hp], by rw [← ht, ← hu, ho], hr, hs⟩
  · rintro ⟨hc, hp, ho, hr, hs⟩
    exact ⟨by rw [ht, hu, hc], by rw [ht, hu, hp], by rw [ht, hu, ho], hr, hs⟩

/-- Query parameters, all of them strings, if there are any. -/
def stringParams (params : Option (List (String × String))) : Option IotData :=
  params.map fun ps => .map (ps.map fun p => (p.1, .string p.2))

/-- A flag that is a string is not read on the bus. -/
theorem stringMapGetBool_stringParams (params : Option (List (String × String))) (key : String)
    (dfl : Bool) : IotData.stringMapGetBool (stringParams params) key dfl = dfl := by
  cases params with
  | none => rfl
  | some ps =>
    have hnot : ∀ b, (ps.map fun p => (p.1, IotData.string p.2)).lookup key ≠
        some (.bool b) := by
      induction ps with
      | nil => simp
      | cons p ps ih =>
        intro b
        rw [List.map_cons, List.lookup_cons]
        split
        · simp
        · exact ih b
    simp only [IotData.stringMapGetBool, IotData.stringMapGet, stringParams, Option.map_some]

/-- The failure counter is as a success would leave it. -/
def CounterFull (dev : DeviceObj) : Prop :=
  sdk.device.allowedFails = 0 ∨ dev.retries = sdk.device.allowedFails

/-- A get request does the same on both paths: it succeeds, the event is not to be
    published, and the failure counter has nothing to make up for. -/
def GetAgrees (dev : DeviceObj) (cmd : CmdInfo) (params : Option IotData) : Prop :=
  (∃ ev, EventBuilt sdk dev cmd params ev) ∧ pushes2 params = false ∧ CounterFull sdk dev

theorem requestSucceeded_retries_iff (dev : DeviceObj) :
    dev.retries = (requestSucceeded sdk dev).dev.retries ↔ CounterFull sdk dev := by
  rw [requestSucceeded, CounterFull]
  split
  · next hz => simp [hz]
  · next hz => exact ⟨Or.inr, fun h => h.resolve_left hz⟩

theorem requestFailed_retries_iff (dev : DeviceObj) :
    dev.retries = (requestFailed sdk dev).dev.retries ↔ sdk.device.allowedFails = 0 := by
  have hne : dev.retries ≠ dev.retries - 1 := by
    intro h
    have h1 : (1 : BitVec 32) = 0 := by
      have h2 : dev.retries - (dev.retries - 1) = 0 := by rw [← h]; exact sub_self _
      rwa [sub_sub_cancel] at h2
    exact absurd h1 (by decide)
  rw [requestFailed]
  split
  · next hz => simp [hz]
  · next hz =>
    dsimp only
    split
    · exact iff_of_false hne hz
    · exact iff_of_false hne hz

/-- A get request that fails over REST has a status of its own. -/
theorem runget2_failed {dev : DeviceObj} {cmd : CmdInfo} {params : Option IotData}
    {reply : HttpReply} (h : (runget2 sdk dev cmd params reply).val.1 = none) :
    (runget2 sdk dev cmd params reply).val.2.code = httpMethodNotAllowed ∨
      (runget2 sdk dev cmd params reply).val.2.code = httpInternalServerError := by
  unfold runget2 at h ⊢
  split
  · exact Or.inl rfl
  · next hu =>
    simp only [hu] at h ⊢
    split
    · exact Or.inr rfl
    · next ha =>
      simp only [ha] at h
      split
      · exact Or.inr rfl
      · next hg =>
        simp only [hg] at h
        split
        · exact Or.inr rfl
        · next hc =>
          simp only [hc] at h
          split
          · exact Or.inr rfl
          · next hl => simp [hl] at h

/-- An event that is built is built alike, apart from the accounting. -/
theorem runget_built {dev : DeviceObj} {cmd : CmdInfo} {params : Option IotData} {ev : Event}
    (hb : EventBuilt sdk dev cmd params ev) (hup : dev.dev.operatingState ≠ .down)
    (reply : HttpReply) :
    seen (runget2 sdk dev cmd params reply).trace = seen (runget3 sdk dev cmd params).trace ∧
      (runget2 sdk dev cmd params reply).dev.retries = dev.retries ∧
      (runget3 sdk dev cmd params).dev.retries =
        (requestSucceeded sdk (obtainAddress sdk dev).dev).dev.retries := by
  obtain ⟨address, values, tags, hu, ha, hg, hc, -⟩ := hb
  have hstate : ¬ (obtainAddress sdk dev).dev.dev.operatingState = .down := by
    rw [obtainAddress_dev]
    exact hup
  have hretries : (obtainAddress sdk dev).dev.retries = dev.retries := by rw [obtainAddress_dev]
  simp [runget2, runget3, hu, ha, hg, cookEvent_obtainAddress, hc, seen_requestSucceeded, hstate,
    hretries]

theorem counterFull_obtainAddress (dev : DeviceObj) :
    CounterFull sdk (obtainAddress sdk dev).dev ↔ CounterFull sdk dev := by
  rw [obtainAddress_dev]
  rfl

/-- After the checks, a get request agrees exactly under `GetAgrees`. -/
theorem get_agree_iff {dev : DeviceObj} (cmd : CmdInfo) (hup : dev.dev.operatingState ≠ .down)
    (rest : HttpRequest) (bus : BusRequest) {params : Option (List (String × String))}
    (hrest : rest.qparams = stringParams params)
    (hbus : bus.params = stringParams params) :
    Agree (get2 sdk rest dev cmd).trace (get3 sdk bus dev cmd).trace
        (get2 sdk rest dev cmd).dev.retries (get3 sdk bus dev cmd).dev.retries
        (failure2 (get2 sdk rest dev cmd).val) (failure3 (get3 sdk bus dev cmd).val) ↔
      GetAgrees sdk dev cmd (stringParams params) := by
  rw [get2, get3, hrest, hbus]
  have hsame := runget3_event sdk dev cmd (stringParams params) {}
  cases hev : (runget2 sdk dev cmd (stringParams params) {}).val.1 with
  | none =>
    have hnot : ¬ ∃ ev, EventBuilt sdk dev cmd (stringParams params) ev := by
      rintro ⟨ev, h⟩
      rw [(runget2_event_iff sdk dev cmd _ {} ev).mpr h] at hev
      cases hev
    refine iff_of_false (fun h => ?_) (fun h => hnot h.1)
    have hs := h.status
    rw [hsame, hev] at hs
    rcases runget2_failed sdk hev with hc | hc
    · simp [failure2, failure3, hc, httpOk, httpMethodNotAllowed] at hs
    · simp [failure2, failure3, hc, httpOk, httpInternalServerError] at hs
  | some ev =>
    have hb := (runget2_event_iff sdk dev cmd _ {} ev).mp hev
    obtain ⟨hseen, hr2, hr3⟩ := runget_built sdk hb hup {}
    rw [hsame, hev]
    dsimp only
    have hpush := stringMapGetBool_stringParams params dsPush false
    have hcount := requestSucceeded_retries_iff sdk (obtainAddress sdk dev).dev
    rw [counterFull_obtainAddress, show (obtainAddress sdk dev).dev.retries = dev.retries by
      rw [obtainAddress_dev]] at hcount
    constructor
    · intro h
      refine ⟨⟨ev, hb⟩, ?_, ?_⟩
      · have hp := h.published
        cases hpush2 : pushes2 (stringParams params) with
        | false => rfl
        | true =>
          have hlen := congrArg List.length hp
          simp [deliver2, deliver3, hpush2, hpush, hseen, List.filter_append] at hlen
      · rw [← hcount, ← hr2, ← hr3]
        exact h.retries
    · rintro ⟨-, hno, hfull⟩
      have hfail : failure2 (deliver2 (stringParams params) ev).1 = none ∧
          failure3 (deliver3 (stringParams params) ev).1 = none := ⟨rfl, rfl⟩
      rw [hfail.1, hfail.2, hr2, hr3, ← hcount.mpr hfull]
      refine Agree.of_seen ?_
      simp only [deliver2, deliver3, hno, hpush, seen_append, hseen]
      cases returns2 (stringParams params) <;> simp

/-- The outcome of a call of the driver leaves the failure counter as it is: the bus counts it,
    and REST does not. -/
def CounterKept (dev : DeviceObj) {ε : Type} (outcome : Except ε Unit) : Prop :=
  match outcome with
  | .ok _ => CounterFull sdk dev
  | .error _ => sdk.device.allowedFails = 0

/-- A set request does the same on both paths. Its values are `refused` by both, as a write of
    what cannot be written by both or by neither; or all of them are given on both, but the
    device has no address; or they are the same, and the driver's answer leaves the failure
    counter as it is. -/
inductive SetAgrees (dev : DeviceObj) (cmd : CmdInfo) (params : Option IotData)
    (object : List (String × Json)) : Prop
  | refused (rest : ¬ AllGiven (RestValue sdk object) cmd.reqs)
      (bus : ¬ AllGiven (BusValue sdk object) cmd.reqs)
      (unwritable :
        StoppedUnwritable (fun r => r.pval.type.type = .binary ∨ ∃ v, RestValue sdk object r v)
            cmd.reqs ↔
          StoppedUnwritable (fun r => ∃ v, BusValue sdk object r v) cmd.reqs)
  | unaddressed (rest : AllGiven (RestValue sdk object) cmd.reqs)
      (bus : AllGiven (BusValue sdk object) cmd.reqs) (address : ¬ AddressAvailable sdk dev)
  | same (values : List IotData) (address : Opaque)
      (given : List.Forall₂ (fun r v => r.pval.writable = true ∧ RestValue sdk object r v ∧
        BusValue sdk object r v) cmd.reqs values)
      (available : (obtainAddress sdk dev).val.1 = some address)
      (kept : CounterKept sdk dev (sdk.driver.puthandler (some address)
        (cmd.reqs.map CmdReq.req) (values.map some) params))

/-- The conversions of the two paths agree: both fail with one status, or both accept the
    values, and where there is an address, they are the same values, and the driver's answer
    leaves the failure counter as it is. -/
def ConversionsAgree (dev : DeviceObj) (cmd : CmdInfo) (params : Option IotData)
    (rdata : ReqData) (request : Option IotData) : Prop :=
  match (convertAll3 sdk request cmd.reqs).1 with
  | some f => (convertAll2 sdk rdata cmd.reqs {}).1.code = f.code
  | none => (convertAll2 sdk rdata cmd.reqs {}).1.code = httpOk ∧
      ∀ address, (obtainAddress sdk dev).val.1 = some address →
        (convertAll2 sdk rdata cmd.reqs {}).2 = (convertAll3 sdk request cmd.reqs).2 ∧
          CounterKept sdk dev (sdk.driver.puthandler (some address) (cmd.reqs.map CmdReq.req)
            (convertAll3 sdk request cmd.reqs).2 params)

theorem PutFailure.code_cases (f : PutFailure) :
    f.code = httpMethodNotAllowed ∨ f.code = httpBadRequest := by
  cases f <;> simp [code]

/-- The loop of the REST path ends with the status it started with or that of a failure. -/
theorem convertAll2_code (rdata : ReqData) (reqs : List CmdReq) (reply : HttpReply) :
    (convertAll2 sdk rdata reqs reply).1.code = reply.code ∨
      ∃ f : PutFailure, (convertAll2 sdk rdata reqs reply).1.code = f.code := by
  induction reqs generalizing reply with
  | nil => exact Or.inl rfl
  | cons r rs ih =>
    rw [convertAll2]
    cases hc : convert2 sdk rdata r with
    | ok v => exact ih reply
    | error f =>
      dsimp only
      split
      · rcases ih (errorResponse f.code (f.message r.req.resource.name)) with h | h
        · exact Or.inr ⟨f, h⟩
        · exact Or.inr h
      · exact Or.inr ⟨f, rfl⟩

/-- Status codes that the REST path can end with once all values are accepted. -/
theorem runput2_accepted (dev : DeviceObj) {cmd : CmdInfo} (params : Option IotData)
    {rdata : ReqData} (hok : (convertAll2 sdk rdata cmd.reqs {}).1.code = httpOk) :
    (runput2 sdk dev cmd params rdata).val.code = httpOk ∨
      (runput2 sdk dev cmd params rdata).val.code = httpInternalServerError := by
  rw [runput2]
  dsimp only
  rw [if_pos hok]
  split
  · exact Or.inr rfl
  · split
    · exact Or.inl rfl
    · exact Or.inr rfl

/-- Status codes that the bus path can end with once all values are accepted. -/
theorem runput3_accepted (dev : DeviceObj) {cmd : CmdInfo} {request : Option IotData}
    (params : Option IotData)
    (hok : (convertAll3 sdk request cmd.reqs).1 = none) :
    (runput3 sdk dev cmd request params).val.1 = 0 ∨
      (runput3 sdk dev cmd request params).val.1 = httpInternalServerError := by
  simp only [runput3, hok]
  split
  · exact Or.inr rfl
  · split
    · exact Or.inl rfl
    · exact Or.inr rfl

/-- Where both paths accept the values and there is an address, what matters is whether the
    values are the same, and what the driver's answer does to the failure counter. -/
theorem runput_agree_of_accepted {dev : DeviceObj} {cmd : CmdInfo} {params : Option IotData}
    {rdata : ReqData} {request : Option IotData} {address : Opaque}
    (hup : dev.dev.operatingState ≠ .down)
    (h2 : (convertAll2 sdk rdata cmd.reqs {}).1.code = httpOk)
    (h3 : (convertAll3 sdk request cmd.reqs).1 = none)
    (ha : (obtainAddress sdk dev).val.1 = some address) :
    Agree (runput2 sdk dev cmd params rdata).trace (runput3 sdk dev cmd request params).trace
        (runput2 sdk dev cmd params rdata).dev.retries
        (runput3 sdk dev cmd request params).dev.retries
        (failure2 (runput2 sdk dev cmd params rdata).val)
        (failure3 (runput3 sdk dev cmd request params).val) ↔
      (convertAll2 sdk rdata cmd.reqs {}).2 = (convertAll3 sdk request cmd.reqs).2 ∧
        CounterKept sdk dev (sdk.driver.puthandler (some address) (cmd.reqs.map CmdReq.req)
          (convertAll3 sdk request cmd.reqs).2 params) := by
  have hup' : ¬ (obtainAddress sdk dev).dev.dev.operatingState = .down := by
    rw [obtainAddress_dev]
    exact hup
  by_cases hv : (convertAll2 sdk rdata cmd.reqs {}).2 = (convertAll3 sdk request cmd.reqs).2
  · simp only [runput2, runput3, h2, h3, ha, hv, if_true, true_and]
    cases sdk.driver.puthandler (some address) (cmd.reqs.map CmdReq.req)
        (convertAll3 sdk request cmd.reqs).2 params with
    | ok u =>
      dsimp only [CounterKept]
      rw [← counterFull_obtainAddress, ← requestSucceeded_retries_iff]
      constructor
      · exact fun h => h.retries
      · intro hr
        rw [← hr]
        exact Agree.of_seen (by simp [seen_requestSucceeded, hup'])
    | error e =>
      dsimp only [CounterKept]
      rw [← requestFailed_retries_iff sdk (obtainAddress sdk dev).dev]
      constructor
      · exact fun h => h.retries
      · intro hr
        have hz := (requestFailed_retries_iff sdk _).mp hr
        rw [← hr]
        exact Agree.of_seen (by simp [seen_requestFailed, hz])
  · refine iff_of_false (fun h => hv ?_) (fun h => hv h.1)
    have hc := congrArg List.head? h.calls
    simp only [runput2, runput3, h2, h3, ha, if_true] at hc
    split at hc <;> split at hc <;> simpa [List.filter_cons] using hc

/-- Where the bus turns the values down, the paths agree if REST does so with the same
    status. -/
theorem put_agree_of_refused {dev : DeviceObj} {cmd : CmdInfo} {params : Option IotData}
    {rdata : ReqData} {request : Option IotData} {f : PutFailure}
    (h3 : (convertAll3 sdk request cmd.reqs).1 = some f) :
    Agree (runput2 sdk dev cmd params rdata).trace (runput3 sdk dev cmd request params).trace
        (runput2 sdk dev cmd params rdata).dev.retries
        (runput3 sdk dev cmd request params).dev.retries
        (failure2 (runput2 sdk dev cmd params rdata).val)
        (failure3 (runput3 sdk dev cmd request params).val) ↔
      (convertAll2 sdk rdata cmd.reqs {}).1.code = f.code := by
  have hbus : runput3 sdk dev cmd request params =
      { val := (f.code, v3ErrorResponse f.format), dev, trace := [.inspect] } := by
    simp only [runput3, h3]
  have hfail : failure3 (f.code, v3ErrorResponse f.format) = some f.code := by
    rcases f.code_cases with hf | hf <;>
      simp [failure3, hf, httpMethodNotAllowed, httpBadRequest]
  rw [hbus]
  dsimp only
  rw [hfail]
  by_cases h2 : (convertAll2 sdk rdata cmd.reqs {}).1.code = httpOk
  · refine iff_of_false (fun h => ?_) (fun h => f.code_ne_ok (h.symm.trans h2))
    have hs := h.status
    rcases runput2_accepted sdk dev params h2 with hc | hc
    · simp [failure2, hc] at hs
    · rcases f.code_cases with hf | hf <;>
        simp [failure2, hc, hf, httpInternalServerError, httpOk, httpMethodNotAllowed,
          httpBadRequest] at hs
  · have hrest : runput2 sdk dev cmd params rdata =
        { val := (convertAll2 sdk rdata cmd.reqs {}).1, dev, trace := [.inspect] } := by
      simp only [runput2, h2, if_false]
    rw [hrest, failure2, if_neg h2]
    constructor
    · intro h
      exact Option.some.inj h.status
    · intro h
      rw [h]
      exact Agree.of_seen rfl

/-- Where only REST turns the values down, the paths do not agree. -/
theorem not_agree_of_accepted {dev : DeviceObj} {cmd : CmdInfo} {params : Option IotData}
    {rdata : ReqData} {request : Option IotData}
    (h2 : (convertAll2 sdk rdata cmd.reqs {}).1.code ≠ httpOk)
    (h3 : (convertAll3 sdk request cmd.reqs).1 = none) :
    failure2 (runput2 sdk dev cmd params rdata).val ≠
      failure3 (runput3 sdk dev cmd request params).val := by
  have hrest : (runput2 sdk dev cmd params rdata).val =
      (convertAll2 sdk rdata cmd.reqs {}).1 := by
    simp only [runput2, h2, if_false]
  rw [hrest, failure2, if_neg h2]
  rcases runput3_accepted sdk dev params h3 with hc | hc
  · simp [failure3, hc]
  · rcases convertAll2_code sdk rdata cmd.reqs {} with hf | ⟨f, hf⟩
    · exact absurd hf h2
    · rcases f.code_cases with hfc | hfc <;>
        simp [failure3, hc, hf, hfc, httpInternalServerError, httpMethodNotAllowed,
          httpBadRequest]

/-- After the checks, a set request agrees exactly if its conversions do. -/
theorem put_agree_iff {dev : DeviceObj} (cmd : CmdInfo) (hup : dev.dev.operatingState ≠ .down)
    (params : Option IotData) (rdata : ReqData) (request : Option IotData) :
    Agree (runput2 sdk dev cmd params rdata).trace (runput3 sdk dev cmd request params).trace
        (runput2 sdk dev cmd params rdata).dev.retries
        (runput3 sdk dev cmd request params).dev.retries
        (failure2 (runput2 sdk dev cmd params rdata).val)
        (failure3 (runput3 sdk dev cmd request params).val) ↔
      ConversionsAgree sdk dev cmd params rdata request := by
  rw [ConversionsAgree]
  cases h3 : (convertAll3 sdk request cmd.reqs).1 with
  | some f => exact put_agree_of_refused sdk h3
  | none =>
    dsimp only
    by_cases h2 : (convertAll2 sdk rdata cmd.reqs {}).1.code = httpOk
    · cases ha : (obtainAddress sdk dev).val.1 with
      | none =>
        refine iff_of_true ?_ ⟨h2, by simp⟩
        simp only [runput2, runput3, h2, h3, ha, if_true]
        exact Agree.of_seen (by simp)
      | some address =>
        rw [runput_agree_of_accepted sdk hup h2 h3 ha]
        simp [h2]
    · exact iff_of_false (fun h => not_agree_of_accepted sdk h2 h3 h.status) (fun h => h2 h.1)

-- ════════════════════════════════════════════════════════════════════════
-- Request objects
-- ════════════════════════════════════════════════════════════════════════

section Objects

variable {sdk} {object : List (String × Json)}

/-- Values that are given one by one are given together. -/
theorem AllGiven.exists_values {given : CmdReq → IotData → Prop} {reqs : List CmdReq}
    (h : AllGiven given reqs) :
    ∃ values, List.Forall₂ (fun r v => r.pval.writable = true ∧ given r v) reqs values := by
  induction reqs with
  | nil => exact ⟨[], .nil⟩
  | cons r rs ih =>
    obtain ⟨hw, v, hv⟩ := h r List.mem_cons_self
    obtain ⟨values, hvalues⟩ := ih fun q hq => h q (List.mem_cons_of_mem _ hq)
    exact ⟨v :: values, .cons ⟨hw, hv⟩ hvalues⟩

/-- Two ways to give the same values. -/
theorem forall₂_given_and {given given' : CmdReq → IotData → Prop} {reqs : List CmdReq}
    {values : List IotData} :
    List.Forall₂ (fun r v => r.pval.writable = true ∧ given r v ∧ given' r v) reqs values ↔
      List.Forall₂ (fun r v => r.pval.writable = true ∧ given r v) reqs values ∧
        List.Forall₂ (fun r v => r.pval.writable = true ∧ given' r v) reqs values := by
  constructor
  · intro h
    exact ⟨h.imp fun _ _ hr => ⟨hr.1, hr.2.1⟩, h.imp fun _ _ hr => ⟨hr.1, hr.2.2⟩⟩
  · rintro ⟨h, h'⟩
    induction h with
    | nil => exact .nil
    | cons hr _ ih =>
      cases h' with
      | cons hr' hrs' => exact .cons ⟨hr.1, hr.2, hr'.2⟩ (ih hrs')

/-- What gives the resources of a command the same values, gives them the same together. -/
theorem forall₂_given_congr {given given' : CmdReq → IotData → Prop} {reqs : List CmdReq}
    (h : ∀ r ∈ reqs, ∀ v, given r v → given' r v) {values : List IotData}
    (hvalues : List.Forall₂ (fun r v => r.pval.writable = true ∧ given r v) reqs values) :
    List.Forall₂ (fun r v => r.pval.writable = true ∧ given' r v) reqs values := by
  induction hvalues with
  | nil => exact .nil
  | cons hr _ ih =>
    exact .cons ⟨hr.1, h _ List.mem_cons_self _ hr.2⟩
      (ih fun q hq => h q (List.mem_cons_of_mem _ hq))

/-- Where the bus refuses the values, the conversions agree if REST refuses them for a reason of
    the same kind. -/
theorem code_eq_iff (hnodup : (object.map Prod.fst).Nodup) {reqs : List CmdReq} {f : PutFailure}
    (hf : (convertAll3 sdk (some ((Json.object object).toIot sdk.libs.codec)) reqs).1 = some f) :
    (convertAll2 sdk (.json object) reqs {}).1.code = f.code ↔
      ¬ AllGiven (RestValue sdk object) reqs ∧
        (StoppedUnwritable (fun r => r.pval.type.type = .binary ∨ ∃ v, RestValue sdk object r v)
            reqs ↔
          StoppedUnwritable (fun r => ∃ v, BusValue sdk object r v) reqs) := by
  have hinit : ({} : HttpReply).code ≠ httpMethodNotAllowed := by decide
  rw [← convertAll2_ok_iff_given hnodup, ← convertAll2_unwritable_iff hnodup reqs hinit,
    ← convertAll3_unwritable_iff hnodup, hf, Option.some_inj]
  have hkind : f = .unwritable ↔ f.code = httpMethodNotAllowed := by
    cases f <;> simp [PutFailure.code, httpMethodNotAllowed, httpBadRequest]
  have hcodes := convertAll2_code sdk (.json object) reqs {}
  rw [hkind]
  rcases hcodes with hc | ⟨g, hc⟩
  · rcases f.code_cases with hfc | hfc <;>
      simp [hc, hfc, httpOk, httpMethodNotAllowed, httpBadRequest]
  · rcases f.code_cases with hfc | hfc <;> rcases g.code_cases with hgc | hgc <;>
      simp [hc, hfc, hgc, httpOk, httpMethodNotAllowed, httpBadRequest]

/-- The conversions agree exactly if the object gives the resources what `SetAgrees` asks for. -/
theorem conversionsAgree_iff (hnodup : (object.map Prod.fst).Nodup) {dev : DeviceObj}
    {cmd : CmdInfo} {params : Option IotData} :
    ConversionsAgree sdk dev cmd params (.json object)
        (some ((Json.object object).toIot sdk.libs.codec)) ↔
      SetAgrees sdk dev cmd params object := by
  rw [ConversionsAgree]
  cases hf : (convertAll3 sdk (some ((Json.object object).toIot sdk.libs.codec)) cmd.reqs).1 with
  | some f =>
    have hbus : ¬ AllGiven (BusValue sdk object) cmd.reqs := by
      rw [← convertAll3_none_iff_given hnodup, hf]
      nofun
    dsimp only
    rw [code_eq_iff hnodup hf]
    constructor
    · rintro ⟨hrest, hkind⟩
      exact .refused hrest hbus hkind
    · intro h
      cases h with
      | refused hrest _ hkind => exact ⟨hrest, hkind⟩
      | unaddressed _ hall => exact absurd hall hbus
      | same values address given =>
        have hgiven := (forall₂_given_and.mp given).2
        rw [← convertAll3_values_iff hnodup, hf] at hgiven
        exact absurd hgiven.1 nofun
  | none =>
    have hbus := (convertAll3_none_iff_given hnodup cmd.reqs).mp hf
    obtain ⟨values, hvalues⟩ := hbus.exists_values
    have hbusValues := ((convertAll3_values_iff hnodup).mpr hvalues).2
    dsimp only
    rw [hbusValues]
    constructor
    · rintro ⟨hcode, hagree⟩
      have hrest := (convertAll2_ok_iff_given hnodup cmd.reqs).mp hcode
      cases ha : (obtainAddress sdk dev).val.1 with
      | none => exact .unaddressed hrest hbus (by simp [AddressAvailable, ha])
      | some address =>
        obtain ⟨heq, hkept⟩ := hagree address ha
        have hrestValues := (convertAll2_values_iff hnodup).mp ⟨hcode, heq⟩
        exact .same values address (forall₂_given_and.mpr ⟨hrestValues, hvalues⟩) ha hkept
    · intro h
      cases h with
      | refused _ hno => exact absurd hbus hno
      | unaddressed hrest _ hno =>
        refine ⟨(convertAll2_ok_iff_given hnodup cmd.reqs).mpr hrest, fun address ha => ?_⟩
        exact absurd (by simp [AddressAvailable, ha]) hno
      | same values' address given ha hkept =>
        obtain ⟨hrest, hbus'⟩ := forall₂_given_and.mp given
        obtain ⟨hcode, heq⟩ := (convertAll2_values_iff hnodup).mpr hrest
        have hsame : values'.map some = values.map some :=
          ((convertAll3_values_iff hnodup).mpr hbus').2.symm.trans hbusValues
        refine ⟨hcode, fun address' ha' => ?_⟩
        obtain rfl : address = address' := Option.some.inj (ha.symm.trans ha')
        rw [heq, hsame]
        rw [hsame] at hkept
        exact ⟨rfl, hkept⟩

/-- The members of a request object that a command asks for are strings, and none of the
    resources is binary. -/
def StringsOnly (object : List (String × Json)) (reqs : List CmdReq) : Prop :=
  ∀ r ∈ reqs, r.pval.type.type ≠ .binary ∧
    ∀ x, (r.req.resource.name, x) ∈ object → ∃ s, x = .string s

/-- Strings give the same values on both paths. -/
theorem StringsOnly.restValue_iff {reqs : List CmdReq} (h : StringsOnly object reqs) {r : CmdReq}
    (hr : r ∈ reqs) (v : IotData) : RestValue sdk object r v ↔ BusValue sdk object r v := by
  obtain ⟨hother, hstring⟩ := h r hr
  constructor
  · intro hv
    cases hv with
    | bytes binary => exact absurd binary hother
    | string _ member takes => exact .string member takes
    | json _ member notString =>
      obtain ⟨s, hs⟩ := hstring _ member
      exact absurd hs (notString s)
    | default _ absent dfl takes =>
      exact .default (fun s hs => absent (List.mem_map_of_mem hs)) dfl takes
  · intro hv
    cases hv with
    | string member takes => exact .string hother member takes
    | default absent dfl takes =>
      refine .default hother (fun hm => ?_) dfl takes
      obtain ⟨⟨name, x⟩, hx, rfl⟩ := List.mem_map.mp hm
      obtain ⟨s, rfl⟩ := hstring x hx
      exact absent s hx

/-- With strings only, a set request agrees unless the driver is called and its outcome
    changes the failure counter. -/
theorem setAgrees_of_strings_iff (hnodup : (object.map Prod.fst).Nodup) {dev : DeviceObj}
    {cmd : CmdInfo} {params : Option IotData} (h : StringsOnly object cmd.reqs) :
    SetAgrees sdk dev cmd params object ↔
      ∀ values address,
        List.Forall₂ (fun r v => r.pval.writable = true ∧ BusValue sdk object r v) cmd.reqs values →
        (obtainAddress sdk dev).val.1 = some address →
        CounterKept sdk dev (sdk.driver.puthandler (some address) (cmd.reqs.map CmdReq.req)
          (values.map some) params) := by
  have hgiven : AllGiven (RestValue sdk object) cmd.reqs ↔
      AllGiven (BusValue sdk object) cmd.reqs := by
    unfold AllGiven
    exact forall₂_congr fun r hr => and_congr_right fun _ => exists_congr (h.restValue_iff hr)
  constructor
  · intro hagrees values address hvalues ha
    have hbus := (convertAll3_values_iff hnodup).mpr hvalues
    cases hagrees with
    | refused _ hno => exact absurd ((convertAll3_none_iff_given hnodup _).mp hbus.1) hno
    | unaddressed _ _ hno => exact absurd (by simp [AddressAvailable, ha]) hno
    | same values' address' given ha' hkept =>
      have hbus' := (convertAll3_values_iff hnodup).mpr (forall₂_given_and.mp given).2
      obtain rfl : address' = address := Option.some.inj (ha'.symm.trans ha)
      rwa [← hbus.2.symm.trans hbus'.2] at hkept
  · intro hkept
    by_cases hbus : AllGiven (BusValue sdk object) cmd.reqs
    · cases ha : (obtainAddress sdk dev).val.1 with
      | none => exact .unaddressed (hgiven.mpr hbus) hbus (by simp [AddressAvailable, ha])
      | some address =>
        obtain ⟨values, hvalues⟩ := hbus.exists_values
        have hrest := forall₂_given_congr (fun r hr v => (h.restValue_iff hr v).mpr) hvalues
        exact .same values address (forall₂_given_and.mpr ⟨hrest, hvalues⟩) ha
          (hkept values address hvalues ha)
    · refine .refused (hgiven.not.mpr hbus) hbus ?_
      refine exists₃_congr fun before r after => and_congr_right fun he => and_congr_right fun _ =>
        forall₂_congr fun q hq => and_congr_right fun _ => ?_
      -- a resource of the command, which is not binary
      have hmem : q ∈ cmd.reqs := he ▸ List.mem_append_left _ hq
      exact (or_iff_right (h q hmem).1).trans (exists_congr (h.restValue_iff hmem))

end Objects

-- ════════════════════════════════════════════════════════════════════════
-- Commands
-- ════════════════════════════════════════════════════════════════════════

/-- A command, with string parameters and a request object. The names in the object are
    distinct, as parson requires. -/
structure CommandSent where
  device : String
  cmd : String
  isGet : Bool
  params : Option (List (String × String)) := none
  object : List (String × Json) := []
  distinct : (object.map Prod.fst).Nodup := by decide

namespace CommandSent

/-- The command as a REST request. -/
def rest (c : CommandSent) : HttpRequest where
  name := c.device
  cmd := c.cmd
  isGet := c.isGet
  qparams := stringParams c.params
  payload := .data (.json c.object)

/-- The command as a bus request. -/
def bus (c : CommandSent) : BusRequest where
  device := c.device
  cmd := c.cmd
  op := if c.isGet then "get" else "set"
  request := some ((Json.object c.object).toIot sdk.libs.codec)
  params := stringParams c.params

end CommandSent

/-- Where both handlers run a command, it does the same on both paths. -/
def CommandAgrees (c : CommandSent) (dev : DeviceObj) (prof : DeviceProfile) : Prop :=
  ∀ cmd, (lookupCommand sdk prof c.cmd c.isGet).2.1 = .command cmd →
    refusal sdk dev cmd = none →
      if c.isGet then GetAgrees sdk dev cmd (stringParams c.params)
      else SetAgrees sdk dev cmd (stringParams c.params) c.object

/-- The refusals of the two handlers have the same status. -/
theorem failure_refused (why : Refusal) (message : String) (body : Option Body) :
    failure2 (errorResponse why.code message) = failure3 (why.code, body) := by
  cases why <;> rfl

theorem impl_agree_iff (c : CommandSent) (dev : DeviceObj) (prof : DeviceProfile) :
    Agree (v2impl sdk c.rest dev prof).trace (v3impl sdk (c.bus sdk) c.isGet dev prof).trace
        (v2impl sdk c.rest dev prof).dev.retries
        (v3impl sdk (c.bus sdk) c.isGet dev prof).dev.retries
        (failure2 (v2impl sdk c.rest dev prof).val.1)
        (failure3 (v3impl sdk (c.bus sdk) c.isGet dev prof).val.1) ↔
      CommandAgrees sdk c dev prof := by
  rw [CommandAgrees, v2impl, v3impl, runCommand, runCommand]
  have hcmd : c.rest.cmd = c.cmd ∧ c.rest.isGet = c.isGet ∧ (c.bus sdk).cmd = c.cmd :=
    ⟨rfl, rfl, rfl⟩
  rw [hcmd.1, hcmd.2.1, hcmd.2.2]
  dsimp only
  cases hf : (lookupCommand sdk prof c.cmd c.isGet).2.1 with
  | wrongMethod => exact iff_of_true (Agree.of_seen rfl) (by simp)
  | missing => exact iff_of_true (Agree.of_seen (by simp)) (by simp)
  | command cmd =>
    cases hr : refusal sdk dev cmd with
    | some why =>
      refine iff_of_true ?_ (by simp [hr])
      simp only [hr]
      rw [failure_refused why _ (v3ErrorResponse why.format)]
      exact Agree.of_seen (by simp)
    | none =>
      have hup := ((refusal_eq_none_iff sdk dev cmd).mp hr).2.1
      simp only [hr]
      by_cases hget : c.isGet = true
      · simp only [hget, if_true, Found.command.injEq]
        have hagree := get_agree_iff sdk cmd hup c.rest (c.bus sdk) rfl rfl
        refine (agree_congr (by simp) (by simp)).trans (hagree.trans ?_)
        exact ⟨fun h cmd' he _ => he ▸ h, fun h => h cmd rfl hr⟩
      · simp only [hget, Bool.false_eq_true, if_false, Found.command.injEq]
        have hagree := put_agree_iff sdk cmd hup (stringParams c.params)
          (.json c.object) (some ((Json.object c.object).toIot sdk.libs.codec))
        rw [conversionsAgree_iff c.distinct] at hagree
        refine (agree_congr ?_ ?_).trans (hagree.trans ?_)
        · simp [put2, CommandSent.rest]
        · simp [put3, CommandSent.bus]
        · exact ⟨fun h cmd' he _ => he ▸ h, fun h => h cmd rfl hr⟩

/-- Releasing a device leaves its failure counter alone. -/
theorem applyReleases_retries (s : Store) (d e : DeviceRef) (t : List Effect) :
    ((s.applyReleases d t).device e).retries = (s.device e).retries := by
  induction t generalizing s with
  | nil => rfl
  | cons x t ih =>
    rw [Store.applyReleases, List.foldl_cons]
    refine (ih _).trans ?_
    split
    · rw [Store.deviceRelease_device]
    · rfl

/-- What an entry point leaves in the failure counters. -/
theorem onDevice_retries {α : Type} {s : Store} {name : String} {d : DeviceRef}
    (hd : s.devices.lookup name = some d) {dev : DeviceObj} {prof : DeviceProfile}
    (hf : s.found name = some (dev, prof))
    (f : DeviceObj → DeviceProfile → Step (α × DeviceProfile)) (absent : α) (e : DeviceRef) :
    ((onDevice s name f absent).store.device e).retries =
      if e = d then (f dev prof).dev.retries else (s.device e).retries := by
  rw [Store.found, hd, Option.map_some] at hf
  obtain ⟨rfl, rfl⟩ := Prod.mk.inj (Option.some.inj hf)
  simp only [onDevice, hd]
  rw [applyReleases_retries, writeBack_device]
  split
  · rfl
  · rw [deviceByname_device hd]

/-- The handlers agree on a command exactly if the service is locked, the device is not
    there, or the command does the same on both paths once it is found and checked. -/
theorem handlers_agree_iff (s : Store) (c : CommandSent) :
    (∀ d, Agree (handlerV2 sdk s c.rest).trace (handlerV3 sdk s (c.bus sdk)).trace
        ((handlerV2 sdk s c.rest).store.device d).retries
        ((handlerV3 sdk s (c.bus sdk)).store.device d).retries
        (failure2 (handlerV2 sdk s c.rest).val) (failure3 (handlerV3 sdk s (c.bus sdk)).val)) ↔
      (sdk.adminstate ≠ .locked → ∀ dev prof, s.found c.device = some (dev, prof) →
        CommandAgrees sdk c dev prof) := by
  by_cases hl : sdk.adminstate = .locked
  · rw [handlerV2, handlerV3, if_pos hl, if_pos hl]
    exact iff_of_true (fun _ => Agree.of_seen rfl) fun h => absurd hl h
  rw [handlerV2, handlerV3, if_neg hl, if_neg hl]
  have hdispatch : v3dispatch sdk (c.bus sdk) = v3impl sdk (c.bus sdk) c.isGet := by
    funext dev prof
    cases hget : c.isGet <;> simp [v3dispatch, CommandSent.bus, hget]
  rw [hdispatch, show c.rest.name = c.device from rfl, show (c.bus sdk).device = c.device from rfl]
  cases hlook : s.devices.lookup c.device with
  | none =>
    refine iff_of_true (fun _ => ?_) fun _ dev prof hf => ?_
    · simp only [onDevice, hlook]
      exact Agree.of_seen rfl
    · simp [Store.found, hlook] at hf
  | some d =>
    obtain ⟨⟨dev, prof⟩, hf⟩ : ∃ r, s.found c.device = some r := by simp [Store.found, hlook]
    have hiff := impl_agree_iff sdk c dev prof
    have hcond : (sdk.adminstate ≠ .locked → ∀ dev' prof', s.found c.device = some (dev', prof') →
        CommandAgrees sdk c dev' prof') ↔ CommandAgrees sdk c dev prof := by
      simp [hl, hf]
    rw [hcond, ← hiff, (onDevice_found hf).1, (onDevice_found hf).1, (onDevice_found hf).2,
      (onDevice_found hf).2]
    simp only [onDevice_retries hlook hf]
    constructor
    · intro h
      have hd := h d
      rw [if_pos rfl, if_pos rfl] at hd
      exact (agree_congr (by simp) (by simp)).mp hd
    · intro h e
      by_cases he : e = d
      · rw [if_pos he, if_pos he]
        exact (agree_congr (by simp) (by simp)).mpr h
      · rw [if_neg he, if_neg he]
        have hother := Agree.mk h.calls h.published h.opstates
          (rfl : (s.device e).retries = (s.device e).retries) h.status
        exact (agree_congr (by simp) (by simp)).mpr hother

/-- A command that sets a resource to a JSON value that is not a string. -/
def setToTrue : CommandSent where
  device := "lamp"
  cmd := "state"
  isGet := false
  object := [("state", .bool true)]

/-- It is carried out when it comes over REST, and turned down when it comes on the bus. -/
theorem setToTrue_disagrees :
    let h2 := handlerV2 sampleSdk (lampStore .unlocked .up) setToTrue.rest
    let h3 := handlerV3 sampleSdk (lampStore .unlocked .up) (setToTrue.bus sampleSdk)
    (¬ ∀ d, Agree h2.trace h3.trace (h2.store.device d).retries (h3.store.device d).retries
      (failure2 h2.val) (failure3 h3.val)) ∧
    failure2 h2.val = none ∧ failure3 h3.val = some httpBadRequest := by
  refine ⟨fun h => ?_, by decide, by decide⟩
  exact absurd (h 0).status (by decide)

end DeviceSdk
