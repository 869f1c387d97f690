import DeviceSdk.Command.Defs

/-!
# Set requests

`edgex_device_runput2`, for requests over REST, and `edgex_device_runput3`, for requests
over the message bus. Both go through the resources of a command: each value is looked
up in the payload, parsed, checked and transformed, and only when all of them are there
is the driver called with them.

A resource of type Object takes whatever JSON document its text holds, where a resource
of an array type takes an array only. Apart from that, the driver is called exactly for
the requests it should be called for, with exactly the values that it should get.

## Main definitions

- `ReqData`, `reqdataGet`, `reqdataGetBinary` — the payload of a REST request
- `populateValue` — the value that a text stands for
- `runput2`, `runput3` — the two paths
- `Deliverable` — what a value must be to be delivered to the driver

## Main results

- `runput_delivers_iff` — when the driver is called as it should be
-/

namespace DeviceSdk

/-- An item of a CBOR map. -/
inductive CborItem
  | string (s : String)
  | bytes (bs : List UInt8)
  | other

/-- `edgex_reqdata_t`: a JSON object, or a CBOR map with string keys. -/
inductive ReqData
  | json (members : List (String × Json))
  | cbor (pairs : List (String × CborItem))

/-- `edgex_reqdata_get`. What is not a string is serialized, if it is JSON. -/
def reqdataGet (c : Codec) (data : ReqData) (name : String) (dfl : Option String) :
    Option String :=
  match data with
  | .json members =>
    match members.lookup name with
    | some (.string s) => some s
    | some value => some (c.serialize value)
    | none => dfl
  | .cbor pairs =>
    match pairs.lookup name with
    | some (.string s) => some s
    | _ => dfl

/-- `edgex_reqdata_get_binary`. -/
def reqdataGetBinary (c : Codec) (data : ReqData) (name : String) : Option IotData :=
  match data with
  | .json members =>
    match members.lookup name with
    | some (.string b64) => (c.fromBase64 b64).map .binary
    | _ => none
  | .cbor pairs =>
    match pairs.lookup name with
    | some (.bytes bs) => some (.binary bs)
    | _ => none

/-- `iot_config_string_default`, without substitution. -/
def configStringDefault (request : Option IotData) (name : String) (dfl : Option String) :
    Option String :=
  (IotData.stringMapGetString request name).or dfl

/-- `populateValue`. -/
def populateValue (c : Codec) (rtype : TypeCode) (val : String) : Option IotData :=
  match rtype.type with
  | .array =>
    match c.fromJson val with
    | some (.vector xs) =>
      (xs.mapM fun x => (c.cast x rtype.elementType).map Subtype.val).map
        (.array rtype.elementType)
    | _ => none
  | .binary => (c.fromBase64 val).map .binary
  | .map => c.fromJson val
  | t => (c.fromString t val).map Subtype.val

/-- Why a value is not accepted. -/
inductive PutFailure
  | unwritable
  | absent
  | unparsable (text : String)
  | outOfRange (text : String)
  | overflow (text : String)
  deriving DecidableEq

namespace PutFailure

/-- The status code of a failure. -/
def code : PutFailure → ℕ
  | unwritable => httpMethodNotAllowed
  | _ => httpBadRequest

/-- The format of the message. -/
def format : PutFailure → String
  | unwritable => "Attempt to write unwritable value %s"
  | absent => "No value supplied for %s"
  | unparsable _ => "Unable to parse \"%s\" for %s"
  | outOfRange _ => "Value \"%s\" for %s out of range specified in profile"
  | overflow _ => "Value \"%s\" for %s overflows after transformations"

/-- The message, for the resource of the name. -/
def message (resname : String) : PutFailure → String
  | unwritable => "Attempt to write unwritable value " ++ resname
  | absent => "No value supplied for " ++ resname
  | unparsable text => "Unable to parse \"" ++ text ++ "\" for " ++ resname
  | outOfRange text =>
    "Value \"" ++ text ++ "\" for " ++ resname ++ " out of range specified in profile"
  | overflow text =>
    "Value \"" ++ text ++ "\" for " ++ resname ++ " overflows after transformations"

end PutFailure

variable (sdk : Sdk)

/-- A text is parsed, and with transformations on, checked and transformed. -/
def acceptText (r : CmdReq) (text : String) : Except PutFailure IotData :=
  match populateValue sdk.libs.codec r.pval.type text with
  | none => .error (.unparsable text)
  | some value =>
    if sdk.device.datatransform then
      if transformValidate sdk.libs.float value r.pval then
        match transformIncoming sdk.libs.float value r.pval r.map with
        | some v => .ok v
        | none => .error (.overflow text)
      else .error (.outOfRange text)
    else .ok value

/-- One turn of the loop in `edgex_device_runput2`. Binary values are taken as they are. -/
def convert2 (rdata : ReqData) (r : CmdReq) : Except PutFailure IotData :=
  if !r.pval.writable then .error .unwritable
  else if r.pval.type.type = .binary then
    match reqdataGetBinary sdk.libs.codec rdata r.req.resource.name with
    | some v => .ok v
    | none => .error .absent
  else
    match reqdataGet sdk.libs.codec rdata r.req.resource.name r.dfl with
    | some text => acceptText sdk r text
    | none => .error .absent

/-- The loop in `edgex_device_runput2`. It is left at the first failure, except that of
    a binary value that is absent. Values that are not reached stay null. -/
def convertAll2 (rdata : ReqData) : List CmdReq → HttpReply → HttpReply × List (Option IotData)
  | [], reply => (reply, [])
  | r :: rs, reply =>
    match convert2 sdk rdata r with
    | .ok v =>
      let rest := convertAll2 rdata rs reply
      (rest.1, some v :: rest.2)
    | .error f =>
      let reply := errorResponse f.code (f.message r.req.resource.name)
      if f = .absent ∧ r.pval.type.type = .binary then
        let rest := convertAll2 rdata rs reply
        (rest.1, none :: rest.2)
      else (reply, none :: rs.map fun _ => none)

/-- `edgex_device_runput2`. -/
def runput2 (dev : DeviceObj) (cmd : CmdInfo) (params : Option IotData) (rdata : ReqData) :
    Step HttpReply :=
  let r := convertAll2 sdk rdata cmd.reqs {}
  if r.1.code = httpOk then
    let a := obtainAddress sdk dev
    match a.val.1 with
    | none =>
      { val := errorResponse httpInternalServerError
          ("Address parsing failed for device " ++ dev.dev.name ++ ": " ++
            exceptionText sdk.libs a.val.2)
        dev := a.dev
        trace := [.inspect] ++ a.trace ++ [.inspect] }
    | some address =>
      let call := Effect.puthandler (some address) cmd.reqs r.2 params
      match sdk.driver.puthandler (some address) (cmd.reqs.map CmdReq.req) r.2 params with
      | .ok _ =>
        { val := { code := httpOk, body := some (.base "Data written successfully") }
          dev := a.dev
          trace := [.inspect] ++ a.trace ++ [call] ++ updateLastConnected sdk dev.dev.name }
      | .error e =>
        { val := errorResponse httpInternalServerError
            ("Driver for " ++ dev.dev.name ++ " failed on PUT: " ++ exceptionText sdk.libs e)
          dev := a.dev
          trace := [.inspect] ++ a.trace ++ [call, .inspect] }
  else { val := r.1, dev, trace := [.inspect] }

/-- One turn of the loop in `edgex_device_runput3`. -/
def convert3 (request : Option IotData) (r : CmdReq) : Except PutFailure IotData :=
  if !r.pval.writable then .error .unwritable
  else
    match configStringDefault request r.req.resource.name r.dfl with
    | some text => acceptText sdk r text
    | none => .error .absent

/-- The loop in `edgex_device_runput3`, which is left at the first failure. -/
def convertAll3 (request : Option IotData) :
    List CmdReq → Option PutFailure × List (Option IotData)
  | [] => (none, [])
  | r :: rs =>
    match convert3 sdk request r with
    | .ok v =>
      let rest := convertAll3 request rs
      (rest.1, some v :: rest.2)
    | .error f => (some f, none :: rs.map fun _ => none)

/-- `edgex_device_runput3`. A status of zero is success. -/
def runput3 (dev : DeviceObj) (cmd : CmdInfo) (request params : Option IotData) :
    Step (ℕ × Option Body) :=
  let r := convertAll3 sdk request cmd.reqs
  match r.1 with
  | some f => { val := (f.code, v3ErrorResponse f.format), dev, trace := [.inspect] }
  | none =>
    let a := obtainAddress sdk dev
    match a.val.1 with
    | none =>
      { val := (httpInternalServerError,
          v3ErrorResponse "Address parsing failed for device %s: %s")
        dev := a.dev
        trace := [.inspect] ++ a.trace ++ [.inspect] }
    | some address =>
      let call := Effect.puthandler (some address) cmd.reqs r.2 params
      match sdk.driver.puthandler (some address) (cmd.reqs.map CmdReq.req) r.2 params with
      | .ok _ =>
        let q := requestSucceeded sdk a.dev
        { val := (0, some (.base "Data written successfully"))
          dev := q.dev
          trace := [.inspect] ++ a.trace ++ [call] ++ updateLastConnected sdk dev.dev.name ++
            q.trace }
      | .error _ =>
        let q := requestFailed sdk a.dev
        { val := (httpInternalServerError, v3ErrorResponse "Driver for %s failed on PUT: %s")
          dev := q.dev
          trace := [.inspect] ++ a.trace ++ [call, .inspect] ++ q.trace }

-- ════════════════════════════════════════════════════════════════════════
-- What is to be delivered
-- ════════════════════════════════════════════════════════════════════════

/-- What a path finds for a resource: a text, or bytes that need no parsing. -/
inductive Source
  | text (s : String)
  | bytes (v : IotData)

/-- Where `edgex_device_runput2` finds the value of a resource. -/
def source2 (rdata : ReqData) (r : CmdReq) : Option Source :=
  if r.pval.type.type = .binary then
    (reqdataGetBinary sdk.libs.codec rdata r.req.resource.name).map .bytes
  else (reqdataGet sdk.libs.codec rdata r.req.resource.name r.dfl).map .text

/-- Where `edgex_device_runput3` finds the value of a resource. -/
def source3 (request : Option IotData) (r : CmdReq) : Option Source :=
  (configStringDefault request r.req.resource.name r.dfl).map .text

/-- The value that is found for a resource reads as `parsed`. -/
def ReadsAs (src : CmdReq → Option Source) (r : CmdReq) (parsed : IotData) : Prop :=
  (∃ text, src r = some (.text text) ∧
    populateValue sdk.libs.codec r.pval.type text = some parsed) ∨
  src r = some (.bytes parsed)

/-- A value that reads as `parsed` arrives as `v`. -/
def ArrivesAs (r : CmdReq) (parsed v : IotData) : Prop :=
  if sdk.device.datatransform then
    transformValidate sdk.libs.float parsed r.pval = true ∧
      transformIncoming sdk.libs.float parsed r.pval r.map = some v
  else v = parsed

/-- A value is of the type that a type code stands for. -/
def IotData.HasType (d : IotData) (tc : TypeCode) : Prop :=
  d.type = tc.type ∧ (tc.type = .array → d.typecode.elementType = tc.elementType)

/-- `v` is what the driver is to be given for a resource: the resource is writable, a
    value is there, it parses to the type of the resource, and it passes the checks and
    transformations that are configured. -/
def Deliverable (src : CmdReq → Option Source) (r : CmdReq) (v : IotData) : Prop :=
  r.pval.writable = true ∧
    ∃ parsed, ReadsAs sdk src r parsed ∧ parsed.HasType r.pval.type ∧ ArrivesAs sdk r parsed v

/-- The address of a device is known, or the driver can make it. -/
def AddressAvailable (dev : DeviceObj) : Prop := (obtainAddress sdk dev).val.1.isSome = true

/-- The requests and the values of a call to `puthandler`. -/
def putCall? : Effect → Option (List CommandRequest × List (Option IotData))
  | .puthandler _ reqs values _ => some (reqs.map CmdReq.req, values)
  | _ => none

/-- The requests and the values of the calls to `puthandler`. -/
def putCalls (t : List Effect) : List (List CommandRequest × List (Option IotData)) :=
  t.filterMap putCall?

/-- The driver is called as it should be: once, for the requests of the command and with
    the values that are to be delivered, if all of them can be; and otherwise not at all,
    and the request fails. -/
structure Delivers (src : CmdReq → Option Source) (dev : DeviceObj) (cmd : CmdInfo)
    (trace : List Effect) (failed : Prop) : Prop where
  once : (putCalls trace).length ≤ 1
  called_iff : putCalls trace ≠ [] ↔
    AddressAvailable sdk dev ∧ ∀ r ∈ cmd.reqs, ∃ v, Deliverable sdk src r v
  values : ∀ call ∈ putCalls trace, call.1 = cmd.reqs.map CmdReq.req ∧
    call.2.length = cmd.nreqs ∧
    ∀ (i : ℕ) r, cmd.reqs[i]? = some r →
      ∃ v, call.2[i]? = some (some v) ∧ Deliverable sdk src r v
  refused : putCalls trace = [] → failed

/-- Where nothing else is wrong with a request, the text for a resource of type Object
    is a JSON object. -/
def ObjectsAreObjects (src : CmdReq → Option Source) (dev : DeviceObj) (cmd : CmdInfo) : Prop :=
  AddressAvailable sdk dev →
    (∀ r ∈ cmd.reqs, r.pval.writable = true ∧
      ∃ parsed v, ReadsAs sdk src r parsed ∧ ArrivesAs sdk r parsed v) →
    ∀ r ∈ cmd.reqs, r.pval.type.type = .map → ∀ text parsed, src r = some (.text text) →
      sdk.libs.codec.fromJson text = some parsed → parsed.type = .map

/-- Except for Objects, what parses is of the type of the resource. -/
theorem populateValue_hasType {c : Codec} {rtype : TypeCode} {text : String} {v : IotData}
    (h : populateValue c rtype text = some v) (hm : rtype.type ≠ .map) : v.HasType rtype := by
  unfold populateValue at h
  split at h
  · next ht =>
    split at h
    · obtain ⟨ys, -, rfl⟩ := Option.map_eq_some_iff.mp h
      exact ⟨ht.symm, fun _ => rfl⟩
    · cases h
  · next ht =>
    obtain ⟨bs, -, rfl⟩ := Option.map_eq_some_iff.mp h
    exact ⟨ht.symm, fun hc => absurd (ht.symm.trans hc) (by decide)⟩
  · next ht => exact absurd ht hm
  · next hna _ _ =>
    obtain ⟨d, -, rfl⟩ := Option.map_eq_some_iff.mp h
    exact ⟨d.2, fun hc => absurd hc hna⟩

theorem acceptText_eq_ok_iff (r : CmdReq) (text : String) (v : IotData) :
    acceptText sdk r text = .ok v ↔
      ∃ parsed, populateValue sdk.libs.codec r.pval.type text = some parsed ∧
        ArrivesAs sdk r parsed v := by
  unfold acceptText ArrivesAs
  cases hp : populateValue sdk.libs.codec r.pval.type text with
  | none => simp
  | some parsed =>
    by_cases hd : sdk.device.datatransform = true
    · by_cases hv : transformValidate sdk.libs.float parsed r.pval = true
      · cases hi : transformIncoming sdk.libs.float parsed r.pval r.map with
        | none => simp [hd, hv, hi]
        | some w => simp [hd, hv, hi]
      · simp [hd, hv]
    · simp [hd, eq_comm]

section Delivery

variable {sdk} {src : CmdReq → Option Source} {convert : CmdReq → Except PutFailure IotData}
  {dev : DeviceObj} {cmd : CmdInfo}
  (hconv : ∀ r v, convert r = .ok v ↔
    r.pval.writable = true ∧ ∃ parsed, ReadsAs sdk src r parsed ∧ ArrivesAs sdk r parsed v)

include hconv

/-- A value that can be delivered is converted. -/
theorem convert_of_deliverable {r : CmdReq} {v : IotData} (h : Deliverable sdk src r v) :
    convert r = .ok v := by
  obtain ⟨hw, parsed, hr, -, ha⟩ := h
  exact (hconv r v).mpr ⟨hw, parsed, hr, ha⟩

/-- Where all values are converted, nothing is wrong with the request, except perhaps the
    types of Objects. -/
theorem accepted_of_convert (hok : ∀ r ∈ cmd.reqs, ∃ v, convert r = .ok v) :
    ∀ r ∈ cmd.reqs, r.pval.writable = true ∧
      ∃ parsed v, ReadsAs sdk src r parsed ∧ ArrivesAs sdk r parsed v := by
  intro r hr
  obtain ⟨v, hv⟩ := hok r hr
  obtain ⟨hw, parsed, hread, harr⟩ := (hconv r v).mp hv
  exact ⟨hw, parsed, v, hread, harr⟩

/-- What is converted can be delivered, if Objects are objects. -/
theorem deliverable_of_convert (hbytes : ∀ r v, src r = some (.bytes v) → v.HasType r.pval.type)
    (hobj : ObjectsAreObjects sdk src dev cmd) (havail : AddressAvailable sdk dev)
    (hok : ∀ r ∈ cmd.reqs, ∃ v, convert r = .ok v) {r : CmdReq} (hr : r ∈ cmd.reqs) {v : IotData}
    (hv : convert r = .ok v) : Deliverable sdk src r v := by
  obtain ⟨hw, parsed, hread, harr⟩ := (hconv r v).mp hv
  refine ⟨hw, parsed, hread, ?_, harr⟩
  rcases hread with ⟨text, ht, hp⟩ | hb
  · by_cases hmap : r.pval.type.type = .map
    · have hjson : sdk.libs.codec.fromJson text = some parsed := by
        simpa [populateValue, hmap] using hp
      have htype := hobj havail (accepted_of_convert hconv hok) r hr hmap text parsed ht hjson
      refine ⟨htype.trans hmap.symm, fun hc => ?_⟩
      rw [hmap] at hc
      cases hc
    · exact populateValue_hasType hp hmap
  · exact hbytes r parsed hb

/-- Objects are objects where a path delivers. -/
theorem objectsAreObjects_of_delivers {trace : List Effect} {failed : Prop}
    (hcall : AddressAvailable sdk dev → (∀ r ∈ cmd.reqs, ∃ v, convert r = .ok v) →
      putCalls trace = [(cmd.reqs.map CmdReq.req, cmd.reqs.map fun r => (convert r).toOption)])
    (hd : Delivers sdk src dev cmd trace failed) : ObjectsAreObjects sdk src dev cmd := by
  intro havail hacc r hr hmap text parsed htext hjson
  have hok : ∀ r ∈ cmd.reqs, ∃ v, convert r = .ok v := by
    intro r hr
    obtain ⟨hw, parsed, v, hread, harr⟩ := hacc r hr
    exact ⟨v, (hconv r v).mpr ⟨hw, parsed, hread, harr⟩⟩
  have hne : putCalls trace ≠ [] := by
    rw [hcall havail hok]
    exact List.cons_ne_nil _ _
  obtain ⟨v, -, parsed', hread, htype, -⟩ := (hd.called_iff.mp hne).2 r hr
  rcases hread with ⟨text', ht, hp⟩ | hb
  · have heq : text' = text := by simpa [htext] using ht.symm
    subst heq
    have hsame : some parsed' = some parsed := by
      rw [← hp, ← hjson]
      simp [populateValue, hmap]
    rw [← Option.some.inj hsame]
    exact htype.1.trans hmap
  · rw [htext] at hb
    cases hb

/-- A path that converts as it should, calls the driver when all conversions succeed and
    fails otherwise, delivers exactly if Objects are objects. -/
theorem delivers_iff_of {trace : List Effect} {failed : Prop}
    (hbytes : ∀ r v, src r = some (.bytes v) → v.HasType r.pval.type)
    (hcall : AddressAvailable sdk dev → (∀ r ∈ cmd.reqs, ∃ v, convert r = .ok v) →
      putCalls trace = [(cmd.reqs.map CmdReq.req, cmd.reqs.map fun r => (convert r).toOption)])
    (hno : ¬ (AddressAvailable sdk dev ∧ ∀ r ∈ cmd.reqs, ∃ v, convert r = .ok v) →
      putCalls trace = [] ∧ failed) :
    Delivers sdk src dev cmd trace failed ↔ ObjectsAreObjects sdk src dev cmd := by
  refine ⟨objectsAreObjects_of_delivers hconv hcall, fun hobj => ?_⟩
  by_cases hall : AddressAvailable sdk dev ∧ ∀ r ∈ cmd.reqs, ∃ v, convert r = .ok v
  · obtain ⟨havail, hok⟩ := hall
    have hcalls := hcall havail hok
    refine ⟨?_, ?_, ?_, ?_⟩
    · rw [hcalls]
      exact le_rfl
    · rw [hcalls]
      refine iff_of_true (List.cons_ne_nil _ _) ⟨havail, fun r hr => ?_⟩
      obtain ⟨v, hv⟩ := hok r hr
      exact ⟨v, deliverable_of_convert hconv hbytes hobj havail hok hr hv⟩
    · intro call hc
      rw [hcalls, List.mem_singleton] at hc
      subst hc
      refine ⟨rfl, by simp [CmdInfo.nreqs], fun i r hi => ?_⟩
      have hr := List.mem_of_getElem? hi
      obtain ⟨v, hv⟩ := hok r hr
      exact ⟨v, by simp [hi, hv, Except.toOption],
        deliverable_of_convert hconv hbytes hobj havail hok hr hv⟩
    · intro hc
      rw [hcalls] at hc
      cases hc
  · obtain ⟨hnil, hfail⟩ := hno hall
    refine ⟨by simp [hnil], ?_, by simp [hnil], fun _ => hfail⟩
    refine iff_of_false (fun hc => hc hnil) fun hc => hall ⟨hc.1, fun r hr => ?_⟩
    obtain ⟨v, hv⟩ := hc.2 r hr
    exact ⟨v, convert_of_deliverable hconv hv⟩

end Delivery

@[simp] theorem putCalls_nil : putCalls [] = [] := rfl

@[simp] theorem putCalls_cons (e : Effect) (t : List Effect) :
    putCalls (e :: t) = (putCall? e).toList ++ putCalls t := by
  cases h : putCall? e with
  | none => simp [putCalls, h]
  | some call => simp [putCalls, h]

@[simp] theorem putCalls_append (t u : List Effect) :
    putCalls (t ++ u) = putCalls t ++ putCalls u := List.filterMap_append

/-- Calls to the driver are seen. -/
theorem putCalls_seen (t : List Effect) : putCalls (seen t) = putCalls t :=
  filterMap_seen (fun e he => by cases e <;> simp_all [putCall?]) t

@[simp] theorem putCalls_obtainAddress (dev : DeviceObj) :
    putCalls (obtainAddress sdk dev).trace = [] := by
  rw [← putCalls_seen, seen_obtainAddress]
  rfl

@[simp] theorem putCalls_updateLastConnected (devname : String) :
    putCalls (updateLastConnected sdk devname) = [] := by
  rw [← putCalls_seen, seen_updateLastConnected]
  rfl

@[simp] theorem putCalls_requestFailed (dev : DeviceObj) :
    putCalls (requestFailed sdk dev).trace = [] := by
  rw [← putCalls_seen, seen_requestFailed]
  split
  · split <;> rfl
  · rfl

@[simp] theorem putCalls_requestSucceeded (dev : DeviceObj) :
    putCalls (requestSucceeded sdk dev).trace = [] := by
  rw [← putCalls_seen, seen_requestSucceeded]
  split <;> rfl

theorem PutFailure.code_ne_ok (f : PutFailure) : f.code ≠ httpOk := by
  cases f <;> simp [code, httpOk, httpBadRequest, httpMethodNotAllowed]

theorem reqdataGetBinary_type {c : Codec} {rdata : ReqData} {name : String} {v : IotData}
    (h : reqdataGetBinary c rdata name = some v) : v.type = .binary := by
  unfold reqdataGetBinary at h
  split at h
  · split at h
    · obtain ⟨bs, -, rfl⟩ := Option.map_eq_some_iff.mp h
      rfl
    · cases h
  · split at h
    · obtain rfl := Option.some.inj h
      rfl
    · cases h

theorem source2_bytes {rdata : ReqData} {r : CmdReq} {v : IotData}
    (h : source2 sdk rdata r = some (.bytes v)) : v.HasType r.pval.type := by
  unfold source2 at h
  split at h
  · next hb =>
    obtain ⟨w, hw, hwv⟩ := Option.map_eq_some_iff.mp h
    obtain rfl : w = v := by simpa using hwv
    refine ⟨(reqdataGetBinary_type hw).trans hb.symm, fun hc => ?_⟩
    rw [hb] at hc
    cases hc
  · obtain ⟨t, -, ht⟩ := Option.map_eq_some_iff.mp h
    cases ht

/-- Binary values pass the checks and transformations unchanged. -/
theorem arrivesAs_binary {r : CmdReq} (hb : r.pval.type.type = .binary) (parsed v : IotData) :
    ArrivesAs sdk r parsed v ↔ v = parsed := by
  rw [ArrivesAs]
  split
  · simp [transformValidate, transformIncoming, hb, eq_comm]
  · exact Iff.rfl

theorem convert2_eq_ok_iff (rdata : ReqData) (r : CmdReq) (v : IotData) :
    convert2 sdk rdata r = .ok v ↔ r.pval.writable = true ∧
      ∃ parsed, ReadsAs sdk (source2 sdk rdata) r parsed ∧ ArrivesAs sdk r parsed v := by
  unfold convert2 ReadsAs source2
  by_cases hw : r.pval.writable = true
  · by_cases hb : r.pval.type.type = .binary
    · cases hg : reqdataGetBinary sdk.libs.codec rdata r.req.resource.name with
      | none => simp [hw, hb]
      | some w => simp [hw, hb, arrivesAs_binary sdk hb, eq_comm]
    · cases hg : reqdataGet sdk.libs.codec rdata r.req.resource.name r.dfl with
      | none => simp [hw, hb]
      | some text => simp [hw, hb, acceptText_eq_ok_iff]
  · simp [hw]

theorem convert3_eq_ok_iff (request : Option IotData) (r : CmdReq) (v : IotData) :
    convert3 sdk request r = .ok v ↔ r.pval.writable = true ∧
      ∃ parsed, ReadsAs sdk (source3 request) r parsed ∧ ArrivesAs sdk r parsed v := by
  unfold convert3 ReadsAs source3
  by_cases hw : r.pval.writable = true
  · cases hg : configStringDefault request r.req.resource.name r.dfl with
    | none => simp [hw]
    | some text => simp [hw, acceptText_eq_ok_iff]
  · simp [hw]

/-- The loop of the REST path ends without an error exactly if every turn does. -/
theorem convertAll2_ok_iff (rdata : ReqData) (reqs : List CmdReq) (reply : HttpReply) :
    (convertAll2 sdk rdata reqs reply).1.code = httpOk ↔
      reply.code = httpOk ∧ ∀ r ∈ reqs, ∃ v, convert2 sdk rdata r = .ok v := by
  induction reqs generalizing reply with
  | nil => simp [convertAll2]
  | cons r rs ih =>
    rw [convertAll2]
    cases hc : convert2 sdk rdata r with
    | ok v => simp [ih, hc]
    | error f =>
      have hf : (errorResponse f.code (f.message r.req.resource.name)).code ≠ httpOk :=
        f.code_ne_ok
      have hbad : ¬ ∀ r' ∈ r :: rs, ∃ v, convert2 sdk rdata r' = .ok v := by
        intro h
        obtain ⟨v, hv⟩ := h r List.mem_cons_self
        rw [hc] at hv
        cases hv
      dsimp only
      split
      · rw [ih]
        exact iff_of_false (fun h => hf h.1) (fun h => hbad h.2)
      · exact iff_of_false hf (fun h => hbad h.2)

theorem convertAll2_values {rdata : ReqData} {reqs : List CmdReq} (reply : HttpReply)
    (h : ∀ r ∈ reqs, ∃ v, convert2 sdk rdata r = .ok v) :
    (convertAll2 sdk rdata reqs reply).2 = reqs.map fun r => (convert2 sdk rdata r).toOption := by
  induction reqs generalizing reply with
  | nil => rfl
  | cons r rs ih =>
    obtain ⟨v, hv⟩ := h r List.mem_cons_self
    have hrs := ih reply fun r hr => h r (List.mem_cons_of_mem _ hr)
    rw [convertAll2]
    simp [hv, hrs, Except.toOption]

/-- The loop of the bus path ends without an error exactly if every turn does. -/
theorem convertAll3_none_iff (request : Option IotData) (reqs : List CmdReq) :
    (convertAll3 sdk request reqs).1 = none ↔
      ∀ r ∈ reqs, ∃ v, convert3 sdk request r = .ok v := by
  induction reqs with
  | nil => simp [convertAll3]
  | cons r rs ih =>
    rw [convertAll3]
    cases hc : convert3 sdk request r with
    | ok v => simp [ih, hc]
    | error f => simp [hc]

theorem convertAll3_values {request : Option IotData} {reqs : List CmdReq}
    (h : ∀ r ∈ reqs, ∃ v, convert3 sdk request r = .ok v) :
    (convertAll3 sdk request reqs).2 =
      reqs.map fun r => (convert3 sdk request r).toOption := by
  induction reqs with
  | nil => rfl
  | cons r rs ih =>
    obtain ⟨v, hv⟩ := h r List.mem_cons_self
    have hrs := ih fun r hr => h r (List.mem_cons_of_mem _ hr)
    rw [convertAll3]
    simp [hv, hrs, Except.toOption]

theorem runput2_delivers_iff (dev : DeviceObj) (cmd : CmdInfo) (params : Option IotData)
    (rdata : ReqData) :
    Delivers sdk (source2 sdk rdata) dev cmd (runput2 sdk dev cmd params rdata).trace
        ((runput2 sdk dev cmd params rdata).val.code ≠ httpOk) ↔
      ObjectsAreObjects sdk (source2 sdk rdata) dev cmd := by
  have hloop := convertAll2_ok_iff sdk rdata cmd.reqs {}
  refine delivers_iff_of (convert2_eq_ok_iff sdk rdata) (fun r v => source2_bytes sdk) ?_ ?_
  · intro havail hok
    obtain ⟨address, ha⟩ := Option.isSome_iff_exists.mp havail
    have hcode := hloop.mpr ⟨rfl, hok⟩
    rw [runput2]
    simp only [hcode, if_true, ha, convertAll2_values sdk {} hok]
    split <;> simp [putCall?]
  · intro hno
    rw [runput2]
    by_cases hcode : (convertAll2 sdk rdata cmd.reqs {}).1.code = httpOk
    · have hnone : (obtainAddress sdk dev).val.1 = none := by
        rw [← Option.not_isSome_iff_eq_none]
        exact fun h => hno ⟨h, (hloop.mp hcode).2⟩
      simp [hcode, hnone, putCall?, errorResponse, httpInternalServerError, httpOk]
    · simp [hcode, putCall?]

theorem runput3_delivers_iff (dev : DeviceObj) (cmd : CmdInfo) (request params : Option IotData) :
    Delivers sdk (source3 request) dev cmd (runput3 sdk dev cmd request params).trace
        ((runput3 sdk dev cmd request params).val.1 ≠ 0) ↔
      ObjectsAreObjects sdk (source3 request) dev cmd := by
  have hloop := convertAll3_none_iff sdk request cmd.reqs
  refine delivers_iff_of (convert3_eq_ok_iff sdk request) ?_ ?_ ?_
  · intro r v hv
    obtain ⟨t, -, ht⟩ := Option.map_eq_some_iff.mp hv
    cases ht
  · intro havail hok
    obtain ⟨address, ha⟩ := Option.isSome_iff_exists.mp havail
    have hnone := hloop.mpr hok
    rw [runput3]
    simp only [hnone, ha, convertAll3_values sdk hok]
    split <;> simp [putCall?]
  · intro hno
    unfold runput3
    cases hf : (convertAll3 sdk request cmd.reqs).1 with
    | some f =>
      have hcode : f.code ≠ 0 := by
        cases f <;> simp [PutFailure.code, httpBadRequest, httpMethodNotAllowed]
      simpa [hf, putCall?] using hcode
    | none =>
      have hnone : (obtainAddress sdk dev).val.1 = none := by
        rw [← Option.not_isSome_iff_eq_none]
        exact fun h => hno ⟨h, hloop.mp hf⟩
      simp [hf, hnone, putCall?, httpInternalServerError]

/-- On both paths the driver is called as it should be, exactly if no text for a resource
    of type Object gets through that is not a JSON object. -/
theorem runput_delivers_iff (dev : DeviceObj) (cmd : CmdInfo) (params : Option IotData) :
    (∀ rdata, Delivers sdk (source2 sdk rdata) dev cmd (runput2 sdk dev cmd params rdata).trace
        ((runput2 sdk dev cmd params rdata).val.code ≠ httpOk) ↔
      ObjectsAreObjects sdk (source2 sdk rdata) dev cmd) ∧
    (∀ request, Delivers sdk (source3 request) dev cmd
        (runput3 sdk dev cmd request params).trace
        ((runput3 sdk dev cmd request params).val.1 ≠ 0) ↔
      ObjectsAreObjects sdk (source3 request) dev cmd) :=
  ⟨fun rdata => runput2_delivers_iff sdk dev cmd params rdata,
    fun request => runput3_delivers_iff sdk dev cmd request params⟩

/-- Libraries that know one JSON document, and no floating point arithmetic. -/
def sampleLibs : Libs where
  codec :=
    { fromJson := fun s => if s = "5" then some (.int .int64 5) else none
      toJson := fun _ => ""
      fromBase64 := fun _ => none
      toBase64 := fun _ => ""
      fromString := fun t s => match t with
        | .string => some ⟨.string s, Eq.refl DataType.string⟩
        | _ => none
      cast := fun _ _ => none
      toFloat64 := fun _ => none
      cborSize := fun _ => 0
      serialize := fun
        | .bool true => "true"
        | .bool false => "false"
        | _ => "null"
      number := .inr }
  float :=
    { ofBits := fun _ => .nan
      ofInt := fun _ => .nan
      toInt := fun _ => 0
      add := fun x _ => x
      sub := fun x _ => x
      mul := fun x _ => x
      div := fun x _ => x
      pow := fun x _ => x
      log := id
      llround := fun _ => 0
      f32 := id
      f64 := id }

/-- A driver that accepts every request, and answers with the text `on`. -/
def sampleDriver : Driver where
  createRes := fun _ => (some 1, none)
  createAddr := fun _ => (some 1, none)
  gethandler := fun _ _ _ => .ok (fun _ => { value := .string "on" }, none)
  puthandler := fun _ _ _ _ => .ok ()

/-- A service of this driver. -/
def sampleSdk : Sdk where
  libs := sampleLibs
  driver := sampleDriver
  stamp := { timenow := 1, genuuid := fun _ => "id" }

/-- A device of this service. -/
def sampleDevice : DeviceObj := { dev := { name := "lamp", profile := 0 } }

/-- A command that sets a resource of the given type. -/
def setCommand (type : TypeCode) : CmdInfo where
  name := "settings"
  profile := "lamp"
  isget := false
  reqs :=
    [{ req := { resource := { name := "settings", attrs := some 1, tags := none, type }, mask := none }
       pval := { type }
       map := none
       dfl := none }]

/-- A resource of type Object is set to the text `5`, and the driver gets a number. -/
theorem runput2_object_gets_number :
    ¬ Delivers sampleSdk (source2 sampleSdk (.json [("settings", .string "5")])) sampleDevice
      (setCommand ⟨.map, .multi, .string⟩)
      (runput2 sampleSdk sampleDevice (setCommand ⟨.map, .multi, .string⟩) none
        (.json [("settings", .string "5")])).trace
      ((runput2 sampleSdk sampleDevice (setCommand ⟨.map, .multi, .string⟩) none
        (.json [("settings", .string "5")])).val.code ≠ httpOk) := by
  intro h
  obtain ⟨v, -, parsed, hread, htype, -⟩ :=
    (h.called_iff.mp (by decide)).2 _ List.mem_cons_self
  rcases hread with ⟨text, htext, hp⟩ | hb
  · obtain rfl : "5" = text := by simpa [source2, setCommand, reqdataGet] using htext
    obtain rfl : IotData.int .int64 5 = parsed := by
      simpa [populateValue, setCommand, sampleSdk, sampleLibs] using hp
    cases htype.1
  · simp [source2] at hb

end DeviceSdk
