import DeviceSdk.Bus.Topics

/-!
# Message envelopes

`edgex_bus_post` wraps a payload in an envelope, a transport turns the envelope into bytes,
and `edgex_bus_handle_request` takes it apart again for the handler of the topic. Both sides
decide from the flags of their bus, and the receiver also from the content type, whether the
payload is embedded as a map or is base64 text.

## Main definitions

- `Wire` — JSON, CBOR and base64, as bytes and text
- `BusFlags`, `busPost`, `mqttPost` — the sender and its transport
- `handleRequest` — the receiver
- `Wire.Lossless` — the codecs give back what is sent

## Main results

- `envelope_delivered_iff` — the flags under which the handler gets the payload
-/

namespace DeviceSdk

open IotData (stringMapGet stringMapGetString mapAdd)

/-- The codecs of the IoT utilities library. -/
structure Wire where
  /-- `iot_data_to_json`, without the terminator. -/
  toJson : IotData → List UInt8
  /-- `iot_data_from_json`, of a text without its terminator. -/
  fromJson : List UInt8 → Option IotData
  /-- `iot_data_to_cbor`. -/
  toCbor : IotData → Option (List UInt8)
  /-- `iot_data_from_cbor`. -/
  fromCbor : List UInt8 → Option IotData
  /-- `iot_b64_encode`. -/
  toBase64 : List UInt8 → String
  /-- `iot_b64_decode`. -/
  fromBase64 : String → List UInt8

namespace Wire

variable (w : Wire)

/-- Data as bytes, in one of the two formats. -/
def encode (cbor : Bool) (d : IotData) : List UInt8 :=
  if cbor then (w.toCbor d).getD [] else w.toJson d

/-- Data from bytes. A JSON text ends at its first null character. -/
def decode (cbor : Bool) (bytes : List UInt8) : Option IotData :=
  if cbor then w.fromCbor bytes else w.fromJson (bytes.takeWhile fun b => decide (b ≠ 0))

/-- `edgex_data_to_b64`. -/
def dataToB64 (src : IotData) (useCbor : Bool) : String := w.toBase64 (w.encode useCbor src)

end Wire

/-- The flags of a bus that its environment sets. -/
structure BusFlags where
  cbor : Bool
  msgb64payload : Bool

/-- The content type that goes with a payload. -/
def contentType (cbor : Bool) : IotData :=
  .string (if cbor then "application/cbor" else "application/json")

/-- The payload of an envelope: base64 text in a JSON envelope that asks for it, else the data. -/
def envelopePayload (w : Wire) (flags : BusFlags) (payload : IotData) (eventIsCbor : Bool) :
    IotData :=
  if !flags.cbor && (flags.msgb64payload || eventIsCbor) then
    .string (w.dataToB64 payload eventIsCbor)
  else payload

/-- The envelope of `edgex_bus_post`, under the correlation id of the thread. -/
def postEnvelope (w : Wire) (flags : BusFlags) (crlid : Option String) (payload : IotData)
    (eventIsCbor : Bool) : IotData :=
  let envelope :=
    match crlid with
    | some id => mapAdd "correlationID" (.string id) []
    | none => []
  let envelope := mapAdd "apiVersion" (.string "v3") envelope
  let envelope := mapAdd "errorCode" (.int .uint32 0) envelope
  let envelope := mapAdd "contentType" (contentType (eventIsCbor || flags.cbor)) envelope
  .map (mapAdd "payload" (envelopePayload w flags payload eventIsCbor) envelope)

/-- A call of the post function of a bus. -/
structure Post where
  topic : CStr
  envelope : IotData
  useCbor : Bool

/-- `edgex_bus_post`. -/
def busPost (w : Wire) (flags : BusFlags) (crlid : Option String) (path : CStr)
    (payload : IotData) (eventIsCbor : Bool) : Post :=
  { topic := path, envelope := postEnvelope w flags crlid payload eventIsCbor
    useCbor := flags.cbor }

/-- `edgex_bus_mqtt_post`: the bytes of the message. -/
def mqttPost (w : Wire) (post : Post) : List UInt8 := w.encode post.useCbor post.envelope

/-- What a handler is called with, and the correlation id of the thread it runs in. -/
structure HandlerCall where
  request : Option IotData
  pathparams : List (String × IotData)
  queryParams : Option IotData
  crlid : Option String

/-- What a handler returns. -/
structure HandlerReply where
  status : BitVec 32
  reply : Option IotData
  eventIsCbor : Bool := false

/-- `edgex_handler_fn`, with its context. -/
abbrev BusHandler := HandlerCall → HandlerReply

/-- `edgex_bus_t`. -/
structure Bus where
  flags : BusFlags
  busPrefix : CStr
  svcname : CStr
  handlers : List (Endpoint BusHandler)

/-- The request in an envelope with the content type `ctype`. -/
def envelopeRequest (w : Wire) (flags : BusFlags) (envdata : IotData) (ctype : String) :
    Option IotData :=
  let payloadIsCbor := decide (ctype = "application/cbor")
  if flags.msgb64payload || (!flags.cbor && payloadIsCbor) then
    match stringMapGetString (some envdata) "payload" with
    | some payload => w.decode payloadIsCbor (w.fromBase64 payload)
    | none => none
  else
    match stringMapGet (some envdata) "payload" with
    | some (.map entries) => some (.map entries)
    | _ => none

/-- The reply of a handler, posted under the id of the request. -/
def replyPost (w : Wire) (bus : Bus) (envdata : IotData) (r : HandlerReply) : List Post :=
  match r.reply with
  | none => []
  | some reply =>
    let renv := mapAdd "errorCode" (.int .int32 r.status) []
    let renv := mapAdd "contentType" (contentType (bus.flags.cbor || r.eventIsCbor)) renv
    let renv := mapAdd "payload" (envelopePayload w bus.flags reply r.eventIsCbor) renv
    let renv :=
      match stringMapGet (some envdata) "correlationID" with
      | some crl => mapAdd "correlationID" crl renv
      | none => renv
    let renv := mapAdd "apiVersion" (.string "v3") renv
    let id :=
      match stringMapGet (some envdata) "requestID" with
      | some id => some id
      | none => stringMapGet (some envdata) "requestId"
    match id with
    | some (.string idstr) =>
      [{ topic := mktopic bus.busPrefix bus.svcname "response".toList idstr.toList
         envelope := .map renv, useCbor := bus.flags.cbor }]
    | _ => []

/-- What a message leads to: the call of a handler, and what is posted in reply. -/
structure Handling where
  call : Option HandlerCall := none
  posts : List Post := []

/-- `edgex_bus_handle_request`, in a thread whose correlation id is `localid`. An envelope that
    does not decode, or has no content type, is not survived. -/
def handleRequest (w : Wire) (bus : Bus) (localid : Option String) (path : CStr)
    (message : List UInt8) : Handling :=
  match matchHandler bus.handlers path with
  | none => {}
  | some (h, pathparams) =>
    match w.decode bus.flags.cbor message with
    | none => {}
    | some envdata =>
      match stringMapGetString (some envdata) "contentType" with
      | none => {}
      | some ctype =>
        let call : HandlerCall :=
          { request := envelopeRequest w bus.flags envdata ctype
            pathparams
            queryParams := stringMapGet (some envdata) "queryParams"
            crlid := (stringMapGetString (some envdata) "correlationID").or localid }
        { call := some call, posts := replyPost w bus envdata (h call) }

-- ════════════════════════════════════════════════════════════════════════
-- The round trip
-- ════════════════════════════════════════════════════════════════════════

/-- What comes back of a map that was encoded: the texts and the maps in it under their keys, and
    nothing under other keys. Numbers may come back in another width. -/
structure Wire.Returns (got : Option IotData) (sent back : IotData) : Prop where
  decoded : got = some back
  text : ∀ key s, stringMapGet (some sent) key = some (.string s) →
    stringMapGet (some back) key = some (.string s)
  submap : ∀ key es, stringMapGet (some sent) key = some (.map es) →
    stringMapGet (some back) key = some (.map es)
  absent : ∀ key, stringMapGet (some sent) key = none → stringMapGet (some back) key = none

/-- The codecs give back what one message sends through them: the payload, its base64 text, and
    the envelope around it. -/
structure Wire.Lossless (w : Wire) (flags : BusFlags) (crlid : Option String) (payload : IotData)
    (eventIsCbor : Bool) : Prop where
  content : w.decode eventIsCbor (w.encode eventIsCbor payload) = some payload
  base64 : w.fromBase64 (w.toBase64 (w.encode eventIsCbor payload)) = w.encode eventIsCbor payload
  envelope : ∃ back, Wire.Returns
    (w.decode flags.cbor (w.encode flags.cbor (postEnvelope w flags crlid payload eventIsCbor)))
    (postEnvelope w flags crlid payload eventIsCbor) back

section

variable (w : Wire) (flags : BusFlags) (crlid : Option String) (payload : IotData)
  (eventIsCbor : Bool)

theorem postEnvelope_payload :
    stringMapGet (some (postEnvelope w flags crlid payload eventIsCbor)) "payload" =
      some (envelopePayload w flags payload eventIsCbor) := by
  simp [postEnvelope, stringMapGet, IotData.lookup_mapAdd]

theorem postEnvelope_contentType :
    stringMapGet (some (postEnvelope w flags crlid payload eventIsCbor)) "contentType" =
      some (contentType (eventIsCbor || flags.cbor)) := by
  simp [postEnvelope, stringMapGet, IotData.lookup_mapAdd]

theorem postEnvelope_correlationID :
    stringMapGet (some (postEnvelope w flags crlid payload eventIsCbor)) "correlationID" =
      crlid.map IotData.string := by
  cases crlid <;> simp [postEnvelope, stringMapGet, IotData.lookup_mapAdd]

end

/-- The correlation id of an envelope that came back is the sender's. -/
theorem Wire.Returns.correlationID {w : Wire} {flags : BusFlags} {crlid : Option String}
    {payload : IotData} {eventIsCbor : Bool} {got : Option IotData} {back : IotData}
    (h : Wire.Returns got (postEnvelope w flags crlid payload eventIsCbor) back) :
    stringMapGetString (some back) "correlationID" = crlid := by
  have hsent := postEnvelope_correlationID w flags crlid payload eventIsCbor
  cases crlid with
  | some id => simp [stringMapGetString, h.text _ id hsent]
  | none => simp [stringMapGetString, h.absent _ hsent]

/-- The request in an envelope that came back: the payload, unless both flags are set. -/
theorem envelopeRequest_of_returns {w : Wire} {flags : BusFlags} {crlid : Option String}
    {entries : List (String × IotData)} {eventIsCbor : Bool}
    (hl : w.Lossless flags crlid (.map entries) eventIsCbor) {got : Option IotData} {back : IotData}
    (h : Wire.Returns got (postEnvelope w flags crlid (.map entries) eventIsCbor) back) :
    envelopeRequest w flags back
        (if eventIsCbor || flags.cbor then "application/cbor" else "application/json") =
      if flags.cbor && flags.msgb64payload then none else some (.map entries) := by
  have hsent := postEnvelope_payload w flags crlid (.map entries) eventIsCbor
  have hpay := hl.content
  have hb64 := hl.base64
  obtain ⟨cbor, msgb64payload⟩ := flags
  cases cbor with
  | true =>
    have hback := h.submap "payload" entries hsent
    cases msgb64payload <;> simp [envelopeRequest, stringMapGetString, hback]
  | false =>
    by_cases htext : (msgb64payload || eventIsCbor) = true
    · -- The payload is base64 text, in the format that the content type tells.
      have hback := h.text "payload" (w.dataToB64 (.map entries) eventIsCbor) (by
        rw [hsent, envelopePayload, if_pos (by simpa using htext)])
      cases eventIsCbor with
      | true => simp [envelopeRequest, stringMapGetString, hback, Wire.dataToB64, hb64, hpay]
      | false =>
        obtain rfl : msgb64payload = true := by simpa using htext
        simp [envelopeRequest, stringMapGetString, hback, Wire.dataToB64, hb64, hpay]
    · obtain ⟨rfl, rfl⟩ : msgb64payload = false ∧ eventIsCbor = false := by simpa using htext
      have hback := h.submap "payload" entries hsent
      simp [envelopeRequest, hback]

/-- The handler of a topic is called with the payload of a message, and under the correlation id
    of its sender where that has one. -/
def Delivered (w : Wire) (bus : Bus) (crlid localid : Option String) (path : CStr)
    (payload : IotData) (eventIsCbor : Bool) : Prop :=
  ∃ call, (handleRequest w bus localid path
      (mqttPost w (busPost w bus.flags crlid path payload eventIsCbor))).call = some call ∧
    call.request = some payload ∧ call.crlid = crlid.or localid

/-- With the same flags on both sides, the handler of the topic gets a map payload and the
    correlation id exactly when not both flags are set. -/
theorem envelope_delivered_iff (w : Wire) (bus : Bus) (crlid localid : Option String)
    (path : CStr) (entries : List (String × IotData)) (eventIsCbor : Bool)
    (hh : matchHandler bus.handlers path ≠ none)
    (hl : w.Lossless bus.flags crlid (.map entries) eventIsCbor) :
    Delivered w bus crlid localid path (.map entries) eventIsCbor ↔
      ¬ (bus.flags.cbor = true ∧ bus.flags.msgb64payload = true) := by
  obtain ⟨⟨h, pathparams⟩, hmatch⟩ := Option.ne_none_iff_exists'.mp hh
  obtain ⟨back, hback⟩ := hl.envelope
  have hctype : stringMapGetString (some back) "contentType" =
      some (if eventIsCbor || bus.flags.cbor then "application/cbor" else "application/json") := by
    have hsent := postEnvelope_contentType w bus.flags crlid (.map entries) eventIsCbor
    rw [stringMapGetString, hback.text _ _ hsent]
  have hcall : (handleRequest w bus localid path
      (mqttPost w (busPost w bus.flags crlid path (.map entries) eventIsCbor))).call =
      some { request :=
               if bus.flags.cbor && bus.flags.msgb64payload then none else some (.map entries)
             pathparams
             queryParams := stringMapGet (some back) "queryParams"
             crlid := crlid.or localid } := by
    rw [handleRequest, hmatch]
    simp only [mqttPost, busPost, hback.decoded, hctype, envelopeRequest_of_returns hl hback,
      hback.correlationID]
  rw [Delivered, hcall]
  cases hc : bus.flags.cbor <;> cases hm : bus.flags.msgb64payload <;> simp

/-- CBOR of a short text. -/
def smallCborText (s : String) : List UInt8 :=
  (if s.length < 24 then [UInt8.ofNat (0x60 + s.length)] else [0x78, UInt8.ofNat s.length]) ++
    s.toList.map fun c => UInt8.ofNat c.toNat

mutual

/-- CBOR of short texts, small numbers and small maps. -/
def smallCbor : IotData → List UInt8
  | .string s => smallCborText s
  | .int _ x => [UInt8.ofNat x.toNat]
  | .map entries => UInt8.ofNat (0xa0 + entries.length) :: smallCborEntries entries
  | _ => [0xf6]

def smallCborEntries : List (String × IotData) → List UInt8
  | [] => []
  | (k, v) :: es => smallCborText k ++ smallCbor v ++ smallCborEntries es

end

/-- A payload, and the envelope of a message with it on a CBOR bus. -/
def samplePayload : IotData := .map [("Temperature", .string "21")]

def sampleEnvelope : IotData :=
  .map [("apiVersion", .string "v3"), ("contentType", .string "application/cbor"),
    ("correlationID", .string "c-1"), ("errorCode", .int .uint32 0), ("payload", samplePayload)]

/-- Codecs that know the two, and the base64 text of the first. -/
def sampleWire : Wire where
  toJson _ := []
  fromJson _ := none
  toCbor d := some (smallCbor d)
  fromCbor bytes :=
    if bytes = smallCbor samplePayload then some samplePayload
    else if bytes = smallCbor sampleEnvelope then some sampleEnvelope
    else none
  toBase64 bytes := if bytes = smallCbor samplePayload then "oWtUZW1wZXJhdHVyZWIyMQ==" else ""
  fromBase64 text := if text = "oWtUZW1wZXJhdHVyZWIyMQ==" then smallCbor samplePayload else []

theorem postEnvelope_sample (msgb64payload : Bool) :
    postEnvelope sampleWire { cbor := true, msgb64payload } (some "c-1") samplePayload true =
      sampleEnvelope := by
  cases msgb64payload <;> decide

theorem sampleWire_lossless (msgb64payload : Bool) :
    sampleWire.Lossless { cbor := true, msgb64payload } (some "c-1") samplePayload true where
  content := by decide
  base64 := by decide
  envelope := by
    refine ⟨sampleEnvelope, ?_⟩
    rw [postEnvelope_sample]
    have hback : sampleWire.decode true (sampleWire.encode true sampleEnvelope) =
        some sampleEnvelope := by decide
    exact ⟨hback, fun _ _ h => h, fun _ _ h => h, fun _ h => h⟩

/-- A bus with one handler, which has nothing to reply. -/
def sampleBus (msgb64payload : Bool) : Bus where
  flags := { cbor := true, msgb64payload }
  busPrefix := "edgex".toList
  svcname := "svc".toList
  handlers := registerAll [(deviceSubtree, fun _ => { status := 0, reply := none })]

/-- A message on a CBOR bus that does not ask for base64 text. -/
theorem envelope_delivered_cbor :
    Delivered sampleWire (sampleBus false) (some "c-1") none "kc/device/a".toList samplePayload
      true := by
  have hh : matchHandler (sampleBus false).handlers "kc/device/a".toList ≠ none := by
    intro h
    cases h
  have hl := sampleWire_lossless false
  exact (envelope_delivered_iff sampleWire (sampleBus false) (some "c-1") none _ _ true hh hl).mpr
    fun h => Bool.noConfusion h.2

/-- On a CBOR bus that asks for base64 text the handler does not get the payload. -/
theorem cbor_base64_undelivered :
    ¬ ∀ (w : Wire) (bus : Bus) (crlid localid : Option String) (path : CStr)
      (entries : List (String × IotData)) (eventIsCbor : Bool),
      matchHandler bus.handlers path ≠ none →
      w.Lossless bus.flags crlid (.map entries) eventIsCbor →
      Delivered w bus crlid localid path (.map entries) eventIsCbor := by
  intro h
  have hh : matchHandler (sampleBus true).handlers "kc/device/a".toList ≠ none := by
    intro habs
    cases habs
  obtain ⟨call, hcall, hreq, -⟩ := h sampleWire (sampleBus true) (some "c-1") none
    "kc/device/a".toList [("Temperature", .string "21")] true hh (sampleWire_lossless true)
  have hbytes : mqttPost sampleWire (busPost sampleWire (sampleBus true).flags (some "c-1")
      "kc/device/a".toList samplePayload true) = smallCbor sampleEnvelope := by decide
  rw [show IotData.map [("Temperature", .string "21")] = samplePayload from rfl, hbytes] at hcall
  obtain rfl := Option.some.inj hcall
  revert hreq
  decide

end DeviceSdk
