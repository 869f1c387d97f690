import DeviceSdk.Dto.Document
import DeviceSdk.Watch.Discovered

/-!
# The two readers of devices

`device_read` of `edgex-rest.c` reads the devices that core-metadata lists at start-up, over
parson; `edgex_device_read` of `dto-read.c` reads those of the callbacks, over the IoT utilities
library. Both are given the same kind of document.

## Main definitions

- `deviceRead`, `edgexDeviceRead` — the readers
- `SameDevice` — devices that agree, up to the order of protocols and autoevents
- `ReadAlike` — the documents on which the readers agree

## Main results

- `autoevents_perm_iff` — the autoevents agree where no threshold is a negative integer
- `deviceRead_agree_iff`
-/

namespace DeviceSdk

open IotData (stringMapGet stringMapGetString stringMapGetBool)

section Parson

variable (lib : JsonNumbers) (obj : List (String × JsonDoc)) (name : String)

/-- `json_object_get_string`. -/
def jsonObjectGetString : Option String :=
  match obj.lookup name with
  | some (.string s) => some s
  | _ => none

/-- `get_string` of `edgex-rest.c`. -/
def jsonGetString : String := (jsonObjectGetString obj name).getD ""

/-- `get_boolean`. -/
def getBoolean (dflt : Bool) : Bool :=
  match obj.lookup name with
  | some (.bool b) => b
  | _ => dflt

/-- `json_object_get_number`. -/
def jsonObjectGetNumber : ℚ :=
  match obj.lookup name with
  | some (.number lit) => (parseNumber lib lit).double
  | _ => 0

/-- `json_object_get_array`, whose elements are counted even where it is absent. -/
def jsonObjectGetArray : List JsonDoc :=
  match obj.lookup name with
  | some (.array xs) => xs
  | _ => []

end Parson

/-- The members of an object, and none of anything else. -/
def JsonDoc.members : JsonDoc → List (String × JsonDoc)
  | .object ms => ms
  | _ => []

/-- `array_to_strings`. -/
def arrayToStrings (xs : List JsonDoc) : List String :=
  xs.map fun x =>
    match x with
    | .string s => s
    | _ => ""

variable (lib : JsonNumbers)

/-- `string_map_read`. -/
def stringMapRead : Option JsonDoc → IotData
  | some val => (val.reserialize lib).toIot lib
  | none => .map []

/-- `protocols_read`. -/
def protocolsRead (obj : List (String × JsonDoc)) : List Protocol :=
  obj.foldl (fun result m => ⟨m.1, stringMapRead lib (some m.2)⟩ :: result) []

/-- `autoevent_read`. -/
def jsonAutoeventRead (obj : List (String × JsonDoc)) : AutoEvent where
  resource := jsonGetString obj "sourceName"
  onChange := getBoolean obj "onChange" false
  onChangeThreshold := jsonObjectGetNumber lib obj "onChangeThreshold"
  interval := jsonGetString obj "interval"

/-- `edgex_adminstate_fromstring`. -/
def adminstateFromstring (str : Option String) : AdminState :=
  if str = some "LOCKED" then .locked else .unlocked

/-- `edgex_operatingstate_fromstring`. -/
def operatingstateFromstring (str : Option String) : OperatingState :=
  if str = some "DOWN" then .down else .up

/-- `device_read`. -/
def deviceRead (obj : List (String × JsonDoc)) : Device DeviceProfile where
  name := jsonGetString obj "name"
  parent :=
    if jsonGetString obj "parent" = "" then none else some (jsonGetString obj "parent")
  profile := .placeholder (jsonGetString obj "profileName")
  servicename := jsonGetString obj "serviceName"
  protocols :=
    protocolsRead lib ((obj.lookup "protocols").elim [] JsonDoc.members)
  adminState := adminstateFromstring (jsonObjectGetString obj "adminState")
  description := jsonGetString obj "description"
  labels := arrayToStrings (jsonObjectGetArray obj "labels")
  operatingState := operatingstateFromstring (jsonObjectGetString obj "operatingState")
  tags := some (stringMapRead lib (obj.lookup "tags"))
  autos := (jsonObjectGetArray obj "autoEvents").foldl
    (fun result ae => jsonAutoeventRead lib ae.members :: result) []

/-- `edgex_operatingstate_read`. -/
def operatingstateRead : Option IotData → OperatingState
  | some (.string c) => if c = "DOWN" then .down else .up
  | _ => .up

/-- `edgex_protocols_read`. -/
def edgexProtocolsRead : Option IotData → List Protocol
  | some (.map entries) => entries.foldl (fun result e => ⟨e.1, e.2⟩ :: result) []
  | _ => []

/-- `edgex_labels_read`, which goes through the vector from its end and takes strings only. -/
def labelsRead (obj : Option IotData) : List String :=
  match stringMapGet obj "labels" with
  | some (.vector ldata) =>
    ldata.map fun l =>
      match l with
      | .string s => s
      | _ => ""
  | _ => []

/-- `edgex_device_read`. -/
def edgexDeviceRead (number : IotData → Option ℚ) (obj : Option IotData) :
    Device DeviceProfile where
  name := getString obj "name"
  profile := .placeholder (getString obj "profileName")
  servicename := getString obj "serviceName"
  protocols := edgexProtocolsRead (stringMapGet obj "protocols")
  adminState := adminstateRead (stringMapGet obj "adminState")
  description := getString obj "description"
  operatingState := operatingstateRead (stringMapGet obj "operatingState")
  autos := autoeventsRead number obj
  labels := labelsRead obj
  tags := stringMapGet obj "tags"

-- ════════════════════════════════════════════════════════════════════════
-- Members in both libraries
-- ════════════════════════════════════════════════════════════════════════

theorem distinct_of_mem_list {xs : List JsonDoc} (h : JsonDoc.DistinctList xs) {x : JsonDoc}
    (hx : x ∈ xs) : x.Distinct := by
  induction xs with
  | nil => cases hx
  | cons y ys ih =>
    rw [JsonDoc.DistinctList] at h
    cases List.mem_cons.mp hx with
    | inl he => exact he ▸ h.1
    | inr hy => exact ih h.2 hy

theorem distinct_of_mem_members {ms : List (String × JsonDoc)} (h : JsonDoc.DistinctMembers ms)
    {m : String × JsonDoc} (hm : m ∈ ms) : m.2.Distinct := by
  induction ms with
  | nil => cases hm
  | cons n ns ih =>
    rw [JsonDoc.DistinctMembers] at h
    cases List.mem_cons.mp hm with
    | inl he => exact he ▸ h.1
    | inr hn => exact ih h.2 hn

theorem distinct_of_lookup {d e : JsonDoc} {name : String} (h : d.Distinct)
    (he : d.members.lookup name = some e) : e.Distinct := by
  cases d with
  | object ms =>
    rw [JsonDoc.Distinct] at h
    exact distinct_of_mem_members h.2 ((List.lookup_eq_some_iff_mem h.1).mp he)
  | _ => cases he

section Members

variable {d : JsonDoc} (h : d.Distinct) (name : String)

include h

/-- A member of a document, in the data that it decodes to. -/
theorem stringMapGet_toIot :
    stringMapGet (some (d.toIot lib)) name = (d.members.lookup name).map (JsonDoc.toIot lib) := by
  cases d with
  | object ms =>
    rw [JsonDoc.Distinct] at h
    have hkeys : ((JsonDoc.toIotMembers lib ms).map Prod.fst).Nodup := by
      rw [JsonDoc.keys_toIotMembers]
      exact h.1
    rw [JsonDoc.toIot, JsonDoc.members, stringMapGet, lookup_mapOf hkeys,
      JsonDoc.lookup_toIotMembers]
  | number lit =>
    rw [JsonDoc.toIot]
    rcases (lib.fromJson lit).2.cases with ⟨t, bits, he⟩ | ⟨x, he⟩ <;> rw [he] <;> rfl
  | _ => rfl

theorem stringMapGetString_toIot :
    stringMapGetString (some (d.toIot lib)) name = jsonObjectGetString d.members name := by
  rw [stringMapGetString, stringMapGet_toIot lib h, jsonObjectGetString]
  cases d.members.lookup name with
  | none => rfl
  | some e =>
    cases e with
    | number lit =>
      rw [Option.map_some, JsonDoc.toIot]
      rcases (lib.fromJson lit).2.cases with ⟨t, bits, he⟩ | ⟨x, he⟩ <;> rw [he]
    | _ => rfl

theorem getString_toIot :
    getString (some (d.toIot lib)) name = jsonGetString d.members name := by
  rw [getString, stringMapGetString_toIot lib h, jsonGetString]

theorem stringMapGetBool_toIot (dflt : Bool) :
    stringMapGetBool (some (d.toIot lib)) name dflt = getBoolean d.members name dflt := by
  rw [stringMapGetBool, stringMapGet_toIot lib h, getBoolean]
  cases d.members.lookup name with
  | none => rfl
  | some e =>
    cases e with
    | number lit =>
      rw [Option.map_some, JsonDoc.toIot]
      rcases (lib.fromJson lit).2.cases with ⟨t, bits, he⟩ | ⟨x, he⟩ <;> rw [he]
    | _ => rfl

end Members

theorem adminstateRead_stringMapGet (obj : Option IotData) (name : String) :
    adminstateRead (stringMapGet obj name) =
      adminstateFromstring (stringMapGetString obj name) := by
  rw [stringMapGetString]
  cases stringMapGet obj name with
  | none => rfl
  | some d => cases d <;> simp [adminstateRead, adminstateFromstring]

theorem operatingstateRead_stringMapGet (obj : Option IotData) (name : String) :
    operatingstateRead (stringMapGet obj name) =
      operatingstateFromstring (stringMapGetString obj name) := by
  rw [stringMapGetString]
  cases stringMapGet obj name with
  | none => rfl
  | some d => cases d <;> simp [operatingstateRead, operatingstateFromstring]

/-- The protocols of an object, in both readers. -/
theorem protocols_perm_iff {ms : List (String × JsonDoc)}
    (h : (ms.map Prod.fst).Nodup ∧ JsonDoc.DistinctMembers ms) :
    (ms.map fun m => Protocol.mk m.1 (stringMapRead lib (some m.2))).Perm
        ((mapOf (JsonDoc.toIotMembers lib ms)).map fun e => Protocol.mk e.1 e.2) ↔
      ∀ m ∈ ms, m.2.NumbersKept lib := by
  have hkeys : ((JsonDoc.toIotMembers lib ms).map Prod.fst).Nodup := by
    rw [JsonDoc.keys_toIotMembers]
    exact h.1
  have hsame := List.map_perm_map_iff_of_key
    (f := fun m : String × JsonDoc => Protocol.mk m.1 (stringMapRead lib (some m.2)))
    (g := fun m => Protocol.mk m.1 (m.2.toIot lib)) Protocol.name (fun _ _ => rfl) h.1
  rw [((mapOf_perm hkeys).map _).congr_right, JsonDoc.toIotMembers_eq_map, List.map_map]
  refine hsame.trans (forall₂_congr fun m hm => ?_)
  rw [Protocol.mk.injEq]
  exact (and_iff_right rfl).trans
    (JsonDoc.toIot_reserialize_iff lib m.2 (distinct_of_mem_members h.2 hm))

/-- Images that differ only where a measure of them grows are permutations of each other only if
    they are equal. -/
theorem map_perm_map_iff_of_le {α β : Type*} {f g : α → β} (measure : β → ℚ) {xs : List α}
    (hle : ∀ x ∈ xs, measure (f x) ≤ measure (g x))
    (heq : ∀ x ∈ xs, measure (f x) = measure (g x) → f x = g x) :
    (xs.map f).Perm (xs.map g) ↔ ∀ x ∈ xs, measure (f x) = measure (g x) := by
  constructor
  · intro hperm
    have hsum : (xs.map (measure ∘ f)).sum = (xs.map (measure ∘ g)).sum := by
      rw [← List.map_map, ← List.map_map]
      exact (hperm.map measure).sum_eq
    by_contra hne
    push Not at hne
    obtain ⟨x, hx, hx'⟩ := hne
    exact (List.sum_lt_sum _ _ hle ⟨x, hx, lt_of_le_of_ne (hle x hx) hx'⟩).ne hsum
  · intro h
    rw [List.map_congr_left fun x hx => heq x hx (h x hx)]

/-- A JSON object that describes a device. Its labels are strings, and a threshold is a number. -/
structure DeviceDocument where
  members : List (String × JsonDoc)
  distinct : (JsonDoc.object members).Distinct
  labels : ∀ e, members.lookup "labels" = some e → ∃ ls : List String, e = .array (ls.map .string)
  autoEvents : ∀ e, members.lookup "autoEvents" = some e → ∃ aes, e = .array aes
  thresholds : ∀ ae ∈ jsonObjectGetArray members "autoEvents",
    ∀ e, ae.members.lookup "onChangeThreshold" = some e → ∃ lit, e = .number lit

/-- Devices that agree in what describes them, up to the order of protocols and autoevents. -/
structure SameDevice (a b : Device DeviceProfile) : Prop where
  name : a.name = b.name
  parent : a.parent = b.parent
  description : a.description = b.description
  labels : a.labels = b.labels
  tags : a.tags = b.tags
  profile : a.profile.name = b.profile.name
  servicename : a.servicename = b.servicename
  protocols : a.protocols.Perm b.protocols
  adminState : a.adminState = b.adminState
  operatingState : a.operatingState = b.operatingState
  autos : a.autos.Perm b.autos

namespace DeviceDocument

variable (doc : DeviceDocument)

/-- The threshold of an autoevent is written as `lit`. -/
def Threshold (lit : String) : Prop :=
  ∃ ae ∈ jsonObjectGetArray doc.members "autoEvents",
    ae.members.lookup "onChangeThreshold" = some (.number lit)

/-- The documents on which the readers agree. -/
structure ReadAlike : Prop where
  parent : jsonGetString doc.members "parent" = ""
  tags : ∃ e, doc.members.lookup "tags" = some e ∧ e.NumbersKept lib
  protocols : ∀ ms, doc.members.lookup "protocols" = some (.object ms) →
    ∀ m ∈ ms, m.2.NumbersKept lib
  thresholds : ∀ lit, doc.Threshold lit → ¬NegativeInteger lit

/-- What `edgex_device_read` is given. -/
def data : Option IotData := some ((JsonDoc.object doc.members).toIot lib)

variable {doc}

theorem stringMapGet_data (name : String) :
    stringMapGet (doc.data lib) name = (doc.members.lookup name).map (JsonDoc.toIot lib) :=
  stringMapGet_toIot lib doc.distinct name

theorem stringMapGetString_data (name : String) :
    stringMapGetString (doc.data lib) name = jsonObjectGetString doc.members name :=
  stringMapGetString_toIot lib doc.distinct name

theorem getString_data (name : String) :
    getString (doc.data lib) name = jsonGetString doc.members name :=
  getString_toIot lib doc.distinct name

theorem labels_agree :
    arrayToStrings (jsonObjectGetArray doc.members "labels") = labelsRead (doc.data lib) := by
  rw [labelsRead, stringMapGet_data, jsonObjectGetArray]
  cases hl : doc.members.lookup "labels" with
  | none => rfl
  | some e =>
    obtain ⟨ls, rfl⟩ := doc.labels e hl
    simp only [Option.map_some, JsonDoc.toIot, JsonDoc.toIotList_eq_map, arrayToStrings,
      List.map_map]
    rfl

theorem protocols_agree_iff :
    (protocolsRead lib ((doc.members.lookup "protocols").elim [] JsonDoc.members)).Perm
        (edgexProtocolsRead (stringMapGet (doc.data lib) "protocols")) ↔
      ∀ ms, doc.members.lookup "protocols" = some (.object ms) →
        ∀ m ∈ ms, m.2.NumbersKept lib := by
  rw [stringMapGet_data]
  cases hp : doc.members.lookup "protocols" with
  | none => simp [protocolsRead, edgexProtocolsRead]
  | some e =>
    have hd : e.Distinct := distinct_of_lookup doc.distinct hp
    cases e with
    | object ms =>
      rw [JsonDoc.Distinct] at hd
      have hread := protocols_perm_iff lib hd
      simpa [protocolsRead, edgexProtocolsRead, JsonDoc.members, JsonDoc.toIot] using hread
    | number lit =>
      rw [Option.map_some, JsonDoc.toIot]
      rcases (lib.fromJson lit).2.cases with ⟨t, bits, he⟩ | ⟨x, he⟩ <;>
        simp [he, protocolsRead, edgexProtocolsRead, JsonDoc.members]
    | _ => simp [protocolsRead, edgexProtocolsRead, JsonDoc.members, JsonDoc.toIot]

/-- The threshold that each reader has for an autoevent of the document: they are in order, and
    they are equal unless the text is a negative integer. -/
theorem threshold_agree (hrounds : lib.Rounds) (hcasts : ∀ lit, doc.Threshold lit → lib.Casts lit)
    {ae : JsonDoc} (hae : ae ∈ jsonObjectGetArray doc.members "autoEvents") (hd : ae.Distinct) :
    (autoeventRead lib.number (ae.toIot lib)).onChangeThreshold ≤
        (jsonAutoeventRead lib ae.members).onChangeThreshold ∧
      ((autoeventRead lib.number (ae.toIot lib)).onChangeThreshold =
          (jsonAutoeventRead lib ae.members).onChangeThreshold ↔
        ∀ lit, ae.members.lookup "onChangeThreshold" = some (.number lit) →
          ¬NegativeInteger lit) := by
  simp only [autoeventRead, jsonAutoeventRead, jsonObjectGetNumber, stringMapGet_toIot lib hd]
  cases ht : ae.members.lookup "onChangeThreshold" with
  | none => simp
  | some e =>
    obtain ⟨lit, rfl⟩ := doc.thresholds ae hae e ht
    have hcast : lib.number (lib.fromJson lit).1 = some (lib.strtod lit) :=
      hcasts lit ⟨ae, hae, ht⟩
    simp only [Option.map_some, JsonDoc.toIot, Option.bind_some, hcast, Option.getD_some,
      Option.some.injEq, JsonDoc.number.injEq, forall_eq']
    refine ⟨?_, eq_comm.trans (parson_double_eq_iff hrounds lit)⟩
    by_cases hneg : NegativeInteger lit
    · exact (double_of_negativeInteger hrounds hneg).le
    · exact (double_of_not_negativeInteger hrounds hneg).ge

/-- Autoevents differ at most in their thresholds. -/
theorem autoevent_agree {ae : JsonDoc} (hd : ae.Distinct)
    (h : (autoeventRead lib.number (ae.toIot lib)).onChangeThreshold =
      (jsonAutoeventRead lib ae.members).onChangeThreshold) :
    autoeventRead lib.number (ae.toIot lib) = jsonAutoeventRead lib ae.members := by
  rw [AutoEvent.mk.injEq]
  refine ⟨?_, ?_, ?_, h⟩
  · exact getString_toIot lib hd "sourceName"
  · exact getString_toIot lib hd "interval"
  · exact stringMapGetBool_toIot lib hd "onChange" false

theorem distinct_of_mem_autoEvents {ae : JsonDoc}
    (hae : ae ∈ jsonObjectGetArray doc.members "autoEvents") : ae.Distinct := by
  rw [jsonObjectGetArray] at hae
  cases hl : doc.members.lookup "autoEvents" with
  | none => simp [hl] at hae
  | some e =>
    obtain ⟨aes, rfl⟩ := doc.autoEvents e hl
    have hd : (JsonDoc.array aes).Distinct := distinct_of_lookup doc.distinct hl
    rw [JsonDoc.Distinct] at hd
    rw [hl] at hae
    exact distinct_of_mem_list hd hae

theorem autoeventsRead_data :
    autoeventsRead lib.number (doc.data lib) =
      ((jsonObjectGetArray doc.members "autoEvents").map
        fun ae => autoeventRead lib.number (ae.toIot lib)).reverse := by
  rw [autoeventsRead, stringMapGet_data, jsonObjectGetArray]
  cases hl : doc.members.lookup "autoEvents" with
  | none => rfl
  | some e =>
    obtain ⟨aes, rfl⟩ := doc.autoEvents e hl
    simp [JsonDoc.toIot, JsonDoc.toIotList_eq_map, Function.comp_def]

theorem autoevents_perm_iff (hrounds : lib.Rounds)
    (hcasts : ∀ lit, doc.Threshold lit → lib.Casts lit) :
    (deviceRead lib doc.members).autos.Perm (autoeventsRead lib.number (doc.data lib)) ↔
      ∀ lit, doc.Threshold lit → ¬NegativeInteger lit := by
  have hread : (deviceRead lib doc.members).autos =
      ((jsonObjectGetArray doc.members "autoEvents").map
        fun ae => jsonAutoeventRead lib ae.members).reverse := by
    simp [deviceRead]
  have hagree : ∀ ae ∈ jsonObjectGetArray doc.members "autoEvents", _ :=
    fun ae hae => threshold_agree lib hrounds hcasts hae (distinct_of_mem_autoEvents hae)
  rw [hread, autoeventsRead_data, List.perm_comm, (List.reverse_perm _).congr_left,
    (List.reverse_perm _).congr_right,
    map_perm_map_iff_of_le AutoEvent.onChangeThreshold (fun ae hae => (hagree ae hae).1)
      fun ae hae => autoevent_agree lib (distinct_of_mem_autoEvents hae)]
  constructor
  · rintro h lit ⟨ae, hae, hlit⟩
    exact (hagree ae hae).2.mp (h ae hae) lit hlit
  · intro h ae hae
    refine (hagree ae hae).2.mpr ?_
    exact fun lit hlit => h lit ⟨ae, hae, hlit⟩

theorem tags_agree_iff :
    (deviceRead lib doc.members).tags = stringMapGet (doc.data lib) "tags" ↔
      ∃ e, doc.members.lookup "tags" = some e ∧ e.NumbersKept lib := by
  rw [stringMapGet_data, deviceRead]
  cases ht : doc.members.lookup "tags" with
  | none => simp
  | some e =>
    have hd : e.Distinct := distinct_of_lookup doc.distinct ht
    simp [stringMapRead, JsonDoc.toIot_reserialize_iff lib e hd]

end DeviceDocument

open DeviceDocument in
/-- The two readers agree on a document exactly where it has no parent and has tags, parson keeps
    the numbers of its tags and protocols, and no threshold is a negative integer. -/
theorem deviceRead_agree_iff (doc : DeviceDocument) (hrounds : lib.Rounds)
    (hcasts : ∀ lit, doc.Threshold lit → lib.Casts lit) :
    SameDevice (deviceRead lib doc.members) (edgexDeviceRead lib.number (doc.data lib)) ↔
      doc.ReadAlike lib := by
  constructor
  · intro h
    have hparent : jsonGetString doc.members "parent" = "" := by
      by_contra hne
      have hread := h.parent
      simp [deviceRead, edgexDeviceRead, hne] at hread
    exact ⟨hparent, (tags_agree_iff lib).mp h.tags, (protocols_agree_iff lib).mp h.protocols,
      (autoevents_perm_iff lib hrounds hcasts).mp h.autos⟩
  · intro h
    exact {
      name := (getString_data lib "name").symm
      parent := if_pos h.parent
      description := (getString_data lib "description").symm
      labels := labels_agree lib
      tags := (tags_agree_iff lib).mpr h.tags
      profile := (getString_data lib "profileName").symm
      servicename := (getString_data lib "serviceName").symm
      protocols := (protocols_agree_iff lib).mpr h.protocols
      adminState := by
        rw [edgexDeviceRead, adminstateRead_stringMapGet, stringMapGetString_data]
        rfl
      operatingState := by
        rw [edgexDeviceRead, operatingstateRead_stringMapGet, stringMapGetString_data]
        rfl
      autos := (autoevents_perm_iff lib hrounds hcasts).mpr h.thresholds }

/-- Both libraries, on decimal integers. -/
def decimalNumbers : JsonNumbers where
  strtod lit := (integerLiteral lit).elim 0 fun n => (Double.ofInt n : ℚ)
  print x := toString x.num
  fromJson lit := ⟨.int .int64 (BitVec.ofInt _ ((integerLiteral lit).getD 0)), .inl ⟨_, rfl⟩⟩
  number
    | .int .int64 bits => some (Double.ofInt (BitVec.toInt bits) : ℚ)
    | _ => none

theorem decimalNumbers_rounds : decimalNumbers.Rounds := by
  intro lit n hn _
  show (integerLiteral lit).elim 0 (fun n => (Double.ofInt n : ℚ)) = Double.ofInt n
  rw [hn]
  rfl

/-- A thermostat and its parent, which may be empty. -/
def thermostatDocument (parent : String) : DeviceDocument where
  members := [
    ("name", .string "thermostat"), ("parent", .string parent), ("profileName", .string "heating"),
    ("labels", .array [.string "north"]),
    ("protocols", .object [("modbus", .object [("port", .number "502")])]),
    ("tags", .object [("floor", .string "two")]),
    ("autoEvents", .array [.object [("sourceName", .string "temperature"),
      ("interval", .string "10s"), ("onChangeThreshold", .number "5")]])]
  distinct := by simp [JsonDoc.Distinct, JsonDoc.DistinctMembers, JsonDoc.DistinctList]
  labels := fun _ he => ⟨["north"], (Option.some.inj he).symm⟩
  autoEvents := fun _ he => ⟨_, (Option.some.inj he).symm⟩
  thresholds := by
    intro ae hae e he
    rw [List.mem_singleton.mp hae] at he
    exact ⟨"5", (Option.some.inj he).symm⟩

theorem thermostatDocument_threshold {parent lit : String}
    (h : (thermostatDocument parent).Threshold lit) : lit = "5" := by
  obtain ⟨ae, hae, hlit⟩ := h
  rw [List.mem_singleton.mp hae] at hlit
  exact (JsonDoc.number.inj (Option.some.inj hlit)).symm

theorem deviceRead_agree_thermostat :
    SameDevice (deviceRead decimalNumbers (thermostatDocument "").members)
      (edgexDeviceRead decimalNumbers.number ((thermostatDocument "").data decimalNumbers)) := by
  refine (deviceRead_agree_iff decimalNumbers _ decimalNumbers_rounds ?_).mpr ⟨?_, ?_, ?_, ?_⟩
  · intro lit hlit
    rw [thermostatDocument_threshold hlit]
    rfl
  · decide
  · refine ⟨_, rfl, ?_⟩
    simp [JsonDoc.NumbersKept, JsonDoc.NumbersKeptMembers]
  · intro ms hms m hm
    obtain rfl := JsonDoc.object.inj (Option.some.inj hms)
    rw [List.mem_singleton.mp hm]
    simp only [JsonDoc.NumbersKept, JsonDoc.NumbersKeptMembers, and_true]
    have hkept : reprint decimalNumbers "502" = "502" := by decide
    rw [hkept]
  · intro lit hlit
    rw [thermostatDocument_threshold hlit]
    rintro ⟨n, hn, hneg, -⟩
    have hn5 : n = 5 := (Option.some.inj hn).symm
    omega

/-- A device under a parent: only one of the readers reads the parent. -/
theorem parent_read_by_one :
    ¬SameDevice (deviceRead decimalNumbers (thermostatDocument "boiler").members)
      (edgexDeviceRead decimalNumbers.number
        ((thermostatDocument "boiler").data decimalNumbers)) := by
  intro h
  have hparent : some "boiler" = none := h.parent
  cases hparent

end DeviceSdk
