import DeviceSdk.Command.Put
import DeviceSdk.Dto.Document

/-!
# Reduced events

A reduced event leaves out of its readings what the event itself says: the device, the profile, a
resource that is the source of the event, and an origin that is the event's. What is left out can
be filled in again, and then the event is the full one, up to the identifiers.

## Main definitions

- `Event.filled` — an event with what its readings leave out
- `Event.withoutIds` — an event up to its identifiers
- `AssertionsMet` — the results of a request are those that the profile asserts

## Main results

- `reading_filled` — one reading
- `processEvent_isSome_iff`, `processEvent_readings` — when there is an event, and its readings
- `reduced_filled`
-/

namespace DeviceSdk

open IotData (mapAdd mapMerge)

-- ════════════════════════════════════════════════════════════════════════
-- Filling in
-- ════════════════════════════════════════════════════════════════════════

/-- The entry under a key, rewritten. -/
def mapMember (key : String) (f : IotData → IotData) (es : List (String × IotData)) :
    List (String × IotData) :=
  es.map fun e => (e.1, if e.1 = key then f e.2 else e.2)

/-- An entry for a key that a map does not have. -/
def addMissing (key : String) (value : Option IotData) (es : List (String × IotData)) :
    List (String × IotData) :=
  match value, es.lookup key with
  | some v, none => mapAdd key v es
  | _, _ => es

/-- A reading with what it leaves out, from the event that it is in. -/
def fillReading (event : List (String × IotData)) : IotData → IotData
  | .map es =>
    .map (addMissing "deviceName" (event.lookup "deviceName")
      (addMissing "profileName" (event.lookup "profileName")
        (addMissing "resourceName" (event.lookup "sourceName")
          (addMissing "origin" (event.lookup "origin") es))))
  | d => d

/-- A function on every element of a list. -/
def onElements (f : IotData → IotData) : IotData → IotData
  | .vector xs => .vector (xs.map f)
  | d => d

/-- A function on the entries of a map. -/
def onEntries (f : List (String × IotData) → List (String × IotData)) : IotData → IotData
  | .map es => .map (f es)
  | d => d

/-- Without the entry under `id`. -/
def eraseId (es : List (String × IotData)) : List (String × IotData) :=
  es.filter fun e => decide (e.1 ≠ "id")

/-- An event with what its readings leave out. -/
def Event.filled (e : Event) : Event :=
  { e with
    value := onEntries (mapMember "event" (onEntries fun event =>
      mapMember "readings" (onElements (fillReading event)) event)) e.value }

/-- An event up to its identifiers: that of the event and those of its readings. -/
def Event.withoutIds (e : Event) : Event :=
  { e with
    value := onEntries (mapMember "event" (onEntries fun event =>
      eraseId (mapMember "readings" (onElements (onEntries eraseId)) event))) e.value }

-- ════════════════════════════════════════════════════════════════════════
-- Maps and their lookups
-- ════════════════════════════════════════════════════════════════════════

theorem keyOrdered_mapOf (es : List (String × IotData)) : KeyOrdered (mapOf es) :=
  (IotMap.empty.addAll es).ordered

/-- The additions of `data.c`, in their order. -/
theorem mapMerge_nil (es : List (String × IotData)) : mapMerge [] (some (.map es)) = mapOf es := by
  have hadds (m : IotMap) :
      (m.addAll es).entries = es.foldl (fun acc e => mapAdd e.1 e.2 acc) m.entries := by
    induction es generalizing m with
    | nil => rfl
    | cons e es ih => exact ih (m.add e.1 e.2)
  exact (hadds IotMap.empty).symm

section Lookup

variable {es : List (String × IotData)} (key n : String)

theorem lookup_mapMember (f : IotData → IotData) :
    (mapMember key f es).lookup n = (es.lookup n).map (if n = key then f else id) := by
  induction es with
  | nil => rfl
  | cons e es ih =>
    obtain ⟨k, v⟩ := e
    rw [mapMember, List.map_cons, ← mapMember, List.lookup_cons_ite, List.lookup_cons_ite, ih]
    by_cases hn : n = k
    · subst hn
      by_cases hk : n = key <;> simp [hk]
    · rw [if_neg hn, if_neg hn]

theorem KeyOrdered.mapMember (h : KeyOrdered es) (f : IotData → IotData) :
    KeyOrdered (DeviceSdk.mapMember key f es) := by
  rw [KeyOrdered, DeviceSdk.mapMember, List.pairwise_map]
  exact h

theorem lookup_eraseId : (eraseId es).lookup n = if n = "id" then none else es.lookup n := by
  induction es with
  | nil => simp [eraseId]
  | cons e es ih =>
    obtain ⟨k, v⟩ := e
    rw [eraseId, List.filter_cons, ← eraseId]
    by_cases hk : k = "id"
    · rw [if_neg (by simp [hk]), ih, List.lookup_cons_ite, hk]
      split <;> rfl
    · rw [if_pos (by simp [hk]), List.lookup_cons_ite, ih, List.lookup_cons_ite]
      by_cases hn : n = k
      · rw [if_pos hn, if_pos hn, if_neg (hn ▸ hk)]
      · rw [if_neg hn, if_neg hn]

theorem KeyOrdered.eraseId (h : KeyOrdered es) : KeyOrdered (DeviceSdk.eraseId es) :=
  List.Pairwise.filter _ h

theorem lookup_addMissing (value : Option IotData) :
    (addMissing key value es).lookup n =
      if n = key then (es.lookup n).or value else es.lookup n := by
  by_cases hn : n = key
  · subst hn
    rw [if_pos rfl]
    cases value with
    | none => simp [addMissing]
    | some v =>
      cases hkey : es.lookup n with
      | none => simp [addMissing, hkey, IotData.lookup_mapAdd]
      | some w => simp [addMissing, hkey]
  · rw [if_neg hn]
    cases value with
    | none => simp [addMissing]
    | some v =>
      cases hkey : es.lookup key with
      | none => simp [addMissing, hkey, IotData.lookup_mapAdd, hn]
      | some w => simp [addMissing, hkey]

theorem KeyOrdered.addMissing (h : KeyOrdered es) (value : Option IotData) :
    KeyOrdered (DeviceSdk.addMissing key value es) := by
  rw [DeviceSdk.addMissing.eq_def]
  split
  · exact h.mapAdd _ _
  · exact h

end Lookup

-- ════════════════════════════════════════════════════════════════════════
-- One reading
-- ════════════════════════════════════════════════════════════════════════

variable (libs : Libs)

/-- The entries of a reading that are there in any event. -/
def readingRest (r : CmdReq) (value : IotData) : List (String × IotData) :=
  readingValue libs r value ++
    match r.req.resource.tags with
    | some tags => [("tags", tags)]
    | none => []

/-- The keys that the other entries of a reading have. -/
def readingHeads : List String :=
  ["id", "profileName", "deviceName", "resourceName", "valueType", "origin"]

theorem readingRest_keys (r : CmdReq) (value : IotData) :
    ((readingRest libs r value).map Prod.fst).Nodup ∧
      ∀ k ∈ (readingRest libs r value).map Prod.fst, k ∉ readingHeads := by
  have hkeys : (readingRest libs r value).map Prod.fst ∈
      [["value"], ["objectValue"], ["binaryValue", "mediaType"], ["value", "tags"],
        ["objectValue", "tags"], ["binaryValue", "mediaType", "tags"]] := by
    rw [readingRest]
    cases r.req.resource.tags <;> cases value <;> simp [readingValue]
  generalize (readingRest libs r value).map Prod.fst = keys at hkeys
  revert keys
  decide

theorem lookup_readingRest {n : String} (h : n ∈ readingHeads) (r : CmdReq) (value : IotData) :
    (readingRest libs r value).lookup n = none := by
  apply List.lookup_eq_none_of_notMem
  intro hmem
  exact (readingRest_keys libs r value).2 n hmem h

/-- A map of heads and the rest. -/
theorem lookup_headed {heads : List (String × IotData)}
    (h : (heads.map Prod.fst).Sublist readingHeads) (r : CmdReq) (value : IotData) (n : String) :
    (mapOf (heads ++ readingRest libs r value)).lookup n =
      (heads.lookup n).or ((readingRest libs r value).lookup n) := by
  obtain ⟨hrest, hdisjoint⟩ := readingRest_keys libs r value
  have hnodup : (heads.map Prod.fst).Nodup := List.Nodup.sublist h (by decide)
  have hall : ((heads ++ readingRest libs r value).map Prod.fst).Nodup := by
    rw [List.map_append]
    exact hnodup.append hrest fun k hk hk' => hdisjoint k hk' (h.subset hk)
  rw [lookup_mapOf hall, List.lookup_append]

/-- What a reading says of its event. -/
structure HeadOf (event : List (String × IotData)) (timenow : BitVec 64) (devname : String)
    (info : CmdInfo) : Prop where
  deviceName : event.lookup "deviceName" = some (.string devname)
  profileName : event.lookup "profileName" = some (.string info.profile)
  sourceName : event.lookup "sourceName" = some (.string info.name)
  origin : event.lookup "origin" = some (.int .uint64 timenow)

/-- The origin of a reading, that of the event where the driver gave none. -/
def readingOrigin (timenow : BitVec 64) (v : CommandResult) : BitVec 64 :=
  if v.origin ≠ 0 then v.origin else timenow

/-- The entries of a full reading, the rest apart. -/
def fullHeads (timenow : BitVec 64) (id devname : String) (info : CmdInfo) (r : CmdReq)
    (v : CommandResult) : List (String × IotData) :=
  [("id", .string id), ("profileName", .string info.profile), ("deviceName", .string devname),
    ("resourceName", .string r.req.resource.name),
    ("valueType", .string (typecodeToString v.value.typecode)),
    ("origin", .int .uint64 (readingOrigin timenow v))]

/-- The entries of a reduced reading, the rest apart. -/
def reducedHeads (timenow : BitVec 64) (info : CmdInfo) (r : CmdReq) (v : CommandResult) :
    List (String × IotData) :=
  (if 1 < info.nreqs ∨ r.req.resource.name ≠ info.name then
    [("resourceName", .string r.req.resource.name)] else []) ++
  ("valueType", .string (typecodeToString v.value.typecode)) ::
  if v.origin ≠ 0 ∧ v.origin ≠ timenow then
    [("origin", .int .uint64 (readingOrigin timenow v))] else []

section Reading

variable (timenow : BitVec 64) (genuuid : ℕ → String) (devname : String) (info : CmdInfo) (i : ℕ)
  (r : CmdReq) (v : CommandResult)

theorem reading_full :
    reading libs ⟨timenow, genuuid⟩ false devname info i r v =
      .map (mapOf (fullHeads timenow (genuuid (i + 1)) devname info r v ++
        readingRest libs r v.value)) := by
  rw [reading, mapMerge_nil]
  rfl

theorem reading_reduced :
    reading libs ⟨timenow, genuuid⟩ true devname info i r v =
      .map (mapOf (reducedHeads timenow info r v ++ readingRest libs r v.value)) := by
  have hresource : (!true || decide (1 < info.nreqs) ||
      decide (r.req.resource.name ≠ info.name)) = true ↔
        1 < info.nreqs ∨ r.req.resource.name ≠ info.name := by simp
  have horigin : (!true || (decide (v.origin ≠ 0) && decide (v.origin ≠ timenow))) = true ↔
      v.origin ≠ 0 ∧ v.origin ≠ timenow := by simp
  rw [reading, mapMerge_nil]
  simp only [hresource, horigin, reducedHeads]
  by_cases hr : 1 < info.nreqs ∨ r.req.resource.name ≠ info.name <;>
    by_cases ho : v.origin ≠ 0 ∧ v.origin ≠ timenow
  · rw [if_pos hr, if_pos ho, if_pos ho]
    rfl
  · rw [if_pos hr, if_neg ho, if_neg ho]
    rfl
  · rw [if_neg hr, if_pos ho, if_pos ho]
    rfl
  · rw [if_neg hr, if_neg ho, if_neg ho]
    rfl

theorem sublist_reducedHeads :
    ((reducedHeads timenow info r v).map Prod.fst).Sublist readingHeads := by
  rw [reducedHeads]
  split <;> split <;> exact List.isSublist_iff_sublist.mp rfl

theorem sublist_fullHeads (id : String) :
    ((fullHeads timenow id devname info r v).map Prod.fst).Sublist readingHeads :=
  List.Sublist.refl _

theorem lookup_optional (key : String) (value : IotData) (p : Prop) [Decidable p] (n : String) :
    (if p then [(key, value)] else []).lookup n =
      if n = key then if p then some value else none else none := by
  split
  · rw [List.lookup_cons_ite, List.lookup_nil]
  · split <;> rfl

theorem lookup_reducedHeads (n : String) :
    (reducedHeads timenow info r v).lookup n =
      if n = "resourceName" then
        if 1 < info.nreqs ∨ r.req.resource.name ≠ info.name then some (.string r.req.resource.name)
        else none
      else if n = "valueType" then some (.string (typecodeToString v.value.typecode))
      else if n = "origin" then
        if v.origin ≠ 0 ∧ v.origin ≠ timenow then some (.int .uint64 (readingOrigin timenow v))
        else none
      else none := by
  rw [reducedHeads, List.lookup_append, List.lookup_cons_ite, lookup_optional, lookup_optional]
  by_cases hname : n = "resourceName"
  · subst hname
    simp only [String.reduceEq, if_false, if_true, Option.or_none]
  · rw [if_neg hname, if_neg hname, Option.none_or]

/-- What is filled in where a reduced reading leaves an entry out is what a full reading has. -/
theorem lookup_filledHeads (n : String) (id : String) (hn : n ≠ "id") :
    (if n = "deviceName" then some (.string devname)
      else if n = "profileName" then some (.string info.profile)
      else if n = "resourceName" then
        ((reducedHeads timenow info r v).lookup n).or (some (.string info.name))
      else if n = "origin" then
        ((reducedHeads timenow info r v).lookup n).or (some (.int .uint64 timenow))
      else (reducedHeads timenow info r v).lookup n) =
      (fullHeads timenow id devname info r v).lookup n := by
  have hname : ¬(1 < info.nreqs ∨ r.req.resource.name ≠ info.name) →
      r.req.resource.name = info.name := fun h => not_not.mp (not_or.mp h).2
  have horigin : ¬(v.origin ≠ 0 ∧ v.origin ≠ timenow) → readingOrigin timenow v = timenow := by
    intro h
    rw [readingOrigin]
    split
    · next hne => exact not_not.mp fun ht => h ⟨hne, ht⟩
    · rfl
  simp only [lookup_reducedHeads, fullHeads, List.lookup_cons_ite, List.lookup_nil, if_neg hn]
  by_cases hdevice : n = "deviceName"
  · subst hdevice
    rfl
  by_cases hprofile : n = "profileName"
  · subst hprofile
    rfl
  by_cases hresource : n = "resourceName"
  · subst hresource
    simp only [String.reduceEq, if_false, if_true]
    by_cases hr : 1 < info.nreqs ∨ r.req.resource.name ≠ info.name
    · rw [if_pos hr, Option.some_or]
    · rw [if_neg hr, Option.none_or, hname hr]
  by_cases ho : n = "origin"
  · subst ho
    simp only [String.reduceEq, if_false, if_true]
    by_cases hv : v.origin ≠ 0 ∧ v.origin ≠ timenow
    · rw [if_pos hv, Option.some_or]
    · rw [if_neg hv, Option.none_or, horigin hv]
  · simp only [hdevice, hprofile, hresource, ho, if_false]

/-- A reduced reading, filled in, is the full one up to its identifier. -/
theorem reading_filled {event : List (String × IotData)} (h : HeadOf event timenow devname info)
    (genuuid' : ℕ → String) :
    onEntries eraseId (fillReading event
        (reading libs ⟨timenow, genuuid'⟩ true devname info i r v)) =
      onEntries eraseId (reading libs ⟨timenow, genuuid⟩ false devname info i r v) := by
  rw [reading_full, reading_reduced]
  show IotData.map _ = IotData.map _
  rw [h.deviceName, h.profileName, h.sourceName, h.origin]
  congr 1
  apply KeyOrdered.eq_of_lookup
  · refine KeyOrdered.eraseId ?_
    exact ((((keyOrdered_mapOf _).addMissing _ _).addMissing _ _).addMissing _ _).addMissing _ _
  · exact (keyOrdered_mapOf _).eraseId
  · intro n
    rw [lookup_eraseId, lookup_eraseId]
    by_cases hn : n = "id"
    · rw [if_pos hn, if_pos hn]
    · rw [if_neg hn, if_neg hn, lookup_headed libs (sublist_fullHeads timenow devname info r v _),
        ← lookup_filledHeads timenow devname info r v n _ hn]
      simp only [lookup_addMissing, lookup_headed libs (sublist_reducedHeads timenow info r v)]
      by_cases hhead : n ∈ readingHeads
      · rw [lookup_readingRest libs hhead, Option.or_none, Option.or_none]
        by_cases hdevice : n = "deviceName"
        · subst hdevice
          simp [lookup_reducedHeads]
        by_cases hprofile : n = "profileName"
        · subst hprofile
          simp [lookup_reducedHeads]
        by_cases hresource : n = "resourceName"
        · subst hresource
          simp only [String.reduceEq, if_false, if_true]
        · simp only [hdevice, hprofile, hresource, if_false]
      · have hne {k : String} (hk : k ∈ readingHeads) : n ≠ k := fun h => hhead (h ▸ hk)
        have hdevice : n ≠ "deviceName" := hne (by decide)
        have hprofile : n ≠ "profileName" := hne (by decide)
        have hresource : n ≠ "resourceName" := hne (by decide)
        have horigin : n ≠ "origin" := hne (by decide)
        simp only [if_neg hdevice, if_neg hprofile, if_neg hresource, if_neg horigin]

end Reading

-- ════════════════════════════════════════════════════════════════════════
-- The whole event
-- ════════════════════════════════════════════════════════════════════════

section Whole

variable (timenow : BitVec 64) (genuuid genuuid' : ℕ → String) (devname : String) (info : CmdInfo)

theorem readings_filled {event : List (String × IotData)} (h : HeadOf event timenow devname info)
    (rs : List CmdReq) (vs : List CommandResult) (i : ℕ) :
    ((readings libs ⟨timenow, genuuid'⟩ true devname info rs vs i).map (fillReading event)).map
        (onEntries eraseId) =
      (readings libs ⟨timenow, genuuid⟩ false devname info rs vs i).map (onEntries eraseId) := by
  induction rs generalizing vs i with
  | nil => cases vs <;> rfl
  | cons r rs ih =>
    cases vs with
    | nil => rfl
    | cons v vs =>
      rw [readings, readings, List.map_cons, List.map_cons, List.map_cons, ih,
        reading_filled libs timenow genuuid devname info i r v h]

/-- The entries of an event. -/
def eventEntries (id : String) (rvec : List IotData) (tags : List (String × IotData)) :
    List (String × IotData) :=
  [("apiVersion", .string apiVersion), ("id", .string id),
    ("deviceName", .string devname), ("profileName", .string info.profile),
    ("sourceName", .string info.name), ("origin", .int .uint64 timenow),
    ("readings", .vector rvec)] ++ if tags = [] then [] else [("tags", .map tags)]

/-- The entries of the message that an event is sent in. -/
def requestEntries (event : IotData) : List (String × IotData) :=
  [("apiVersion", .string apiVersion), ("event", event), ("statusCode", .int .uint32 200)]

theorem eventValue_eq (rvec : List IotData) (tags : List (String × IotData)) :
    eventValue ⟨timenow, genuuid⟩ devname info rvec tags =
      .map (mapOf (requestEntries
        (.map (mapOf (eventEntries timenow devname info (genuuid 0) rvec tags))))) := by
  rw [eventValue, mapMerge_nil, mapMerge_nil]
  rfl

variable (uuid uuid' : String) (rvec rvec' : List IotData) (tags : List (String × IotData))

theorem eventEntries_nodup :
    ((eventEntries timenow devname info uuid rvec tags).map Prod.fst).Nodup := by
  rw [eventEntries]
  split <;> simp

theorem lookup_event (n : String) :
    (mapOf (eventEntries timenow devname info uuid rvec tags)).lookup n =
      (eventEntries timenow devname info uuid rvec tags).lookup n :=
  lookup_mapOf (eventEntries_nodup timenow devname info uuid rvec tags) n

theorem headOf_event :
    HeadOf (mapOf (eventEntries timenow devname info uuid rvec tags)) timenow devname info where
  deviceName := by rw [lookup_event]; rfl
  profileName := by rw [lookup_event]; rfl
  sourceName := by rw [lookup_event]; rfl
  origin := by rw [lookup_event]; rfl

/-- Two events with the same contents differ in their identifier and in their readings. -/
theorem lookup_eventEntries_congr {n : String} (hid : n ≠ "id") (hreadings : n ≠ "readings") :
    (eventEntries timenow devname info uuid rvec tags).lookup n =
      (eventEntries timenow devname info uuid' rvec' tags).lookup n := by
  simp only [eventEntries, List.lookup_append, List.lookup_cons_ite, List.lookup_nil, hid,
    hreadings, if_false]

theorem mapMember_request (f : IotData → IotData) (event : IotData) :
    mapMember "event" f (mapOf (requestEntries event)) = mapOf (requestEntries (f event)) := by
  have hnodup (d : IotData) : ((requestEntries d).map Prod.fst).Nodup :=
    show ["apiVersion", "event", "statusCode"].Nodup by decide
  refine ((keyOrdered_mapOf _).mapMember _ f).eq_of_lookup (keyOrdered_mapOf _) fun n => ?_
  rw [lookup_mapMember, lookup_mapOf (hnodup _), lookup_mapOf (hnodup _)]
  simp only [requestEntries, List.lookup_cons_ite, List.lookup_nil]
  by_cases hn : n = "event"
  · subst hn
    simp
  · rw [if_neg hn, if_neg hn, if_neg hn, Option.map_id, id]

/-- Events whose readings agree up to their identifiers agree up to theirs. -/
theorem event_congr {event : List (String × IotData)}
    (hevent : event = mapOf (eventEntries timenow devname info uuid' rvec' tags))
    (hreadings : (rvec'.map (fillReading event)).map (onEntries eraseId) =
      rvec.map (onEntries eraseId)) :
    eraseId (mapMember "readings" (onElements (onEntries eraseId))
        (mapMember "readings" (onElements (fillReading event)) event)) =
      eraseId (mapMember "readings" (onElements (onEntries eraseId))
        (mapOf (eventEntries timenow devname info uuid rvec tags))) := by
  have hordered : KeyOrdered event := hevent ▸ keyOrdered_mapOf _
  refine ((hordered.mapMember _ _).mapMember _ _).eraseId.eq_of_lookup
    ((keyOrdered_mapOf _).mapMember _ _).eraseId fun n => ?_
  rw [lookup_eraseId, lookup_eraseId]
  by_cases hid : n = "id"
  · rw [if_pos hid, if_pos hid]
  rw [if_neg hid, if_neg hid, lookup_mapMember, lookup_mapMember, lookup_mapMember, lookup_event]
  have hlookup : event.lookup n =
      (eventEntries timenow devname info uuid' rvec' tags).lookup n := by
    rw [hevent, lookup_event]
  rw [hlookup]
  by_cases hn : n = "readings"
  · subst hn
    show some (IotData.vector _) = some (IotData.vector _)
    rw [hreadings]
  · rw [if_neg hn, if_neg hn, Option.map_id]
    exact (lookup_eventEntries_congr timenow devname info uuid uuid' rvec rvec' tags hid hn).symm

end Whole

-- ════════════════════════════════════════════════════════════════════════
-- When there is an event
-- ════════════════════════════════════════════════════════════════════════

section Built

variable (doTransforms : Bool) (values : ℕ → CommandResult)

/-- A result of a request, as it goes into the event. -/
def cookedResult (r : CmdReq) (v : CommandResult) : CommandResult :=
  if doTransforms then { v with value := transformOutgoing libs.float v.value r.pval r.map } else v

/-- Where the profile asserts a value of a resource, the result for it is that value. -/
def AssertionsMet (rs : List CmdReq) : Prop :=
  ∀ i r, rs[i]? = some r → r.pval.assertion ≠ "" →
    valueToString libs (cookedResult libs doTransforms r (values i)).value = r.pval.assertion

theorem cookResults_cons (r : CmdReq) (rs : List CmdReq) (i : ℕ) :
    cookResults libs doTransforms values (r :: rs) i =
      if r.pval.assertion ≠ "" ∧
          valueToString libs (cookedResult libs doTransforms r (values i)).value ≠ r.pval.assertion
      then none
      else (cookResults libs doTransforms values rs (i + 1)).map
        (cookedResult libs doTransforms r (values i) :: ·) := rfl

theorem cookResults_isSome_iff (rs : List CmdReq) (i : ℕ) :
    (cookResults libs doTransforms values rs i).isSome = true ↔
      AssertionsMet libs doTransforms (fun j => values (i + j)) rs := by
  induction rs generalizing i with
  | nil => simp [cookResults, AssertionsMet]
  | cons r rs ih =>
    have hshift : (fun j => values (i + 1 + j)) = fun j => values (i + (j + 1)) := by
      funext j
      rw [Nat.add_right_comm, Nat.add_assoc]
    have hsplit : AssertionsMet libs doTransforms (fun j => values (i + j)) (r :: rs) ↔
        (r.pval.assertion ≠ "" →
          valueToString libs (cookedResult libs doTransforms r (values i)).value =
            r.pval.assertion) ∧
        AssertionsMet libs doTransforms (fun j => values (i + (j + 1))) rs := by
      constructor
      · intro h
        exact ⟨h 0 r rfl, fun j q hq => h (j + 1) q hq⟩
      · rintro ⟨hr, hrs⟩ j q hq
        cases j with
        | zero =>
          cases hq
          exact hr
        | succ j => exact hrs j q hq
    rw [hsplit, ← hshift, ← ih (i + 1), cookResults_cons]
    split
    next hfails => simp [hfails]
    next hmet =>
      rw [Option.isSome_map]
      exact (and_iff_right fun hne => not_not.mp fun hv => hmet ⟨hne, hv⟩).symm

theorem length_of_cookResults {rs : List CmdReq} {i : ℕ} {cooked : List CommandResult}
    (h : cookResults libs doTransforms values rs i = some cooked) : cooked.length = rs.length := by
  induction rs generalizing i cooked with
  | nil =>
    cases h
    rfl
  | cons r rs ih =>
    rw [cookResults_cons] at h
    split at h
    next => cases h
    next =>
      obtain ⟨vs, hvs, rfl⟩ := Option.map_eq_some_iff.mp h
      rw [List.length_cons, List.length_cons, ih hvs]

theorem length_readings (stamp : Stamp) (reduced : Bool) (devname : String) (info : CmdInfo)
    {rs : List CmdReq} {vs : List CommandResult} (h : vs.length = rs.length) (i : ℕ) :
    (readings libs stamp reduced devname info rs vs i).length = rs.length := by
  induction rs generalizing vs i with
  | nil => rfl
  | cons r rs ih =>
    cases vs with
    | nil => cases h
    | cons v vs => rw [readings, List.length_cons, List.length_cons, ih (Nat.succ_inj.mp h)]

variable {P : Type} (stamp : Stamp) (device : Device P) (info : CmdInfo) (tags : Option IotData)
  (reduced : Bool)

/-- There is an event exactly where the assertions of the profile are met. -/
theorem processEvent_isSome_iff :
    (processEvent libs stamp device info values tags doTransforms reduced).isSome = true ↔
      AssertionsMet libs doTransforms values info.reqs := by
  have hcooked := cookResults_isSome_iff libs doTransforms values info.reqs 0
  simp only [Nat.zero_add] at hcooked
  rw [← hcooked, processEvent]
  cases cookResults libs doTransforms values info.reqs 0 <;> rfl

/-- An event has as many readings as the command has requests. -/
theorem processEvent_readings {e : Event}
    (h : processEvent libs stamp device info values tags doTransforms reduced = some e) :
    ∃ rvec, rvec.length = info.nreqs ∧ e.nrdgs = info.nreqs ∧
      e.value = eventValue stamp device.name info rvec
        (eventTags tags info.tags device.tags) := by
  rw [processEvent] at h
  cases hcooked : cookResults libs doTransforms values info.reqs 0 with
  | none =>
    rw [hcooked] at h
    cases h
  | some cooked =>
    rw [hcooked] at h
    cases h
    have hlength := length_of_cookResults libs doTransforms values hcooked
    exact ⟨_, length_readings libs stamp reduced device.name info hlength 0, rfl, rfl⟩

end Built

/-- A reduced event, with what its readings leave out, is the full event up to the identifiers. -/
theorem reduced_filled {P : Type} (libs : Libs) (timenow : BitVec 64)
    (genuuid genuuid' : ℕ → String) (device : Device P) (info : CmdInfo)
    (values : ℕ → CommandResult) (tags : Option IotData) (doTransforms : Bool) :
    (processEvent libs ⟨timenow, genuuid'⟩ device info values tags doTransforms true).map
        (fun e => e.filled.withoutIds) =
      (processEvent libs ⟨timenow, genuuid⟩ device info values tags doTransforms false).map
        Event.withoutIds := by
  rw [processEvent, processEvent]
  cases cookResults libs doTransforms values info.reqs 0 with
  | none => rfl
  | some cooked =>
    have hhead := headOf_event timenow device.name info (genuuid' 0)
      (readings libs ⟨timenow, genuuid'⟩ true device.name info info.reqs cooked 0)
      (eventTags tags info.tags device.tags)
    have hcongr := event_congr timenow device.name info (genuuid 0) (genuuid' 0)
      (readings libs ⟨timenow, genuuid⟩ false device.name info info.reqs cooked 0)
      (readings libs ⟨timenow, genuuid'⟩ true device.name info info.reqs cooked 0)
      (eventTags tags info.tags device.tags) rfl
      (readings_filled libs timenow genuuid genuuid' device.name info hhead info.reqs cooked 0)
    simp only [Option.map_some, Event.filled, Event.withoutIds, eventValue_eq, onEntries,
      mapMember_request, hcongr]

/-- A request for a text, with the text that it must be where there is one. -/
def textRequest (name assertion : String) : CmdReq where
  req :=
    { resource := { name, attrs := none, tags := none, type := .scalar .string }
      mask := none }
  pval := { type := .scalar .string, assertion }
  map := none
  dfl := none

/-- A command with two resources, the second of which asserts its value. -/
def climateCommand : CmdInfo where
  name := "Climate"
  profile := "Room"
  isget := true
  reqs := [textRequest "Temperature" "", textRequest "Window" "closed"]

/-- A device, and its answers: one with a time of its own, one without. -/
def climateDevice : Device Unit := { name := "kitchen", profile := () }

def climateValues (i : ℕ) : CommandResult :=
  if i = 0 then { origin := 3, value := .string "21" } else { value := .string "closed" }

/-- Both events are built, with two readings, and they say the same. -/
theorem reduced_filled_climate :
    ((processEvent sampleLibs ⟨5, fun _ => "a"⟩ climateDevice climateCommand climateValues none
        false true).map Event.nrdgs = some 2) ∧
      (processEvent sampleLibs ⟨5, fun _ => "a"⟩ climateDevice climateCommand climateValues none
          false true).map (fun e => e.filled.withoutIds) =
        (processEvent sampleLibs ⟨5, fun _ => "b"⟩ climateDevice climateCommand climateValues none
          false false).map Event.withoutIds :=
  ⟨rfl, reduced_filled sampleLibs 5 (fun _ => "b") (fun _ => "a") climateDevice climateCommand
    climateValues none false⟩

end DeviceSdk
