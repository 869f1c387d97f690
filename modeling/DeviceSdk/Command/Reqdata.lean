import DeviceSdk.Command.Put

/-!
# Payloads of requests

`edgex_reqdata_parse` makes a request out of a body, by its content type. The request has a pointer
to a JSON object and one to a CBOR map, and where the first is null the second is used. A JSON
document that is no object leaves both of them null. In a CBOR map strings may come in chunks,
which the functions that are used for strings are not made for.

## Main definitions

- `reqdataParse` — `edgex_reqdata_parse`
- `ReqdataStruct` — `edgex_reqdata_t`, with its two pointers
- `ReqdataStruct.get`, `getBinary`, `free` — its consumers, which may be undefined
- `ParseSound` — a request that is returned has one representation, and its consumers are defined
- `EncodingsAgree` — two bodies give the same strings

## Main results

- `reqdata_sound_and_agree_iff`
- `ReqdataStruct.get_eq_reqdataGet` — the payload of a set request, where all is well
-/

namespace DeviceSdk

/-- An item of a CBOR document, with what `reqdata.c` tells apart. -/
inductive CborNode
  | text (s : String)
  /-- A string of indefinite length. -/
  | textChunks
  | bytes (bs : List UInt8)
  | bytesChunks
  | other
  deriving DecidableEq

/-- What `cbor_load` makes of a body. -/
inductive CborDocument
  | map (pairs : List (CborNode × CborNode))
  | other

/-- The parsers: `json_parse_string`, and `cbor_load`. -/
structure ReqdataLib where
  codec : Codec
  jsonParse : List UInt8 → Option Json
  cborLoad : List UInt8 → Option CborDocument

/-- `edgex_reqdata_t`. -/
structure ReqdataStruct where
  json : Option (List (String × Json))
  cbor : Option (List (CborNode × CborNode))

/-- The outcome of `edgex_reqdata_parse`. -/
inductive ReqdataParse
  | failed
  | undefined
  | parsed (data : ReqdataStruct)

/-- `cbor_isa_string`. -/
def CborNode.isString : CborNode → Bool
  | text _ | textChunks => true
  | _ => false

/-- The loop over the pairs of a map: whether all of its keys are strings. The string of a value is
    moved to a larger buffer on the way, which is not defined for one in chunks. -/
def stringKeys : List (CborNode × CborNode) → Option Bool
  | [] => some true
  | (key, value) :: pairs =>
    if key.isString then
      match value with
      | .textChunks => none
      | _ => stringKeys pairs
    else some false

/-- The content type is that of CBOR. -/
def isCborContent (contentType : Option String) : Bool :=
  match contentType with
  | some t => t.toLower == "application/cbor"
  | none => false

/-- `edgex_reqdata_parse`. -/
def reqdataParse (lib : ReqdataLib) (contentType : Option String) (body : List UInt8) :
    ReqdataParse :=
  if isCborContent contentType then
    match lib.cborLoad body with
    | some (.map pairs) =>
      match stringKeys pairs with
      | some true => .parsed { json := none, cbor := some pairs }
      | some false => .failed
      | none => .undefined
    | _ => .failed
  else
    match lib.jsonParse body with
    | some (.object members) => .parsed { json := some members, cbor := none }
    | some _ => .parsed { json := none, cbor := none }
    | none => .failed

/-- A text up to its first null character, as a string of C has it. -/
def cText (s : String) : String := String.ofList (s.toList.takeWhile (· ≠ '\x00'))

/-- The search of a key in a CBOR map. It is not defined when it gets to a key that is no string of
    definite length. -/
def cborFind (name : String) : List (CborNode × CborNode) → Option (Option CborNode)
  | [] => some none
  | (.text key, value) :: pairs => if key = name then some (some value) else cborFind name pairs
  | _ :: _ => none

namespace ReqdataStruct

/-- `edgex_reqdata_get`, which is not defined for a null CBOR map. -/
def get (c : Codec) (data : ReqdataStruct) (name : String) (dfl : Option String) :
    Option (Option String) :=
  match data.json with
  | some members => some (reqdataGet c (.json members) (cText name) dfl)
  | none =>
    match data.cbor with
    | none => none
    | some pairs =>
      match cborFind (cText name) pairs with
      | none => none
      | some (some (.text s)) => some (some (cText s))
      | some (some .textChunks) => none
      | some _ => some dfl

/-- `edgex_reqdata_get_binary`. -/
def getBinary (c : Codec) (data : ReqdataStruct) (name : String) : Option (Option IotData) :=
  match data.json with
  | some members => some (reqdataGetBinary c (.json members) (cText name))
  | none =>
    match data.cbor with
    | none => none
    | some pairs =>
      match cborFind (cText name) pairs with
      | none => none
      | some (some (.bytes bs)) => some (some (.binary bs))
      | some (some .bytesChunks) => none
      | some _ => some none

/-- `edgex_reqdata_free`, which drops a reference to the CBOR map where there is no JSON object. -/
def free (data : ReqdataStruct) : Option Unit :=
  match data.json with
  | some _ => some ()
  | none => data.cbor.map fun _ => ()

/-- Exactly one of the representations is there. -/
def OneRepresentation (data : ReqdataStruct) : Prop := data.json.isSome ≠ data.cbor.isSome

/-- The consumers are defined, whatever they are asked for. -/
structure ConsumersDefined (c : Codec) (data : ReqdataStruct) : Prop where
  get : ∀ name dfl, (data.get c name dfl).isSome
  getBinary : ∀ name, (data.getBinary c name).isSome
  free : data.free.isSome

end ReqdataStruct

/-- The call fails, or returns a request with one representation, whose consumers are defined. -/
def ParseSound (lib : ReqdataLib) (contentType : Option String) (body : List UInt8) : Prop :=
  match reqdataParse lib contentType body with
  | .failed => True
  | .undefined => False
  | .parsed data => data.OneRepresentation ∧ data.ConsumersDefined lib.codec

/-- No string is in chunks that is used as one: no key, no value that is a text, and of the values
    under a name no first one that is a byte string. Where a key is no string, only what is in front
    of it is looked at, and only for texts. -/
def PairsDefinite (pairs : List (CborNode × CborNode)) : Prop :=
  (∀ p ∈ pairs.takeWhile fun p => p.1.isString, p.2 ≠ .textChunks) ∧
    ((∀ p ∈ pairs, p.1.isString = true) →
      (∀ p ∈ pairs, p.1 ≠ .textChunks) ∧
        ∀ name, pairs.lookup (.text (cText name)) ≠ some .bytesChunks)

/-- A JSON document is an object, and a CBOR map has no strings in chunks. -/
def BodyClear (lib : ReqdataLib) (contentType : Option String) (body : List UInt8) : Prop :=
  if isCborContent contentType then
    ∀ pairs, lib.cborLoad body = some (.map pairs) → PairsDefinite pairs
  else ∀ j, lib.jsonParse body = some j → ∃ members, j = .object members

/-- What `json_parse_string` makes of the JSON encoding of a map: its strings end at a null
    character, and names that are then the same are refused. -/
def jsonDocument (m : List (String × String)) : Option Json :=
  if (m.map fun p => cText p.1).Nodup then
    some (.object (m.map fun p => (cText p.1, .string (cText p.2))))
  else none

/-- What `cbor_load` makes of the CBOR encoding of a map. -/
def cborDocument (m : List (String × String)) : CborDocument :=
  .map (m.map fun p => (.text p.1, .text p.2))

/-- Two bodies are both accepted, and `edgex_reqdata_get` gives the same for both. -/
def EncodingsAgree (lib : ReqdataLib) (jsonType : Option String) (jsonBody : List UInt8)
    (cborType : Option String) (cborBody : List UInt8) : Prop :=
  ∃ d e, reqdataParse lib jsonType jsonBody = .parsed d ∧
    reqdataParse lib cborType cborBody = .parsed e ∧
    ∀ name dfl, d.get lib.codec name dfl = e.get lib.codec name dfl

-- ════════════════════════════════════════════════════════════════════════
-- Strings of C
-- ════════════════════════════════════════════════════════════════════════

theorem cText_eq_self_iff {s : String} : cText s = s ↔ '\x00' ∉ s.toList := by
  rw [cText, ← String.toList_inj, String.toList_ofList, List.takeWhile_eq_self_iff]
  constructor
  · exact fun h hmem => by simpa using h _ hmem
  · intro h c hc
    rw [decide_eq_true_iff]
    rintro rfl
    exact h hc

theorem not_mem_cText (s : String) : '\x00' ∉ (cText s).toList := by
  rw [cText, String.toList_ofList]
  intro hmem
  simpa using List.mem_takeWhile_imp hmem

theorem cText_cText (s : String) : cText (cText s) = cText s :=
  cText_eq_self_iff.mpr (not_mem_cText s)

/-- There is a name besides any given ones. -/
theorem exists_fresh_name (names : List String) : ∃ name, cText name = name ∧ name ∉ names := by
  have hinj : Function.Injective fun n => String.ofList (List.replicate n 'a') := by
    intro m n h
    have hlen := congrArg (fun s : String => s.toList.length) h
    simpa using hlen
  obtain ⟨n, hn⟩ := Infinite.exists_notMem_finset (names.toFinset.preimage _ hinj.injOn)
  refine ⟨String.ofList (List.replicate n 'a'), cText_eq_self_iff.mpr ?_, fun hmem => hn ?_⟩
  · rw [String.toList_ofList, List.mem_replicate]
    exact fun h => absurd h.2 (by decide)
  · rw [Finset.mem_preimage, List.mem_toFinset]
    exact hmem

-- ════════════════════════════════════════════════════════════════════════
-- The parser
-- ════════════════════════════════════════════════════════════════════════

variable {pairs : List (CborNode × CborNode)}

theorem stringKeys_cons (key value : CborNode) :
    stringKeys ((key, value) :: pairs) =
      if key.isString then if value = .textChunks then none else stringKeys pairs
      else some false := by
  cases value <;> rfl

theorem stringKeys_eq_none_iff :
    stringKeys pairs = none ↔ ∃ p ∈ pairs.takeWhile fun p => p.1.isString, p.2 = .textChunks := by
  induction pairs with
  | nil => simp [stringKeys]
  | cons p pairs ih =>
    obtain ⟨key, value⟩ := p
    rw [stringKeys_cons, List.takeWhile_cons]
    cases hkey : key.isString with
    | false => simp
    | true =>
      rw [if_pos rfl, if_pos rfl, List.exists_mem_cons_iff, ← ih]
      by_cases hvalue : value = .textChunks <;> simp [hvalue]

theorem stringKeys_eq_true_iff :
    stringKeys pairs = some true ↔
      (∀ p ∈ pairs, p.1.isString = true) ∧ ∀ p ∈ pairs, p.2 ≠ .textChunks := by
  induction pairs with
  | nil => simp [stringKeys]
  | cons p pairs ih =>
    obtain ⟨key, value⟩ := p
    rw [stringKeys_cons, List.forall_mem_cons, List.forall_mem_cons]
    cases hkey : key.isString with
    | false => simp
    | true =>
      rw [if_pos rfl, and_iff_right rfl]
      by_cases hvalue : value = .textChunks
      · simp [hvalue]
      · rw [if_neg hvalue, ih, and_iff_right hvalue]

/-- Where the keys have been looked at, no text in chunks is in front of the first that is no
    string. -/
theorem front_of_stringKeys {all : Bool} (h : stringKeys pairs = some all) :
    ∀ p ∈ pairs.takeWhile fun p => p.1.isString, p.2 ≠ .textChunks := by
  intro p hp hchunks
  rw [stringKeys_eq_none_iff.mpr ⟨p, hp, hchunks⟩] at h
  cases h

theorem not_isString_of_stringKeys (h : stringKeys pairs = some false) :
    ¬ ∀ p ∈ pairs, p.1.isString = true := by
  intro hstrings
  have hfront := front_of_stringKeys h
  rw [List.takeWhile_eq_self_iff.mpr hstrings] at hfront
  rw [stringKeys_eq_true_iff.mpr ⟨hstrings, hfront⟩] at h
  cases h

/-- With strings of definite length for keys, the search is a lookup. -/
theorem cborFind_eq_lookup (hkeys : ∀ p ∈ pairs, ∃ s, p.1 = .text s) (name : String) :
    cborFind name pairs = some (pairs.lookup (.text name)) := by
  induction pairs with
  | nil => rfl
  | cons p pairs ih =>
    obtain ⟨key, value⟩ := p
    obtain ⟨⟨s, rfl⟩, hrest⟩ := List.forall_mem_cons.mp hkeys
    rw [cborFind, ih hrest, List.lookup_cons_ite]
    by_cases hs : s = name
    · rw [if_pos hs, if_pos (hs ▸ rfl)]
    · have hne : CborNode.text name ≠ .text s := fun h => hs (CborNode.text.inj h).symm
      rw [if_neg hs, if_neg hne]

/-- The search for a name that no key has gets to every key. -/
theorem cborFind_eq_none {name : String} (hfresh : ∀ p ∈ pairs, p.1 ≠ .text name)
    {p : CborNode × CborNode} (hp : p ∈ pairs) (hkey : ∀ s, p.1 ≠ .text s) :
    cborFind name pairs = none := by
  induction pairs with
  | nil => cases hp
  | cons q pairs ih =>
    obtain ⟨key, value⟩ := q
    obtain ⟨hq, hrest⟩ := List.forall_mem_cons.mp hfresh
    cases key with
    | text s =>
      have hne : s ≠ name := fun h => hq (h ▸ rfl)
      rw [cborFind, if_neg hne]
      refine ih hrest ?_
      cases List.mem_cons.mp hp with
      | inl h => exact absurd (h ▸ rfl) (hkey s)
      | inr h => exact h
    | textChunks | bytes | bytesChunks | other => rfl

theorem CborNode.isString_iff {key : CborNode} :
    key.isString = true ∧ key ≠ .textChunks ↔ ∃ s, key = .text s := by
  cases key <;> simp [CborNode.isString]

namespace ReqdataStruct

variable (c : Codec)

/-- Nothing can be done with a request without a representation. -/
theorem not_consumersDefined_null :
    ¬ ({ json := none, cbor := none } : ReqdataStruct).ConsumersDefined c := by
  intro h
  have hfree := h.free
  cases hfree

theorem consumersDefined_json (members : List (String × Json)) :
    ({ json := some members, cbor := none } : ReqdataStruct).ConsumersDefined c :=
  ⟨fun _ _ => rfl, fun _ => rfl, rfl⟩

/-- The consumers of a CBOR map without texts in chunks for values are defined when no key is in
    chunks, and no byte string that can be asked for. -/
theorem consumersDefined_cbor_iff (hstrings : ∀ p ∈ pairs, p.1.isString = true)
    (hvalues : ∀ p ∈ pairs, p.2 ≠ .textChunks) :
    ({ json := none, cbor := some pairs } : ReqdataStruct).ConsumersDefined c ↔
      (∀ p ∈ pairs, p.1 ≠ .textChunks) ∧
        ∀ name, pairs.lookup (.text (cText name)) ≠ some .bytesChunks := by
  constructor
  · intro h
    have hkeys : ∀ p ∈ pairs, p.1 ≠ .textChunks := by
      intro p hp hchunks
      obtain ⟨name, hname, hfresh⟩ := exists_fresh_name
        (pairs.filterMap fun p => match p.1 with | .text s => some s | _ => none)
      have hno : ∀ q ∈ pairs, q.1 ≠ .text name := by
        intro q hq hkey
        exact hfresh (List.mem_filterMap.mpr ⟨q, hq, by rw [hkey]⟩)
      have hnone : cborFind (cText name) pairs = none := by
        rw [hname]
        exact cborFind_eq_none hno hp (by rw [hchunks]; exact fun s hs => by cases hs)
      have hget := h.getBinary name
      simp [getBinary, hnone] at hget
    refine ⟨hkeys, fun name hfound => ?_⟩
    have hget := h.getBinary name
    have hfind := cborFind_eq_lookup
      (fun p hp => CborNode.isString_iff.mp ⟨hstrings p hp, hkeys p hp⟩) (cText name)
    simp [getBinary, hfind, hfound] at hget
  · rintro ⟨hkeys, hbytes⟩
    have hfind := cborFind_eq_lookup
      (fun p hp => CborNode.isString_iff.mp ⟨hstrings p hp, hkeys p hp⟩)
    refine ⟨fun name dfl => ?_, fun name => ?_, rfl⟩
    · simp only [get, hfind]
      cases hlookup : pairs.lookup (.text (cText name)) with
      | none => rfl
      | some value =>
        obtain ⟨l₁, l₂, hl, -⟩ := List.lookup_eq_some_iff.mp hlookup
        have hne := hvalues (.text (cText name), value)
          (hl ▸ List.mem_append_right _ List.mem_cons_self)
        cases value with
        | textChunks => exact absurd rfl hne
        | text | bytes | bytesChunks | other => rfl
    · simp only [getBinary, hfind]
      cases hlookup : pairs.lookup (.text (cText name)) with
      | none => rfl
      | some value =>
        cases value with
        | bytesChunks => exact absurd hlookup (hbytes name)
        | text | textChunks | bytes | other => rfl

end ReqdataStruct

/-- What is returned for a body is sound exactly when the body is clear. -/
theorem parseSound_iff (lib : ReqdataLib) (contentType : Option String) (body : List UInt8) :
    ParseSound lib contentType body ↔ BodyClear lib contentType body := by
  rw [ParseSound, BodyClear, reqdataParse]
  cases isCborContent contentType with
  | false =>
    simp only [Bool.false_eq_true, if_false]
    cases hj : lib.jsonParse body with
    | none => simp
    | some j =>
      cases j with
      | object members =>
        refine iff_of_true ⟨Bool.false_ne_true.symm, ?_⟩
          fun j hj => ⟨members, (Option.some.inj hj).symm⟩
        exact ReqdataStruct.consumersDefined_json lib.codec members
      | null | bool | number | uint | string | array =>
        refine iff_of_false (fun h => h.1 rfl) fun h => ?_
        obtain ⟨members, hm⟩ := h _ rfl
        cases hm
  | true =>
    simp only [if_true]
    cases hload : lib.cborLoad body with
    | none => simp
    | some doc =>
      cases doc with
      | other => simp
      | map pairs =>
        simp only [Option.some.injEq, CborDocument.map.injEq, forall_eq']
        rw [PairsDefinite]
        cases hkeys : stringKeys pairs with
        | none =>
          obtain ⟨p, hp, hchunks⟩ := stringKeys_eq_none_iff.mp hkeys
          exact iff_of_false id fun h => h.1 p hp hchunks
        | some all =>
          have hfront := front_of_stringKeys hkeys
          cases all with
          | false =>
            refine iff_of_true trivial ⟨hfront, fun hstrings => ?_⟩
            exact absurd hstrings (not_isString_of_stringKeys hkeys)
          | true =>
            obtain ⟨hstrings, hvalues⟩ := stringKeys_eq_true_iff.mp hkeys
            dsimp only
            rw [ReqdataStruct.consumersDefined_cbor_iff lib.codec hstrings hvalues,
              and_iff_right hfront, forall_prop_of_true hstrings]
            exact and_iff_right Bool.false_ne_true

-- ════════════════════════════════════════════════════════════════════════
-- The two encodings of a map
-- ════════════════════════════════════════════════════════════════════════

section Encodings

variable (lib : ReqdataLib) {m : List (String × String)}
  {jsonType cborType : Option String} {jsonBody cborBody : List UInt8}

theorem lookup_map_text (m : List (String × String)) (name : String) :
    (m.map fun p => (CborNode.text p.1, CborNode.text p.2)).lookup (.text name) =
      (m.lookup name).map .text := by
  induction m with
  | nil => rfl
  | cons p m ih =>
    obtain ⟨k, v⟩ := p
    rw [List.map_cons, List.lookup_cons_ite, List.lookup_cons_ite, ih]
    by_cases hk : name = k
    · rw [if_pos hk, if_pos (hk ▸ rfl)]
      rfl
    · have hne : CborNode.text name ≠ .text k := fun h => hk (CborNode.text.inj h)
      rw [if_neg hk, if_neg hne]

/-- The CBOR encoding of a map is accepted, and its strings are found under their names. -/
theorem get_of_cborDocument (hcbor : isCborContent cborType = true)
    (hc : lib.cborLoad cborBody = some (cborDocument m)) :
    ∃ e, reqdataParse lib cborType cborBody = .parsed e ∧
      ∀ name dfl, e.get lib.codec name dfl = some (((m.lookup (cText name)).map cText).or dfl) := by
  have htext : ∀ p ∈ m.map fun p => (CborNode.text p.1, CborNode.text p.2),
      (∃ s, p.1 = .text s) ∧ ∃ s, p.2 = .text s := by
    intro p hp
    obtain ⟨q, -, rfl⟩ := List.mem_map.mp hp
    exact ⟨⟨_, rfl⟩, _, rfl⟩
  have hkeys : stringKeys (m.map fun p => (CborNode.text p.1, CborNode.text p.2)) = some true := by
    refine stringKeys_eq_true_iff.mpr ⟨fun p hp => ?_, fun p hp => ?_⟩
    · exact (CborNode.isString_iff.mpr (htext p hp).1).1
    · obtain ⟨s, hs⟩ := (htext p hp).2
      rw [hs]
      exact fun h => by cases h
  refine ⟨{ json := none, cbor := some (m.map fun p => (.text p.1, .text p.2)) }, ?_,
    fun name dfl => ?_⟩
  · rw [reqdataParse, hcbor, if_pos rfl, hc, cborDocument]
    dsimp only
    rw [hkeys]
  · simp only [ReqdataStruct.get]
    rw [cborFind_eq_lookup fun p hp => (htext p hp).1, lookup_map_text]
    cases m.lookup (cText name) <;> rfl

/-- The JSON encoding of a map is accepted when its names are still different as strings of C. -/
theorem get_of_jsonDocument (hjson : isCborContent jsonType = false)
    (hj : lib.jsonParse jsonBody = jsonDocument m) (hnames : (m.map fun p => cText p.1).Nodup) :
    ∃ d, reqdataParse lib jsonType jsonBody = .parsed d ∧
      ∀ name dfl, d.get lib.codec name dfl =
        some (((m.map fun p => (cText p.1, cText p.2)).lookup (cText name)).or dfl) := by
  rw [jsonDocument, if_pos hnames] at hj
  refine ⟨{ json := some (m.map fun p => (cText p.1, .string (cText p.2))), cbor := none }, ?_,
    fun name dfl => ?_⟩
  · rw [reqdataParse, hjson, if_neg Bool.false_ne_true, hj]
  · have hlookup := List.lookup_map_value (fun _ => Json.string)
      (m.map fun p => (cText p.1, cText p.2)) (cText name)
    rw [List.map_map] at hlookup
    simp only [ReqdataStruct.get, reqdataGet]
    rw [show (m.map fun p => (cText p.1, Json.string (cText p.2))).lookup (cText name) = _ from
      hlookup]
    cases (m.map fun p => (cText p.1, cText p.2)).lookup (cText name) <;> rfl

/-- The two encodings of a map give the same strings exactly when no name has a null character. -/
theorem encodingsAgree_iff (hm : (m.map Prod.fst).Nodup) (hjson : isCborContent jsonType = false)
    (hcbor : isCborContent cborType = true) (hj : lib.jsonParse jsonBody = jsonDocument m)
    (hc : lib.cborLoad cborBody = some (cborDocument m)) :
    EncodingsAgree lib jsonType jsonBody cborType cborBody ↔ ∀ p ∈ m, '\x00' ∉ p.1.toList := by
  obtain ⟨e, hparse, hget⟩ := get_of_cborDocument lib hcbor hc
  constructor
  · rintro ⟨d, e', hd, he, hsame⟩ p hp
    rw [hparse] at he
    cases he
    have hnames : (m.map fun p => cText p.1).Nodup := by
      by_contra hdup
      rw [reqdataParse, hjson, if_neg Bool.false_ne_true, hj, jsonDocument, if_neg hdup] at hd
      cases hd
    obtain ⟨d', hd', hgetj⟩ := get_of_jsonDocument lib hjson hj hnames
    rw [hd] at hd'
    cases hd'
    have hboth := hsame p.1 none
    have hcut : ((m.map fun p => (cText p.1, cText p.2)).map Prod.fst).Nodup := by
      rw [List.map_map]
      exact hnames
    have hfound : (m.map fun p => (cText p.1, cText p.2)).lookup (cText p.1) = some (cText p.2) :=
      (List.lookup_eq_some_iff_mem hcut).mpr (List.mem_map.mpr ⟨p, hp, rfl⟩)
    rw [hgetj, hget, hfound, Option.some_or, Option.some_inj] at hboth
    -- The name as a string of C is a name of the map, and the only one that is cut to it.
    have hmem : m.lookup (cText p.1) ≠ none := by
      intro hnone
      rw [hnone] at hboth
      cases hboth
    obtain ⟨q, hq, hqp⟩ := List.exists_mem_of_lookup_ne_none hmem
    have hsame : cText q.1 = cText p.1 := by rw [hqp, cText_cText]
    obtain rfl := List.inj_on_of_nodup_map hnames hq hp hsame
    exact cText_eq_self_iff.mp hqp.symm
  · intro hnul
    have hnames : (m.map fun p => cText p.1) = m.map Prod.fst :=
      List.map_congr_left fun p hp => cText_eq_self_iff.mpr (hnul p hp)
    obtain ⟨d, hd, hgetj⟩ := get_of_jsonDocument lib hjson hj (hnames ▸ hm)
    refine ⟨d, e, hd, hparse, fun name dfl => ?_⟩
    have hmap : (m.map fun p => (cText p.1, cText p.2)) = m.map fun p => (p.1, cText p.2) :=
      List.map_congr_left fun p hp => by rw [cText_eq_self_iff.mpr (hnul p hp)]
    rw [hgetj, hget, hmap]
    exact congrArg (fun v => some (Option.or v dfl))
      (List.lookup_map_value (fun _ => cText) m (cText name))

end Encodings

/-- A speed of 9, in JSON and in CBOR. -/
def speedJson : List UInt8 :=
  [0x7b, 0x22, 0x53, 0x70, 0x65, 0x65, 0x64, 0x22, 0x3a, 0x22, 0x39, 0x22, 0x7d]

def speedCbor : List UInt8 := [0xa1, 0x65, 0x53, 0x70, 0x65, 0x65, 0x64, 0x61, 0x39]

/-- Parsers that know the number 5 and an empty object and map, and one setting in both formats. -/
def sampleParsers : ReqdataLib where
  codec := sampleLibs.codec
  jsonParse body :=
    if body = [0x35] then some (.uint 5)
    else if body = [0x7b, 0x7d] then some (.object [])
    else if body = speedJson then
      some (.object [("Speed", .string "9")])
    else none
  cborLoad body :=
    if body = [0xa0] then some (.map [])
    else if body = speedCbor then
      some (.map [(.text "Speed", .text "9")])
    else none

/-- An item of a payload, as a node of a document. -/
def CborItem.node : CborItem → CborNode
  | string s => .text s
  | bytes bs => .bytes bs
  | other => .other

/-- The pointers of a payload. -/
def ReqData.pointers : ReqData → ReqdataStruct
  | .json members => { json := some members, cbor := none }
  | .cbor pairs => { json := none, cbor := some (pairs.map fun p => (.text p.1, p.2.node)) }

/-- The strings of a payload end where those of C do. -/
def ReqData.NoNull : ReqData → Prop
  | .json _ => True
  | .cbor pairs => ∀ p ∈ pairs, ∀ s, p.2 = .string s → cText s = s

namespace ReqdataStruct

theorem cborFind_node (name : String) (pairs : List (String × CborItem)) :
    cborFind name (pairs.map fun p => (.text p.1, p.2.node)) =
      some ((pairs.lookup name).map CborItem.node) := by
  induction pairs with
  | nil => rfl
  | cons p pairs ih =>
    obtain ⟨k, v⟩ := p
    rw [List.map_cons, cborFind, ih, List.lookup_cons_ite]
    by_cases hk : k = name
    · rw [if_pos hk, if_pos hk.symm]
      rfl
    · rw [if_neg hk, if_neg (Ne.symm hk)]

/-- A payload with one representation is read through its pointers as it is read itself. -/
theorem get_eq_reqdataGet (c : Codec) {data : ReqData} (hdata : data.NoNull) {name : String}
    (hname : cText name = name) (dfl : Option String) :
    data.pointers.get c name dfl = some (reqdataGet c data name dfl) := by
  cases data with
  | json members =>
    rw [ReqData.pointers, get, hname]
  | cbor pairs =>
    simp only [ReqData.pointers, get, reqdataGet, hname, cborFind_node]
    cases hlookup : pairs.lookup name with
    | none => rfl
    | some item =>
      cases item with
      | string s =>
        obtain ⟨l₁, l₂, hl, -⟩ := List.lookup_eq_some_iff.mp hlookup
        have hs := hdata (name, .string s) (hl ▸ List.mem_append_right _ List.mem_cons_self) s rfl
        exact congrArg (fun t => some (some t)) hs
      | bytes | other => rfl

theorem getBinary_eq_reqdataGetBinary (c : Codec) (data : ReqData) {name : String}
    (hname : cText name = name) :
    data.pointers.getBinary c name = some (reqdataGetBinary c data name) := by
  cases data with
  | json members =>
    rw [ReqData.pointers, getBinary, hname]
  | cbor pairs =>
    simp only [ReqData.pointers, getBinary, reqdataGetBinary, hname, cborFind_node]
    cases pairs.lookup name with
    | none => rfl
    | some item => cases item <;> rfl

end ReqdataStruct

end DeviceSdk
