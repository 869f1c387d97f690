import DeviceSdk.Command.Put

/-!
# The values of a request object

A set request brings an object of JSON values, one for each resource by name. What a value
comes to depends on the path. Over REST a value that is not a string is taken as its JSON text,
and a binary resource takes the bytes that a string encodes, without a default. On the bus only
strings are taken, and the default stands in for everything else.

## Main definitions

- `Takes` — a text is accepted as a value of a resource
- `RestValue`, `BusValue` — the value that the object gives a resource, on either path
- `AllGiven`, `StoppedUnwritable` — what the loops over the resources come to

## Main results

- `convertAll2_ok_iff_given`, `convertAll3_none_iff_given` — when a loop accepts all values
- `convertAll2_unwritable_iff`, `convertAll3_unwritable_iff` — when it is refused as a write of
  what cannot be written
-/

namespace DeviceSdk

variable (sdk : Sdk) (object : List (String × Json))

/-- A text is accepted as the value `v` of a resource: it parses, passes the checks that are
    configured, and is transformed to `v`. -/
def Takes (r : CmdReq) (text : String) (v : IotData) : Prop :=
  ∃ parsed, populateValue sdk.libs.codec r.pval.type text = some parsed ∧ ArrivesAs sdk r parsed v

/-- The object gives a resource the value `v` over REST. -/
inductive RestValue (r : CmdReq) : IotData → Prop
  | bytes {b64 : String} {bs : List UInt8} (binary : r.pval.type.type = .binary)
      (member : (r.req.resource.name, .string b64) ∈ object)
      (decodes : sdk.libs.codec.fromBase64 b64 = some bs) : RestValue r (.binary bs)
  | string {s : String} {v : IotData} (other : r.pval.type.type ≠ .binary)
      (member : (r.req.resource.name, .string s) ∈ object) (takes : Takes sdk r s v) :
      RestValue r v
  | json {x : Json} {v : IotData} (other : r.pval.type.type ≠ .binary)
      (member : (r.req.resource.name, x) ∈ object) (notString : ∀ s, x ≠ .string s)
      (takes : Takes sdk r (sdk.libs.codec.serialize x) v) : RestValue r v
  | default {t : String} {v : IotData} (other : r.pval.type.type ≠ .binary)
      (absent : r.req.resource.name ∉ object.map Prod.fst) (dfl : r.dfl = some t)
      (takes : Takes sdk r t v) : RestValue r v

/-- The object gives a resource the value `v` on the bus. -/
inductive BusValue (r : CmdReq) : IotData → Prop
  | string {s : String} {v : IotData} (member : (r.req.resource.name, .string s) ∈ object)
      (takes : Takes sdk r s v) : BusValue r v
  | default {t : String} {v : IotData} (absent : ∀ s, (r.req.resource.name, .string s) ∉ object)
      (dfl : r.dfl = some t) (takes : Takes sdk r t v) : BusValue r v

/-- All resources can be written, and are given a value. -/
def AllGiven (given : CmdReq → IotData → Prop) (reqs : List CmdReq) : Prop :=
  ∀ r ∈ reqs, r.pval.writable = true ∧ ∃ v, given r v

/-- The resources cannot all be written, and those before the first that cannot are passed. -/
def StoppedUnwritable (passed : CmdReq → Prop) (reqs : List CmdReq) : Prop :=
  ∃ before r after, reqs = before ++ r :: after ∧ r.pval.writable = false ∧
    ∀ q ∈ before, q.pval.writable = true ∧ passed q

theorem stoppedUnwritable_nil (passed : CmdReq → Prop) : ¬ StoppedUnwritable passed [] := by
  rintro ⟨before, r, after, he, -⟩
  simp at he

theorem stoppedUnwritable_cons (passed : CmdReq → Prop) (r : CmdReq) (rs : List CmdReq) :
    StoppedUnwritable passed (r :: rs) ↔
      r.pval.writable = false ∨
        (r.pval.writable = true ∧ passed r) ∧ StoppedUnwritable passed rs := by
  constructor
  · rintro ⟨before, u, after, he, hu, hbefore⟩
    cases before with
    | nil =>
      obtain ⟨rfl, -⟩ := List.cons.inj he
      exact Or.inl hu
    | cons q before =>
      obtain ⟨rfl, rfl⟩ := List.cons.inj he
      exact Or.inr ⟨hbefore r List.mem_cons_self, before, u, after, rfl, hu,
        fun q hq => hbefore q (List.mem_cons_of_mem _ hq)⟩
  · rintro (hw | ⟨hr, before, u, after, rfl, hu, hbefore⟩)
    · exact ⟨[], r, rs, rfl, hw, by simp⟩
    · refine ⟨r :: before, u, after, rfl, hu, fun q hq => ?_⟩
      rcases List.mem_cons.mp hq with rfl | hq
      · exact hr
      · exact hbefore q hq

/-- The values of a loop in which every turn succeeds. -/
theorem map_toOption_iff {convert : CmdReq → Except PutFailure IotData} {reqs : List CmdReq}
    {values : List IotData} :
    (reqs.map fun r => (convert r).toOption) = values.map some ↔
      List.Forall₂ (fun r v => convert r = .ok v) reqs values := by
  have hok : ∀ r v, (convert r).toOption = some v ↔ convert r = .ok v := by
    intro r v
    cases convert r <;> simp [Except.toOption]
  rw [← List.forall₂_eq_eq_eq, List.forall₂_map_left_iff, List.forall₂_map_right_iff]
  simp only [hok]

/-- Every turn succeeds where each has its value. -/
theorem exists_of_forall₂ {α β : Type} {R : α → β → Prop} {l : List α} {vs : List β}
    (h : List.Forall₂ R l vs) : ∀ a ∈ l, ∃ v, R a v := by
  induction h with
  | nil => simp
  | cons hab _ ih =>
    intro a ha
    rcases List.mem_cons.mp ha with rfl | ha
    · exact ⟨_, hab⟩
    · exact ih a ha

/-- A text is not turned down as a write of what cannot be written. -/
theorem acceptText_error {r : CmdReq} {text : String} {f : PutFailure}
    (h : acceptText sdk r text = .error f) : f.code = httpBadRequest := by
  unfold acceptText at h
  split at h
  · obtain rfl := Except.error.inj h
    rfl
  · split at h
    · split at h
      · split at h
        · cases h
        · obtain rfl := Except.error.inj h
          rfl
      · obtain rfl := Except.error.inj h
        rfl
    · cases h

/-- How a turn of the REST loop fails. -/
theorem convert2_error_cases {rdata : ReqData} {r : CmdReq} {f : PutFailure}
    (h : convert2 sdk rdata r = .error f) :
    (r.pval.writable = false ∧ f = .unwritable) ∨
      (r.pval.writable = true ∧ f.code = httpBadRequest ∧
        (r.pval.type.type = .binary → f = .absent)) := by
  rw [convert2] at h
  cases hw : r.pval.writable with
  | false =>
    rw [hw] at h
    exact Or.inl ⟨rfl, (Except.error.inj h).symm⟩
  | true =>
    refine Or.inr ⟨rfl, ?_⟩
    rw [hw, if_neg (by decide)] at h
    split at h
    · split at h
      · cases h
      · obtain rfl := Except.error.inj h
        exact ⟨rfl, fun _ => rfl⟩
    · next hb =>
      refine ⟨?_, fun hbinary => absurd hbinary hb⟩
      split at h
      · exact acceptText_error sdk h
      · obtain rfl := Except.error.inj h
        rfl

/-- How a turn of the bus loop fails. -/
theorem convert3_error_cases {request : Option IotData} {r : CmdReq} {f : PutFailure}
    (h : convert3 sdk request r = .error f) :
    (r.pval.writable = false ∧ f = .unwritable) ∨
      (r.pval.writable = true ∧ f.code = httpBadRequest) := by
  rw [convert3] at h
  cases hw : r.pval.writable with
  | false =>
    rw [hw] at h
    exact Or.inl ⟨rfl, (Except.error.inj h).symm⟩
  | true =>
    refine Or.inr ⟨rfl, ?_⟩
    rw [hw, if_neg (by decide)] at h
    split at h
    · exact acceptText_error sdk h
    · obtain rfl := Except.error.inj h
      rfl

section Values

variable {sdk object}

/-- Only a string decodes as a string. -/
theorem Json.toIot_eq_string_iff (c : Codec) (x : Json) (s : String) :
    x.toIot c = .string s ↔ x = .string s := by
  cases x with
  | number q =>
    rw [Json.toIot]
    cases c.number q <;> simp
  | uint n =>
    rw [Json.toIot]
    cases c.number (.finite n) <;> simp
  | _ => simp [Json.toIot]

variable (hnodup : (object.map Prod.fst).Nodup)
include hnodup

/-- A member of an object, or none. -/
theorem member_cases (name : String) :
    (∃ x, (name, x) ∈ object ∧ object.lookup name = some x) ∨
      (name ∉ object.map Prod.fst ∧ object.lookup name = none) := by
  cases hx : object.lookup name with
  | some x => exact Or.inl ⟨x, (List.lookup_eq_some_iff_mem hnodup).mp hx, rfl⟩
  | none =>
    refine Or.inr ⟨fun hm => ?_, rfl⟩
    obtain ⟨e, he, rfl⟩ := List.mem_map.mp hm
    rw [(List.lookup_eq_some_iff_mem hnodup).mpr he] at hx
    cases hx

/-- Two members of one name are one. -/
theorem member_unique {name : String} {x y : Json} (hx : (name, x) ∈ object)
    (hy : (name, y) ∈ object) : x = y := by
  have hlookup := (List.lookup_eq_some_iff_mem hnodup).mpr hx
  rw [(List.lookup_eq_some_iff_mem hnodup).mpr hy] at hlookup
  exact (Option.some.inj hlookup).symm

/-- The text that REST finds for a resource: a string, the JSON text of another value, or the
    default. -/
theorem reqdataGet_eq_some_iff (c : Codec) (name : String) (dfl : Option String) (text : String) :
    reqdataGet c (.json object) name dfl = some text ↔
      (name, .string text) ∈ object ∨
      (∃ x, (name, x) ∈ object ∧ (∀ s, x ≠ .string s) ∧ c.serialize x = text) ∨
      (name ∉ object.map Prod.fst ∧ dfl = some text) := by
  rw [reqdataGet]
  rcases member_cases hnodup name with ⟨x, hm, hx⟩ | ⟨habsent, hx⟩
  · have hkey : name ∈ object.map Prod.fst := List.mem_map_of_mem hm
    have hone : ∀ y, (name, y) ∈ object ↔ y = x := fun y =>
      ⟨fun hy => member_unique hnodup hy hm, fun hy => hy ▸ hm⟩
    rw [hx]
    cases x with
    | _ => simp [hone, hkey, eq_comm]
  · have hnone : ∀ y, (name, y) ∉ object := fun y hy => habsent (List.mem_map_of_mem hy)
    rw [hx]
    simp [hnone]

/-- The text that the bus finds for a resource: a string, or the default. -/
theorem configStringDefault_eq_some_iff (c : Codec) (name : String) (dfl : Option String)
    (text : String) :
    configStringDefault (some ((Json.object object).toIot c)) name dfl = some text ↔
      (name, .string text) ∈ object ∨
      ((∀ s, (name, .string s) ∉ object) ∧ dfl = some text) := by
  have hstring : ∀ s, IotData.stringMapGetString (some ((Json.object object).toIot c)) name =
      some s ↔ (name, .string s) ∈ object := by
    intro s
    simp only [← List.lookup_eq_some_iff_mem hnodup, IotData.stringMapGetString,
      IotData.stringMapGet, Json.toIot, Json.lookup_toIotMembers]
    cases object.lookup name with
    | none => simp
    | some x =>
      have hx := Json.toIot_eq_string_iff c x
      constructor
      · intro h
        dsimp only [Option.map_some] at h
        split at h
        · next t ht =>
          obtain rfl := Option.some.inj h
          exact congrArg some ((hx _).mp (Option.some.inj ht))
        · cases h
      · intro h
        rw [Option.some.inj h]
        rfl
  rw [configStringDefault, Option.or_eq_some_iff, hstring, Option.eq_none_iff_forall_ne_some]
  simp only [ne_eq, hstring]

/-- A turn of the REST loop accepts what the object gives. -/
theorem convert2_eq_ok_iff_given (r : CmdReq) (v : IotData) :
    convert2 sdk (.json object) r = .ok v ↔
      r.pval.writable = true ∧ RestValue sdk object r v := by
  rw [convert2_eq_ok_iff]
  refine and_congr_right fun _ => ?_
  by_cases hb : r.pval.type.type = .binary
  · have hsource : ∀ parsed, ReadsAs sdk (source2 sdk (.json object)) r parsed ↔
        reqdataGetBinary sdk.libs.codec (.json object) r.req.resource.name = some parsed := by
      intro parsed
      simp [ReadsAs, source2, hb]
    simp only [hsource, arrivesAs_binary sdk hb, exists_eq_right']
    constructor
    · intro h
      rw [reqdataGetBinary] at h
      split at h
      · next b64 hx =>
        obtain ⟨bs, hbs, rfl⟩ := Option.map_eq_some_iff.mp h
        exact .bytes hb ((List.lookup_eq_some_iff_mem hnodup).mp hx) hbs
      · cases h
    · intro h
      cases h with
      | bytes _ hm hbs =>
        rw [reqdataGetBinary, (List.lookup_eq_some_iff_mem hnodup).mpr hm]
        exact congrArg (Option.map IotData.binary) hbs
      | string other => exact absurd hb other
      | json other => exact absurd hb other
      | default other => exact absurd hb other
  · have hsource : ∀ parsed, ReadsAs sdk (source2 sdk (.json object)) r parsed ↔
        ∃ text, reqdataGet sdk.libs.codec (.json object) r.req.resource.name r.dfl = some text ∧
          populateValue sdk.libs.codec r.pval.type text = some parsed := by
      intro parsed
      simp [ReadsAs, source2, hb]
    constructor
    · rintro ⟨parsed, hread, harrives⟩
      obtain ⟨text, htext, hparsed⟩ := (hsource parsed).mp hread
      rcases (reqdataGet_eq_some_iff hnodup _ _ _ _).mp htext with hm | ⟨x, hm, hx, rfl⟩ | ⟨ha, hd⟩
      · exact .string hb hm ⟨parsed, hparsed, harrives⟩
      · exact .json hb hm hx ⟨parsed, hparsed, harrives⟩
      · exact .default hb ha hd ⟨parsed, hparsed, harrives⟩
    · intro h
      have htext : ∃ text, reqdataGet sdk.libs.codec (.json object) r.req.resource.name r.dfl =
          some text ∧ Takes sdk r text v := by
        cases h with
        | bytes binary => exact absurd binary hb
        | string _ hm ht =>
          exact ⟨_, (reqdataGet_eq_some_iff hnodup _ _ _ _).mpr (Or.inl hm), ht⟩
        | json _ hm hx ht =>
          exact ⟨_, (reqdataGet_eq_some_iff hnodup _ _ _ _).mpr
            (Or.inr (Or.inl ⟨_, hm, hx, rfl⟩)), ht⟩
        | default _ ha hd ht =>
          exact ⟨_, (reqdataGet_eq_some_iff hnodup _ _ _ _).mpr (Or.inr (Or.inr ⟨ha, hd⟩)), ht⟩
      obtain ⟨text, hget, parsed, hparsed, harrives⟩ := htext
      exact ⟨parsed, (hsource parsed).mpr ⟨text, hget, hparsed⟩, harrives⟩

/-- A turn of the bus loop accepts what the object gives. -/
theorem convert3_eq_ok_iff_given (r : CmdReq) (v : IotData) :
    convert3 sdk (some ((Json.object object).toIot sdk.libs.codec)) r = .ok v ↔
      r.pval.writable = true ∧ BusValue sdk object r v := by
  rw [convert3_eq_ok_iff]
  refine and_congr_right fun _ => ?_
  have hsource : ∀ parsed,
      ReadsAs sdk (source3 (some ((Json.object object).toIot sdk.libs.codec))) r parsed ↔
        ∃ text, configStringDefault (some ((Json.object object).toIot sdk.libs.codec))
          r.req.resource.name r.dfl = some text ∧
            populateValue sdk.libs.codec r.pval.type text = some parsed := by
    intro parsed
    simp [ReadsAs, source3]
  constructor
  · rintro ⟨parsed, hread, harrives⟩
    obtain ⟨text, htext, hparsed⟩ := (hsource parsed).mp hread
    rcases (configStringDefault_eq_some_iff hnodup _ _ _ _).mp htext with hm | ⟨ha, hd⟩
    · exact .string hm ⟨parsed, hparsed, harrives⟩
    · exact .default ha hd ⟨parsed, hparsed, harrives⟩
  · intro h
    have htext : ∃ text, configStringDefault (some ((Json.object object).toIot sdk.libs.codec))
        r.req.resource.name r.dfl = some text ∧ Takes sdk r text v := by
      cases h with
      | string hm ht =>
        exact ⟨_, (configStringDefault_eq_some_iff hnodup _ _ _ _).mpr (Or.inl hm), ht⟩
      | default ha hd ht =>
        exact ⟨_, (configStringDefault_eq_some_iff hnodup _ _ _ _).mpr (Or.inr ⟨ha, hd⟩), ht⟩
    obtain ⟨text, hget, parsed, hparsed, harrives⟩ := htext
    exact ⟨parsed, (hsource parsed).mpr ⟨text, hget, hparsed⟩, harrives⟩

-- ════════════════════════════════════════════════════════════════════════
-- The loops
-- ════════════════════════════════════════════════════════════════════════

/-- The REST loop accepts all values exactly if all are given. -/
theorem convertAll2_ok_iff_given (reqs : List CmdReq) :
    (convertAll2 sdk (.json object) reqs {}).1.code = httpOk ↔
      AllGiven (RestValue sdk object) reqs := by
  rw [convertAll2_ok_iff, AllGiven]
  simp only [convert2_eq_ok_iff_given hnodup, exists_and_left]
  exact ⟨fun h => h.2, fun h => ⟨rfl, h⟩⟩

/-- The bus loop accepts all values exactly if all are given. -/
theorem convertAll3_none_iff_given (reqs : List CmdReq) :
    (convertAll3 sdk (some ((Json.object object).toIot sdk.libs.codec)) reqs).1 = none ↔
      AllGiven (BusValue sdk object) reqs := by
  rw [convertAll3_none_iff, AllGiven]
  simp only [convert3_eq_ok_iff_given hnodup, exists_and_left]

/-- The values that the REST loop leaves are those that are given. -/
theorem convertAll2_values_iff {reqs : List CmdReq} {values : List IotData} :
    ((convertAll2 sdk (.json object) reqs {}).1.code = httpOk ∧
        (convertAll2 sdk (.json object) reqs {}).2 = values.map some) ↔
      List.Forall₂ (fun r v => r.pval.writable = true ∧ RestValue sdk object r v) reqs values := by
  simp only [← convert2_eq_ok_iff_given hnodup]
  constructor
  · rintro ⟨hcode, hvalues⟩
    rwa [convertAll2_values sdk {} ((convertAll2_ok_iff sdk _ _ _).mp hcode).2,
      map_toOption_iff] at hvalues
  · intro h
    have hok := exists_of_forall₂ h
    exact ⟨(convertAll2_ok_iff sdk _ _ _).mpr ⟨rfl, hok⟩,
      (convertAll2_values sdk {} hok).trans (map_toOption_iff.mpr h)⟩

/-- The values that the bus loop leaves are those that are given. -/
theorem convertAll3_values_iff {reqs : List CmdReq} {values : List IotData} :
    ((convertAll3 sdk (some ((Json.object object).toIot sdk.libs.codec)) reqs).1 = none ∧
        (convertAll3 sdk (some ((Json.object object).toIot sdk.libs.codec)) reqs).2 =
          values.map some) ↔
      List.Forall₂ (fun r v => r.pval.writable = true ∧ BusValue sdk object r v) reqs values := by
  simp only [← convert3_eq_ok_iff_given hnodup]
  constructor
  · rintro ⟨hnone, hvalues⟩
    rwa [convertAll3_values sdk ((convertAll3_none_iff sdk _ _).mp hnone),
      map_toOption_iff] at hvalues
  · intro h
    have hok := exists_of_forall₂ h
    exact ⟨(convertAll3_none_iff sdk _ _).mpr hok,
      (convertAll3_values sdk hok).trans (map_toOption_iff.mpr h)⟩

/-- Over REST a write is refused as such exactly if it gets as far as a resource that cannot be
    written. An absent value ends the loop, unless it is that of a binary resource. -/
theorem convertAll2_unwritable_iff (reqs : List CmdReq) {reply : HttpReply}
    (hreply : reply.code ≠ httpMethodNotAllowed) :
    (convertAll2 sdk (.json object) reqs reply).1.code = httpMethodNotAllowed ↔
      StoppedUnwritable (fun r => r.pval.type.type = .binary ∨ ∃ v, RestValue sdk object r v)
        reqs := by
  induction reqs generalizing reply with
  | nil => exact iff_of_false hreply (stoppedUnwritable_nil _)
  | cons r rs ih =>
    have hgiven (v : IotData) : convert2 sdk (.json object) r = .ok v ↔
        r.pval.writable = true ∧ RestValue sdk object r v := convert2_eq_ok_iff_given hnodup r v
    rw [convertAll2, stoppedUnwritable_cons]
    cases hc : convert2 sdk (.json object) r with
    | ok v =>
      obtain ⟨hw, hv⟩ := (hgiven v).mp hc
      dsimp only
      rw [ih hreply]
      exact ⟨fun h => Or.inr ⟨⟨hw, Or.inr ⟨v, hv⟩⟩, h⟩,
        fun h => (h.resolve_left (by simp [hw])).2⟩
    | error f =>
      dsimp only
      rcases convert2_error_cases sdk hc with ⟨hw, rfl⟩ | ⟨hw, hcode, hbinary⟩
      · rw [if_neg (by simp)]
        exact iff_of_true rfl (Or.inl hw)
      · split
        · next habsent =>
          have hreply' : f.code ≠ httpMethodNotAllowed := by rw [hcode]; decide
          rw [ih (show (errorResponse f.code _).code ≠ _ from hreply')]
          exact ⟨fun h => Or.inr ⟨⟨hw, Or.inl habsent.2⟩, h⟩,
            fun h => (h.resolve_left (by simp [hw])).2⟩
        · next hstop =>
          refine iff_of_false (fun h => absurd (hcode.symm.trans h) (by decide)) ?_
          rintro (hno | ⟨⟨-, hb | ⟨v, hv⟩⟩, -⟩)
          · simp [hw] at hno
          · exact hstop ⟨hbinary hb, hb⟩
          · rw [(hgiven v).mpr ⟨hw, hv⟩] at hc
            cases hc

/-- On the bus a write is refused as such exactly if all values before a resource that cannot be
    written are given. -/
theorem convertAll3_unwritable_iff (reqs : List CmdReq) :
    (convertAll3 sdk (some ((Json.object object).toIot sdk.libs.codec)) reqs).1 =
        some .unwritable ↔
      StoppedUnwritable (fun r => ∃ v, BusValue sdk object r v) reqs := by
  induction reqs with
  | nil => exact iff_of_false nofun (stoppedUnwritable_nil _)
  | cons r rs ih =>
    have hgiven (v : IotData) :
        convert3 sdk (some ((Json.object object).toIot sdk.libs.codec)) r = .ok v ↔
          r.pval.writable = true ∧ BusValue sdk object r v := convert3_eq_ok_iff_given hnodup r v
    rw [convertAll3, stoppedUnwritable_cons]
    cases hc : convert3 sdk (some ((Json.object object).toIot sdk.libs.codec)) r with
    | ok v =>
      obtain ⟨hw, hv⟩ := (hgiven v).mp hc
      dsimp only
      rw [ih]
      exact ⟨fun h => Or.inr ⟨⟨hw, v, hv⟩, h⟩, fun h => (h.resolve_left (by simp [hw])).2⟩
    | error f =>
      dsimp only
      rcases convert3_error_cases sdk hc with ⟨hw, rfl⟩ | ⟨hw, hcode⟩
      · exact iff_of_true rfl (Or.inl hw)
      · have hf : f ≠ .unwritable := by
          rintro rfl
          exact absurd hcode (by decide)
        refine iff_of_false (fun h => hf (Option.some.inj h)) ?_
        rintro (hno | ⟨⟨-, v, hv⟩, -⟩)
        · simp [hw] at hno
        · rw [(hgiven v).mpr ⟨hw, hv⟩] at hc
          cases hc

end Values

end DeviceSdk
