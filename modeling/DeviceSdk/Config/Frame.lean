import DeviceSdk.Config.Override
import DeviceSdk.Lib.Run
import DeviceSdk.Lib.Segments

/-!
# What the overrides leave alone

The three override routines go through the keys of a configuration map, look each one up in their
own way, and convert what they find to the type of the value that is there. After that, two of them
add the insecure secrets of their source. Over any number of calls no key is lost, no key outside
the insecure secrets is added or gets a value of another type, and a value changes only to the
conversion of an entry of the call's own source.

## Main definitions

- `OverrideCall` — a call of one of the routines
- `IotData.At`, `KeyPath` — an entry of nested maps, and the path that a key names
- `EnvNamed` — the environment variable that a key names
- `OverrideCall.Entry` — an entry of the source of a call for a key
- `ConfigFrame` — what all calls together keep
- `Overrides` — what one call does to the values

## Main results

- `findEntry_eq_some_iff`, `envNamed_iff` — the routines look where the keys name
- `OverrideCall.offer_of_entry`, `OverrideCall.offer_of_not_entry` — the entries decide
- `override_frame`
-/

namespace DeviceSdk

open IotData (stringMapGet)

/-- A call of an override routine: with a configuration, with the environment as it is at the time,
    or with a list of pairs. -/
inductive OverrideCall
  | map (source : Option IotData)
  | env (getenv : String → Option String)
  | nvpairs (pairs : NvPairs)

namespace OverrideCall

/-- The map after a call. -/
def apply (lib : ConfigLib) (config : IotMap) : OverrideCall → IotMap
  | map source => overrideConfigMap lib config source
  | env getenv => overrideConfigEnv { lib with getenv } config
  | nvpairs pairs => overrideConfigNvpairs lib config pairs

end OverrideCall

-- ════════════════════════════════════════════════════════════════════════
-- Entries of the sources
-- ════════════════════════════════════════════════════════════════════════

/-- In nested maps, the value `e` stands at the end of a path of names. Where a map has a name more
    than once, the first counts. -/
inductive IotData.At : IotData → List String → IotData → Prop
  | here (e : IotData) : At e [] e
  | under {before after : List (String × IotData)} {name : String} {d e : IotData}
      {path : List String} (first : ∀ p ∈ before, p.1 ≠ name) (rest : At d path e) :
      At (.map (before ++ (name, d) :: after)) (name :: path) e

theorem IotData.At.first {name : String} {d e : IotData} {after : List (String × IotData)}
    {path : List String} (h : d.At path e) :
    (IotData.map ((name, d) :: after)).At (name :: path) e :=
  IotData.At.under (fun _ h => absurd h List.not_mem_nil) h

/-- A key names a path: it is the names on the path with slashes between them. -/
structure KeyPath (key : String) (path : List String) : Prop where
  ne_nil : path ≠ []
  no_slash : ∀ name ∈ path, '/' ∉ name.toList
  joined : ['/'].intercalate (path.map String.toList) = key.toList

/-- A character of a key, and that of the environment variable. -/
inductive EnvChar : Char → Char → Prop
  | slash : EnvChar '/' '_'
  | letter {c d : Char} (lower : 'a' ≤ c ∧ c ≤ 'z') (upper : d.toNat + 32 = c.toNat) : EnvChar c d
  | other {c : Char} (noSlash : c ≠ '/') (noLower : ¬ ('a' ≤ c ∧ c ≤ 'z')) : EnvChar c c

/-- The name of an environment variable is that of a key in capitals, with underscores for its
    slashes. -/
def EnvNamed (key name : String) : Prop := List.Forall₂ EnvChar key.toList name.toList

/-- The source of a call has an entry for a key, with what it can be converted to. -/
inductive OverrideCall.Entry (lib : ConfigLib) (key : String) : OverrideCall → ValueOffer → Prop
  | map {source e : IotData} {path : List String} (names : KeyPath key path)
      (at_path : source.At path e) : Entry lib key (.map (some source)) (lib.transform e)
  | env {getenv : String → Option String} {name text : String} (named : EnvNamed key name)
      (set : getenv name = some text) : Entry lib key (.env getenv) (lib.fromString text)
  | nvpairs {before after : NvPairs} {text : String} (first : ∀ p ∈ before, p.1 ≠ key) :
      Entry lib key (.nvpairs (before ++ (key, text) :: after)) (lib.fromString text)

/-- No key is removed, every key that is added is that of an insecure secret, and every other key
    has a value of the type that it had. -/
structure ConfigFrame (config m : IotMap) : Prop where
  kept : ∀ key, config.lookup key ≠ none → m.lookup key ≠ none
  added : ∀ key, m.lookup key ≠ none → config.lookup key ≠ none ∨ InsecureKey key
  typed : ∀ key v, ¬ InsecureKey key → config.lookup key = some v →
    ∃ w, m.lookup key = some w ∧ w.type = v.type

/-- A call gives the keys outside the insecure secrets the conversion of an entry of its source,
    where there is one that converts to the type of the value, and leaves their values otherwise. -/
def Overrides (lib : ConfigLib) (m : IotMap) (call : OverrideCall) : Prop :=
  ∀ key v, ¬ InsecureKey key → m.lookup key = some v →
    (∀ convert w, call.Entry lib key convert → convert v.type = some w →
      (call.apply lib m).lookup key = some w.1) ∧
    ((∀ convert, call.Entry lib key convert → convert v.type = none) →
      (call.apply lib m).lookup key = some v)

/-- The first entry with a key. -/
theorem lookup_eq_some_iff_first {β : Type} {l : List (String × β)} {key : String} {v : β} :
    l.lookup key = some v ↔
      ∃ before after, l = before ++ (key, v) :: after ∧ ∀ p ∈ before, p.1 ≠ key := by
  have hname (p : String × β) : (key != p.1) = true ↔ p.1 ≠ key := by
    rw [bne_iff_ne]
    exact ne_comm
  simp only [List.lookup_eq_some_iff, hname]

section Sources

variable {key : String}

theorem keyPath_iff {path : List String} :
    KeyPath key path ↔ path = (key.toList.splitOn '/').map String.ofList := by
  have hlists : (path.map String.toList).map String.ofList = path := by simp
  constructor
  · intro h
    have hne : path.map String.toList ≠ [] := by simpa using h.ne_nil
    have hno : ∀ l ∈ path.map String.toList, '/' ∉ l := by
      intro l hl
      obtain ⟨name, hname, rfl⟩ := List.mem_map.mp hl
      exact h.no_slash name hname
    rw [← h.joined, List.splitOn_intercalate '/' hno hne, hlists]
  · rintro rfl
    refine ⟨?_, ?_, ?_⟩
    · simp
    · intro name hname
      obtain ⟨l, hl, rfl⟩ := List.mem_map.mp hname
      rw [String.toList_ofList]
      exact Segments.not_mem_of_mem_splitOn '/' hl
    · have hback : ((key.toList.splitOn '/').map String.ofList).map String.toList =
          key.toList.splitOn '/' := by simp
      rw [hback, List.intercalate_splitOn]

theorem stringMapGet_eq_some_iff {source d : IotData} {name : String} :
    stringMapGet (some source) name = some d ↔
      ∃ before after, source = .map (before ++ (name, d) :: after) ∧ ∀ p ∈ before, p.1 ≠ name := by
  cases source with
  | map entries =>
    simp only [stringMapGet, IotData.map.injEq]
    exact lookup_eq_some_iff_first
  | _ => simp [stringMapGet]

theorem foldl_stringMapGet_none (names : List String) : names.foldl stringMapGet none = none := by
  induction names with
  | nil => rfl
  | cons name names ih => exact ih

/-- The walk along a path ends at the value that stands there. -/
theorem foldl_stringMapGet_eq_some_iff {source e : IotData} {path : List String} :
    path.foldl stringMapGet (some source) = some e ↔ source.At path e := by
  induction path generalizing source with
  | nil =>
    constructor
    · rintro ⟨⟩
      exact .here _
    · rintro ⟨⟩
      rfl
  | cons name path ih =>
    rw [List.foldl_cons]
    constructor
    · intro h
      cases hd : stringMapGet (some source) name with
      | none =>
        rw [hd, foldl_stringMapGet_none] at h
        cases h
      | some d =>
        rw [hd] at h
        obtain ⟨before, after, rfl, hfirst⟩ := stringMapGet_eq_some_iff.mp hd
        exact .under hfirst (ih.mp h)
    · rintro (_ | ⟨hfirst, hrest⟩)
      rw [stringMapGet_eq_some_iff.mpr ⟨_, _, rfl, hfirst⟩]
      exact ih.mpr hrest

/-- A key is found in nested maps at the path that it names. -/
theorem findEntry_eq_some_iff {source e : IotData} :
    findEntry (some source) key = some e ↔ ∃ path, KeyPath key path ∧ source.At path e := by
  have hwalk : findEntry (some source) key =
      ((key.toList.splitOn '/').map String.ofList).foldl stringMapGet (some source) := by
    rw [findEntry, List.foldl_map]
  rw [hwalk, foldl_stringMapGet_eq_some_iff]
  constructor
  · exact fun h => ⟨_, keyPath_iff.mpr rfl, h⟩
  · rintro ⟨path, hpath, h⟩
    rwa [← keyPath_iff.mp hpath]

theorem toNat_toUpper {c : Char} (h : c.isLower = true) : c.toUpper.toNat + 32 = c.toNat := by
  have hc : 'a'.val ≤ c.val ∧ c.val ≤ 'z'.val := by simpa [Char.isLower] using h
  have ha : 97 ≤ c.val.toNat := UInt32.le_iff_toNat_le.mp hc.1
  have hz : c.val.toNat ≤ 122 := UInt32.le_iff_toNat_le.mp hc.2
  have hstep : ('A'.val - 'a'.val).toNat = 2 ^ 32 - 32 := rfl
  rw [Char.toUpper, dif_pos hc]
  change (c.val + ('A'.val - 'a'.val)).toNat + 32 = c.val.toNat
  rw [UInt32.toNat_add, hstep]
  omega

theorem envChar_iff {c d : Char} :
    EnvChar c d ↔ (if c = '/' then '_' else if c.isLower then c.toUpper else c) = d := by
  have hlower : c.isLower = true ↔ 'a' ≤ c ∧ c ≤ 'z' := by
    simp [Char.isLower, Char.le_def]
  constructor
  · rintro (_ | ⟨hc, hd⟩ | ⟨hslash, hc⟩)
    · rfl
    · have hslash : c ≠ '/' := by
        rintro rfl
        exact absurd hc.1 (by decide)
      rw [if_neg hslash, if_pos (hlower.mpr hc)]
      exact Char.toNat_inj.mp (by have := toNat_toUpper (hlower.mpr hc); omega)
    · rw [if_neg hslash, if_neg (mt hlower.mp hc)]
  · rintro rfl
    split
    next hslash => exact hslash ▸ .slash
    next hslash =>
      split
      next hc => exact .letter (hlower.mp hc) (toNat_toUpper hc)
      next hc => exact .other hslash (mt hlower.mpr hc)

/-- The environment variable that is asked for is the one that the key names. -/
theorem envNamed_iff {name : String} : EnvNamed key name ↔ name = envName key := by
  have hchar : EnvChar = fun c d =>
      (if c = '/' then '_' else if c.isLower then c.toUpper else c) = d := by
    funext c d
    exact propext envChar_iff
  rw [EnvNamed, envName, hchar, ← List.forall₂_map_left_iff, List.forall₂_eq_eq_eq]
  constructor
  · intro h
    rw [h, String.ofList_toList]
  · rintro rfl
    rw [String.toList_ofList]

end Sources

namespace OverrideCall

variable {lib : ConfigLib} {key : String} {call : OverrideCall}

/-- What the source of a call offers for a key. -/
def offer (lib : ConfigLib) (key : String) : OverrideCall → ValueOffer
  | map source => mapSource lib source key
  | env getenv => envSource { lib with getenv } key
  | nvpairs pairs => nvSource lib pairs key

theorem offer_env (getenv : String → Option String) (t : DataType) :
    (env getenv).offer lib key t =
      (getenv (envName key)).bind fun text => lib.fromString text t := rfl

/-- What is offered is the entry of the source. -/
theorem offer_of_entry {convert : ValueOffer} (h : call.Entry lib key convert) :
    call.offer lib key = convert := by
  funext t
  cases h with
  | map names at_path =>
    rw [offer, mapSource, findEntry_eq_some_iff.mpr ⟨_, names, at_path⟩, Option.bind_some]
  | env named set =>
    rw [offer_env, ← envNamed_iff.mp named, set, Option.bind_some]
  | nvpairs first =>
    rw [offer, nvSource, nvpairsValue, lookup_eq_some_iff_first.mpr ⟨_, _, rfl, first⟩,
      Option.bind_some]

/-- A source without an entry offers nothing. -/
theorem offer_of_not_entry (h : ∀ convert, ¬ call.Entry lib key convert) :
    call.offer lib key = Offer.none := by
  funext t
  cases call with
  | map source =>
    cases source with
    | none => rw [offer, mapSource, findEntry_none, Option.bind_none, Offer.none]
    | some source =>
      cases hfound : findEntry (some source) key with
      | none => rw [offer, mapSource, hfound, Option.bind_none, Offer.none]
      | some e =>
        obtain ⟨path, hpath, hat⟩ := findEntry_eq_some_iff.mp hfound
        exact absurd (.map hpath hat) (h _)
  | env getenv =>
    cases hset : getenv (envName key) with
    | none => rw [offer_env, hset, Option.bind_none, Offer.none]
    | some text => exact absurd (.env (envNamed_iff.mpr rfl) hset) (h _)
  | nvpairs pairs =>
    cases hfound : nvpairsValue pairs key with
    | none => rw [offer, nvSource, hfound, Option.bind_none, Offer.none]
    | some text =>
      obtain ⟨before, after, rfl, hfirst⟩ := lookup_eq_some_iff_first.mp hfound
      exact absurd (.nvpairs hfirst) (h _)

/-- A call overrides the value of a key by what its source offers. -/
theorem lookup_apply (lib : ConfigLib) (m : IotMap) (call : OverrideCall)
    (hkey : ¬ InsecureKey key) :
    (call.apply lib m).lookup key = (m.lookup key).map (call.offer lib key).override := by
  cases call with
  | map source => exact lookup_overrideConfigMap hkey lib m source
  | env getenv => exact lookup_overrideConfigEnv { lib with getenv } m key
  | nvpairs pairs => exact lookup_overrideConfigNvpairs hkey lib m pairs

theorem apply_overrides (lib : ConfigLib) (m : IotMap) (call : OverrideCall) :
    Overrides lib m call := by
  intro key v hkey hv
  rw [lookup_apply lib m call hkey, hv, Option.map_some]
  constructor
  · intro convert w hentry hw
    rw [offer_of_entry hentry, Offer.override_of_some hw]
  · intro hno
    have hoffer : call.offer lib key v.type = none := by
      by_cases hentry : ∃ convert, call.Entry lib key convert
      · obtain ⟨convert, hentry⟩ := hentry
        rw [offer_of_entry hentry, hno convert hentry]
      · rw [offer_of_not_entry (not_exists.mp hentry), Offer.none]
    rw [Offer.override_of_none hoffer]

/-- A call keeps the keys that are there, and adds none but those of insecure secrets. -/
theorem lookup_addAll_frame (m : IotMap) (f : String → IotData → IotData)
    {entries : List (String × IotData)} (h : ∀ e ∈ entries, InsecureKey e.1) (key : String) :
    (m.lookup key ≠ none → ((m.mapValues f).addAll entries).lookup key ≠ none) ∧
      (((m.mapValues f).addAll entries).lookup key ≠ none →
        m.lookup key ≠ none ∨ InsecureKey key) := by
  rw [IotMap.lookup_addAll, IotMap.lookup_mapValues]
  cases hadded : entries.reverse.lookup key with
  | some v =>
    obtain ⟨e, he, rfl⟩ := List.exists_mem_of_lookup_ne_none (by rw [hadded]; simp)
    exact ⟨fun _ => by simp, fun _ => Or.inr (h e (List.mem_reverse.mp he))⟩
  | none => cases m.lookup key <;> simp

theorem apply_frame (lib : ConfigLib) (m : IotMap) (call : OverrideCall) :
    ConfigFrame m (call.apply lib m) := by
  have hkeys (key : String) : (m.lookup key ≠ none → (call.apply lib m).lookup key ≠ none) ∧
      ((call.apply lib m).lookup key ≠ none → m.lookup key ≠ none ∨ InsecureKey key) := by
    cases call with
    | map source => exact lookup_addAll_frame m _ (fun e he => insecureSecretsMap_keys he) key
    | env getenv => exact lookup_addAll_frame m _ (fun e he => absurd he List.not_mem_nil) key
    | nvpairs pairs => exact lookup_addAll_frame m _ (fun e he => insecureSecretsPairs_keys he) key
  refine ⟨fun key => (hkeys key).1, fun key => (hkeys key).2, fun key v hkey hv => ?_⟩
  refine ⟨(call.offer lib key).override v, ?_, Offer.kind_override _ v⟩
  rw [lookup_apply lib m call hkey, hv, Option.map_some]

end OverrideCall

namespace ConfigFrame

theorem refl (config : IotMap) : ConfigFrame config config :=
  ⟨fun _ h => h, fun _ h => Or.inl h, fun _ v _ hv => ⟨v, hv, rfl⟩⟩

theorem trans {config m m' : IotMap} (h : ConfigFrame config m) (h' : ConfigFrame m m') :
    ConfigFrame config m' := by
  refine ⟨fun key hkey => h'.kept key (h.kept key hkey), fun key hkey => ?_, ?_⟩
  · rcases h'.added key hkey with hm | hinsecure
    · exact h.added key hm
    · exact Or.inr hinsecure
  · intro key v hkey hv
    obtain ⟨w, hw, hwt⟩ := h.typed key v hkey hv
    obtain ⟨u, hu, hut⟩ := h'.typed key w hkey hw
    exact ⟨u, hu, hut.trans hwt⟩

end ConfigFrame

/-- Over every sequence of calls the frame holds, and every call overrides as it should. -/
theorem override_frame (lib : ConfigLib) (config : IotMap) (calls : List OverrideCall) :
    Run.Always (OverrideCall.apply lib) (ConfigFrame config) config calls ∧
      Run.Meets (OverrideCall.apply lib) (Overrides lib) config calls := by
  have hall : ∀ (m : IotMap) (call : OverrideCall), Overrides lib m call :=
    OverrideCall.apply_overrides lib
  refine ⟨?_, Run.meets_of_forall hall config calls⟩
  exact Run.always_of_meets (fun _ h => h)
    (fun m call h _ => h.trans (OverrideCall.apply_frame lib m call)) (ConfigFrame.refl config)
    (Run.meets_of_forall hall config calls)

/-- Three of the defaults of a service. -/
def threeDefaults : IotMap :=
  IotMap.empty.addAll [("Service/Host", .string "node"), ("Service/Port", .int .uint16 59999),
    ("Writable/LogLevel", .string "WARNING")]

/-- A file with a port, an environment with a host, and pairs with a level for the log. -/
def threeSources : List OverrideCall :=
  [.map (some (.map [("Service", .map [("Port", .int .int64 8080)])])),
    .env fun name => if name = "SERVICE_HOST" then some "localhost" else none,
    .nvpairs [("Service/Name", "virtual"), ("Writable/LogLevel", "DEBUG")]]

/-- Each of three sources overrides one value. -/
theorem override_frame_threeSources :
    (Run.final (OverrideCall.apply textConfigLib) threeDefaults (threeSources.take 1)).lookup
        "Service/Port" = some (.int .uint16 8080) ∧
      (Run.final (OverrideCall.apply textConfigLib) threeDefaults (threeSources.take 2)).lookup
        "Service/Host" = some (.string "localhost") ∧
      (Run.final (OverrideCall.apply textConfigLib) threeDefaults threeSources).lookup
        "Writable/LogLevel" = some (.string "DEBUG") := by
  obtain ⟨hmap, henv, hpairs, -⟩ :=
    (override_frame textConfigLib threeDefaults threeSources).2
  refine ⟨?_, ?_, ?_⟩
  · have hpath : KeyPath "Service/Port" ["Service", "Port"] :=
      ⟨by decide, by decide, by decide⟩
    have hport : IotData.At (.map [("Service", .map [("Port", .int .int64 8080)])])
        ["Service", "Port"] (.int .int64 8080) := .first (.first (.here _))
    exact (hmap "Service/Port" (.int .uint16 59999) (by decide) (by decide)).1 _
      ⟨.int .uint16 8080, rfl⟩ (.map hpath hport) rfl
  · have hname : EnvNamed "Service/Host" "SERVICE_HOST" := envNamed_iff.mpr (by decide)
    exact (henv "Service/Host" (.string "node") (by decide) (by decide)).1 _
      ⟨.string "localhost", rfl⟩ (.env hname rfl) rfl
  · have hlevel : OverrideCall.Entry textConfigLib "Writable/LogLevel"
        (.nvpairs ([("Service/Name", "virtual")] ++ [("Writable/LogLevel", "DEBUG")]))
        (textConfigLib.fromString "DEBUG") := .nvpairs (by decide)
    exact (hpairs "Writable/LogLevel" (.string "WARNING") (by decide) (by decide)).1 _
      ⟨.string "DEBUG", rfl⟩ hlevel rfl

end DeviceSdk
