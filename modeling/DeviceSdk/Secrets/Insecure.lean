import DeviceSdk.Config.Override
import DeviceSdk.Lib.Text

/-!
# Insecure secrets

The secrets of a configuration file are written into the configuration map under one path for
every name and every datum, and `insecure_parse_config` collects them again. It takes every path
that ends in `/SecretName` for the name of an entry, and every path below `SecretData` for a datum
of the entry in front of it, so that the keys of the data and those of the entries can be taken for
what they are not.

## Main definitions

- `insecureParseConfig` — `insecure_parse_config`
- `InsecureEntry`, `HasSecrets` — the secrets of a configuration file
- `Rebuilt` — each entry is there again under its name, and nothing else
- `MarksClear` — the secrets for which it is so

## Main results

- `insecureParseConfig_rebuilt_iff`
- `marksClear_of_plain` — ordinary secrets
-/

namespace DeviceSdk

open IotData (stringMapGet)

/-- The prefix and the suffix that `insecure_parse_config` looks for. -/
def secPrefix : String := "Writable/InsecureSecrets/"

def secSuffix : String := "/SecretName"

/-- The path of the name of an entry, as `insecure_parse_config` tells it. -/
def isSecretName (key : String) : Bool :=
  decide (secPrefix.toList <+: key.toList) && decide (secSuffix.toList <:+ key.toList)

/-- The prefix of the data that belong to the path of a name. -/
def secretDataPrefix (key : String) : String :=
  String.ofList (key.toList.take (key.toList.length + 1 - secSuffix.toList.length)) ++ "SecretData/"

/-- The inner loop of `insecure_parse_config`. -/
def secretsBelow (config : IotMap) (pre : String) : IotMap :=
  config.entries.foldl (fun map e =>
    match Text.behind pre e.1 with
    | some key => map.add key e.2
    | none => map) .empty

/-- One turn of the loop of `insecure_parse_config`. The result is a map with strings for keys, and
    there is none when something else is added as a key. -/
def addParsedSecret (config : IotMap) (result : IotMap) (e : String × IotData) : Option IotMap :=
  if isSecretName e.1 then
    match e.2 with
    | .string name => some (result.add name (secretsBelow config (secretDataPrefix e.1)).data)
    | _ => none
  else some result

/-- `insecure_parse_config`. -/
def insecureParseConfig (config : IotMap) : Option IotMap :=
  config.entries.foldlM (addParsedSecret config) .empty

-- ════════════════════════════════════════════════════════════════════════
-- The secrets of a file
-- ════════════════════════════════════════════════════════════════════════

/-- An entry below `Writable/InsecureSecrets`. -/
structure InsecureEntry where
  key : String
  secretName : String
  secretData : IotMap

/-- The section of a configuration has these entries. -/
def HasSecrets (config : Option IotData) (entries : List InsecureEntry) : Prop :=
  ∃ sub, stringMapGet (stringMapGet config "Writable") "InsecureSecrets" = some (.map sub) ∧
    List.Forall₂ (fun e entry => e.1 = entry.key ∧
      stringMapGet (some e.2) "SecretName" = some (.string entry.secretName) ∧
      stringMapGet (some e.2) "SecretData" = some entry.secretData.data) sub entries

/-- Every name has the data of its entry, and there are no other names. -/
def Rebuilt (entries : List InsecureEntry) (result : Option IotMap) : Prop :=
  ∃ m, result = some m ∧ ∀ name d, m.lookup name = some d ↔
    ∃ entry ∈ entries, entry.secretName = name ∧ entry.secretData.data = d

/-- The path of the name, and those of the data, of an entry with a given key. -/
def namePath (key : String) : String := secPrefix ++ key ++ "/SecretName"

def dataPath (key name : String) : String := secPrefix ++ key ++ "/SecretData/" ++ name

/-- What is written for an entry. -/
def InsecureEntry.paths (entry : InsecureEntry) : List (String × IotData) :=
  (entry.secretData.entries.map fun d => (dataPath entry.key d.1, d.2)) ++
    [(namePath entry.key, .string entry.secretName)]

/-- What stands under a path when everything is written. -/
def writtenSecret (entries : List InsecureEntry) (path : String) : Option IotData :=
  (entries.flatMap InsecureEntry.paths).reverse.lookup path

/-- Every path that ends like that of a name has the name of an entry, and the last path with the
    name of an entry has the data of that entry below it. -/
structure MarksClear (entries : List InsecureEntry) : Prop where
  named : ∀ key v, writtenSecret entries (namePath key) = some v →
    ∃ entry ∈ entries, v = .string entry.secretName
  last : ∀ entry ∈ entries, ∃ key,
    writtenSecret entries (namePath key) = some (.string entry.secretName) ∧
    (∀ key', writtenSecret entries (namePath key') = some (.string entry.secretName) →
      namePath key' ≤ namePath key) ∧
    ∀ name, writtenSecret entries (dataPath key name) = entry.secretData.lookup name

-- ════════════════════════════════════════════════════════════════════════
-- The loops
-- ════════════════════════════════════════════════════════════════════════

/-- The inner loop finds what is below its prefix. -/
theorem lookup_secretsBelow (config : IotMap) (pre name : String) :
    (secretsBelow config pre).lookup name = config.lookup (pre ++ name) := by
  have hadd (l : List (String × IotData)) (m : IotMap) :
      l.foldl (fun map e =>
        match Text.behind pre e.1 with
        | some key => map.add key e.2
        | none => map) m =
      m.addAll (l.filterMap fun e => (Text.behind pre e.1).map fun key => (key, e.2)) := by
    induction l generalizing m with
    | nil => rfl
    | cons e l ih =>
      rw [List.foldl_cons, ih, List.filterMap_cons]
      cases Text.behind pre e.1 <;> rfl
  rw [secretsBelow, hadd, IotMap.lookup_addAll, ← List.filterMap_reverse,
    List.lookup_filterMap_of_key (g := fun n => pre ++ n) (fun _ _ => Text.behind_eq_some_iff),
    List.lookup_reverse_of_nodup config.keys_nodup]
  exact Option.or_none

/-- The pair that is added for the path of a name. -/
def secretPair (config : IotMap) (e : String × IotData) : Option (String × IotData) :=
  if isSecretName e.1 then
    match e.2 with
    | .string name => some (name, (secretsBelow config (secretDataPrefix e.1)).data)
    | _ => none
  else none

theorem foldlM_addParsedSecret_eq_some_iff (config : IotMap) (l : List (String × IotData))
    (result m : IotMap) :
    l.foldlM (addParsedSecret config) result = some m ↔
      (∀ e ∈ l, isSecretName e.1 = true → ∃ name, e.2 = .string name) ∧
        m = result.addAll (l.filterMap (secretPair config)) := by
  induction l generalizing result with
  | nil =>
    rw [List.foldlM_nil]
    constructor
    · rintro ⟨⟩
      exact ⟨fun e he => absurd he List.not_mem_nil, rfl⟩
    · rintro ⟨-, rfl⟩
      rfl
  | cons e l ih =>
    obtain ⟨key, v⟩ := e
    rw [List.foldlM_cons, addParsedSecret, List.forall_mem_cons, List.filterMap_cons, secretPair]
    cases isSecretName key with
    | false =>
      simp only [Bool.false_eq_true, if_false, false_imp_iff, true_and]
      exact ih result
    | true =>
      simp only [if_true, true_imp_iff]
      cases v with
      | string name =>
        refine (ih _).trans (and_congr_left fun _ => ?_)
        exact (and_iff_right ⟨name, rfl⟩).symm
      | null | bool | int | float32 | float64 | binary | vector | array | map => simp

theorem secretPair_eq_some_iff {config : IotMap} {e : String × IotData} {name : String}
    {d : IotData} :
    secretPair config e = some (name, d) ↔ isSecretName e.1 = true ∧ e.2 = .string name ∧
      (secretsBelow config (secretDataPrefix e.1)).data = d := by
  rw [secretPair]
  cases isSecretName e.1 with
  | false => simp
  | true =>
    simp only [if_true, true_and]
    cases e.2 <;> simp

/-- A path is the last one of a name that carries it. -/
def LastNamed (config : IotMap) (name key : String) : Prop :=
  isSecretName key = true ∧ config.lookup key = some (.string name) ∧
    ∀ key', isSecretName key' = true → config.lookup key' = some (.string name) → key' ≤ key

/-- Under a name stands what is below the last path that carries it. -/
theorem lookup_secretPairs_iff {config : IotMap} {name : String} {d : IotData} :
    (IotMap.empty.addAll (config.entries.filterMap (secretPair config))).lookup name = some d ↔
      ∃ key, LastNamed config name key ∧
        (secretsBelow config (secretDataPrefix key)).data = d := by
  have hsorted : config.entries.reverse.Pairwise fun x y => y.1 < x.1 :=
    List.pairwise_reverse.mpr config.ordered
  rw [IotMap.lookup_addAll, ← List.filterMap_reverse]
  refine (Eq.congr_left Option.or_none).trans
    ((List.lookup_filterMap_of_decreasing hsorted name d).trans ?_)
  constructor
  · rintro ⟨⟨key, v⟩, hmem, hkey, hmax⟩
    obtain ⟨hmark, rfl, hd⟩ := secretPair_eq_some_iff.mp hkey
    refine ⟨key, ⟨hmark, config.mem_entries_iff.mp (List.mem_reverse.mp hmem), ?_⟩, hd⟩
    intro key' hmark' hfound
    have hmem' := List.mem_reverse.mpr (config.mem_entries_iff.mpr hfound)
    exact hmax _ hmem' _ (secretPair_eq_some_iff.mpr ⟨hmark', rfl, rfl⟩)
  · rintro ⟨key, ⟨hmark, hfound, hmax⟩, hd⟩
    have hmem := List.mem_reverse.mpr (config.mem_entries_iff.mpr hfound)
    refine ⟨_, hmem, secretPair_eq_some_iff.mpr ⟨hmark, rfl, hd⟩, ?_⟩
    rintro ⟨key', v⟩ hmem' d' hkey'
    obtain ⟨hmark', rfl, -⟩ := secretPair_eq_some_iff.mp hkey'
    exact hmax key' hmark' (config.mem_entries_iff.mp (List.mem_reverse.mp hmem'))

/-- A name is found when some path of a name has it, with what is below the last such path. -/
theorem insecureParseConfig_eq_some_iff (config m : IotMap) :
    insecureParseConfig config = some m ↔
      (∀ key v, isSecretName key = true → config.lookup key = some v → ∃ name, v = .string name) ∧
        ∀ name d, m.lookup name = some d ↔ ∃ key, LastNamed config name key ∧
          (secretsBelow config (secretDataPrefix key)).data = d := by
  rw [insecureParseConfig, foldlM_addParsedSecret_eq_some_iff]
  refine and_congr ?_ ?_
  · constructor
    · intro h key v hmark hfound
      exact h _ (config.mem_entries_iff.mpr hfound) hmark
    · rintro h ⟨key, v⟩ hmem hmark
      exact h key v hmark (config.mem_entries_iff.mp hmem)
  · constructor
    · rintro rfl name d
      exact lookup_secretPairs_iff
    · intro h
      refine IotMap.eq_of_lookup fun name => Option.ext fun d => ?_
      rw [h, lookup_secretPairs_iff]

/-- There is a result when every path of a name has a string. -/
theorem exists_insecureParseConfig {config : IotMap}
    (h : ∀ key v, isSecretName key = true → config.lookup key = some v → ∃ name, v = .string name) :
    ∃ m, insecureParseConfig config = some m := by
  refine ⟨_, (foldlM_addParsedSecret_eq_some_iff config _ _ _).mpr ⟨?_, rfl⟩⟩
  rintro ⟨key, v⟩ hmem hmark
  exact h key v hmark (config.mem_entries_iff.mp hmem)

/-- A name that some path has is in the result. -/
theorem exists_lookup_of_secretName {config m : IotMap} (h : insecureParseConfig config = some m)
    {key name : String} (hmark : isSecretName key = true)
    (hfound : config.lookup key = some (.string name)) : ∃ d, m.lookup name = some d := by
  obtain ⟨-, rfl⟩ := (foldlM_addParsedSecret_eq_some_iff config _ _ _).mp h
  have hpair : (name, (secretsBelow config (secretDataPrefix key)).data) ∈
      config.entries.filterMap (secretPair config) := by
    refine List.mem_filterMap.mpr ⟨_, config.mem_entries_iff.mpr hfound, ?_⟩
    rw [secretPair, if_pos hmark]
  rw [IotMap.lookup_addAll, ← Option.ne_none_iff_exists']
  intro hnone
  have hno := List.lookup_eq_none_iff.mp (Option.or_eq_none_iff.mp hnone).1 _
    (List.mem_reverse.mpr hpair)
  simp at hno

-- ════════════════════════════════════════════════════════════════════════
-- Paths
-- ════════════════════════════════════════════════════════════════════════

/-- What is written for a section is what is written for its entries. -/
theorem insecureSecretsMap_eq {config : Option IotData} {entries : List InsecureEntry}
    (h : HasSecrets config entries) :
    insecureSecretsMap config = entries.flatMap InsecureEntry.paths := by
  obtain ⟨sub, hsub, hentries⟩ := h
  rw [insecureSecretsMap, hsub]
  dsimp only
  clear hsub
  induction hentries with
  | nil => rfl
  | @cons e entry sub entries he _ ih =>
    obtain ⟨hkey, hname, hdata⟩ := he
    rw [List.flatMap_cons, List.flatMap_cons, ih, insecureTable, hname, hdata, hkey]
    rfl

theorem isSecretName_namePath (key : String) : isSecretName (namePath key) = true := by
  have hstart : secPrefix.toList <+: (namePath key).toList := by
    rw [namePath, String.append_assoc, String.toList_append]
    exact List.prefix_append _ _
  have hend : secSuffix.toList <:+ (namePath key).toList := by
    rw [namePath, String.toList_append]
    exact List.suffix_append _ _
  rw [isSecretName, decide_eq_true hstart, decide_eq_true hend]
  rfl

/-- Where what is behind the prefix is as long as the suffix, the two do not overlap. -/
theorem exists_namePath_of_length {rest : String}
    (hlen : secSuffix.toList.length ≤ rest.toList.length)
    (h : isSecretName (secPrefix ++ rest) = true) : ∃ key, secPrefix ++ rest = namePath key := by
  rw [isSecretName, Bool.and_eq_true, decide_eq_true_iff, decide_eq_true_iff,
    String.toList_append] at h
  obtain ⟨front, hfront⟩ := List.suffix_of_suffix_length_le h.2 (List.suffix_append _ _) hlen
  refine ⟨String.ofList front, ?_⟩
  have hrest : rest = String.ofList front ++ secSuffix := by
    rw [← String.toList_inj, ← hfront, String.toList_append, String.toList_ofList]
  rw [hrest, namePath, String.append_assoc]
  rfl

/-- A path that is written and ends like that of a name is that of a name. -/
theorem exists_namePath {entry : InsecureEntry} {e : String × IotData} (he : e ∈ entry.paths)
    (h : isSecretName e.1 = true) : ∃ key, e.1 = namePath key := by
  cases List.mem_append.mp he with
  | inl hdata =>
    obtain ⟨d, -, rfl⟩ := List.mem_map.mp hdata
    have hpath : dataPath entry.key d.1 = secPrefix ++ (entry.key ++ "/SecretData/" ++ d.1) := by
      rw [dataPath]
      simp only [String.append_assoc]
    have hlen : secSuffix.toList.length ≤ (entry.key ++ "/SecretData/" ++ d.1).toList.length := by
      have hmid : ("/SecretData/" : String).toList.length = 12 := rfl
      have hsuf : secSuffix.toList.length = 11 := rfl
      simp only [String.toList_append, List.length_append]
      omega
    dsimp only at h ⊢
    rw [hpath] at h ⊢
    exact exists_namePath_of_length hlen h
  | inr hname => exact ⟨entry.key, by rw [List.mem_singleton.mp hname]⟩

theorem secretDataPrefix_namePath (key name : String) :
    secretDataPrefix (namePath key) ++ name = dataPath key name := by
  have htake : (namePath key).toList.take
      ((namePath key).toList.length + 1 - secSuffix.toList.length) =
        (secPrefix ++ key ++ "/").toList := by
    have hsplit : namePath key = secPrefix ++ key ++ "/" ++ "SecretName" := by
      have hslash : "/SecretName" = "/" ++ "SecretName" := rfl
      rw [namePath, hslash, ← String.append_assoc]
    have hsuf : secSuffix.toList.length = 11 := rfl
    have hname : ("SecretName" : String).toList.length = 10 := rfl
    rw [hsplit, String.toList_append, List.length_append, hsuf, hname]
    exact List.take_left' (by omega)
  rw [secretDataPrefix, htake, String.ofList_toList, dataPath]
  simp only [String.append_assoc]
  rfl

-- ════════════════════════════════════════════════════════════════════════
-- Rebuilding
-- ════════════════════════════════════════════════════════════════════════

section Rebuild

variable {config : Option IotData} {entries : List InsecureEntry} {confmap : IotMap}

/-- What the configuration map has below the prefix is what is written. -/
theorem lookup_written (hsecrets : HasSecrets config entries)
    (hfree : ∀ key, confmap.lookup key ≠ none → ¬ InsecureKey key) {path : String}
    (hpath : InsecureKey path) :
    (confmap.addAll (insecureSecretsMap config)).lookup path = writtenSecret entries path := by
  have hnone : confmap.lookup path = none := by
    by_contra hsome
    exact hfree path hsome hpath
  rw [IotMap.lookup_addAll, insecureSecretsMap_eq hsecrets, hnone, Option.or_none]
  rfl

theorem insecureKey_namePath (key : String) : InsecureKey (namePath key) := by
  rw [namePath, String.append_assoc]
  exact insecureKey_append _

theorem insecureKey_dataPath (key name : String) : InsecureKey (dataPath key name) := by
  rw [dataPath, String.append_assoc, String.append_assoc]
  exact insecureKey_append _

/-- The names that are found, and where. -/
theorem secretName_found_iff (hsecrets : HasSecrets config entries)
    (hfree : ∀ key, confmap.lookup key ≠ none → ¬ InsecureKey key) {path : String} {v : IotData} :
    (isSecretName path = true ∧
        (confmap.addAll (insecureSecretsMap config)).lookup path = some v) ↔
      ∃ key, path = namePath key ∧ writtenSecret entries (namePath key) = some v := by
  constructor
  · rintro ⟨hmark, hfound⟩
    have hinsecure : InsecureKey path := by
      rw [isSecretName, Bool.and_eq_true, decide_eq_true_iff] at hmark
      exact hmark.1
    rw [lookup_written hsecrets hfree hinsecure] at hfound
    obtain ⟨e, hmem, rfl⟩ := List.exists_mem_of_lookup_ne_none
      (by rw [← writtenSecret, hfound]; simp)
    obtain ⟨entry, -, hmem⟩ := List.mem_flatMap.mp (List.mem_reverse.mp hmem)
    obtain ⟨key, hkey⟩ := exists_namePath hmem hmark
    exact ⟨key, hkey, hkey ▸ hfound⟩
  · rintro ⟨key, rfl, hwritten⟩
    refine ⟨isSecretName_namePath key, ?_⟩
    rw [lookup_written hsecrets hfree (insecureKey_namePath key), hwritten]

/-- What is collected for a name is what is written below its path. -/
theorem secretsBelow_namePath_iff (hsecrets : HasSecrets config entries)
    (hfree : ∀ key, confmap.lookup key ≠ none → ¬ InsecureKey key) (key : String) (m : IotMap) :
    (secretsBelow (confmap.addAll (insecureSecretsMap config))
        (secretDataPrefix (namePath key))).data = m.data ↔
      ∀ name, writtenSecret entries (dataPath key name) = m.lookup name := by
  have hlookup (name : String) : (secretsBelow (confmap.addAll (insecureSecretsMap config))
      (secretDataPrefix (namePath key))).lookup name =
        writtenSecret entries (dataPath key name) := by
    rw [lookup_secretsBelow, secretDataPrefix_namePath,
      lookup_written hsecrets hfree (insecureKey_dataPath key name)]
  constructor
  · intro hdata name
    rw [IotMap.data, IotMap.data, IotData.map.injEq] at hdata
    rw [← hlookup, IotMap.lookup, hdata]
    rfl
  · intro h
    refine congrArg IotMap.data (IotMap.eq_of_lookup fun name => ?_)
    rw [hlookup, h]

/-- The last path of a name, in terms of what is written. -/
theorem lastNamed_iff (hsecrets : HasSecrets config entries)
    (hfree : ∀ key, confmap.lookup key ≠ none → ¬ InsecureKey key) {name path : String} :
    LastNamed (confmap.addAll (insecureSecretsMap config)) name path ↔
      ∃ key, path = namePath key ∧ writtenSecret entries (namePath key) = some (.string name) ∧
        ∀ key', writtenSecret entries (namePath key') = some (.string name) →
          namePath key' ≤ namePath key := by
  constructor
  · rintro ⟨hname, hfound, hmax⟩
    obtain ⟨key, rfl, hwritten⟩ := (secretName_found_iff hsecrets hfree).mp ⟨hname, hfound⟩
    refine ⟨key, rfl, hwritten, fun key' hwritten' => ?_⟩
    obtain ⟨hname', hfound'⟩ := (secretName_found_iff hsecrets hfree).mpr ⟨key', rfl, hwritten'⟩
    exact hmax _ hname' hfound'
  · rintro ⟨key, rfl, hwritten, hmax⟩
    obtain ⟨hname, hfound⟩ := (secretName_found_iff hsecrets hfree).mpr ⟨key, rfl, hwritten⟩
    refine ⟨hname, hfound, fun path' hname' hfound' => ?_⟩
    obtain ⟨key', rfl, hwritten'⟩ := (secretName_found_iff hsecrets hfree).mp ⟨hname', hfound'⟩
    exact hmax key' hwritten'

theorem marksClear_of_rebuilt (hsecrets : HasSecrets config entries)
    (hfree : ∀ key, confmap.lookup key ≠ none → ¬ InsecureKey key)
    (h : Rebuilt entries (insecureParseConfig (confmap.addAll (insecureSecretsMap config)))) :
    MarksClear entries := by
  obtain ⟨m, hm, hrebuilt⟩ := h
  obtain ⟨hstring, hlookup⟩ := (insecureParseConfig_eq_some_iff _ _).mp hm
  refine ⟨?_, ?_⟩
  · intro key v hwritten
    obtain ⟨hname, hfound⟩ := (secretName_found_iff hsecrets hfree).mpr ⟨key, rfl, hwritten⟩
    obtain ⟨name, rfl⟩ := hstring _ _ hname hfound
    obtain ⟨d, hd⟩ := exists_lookup_of_secretName hm hname hfound
    obtain ⟨entry, hentry, rfl, -⟩ := (hrebuilt _ _).mp hd
    exact ⟨entry, hentry, rfl⟩
  · intro entry hentry
    obtain ⟨path, hlast, hbelow⟩ :=
      (hlookup _ _).mp ((hrebuilt _ _).mpr ⟨entry, hentry, rfl, rfl⟩)
    obtain ⟨key, rfl, hwritten, hmax⟩ := (lastNamed_iff hsecrets hfree).mp hlast
    exact ⟨key, hwritten, hmax, (secretsBelow_namePath_iff hsecrets hfree key _).mp hbelow⟩

theorem rebuilt_of_marksClear (hsecrets : HasSecrets config entries)
    (hfree : ∀ key, confmap.lookup key ≠ none → ¬ InsecureKey key) (hclear : MarksClear entries) :
    Rebuilt entries (insecureParseConfig (confmap.addAll (insecureSecretsMap config))) := by
  have hstring (path : String) (v : IotData) (hname : isSecretName path = true)
      (hfound : (confmap.addAll (insecureSecretsMap config)).lookup path = some v) :
      ∃ name, v = .string name := by
    obtain ⟨key, -, hwritten⟩ := (secretName_found_iff hsecrets hfree).mp ⟨hname, hfound⟩
    obtain ⟨entry, -, hv⟩ := hclear.named key v hwritten
    exact ⟨_, hv⟩
  obtain ⟨m, hm⟩ := exists_insecureParseConfig hstring
  obtain ⟨-, hlookup⟩ := (insecureParseConfig_eq_some_iff _ _).mp hm
  refine ⟨m, hm, fun name d => (hlookup name d).trans ⟨?_, ?_⟩⟩
  · rintro ⟨path, hlast, rfl⟩
    obtain ⟨key, rfl, hwritten, hmax⟩ := (lastNamed_iff hsecrets hfree).mp hlast
    obtain ⟨entry, hentry, hv⟩ := hclear.named key _ hwritten
    cases hv
    obtain ⟨last, hlastwritten, hlastmax, hdata⟩ := hclear.last entry hentry
    have hpath : namePath key = namePath last :=
      le_antisymm (hlastmax key hwritten) (hmax last hlastwritten)
    refine ⟨entry, hentry, rfl, ?_⟩
    rw [hpath]
    exact ((secretsBelow_namePath_iff hsecrets hfree last _).mpr hdata).symm
  · rintro ⟨entry, hentry, rfl, rfl⟩
    obtain ⟨last, hwritten, hmax, hdata⟩ := hclear.last entry hentry
    exact ⟨namePath last, (lastNamed_iff hsecrets hfree).mpr ⟨last, rfl, hwritten, hmax⟩,
      (secretsBelow_namePath_iff hsecrets hfree last _).mpr hdata⟩

/-- The secrets are rebuilt exactly when their paths are clear. -/
theorem insecureParseConfig_rebuilt_iff (hsecrets : HasSecrets config entries)
    (hfree : ∀ key, confmap.lookup key ≠ none → ¬ InsecureKey key) :
    Rebuilt entries (insecureParseConfig (confmap.addAll (insecureSecretsMap config))) ↔
      MarksClear entries :=
  ⟨marksClear_of_rebuilt hsecrets hfree, rebuilt_of_marksClear hsecrets hfree⟩

end Rebuild

-- ════════════════════════════════════════════════════════════════════════
-- Ordinary secrets
-- ════════════════════════════════════════════════════════════════════════

/-- Keys and names are there once, no key of a datum ends like the path of a name, and no key of an
    entry goes on with `/SecretData` behind that of another. -/
structure PlainSecrets (entries : List InsecureEntry) : Prop where
  keys : (entries.map InsecureEntry.key).Nodup
  names : (entries.map InsecureEntry.secretName).Nodup
  data : ∀ entry ∈ entries, ∀ d ∈ entry.secretData.entries,
    ¬ secSuffix.toList <:+ ("/" ++ d.1).toList
  apart : ∀ e ∈ entries, ∀ f ∈ entries, ¬ (e.key ++ "/SecretData").toList <+: f.key.toList

theorem namePath_injective {key key' : String} (h : namePath key = namePath key') : key = key' := by
  rw [namePath, namePath, String.append_left_inj, String.append_right_inj] at h
  exact h

theorem toList_namePath (key : String) :
    (namePath key).toList =
      secPrefix.toList ++ (key.toList ++ '/' :: ("SecretName" : String).toList) := by
  rw [namePath, String.append_assoc, String.toList_append, String.toList_append]
  rfl

theorem toList_dataPath (key name : String) :
    (dataPath key name).toList =
      secPrefix.toList ++ (key.toList ++ ("/SecretData".toList ++ '/' :: name.toList)) := by
  have hmid : ("/SecretData/" : String).toList = "/SecretData".toList ++ ['/'] := rfl
  rw [dataPath, String.append_assoc, String.append_assoc, String.toList_append,
    String.toList_append, String.toList_append, hmid, List.append_assoc, List.singleton_append]

/-- The path of a name that is also one of a datum is that of an entry below the datum's. -/
theorem prefix_of_namePath_eq_dataPath {key key' name : String}
    (h : namePath key' = dataPath key name) :
    (key ++ "/SecretData").toList <+: key'.toList ∧ secSuffix.toList <:+ ("/" ++ name).toList := by
  have hlist := congrArg String.toList h
  rw [toList_namePath, toList_dataPath, List.append_cancel_left_eq, ← List.append_assoc,
    ← String.toList_append] at hlist
  have hcases : key'.toList ++ '/' :: "SecretName".toList <+: (key ++ "/SecretData").toList ∨
      (key ++ "/SecretData").toList <+: key'.toList := by
    refine Text.prefix_or_prefix_of_append_eq (a := []) (b := name.toList) (by decide) ?_
    rw [List.append_nil, hlist]
  rcases hcases with hle | ⟨r, hr⟩
  · have hlen := hle.length_le
    have hname := congrArg List.length hlist
    simp only [String.toList_append, List.length_append, List.length_cons] at hname hlen
    have hn : ("SecretName" : String).toList.length = 10 := rfl
    have hd : ("/SecretData" : String).toList.length = 11 := rfl
    omega
  · refine ⟨⟨r, hr⟩, r, ?_⟩
    rw [← hr, List.append_assoc, List.append_cancel_left_eq] at hlist
    rw [String.toList_append]
    exact hlist

/-- A path of data that belongs to two entries. -/
theorem prefix_of_dataPath_eq {key key' name name' : String}
    (h : dataPath key name = dataPath key' name') :
    (key ++ "/SecretData").toList <+: key'.toList ∨ key'.toList <+: key.toList := by
  have hlist := congrArg String.toList h
  rw [toList_dataPath, toList_dataPath, List.append_cancel_left_eq] at hlist
  rw [String.toList_append]
  exact Text.prefix_or_prefix_of_append_eq (t := ("SecretData" : String).toList) (by decide) hlist

section Plain

variable {entries : List InsecureEntry} (h : PlainSecrets entries)

include h

/-- The paths of ordinary data belong to one entry each. -/
theorem PlainSecrets.eq_of_dataPath {e f : InsecureEntry} (he : e ∈ entries) (hf : f ∈ entries)
    {name name' : String} (hpath : dataPath e.key name = dataPath f.key name') :
    e = f ∧ name = name' := by
  have hle := (prefix_of_dataPath_eq hpath).resolve_left (h.apart e he f hf)
  have hge := (prefix_of_dataPath_eq hpath.symm).resolve_left (h.apart f hf e he)
  have hkey : e.key = f.key := String.toList_inj.mp (hge.eq_of_length_le hle.length_le)
  refine ⟨List.inj_on_of_nodup_map h.keys he hf hkey, ?_⟩
  rw [dataPath, dataPath, hkey, String.append_right_inj] at hpath
  exact hpath

theorem PlainSecrets.exists_of_namePath {key : String} {v : IotData}
    (hmem : (namePath key, v) ∈ (entries.flatMap InsecureEntry.paths).reverse) :
    ∃ e ∈ entries, e.key = key ∧ v = .string e.secretName := by
  obtain ⟨e, he, hmem⟩ := List.mem_flatMap.mp (List.mem_reverse.mp hmem)
  cases List.mem_append.mp hmem with
  | inl hdata =>
    obtain ⟨d, hd, heq⟩ := List.mem_map.mp hdata
    obtain ⟨hpath, -⟩ := Prod.mk.inj heq
    exact absurd (prefix_of_namePath_eq_dataPath hpath.symm).2 (h.data e he d hd)
  | inr hname =>
    obtain ⟨hpath, rfl⟩ := Prod.mk.inj (List.mem_singleton.mp hname)
    exact ⟨e, he, (namePath_injective hpath).symm, rfl⟩

theorem PlainSecrets.written_namePath {key : String} {v : IotData}
    (hv : writtenSecret entries (namePath key) = some v) :
    ∃ e ∈ entries, e.key = key ∧ v = .string e.secretName := by
  obtain ⟨l₁, l₂, hl, -⟩ := List.lookup_eq_some_iff.mp hv
  refine h.exists_of_namePath ?_
  rw [hl]
  exact List.mem_append_right _ List.mem_cons_self

theorem PlainSecrets.written_dataPath {e : InsecureEntry} (he : e ∈ entries) (name : String) :
    writtenSecret entries (dataPath e.key name) = e.secretData.lookup name := by
  have hone : ∀ w, (dataPath e.key name, w) ∈ (entries.flatMap InsecureEntry.paths).reverse →
      e.secretData.lookup name = some w := by
    intro w hw
    obtain ⟨f, hf, hmem⟩ := List.mem_flatMap.mp (List.mem_reverse.mp hw)
    cases List.mem_append.mp hmem with
    | inl hdata =>
      obtain ⟨d, hd, heq⟩ := List.mem_map.mp hdata
      obtain ⟨hpath, rfl⟩ := Prod.mk.inj heq
      obtain ⟨rfl, rfl⟩ := h.eq_of_dataPath hf he hpath
      exact f.secretData.mem_entries_iff.mp hd
    | inr hname =>
      obtain ⟨hpath, -⟩ := Prod.mk.inj (List.mem_singleton.mp hname)
      exact absurd (prefix_of_namePath_eq_dataPath hpath.symm).1 (h.apart e he f hf)
  cases hd : e.secretData.lookup name with
  | none =>
    rw [writtenSecret, List.lookup_eq_none_iff]
    rintro ⟨path, w⟩ hw
    rw [bne_iff_ne, ne_eq]
    rintro rfl
    rw [hone w hw] at hd
    cases hd
  | some v =>
    refine List.lookup_eq_some_of_forall ?_ fun w hw => ?_
    · refine List.mem_reverse.mpr (List.mem_flatMap.mpr ⟨e, he, List.mem_append_left _ ?_⟩)
      exact List.mem_map.mpr ⟨_, e.secretData.mem_entries_iff.mpr hd, rfl⟩
    · rw [hone w hw, Option.some_inj] at hd
      exact hd

/-- Ordinary secrets are rebuilt. -/
theorem marksClear_of_plain : MarksClear entries := by
  refine ⟨?_, ?_⟩
  · intro key v hv
    obtain ⟨e, he, -, hname⟩ := h.written_namePath hv
    exact ⟨e, he, hname⟩
  · intro e he
    refine ⟨e.key, ?_, ?_, h.written_dataPath he⟩
    · refine List.lookup_eq_some_of_forall ?_ fun w hw => ?_
      · refine List.mem_reverse.mpr (List.mem_flatMap.mpr ⟨e, he, List.mem_append_right _ ?_⟩)
        exact List.mem_singleton_self _
      · obtain ⟨f, hf, hkey, rfl⟩ := h.exists_of_namePath hw
        rw [List.inj_on_of_nodup_map h.keys hf he hkey]
    · intro key' hwritten
      obtain ⟨f, hf, rfl, hname⟩ := h.written_namePath hwritten
      rw [IotData.string.injEq] at hname
      rw [List.inj_on_of_nodup_map h.names he hf hname]

end Plain

/-- One entry, with one datum. -/
def oneSecret (name : String) (value : IotData) : InsecureEntry where
  key := "mqtt"
  secretName := "credentials"
  secretData := IotMap.empty.add name value

/-- The section of a configuration file for it. -/
def oneSecretFile (name : String) (value : IotData) : Option IotData :=
  some (.map [("Writable", .map [("InsecureSecrets", .map [("mqtt", .map
    [("SecretData", .map [(name, value)]), ("SecretName", .string "credentials")])])])])

theorem oneSecretFile_hasSecrets (name : String) (value : IotData) :
    HasSecrets (oneSecretFile name value) [oneSecret name value] :=
  ⟨_, rfl, .cons ⟨rfl, rfl, rfl⟩ .nil⟩

/-- Two entries, with a name and a password each. -/
def login (key secretName user : String) : InsecureEntry where
  key
  secretName
  secretData :=
    { entries := [("password", .string "changeme"), ("username", .string user)]
      ordered := List.pairwise_pair.mpr (show "password" < "username" by decide) }

def twoLogins : List InsecureEntry := [login "DB" "redisdb" "default", login "mqtt" "bus" "core"]

/-- The section of a configuration file for an entry, and for both. -/
def loginSection (entry : InsecureEntry) : String × IotData :=
  (entry.key, .map [("SecretData", entry.secretData.data),
    ("SecretName", .string entry.secretName)])

def twoLoginsFile : Option IotData :=
  some (.map [("Writable", .map [("InsecureSecrets", .map (twoLogins.map loginSection))])])

theorem twoLoginsFile_hasSecrets : HasSecrets twoLoginsFile twoLogins :=
  ⟨_, rfl, .cons ⟨rfl, rfl, rfl⟩ (.cons ⟨rfl, rfl, rfl⟩ .nil)⟩

theorem twoLogins_plain : PlainSecrets twoLogins where
  keys := by decide
  names := by decide
  data := by
    have hnames : ∀ name ∈ ["password", "username"],
        ¬ secSuffix.toList <:+ ("/" ++ name).toList := by decide +kernel
    intro entry hentry d hd
    have hname : d.1 ∈ ["password", "username"] := by
      have hmem := List.mem_map_of_mem (f := Prod.fst) hd
      rcases List.mem_pair.mp hentry with rfl | rfl <;> exact hmem
    exact hnames d.1 hname
  apart := by
    have hkeys : ∀ key ∈ ["DB", "mqtt"], ∀ key' ∈ ["DB", "mqtt"],
        ¬ (key ++ "/SecretData").toList <+: key'.toList := by decide +kernel
    have hmem {e : InsecureEntry} (he : e ∈ twoLogins) : e.key ∈ ["DB", "mqtt"] :=
      List.mem_map_of_mem (f := InsecureEntry.key) he
    exact fun e he f hf => hkeys e.key (hmem he) f.key (hmem hf)

/-- Both names have their user names and passwords again. -/
theorem insecureParseConfig_rebuilt_logins :
    Rebuilt twoLogins
      (insecureParseConfig (IotMap.empty.addAll (insecureSecretsMap twoLoginsFile))) :=
  (insecureParseConfig_rebuilt_iff twoLoginsFile_hasSecrets (fun _ h => absurd rfl h)).mpr
    (marksClear_of_plain twoLogins_plain)

/-- A datum under a key that ends like the path of a name becomes a name. -/
theorem insecureParseConfig_data_key :
    ¬ ∀ (config : Option IotData) (entries : List InsecureEntry) (confmap : IotMap),
      HasSecrets config entries → (entries.map InsecureEntry.secretName).Nodup →
        (∀ key, confmap.lookup key ≠ none → ¬ InsecureKey key) →
          Rebuilt entries (insecureParseConfig (confmap.addAll (insecureSecretsMap config))) := by
  intro h
  obtain ⟨m, hm, hrebuilt⟩ := h _ _ .empty
    (oneSecretFile_hasSecrets "db/SecretName" (.string "root")) (List.nodup_singleton _)
    (fun key hkey => absurd rfl hkey)
  have hroot : ((insecureParseConfig (IotMap.empty.addAll (insecureSecretsMap
      (oneSecretFile "db/SecretName" (.string "root"))))).bind fun m => m.lookup "root").isSome =
        true := by
    decide +kernel
  rw [hm, Option.bind_some] at hroot
  obtain ⟨d, hd⟩ := Option.isSome_iff_exists.mp hroot
  obtain ⟨entry, hentry, hname, -⟩ := (hrebuilt _ _).mp hd
  obtain rfl := List.mem_singleton.mp hentry
  exact absurd hname (by decide)

end DeviceSdk
