import DeviceSdk.Keeper.Tree

/-!
# The common configuration in Keeper

`edgex_keeper_client_get_common_config` waits for the flag that the common configuration is
complete, and fetches the settings for all services and those for device services. The fetch
already takes the key of the subtree away from the names, and the names are then searched for
it once more.

## Main definitions

- `waitCommon` — the wait
- `getCommonConfig` — `edgex_keeper_client_get_common_config`
- `expectedCommon` — the value of a name, by the two subtrees
- `CommonClear` — the stores on which the second search does no harm

## Main results

- `getCommonConfig_expected_iff` — when every name gets the value it should
-/

namespace DeviceSdk

/-- The root of the common configuration. -/
def commonRoot : String := "edgex/v4/core-common-config-bootstrapper"

def allServicesRoot : String := commonRoot ++ "/all-services"

def deviceServicesRoot : String := commonRoot ++ "/device-services"

/-- The flag that ends the wait, in the reply to one poll. -/
def commonReady (reply : KeeperReply) : Bool :=
  let r := getTree commonRoot reply
  r.2.isNone && nvpairsValue r.1 "IsCommonConfigReady" == some "true"

/-- The loop that waits for the common configuration: whether it ends within some polls, each
    with its reply and whether the time is up after it. -/
def waitCommon : List (KeeperReply × Bool) → Bool
  | [] => false
  | (reply, timeUp) :: polls => commonReady reply || timeUp || waitCommon polls

/-- The new name of a setting for all services. -/
def allServicesName (name : String) : String :=
  (Text.behindFirst "all-services/" name).getD name

/-- One turn of the loop over the settings for device services. -/
def addDeviceSetting (result : NvPairs) (p : String × String) : NvPairs :=
  match Text.behindFirst "device-services/" p.1 with
  | some name => (name, p.2) :: result
  | none => result

/-- The part of `edgex_keeper_client_get_common_config` behind the wait, which is the same
    whether the flag was found or the time was up. -/
def fetchCommon (store : KvStore) : NvPairs × Option TreeError :=
  let all := getTree allServicesRoot (store.reply allServicesRoot)
  let result := if all.2.isSome then [] else all.1
  let result := result.map fun p => (allServicesName p.1, p.2)
  let privateConfig := getTree deviceServicesRoot (store.reply deviceServicesRoot)
  (privateConfig.1.foldl addDeviceSetting result, privateConfig.2)

/-- `edgex_keeper_client_get_common_config`. There is no result while it waits. -/
def getCommonConfig (polls : List (KeeperReply × Bool)) (store : KvStore) :
    Option (NvPairs × Option TreeError) :=
  if waitCommon polls then some (fetchCommon store) else none

/-- The value that is stored for all services under a name. -/
def allServicesValue (store : KvStore) (name : String) : Option String :=
  store.lookup (allServicesRoot ++ "/" ++ name)

/-- The value that is stored for device services under a name. -/
def deviceServicesValue (store : KvStore) (name : String) : Option String :=
  store.lookup (deviceServicesRoot ++ "/" ++ name)

/-- The value of a name: that for device services, or else that for all services. -/
def expectedCommon (store : KvStore) (name : String) : Option String :=
  (deviceServicesValue store name).or (allServicesValue store name)

/-- The settings for device services whose name contains the name of the subtree once more, by
    what stands behind it. -/
def strayed (store : KvStore) : NvPairs :=
  (store.below deviceServicesRoot).filterMap fun p =>
    (Text.behindFirst "device-services/" p.1).map fun name => (name, p.2)

/-- The store has no name for the two searches to go wrong on. No name of a setting contains
    `all-services/`; where the name of a setting for device services contains
    `device-services/`, what stands behind it is a name with the same value; and any other
    setting for device services is a setting for all services as well, with the same value. -/
structure CommonClear (store : KvStore) : Prop where
  unmarked_all : ∀ e ∈ store.below allServicesRoot, ¬ Text.Occurs "all-services/" e.1
  unmarked_device : ∀ e ∈ store.below deviceServicesRoot, ¬ Text.Occurs "all-services/" e.1
  strayed : ∀ name value, nvpairsValue (strayed store) name = some value →
    expectedCommon store name = some value
  covered : ∀ name value, deviceServicesValue store name = some value →
    nvpairsValue (DeviceSdk.strayed store) name = none → allServicesValue store name = some value

/-- The loop over the settings for device services keeps those that the search finds. -/
theorem foldl_addDeviceSetting (ps result : NvPairs) :
    ps.foldl addDeviceSetting result =
      (ps.filterMap fun p =>
        (Text.behindFirst "device-services/" p.1).map fun name => (name, p.2)).reverse ++ result := by
  induction ps generalizing result with
  | nil => rfl
  | cons p ps ih =>
    rw [List.foldl_cons, ih, List.filterMap_cons, addDeviceSetting]
    cases Text.behindFirst "device-services/" p.1 with
    | none => rfl
    | some name => simp

/-- The list that is returned, for a store. -/
theorem fetchCommon_pairs (store : KvStore) :
    (fetchCommon store).1 =
      strayed store ++
        ((store.below allServicesRoot).map fun p => (allServicesName p.1, p.2)).reverse := by
  have hall : (if (getTree allServicesRoot (store.reply allServicesRoot)).2.isSome then []
      else (getTree allServicesRoot (store.reply allServicesRoot)).1) =
        (store.below allServicesRoot).reverse := by
    rw [getTree_reply]
    by_cases hnil : store.below allServicesRoot = []
    · simp [hnil]
    · simp [hnil]
  simp only [fetchCommon, hall]
  rw [getTree_reply, foldl_addDeviceSetting, List.filterMap_reverse, List.reverse_reverse,
    List.map_reverse]
  rfl

theorem lookup_fetchCommon (store : KvStore) (name : String) :
    nvpairsValue (fetchCommon store).1 name =
      (nvpairsValue (strayed store) name).or
        (nvpairsValue ((store.below allServicesRoot).map
          fun p => (allServicesName p.1, p.2)).reverse name) := by
  rw [fetchCommon_pairs, nvpairsValue, List.lookup_append]
  rfl

theorem allServicesName_of_unmarked {name : String} (h : ¬ Text.Occurs "all-services/" name) :
    allServicesName name = name := by
  rw [allServicesName, Text.behindFirst_eq_none_iff.mpr h]
  rfl

/-- Where no name contains `all-services/`, every setting for all services keeps its name. -/
theorem lookup_allServices {store : KvStore}
    (h : ∀ e ∈ store.below allServicesRoot, ¬ Text.Occurs "all-services/" e.1) (name : String) :
    nvpairsValue ((store.below allServicesRoot).map
      fun p => (allServicesName p.1, p.2)).reverse name = allServicesValue store name := by
  have hmap : (store.below allServicesRoot).map (fun p => (allServicesName p.1, p.2)) =
      store.below allServicesRoot := by
    refine (List.map_congr_left fun p hp => ?_).trans (List.map_id _)
    rw [allServicesName_of_unmarked (h p hp)]
    rfl
  rw [hmap, nvpairsValue, List.lookup_reverse_of_nodup (store.below_keys_nodup _)]
  exact store.lookup_below allServicesRoot name

/-- A name that is returned is that of a setting, or the end of a longer one. Where the name
    contains `all-services/`, it is the end of a longer one. -/
theorem longer_of_returned {store : KvStore} {name : String}
    (hname : Text.Occurs "all-services/" name)
    (h : nvpairsValue (fetchCommon store).1 name ≠ none) :
    ∃ e ∈ store.below allServicesRoot ++ store.below deviceServicesRoot,
      Text.Occurs "all-services/" e.1 ∧ name.length < e.1.length := by
  rw [fetchCommon_pairs] at h
  obtain ⟨e, he, rfl⟩ := List.exists_mem_of_lookup_ne_none h
  cases List.mem_append.mp he with
  | inl hstray =>
    obtain ⟨m, hm, hfound⟩ := List.mem_filterMap.mp hstray
    obtain ⟨n, hn, rfl⟩ := Option.map_eq_some_iff.mp hfound
    obtain ⟨p, hp⟩ := Text.behindFirst_eq_some hn
    refine ⟨m, List.mem_append_right _ hm, ?_, ?_⟩
    · rw [hp]
      exact (hname.append_left _).append_left p
    · have hpos : 0 < ("device-services/" : String).length := by decide
      simp only [hp, String.length_append]
      omega
  | inr hall =>
    obtain ⟨m, hm, rfl⟩ := List.mem_map.mp (List.mem_reverse.mp hall)
    refine ⟨m, List.mem_append_left _ hm, ?_⟩
    rw [allServicesName] at hname ⊢
    cases hn : Text.behindFirst "all-services/" m.1 with
    | none =>
      rw [hn] at hname
      exact absurd hname (Text.behindFirst_eq_none_iff.mp hn)
    | some n =>
      rw [hn] at hname
      obtain ⟨p, hp⟩ := Text.behindFirst_eq_some hn
      refine ⟨?_, ?_⟩
      · rw [hp]
        exact (hname.append_left _).append_left p
      · have hpos : 0 < ("all-services/" : String).length := by decide
        simp only [hp, String.length_append, Option.getD_some]
        omega

/-- Every setting has a value to be expected. -/
theorem expectedCommon_ne_none {store : KvStore} {e : String × String}
    (h : e ∈ store.below allServicesRoot ++ store.below deviceServicesRoot) :
    expectedCommon store e.1 ≠ none := by
  obtain ⟨name, value⟩ := e
  rw [expectedCommon]
  cases List.mem_append.mp h with
  | inl h =>
    have hall : allServicesValue store name = some value := by
      rw [allServicesValue, ← store.lookup_below]
      exact (List.lookup_eq_some_iff_mem (store.below_keys_nodup _)).mpr h
    simp [hall]
  | inr h =>
    have hdev : deviceServicesValue store name = some value := by
      rw [deviceServicesValue, ← store.lookup_below]
      exact (List.lookup_eq_some_iff_mem (store.below_keys_nodup _)).mpr h
    simp [hdev]

/-- Where every name gets the value it should, no name contains `all-services/`: the longest
    such name would be missing. -/
theorem unmarked_of_expected {store : KvStore}
    (h : ∀ name, nvpairsValue (fetchCommon store).1 name = expectedCommon store name) :
    ∀ e ∈ store.below allServicesRoot ++ store.below deviceServicesRoot,
      ¬ Text.Occurs "all-services/" e.1 := by
  intro e he hmark
  let marked := (store.below allServicesRoot ++ store.below deviceServicesRoot).toFinset.filter
    fun e => Text.Occurs "all-services/" e.1
  have hne : marked.Nonempty := ⟨e, by simpa [marked, hmark] using List.mem_append.mp he⟩
  obtain ⟨m, hm, hmax⟩ := marked.exists_max_image (fun e => e.1.length) hne
  obtain ⟨hmem, hocc⟩ := Finset.mem_filter.mp hm
  have hret : nvpairsValue (fetchCommon store).1 m.1 ≠ none := by
    rw [h]
    exact expectedCommon_ne_none (List.mem_toFinset.mp hmem)
  obtain ⟨l, hl, hlocc, hlt⟩ := longer_of_returned hocc hret
  have hle := hmax l (Finset.mem_filter.mpr ⟨List.mem_toFinset.mpr hl, hlocc⟩)
  omega

/-- Every name gets the value it should exactly on the stores that are clear. -/
theorem fetchCommon_expected_iff (store : KvStore) :
    (∀ name, nvpairsValue (fetchCommon store).1 name = expectedCommon store name) ↔
      CommonClear store := by
  constructor
  · intro h
    have hunmarked := unmarked_of_expected h
    have hall : ∀ e ∈ store.below allServicesRoot, ¬ Text.Occurs "all-services/" e.1 :=
      fun e he => hunmarked e (List.mem_append_left _ he)
    refine ⟨hall, fun e he => hunmarked e (List.mem_append_right _ he), ?_, ?_⟩
    · intro name value hs
      rw [← h, lookup_fetchCommon, hs, Option.some_or]
    · intro name value hd hs
      have hexp := h name
      rw [lookup_fetchCommon, hs, Option.none_or, lookup_allServices hall, expectedCommon, hd,
        Option.some_or] at hexp
      exact hexp
  · intro hc name
    rw [lookup_fetchCommon, lookup_allServices hc.unmarked_all]
    cases hs : nvpairsValue (strayed store) name with
    | some value => rw [Option.some_or, hc.strayed name value hs]
    | none =>
      rw [Option.none_or, expectedCommon]
      cases hd : deviceServicesValue store name with
      | none => rw [Option.none_or]
      | some value => rw [hc.covered name value hd hs, Option.some_or]

/-- The wait ends at the first poll of a store with the flag. -/
theorem commonReady_reply {store : KvStore}
    (h : store.lookup (commonRoot ++ "/IsCommonConfigReady") = some "true") :
    commonReady (store.reply commonRoot) = true := by
  have hvalue : nvpairsValue (store.below commonRoot) "IsCommonConfigReady" = some "true" := by
    rw [store.lookup_below, String.append_assoc]
    exact h
  have hne : store.below commonRoot ≠ [] := by
    intro hnil
    rw [hnil] at hvalue
    cases hvalue
  have hrev :
      nvpairsValue (store.below commonRoot).reverse "IsCommonConfigReady" = some "true" := by
    rw [nvpairsValue, List.lookup_reverse_of_nodup (store.below_keys_nodup _)]
    exact hvalue
  simp [commonReady, getTree_reply, hne, hrev]

/-- For a store in which the common configuration is complete, the call returns at its first
    poll, and what it returns has the right value for every name exactly when the store is
    clear. -/
theorem getCommonConfig_expected_iff (store : KvStore)
    (hready : store.lookup (commonRoot ++ "/IsCommonConfigReady") = some "true") (timeUp : Bool) :
    (∃ r, getCommonConfig [(store.reply commonRoot, timeUp)] store = some r ∧
      ∀ name, nvpairsValue r.1 name = expectedCommon store name) ↔ CommonClear store := by
  have hwait : waitCommon [(store.reply commonRoot, timeUp)] = true := by
    rw [waitCommon, commonReady_reply hready]
    rfl
  rw [← fetchCommon_expected_iff, getCommonConfig, if_pos hwait]
  constructor
  · rintro ⟨r, hr, h⟩
    cases hr
    exact h
  · exact fun h => ⟨_, rfl, h⟩

/-- A store with a setting for all services. -/
def hostStore : KvStore :=
  (AList.insert (allServicesRoot ++ "/Service/Host") "localhost" ∅).insert
    (commonRoot ++ "/IsCommonConfigReady") "true"

theorem hostStore_clear : CommonClear hostStore := by
  have hdevice : hostStore.below deviceServicesRoot = [] := by decide +kernel
  refine ⟨by decide +kernel, ?_, ?_, ?_⟩
  · rw [hdevice]
    exact fun e he => absurd he List.not_mem_nil
  · intro name value h
    rw [strayed, hdevice] at h
    cases h
  · intro name value h
    rw [deviceServicesValue, ← KvStore.lookup_below, hdevice] at h
    cases h

/-- The setting is returned. -/
theorem getCommonConfig_expected_host :
    ∃ r, getCommonConfig [(hostStore.reply commonRoot, false)] hostStore = some r ∧
      ∀ name, nvpairsValue r.1 name = expectedCommon hostStore name :=
  (getCommonConfig_expected_iff hostStore (AList.lookup_insert _) false).mpr hostStore_clear

/-- A store with a setting for device services only. -/
def maxCmdOpsStore : KvStore :=
  (AList.insert (deviceServicesRoot ++ "/Device/MaxCmdOps") "50" ∅).insert
    (commonRoot ++ "/IsCommonConfigReady") "true"

/-- The setting is not returned. -/
theorem device_setting_dropped :
    ¬ ∀ (store : KvStore),
      store.lookup (commonRoot ++ "/IsCommonConfigReady") = some "true" → ∀ timeUp : Bool,
        ∃ r, getCommonConfig [(store.reply commonRoot, timeUp)] store = some r ∧
          ∀ name, nvpairsValue r.1 name = expectedCommon store name := by
  intro h
  obtain ⟨r, hr, hvalue⟩ := h maxCmdOpsStore (AList.lookup_insert _) false
  have hdropped : nvpairsValue (fetchCommon maxCmdOpsStore).1 "Device/MaxCmdOps" = none := by
    decide +kernel
  have hstored : expectedCommon maxCmdOpsStore "Device/MaxCmdOps" = some "50" := by
    have hne : deviceServicesRoot ++ "/" ++ "Device/MaxCmdOps" ≠
        commonRoot ++ "/IsCommonConfigReady" := by
      simp [deviceServicesRoot, commonRoot]
    have hdev : deviceServicesValue maxCmdOpsStore "Device/MaxCmdOps" = some "50" := by
      rw [deviceServicesValue, maxCmdOpsStore, AList.lookup_insert_ne hne]
      exact AList.lookup_insert _
    rw [expectedCommon, hdev, Option.some_or]
  rw [getCommonConfig] at hr
  split at hr
  next =>
    rw [Option.some_inj] at hr
    rw [← hvalue, ← hr, hdropped] at hstored
    cases hstored
  next => cases hr

end DeviceSdk
