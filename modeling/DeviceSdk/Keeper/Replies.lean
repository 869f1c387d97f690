import DeviceSdk.Config.Start
import DeviceSdk.Keeper.Common
import DeviceSdk.Lib.Matching

/-!
# Malformed replies of Keeper

`edgex_keeper_get_tree` collects the pairs while it goes through the elements of a reply, and stops
at an element that is malformed. What it has by then is returned along with the error. Of its
callers, one drops a list that comes with an error, and the others do not look. The keys are
compared with the root as texts, so that keys beside the root that only start alike are taken too.

## Main definitions

- `KeeperReply.rows` — the keys and values of a reply without a flaw
- `relativeName` — a key, by its name below the root
- `TreeWhole`, `CommonWhole`, `StartWhole` — all or nothing, for the function and its callers
- `TreeClear` — the replies for which it is so

## Main results

- `replies_whole_iff` — the three of them, each with its condition
-/

namespace DeviceSdk

/-- An element of a reply. There is nothing where it is malformed. -/
def rowOf : Json → Option (String × String)
  | .object members =>
    match memberString members "key", memberString members "value" with
    | some key, some value => some (key, value)
    | _, _ => none
  | _ => none

/-- The elements in front of the first one that is malformed. -/
def frontRows : List Json → NvPairs
  | [] => []
  | element :: elements =>
    match rowOf element with
    | some row => row :: frontRows elements
    | none => []

/-- The array of a reply that has the right shape and status. -/
def KeeperReply.elements : KeeperReply → Option (List Json)
  | .body (some (.object members)) =>
    if statusOk members then
      match members.lookup "response" with
      | some (.array elements) => some elements
      | _ => none
    else none
  | _ => none

/-- What a reply has in front of its first malformed element. -/
def KeeperReply.front (reply : KeeperReply) : NvPairs := (reply.elements.map frontRows).getD []

/-- The keys and values of a reply that has no flaw. -/
def KeeperReply.rows (reply : KeeperReply) : Option NvPairs :=
  reply.elements.bind fun elements => elements.mapM rowOf

/-- The name of a key that is the root or lies below it. -/
def relativeName (root key : String) : Option String :=
  if key = root then some "" else Text.behind (root ++ "/") key

/-- The pairs that a reply without a flaw stands for. -/
def namedRows (root : String) (rows : NvPairs) : NvPairs :=
  rows.filterMap fun row => (relativeName root row.1).map fun name => (name, row.2)

/-- All or nothing: a reply with a flaw gives an error and no pair, any other exactly the pairs
    that it stands for. -/
def TreeWhole (keyroot : String) (reply : KeeperReply) : Prop :=
  match reply.rows with
  | none => (getTree keyroot reply).2.isSome ∧ (getTree keyroot reply).1 = []
  | some rows =>
    (getTree keyroot reply).2 = none ∧ (getTree keyroot reply).1.Perm (namedRows keyroot rows)

/-- No key starts with the root. -/
def Foreign (root : String) (rows : NvPairs) : Prop := ∀ row ∈ rows, Text.behind root row.1 = none

/-- Where an element is malformed, no key in front of the first such element starts with the root.
    Where none is, the keys that start with it are the root itself or go on with a slash. -/
def TreeClear (keyroot : String) (reply : KeeperReply) : Prop :=
  match reply.rows with
  | none => Foreign keyroot reply.front
  | some rows =>
    ∀ row ∈ rows, Text.behind keyroot row.1 = none ∨ relativeName keyroot row.1 ≠ none

-- ════════════════════════════════════════════════════════════════════════
-- The loop
-- ════════════════════════════════════════════════════════════════════════

/-- The pair that the loop makes of a row. -/
def treePair (keyroot : String) (row : String × String) : Option (String × String) :=
  (Text.behind keyroot row.1).map fun suffix => (skipSlash suffix, row.2)

theorem treePair_eq_none_iff {keyroot : String} {row : String × String} :
    treePair keyroot row = none ↔ Text.behind keyroot row.1 = none :=
  Option.map_eq_none_iff

/-- The elements of a reply have no flaw when all of them are in front. -/
theorem mapM_rowOf_cons (element : Json) (elements : List Json) :
    (element :: elements).mapM rowOf =
      (rowOf element).bind fun row => (elements.mapM rowOf).map (row :: ·) := by
  rw [List.mapM_cons]
  cases rowOf element with
  | none => rfl
  | some row => cases elements.mapM rowOf <;> rfl

theorem frontRows_of_mapM {elements : List Json} {rows : NvPairs}
    (h : elements.mapM rowOf = some rows) : frontRows elements = rows := by
  induction elements generalizing rows with
  | nil =>
    rw [List.mapM_nil] at h
    cases h
    rfl
  | cons element elements ih =>
    rw [mapM_rowOf_cons] at h
    obtain ⟨row, hrow, h⟩ := Option.bind_eq_some_iff.mp h
    obtain ⟨rest, hrest, rfl⟩ := Option.map_eq_some_iff.mp h
    rw [frontRows, hrow, ih hrest]

/-- One turn of the loop, by what the element is. -/
theorem treeLoop_cons (keyroot : String) (element : Json) (elements : List Json)
    (result : NvPairs) :
    treeLoop keyroot (element :: elements) result =
      match rowOf element with
      | some row => treeLoop keyroot elements ((treePair keyroot row).toList ++ result)
      | none => (result, some .registryResponse) := by
  cases element with
  | object members =>
    simp only [treeLoop, rowOf]
    cases memberString members "key" with
    | none => rfl
    | some key =>
      cases memberString members "value" with
      | none => rfl
      | some value =>
        simp only [treePair]
        cases Text.behind keyroot key <;> rfl
  | null | bool | number | uint | string | array => rfl

/-- The loop takes the pairs of the elements in front, and fails when these are not all. -/
theorem treeLoop_eq (keyroot : String) (elements : List Json) (result : NvPairs) :
    treeLoop keyroot elements result =
      (((frontRows elements).filterMap (treePair keyroot)).reverse ++ result,
        if (elements.mapM rowOf).isSome then none else some .registryResponse) := by
  induction elements generalizing result with
  | nil => rfl
  | cons element elements ih =>
    rw [treeLoop_cons, frontRows, mapM_rowOf_cons]
    cases rowOf element with
    | none => rfl
    | some row =>
      dsimp only
      rw [ih, Option.bind_some, Option.isSome_map, List.filterMap_cons]
      cases treePair keyroot row with
      | none => rfl
      | some pair => simp

theorem getTree_of_elements {reply : KeeperReply} {elements : List Json}
    (h : reply.elements = some elements) (keyroot : String) :
    getTree keyroot reply = treeLoop keyroot elements [] := by
  match reply, h with
  | .body (some (.object members)), h =>
    rw [KeeperReply.elements] at h
    rw [getTree]
    split at h
    next hok =>
      rw [if_pos hok]
      cases hlookup : members.lookup "response" with
      | none =>
        rw [hlookup] at h
        cases h
      | some response =>
        rw [hlookup] at h
        cases response with
        | array elements' =>
          obtain rfl := Option.some.inj h
          rfl
        | null | bool | number | uint | string | object => cases h
    next => cases h

theorem getTree_of_no_elements {reply : KeeperReply} (h : reply.elements = none)
    (keyroot : String) : ∃ e, getTree keyroot reply = ([], some e) := by
  match reply, h with
  | .failed, _ => exact ⟨.http, rfl⟩
  | .body (some (.object members)), h =>
    rw [KeeperReply.elements] at h
    rw [getTree]
    refine ⟨.registryResponse, ?_⟩
    split at h
    next hok =>
      rw [if_pos hok]
      cases hlookup : members.lookup "response" with
      | none => rfl
      | some response =>
        rw [hlookup] at h
        cases response with
        | array elements => cases h
        | null | bool | number | uint | string | object => rfl
    next hok => rw [if_neg hok]
  | .body none, _ | .body (some .null), _ | .body (some (.bool _)), _
  | .body (some (.number _)), _ | .body (some (.uint _)), _ | .body (some (.string _)), _
  | .body (some (.array _)), _ => exact ⟨.registryResponse, rfl⟩

/-- The pairs that are returned come from the elements in front of the first malformed one. -/
theorem getTree_pairs (keyroot : String) (reply : KeeperReply) :
    (getTree keyroot reply).1 = (reply.front.filterMap (treePair keyroot)).reverse := by
  rw [KeeperReply.front]
  cases h : reply.elements with
  | none =>
    obtain ⟨e, he⟩ := getTree_of_no_elements h keyroot
    rw [he]
    rfl
  | some elements =>
    rw [getTree_of_elements h, treeLoop_eq, List.append_nil]
    rfl

/-- An error is reported for exactly the replies with a flaw. -/
theorem getTree_error_iff (keyroot : String) (reply : KeeperReply) :
    (getTree keyroot reply).2.isSome = true ↔ reply.rows = none := by
  rw [KeeperReply.rows]
  cases h : reply.elements with
  | none =>
    obtain ⟨e, he⟩ := getTree_of_no_elements h keyroot
    simp [he]
  | some elements =>
    rw [getTree_of_elements h, treeLoop_eq, Option.bind_some]
    cases elements.mapM rowOf <;> simp

/-- The pairs of a reply without a flaw. -/
theorem getTree_of_rows {reply : KeeperReply} {rows : NvPairs} (h : reply.rows = some rows)
    (keyroot : String) :
    getTree keyroot reply = ((rows.filterMap (treePair keyroot)).reverse, none) := by
  obtain ⟨elements, helements, hrows⟩ := Option.bind_eq_some_iff.mp h
  rw [getTree_of_elements helements, treeLoop_eq, List.append_nil, frontRows_of_mapM hrows, hrows]
  rfl

-- ════════════════════════════════════════════════════════════════════════
-- All or nothing
-- ════════════════════════════════════════════════════════════════════════

/-- A name relative to the root is what the loop makes of a key at or below it. -/
theorem treePair_of_relativeName {root : String} {row : String × String} {name : String}
    (h : relativeName root row.1 = some name) : treePair root row = some (name, row.2) := by
  obtain ⟨key, value⟩ := row
  rw [relativeName] at h
  rw [treePair]
  split at h
  next heq =>
    dsimp only at heq
    subst heq
    cases h
    have hself : Text.behind key key = some "" :=
      Text.behind_eq_some_iff.mpr (String.append_empty).symm
    rw [hself]
    rfl
  next =>
    have hkey : key = root ++ ("/" ++ name) := by
      rw [← String.append_assoc]
      exact Text.behind_eq_some_iff.mp h
    rw [hkey, Text.behind_append, Option.map_some, skipSlash_append]

/-- The pairs of a reply without a flaw are those that it stands for when every key that starts
    with the root is at or below it. -/
theorem filterMap_treePair_perm_iff (root : String) (rows : NvPairs) :
    ((rows.filterMap (treePair root)).Perm (namedRows root rows)) ↔
      ∀ row ∈ rows, Text.behind root row.1 = none ∨ relativeName root row.1 ≠ none := by
  have hpart : ∀ row ∈ rows, (relativeName root row.1).map (fun name => (name, row.2)) = none ∨
      (relativeName root row.1).map (fun name => (name, row.2)) = treePair root row := by
    intro row _
    cases hrel : relativeName root row.1 with
    | none => exact Or.inl rfl
    | some name => exact Or.inr (treePair_of_relativeName hrel).symm
  rw [namedRows, Matching.filterMap_perm_iff hpart]
  refine forall₂_congr fun row _ => ?_
  cases hrel : relativeName root row.1 with
  | none => simp [treePair_eq_none_iff]
  | some name => simp [treePair_of_relativeName hrel]

theorem getTree_pairs_eq_nil_iff (keyroot : String) (reply : KeeperReply) :
    (getTree keyroot reply).1 = [] ↔ Foreign keyroot reply.front := by
  rw [getTree_pairs, List.reverse_eq_nil_iff, List.filterMap_eq_nil_iff]
  exact forall₂_congr fun row _ => treePair_eq_none_iff

theorem treeWhole_iff (keyroot : String) (reply : KeeperReply) :
    TreeWhole keyroot reply ↔ TreeClear keyroot reply := by
  rw [TreeWhole, TreeClear]
  cases h : reply.rows with
  | none =>
    dsimp only
    rw [getTree_error_iff, getTree_pairs_eq_nil_iff]
    exact and_iff_right h
  | some rows =>
    dsimp only
    rw [getTree_of_rows h, ← filterMap_treePair_perm_iff, and_iff_right rfl]
    exact (List.reverse_perm _).congr_left _

-- ════════════════════════════════════════════════════════════════════════
-- The callers
-- ════════════════════════════════════════════════════════════════════════

/-- The part of `edgex_keeper_client_get_common_config` behind the wait, for any two replies. -/
def fetchCommonReplies (all device : KeeperReply) : NvPairs × Option TreeError :=
  let all := getTree allServicesRoot all
  let result := if all.2.isSome then [] else all.1
  let result := result.map fun p => (allServicesName p.1, p.2)
  let privateConfig := getTree deviceServicesRoot device
  (privateConfig.1.foldl addDeviceSetting result, privateConfig.2)

theorem fetchCommon_eq_replies (store : KvStore) :
    fetchCommon store =
      fetchCommonReplies (store.reply allServicesRoot) (store.reply deviceServicesRoot) := rfl

/-- A list of pairs, as the pointer to its first one. -/
def pairsPointer (pairs : NvPairs) : Option NvPairs := if pairs = [] then none else some pairs

/-- What `devsdk_service_start` gets from the registry, for the replies to its requests. The errors
    are not looked at. -/
def registryOfReplies (keyroot : String) (all device priv : KeeperReply) : RegistryState where
  overwrite := false
  commonconf := pairsPointer (fetchCommonReplies all device).1
  regconf := pairsPointer (getTree keyroot priv).1

/-- The lists that `devsdk_service_start` applies to the configuration. -/
def RegistryState.applied (registry : RegistryState) : List NvPairs :=
  if registry.overwrite then []
  else match registry.commonconf with
    | none => []
    | some commonconf => commonconf :: registry.regconf.toList

/-- The configuration is that of the files and the environment, with the lists applied to it. -/
theorem registryConfig_configmap {lib : ConfigLib} {l : LocalConfig} {registry : RegistryState}
    {r : StartResult} (h : registryConfig lib l registry = some r) :
    r.configmap = registry.applied.foldl (applyRegistry lib) l.configmap := by
  rw [registryConfig] at h
  rw [RegistryState.applied]
  split at h
  next hover =>
    rw [if_pos hover]
    cases h
    rfl
  next hover =>
    rw [if_neg hover]
    obtain ⟨commonconf, hcommon, h⟩ := Option.map_eq_some_iff.mp h
    rw [hcommon]
    cases hreg : registry.regconf with
    | none =>
      rw [hreg] at h
      cases h
      rfl
    | some regconf =>
      rw [hreg] at h
      cases h
      rfl

/-- A reply with a flaw, counted as one that failed. -/
def KeeperReply.orFailed (reply : KeeperReply) : KeeperReply :=
  if reply.rows.isSome then reply else .failed

/-- The common configuration has nothing of a reply with a flaw. -/
def CommonWhole (all device : KeeperReply) : Prop :=
  (fetchCommonReplies all device).1 = (fetchCommonReplies all.orFailed device.orFailed).1

/-- `devsdk_service_start` applies nothing of a reply with a flaw. -/
def StartWhole (keyroot : String) (all device priv : KeeperReply) : Prop :=
  (registryOfReplies keyroot all device priv).applied =
    (registryOfReplies keyroot all.orFailed device.orFailed priv.orFailed).applied

/-- No key has the name of the subtree for device services once more behind the root of it. -/
def Unrepeated (rows : NvPairs) : Prop :=
  ∀ row ∈ rows, ∀ suffix, Text.behind deviceServicesRoot row.1 = some suffix →
    ¬ Text.Occurs "device-services/" (skipSlash suffix)

/-- Where an element of the reply for device services is malformed, no key in front of it has the
    name of the subtree twice. -/
def DeviceClear (device : KeeperReply) : Prop := device.rows = none → Unrepeated device.front

/-- The two replies for the common configuration have no setting that is kept. -/
def CommonAbsent (all device : KeeperReply) : Prop :=
  (∀ rows, all.rows = some rows → Foreign allServicesRoot rows) ∧ Unrepeated device.front

/-- The reply for device services is clear, and with settings from the common configuration, no
    key in front of a malformed element of the last reply starts with the root. -/
def StartClear (keyroot : String) (all device priv : KeeperReply) : Prop :=
  DeviceClear device ∧
    (¬ CommonAbsent all device → priv.rows = none → Foreign keyroot priv.front)

/-- The settings for all services that are kept. -/
def keptAll (all : KeeperReply) : NvPairs :=
  (if (getTree allServicesRoot all).2.isSome then [] else (getTree allServicesRoot all).1).map
    fun p => (allServicesName p.1, p.2)

/-- The settings for device services that are kept. -/
def keptDevice (device : KeeperReply) : NvPairs :=
  (device.front.filterMap (treePair deviceServicesRoot)).filterMap fun p =>
    (Text.behindFirst "device-services/" p.1).map fun name => (name, p.2)

theorem fetchCommonReplies_pairs (all device : KeeperReply) :
    (fetchCommonReplies all device).1 = keptDevice device ++ keptAll all := by
  simp only [fetchCommonReplies]
  rw [getTree_pairs deviceServicesRoot, foldl_addDeviceSetting, List.filterMap_reverse,
    List.reverse_reverse]
  rfl

theorem orFailed_of_rows {reply : KeeperReply} {rows : NvPairs} (h : reply.rows = some rows) :
    reply.orFailed = reply := by
  rw [KeeperReply.orFailed, h]
  rfl

theorem orFailed_of_flaw {reply : KeeperReply} (h : reply.rows = none) :
    reply.orFailed = .failed := by
  rw [KeeperReply.orFailed, h]
  rfl

/-- The list for all services is dropped when it comes with an error. -/
theorem keptAll_orFailed (all : KeeperReply) : keptAll all.orFailed = keptAll all := by
  cases h : all.rows with
  | some rows => rw [orFailed_of_rows h]
  | none =>
    rw [orFailed_of_flaw h, keptAll, keptAll, if_pos ((getTree_error_iff _ _).mpr h)]
    rfl

theorem keptAll_eq_nil_iff (all : KeeperReply) :
    keptAll all = [] ↔ ∀ rows, all.rows = some rows → Foreign allServicesRoot rows := by
  rw [keptAll, List.map_eq_nil_iff]
  cases h : all.rows with
  | none =>
    rw [if_pos ((getTree_error_iff _ _).mpr h)]
    simp
  | some rows =>
    rw [getTree_of_rows h, if_neg (by simp), List.reverse_eq_nil_iff, List.filterMap_eq_nil_iff]
    constructor
    · rintro hnil _ ⟨⟩
      exact fun row hrow => treePair_eq_none_iff.mp (hnil row hrow)
    · exact fun hforeign row hrow => treePair_eq_none_iff.mpr (hforeign rows rfl row hrow)

theorem keptDevice_eq_nil_iff (device : KeeperReply) :
    keptDevice device = [] ↔ Unrepeated device.front := by
  rw [keptDevice, List.filterMap_filterMap, List.filterMap_eq_nil_iff, Unrepeated]
  refine forall₂_congr fun row _ => ?_
  rw [treePair]
  cases Text.behind deviceServicesRoot row.1 with
  | none => simp
  | some suffix => simp [Text.behindFirst_eq_none_iff]

theorem fetchCommonReplies_eq_nil_iff (all device : KeeperReply) :
    (fetchCommonReplies all device).1 = [] ↔ CommonAbsent all device := by
  rw [fetchCommonReplies_pairs, List.append_eq_nil_iff, keptDevice_eq_nil_iff,
    keptAll_eq_nil_iff, and_comm]
  rfl

theorem commonWhole_iff (all device : KeeperReply) :
    CommonWhole all device ↔ DeviceClear device := by
  rw [CommonWhole, fetchCommonReplies_pairs, fetchCommonReplies_pairs, keptAll_orFailed,
    List.append_cancel_right_eq, DeviceClear]
  cases h : device.rows with
  | some rows =>
    rw [orFailed_of_rows h]
    simp
  | none =>
    rw [orFailed_of_flaw h, ← keptDevice_eq_nil_iff, forall_prop_of_true rfl]
    rfl

theorem getTree_orFailed_iff (keyroot : String) (priv : KeeperReply) :
    (getTree keyroot priv).1 = (getTree keyroot priv.orFailed).1 ↔
      (priv.rows = none → Foreign keyroot priv.front) := by
  cases h : priv.rows with
  | some rows =>
    rw [orFailed_of_rows h]
    simp
  | none =>
    rw [orFailed_of_flaw h, ← getTree_pairs_eq_nil_iff, forall_prop_of_true rfl]
    rfl

/-- The lists that are applied are the same when the lists that were returned are, the second of
    which is not asked for without the first. -/
theorem applied_eq_iff (common common' priv priv' : NvPairs) :
    RegistryState.applied ⟨false, pairsPointer common, pairsPointer priv⟩ =
        RegistryState.applied ⟨false, pairsPointer common', pairsPointer priv'⟩ ↔
      common = common' ∧ (common ≠ [] → priv = priv') := by
  rcases common with _ | ⟨c, cs⟩ <;> rcases common' with _ | ⟨c', cs'⟩ <;>
    rcases priv with _ | ⟨p, ps⟩ <;> rcases priv' with _ | ⟨p', ps'⟩ <;>
    simp [RegistryState.applied, pairsPointer]

theorem startWhole_iff (keyroot : String) (all device priv : KeeperReply) :
    StartWhole keyroot all device priv ↔ StartClear keyroot all device priv := by
  rw [StartWhole, registryOfReplies, registryOfReplies, applied_eq_iff, ← CommonWhole,
    commonWhole_iff, ne_eq, fetchCommonReplies_eq_nil_iff, getTree_orFailed_iff, StartClear]

/-- Keeper's replies are taken as a whole or not at all, by the function and by its callers, under
    exactly these conditions. -/
theorem replies_whole_iff (keyroot : String) (all device priv : KeeperReply) :
    (TreeWhole keyroot priv ↔ TreeClear keyroot priv) ∧
      (CommonWhole all device ↔ DeviceClear device) ∧
      (StartWhole keyroot all device priv ↔ StartClear keyroot all device priv) :=
  ⟨treeWhole_iff keyroot priv, commonWhole_iff all device,
    startWhole_iff keyroot all device priv⟩

/-- A setting of a service, and behind it an element that is no object. -/
def brokenReply : KeeperReply :=
  .body (some (.object [("statusCode", .uint 200), ("response", .array
    [KvStore.rowJson ("edgex/v4/device-virtual/Writable/LogLevel", "DEBUG"), .uint 5])]))

/-- The setting is returned, along with an error. -/
theorem replies_partial :
    ¬ ∀ (keyroot : String) (all device priv : KeeperReply),
      TreeWhole keyroot priv ∧ CommonWhole all device ∧ StartWhole keyroot all device priv := by
  intro h
  have hwhole := (h "edgex/v4/device-virtual" brokenReply brokenReply brokenReply).1
  have hrows : brokenReply.rows = none := by decide +kernel
  rw [TreeWhole, hrows] at hwhole
  have hpairs : (getTree "edgex/v4/device-virtual" brokenReply).1 ≠ [] := by decide +kernel
  exact hpairs hwhole.2

end DeviceSdk
