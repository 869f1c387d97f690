import DeviceSdk.Config.Override
import DeviceSdk.Lib.Text

/-!
# Trees of the Keeper registry

`edgex_keeper_get_tree` asks Keeper for everything below a key and turns the reply into a list
of names and values. The names are what is left of the keys when the key asked for is taken
away from their start.

## Main definitions

- `KeeperReply` — a reply of Keeper
- `getTree` — `edgex_keeper_get_tree`
- `KvStore`, `KvStore.reply` — the content of Keeper, and what it replies

## Main results

- `getTree_reply` — the pairs read from a store are its entries below the key
- `KvStore.lookup_below` — and each name has the value stored below the key
-/

namespace DeviceSdk

/-- A reply to a request for a key: an error of the transport or of Keeper, or a body, which
    may fail to be JSON. -/
inductive KeeperReply
  | failed
  | body (resp : Option Json)

/-- The errors of `edgex_keeper_get_tree`. -/
inductive TreeError
  | http
  /-- `EDGEX_REGISTRY_RESPONSE`. -/
  | registryResponse
  deriving DecidableEq, Repr

/-- `json_object_get_string`. -/
def memberString (members : List (String × Json)) (name : String) : Option String :=
  match members.lookup name with
  | some (.string s) => some s
  | _ => none

/-- The status code of a reply is 200. -/
def statusOk (members : List (String × Json)) : Bool :=
  match members.lookup "statusCode" with
  | some (.uint code) => decide (code = 200)
  | _ => false

/-- A slash at the start of a name is skipped. -/
def skipSlash (name : String) : String := (Text.behind "/" name).getD name

/-- The loop of `edgex_keeper_get_tree` over the elements of a reply. The new pair goes before
    those found already, and an element that is malformed ends the loop. -/
def treeLoop (keyroot : String) : List Json → NvPairs → NvPairs × Option TreeError
  | [], result => (result, none)
  | .object members :: elements, result =>
    match memberString members "key", memberString members "value" with
    | some key, some value =>
      match Text.behind keyroot key with
      | some suffix => treeLoop keyroot elements ((skipSlash suffix, value) :: result)
      | none => treeLoop keyroot elements result
    | _, _ => (result, some .registryResponse)
  | _ :: _, result => (result, some .registryResponse)

/-- `edgex_keeper_get_tree`. -/
def getTree (keyroot : String) : KeeperReply → NvPairs × Option TreeError
  | .failed => ([], some .http)
  | .body (some (.object members)) =>
    if statusOk members then
      match members.lookup "response" with
      | some (.array elements) => treeLoop keyroot elements []
      | _ => ([], some .registryResponse)
    else ([], some .registryResponse)
  | .body _ => ([], some .registryResponse)

-- ════════════════════════════════════════════════════════════════════════
-- The store
-- ════════════════════════════════════════════════════════════════════════

/-- The content of Keeper: a value under each key, in the order in which Keeper lists them. -/
abbrev KvStore := AList fun _ : String => String

namespace KvStore

/-- The entries below a key. -/
def rows (store : KvStore) (key : String) : NvPairs :=
  (store.entries.map fun e => (e.1, e.2)).filter fun e => (Text.behind (key ++ "/") e.1).isSome

/-- The entries below a key, by their names there. -/
def below (store : KvStore) (key : String) : NvPairs :=
  store.entries.filterMap fun e => (Text.behind (key ++ "/") e.1).map fun name => (name, e.2)

/-- An element of a reply. -/
def rowJson (row : String × String) : Json :=
  .object [("key", .string row.1), ("value", .string row.2)]

/-- What Keeper replies to a request for the plain texts below a key. -/
def reply (store : KvStore) (key : String) : KeeperReply :=
  if store.rows key = [] then .failed
  else .body (some (.object [("apiVersion", .string "v3"), ("statusCode", .uint 200),
    ("response", .array ((store.rows key).map rowJson))]))

end KvStore

theorem skipSlash_append (name : String) : skipSlash ("/" ++ name) = name := by
  rw [skipSlash, Text.behind_append]
  rfl

/-- An element for a key below the root gives one pair. -/
theorem treeLoop_row (keyroot name value : String) (elements : List Json) (result : NvPairs) :
    treeLoop keyroot (KvStore.rowJson (keyroot ++ "/" ++ name, value) :: elements) result =
      treeLoop keyroot elements ((name, value) :: result) := by
  have hkey : Text.behind keyroot (keyroot ++ "/" ++ name) = some ("/" ++ name) := by
    rw [String.append_assoc, Text.behind_append]
  rw [KvStore.rowJson, treeLoop]
  simp [memberString, List.lookup_cons_ite, hkey, skipSlash_append]

/-- The loop over a reply that lists entries below the root. -/
theorem treeLoop_rows (keyroot : String) (names result : NvPairs) :
    treeLoop keyroot (names.map fun e => KvStore.rowJson (keyroot ++ "/" ++ e.1, e.2)) result =
      (names.reverse ++ result, none) := by
  induction names generalizing result with
  | nil => rfl
  | cons e es ih =>
    rw [List.map_cons, treeLoop_row, ih, List.reverse_cons, List.append_assoc]
    rfl

namespace KvStore

theorem rows_eq_below (store : KvStore) (key : String) :
    store.rows key = (store.below key).map fun e => (key ++ "/" ++ e.1, e.2) := by
  rw [rows, below]
  induction store.entries with
  | nil => rfl
  | cons e es ih =>
    rw [List.map_cons, List.filter_cons, List.filterMap_cons]
    cases hb : Text.behind (key ++ "/") e.1 with
    | none => simpa [hb] using ih
    | some name =>
      simp [ih, Text.behind_eq_some_iff.mp hb]

/-- A name is there once below a key. -/
theorem below_keys_nodup (store : KvStore) (key : String) :
    ((store.below key).map Prod.fst).Nodup := by
  have hrows : ((store.rows key).map Prod.fst).Nodup := by
    have hkeys : ((store.entries.map fun e => (e.1, e.2)).map Prod.fst).Nodup := by
      rw [List.map_map]
      exact store.keys_nodup
    exact hkeys.sublist (List.filter_sublist.map _)
  rw [rows_eq_below, List.map_map] at hrows
  refine List.Nodup.of_map (fun name => key ++ "/" ++ name) ?_
  rwa [List.map_map]

/-- The names below a key have the values that are stored there. -/
theorem lookup_below (store : KvStore) (key name : String) :
    nvpairsValue (store.below key) name = store.lookup (key ++ "/" ++ name) := by
  rw [nvpairsValue, below, AList.lookup]
  induction store.entries with
  | nil => rfl
  | cons e es ih =>
    obtain ⟨k, v⟩ := e
    rw [List.filterMap_cons]
    cases hb : Text.behind (key ++ "/") k with
    | none =>
      have hne : k ≠ key ++ "/" ++ name := by
        rintro rfl
        rw [Text.behind_append] at hb
        cases hb
      rw [List.dlookup_cons_ne _ _ hne.symm]
      exact ih
    | some n =>
      obtain rfl := Text.behind_eq_some_iff.mp hb
      rw [Option.map_some]
      show List.lookup name ((n, v) :: _) = _
      rw [List.lookup_cons_ite]
      by_cases hn : name = n
      · subst hn
        rw [if_pos rfl, List.dlookup_cons_eq]
      · have hne : key ++ "/" ++ name ≠ key ++ "/" ++ n := by
          intro h
          exact hn ((String.append_right_inj (key ++ "/")).mp h)
        rw [if_neg hn, List.dlookup_cons_ne _ _ hne]
        exact ih

end KvStore

/-- What is read from a store: its entries below the key, the last one first, and an error when
    there are none. -/
theorem getTree_reply (store : KvStore) (keyroot : String) :
    getTree keyroot (store.reply keyroot) =
      ((store.below keyroot).reverse, if store.below keyroot = [] then some .http else none) := by
  rw [KvStore.reply, KvStore.rows_eq_below, List.map_map]
  by_cases hnil : store.below keyroot = []
  · simp [hnil, getTree]
  · have hrows : (store.below keyroot).map (fun e => (keyroot ++ "/" ++ e.1, e.2)) ≠ [] := by
      rwa [ne_eq, List.map_eq_nil_iff]
    rw [if_neg hrows, if_neg hnil]
    have h := treeLoop_rows keyroot (store.below keyroot) []
    rw [List.append_nil] at h
    exact h

end DeviceSdk
