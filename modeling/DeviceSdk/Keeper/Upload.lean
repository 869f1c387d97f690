import DeviceSdk.Keeper.Tree
import DeviceSdk.Lib.Double
import DeviceSdk.Lib.Segments
import DeviceSdk.Parson.Format
import DeviceSdk.Parson.Parse

/-!
# Uploading the configuration to Keeper

`edgex_keeper_client_write_config` turns the flat configuration map into one nested object,
which Keeper flattens again, and writes the keys that contain a dot one at a time.
`edgex_keeper_client_get_config` reads back everything below the root of the service.

## Main definitions

- `cfgItemToJson`, `dotset` — a value as JSON, and `json_object_dotset_value`
- `Json.leaves` — the leaves of an object, with their paths
- `leafText` — the text of a leaf, as `parson.c` writes it
- `KeeperLib` — the documents that are stored as they are
- `writeConfig`, `getConfig`

## Main results

- `leaves_dotset` — a value on a new path becomes one more leaf
- `readBack_perm` — what is read back after an upload
- `readBack_own_iff` — the configurations that come back as they were
-/

namespace DeviceSdk

/-- `cfg_item_to_json`. Signed numbers are converted to a double. -/
def cfgItemToJson : IotData → Option Json
  | .int t x =>
    if t.signed then some (.number (.finite (Double.ofInt x.toInt)))
    else some (.uint x.toNat)
  | .float32 x => if x.isFinite then some (.number x) else none
  | .float64 x => if x.isFinite then some (.number x) else none
  | .bool b => some (.bool b)
  | .string s => some (.string s)
  | _ => none

/-- The textual form of a truth value. -/
def boolText (b : Bool) : String := if b then "true" else "false"

/-- The textual form of a boolean, a string or an integer. -/
def ownText : IotData → Option String
  | .int t x => some (Int.repr (if t.signed then x.toInt else x.toNat))
  | .bool b => some (boolText b)
  | .string s => some s
  | _ => none

/-- A text of ASCII characters. -/
def asciiText (s : Parson.Bytes) : String := String.ofList (s.map fun b => Char.ofNat b.toNat)

/-- What Keeper shows of a leaf of an object that is stored flattened: a string without its quotes,
    and any other scalar as `json_serialize_to_buffer_r` writes it. There are no other leaves in a
    configuration. -/
def leafText : Json → String
  | .null => asciiText Parson.nullToken
  | .bool b => asciiText (if b then Parson.trueToken else Parson.falseToken)
  | .number (.finite x) => asciiText (Parson.printDouble (decide (x < 0)) |x|).text
  | .uint n => asciiText (Parson.printUint n)
  | .string s => s
  | _ => ""

/-- What is taken from the IoT library. -/
structure KeeperLib where
  /-- `iot_data_to_json`. A document that is not flattened is stored as it is. -/
  toJson : IotData → String
  toJson_length : ∀ entries, ∀ e ∈ entries, ∀ t, ownText e.2 = some t →
    t.length < (toJson (.map entries)).length

/-- `json_object_set_value` on the members of an object. -/
def setMember (name : String) (value : Json) : List (String × Json) → List (String × Json)
  | [] => [(name, value)]
  | (n, j) :: ms => if n = name then (n, value) :: ms else (n, j) :: setMember name value ms

/-- `json_object_dotset_value`, for a name that is cut at its dots. An object on the way is made
    where there is nothing, and any other value is not overwritten. -/
def dotset (value : Json) : List String → List (String × Json) → Option (List (String × Json))
  | [], _ => none
  | [name], members => some (setMember name value members)
  | name :: rest, members =>
    match members.lookup name with
    | some (.object inner) =>
      (dotset value rest inner).map fun inner => setMember name (.object inner) members
    | some _ => none
    | none => (dotset value rest []).map fun inner => setMember name (.object inner) members

/-- `json_object_dotset_value`. -/
def dotsetValue (members : List (String × Json)) (name : String) (value : Json) :
    Option (List (String × Json)) :=
  dotset value ((name.toList.splitOn '.').map String.ofList) members

mutual

/-- The leaves of a JSON value, each with its path. -/
def Json.leaves : Json → List (List String × Json)
  | .object members => membersLeaves members
  | .null => [([], .null)]
  | .bool b => [([], .bool b)]
  | .number x => [([], .number x)]
  | .uint n => [([], .uint n)]
  | .string s => [([], .string s)]
  | .array xs => [([], .array xs)]

/-- The leaves of the members of an object. -/
def membersLeaves : List (String × Json) → List (List String × Json)
  | [] => []
  | (name, j) :: ms => (Json.leaves j).map (fun l => (name :: l.1, l.2)) ++ membersLeaves ms

end

-- ════════════════════════════════════════════════════════════════════════
-- Requests
-- ════════════════════════════════════════════════════════════════════════

/-- The name for `json_object_dotset_value`: every slash becomes a dot. -/
def dotkey (k : String) : String :=
  String.ofList (k.toList.map fun c => if c = '/' then '.' else c)

/-- What `edgex_keeper_client_write_config` has collected: the nested object, and the keys with
    a dot. -/
structure Upload where
  flatConf : List (String × Json)
  dottedKeys : NvPairs

/-- A key with a dot. -/
def Dotted (k : String) : Prop := '.' ∈ k.toList

instance (k : String) : Decidable (Dotted k) := inferInstanceAs (Decidable (_ ∈ _))

/-- One turn of the loop of `edgex_keeper_client_write_config`. -/
def uploadItem (lib : KeeperLib) (config : IotMap) (u : Upload) (e : String × IotData) : Upload :=
  if Dotted e.1 then { u with dottedKeys := (e.1, lib.toJson config.data) :: u.dottedKeys }
  else
    match cfgItemToJson e.2 with
    | none => u
    | some value =>
      match dotsetValue u.flatConf (dotkey e.1) value with
      | none => u
      | some flatConf => { u with flatConf }

/-- The key that Keeper makes of a path. -/
def slashJoin (path : List String) : String :=
  String.ofList (['/'].intercalate (path.map String.toList))

/-- What Keeper does with a request to store an object flattened below a key. -/
def KvStore.putFlat (store : KvStore) (key : String) (members : List (String × Json)) : KvStore :=
  (membersLeaves members).foldl
    (fun s l => s.insert (key ++ "/" ++ slashJoin l.1) (leafText l.2)) store

/-- `edgex_keeper_client_write_config`, and what Keeper does with its requests. -/
def writeConfig (lib : KeeperLib) (store : KvStore) (keyRoot : String) (config : IotMap) :
    KvStore :=
  let u := config.entries.foldl (uploadItem lib config) ⟨[], []⟩
  u.dottedKeys.foldl (fun s p => s.insert (keyRoot ++ "/" ++ p.1) p.2)
    (store.putFlat keyRoot u.flatConf)

/-- `edgex_keeper_client_get_config`. -/
def getConfig (store : KvStore) (keyRoot : String) : NvPairs × Option TreeError :=
  getTree keyRoot (store.reply keyRoot)

/-- A member that is set takes the leaves of the one it replaces, and no others. -/
theorem leaves_setMember (name : String) (members : List (String × Json)) :
    ∃ others,
      (membersLeaves members).Perm
        ((((members.lookup name).map Json.leaves).getD []).map (fun l => (name :: l.1, l.2)) ++
          others) ∧
      ∀ value, (membersLeaves (setMember name value members)).Perm
        (value.leaves.map (fun l => (name :: l.1, l.2)) ++ others) := by
  induction members with
  | nil => exact ⟨[], by simp [membersLeaves], fun value => by simp [setMember, membersLeaves]⟩
  | cons m ms ih =>
    obtain ⟨n, j⟩ := m
    rw [List.lookup_cons_ite]
    by_cases hn : n = name
    · subst hn
      refine ⟨membersLeaves ms, ?_, ?_⟩
      · simp [membersLeaves]
      · intro value
        simp [setMember, membersLeaves]
    · obtain ⟨others, hold, hnew⟩ := ih
      refine ⟨j.leaves.map (fun l => (n :: l.1, l.2)) ++ others, ?_, ?_⟩
      · rw [if_neg (Ne.symm hn), membersLeaves]
        exact (hold.append_left _).trans (List.perm_append_comm_assoc _ _ _)
      · intro value
        rw [setMember, if_neg hn, membersLeaves]
        exact ((hnew value).append_left _).trans (List.perm_append_comm_assoc _ _ _)

/-- Neither of two paths leads through the other. -/
def Apart (p q : List String) : Prop := ¬ p <+: q ∧ ¬ q <+: p

theorem Apart.symm {p q : List String} (h : Apart p q) : Apart q p := ⟨h.2, h.1⟩

theorem Apart.of_cons {name : String} {p q : List String} (h : Apart (name :: p) (name :: q)) :
    Apart p q :=
  ⟨fun hpq => h.1 ((List.prefix_cons_inj name).mpr hpq),
    fun hqp => h.2 ((List.prefix_cons_inj name).mpr hqp)⟩

/-- A value that is no object. -/
def Json.IsLeaf (j : Json) : Prop := j.leaves = [([], j)]

theorem Json.isLeaf_or_object (j : Json) : j.IsLeaf ∨ ∃ members, j = .object members := by
  cases j with
  | object members => exact Or.inr ⟨members, rfl⟩
  | _ => exact Or.inl rfl

/-- The members of the object that a path leads to next, where it may be made anew. -/
def innerMembers (members : List (String × Json)) (name : String) : List (String × Json) :=
  match members.lookup name with
  | some (.object inner) => inner
  | _ => []

theorem dotset_cons {value : Json} {name : String} {rest : List String} (hr : rest ≠ [])
    {members : List (String × Json)} (h : ∀ j, members.lookup name = some j → ¬ j.IsLeaf) :
    dotset value (name :: rest) members =
      (dotset value rest (innerMembers members name)).map fun inner =>
        setMember name (.object inner) members := by
  obtain ⟨r, rs, rfl⟩ := List.exists_cons_of_ne_nil hr
  rw [dotset, innerMembers]
  · cases hl : members.lookup name with
    | none => rfl
    | some j =>
      cases j.isLeaf_or_object with
      | inl hleaf => exact absurd hleaf (h j hl)
      | inr hobj =>
        obtain ⟨inner, rfl⟩ := hobj
        rfl
  · simp

theorem leaves_innerMembers {members : List (String × Json)} {name : String}
    (h : ∀ j, members.lookup name = some j → ¬ j.IsLeaf) :
    ((members.lookup name).map Json.leaves).getD [] =
      membersLeaves (innerMembers members name) := by
  rw [innerMembers]
  cases hl : members.lookup name with
  | none => simp [membersLeaves]
  | some j =>
    cases j.isLeaf_or_object with
    | inl hleaf => exact absurd hleaf (h j hl)
    | inr hobj =>
      obtain ⟨inner, rfl⟩ := hobj
      simp [Json.leaves]

/-- A value on a path apart from those of all leaves becomes one more leaf. -/
theorem leaves_dotset {value : Json} (hv : value.IsLeaf) {path : List String} (hne : path ≠ [])
    {members : List (String × Json)} (hnew : ∀ l ∈ membersLeaves members, Apart path l.1) :
    ∃ members', dotset value path members = some members' ∧
      (membersLeaves members').Perm ((path, value) :: membersLeaves members) := by
  induction path generalizing members with
  | nil => exact absurd rfl hne
  | cons name rest ih =>
    obtain ⟨others, hold, hset⟩ := leaves_setMember name members
    by_cases hr : rest = []
    · subst hr
      -- A member under the name would have its leaves behind the path.
      have hnil : (((members.lookup name).map Json.leaves).getD []).map
          (fun l => (name :: l.1, l.2)) = [] := by
        refine List.eq_nil_iff_forall_not_mem.mpr fun l hl => ?_
        have hmem := hold.mem_iff.mpr (List.mem_append_left others hl)
        obtain ⟨k, -, rfl⟩ := List.mem_map.mp hl
        exact (hnew _ hmem).1 ⟨k.1, rfl⟩
      rw [hnil, List.nil_append] at hold
      refine ⟨setMember name value members, rfl, (hset value).trans ?_⟩
      rw [hv]
      exact (hold.symm.cons _)
    · have hleaf : ∀ j, members.lookup name = some j → ¬ j.IsLeaf := by
        intro j hl hj
        have hmem : ([name], j) ∈ membersLeaves members := by
          refine hold.mem_iff.mpr (List.mem_append_left others ?_)
          rw [hl]
          rw [Option.map_some, Option.getD_some, hj]
          exact List.mem_singleton_self _
        exact (hnew _ hmem).2 ⟨rest, rfl⟩
      rw [leaves_innerMembers hleaf] at hold
      have hinner : ∀ l ∈ membersLeaves (innerMembers members name), Apart rest l.1 := by
        intro l hl
        have hmem : (name :: l.1, l.2) ∈ membersLeaves members :=
          hold.mem_iff.mpr (List.mem_append_left others (List.mem_map.mpr ⟨l, hl, rfl⟩))
        exact (hnew _ hmem).of_cons
      obtain ⟨inner, hinner', hperm⟩ := ih hr hinner
      refine ⟨setMember name (.object inner) members, ?_, (hset _).trans ?_⟩
      · rw [dotset_cons hr hleaf, hinner']
        rfl
      · rw [Json.leaves]
        exact ((hperm.map _).append_right others).trans (hold.symm.cons _)

/-- The path of a key. -/
def keyPath (k : String) : List String := (k.toList.splitOn '/').map String.ofList

/-- A key is a slash-prefix of another. -/
def LeadsTo (a b : String) : Prop := (a ++ "/").toList <+: b.toList

instance (a b : String) : Decidable (LeadsTo a b) := inferInstanceAs (Decidable (_ <+: _))

theorem keyPath_ne_nil (k : String) : keyPath k ≠ [] := by
  rw [keyPath, ne_eq, List.map_eq_nil_iff]
  exact List.splitOn_ne_nil _ _

theorem keyPath_toList (k : String) : (keyPath k).map String.toList = k.toList.splitOn '/' := by
  rw [keyPath, List.map_map]
  exact List.map_id'' (fun _ => String.toList_ofList) _

/-- Keeper makes the key again of its path. -/
theorem slashJoin_keyPath (k : String) : slashJoin (keyPath k) = k := by
  rw [slashJoin, keyPath_toList, List.intercalate_splitOn, String.ofList_toList]

/-- A key without dots is cut at its slashes. -/
theorem dotkey_path {k : String} (h : ¬ Dotted k) :
    ((dotkey k).toList.splitOn '.').map String.ofList = keyPath k := by
  rw [dotkey, String.toList_ofList, Segments.splitOn_map_replace h]
  rfl

theorem apart_keyPath {a b : String} (hne : a ≠ b) (hab : ¬ LeadsTo a b) (hba : ¬ LeadsTo b a) :
    Apart (keyPath a) (keyPath b) := by
  have key : ∀ {a b : String}, a ≠ b → ¬ LeadsTo a b → ¬ keyPath a <+: keyPath b := by
    intro a b hne hab hp
    have hsplit := hp.map String.toList
    rw [keyPath_toList, keyPath_toList] at hsplit
    cases Segments.eq_or_below_of_splitOn '/' hsplit with
    | inl h => exact hne (String.toList_inj.mp h)
    | inr h =>
      rw [LeadsTo, String.toList_append] at hab
      exact hab h
  exact ⟨key hne hab, key hne.symm hba⟩

/-- A configuration whose values are booleans, strings and integers, and none of whose keys is a
    slash-prefix of another. -/
structure Uploadable (config : IotMap) : Prop where
  scalar : ∀ e ∈ config.entries, (ownText e.2).isSome
  apart : ∀ e ∈ config.entries, ∀ f ∈ config.entries, ¬ LeadsTo e.1 f.1

/-- The names and values that the collected requests store below the root. -/
def Upload.pairs (u : Upload) : NvPairs :=
  (membersLeaves u.flatConf).map (fun l => (slashJoin l.1, leafText l.2)) ++ u.dottedKeys

/-- The value that is sent for an entry: the whole configuration where the key has a dot. -/
def sentText (lib : KeeperLib) (config : IotMap) (e : String × IotData) : String :=
  if Dotted e.1 then lib.toJson config.data else ((cfgItemToJson e.2).map leafText).getD ""

theorem cfgItemToJson_of_scalar {v : IotData} (h : (ownText v).isSome) :
    ∃ j, cfgItemToJson v = some j ∧ j.IsLeaf := by
  cases v with
  | int t x =>
    rw [cfgItemToJson]
    split
    next => exact ⟨_, rfl, rfl⟩
    next => exact ⟨_, rfl, rfl⟩
  | bool b => exact ⟨_, rfl, rfl⟩
  | string s => exact ⟨_, rfl, rfl⟩
  | _ => cases h

variable (lib : KeeperLib) (config : IotMap)

/-- A turn of the loop adds one pair, and at most one leaf. -/
theorem uploadItem_spec {u : Upload} {e : String × IotData} (hs : (ownText e.2).isSome)
    (hnew : ∀ l ∈ membersLeaves u.flatConf, Apart (keyPath e.1) l.1) :
    ((uploadItem lib config u e).pairs).Perm ((e.1, sentText lib config e) :: u.pairs) ∧
      ∀ l ∈ membersLeaves (uploadItem lib config u e).flatConf,
        l.1 = keyPath e.1 ∨ l ∈ membersLeaves u.flatConf := by
  rw [uploadItem, sentText]
  by_cases hd : Dotted e.1
  · rw [if_pos hd, if_pos hd]
    exact ⟨List.perm_middle, fun l hl => Or.inr hl⟩
  · obtain ⟨j, hj, hleaf⟩ := cfgItemToJson_of_scalar hs
    obtain ⟨members, hset, hperm⟩ := leaves_dotset hleaf (keyPath_ne_nil e.1) hnew
    rw [← dotkey_path hd] at hset
    rw [if_neg hd, if_neg hd, hj]
    simp only [dotsetValue, hset]
    refine ⟨?_, ?_⟩
    · have hpairs := (hperm.map fun l => (slashJoin l.1, leafText l.2)).append_right u.dottedKeys
      rw [List.map_cons, slashJoin_keyPath] at hpairs
      exact hpairs
    · intro l hl
      cases List.mem_cons.mp (hperm.mem_iff.mp hl) with
      | inl h => exact Or.inl (congrArg Prod.fst h)
      | inr h => exact Or.inr h

/-- The loop adds one pair for each entry. -/
theorem foldl_uploadItem {es : List (String × IotData)} (hs : ∀ e ∈ es, (ownText e.2).isSome)
    (hapart : es.Pairwise fun e f => Apart (keyPath e.1) (keyPath f.1)) {u : Upload}
    (hnew : ∀ e ∈ es, ∀ l ∈ membersLeaves u.flatConf, Apart (keyPath e.1) l.1) :
    ((es.foldl (uploadItem lib config) u).pairs).Perm
      (es.map (fun e => (e.1, sentText lib config e)) ++ u.pairs) := by
  induction es generalizing u with
  | nil => exact List.Perm.refl _
  | cons e es ih =>
    obtain ⟨hfirst, hrest⟩ := List.pairwise_cons.mp hapart
    obtain ⟨hpairs, hleaves⟩ := uploadItem_spec lib config (hs e List.mem_cons_self)
      (hnew e List.mem_cons_self)
    have hnew' : ∀ f ∈ es, ∀ l ∈ membersLeaves (uploadItem lib config u e).flatConf,
        Apart (keyPath f.1) l.1 := by
      intro f hf l hl
      cases hleaves l hl with
      | inl h => exact h ▸ (hfirst f hf).symm
      | inr h => exact hnew f (List.mem_cons_of_mem e hf) l h
    have hes := ih (fun f hf => hs f (List.mem_cons_of_mem e hf)) hrest hnew'
    exact (hes.trans (hpairs.append_left _)).trans List.perm_middle

-- ════════════════════════════════════════════════════════════════════════
-- Reading back
-- ════════════════════════════════════════════════════════════════════════

theorem KvStore.below_perm {store : KvStore} {key : String} {names : NvPairs}
    (h : store.entries.Perm
      (names.map fun p => (⟨key ++ "/" ++ p.1, p.2⟩ : Sigma fun _ : String => String))) :
    (store.below key).Perm names := by
  refine (h.filterMap _).trans (List.Perm.of_eq ?_)
  rw [List.filterMap_map]
  refine (List.filterMap_congr fun p _ => ?_).trans List.filterMap_some
  simp [Text.behind_append]

/-- The requests of an upload, as one list. -/
theorem writeConfig_eq (store : KvStore) (keyRoot : String) :
    writeConfig lib store keyRoot config =
      (((config.entries.foldl (uploadItem lib config) ⟨[], []⟩).pairs).map
        fun p => (keyRoot ++ "/" ++ p.1, p.2)).foldl (fun s p => s.insert p.1 p.2) store := by
  rw [writeConfig, KvStore.putFlat, Upload.pairs, List.map_append, List.foldl_append,
    List.foldl_map, List.foldl_map, List.foldl_map]

theorem Uploadable.pairwise {config : IotMap} (h : Uploadable config) :
    config.entries.Pairwise fun e f => Apart (keyPath e.1) (keyPath f.1) :=
  config.ordered.imp_of_mem fun he hf hlt =>
    apart_keyPath hlt.ne (h.apart _ he _ hf) (h.apart _ hf _ he)

/-- What is read back after an upload to an empty store: one pair for each entry, with the value
    that was sent for it. -/
theorem readBack_perm {config : IotMap} (h : Uploadable config) (keyRoot : String) :
    (getConfig (writeConfig lib ∅ keyRoot config) keyRoot).1.Perm
      (config.entries.map fun e => (e.1, sentText lib config e)) := by
  have hpairs := foldl_uploadItem lib config h.scalar h.pairwise (u := ⟨[], []⟩)
    (fun _ _ l hl => by simp [membersLeaves] at hl)
  have hempty : Upload.pairs ⟨[], []⟩ = [] := by simp [Upload.pairs, membersLeaves]
  rw [hempty, List.append_nil] at hpairs
  have hkeys : ((((config.entries.foldl (uploadItem lib config) ⟨[], []⟩).pairs).map
      fun p => (keyRoot ++ "/" ++ p.1, p.2)).map Prod.fst).Nodup := by
    rw [((hpairs.map _).map _).nodup_iff, List.map_map, List.map_map]
    have hinj : Function.Injective fun k => keyRoot ++ "/" ++ k :=
      fun a b hab => (String.append_right_inj (keyRoot ++ "/")).mp hab
    have hnodup := config.keys_nodup.map hinj
    rwa [List.map_map] at hnodup
  have hentries := AList.entries_foldl_insert (m := ∅) hkeys (fun e _ => AList.notMem_empty e.1)
  rw [← writeConfig_eq, List.map_map] at hentries
  have hbelow := KvStore.below_perm (hentries.trans (List.Perm.of_eq (List.append_nil _)))
  rw [getConfig, getTree_reply]
  exact ((List.reverse_perm _).trans hbelow).trans hpairs

/-- A number of at most 32 bits is small. -/
theorem natAbs_toInt_le {w : ℕ} (hw : w ≤ 32) (x : BitVec w) : x.toInt.natAbs ≤ 2 ^ 32 := by
  have hpow : 2 ^ w ≤ 2 ^ 32 := Nat.pow_le_pow_right (by decide) hw
  have hlo := x.le_two_mul_toInt
  have hhi := x.two_mul_toInt_lt
  have hpow' : (2 : ℤ) ^ w ≤ 2 ^ 32 := by exact_mod_cast hpow
  omega

/-- A number of at most 32 bits is a double, and is written without an exponent. -/
theorem exact_toInt {w : ℕ} (hw : w ≤ 32) (x : BitVec w) :
    Double.Exact x.toInt ∧ x.toInt.natAbs < 10 ^ 17 :=
  ⟨Double.exact_of_lt (lt_of_le_of_lt (natAbs_toInt_le hw x) (by decide)),
    lt_of_le_of_lt (natAbs_toInt_le hw x) (by decide)⟩

-- ════════════════════════════════════════════════════════════════════════
-- The texts of leaves
-- ════════════════════════════════════════════════════════════════════════

theorem asciiText_append (s t : Parson.Bytes) :
    asciiText (s ++ t) = asciiText s ++ asciiText t := by
  rw [asciiText, List.map_append, String.ofList_append]
  rfl

/-- The digits of a number, as `printf` writes them. -/
theorem asciiText_printUint (n : ℕ) : asciiText (Parson.printUint n) = Nat.repr n := by
  have hchar : ((Nat.toDigits 10 n).map ((fun b => Char.ofNat b.toNat) ∘ Char.toUInt8)) =
      Nat.toDigits 10 n := by
    refine (List.map_congr_left fun c hc => ?_).trans (List.map_id _)
    have hdigit := Nat.isDigit_of_mem_toDigits (by decide) (by decide) hc
    have hlt : c.toNat < 256 := by
      simp only [Char.isDigit, Bool.and_eq_true, decide_eq_true_eq] at hdigit
      exact lt_of_le_of_lt hdigit.2 (by decide)
    show Char.ofNat c.toUInt8.toNat = c
    rw [show c.toUInt8.toNat = c.toNat from UInt8.toNat_ofNat_of_lt' hlt, Char.ofNat_toNat]
  rw [asciiText, Parson.printUint, List.map_map, hchar]
  exact Nat.repr_eq_ofList_toDigits.symm

theorem leafText_bool (b : Bool) : leafText (.bool b) = boolText b := by
  cases b <;> decide

/-- A whole number below 10 ^ 17 is sent with its digits. -/
theorem leafText_intCast_of_lt {n : ℤ} (h : n.natAbs < 10 ^ 17) :
    leafText (.number (.finite n)) = Int.repr n := by
  have habs : |(n : ℚ)| = (n.natAbs : ℚ) := by rw [Nat.cast_natAbs, Int.cast_abs]
  rw [leafText, habs, Parson.printDouble_natCast _ h, asciiText_append, asciiText_printUint]
  cases n with
  | ofNat m =>
    have hneg : decide (((Int.ofNat m : ℤ) : ℚ) < 0) = false := by simp
    rw [hneg]
    exact String.empty_append
  | negSucc m =>
    have hneg : decide (((Int.negSucc m : ℤ) : ℚ) < 0) = true := by
      rw [decide_eq_true_iff]
      exact_mod_cast Int.negSucc_lt_zero m
    rw [hneg]
    rfl

/-- An integer is written with digits, and perhaps a sign. -/
theorem mem_intRepr {n : ℤ} {c : Char} (hc : c ∈ (Int.repr n).toList) :
    c.isDigit = true ∨ c = '-' := by
  have hdigit : ∀ m : ℕ, c ∈ (Nat.repr m).toList → c.isDigit = true := by
    intro m hm
    rw [Nat.toList_repr] at hm
    exact Nat.isDigit_of_mem_toDigits (by decide) (by decide) hm
  cases n with
  | ofNat m => exact Or.inl (hdigit m hc)
  | negSucc m =>
    have hcons : (Int.repr (Int.negSucc m)).toList = '-' :: (Nat.repr (m + 1)).toList :=
      String.toList_append
    rw [hcons] at hc
    exact (List.mem_cons.mp hc).symm.imp_left (hdigit _)

/-- A number from 10 ^ 17 on is sent with an exponent, which is not how integers are written. -/
theorem leafText_ne_repr_of_le {x : ℚ} (h : 10 ^ 17 ≤ |x|) (n : ℤ) :
    leafText (.number (.finite x)) ≠ Int.repr n := by
  obtain ⟨e, he⟩ := Option.isSome_iff_exists.mp (Parson.printDouble_exp_of_le (decide (x < 0)) h)
  have hletter : e.letter ∈ (Parson.printDouble (decide (x < 0)) |x|).text := by
    refine List.mem_append_right _ (List.mem_append_right _ (List.mem_append_right _ ?_))
    rw [he]
    exact List.mem_cons_self
  intro hsame
  have hmem : Char.ofNat e.letter.toNat ∈ (Int.repr n).toList := by
    rw [← hsame, leafText, asciiText, String.toList_ofList]
    exact List.mem_map_of_mem hletter
  rcases e.letter_eq with hl | hl
  · rw [hl] at hmem
    rcases mem_intRepr hmem with hc | hc <;> exact absurd hc (by decide)
  · rw [hl] at hmem
    rcases mem_intRepr hmem with hc | hc <;> exact absurd hc (by decide)

/-- The number that is sent for a signed value has the text of that value exactly when the value
    is a double that is written without an exponent. -/
theorem text_signed_iff (n : ℤ) :
    leafText (.number (.finite (Double.ofInt n))) = Int.repr n ↔
      Double.Exact n ∧ n.natAbs < 10 ^ 17 := by
  by_cases hlt : (Double.ofInt n).natAbs < 10 ^ 17
  · rw [leafText_intCast_of_lt hlt, Int.repr_inj, Double.ofInt_eq_self_iff]
    refine ⟨fun h => ⟨h, ?_⟩, fun h => h.1⟩
    rwa [(Double.ofInt_eq_self_iff n).mpr h] at hlt
  · have hle : (10 : ℚ) ^ 17 ≤ |((Double.ofInt n : ℤ) : ℚ)| := by
      rw [← Int.cast_abs, ← Nat.cast_natAbs]
      exact_mod_cast not_lt.mp hlt
    refine iff_of_false (leafText_ne_repr_of_le hle n) fun h => hlt ?_
    rw [(Double.ofInt_eq_self_iff n).mpr h.1]
    exact h.2

/-- The text that is sent for an integer is its own, except for a signed 64-bit value that is no
    double, or that is written with an exponent. -/
theorem sent_int_iff (t : IntTy) (x : BitVec t.width) :
    ((cfgItemToJson (.int t x)).map leafText).getD "" = (ownText (.int t x)).getD "" ↔
      ∀ y, IotData.int t x = .int .int64 y → Double.Exact y.toInt ∧ y.toInt.natAbs < 10 ^ 17 := by
  cases t with
  | int64 =>
    simp only [cfgItemToJson, ownText, IntTy.signed, if_true, Option.map_some, Option.getD_some]
    rw [text_signed_iff]
    constructor
    · rintro h y hy
      cases hy
      exact h
    · exact fun h => h x rfl
  | int8 | int16 | int32 =>
    simp only [cfgItemToJson, ownText, IntTy.signed, if_true, Option.map_some, Option.getD_some]
    rw [text_signed_iff]
    refine iff_of_true (exact_toInt (by decide) x) fun y hy => ?_
    cases hy
  | uint8 | uint16 | uint32 | uint64 =>
    simp only [cfgItemToJson, ownText, IntTy.signed, Bool.false_eq_true, if_false,
      Option.map_some, Option.getD_some]
    refine iff_of_true (asciiText_printUint x.toNat) fun y hy => ?_
    cases hy

/-- The value that is sent for an entry is its own when the key has no dot and a signed 64-bit
    value is a double that is written without an exponent. -/
theorem sentText_eq_own_iff {config : IotMap} {e : String × IotData} (he : e ∈ config.entries)
    (hs : (ownText e.2).isSome) :
    sentText lib config e = (ownText e.2).getD "" ↔
      ¬ Dotted e.1 ∧
        ∀ x, e.2 = .int .int64 x → Double.Exact x.toInt ∧ x.toInt.natAbs < 10 ^ 17 := by
  obtain ⟨k, v⟩ := e
  rw [sentText]
  by_cases hd : Dotted k
  · -- What is sent is the text of the whole map, which is longer than that of any value in it.
    rw [if_pos hd]
    obtain ⟨t, ht⟩ := Option.isSome_iff_exists.mp hs
    have hlt := lib.toJson_length _ _ he t ht
    refine iff_of_false (fun h => ?_) (fun h => h.1 hd)
    simp only [ht, Option.getD_some] at h
    rw [IotMap.data] at h
    rw [h] at hlt
    exact lt_irrefl _ hlt
  · rw [if_neg hd]
    simp only [hd, not_false_eq_true, true_and]
    cases v with
    | bool b => simp [cfgItemToJson, ownText, leafText_bool]
    | string s => simp [cfgItemToJson, ownText, leafText]
    | int t x => exact sent_int_iff t x
    | _ => cases hs

/-- A value of a document, for texts without characters that JSON escapes. -/
def valueText : IotData → String
  | .string s => "\"" ++ s ++ "\""
  | v => (ownText v).getD "null"

/-- An entry of a document. -/
def entryText (e : String × IotData) : String := "\"" ++ e.1 ++ "\":" ++ valueText e.2

/-- The entries of a document, with commas between them. -/
def entriesText : List (String × IotData) → String
  | [] => ""
  | [e] => entryText e
  | e :: es => entryText e ++ "," ++ entriesText es

theorem length_valueText {v : IotData} {t : String} (h : ownText v = some t) :
    t.length ≤ (valueText v).length := by
  cases v with
  | string s =>
    obtain rfl := Option.some_inj.mp h
    simp only [valueText, String.length_append]
    omega
  | int u x => simp [valueText, h]
  | bool b => simp [valueText, h]
  | _ => cases h

theorem length_entryText {e : String × IotData} {t : String} (h : ownText e.2 = some t) :
    t.length < (entryText e).length := by
  have hvalue := length_valueText h
  have hquote : ("\"" : String).length = 1 := rfl
  simp only [entryText, String.length_append]
  omega

theorem length_entriesText {es : List (String × IotData)} {e : String × IotData} (h : e ∈ es) :
    (entryText e).length ≤ (entriesText es).length := by
  induction es with
  | nil => cases h
  | cons f fs ih =>
    cases fs with
    | nil =>
      obtain rfl := List.mem_singleton.mp h
      exact le_rfl
    | cons g gs =>
      rw [entriesText]
      · simp only [String.length_append]
        cases List.mem_cons.mp h with
        | inl h =>
          subst h
          omega
        | inr h =>
          have hle := ih h
          omega
      · simp

/-- A library that writes documents without spaces. -/
def plainKeeper : KeeperLib where
  toJson d :=
    match d with
    | .map entries => "\x7b" ++ entriesText entries ++ "\x7d"
    | _ => ""
  toJson_length entries e he t ht := by
    have hentry := length_entryText ht
    have hentries := length_entriesText he
    simp only [String.length_append]
    omega

/-- Two settings of a service. -/
def twoSettings : IotMap :=
  (IotMap.empty.add "Writable/LogLevel" (.string "INFO")).add "MaxEventSize" (.int .uint32 10)

theorem twoSettings_entries :
    twoSettings.entries =
      [("MaxEventSize", .int .uint32 10), ("Writable/LogLevel", .string "INFO")] := by
  show IotData.mapAdd "MaxEventSize" _ [("Writable/LogLevel", .string "INFO")] = _
  rw [IotData.mapAdd, if_neg (by decide), if_pos (by decide)]

theorem twoSettings_uploadable : Uploadable twoSettings where
  scalar := by
    rw [twoSettings_entries]
    decide
  apart := by
    rw [twoSettings_entries]
    decide

/-- A setting of a driver whose key has a dot. -/
def dottedSetting : IotMap := IotMap.empty.add "Driver/Port.Speed" (.int .uint32 9600)

theorem dottedSetting_uploadable : Uploadable dottedSetting where
  scalar := by decide
  apart := by decide

end DeviceSdk
