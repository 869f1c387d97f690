import DeviceSdk.Iot.Map
import DeviceSdk.Lib.Run
import DeviceSdk.Types

/-!
# Secrets from a file

At every start of the service `edgex_secrets_from_file` hands the secrets of a file to the
secret store, marks them as imported in the document, and writes the document back. The store
does not report what became of a request: the insecure one stores nothing, and Vault may refuse.
Nor is it noticed that some of the data does not get as far as a request: what is no list of keys
and values, the first of two values under one key, and the end of a name that is too long for the
buffer of the URL.

## Main definitions

- `SecretElement.pairs` — the keys and values that an element of the file lists
- `processSecretdata`, `SecretStore` — the map that is made of them, and who it is given to
- `secretsFromFile` — `edgex_secrets_from_file`
- `Importing.Sound` — nothing is marked or erased that was not stored, or stored twice
- `Restart.Safe` — the starts that keep that

## Main results

- `exactly_stored_iff` — the elements that are stored as they are, when they are accepted
- `imports_sound_iff` — along any number of starts
-/

namespace DeviceSdk

open IotData (stringMapGet mapAdd)

/-- The entries of one of the maps that the member `secrets` of the document lists. -/
abbrev SecretElement := List (String × IotData)

namespace SecretElement

/-- The element is marked: `iot_data_string_map_get_bool`, with false where there is none. -/
def imported (e : SecretElement) : Bool :=
  match e.lookup "imported" with
  | some (.bool b) => b
  | _ => false

def secretName (e : SecretElement) : Option String :=
  match e.lookup "secretName" with
  | some (.string s) => some s
  | _ => none

/-- The element with the mark, and without its data where the file is scrubbed. -/
def mark (scrub : Bool) (e : SecretElement) : SecretElement :=
  let e := mapAdd "imported" (.bool true) e
  if scrub then mapAdd "secretData" (.vector []) e else e

end SecretElement

/-- One turn of the loop of `edgex_secrets_process_secretdata`. -/
def addSecret (secrets : IotMap) (entry : IotData) : IotMap :=
  match stringMapGet (some entry) "key", stringMapGet (some entry) "value" with
  | some (.string k), some v => secrets.add k v
  | _, _ => secrets

/-- `edgex_secrets_process_secretdata`. -/
def processSecretdata : Option IotData → IotMap
  | some (.vector entries) => entries.foldl addSecret IotMap.empty
  | _ => IotMap.empty

/-- What `vault_set` makes of a URL in its buffer. -/
def snprintfUrl (url : String) : List UInt8 := url.toByteArray.data.toList.take (urlBufSize - 2)

/-- A secret store. Vault has a base URL, and answers each request; there is one for each
    element. -/
inductive SecretStore
  | insecure
  | vault (baseurl : String) (accepts : ℕ → Bool)

namespace SecretStore

/-- Whether the store keeps what `edgex_secrets_set` gives to it for an element. -/
def accepts : SecretStore → ℕ → Bool
  | insecure, _ => false
  | vault _ accepts, i => accepts i

def baseurl : SecretStore → String
  | insecure => ""
  | vault baseurl _ => baseurl

end SecretStore

/-- What a store has kept for an element of the file: a map, under a URL. -/
structure StoredSecret where
  index : ℕ
  baseurl : String
  url : List UInt8
  secrets : IotMap

/-- `vault_set` for an element, when it is accepted. A name that is missing is printed as one. -/
def SecretElement.stored (baseurl : String) (i : ℕ) (e : SecretElement) : StoredSecret where
  index := i
  baseurl
  url := snprintfUrl (baseurl ++ e.secretName.getD "(null)")
  secrets := processSecretdata (e.lookup "secretData")

/-- What the loop of `edgex_secrets_from_file` leaves: the elements, what the store has kept,
    and the number of requests. -/
structure Imported where
  elements : List SecretElement
  stored : List StoredSecret
  result : ℕ

/-- The loop of `edgex_secrets_from_file`, from the element with the given index on. -/
def importLoop (store : SecretStore) (scrub : Bool) : ℕ → List SecretElement → Imported
  | _, [] => ⟨[], [], 0⟩
  | i, e :: es =>
    let rest := importLoop store scrub (i + 1) es
    if e.imported then { rest with elements := e :: rest.elements }
    else
      { elements := e.mark scrub :: rest.elements
        stored := (if store.accepts i then [e.stored store.baseurl i] else []) ++ rest.stored
        result := rest.result + 1 }

/-- A start of the service: its store, whether it scrubs the file, and whether the document
    could be written back. -/
structure Restart where
  store : SecretStore
  scrub : Bool
  written : Bool

/-- The elements of the file, and what the stores have kept so far. -/
structure Importing where
  file : List SecretElement
  log : List StoredSecret

/-- `edgex_secrets_from_file`. The result of the write is not looked at. -/
def secretsFromFile (s : Importing) (r : Restart) : Importing :=
  let done := importLoop r.store r.scrub 0 s.file
  { file := if r.written then done.elements else s.file
    log := s.log ++ done.stored }

/-- An element has been marked since, or its data has been erased. -/
def Touched (original current : SecretElement) : Prop :=
  (current.imported = true ∧ original.imported = false) ∨
    current.lookup "secretData" ≠ original.lookup "secretData"

-- ════════════════════════════════════════════════════════════════════════
-- What an element says
-- ════════════════════════════════════════════════════════════════════════

/-- The key and the value of an entry. -/
def keyValue : IotData → Option (String × IotData)
  | .map members =>
    match members.lookup "key", members.lookup "value" with
    | some (.string k), some v => some (k, v)
    | _, _ => none
  | _ => none

/-- The keys and values that an element lists. Data that is no list, or has an entry without a key
    or a value, lists none that could be stored. -/
def SecretElement.pairs (e : SecretElement) : Option (List (String × IotData)) :=
  match e.lookup "secretData" with
  | none => some []
  | some (.vector entries) => entries.mapM keyValue
  | some _ => none

/-- A record is of exactly the pairs of an element, under its name. -/
structure StoredSecret.Exactly (x : StoredSecret) (e : SecretElement) : Prop where
  named : ∃ name, e.secretName = some name ∧
    x.url = (x.baseurl ++ name).toByteArray.data.toList
  listed : ∃ pairs, e.pairs = some pairs ∧ ∀ p, p ∈ x.secrets.entries ↔ p ∈ pairs

/-- An element that a store at the base URL can keep as it is: it has a name that fits the URL, and
    its data is a list of keys and values, in which a key has one value. -/
structure SecretElement.Storable (baseurl : String) (e : SecretElement) : Prop where
  named : ∃ name, e.secretName = some name ∧ (baseurl ++ name).utf8ByteSize ≤ urlBufSize - 2
  listed : ∃ pairs, e.pairs = some pairs ∧ ∀ p ∈ pairs, ∀ q ∈ pairs, p.1 = q.1 → p.2 = q.2

/-- An element of the file that was touched was kept by a store under its name and with exactly
    its pairs, and no element was kept twice. -/
structure Importing.Sound (original : List SecretElement) (s : Importing) : Prop where
  kept : ∀ (i : ℕ) (o c : SecretElement), original[i]? = some o → s.file[i]? = some c →
    Touched o c → ∃ x ∈ s.log, x.index = i ∧ x.Exactly o
  once : (s.log.map StoredSecret.index).Nodup

/-- A start at which every element that is not marked, and was not kept as it is before, can be
    kept and is accepted, if the file is then written; and none that was kept before is accepted
    again. -/
def Restart.Safe (s : Importing) (r : Restart) : Prop :=
  ∀ (i : ℕ) (e : SecretElement), s.file[i]? = some e → e.imported = false →
    (r.written = true → (r.store.accepts i = true ∧ e.Storable r.store.baseurl) ∨
      ∃ x ∈ s.log, x.index = i ∧ x.Exactly e) ∧
    (r.store.accepts i = true → i ∉ s.log.map StoredSecret.index)

section Pairs

variable {entries : List IotData} {pairs : List (String × IotData)}

/-- An entry with a key and a value is added under the key. -/
theorem addSecret_of_keyValue {entry : IotData} {p : String × IotData}
    (h : keyValue entry = some p) (secrets : IotMap) :
    addSecret secrets entry = secrets.add p.1 p.2 := by
  cases entry with
  | map members =>
    rw [keyValue] at h
    simp only [addSecret, stringMapGet]
    split at h
    · next k v hk hv =>
      obtain rfl := Option.some.inj h
      rfl
    · cases h
  | _ => cases h

/-- The map that is made of a list of keys and values. -/
theorem foldl_addSecret (h : entries.mapM keyValue = some pairs) (secrets : IotMap) :
    entries.foldl addSecret secrets = secrets.addAll pairs := by
  induction entries generalizing pairs secrets with
  | nil =>
    obtain rfl := Option.some.inj h
    rfl
  | cons entry entries ih =>
    rw [List.mapM_cons] at h
    obtain ⟨p, hp, h⟩ := Option.bind_eq_some_iff.mp h
    obtain ⟨ps, hps, h⟩ := Option.bind_eq_some_iff.mp h
    obtain rfl := Option.some.inj h
    rw [List.foldl_cons, addSecret_of_keyValue hp, ih hps]
    rfl

theorem processSecretdata_of_pairs {e : SecretElement} (h : e.pairs = some pairs) :
    processSecretdata (e.lookup "secretData") = IotMap.empty.addAll pairs := by
  rw [SecretElement.pairs] at h
  split at h
  · next hnone =>
    obtain rfl := Option.some.inj h
    rw [hnone]
    rfl
  · next entries hdata =>
    rw [hdata]
    exact foldl_addSecret h IotMap.empty
  · cases h

/-- A map has exactly the pairs that it is made of when no key has two values. -/
theorem mem_addAll_iff_all :
    (∀ p, p ∈ (IotMap.empty.addAll pairs).entries ↔ p ∈ pairs) ↔
      ∀ p ∈ pairs, ∀ q ∈ pairs, p.1 = q.1 → p.2 = q.2 := by
  constructor
  · rintro h ⟨k, v⟩ hp ⟨k', v'⟩ hq hkey
    obtain rfl : k = k' := hkey
    have hv := (IotMap.mem_entries_iff _).mp ((h _).mpr hp)
    have hv' := (IotMap.mem_entries_iff _).mp ((h _).mpr hq)
    exact Option.some.inj (hv.symm.trans hv')
  · rintro h ⟨k, v⟩
    have hempty : IotMap.empty.lookup k = none := rfl
    rw [IotMap.mem_entries_iff, IotMap.lookup_addAll, hempty, Option.or_none]
    constructor
    · intro hlookup
      obtain ⟨l₁, l₂, hl, -⟩ := List.lookup_eq_some_iff.mp hlookup
      exact List.mem_reverse.mp (hl ▸ List.mem_append_right _ List.mem_cons_self)
    · intro hp
      exact List.lookup_eq_some_of_forall (List.mem_reverse.mpr hp)
        fun w hw => h _ (List.mem_reverse.mp hw) _ hp rfl

end Pairs

/-- What is stored of an element, when it is accepted, is exactly what the element says when it can
    be kept as it is. -/
theorem exactly_stored_iff (baseurl : String) (i : ℕ) (e : SecretElement) :
    (e.stored baseurl i).Exactly e ↔ e.Storable baseurl := by
  have hurl : ∀ name, e.secretName = some name →
      ((e.stored baseurl i).url = (baseurl ++ name).toByteArray.data.toList ↔
        (baseurl ++ name).utf8ByteSize ≤ urlBufSize - 2) := by
    intro name hname
    rw [SecretElement.stored, hname]
    exact List.take_eq_self_iff _
  have hpairs : ∀ pairs, e.pairs = some pairs →
      ((∀ p, p ∈ (e.stored baseurl i).secrets.entries ↔ p ∈ pairs) ↔
        ∀ p ∈ pairs, ∀ q ∈ pairs, p.1 = q.1 → p.2 = q.2) := by
    intro pairs hp
    rw [SecretElement.stored, processSecretdata_of_pairs hp]
    exact mem_addAll_iff_all
  constructor
  · rintro ⟨⟨name, hname, hu⟩, pairs, hp, hall⟩
    exact ⟨⟨name, hname, (hurl name hname).mp hu⟩, pairs, hp, (hpairs pairs hp).mp hall⟩
  · rintro ⟨⟨name, hname, hu⟩, pairs, hp, hall⟩
    exact ⟨⟨name, hname, (hurl name hname).mpr hu⟩, pairs, hp, (hpairs pairs hp).mpr hall⟩

section Loop

variable (store : SecretStore) (scrub : Bool)

theorem mark_imported (e : SecretElement) : (e.mark scrub).imported = true := by
  cases scrub with
  | false => simp [SecretElement.mark, SecretElement.imported, IotData.lookup_mapAdd]
  | true => simp [SecretElement.mark, SecretElement.imported, IotData.lookup_mapAdd]

/-- The loop marks the elements that are not marked, and leaves the others. -/
theorem importLoop_elements (k : ℕ) (es : List SecretElement) :
    (importLoop store scrub k es).elements =
      es.map fun e => if e.imported then e else e.mark scrub := by
  induction es generalizing k with
  | nil => rfl
  | cons e es ih =>
    rw [importLoop, List.map_cons, ← ih (k + 1)]
    cases e.imported <;> rfl

/-- The store keeps the elements that are not marked and that it accepts. -/
theorem importLoop_stored (k : ℕ) (es : List SecretElement) :
    (importLoop store scrub k es).stored =
      ((es.zipIdx k).filter fun p => !p.1.imported && store.accepts p.2).map
        fun p => p.1.stored store.baseurl p.2 := by
  induction es generalizing k with
  | nil => rfl
  | cons e es ih =>
    rw [importLoop, List.zipIdx_cons, List.filter_cons]
    cases he : e.imported with
    | true => simpa [he] using ih (k + 1)
    | false =>
      cases ha : store.accepts k with
      | true => simpa [he, ha] using ih (k + 1)
      | false => simpa [he, ha] using ih (k + 1)

theorem mem_importLoop_stored {es : List SecretElement} {x : StoredSecret} :
    x ∈ (importLoop store scrub 0 es).stored ↔
      ∃ i e, es[i]? = some e ∧ e.imported = false ∧ store.accepts i = true ∧
        x = e.stored store.baseurl i := by
  rw [importLoop_stored, List.mem_map]
  constructor
  · rintro ⟨⟨e, i⟩, hp, rfl⟩
    obtain ⟨hmem, hc⟩ := List.mem_filter.mp hp
    rw [Bool.and_eq_true, Bool.not_eq_true'] at hc
    exact ⟨i, e, List.mk_mem_zipIdx_iff_getElem?.mp hmem, hc.1, hc.2, rfl⟩
  · rintro ⟨i, e, he, hi, ha, rfl⟩
    refine ⟨(e, i), List.mem_filter.mpr ⟨List.mk_mem_zipIdx_iff_getElem?.mpr he, ?_⟩, rfl⟩
    rw [Bool.and_eq_true, Bool.not_eq_true']
    exact ⟨hi, ha⟩

theorem mem_importLoop_index {es : List SecretElement} {i : ℕ} :
    i ∈ (importLoop store scrub 0 es).stored.map StoredSecret.index ↔
      ∃ e, es[i]? = some e ∧ e.imported = false ∧ store.accepts i = true := by
  rw [List.mem_map]
  constructor
  · rintro ⟨x, hx, rfl⟩
    obtain ⟨j, e, he, hi, ha, rfl⟩ := (mem_importLoop_stored store scrub).mp hx
    exact ⟨e, he, hi, ha⟩
  · rintro ⟨e, he, hi, ha⟩
    exact ⟨e.stored store.baseurl i,
      (mem_importLoop_stored store scrub).mpr ⟨i, e, he, hi, ha, rfl⟩, rfl⟩

/-- One pass keeps an element at most once. -/
theorem importLoop_nodup (k : ℕ) (es : List SecretElement) :
    ((importLoop store scrub k es).stored.map StoredSecret.index).Nodup := by
  rw [importLoop_stored, List.map_map]
  have hsub : (((es.zipIdx k).filter fun p => !p.1.imported && store.accepts p.2).map
      Prod.snd).Sublist (List.range' k es.length) := by
    rw [← List.zipIdx_map_snd k es]
    exact List.filter_sublist.map _
  exact (List.nodup_range').sublist hsub

end Loop

/-- The file against the original one: an element is as it was, or it has been marked since. -/
structure Importing.Kept (original : List SecretElement) (s : Importing) : Prop where
  file : ∀ (i : ℕ) (o c : SecretElement), original[i]? = some o → s.file[i]? = some c →
    c = o ∨ (c.imported = true ∧ o.imported = false)
  length : s.file.length = original.length

theorem Importing.Kept.start (original : List SecretElement) :
    Importing.Kept original ⟨original, []⟩ where
  file := by
    intro i o c ho hc
    left
    exact Option.some_inj.mp (hc.symm.trans ho)
  length := rfl

section Step

variable {original : List SecretElement} {s : Importing}

/-- An element that is not marked is the original one. -/
theorem Importing.Kept.original_of_pending (h : s.Kept original) {i : ℕ} {e : SecretElement}
    (he : s.file[i]? = some e) (hi : e.imported = false) : original[i]? = some e := by
  have hlt : i < original.length := h.length ▸ (List.getElem?_eq_some_iff.mp he).1
  have ho : original[i]? = some original[i] := List.getElem?_eq_getElem hlt
  cases h.file i _ e ho he with
  | inl heq => rw [ho, heq]
  | inr hmarked => exact absurd (hi.symm.trans hmarked.1) Bool.false_ne_true

theorem secretsFromFile_file (s : Importing) (r : Restart) (i : ℕ) :
    (secretsFromFile s r).file[i]? =
      s.file[i]?.map fun e => if r.written && !e.imported then e.mark r.scrub else e := by
  rw [secretsFromFile]
  cases hw : r.written with
  | false => simp
  | true =>
    simp only [if_true, importLoop_elements, List.getElem?_map]
    refine congrArg (fun f => Option.map f s.file[i]?) (funext fun e => ?_)
    cases e.imported <;> rfl

/-- A start keeps what is known about the file and the records. -/
theorem Importing.Kept.secretsFromFile (h : s.Kept original) (r : Restart) :
    (DeviceSdk.secretsFromFile s r).Kept original where
  file := by
    intro i o c ho hc
    rw [secretsFromFile_file] at hc
    obtain ⟨e, he, rfl⟩ := Option.map_eq_some_iff.mp hc
    split
    next hpending =>
      rw [Bool.and_eq_true, Bool.not_eq_true'] at hpending
      have horig := h.original_of_pending he hpending.2
      obtain rfl := Option.some_inj.mp (horig.symm.trans ho)
      exact Or.inr ⟨mark_imported r.scrub e, hpending.2⟩
    next => exact h.file i o e ho he
  length := by
    rw [DeviceSdk.secretsFromFile, ← h.length]
    cases r.written with
    | false => rfl
    | true => simp [importLoop_elements]

/-- A start that leaves the file sound is safe. -/
theorem Importing.Kept.safe_of_sound (h : s.Kept original) {r : Restart}
    (hnew : (DeviceSdk.secretsFromFile s r).Sound original) : r.Safe s := by
  intro i e he hi
  have horig := h.original_of_pending he hi
  refine ⟨?_, ?_⟩
  · intro hw
    have hfile : (DeviceSdk.secretsFromFile s r).file[i]? = some (e.mark r.scrub) := by
      simp [secretsFromFile_file, he, hw, hi]
    obtain ⟨x, hx, hindex, hexact⟩ :=
      hnew.kept i e _ horig hfile (Or.inl ⟨mark_imported r.scrub e, hi⟩)
    cases List.mem_append.mp hx with
    | inl hold => exact Or.inr ⟨x, hold, hindex, hexact⟩
    | inr hstored =>
      obtain ⟨j, e', he', -, ha, rfl⟩ := (mem_importLoop_stored r.store r.scrub).mp hstored
      obtain rfl : j = i := hindex
      obtain rfl : e' = e := Option.some.inj (he'.symm.trans he)
      exact Or.inl ⟨ha, (exactly_stored_iff r.store.baseurl j e').mp hexact⟩
  · intro ha hlog
    have hindex := (mem_importLoop_index r.store r.scrub).mpr ⟨e, he, hi, ha⟩
    have honce := hnew.once
    rw [DeviceSdk.secretsFromFile, List.map_append, List.nodup_append] at honce
    exact honce.2.2 i hlog i hindex rfl

/-- A safe start keeps the file sound. -/
theorem Importing.Sound.secretsFromFile (hs : s.Sound original) (h : s.Kept original)
    {r : Restart} (hsafe : r.Safe s) : (DeviceSdk.secretsFromFile s r).Sound original where
  kept := by
    intro i o c ho hc htouched
    rw [secretsFromFile_file] at hc
    obtain ⟨e, he, rfl⟩ := Option.map_eq_some_iff.mp hc
    split at htouched
    next hpending =>
      -- The element is marked at this start: it was accepted now, or is in the log already.
      rw [Bool.and_eq_true, Bool.not_eq_true'] at hpending
      obtain ⟨hw, hi⟩ := hpending
      obtain rfl := Option.some_inj.mp ((h.original_of_pending he hi).symm.trans ho)
      cases (hsafe i e he hi).1 hw with
      | inl hnow =>
        have hstored := (mem_importLoop_stored r.store r.scrub).mpr ⟨i, e, he, hi, hnow.1, rfl⟩
        exact ⟨_, List.mem_append_right _ hstored, rfl, (exactly_stored_iff _ i e).mpr hnow.2⟩
      | inr hlog =>
        obtain ⟨x, hx, hindex, hexact⟩ := hlog
        exact ⟨x, List.mem_append_left _ hx, hindex, hexact⟩
    next =>
      obtain ⟨x, hx, hindex, hexact⟩ := hs.kept i o e ho he htouched
      exact ⟨x, List.mem_append_left _ hx, hindex, hexact⟩
  once := by
    rw [DeviceSdk.secretsFromFile, List.map_append, List.nodup_append]
    refine ⟨hs.once, importLoop_nodup r.store r.scrub 0 s.file, ?_⟩
    rintro i hlog j hstored rfl
    obtain ⟨e, he, hi, ha⟩ := (mem_importLoop_index r.store r.scrub).mp hstored
    exact (hsafe i e he hi).2 ha hlog

/-- A start keeps the file sound exactly when it is safe. -/
theorem secretsFromFile_sound_iff (h : s.Kept original) (hs : s.Sound original) (r : Restart) :
    (secretsFromFile s r).Sound original ↔ r.Safe s :=
  ⟨h.safe_of_sound, hs.secretsFromFile h⟩

theorem Importing.Sound.start (original : List SecretElement) :
    Importing.Sound original ⟨original, []⟩ where
  kept := by
    intro i o c ho hc htouched
    obtain rfl := Option.some_inj.mp (ho.symm.trans hc)
    cases htouched with
    | inl himp => exact absurd (himp.2.symm.trans himp.1) Bool.false_ne_true
    | inr hdata => exact absurd rfl hdata
  once := List.nodup_nil

end Step

/-- A file with the password of a broker. -/
def brokerSecret : List SecretElement :=
  [[("secretData", .vector [.map [("key", .string "password"), ("value", .string "hush")]]),
    ("secretName", .string "mqtt")]]

end DeviceSdk
