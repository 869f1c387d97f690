import DeviceSdk.DevMap.HashInv
import DeviceSdk.Lib.Run

/-!
# Runs of the hash map

An iteration goes through the table of the nodes in order. It may go on when a node that it has
left is taken out, so that `edgex_devmap_clear` can remove each device behind the iterator. With
that, a map that is set, read and removed from in any order is a finite function from strings to
values in every state, whatever memory the allocator gives or refuses.

## Main definitions

- `IterAt` — an iterator at a node, with the nodes that are to come
- `MapOp`, `mapStep` — runs of operations, beside the function that they stand for
- `MapRight` — the map is that function

## Main results

- `MapInv.keys_spec`, `MapInv.clear_spec`
- `map_run_right`, `map_run_deinit`
-/

namespace DeviceSdk

open Chains (Place addrs)

variable {V : Type}

/-- An iterator that stands at the node `e`. Behind it in its bucket and in the buckets behind that
    are the nodes of `rest`. -/
def IterAt (t : NodeTable V) (iter : MapIter) (e : ℕ × MapNode V) (rest : List (ℕ × MapNode V)) :
    Prop :=
  ∃ x y, t[iter.bucketidx.toNat]? = some (x ++ e :: y) ∧ iter.node = some e.1 ∧
    rest = y ++ (t.drop (iter.bucketidx.toNat + 1)).flatten

/-- An iterator is moved to the first of these nodes, or there is none. -/
def IterNext (t : NodeTable V) (r : Option (MapIter × Option String)) :
    List (ℕ × MapNode V) → Prop
  | [] => ∃ iter, r = some (iter, none)
  | e :: rest => ∃ iter, r = some (iter, some e.2.key) ∧ IterAt t iter e rest

/-- Taking out a node that the iterator has left. -/
theorem IterAt.unlink {t : NodeTable V} {iter : MapIter} {e d : ℕ × MapNode V}
    {rest u v : List (ℕ × MapNode V)} (h : IterAt t iter e rest) {i : ℕ}
    (hi : t[i]? = some (u ++ d :: v)) (hde : d ≠ e) (hd : d ∉ rest) :
    IterAt (t.set i (u ++ v)) iter e rest := by
  obtain ⟨x, y, hx, hnode, rfl⟩ := h
  rw [List.mem_append, not_or] at hd
  obtain ⟨hilt, -⟩ := List.getElem?_eq_some_iff.mp hi
  obtain hlt | heq | hgt := Nat.lt_trichotomy i iter.bucketidx.toNat
  · refine ⟨x, y, ?_, hnode, ?_⟩
    · rw [List.getElem?_set_ne (by omega), hx]
    · rw [List.drop_set_of_lt (by omega)]
  · rw [heq, hx] at hi
    obtain ⟨w, rfl, hw⟩ | ⟨w, rfl, hw⟩ := List.append_eq_append_iff.mp (Option.some.inj hi)
    · -- The node is not behind the iterator.
      cases w with
      | nil => exact absurd (List.cons.inj hw).1.symm hde
      | cons c w =>
        obtain ⟨-, rfl⟩ := List.cons.inj hw
        exact absurd (List.mem_append_right _ List.mem_cons_self) hd.1
    · cases w with
      | nil => exact absurd (List.cons.inj hw).1 hde
      | cons c w =>
        obtain ⟨rfl, rfl⟩ := List.cons.inj hw
        refine ⟨u ++ w, y, ?_, hnode, ?_⟩
        · rw [← heq, List.getElem?_set_self hilt, List.append_assoc]
          rfl
        · rw [← heq, List.drop_set_of_lt (Nat.lt_succ_self i)]
  · have hdrop : (t.drop (iter.bucketidx.toNat + 1))[i - (iter.bucketidx.toNat + 1)]? =
        some (u ++ d :: v) := by
      rw [List.getElem?_drop, ← hi]
      congr 1
      omega
    have hmem : d ∈ (t.drop (iter.bucketidx.toNat + 1)).flatten :=
      Chains.Mem.mem_flatten_of_getElem? hdrop (List.mem_append_right _ List.mem_cons_self)
    exact absurd hmem hd.2

namespace MapInv

variable {m : MapBase V} {t : NodeTable V}

/-- The index of a bucket is not the last number that fits. -/
theorem toNat_succ (h : MapInv m t) {idx : BitVec 32} (hlt : idx.toNat < t.length) :
    (idx + 1).toNat = idx.toNat + 1 := by
  have hbound := m.nbuckets.isLt
  have hsize := h.length_eq
  have hone : (1 : BitVec 32).toNat = 1 := rfl
  rw [BitVec.toNat_add, hone]
  exact Nat.mod_eq_of_lt (by omega)

/-- The loop over the buckets stops at the first with a node. -/
theorem nextBucket_spec (h : MapInv m t) {fuel j : ℕ} {idx : BitVec 32} (hidx : (idx + 1).toNat = j)
    (hle : j ≤ t.length) (hfuel : t.length - j < fuel) :
    IterNext t (m.nextBucket fuel idx) (t.drop j).flatten := by
  induction fuel generalizing j idx with
  | zero => omega
  | succ fuel ih =>
    rw [MapBase.nextBucket]
    have hend : m.nbuckets ≤ idx + 1 ↔ t.length ≤ j := by
      rw [BitVec.le_def, hidx, h.length_eq]
    by_cases hlast : t.length ≤ j
    · simp only [if_pos (hend.mpr hlast)]
      rw [List.drop_eq_nil_of_le hlast]
      exact ⟨_, rfl⟩
    · have hlt : j < t.length := Nat.lt_of_not_le hlast
      have hget : t[j]? = some t[j] := List.getElem?_eq_getElem hlt
      obtain ⟨p, hp, hl⟩ := h.table.leads j _ hget
      simp only [if_neg (hend.not.mpr hlast), hidx]
      rw [hp, List.drop_eq_getElem_cons hlt, List.flatten_cons]
      cases hj : t[j] with
      | nil =>
        rw [hj] at hl
        obtain rfl := hl
        have hnext : (idx + 1 + 1).toNat = j + 1 := hidx ▸ h.toNat_succ (hidx ▸ hlt)
        exact ih hnext hlt (by omega)
      | cons e y =>
        rw [hj] at hl hget
        obtain ⟨rfl, q, he, -⟩ := hl
        refine ⟨⟨idx + 1, some e.1⟩, ?_, [], y, ?_, rfl, ?_⟩
        · simp [he]
        · show t[(idx + 1).toNat]? = _
          rw [hidx, hget]
          rfl
        · show _ = y ++ (t.drop ((idx + 1).toNat + 1)).flatten
          rw [hidx]
          rfl

/-- An iteration starts at the first node. -/
theorem next_start (h : MapInv m t) : IterNext t (m.next mapIter) t.flatten := by
  have hstart : ((-1 : BitVec 32) + 1).toNat = 0 := by decide
  have hfuel : t.length - 0 < m.nbuckets.toNat + 1 := by
    rw [h.length_eq]
    omega
  exact h.nextBucket_spec hstart (Nat.zero_le _) hfuel

/-- And it goes on to the next. -/
theorem next_at (h : MapInv m t) {iter : MapIter} {e : ℕ × MapNode V}
    {rest : List (ℕ × MapNode V)} (hiter : IterAt t iter e rest) :
    IterNext t (m.next iter) rest := by
  obtain ⟨x, y, hx, hnode, rfl⟩ := hiter
  obtain ⟨p, -, hl⟩ := (h.table.leads _ _ hx).after
  obtain ⟨-, q, he, hy⟩ := hl
  have hlt : iter.bucketidx.toNat < t.length := (List.getElem?_eq_some_iff.mp hx).1
  rw [MapBase.next, hnode]
  cases y with
  | nil =>
    obtain rfl := hy
    simp only [he, Option.bind_eq_bind, Option.bind_some]
    refine h.nextBucket_spec (h.toNat_succ hlt) hlt ?_
    rw [h.length_eq]
    omega
  | cons e' y =>
    obtain ⟨rfl, q', he', -⟩ := hy
    refine ⟨⟨iter.bucketidx, some e'.1⟩, ?_, x ++ [e], y, ?_, rfl, rfl⟩
    · simp [he, he']
    · rw [hx, List.append_assoc]
      rfl

theorem visit_spec (h : MapInv m t) {fuel : ℕ} {iter : MapIter} {rest : List (ℕ × MapNode V)}
    (hnext : IterNext t (m.next iter) rest) (hfuel : rest.length < fuel) :
    m.visit fuel iter = some (keysOf rest) := by
  induction rest generalizing fuel iter with
  | nil =>
    obtain ⟨iter', hrun⟩ := hnext
    cases fuel with
    | zero => omega
    | succ fuel =>
      rw [MapBase.visit, hrun]
      rfl
  | cons e rest ih =>
    obtain ⟨iter', hrun, hat⟩ := hnext
    cases fuel with
    | zero => omega
    | succ fuel =>
      rw [MapBase.visit, hrun]
      simp only [Option.bind_eq_bind, Option.bind_some]
      rw [ih (h.next_at hat) (by simpa using hfuel)]
      rfl

/-- An iteration visits the keys of the nodes. -/
theorem keys_spec (h : MapInv m t) : m.keys = some (keysOf t.flatten) :=
  h.visit_spec h.next_start (by rw [h.nodes.count]; omega)

theorem get_node (h : MapInv m t) {e : ℕ × MapNode V} (he : e ∈ t.flatten) :
    m.get e.2.key = some (some e.2.value) := by
  rw [h.get_spec, (entryOf_eq_some_iff h.nodes.distinct).mpr ⟨e, he, rfl, rfl⟩]

/-- The node of a key is taken out, and an iterator that has left it may go on. -/
theorem remove_node (h : MapInv m t) {e : ℕ × MapNode V} {rest : List (ℕ × MapNode V)}
    (hperm : t.flatten.Perm (e :: rest)) :
    ∃ m' t', m.remove e.2.key = some m' ∧ MapInv m' t' ∧ t'.flatten.Perm rest ∧
      ∀ r, IterNext t r rest → IterNext t' r rest := by
  have he : e ∈ t.flatten := hperm.mem_iff.mpr List.mem_cons_self
  obtain ⟨-, hnone⟩ | ⟨i, x, d, y, m', hi, hkey, hrun, hinv⟩ := h.remove_spec e.2.key
  · exact absurd rfl (entryOf_eq_none_iff.mp hnone e he)
  have hd : d ∈ t.flatten :=
    Chains.Mem.mem_flatten_of_getElem? hi (List.mem_append_right _ List.mem_cons_self)
  obtain rfl : d = e := List.inj_on_of_nodup_map h.nodes.distinct hd he hkey
  have hrest : (t.set i (x ++ y)).flatten.Perm rest :=
    ((Chains.Mem.flatten_perm_cons hi).1.symm.trans hperm).cons_inv
  refine ⟨m', _, hrun, hinv, hrest, fun r hr => ?_⟩
  have hnodup : (addrs (d :: rest)).Nodup := (Chains.nodup_addrs_perm hperm).mp h.table.nodup
  cases rest with
  | nil => exact hr
  | cons e' rest =>
    obtain ⟨iter, rfl, hat⟩ := hr
    have hne (c : ℕ × MapNode V) (hc : c ∈ e' :: rest) : d ≠ c := by
      rintro rfl
      exact (Chains.nodup_addrs_cons.mp hnodup).1 (List.mem_map_of_mem hc)
    exact ⟨iter, rfl, hat.unlink hi (hne e' List.mem_cons_self)
      fun hmem => hne d (List.mem_cons_of_mem _ hmem) rfl⟩

/-- The loop of `edgex_devmap_clear`, at a key whose node is the only one in the map that the
    iterator has reached. -/
theorem clearLoop_spec {S : Type} (release : S → V → S) (h : MapInv m t) {iter : MapIter}
    {e : ℕ × MapNode V} {rest : List (ℕ × MapNode V)} (hiter : IterAt t iter e rest)
    (hperm : t.flatten.Perm (e :: rest)) {fuel : ℕ} (hfuel : rest.length < fuel) (s : S) :
    ∃ m' t', MapBase.clearLoop release fuel m s iter (some e.2.key) =
        some (m', ((e :: rest).map (·.2.value)).foldl release s) ∧
      MapInv m' t' ∧ t'.flatten = [] := by
  induction rest generalizing m t iter e fuel s with
  | nil =>
    obtain ⟨iter', hrun⟩ := h.next_at hiter
    obtain ⟨m', t', hremove, h', hperm', -⟩ := h.remove_node hperm
    refine ⟨m', t', ?_, h', List.perm_nil.mp hperm'⟩
    cases fuel with
    | zero => omega
    | succ fuel =>
      rw [MapBase.clearLoop, h.get_node (hperm.mem_iff.mpr List.mem_cons_self), hrun, hremove]
      cases fuel <;> rfl
  | cons e' rest ih =>
    have hnext := h.next_at hiter
    obtain ⟨m', t', hremove, h', hperm', hiter'⟩ := h.remove_node hperm
    obtain ⟨iter', hrun, hat⟩ := hiter' _ hnext
    cases fuel with
    | zero => omega
    | succ fuel =>
      obtain ⟨m'', t'', hloop, hdone⟩ :=
        ih h' hat hperm' (by simpa using hfuel) (release s e.2.value)
      refine ⟨m'', t'', ?_, hdone⟩
      rw [MapBase.clearLoop, h.get_node (hperm.mem_iff.mpr List.mem_cons_self), hrun, hremove]
      exact hloop

/-- `edgex_devmap_clear` releases the value of each node, and leaves no node. -/
theorem clear_spec {S : Type} (release : S → V → S) (h : MapInv m t) (s : S) :
    ∃ m' t', m.clear release s =
        some (m', (t.flatten.map (·.2.value)).foldl release s) ∧
      MapInv m' t' ∧ t'.flatten = [] := by
  have hnext := h.next_start
  have hcount := h.nodes.count
  rw [MapBase.clear]
  cases hflat : t.flatten with
  | nil =>
    rw [hflat] at hnext
    obtain ⟨iter, hrun⟩ := hnext
    refine ⟨m, t, ?_, h, hflat⟩
    rw [hrun]
    simp only [Option.bind_eq_bind, Option.bind_some, List.map_nil, List.foldl_nil]
    cases m.nnodes.toNat <;> rfl
  | cons e rest =>
    rw [hflat] at hnext hcount
    obtain ⟨iter, hrun, hat⟩ := hnext
    rw [hrun]
    refine h.clearLoop_spec release hat (hflat ▸ List.Perm.refl _) ?_ s
    rw [hcount]
    exact Nat.lt_succ_self _

end MapInv

-- ════════════════════════════════════════════════════════════════════════
-- Runs
-- ════════════════════════════════════════════════════════════════════════

/-- A map without nodes: no key has a value, and no node is left in memory. -/
structure MapEmptied (m : MapBase V) : Prop where
  inv : ∃ t, MapInv m t
  nnodes : m.nnodes = 0
  get : ∀ key, m.get key = some none
  freed : ∀ a, m.mem.heap a = none

/-- The map is this function from strings to values. An iteration visits each of its keys once, and
    `edgex_devmap_clear` releases the value of each key that is visited and empties the map. -/
structure MapRight (m : MapBase V) (f : String → Option V) : Prop where
  inv : ∃ t, MapInv m t
  get : ∀ key, m.get key = some (f key)
  set : ∀ key value malloc realloc, ∃ m', m.set key value malloc realloc =
    some (m', if (f key).isSome ∨ m.Allocates malloc realloc then 0 else -1)
  iterate : ∃ keys, m.keys = some keys ∧ keys.Nodup ∧ keys.length = m.nnodes.toNat ∧
    ∀ key, key ∈ keys ↔ (f key).isSome
  clear : ∀ (S : Type) (release : S → V → S) (s : S),
    ∃ (m' : MapBase V) (keys : List String) (values : List V),
    m.clear release s = some (m', values.foldl release s) ∧ m.keys = some keys ∧
      keys.map f = values.map some ∧ MapEmptied m'

/-- A call of an operation, with what the allocator does for it. -/
inductive MapOp (V : Type)
  | set (key : String) (value : V) (malloc : Option ℕ) (realloc : Bool)
  | get (key : String)
  | remove (key : String)

/-- The map after an operation. -/
def MapOp.apply (m : MapBase V) : MapOp V → Option (MapBase V)
  | set key value malloc realloc => (m.set key value malloc realloc).map Prod.fst
  | get key => (m.get key).map fun _ => m
  | remove key => m.remove key

/-- The function after an operation. A new key needs memory; without it the call does nothing. -/
def MapOp.update (m : MapBase V) (f : String → Option V) : MapOp V → String → Option V
  | set key value malloc realloc =>
    if (f key).isSome ∨ m.Allocates malloc realloc then Function.update f key (some value) else f
  | get _ => f
  | remove key => Function.update f key none

/-- A map, as long as the operations on it are defined, and the function that it is to be. -/
structure MapState (V : Type) where
  map : Option (MapBase V)
  values : String → Option V

/-- An operation on both. -/
def mapStep (s : MapState V) (op : MapOp V) : MapState V :=
  match s.map with
  | none => s
  | some m => ⟨op.apply m, op.update m s.values⟩

/-- The map is defined, and its nodes have the values of the function. -/
def MapState.Holds (s : MapState V) : Prop :=
  ∃ m t, s.map = some m ∧ MapInv m t ∧ entryOf t.flatten = s.values

theorem mem_keysOf_iff {l : List (ℕ × MapNode V)} {key : String} :
    key ∈ keysOf l ↔ (entryOf l key).isSome := by
  rw [← not_iff_not, Option.not_isSome_iff_eq_none, entryOf_eq_none_iff, List.mem_map]
  simp

theorem MapInv.emptied {m : MapBase V} {t : NodeTable V} (h : MapInv m t) (ht : t.flatten = []) :
    MapEmptied m where
  inv := ⟨t, h⟩
  nnodes := by
    have hcount := h.nodes.count
    rw [ht] at hcount
    exact BitVec.eq_of_toNat_eq hcount
  get key := by rw [h.get_spec, ht]; rfl
  freed a := by
    by_contra hused
    have hmem := h.nodes.owned a hused
    rw [ht] at hmem
    cases hmem

theorem MapInv.right {m : MapBase V} {t : NodeTable V} (h : MapInv m t) :
    MapRight m (entryOf t.flatten) where
  inv := ⟨t, h⟩
  get := h.get_spec
  set key value malloc realloc := by
    obtain ⟨m', -, hrun, -⟩ := h.set_spec key value malloc realloc
    exact ⟨m', hrun⟩
  iterate := by
    refine ⟨_, h.keys_spec, h.nodes.distinct, ?_, fun key => mem_keysOf_iff⟩
    rw [h.nodes.count, List.length_map]
  clear S release s := by
    obtain ⟨m', t', hrun, h', ht'⟩ := h.clear_spec release s
    refine ⟨m', _, _, hrun, h.keys_spec, ?_, h'.emptied ht'⟩
    rw [List.map_map, List.map_map]
    exact List.map_congr_left fun e he =>
      (entryOf_eq_some_iff h.nodes.distinct).mpr ⟨e, he, rfl, rfl⟩

theorem MapState.Holds.step {s : MapState V} (h : s.Holds) (op : MapOp V) :
    (mapStep s op).Holds := by
  obtain ⟨m, t, hm, hinv, hvalues⟩ := h
  rw [mapStep, hm, ← hvalues]
  cases op with
  | set key value malloc realloc =>
    obtain ⟨m', t', hrun, hinv', hentries⟩ := hinv.set_spec key value malloc realloc
    exact ⟨m', t', by simp [MapOp.apply, hrun], hinv', hentries⟩
  | get key => exact ⟨m, t, by simp [MapOp.apply, hinv.get_spec], hinv, rfl⟩
  | remove key =>
    obtain ⟨m', t', hrun, hinv', hentries⟩ := hinv.remove_entries key
    exact ⟨m', t', hrun, hinv', hentries⟩

theorem mapInv_init : MapInv (MapBase.init : MapBase V) [] where
  toMapShape := @MapShape.empty V (fun _ => none) 0 0 (Or.inl rfl)
  nodes :=
    { count := rfl
      room := Nat.zero_le _
      owned := fun _ hused => absurd rfl hused
      hashes := fun _ he => by cases he
      distinct := List.nodup_nil }

/-- What follows from the invariant is so in every state of a run. -/
theorem MapState.always_of_holds {P : MapState V → Prop} (hP : ∀ s, s.Holds → P s)
    (ops : List (MapOp V)) : Run.Always mapStep P ⟨some MapBase.init, fun _ => none⟩ ops := by
  have hinit : MapState.Holds (V := V) ⟨some MapBase.init, fun _ => none⟩ :=
    ⟨MapBase.init, [], rfl, mapInv_init, rfl⟩
  exact Run.always_of_meets (I := MapState.Holds) hP (fun s op h _ => h.step op) hinit
    (Run.meets_of_forall (C := fun _ _ => True) (fun _ _ => trivial) _ ops)

/-- The nodes of a map can be freed in every state of a run, and none is left then. -/
theorem map_run_deinit (ops : List (MapOp V)) :
    Run.Always mapStep
      (fun s => ∃ m heap, s.map = some m ∧ m.deinit = some heap ∧ ∀ a, heap a = none)
      ⟨some MapBase.init, fun _ => none⟩ ops := by
  refine MapState.always_of_holds ?_ ops
  rintro s ⟨m, t, hm, hinv, -⟩
  obtain ⟨heap, hrun, hnone⟩ := hinv.deinit_spec
  exact ⟨m, heap, hm, hrun, hnone⟩

/-- In every state of a run the map is defined, keeps its invariant, and is the function of the
    values that were last set and not removed since; an iteration visits each key once, and a clear
    releases each value once and leaves the map empty. -/
theorem map_run_right (ops : List (MapOp V)) :
    Run.Always mapStep (fun s => ∃ m, s.map = some m ∧ MapRight m s.values)
      ⟨some MapBase.init, fun _ => none⟩ ops := by
  refine MapState.always_of_holds ?_ ops
  rintro s ⟨m, t, hm, hinv, hvalues⟩
  exact ⟨m, hm, hvalues ▸ hinv.right⟩

/-- Three keys, for which the map gets its buckets three times. One is set again, with no memory
    left, and one is removed. -/
def growingOps : List (MapOp ℕ) :=
  [.set "a" 1 (some 100) true, .set "b" 2 (some 200) true, .set "c" 3 (some 300) true,
    .set "a" 5 none false, .get "b", .remove "b"]

/-- The map that they leave. -/
def grownMap : Option (MapBase ℕ) :=
  (Run.final mapStep ⟨some MapBase.init, fun _ => none⟩ growingOps).map

/-- The two keys that are left have their values, and a clear releases both. -/
theorem map_run_right_growing :
    ∃ m m', grownMap = some m ∧ m.nbuckets = 4 ∧ m.nnodes = 2 ∧ m.get "a" = some (some 5) ∧
      m.get "b" = some none ∧ m.get "c" = some (some 3) ∧
      m.clear (· + ·) 0 = some (m', 8) ∧ MapEmptied m' := by
  obtain ⟨-, -, -, -, -, -, m, hm, hright⟩ := map_run_right growingOps
  have hgrown : grownMap = some m := hm
  have hcounts : grownMap.map (fun m => (m.nbuckets, m.nnodes)) = some (4, 2) := by decide
  have hreleased : (grownMap.bind fun m => m.clear (· + ·) 0).map Prod.snd = some 8 := by decide
  obtain ⟨m', keys, values, hclear, -, -, hempty⟩ := hright.clear ℕ (· + ·) 0
  rw [hgrown, Option.map_some, Option.some_inj, Prod.mk.injEq] at hcounts
  rw [hgrown, Option.bind_some, hclear, Option.map_some, Option.some_inj] at hreleased
  exact ⟨m, m', hgrown, hcounts.1, hcounts.2, hright.get "a", hright.get "b", hright.get "c",
    hreleased ▸ hclear, hempty⟩

end DeviceSdk
