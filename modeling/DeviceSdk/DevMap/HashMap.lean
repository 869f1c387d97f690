import DeviceSdk.Lib.Chains

/-!
# The hash map

`map.c`: a map from strings to values with chained buckets. The buckets are the roots of chains of
nodes; their number is zero or a power of two, and doubles when there are as many nodes. A node is
found through a pointer to the pointer that leads to it, and taken out there.

Whatever the language leaves undefined, such as a look at a node that is not in memory or at a
bucket that is not there, gives nothing here. Each loop over nodes has the number of nodes for fuel.

## Main definitions

- `MapBase`, `MapNode` — the map in memory
- `MapBase.resize`, `MapBase.getref` — the static helpers
- `MapBase.get`, `MapBase.set`, `MapBase.remove` — the operations
- `MapIter`, `MapBase.next` — iteration
- `MapBase.clear` — the loop of `edgex_devmap_clear`
-/

namespace DeviceSdk

open Chains (Mem Place)

/-- `edgex_map_node`, with the key and the value that are stored behind it. -/
structure MapNode (V : Type) where
  hash : BitVec 32
  key : String
  value : V

/-- `edgex_map_base`, with the memory for its nodes. The buckets are the roots there, and there are
    none where the pointer to them is `NULL`. -/
structure MapBase (V : Type) where
  mem : Mem (MapNode V)
  nbuckets : BitVec 32
  nnodes : BitVec 32

/-- `edgex_hash`. A `char` is signed. -/
def edgexHash (str : String) : BitVec 32 :=
  (str.toList.flatMap String.utf8EncodeChar).foldl
    (fun hash c => (hash <<< 5 + hash) ^^^ c.toBitVec.signExtend 32) 5381

namespace MapBase

variable {V : Type}

/-- `edgex_map_init`, with nothing in memory. -/
def init : MapBase V := ⟨⟨[], fun _ => none⟩, 0, 0⟩

/-- `edgex_map_bucketidx`, which returns an `int`. -/
def bucketidx (m : MapBase V) (hash : BitVec 32) : ℤ := (hash &&& (m.nbuckets - 1)).toInt

/-- The place `&m->buckets[n]`. -/
def bucketPlace (n : ℤ) : Option Place := if 0 ≤ n then some (.root n.toNat) else none

/-- `edgex_map_addnode`. -/
def addnode (m : MapBase V) (a : ℕ) : Option (MapBase V) := do
  let node ← m.mem.heap a
  let bucket ← bucketPlace (m.bucketidx node.data.hash)
  let first ← m.mem.deref bucket
  some { m with mem := (m.mem.write a (some { node with next := first })).assign bucket (some a) }

/-- The loop of `edgex_map_resize` that adds the nodes again. -/
def readd : ℕ → MapBase V → Option ℕ → Option (MapBase V)
  | _, m, none => some m
  | 0, _, some _ => none
  | fuel + 1, m, some a => do
    let node ← m.mem.heap a
    let m ← m.addnode a
    readd fuel m node.next

/-- The size of an array of pointers, in bytes, is not beyond what an object can have. -/
def FitsObject (nbuckets : BitVec 32) : Prop := (8 * nbuckets.signExtend 64).toNat < 2 ^ 63

instance (nbuckets : BitVec 32) : Decidable (FitsObject nbuckets) :=
  inferInstanceAs (Decidable (_ < _))

/-- `edgex_map_resize`, with whether `realloc` succeeds. It never does for a size that no object
    can have. The result is `0`, or `-1` for an error. -/
def resize (m : MapBase V) (nbuckets : BitVec 32) (realloc : Bool) :
    Option (MapBase V × ℤ) := do
  let (heap, nodes) ← m.mem.gather m.nnodes.toNat m.nbuckets.toNat m.mem.heap none
  if realloc ∧ FitsObject nbuckets then
    let m ← readd m.nnodes.toNat
      { m with mem := ⟨List.replicate nbuckets.toNat none, heap⟩, nbuckets := nbuckets } nodes
    some (m, 0)
  else if m.mem.roots.isEmpty then some ({ m with mem := ⟨m.mem.roots, heap⟩ }, -1)
  else
    let m ← readd m.nnodes.toNat
      { m with mem := ⟨List.replicate m.nbuckets.toNat none, heap⟩ } nodes
    some (m, -1)

/-- `edgex_map_getref`. -/
def getref (m : MapBase V) (key : String) : Option (Option Place) :=
  if 0 < m.nbuckets then do
    let bucket ← bucketPlace (m.bucketidx (edgexHash key))
    m.mem.find (fun node => node.hash = edgexHash key && node.key = key) (m.nnodes.toNat + 1) bucket
  else some none

/-- The node `**next`, with its address. -/
def nodeAt (m : MapBase V) (next : Place) : Option (ℕ × Chains.Cell (MapNode V)) := do
  let a ← (← m.mem.deref next)
  let node ← m.mem.heap a
  some (a, node)

/-- `edgex_map_get_`, with the value that the result points to. -/
def get (m : MapBase V) (key : String) : Option (Option V) := do
  match ← m.getref key with
  | none => some none
  | some next =>
    let (_, node) ← m.nodeAt next
    some (some node.data.value)

/-- The part of `edgex_map_set_` that gives the map more buckets when there are as many nodes. -/
def makeRoom (m : MapBase V) (realloc : Bool) : Option (MapBase V × ℤ) :=
  if m.nbuckets ≤ m.nnodes then
    m.resize (if 0 < m.nbuckets then m.nbuckets <<< 1 else 1) realloc
  else some (m, 0)

/-- What `malloc` returns. An address in use is not given again. -/
def newAddress (m : MapBase V) (malloc : Option ℕ) : Option ℕ :=
  malloc.filter fun a => (m.mem.heap a).isNone

/-- `edgex_map_set_`, with the address from `malloc` for a new node, and whether `realloc` succeeds
    for more buckets. -/
def set (m : MapBase V) (key : String) (value : V) (malloc : Option ℕ) (realloc : Bool) :
    Option (MapBase V × ℤ) := do
  match ← m.getref key with
  | some next =>
    let (a, node) ← m.nodeAt next
    let data := { node.data with value := value }
    some ({ m with mem := m.mem.write a (some { node with data := data }) }, 0)
  | none =>
    match m.newAddress malloc with
    | none => some (m, -1)
    | some a =>
      let node : MapNode V := ⟨edgexHash key, key, value⟩
      let m := { m with mem := m.mem.write a (some ⟨node, none⟩) }
      let (m, err) ← m.makeRoom realloc
      if err ≠ 0 then some ({ m with mem := m.mem.write a none }, -1)
      else
        let m ← m.addnode a
        some ({ m with nnodes := m.nnodes + 1 }, 0)

/-- `edgex_map_remove_`. -/
def remove (m : MapBase V) (key : String) : Option (MapBase V) := do
  match ← m.getref key with
  | none => some m
  | some next =>
    let (a, node) ← m.nodeAt next
    some { m with mem := (m.mem.assign next node.next).write a none, nnodes := m.nnodes - 1 }

/-- `edgex_map_deinit_`, with the nodes that it leaves in memory. -/
def deinit (m : MapBase V) : Option (Chains.Heap (MapNode V)) :=
  m.mem.freeAll m.nnodes.toNat m.nbuckets.toNat m.mem.heap

end MapBase

/-- `edgex_map_iter`. -/
structure MapIter where
  bucketidx : BitVec 32
  node : Option ℕ
  deriving DecidableEq

/-- `edgex_map_iter_`. -/
def mapIter : MapIter := ⟨-1, none⟩

namespace MapBase

variable {V : Type}

/-- The loop of `edgex_map_next_` that looks for the next bucket with a node. -/
def nextBucket (m : MapBase V) : ℕ → BitVec 32 → Option (MapIter × Option String)
  | 0, _ => none
  | fuel + 1, idx =>
    let idx := idx + 1
    if m.nbuckets ≤ idx then some (⟨idx, none⟩, none)
    else do
      match ← m.mem.deref (.root idx.toNat) with
      | none => nextBucket m fuel idx
      | some a =>
        let node ← m.mem.heap a
        some (⟨idx, some a⟩, some node.data.key)

/-- `edgex_map_next_`, with the key that the result points to. -/
def next (m : MapBase V) (iter : MapIter) : Option (MapIter × Option String) :=
  match iter.node with
  | none => m.nextBucket (m.nbuckets.toNat + 1) iter.bucketidx
  | some a => do
    match (← m.mem.heap a).next with
    | none => m.nextBucket (m.nbuckets.toNat + 1) iter.bucketidx
    | some b =>
      let node ← m.mem.heap b
      some (⟨iter.bucketidx, some b⟩, some node.data.key)

/-- The keys that are visited until `edgex_map_next` gives none. -/
def visit (m : MapBase V) : ℕ → MapIter → Option (List String)
  | 0, _ => none
  | fuel + 1, iter => do
    match ← m.next iter with
    | (_, none) => some []
    | (iter, some key) => (key :: ·) <$> visit m fuel iter

/-- An iteration over the whole map. -/
def keys (m : MapBase V) : Option (List String) := m.visit (m.nnodes.toNat + 1) mapIter

section Clear

variable {S : Type} (release : S → V → S)

/-- The loop of `edgex_devmap_clear`. What `edgex_device_release` does with a value happens to a
    state beside the map. -/
def clearLoop : ℕ → MapBase V → S → MapIter → Option String → Option (MapBase V × S)
  | _, m, s, _, none => some (m, s)
  | 0, _, _, _, some _ => none
  | fuel + 1, m, s, i, some key => do
    let e ← (← m.get key)
    let (i, next) ← m.next i
    let m ← m.remove key
    clearLoop fuel m (release s e) i next

/-- `edgex_devmap_clear`. -/
def clear (m : MapBase V) (s : S) : Option (MapBase V × S) := do
  let (i, key) ← m.next mapIter
  clearLoop release m.nnodes.toNat m s i key

end Clear

end MapBase

end DeviceSdk
