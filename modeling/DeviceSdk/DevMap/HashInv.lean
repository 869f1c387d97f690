import DeviceSdk.DevMap.HashMap

/-!
# What the operations do to the hash map

Beside the map in memory stands the table of its nodes, a list for each bucket. Every operation is
defined on a map that has such a table, keeps the table with the map, and changes the nodes in it
as its purpose says: a resize only moves them.

## Main definitions

- `MapShape` — the chains of the map are those of a table
- `MapInv` — the invariant

## Main results

- `MapInv.get_spec`, `MapInv.set_spec`, `MapInv.remove_spec`, `MapInv.deinit_spec`
-/

namespace DeviceSdk

open Chains (Mem Place addrs)

variable {V : Type}

/-- The nodes of a map, by their buckets. -/
abbrev NodeTable (V : Type) := List (List (ℕ × MapNode V))

/-- The chains of the map are those of the table: there are as many as it has buckets, their number
    is zero or a power of two, and each node is in the bucket that its hash selects. -/
structure MapShape (m : MapBase V) (t : NodeTable V) : Prop where
  table : m.mem.Table t
  size : m.mem.roots.length = m.nbuckets.toNat
  pow : m.nbuckets.toNat = 0 ∨ ∃ k ≤ 30, m.nbuckets.toNat = 2 ^ k
  placed : ∀ (i : ℕ) l, t[i]? = some l → ∀ e ∈ l, m.bucketidx e.2.hash = i

/-- The keys of a list of nodes. -/
abbrev keysOf (l : List (ℕ × MapNode V)) : List String := l.map (·.2.key)

/-- These are the nodes of the map, and no other is in memory: the hashes are those of the keys, the
    keys are distinct and `nnodes` is their number, which is at most the number of buckets. -/
structure MapNodes (m : MapBase V) (l : List (ℕ × MapNode V)) : Prop where
  count : m.nnodes.toNat = l.length
  room : l.length ≤ m.nbuckets.toNat
  owned : ∀ a, m.mem.heap a ≠ none → a ∈ addrs l
  hashes : ∀ e ∈ l, e.2.hash = edgexHash e.2.key
  distinct : (keysOf l).Nodup

/-- The invariant of a map, with the table of its nodes. -/
structure MapInv (m : MapBase V) (t : NodeTable V) : Prop extends MapShape m t where
  nodes : MapNodes m t.flatten

/-- Where the nodes are does not matter. -/
theorem MapNodes.perm {m : MapBase V} {l l' : List (ℕ × MapNode V)} (h : MapNodes m l)
    (hp : l.Perm l') : MapNodes m l' where
  count := hp.length_eq ▸ h.count
  room := hp.length_eq ▸ h.room
  owned a ha := (Chains.mem_addrs_perm hp).mp (h.owned a ha)
  hashes e he := h.hashes e (hp.mem_iff.mpr he)
  distinct := (hp.map _).nodup_iff.mp h.distinct

/-- A node for a key that has none, at an address of its own. -/
theorem MapNodes.cons {m m' : MapBase V} {l : List (ℕ × MapNode V)} (h : MapNodes m l) {a : ℕ}
    {node : MapNode V} (hnew : m'.nnodes = m.nnodes + 1) (hroom : l.length < m'.nbuckets.toNat)
    (howned : ∀ b, b ≠ a → m'.mem.heap b ≠ none → b ∈ addrs l)
    (hhash : node.hash = edgexHash node.key) (hkey : node.key ∉ keysOf l) :
    MapNodes m' ((a, node) :: l) where
  count := by
    have hlt := m'.nbuckets.isLt
    have hone : (1 : BitVec 32).toNat = 1 := rfl
    rw [hnew, BitVec.toNat_add, h.count, hone, List.length_cons]
    exact Nat.mod_eq_of_lt (by omega)
  room := by
    rw [List.length_cons]
    exact hroom
  owned b hb := by
    by_cases hba : b = a
    · exact hba ▸ List.mem_cons_self
    · exact List.mem_cons_of_mem _ (howned b hba hb)
  hashes := List.forall_mem_cons.mpr ⟨hhash, h.hashes⟩
  distinct := List.nodup_cons.mpr ⟨hkey, h.distinct⟩

/-- A node that is freed. -/
theorem MapNodes.tail {m m' : MapBase V} {e : ℕ × MapNode V} {l : List (ℕ × MapNode V)}
    (h : MapNodes m (e :: l)) (hgone : m'.nnodes = m.nnodes - 1)
    (hbuckets : m'.nbuckets = m.nbuckets)
    (howned : ∀ b, m'.mem.heap b ≠ none → b ≠ e.1 ∧ m.mem.heap b ≠ none) : MapNodes m' l where
  count := by
    have hcount := h.count
    rw [List.length_cons] at hcount
    have hone : (1 : BitVec 32).toNat = 1 := rfl
    have hle : (1 : BitVec 32) ≤ m.nnodes := by
      rw [BitVec.le_def, hone]
      omega
    rw [hgone, BitVec.toNat_sub_of_le hle, hone]
    omega
  room := by
    have hroom := h.room
    rw [List.length_cons] at hroom
    rw [hbuckets]
    omega
  owned b hb := by
    obtain ⟨hne, hused⟩ := howned b hb
    exact (List.mem_cons.mp (h.owned b hused)).resolve_left hne
  hashes := (List.forall_mem_cons.mp h.hashes).2
  distinct := (List.nodup_cons.mp h.distinct).2

/-- The allocator gives the memory for more buckets, where more are needed. -/
def MapBase.HasRoom (m : MapBase V) (realloc : Bool) : Prop :=
  m.nbuckets ≤ m.nnodes →
    realloc = true ∧ FitsObject (if 0 < m.nbuckets then m.nbuckets <<< 1 else 1)

instance (m : MapBase V) (realloc : Bool) : Decidable (m.HasRoom realloc) :=
  inferInstanceAs (Decidable (_ → _))

theorem bucketPlace_natCast (i : ℕ) : MapBase.bucketPlace i = some (.root i) := by
  rw [MapBase.bucketPlace, if_pos (Int.natCast_nonneg i), Int.toNat_natCast]

namespace MapShape

variable {m : MapBase V} {t : NodeTable V}

theorem length_eq (h : MapShape m t) : t.length = m.nbuckets.toNat := h.table.length.trans h.size

/-- The index of a bucket is below the number of buckets. -/
theorem bucketidx_lt (h : MapShape m t) (hpos : 0 < m.nbuckets.toNat) (hash : BitVec 32) :
    ∃ i < m.nbuckets.toNat, m.bucketidx hash = (i : ℤ) := by
  obtain hzero | ⟨k, hk, hpow⟩ := h.pow
  · omega
  have hle : 2 ^ k ≤ 2 ^ 30 := Nat.pow_le_pow_right two_pos hk
  have hsub : (m.nbuckets - 1).toNat = m.nbuckets.toNat - 1 := by
    have hone : (1 : BitVec 32) ≤ m.nbuckets := by
      rw [BitVec.le_def]
      exact hpos
    rw [BitVec.toNat_sub_of_le hone]
    rfl
  have hlt : (hash &&& (m.nbuckets - 1)).toNat < m.nbuckets.toNat := by
    have hand : (hash &&& (m.nbuckets - 1)).toNat ≤ (m.nbuckets - 1).toNat := by
      rw [BitVec.toNat_and]
      exact Nat.and_le_right
    omega
  exact ⟨_, hlt, BitVec.toInt_eq_toNat_of_lt (by omega)⟩

/-- The chain of a hash. -/
theorem chain (h : MapShape m t) (hpos : 0 < m.nbuckets.toNat) (hash : BitVec 32) :
    ∃ (i : ℕ) (l : List (ℕ × MapNode V)), m.bucketidx hash = i ∧ t[i]? = some l ∧
      MapBase.bucketPlace (m.bucketidx hash) = some (.root i) := by
  obtain ⟨i, hi, hidx⟩ := h.bucketidx_lt hpos hash
  have hlt : i < t.length := h.length_eq ▸ hi
  exact ⟨i, t[i], hidx, List.getElem?_eq_getElem hlt, by rw [hidx, bucketPlace_natCast]⟩

/-- Nodes are in their buckets when those of one chain are changed that belong there. -/
theorem placed_set (h : MapShape m t) {i : ℕ} {l l' : List (ℕ × MapNode V)}
    (hi : t[i]? = some l) (hl' : ∀ e ∈ l', m.bucketidx e.2.hash = i) (j : ℕ)
    (k : List (ℕ × MapNode V)) (hj : (t.set i l')[j]? = some k) :
    ∀ e ∈ k, m.bucketidx e.2.hash = j := by
  by_cases hji : j = i
  · obtain ⟨hlt, -⟩ := List.getElem?_eq_some_iff.mp hi
    rw [hji, List.getElem?_set_self hlt] at hj
    rw [hji, ← Option.some.inj hj]
    exact hl'
  · rw [List.getElem?_set_ne (Ne.symm hji)] at hj
    exact h.placed j k hj

/-- A node that is in no chain comes to the front of the one for its hash. -/
theorem addnode (h : MapShape m t) (hpos : 0 < m.nbuckets.toNat) {a : ℕ} {d : MapNode V}
    {q : Option ℕ} (hcell : m.mem.heap a = some ⟨d, q⟩) (ha : a ∉ addrs t.flatten) :
    ∃ m' t', m.addnode a = some m' ∧ MapShape m' t' ∧ t'.flatten.Perm ((a, d) :: t.flatten) ∧
      m'.nbuckets = m.nbuckets ∧ m'.nnodes = m.nnodes ∧
        ∀ b, b ≠ a → m'.mem.heap b = m.mem.heap b := by
  obtain ⟨i, l, hidx, hl, hplace⟩ := h.chain hpos d.hash
  obtain ⟨p, hp, -⟩ := h.table.leads i l hl
  obtain ⟨front, back, hflat, hset⟩ := Chains.Mem.flatten_set hl
  refine ⟨{ m with mem := (m.mem.write a (some ⟨d, p⟩)).assign (.root i) (some a) },
    t.set i ((a, d) :: l), ?_, ⟨h.table.push hl hp ha, ?_, h.pow, ?_⟩, ?_, rfl, rfl, ?_⟩
  · rw [MapBase.addnode, hcell]
    show (MapBase.bucketPlace (m.bucketidx d.hash)).bind _ = _
    rw [hplace]
    show (m.mem.deref (.root i)).bind _ = _
    rw [hp]
    rfl
  · show (m.mem.roots.set i _).length = _
    rw [List.length_set, h.size]
  · refine h.placed_set hl fun e he => ?_
    obtain rfl | he := List.mem_cons.mp he
    · exact hidx
    · exact h.placed i l hl e he
  · rw [hset, hflat]
    exact List.perm_middle
  · exact fun b hb => Chains.Mem.write_heap_of_ne _ hb _

/-- The nodes of a chain that is apart from the map are added one by one. -/
theorem readd (h : MapShape m t) (hpos : 0 < m.nbuckets.toNat) {p : Option ℕ}
    {l : List (ℕ × MapNode V)} {fuel : ℕ} (hl : Chains.Linked m.mem.heap p l)
    (hnodup : (addrs (l ++ t.flatten)).Nodup) (hfuel : l.length ≤ fuel) :
    ∃ m' t', MapBase.readd fuel m p = some m' ∧ MapShape m' t' ∧
      t'.flatten.Perm (l ++ t.flatten) ∧ m'.nbuckets = m.nbuckets ∧ m'.nnodes = m.nnodes ∧
        ∀ b ∉ addrs l, m'.mem.heap b = m.mem.heap b := by
  induction l generalizing m t p fuel with
  | nil =>
    obtain rfl := hl
    refine ⟨m, t, ?_, h, by simp, rfl, rfl, fun _ _ => rfl⟩
    cases fuel <;> rfl
  | cons e l ih =>
    obtain ⟨rfl, q, he, hl⟩ := hl
    cases fuel with
    | zero => simp at hfuel
    | succ fuel =>
      rw [List.cons_append, Chains.nodup_addrs_cons] at hnodup
      obtain ⟨hel, hrest⟩ := hnodup
      rw [Chains.mem_addrs_append, not_or] at hel
      obtain ⟨m₁, t₁, hadd, h₁, hperm₁, hnb₁, hnn₁, hframe₁⟩ := h.addnode hpos he hel.2
      have hl₁ : Chains.Linked m₁.mem.heap q l := by
        refine hl.frame fun a ha => hframe₁ a ?_
        rintro rfl
        exact hel.1 ha
      have hnodup₁ : (addrs (l ++ t₁.flatten)).Nodup := by
        rw [Chains.nodup_addrs_perm ((hperm₁.append_left l).trans List.perm_middle)]
        exact Chains.nodup_addrs_cons.mpr ⟨Chains.mem_addrs_append.not.mpr (not_or.mpr hel), hrest⟩
      obtain ⟨m', t', hrun, h', hperm', hnb', hnn', hframe'⟩ :=
        ih h₁ (hnb₁ ▸ hpos) hl₁ hnodup₁ (by simpa using hfuel)
      refine ⟨m', t', ?_, h', ?_, hnb'.trans hnb₁, hnn'.trans hnn₁, fun b hb => ?_⟩
      · rw [MapBase.readd, he]
        show (m.addnode e.1).bind _ = _
        rw [hadd]
        exact hrun
      · exact hperm'.trans ((hperm₁.append_left l).trans List.perm_middle)
      · rw [Chains.addrs_cons, List.mem_cons, not_or] at hb
        rw [hframe' b hb.2, hframe₁ b hb.1]

/-- A map without nodes, in buckets that are there already. -/
theorem empty (heap : Chains.Heap (MapNode V)) {nbuckets : BitVec 32} (nnodes : BitVec 32)
    (hpow : nbuckets.toNat = 0 ∨ ∃ k ≤ 30, nbuckets.toNat = 2 ^ k) :
    MapShape ⟨⟨List.replicate nbuckets.toNat none, heap⟩, nbuckets, nnodes⟩
      (List.replicate nbuckets.toNat []) where
  table :=
    { length := by simp
      leads := by
        intro i l hi
        obtain ⟨hlt, rfl⟩ := List.getElem?_eq_some_iff.mp hi
        rw [List.length_replicate] at hlt
        rw [List.getElem_replicate]
        refine ⟨none, ?_, rfl⟩
        show (List.replicate _ none)[i]? = some none
        rw [List.getElem?_replicate, if_pos hlt]
      nodup := by simp }
  size := List.length_replicate
  pow := hpow
  placed := by
    intro i l hi e he
    obtain ⟨hlt, rfl⟩ := List.getElem?_eq_some_iff.mp hi
    rw [List.getElem_replicate] at he
    cases he

/-- The nodes of a chain, in buckets that are new. -/
theorem rebuilt {heap : Chains.Heap (MapNode V)} {p : Option ℕ} {l : List (ℕ × MapNode V)}
    (hl : Chains.Linked heap p l) (hnodup : (addrs l).Nodup) {nbuckets nnodes : BitVec 32}
    (hpow : ∃ k ≤ 30, nbuckets.toNat = 2 ^ k) (hlen : l.length ≤ nnodes.toNat) :
    ∃ m' t', MapBase.readd nnodes.toNat
        ⟨⟨List.replicate nbuckets.toNat none, heap⟩, nbuckets, nnodes⟩ p = some m' ∧
      MapShape m' t' ∧ t'.flatten.Perm l ∧ m'.nbuckets = nbuckets ∧ m'.nnodes = nnodes ∧
        ∀ b ∉ addrs l, m'.mem.heap b = heap b := by
  have hpos : 0 < nbuckets.toNat := by
    obtain ⟨k, -, hk⟩ := hpow
    rw [hk]
    exact Nat.two_pow_pos k
  have hnone : (List.replicate nbuckets.toNat ([] : List (ℕ × MapNode V))).flatten = [] :=
    List.flatten_replicate_nil
  have hstart := MapShape.empty heap nnodes (Or.inr hpow)
  have hnodup' : (addrs (l ++ (List.replicate nbuckets.toNat
      ([] : List (ℕ × MapNode V))).flatten)).Nodup := by
    rwa [hnone, List.append_nil]
  obtain ⟨m', t', hrun, h', hperm, hrest⟩ := hstart.readd hpos hl hnodup' hlen
  rw [hnone, List.append_nil] at hperm
  exact ⟨m', t', hrun, h', hperm, hrest⟩

/-- A resize moves the nodes. Where there is no memory for the new buckets, they come back to as
    many as there were. -/
theorem resize (h : MapShape m t) (hcount : m.nnodes.toNat = t.flatten.length)
    {nbuckets : BitVec 32} {realloc : Bool}
    (hn : MapBase.FitsObject nbuckets → ∃ k ≤ 30, nbuckets.toNat = 2 ^ k) :
    ∃ m' t', m.resize nbuckets realloc =
        some (m', if realloc ∧ MapBase.FitsObject nbuckets then 0 else -1) ∧
      MapShape m' t' ∧ t'.flatten.Perm t.flatten ∧
      m'.nbuckets = (if realloc ∧ MapBase.FitsObject nbuckets then nbuckets else m.nbuckets) ∧
      m'.nnodes = m.nnodes ∧ ∀ b ∉ addrs t.flatten, m'.mem.heap b = m.mem.heap b := by
  obtain ⟨heap, nodes, l, hgather, hl, hperm, hframe⟩ := h.table.gather hcount.ge
  rw [h.length_eq] at hgather
  have hadded {n : BitVec 32} (hpow : ∃ k ≤ 30, n.toNat = 2 ^ k) :
      ∃ m' t', MapBase.readd m.nnodes.toNat
          ⟨⟨List.replicate n.toNat none, heap⟩, n, m.nnodes⟩ nodes = some m' ∧
        MapShape m' t' ∧ t'.flatten.Perm t.flatten ∧ m'.nbuckets = n ∧
          m'.nnodes = m.nnodes ∧ ∀ b ∉ addrs t.flatten, m'.mem.heap b = m.mem.heap b := by
    have hnodup := (Chains.nodup_addrs_perm hperm).mpr h.table.nodup
    obtain ⟨m', t', hrun, h', hperm', hnb, hnn, hframe'⟩ :=
      rebuilt hl hnodup hpow (by rw [hperm.length_eq, hcount])
    refine ⟨m', t', hrun, h', hperm'.trans hperm, hnb, hnn, fun b hb => ?_⟩
    rw [hframe' b fun hmem => hb ((Chains.mem_addrs_perm hperm).mp hmem)]
    exact hframe b hb
  rw [MapBase.resize, hgather]
  show ∃ m' t', (if realloc ∧ MapBase.FitsObject nbuckets then _ else _) = some _ ∧ _
  by_cases hok : realloc ∧ MapBase.FitsObject nbuckets
  · obtain ⟨m', t', hrun, hrest⟩ := hadded (hn hok.2)
    simp only [if_pos hok]
    exact ⟨m', t', by rw [hrun]; rfl, hrest⟩
  · simp only [if_neg hok]
    cases hroots : m.mem.roots with
    | nil =>
      obtain rfl : t = [] := List.length_eq_zero_iff.mp (by rw [h.table.length, hroots]; rfl)
      refine ⟨{ m with mem := ⟨[], heap⟩ }, [], rfl, ⟨⟨rfl, ?_, List.nodup_nil⟩, ?_, h.pow, ?_⟩,
        List.Perm.refl _, rfl, rfl, hframe⟩
      · intro i l hi
        cases hi
      · rw [← h.size, hroots]
      · intro i l hi
        cases hi
    | cons p roots =>
      have hpos : 0 < m.nbuckets.toNat := by
        rw [← h.size, hroots]
        exact Nat.succ_pos _
      obtain ⟨m', t', hrun, hrest⟩ := hadded (h.pow.resolve_left hpos.ne')
      exact ⟨m', t', by simp only [hrun]; rfl, hrest⟩

/-- The number of buckets that is asked for next, where it is one that a map can have, is a power
    of two and larger. -/
theorem grown (h : MapShape m t)
    (hfits : MapBase.FitsObject (if 0 < m.nbuckets then m.nbuckets <<< 1 else 1)) :
    ∃ k ≤ 30, (if 0 < m.nbuckets then m.nbuckets <<< 1 else 1 : BitVec 32).toNat = 2 ^ k ∧
      m.nbuckets.toNat < 2 ^ k := by
  obtain hzero | ⟨k, hk, hpow⟩ := h.pow
  · have hnot : ¬0 < m.nbuckets := by
      rw [BitVec.lt_def, hzero]
      exact Nat.lt_irrefl 0
    rw [if_neg hnot, hzero]
    exact ⟨0, by omega, rfl, by decide⟩
  · have hpos : 0 < m.nbuckets := by
      rw [BitVec.lt_def, hpow]
      exact Nat.two_pow_pos k
    rw [if_pos hpos] at hfits ⊢
    have hk30 : k ≠ 30 := by
      rintro rfl
      have hnb : m.nbuckets = BitVec.ofNat 32 (2 ^ 30) := BitVec.eq_of_toNat_eq hpow
      rw [hnb] at hfits
      exact absurd hfits (by decide)
    have hlt : 2 ^ (k + 1) < 2 ^ 32 := Nat.pow_lt_pow_right (by decide) (by omega)
    refine ⟨k + 1, by omega, ?_, ?_⟩
    · rw [BitVec.toNat_shiftLeft, hpow, Nat.shiftLeft_eq, ← Nat.pow_succ, Nat.mod_eq_of_lt hlt]
    · rw [hpow]
      exact Nat.pow_lt_pow_right (by decide) (Nat.lt_succ_self k)

/-- After `makeRoom` there are more buckets than nodes, unless the memory is not there. -/
theorem makeRoom (h : MapShape m t) (hcount : m.nnodes.toNat = t.flatten.length)
    (hroom : t.flatten.length ≤ m.nbuckets.toNat) (realloc : Bool) :
    ∃ m' t', m.makeRoom realloc = some (m', if m.HasRoom realloc then 0 else -1) ∧
      MapShape m' t' ∧ t'.flatten.Perm t.flatten ∧ m'.nnodes = m.nnodes ∧
      (if m.HasRoom realloc then t.flatten.length < m'.nbuckets.toNat
        else t.flatten.length ≤ m'.nbuckets.toNat) ∧
      ∀ b ∉ addrs t.flatten, m'.mem.heap b = m.mem.heap b := by
  rw [MapBase.makeRoom]
  by_cases hfull : m.nbuckets ≤ m.nnodes
  · have hroom_iff : m.HasRoom realloc ↔ realloc = true ∧
        MapBase.FitsObject (if 0 < m.nbuckets then m.nbuckets <<< 1 else 1) :=
      ⟨fun hok => hok hfull, fun hok _ => hok⟩
    have hpow : MapBase.FitsObject (if 0 < m.nbuckets then m.nbuckets <<< 1 else 1) →
        ∃ k ≤ 30, (if 0 < m.nbuckets then m.nbuckets <<< 1 else 1 : BitVec 32).toNat = 2 ^ k := by
      intro hfits
      obtain ⟨k, hk, hn, -⟩ := h.grown hfits
      exact ⟨k, hk, hn⟩
    obtain ⟨m', t', hrun, hshape, hperm, hnb, hnn, hframe⟩ := @resize _ m t h hcount _ realloc hpow
    simp only [if_pos hfull, hroom_iff]
    refine ⟨m', t', hrun, hshape, hperm, hnn, ?_, hframe⟩
    rw [hnb]
    by_cases hok : realloc = true ∧
        MapBase.FitsObject (if 0 < m.nbuckets then m.nbuckets <<< 1 else 1)
    · obtain ⟨k, -, hn, hlt⟩ := h.grown hok.2
      rw [if_pos hok, if_pos hok, hn]
      omega
    · rwa [if_neg hok, if_neg hok]
  · have hok : m.HasRoom realloc := fun hle => absurd hle hfull
    simp only [if_neg hfull, if_pos hok]
    rw [BitVec.le_def, not_le, hcount] at hfull
    exact ⟨m, t, rfl, h, List.Perm.refl _, rfl, hfull, fun _ _ => rfl⟩

end MapShape

-- ════════════════════════════════════════════════════════════════════════
-- What the nodes stand for
-- ════════════════════════════════════════════════════════════════════════

/-- The value of a key in a list of nodes. -/
def entryOf (l : List (ℕ × MapNode V)) (key : String) : Option V :=
  (l.find? (·.2.key = key)).map (·.2.value)

section Entries

variable {l l' : List (ℕ × MapNode V)} {e : ℕ × MapNode V} {key : String}

theorem entryOf_cons :
    entryOf (e :: l) key = if e.2.key = key then some e.2.value else entryOf l key := by
  rw [entryOf, List.find?_cons]
  by_cases he : e.2.key = key <;> simp [he, entryOf]

theorem entryOf_eq_none_iff : entryOf l key = none ↔ ∀ e ∈ l, e.2.key ≠ key := by
  simp [entryOf, List.find?_eq_none]

theorem entryOf_eq_some_iff (h : (keysOf l).Nodup) {v : V} :
    entryOf l key = some v ↔ ∃ e ∈ l, e.2.key = key ∧ e.2.value = v := by
  rw [entryOf, Option.map_eq_some_iff]
  constructor
  · rintro ⟨e, hfind, hv⟩
    exact ⟨e, List.mem_of_find?_eq_some hfind, by simpa using List.find?_some hfind, hv⟩
  · rintro ⟨e, he, hkey, hv⟩
    cases hfind : l.find? (·.2.key = key) with
    | none => exact absurd hkey (by simpa using List.find?_eq_none.mp hfind e he)
    | some d =>
      have hd : d.2.key = e.2.key := by
        rw [hkey]
        simpa using List.find?_some hfind
      exact ⟨d, rfl, (List.inj_on_of_nodup_map h (List.mem_of_find?_eq_some hfind) he hd) ▸ hv⟩

/-- Where the nodes are does not matter. -/
theorem entryOf_perm (h : (keysOf l).Nodup) (hp : l.Perm l') : entryOf l key = entryOf l' key := by
  have h' : (keysOf l').Nodup := (hp.map _).nodup_iff.mp h
  refine Option.ext fun v => ?_
  rw [entryOf_eq_some_iff h, entryOf_eq_some_iff h']
  simp only [hp.mem_iff]

theorem entryOf_perm_cons (h : (keysOf l).Nodup) (hp : l.Perm (e :: l')) :
    entryOf l key = if e.2.key = key then some e.2.value else entryOf l' key :=
  (entryOf_perm h hp).trans entryOf_cons

end Entries

-- ════════════════════════════════════════════════════════════════════════
-- The operations
-- ════════════════════════════════════════════════════════════════════════

/-- The allocator gives all the memory that a new key needs. -/
def MapBase.Allocates (m : MapBase V) (malloc : Option ℕ) (realloc : Bool) : Prop :=
  (m.newAddress malloc).isSome ∧ m.HasRoom realloc

instance (m : MapBase V) (malloc : Option ℕ) (realloc : Bool) :
    Decidable (m.Allocates malloc realloc) := inferInstanceAs (Decidable (_ ∧ _))

/-- The allocator gives a free address, and where there are as many nodes as buckets it gives an
    array for the buckets, of a size that an object can have. -/
theorem MapBase.allocates_iff {m : MapBase V} {malloc : Option ℕ} {realloc : Bool} :
    m.Allocates malloc realloc ↔ (∃ a, malloc = some a ∧ m.mem.heap a = none) ∧
      (m.nbuckets ≤ m.nnodes →
        realloc = true ∧ FitsObject (if 0 < m.nbuckets then m.nbuckets <<< 1 else 1)) := by
  rw [Allocates, HasRoom, newAddress, Option.isSome_iff_exists]
  simp only [Option.filter_eq_some_iff, Option.isNone_iff_eq_none]

/-- Below 2 ^ 30 buckets each size is one that an object can have. -/
theorem MapBase.allocates_iff_of_lt {m : MapBase V} (h : m.nbuckets.toNat < 2 ^ 30)
    {malloc : Option ℕ} {realloc : Bool} :
    m.Allocates malloc realloc ↔ (∃ a, malloc = some a ∧ m.mem.heap a = none) ∧
      (m.nbuckets ≤ m.nnodes → realloc = true) := by
  have hfits : FitsObject (if 0 < m.nbuckets then m.nbuckets <<< 1 else 1) := by
    split
    next =>
      have hdouble : (m.nbuckets <<< 1).toNat = 2 * m.nbuckets.toNat := by
        rw [BitVec.toNat_shiftLeft, Nat.shiftLeft_eq]
        omega
      have hpos : (m.nbuckets <<< 1).msb = false :=
        BitVec.msb_eq_false_iff_two_mul_lt.mpr (by omega)
      have hwide : ((m.nbuckets <<< 1).signExtend 64).toNat = 2 * m.nbuckets.toNat := by
        rw [BitVec.signExtend_eq_setWidth_of_msb_false hpos, BitVec.toNat_setWidth, hdouble]
        omega
      rw [FitsObject, BitVec.toNat_mul, hwide]
      change 8 * (2 * m.nbuckets.toNat) % 2 ^ 64 < 2 ^ 63
      omega
    next => decide
  simp only [allocates_iff, hfits, and_true]

/-- The address of a new node is free. -/
theorem MapBase.heap_newAddress {m : MapBase V} {malloc : Option ℕ} {a : ℕ}
    (h : m.newAddress malloc = some a) : m.mem.heap a = none := by
  have hfilter := (Option.filter_eq_some_iff.mp h).2
  simpa using hfilter

namespace MapInv

variable {m : MapBase V} {t : NodeTable V}

/-- `edgex_map_getref` leads to the node of the key, if there is one. -/
theorem getref_spec (h : MapInv m t) (key : String) :
    (m.getref key = some none ∧ ∀ e ∈ t.flatten, e.2.key ≠ key) ∨
      ∃ i x e y q, t[i]? = some (x ++ e :: y) ∧ e.2.key = key ∧
        m.getref key = some (some ((Place.root i).after x)) ∧
        m.mem.deref ((Place.root i).after x) = some (some e.1) ∧
          m.mem.heap e.1 = some ⟨e.2, q⟩ := by
  rw [MapBase.getref]
  by_cases hpos : 0 < m.nbuckets
  · obtain ⟨i, l, hidx, hl, hplace⟩ := h.chain hpos (edgexHash key)
    have hlen : l.length < m.nnodes.toNat + 1 := by
      rw [h.nodes.count]
      exact Nat.lt_succ_of_le (List.sublist_flatten_of_mem (List.mem_of_getElem? hl)).length_le
    have hmem {e : ℕ × MapNode V} (he : e ∈ l) : e ∈ t.flatten :=
      Chains.Mem.mem_flatten_of_getElem? hl he
    rw [if_pos hpos, hplace]
    obtain ⟨hfind, hall⟩ | ⟨x, e, y, rfl, htest, hfind⟩ :=
      @Chains.Mem.find_spec _ m.mem (.root i) l
        (fun node => node.hash = edgexHash key && node.key = key) _ (h.table.leads i l hl) hlen
    · -- A node with the key would be in this bucket.
      refine Or.inl ⟨hfind, fun e he hkey => ?_⟩
      have hhash : e.2.hash = edgexHash key := by rw [h.nodes.hashes e he, hkey]
      obtain ⟨k, hk, hek⟩ := List.mem_flatten.mp he
      obtain ⟨j, hj⟩ := List.getElem?_of_mem hk
      have hji : (j : ℤ) = i := by rw [← h.placed j k hj e hek, hhash, hidx]
      rw [Int.natCast_inj.mp hji, hl] at hj
      have hno := hall e (Option.some.inj hj ▸ hek)
      simp [hhash, hkey] at hno
    · obtain ⟨hplace', q, hq, -⟩ := Chains.Mem.leads_cons.mp (h.table.leads i _ hl).after
      have hkey : e.2.key = key := by
        simp only [Bool.and_eq_true, decide_eq_true_eq] at htest
        exact htest.2
      exact Or.inr ⟨i, x, e, y, q, hl, hkey, hfind, hplace', hq⟩
  · have hempty : t.flatten = [] := by
      refine List.length_eq_zero_iff.mp ?_
      have hroom := h.nodes.room
      have hzero : m.nbuckets.toNat = 0 := Nat.eq_zero_of_not_pos hpos
      omega
    rw [if_neg hpos, hempty]
    exact Or.inl ⟨rfl, fun e he => by cases he⟩

theorem get_spec (h : MapInv m t) (key : String) :
    m.get key = some (entryOf t.flatten key) := by
  rw [MapBase.get]
  obtain ⟨hget, hall⟩ | ⟨i, x, e, y, q, hi, hkey, hget, hplace, hq⟩ := h.getref_spec key
  · rw [hget, entryOf_eq_none_iff.mpr hall]
    rfl
  · have hentry : entryOf t.flatten key = some e.2.value := by
      refine (entryOf_eq_some_iff h.nodes.distinct).mpr ⟨e, ?_, hkey, rfl⟩
      exact Chains.Mem.mem_flatten_of_getElem? hi (List.mem_append_right _ List.mem_cons_self)
    rw [hget, hentry]
    simp [MapBase.nodeAt, hplace, hq]

/-- A key that is there has its value replaced in its node. -/
theorem set_found (h : MapInv m t) {key : String} (hkey : (entryOf t.flatten key).isSome)
    (value : V) (malloc : Option ℕ) (realloc : Bool) :
    ∃ m' t', m.set key value malloc realloc = some (m', 0) ∧ MapInv m' t' ∧
      entryOf t'.flatten = Function.update (entryOf t.flatten) key (some value) := by
  rw [MapBase.set]
  obtain ⟨-, hall⟩ | ⟨i, x, e, y, q, hi, rfl, hget, hplace, hq⟩ := h.getref_spec key
  · rw [entryOf_eq_none_iff.mpr hall] at hkey
    cases hkey
  obtain ⟨hperm, hperm'⟩ := Chains.Mem.flatten_perm_cons hi
  let node : MapNode V := { e.2 with value := value }
  let m' : MapBase V := { m with mem := m.mem.write e.1 (some ⟨node, q⟩) }
  have hold := h.nodes.perm hperm
  have hnew : MapNodes m' ((e.1, node) :: (t.set i (x ++ y)).flatten) :=
    { count := hold.count
      room := hold.room
      owned := by
        intro a ha
        by_cases hae : a = e.1
        · exact hae ▸ List.mem_cons_self
        · exact hold.owned a (by rwa [← Chains.Mem.write_heap_of_ne m.mem hae])
      hashes := by
        intro d hd
        obtain rfl | hd := List.mem_cons.mp hd
        · exact hold.hashes e List.mem_cons_self
        · exact hold.hashes d (List.mem_cons_of_mem _ hd)
      distinct := hold.distinct }
  have hnodes : MapNodes m' (t.set i (x ++ (e.1, node) :: y)).flatten := hnew.perm (hperm' _).symm
  refine ⟨m', t.set i (x ++ (e.1, node) :: y), ?_,
    ⟨⟨h.table.setData hi hq node, h.size, h.pow, ?_⟩, hnodes⟩, ?_⟩
  · rw [hget]
    simp [MapBase.nodeAt, hplace, hq, node, m']
  · refine h.placed_set hi fun d hd => ?_
    have hbucket := h.placed i _ hi
    obtain hd | hd := List.mem_append.mp hd
    · exact hbucket d (List.mem_append_left _ hd)
    · obtain rfl | hd := List.mem_cons.mp hd
      · exact hbucket e (List.mem_append_right _ List.mem_cons_self)
      · exact hbucket d (List.mem_append_right _ (List.mem_cons_of_mem _ hd))
  · funext k
    rw [entryOf_perm_cons hnodes.distinct (hperm' _)]
    by_cases hk : k = e.2.key
    · rw [hk, Function.update_self, if_pos rfl]
    · rw [Function.update_of_ne hk, if_neg (Ne.symm hk),
        entryOf_perm_cons h.nodes.distinct hperm, if_neg (Ne.symm hk)]

/-- `edgex_map_set_` for a key without a node, from its allocation on. -/
theorem set_of_none {key : String} (hget : m.getref key = some none) {malloc : Option ℕ} {a : ℕ}
    (hnew : m.newAddress malloc = some a) (value : V) (realloc : Bool) :
    m.set key value malloc realloc =
      (MapBase.makeRoom
        { m with mem := m.mem.write a (some ⟨⟨edgexHash key, key, value⟩, none⟩) } realloc).bind
        fun r => if r.2 ≠ 0 then some ({ r.1 with mem := r.1.mem.write a none }, -1)
          else (r.1.addnode a).map fun m' => ({ m' with nnodes := m'.nnodes + 1 }, 0) := by
  rw [MapBase.set, hget]
  simp only [Option.bind_eq_bind, Option.bind_some, hnew]
  refine congrArg _ (funext fun r => ?_)
  split
  · rfl
  · cases r.1.addnode a <;> rfl

/-- The map with more buckets, where they are needed, and a cell for a new node beside it. -/
theorem makeRoom_new (h : MapInv m t) {a : ℕ} (hfree : m.mem.heap a = none) (node : MapNode V)
    (realloc : Bool) :
    ∃ m' t', MapBase.makeRoom { m with mem := m.mem.write a (some ⟨node, none⟩) } realloc =
        some (m', if m.HasRoom realloc then 0 else -1) ∧
      MapShape m' t' ∧ t'.flatten.Perm t.flatten ∧ m'.nnodes = m.nnodes ∧
      (if m.HasRoom realloc then t.flatten.length < m'.nbuckets.toNat
        else t.flatten.length ≤ m'.nbuckets.toNat) ∧
      m'.mem.heap a = some ⟨node, none⟩ ∧
        ∀ b, b ≠ a → m'.mem.heap b ≠ none → b ∈ addrs t.flatten := by
  have ha : a ∉ addrs t.flatten := h.table.notMem_of_heap_eq_none hfree
  have hshape : MapShape { m with mem := m.mem.write a (some ⟨node, none⟩) } t :=
    ⟨h.table.write ha _, h.size, h.pow, h.placed⟩
  obtain ⟨m', t', hrun, h', hperm, hnn, hroom, hframe⟩ :=
    hshape.makeRoom h.nodes.count h.nodes.room realloc
  refine ⟨m', t', hrun, h', hperm, hnn, hroom, ?_, fun b hb hused => ?_⟩
  · rw [hframe a ha]
    exact Chains.Mem.write_heap_self ..
  · by_contra hnot
    rw [hframe b hnot, Chains.Mem.write_heap_of_ne m.mem hb] at hused
    exact hnot (h.nodes.owned b hused)

/-- Without the memory for more buckets the new node is freed again. -/
theorem set_refused (h : MapInv m t) {key : String} (hget : m.getref key = some none)
    {malloc : Option ℕ} {a : ℕ} (hnew : m.newAddress malloc = some a) (value : V)
    {realloc : Bool} (hno : ¬m.HasRoom realloc) :
    ∃ m' t', m.set key value malloc realloc = some (m', -1) ∧ MapInv m' t' ∧
      entryOf t'.flatten = entryOf t.flatten := by
  have hfree : m.mem.heap a = none := MapBase.heap_newAddress hnew
  obtain ⟨m₁, t₁, hrun, h₁, hperm, hnn, hroom, -, howned⟩ :=
    h.makeRoom_new hfree ⟨edgexHash key, key, value⟩ realloc
  rw [if_neg hno] at hrun hroom
  have ha : a ∉ addrs t₁.flatten :=
    (Chains.mem_addrs_perm hperm).not.mpr (h.table.notMem_of_heap_eq_none hfree)
  let m' : MapBase V := { m₁ with mem := m₁.mem.write a none }
  have hnodes : MapNodes m' t.flatten :=
    { count := hnn ▸ h.nodes.count
      room := hroom
      owned := by
        intro b hb
        by_cases hba : b = a
        · rw [hba] at hb
          exact absurd (Chains.Mem.write_heap_self ..) hb
        · refine howned b hba ?_
          rwa [← Chains.Mem.write_heap_of_ne m₁.mem hba]
      hashes := h.nodes.hashes
      distinct := h.nodes.distinct }
  have hnodes' : MapNodes m' t₁.flatten := hnodes.perm hperm.symm
  refine ⟨m', t₁, ?_, ⟨⟨h₁.table.write ha none, h₁.size, h₁.pow, h₁.placed⟩, hnodes'⟩, ?_⟩
  · rw [set_of_none hget hnew, hrun, Option.bind_some, if_pos (by simp)]
  · funext k
    exact entryOf_perm hnodes'.distinct hperm

/-- With it, the node comes to the front of the chain for its hash. -/
theorem set_added (h : MapInv m t) {key : String} (hget : m.getref key = some none)
    (hkey : key ∉ keysOf t.flatten) {malloc : Option ℕ} {a : ℕ}
    (hnew : m.newAddress malloc = some a) (value : V) {realloc : Bool}
    (hok : m.HasRoom realloc) :
    ∃ m' t', m.set key value malloc realloc = some (m', 0) ∧ MapInv m' t' ∧
      entryOf t'.flatten = Function.update (entryOf t.flatten) key (some value) := by
  have hfree : m.mem.heap a = none := MapBase.heap_newAddress hnew
  let node : MapNode V := ⟨edgexHash key, key, value⟩
  obtain ⟨m₁, t₁, hrun, h₁, hperm₁, hnn₁, hroom, hcell, howned⟩ :=
    h.makeRoom_new hfree node realloc
  rw [if_pos hok] at hrun hroom
  have ha : a ∉ addrs t₁.flatten :=
    (Chains.mem_addrs_perm hperm₁).not.mpr (h.table.notMem_of_heap_eq_none hfree)
  obtain ⟨m₂, t₂, hadd, h₂, hperm₂, hnb₂, hnn₂, hframe⟩ := h₁.addnode (by omega) hcell ha
  have hperm : t₂.flatten.Perm ((a, node) :: t.flatten) := hperm₂.trans (hperm₁.cons _)
  let m' : MapBase V := { m₂ with nnodes := m₂.nnodes + 1 }
  have hcount : m'.nnodes = m.nnodes + 1 := by
    show m₂.nnodes + 1 = _
    rw [hnn₂, hnn₁]
  have hroom' : t.flatten.length < m'.nbuckets.toNat := by
    show _ < m₂.nbuckets.toNat
    rwa [hnb₂]
  have hnodes : MapNodes m' ((a, node) :: t.flatten) :=
    h.nodes.cons hcount hroom' (fun b hb hused => howned b hb (by rwa [← hframe b hb])) rfl hkey
  have hnodes' : MapNodes m' t₂.flatten := hnodes.perm hperm.symm
  refine ⟨m', t₂, ?_, ⟨⟨h₂.table, h₂.size, h₂.pow, h₂.placed⟩, hnodes'⟩, ?_⟩
  · rw [set_of_none hget hnew, hrun, Option.bind_some, if_neg (by simp), hadd]
    rfl
  · funext k
    rw [entryOf_perm_cons hnodes'.distinct hperm]
    by_cases hk : k = key
    · rw [hk, Function.update_self, if_pos rfl]
    · rw [Function.update_of_ne hk, if_neg (Ne.symm hk)]

/-- A new key comes into the map with a node of its own. Where memory for it is refused the map is
    as before. -/
theorem set_new (h : MapInv m t) {key : String} (hkey : entryOf t.flatten key = none)
    (value : V) (malloc : Option ℕ) (realloc : Bool) :
    ∃ m' t', m.set key value malloc realloc =
        some (m', if m.Allocates malloc realloc then 0 else -1) ∧ MapInv m' t' ∧
      entryOf t'.flatten = if m.Allocates malloc realloc then
        Function.update (entryOf t.flatten) key (some value) else entryOf t.flatten := by
  have hall := entryOf_eq_none_iff.mp hkey
  have hget : m.getref key = some none := by
    obtain ⟨hget, -⟩ | ⟨i, x, e, y, q, hi, hek, -⟩ := h.getref_spec key
    · exact hget
    · refine absurd hek (hall e ?_)
      exact Chains.Mem.mem_flatten_of_getElem? hi (List.mem_append_right _ List.mem_cons_self)
  cases hnew : m.newAddress malloc with
  | none =>
    have hno : ¬m.Allocates malloc realloc := by
      rintro ⟨hsome, -⟩
      rw [hnew] at hsome
      cases hsome
    simp only [if_neg hno]
    refine ⟨m, t, ?_, h, rfl⟩
    rw [MapBase.set, hget]
    simp only [Option.bind_eq_bind, Option.bind_some, hnew]
  | some a =>
    by_cases hok : m.HasRoom realloc
    · have hyes : m.Allocates malloc realloc := ⟨by rw [hnew]; rfl, hok⟩
      have hnotin : key ∉ keysOf t.flatten := fun hmem => by
        obtain ⟨e, he, hek⟩ := List.mem_map.mp hmem
        exact hall e he hek
      simp only [if_pos hyes]
      exact h.set_added hget hnotin hnew value hok
    · have hno : ¬m.Allocates malloc realloc := fun hyes => hok hyes.2
      simp only [if_neg hno]
      exact h.set_refused hget hnew value hok

/-- `edgex_map_set_`, for a key that is there and for one that is not. -/
theorem set_spec (h : MapInv m t) (key : String) (value : V) (malloc : Option ℕ)
    (realloc : Bool) :
    ∃ m' t', m.set key value malloc realloc = some (m',
        if (entryOf t.flatten key).isSome ∨ m.Allocates malloc realloc then 0 else -1) ∧
      MapInv m' t' ∧
      entryOf t'.flatten =
        if (entryOf t.flatten key).isSome ∨ m.Allocates malloc realloc then
          Function.update (entryOf t.flatten) key (some value) else entryOf t.flatten := by
  by_cases hkey : (entryOf t.flatten key).isSome
  · simp only [hkey, true_or, if_true]
    exact h.set_found hkey value malloc realloc
  · have hiff : (entryOf t.flatten key).isSome = true ∨ m.Allocates malloc realloc ↔
        m.Allocates malloc realloc := or_iff_right hkey
    simp only [hiff]
    exact h.set_new (Option.not_isSome_iff_eq_none.mp hkey) value malloc realloc

/-- `edgex_map_remove_` takes the node of the key out of its chain, if there is one. -/
theorem remove_spec (h : MapInv m t) (key : String) :
    (m.remove key = some m ∧ entryOf t.flatten key = none) ∨
      ∃ i x e y m', t[i]? = some (x ++ e :: y) ∧ e.2.key = key ∧ m.remove key = some m' ∧
        MapInv m' (t.set i (x ++ y)) := by
  rw [MapBase.remove]
  obtain ⟨hget, hall⟩ | ⟨i, x, e, y, q, hi, hkey, hget, hplace, hq⟩ := h.getref_spec key
  · rw [hget]
    exact Or.inl ⟨rfl, entryOf_eq_none_iff.mpr hall⟩
  obtain ⟨hperm, -⟩ := Chains.Mem.flatten_perm_cons hi
  have hold := h.nodes.perm hperm
  have hgone : e.1 ∉ addrs (t.set i (x ++ y)).flatten :=
    (Chains.nodup_addrs_cons.mp ((Chains.nodup_addrs_perm hperm).mp h.table.nodup)).1
  have htable := (h.table.unlink hi hq).write hgone none
  let m' : MapBase V :=
    { m with
      mem := (m.mem.assign ((Place.root i).after x) q).write e.1 none
      nnodes := m.nnodes - 1 }
  have hroots : (m.mem.assign ((Place.root i).after x) q).roots.length = m.mem.roots.length := by
    rw [← (h.table.unlink hi hq).length, List.length_set, h.table.length]
  refine Or.inr ⟨i, x, e, y, m', hi, hkey, ?_, ⟨htable, hroots.trans h.size, h.pow, ?_⟩, ?_⟩
  · rw [hget]
    simp [MapBase.nodeAt, hplace, hq, m']
  · refine h.placed_set hi fun d hd => ?_
    obtain hd | hd := List.mem_append.mp hd
    · exact h.placed i _ hi d (List.mem_append_left _ hd)
    · exact h.placed i _ hi d (List.mem_append_right _ (List.mem_cons_of_mem _ hd))
  · refine hold.tail rfl rfl fun a ha => ?_
    have hae : a ≠ e.1 := by
      rintro rfl
      exact absurd (Chains.Mem.write_heap_self ..) ha
    refine ⟨hae, ?_⟩
    rw [ne_eq, ← Chains.Mem.heap_assign_eq_none_iff a q, ← Chains.Mem.write_heap_of_ne _ hae none]
    exact ha

/-- Without its node a key has no value. -/
theorem entryOf_unlinked (h : MapInv m t) {i : ℕ} {x y : List (ℕ × MapNode V)}
    {e : ℕ × MapNode V} (hi : t[i]? = some (x ++ e :: y)) :
    entryOf (t.set i (x ++ y)).flatten = Function.update (entryOf t.flatten) e.2.key none := by
  obtain ⟨hperm, -⟩ := Chains.Mem.flatten_perm_cons hi
  have hdistinct := (h.nodes.perm hperm).distinct
  funext k
  by_cases hk : k = e.2.key
  · rw [hk, Function.update_self, entryOf_eq_none_iff]
    exact fun d hd hdk => (List.nodup_cons.mp hdistinct).1 (List.mem_map.mpr ⟨d, hd, hdk⟩)
  · rw [Function.update_of_ne hk, entryOf_perm_cons h.nodes.distinct hperm,
      if_neg (Ne.symm hk)]

/-- `edgex_map_remove_` leaves the key without a value, and every other with its own. -/
theorem remove_entries (h : MapInv m t) (key : String) :
    ∃ m' t', m.remove key = some m' ∧ MapInv m' t' ∧
      entryOf t'.flatten = Function.update (entryOf t.flatten) key none := by
  obtain ⟨hrun, hnone⟩ | ⟨i, x, e, y, m', hi, rfl, hrun, hinv⟩ := h.remove_spec key
  · exact ⟨m, t, hrun, h, by rw [← hnone, Function.update_eq_self]⟩
  · exact ⟨m', _, hrun, hinv, h.entryOf_unlinked hi⟩

/-- `edgex_map_deinit_` frees each node once, and leaves none. -/
theorem deinit_spec (h : MapInv m t) : ∃ heap, m.deinit = some heap ∧ ∀ a, heap a = none := by
  obtain ⟨heap, hrun, hfreed⟩ := h.table.freeAll h.nodes.count.ge
  rw [h.length_eq] at hrun
  refine ⟨heap, hrun, fun a => ?_⟩
  rw [hfreed]
  by_cases hused : m.mem.heap a = none
  · rw [hused, ite_self]
  · rw [if_pos (h.nodes.owned a hused)]

end MapInv

end DeviceSdk
