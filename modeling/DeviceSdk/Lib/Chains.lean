import Mathlib

/-!
# Chains of cells

Memory has an array of roots and a heap of cells. A cell holds data and a pointer to the next one,
and a root points to the first cell of a chain. A program gets to a cell by the place that holds
the pointer to it, a root or the next field of another cell, so that it can take the cell out of its
chain there.

## Main definitions

- `Chains.Mem`, `Chains.Place` — the memory and its places
- `Chains.Linked`, `Chains.Mem.Leads` — a pointer, or a place, leads to a chain
- `Chains.Mem.Table` — the chains of all roots
- `Chains.Mem.find` — the place of a cell with some data
- `Chains.reverseOnto`, `Chains.Mem.gather` — all cells on one chain
- `Chains.Mem.free`, `Chains.Mem.freeAll` — no cells

## Main results

- `Chains.Mem.find_spec`
- `Chains.Mem.Table.push`, `Chains.Mem.Table.unlink`, `Chains.Mem.Table.setData`
- `Chains.Mem.gather_spec`, `Chains.Mem.freeAll_spec`
-/

namespace Chains

variable {α : Type*}

/-- A cell of a chain. -/
structure Cell (α : Type*) where
  data : α
  next : Option ℕ

/-- The cells in use, by their addresses. -/
abbrev Heap (α : Type*) := ℕ → Option (Cell α)

/-- A pointer leads through these cells to the end of a chain. -/
def Linked (heap : Heap α) : Option ℕ → List (ℕ × α) → Prop
  | p, [] => p = none
  | p, e :: l => p = some e.1 ∧ ∃ q, heap e.1 = some ⟨e.2, q⟩ ∧ Linked heap q l

/-- The addresses of a chain. -/
abbrev addrs (l : List (ℕ × α)) : List ℕ := l.map Prod.fst

theorem addrs_cons (e : ℕ × α) (l : List (ℕ × α)) : addrs (e :: l) = e.1 :: addrs l := rfl

theorem mem_addrs_append {l l' : List (ℕ × α)} {a : ℕ} :
    a ∈ addrs (l ++ l') ↔ a ∈ addrs l ∨ a ∈ addrs l' := by
  rw [addrs, List.map_append, List.mem_append]

theorem nodup_addrs_cons {e : ℕ × α} {l : List (ℕ × α)} :
    (addrs (e :: l)).Nodup ↔ e.1 ∉ addrs l ∧ (addrs l).Nodup := List.nodup_cons

theorem nodup_addrs_append {l l' : List (ℕ × α)} :
    (addrs (l ++ l')).Nodup ↔
      (addrs l).Nodup ∧ (addrs l').Nodup ∧ (addrs l).Disjoint (addrs l') := by
  rw [addrs, List.map_append, List.nodup_append']

theorem nodup_addrs_perm {l l' : List (ℕ × α)} (h : l.Perm l') :
    (addrs l).Nodup ↔ (addrs l').Nodup := (h.map Prod.fst).nodup_iff

theorem mem_addrs_perm {l l' : List (ℕ × α)} (h : l.Perm l') {a : ℕ} :
    a ∈ addrs l ↔ a ∈ addrs l' := (h.map Prod.fst).mem_iff

section Linked

variable {heap heap' : Heap α} {p q : Option ℕ} {l : List (ℕ × α)} {e : ℕ × α}

@[simp] theorem linked_nil : Linked heap p [] ↔ p = none := Iff.rfl

/-- A chain depends on its own cells only. -/
theorem Linked.frame (h : Linked heap p l) (hf : ∀ a ∈ addrs l, heap' a = heap a) :
    Linked heap' p l := by
  induction l generalizing p with
  | nil => exact h
  | cons e l ih =>
    obtain ⟨hp, q, he, hl⟩ := h
    refine ⟨hp, q, ?_, ih hl fun a ha => hf a (List.mem_cons_of_mem _ ha)⟩
    rw [hf e.1 List.mem_cons_self, he]

theorem Linked.update (h : Linked heap p l) {a : ℕ} (ha : a ∉ addrs l) (c : Option (Cell α)) :
    Linked (Function.update heap a c) p l := by
  refine h.frame fun b hb => Function.update_of_ne ?_ _ _
  rintro rfl
  exact ha hb

/-- A cell that points to a chain leads to one that is longer. -/
theorem Linked.push (h : Linked heap p l) (he : e.1 ∉ addrs l) :
    Linked (Function.update heap e.1 (some ⟨e.2, p⟩)) (some e.1) (e :: l) :=
  ⟨rfl, p, Function.update_self .., h.update he _⟩

theorem Linked.allocated (h : Linked heap p l) (he : e ∈ l) : ∃ q, heap e.1 = some ⟨e.2, q⟩ := by
  induction l generalizing p with
  | nil => cases he
  | cons d l ih =>
    obtain ⟨-, q, hd, hl⟩ := h
    cases List.mem_cons.mp he with
    | inl heq => exact ⟨q, heq ▸ hd⟩
    | inr hmem => exact ih hl hmem

theorem Linked.setData {x y : List (ℕ × α)} (h : Linked heap p (x ++ e :: y))
    (hq : heap e.1 = some ⟨e.2, q⟩) (hnodup : (addrs (x ++ e :: y)).Nodup) (d : α) :
    Linked (Function.update heap e.1 (some ⟨d, q⟩)) p (x ++ (e.1, d) :: y) := by
  induction x generalizing p with
  | nil =>
    obtain ⟨hp, q', he, hy⟩ := h
    obtain rfl : q = q' := congrArg Cell.next (Option.some.inj (hq.symm.trans he))
    exact ⟨hp, q, Function.update_self .., hy.update (nodup_addrs_cons.mp hnodup).1 _⟩
  | cons c x ih =>
    obtain ⟨hp, q', hc, hl⟩ := h
    obtain ⟨hcx, hrest⟩ := nodup_addrs_cons.mp hnodup
    refine ⟨hp, q', ?_, ih hl hrest⟩
    have hne : c.1 ≠ e.1 := fun he =>
      hcx (he ▸ mem_addrs_append.mpr (Or.inr List.mem_cons_self))
    rw [Function.update_of_ne hne, hc]

end Linked

-- ════════════════════════════════════════════════════════════════════════
-- Turning a chain around
-- ════════════════════════════════════════════════════════════════════════

/-- Move the cells of a chain, one after the other, to the front of another. It is undefined at a
    pointer to no cell, or when the fuel does not last. -/
def reverseOnto : ℕ → Heap α → Option ℕ → Option ℕ → Option (Heap α × Option ℕ)
  | _, heap, none, nodes => some (heap, nodes)
  | 0, _, some _, _ => none
  | fuel + 1, heap, some a, nodes => do
    let node ← heap a
    reverseOnto fuel (Function.update heap a (some { node with next := nodes })) node.next (some a)

theorem reverseOnto_spec {fuel : ℕ} {heap : Heap α} {p nodes : Option ℕ} {l acc : List (ℕ × α)}
    (hl : Linked heap p l) (hacc : Linked heap nodes acc)
    (hnodup : (addrs (l ++ acc)).Nodup) (hfuel : l.length ≤ fuel) :
    ∃ heap' nodes', reverseOnto fuel heap p nodes = some (heap', nodes') ∧
      Linked heap' nodes' (l.reverse ++ acc) ∧ ∀ a ∉ addrs l, heap' a = heap a := by
  induction l generalizing fuel heap p nodes acc with
  | nil =>
    obtain rfl := hl
    refine ⟨heap, nodes, ?_, hacc, fun a _ => rfl⟩
    cases fuel <;> rfl
  | cons e l ih =>
    obtain ⟨rfl, q, he, hl⟩ := hl
    cases fuel with
    | zero => simp at hfuel
    | succ fuel =>
      have hmoved : (addrs (l ++ e :: acc)).Nodup :=
        (nodup_addrs_perm List.perm_middle).mpr hnodup
      obtain ⟨-, htail, hapart⟩ := nodup_addrs_append.mp hmoved
      have hel : e.1 ∉ addrs l := fun hmem => hapart hmem List.mem_cons_self
      have heacc : e.1 ∉ addrs acc := (nodup_addrs_cons.mp htail).1
      obtain ⟨heap', nodes', hrun, hchain, hframe⟩ :=
        ih (hl.update hel _) (hacc.push heacc) hmoved (by simpa using hfuel)
      refine ⟨heap', nodes', ?_, by simpa using hchain, fun a ha => ?_⟩
      · rw [reverseOnto, he]
        exact hrun
      · rw [addrs_cons, List.mem_cons, not_or] at ha
        rw [hframe a ha.2, Function.update_of_ne ha.1]

-- ════════════════════════════════════════════════════════════════════════
-- Places
-- ════════════════════════════════════════════════════════════════════════

/-- The roots and the cells. -/
structure Mem (α : Type*) where
  roots : List (Option ℕ)
  heap : Heap α

/-- A variable in memory that holds a pointer. -/
inductive Place
  | root (i : ℕ)
  | next (a : ℕ)
  deriving DecidableEq

/-- The place that one gets to behind these cells. -/
def Place.after (pl : Place) : List (ℕ × α) → Place
  | [] => pl
  | e :: l => (Place.next e.1).after l

namespace Mem

/-- The pointer in a place. -/
def deref (m : Mem α) : Place → Option (Option ℕ)
  | .root i => m.roots[i]?
  | .next a => (m.heap a).map Cell.next

/-- Write a cell, or free it. -/
def write (m : Mem α) (a : ℕ) (c : Option (Cell α)) : Mem α :=
  { m with heap := Function.update m.heap a c }

@[simp] theorem write_roots (m : Mem α) (a : ℕ) (c : Option (Cell α)) :
    (m.write a c).roots = m.roots := rfl

@[simp] theorem write_heap_self (m : Mem α) (a : ℕ) (c : Option (Cell α)) :
    (m.write a c).heap a = c := Function.update_self ..

theorem write_heap_of_ne (m : Mem α) {a b : ℕ} (h : b ≠ a) (c : Option (Cell α)) :
    (m.write a c).heap b = m.heap b := Function.update_of_ne h _ _

/-- Write a pointer to a place. -/
def assign (m : Mem α) (pl : Place) (p : Option ℕ) : Mem α :=
  match pl with
  | .root i => { m with roots := m.roots.set i p }
  | .next a => m.write a ((m.heap a).map fun c => { c with next := p })

/-- Go along a chain to the place of the first cell whose data pass a test. -/
def find (m : Mem α) (test : α → Bool) : ℕ → Place → Option (Option Place)
  | 0, _ => none
  | fuel + 1, pl =>
    match m.deref pl with
    | none => none
    | some none => some none
    | some (some a) =>
      match m.heap a with
      | none => none
      | some node => if test node.data then some (some pl) else find m test fuel (.next a)

/-- A place leads to a chain. -/
def Leads (m : Mem α) (pl : Place) (l : List (ℕ × α)) : Prop :=
  ∃ p, m.deref pl = some p ∧ Linked m.heap p l

section Leads

variable {m m' : Mem α} {pl : Place} {l x y : List (ℕ × α)} {e : ℕ × α}

theorem leads_cons :
    m.Leads pl (e :: l) ↔ m.deref pl = some (some e.1) ∧
      ∃ q, m.heap e.1 = some ⟨e.2, q⟩ ∧ Linked m.heap q l := by
  constructor
  · rintro ⟨p, hp, rfl, hcell⟩
    exact ⟨hp, hcell⟩
  · rintro ⟨hp, hcell⟩
    exact ⟨_, hp, rfl, hcell⟩

theorem Leads.tail (h : m.Leads pl (e :: l)) : m.Leads (.next e.1) l := by
  obtain ⟨-, q, he, hl⟩ := leads_cons.mp h
  exact ⟨q, by rw [deref, he]; rfl, hl⟩

theorem Leads.after (h : m.Leads pl (x ++ y)) : m.Leads (pl.after x) y := by
  induction x generalizing pl with
  | nil => exact h
  | cons e x ih => exact ih h.tail

theorem Leads.frame (h : m.Leads pl l) (hpl : m'.deref pl = m.deref pl)
    (hf : ∀ a ∈ addrs l, m'.heap a = m.heap a) : m'.Leads pl l := by
  obtain ⟨p, hp, hl⟩ := h
  exact ⟨p, hpl.trans hp, hl.frame hf⟩

/-- The walk ends at the place of the first cell that passes, or at the end of the chain. -/
theorem find_spec {test : α → Bool} {fuel : ℕ} (h : m.Leads pl l) (hfuel : l.length < fuel) :
    (m.find test fuel pl = some none ∧ ∀ e ∈ l, test e.2 = false) ∨
      ∃ x e y, l = x ++ e :: y ∧ test e.2 = true ∧
        m.find test fuel pl = some (some (pl.after x)) := by
  induction l generalizing fuel pl with
  | nil =>
    obtain ⟨p, hp, rfl⟩ := h
    cases fuel with
    | zero => omega
    | succ fuel => exact Or.inl ⟨by rw [find, hp], by simp⟩
  | cons e l ih =>
    obtain ⟨hp, q, he, -⟩ := leads_cons.mp h
    cases fuel with
    | zero => omega
    | succ fuel =>
      have hstep : m.find test (fuel + 1) pl =
          if test e.2 then some (some pl) else m.find test fuel (.next e.1) := by
        simp only [find, hp, he]
      rw [hstep]
      cases htest : test e.2 with
      | true => exact Or.inr ⟨[], e, l, rfl, htest, rfl⟩
      | false =>
        obtain ⟨hfind, hall⟩ | ⟨x, d, y, rfl, hd, hfind⟩ :=
          ih h.tail (by simpa using hfuel)
        · exact Or.inl ⟨hfind, List.forall_mem_cons.mpr ⟨htest, hall⟩⟩
        · exact Or.inr ⟨e :: x, d, y, rfl, hd, hfind⟩

theorem heap_assign_of_ne {a : ℕ} {p : Option ℕ} (h : pl ≠ .next a) :
    (m.assign pl p).heap a = m.heap a := by
  cases pl with
  | root i => rfl
  | next b =>
    refine write_heap_of_ne m ?_ _
    rintro rfl
    exact h rfl

theorem data_assign (a : ℕ) (p : Option ℕ) :
    ((m.assign pl p).heap a).map Cell.data = (m.heap a).map Cell.data := by
  by_cases h : pl = .next a
  · rw [h, assign, write_heap_self]
    cases m.heap a <;> rfl
  · rw [heap_assign_of_ne h]

/-- Writing a pointer neither makes nor frees a cell. -/
theorem heap_assign_eq_none_iff (a : ℕ) (p : Option ℕ) :
    (m.assign pl p).heap a = none ↔ m.heap a = none := by
  have hdata := @data_assign _ m pl a p
  constructor <;> intro h
  · rw [h] at hdata
    exact Option.map_eq_none_iff.mp hdata.symm
  · rw [h] at hdata
    exact Option.map_eq_none_iff.mp hdata

theorem deref_assign_self {p q : Option ℕ} (h : m.deref pl = some q) :
    (m.assign pl p).deref pl = some p := by
  cases pl with
  | root i =>
    obtain ⟨hi, -⟩ := List.getElem?_eq_some_iff.mp h
    show (m.roots.set i p)[i]? = some p
    rw [List.getElem?_set_self hi]
  | next a =>
    obtain ⟨c, hc, -⟩ := Option.map_eq_some_iff.mp h
    rw [assign, deref, write_heap_self, hc]
    rfl

theorem deref_assign_of_ne {pl' : Place} {p : Option ℕ} (h : pl' ≠ pl) :
    (m.assign pl' p).deref pl = m.deref pl := by
  cases pl with
  | root i =>
    cases pl' with
    | root j =>
      have hne : j ≠ i := fun he => h (he ▸ rfl)
      exact List.getElem?_set_ne hne
    | next b => rfl
  | next a => rw [deref, deref, heap_assign_of_ne h]

theorem after_cases (pl : Place) (x : List (ℕ × α)) :
    (x = [] ∧ pl.after x = pl) ∨ ∃ c ∈ addrs x, pl.after x = .next c := by
  induction x generalizing pl with
  | nil => exact Or.inl ⟨rfl, rfl⟩
  | cons e x ih =>
    right
    obtain ⟨rfl, h⟩ | ⟨c, hc, h⟩ := ih (.next e.1)
    · exact ⟨e.1, List.mem_cons_self, h⟩
    · exact ⟨c, List.mem_cons_of_mem _ hc, h⟩

/-- A cell is taken out by writing the pointer behind it to the place that leads to it. -/
theorem Leads.unlink (h : m.Leads pl (x ++ e :: y)) {q : Option ℕ}
    (hq : m.heap e.1 = some ⟨e.2, q⟩) (hnodup : (addrs (x ++ e :: y)).Nodup)
    (hpl : ∀ a ∈ addrs (x ++ e :: y), pl ≠ .next a) :
    (m.assign (pl.after x) q).Leads pl (x ++ y) := by
  induction x generalizing pl with
  | nil =>
    obtain ⟨hp, q', he, hy⟩ := leads_cons.mp h
    obtain rfl : q = q' := congrArg Cell.next (Option.some.inj (hq.symm.trans he))
    refine ⟨q, deref_assign_self hp, hy.frame fun a ha => heap_assign_of_ne ?_⟩
    exact hpl a (List.mem_cons_of_mem _ ha)
  | cons d x ih =>
    obtain ⟨hd, hrest⟩ := nodup_addrs_cons.mp hnodup
    have hplace : (Place.next d.1).after x ≠ pl := by
      intro heq
      obtain ⟨rfl, hc⟩ | ⟨c, hc, hcx⟩ := after_cases (Place.next d.1) x
      · exact hpl d.1 List.mem_cons_self (heq.symm.trans hc)
      · refine hpl c (List.mem_cons_of_mem _ ?_) (heq.symm.trans hcx)
        exact mem_addrs_append.mpr (Or.inl hc)
    obtain ⟨hp, q', hdcell, -⟩ := leads_cons.mp h
    obtain ⟨p, hnext, hl⟩ := ih h.tail hrest fun a ha he => by
      obtain rfl : d.1 = a := by simpa using he
      exact hd ha
    refine leads_cons.mpr ⟨(deref_assign_of_ne hplace).trans hp, ?_⟩
    obtain ⟨c, hc, rfl⟩ := Option.map_eq_some_iff.mp hnext
    have hdata : c.data = d.2 := by
      have hkept := @data_assign _ m ((Place.next d.1).after x) d.1 q
      rw [hc, hdcell] at hkept
      exact Option.some.inj hkept
    exact ⟨c.next, by rw [Place.after, hc, ← hdata], hl⟩

end Leads

-- ════════════════════════════════════════════════════════════════════════
-- The chains of all roots
-- ════════════════════════════════════════════════════════════════════════

/-- Each root leads to its chain, and no two cells in the chains are the same. -/
structure Table (m : Mem α) (t : List (List (ℕ × α))) : Prop where
  length : t.length = m.roots.length
  leads : ∀ i l, t[i]? = some l → m.Leads (.root i) l
  nodup : (addrs t.flatten).Nodup

/-- A list in a list of lists, and what is around it when another takes its place. -/
theorem flatten_set {β : Type*} {t : List (List β)} {i : ℕ} {l : List β} (h : t[i]? = some l) :
    ∃ front back, t.flatten = front ++ (l ++ back) ∧
      ∀ l', (t.set i l').flatten = front ++ (l' ++ back) := by
  obtain ⟨hi, rfl⟩ := List.getElem?_eq_some_iff.mp h
  refine ⟨(t.take i).flatten, (t.drop (i + 1)).flatten, ?_, fun l' => ?_⟩
  · conv_lhs => rw [← List.take_append_drop i t, List.drop_eq_getElem_cons hi]
    rw [List.flatten_append, List.flatten_cons]
  · rw [List.set_eq_take_append_cons_drop, if_pos hi, List.flatten_append, List.flatten_cons]

/-- One thing in a list of lists, and another in its place. -/
theorem flatten_perm_cons {β : Type*} {t : List (List β)} {i : ℕ} {x y : List β} {b : β}
    (h : t[i]? = some (x ++ b :: y)) :
    t.flatten.Perm (b :: (t.set i (x ++ y)).flatten) ∧
      ∀ b', (t.set i (x ++ b' :: y)).flatten.Perm (b' :: (t.set i (x ++ y)).flatten) := by
  obtain ⟨front, back, hflat, hset⟩ := flatten_set h
  have hmid (c : β) : (front ++ x ++ c :: (y ++ back)).Perm (c :: (front ++ x ++ (y ++ back))) :=
    List.perm_middle
  rw [hflat, hset]
  refine ⟨by simpa using hmid b, fun c => ?_⟩
  rw [hset]
  simpa using hmid c

theorem mem_flatten_of_getElem? {β : Type*} {t : List (List β)} {i : ℕ} {l : List β} {b : β}
    (h : t[i]? = some l) (hb : b ∈ l) : b ∈ t.flatten :=
  List.mem_flatten.mpr ⟨l, List.mem_of_getElem? h, hb⟩

namespace Table

variable {m : Mem α} {t : List (List (ℕ × α))} {i j : ℕ} {l l' x y : List (ℕ × α)} {e : ℕ × α}

/-- Different roots lead to different cells. -/
theorem apart (h : (addrs t.flatten).Nodup) (hi : t[i]? = some l) (hj : t[j]? = some l')
    (hne : i ≠ j) : (addrs l).Disjoint (addrs l') := by
  obtain ⟨hilt, rfl⟩ := List.getElem?_eq_some_iff.mp hi
  obtain ⟨hjlt, rfl⟩ := List.getElem?_eq_some_iff.mp hj
  rw [addrs, List.map_flatten, List.nodup_flatten] at h
  have hpair := List.pairwise_iff_getElem.mp (List.pairwise_map.mp h.2)
  obtain hlt | hgt := Nat.lt_or_gt_of_ne hne
  · exact hpair i j hilt hjlt hlt
  · exact (hpair j i hjlt hilt hgt).symm

theorem nodup_addrs (h : m.Table t) (hi : t[i]? = some l) : (addrs l).Nodup := by
  obtain ⟨front, back, hflat, -⟩ := flatten_set hi
  have hn := h.nodup
  rw [hflat] at hn
  exact (nodup_addrs_append.mp (nodup_addrs_append.mp hn).2.1).1

theorem mem_addrs (hi : t[i]? = some l) {a : ℕ} (ha : a ∈ addrs l) : a ∈ addrs t.flatten :=
  List.map_subset _ (fun _ hd => mem_flatten_of_getElem? hi hd) ha

theorem allocated (h : m.Table t) (he : e ∈ t.flatten) : ∃ q, m.heap e.1 = some ⟨e.2, q⟩ := by
  obtain ⟨l, hl, hel⟩ := List.mem_flatten.mp he
  obtain ⟨i, hi⟩ := List.getElem?_of_mem hl
  obtain ⟨p, -, hlinked⟩ := h.leads i l hi
  exact hlinked.allocated hel

/-- An address that is not in use belongs to no chain. -/
theorem notMem_of_heap_eq_none (h : m.Table t) {a : ℕ} (ha : m.heap a = none) :
    a ∉ addrs t.flatten := by
  intro hmem
  obtain ⟨e, he, rfl⟩ := List.mem_map.mp hmem
  obtain ⟨q, hq⟩ := h.allocated he
  rw [ha] at hq
  cases hq

/-- Writing a cell that is in no chain. -/
theorem write (h : m.Table t) {a : ℕ} (ha : a ∉ addrs t.flatten) (c : Option (Cell α)) :
    (m.write a c).Table t where
  length := h.length
  leads i l hi := by
    refine (h.leads i l hi).frame rfl fun b hb => write_heap_of_ne m ?_ c
    rintro rfl
    exact ha (mem_addrs hi hb)
  nodup := h.nodup

/-- What is done to one chain leaves the others as they are. -/
theorem replace (h : m.Table t) (hi : t[i]? = some l) {m' : Mem α}
    (hlen : m'.roots.length = m.roots.length) (hl' : m'.Leads (.root i) l')
    (hroots : ∀ j, j ≠ i → m'.roots[j]? = m.roots[j]?)
    (hheap : ∀ a ∈ addrs t.flatten, a ∉ addrs l → m'.heap a = m.heap a)
    (hnodup : (addrs (t.set i l').flatten).Nodup) : m'.Table (t.set i l') where
  length := by rw [List.length_set, h.length, hlen]
  leads j k hj := by
    by_cases he : j = i
    · obtain ⟨hlt, -⟩ := List.getElem?_eq_some_iff.mp hi
      rw [he, List.getElem?_set_self hlt] at hj
      rw [he, ← Option.some.inj hj]
      exact hl'
    · rw [List.getElem?_set_ne (Ne.symm he)] at hj
      refine (h.leads j k hj).frame (hroots j he) fun a ha => hheap a (mem_addrs hj ha) ?_
      exact apart h.nodup hj hi he ha
  nodup := hnodup

/-- A cell that comes to the front of a chain. -/
theorem push (h : m.Table t) (hi : t[i]? = some l) {a : ℕ} {d : α} {p : Option ℕ}
    (hp : m.roots[i]? = some p) (ha : a ∉ addrs t.flatten) :
    ((m.write a (some ⟨d, p⟩)).assign (.root i) (some a)).Table (t.set i ((a, d) :: l)) := by
  refine h.replace hi (List.length_set ..) ?_ (fun j hj => List.getElem?_set_ne (Ne.symm hj)) ?_ ?_
  · obtain ⟨p', hp', hl⟩ := h.leads i l hi
    obtain rfl : p = p' := Option.some.inj (hp.symm.trans hp')
    have hal : a ∉ addrs l := fun hmem => ha (mem_addrs hi hmem)
    exact ⟨some a, deref_assign_self hp', hl.push (e := (a, d)) hal⟩
  · intro b hb _
    refine write_heap_of_ne m ?_ _
    rintro rfl
    exact ha hb
  · obtain ⟨front, back, hflat, hset⟩ := flatten_set hi
    rw [hset, List.cons_append, nodup_addrs_perm List.perm_middle, ← hflat, addrs_cons,
      List.nodup_cons]
    exact ⟨ha, h.nodup⟩

/-- A cell that is taken out of its chain. -/
theorem unlink (h : m.Table t) (hi : t[i]? = some (x ++ e :: y)) {q : Option ℕ}
    (hq : m.heap e.1 = some ⟨e.2, q⟩) :
    (m.assign ((Place.root i).after x) q).Table (t.set i (x ++ y)) := by
  have hleads := (h.leads i _ hi).unlink hq (h.nodup_addrs hi) fun a _ he => by cases he
  have hheap (a : ℕ) (ha : a ∉ addrs (x ++ e :: y)) :
      (m.assign ((Place.root i).after x) q).heap a = m.heap a := by
    refine heap_assign_of_ne fun hpl => ?_
    obtain ⟨rfl, hroot⟩ | ⟨c, hc, hnext⟩ := after_cases (Place.root i) x
    · cases hroot.symm.trans hpl
    · obtain rfl : c = a := by simpa using hnext.symm.trans hpl
      exact ha (mem_addrs_append.mpr (Or.inl hc))
  have hroots (j : ℕ) (hj : j ≠ i) :
      (m.assign ((Place.root i).after x) q).deref (.root j) = m.deref (.root j) := by
    refine deref_assign_of_ne fun hpl => ?_
    obtain ⟨-, hroot⟩ | ⟨c, -, hnext⟩ := after_cases (Place.root i) x
    · exact hj (by simpa using (hroot.symm.trans hpl).symm)
    · cases hnext.symm.trans hpl
  refine h.replace hi ?_ hleads hroots (fun a _ ha => hheap a ha) ?_
  · cases (Place.root i).after x with
    | root j => exact List.length_set ..
    | next a => rfl
  · exact (nodup_addrs_cons.mp ((nodup_addrs_perm (flatten_perm_cons hi).1).mp h.nodup)).2

/-- A cell whose data are written. -/
theorem setData (h : m.Table t) (hi : t[i]? = some (x ++ e :: y)) {q : Option ℕ}
    (hq : m.heap e.1 = some ⟨e.2, q⟩) (d : α) :
    (m.write e.1 (some ⟨d, q⟩)).Table (t.set i (x ++ (e.1, d) :: y)) := by
  refine h.replace hi rfl ?_ (fun j hj => rfl) ?_ ?_
  · obtain ⟨p, hp, hl⟩ := h.leads i _ hi
    exact ⟨p, hp, hl.setData hq (h.nodup_addrs hi) d⟩
  · intro a _ ha
    refine write_heap_of_ne m ?_ _
    rintro rfl
    exact ha (mem_addrs_append.mpr (Or.inr List.mem_cons_self))
  · obtain ⟨front, back, hflat, hset⟩ := flatten_set hi
    have haddrs : addrs (t.set i (x ++ (e.1, d) :: y)).flatten = addrs t.flatten := by
      rw [hset, hflat]
      simp
    rw [haddrs]
    exact h.nodup

end Table

-- ════════════════════════════════════════════════════════════════════════
-- All cells on one chain
-- ════════════════════════════════════════════════════════════════════════

/-- Move the cells of the first `i` chains, from the last chain to the first, to the front of
    another. -/
def gather (m : Mem α) (fuel : ℕ) : ℕ → Heap α → Option ℕ → Option (Heap α × Option ℕ)
  | 0, heap, nodes => some (heap, nodes)
  | i + 1, heap, nodes =>
    match m.roots[i]? with
    | none => none
    | some node =>
      match reverseOnto fuel heap node nodes with
      | none => none
      | some (heap, nodes) => gather m fuel i heap nodes

/-- Chains are not touched by what happens to other cells. -/
theorem chains_frame {m : Mem α} {t : List (List (ℕ × α))} {i : ℕ} {heap heap' : Heap α}
    (hchains : ∀ j < i + 1, ∀ l, t[j]? = some l → ∃ p, m.roots[j]? = some p ∧ Linked heap p l)
    (hframe : ∀ a ∈ addrs (t.take i).flatten, heap' a = heap a) :
    ∀ j < i, ∀ l, t[j]? = some l → ∃ p, m.roots[j]? = some p ∧ Linked heap' p l := by
  intro j hj l hl
  obtain ⟨q, hq, hlq⟩ := hchains j (by omega) l hl
  refine ⟨q, hq, hlq.frame fun a ha => hframe a ?_⟩
  refine List.map_subset _ (fun d hd => ?_) ha
  refine mem_flatten_of_getElem? (i := j) ?_ hd
  rw [List.getElem?_take_of_lt hj, hl]

theorem take_succ_flatten {β : Type*} {t : List (List β)} {i : ℕ} (hi : i < t.length) :
    (t.take (i + 1)).flatten = (t.take i).flatten ++ t[i] := by
  rw [List.take_succ_eq_append_getElem hi, List.flatten_append, List.flatten_singleton]

theorem gather_spec {m : Mem α} {t : List (List (ℕ × α))} {fuel i : ℕ} {heap : Heap α}
    {nodes : Option ℕ} {acc : List (ℕ × α)} (hi : i ≤ t.length)
    (hchains : ∀ j < i, ∀ l, t[j]? = some l → ∃ p, m.roots[j]? = some p ∧ Linked heap p l)
    (hacc : Linked heap nodes acc) (hnodup : (addrs ((t.take i).flatten ++ acc)).Nodup)
    (hfuel : ∀ l ∈ t, l.length ≤ fuel) :
    ∃ heap' nodes' l', m.gather fuel i heap nodes = some (heap', nodes') ∧
      Linked heap' nodes' l' ∧ l'.Perm ((t.take i).flatten ++ acc) ∧
        ∀ a ∉ addrs (t.take i).flatten, heap' a = heap a := by
  induction i generalizing heap nodes acc with
  | zero => exact ⟨heap, nodes, acc, rfl, hacc, by simp, fun _ _ => rfl⟩
  | succ i ih =>
    rw [take_succ_flatten hi, List.append_assoc] at hnodup ⊢
    obtain ⟨hbefore, hhere, hapart⟩ := nodup_addrs_append.mp hnodup
    have hget : t[i]? = some t[i] := List.getElem?_eq_getElem hi
    obtain ⟨p, hp, hl⟩ := hchains i (Nat.lt_succ_self i) _ hget
    obtain ⟨heap₁, nodes₁, hrun, hmoved, hframe⟩ :=
      reverseOnto_spec hl hacc hhere (hfuel _ (List.mem_of_getElem? hget))
    have hperm : (t[i].reverse ++ acc).Perm (t[i] ++ acc) :=
      (List.reverse_perm _).append_right acc
    have hchains₁ := chains_frame hchains fun a ha => hframe a fun ha' =>
      hapart ha (mem_addrs_append.mpr (Or.inl ha'))
    obtain ⟨heap', nodes', l', hgather, hlinked, hl', hframe'⟩ := ih (by omega) hchains₁ hmoved
      ((nodup_addrs_perm (hperm.append_left _)).mpr hnodup)
    refine ⟨heap', nodes', l', ?_, hlinked, hl'.trans (hperm.append_left _), fun a ha => ?_⟩
    · rw [gather, hp]
      simp only [hrun]
      exact hgather
    · rw [mem_addrs_append, not_or] at ha
      rw [hframe' a ha.1, hframe a ha.2]

/-- All cells are moved to one chain, and no others are touched. -/
theorem Table.gather {m : Mem α} {t : List (List (ℕ × α))} (h : m.Table t) {fuel : ℕ}
    (hfuel : t.flatten.length ≤ fuel) :
    ∃ heap nodes l, m.gather fuel t.length m.heap none = some (heap, nodes) ∧
      Linked heap nodes l ∧ l.Perm t.flatten ∧ ∀ a ∉ addrs t.flatten, heap a = m.heap a := by
  have hchains (j : ℕ) (_ : j < t.length) (l : List (ℕ × α)) (hl : t[j]? = some l) :
      ∃ p, m.roots[j]? = some p ∧ Linked m.heap p l := h.leads j l hl
  have hlength (l : List (ℕ × α)) (hl : l ∈ t) : l.length ≤ fuel :=
    (List.sublist_flatten_of_mem hl).length_le.trans hfuel
  have hnodup : (addrs ((t.take t.length).flatten ++ [])).Nodup := by
    rw [List.take_length, List.append_nil]
    exact h.nodup
  have hend : Linked m.heap none [] := rfl
  simpa using gather_spec le_rfl hchains hend hnodup hlength

-- ════════════════════════════════════════════════════════════════════════
-- Freeing all cells
-- ════════════════════════════════════════════════════════════════════════

/-- Free the cells of a chain. It is undefined at a cell that has been freed. -/
def free : ℕ → Heap α → Option ℕ → Option (Heap α)
  | _, heap, none => some heap
  | 0, _, some _ => none
  | fuel + 1, heap, some a => do
    let node ← heap a
    free fuel (Function.update heap a none) node.next

theorem free_spec {fuel : ℕ} {heap : Heap α} {p : Option ℕ} {l : List (ℕ × α)}
    (hl : Linked heap p l) (hnodup : (addrs l).Nodup) (hfuel : l.length ≤ fuel) :
    ∃ heap', free fuel heap p = some heap' ∧
      ∀ a, heap' a = if a ∈ addrs l then none else heap a := by
  induction l generalizing fuel heap p with
  | nil =>
    obtain rfl := hl
    refine ⟨heap, ?_, fun a => rfl⟩
    cases fuel <;> rfl
  | cons e l ih =>
    obtain ⟨rfl, q, he, hl⟩ := hl
    cases fuel with
    | zero => simp at hfuel
    | succ fuel =>
      obtain ⟨hel, hrest⟩ := nodup_addrs_cons.mp hnodup
      obtain ⟨heap', hrun, hfreed⟩ := ih (hl.update hel none) hrest (by simpa using hfuel)
      refine ⟨heap', ?_, fun a => ?_⟩
      · rw [free, he]
        exact hrun
      · rw [hfreed, addrs_cons]
        by_cases hae : a = e.1
        · subst hae
          simp [hel]
        · simp only [List.mem_cons, hae, false_or, Function.update_of_ne hae]

/-- Free the cells of the first `i` chains, from the last chain to the first. -/
def freeAll (m : Mem α) (fuel : ℕ) : ℕ → Heap α → Option (Heap α)
  | 0, heap => some heap
  | i + 1, heap =>
    match m.roots[i]? with
    | none => none
    | some node => (free fuel heap node).bind (freeAll m fuel i)

theorem freeAll_spec {m : Mem α} {t : List (List (ℕ × α))} {fuel i : ℕ} {heap : Heap α}
    (hi : i ≤ t.length)
    (hchains : ∀ j < i, ∀ l, t[j]? = some l → ∃ p, m.roots[j]? = some p ∧ Linked heap p l)
    (hnodup : (addrs (t.take i).flatten).Nodup) (hfuel : ∀ l ∈ t, l.length ≤ fuel) :
    ∃ heap', m.freeAll fuel i heap = some heap' ∧
      ∀ a, heap' a = if a ∈ addrs (t.take i).flatten then none else heap a := by
  induction i generalizing heap with
  | zero => exact ⟨heap, rfl, fun a => by simp⟩
  | succ i ih =>
    rw [take_succ_flatten hi] at hnodup ⊢
    obtain ⟨hbefore, hhere, hapart⟩ := nodup_addrs_append.mp hnodup
    have hget : t[i]? = some t[i] := List.getElem?_eq_getElem hi
    obtain ⟨p, hp, hl⟩ := hchains i (Nat.lt_succ_self i) _ hget
    obtain ⟨heap₁, hrun, hfreed⟩ := free_spec hl hhere (hfuel _ (List.mem_of_getElem? hget))
    have hchains₁ := chains_frame hchains fun a ha => (hfreed a).trans (if_neg (hapart ha))
    obtain ⟨heap', hrun', hfreed'⟩ := ih (by omega) hchains₁ hbefore
    refine ⟨heap', ?_, fun a => ?_⟩
    · rw [freeAll, hp]
      simp only [hrun, Option.bind_some]
      exact hrun'
    · rw [hfreed', hfreed]
      simp only [mem_addrs_append, ite_or]

/-- All cells are freed, each of them once, and no others. -/
theorem Table.freeAll {m : Mem α} {t : List (List (ℕ × α))} (h : m.Table t) {fuel : ℕ}
    (hfuel : t.flatten.length ≤ fuel) :
    ∃ heap, m.freeAll fuel t.length m.heap = some heap ∧
      ∀ a, heap a = if a ∈ addrs t.flatten then none else m.heap a := by
  have hlength (l : List (ℕ × α)) (hl : l ∈ t) : l.length ≤ fuel :=
    (List.sublist_flatten_of_mem hl).length_le.trans hfuel
  have hspec := @freeAll_spec _ m t fuel t.length m.heap le_rfl fun j _ l hl => h.leads j l hl
  rw [List.take_length] at hspec
  exact hspec h.nodup hlength

end Mem

end Chains
