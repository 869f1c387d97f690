import DeviceSdk.Lib.Segments

/-!
# Texts in memory

Memory holds buffers of characters. A text is read from a pointer up to the character that ends
it, or to the end of its buffer. A program cuts a text at a character by writing the end there, and
puts the character back when it has read the two parts.

## Main definitions

- `Buffers.Ptr`, `Buffers.Mem` — pointers and the memory that they point into
- `Buffers.text` — the text at a pointer
- `Buffers.find` — the first place of a character in a text

## Main results

- `Buffers.text_cut`, `Buffers.text_next`, `Buffers.put_put` — a text is cut and put together
-/

namespace Buffers

variable {α : Type*} [DecidableEq α]

/-- A pointer: a buffer, and a place in it. -/
structure Ptr where
  buf : ℕ
  off : ℕ
  deriving DecidableEq

/-- The pointer to the next place. -/
def Ptr.next (p : Ptr) : Ptr := ⟨p.buf, p.off + 1⟩

/-- The buffers. -/
abbrev Mem (α : Type*) := ℕ → List α

variable (nul : α)

/-- The text at a pointer. -/
def text (mem : Mem α) (p : Ptr) : List α := Segments.head nul ((mem p.buf).drop p.off)

/-- Write to the place at a pointer. -/
def put (mem : Mem α) (p : Ptr) (c : α) : Mem α :=
  Function.update mem p.buf ((mem p.buf).set p.off c)

/-- The first place of `c` in the text at `p`. -/
def find (mem : Mem α) (p : Ptr) (c : α) : Option Ptr :=
  if c ∈ text nul mem p then
    some ⟨p.buf, p.off + (Segments.head c (text nul mem p)).length⟩
  else none

variable {nul}

theorem find_eq_none_iff {mem : Mem α} {p : Ptr} {c : α} :
    find nul mem p c = none ↔ c ∉ text nul mem p := by
  rw [find]
  split <;> simp_all

/-- Characters that do not end a text belong to it. -/
theorem head_append_of_notMem {x : List α} (h : nul ∉ x) (y : List α) :
    Segments.head nul (x ++ y) = x ++ Segments.head nul y := by
  have hx : ∀ d ∈ x, decide (d ≠ nul) = true := by
    intro d hd
    have hne : d ≠ nul := fun he => h (he ▸ hd)
    simpa using hne
  rw [Segments.head, List.takeWhile_append_of_pos hx]
  rfl

theorem nul_notMem_text (mem : Mem α) (p : Ptr) : nul ∉ text nul mem p := by
  rw [text, Segments.head]
  intro hmem
  simpa using List.mem_takeWhile_imp hmem

/-- The text at a place of a buffer that is known up to it. -/
theorem text_of_buf {mem : Mem α} {b : ℕ} {front l : List α} (h : mem b = front ++ l) :
    text nul mem ⟨b, front.length⟩ = Segments.head nul l := by
  show Segments.head nul ((mem b).drop front.length) = _
  rw [h, List.drop_left]

omit [DecidableEq α] in
/-- Writing behind a part of a buffer. -/
theorem put_of_buf {mem : Mem α} {b : ℕ} {front l : List α} {c : α} (h : mem b = front ++ c :: l)
    (d : α) : put mem ⟨b, front.length⟩ d = Function.update mem b (front ++ d :: l) := by
  show Function.update mem b ((mem b).set front.length d) = _
  rw [h, List.set_append_right _ _ le_rfl, Nat.sub_self, List.set_cons_zero]

variable (nul) in
/-- The buffer of `p` falls into what is in front of the text, the text up to its first `c`, which
    is at `q`, and what is behind that. -/
structure Found (mem : Mem α) (p q : Ptr) (c : α) (front x y : List α) : Prop where
  buf : mem p.buf = front ++ (x ++ c :: y)
  start : p = ⟨p.buf, front.length⟩
  place : q = ⟨p.buf, (front ++ x).length⟩
  nul_notMem : nul ∉ x
  notMem : c ∉ x
  ne : c ≠ nul

section Cut

variable {mem : Mem α} {p q : Ptr} {c : α}

theorem exists_found (h : find nul mem p c = some q) :
    ∃ front x y, Found nul mem p q c front x y := by
  rw [find] at h
  split at h
  case isFalse => cases h
  case isTrue hc =>
    have hoff : p.off ≤ (mem p.buf).length := by
      by_contra hlt
      rw [text, List.drop_eq_nil_of_le (by omega)] at hc
      exact absurd hc (by simp [Segments.head])
    have hfront : ((mem p.buf).take p.off).length = p.off := by
      rw [List.length_take, min_eq_left hoff]
    have hnul : nul ∉ text nul mem p := nul_notMem_text mem p
    obtain ⟨hcx, -⟩ | ⟨hcx, htext⟩ := Segments.head_rest c (text nul mem p)
    · exact absurd hc hcx
    obtain ⟨r, hr⟩ : text nul mem p <+: (mem p.buf).drop p.off := List.takeWhile_prefix _
    rw [htext, List.append_assoc, List.cons_append] at hr
    rw [htext, List.mem_append, List.mem_cons, not_or, not_or] at hnul
    refine ⟨(mem p.buf).take p.off, Segments.head c (text nul mem p),
      Segments.rest c (text nul mem p) ++ r, ?_, ?_, ?_, hnul.1, hcx, Ne.symm hnul.2.1⟩
    · rw [hr, List.take_append_drop]
    · rw [hfront]
    · rw [List.length_append, hfront]
      exact (Option.some.inj h).symm

namespace Found

variable {front x y : List α}

theorem text_eq (h : Found nul mem p q c front x y) :
    text nul mem p = x ++ c :: Segments.head nul y := by
  have hc : nul ∉ [c] := by simpa using Ne.symm h.ne
  rw [h.start, text_of_buf h.buf, head_append_of_notMem h.nul_notMem, ← List.singleton_append,
    head_append_of_notMem hc, List.singleton_append]

/-- What is behind the character is a text of its own, whatever is written in its place. -/
theorem text_next (h : Found nul mem p q c front x y) :
    text nul mem q.next = Segments.head nul y := by
  have hbuf : mem p.buf = (front ++ x ++ [c]) ++ y := by
    rw [h.buf]
    simp
  have hnext : q.next = ⟨p.buf, (front ++ x ++ [c]).length⟩ := by
    rw [h.place, Ptr.next]
    simp [Nat.add_assoc]
  rw [hnext, text_of_buf hbuf]

omit [DecidableEq α] in
theorem put (h : Found nul mem p q c front x y) (d : α) :
    Buffers.put mem q d = Function.update mem p.buf (front ++ (x ++ d :: y)) := by
  have hbuf : mem p.buf = front ++ x ++ c :: y := by rw [h.buf, List.append_assoc]
  rw [h.place, put_of_buf hbuf, List.append_assoc]

end Found

/-- Behind the cut, the text is what was in front of the character. -/
theorem text_cut (h : find nul mem p c = some q) :
    text nul (put mem q nul) p = Segments.head c (text nul mem p) := by
  obtain ⟨front, x, y, hf⟩ := exists_found h
  rw [hf.text_eq, Segments.head_append c hf.notMem, hf.put, hf.start,
    text_of_buf (Function.update_self ..), Segments.head_append nul hf.nul_notMem]

/-- The other part of the text starts behind the character. -/
theorem text_next (h : find nul mem p c = some q) :
    text nul mem q.next = Segments.rest c (text nul mem p) := by
  obtain ⟨front, x, y, hf⟩ := exists_found h
  rw [hf.text_next, hf.text_eq, Segments.rest, Segments.head_append c hf.notMem,
    ← List.singleton_append, ← List.append_assoc]
  exact (List.drop_left' (by simp)).symm

/-- It is not changed by the cut. -/
theorem text_put_next (h : find nul mem p c = some q) (d : α) :
    text nul (put mem q d) q.next = text nul mem q.next := by
  obtain ⟨front, x, y, hf⟩ := exists_found h
  have hbuf : put mem q d q.buf = (front ++ x ++ [d]) ++ y := by
    rw [hf.put, hf.place, Function.update_self]
    simp
  have hnext : q.next = ⟨q.buf, (front ++ x ++ [d]).length⟩ := by
    rw [hf.place, Ptr.next]
    simp [Nat.add_assoc]
  rw [hf.text_next, hnext, text_of_buf hbuf]

/-- With the character in its place again memory is as it was. -/
theorem put_put (h : find nul mem p c = some q) (d : α) : put (put mem q d) q c = mem := by
  obtain ⟨front, x, y, hf⟩ := exists_found h
  have hbuf : put mem q d p.buf = front ++ x ++ d :: y := by
    rw [hf.put, Function.update_self, List.append_assoc]
  rw [hf.place, put_of_buf (hf.place ▸ hbuf), ← hf.place, hf.put, Function.update_idem,
    List.append_assoc, ← hf.buf, Function.update_eq_self]

end Cut

end Buffers
