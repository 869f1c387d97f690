import DeviceSdk.Lib.Segments

/-!
# Words between separators

A tokenizer that code in C calls as `strtok_r`: each call skips the separators in front and gives
the word up to the next one. Called to the end, it gives the pieces between separators that are not
empty. With one separator the tokenizer can be told from where the text is cut. Beside it, a list
without the blanks around it.

## Main definitions

- `Words.nextBy`, `Words.next` — the next word, and what is left behind it
- `Words.allBy`, `Words.all` — the words of a list
- `Words.Around` — a list with blanks around it
- `Words.trim` — a list without the blanks around it

## Main results

- `Words.nextBy_eq_none_iff`, `Words.allBy_of_nextBy` — the words of a list, one call at a time
- `Words.around_iff` — trimming finds what has blanks around it
-/

namespace Words

section Tokenizer

variable {α : Type*} (p : α → Bool)

/-- The next word, and what is left behind the separator that ends it. -/
def nextBy (l : List α) : Option (List α × List α) :=
  match l.dropWhile p with
  | [] => none
  | c :: cs =>
    let word := (c :: cs).takeWhile fun d => !p d
    some (word, (c :: cs).drop (word.length + 1))

/-- The pieces between separators that are not empty. -/
def allBy (l : List α) : List (List α) := (l.splitOnP p).filter fun w => !w.isEmpty

variable {p}

theorem allBy_append_cons {c : α} (hc : p c = true) (x y : List α) :
    allBy p (x ++ c :: y) = allBy p x ++ allBy p y := by
  rw [allBy, List.splitOnP_append_cons x y hc, List.filter_append]
  rfl

@[simp] theorem allBy_nil : allBy p [] = [] := by simp [allBy, List.splitOnP_nil]

/-- Separators in front belong to no word. -/
theorem allBy_dropWhile (l : List α) : allBy p (l.dropWhile p) = allBy p l := by
  induction l with
  | nil => rfl
  | cons c cs ih =>
    cases hc : p c with
    | true =>
      have hcons : allBy p (c :: cs) = allBy p cs := allBy_append_cons hc [] cs
      rw [List.dropWhile_cons_of_pos hc, ih, hcons]
    | false => rw [List.dropWhile_cons_of_neg (by simp [hc])]

/-- A list without separators is one word. -/
theorem allBy_of_forall {w : List α} (hne : w ≠ []) (h : ∀ c ∈ w, p c = false) :
    allBy p w = [w] := by
  rw [allBy, List.splitOnP_eq_singleton h]
  simp [hne]

/-- A list that does not start with a separator starts with its first word. -/
theorem allBy_cons {c : α} (hc : p c = false) (cs : List α) :
    allBy p (c :: cs) =
      (c :: cs).takeWhile (fun d => !p d) ::
        allBy p ((c :: cs).drop (((c :: cs).takeWhile fun d => !p d).length + 1)) := by
  have hword : ∀ d ∈ (c :: cs).takeWhile (fun d => !p d), p d = false := by
    intro d hd
    simpa using List.mem_takeWhile_imp hd
  have hne : (c :: cs).takeWhile (fun d => !p d) ≠ [] := by
    rw [List.takeWhile_cons_of_pos (by simp [hc])]
    exact List.cons_ne_nil _ _
  have hl : (c :: cs).takeWhile (fun d => !p d) ++ (c :: cs).dropWhile (fun d => !p d) = c :: cs :=
    List.takeWhile_append_dropWhile
  generalize (c :: cs).takeWhile (fun d => !p d) = word at *
  cases hd : (c :: cs).dropWhile (fun d => !p d) with
  | nil =>
    rw [hd, List.append_nil] at hl
    rw [← hl, List.drop_eq_nil_of_le (by omega), allBy_nil, allBy_of_forall hne hword]
  | cons s rest =>
    have hs : p s = true := by
      have hhead := List.head?_dropWhile_not (fun d => !p d) (c :: cs)
      rw [hd] at hhead
      simpa using hhead
    rw [hd] at hl
    have hrest : (c :: cs).drop (word.length + 1) = rest := by
      rw [← hl, ← List.drop_drop, List.drop_left, List.drop_one, List.tail_cons]
    rw [hrest, ← hl, allBy_append_cons hs, allBy_of_forall hne hword, List.singleton_append]

theorem head_dropWhile {l cs : List α} {c : α} (h : l.dropWhile p = c :: cs) : p c = false := by
  have hhead := List.head?_dropWhile_not p l
  rw [h] at hhead
  simpa using hhead

theorem nextBy_eq_none_iff {l : List α} : nextBy p l = none ↔ allBy p l = [] := by
  rw [nextBy, ← allBy_dropWhile]
  cases hd : l.dropWhile p with
  | nil => simp
  | cons c cs => simp [allBy_cons (head_dropWhile hd)]

/-- A call of the tokenizer takes the first word away. -/
theorem allBy_of_nextBy {l w rest : List α} (h : nextBy p l = some (w, rest)) :
    allBy p l = w :: allBy p rest := by
  rw [nextBy] at h
  rw [← allBy_dropWhile]
  cases hd : l.dropWhile p with
  | nil =>
    rw [hd] at h
    cases h
  | cons c cs =>
    rw [hd] at h
    obtain ⟨rfl, rfl⟩ := Prod.mk.inj (Option.some.inj h)
    exact allBy_cons (head_dropWhile hd) cs

/-- The list gets shorter with each call. -/
theorem length_lt_of_nextBy {l w rest : List α} (h : nextBy p l = some (w, rest)) :
    rest.length < l.length := by
  have hle : (l.dropWhile p).length ≤ l.length := (List.dropWhile_sublist _).length_le
  rw [nextBy] at h
  cases hd : l.dropWhile p with
  | nil =>
    rw [hd] at h
    cases h
  | cons c cs =>
    rw [hd] at h hle
    obtain ⟨-, rfl⟩ := Prod.mk.inj (Option.some.inj h)
    rw [List.length_cons] at hle
    rw [List.length_drop, List.length_cons]
    omega

end Tokenizer

variable {α : Type*} [DecidableEq α]

section Separators

variable (sep : α)

/-- The next word, and what is left behind the separator that ends it. -/
def next (l : List α) : Option (List α × List α) :=
  match l.dropWhile (· = sep) with
  | [] => none
  | c :: cs => some (Segments.head sep (c :: cs), Segments.rest sep (c :: cs))

/-- The pieces between separators that are not empty. -/
def all (l : List α) : List (List α) := (l.splitOn sep).filter (· ≠ [])

theorem next_eq_nextBy (l : List α) : next sep l = nextBy (· = sep) l := by
  have hhead (l : List α) : Segments.head sep l = l.takeWhile fun d => !decide (d = sep) := by
    simp [Segments.head]
  rw [next, nextBy]
  cases l.dropWhile (· = sep) with
  | nil => rfl
  | cons c cs => simp only [Segments.rest, hhead]

theorem all_eq_allBy (l : List α) : all sep l = allBy (· = sep) l := by
  rw [all, allBy, List.splitOn_eq_splitOnP]
  exact List.filter_congr fun w _ => by cases w <;> simp

variable {sep}

@[simp] theorem all_nil : all sep [] = [] := by simp [all]

theorem next_eq_none_iff {l : List α} : next sep l = none ↔ all sep l = [] := by
  rw [next_eq_nextBy, all_eq_allBy, nextBy_eq_none_iff]

/-- A call of the tokenizer takes the first word away. -/
theorem all_of_next {l w rest : List α} (h : next sep l = some (w, rest)) :
    all sep l = w :: all sep rest := by
  rw [next_eq_nextBy] at h
  rw [all_eq_allBy, all_eq_allBy, allBy_of_nextBy h]

end Separators

section Blanks

variable (blank : α)

/-- A list with blanks around it. -/
def Around (l n : List α) : Prop :=
  (∃ i j, l = List.replicate i blank ++ n ++ List.replicate j blank) ∧
    n.head? ≠ some blank ∧ n.getLast? ≠ some blank

/-- A list without the blanks around it. The blanks at the end are looked for from there, and not
    beyond the first thing that is not one. -/
def trim (l : List α) : List α :=
  match l.dropWhile (· = blank) with
  | [] => []
  | c :: cs => c :: cs.rdropWhile (· = blank)

variable {blank}

theorem trim_eq_nil_iff {l : List α} : trim blank l = [] ↔ ∀ c ∈ l, c = blank := by
  have hnil : l.dropWhile (· = blank) = [] ↔ ∀ c ∈ l, c = blank := by
    simp [List.dropWhile_eq_nil_iff]
  rw [← hnil, trim]
  cases l.dropWhile (· = blank) <;> simp

theorem around_trim (l : List α) : Around blank l (trim blank l) := by
  have hfront : l.takeWhile (· = blank) = List.replicate (l.takeWhile (· = blank)).length blank :=
    List.eq_replicate_length.mpr fun c hc => by simpa using List.mem_takeWhile_imp hc
  have hl : l.takeWhile (· = blank) ++ l.dropWhile (· = blank) = l :=
    List.takeWhile_append_dropWhile
  rw [trim]
  cases hd : l.dropWhile (· = blank) with
  | nil =>
    rw [hd, List.append_nil, hfront] at hl
    exact ⟨⟨_, 0, by simpa using hl.symm⟩, by simp, by simp⟩
  | cons c cs =>
    have hback : cs.rtakeWhile (· = blank) =
        List.replicate (cs.rtakeWhile (· = blank)).length blank :=
      List.eq_replicate_length.mpr fun d h => by simpa using List.mem_rtakeWhile_imp h
    have hc : c ≠ blank := by
      have hhead := List.head?_dropWhile_not (· = blank) l
      rw [hd] at hhead
      simpa using hhead
    rw [hd, hfront, ← List.rdropWhile_append_rtakeWhile (p := (· = blank)) (l := cs), hback] at hl
    refine ⟨⟨_, _, by simpa using hl.symm⟩, by simpa using hc, ?_⟩
    show (c :: cs.rdropWhile (· = blank)).getLast? ≠ some blank
    cases hrest : cs.rdropWhile (· = blank) with
    | nil => simpa using hc
    | cons d ds =>
      have hne : cs.rdropWhile (· = blank) ≠ [] := by rw [hrest]; exact List.cons_ne_nil _ _
      have hlast := List.rdropWhile_last_not (· = blank) cs hne
      rw [List.getLast?_cons_cons, ← hrest, List.getLast?_eq_some_getLast hne, ne_eq,
        Option.some_inj]
      simpa using hlast

theorem dropWhile_replicate_append (i : ℕ) (l : List α) :
    (List.replicate i blank ++ l).dropWhile (· = blank) = l.dropWhile (· = blank) :=
  List.dropWhile_append_of_pos fun c hc => by simpa using List.eq_of_mem_replicate hc

theorem rdropWhile_append_replicate {l : List α} (h : l.getLast? ≠ some blank) (j : ℕ) :
    (l ++ List.replicate j blank).rdropWhile (· = blank) = l := by
  rw [List.rdropWhile, List.reverse_append, List.reverse_replicate, dropWhile_replicate_append]
  refine List.rdropWhile_eq_self_iff.mpr fun hne => ?_
  rw [List.getLast?_eq_some_getLast hne, ne_eq, Option.some_inj] at h
  simpa using h

theorem Around.eq_trim {l n : List α} (h : Around blank l n) : n = trim blank l := by
  obtain ⟨⟨i, j, rfl⟩, hhead, hlast⟩ := h
  rw [trim, List.append_assoc, dropWhile_replicate_append]
  cases n with
  | nil => simp
  | cons c cs =>
    have hc : c ≠ blank := by simpa using hhead
    rw [List.cons_append, List.dropWhile_cons_of_neg (by simpa using hc)]
    have hrest : cs.getLast? ≠ some blank := by
      cases cs with
      | nil => simp
      | cons d ds => rwa [List.getLast?_cons_cons] at hlast
    exact congrArg (c :: ·) (rdropWhile_append_replicate hrest j).symm

/-- Trimming finds what has blanks around it. -/
theorem around_iff {l n : List α} : Around blank l n ↔ n = trim blank l :=
  ⟨Around.eq_trim, fun h => h ▸ around_trim l⟩

end Blanks

end Words
