import DeviceSdk.Iot.Codec
import DeviceSdk.Lib.Segments

/-!
# Topics and handlers of the message bus

The part of `bus.c` that registers handlers for topic patterns and finds the handler of a
topic. Patterns have three shapes: a topic as it is, a base followed by parameters in
braces, and a base followed by `/#` for everything below it. Texts are lists of characters.

## Main definitions

- `CStr`, `mktopic` — topics and `edgex_bus_mktopic`
- `Endpoint`, `registerHandler`, `matchHandler` — the handlers of a bus
- `Pattern`, `Pattern.Matches`, `Pattern.Binds` — the three shapes, and what they mean
- `Pattern.Clear` — the topics on which the search reads a pattern as it is meant

## Main results

- `registered_selects_iff` — for which patterns and topics the search finds the most recently
  registered handler whose pattern matches
-/

namespace DeviceSdk

/-- A C string. -/
abbrev CStr := List Char

open Segments (head scan EndsEmpty head_append)

/-- `edgex_bus_mktopic`. -/
def mktopic (busPrefix svcname type param : CStr) : CStr :=
  busPrefix ++ ['/'] ++ (if type = [] then [] else type ++ ['/']) ++ svcname ++
    (if param = [] then [] else '/' :: param)

/-- `edgex_bus_endpoint_t`. The handler stands for the function and its context. -/
structure Endpoint (H : Type) where
  base : CStr
  params : List CStr := []
  handler : H
  baseLen : ℕ
  ignoreTail : Bool := false

/-- The loop of `edgex_bus_register_handler` over the parameters of a path, which starts at an
    opening brace. Every turn passes one of the two braces, so the length of the text is fuel
    enough. -/
def paramNames : ℕ → CStr → List CStr
  | n + 1, '{' :: param =>
    head '}' param ::
      paramNames n ((param.drop (head '}' param).length).dropWhile fun c => decide (c ≠ '{'))
  | _, _ => []

/-- `edgex_bus_register_handler`: the new entry, and the topic that is subscribed to. -/
def registerHandler {H : Type} (path : CStr) (handler : H) : Endpoint H × CStr :=
  let base := head '{' path
  if '{' ∈ path then
    ({ base, params := paramNames path.length (path.drop base.length), handler
       baseLen := base.length }, base ++ ['#'])
  else if ['/', '#'] <:+ path then
    ({ base := path, handler, baseLen := path.length - 2, ignoreTail := true }, path)
  else ({ base := path, handler, baseLen := path.length }, path)

/-- `edgex_bus_parse_tail`. -/
def parseTail {H : Type} (ep : Endpoint H) (path : CStr) : List CStr :=
  if ep.ignoreTail then []
  else
    let tail := path.drop ep.baseLen
    scan '/' tail.length tail

/-- The map that `edgex_bus_match_handler` fills: each parameter with its element of the tail. -/
def bindParams (keys vals : List CStr) : List (String × IotData) :=
  (keys.zip vals).foldl
    (fun params e => IotData.mapAdd (String.ofList e.1) (.string (String.ofList e.2)) params) []

/-- One turn of `edgex_bus_match_handler`: the parameters, when the entry matches. -/
def Endpoint.accepts {H : Type} (ep : Endpoint H) (path : CStr) :
    Option (List (String × IotData)) :=
  if path.take ep.baseLen = ep.base.take ep.baseLen then
    let tail := parseTail ep path
    if tail.length = ep.params.length then some (bindParams ep.params tail) else none
  else none

/-- `edgex_bus_match_handler`. -/
def matchHandler {H : Type} (handlers : List (Endpoint H)) (path : CStr) :
    Option (H × List (String × IotData)) :=
  handlers.findSome? fun ep => (ep.accepts path).map fun params => (ep.handler, params)

-- ════════════════════════════════════════════════════════════════════════
-- Patterns
-- ════════════════════════════════════════════════════════════════════════

/-- The three shapes of a pattern. -/
inductive Pattern
  | literal (topic : CStr)
  | params (base : CStr) (names : List CStr)
  | subtree (base : CStr)

namespace Pattern

/-- The text of a list of parameters. -/
def braced (names : List CStr) : CStr := ['/'].intercalate (names.map fun p => '{' :: (p ++ ['}']))

/-- The path that is registered for a pattern. -/
def text : Pattern → CStr
  | literal topic => topic
  | params base names => base ++ braced names
  | subtree base => base ++ ['/', '#']

/-- The parts of a pattern do not contain what marks its shape. -/
def WellFormed : Pattern → Prop
  | literal topic => '{' ∉ topic ∧ ¬ ['/', '#'] <:+ topic
  | params base names => '{' ∉ base ∧ names ≠ [] ∧ ∀ p ∈ names, '}' ∉ p
  | subtree base => '{' ∉ base

/-- The topics that a pattern stands for. -/
def Matches : Pattern → CStr → Prop
  | literal topic, path => path = topic
  | params base names, path =>
    ∃ segs : List CStr, segs.length = names.length ∧ (∀ s ∈ segs, '/' ∉ s) ∧
      path = base ++ ['/'].intercalate segs
  | subtree base, path => path = base ∨ base ++ ['/'] <+: path

/-- The parameters that a topic gives to a pattern, and no others. -/
def Binds : Pattern → CStr → List (String × IotData) → Prop
  | params base names, path, m =>
    ∃ segs : List CStr, segs.length = names.length ∧ (∀ s ∈ segs, '/' ∉ s) ∧
      path = base ++ ['/'].intercalate segs ∧
      (∀ e ∈ names.zip segs, m.lookup (String.ofList e.1) = some (.string (String.ofList e.2))) ∧
      ∀ key, m.lookup key ≠ none → ∃ p ∈ names, key = String.ofList p
  | _, _, m => m = []

/-- A topic on which the search reads the pattern as it is meant. Where the topic goes on behind
    the base of a subtree, it goes on with a slash. Where it goes on behind the base of parameters
    with an empty last segment, the parameters are neither as many as the segments nor one
    fewer; with another last segment, a parameter that is repeated finds one value. -/
def Clear : Pattern → CStr → Prop
  | literal _, _ => True
  | params base names, path =>
    ∀ tail, path = base ++ tail →
      if EndsEmpty '/' tail then
        names.length ≠ (tail.splitOn '/').length ∧ names.length + 1 ≠ (tail.splitOn '/').length
      else
        names.length = (tail.splitOn '/').length →
          ∀ e ∈ names.zip (tail.splitOn '/'), ∀ f ∈ names.zip (tail.splitOn '/'),
            e.1 = f.1 → e.2 = f.2
  | subtree base, path => ∀ tail, path = base ++ tail → tail = [] ∨ ['/'] <+: tail

end Pattern

/-- The loop over the parameters reads their names back. -/
theorem paramNames_braced {names : List CStr} (h : ∀ p ∈ names, '}' ∉ p) {n : ℕ}
    (hn : names.length ≤ n) : paramNames n (Pattern.braced names) = names := by
  induction names generalizing n with
  | nil =>
    cases n <;> rfl
  | cons p ps ih =>
    cases n with
    | zero => cases hn
    | succ n =>
      have hp : '}' ∉ p := h p List.mem_cons_self
      have hps : paramNames n (Pattern.braced ps) = ps :=
        ih (fun q hq => h q (List.mem_cons_of_mem p hq)) (Nat.le_of_succ_le_succ hn)
      cases ps with
      | nil =>
        have htext : Pattern.braced [p] = '{' :: (p ++ '}' :: []) := by
          simp [Pattern.braced]
        rw [htext, paramNames, head_append '}' hp]
        simp
        cases n <;> rfl
      | cons q qs =>
        have htext : Pattern.braced (p :: q :: qs) =
            '{' :: (p ++ '}' :: ('/' :: Pattern.braced (q :: qs))) := by
          simp [Pattern.braced, List.intercalate_cons_cons]
        have hbrace : ∃ t, Pattern.braced (q :: qs) = '{' :: t := by
          cases qs with
          | nil => exact ⟨q ++ ['}'], by simp [Pattern.braced]⟩
          | cons u us => exact ⟨_, by simp [Pattern.braced, List.intercalate_cons_cons]; rfl⟩
        obtain ⟨t, ht⟩ := hbrace
        rw [htext, paramNames, head_append '}' hp]
        have hskip : ((p ++ '}' :: ('/' :: Pattern.braced (q :: qs))).drop p.length).dropWhile
            (fun c => decide (c ≠ '{')) = Pattern.braced (q :: qs) := by
          rw [List.drop_left, ht]
          simp
        rw [hskip, hps]

/-- The entry that a well-formed pattern is registered as. -/
def Pattern.endpoint {H : Type} (handler : H) : Pattern → Endpoint H
  | literal topic => { base := topic, handler, baseLen := topic.length }
  | params base names => { base, params := names, handler, baseLen := base.length }
  | subtree base =>
    { base := base ++ ['/', '#'], handler, baseLen := base.length, ignoreTail := true }

theorem Pattern.braced_ne_nil {names : List CStr} (h : names ≠ []) :
    ∃ t, braced names = '{' :: t := by
  cases names with
  | nil => exact absurd rfl h
  | cons p ps =>
    cases ps with
    | nil => exact ⟨p ++ ['}'], by simp [braced]⟩
    | cons q qs => exact ⟨_, by simp [braced, List.intercalate_cons_cons]; rfl⟩

theorem Pattern.length_le_braced (names : List CStr) : names.length ≤ (braced names).length := by
  induction names with
  | nil => exact Nat.zero_le _
  | cons p ps ih =>
    cases ps with
    | nil => simp [braced]
    | cons q qs =>
      have htext : braced (p :: q :: qs) = '{' :: (p ++ '}' :: ('/' :: braced (q :: qs))) := by
        simp [braced, List.intercalate_cons_cons]
      rw [htext]
      simp only [List.length_cons, List.length_append] at ih ⊢
      omega

theorem registerHandler_text {H : Type} {p : Pattern} (h : p.WellFormed) (handler : H) :
    (registerHandler p.text handler).1 = p.endpoint handler := by
  cases p with
  | literal topic =>
    obtain ⟨hbrace, hsub⟩ := h
    show (registerHandler topic handler).1 = _
    rw [registerHandler, if_neg hbrace, if_neg hsub]
    rfl
  | params base names =>
    obtain ⟨hbase, hne, hnames⟩ := h
    obtain ⟨t, ht⟩ := Pattern.braced_ne_nil hne
    have hlen := Pattern.length_le_braced names
    have hmem : '{' ∈ base ++ Pattern.braced names := by simp [ht]
    have hhead : head '{' (base ++ Pattern.braced names) = base := by
      rw [ht, head_append '{' hbase]
    rw [registerHandler]
    simp only [Pattern.text, if_pos hmem, hhead, List.drop_left]
    rw [paramNames_braced hnames (by rw [List.length_append]; omega)]
    rfl
  | subtree base =>
    have hbrace : '{' ∉ base ++ ['/', '#'] := by
      have hbase : '{' ∉ base := h
      simp [hbase]
    have hsub : ['/', '#'] <:+ base ++ ['/', '#'] := List.suffix_append _ _
    show (registerHandler (base ++ ['/', '#']) handler).1 = _
    rw [registerHandler, if_neg hbrace, if_pos hsub]
    simp [Pattern.endpoint]

theorem take_length_eq_iff {base path : CStr} :
    path.take base.length = base ↔ ∃ tail, path = base ++ tail := by
  constructor
  · intro h
    refine ⟨path.drop base.length, ?_⟩
    conv_lhs => rw [← List.take_append_drop base.length path, h]
  · rintro ⟨tail, rfl⟩
    exact List.take_left

theorem scan_eq_nil_iff (tail : CStr) : scan '/' tail.length tail = [] ↔ tail = [] := by
  cases tail with
  | nil => simp [scan]
  | cons c t => simp [scan]

theorem accepts_literal {H : Type} (handler : H) (topic path : CStr) :
    ((Pattern.literal topic).endpoint handler).accepts path =
      if path = topic then some [] else none := by
  simp only [Endpoint.accepts, Pattern.endpoint, parseTail, List.take_length]
  by_cases hp : path = topic
  · subst hp
    simp [scan, bindParams]
  · rw [if_neg hp]
    split
    next htake =>
      obtain ⟨tail, rfl⟩ := take_length_eq_iff.mp htake
      have hne : tail ≠ [] := fun hnil => hp (by simp [hnil])
      have hscan := mt (scan_eq_nil_iff tail).mp hne
      simp [hscan]
    next => rfl

theorem accepts_subtree {H : Type} (handler : H) (base path : CStr) :
    ((Pattern.subtree base).endpoint handler).accepts path =
      if base <+: path then some [] else none := by
  have hpre : path.take base.length = base ↔ base <+: path := by
    rw [take_length_eq_iff, List.IsPrefix]
    simp only [eq_comm]
  simp only [Endpoint.accepts, Pattern.endpoint, parseTail, List.take_left, hpre]
  simp [bindParams]

theorem accepts_params_append {H : Type} (handler : H) (base tail : CStr) (names : List CStr) :
    ((Pattern.params base names).endpoint handler).accepts (base ++ tail) =
      if (scan '/' tail.length tail).length = names.length then
        some (bindParams names (scan '/' tail.length tail))
      else none := by
  simp [Endpoint.accepts, Pattern.endpoint, parseTail]

theorem accepts_params_of_unrelated {H : Type} (handler : H) {base path : CStr}
    (names : List CStr) (h : ¬ ∃ tail, path = base ++ tail) :
    ((Pattern.params base names).endpoint handler).accepts path = none := by
  have htake : ¬ path.take base.length = base := mt take_length_eq_iff.mp h
  simp [Endpoint.accepts, Pattern.endpoint, htake]

/-- A parameter has the value that was bound to it last. -/
theorem lookup_bindParams (keys vals : List CStr) (n : String) :
    (bindParams keys vals).lookup n =
      ((keys.zip vals).reverse.find? fun e => decide (String.ofList e.1 = n)).map
        fun e => .string (String.ofList e.2) := by
  have h : ∀ (es : List (CStr × CStr)) (m : List (String × IotData)),
      (es.foldl (fun params e =>
        IotData.mapAdd (String.ofList e.1) (.string (String.ofList e.2)) params) m).lookup n =
      ((es.reverse.find? fun e => decide (String.ofList e.1 = n)).map
        fun e => IotData.string (String.ofList e.2)).or (m.lookup n) := by
    intro es
    induction es with
    | nil => intro m; rfl
    | cons e es ih =>
      intro m
      rw [List.foldl_cons, ih, IotData.lookup_mapAdd, List.reverse_cons, List.find?_append]
      cases es.reverse.find? fun e => decide (String.ofList e.1 = n) with
      | some f => rfl
      | none =>
        by_cases hn : String.ofList e.1 = n
        · simp [hn]
        · simp [hn, Ne.symm hn]
  simpa [bindParams] using h (keys.zip vals) []

/-- Each parameter has its own value exactly when those of one name have one value. -/
theorem bindParams_bound_iff (keys vals : List CStr) :
    (∀ e ∈ keys.zip vals, (bindParams keys vals).lookup (String.ofList e.1) =
        some (.string (String.ofList e.2))) ↔
      ∀ e ∈ keys.zip vals, ∀ f ∈ keys.zip vals, e.1 = f.1 → e.2 = f.2 := by
  constructor
  · intro h e he f hf hef
    have hlook := h e he
    rw [hef, h f hf] at hlook
    have hstr : String.ofList f.2 = String.ofList e.2 := by simpa using hlook
    exact (String.ofList_injective hstr).symm
  · intro h e he
    rw [lookup_bindParams]
    cases hf : (keys.zip vals).reverse.find?
      fun f => decide (String.ofList f.1 = String.ofList e.1) with
    | none =>
      have hnone := List.find?_eq_none.mp hf e (List.mem_reverse.mpr he)
      simp at hnone
    | some f =>
      have hmem : f ∈ keys.zip vals := List.mem_reverse.mp (List.mem_of_find?_eq_some hf)
      have hstr : String.ofList f.1 = String.ofList e.1 := by simpa using List.find?_some hf
      have hkey : f.1 = e.1 := String.ofList_injective hstr
      rw [Option.map_some, h f hmem e he hkey]

theorem bindParams_only {keys vals : List CStr} {key : String}
    (h : (bindParams keys vals).lookup key ≠ none) : ∃ p ∈ keys, key = String.ofList p := by
  rw [lookup_bindParams] at h
  cases hf : (keys.zip vals).reverse.find? fun f => decide (String.ofList f.1 = key) with
  | none => simp [hf] at h
  | some f =>
    have hmem : f ∈ keys.zip vals := List.mem_reverse.mp (List.mem_of_find?_eq_some hf)
    have hkey : String.ofList f.1 = key := by simpa using List.find?_some hf
    exact ⟨f.1, (List.of_mem_zip hmem).1, hkey.symm⟩

namespace Pattern

theorem matches_params_append {base tail : CStr} {names : List CStr} (hne : names ≠ []) :
    (params base names).Matches (base ++ tail) ↔ (tail.splitOn '/').length = names.length := by
  constructor
  · rintro ⟨segs, hlen, hsegs, htail⟩
    have hsegsne : segs ≠ [] := by
      rintro rfl
      exact hne (List.length_eq_zero_iff.mp hlen.symm)
    rw [(Segments.splitOn_eq_iff '/' hsegsne).mpr ⟨hsegs, List.append_cancel_left htail⟩, hlen]
  · intro hlen
    exact ⟨tail.splitOn '/', hlen, fun s hs => Segments.not_mem_of_mem_splitOn '/' hs,
      by rw [List.intercalate_splitOn]⟩

theorem not_matches_params {base path : CStr} {names : List CStr}
    (h : ¬ ∃ tail, path = base ++ tail) : ¬ (params base names).Matches path := by
  rintro ⟨segs, -, -, hpath⟩
  exact h ⟨_, hpath⟩

/-- The bindings of a topic with as many segments as there are parameters. -/
theorem binds_params_iff {base tail : CStr} {names : List CStr} (hne : names ≠ [])
    (hlen : (tail.splitOn '/').length = names.length) :
    (params base names).Binds (base ++ tail) (bindParams names (tail.splitOn '/')) ↔
      ∀ e ∈ names.zip (tail.splitOn '/'), ∀ f ∈ names.zip (tail.splitOn '/'),
        e.1 = f.1 → e.2 = f.2 := by
  rw [← bindParams_bound_iff]
  constructor
  · rintro ⟨segs, hsegslen, hsegs, htail, hbound, -⟩
    have hsegsne : segs ≠ [] := by
      rintro rfl
      exact hne (List.length_eq_zero_iff.mp hsegslen.symm)
    have hsplit : tail.splitOn '/' = segs :=
      (Segments.splitOn_eq_iff '/' hsegsne).mpr ⟨hsegs, List.append_cancel_left htail⟩
    rwa [hsplit] at hbound ⊢
  · intro hbound
    exact ⟨tail.splitOn '/', hlen, fun s hs => Segments.not_mem_of_mem_splitOn '/' hs,
      by rw [List.intercalate_splitOn], hbound, fun _ => bindParams_only⟩

/-- What an entry answers for a topic is what its pattern means. -/
def Answers (p : Pattern) (path : CStr) : Option (List (String × IotData)) → Prop
  | some m => p.Matches path ∧ p.Binds path m
  | none => ¬ p.Matches path

/-- There is one way to read a topic as one that goes on behind the base. -/
theorem clear_params_append (base tail : CStr) (names : List CStr) :
    (params base names).Clear (base ++ tail) ↔
      if EndsEmpty '/' tail then
        names.length ≠ (tail.splitOn '/').length ∧ names.length + 1 ≠ (tail.splitOn '/').length
      else
        names.length = (tail.splitOn '/').length →
          ∀ e ∈ names.zip (tail.splitOn '/'), ∀ f ∈ names.zip (tail.splitOn '/'),
            e.1 = f.1 → e.2 = f.2 := by
  constructor
  · intro h
    exact h tail rfl
  · intro h t ht
    rwa [← List.append_cancel_left ht]

theorem clear_params_iff {H : Type} (handler : H) {base : CStr} {names : List CStr}
    (hne : names ≠ []) (path : CStr) :
    (params base names).Clear path ↔
      (params base names).Answers path (((params base names).endpoint handler).accepts path) := by
  by_cases hpre : ∃ tail, path = base ++ tail
  · obtain ⟨tail, rfl⟩ := hpre
    have hsplit := Segments.splitOn_eq_scan '/' (le_refl tail.length)
    rw [clear_params_append, accepts_params_append]
    by_cases hends : EndsEmpty '/' tail
    · rw [if_pos hends] at hsplit ⊢
      have hcount : (tail.splitOn '/').length = (scan '/' tail.length tail).length + 1 := by
        rw [hsplit, List.length_append, List.length_singleton]
      by_cases hlen : (scan '/' tail.length tail).length = names.length
      · -- The scanner sees as many elements as there are parameters, and misses the last one.
        rw [if_pos hlen, Answers, matches_params_append hne]
        constructor
        · rintro ⟨-, h⟩
          omega
        · rintro ⟨h, -⟩
          omega
      · rw [if_neg hlen, Answers, matches_params_append hne]
        constructor
        · rintro ⟨h, -⟩
          omega
        · intro h
          exact ⟨by omega, by omega⟩
    · rw [if_neg hends, List.append_nil] at hsplit
      rw [if_neg hends, ← hsplit]
      by_cases hlen : (tail.splitOn '/').length = names.length
      · rw [if_pos hlen, Answers, matches_params_append hne, binds_params_iff hne hlen]
        simp [hlen]
      · rw [if_neg hlen, Answers, matches_params_append hne]
        exact ⟨fun _ => hlen, fun _ h => absurd h.symm hlen⟩
  · rw [accepts_params_of_unrelated handler names hpre]
    refine ⟨fun _ => not_matches_params hpre, fun _ tail htail => absurd ⟨tail, htail⟩ hpre⟩

theorem clear_subtree_iff {H : Type} (handler : H) (base path : CStr) :
    (subtree base).Clear path ↔
      (subtree base).Answers path (((subtree base).endpoint handler).accepts path) := by
  rw [accepts_subtree]
  by_cases hpre : base <+: path
  · obtain ⟨tail, rfl⟩ := hpre
    rw [if_pos (List.prefix_append base tail)]
    have hmatch : (subtree base).Matches (base ++ tail) ↔ tail = [] ∨ ['/'] <+: tail := by
      simp [Matches, List.prefix_append_right_inj]
    rw [Answers, hmatch]
    constructor
    · intro h
      exact ⟨h tail rfl, rfl⟩
    · rintro ⟨h, -⟩ t ht
      rwa [← List.append_cancel_left ht]
  · rw [if_neg hpre]
    constructor
    · rintro - (rfl | hm)
      · exact hpre (List.prefix_refl _)
      · exact hpre ((List.prefix_append base ['/']).trans hm)
    · intro _ tail htail
      exact absurd ⟨tail, htail.symm⟩ hpre

/-- A topic is clear for a pattern exactly when the entry answers as the pattern means. -/
theorem clear_iff {H : Type} (handler : H) {p : Pattern} (hp : p.WellFormed) (path : CStr) :
    p.Clear path ↔ p.Answers path ((p.endpoint handler).accepts path) := by
  cases p with
  | literal topic =>
    rw [accepts_literal]
    by_cases h : path = topic
    · rw [if_pos h]
      exact ⟨fun _ => ⟨h, rfl⟩, fun _ => trivial⟩
    · rw [if_neg h]
      exact ⟨fun _ => h, fun _ => trivial⟩
  | params base names => exact clear_params_iff handler hp.2.1 path
  | subtree base => exact clear_subtree_iff handler base path

end Pattern

-- ════════════════════════════════════════════════════════════════════════
-- Registrations
-- ════════════════════════════════════════════════════════════════════════

/-- A pattern of one of the three shapes. -/
structure ShapedPattern where
  pattern : Pattern
  wf : pattern.WellFormed

/-- The handlers of a bus after a sequence of registrations. -/
def registerAll {H : Type} (regs : List (ShapedPattern × H)) : List (Endpoint H) :=
  regs.foldl (fun handlers r => (registerHandler r.1.pattern.text r.2).1 :: handlers) []

theorem registerAll_eq {H : Type} (regs : List (ShapedPattern × H)) :
    registerAll regs = regs.reverse.map fun r => r.1.pattern.endpoint r.2 := by
  have h : ∀ acc : List (Endpoint H),
      regs.foldl (fun handlers r => (registerHandler r.1.pattern.text r.2).1 :: handlers) acc =
        (regs.reverse.map fun r => r.1.pattern.endpoint r.2) ++ acc := by
    induction regs with
    | nil => intro acc; rfl
    | cons r rs ih =>
      intro acc
      rw [List.foldl_cons, ih, registerHandler_text r.1.wf]
      simp
  simpa [registerAll] using h []

/-- The outcome of a search is the newest registration whose pattern matches. The
    registrations are listed newest first. -/
def Selected {H : Type} (regs : List (ShapedPattern × H)) (path : CStr) :
    Option (H × List (String × IotData)) → Prop
  | none => ∀ r ∈ regs, ¬ r.1.pattern.Matches path
  | some (h, m) => ∃ newer r older, regs = newer ++ r :: older ∧
      (∀ q ∈ newer, ¬ q.1.pattern.Matches path) ∧ r.2 = h ∧
      r.1.pattern.Matches path ∧ r.1.pattern.Binds path m

/-- The topic is clear for the newest pattern that matches it, and for all newer ones. -/
def ClearUntilMatch (path : CStr) : List ShapedPattern → Prop
  | [] => True
  | p :: ps => p.pattern.Clear path ∧ (p.pattern.Matches path ∨ ClearUntilMatch path ps)

/-- The search over registrations, newest first. -/
def searchFrom {H : Type} (path : CStr) (regs : List (ShapedPattern × H)) :
    Option (H × List (String × IotData)) :=
  matchHandler (regs.map fun r => r.1.pattern.endpoint r.2) path

theorem searchFrom_cons {H : Type} (path : CStr) (r : ShapedPattern × H)
    (rs : List (ShapedPattern × H)) :
    searchFrom path (r :: rs) =
      match (r.1.pattern.endpoint r.2).accepts path with
      | some m => some (r.2, m)
      | none => searchFrom path rs := by
  have hhandler : (r.1.pattern.endpoint r.2).handler = r.2 := by
    cases r.1.pattern <;> rfl
  rw [searchFrom, matchHandler, List.map_cons, List.findSome?_cons]
  cases (r.1.pattern.endpoint r.2).accepts path with
  | some m => simp [hhandler]
  | none => rfl

/-- What is selected behind a registration that does not match is selected with it in front. -/
theorem Selected.cons {H : Type} {path : CStr} {r : ShapedPattern × H}
    {rs : List (ShapedPattern × H)} {o : Option (H × List (String × IotData))}
    (hr : ¬ r.1.pattern.Matches path) (h : Selected rs path o) : Selected (r :: rs) path o := by
  match o, h with
  | none, h =>
    intro q hq
    cases List.mem_cons.mp hq with
    | inl he => exact he ▸ hr
    | inr hm => exact h q hm
  | some (v, m), ⟨newer, q, older, hrs, hnewer, hq⟩ =>
    refine ⟨r :: newer, q, older, by rw [hrs, List.cons_append], ?_, hq⟩
    intro u hu
    cases List.mem_cons.mp hu with
    | inl he => exact he ▸ hr
    | inr hm => exact hnewer u hm

theorem selected_of_clear {H : Type} (path : CStr) (regs : List (ShapedPattern × H))
    (h : ClearUntilMatch path (regs.map Prod.fst)) : Selected regs path (searchFrom path regs) := by
  induction regs with
  | nil => exact fun r hr => absurd hr List.not_mem_nil
  | cons r rs ih =>
    obtain ⟨hclear, hrest⟩ := h
    have hans := (Pattern.clear_iff r.2 r.1.wf path).mp hclear
    rw [searchFrom_cons]
    cases ha : (r.1.pattern.endpoint r.2).accepts path with
    | some m =>
      rw [ha] at hans
      exact ⟨[], r, rs, rfl, fun q hq => absurd hq List.not_mem_nil, rfl, hans⟩
    | none =>
      rw [ha] at hans
      exact (ih (hrest.resolve_left hans)).cons hans

/-- What is found is one of the handlers. -/
theorem searchFrom_mem {H : Type} {path : CStr} {regs : List (ShapedPattern × H)} {h : H}
    {m : List (String × IotData)} (hs : searchFrom path regs = some (h, m)) :
    h ∈ regs.map Prod.snd := by
  induction regs with
  | nil => cases hs
  | cons r rs ih =>
    rw [searchFrom_cons] at hs
    split at hs
    next m' ha =>
      cases hs
      exact List.mem_cons_self
    next ha => exact List.mem_cons_of_mem _ (ih hs)

/-- What is selected among registrations is the newest one, or that one does not match and the
    rest select it. -/
theorem selected_cons_cases {H : Type} {path : CStr} {r : ShapedPattern × H}
    {rs : List (ShapedPattern × H)} {o : Option (H × List (String × IotData))}
    (h : Selected (r :: rs) path o) :
    (∃ m, o = some (r.2, m) ∧ r.1.pattern.Matches path ∧ r.1.pattern.Binds path m) ∨
      (¬ r.1.pattern.Matches path ∧ Selected rs path o) := by
  match o, h with
  | none, h =>
    exact Or.inr ⟨h r List.mem_cons_self, fun q hq => h q (List.mem_cons_of_mem r hq)⟩
  | some (v, m), ⟨[], q, older, hrs, hnewer, hq, hmatch⟩ =>
    obtain ⟨rfl, -⟩ := List.cons.inj hrs
    exact Or.inl ⟨m, by rw [hq], hmatch⟩
  | some (v, m), ⟨u :: us, q, older, hrs, hnewer, hq⟩ =>
    obtain ⟨rfl, hrs'⟩ := List.cons.inj hrs
    refine Or.inr ⟨hnewer r List.mem_cons_self, us, q, older, hrs', ?_, hq⟩
    exact fun w hw => hnewer w (List.mem_cons_of_mem r hw)

theorem Selected.mem {H : Type} {path : CStr} {regs : List (ShapedPattern × H)} {v : H}
    {m : List (String × IotData)} (h : Selected regs path (some (v, m))) :
    v ∈ regs.map Prod.snd := by
  obtain ⟨newer, q, older, rfl, -, rfl, -⟩ := h
  exact List.mem_map_of_mem (List.mem_append_right newer List.mem_cons_self)

/-- With a handler of its own for each registration, a search that selects as it should has met
    no pattern for which the topic is not clear. -/
theorem clear_of_selected {H : Type} {path : CStr} {regs : List (ShapedPattern × H)}
    (hnd : (regs.map Prod.snd).Nodup) (h : Selected regs path (searchFrom path regs)) :
    ClearUntilMatch path (regs.map Prod.fst) := by
  induction regs with
  | nil => trivial
  | cons r rs ih =>
    rw [List.map_cons, List.nodup_cons] at hnd
    obtain ⟨hfresh, hnd⟩ := hnd
    rw [List.map_cons, ClearUntilMatch, Pattern.clear_iff r.2 r.1.wf]
    rw [searchFrom_cons] at h
    cases ha : (r.1.pattern.endpoint r.2).accepts path with
    | some m =>
      rw [ha] at h
      cases selected_cons_cases h with
      | inl hfirst =>
        obtain ⟨m', hm, hmatch⟩ := hfirst
        obtain rfl : m = m' := congrArg Prod.snd (Option.some.inj hm)
        exact ⟨hmatch, Or.inl hmatch.1⟩
      | inr hrest => exact absurd hrest.2.mem hfresh
    | none =>
      rw [ha] at h
      cases selected_cons_cases h with
      | inl hfirst =>
        obtain ⟨m', hm, -⟩ := hfirst
        exact absurd (searchFrom_mem hm) hfresh
      | inr hrest => exact ⟨hrest.1, Or.inr (ih hnd hrest.2)⟩

/-- For every sequence of patterns and every topic: whatever handlers are registered for the
    patterns, the search selects the most recently registered one whose pattern matches and
    binds its parameters, exactly when the topic is clear for the newest pattern that matches
    it and for all newer ones. -/
theorem registered_selects_iff (patterns : List ShapedPattern) (path : CStr) :
    (∀ (H : Type) (handlers : ℕ → H),
      let regs := patterns.zipIdx.map fun e => (e.1, handlers e.2)
      Selected regs.reverse path (matchHandler (registerAll regs) path)) ↔
      ClearUntilMatch path patterns.reverse := by
  have hfst : ∀ (H : Type) (handlers : ℕ → H),
      (patterns.zipIdx.map fun e => (e.1, handlers e.2)).reverse.map Prod.fst =
        patterns.reverse := by
    intro H handlers
    rw [List.map_reverse, List.map_map]
    exact congrArg List.reverse (List.zipIdx_map_fst 0 patterns)
  constructor
  · intro h
    have hsel := h ℕ id
    simp only [registerAll_eq] at hsel
    rw [← hfst ℕ id]
    refine clear_of_selected ?_ hsel
    have hsnd : (patterns.zipIdx.map fun e => (e.1, id e.2)).map Prod.snd =
        List.range' 0 patterns.length := by
      rw [List.map_map]
      exact List.zipIdx_map_snd 0 patterns
    rw [List.map_reverse, hsnd, List.nodup_reverse]
    exact List.nodup_range'
  · intro h H handlers
    simp only [registerAll_eq]
    refine selected_of_clear path _ ?_
    rwa [hfst]

/-- A registration for everything below one topic. -/
def deviceSubtree : ShapedPattern where
  pattern := .subtree "kc/device".toList
  wf := show '{' ∉ "kc/device".toList by decide

/-- A subtree takes the topics of a neighbour whose name starts as its own. -/
theorem subtree_takes_neighbour :
    ¬ ∀ (patterns : List ShapedPattern) (path : CStr) (H : Type) (handlers : ℕ → H),
      let regs := patterns.zipIdx.map fun e => (e.1, handlers e.2)
      Selected regs.reverse path (matchHandler (registerAll regs) path) := by
  intro h
  have hsel : Selected [(deviceSubtree, 0)] "kc/device2/a".toList
      (matchHandler (registerAll [(deviceSubtree, 0)]) "kc/device2/a".toList) :=
    h [deviceSubtree] "kc/device2/a".toList ℕ id
  have hfound : matchHandler (registerAll [(deviceSubtree, 0)]) "kc/device2/a".toList =
      some (0, []) := by decide
  rw [hfound] at hsel
  obtain ⟨newer, r, older, hrs, -, -, hmatch, -⟩ := hsel
  have hmem : r ∈ [(deviceSubtree, 0)] := by
    rw [hrs]
    exact List.mem_append_right newer List.mem_cons_self
  obtain rfl := List.mem_singleton.mp hmem
  revert hmatch
  show ¬ ("kc/device2/a".toList = "kc/device".toList ∨
    "kc/device".toList ++ ['/'] <+: "kc/device2/a".toList)
  decide

end DeviceSdk
