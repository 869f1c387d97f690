import DeviceSdk.Lib.Buffers

/-!
# Options on the command line

`processCmdLine` scans the arguments of a service for options. An option that takes a value has it
behind `=` in the same argument, or else in the next one. The scan cuts an argument at `=` while it
compares the name, and takes what belongs to an option out of the vector by moving the arguments
behind it forward.

## Main definitions

- `ValueOption`, `BoolOption` — the options with their names
- `testArg`, `testBool`, `consumeArgs` — the static helpers
- `scanStep`, `scanOptions` — the scan
- `SeparateValue`, `Occurs`, `Supplied`, `Remains` — what each argument is, by its text and place
- `ScanRight` — what a scan leaves

## Main results

- `scanOptions_result_iff` — where a scan succeeds
- `scanOptions_right`
-/

namespace DeviceSdk

open Buffers (Ptr Mem)

/-- The two names of an option. -/
structure OptionNames where
  short : String
  long : String
  deriving DecidableEq

/-- `strcmp` of a name with either of them. -/
def OptionNames.Is (names : OptionNames) (name : List Char) : Prop :=
  name = names.short.toList ∨ name = names.long.toList

instance (names : OptionNames) (name : List Char) : Decidable (names.Is name) :=
  inferInstanceAs (Decidable (_ ∨ _))

/-- The options that take a value. -/
inductive ValueOption
  | regURL | commonconffile | name | profile | confdir | conffile | remotehosts
  deriving DecidableEq

/-- The options that do not. -/
inductive BoolOption
  | overwriteconfig | devmode | overwritedevices | overwriteprofiles | usereg
  deriving DecidableEq

def ValueOption.names : ValueOption → OptionNames
  | regURL => ⟨"-cp", "--configProvider"⟩
  | commonconffile => ⟨"-cc", "--commonConfig"⟩
  | name => ⟨"-i", "--instance"⟩
  | profile => ⟨"-p", "--profile"⟩
  | confdir => ⟨"-cd", "--configDir"⟩
  | conffile => ⟨"-cf", "--configFile"⟩
  | remotehosts => ⟨"-rsh", "--remoteServiceHosts"⟩

def BoolOption.names : BoolOption → OptionNames
  | overwriteconfig => ⟨"-o", "--overwrite"⟩
  | devmode => ⟨"-d", "--dev"⟩
  | overwritedevices => ⟨"-od", "--overwriteDevices"⟩
  | overwriteprofiles => ⟨"-op", "--overwriteProfiles"⟩
  | usereg => ⟨"-r", "--registry"⟩

/-- The order in which the scan tests them. -/
def ValueOption.all : List ValueOption :=
  [regURL, commonconffile, name, profile, confdir, conffile, remotehosts]

def BoolOption.all : List BoolOption :=
  [overwriteconfig, devmode, overwritedevices, overwriteprofiles, usereg]

theorem ValueOption.mem_all (o : ValueOption) : o ∈ all := by cases o <;> decide

theorem BoolOption.mem_all (o : BoolOption) : o ∈ all := by cases o <;> decide

instance : Fintype ValueOption := ⟨⟨ValueOption.all, by decide⟩, ValueOption.mem_all⟩

instance : Fintype BoolOption := ⟨⟨BoolOption.all, by decide⟩, BoolOption.mem_all⟩

/-- The text of an argument. -/
abbrev argText (mem : Mem Char) (p : Ptr) : List Char := Buffers.text '\x00' mem p

/-- The variables of the scan: the strings, the vector with its length, the place in it, and the
    variable behind each option. -/
structure ScanState where
  mem : Mem Char
  argv : ℕ → Ptr
  argc : ℕ
  n : ℕ := 1
  result : Bool := true
  value : ValueOption → Option Ptr
  flag : BoolOption → Bool

namespace ScanState

/-- `testArg`. It gives nothing where the argument is not the option. -/
def testArg (s : ScanState) (arg : Ptr) (val : Option Ptr) (o : ValueOption) :
    Option ScanState :=
  if o.names.Is (argText s.mem arg) then
    match val with
    | some v =>
      if argText s.mem v ≠ [] then some { s with value := Function.update s.value o (some v) }
      else some { s with result := false }
    | none => some { s with result := false }
  else none

/-- `testBool`. -/
def testBool (s : ScanState) (arg : Ptr) (o : BoolOption) : Option ScanState :=
  if o.names.Is (argText s.mem arg) then some { s with flag := Function.update s.flag o true }
  else none

/-- The loop of `consumeArgs`, for `left` more arguments from `n` on. -/
def shiftArgs (nargs : ℕ) : ℕ → ℕ → (ℕ → Ptr) → ℕ → Ptr
  | 0, _, argv => argv
  | left + 1, n, argv =>
    shiftArgs nargs left (n + 1) (Function.update argv (n - nargs) (argv n))

/-- `consumeArgs`. -/
def consumeArgs (s : ScanState) (start nargs : ℕ) : ScanState :=
  { s with
    argv := shiftArgs nargs (s.argc - (start + nargs)) (start + nargs) s.argv
    argc := s.argc - nargs }

/-- The tests of one argument, of which the first that succeeds ends the rest. `used` is the number
    of arguments that an option with its value takes. -/
def takeArg (s : ScanState) (arg : Ptr) (val : Option Ptr) (used : ℕ) : ScanState :=
  match ValueOption.all.findSome? (s.testArg arg val) with
  | some s' => s'.consumeArgs s.n used
  | none =>
    match BoolOption.all.findSome? (s.testBool arg) with
    | some s' => s'.consumeArgs s.n 1
    | none => { s with n := s.n + 1 }

/-- The body of the loop in `processCmdLine`. -/
def scanStep (s : ScanState) : ScanState :=
  let arg := s.argv s.n
  match Buffers.find '\x00' s.mem arg '=' with
  | some eq =>
    let s' := { s with mem := Buffers.put s.mem eq '\x00' }.takeArg arg (some eq.next) 1
    { s' with mem := Buffers.put s'.mem eq '=' }
  | none =>
    s.takeArg arg (if s.n + 1 < s.argc then some (s.argv (s.n + 1)) else none) 2

/-- The loop. Each turn brings `n` and `argc` closer, so that `argc` turns are enough. -/
def scanLoop : ℕ → ScanState → ScanState
  | 0, s => s
  | fuel + 1, s => if s.result ∧ s.n < s.argc then scanLoop fuel s.scanStep else s

end ScanState

/-- The scan in `processCmdLine`, from the service that it is called for. -/
def scanOptions (mem : Mem Char) (argv : ℕ → Ptr) (argc : ℕ) (value : ValueOption → Option Ptr)
    (flag : BoolOption → Bool) : ScanState :=
  ScanState.scanLoop argc { mem, argv, argc, value, flag }

-- ════════════════════════════════════════════════════════════════════════
-- What the arguments are
-- ════════════════════════════════════════════════════════════════════════

section Arguments

variable (mem : Mem Char) (argv : ℕ → Ptr)

/-- An argument's text up to `=`. -/
def argName (i : ℕ) : List Char := Segments.head '=' (argText mem (argv i))

/-- An argument is the name of an option that takes a value, without the value. -/
def WantsNext (i : ℕ) : Prop :=
  '=' ∉ argText mem (argv i) ∧ ∃ o : ValueOption, o.names.Is (argName mem argv i)

/-- An argument is the value of the option in front of it, which is no such value itself. -/
def SeparateValue : ℕ → Prop
  | 0 => False
  | i + 1 => 1 ≤ i ∧ ¬SeparateValue i ∧ WantsNext mem argv i

/-- An argument is the option with these names. The first argument is the program. -/
def Occurs (names : OptionNames) (i : ℕ) : Prop :=
  1 ≤ i ∧ ¬SeparateValue mem argv i ∧ names.Is (argName mem argv i)

/-- The value that an argument gives to its option. -/
def valueAt (i : ℕ) : List Char :=
  if '=' ∈ argText mem (argv i) then Segments.rest '=' (argText mem (argv i))
  else argText mem (argv (i + 1))

/-- An argument is neither an option nor the separate value of one. -/
def Remains (i : ℕ) : Prop :=
  ¬SeparateValue mem argv i ∧ (∀ o : ValueOption, ¬Occurs mem argv o.names i) ∧
    ∀ o : BoolOption, ¬Occurs mem argv o.names i

/-- The option that an argument is gets a value, and not an empty one. -/
def Supplied (argc i : ℕ) : Prop :=
  valueAt mem argv i ≠ [] ∧ ('=' ∈ argText mem (argv i) ∨ i + 1 < argc)

instance (i : ℕ) : Decidable (WantsNext mem argv i) := inferInstanceAs (Decidable (_ ∧ _))

/-- The arguments in front of one decide what it is. -/
def decidableSeparateValue : (i : ℕ) → Decidable (SeparateValue mem argv i)
  | 0 => isFalse id
  | i + 1 =>
    have := decidableSeparateValue i
    inferInstanceAs (Decidable (1 ≤ i ∧ ¬SeparateValue mem argv i ∧ WantsNext mem argv i))

instance : DecidablePred (SeparateValue mem argv) := decidableSeparateValue mem argv

instance (names : OptionNames) : DecidablePred (Occurs mem argv names) :=
  fun _ => inferInstanceAs (Decidable (_ ∧ _))

instance : DecidablePred (Remains mem argv) := fun _ => inferInstanceAs (Decidable (_ ∧ _))

end Arguments

/-- The variables behind the options after the first `k` arguments: each flag set that occurs, and
    for each option that takes a value the last one that it was given. -/
structure OptionsSet (mem : Mem Char) (argv : ℕ → Ptr) (value value' : ValueOption → Option Ptr)
    (flag flag' : BoolOption → Bool) (k : ℕ) : Prop where
  last : ∀ (o : ValueOption) (i : ℕ), i < k → Occurs mem argv o.names i →
    (∀ j < k, i < j → ¬Occurs mem argv o.names j) →
      (value' o).map (argText mem) = some (valueAt mem argv i)
  absent : ∀ o : ValueOption, (∀ i < k, ¬Occurs mem argv o.names i) → value' o = value o
  flags : ∀ o : BoolOption, flag' o = true ↔
    flag o = true ∨ ∃ i < k, Occurs mem argv o.names i

/-- What a scan leaves: the strings as they were, in the vector the arguments that belong to no
    option, and the variables behind the options. -/
structure ScanRight (mem : Mem Char) (argv : ℕ → Ptr) (argc : ℕ)
    (value : ValueOption → Option Ptr) (flag : BoolOption → Bool) (s : ScanState) : Prop where
  strings : s.mem = mem
  remaining : (List.range s.argc).map s.argv =
    ((List.range argc).filter (Remains mem argv ·)).map argv
  options : OptionsSet mem argv value s.value flag s.flag argc

-- ════════════════════════════════════════════════════════════════════════
-- The tests of one argument
-- ════════════════════════════════════════════════════════════════════════

/-- Two options have no name in common. -/
def OptionNames.Apart (a b : OptionNames) : Prop :=
  (a.short ≠ b.short ∧ a.short ≠ b.long) ∧ a.long ≠ b.short ∧ a.long ≠ b.long

instance (a b : OptionNames) : Decidable (a.Apart b) := inferInstanceAs (Decidable (_ ∧ _))

theorem OptionNames.Apart.not_is {a b : OptionNames} (h : a.Apart b) {name : List Char}
    (ha : a.Is name) : ¬b.Is name := by
  obtain ⟨⟨hss, hsl⟩, hls, hll⟩ := h
  rintro hb
  obtain rfl | rfl := ha <;> obtain hb | hb := hb <;> rw [String.toList_inj] at hb
  · exact hss hb
  · exact hsl hb
  · exact hls hb
  · exact hll hb

theorem ValueOption.apart : ∀ o o' : ValueOption, o ≠ o' → o.names.Apart o'.names := by decide

theorem BoolOption.apart : ∀ o o' : BoolOption, o ≠ o' → o.names.Apart o'.names := by decide

theorem ValueOption.apart_bool (o : ValueOption) (o' : BoolOption) : o.names.Apart o'.names := by
  revert o o'
  decide

/-- A test that only one thing can pass finds that one. -/
theorem findSome?_of_unique {α β : Type*} {f : α → Option β} {l : List α} {a : α} (ha : a ∈ l)
    (h : ∀ b, b ≠ a → f b = none) : l.findSome? f = f a := by
  induction l with
  | nil => cases ha
  | cons b l ih =>
    rw [List.findSome?_cons]
    by_cases hb : b = a
    · rw [hb]
      cases hf : f a with
      | some c => rfl
      | none =>
        refine List.findSome?_eq_none_iff.mpr fun c _ => ?_
        by_cases hc : c = a
        · rw [hc, hf]
        · exact h c hc
    · rw [h b hb]
      exact ih (List.mem_of_ne_of_mem (Ne.symm hb) ha)

namespace ScanState

variable {s : ScanState} {arg : Ptr} {val : Option Ptr} {used : ℕ}

/-- The test of the one option that has this name decides. -/
theorem takeArg_testArg {o : ValueOption} (ho : o.names.Is (argText s.mem arg)) :
    ∃ s', s.testArg arg val o = some s' ∧ s.takeArg arg val used = s'.consumeArgs s.n used := by
  have hfind : ValueOption.all.findSome? (s.testArg arg val) = s.testArg arg val o :=
    findSome?_of_unique o.mem_all fun o' hne =>
      if_neg ((ValueOption.apart o o' (Ne.symm hne)).not_is ho)
  have htest : ∃ s', s.testArg arg val o = some s' := by
    cases val with
    | none => exact ⟨_, by rw [testArg, if_pos ho]⟩
    | some v =>
      rw [testArg, if_pos ho]
      split <;> exact ⟨_, rfl⟩
  obtain ⟨s', hs'⟩ := htest
  exact ⟨s', hs', by rw [takeArg, hfind, hs']⟩

/-- An option that takes a value is taken with it. A missing value ends the scan. -/
theorem takeArg_value {o : ValueOption} (ho : o.names.Is (argText s.mem arg))
    (hok : (s.takeArg arg val used).result = true) :
    ∃ v, val = some v ∧ s.takeArg arg val used =
      consumeArgs { s with value := Function.update s.value o (some v) } s.n used := by
  obtain ⟨s', hs', htake⟩ := @takeArg_testArg s arg val used o ho
  rw [htake] at hok ⊢
  cases val with
  | none =>
    rw [testArg, if_pos ho] at hs'
    obtain rfl := Option.some.inj hs'
    cases hok
  | some v =>
    rw [testArg, if_pos ho] at hs'
    by_cases hv : argText s.mem v ≠ []
    · rw [if_pos hv] at hs'
      obtain rfl := Option.some.inj hs'
      exact ⟨v, rfl, rfl⟩
    · rw [if_neg hv] at hs'
      obtain rfl := Option.some.inj hs'
      cases hok

/-- The scan goes on where the value is there and not empty. -/
theorem takeArg_value_result {o : ValueOption} (ho : o.names.Is (argText s.mem arg)) :
    (s.takeArg arg val used).result = true ↔
      s.result = true ∧ ∃ v, val = some v ∧ argText s.mem v ≠ [] := by
  obtain ⟨s', hs', htake⟩ := @takeArg_testArg s arg val used o ho
  rw [htake]
  show s'.result = true ↔ _
  cases val with
  | none =>
    rw [testArg, if_pos ho] at hs'
    obtain rfl := Option.some.inj hs'
    simp
  | some v =>
    rw [testArg, if_pos ho] at hs'
    by_cases hv : argText s.mem v ≠ []
    · rw [if_pos hv] at hs'
      obtain rfl := Option.some.inj hs'
      simp [hv]
    · rw [if_neg hv] at hs'
      obtain rfl := Option.some.inj hs'
      simpa using fun _ => not_not.mp hv

/-- No other name is that of an option that takes a value. -/
theorem findSome?_testArg_eq_none (h : ∀ o : ValueOption, ¬o.names.Is (argText s.mem arg)) :
    ValueOption.all.findSome? (s.testArg arg val) = none :=
  List.findSome?_eq_none_iff.mpr fun o _ => if_neg (h o)

theorem takeArg_flag {o : BoolOption} (ho : o.names.Is (argText s.mem arg)) :
    s.takeArg arg val used =
      consumeArgs { s with flag := Function.update s.flag o true } s.n 1 := by
  have hvalue (o' : ValueOption) : ¬o'.names.Is (argText s.mem arg) :=
    fun h => (o'.apart_bool o).not_is h ho
  have hfind : BoolOption.all.findSome? (s.testBool arg) = s.testBool arg o :=
    findSome?_of_unique o.mem_all fun o' hne =>
      if_neg ((BoolOption.apart o o' (Ne.symm hne)).not_is ho)
  rw [takeArg, findSome?_testArg_eq_none hvalue, hfind, testBool, if_pos ho]

theorem takeArg_other (hvalue : ∀ o : ValueOption, ¬o.names.Is (argText s.mem arg))
    (hflag : ∀ o : BoolOption, ¬o.names.Is (argText s.mem arg)) :
    s.takeArg arg val used = { s with n := s.n + 1 } := by
  have hfind : BoolOption.all.findSome? (s.testBool arg) = none :=
    List.findSome?_eq_none_iff.mpr fun o _ => if_neg (hflag o)
  rw [takeArg, findSome?_testArg_eq_none hvalue, hfind]

-- ════════════════════════════════════════════════════════════════════════
-- One turn of the loop
-- ════════════════════════════════════════════════════════════════════════

/-- The text of the argument that a turn looks at. -/
def current (s : ScanState) : List Char := argText s.mem (s.argv s.n)

/-- Where the value of an option is, and how many arguments it takes with the option. -/
structure ValueOf (s : ScanState) (v : Ptr) (used : ℕ) : Prop where
  inside : '=' ∈ s.current → used = 1 ∧ argText s.mem v = Segments.rest '=' s.current
  behind : '=' ∉ s.current → used = 2 ∧ s.n + 1 < s.argc ∧ v = s.argv (s.n + 1)

theorem head_current_of_notMem (h : '=' ∉ s.current) : Segments.head '=' s.current = s.current := by
  obtain ⟨-, h', -⟩ | ⟨-, h'⟩ := Segments.head_rest '=' s.current
  · exact h'
  · exact absurd (h' ▸ List.mem_append_right _ List.mem_cons_self) h

theorem scanStep_value {o : ValueOption} (ho : o.names.Is (Segments.head '=' s.current))
    (hok : s.scanStep.result = true) :
    ∃ v used, s.ValueOf v used ∧ s.scanStep =
      consumeArgs { s with value := Function.update s.value o (some v) } s.n used := by
  rw [scanStep] at hok ⊢
  cases hfind : Buffers.find '\x00' s.mem (s.argv s.n) '=' with
  | none =>
    have hmem : '=' ∉ s.current := Buffers.find_eq_none_iff.mp hfind
    rw [head_current_of_notMem hmem] at ho
    simp only [hfind] at hok ⊢
    obtain ⟨v, hv, htake⟩ := takeArg_value ho hok
    split at hv
    case isFalse => cases hv
    case isTrue hlt =>
      exact ⟨v, 2, ⟨fun h => absurd h hmem, fun _ => ⟨rfl, hlt, (Option.some.inj hv).symm⟩⟩, htake⟩
  | some eq =>
    have hmem : '=' ∈ s.current := by
      by_contra hmem
      rw [Buffers.find_eq_none_iff.mpr hmem] at hfind
      cases hfind
    rw [current, ← Buffers.text_cut hfind] at ho
    simp only [hfind] at hok ⊢
    obtain ⟨v, hv, htake⟩ := takeArg_value ho hok
    obtain rfl := Option.some.inj hv
    refine ⟨eq.next, 1, ⟨fun _ => ⟨rfl, Buffers.text_next hfind⟩, fun h => absurd hmem h⟩, ?_⟩
    rw [htake]
    simp only [consumeArgs, Buffers.put_put hfind]

/-- A turn at an option that takes a value ends the scan where there is no value, or an empty
    one. -/
theorem scanStep_value_result {o : ValueOption} (hres : s.result = true)
    (ho : o.names.Is (Segments.head '=' s.current)) :
    s.scanStep.result = true ↔
      if '=' ∈ s.current then Segments.rest '=' s.current ≠ []
      else s.n + 1 < s.argc ∧ argText s.mem (s.argv (s.n + 1)) ≠ [] := by
  rw [scanStep]
  cases hfind : Buffers.find '\x00' s.mem (s.argv s.n) '=' with
  | none =>
    have hmem : '=' ∉ s.current := Buffers.find_eq_none_iff.mp hfind
    rw [head_current_of_notMem hmem] at ho
    rw [if_neg hmem]
    dsimp only
    rw [takeArg_value_result ho]
    by_cases hlt : s.n + 1 < s.argc <;> simp [hlt, hres]
  | some eq =>
    have hmem : '=' ∈ s.current := by
      by_contra hmem
      rw [Buffers.find_eq_none_iff.mpr hmem] at hfind
      cases hfind
    rw [current, ← Buffers.text_cut hfind] at ho
    rw [if_pos hmem]
    dsimp only
    rw [takeArg_value_result ho]
    have hval : argText (Buffers.put s.mem eq '\x00') eq.next = Segments.rest '=' s.current := by
      rw [argText, Buffers.text_put_next hfind, Buffers.text_next hfind, current]
    simp [hres, hval]

theorem scanStep_flag {o : BoolOption} (ho : o.names.Is (Segments.head '=' s.current)) :
    s.scanStep = consumeArgs { s with flag := Function.update s.flag o true } s.n 1 := by
  rw [scanStep]
  cases hfind : Buffers.find '\x00' s.mem (s.argv s.n) '=' with
  | none =>
    rw [head_current_of_notMem (Buffers.find_eq_none_iff.mp hfind)] at ho
    exact takeArg_flag ho
  | some eq =>
    rw [current, ← Buffers.text_cut hfind] at ho
    dsimp only
    rw [takeArg_flag ho]
    simp only [consumeArgs, Buffers.put_put hfind]

theorem scanStep_other (hvalue : ∀ o : ValueOption, ¬o.names.Is (Segments.head '=' s.current))
    (hflag : ∀ o : BoolOption, ¬o.names.Is (Segments.head '=' s.current)) :
    s.scanStep = { s with n := s.n + 1 } := by
  rw [scanStep]
  cases hfind : Buffers.find '\x00' s.mem (s.argv s.n) '=' with
  | none =>
    rw [head_current_of_notMem (Buffers.find_eq_none_iff.mp hfind)] at hvalue hflag
    exact takeArg_other hvalue hflag
  | some eq =>
    rw [current, ← Buffers.text_cut hfind] at hvalue hflag
    dsimp only
    rw [takeArg_other hvalue hflag]
    simp only [Buffers.put_put hfind]

/-- A scan that has failed stays as it is. -/
theorem scanLoop_of_result_eq_false (h : s.result = false) (fuel : ℕ) : scanLoop fuel s = s := by
  cases fuel with
  | zero => rfl
  | succ fuel => rw [scanLoop, if_neg (by simp [h])]

/-- The arguments behind those that are taken move forward. -/
theorem shiftArgs_apply {nargs n : ℕ} (hpos : 0 < nargs) (hn : nargs ≤ n) (left : ℕ)
    (argv : ℕ → Ptr) (i : ℕ) :
    shiftArgs nargs left n argv i =
      if n ≤ i + nargs ∧ i + nargs < n + left then argv (i + nargs) else argv i := by
  induction left generalizing n argv with
  | zero => rw [shiftArgs, if_neg (by omega)]
  | succ left ih =>
    rw [shiftArgs, ih (by omega)]
    by_cases hi : i = n - nargs
    · have hin : i + nargs = n := by omega
      rw [if_neg (by omega), if_pos (by omega), hi, Function.update_self, ← hi, hin]
    · by_cases hmoved : n ≤ i + nargs ∧ i + nargs < n + (left + 1)
      · rw [if_pos (by omega), if_pos hmoved, Function.update_of_ne (by omega)]
      · rw [if_neg (by omega), if_neg hmoved, Function.update_of_ne hi]

section Consume

variable {nargs : ℕ} (hpos : 0 < nargs) (s : ScanState)
include hpos

theorem consumeArgs_front {start i : ℕ} (hi : i < start) :
    (s.consumeArgs start nargs).argv i = s.argv i := by
  show shiftArgs nargs _ _ _ i = _
  rw [shiftArgs_apply hpos (by omega), if_neg (by omega)]

theorem consumeArgs_back {start i : ℕ} (hi : start ≤ i) (hlt : i + nargs < s.argc) :
    (s.consumeArgs start nargs).argv i = s.argv (i + nargs) := by
  show shiftArgs nargs _ _ _ i = _
  rw [shiftArgs_apply hpos (by omega), if_pos (by omega)]

end Consume

end ScanState

-- ════════════════════════════════════════════════════════════════════════
-- The scan
-- ════════════════════════════════════════════════════════════════════════

namespace OptionsSet

variable {mem : Mem Char} {argv : ℕ → Ptr} {value value' : ValueOption → Option Ptr}
  {flag flag' : BoolOption → Bool} {k : ℕ}

protected theorem zero : OptionsSet mem argv value value flag flag 0 where
  last _ _ hi := absurd hi (Nat.not_lt_zero _)
  absent _ _ := rfl
  flags _ := by simp

/-- An argument that is no option changes nothing. -/
theorem skip (h : OptionsSet mem argv value value' flag flag' k)
    (hvalue : ∀ o : ValueOption, ¬Occurs mem argv o.names k)
    (hflag : ∀ o : BoolOption, ¬Occurs mem argv o.names k) :
    OptionsSet mem argv value value' flag flag' (k + 1) where
  last o i hi hocc hlast := by
    have hne : i ≠ k := fun he => hvalue o (he ▸ hocc)
    exact h.last o i (by omega) hocc fun j hj => hlast j (by omega)
  absent o hno := h.absent o fun i hi => hno i (by omega)
  flags o := by
    rw [h.flags, Nat.exists_lt_succ_right]
    simp [hflag o]

/-- An option that takes a value has the one that it is given last. -/
theorem setValue (h : OptionsSet mem argv value value' flag flag' k) {o : ValueOption}
    (ho : Occurs mem argv o.names k) {v : Ptr} (hv : argText mem v = valueAt mem argv k) :
    OptionsSet mem argv value (Function.update value' o (some v)) flag flag' (k + 1) where
  last o' i hi hocc hlast := by
    by_cases he : o' = o
    · have hik : i = k := by
        by_contra hne
        exact hlast k (by omega) (by omega) (he ▸ ho)
      rw [he, Function.update_self, hik, Option.map_some, hv]
    · have hne : i ≠ k := by
        rintro rfl
        exact (ValueOption.apart o' o he).not_is hocc.2.2 ho.2.2
      rw [Function.update_of_ne he]
      exact h.last o' i (by omega) hocc fun j hj => hlast j (by omega)
  absent o' hno := by
    have he : o' ≠ o := fun he => hno k (by omega) (he ▸ ho)
    rw [Function.update_of_ne he]
    exact h.absent o' fun i hi => hno i (by omega)
  flags o' := by
    have hno : ¬Occurs mem argv o'.names k := fun hocc =>
      (o.apart_bool o').not_is ho.2.2 hocc.2.2
    rw [h.flags, Nat.exists_lt_succ_right]
    simp [hno]

theorem setFlag (h : OptionsSet mem argv value value' flag flag' k) {o : BoolOption}
    (ho : Occurs mem argv o.names k) :
    OptionsSet mem argv value value' flag (Function.update flag' o true) (k + 1) where
  last o' i hi hocc hlast := by
    have hne : i ≠ k := by
      rintro rfl
      exact (o'.apart_bool o).not_is hocc.2.2 ho.2.2
    exact h.last o' i (by omega) hocc fun j hj => hlast j (by omega)
  absent o' hno := h.absent o' fun i hi => hno i (by omega)
  flags o' := by
    rw [Nat.exists_lt_succ_right]
    by_cases he : o' = o
    · simp [he, ho]
    · have hno : ¬Occurs mem argv o'.names k := fun hocc =>
        (BoolOption.apart o' o he).not_is hocc.2.2 ho.2.2
      rw [Function.update_of_ne he, h.flags]
      simp [hno]

end OptionsSet

/-- Between two turns. The first `k` arguments have been read. In front of `n` stand those of them
    that remain, and from `n` on the ones that have not been read. -/
structure ScanAt (mem : Mem Char) (argv : ℕ → Ptr) (argc : ℕ)
    (value : ValueOption → Option Ptr) (flag : BoolOption → Bool) (k : ℕ) (s : ScanState) :
    Prop where
  strings : s.mem = mem
  result : s.result = true
  pos : 1 ≤ k
  le : k ≤ argc
  place : s.n + argc = s.argc + k
  unread : ¬SeparateValue mem argv k
  front : (List.range s.n).map s.argv = ((List.range k).filter (Remains mem argv ·)).map argv
  back : ∀ j, k + j < argc → s.argv (s.n + j) = argv (k + j)
  options : OptionsSet mem argv value s.value flag s.flag k

namespace ScanAt

variable {mem : Mem Char} {argv : ℕ → Ptr} {argc : ℕ} {value : ValueOption → Option Ptr}
  {flag : BoolOption → Bool} {k : ℕ} {s : ScanState}

theorem occurs_iff (h : ScanAt mem argv argc value flag k s) (names : OptionNames) :
    Occurs mem argv names k ↔ names.Is (argName mem argv k) :=
  ⟨fun hocc => hocc.2.2, fun his => ⟨h.pos, h.unread, his⟩⟩

theorem current_eq (h : ScanAt mem argv argc value flag k s) (hlt : s.n < s.argc) :
    s.current = argText mem (argv k) := by
  have hplace := h.place
  rw [ScanState.current, h.strings, ← Nat.add_zero s.n, h.back 0 (by omega), Nat.add_zero]

/-- An argument that is left where it is. -/
theorem advance (h : ScanAt mem argv argc value flag k s) (hlt : s.n < s.argc)
    (hremains : Remains mem argv k) (hunread : ¬SeparateValue mem argv (k + 1)) :
    ScanAt mem argv argc value flag (k + 1) { s with n := s.n + 1 } where
  strings := h.strings
  result := h.result
  pos := by omega
  le := by
    have hplace := h.place
    omega
  place := by
    have hplace := h.place
    show s.n + 1 + argc = s.argc + (k + 1)
    omega
  unread := hunread
  front := by
    have hplace := h.place
    have hk : s.argv s.n = argv k := by
      have hback := h.back 0 (by omega)
      simpa using hback
    rw [List.range_succ, List.range_succ, List.map_append, List.filter_append, List.map_append,
      h.front, List.filter_singleton]
    simp [hremains, hk]
  back j hj := by
    have hback := h.back (j + 1) (by omega)
    show s.argv (s.n + 1 + j) = argv (k + 1 + j)
    rw [show k + 1 + j = k + (j + 1) by omega, ← hback, show s.n + 1 + j = s.n + (j + 1) by omega]
  options := h.options.skip hremains.2.1 hremains.2.2

/-- Arguments that belong to an option are taken out. -/
theorem consume (h : ScanAt mem argv argc value flag k s) {used : ℕ} (hpos : 0 < used)
    (hle : k + used ≤ argc) (hgone : ∀ i, k ≤ i → i < k + used → ¬Remains mem argv i)
    (hunread : ¬SeparateValue mem argv (k + used)) {value' : ValueOption → Option Ptr}
    {flag' : BoolOption → Bool} (hset : OptionsSet mem argv value value' flag flag' (k + used)) :
    ScanAt mem argv argc value flag (k + used)
      (ScanState.consumeArgs { s with value := value', flag := flag' } s.n used) where
  strings := h.strings
  result := h.result
  pos := by omega
  le := hle
  place := by
    have hplace := h.place
    show s.n + argc = s.argc - used + (k + used)
    omega
  unread := hunread
  front := by
    have hempty : ((List.range used).map (k + ·)).filter (Remains mem argv ·) = [] := by
      rw [List.filter_eq_nil_iff]
      intro i hi
      obtain ⟨j, hj, rfl⟩ := List.mem_map.mp hi
      simpa using hgone (k + j) (by omega) (by have := List.mem_range.mp hj; omega)
    rw [List.range_add, List.filter_append, hempty, List.append_nil, ← h.front]
    refine List.map_congr_left fun i hi => ?_
    exact ScanState.consumeArgs_front hpos _ (List.mem_range.mp hi)
  back j hj := by
    have hplace := h.place
    have hback := h.back (used + j) (by omega)
    show (ScanState.consumeArgs _ s.n used).argv (s.n + j) = _
    rw [ScanState.consumeArgs_back hpos _ (by omega) (by show s.n + j + used < s.argc; omega)]
    show s.argv (s.n + j + used) = argv (k + used + j)
    rw [show k + used + j = k + (used + j) by omega, ← hback,
      show s.n + j + used = s.n + (used + j) by omega]
  options := hset

theorem head_current (h : ScanAt mem argv argc value flag k s) (hlt : s.n < s.argc) :
    Segments.head '=' s.current = argName mem argv k := by
  rw [h.current_eq hlt, argName]

/-- A turn at an option that takes a value reads it, and the value with it. -/
theorem step_value (h : ScanAt mem argv argc value flag k s) (hlt : s.n < s.argc)
    (hok : s.scanStep.result = true) {o : ValueOption} (ho : o.names.Is (argName mem argv k)) :
    ∃ k', k < k' ∧ (∀ names i, k < i → i < k' → ¬Occurs mem argv names i) ∧
      ScanAt mem argv argc value flag k' s.scanStep := by
  have hplace := h.place
  have hcur : s.current = argText mem (argv k) := h.current_eq hlt
  have hocc : Occurs mem argv o.names k := (h.occurs_iff _).mpr ho
  have hgone : ¬Remains mem argv k := fun hr => hr.2.1 o hocc
  obtain ⟨v, used, hv, hstep⟩ := ScanState.scanStep_value (h.head_current hlt ▸ ho) hok
  rw [hstep]
  by_cases heq : '=' ∈ argText mem (argv k)
  · obtain ⟨rfl, hval⟩ := hv.inside (hcur ▸ heq)
    have hunread : ¬SeparateValue mem argv (k + 1) := fun hs => hs.2.2.1 heq
    rw [h.strings, hcur] at hval
    refine ⟨k + 1, by omega, by omega, h.consume one_pos (by omega) ?_ hunread
      (h.options.setValue hocc (by rw [hval, valueAt, if_pos heq]))⟩
    intro i hi hi'
    rwa [show i = k by omega]
  · obtain ⟨rfl, hnext, rfl⟩ := hv.behind (hcur ▸ heq)
    have hsep : SeparateValue mem argv (k + 1) := ⟨h.pos, h.unread, heq, o, ho⟩
    have hno (names : OptionNames) : ¬Occurs mem argv names (k + 1) := fun hs => hs.2.1 hsep
    have hunread : ¬SeparateValue mem argv (k + 2) := fun hs => hs.2.1 hsep
    have hval : argText mem (s.argv (s.n + 1)) = valueAt mem argv k := by
      rw [valueAt, if_neg heq, h.back 1 (by omega)]
    refine ⟨k + 2, by omega, ?_, h.consume two_pos (by omega) ?_ hunread
      ((h.options.setValue hocc hval).skip (fun o => hno o.names) fun o => hno o.names)⟩
    · intro names i hi hi'
      obtain rfl : i = k + 1 := by omega
      exact hno names
    · intro i hi hi'
      obtain rfl | rfl : i = k ∨ i = k + 1 := by omega
      · exact hgone
      · exact fun hr => hr.1 hsep

/-- A turn reads an argument, and with it the value in the next one where it takes that. -/
theorem step (h : ScanAt mem argv argc value flag k s) (hlt : s.n < s.argc)
    (hok : s.scanStep.result = true) :
    ∃ k', k < k' ∧ (∀ names i, k < i → i < k' → ¬Occurs mem argv names i) ∧
      ScanAt mem argv argc value flag k' s.scanStep := by
  have hplace := h.place
  have hname := h.head_current hlt
  by_cases hvalue : ∃ o : ValueOption, o.names.Is (argName mem argv k)
  · obtain ⟨o, ho⟩ := hvalue
    exact h.step_value hlt hok ho
  · have hunread : ¬SeparateValue mem argv (k + 1) := fun hs => hvalue hs.2.2.2
    rw [not_exists] at hvalue
    by_cases hflag : ∃ o : BoolOption, o.names.Is (argName mem argv k)
    · obtain ⟨o, ho⟩ := hflag
      have hocc : Occurs mem argv o.names k := (h.occurs_iff _).mpr ho
      rw [ScanState.scanStep_flag (hname ▸ ho)]
      refine ⟨k + 1, by omega, by omega, h.consume one_pos (by omega) ?_ hunread
        (h.options.setFlag hocc)⟩
      intro i hi hi'
      rw [show i = k by omega]
      exact fun hr => hr.2.2 o hocc
    · rw [not_exists] at hflag
      rw [ScanState.scanStep_other (hname ▸ hvalue) (hname ▸ hflag)]
      refine ⟨k + 1, by omega, by omega, h.advance hlt ⟨h.unread, ?_, ?_⟩ hunread⟩
      · exact fun o ho => hvalue o ho.2.2
      · exact fun o ho => hflag o ho.2.2

/-- The loop reads all arguments, unless it finds an option without its value. -/
theorem loop (h : ScanAt mem argv argc value flag k s) {fuel : ℕ} (hfuel : argc ≤ fuel + k)
    (hok : (ScanState.scanLoop fuel s).result = true) :
    ScanAt mem argv argc value flag argc (ScanState.scanLoop fuel s) := by
  induction fuel generalizing k s with
  | zero =>
    have hk : k = argc := by
      have hle := h.le
      omega
    exact hk ▸ h
  | succ fuel ih =>
    have hplace := h.place
    have hle := h.le
    rw [ScanState.scanLoop] at hok ⊢
    by_cases hlt : s.n < s.argc
    · have hturn : s.result = true ∧ s.n < s.argc := ⟨h.result, hlt⟩
      rw [if_pos hturn] at hok ⊢
      have hres : s.scanStep.result = true := by
        cases hr : s.scanStep.result with
        | true => rfl
        | false => rw [ScanState.scanLoop_of_result_eq_false hr, hr] at hok; cases hok
      obtain ⟨k', hk', -, h'⟩ := h.step hlt hres
      exact ih h' (by omega) hok
    · rw [if_neg fun hturn => hlt hturn.2]
      have hk : k = argc := by omega
      exact hk ▸ h

/-- A turn fails only at an option that takes a value and gets none. -/
theorem step_result (h : ScanAt mem argv argc value flag k s) (hlt : s.n < s.argc) :
    s.scanStep.result = true ↔
      ∀ o : ValueOption, Occurs mem argv o.names k → Supplied mem argv argc k := by
  have hplace := h.place
  have hcur : s.current = argText mem (argv k) := h.current_eq hlt
  have hname := h.head_current hlt
  by_cases hvalue : ∃ o : ValueOption, o.names.Is (argName mem argv k)
  · obtain ⟨o, ho⟩ := hvalue
    have hocc : Occurs mem argv o.names k := (h.occurs_iff _).mpr ho
    have hsupplied : s.scanStep.result = true ↔ Supplied mem argv argc k := by
      rw [ScanState.scanStep_value_result h.result (hname ▸ ho), hcur, h.strings, Supplied, valueAt]
      by_cases heq : '=' ∈ argText mem (argv k)
      · simp [heq]
      · have hnext : s.n + 1 < s.argc ↔ k + 1 < argc := by omega
        rw [if_neg heq, if_neg heq, hnext, and_comm, or_iff_right heq]
        refine and_congr_left fun hk => ?_
        rw [h.back 1 hk]
    exact hsupplied.trans ⟨fun hs _ _ => hs, fun hs => hs o hocc⟩
  · rw [not_exists] at hvalue
    refine iff_of_true ?_ fun o hocc => absurd ((h.occurs_iff _).mp hocc) (hvalue o)
    by_cases hflag : ∃ o : BoolOption, o.names.Is (argName mem argv k)
    · obtain ⟨o, ho⟩ := hflag
      rw [ScanState.scanStep_flag (hname ▸ ho)]
      exact h.result
    · rw [not_exists] at hflag
      rw [ScanState.scanStep_other (hname ▸ hvalue) (hname ▸ hflag)]
      exact h.result

theorem loop_result (h : ScanAt mem argv argc value flag k s) {fuel : ℕ}
    (hfuel : argc ≤ fuel + k) :
    (ScanState.scanLoop fuel s).result = true ↔
      ∀ (o : ValueOption) (i : ℕ), k ≤ i → i < argc → Occurs mem argv o.names i →
        Supplied mem argv argc i := by
  induction fuel generalizing k s with
  | zero =>
    have hle := h.le
    exact iff_of_true h.result fun _ i hi hlt => by omega
  | succ fuel ih =>
    have hplace := h.place
    have hle := h.le
    rw [ScanState.scanLoop]
    by_cases hlt : s.n < s.argc
    · rw [if_pos ⟨h.result, hlt⟩]
      by_cases hok : s.scanStep.result = true
      · obtain ⟨k', hk', hbetween, h'⟩ := h.step hlt hok
        rw [ih h' (by omega)]
        constructor
        · intro hall o i hi hi' hocc
          rcases Nat.lt_or_ge i k' with hik | hik
          · obtain rfl | hki : i = k ∨ k < i := by omega
            · exact (h.step_result hlt).mp hok o hocc
            · exact absurd hocc (hbetween _ i hki hik)
          · exact hall o i hik hi' hocc
        · exact fun hall o i hi => hall o i (by omega)
      · rw [ScanState.scanLoop_of_result_eq_false (Bool.eq_false_iff.mpr hok)]
        refine iff_of_false hok fun hall => hok ((h.step_result hlt).mpr fun o hocc => ?_)
        exact hall o k le_rfl (by omega) hocc
    · rw [if_neg fun hturn => hlt hturn.2]
      exact iff_of_true h.result fun _ i hi hlt' => by omega

/-- In front of the first turn. The program's name is no option. -/
theorem start (mem : Mem Char) (argv : ℕ → Ptr) {argc : ℕ} (hpos : 0 < argc)
    (value : ValueOption → Option Ptr) (flag : BoolOption → Bool) :
    ScanAt mem argv argc value flag 1 { mem, argv, argc, value, flag } := by
  have hno (names : OptionNames) : ¬Occurs mem argv names 0 := fun hocc =>
    Nat.not_succ_le_zero 0 hocc.1
  have hfirst : Remains mem argv 0 := ⟨id, fun o => hno o.names, fun o => hno o.names⟩
  have hset : OptionsSet mem argv value value flag flag 0 := .zero
  exact
    { strings := rfl
      result := rfl
      pos := le_rfl
      le := hpos
      place := Nat.add_comm _ _
      unread := fun hs => Nat.not_succ_le_zero 0 hs.1
      front := by simp [hfirst]
      back := fun _ _ => rfl
      options := hset.skip (fun o => hno o.names) fun o => hno o.names }

end ScanAt

section Scan

variable (mem : Mem Char) (argv : ℕ → Ptr) (argc : ℕ) (value : ValueOption → Option Ptr)
  (flag : BoolOption → Bool)

/-- The scan succeeds where each option that takes a value has one. -/
theorem scanOptions_result_iff :
    (scanOptions mem argv argc value flag).result = true ↔
      ∀ (o : ValueOption) (i : ℕ), i < argc → Occurs mem argv o.names i →
        Supplied mem argv argc i := by
  rcases Nat.eq_zero_or_pos argc with rfl | hpos
  · exact iff_of_true rfl fun _ i hi => absurd hi (Nat.not_lt_zero i)
  · rw [scanOptions, (ScanAt.start mem argv hpos value flag).loop_result (by omega)]
    constructor
    · exact fun hall o i hi hocc => hall o i hocc.1 hi hocc
    · exact fun hall o i _ hi => hall o i hi

variable (h : (scanOptions mem argv argc value flag).result = true)
include h

/-- The options after a scan that succeeds. -/
theorem scanOptions_options :
    OptionsSet mem argv value (scanOptions mem argv argc value flag).value flag
      (scanOptions mem argv argc value flag).flag argc := by
  rcases Nat.eq_zero_or_pos argc with rfl | hpos
  · exact .zero
  · exact ((ScanAt.start mem argv hpos value flag).loop (by omega) h).options

/-- The strings and the vector. -/
theorem scanOptions_vector :
    (scanOptions mem argv argc value flag).mem = mem ∧
      (List.range (scanOptions mem argv argc value flag).argc).map
          (scanOptions mem argv argc value flag).argv =
        ((List.range argc).filter (Remains mem argv ·)).map argv := by
  rcases Nat.eq_zero_or_pos argc with rfl | hpos
  · exact ⟨rfl, rfl⟩
  · have hend := (ScanAt.start mem argv hpos value flag).loop (by omega) h
    have hn : (scanOptions mem argv argc value flag).n =
        (scanOptions mem argv argc value flag).argc := by
      have hplace := hend.place
      exact Nat.add_right_cancel hplace
    exact ⟨hend.strings, hn ▸ hend.front⟩

end Scan

/-- Where the scan succeeds, the vector holds the arguments that are neither options nor their
    separate values, in order and with their text, and each option the value that it was given
    last. -/
theorem scanOptions_right (mem : Mem Char) (argv : ℕ → Ptr) (argc : ℕ)
    (value : ValueOption → Option Ptr) (flag : BoolOption → Bool)
    (h : (scanOptions mem argv argc value flag).result = true) :
    ScanRight mem argv argc value flag (scanOptions mem argv argc value flag) := by
  obtain ⟨hmem, hremaining⟩ := scanOptions_vector mem argv argc value flag h
  exact ⟨hmem, hremaining, scanOptions_options mem argv argc value flag h⟩

/-- A vector of these arguments, each in a buffer of its own. -/
def plainArgs (args : List String) : Mem Char := fun i => (args[i]?.getD "").toList

/-- Options in each of the three spellings, one of them twice. -/
def mixedArgs : List String := ["prog", "-cp=a=b", "x=y", "-i", "one", "-o", "--instance=two"]

theorem scanOptions_right_mixed :
    (scanOptions (plainArgs mixedArgs) (fun i => ⟨i, 0⟩) 7 (fun _ => none)
      fun _ => false).result = true ∧
    ScanRight (plainArgs mixedArgs) (fun i => ⟨i, 0⟩) 7 (fun _ => none) (fun _ => false)
      (scanOptions (plainArgs mixedArgs) (fun i => ⟨i, 0⟩) 7 (fun _ => none) fun _ => false) :=
  have hok : (scanOptions (plainArgs mixedArgs) (fun i => ⟨i, 0⟩) 7 (fun _ => none)
      fun _ => false).result = true := by decide +kernel
  ⟨hok, scanOptions_right _ _ _ _ _ hok⟩

end DeviceSdk
