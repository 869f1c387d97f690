import DeviceSdk.Lib.Run
import DeviceSdk.Types

/-!
# The watch list

`watchers.c`: the list of provision watchers, and the search for a watcher that accepts
the identifiers of a discovered device. A watcher holds its identifiers twice, as they
came from core-metadata and as compiled expressions; the search reads the second copy.
POSIX expressions are a parameter: `regcomp` gives the matcher of an expression that
compiles.

## Main definitions

- `Watcher`, `watcherDup` — a provision watcher and `edgex_watcher_dup`
- `Watchlist.populate`, `updateWatcher`, `removeWatcher` — the operations on the list
- `Watchlist.matchpw`, `Watchlist.firstMatch` — the search
- `Watcher.Satisfied` — what it means that identifiers satisfy a watcher

## Main results

- `watchlist_finds_satisfied` — along a run, the search finds exactly what is satisfied
-/

namespace DeviceSdk

/-- A compiled expression, as `regexec` uses it. -/
abbrev Preg := String → Bool

/-- `edgex_watcher`. -/
structure Watcher where
  name : String
  identifiers : Option IotData
  regs : List (String × Preg) := []
  blockingIdentifiers : Option IotData := none
  profile : String := ""
  adminstate : AdminState := .unlocked
  autoevents : List AutoEvent := []
  enabled : Bool := true

/-- `edgex_watcher_dup`. The compiled expressions are not copied. -/
def watcherDup (e : Watcher) : Watcher := { e with regs := [] }

namespace IotData

/-- What an iteration over a map visits. -/
def mapEntries : Option IotData → List (String × IotData)
  | some (.map entries) => entries
  | _ => []

/-- `iot_data_vector_find` with `iot_data_equal`. -/
def vectorFind (d checkval : IotData) : Bool :=
  match d with
  | .vector xs => xs.any fun x => x.equal checkval
  | _ => false

end IotData

open IotData (mapEntries vectorFind stringMapGet stringMapGetString)

/-- `regcomp` on the value of an identifier. Only text is an expression. -/
def compile (regcomp : String → Option Preg) : IotData → Option Preg
  | .string s => regcomp s
  | _ => none

namespace Watchlist

variable (regcomp : String → Option Preg)

/-- The loop of `add_locked`. An expression that does not compile leaves no trace. -/
def compileAll (entries : List (String × IotData)) : List (String × Preg) :=
  entries.foldl
    (fun regs e =>
      match compile regcomp e.2 with
      | some preg => (e.1, preg) :: regs
      | none => regs)
    []

/-- `add_locked`. -/
def addLocked (wl : List Watcher) (w : Watcher) : List Watcher :=
  match w.identifiers with
  | some (.map entries) => { watcherDup w with regs := compileAll regcomp entries } :: wl
  | _ => wl

/-- `find_locked` finds a watcher of that name. -/
def present (wl : List Watcher) (name : String) : Bool := wl.any fun w => decide (w.name = name)

/-- `edgex_watchlist_remove_watcher`. -/
def removeWatcher (wl : List Watcher) (name : String) : Bool × List Watcher :=
  (present wl name, wl.eraseP fun w => decide (w.name = name))

/-- The write through the pointer that `find_locked` returned. -/
def replaceFound (updated : Watcher) : List Watcher → List Watcher
  | [] => []
  | w :: wl =>
    if w.name = updated.name then watcherDup updated :: wl else w :: replaceFound updated wl

/-- `edgex_watchlist_update_watcher`. -/
def updateWatcher (wl : List Watcher) (updated : Watcher) : List Watcher :=
  if present wl updated.name then replaceFound updated wl else addLocked regcomp wl updated

/-- One turn of the loop in `edgex_watchlist_populate`. -/
def populateOne (r : ℕ × List Watcher) (w : Watcher) : ℕ × List Watcher :=
  if present r.2 w.name then r else (r.1 + 1, addLocked regcomp r.2 w)

/-- `edgex_watchlist_populate`. -/
def populate (wl newlist : List Watcher) : ℕ × List Watcher :=
  Run.final (populateOne regcomp) (0, wl) newlist

/-- `matchpw`. -/
def matchpw (pw : Watcher) (ids : IotData) : Bool :=
  (pw.regs.all fun r =>
    match stringMapGetString (some ids) r.1 with
    | some matchval => r.2 matchval
    | none => false) &&
  (mapEntries pw.blockingIdentifiers).all fun blocked =>
    match stringMapGet (some ids) blocked.1 with
    | some checkval => !vectorFind blocked.2 checkval
    | none => true

/-- `edgex_watchlist_match`. -/
def firstMatch (wl : List Watcher) (ids : IotData) : Option Watcher :=
  (wl.find? fun w => matchpw w ids).map watcherDup

end Watchlist

/-- An operation on the watch list. -/
inductive WatchOp
  | populate (newlist : List Watcher)
  | update (updated : Watcher)
  | remove (name : String)

/-- The list after an operation. -/
def WatchOp.apply (regcomp : String → Option Preg) (wl : List Watcher) : WatchOp → List Watcher
  | populate newlist => (Watchlist.populate regcomp wl newlist).2
  | update updated => Watchlist.updateWatcher regcomp wl updated
  | remove name => (Watchlist.removeWatcher wl name).2

-- ════════════════════════════════════════════════════════════════════════
-- Satisfied watchers
-- ════════════════════════════════════════════════════════════════════════

namespace Watcher

/-- Identifiers satisfy a watcher. -/
structure Satisfied (regcomp : String → Option Preg) (w : Watcher) (ids : IotData) : Prop where
  identified : ∀ k v, (k, v) ∈ mapEntries w.identifiers →
    ∃ preg s, compile regcomp v = some preg ∧ stringMapGetString (some ids) k = some s ∧
      preg s = true
  unblocked : ∀ k vs, (k, vs) ∈ mapEntries w.blockingIdentifiers →
    ∀ x, stringMapGet (some ids) k = some x → vectorFind vs x = false

/-- Every expression of a watcher compiles. -/
def Compiles (regcomp : String → Option Preg) (w : Watcher) : Prop :=
  ∀ k v, (k, v) ∈ mapEntries w.identifiers → ∃ preg, compile regcomp v = some preg

/-- The two forms of the identifiers agree. -/
structure InStep (regcomp : String → Option Preg) (w : Watcher) : Prop where
  compiles : w.Compiles regcomp
  mem_regs : ∀ k preg, (k, preg) ∈ w.regs ↔
    ∃ v, (k, v) ∈ mapEntries w.identifiers ∧ compile regcomp v = some preg

end Watcher

namespace Watchlist

variable {regcomp : String → Option Preg}

theorem mem_compileAll {entries : List (String × IotData)} {k : String} {preg : Preg} :
    (k, preg) ∈ compileAll regcomp entries ↔
      ∃ v, (k, v) ∈ entries ∧ compile regcomp v = some preg := by
  -- The loop prepends, so the induction carries what was there before.
  have h : ∀ acc : List (String × Preg), (k, preg) ∈ entries.foldl
      (fun regs e =>
        match compile regcomp e.2 with
        | some preg => (e.1, preg) :: regs
        | none => regs) acc ↔
      (k, preg) ∈ acc ∨ ∃ v, (k, v) ∈ entries ∧ compile regcomp v = some preg := by
    induction entries with
    | nil => simp
    | cons e es ih =>
      obtain ⟨l, u⟩ := e
      intro acc
      rw [List.foldl_cons, ih]
      cases hu : compile regcomp u with
      | none => aesop
      | some q => aesop
  simpa [compileAll] using h []

/-- A watcher whose two forms agree is accepted exactly when it is satisfied. -/
theorem matchpw_iff {w : Watcher} (h : w.InStep regcomp) (ids : IotData) :
    matchpw w ids = true ↔ w.Satisfied regcomp ids := by
  simp only [matchpw, Bool.and_eq_true, List.all_eq_true]
  constructor
  · rintro ⟨hregs, hblock⟩
    refine ⟨?_, ?_⟩
    · intro k v hkv
      obtain ⟨preg, hpreg⟩ := h.compiles k v hkv
      have hk := hregs (k, preg) ((h.mem_regs k preg).mpr ⟨v, hkv, hpreg⟩)
      split at hk
      next s hs => exact ⟨preg, s, hpreg, hs, hk⟩
      next => cases hk
    · intro k vs hkv x hx
      have hk := hblock (k, vs) hkv
      rw [hx] at hk
      simpa using hk
  · rintro ⟨hid, hunb⟩
    refine ⟨?_, ?_⟩
    · rintro ⟨k, preg⟩ hr
      obtain ⟨v, hkv, hpreg⟩ := (h.mem_regs k preg).mp hr
      obtain ⟨preg', s, hpreg', hs, hmatch⟩ := hid k v hkv
      obtain rfl : preg = preg' := Option.some.inj (hpreg.symm.trans hpreg')
      rw [hs]
      exact hmatch
    · rintro ⟨k, vs⟩ hkv
      split
      next x hx => simp [hunb k vs hkv x hx]
      next => rfl

/-- Every watcher of a list has its two forms in step. -/
def InStep (regcomp : String → Option Preg) (wl : List Watcher) : Prop :=
  ∀ w ∈ wl, w.InStep regcomp

theorem InStep.addLocked {wl : List Watcher} (h : InStep regcomp wl) {w : Watcher}
    (hw : w.Compiles regcomp) : InStep regcomp (Watchlist.addLocked regcomp wl w) := by
  rw [Watchlist.addLocked]
  split
  next entries hid =>
    intro u hu
    rw [List.mem_cons] at hu
    cases hu with
    | inl hu =>
      subst hu
      refine ⟨hw, ?_⟩
      intro k preg
      show (k, preg) ∈ compileAll regcomp entries ↔
        ∃ v, (k, v) ∈ mapEntries w.identifiers ∧ compile regcomp v = some preg
      rw [mem_compileAll, hid, mapEntries]
    | inr hu => exact h u hu
  next => exact h

theorem InStep.replaceFound {wl : List Watcher} (h : InStep regcomp wl) {updated : Watcher}
    (hnone : mapEntries updated.identifiers = []) :
    InStep regcomp (Watchlist.replaceFound updated wl) := by
  induction wl with
  | nil => exact h
  | cons w wl ih =>
    have htl : InStep regcomp wl := fun u hu => h u (List.mem_cons_of_mem w hu)
    rw [Watchlist.replaceFound]
    split
    next =>
      intro u hu
      rw [List.mem_cons] at hu
      cases hu with
      | inl hu =>
        subst hu
        refine ⟨?_, ?_⟩ <;> simp [watcherDup, Watcher.Compiles, hnone]
      | inr hu => exact htl u hu
    next =>
      intro u hu
      rw [List.mem_cons] at hu
      cases hu with
      | inl hu => exact hu ▸ h w List.mem_cons_self
      | inr hu => exact ih htl u hu

theorem InStep.removeWatcher {wl : List Watcher} (h : InStep regcomp wl) (name : String) :
    InStep regcomp (Watchlist.removeWatcher wl name).2 :=
  fun u hu => h u (List.mem_of_mem_eraseP hu)

/-- A watcher that the loop of `edgex_watchlist_populate` comes to is in the list already, or
    its expressions compile. -/
def Enters (regcomp : String → Option Preg) (r : ℕ × List Watcher) (w : Watcher) : Prop :=
  present r.2 w.name = true ∨ w.Compiles regcomp

theorem InStep.populate {newlist : List Watcher} {r : ℕ × List Watcher}
    (h : InStep regcomp r.2)
    (hnew : Run.Meets (populateOne regcomp) (Enters regcomp) r newlist) :
    InStep regcomp (Run.final (populateOne regcomp) r newlist).2 := by
  induction newlist generalizing r with
  | nil => exact h
  | cons w ws ih =>
    obtain ⟨hw, hws⟩ := hnew
    refine ih ?_ hws
    rw [populateOne]
    split
    next => exact h
    next hp =>
      have hc : w.Compiles regcomp := hw.resolve_left hp
      exact h.addLocked hc

end Watchlist

/-- An operation that keeps the two forms of the identifiers in step: a watcher that enters the
    list has expressions that compile, and one that takes the place of another has none. -/
def WatchOp.Clean (regcomp : String → Option Preg) (wl : List Watcher) : WatchOp → Prop
  | populate newlist =>
    Run.Meets (Watchlist.populateOne regcomp) (Watchlist.Enters regcomp) (0, wl) newlist
  | update updated =>
    if Watchlist.present wl updated.name then mapEntries updated.identifiers = []
    else updated.Compiles regcomp
  | remove _ => True

theorem WatchOp.apply_inStep {regcomp : String → Option Preg} {wl : List Watcher} {op : WatchOp}
    (h : Watchlist.InStep regcomp wl) (hop : op.Clean regcomp wl) :
    Watchlist.InStep regcomp (op.apply regcomp wl) := by
  cases op with
  | populate newlist => exact Watchlist.InStep.populate h hop
  | update updated =>
    show Watchlist.InStep regcomp (Watchlist.updateWatcher regcomp wl updated)
    rw [Watchlist.updateWatcher]
    by_cases hp : Watchlist.present wl updated.name = true
    · rw [Clean, if_pos hp] at hop
      rw [if_pos hp]
      exact h.replaceFound hop
    · rw [Clean, if_neg hp] at hop
      rw [if_neg hp]
      exact h.addLocked hop
  | remove name => exact h.removeWatcher name

/-- The search finds a watcher exactly when one in the list is satisfied, and the watcher that
    it returns is a copy of one that is. -/
def Watchlist.FindsSatisfied (regcomp : String → Option Preg) (wl : List Watcher) : Prop :=
  ∀ ids, ((firstMatch wl ids).isSome = true ↔ ∃ w ∈ wl, w.Satisfied regcomp ids) ∧
    ∀ r, firstMatch wl ids = some r → ∃ w ∈ wl, r = watcherDup w ∧ w.Satisfied regcomp ids

theorem Watchlist.InStep.findsSatisfied {regcomp : String → Option Preg} {wl : List Watcher}
    (h : InStep regcomp wl) : FindsSatisfied regcomp wl := by
  intro ids
  refine ⟨?_, ?_⟩
  · simp only [firstMatch, Option.isSome_map, List.find?_isSome]
    constructor
    · rintro ⟨w, hw, hm⟩
      exact ⟨w, hw, (matchpw_iff (h w hw) ids).mp hm⟩
    · rintro ⟨w, hw, hs⟩
      exact ⟨w, hw, (matchpw_iff (h w hw) ids).mpr hs⟩
  · intro r hr
    obtain ⟨w, hw, rfl⟩ := Option.map_eq_some_iff.mp hr
    have hmem : w ∈ wl := List.mem_of_find?_eq_some hw
    have hm : matchpw w ids = true := by simpa using List.find?_some hw
    exact ⟨w, hmem, rfl, (matchpw_iff (h w hmem) ids).mp hm⟩

/-- In every run from the empty list whose operations keep the two forms of the identifiers in
    step, every search finds a watcher exactly when one is satisfied, and a satisfied one. -/
theorem watchlist_finds_satisfied (regcomp : String → Option Preg) (ops : List WatchOp)
    (hops : Run.Meets (WatchOp.apply regcomp) (fun wl op => op.Clean regcomp wl) [] ops) :
    Run.Always (WatchOp.apply regcomp) (Watchlist.FindsSatisfied regcomp) [] ops :=
  Run.always_of_meets (fun _ h => h.findsSatisfied) (fun _ _ h hop => WatchOp.apply_inStep h hop)
    (fun _ hw => absurd hw List.not_mem_nil) hops

/-- Expressions without special characters: one matches the texts that contain it. An opening
    bracket alone does not compile. -/
def literalRegcomp (expr : String) : Option Preg :=
  if '[' ∈ expr.toList then none else some fun s => decide (expr.toList <:+: s.toList)

/-- A watcher for one kind of device. -/
def modelWatcher (expr : String) : Watcher :=
  { name := "sensors", identifiers := some (.map [("Model", .string expr)]) }

/-- A run with a watcher that is entered, and one of another name that is updated in. -/
theorem watchlist_finds_satisfied_entered :
    Run.Always (WatchOp.apply literalRegcomp) (Watchlist.FindsSatisfied literalRegcomp) []
      [.populate [modelWatcher "Thermo"], .remove "sensors", .update (modelWatcher "Hygro")] := by
  have hc : ∀ expr, '[' ∉ expr.toList → (modelWatcher expr).Compiles literalRegcomp := by
    intro expr hexpr k v hkv
    obtain ⟨rfl, rfl⟩ : k = "Model" ∧ v = .string expr := by
      simpa [modelWatcher, mapEntries] using hkv
    exact ⟨_, if_neg hexpr⟩
  have hentered : Watchlist.Enters literalRegcomp (0, []) (modelWatcher "Thermo") :=
    Or.inr (hc "Thermo" (by decide))
  have hupdated : (modelWatcher "Hygro").Compiles literalRegcomp := hc "Hygro" (by decide)
  exact watchlist_finds_satisfied literalRegcomp _ ⟨⟨hentered, trivial⟩, trivial, hupdated, trivial⟩

/-- After an update in place the watcher accepts a device without any identifiers. -/
theorem updated_watcher_unsatisfied :
    ¬ ∀ (regcomp : String → Option Preg) (ops : List WatchOp),
      Run.Always (WatchOp.apply regcomp) (Watchlist.FindsSatisfied regcomp) [] ops := by
  intro h
  have hrun := h literalRegcomp [.populate [modelWatcher "Thermo"], .update (modelWatcher "Thermo")]
  have hend : Watchlist.FindsSatisfied literalRegcomp [watcherDup (modelWatcher "Thermo")] :=
    hrun.2.2
  obtain ⟨w, hw, hs⟩ := ((hend (.map [])).1).mp rfl
  obtain rfl := List.mem_singleton.mp hw
  obtain ⟨preg, s, -, hnone, -⟩ := hs.identified "Model" (.string "Thermo") List.mem_cons_self
  cases hnone

end DeviceSdk
