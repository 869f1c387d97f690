import DeviceSdk.Lib.Matching
import DeviceSdk.Types

/-!
# Comparisons of devices

`edgex_device_autoevents_equal` and `devsdk_protocols_equal` decide whether an update restarts the
autoevents of a device. Both search by name. The names of protocols are keys of a map, but several
autoevents may have the same source.

## Main results

- `listEqual_iff` — what `LIST_EQUAL_FUNCTION` compares
- `autoeventsEqual_iff_perm` — autoevents with distinct sources
- `listsEqual_perm_iff`
-/

namespace DeviceSdk

open Matching (Agree IsFirst)

theorem listEqual_iff {α : Type} {name : α → String} {cmp : α → α → Bool}
    (hcmp : ∀ x y, name x = name y → (cmp x y = true ↔ x = y)) (a b : List α) :
    listEqual name cmp a b = true ↔ Matching.Matches name a b := by
  rw [listEqual, Bool.and_eq_true, decide_eq_true_eq, List.all_eq_true, Matching.Matches]
  refine and_congr_right fun _ => forall₂_congr fun x _ => ?_
  rw [IsFirst]
  cases hfound : b.find? fun f => decide (name x = name f) with
  | none => simp
  | some found =>
    have hname : name x = name found := by simpa using List.find?_some hfound
    rw [Option.some.injEq]
    exact (hcmp x found hname).trans eq_comm

theorem autoeventEqual_iff (e₁ e₂ : AutoEvent) (h : e₁.resource = e₂.resource) :
    autoeventEqual e₁ e₂ = true ↔ e₁ = e₂ := by
  cases e₁
  cases e₂
  simp_all [autoeventEqual, and_assoc]

theorem protocolEqual_iff (p₁ p₂ : Protocol) (h : p₁.name = p₂.name) :
    protocolEqual p₁ p₂ = true ↔ p₁ = p₂ := by
  cases p₁
  cases p₂
  simp_all [protocolEqual, IotData.equal_iff]

/-- Autoevents with distinct sources are compared up to order, whatever the second list is. -/
theorem autoeventsEqual_iff_perm {a : List AutoEvent} (h : (a.map AutoEvent.resource).Nodup)
    (b : List AutoEvent) : autoeventsEqual a b = true ↔ a.Perm b := by
  rw [autoeventsEqual, listEqual_iff autoeventEqual_iff]
  exact Matching.matches_iff_perm h

/-- The comparison of autoevents is equality up to order exactly where two orders of one list do
    not hold different entries of one source, and an entry that the first list has more often than
    the second is not passed over. The comparison of protocols with distinct names always is. -/
theorem listsEqual_perm_iff (a b : List AutoEvent) (ps qs : List Protocol) :
    ((autoeventsEqual a b = true ↔ a.Perm b) ↔
      (a.Perm b → Agree AutoEvent.resource a) ∧
        ((∃ x ∈ a, b.count x < a.count x) →
          a.length ≠ b.length ∨ ∃ x ∈ a, ¬IsFirst AutoEvent.resource b x)) ∧
    ((ps.map Protocol.name).Nodup → (protocolsEqual ps qs = true ↔ ps.Perm qs)) := by
  constructor
  · rw [autoeventsEqual, listEqual_iff autoeventEqual_iff]
    exact Matching.matches_perm_iff AutoEvent.resource a b
  · intro hnodup
    rw [protocolsEqual, listEqual_iff protocolEqual_iff]
    exact Matching.matches_iff_perm hnodup

/-- A device with two protocols. -/
def modbusProtocol : Protocol := { name := "modbus", properties := .map [] }

def serialProtocol : Protocol := { name := "serial", properties := .map [] }

theorem protocolsEqual_swapped :
    protocolsEqual [modbusProtocol, serialProtocol] [serialProtocol, modbusProtocol] = true :=
  ((listsEqual_perm_iff [] [] [modbusProtocol, serialProtocol]
    [serialProtocol, modbusProtocol]).2 (by decide)).mpr (List.Perm.swap _ _ [])

/-- A list of two autoevents of one source is not equal to itself. -/
theorem autoeventsEqual_irreflexive :
    ¬∀ a b : List AutoEvent, autoeventsEqual a b = true ↔ a.Perm b := by
  intro h
  have hself := (h
    [{ resource := "temperature", interval := "1s" }, { resource := "temperature", interval := "5s" }]
    [{ resource := "temperature", interval := "1s" }, { resource := "temperature", interval := "5s" }]
    ).mpr (List.Perm.refl _)
  exact absurd hself (by decide)

end DeviceSdk
