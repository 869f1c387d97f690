import DeviceSdk.Profile.Commands

/-!
# Direct access to a resource

A resource can be addressed by its own name or by a device command of one operation on it. Two
functions of `device.c` make the two entries, one in zeroed memory and one not.

## Main definitions

- `DeviceResource.asCommand` — the command of one operation
- `SameAccess` — two entries that ask the driver for the same

## Main results

- `directAccess_same_iff`
-/

namespace DeviceSdk

variable {createRes : CreateRes} {prof : DeviceProfile}

/-- A device command of one operation on a resource, with nothing of its own. -/
def DeviceResource.asCommand (devres : DeviceResource) (name : String) : DeviceCommand where
  name := name
  resourceOperations := [{ deviceResource := devres.name }]

/-- Two entries with the same requests, which carry the write mask of a resource. -/
def SameAccess (devres : DeviceResource) (a b : CmdInfo) : Prop :=
  a.reqs = b.reqs ∧
    ∀ req ∈ a.reqs, req.req.mask =
      some (if devres.properties.mask.enabled then ~~~devres.properties.mask.value else 0)

instance (devres : DeviceResource) (a b : CmdInfo) : Decidable (SameAccess devres a b) :=
  inferInstanceAs (Decidable (_ ∧ _))

/-- The attributes that either constructor leaves in a resource. -/
def DeviceResource.asked (createRes : CreateRes) (devres : DeviceResource) : DeviceResource :=
  { devres with parsedAttrs := devres.parsedAttrs.or (createRes devres).1 }

theorem infoForDevRes_reqs {i : ℕ} {a : CmdInfo}
    (hi : prof.deviceResources[i]? = some devres)
    (ha : (infoForDevRes createRes prof i forGet).2 = some a) :
    a.reqs = [resourceReq (devres.asked createRes)] := by
  rw [infoForDevRes, hi] at ha
  rw [DeviceResource.asked]
  cases hattrs : devres.parsedAttrs with
  | some attrs =>
    simp only [hattrs, Option.isSome_none, Bool.false_eq_true, if_false, Option.some.injEq] at ha
    rw [← ha, Option.some_or]
  | none =>
    simp only [hattrs] at ha
    split at ha
    · cases ha
    · rw [← Option.some.inj ha, Option.none_or]

theorem infoForRes_asCommand_reqs {devres : DeviceResource} {name : String} {forGet : Bool}
    {b : CmdInfo} (hfind : findDevResource prof.deviceResources devres.name = some devres)
    (hb : (infoForRes createRes prof (devres.asCommand name) forGet).2 = some b) :
    b.reqs = [operationReq (devres.asked createRes) { deviceResource := devres.name }] := by
  have hparse : (parseAttrs createRes none prof.deviceResources
        [{ deviceResource := devres.name }]).2 = true →
      findDevResource (parseAttrs createRes none prof.deviceResources
        [{ deviceResource := devres.name }]).1 devres.name = some (devres.asked createRes) := by
    intro hgo
    rw [parseAttrs, hfind] at hgo ⊢
    rw [DeviceResource.asked]
    cases hattrs : devres.parsedAttrs with
    | some attrs =>
      simp only [hattrs, parseAttrs, Option.some_or]
      rw [hfind, ← hattrs]
    | none =>
      simp only [hattrs] at hgo ⊢
      split at hgo
      · cases hgo
      · next hgo' =>
        rw [if_neg hgo', parseAttrs, Option.none_or]
        exact find_storeAttrs_same hfind _
  rw [infoForRes] at hb
  split at hb
  · next hgo =>
    rw [← Option.some.inj hb]
    simp only [DeviceResource.asCommand] at hgo ⊢
    rw [List.filterMap_cons, hparse hgo]
    rfl
  · cases hb

/-- The two ways to a resource are the same exactly where it has a mask: the request of a resource
    alone takes its mask from memory that nothing was stored in. -/
theorem directAccess_same_iff (createRes : CreateRes) (prof : DeviceProfile) (i : ℕ)
    (devres : DeviceResource) (name : String) (forGet : Bool) (a b : CmdInfo)
    (hi : prof.deviceResources[i]? = some devres)
    (hfind : findDevResource prof.deviceResources devres.name = some devres)
    (ha : (infoForDevRes createRes prof i forGet).2 = some a)
    (hb : (infoForRes createRes prof (devres.asCommand name) forGet).2 = some b) :
    SameAccess devres a b ↔ devres.properties.mask.enabled = true := by
  rw [SameAccess, infoForDevRes_reqs hi ha, infoForRes_asCommand_reqs hfind hb]
  have hprops : (devres.asked createRes).properties = devres.properties := rfl
  cases hmask : devres.properties.mask.enabled with
  | true => simp [resourceReq, operationReq, hprops, hmask, nonEmpty]
  | false => simp [resourceReq, hprops, hmask]

/-- A resource of which a driver writes four bits. -/
def switches : DeviceResource where
  name := "switches"
  properties := { type := .scalar (.int .uint8), mask := ⟨true, 15⟩ }

theorem directAccess_same_switches :
    ∃ a b,
      (infoForDevRes refuseHumidity { name := "panel", deviceResources := [switches] } 0 false).2 =
        some a ∧
      (infoForRes refuseHumidity { name := "panel", deviceResources := [switches] }
        (switches.asCommand "set") false).2 = some b ∧
      SameAccess switches a b :=
  ⟨_, _, rfl, rfl,
    (directAccess_same_iff refuseHumidity { name := "panel", deviceResources := [switches] } 0
      switches "set" false _ _ rfl (by decide) rfl rfl).mpr rfl⟩

/-- A resource without a mask. -/
theorem directAccess_unset :
    ¬∀ (createRes : CreateRes) (prof : DeviceProfile) (i : ℕ) (devres : DeviceResource)
      (name : String) (forGet : Bool) (a b : CmdInfo),
      prof.deviceResources[i]? = some devres →
      findDevResource prof.deviceResources devres.name = some devres →
      (infoForDevRes createRes prof i forGet).2 = some a →
      (infoForRes createRes prof (devres.asCommand name) forGet).2 = some b →
      SameAccess devres a b := by
  intro h
  have hsame := h refuseHumidity climateProfile 0
    { name := "temperature", properties := { type := .scalar (.int .int16) } } "read" false _ _
    rfl (by decide) rfl rfl
  exact absurd hsame (by decide)

end DeviceSdk
