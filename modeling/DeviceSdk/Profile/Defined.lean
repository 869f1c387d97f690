import DeviceSdk.Lib.Guarded
import DeviceSdk.Profile.Commands
import DeviceSdk.Profile.Read

/-!
# Where a lookup in a received profile is defined

`edgex_profile_read` and the preparation of the commands use the members of the details of a
profile, and the resources that the operations name, without looking whether they are there. Here
both are followed as the language defines them: nothing stands for an undefined step.

## Main definitions

- `parseAttrsC`, `populateCmdInfoC`, `findcommandC` — the lookup, with its undefined steps
- `profileReadC` — the reading, over what the library makes of a list that is not there
- `Complete` — what the details must have
- `Available` — an entry whose operations are all resolved

## Main results

- `parseAttrsC_guarded`, `findcommandC_guarded`
- `lookupSound_iff`
-/

namespace DeviceSdk

open IotData (stringMapGet stringMapGetString)

-- ════════════════════════════════════════════════════════════════════════
-- The preparation of the commands
-- ════════════════════════════════════════════════════════════════════════

section Definitions

variable (createRes : CreateRes)

/-- The first loop of `infoForRes`. The resource of an operation is used whether it was found or
    not. -/
def parseAttrsC : Option IotData → List DeviceResource → List ResourceOperation →
    Option (List DeviceResource × Bool)
  | _, resources, [] => some (resources, true)
  | exception, resources, ro :: ros =>
    match findDevResource resources ro.deviceResource with
    | none => none
    | some devres =>
      match devres.parsedAttrs with
      | some _ => parseAttrsC exception resources ros
      | none =>
        let r := createRes devres
        let exception := r.2.or exception
        if r.1.isNone && exception.isSome then some (resources, false)
        else parseAttrsC exception (storeAttrs devres.name r.1 resources) ros

/-- `infoForRes`. The second loop finds what the first found. -/
def infoForResC (prof : DeviceProfile) (cmd : DeviceCommand) (forGet : Bool) :
    Option (DeviceProfile × Option CmdInfo) :=
  (parseAttrsC createRes none prof.deviceResources cmd.resourceOperations).map fun _ =>
    infoForRes createRes prof cmd forGet

/-- The loop of `populateCmdInfo` over device commands, one turn. -/
def populateCommandC (prof : DeviceProfile) (cmd : DeviceCommand) : Option DeviceProfile :=
  (if cmd.readable then (infoForResC createRes prof cmd true).map insertCmdInfo else some prof).bind
    fun prof =>
      if cmd.writable then (infoForResC createRes prof cmd false).map insertCmdInfo else some prof

/-- `populateCmdInfo`. -/
def populateCmdInfoC (prof : DeviceProfile) : Option DeviceProfile :=
  (prof.deviceCommands.foldlM (populateCommandC createRes) prof).map fun prof =>
    (List.range prof.deviceResources.length).foldl (populateResource createRes) prof

/-- `edgex_deviceprofile_findcommand`. -/
def findcommandC (prof : DeviceProfile) (name : String) (forGet : Bool) :
    Option (DeviceProfile × Option CmdInfo) :=
  (if prof.cmdinfo.isEmpty then populateCmdInfoC createRes prof else some prof).map fun prof =>
    (prof, prof.cmdinfo.find? (isAnswer name forGet))

/-- Every operation that is reached names a resource: the operations behind one whose resource the
    driver refuses are not reached. -/
def Reaches (prof : DeviceProfile) (ops : List ResourceOperation) : Prop :=
  ∀ pre ro post, ops = pre ++ ro :: post →
    (∀ q ∈ pre, ∀ devres, findDevResource prof.deviceResources q.deviceResource = some devres →
      noException createRes devres = true) →
    ∃ devres, findDevResource prof.deviceResources ro.deviceResource = some devres

end Definitions

variable {createRes : CreateRes} {prof cached : DeviceProfile}

theorem reaches_nil : Reaches createRes prof [] := by
  intro pre ro post h
  exact absurd h.symm (by simp)

theorem reaches_cons {ro : ResourceOperation} {ros : List ResourceOperation} :
    Reaches createRes prof (ro :: ros) ↔
      ∃ devres, findDevResource prof.deviceResources ro.deviceResource = some devres ∧
        (noException createRes devres = true → Reaches createRes prof ros) := by
  constructor
  · intro h
    obtain ⟨devres, hfind⟩ := h [] ro ros rfl (by simp)
    refine ⟨devres, hfind, fun hok pre ro' post he hpre => ?_⟩
    refine h (ro :: pre) ro' post (by rw [he, List.cons_append]) fun q hq r hr => ?_
    rcases List.mem_cons.mp hq with rfl | hmem
    · rwa [← Option.some.inj (hfind.symm.trans hr)]
    · exact hpre q hmem r hr
  · rintro ⟨devres, hfind, hrest⟩ pre ro' post he hpre
    cases pre with
    | nil =>
      rw [← (List.cons.inj he).1]
      exact ⟨devres, hfind⟩
    | cons q qs =>
      obtain ⟨rfl, hros⟩ := List.cons.inj he
      exact hrest (hpre ro List.mem_cons_self devres hfind) qs ro' post hros fun q hq =>
        hpre q (List.mem_cons_of_mem _ hq)

theorem parseAttrsC_guarded (hstrict : createRes.Strict)
    (hfresh : ∀ r ∈ prof.deviceResources, r.parsedAttrs = none) (ops : List ResourceOperation)
    {rs' : List DeviceResource} (h : List.Forall₂ (Kept createRes) prof.deviceResources rs') :
    Guarded (Reaches createRes prof ops) (parseAttrsC createRes none rs' ops)
      (parseAttrs createRes none rs' ops) := by
  induction ops generalizing rs' with
  | nil => exact (Guarded.of_some _).congr (iff_of_true trivial reaches_nil)
  | cons ro ros ih =>
    cases hfind : findDevResource prof.deviceResources ro.deviceResource with
    | none =>
      rw [parseAttrsC, find_kept_none h hfind]
      refine .of_none (fun hreach => ?_) _
      obtain ⟨devres, hsome, -⟩ := reaches_cons.mp hreach
      rw [hfind] at hsome
      cases hsome
    | some devres =>
      have hnone := hfresh devres (List.mem_of_find?_eq_some hfind)
      have hreach (hok : noException createRes devres = true) :
          Reaches createRes prof ros ↔ Reaches createRes prof (ro :: ros) := by
        rw [reaches_cons]
        constructor
        · exact fun hros => ⟨devres, hfind, fun _ => hros⟩
        · rintro ⟨r, hr, hros⟩
          obtain rfl := Option.some.inj (hfind.symm.trans hr)
          exact hros hok
      obtain ⟨devres', hfind', hkept⟩ := find_kept_some h hfind
      cases hattrs : devres'.parsedAttrs with
      | some attrs =>
        obtain ⟨-, hsome⟩ := hkept.eq_done hnone hattrs
        rw [parseAttrs_known hfind' hattrs, parseAttrsC, hfind']
        simp only [hattrs]
        exact (ih h).congr (hreach (hstrict.noException hsome))
      | none =>
        obtain rfl := hkept.eq_of_none hnone hattrs
        cases hok : noException createRes devres' with
        | false =>
          have hsome : (createRes devres').2.isSome = true := by
            rw [← Option.not_isNone, show (createRes devres').2.isNone = false from hok,
              Bool.not_false]
          rw [parseAttrs_refused hstrict hfind' hattrs hok, parseAttrsC, hfind']
          simp only [hattrs, Option.or_none, hsome, hstrict devres' hsome, Option.isNone_none,
            Bool.and_self, if_true]
          refine (Guarded.of_some _).congr (iff_of_true trivial (reaches_cons.mpr ?_))
          exact ⟨devres', hfind, fun htrue => absurd (hok.symm.trans htrue) Bool.false_ne_true⟩
        | true =>
          have hempty : (createRes devres').2 = none := Option.isNone_iff_eq_none.mp hok
          rw [parseAttrs_asked hfind' hattrs hok, parseAttrsC, hfind']
          simp only [hattrs, hempty, Option.or_none, Option.isSome_none, Bool.and_false,
            Bool.false_eq_true, if_false, findDevResource_name hfind']
          exact (ih (storeAttrs_kept h hfind)).congr (hreach hok)

/-- One direction of a command. -/
theorem insertC_guarded (hstrict : createRes.Strict) (hfresh : Fresh prof)
    (h : Caches createRes prof cached) (cmd : DeviceCommand) (forGet admitted : Bool) :
    Guarded (admitted = true → Reaches createRes prof cmd.resourceOperations)
      (if admitted then (infoForResC createRes cached cmd forGet).map insertCmdInfo else some cached)
      (if admitted then insertCmdInfo (infoForRes createRes cached cmd forGet) else cached) := by
  cases admitted with
  | false => exact (Guarded.of_some _).congr (by simp)
  | true =>
    have hparse := parseAttrsC_guarded hstrict hfresh.parsedAttrs cmd.resourceOperations h.resources
    exact ((hparse.map fun _ => infoForRes createRes cached cmd forGet).map insertCmdInfo).congr
      (by simp)

theorem populateCommandC_guarded (hstrict : createRes.Strict) (hfresh : Fresh prof)
    (h : Caches createRes prof cached) (cmd : DeviceCommand) :
    Guarded (cmd.readable = true ∨ cmd.writable = true →
        Reaches createRes prof cmd.resourceOperations)
      (populateCommandC createRes cached cmd) (populateCommand createRes cached cmd) := by
  have hread := insertC_guarded hstrict hfresh h cmd true cmd.readable
  have hleft := (infoForRes_adds hstrict hfresh h cmd true cmd.readable).caches
  have hwrite := insertC_guarded hstrict hfresh hleft cmd false cmd.writable
  exact (hread.bind hwrite).congr or_imp.symm

theorem populateCmdInfoC_guarded (hstrict : createRes.Strict) (hfresh : Fresh prof)
    (h : Caches createRes prof cached) :
    Guarded (∀ cmd ∈ prof.deviceCommands, cmd.readable = true ∨ cmd.writable = true →
        Reaches createRes prof cmd.resourceOperations)
      (populateCmdInfoC createRes cached) (populateCmdInfo createRes cached) := by
  rw [← h.deviceCommands]
  have hloop := Guarded.foldlM (I := Caches createRes prof)
    (fun _ cmd hc => populateCommandC_guarded hstrict hfresh hc cmd)
    (fun _ cmd hc => (populateCommand_adds hstrict hfresh hc cmd).caches) cached.deviceCommands h
  exact hloop.map _

/-- The first lookup in a profile as it was read. -/
theorem findcommandC_guarded (hstrict : createRes.Strict) (hfresh : Fresh prof) (name : String)
    (forGet : Bool) :
    Guarded (∀ cmd ∈ prof.deviceCommands, cmd.readable = true ∨ cmd.writable = true →
        Reaches createRes prof cmd.resourceOperations)
      (findcommandC createRes prof name forGet) (findcommand createRes prof name forGet) := by
  have hall := populateCmdInfoC_guarded hstrict hfresh (hfresh.lookedUp createRes).caches
  have hempty : prof.cmdinfo.isEmpty = true := by rw [hfresh.cmdinfo]; rfl
  rw [findcommandC, if_pos hempty, findcommand, prepared, if_pos hempty]
  exact hall.map fun p => (p, p.cmdinfo.find? (isAnswer name forGet))

-- ════════════════════════════════════════════════════════════════════════
-- The reading of the details
-- ════════════════════════════════════════════════════════════════════════

section Reading

variable (lenient : Bool) (c : NumberCast)

/-- `iot_data_vector_iter` on a member. Of a list that is not there the library either makes one
    without elements, or the iteration is undefined. -/
def listOf (obj : IotData) (name : String) : Option (List IotData) :=
  match stringMapGet (some obj) name with
  | some (.vector xs) => some xs
  | some _ => none
  | none => if lenient then some [] else none

/-- A device command, once its operations are known. -/
def commandOf (obj : IotData) (ops : List IotData) : DeviceCommand where
  name := getString (some obj) "name"
  tags := stringMapGet (some obj) "tags"
  readable := (getReadwrite (some obj)).1
  writable := (getReadwrite (some obj)).2
  resourceOperations := ops.map resourceoperationRead

/-- `devicecommand_read`. -/
def devicecommandReadC (obj : IotData) : Option DeviceCommand :=
  (listOf lenient obj "resourceOperations").map (commandOf obj)

/-- A profile, once its resources and commands are known. -/
def profileOf (obj : IotData) (resources : List DeviceResource) (commands : List DeviceCommand) :
    DeviceProfile where
  name := getString (some obj) "name"
  description := some (getString (some obj) "description")
  manufacturer := some (getString (some obj) "manufacturer")
  model := some (getString (some obj) "model")
  deviceResources := resources
  deviceCommands := commands

/-- `edgex_profile_read`. -/
def profileReadC (obj : IotData) : Option DeviceProfile := do
  let resources ← (← listOf lenient obj "deviceResources").mapM (deviceresourceRead c)
  let commands ← (← listOf lenient obj "deviceCommands").mapM (devicecommandReadC lenient)
  return profileOf obj resources commands

/-- A lookup in the profile that details describe. -/
def detailsLookup (createRes : CreateRes) (obj : IotData) (name : String) (forGet : Bool) :
    Option (DeviceProfile × Option CmdInfo) :=
  (profileReadC lenient c obj).bind fun prof => findcommandC createRes prof name forGet

/-- The type of a resource is one of those that have a name. -/
def KnownType (x : IotData) : Prop :=
  ∃ str pt, stringMapGetString (stringMapGet (some x) "properties") "valueType" = some str ∧
    typecodeFromEdgexName str = some pt

/-- The resource that an operation names. -/
def resourceNamed (xs : List IotData) (op : IotData) : Option IotData :=
  xs.find? fun x => decide (getString (some x) "name" = getString (some op) "deviceResource")

/-- The driver refuses the resource that an operation names. -/
def Refused (createRes : CreateRes) (xs : List IotData) (op : IotData) : Prop :=
  ∃ x devres, resourceNamed xs op = some x ∧ deviceresourceRead c x = some devres ∧
    noException createRes devres = false

/-- Every operation names a resource, except for those behind one whose resource the driver
    refuses. -/
def Resolved (createRes : CreateRes) (xs ops : List IotData) : Prop :=
  ∀ pre op post, ops = pre ++ op :: post → (∀ q ∈ pre, ¬Refused c createRes xs q) →
    (resourceNamed xs op).isSome = true

/-- What details must have for a lookup to be defined, with the resources `xs` and the commands
    `ys`. -/
structure Complete (createRes : CreateRes) (obj : IotData) (xs ys : List IotData) : Prop where
  resources : listOf lenient obj "deviceResources" = some xs
  commands : listOf lenient obj "deviceCommands" = some ys
  types : ∀ x ∈ xs, KnownType x
  operations : ∀ y ∈ ys, ∃ ops, listOf lenient y "resourceOperations" = some ops ∧
    ((getReadwrite (some y)).1 = true ∨ (getReadwrite (some y)).2 = true →
      Resolved c createRes xs ops)

/-- A request for what an operation names. -/
def AsksFor (xs : List IotData) (op : IotData) (req : CmdReq) : Prop :=
  ∃ x devres, resourceNamed xs op = some x ∧ deviceresourceRead c x = some devres ∧
    req.req.resource.name = devres.name ∧ req.pval = devres.properties

/-- An entry of a command whose operations all name resources, or of a resource, with the types
    that the details give them. -/
def Available (xs ys : List IotData) (name : String) (cmd : CmdInfo) : Prop :=
  (∃ y ∈ ys, ∃ ops, getString (some y) "name" = name ∧
    listOf lenient y "resourceOperations" = some ops ∧
    List.Forall₂ (AsksFor c xs) ops cmd.reqs) ∨
  ∃ x ∈ xs, ∃ devres req, getString (some x) "name" = name ∧
    deviceresourceRead c x = some devres ∧ cmd.reqs = [req] ∧
    req.req.resource.name = devres.name ∧ req.pval = devres.properties

/-- A lookup in received details is defined, whatever is looked up, and finds only what is
    available. -/
def LookupSound (createRes : CreateRes) (obj : IotData) : Prop :=
  ∀ name forGet, ∃ prof found, detailsLookup lenient c createRes obj name forGet =
      some (prof, found) ∧
    ∀ cmd, found = some cmd → ∃ xs ys, listOf lenient obj "deviceResources" = some xs ∧
      listOf lenient obj "deviceCommands" = some ys ∧ Available lenient c xs ys name cmd

end Reading

variable {lenient : Bool} {c : NumberCast} {obj : IotData}

theorem listOf_false (obj : IotData) (name : String) :
    listOf false obj name = vectorOf obj name := by
  rw [listOf, vectorOf]
  cases stringMapGet (some obj) name with
  | none => rfl
  | some d => cases d <;> rfl

/-- Where a list that is not there is undefined, the reading is `profileRead`. -/
theorem profileReadC_false : profileReadC false c = profileRead c := by
  have hcommand : devicecommandReadC false = devicecommandRead := by
    funext y
    rw [devicecommandReadC, listOf_false]
    rfl
  funext obj
  rw [profileReadC, listOf_false, listOf_false, hcommand]
  rfl

theorem mapM_eq_some_iff {α β : Type} {f : α → Option β} {l : List α} {l' : List β} :
    l.mapM f = some l' ↔ List.Forall₂ (fun a b => f a = some b) l l' := by
  induction l generalizing l' with
  | nil =>
    rw [List.mapM_nil, List.forall₂_nil_left_iff]
    exact Option.some_inj.trans eq_comm
  | cons a l ih =>
    rw [List.mapM_cons, List.forall₂_cons_left_iff]
    cases hf : f a with
    | none => simp
    | some b =>
      cases hl : l.mapM f with
      | none =>
        have hnone : ∀ bs, ¬List.Forall₂ (fun a b => f a = some b) l bs := by
          intro bs hbs
          rw [ih.mpr hbs] at hl
          cases hl
        simp [hnone]
      | some bs =>
        have hbs := ih.mp hl
        constructor
        · intro h
          exact ⟨b, bs, rfl, hbs, (Option.some.inj h).symm⟩
        · rintro ⟨b', bs', hb, hbs', rfl⟩
          obtain rfl := Option.some.inj hb
          rw [ih.mpr hbs'] at hl
          obtain rfl := Option.some.inj hl
          rfl

/-- What was read, from what. -/
structure ReadFrom (lenient : Bool) (c : NumberCast) (obj : IotData) (xs ys : List IotData)
    (prof : DeviceProfile) : Prop where
  resources : listOf lenient obj "deviceResources" = some xs
  commands : listOf lenient obj "deviceCommands" = some ys
  deviceResources :
    List.Forall₂ (fun x r => deviceresourceRead c x = some r) xs prof.deviceResources
  deviceCommands :
    List.Forall₂ (fun y cmd => devicecommandReadC lenient y = some cmd) ys prof.deviceCommands
  eq : prof = profileOf obj prof.deviceResources prof.deviceCommands

theorem profileReadC_eq_some {prof : DeviceProfile} :
    profileReadC lenient c obj = some prof ↔ ∃ xs ys, ReadFrom lenient c obj xs ys prof := by
  rw [profileReadC]
  cases hxs : listOf lenient obj "deviceResources" with
  | none =>
    refine iff_of_false (by simp) ?_
    rintro ⟨xs, ys, h⟩
    have hsome := h.resources
    rw [hxs] at hsome
    cases hsome
  | some xs =>
    cases hys : listOf lenient obj "deviceCommands" with
    | none =>
      refine iff_of_false (by simp) ?_
      rintro ⟨xs', ys, h⟩
      have hsome := h.commands
      rw [hys] at hsome
      cases hsome
    | some ys =>
      simp only [Option.bind_eq_bind, Option.bind_some, Option.bind_eq_some_iff, mapM_eq_some_iff]
      constructor
      · rintro ⟨rs, hrs, cs, hcs, he⟩
        obtain rfl := Option.some.inj he
        exact ⟨xs, ys, hxs, hys, hrs, hcs, rfl⟩
      · rintro ⟨xs', ys', h⟩
        obtain rfl := Option.some.inj (hxs.symm.trans h.resources)
        obtain rfl := Option.some.inj (hys.symm.trans h.commands)
        exact ⟨_, h.deviceResources, _, h.deviceCommands, congrArg some h.eq.symm⟩

theorem forall₂_mem_left {α β : Type} {R : α → β → Prop} {l : List α} {l' : List β}
    (h : List.Forall₂ R l l') {a : α} (ha : a ∈ l) : ∃ b ∈ l', R a b := by
  induction h with
  | nil => cases ha
  | @cons a' b' l l' hR _ ih =>
    rcases List.mem_cons.mp ha with rfl | hmem
    · exact ⟨b', List.mem_cons_self, hR⟩
    · obtain ⟨b, hb, hab⟩ := ih hmem
      exact ⟨b, List.mem_cons_of_mem _ hb, hab⟩

theorem forall₂_mem_right {α β : Type} {R : α → β → Prop} {l : List α} {l' : List β}
    (h : List.Forall₂ R l l') {b : β} (hb : b ∈ l') : ∃ a ∈ l, R a b :=
  forall₂_mem_left h.flip hb

theorem deviceresourceRead_isSome (x : IotData) :
    (∃ devres, deviceresourceRead c x = some devres) ↔ KnownType x := by
  rw [KnownType, deviceresourceRead, propertyvalueRead]
  cases stringMapGetString (stringMapGet (some x) "properties") "valueType" with
  | none => simp
  | some str => cases typecodeFromEdgexName str <;> simp

theorem deviceresourceRead_name {x : IotData} {devres : DeviceResource}
    (h : deviceresourceRead c x = some devres) :
    devres.name = getString (some x) "name" ∧ devres.parsedAttrs = none := by
  obtain ⟨properties, -, rfl⟩ := Option.map_eq_some_iff.mp h
  exact ⟨rfl, rfl⟩

section ReadFrom

variable {xs ys : List IotData}

theorem ReadFrom.fresh (h : ReadFrom lenient c obj xs ys prof) : Fresh prof where
  cmdinfo := by rw [h.eq, profileOf]
  parsedAttrs := by
    intro devres hmem
    obtain ⟨x, -, hx⟩ := forall₂_mem_right h.deviceResources hmem
    exact (deviceresourceRead_name hx).2

/-- The resource that is found is the one that is named. -/
theorem find_named {rs : List DeviceResource}
    (h : List.Forall₂ (fun x r => deviceresourceRead c x = some r) xs rs) (op : IotData) :
    Option.Rel (fun x r => deviceresourceRead c x = some r) (resourceNamed xs op)
      (findDevResource rs (resourceoperationRead op).deviceResource) := by
  induction h with
  | nil => exact .none
  | @cons x r xs rs hr _ ih =>
    have hop : (resourceoperationRead op).deviceResource = getString (some op) "deviceResource" :=
      rfl
    rw [findDevResource_cons, (deviceresourceRead_name hr).1, resourceNamed, List.find?_cons, hop]
    by_cases hname : getString (some x) "name" = getString (some op) "deviceResource"
    · rw [decide_eq_true hname, if_pos hname]
      exact .some hr
    · rw [decide_eq_false hname, if_neg hname]
      exact ih

theorem ReadFrom.find_iff (h : ReadFrom lenient c obj xs ys prof) (op : IotData)
    (devres : DeviceResource) :
    findDevResource prof.deviceResources (resourceoperationRead op).deviceResource = some devres ↔
      ∃ x, resourceNamed xs op = some x ∧ deviceresourceRead c x = some devres := by
  have hrel := find_named h.deviceResources op
  constructor
  · intro hfind
    rw [hfind] at hrel
    cases hx : resourceNamed xs op with
    | none =>
      rw [hx] at hrel
      cases hrel
    | some x =>
      rw [hx] at hrel
      cases hrel with
      | some hread => exact ⟨x, rfl, hread⟩
  · rintro ⟨x, hx, hread⟩
    rw [hx] at hrel
    cases hfind : findDevResource prof.deviceResources
        (resourceoperationRead op).deviceResource with
    | none =>
      rw [hfind] at hrel
      cases hrel
    | some r =>
      rw [hfind] at hrel
      cases hrel with
      | some hread' => exact hread'.symm.trans hread

theorem ReadFrom.named_iff (h : ReadFrom lenient c obj xs ys prof) (op : IotData) :
    (∃ devres, findDevResource prof.deviceResources
        (resourceoperationRead op).deviceResource = some devres) ↔
      (resourceNamed xs op).isSome = true := by
  rw [Option.isSome_iff_exists]
  constructor
  · rintro ⟨devres, hfind⟩
    obtain ⟨x, hx, -⟩ := (h.find_iff op devres).mp hfind
    exact ⟨x, hx⟩
  · rintro ⟨x, hx⟩
    have hmem : x ∈ xs := List.mem_of_find?_eq_some hx
    obtain ⟨devres, -, hread⟩ := forall₂_mem_left h.deviceResources hmem
    exact ⟨devres, (h.find_iff op devres).mpr ⟨x, hx, hread⟩⟩

/-- The operations of a command that are reached, in the details and in what was read. -/
theorem ReadFrom.reaches_iff (h : ReadFrom lenient c obj xs ys prof) (ops : List IotData) :
    Reaches createRes prof (ops.map resourceoperationRead) ↔ Resolved c createRes xs ops := by
  have hnot (q : IotData) : (∀ devres, findDevResource prof.deviceResources
        (resourceoperationRead q).deviceResource = some devres →
        noException createRes devres = true) ↔ ¬Refused c createRes xs q := by
    constructor
    · rintro hok ⟨x, devres, hx, hread, hno⟩
      rw [hok devres ((h.find_iff q devres).mpr ⟨x, hx, hread⟩)] at hno
      cases hno
    · intro hno devres hfind
      obtain ⟨x, hx, hread⟩ := (h.find_iff q devres).mp hfind
      by_contra hok
      exact hno ⟨x, devres, hx, hread, Bool.not_eq_true _ ▸ hok⟩
  constructor
  · intro hreach pre op post he hpre
    refine (h.named_iff op).mp (hreach (pre.map resourceoperationRead) (resourceoperationRead op)
      (post.map resourceoperationRead) (by rw [he, List.map_append, List.map_cons]) ?_)
    intro q' hq'
    obtain ⟨q, hq, rfl⟩ := List.mem_map.mp hq'
    exact (hnot q).mpr (hpre q hq)
  · intro hres pre' ro post' he hpre
    obtain ⟨pre, rest, hsplit, rfl, hrest⟩ := List.map_eq_append_iff.mp he
    obtain ⟨op, post, rfl, rfl, -⟩ := List.map_eq_cons_iff.mp hrest
    refine (h.named_iff op).mpr (hres pre op post hsplit fun q hq => (hnot q).mp ?_)
    exact hpre (resourceoperationRead q) (List.mem_map_of_mem hq)

/-- What a device command was read from. -/
theorem ReadFrom.command (h : ReadFrom lenient c obj xs ys prof) {cmd : DeviceCommand}
    (hcmd : cmd ∈ prof.deviceCommands) :
    ∃ y ∈ ys, ∃ ops, listOf lenient y "resourceOperations" = some ops ∧ cmd = commandOf y ops := by
  obtain ⟨y, hy, hread⟩ := forall₂_mem_right h.deviceCommands hcmd
  obtain ⟨ops, hops, rfl⟩ := Option.map_eq_some_iff.mp hread
  exact ⟨y, hy, ops, hops, rfl⟩

/-- The commands are prepared without an undefined step exactly where the details are complete. -/
theorem ReadFrom.complete_iff (h : ReadFrom lenient c obj xs ys prof) :
    (∀ cmd ∈ prof.deviceCommands, cmd.readable = true ∨ cmd.writable = true →
        Reaches createRes prof cmd.resourceOperations) ↔
      Complete lenient c createRes obj xs ys := by
  constructor
  · intro hall
    refine ⟨h.resources, h.commands, fun x hx => ?_, fun y hy => ?_⟩
    · obtain ⟨devres, -, hread⟩ := forall₂_mem_left h.deviceResources hx
      exact (deviceresourceRead_isSome x).mp ⟨devres, hread⟩
    · obtain ⟨cmd, hcmd, hread⟩ := forall₂_mem_left h.deviceCommands hy
      obtain ⟨ops, hops, rfl⟩ := Option.map_eq_some_iff.mp hread
      exact ⟨ops, hops, fun hrw => (h.reaches_iff ops).mp (hall _ hcmd hrw)⟩
  · intro hcomplete cmd hcmd hrw
    obtain ⟨y, hy, ops, hops, rfl⟩ := h.command hcmd
    obtain ⟨ops', hops', hres⟩ := hcomplete.operations y hy
    obtain rfl := Option.some.inj (hops.symm.trans hops')
    exact (h.reaches_iff ops).mpr (hres hrw)

end ReadFrom

/-- Complete details can be read. -/
theorem Complete.readFrom {xs ys : List IotData} (h : Complete lenient c createRes obj xs ys) :
    ∃ prof, ReadFrom lenient c obj xs ys prof := by
  have hforall {α β : Type} {R : α → β → Prop} (l : List α) (hl : ∀ a ∈ l, ∃ b, R a b) :
      ∃ l', List.Forall₂ R l l' := by
    induction l with
    | nil => exact ⟨[], .nil⟩
    | cons a l ih =>
      obtain ⟨b, hb⟩ := hl a List.mem_cons_self
      obtain ⟨l', hl'⟩ := ih fun a' ha' => hl a' (List.mem_cons_of_mem _ ha')
      exact ⟨b :: l', .cons hb hl'⟩
  obtain ⟨rs, hrs⟩ := hforall (R := fun x r => deviceresourceRead c x = some r) xs fun x hx =>
    (deviceresourceRead_isSome x).mpr (h.types x hx)
  obtain ⟨cs, hcs⟩ := hforall (R := fun y cmd => devicecommandReadC lenient y = some cmd) ys
    fun y hy => by
      obtain ⟨ops, hops, -⟩ := h.operations y hy
      exact ⟨commandOf y ops, by rw [devicecommandReadC, hops, Option.map_some]⟩
  exact ⟨profileOf obj rs cs, h.resources, h.commands, hrs, hcs, rfl⟩

/-- What the answer to a lookup is made of. -/
theorem ReadFrom.available {xs ys : List IotData} (h : ReadFrom lenient c obj xs ys prof)
    {name : String} {forGet : Bool} {cmd : CmdInfo}
    (hcmd : expected createRes (noException createRes) prof name forGet = some cmd) :
    Available lenient c xs ys name cmd := by
  rw [expected] at hcmd
  split at hcmd
  · obtain ⟨dc, hdc, rfl⟩ := Option.map_eq_some_iff.mp hcmd
    have hmatch := List.find?_some hdc
    simp only [Bool.and_eq_true, decide_eq_true_eq, List.all_eq_true] at hmatch
    obtain ⟨hname, -, hparsed⟩ := hmatch
    obtain ⟨y, hy, ops, hops, rfl⟩ := h.command (List.mem_of_find?_eq_some hdc)
    refine .inl ⟨y, hy, ops, hname, hops, ?_⟩
    have hnamed : ∀ ro ∈ (commandOf y ops).resourceOperations,
        ∃ devres ∈ prof.deviceResources, devres.name = ro.deviceResource := by
      intro ro hro
      have hany := hparsed ro hro
      rw [operationParsed, Option.any_eq_true_iff_get] at hany
      obtain ⟨devres, hfind⟩ := Option.isSome_iff_exists.mp hany.1
      exact ⟨devres, List.mem_of_find?_eq_some hfind, findDevResource_name hfind⟩
    have hreqs := commandEntry_reqs createRes forGet hnamed
    refine (List.forall₂_map_left_iff.mp hreqs).imp ?_
    rintro op req ⟨devres, hfind, rfl⟩
    obtain ⟨x, hx, hread⟩ := (h.find_iff op devres).mp hfind
    exact ⟨x, devres, hx, hread, rfl, rfl⟩
  · obtain ⟨devres, hfind, rfl⟩ := Option.map_eq_some_iff.mp hcmd
    have hmatch := List.find?_some hfind
    simp only [Bool.and_eq_true, decide_eq_true_eq] at hmatch
    obtain ⟨x, hx, hread⟩ := forall₂_mem_right h.deviceResources (List.mem_of_find?_eq_some hfind)
    refine .inr ⟨x, hx, devres, _, ?_, hread, rfl, rfl, rfl⟩
    rw [← hmatch.1, (deviceresourceRead_name hread).1]

/-- Lookups in received details are defined, and find what is available, exactly where the lists
    are there, every type is known and every operation that is reached names a resource. -/
theorem lookupSound_iff (lenient : Bool) (c : NumberCast) (createRes : CreateRes)
    (hstrict : createRes.Strict) (obj : IotData) :
    LookupSound lenient c createRes obj ↔
      ∃ xs ys, Complete lenient c createRes obj xs ys := by
  constructor
  · intro h
    obtain ⟨prof', found, hlookup, -⟩ := h "" true
    obtain ⟨prof, hprof, hfind⟩ := Option.bind_eq_some_iff.mp hlookup
    obtain ⟨xs, ys, hread⟩ := profileReadC_eq_some.mp hprof
    have hguard := findcommandC_guarded hstrict hread.fresh "" true
    exact ⟨xs, ys, hread.complete_iff.mp (hguard.condition hfind)⟩
  · rintro ⟨xs, ys, hcomplete⟩ name forGet
    obtain ⟨prof, hread⟩ := hcomplete.readFrom
    have hguard := findcommandC_guarded hstrict hread.fresh name forGet
    have hdefined := hguard.defined (hread.complete_iff.mpr hcomplete)
    have hanswer :=
      ((hread.fresh.lookedUp createRes).findcommand hstrict hread.fresh name forGet).2
    refine ⟨(findcommand createRes prof name forGet).1, (findcommand createRes prof name forGet).2,
      ?_, fun cmd hcmd => ⟨xs, ys, hread.resources, hread.commands,
        hread.available (hanswer.symm.trans hcmd)⟩⟩
    rw [detailsLookup, profileReadC_eq_some.mpr ⟨xs, ys, hread⟩, Option.bind_some, hdefined]

/-- No number of a document is read. -/
def noNumbers : NumberCast where
  int64 := fun _ => none
  float64 := fun _ => none

/-- The details of a resource of a type. -/
def resourceDetails (valueType : String) : IotData :=
  .map [("name", .string "temperature"),
    ("properties", .map [("valueType", .string valueType)])]

/-- The details of a profile with a resource, and with a command that reads it. -/
def profileDetails (valueType : String) : IotData :=
  .map [("deviceCommands", .vector [.map [("name", .string "all"), ("resourceOperations",
      .vector [.map [("deviceResource", .string "temperature")]])]]),
    ("deviceResources", .vector [resourceDetails valueType]),
    ("name", .string "climate")]

theorem lookupSound_int16 : LookupSound false noNumbers refuseHumidity (profileDetails "Int16") := by
  refine (lookupSound_iff false noNumbers refuseHumidity strict_refuseHumidity _).mpr
    ⟨_, _, rfl, rfl, ?_, ?_⟩
  · intro x hx
    obtain rfl := List.mem_singleton.mp hx
    exact ⟨"Int16", _, rfl, rfl⟩
  · intro y hy
    obtain rfl := List.mem_singleton.mp hy
    refine ⟨_, rfl, fun _ pre op post he _ => ?_⟩
    cases pre with
    | nil =>
      rw [← (List.cons.inj he).1]
      decide
    | cons q qs => cases qs <;> cases he

/-- A type that has no name leaves the type code unset. -/
theorem lookup_undefined :
    ¬∀ (lenient : Bool) (c : NumberCast) (createRes : CreateRes), createRes.Strict →
      ∀ obj : IotData, LookupSound lenient c createRes obj := by
  intro h
  obtain ⟨prof, found, hlookup, -⟩ := h true noNumbers refuseHumidity strict_refuseHumidity
    (profileDetails "Int128") "temperature" true
  cases hlookup

end DeviceSdk
