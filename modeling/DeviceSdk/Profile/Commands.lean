import DeviceSdk.CmdInfo

/-!
# Looking up a command

The commands of a profile are prepared at the first lookup, in two passes over one table, and the
attributes that the driver parsed are kept in the resources. A lookup answers as if nothing were
kept: by the device commands of a name, or by the resources of that name where no device command
has it.

## Main definitions

- `commandEntry`, `resourceEntry` — what a command and a resource amount to
- `expected` — the answer to a lookup, told from the profile alone
- `Caches` — a profile after any number of lookups

## Main results

- `populateCmdInfo_adds` — the table that a profile calls for
- `findcommand_expected`
-/

namespace DeviceSdk

-- ════════════════════════════════════════════════════════════════════════
-- The answer to a lookup
-- ════════════════════════════════════════════════════════════════════════

/-- Whether a command admits a direction. -/
def DeviceCommand.admits (cmd : DeviceCommand) (forGet : Bool) : Bool :=
  if forGet then cmd.readable else cmd.writable

/-- Whether a resource admits a direction. -/
def DeviceResource.admits (devres : DeviceResource) (forGet : Bool) : Bool :=
  if forGet then devres.properties.readable else devres.properties.writable

/-- An exception comes with no parsed attributes. -/
def CreateRes.Strict (createRes : CreateRes) : Prop :=
  ∀ devres, (createRes devres).2.isSome = true → (createRes devres).1 = none

/-- A resource with the attributes that the driver made of its own. -/
def DeviceResource.done (createRes : CreateRes) (devres : DeviceResource) : DeviceResource :=
  { devres with parsedAttrs := (createRes devres).1 }

section Expected

variable (createRes : CreateRes) (parsed : DeviceResource → Bool) (prof : DeviceProfile)

/-- A request for a resource. A default of the operation, where it is not empty, comes before that
    of the resource. -/
def requestFor (devres : DeviceResource) (ro : ResourceOperation) : CmdReq where
  req :=
    { resource :=
        { name := devres.name
          attrs := (createRes devres).1
          tags := devres.tags
          type := devres.properties.type }
      mask := some (if devres.properties.mask.enabled then ~~~devres.properties.mask.value else 0) }
  pval := devres.properties
  map := ro.mappings
  dfl :=
    if ro.defaultValue ≠ "" then some ro.defaultValue
    else if devres.properties.defaultvalue ≠ "" then some devres.properties.defaultvalue
    else none

/-- The resource of an operation was parsed. -/
def operationParsed (ro : ResourceOperation) : Bool :=
  (findDevResource prof.deviceResources ro.deviceResource).any parsed

/-- A device command for one direction. -/
def commandEntry (cmd : DeviceCommand) (forGet : Bool) : CmdInfo where
  name := cmd.name
  profile := prof.name
  isget := forGet
  reqs := cmd.resourceOperations.filterMap fun ro =>
    (findDevResource prof.deviceResources ro.deviceResource).map (requestFor createRes · ro)
  tags := cmd.tags

/-- A resource for one direction. -/
def resourceEntry (devres : DeviceResource) (forGet : Bool) : CmdInfo where
  name := devres.name
  profile := prof.name
  isget := forGet
  reqs := [resourceReq (devres.done createRes)]
  tags := none

/-- Some device command has the name. -/
def isCommandName (name : String) : Bool :=
  prof.deviceCommands.any fun dc => decide (dc.name = name)

/-- The answer to a lookup: the first device command of the name that admits the direction and
    whose resources were all parsed; where no device command has the name, the first resource of
    that name that admits the direction and was parsed. -/
def expected (name : String) (forGet : Bool) : Option CmdInfo :=
  if isCommandName prof name then
    (prof.deviceCommands.find? fun cmd =>
      decide (cmd.name = name) && (cmd.admits forGet &&
        cmd.resourceOperations.all (operationParsed parsed prof))).map
      (commandEntry createRes prof · forGet)
  else
    (prof.deviceResources.find? fun devres =>
      decide (devres.name = name) && (devres.admits forGet && parsed devres)).map
      (resourceEntry createRes prof · forGet)

end Expected

/-- The driver reported no exception for a resource. -/
def noException (createRes : CreateRes) (devres : DeviceResource) : Bool :=
  (createRes devres).2.isNone

-- ════════════════════════════════════════════════════════════════════════
-- What lookups leave in a profile
-- ════════════════════════════════════════════════════════════════════════

/-- A resource that was not looked at, or whose attributes the driver was asked about. -/
def Kept (createRes : CreateRes) (devres kept : DeviceResource) : Prop :=
  kept = devres ∨ kept = devres.done createRes

/-- A profile as it was read. -/
structure Fresh (prof : DeviceProfile) : Prop where
  cmdinfo : prof.cmdinfo = []
  parsedAttrs : ∀ devres ∈ prof.deviceResources, devres.parsedAttrs = none

/-- A profile, apart from what is kept in it. -/
structure Caches (createRes : CreateRes) (prof cached : DeviceProfile) : Prop where
  name : cached.name = prof.name
  deviceCommands : cached.deviceCommands = prof.deviceCommands
  resources : List.Forall₂ (Kept createRes) prof.deviceResources cached.deviceResources

variable {createRes : CreateRes}

theorem Kept.name {devres kept : DeviceResource} (h : Kept createRes devres kept) :
    kept.name = devres.name := by
  rcases h with rfl | rfl <;> rfl

/-- A resource that still has no parsed attributes is as it was. -/
theorem Kept.eq_of_none {devres kept : DeviceResource} (h : Kept createRes devres kept)
    (hfresh : devres.parsedAttrs = none) (hnone : kept.parsedAttrs = none) : kept = devres := by
  rcases h with rfl | rfl
  · rfl
  · cases devres
    simp only [DeviceResource.done] at hfresh hnone ⊢
    rw [hnone, hfresh]

/-- A resource that has them has those of the driver. -/
theorem Kept.eq_done {devres kept : DeviceResource} (h : Kept createRes devres kept)
    (hfresh : devres.parsedAttrs = none) {attrs : Opaque} (hsome : kept.parsedAttrs = some attrs) :
    kept = devres.done createRes ∧ (createRes devres).1 = some attrs := by
  rcases h with rfl | rfl
  · rw [hfresh] at hsome
    cases hsome
  · exact ⟨rfl, hsome⟩

theorem CreateRes.Strict.noException (h : createRes.Strict) {devres : DeviceResource}
    {attrs : Opaque} (hsome : (createRes devres).1 = some attrs) :
    noException createRes devres = true := by
  rw [DeviceSdk.noException, Option.isNone_iff_eq_none]
  cases he : (createRes devres).2 with
  | none => rfl
  | some e =>
    have hnone := h devres (by rw [he]; rfl)
    rw [hnone] at hsome
    cases hsome

section Find

theorem findDevResource_cons (devres : DeviceResource) (rs : List DeviceResource) (name : String) :
    findDevResource (devres :: rs) name =
      if devres.name = name then some devres else findDevResource rs name := by
  rw [findDevResource, List.find?_cons]
  split <;> simp_all [findDevResource]

theorem findDevResource_name {rs : List DeviceResource} {name : String} {devres : DeviceResource}
    (h : findDevResource rs name = some devres) : devres.name = name := by
  simpa using List.find?_some h

/-- The same position is found in the resources that lookups left. -/
theorem find_kept {rs rs' : List DeviceResource} (h : List.Forall₂ (Kept createRes) rs rs')
    (name : String) :
    Option.Rel (Kept createRes) (findDevResource rs name) (findDevResource rs' name) := by
  induction h with
  | nil => exact .none
  | @cons r r' rs rs' hr _ ih =>
    rw [findDevResource_cons, findDevResource_cons, hr.name]
    split
    · exact .some hr
    · exact ih

theorem find_kept_none {rs rs' : List DeviceResource} (h : List.Forall₂ (Kept createRes) rs rs')
    {name : String} (hfind : findDevResource rs name = none) : findDevResource rs' name = none := by
  have hrel := find_kept h name
  rw [hfind] at hrel
  cases hfind' : findDevResource rs' name with
  | none => rfl
  | some kept =>
    rw [hfind'] at hrel
    exact absurd hrel Option.not_rel_none_some

theorem find_kept_some {rs rs' : List DeviceResource} (h : List.Forall₂ (Kept createRes) rs rs')
    {name : String} {devres : DeviceResource} (hfind : findDevResource rs name = some devres) :
    ∃ kept, findDevResource rs' name = some kept ∧ Kept createRes devres kept := by
  have hrel := find_kept h name
  rw [hfind] at hrel
  cases hfind' : findDevResource rs' name with
  | none =>
    rw [hfind'] at hrel
    exact absurd hrel Option.not_rel_some_none
  | some kept =>
    rw [hfind'] at hrel
    exact ⟨kept, rfl, Option.rel_some_some.mp hrel⟩

theorem find_storeAttrs_other {name other : String} (hne : other ≠ name) (attrs : Option Opaque)
    (rs : List DeviceResource) :
    findDevResource (storeAttrs name attrs rs) other = findDevResource rs other := by
  induction rs with
  | nil => rfl
  | cons r rs ih =>
    rw [storeAttrs]
    split
    · next hname =>
      have hother : r.name ≠ other := fun h => hne (h.symm.trans hname)
      rw [findDevResource_cons, findDevResource_cons, if_neg hother]
      exact (if_neg hother).symm
    · rw [findDevResource_cons, findDevResource_cons, ih]

theorem find_storeAttrs_same {name : String} {rs : List DeviceResource} {devres : DeviceResource}
    (h : findDevResource rs name = some devres) (attrs : Option Opaque) :
    findDevResource (storeAttrs name attrs rs) name =
      some { devres with parsedAttrs := attrs } := by
  induction rs with
  | nil => cases h
  | cons r rs ih =>
    rw [findDevResource_cons] at h
    rw [storeAttrs]
    split at h
    · next hname =>
      rw [if_pos hname, findDevResource_cons, Option.some.inj h]
      rw [Option.some.inj h] at hname
      exact if_pos hname
    · next hname =>
      rw [if_neg hname, findDevResource_cons, if_neg hname]
      exact ih h

theorem storeAttrs_kept {rs rs' : List DeviceResource} (h : List.Forall₂ (Kept createRes) rs rs')
    {name : String} {devres : DeviceResource} (hfind : findDevResource rs name = some devres) :
    List.Forall₂ (Kept createRes) rs (storeAttrs name (createRes devres).1 rs') := by
  induction h with
  | nil => cases hfind
  | @cons r r' rs rs' hr hrs ih =>
    rw [findDevResource_cons] at hfind
    rw [storeAttrs, hr.name]
    split at hfind
    · next hname =>
      obtain rfl := Option.some.inj hfind
      rw [if_pos hname]
      refine .cons (.inr ?_) hrs
      rcases hr with rfl | rfl <;> rfl
    · next hname =>
      rw [if_neg hname]
      exact .cons hr (ih hfind)

end Find

/-- What the first loop of `infoForRes` does to the resources `rs'` that lookups left: it goes
    through where every resource was parsed, and then they are all done. -/
structure ParseResult (createRes : CreateRes) (prof : DeviceProfile) (rs' : List DeviceResource)
    (ops : List ResourceOperation) (result : List DeviceResource × Bool) : Prop where
  kept : List.Forall₂ (Kept createRes) prof.deviceResources result.1
  done : ∀ {name devres}, findDevResource rs' name = some (devres.done createRes) →
    findDevResource prof.deviceResources name = some devres →
    findDevResource result.1 name = some (devres.done createRes)
  parsed : result.2 = ops.all (operationParsed (noException createRes) prof)
  all_done : result.2 = true → ∀ ro ∈ ops, ∀ devres,
    findDevResource prof.deviceResources ro.deviceResource = some devres →
    findDevResource result.1 ro.deviceResource = some (devres.done createRes)

section Parse

variable {prof : DeviceProfile} {rs' rs'' : List DeviceResource} {ro : ResourceOperation}
  {ros : List ResourceOperation} {devres : DeviceResource} {result : List DeviceResource × Bool}

theorem ParseResult.stop (h : List.Forall₂ (Kept createRes) prof.deviceResources rs')
    (hro : operationParsed (noException createRes) prof ro = false) :
    ParseResult createRes prof rs' (ro :: ros) (rs', false) where
  kept := h
  done := fun hd _ => hd
  parsed := by rw [List.all_cons, hro, Bool.false_and]
  all_done := fun hok => absurd hok Bool.false_ne_true

/-- The rest of the operations, once the resource of the first is done. -/
theorem ParseResult.cons (h : ParseResult createRes prof rs'' ros result)
    (hkeeps : ∀ {name r}, findDevResource rs' name = some (r.done createRes) →
      findDevResource prof.deviceResources name = some r →
      findDevResource rs'' name = some (r.done createRes))
    (hfind : findDevResource prof.deviceResources ro.deviceResource = some devres)
    (hdone : findDevResource rs'' ro.deviceResource = some (devres.done createRes))
    (hok : noException createRes devres = true) :
    ParseResult createRes prof rs' (ro :: ros) result where
  kept := h.kept
  done := fun hd hr => h.done (hkeeps hd hr) hr
  parsed := by
    rw [List.all_cons, operationParsed, hfind, Option.any_some, hok, Bool.true_and]
    exact h.parsed
  all_done := by
    intro hgo ro' hro' r hr
    rcases List.mem_cons.mp hro' with rfl | hmem
    · obtain rfl := Option.some.inj (hfind.symm.trans hr)
      exact h.done hdone hfind
    · exact h.all_done hgo ro' hmem r hr

theorem parseAttrs_unresolved (h : findDevResource rs' ro.deviceResource = none) :
    parseAttrs createRes none rs' (ro :: ros) = (rs', false) := by
  rw [parseAttrs, h]

theorem parseAttrs_known (h : findDevResource rs' ro.deviceResource = some devres)
    {attrs : Opaque} (hattrs : devres.parsedAttrs = some attrs) :
    parseAttrs createRes none rs' (ro :: ros) = parseAttrs createRes none rs' ros := by
  rw [parseAttrs, h]
  simp only [hattrs]

theorem parseAttrs_refused (hstrict : createRes.Strict)
    (h : findDevResource rs' ro.deviceResource = some devres) (hattrs : devres.parsedAttrs = none)
    (hno : noException createRes devres = false) :
    parseAttrs createRes none rs' (ro :: ros) = (rs', false) := by
  have hsome : (createRes devres).2.isSome = true := by
    rw [← Option.not_isNone, show (createRes devres).2.isNone = false from hno, Bool.not_false]
  rw [parseAttrs, h]
  simp only [hattrs, Option.or_none, hsome, hstrict devres hsome, Option.isNone_none, Bool.and_self,
    if_true]

theorem parseAttrs_asked (h : findDevResource rs' ro.deviceResource = some devres)
    (hattrs : devres.parsedAttrs = none) (hok : noException createRes devres = true) :
    parseAttrs createRes none rs' (ro :: ros) =
      parseAttrs createRes none (storeAttrs ro.deviceResource (createRes devres).1 rs') ros := by
  have hnone : (createRes devres).2 = none := Option.isNone_iff_eq_none.mp hok
  rw [parseAttrs, h]
  simp only [hattrs, hnone, Option.or_none, Option.isSome_none, Bool.and_false,
    Bool.false_eq_true, if_false, findDevResource_name h]

theorem parseAttrs_result (hstrict : createRes.Strict)
    (hfresh : ∀ r ∈ prof.deviceResources, r.parsedAttrs = none) (ops : List ResourceOperation)
    (h : List.Forall₂ (Kept createRes) prof.deviceResources rs') :
    ParseResult createRes prof rs' ops (parseAttrs createRes none rs' ops) := by
  induction ops generalizing rs' with
  | nil => exact ⟨h, fun hd _ => hd, rfl, fun _ ro hro => absurd hro List.not_mem_nil⟩
  | cons ro ros ih =>
    cases hfind : findDevResource prof.deviceResources ro.deviceResource with
    | none =>
      rw [parseAttrs_unresolved (find_kept_none h hfind)]
      exact .stop h (by rw [operationParsed, hfind, Option.any_none])
    | some devres =>
      have hnone := hfresh devres (List.mem_of_find?_eq_some hfind)
      obtain ⟨devres', hfind', hkept⟩ := find_kept_some h hfind
      cases hattrs : devres'.parsedAttrs with
      | some attrs =>
        obtain ⟨rfl, hsome⟩ := hkept.eq_done hnone hattrs
        rw [parseAttrs_known hfind' hattrs]
        exact (ih h).cons (fun hd _ => hd) hfind hfind' (hstrict.noException hsome)
      | none =>
        obtain rfl := hkept.eq_of_none hnone hattrs
        cases hok : noException createRes devres' with
        | false =>
          rw [parseAttrs_refused hstrict hfind' hattrs hok]
          exact .stop h (by rw [operationParsed, hfind, Option.any_some, hok])
        | true =>
          have hsame := find_storeAttrs_same hfind' (createRes devres').1
          rw [parseAttrs_asked hfind' hattrs hok]
          refine (ih (storeAttrs_kept h hfind)).cons ?_ hfind hsame hok
          intro name r hr hr'
          by_cases hn : name = ro.deviceResource
          · rw [hn] at hr' ⊢
            obtain rfl := Option.some.inj (hfind.symm.trans hr')
            exact hsame
          · rw [find_storeAttrs_other hn]
            exact hr

end Parse

-- ════════════════════════════════════════════════════════════════════════
-- The table
-- ════════════════════════════════════════════════════════════════════════

variable {prof cached : DeviceProfile}

theorem nonEmpty_or (a b : String) :
    (nonEmpty a).or (nonEmpty b) =
      if a ≠ "" then some a else if b ≠ "" then some b else none := by
  rw [nonEmpty, nonEmpty]
  split <;> split <;> simp_all

/-- The second loop of `infoForRes`, on resources that are done. -/
theorem operationReq_done (devres : DeviceResource) (ro : ResourceOperation) :
    operationReq (devres.done createRes) ro = requestFor createRes devres ro := by
  rw [operationReq, nonEmpty_or]
  rfl

/-- The entry of a command for a direction, where the command admits it and was parsed. -/
def commandRow (createRes : CreateRes) (prof : DeviceProfile) (cmd : DeviceCommand)
    (forGet : Bool) : List CmdInfo :=
  if cmd.resourceOperations.all (operationParsed (noException createRes) prof) then
    [commandEntry createRes prof cmd forGet]
  else []

/-- The entry of a resource for a direction, where it was parsed. -/
def resourceRow (createRes : CreateRes) (prof : DeviceProfile) (devres : DeviceResource)
    (forGet : Bool) : List CmdInfo :=
  if noException createRes devres then [resourceEntry createRes prof devres forGet] else []

/-- What a turn adds to the table of a profile that lookups left. -/
structure Adds (createRes : CreateRes) (prof cached : DeviceProfile) (entries : List CmdInfo)
    (cached' : DeviceProfile) : Prop where
  caches : Caches createRes prof cached'
  cmdinfo : cached'.cmdinfo = cached.cmdinfo ++ entries

theorem Adds.refl (h : Caches createRes prof cached) : Adds createRes prof cached [] cached :=
  ⟨h, (List.append_nil _).symm⟩

theorem Adds.trans {cached' cached'' : DeviceProfile} {es fs : List CmdInfo}
    (h : Adds createRes prof cached es cached') (h' : Adds createRes prof cached' fs cached'') :
    Adds createRes prof cached (es ++ fs) cached'' :=
  ⟨h'.caches, by rw [h'.cmdinfo, h.cmdinfo, List.append_assoc]⟩

/-- A loop adds what its turns add. -/
theorem Adds.foldl {ι : Type} {f : DeviceProfile → ι → DeviceProfile} {g : ι → List CmdInfo}
    {is : List ι}
    (hf : ∀ i ∈ is, ∀ cached, Caches createRes prof cached →
      Adds createRes prof cached (g i) (f cached i))
    (h : Caches createRes prof cached) :
    Adds createRes prof cached (is.flatMap g) (is.foldl f cached) := by
  induction is generalizing cached with
  | nil => exact .refl h
  | cons i is ih =>
    have hi := hf i List.mem_cons_self cached h
    rw [List.flatMap_cons, List.foldl_cons]
    exact hi.trans (ih (fun j hj => hf j (List.mem_cons_of_mem _ hj)) hi.caches)

/-- One direction of a turn of either loop. -/
theorem Adds.insert {admitted : Bool} {r : DeviceProfile × Option CmdInfo} {es : List CmdInfo}
    (h : Caches createRes prof cached) (hr : Caches createRes prof r.1)
    (hcmdinfo : r.1.cmdinfo = cached.cmdinfo) (hes : r.2.toList = es) :
    Adds createRes prof cached (if admitted then es else [])
      (if admitted then insertCmdInfo r else cached) := by
  cases admitted with
  | false => exact .refl h
  | true => exact ⟨⟨hr.name, hr.deviceCommands, hr.resources⟩, by simp [insertCmdInfo, hcmdinfo, hes]⟩

theorem infoForRes_adds (hstrict : createRes.Strict) (hfresh : Fresh prof)
    (h : Caches createRes prof cached) (cmd : DeviceCommand) (forGet admitted : Bool) :
    Adds createRes prof cached (if admitted then commandRow createRes prof cmd forGet else [])
      (if admitted then insertCmdInfo (infoForRes createRes cached cmd forGet) else cached) := by
  have hparse := parseAttrs_result hstrict hfresh.parsedAttrs cmd.resourceOperations h.resources
  have hleft : (infoForRes createRes cached cmd forGet).1 =
      { cached with
        deviceResources :=
          (parseAttrs createRes none cached.deviceResources cmd.resourceOperations).1 } := by
    rw [infoForRes]
    split <;> rfl
  refine .insert h ?_ ?_ ?_
  · rw [hleft]
    exact ⟨h.name, h.deviceCommands, hparse.kept⟩
  · rw [hleft]
  · rw [infoForRes, commandRow, ← hparse.parsed]
    split
    · next hok =>
      have hreqs : (cmd.resourceOperations.filterMap fun ro =>
            (findDevResource
              (parseAttrs createRes none cached.deviceResources cmd.resourceOperations).1
              ro.deviceResource).map (operationReq · ro)) =
          cmd.resourceOperations.filterMap fun ro =>
            (findDevResource prof.deviceResources ro.deviceResource).map
              (requestFor createRes · ro) := by
        apply List.filterMap_congr
        intro ro hro
        cases hfind : findDevResource prof.deviceResources ro.deviceResource with
        | none => rw [find_kept_none hparse.kept hfind]; rfl
        | some devres =>
          rw [hparse.all_done hok ro hro devres hfind, Option.map_some, Option.map_some,
            operationReq_done]
      dsimp only
      rw [hreqs, h.name]
      rfl
    · rfl

/-- The resource at a position that lookups left. -/
theorem Caches.get (h : Caches createRes prof cached) {i : ℕ} {devres : DeviceResource}
    (hi : prof.deviceResources[i]? = some devres) :
    ∃ kept, cached.deviceResources[i]? = some kept ∧ Kept createRes devres kept := by
  have hlt : i < prof.deviceResources.length := (List.getElem?_eq_some_iff.mp hi).1
  have hlt' : i < cached.deviceResources.length := h.resources.length_eq ▸ hlt
  refine ⟨_, List.getElem?_eq_getElem hlt', ?_⟩
  have hkept := h.resources.get hlt hlt'
  rw [List.get_eq_getElem, List.get_eq_getElem] at hkept
  rw [← Option.some.inj (hi.symm.trans (List.getElem?_eq_getElem hlt))] at hkept
  exact hkept

theorem Caches.set (h : Caches createRes prof cached) {i : ℕ} {devres : DeviceResource}
    (hi : prof.deviceResources[i]? = some devres) :
    Caches createRes prof
      { cached with
        deviceResources := cached.deviceResources.set i (devres.done createRes) } where
  name := h.name
  deviceCommands := h.deviceCommands
  resources := by
    refine List.forall₂_iff_get.mpr ⟨by simp [h.resources.length_eq], fun j hj hj' => ?_⟩
    have hget := h.resources.get hj (h.resources.length_eq ▸ hj)
    simp only [List.get_eq_getElem] at hget ⊢
    rw [List.getElem_set]
    split
    · next hij =>
      subst hij
      rw [List.getElem?_eq_getElem hj] at hi
      exact .inr (by rw [Option.some.inj hi])
    · exact hget

/-- `infoForDevRes`, where the driver is not asked twice. -/
theorem infoForDevRes_eq (hstrict : createRes.Strict) (hfresh : Fresh prof)
    (h : Caches createRes prof cached) {i : ℕ} {devres : DeviceResource}
    (hi : prof.deviceResources[i]? = some devres) (forGet : Bool) :
    infoForDevRes createRes cached i forGet =
      ({ cached with deviceResources := cached.deviceResources.set i (devres.done createRes) },
        (resourceRow createRes prof devres forGet).head?) := by
  obtain ⟨kept, hkept, hrel⟩ := h.get hi
  have hnone := hfresh.parsedAttrs devres (List.mem_of_getElem? hi)
  rw [infoForDevRes, hkept, resourceRow]
  cases hattrs : kept.parsedAttrs with
  | some attrs =>
    obtain ⟨rfl, hsome⟩ := hrel.eq_done hnone hattrs
    have hsame : { devres.done createRes with parsedAttrs := some attrs } =
        devres.done createRes := by rw [← hattrs]
    simp only [hattrs, hsame]
    rw [if_pos (hstrict.noException hsome), h.name]
    rfl
  | none =>
    obtain rfl := hrel.eq_of_none hnone hattrs
    have hsome : (createRes kept).2.isSome = !noException createRes kept := by
      rw [noException, Option.not_isNone]
    simp only [hattrs, hsome]
    cases noException createRes kept with
    | false => rfl
    | true =>
      rw [h.name]
      rfl

theorem infoForDevRes_adds (hstrict : createRes.Strict) (hfresh : Fresh prof)
    (h : Caches createRes prof cached) {i : ℕ} {devres : DeviceResource}
    (hi : prof.deviceResources[i]? = some devres) (forGet admitted : Bool) :
    Adds createRes prof cached (if admitted then resourceRow createRes prof devres forGet else [])
      (if admitted then insertCmdInfo (infoForDevRes createRes cached i forGet) else cached) := by
  rw [infoForDevRes_eq hstrict hfresh h hi]
  refine .insert h (h.set hi) rfl ?_
  rw [resourceRow]
  split <;> rfl

/-- The entries of a device command. -/
def commandRows (createRes : CreateRes) (prof : DeviceProfile) (cmd : DeviceCommand) :
    List CmdInfo :=
  (if cmd.readable then commandRow createRes prof cmd true else []) ++
    if cmd.writable then commandRow createRes prof cmd false else []

/-- The entries of a resource. -/
def resourceRows (createRes : CreateRes) (prof : DeviceProfile) (devres : DeviceResource) :
    List CmdInfo :=
  if isCommandName prof devres.name then []
  else
    (if devres.properties.readable then resourceRow createRes prof devres true else []) ++
      if devres.properties.writable then resourceRow createRes prof devres false else []

/-- The entries of a profile. -/
def table (createRes : CreateRes) (prof : DeviceProfile) : List CmdInfo :=
  prof.deviceCommands.flatMap (commandRows createRes prof) ++
    prof.deviceResources.flatMap (resourceRows createRes prof)

theorem populateCommand_adds (hstrict : createRes.Strict) (hfresh : Fresh prof)
    (h : Caches createRes prof cached) (cmd : DeviceCommand) :
    Adds createRes prof cached (commandRows createRes prof cmd)
      (populateCommand createRes cached cmd) := by
  have hread := infoForRes_adds hstrict hfresh h cmd true cmd.readable
  exact hread.trans (infoForRes_adds hstrict hfresh hread.caches cmd false cmd.writable)

theorem populateResource_adds (hstrict : createRes.Strict) (hfresh : Fresh prof)
    (h : Caches createRes prof cached) {i : ℕ} {devres : DeviceResource}
    (hi : prof.deviceResources[i]? = some devres) :
    Adds createRes prof cached (resourceRows createRes prof devres)
      (populateResource createRes cached i) := by
  obtain ⟨kept, hkept, hrel⟩ := h.get hi
  have hprops : kept.properties = devres.properties := by rcases hrel with rfl | rfl <;> rfl
  rw [populateResource, hkept, resourceRows, isCommandName]
  simp only [h.deviceCommands, hrel.name, hprops]
  split
  · exact .refl h
  · have hread := infoForDevRes_adds hstrict hfresh h hi true devres.properties.readable
    exact hread.trans
      (infoForDevRes_adds hstrict hfresh hread.caches hi false devres.properties.writable)

/-- A loop over the positions of a list is one over its elements. -/
theorem flatMap_range {α β : Type} (l : List α) (f : α → List β) :
    ((List.range l.length).flatMap fun i => l[i]?.elim [] f) = l.flatMap f := by
  induction l with
  | nil => rfl
  | cons a l ih =>
    rw [List.length_cons, List.range_succ_eq_map, List.flatMap_cons, List.flatMap_cons,
      List.flatMap_map, ← ih]
    rfl

theorem populateCmdInfo_adds (hstrict : createRes.Strict) (hfresh : Fresh prof)
    (h : Caches createRes prof cached) :
    Adds createRes prof cached (table createRes prof) (populateCmdInfo createRes cached) := by
  have hcommands : Adds createRes prof cached
      (prof.deviceCommands.flatMap (commandRows createRes prof))
      (cached.deviceCommands.foldl (populateCommand createRes) cached) := by
    rw [h.deviceCommands]
    exact .foldl (fun cmd _ _ hc => populateCommand_adds hstrict hfresh hc cmd) h
  refine hcommands.trans ?_
  rw [← flatMap_range, hcommands.caches.resources.length_eq]
  refine .foldl (fun i hi cached' hc => ?_) hcommands.caches
  rw [List.mem_range, ← hcommands.caches.resources.length_eq] at hi
  have hget := List.getElem?_eq_getElem hi
  rw [hget]
  exact populateResource_adds hstrict hfresh hc hget

-- ════════════════════════════════════════════════════════════════════════
-- Lookups
-- ════════════════════════════════════════════════════════════════════════

/-- A search through rows, each with at most one entry that is looked for. -/
theorem find?_flatMap_rows {α β : Type} {f : α → List β} {p : β → Bool} {q : α → Bool}
    {g : α → β} {l : List α}
    (h : ∀ a ∈ l, (f a).find? p = if q a then some (g a) else none) :
    (l.flatMap f).find? p = (l.find? q).map g := by
  induction l with
  | nil => rfl
  | cons a l ih =>
    rw [List.flatMap_cons, List.find?_append, h a List.mem_cons_self,
      ih fun b hb => h b (List.mem_cons_of_mem _ hb), List.find?_cons]
    cases q a <;> rfl

/-- What a lookup asks of an entry. -/
def isAnswer (name : String) (forGet : Bool) (c : CmdInfo) : Bool :=
  decide (c.name = name) && (c.isget == forGet)

theorem find_commandRows (cmd : DeviceCommand) (name : String) (forGet : Bool) :
    (commandRows createRes prof cmd).find? (isAnswer name forGet) =
      if decide (cmd.name = name) && (cmd.admits forGet &&
          cmd.resourceOperations.all (operationParsed (noException createRes) prof)) then
        some (commandEntry createRes prof cmd forGet)
      else none := by
  rw [commandRows, commandRow, commandRow, DeviceCommand.admits]
  generalize cmd.resourceOperations.all (operationParsed (noException createRes) prof) = parsed
  by_cases hn : cmd.name = name
  · cases forGet <;> cases cmd.readable <;> cases cmd.writable <;> cases parsed <;>
      simp [isAnswer, commandEntry, hn]
  · cases cmd.readable <;> cases cmd.writable <;> cases parsed <;>
      simp [isAnswer, commandEntry, hn]

theorem find_resourceRows (devres : DeviceResource) (name : String) (forGet : Bool) :
    (resourceRows createRes prof devres).find? (isAnswer name forGet) =
      if decide (devres.name = name) && (devres.admits forGet && noException createRes devres) &&
          !isCommandName prof name then
        some (resourceEntry createRes prof devres forGet)
      else none := by
  rw [resourceRows, resourceRow, resourceRow, DeviceResource.admits]
  generalize noException createRes devres = parsed
  by_cases hn : devres.name = name
  · rw [hn]
    cases isCommandName prof name <;> cases forGet <;> cases devres.properties.readable <;>
      cases devres.properties.writable <;> cases parsed <;> simp [isAnswer, resourceEntry, hn]
  · cases isCommandName prof devres.name <;> cases devres.properties.readable <;>
      cases devres.properties.writable <;> cases parsed <;> simp [isAnswer, resourceEntry, hn]

/-- The table holds the answers. -/
theorem find_table (name : String) (forGet : Bool) :
    (table createRes prof).find? (isAnswer name forGet) =
      expected createRes (noException createRes) prof name forGet := by
  rw [table, List.find?_append, find?_flatMap_rows fun cmd _ => find_commandRows cmd name forGet,
    find?_flatMap_rows fun devres _ => find_resourceRows devres name forGet, expected]
  cases hname : isCommandName prof name with
  | true =>
    have hnone : prof.deviceResources.find? (fun _ => false) = none :=
      List.find?_eq_none.mpr fun _ _ => Bool.false_ne_true
    simp [hnone]
  | false =>
    have hnone : prof.deviceCommands.find? (fun cmd =>
        decide (cmd.name = name) && (cmd.admits forGet &&
          cmd.resourceOperations.all (operationParsed (noException createRes) prof))) = none := by
      rw [List.find?_eq_none]
      intro cmd hcmd hand
      have hsame : decide (cmd.name = name) = true := (Bool.and_eq_true_iff.mp hand).1
      rw [isCommandName, List.any_eq_false] at hname
      exact hname cmd hcmd hsame
    rw [hnone]
    simp

/-- A profile after lookups: its table was not made, or came out empty, or is the one that the
    profile calls for. -/
structure LookedUp (createRes : CreateRes) (prof cached : DeviceProfile) : Prop where
  caches : Caches createRes prof cached
  cmdinfo : cached.cmdinfo = [] ∨ cached.cmdinfo = table createRes prof

theorem Fresh.lookedUp (hfresh : Fresh prof) (createRes : CreateRes) :
    LookedUp createRes prof prof where
  caches := ⟨rfl, rfl, List.forall₂_same.mpr fun _ _ => .inl rfl⟩
  cmdinfo := .inl hfresh.cmdinfo

/-- A lookup on what other lookups left. -/
theorem LookedUp.findcommand (hstrict : createRes.Strict) (hfresh : Fresh prof)
    (h : LookedUp createRes prof cached) (name : String) (forGet : Bool) :
    LookedUp createRes prof (DeviceSdk.findcommand createRes cached name forGet).1 ∧
      (DeviceSdk.findcommand createRes cached name forGet).2 =
        expected createRes (noException createRes) prof name forGet := by
  have hprepared : LookedUp createRes prof (prepared createRes cached) ∧
      (prepared createRes cached).cmdinfo = table createRes prof := by
    rw [prepared]
    by_cases hempty : cached.cmdinfo = []
    · have hadds := populateCmdInfo_adds hstrict hfresh h.caches
      have htable := hadds.cmdinfo
      rw [hempty, List.nil_append] at htable
      rw [hempty]
      exact ⟨⟨hadds.caches, .inr htable⟩, htable⟩
    · have htable := h.cmdinfo.resolve_left hempty
      rw [if_neg (by simpa using hempty)]
      exact ⟨h, htable⟩
  refine ⟨hprepared.1, ?_⟩
  rw [← find_table, ← hprepared.2]
  rfl

/-- A profile after the lookups of some names and directions. -/
def afterLookups (createRes : CreateRes) (prof : DeviceProfile)
    (lookups : List (String × Bool)) : DeviceProfile :=
  lookups.foldl (fun p l => (findcommand createRes p l.1 l.2).1) prof

theorem lookedUp_afterLookups (hstrict : createRes.Strict) (hfresh : Fresh prof)
    (lookups : List (String × Bool)) :
    LookedUp createRes prof (afterLookups createRes prof lookups) := by
  have hrun (cached : DeviceProfile) (h : LookedUp createRes prof cached) :
      LookedUp createRes prof (afterLookups createRes cached lookups) := by
    induction lookups generalizing cached with
    | nil => exact h
    | cons l ls ih => exact ih _ (h.findcommand hstrict hfresh l.1 l.2).1
  exact hrun prof (hfresh.lookedUp createRes)

/-- The requests of a command list its operations in order, each on the resource that it names. -/
theorem commandEntry_reqs (createRes : CreateRes) (forGet : Bool) {cmd : DeviceCommand}
    (h : ∀ ro ∈ cmd.resourceOperations, ∃ devres ∈ prof.deviceResources,
      devres.name = ro.deviceResource) :
    List.Forall₂ (fun ro req => ∃ devres,
        findDevResource prof.deviceResources ro.deviceResource = some devres ∧
          req = requestFor createRes devres ro)
      cmd.resourceOperations (commandEntry createRes prof cmd forGet).reqs := by
  rw [commandEntry]
  dsimp only
  generalize cmd.resourceOperations = ops at h
  induction ops with
  | nil => exact .nil
  | cons ro ros ih =>
    obtain ⟨devres, hmem, hname⟩ := h ro List.mem_cons_self
    have hsome : (findDevResource prof.deviceResources ro.deviceResource).isSome := by
      rw [findDevResource, List.find?_isSome]
      exact ⟨devres, hmem, decide_eq_true hname⟩
    obtain ⟨found, hfound⟩ := Option.isSome_iff_exists.mp hsome
    have hrest := ih fun ro' hro' => h ro' (List.mem_cons_of_mem _ hro')
    rw [List.filterMap_cons, hfound, Option.map_some]
    exact .cons ⟨found, hfound, rfl⟩ hrest

/-- A lookup answers by the first command of the name that admits the direction and whose
    resources were all parsed, and by the first such resource where no command has the name,
    whatever was looked up before. -/
theorem findcommand_expected (createRes : CreateRes) (prof : DeviceProfile) (hfresh : Fresh prof)
    (hops : ∀ cmd ∈ prof.deviceCommands, ∀ ro ∈ cmd.resourceOperations,
      ∃ devres ∈ prof.deviceResources, devres.name = ro.deviceResource)
    (hstrict : createRes.Strict) (lookups : List (String × Bool)) (name : String) (forGet : Bool) :
    (findcommand createRes (afterLookups createRes prof lookups) name forGet).2 =
        expected createRes (noException createRes) prof name forGet ∧
      ∀ cmd ∈ prof.deviceCommands,
        List.Forall₂ (fun ro req => ∃ devres,
            findDevResource prof.deviceResources ro.deviceResource = some devres ∧
              req = requestFor createRes devres ro)
          cmd.resourceOperations (commandEntry createRes prof cmd forGet).reqs :=
  ⟨((lookedUp_afterLookups hstrict hfresh lookups).findcommand hstrict hfresh name forGet).2,
    fun cmd hcmd => commandEntry_reqs createRes forGet (hops cmd hcmd)⟩

/-- Two resources and a command that reads both. -/
def climateProfile : DeviceProfile where
  name := "climate"
  deviceResources :=
    [{ name := "temperature", properties := { type := .scalar (.int .int16) } },
      { name := "humidity", properties := { type := .scalar (.int .uint8), writable := false } }]
  deviceCommands :=
    [{ name := "all"
       resourceOperations := [{ deviceResource := "temperature" }, { deviceResource := "humidity" }]
       writable := false }]

/-- A driver that reports an exception for one resource. -/
def refuseHumidity : CreateRes := fun devres =>
  if devres.name = "humidity" then (none, some (.string "no channel")) else (some 1, none)

theorem strict_refuseHumidity : refuseHumidity.Strict := by
  intro devres hsome
  rw [refuseHumidity] at hsome ⊢
  split at hsome
  · next hname => rw [if_pos hname]
  · cases hsome

theorem fresh_climateProfile : Fresh climateProfile := ⟨rfl, by decide⟩

theorem findcommand_expected_climate :
    (findcommand refuseHumidity (afterLookups refuseHumidity climateProfile [("all", true)])
        "temperature" true).2 =
        expected refuseHumidity (noException refuseHumidity) climateProfile "temperature" true ∧
      ∀ cmd ∈ climateProfile.deviceCommands,
        List.Forall₂ (fun ro req => ∃ devres,
            findDevResource climateProfile.deviceResources ro.deviceResource = some devres ∧
              req = requestFor refuseHumidity devres ro)
          cmd.resourceOperations (commandEntry refuseHumidity climateProfile cmd true).reqs :=
  findcommand_expected refuseHumidity climateProfile fresh_climateProfile (by decide)
    strict_refuseHumidity _ _ _

/-- The driver returned parsed attributes and reported no exception. -/
def succeeded (createRes : CreateRes) (devres : DeviceResource) : Bool :=
  (createRes devres).1.isSome && noException createRes devres

/-- A resource for which the driver returns nothing, and reports nothing, is available. -/
theorem findcommand_without_attributes :
    ¬∀ (createRes : CreateRes) (prof : DeviceProfile), Fresh prof →
      (∀ cmd ∈ prof.deviceCommands, ∀ ro ∈ cmd.resourceOperations,
        ∃ devres ∈ prof.deviceResources, devres.name = ro.deviceResource) →
      ∀ (lookups : List (String × Bool)) (name : String) (forGet : Bool),
        (findcommand createRes (afterLookups createRes prof lookups) name forGet).2 =
          expected createRes (succeeded createRes) prof name forGet := by
  intro h
  have hfound := h (fun _ => (none, none)) climateProfile fresh_climateProfile (by decide) []
    "temperature" true
  exact absurd hfound (by decide)

end DeviceSdk
