import DeviceSdk.Autoevent.Starter
import DeviceSdk.DevMap.Wf

/-!
# Autoevents that the SDK schedules

Without `ae_starter`, `edgex_device_autoevent_start` makes a schedule for each autoevent of a
device object, and `edgex_device_autoevent_stop` deletes the schedules that the object's records
have handles of. The operations on the device map record which of these they call.

## Main definitions

- `Schedule`, `Scheduled` — a schedule, and the state of map, records and schedules
- `Scheduled.autoeventStart`, `Scheduled.autoeventStop` — the calls into `autoevent.c`
- `Scheduled.fire` — a schedule that fires for a device that is not there
- `Scheduled.follow` — an operation on the map, with the calls that it makes
- `Scheduled.Tracks` — every active schedule has a record of its own, and describes its device

## Main results

- `Tracks.autoeventStart`, `Tracks.autoeventStop`, `Tracks.fire`
-/

namespace DeviceSdk

/-- A schedule that was created and added: the autoevent of a device object that it was made for,
    the profile that its command was found in, and the record that it runs with. -/
structure Schedule where
  id : ℕ
  owner : AutoRef
  event : AutoEvent
  profile : ProfileRef
  ai : AutoRecord

/-- The device map, the references that requests and callbacks hold, the records behind the
    autoevents, each with the schedule that it has the handle of, and the active schedules. -/
structure Scheduled where
  store : Store := .alloc
  requests : List DeviceRef := []
  callbacks : List DeviceRef := []
  impl : AutoRef → Option Schedule := fun _ => none
  active : List Schedule := []
  next : ℕ := 0

namespace Scheduled

/-- `iot_schedule_create` and `iot_schedule_add`, whose handle goes to the record. -/
def schedule (w : Scheduled) (x : Schedule) : Scheduled :=
  { w with
    impl := Function.update w.impl x.owner (some x)
    active := x :: w.active
    next := w.next + 1 }

/-- A turn of the loop in `edgex_device_autoevent_start`. An autoevent that has a record gets
    another schedule for it. -/
def startEntry (createRes : CreateRes) (d : DeviceRef) (p : ProfileRef) (w : Scheduled)
    (e : AutoEvent × ℕ) : Scheduled :=
  match w.impl (d, e.2) with
  | some x => w.schedule { x with id := w.next }
  | none =>
    match AutoRecord.new createRes (w.store.device d).dev (w.store.profile p).profile e.1 with
    | none => w
    | some ai => w.schedule { id := w.next, owner := (d, e.2), event := e.1, profile := p, ai }

/-- `edgex_device_autoevent_start`, on the device at `d` with the profile at `p`. -/
def autoeventStart (createRes : CreateRes) (w : Scheduled) (d : DeviceRef) (p : ProfileRef) :
    Scheduled :=
  (w.store.device d).dev.autos.zipIdx.foldl (startEntry createRes d p) w

/-- A turn of the loop in `edgex_device_autoevent_stop`. -/
def stopEntry (d : DeviceRef) (w : Scheduled) (i : ℕ) : Scheduled :=
  match w.impl (d, i) with
  | none => w
  | some x =>
    { w with
      impl := Function.update w.impl (d, i) none
      active := w.active.filter fun y => decide (y.id ≠ x.id) }

/-- `edgex_device_autoevent_stop`. -/
def autoeventStop (w : Scheduled) (d : DeviceRef) : Scheduled :=
  (List.range (w.store.device d).dev.autos.length).foldl (stopEntry d) w

/-- The end of `ae_runner` for the record of an autoevent: a schedule that fires for a name that is
    not in the map is taken out, and its record keeps the handle. -/
def fire (w : Scheduled) (a : AutoRef) : Scheduled :=
  match w.impl a with
  | some x =>
    if w.store.devices.lookup x.ai.device = none then
      { w with active := w.active.filter fun y => decide (y.id ≠ x.id) }
    else w
  | none => w

/-- A call into `autoevent.c`. -/
def perform (createRes : CreateRes) (w : Scheduled) : AutoeventCall → Scheduled
  | .start d p => w.autoeventStart createRes d p
  | .stop d => w.autoeventStop d

/-- The map goes over to `s`, with the calls that were recorded on the way. -/
def follow (createRes : CreateRes) (w : Scheduled) (s : Store) : Scheduled :=
  (s.calls.drop w.store.calls.length).foldl (perform createRes) { w with store := s }

end Scheduled

/-- A schedule belongs to an autoevent of a device object, and runs a command of its profile. -/
structure Schedule.Of (createRes : CreateRes) (s : Store) (x : Schedule) : Prop where
  lt : x.owner.1 < s.nextDevice
  name : x.ai.device = (s.device x.owner.1).dev.name
  event : (s.device x.owner.1).dev.autos[x.owner.2]? = some x.event
  profile_lt : x.profile < s.nextProfile
  command : (findcommand createRes (s.profile x.profile).profile x.event.resource true).2 =
    some x.ai.resource

/-- The records have handles of schedules of their own, and every active schedule is one of
    them. -/
structure Scheduled.Tracks (createRes : CreateRes) (w : Scheduled) : Prop where
  attached : ∀ x ∈ w.active, w.impl x.owner = some x
  owner : ∀ {a x}, w.impl a = some x → x.owner = a
  distinct : ∀ {a b x y}, w.impl a = some x → w.impl b = some y → x.id = y.id → x = y
  ids : (w.active.map Schedule.id).Nodup
  ids_lt : ∀ {a x}, w.impl a = some x → x.id < w.next
  of : ∀ {a x}, w.impl a = some x → x.Of createRes w.store

namespace Scheduled

variable {createRes : CreateRes} {w : Scheduled}

-- ════════════════════════════════════════════════════════════════════════
-- Stopping
-- ════════════════════════════════════════════════════════════════════════

/-- A state whose schedules differ from those of another, and nothing else. -/
structure SameMap (w w' : Scheduled) : Prop where
  store : w'.store = w.store
  requests : w'.requests = w.requests
  callbacks : w'.callbacks = w.callbacks

theorem SameMap.rfl : SameMap w w := ⟨Eq.refl _, Eq.refl _, Eq.refl _⟩

theorem SameMap.trans {w' w'' : Scheduled} (h : SameMap w w') (h' : SameMap w' w'') :
    SameMap w w'' :=
  ⟨h'.store.trans h.store, h'.requests.trans h.requests, h'.callbacks.trans h.callbacks⟩

theorem sameMap_foldl {α : Type} {f : Scheduled → α → Scheduled} (hf : ∀ w a, SameMap w (f w a))
    (as : List α) (w : Scheduled) : SameMap w (as.foldl f w) := by
  induction as generalizing w with
  | nil => exact .rfl
  | cons a as ih => exact (hf w a).trans (ih (f w a))

theorem sameMap_stopEntry (d : DeviceRef) (i : ℕ) : SameMap w (w.stopEntry d i) := by
  rw [stopEntry]
  split <;> exact ⟨rfl, rfl, rfl⟩

theorem Tracks.of_active (h : w.Tracks createRes) {x : Schedule} (hx : x ∈ w.active) :
    x.Of createRes w.store :=
  h.of (h.attached x hx)

theorem Tracks.mem_filter_id (h : w.Tracks createRes) {a : AutoRef} {y : Schedule}
    (hy : w.impl a = some y) (x : Schedule) :
    (x ∈ w.active.filter fun z => decide (z.id ≠ y.id)) ↔ x ∈ w.active ∧ x.owner ≠ a := by
  rw [List.mem_filter, decide_eq_true_eq]
  refine and_congr_right fun hx => not_congr ?_
  constructor
  · intro hid
    rw [h.distinct (h.attached x hx) hy hid]
    exact h.owner hy
  · intro ho
    have hx' := h.attached x hx
    rw [ho, hy] at hx'
    rw [Option.some.inj hx']

theorem mem_stopEntry (h : w.Tracks createRes) (d : DeviceRef) (i : ℕ) (x : Schedule) :
    x ∈ (w.stopEntry d i).active ↔ x ∈ w.active ∧ x.owner ≠ (d, i) := by
  rw [stopEntry]
  split
  next hnone =>
    refine ⟨fun hx => ⟨hx, ?_⟩, And.left⟩
    intro ho
    have hx' := h.attached x hx
    rw [ho, hnone] at hx'
    cases hx'
  next y hy => exact h.mem_filter_id hy x

theorem impl_stopEntry (d : DeviceRef) (i : ℕ) (a : AutoRef) (x : Schedule) :
    (w.stopEntry d i).impl a = some x ↔ w.impl a = some x ∧ a ≠ (d, i) := by
  rw [stopEntry]
  split
  next hnone =>
    refine ⟨fun ha => ⟨ha, ?_⟩, And.left⟩
    rintro rfl
    rw [hnone] at ha
    cases ha
  · by_cases ha : a = (d, i)
    · simp [ha]
    · simp [ha]

/-- Schedules may end and records be released, as long as those that are left belong together. -/
theorem Tracks.of_le (h : w.Tracks createRes) {w' : Scheduled} (hsame : SameMap w w')
    (hactive : w'.active.Sublist w.active) (hnext : w'.next = w.next)
    (himpl : ∀ {a x}, w'.impl a = some x → w.impl a = some x)
    (hkept : ∀ x ∈ w'.active, w'.impl x.owner = some x) : w'.Tracks createRes where
  attached := hkept
  owner ha := h.owner (himpl ha)
  distinct ha hb := h.distinct (himpl ha) (himpl hb)
  ids := h.ids.sublist (hactive.map _)
  ids_lt ha := by
    rw [hnext]
    exact h.ids_lt (himpl ha)
  of ha := by
    rw [hsame.store]
    exact h.of (himpl ha)

theorem Tracks.stopEntry (h : w.Tracks createRes) (d : DeviceRef) (i : ℕ) :
    (w.stopEntry d i).Tracks createRes := by
  apply h.of_le (sameMap_stopEntry d i)
  · rw [Scheduled.stopEntry]
    split
    · exact List.Sublist.refl _
    · exact List.filter_sublist
  · rw [Scheduled.stopEntry]
    split <;> rfl
  · exact fun ha => ((impl_stopEntry d i _ _).mp ha).1
  · intro x hx
    obtain ⟨hx', ho⟩ := (mem_stopEntry h d i x).mp hx
    exact (impl_stopEntry d i _ _).mpr ⟨h.attached x hx', ho⟩

theorem sameMap_autoeventStop (w : Scheduled) (d : DeviceRef) : SameMap w (w.autoeventStop d) :=
  sameMap_foldl (fun _ i => sameMap_stopEntry d i) _ w

theorem Tracks.foldl_stopEntry (h : w.Tracks createRes) (d : DeviceRef) (is : List ℕ) :
    (is.foldl (Scheduled.stopEntry d) w).Tracks createRes ∧
      (∀ x, x ∈ (is.foldl (Scheduled.stopEntry d) w).active ↔
        x ∈ w.active ∧ ∀ i ∈ is, x.owner ≠ (d, i)) ∧
      ∀ a x, (is.foldl (Scheduled.stopEntry d) w).impl a = some x ↔
        w.impl a = some x ∧ ∀ i ∈ is, a ≠ (d, i) := by
  induction is generalizing w with
  | nil => exact ⟨h, by simp, by simp⟩
  | cons i is ih =>
    obtain ⟨htracks, hmem, himpl⟩ := ih (h.stopEntry d i)
    refine ⟨htracks, fun x => ?_, fun a x => ?_⟩
    · rw [List.foldl_cons, hmem, mem_stopEntry h, List.forall_mem_cons, and_assoc]
    · rw [List.foldl_cons, himpl, impl_stopEntry, List.forall_mem_cons, and_assoc]

/-- Stopping a device deletes its schedules and releases its records, and no others. -/
theorem Tracks.autoeventStop (h : w.Tracks createRes) (d : DeviceRef) :
    (w.autoeventStop d).Tracks createRes ∧ SameMap w (w.autoeventStop d) ∧
      (∀ x, x ∈ (w.autoeventStop d).active ↔ x ∈ w.active ∧ x.owner.1 ≠ d) ∧
      ∀ a x, (w.autoeventStop d).impl a = some x ↔ w.impl a = some x ∧ a.1 ≠ d := by
  obtain ⟨htracks, hmem, himpl⟩ :=
    h.foldl_stopEntry d (List.range (w.store.device d).dev.autos.length)
  have hentries : ∀ {a x}, w.impl a = some x →
      ((∀ i ∈ List.range (w.store.device d).dev.autos.length, a ≠ (d, i)) ↔ a.1 ≠ d) := by
    intro a x ha
    constructor
    · intro hne ho
      have hevent := (h.of ha).event
      rw [h.owner ha, ho] at hevent
      obtain ⟨hlt, -⟩ := List.getElem?_eq_some_iff.mp hevent
      exact hne a.2 (List.mem_range.mpr hlt) (Prod.ext ho rfl)
    · intro hne i _ ho
      exact hne (congrArg Prod.fst ho)
  refine ⟨htracks, sameMap_autoeventStop w d, fun x => ?_, fun a x => ?_⟩
  · exact (hmem x).trans (and_congr_right fun hx => hentries (h.attached x hx))
  · exact (himpl a x).trans (and_congr_right fun ha => hentries ha)

theorem Tracks.fire (h : w.Tracks createRes) (a : AutoRef) :
    (w.fire a).Tracks createRes ∧ SameMap w (w.fire a) ∧ (w.fire a).impl = w.impl ∧
      ∀ x ∈ (w.fire a).active, x ∈ w.active := by
  rw [Scheduled.fire]
  split
  next y hy =>
    split
    · have hsub : ∀ x ∈ w.active.filter (fun z => decide (z.id ≠ y.id)), x ∈ w.active :=
        fun x hx => List.mem_of_mem_filter hx
      exact ⟨h.of_le ⟨rfl, rfl, rfl⟩ List.filter_sublist rfl (fun ha => ha)
        fun x hx => h.attached x (hsub x hx), ⟨rfl, rfl, rfl⟩, rfl, hsub⟩
    · exact ⟨h, .rfl, rfl, fun x hx => hx⟩
  · exact ⟨h, .rfl, rfl, fun x hx => hx⟩

-- ════════════════════════════════════════════════════════════════════════
-- Starting
-- ════════════════════════════════════════════════════════════════════════

theorem sameMap_startEntry (d : DeviceRef) (p : ProfileRef) (e : AutoEvent × ℕ) :
    SameMap w (w.startEntry createRes d p e) := by
  rw [startEntry]
  split
  · exact ⟨rfl, rfl, rfl⟩
  · split <;> exact ⟨rfl, rfl, rfl⟩

/-- Calls into `autoevent.c` leave map and references alone. -/
theorem sameMap_follow (w : Scheduled) (s : Store) :
    SameMap { w with store := s } (w.follow createRes s) := by
  refine sameMap_foldl (fun w c => ?_) _ _
  cases c with
  | start d p => exact sameMap_foldl (fun _ e => sameMap_startEntry d p e) _ w
  | stop d => exact sameMap_autoeventStop w d

theorem schedule_impl_cases {a : AutoRef} {x y : Schedule} (h : (w.schedule x).impl a = some y) :
    (a = x.owner ∧ y = x) ∨ w.impl a = some y := by
  by_cases hax : a = x.owner
  · have hself : (w.schedule x).impl x.owner = some x := Function.update_self _ _ w.impl
    rw [hax, hself] at h
    exact .inl ⟨hax, (Option.some.inj h).symm⟩
  · have hne : (w.schedule x).impl a = w.impl a := Function.update_of_ne hax _ w.impl
    exact .inr (hne ▸ h)

/-- A new schedule for an autoevent that has no active one. -/
theorem Tracks.schedule (h : w.Tracks createRes) {x : Schedule}
    (hfree : ∀ y ∈ w.active, y.owner ≠ x.owner) (hid : x.id = w.next)
    (hof : x.Of createRes w.store) : (w.schedule x).Tracks createRes := by
  have hlt : ∀ {a y}, w.impl a = some y → y.id ≠ x.id :=
    fun ha => hid ▸ (h.ids_lt ha).ne
  constructor
  · intro y hy
    cases List.mem_cons.mp hy with
    | inl he =>
      rw [he]
      exact Function.update_self _ _ w.impl
    | inr hy' => exact (Function.update_of_ne (hfree y hy') _ w.impl).trans (h.attached y hy')
  · intro a y ha
    rcases schedule_impl_cases ha with ⟨rfl, rfl⟩ | ha'
    · rfl
    · exact h.owner ha'
  · intro a b y z ha hb hyz
    rcases schedule_impl_cases ha with ⟨-, rfl⟩ | ha'
    · rcases schedule_impl_cases hb with ⟨-, rfl⟩ | hb'
      · rfl
      · exact absurd hyz.symm (hlt hb')
    · rcases schedule_impl_cases hb with ⟨-, rfl⟩ | hb'
      · exact absurd hyz (hlt ha')
      · exact h.distinct ha' hb' hyz
  · refine List.nodup_cons.mpr ⟨?_, h.ids⟩
    intro hmem
    obtain ⟨y, hy, hyid⟩ := List.mem_map.mp hmem
    exact hlt (h.attached y hy) hyid
  · intro a y ha
    show y.id < w.next + 1
    rcases schedule_impl_cases ha with ⟨-, rfl⟩ | ha'
    · omega
    · have hy := h.ids_lt ha'
      omega
  · intro a y ha
    rcases schedule_impl_cases ha with ⟨-, rfl⟩ | ha'
    · exact hof
    · exact h.of ha'

section Start

variable {d : DeviceRef} {p : ProfileRef}

/-- What a start leaves: the schedules that there were, and schedules of the device. -/
structure Started (d : DeviceRef) (p : ProfileRef) (w w' : Scheduled) : Prop where
  same : SameMap w w'
  new : ∀ x ∈ w'.active, x ∈ w.active ∨ (x.owner.1 = d ∧ x.profile = p)
  records : ∀ {a x}, w'.impl a = some x → w.impl a = some x ∨ (a.1 = d ∧ x.profile = p)

theorem Started.rfl : Started d p w w := ⟨.rfl, fun _ hx => .inl hx, .inl⟩

theorem Started.trans {w' w'' : Scheduled} (h : Started d p w w') (h' : Started d p w' w'') :
    Started d p w w'' where
  same := h.same.trans h'.same
  new x hx := (h'.new x hx).elim (h.new x) .inr
  records ha := (h'.records ha).elim h.records .inr

theorem started_schedule {x : Schedule} (hd : x.owner.1 = d) (hp : x.profile = p) :
    Started d p w (w.schedule x) where
  same := ⟨Eq.refl _, Eq.refl _, Eq.refl _⟩
  new y hy := by
    cases List.mem_cons.mp hy with
    | inl hnew => exact .inr (hnew ▸ ⟨hd, hp⟩)
    | inr hold => exact .inl hold
  records ha := by
    rcases schedule_impl_cases ha with ⟨rfl, rfl⟩ | hold
    · exact .inr ⟨hd, hp⟩
    · exact .inl hold

theorem Tracks.startEntry (h : w.Tracks createRes) (hd : d < w.store.nextDevice)
    (hp : p < w.store.nextProfile) {e : AutoEvent × ℕ}
    (he : (w.store.device d).dev.autos[e.2]? = some e.1)
    (hfree : ∀ x ∈ w.active, x.owner ≠ (d, e.2))
    (hrec : ∀ {i x}, w.impl (d, i) = some x → x.profile = p) :
    (w.startEntry createRes d p e).Tracks createRes ∧
      Started d p w (w.startEntry createRes d p e) ∧
      ∀ x ∈ (w.startEntry createRes d p e).active, x ∈ w.active ∨ x.owner = (d, e.2) := by
  rw [Scheduled.startEntry]
  split
  next x hx =>
    have ho := h.owner hx
    have hof := h.of hx
    have hxp := hrec hx
    refine ⟨h.schedule (fun y hy => ho ▸ hfree y hy) rfl
      ⟨hof.lt, hof.name, hof.event, hof.profile_lt, hof.command⟩,
      started_schedule (congrArg Prod.fst ho) hxp, fun y hy => ?_⟩
    cases List.mem_cons.mp hy with
    | inl hnew => exact .inr (hnew ▸ ho)
    | inr hold => exact .inl hold
  · split
    · exact ⟨h, .rfl, fun _ hx => .inl hx⟩
    next ai hai =>
      obtain ⟨hname, hcommand, -⟩ := AutoRecord.of_new hai
      refine ⟨h.schedule hfree rfl ⟨hd, hname, he, hp, hcommand⟩, started_schedule rfl rfl,
        fun y hy => ?_⟩
      cases List.mem_cons.mp hy with
      | inl hnew => exact .inr (hnew ▸ rfl)
      | inr hold => exact .inl hold

theorem Tracks.foldl_startEntry (h : w.Tracks createRes) (hd : d < w.store.nextDevice)
    (hp : p < w.store.nextProfile) {es : List (AutoEvent × ℕ)}
    (hes : ∀ e ∈ es, (w.store.device d).dev.autos[e.2]? = some e.1)
    (hnodup : (es.map Prod.snd).Nodup)
    (hfree : ∀ e ∈ es, ∀ x ∈ w.active, x.owner ≠ (d, e.2))
    (hrec : ∀ {i x}, w.impl (d, i) = some x → x.profile = p) :
    (es.foldl (Scheduled.startEntry createRes d p) w).Tracks createRes ∧
      Started d p w (es.foldl (Scheduled.startEntry createRes d p) w) := by
  induction es generalizing w with
  | nil => exact ⟨h, .rfl⟩
  | cons e es ih =>
    obtain ⟨he, hes'⟩ := List.forall_mem_cons.mp hes
    obtain ⟨hne, hnodup'⟩ := List.nodup_cons.mp hnodup
    obtain ⟨hfree', hrest⟩ := List.forall_mem_cons.mp hfree
    obtain ⟨htracks, hstarted, hnew⟩ := h.startEntry hd hp he hfree' hrec
    have hstore := hstarted.same.store
    have hlater : ∀ f ∈ es, ∀ x ∈ (w.startEntry createRes d p e).active, x.owner ≠ (d, f.2) := by
      intro f hf x hx ho
      rcases hnew x hx with hold | hown
      · exact hrest f hf x hold ho
      · have hfe : f.2 = e.2 := (Prod.mk.inj (ho.symm.trans hown)).2
        exact hne (hfe ▸ List.mem_map_of_mem hf)
    obtain ⟨htracks', hstarted'⟩ := ih htracks (hstore ▸ hd) (hstore ▸ hp)
      (by rw [hstore]; exact hes') hnodup' hlater
      fun ha => (hstarted.records ha).elim hrec And.right
    exact ⟨htracks', hstarted.trans hstarted'⟩

/-- Starting a device that has no active schedules makes schedules of the device. -/
theorem Tracks.autoeventStart (h : w.Tracks createRes) (hd : d < w.store.nextDevice)
    (hp : p < w.store.nextProfile) (hfree : ∀ x ∈ w.active, x.owner.1 ≠ d)
    (hrec : ∀ {i x}, w.impl (d, i) = some x → x.profile = p) :
    (w.autoeventStart createRes d p).Tracks createRes ∧
      Started d p w (w.autoeventStart createRes d p) := by
  refine h.foldl_startEntry hd hp ?_ ?_ ?_ hrec
  · rintro ⟨ae, i⟩ he
    exact List.mk_mem_zipIdx_iff_getElem?.mp he
  · rw [List.zipIdx_map_snd]
    exact List.nodup_range'
  · intro e _ x hx ho
    exact hfree x hx (congrArg Prod.fst ho)

end Start

end Scheduled

end DeviceSdk
