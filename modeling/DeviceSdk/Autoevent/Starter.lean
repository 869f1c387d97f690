import DeviceSdk.Command.Entry
import DeviceSdk.Config.Populate
import DeviceSdk.Lib.Run

/-!
# Autoevents of a driver that runs its own

A driver may supply `ae_starter` and `ae_stopper`. `edgex_device_autoevent_start` then queues a
job for each autoevent, and the job calls `ae_starter`; `edgex_device_autoevent_stop` calls
`ae_stopper` at once, and releases the record that the job works on. The parties are the threads
that start and stop autoevents, one autoevent at a time, and the jobs of the thread pool.

## Main definitions

- `AutoRecord` — `edgex_autoimpl`, with what the driver returned for it
- `Starters`, `Starters.step` — the state, and the turns of the parties
- `Starters.Paired` — handles are stopped once, and jobs find their records
- `Starters.Timely` — the turns that keep this

## Main results

- `starters_paired_iff`
-/

namespace DeviceSdk

/-- An autoevent: a device object, and a position in its list. -/
abbrev AutoRef := DeviceRef × ℕ

abbrev ImplRef := ℕ

/-- `edgex_autoimpl`. `starts` counts the calls of `ae_starter` that returned for it. -/
structure AutoRecord extends AutoImpl where
  interval : BitVec 64
  protocols : List Protocol
  handle : Option Opaque := none
  starts : ℕ := 0
  released : Bool := false

/-- What `edgex_device_autoevent_start` makes of an autoevent that has no record, on a device with
    the profile `prof`: none, where there is no such command or the interval cannot be read. -/
def AutoRecord.new {P : Type} (createRes : CreateRes) (dev : Device P) (prof : DeviceProfile)
    (ae : AutoEvent) : Option AutoRecord :=
  match (findcommand createRes prof ae.resource true).2 with
  | none => none
  | some cmd =>
    if parsetime ae.interval = 0 then none
    else some {
      device := dev.name
      resource := cmd
      onChange := ae.onChange
      onChangeThreshold := ae.onChangeThreshold
      interval := parsetime ae.interval
      protocols := protocolsDup dev.protocols }

/-- A record is made for a device and a command of its profile. -/
theorem AutoRecord.of_new {P : Type} {createRes : CreateRes} {dev : Device P}
    {prof : DeviceProfile} {ae : AutoEvent} {r : AutoRecord}
    (h : AutoRecord.new createRes dev prof ae = some r) :
    r.device = dev.name ∧ (findcommand createRes prof ae.resource true).2 = some r.resource ∧
      r.starts = 0 ∧ r.released = false := by
  rw [AutoRecord.new] at h
  split at h
  · cases h
  next cmd hcmd =>
    split at h
    · cases h
    · rw [← Option.some.inj h]
      exact ⟨rfl, hcmd, rfl, rfl⟩

/-- A call to the driver, or the return of one. -/
inductive AeCall
  | starter (ai : AutoRecord)
  | started (handle : Option Opaque)
  | stopper (handle : Option Opaque)

/-- The records behind the autoevents, the jobs in the pool and those that are running, and the
    calls to the driver, latest first. -/
structure Starters where
  impl : AutoRef → Option ImplRef := fun _ => none
  record : ImplRef → AutoRecord
  next : ImplRef := 0
  queue : List ImplRef := []
  running : List ImplRef := []
  calls : List AeCall := []

/-- A turn: an autoevent is started or stopped, a job begins, or `ae_starter` returns to it. -/
inductive StarterTurn
  | start (a : AutoRef) (dev : Device DeviceProfile) (ae : AutoEvent)
  | stop (a : AutoRef)
  | begin (ai : ImplRef)
  | finish (ai : ImplRef) (handle : Option Opaque)

/-- `edgex_device_autoevent_start`, on the device object at `d`. -/
def autoeventStart (d : DeviceRef) (dev : Device DeviceProfile) : List StarterTurn :=
  dev.autos.mapIdx fun i ae => .start (d, i) dev ae

/-- `edgex_device_autoevent_stop`. -/
def autoeventStop (d : DeviceRef) (dev : Device DeviceProfile) : List StarterTurn :=
  (List.range dev.autos.length).map fun i => .stop (d, i)

namespace Starters

/-- Nothing was started. What the memory of a record holds before it is in use does not matter. -/
def fresh (unused : AutoRecord) : Starters := { record := fun _ => unused }

/-- A turn of the loop in `edgex_device_autoevent_start`. -/
def start (createRes : CreateRes) (s : Starters) (a : AutoRef) (dev : Device DeviceProfile)
    (ae : AutoEvent) : Starters :=
  match s.impl a with
  | some ai => { s with queue := ai :: s.queue }
  | none =>
    match AutoRecord.new createRes dev dev.profile ae with
    | none => s
    | some r =>
      { s with
        impl := Function.update s.impl a (some s.next)
        record := Function.update s.record s.next r
        next := s.next + 1
        queue := s.next :: s.queue }

/-- A turn of the loop in `edgex_device_autoevent_stop`, with `stopper`. -/
def stop (s : Starters) (a : AutoRef) : Starters :=
  match s.impl a with
  | none => s
  | some ai =>
    { s with
      impl := Function.update s.impl a none
      record := Function.update s.record ai
        { s.record ai with handle := none, released := true }
      calls := .stopper (s.record ai).handle :: s.calls }

/-- One turn. The jobs of the pool run in any order. -/
def step (createRes : CreateRes) (s : Starters) : StarterTurn → Starters
  | .start a dev ae => s.start createRes a dev ae
  | .stop a => s.stop a
  | .begin ai =>
    if ai ∈ s.queue then
      { s with
        queue := s.queue.erase ai
        running := ai :: s.running
        calls := .starter (s.record ai) :: s.calls }
    else s
  | .finish ai handle =>
    if ai ∈ s.running then
      { s with
        running := s.running.erase ai
        record := Function.update s.record ai
          { s.record ai with handle, starts := (s.record ai).starts + 1 }
        calls := .started handle :: s.calls }
    else s

/-- The handles that `ae_starter` returned. -/
def returned (s : Starters) : List (Option Opaque) :=
  s.calls.filterMap fun
    | .started h => some h
    | _ => none

/-- The handles that `ae_stopper` was given. -/
def stopped (s : Starters) : List (Option Opaque) :=
  s.calls.filterMap fun
    | .stopper h => some h
    | _ => none

end Starters

/-- The handle of a record that was started and not stopped. -/
def AutoRecord.liveHandle (r : AutoRecord) : Option (Option Opaque) :=
  if r.released = false ∧ 0 < r.starts then some r.handle else none

namespace Starters

/-- The handles of the autoevents that were started and not stopped. -/
def live (s : Starters) : List (Option Opaque) :=
  (List.range s.next).filterMap fun ai => (s.record ai).liveHandle

/-- No job was or is run with a record that was released, and each handle that `ae_starter`
    returned was given to `ae_stopper` once, or belongs to an autoevent that was not stopped. No
    other handle was given to `ae_stopper`. -/
structure Paired (s : Starters) : Prop where
  called : ∀ ai, .starter ai ∈ s.calls → ai.released = false
  running : ∀ ai ∈ s.running, (s.record ai).released = false
  handles : s.returned.Perm (s.stopped ++ s.live)

/-- An autoevent is stopped only when `ae_starter` has returned for it and no job is running for
    it; a job begins only with a record that was not released, and returns only to one that has no
    handle yet. -/
def Timely (s : Starters) : StarterTurn → Prop
  | .start _ _ _ => True
  | .stop a => ∀ ai, s.impl a = some ai → 0 < (s.record ai).starts ∧ ai ∉ s.running
  | .begin ai => ai ∈ s.queue → (s.record ai).released = false
  | .finish ai _ => ai ∈ s.running → (s.record ai).starts = 0

/-- Every autoevent has a record of its own, which was not released. -/
structure Attached (s : Starters) : Prop where
  impl_lt : ∀ {a ai}, s.impl a = some ai → ai < s.next
  unreleased : ∀ {a ai}, s.impl a = some ai → (s.record ai).released = false
  injective : ∀ {a b ai}, s.impl a = some ai → s.impl b = some ai → a = b
  queue_lt : ∀ ai ∈ s.queue, ai < s.next
  running_lt : ∀ ai ∈ s.running, ai < s.next

theorem attached_fresh (unused : AutoRecord) : (fresh unused).Attached where
  impl_lt := by intro a ai h; cases h
  unreleased := by intro a ai h; cases h
  injective := by intro a b ai h; cases h
  queue_lt := by simp [fresh]
  running_lt := by simp [fresh]

variable {createRes : CreateRes} {s : Starters}

theorem Attached.start (h : s.Attached) (a : AutoRef) (dev : Device DeviceProfile)
    (ae : AutoEvent) : (s.start createRes a dev ae).Attached := by
  rw [Starters.start]
  split
  next ai hai =>
    refine ⟨h.impl_lt, h.unreleased, h.injective, ?_, h.running_lt⟩
    intro j hj
    cases List.mem_cons.mp hj with
    | inl he =>
      rw [he]
      exact h.impl_lt hai
    | inr hj' => exact h.queue_lt j hj'
  next hnone =>
    split
    · exact h
    next r hr =>
      have hold : ∀ {b ai}, Function.update s.impl a (some s.next) b = some ai →
          (b = a ∧ ai = s.next) ∨ (b ≠ a ∧ s.impl b = some ai ∧ ai ≠ s.next) := by
        intro b ai hb
        by_cases hba : b = a
        · subst hba
          rw [Function.update_self] at hb
          exact .inl ⟨rfl, (Option.some.inj hb).symm⟩
        · rw [Function.update_of_ne hba] at hb
          exact .inr ⟨hba, hb, (h.impl_lt hb).ne⟩
      refine ⟨?_, ?_, ?_, ?_, ?_⟩
      · intro b ai hb
        rcases hold hb with ⟨-, rfl⟩ | ⟨-, hb', -⟩
        · exact Nat.lt_succ_self _
        · exact Nat.lt_succ_of_lt (h.impl_lt hb')
      · intro b ai hb
        rcases hold hb with ⟨-, rfl⟩ | ⟨-, hb', hne⟩
        · simp [(AutoRecord.of_new hr).2.2.2]
        · simpa [hne] using h.unreleased hb'
      · intro b c ai hb hc
        rcases hold hb with ⟨rfl, rfl⟩ | ⟨-, hb', hne⟩
        · rcases hold hc with ⟨rfl, -⟩ | ⟨-, -, hne'⟩
          · rfl
          · exact absurd rfl hne'
        · rcases hold hc with ⟨-, rfl⟩ | ⟨-, hc', -⟩
          · exact absurd rfl hne
          · exact h.injective hb' hc'
      · intro j hj
        cases List.mem_cons.mp hj with
        | inl he => exact he ▸ Nat.lt_succ_self _
        | inr hj' => exact Nat.lt_succ_of_lt (h.queue_lt j hj')
      · intro j hj
        exact Nat.lt_succ_of_lt (h.running_lt j hj)

theorem Attached.stop (h : s.Attached) (a : AutoRef) : (s.stop a).Attached := by
  rw [Starters.stop]
  split
  · exact h
  next ai hai =>
    have hold : ∀ {b j}, Function.update s.impl a none b = some j →
        s.impl b = some j ∧ j ≠ ai := by
      intro b j hb
      by_cases hba : b = a
      · subst hba
        rw [Function.update_self] at hb
        cases hb
      · rw [Function.update_of_ne hba] at hb
        refine ⟨hb, ?_⟩
        rintro rfl
        exact hba (h.injective hb hai)
    refine ⟨fun hb => h.impl_lt (hold hb).1, ?_,
      fun hb hc => h.injective (hold hb).1 (hold hc).1, h.queue_lt, h.running_lt⟩
    intro b j hb
    obtain ⟨hb', hne⟩ := hold hb
    simpa [hne] using h.unreleased hb'

theorem Attached.step (h : s.Attached) (t : StarterTurn) : (s.step createRes t).Attached := by
  cases t with
  | start a dev ae => exact h.start a dev ae
  | stop a => exact h.stop a
  | begin ai =>
    rw [Starters.step]
    split
    next hai =>
      refine ⟨h.impl_lt, h.unreleased, h.injective,
        fun j hj => h.queue_lt j (List.mem_of_mem_erase hj), ?_⟩
      intro j hj
      cases List.mem_cons.mp hj with
      | inl he => exact he ▸ h.queue_lt ai hai
      | inr hj' => exact h.running_lt j hj'
    · exact h
  | finish ai handle =>
    rw [Starters.step]
    split
    next hai =>
      refine ⟨h.impl_lt, ?_, h.injective, h.queue_lt,
        fun j hj => h.running_lt j (List.mem_of_mem_erase hj)⟩
      intro b j hb
      by_cases hj : j = ai
      · subst hj
        simpa using h.unreleased hb
      · simpa [hj] using h.unreleased hb
    · exact h

/-- The live handles of all records but one. -/
def others (s : Starters) (ai : ImplRef) : List (Option Opaque) :=
  ((List.range s.next).erase ai).filterMap fun j => (s.record j).liveHandle

theorem live_perm {ai : ImplRef} (h : ai < s.next) :
    s.live.Perm ((s.record ai).liveHandle.toList ++ s.others ai) := by
  have hperm := (List.perm_cons_erase (List.mem_range.mpr h)).filterMap
    fun j => (s.record j).liveHandle
  rw [List.filterMap_cons] at hperm
  cases hl : (s.record ai).liveHandle with
  | none => simpa [live, others, hl] using hperm
  | some handle => simpa [live, others, hl] using hperm

/-- Writing a record changes its own handle and no other. -/
theorem live_update_perm {s' : Starters} {ai : ImplRef} {r : AutoRecord} (h : ai < s.next)
    (hnext : s'.next = s.next) (hrecord : s'.record = Function.update s.record ai r) :
    s'.live.Perm (r.liveHandle.toList ++ s.others ai) := by
  have hothers : s'.others ai = s.others ai := by
    rw [others, others, hnext]
    apply List.filterMap_congr
    intro j hj
    have hne : j ≠ ai := (List.nodup_range.mem_erase_iff.mp hj).1
    rw [hrecord, Function.update_of_ne hne]
  have hlive := live_perm (s := s') (hnext ▸ h)
  rwa [hothers, hrecord, Function.update_self] at hlive

theorem live_start (a : AutoRef) (dev : Device DeviceProfile) (ae : AutoEvent) :
    (s.start createRes a dev ae).live = s.live := by
  rw [start]
  split
  · rfl
  · split
    · rfl
    next r hr =>
      obtain ⟨-, -, hstarts, -⟩ := AutoRecord.of_new hr
      have hnew : r.liveHandle = none := by simp [AutoRecord.liveHandle, hstarts]
      have hold : ∀ j ∈ List.range s.next,
          (Function.update s.record s.next r j).liveHandle = (s.record j).liveHandle := by
        intro j hj
        rw [Function.update_of_ne (List.mem_range.mp hj).ne]
      simp [live, List.range_succ, hnew, List.filterMap_congr hold]

theorem Paired.start (h : s.Paired) (hs : s.Attached) (a : AutoRef) (dev : Device DeviceProfile)
    (ae : AutoEvent) : (s.start createRes a dev ae).Paired := by
  have hcalls : (s.start createRes a dev ae).calls = s.calls := by
    rw [Starters.start]
    split
    · rfl
    · split <;> rfl
  have hrunning : (s.start createRes a dev ae).running = s.running := by
    rw [Starters.start]
    split
    · rfl
    · split <;> rfl
  have hrecord : ∀ ai, ai < s.next → (s.start createRes a dev ae).record ai = s.record ai := by
    intro ai hai
    rw [Starters.start]
    split
    · rfl
    · split
      · rfl
      · exact Function.update_of_ne hai.ne _ _
  refine ⟨hcalls ▸ h.called, ?_, ?_⟩
  · intro ai hai
    rw [hrunning] at hai
    rw [hrecord ai (hs.running_lt ai hai)]
    exact h.running ai hai
  · rw [returned, stopped, hcalls, live_start]
    exact h.handles

/-- A call that runs no job is no reason for one to have been run. -/
theorem Paired.called_cons (h : s.Paired) {calls : List AeCall} {e : AeCall}
    (hcalls : calls = e :: s.calls) (he : ∀ r, e ≠ .starter r) (r : AutoRecord)
    (hr : .starter r ∈ calls) : r.released = false := by
  rw [hcalls] at hr
  cases List.mem_cons.mp hr with
  | inl heq => exact absurd heq.symm (he r)
  | inr hmem => exact h.called r hmem

theorem paired_stop_iff (h : s.Paired) (hs : s.Attached) (a : AutoRef) :
    (s.stop a).Paired ↔ s.Timely (.stop a) := by
  cases hai : s.impl a with
  | none => simp [stop, Timely, hai, h]
  | some ai =>
    have hcalls : (s.stop a).calls = .stopper (s.record ai).handle :: s.calls := by
      simp [stop, hai]
    have hreturned : (s.stop a).returned = s.returned := by rw [returned, hcalls]; rfl
    have hstopped : (s.stop a).stopped = (s.record ai).handle :: s.stopped := by
      rw [stopped, hcalls]; rfl
    have hrunning : (s.stop a).running = s.running := by simp [stop, hai]
    have hrecord : (s.stop a).record = Function.update s.record ai
        { s.record ai with handle := none, released := true } := by simp [stop, hai]
    have hlt := hs.impl_lt hai
    have hbefore := live_perm hlt
    have hafter : (s.stop a).live.Perm (s.others ai) := by
      simpa [AutoRecord.liveHandle] using live_update_perm hlt (by simp [stop, hai]) hrecord
    rw [Timely, hai]
    simp only [Option.some.injEq, forall_eq']
    constructor
    · intro hp
      constructor
      · by_contra hstarts
        have hnone : (s.record ai).liveHandle = none := by
          simp [AutoRecord.liveHandle, hstarts]
        rw [hnone, Option.toList_none, List.nil_append] at hbefore
        have hlen := hp.handles.length_eq
        rw [hreturned, h.handles.length_eq, hstopped, List.length_append, List.length_append,
          hbefore.length_eq, hafter.length_eq, List.length_cons] at hlen
        omega
      · intro hmem
        have hreleased := hp.running ai (hrunning ▸ hmem)
        rw [hrecord, Function.update_self] at hreleased
        cases hreleased
    · rintro ⟨hstarts, hnot⟩
      have hlive : (s.record ai).liveHandle = some (s.record ai).handle := by
        simp [AutoRecord.liveHandle, hs.unreleased hai, hstarts]
      rw [hlive, Option.toList_some, List.singleton_append] at hbefore
      refine ⟨?_, ?_, ?_⟩
      · exact h.called_cons hcalls fun r he => by cases he
      · intro j hj
        rw [hrunning] at hj
        rw [hrecord, Function.update_of_ne (ne_of_mem_of_not_mem hj hnot)]
        exact h.running j hj
      · rw [hreturned, hstopped]
        calc List.Perm s.returned (s.stopped ++ s.live) := h.handles
          List.Perm _ (s.stopped ++ ((s.record ai).handle :: s.others ai)) :=
            hbefore.append_left _
          List.Perm _ ((s.record ai).handle :: s.stopped ++ s.others ai) := List.perm_middle
          List.Perm _ _ := (hafter.append_left _).symm

theorem paired_begin_iff (h : s.Paired) (ai : ImplRef) :
    (s.step createRes (.begin ai)).Paired ↔ s.Timely (.begin ai) := by
  rw [step, Timely]
  by_cases hai : ai ∈ s.queue
  · rw [if_pos hai, forall_prop_of_true hai]
    constructor
    · intro hp
      exact hp.running ai List.mem_cons_self
    · intro hreleased
      refine ⟨?_, ?_, h.handles⟩
      · intro r hr
        cases List.mem_cons.mp hr with
        | inl he => exact AeCall.starter.inj he ▸ hreleased
        | inr hr' => exact h.called r hr'
      · intro j hj
        cases List.mem_cons.mp hj with
        | inl he => exact he ▸ hreleased
        | inr hj' => exact h.running j hj'
  · rw [if_neg hai]
    exact iff_of_true h fun hmem => absurd hmem hai

theorem paired_finish_iff (h : s.Paired) (hs : s.Attached) (ai : ImplRef)
    (handle : Option Opaque) :
    (s.step createRes (.finish ai handle)).Paired ↔ s.Timely (.finish ai handle) := by
  by_cases hai : ai ∈ s.running
  · have hcalls : (s.step createRes (.finish ai handle)).calls = .started handle :: s.calls := by
      simp [step, hai]
    have hreturned : (s.step createRes (.finish ai handle)).returned = handle :: s.returned := by
      rw [returned, hcalls]; rfl
    have hstopped : (s.step createRes (.finish ai handle)).stopped = s.stopped := by
      rw [stopped, hcalls]; rfl
    have hrunning : (s.step createRes (.finish ai handle)).running = s.running.erase ai := by
      simp [step, hai]
    have hrecord : (s.step createRes (.finish ai handle)).record = Function.update s.record ai
        { s.record ai with handle, starts := (s.record ai).starts + 1 } := by simp [step, hai]
    have hlt := hs.running_lt ai hai
    have hreleased := h.running ai hai
    have hbefore := live_perm hlt
    have hafter : (s.step createRes (.finish ai handle)).live.Perm (handle :: s.others ai) := by
      simpa [AutoRecord.liveHandle, hreleased] using
        live_update_perm hlt (by simp [step, hai]) hrecord
    rw [Timely, forall_prop_of_true hai]
    constructor
    · intro hp
      by_contra hstarts
      have hlive : (s.record ai).liveHandle = some (s.record ai).handle := by
        simp [AutoRecord.liveHandle, hreleased, Nat.pos_of_ne_zero hstarts]
      rw [hlive, Option.toList_some, List.singleton_append] at hbefore
      have hlen := hp.handles.length_eq
      rw [hreturned, hstopped, List.length_cons, h.handles.length_eq, List.length_append,
        List.length_append, hbefore.length_eq, hafter.length_eq, List.length_cons] at hlen
      simp at hlen
    · intro hstarts
      have hnone : (s.record ai).liveHandle = none := by
        simp [AutoRecord.liveHandle, hstarts]
      rw [hnone, Option.toList_none, List.nil_append] at hbefore
      refine ⟨?_, ?_, ?_⟩
      · exact h.called_cons hcalls fun r he => by cases he
      · intro j hj
        rw [hrunning] at hj
        rw [hrecord]
        by_cases hj' : j = ai
        · rw [hj', Function.update_self]
          exact hreleased
        · rw [Function.update_of_ne hj']
          exact h.running j (List.mem_of_mem_erase hj)
      · rw [hreturned, hstopped]
        calc List.Perm (handle :: s.returned) (handle :: (s.stopped ++ s.live)) :=
              h.handles.cons _
          List.Perm _ (handle :: (s.stopped ++ s.others ai)) :=
            (hbefore.append_left _).cons _
          List.Perm _ (s.stopped ++ handle :: s.others ai) := List.perm_middle.symm
          List.Perm _ _ := (hafter.append_left _).symm
  · rw [step, if_neg hai, Timely]
    exact iff_of_true h fun hmem => absurd hmem hai

theorem paired_step_iff (h : s.Paired) (hs : s.Attached) (t : StarterTurn) :
    (s.step createRes t).Paired ↔ s.Timely t := by
  cases t with
  | start a dev ae => exact iff_of_true (h.start hs a dev ae) trivial
  | stop a => exact paired_stop_iff h hs a
  | begin ai => exact paired_begin_iff h ai
  | finish ai handle => exact paired_finish_iff h hs ai handle

end Starters

open Starters

/-- A run pairs the handles of the driver exactly when no autoevent is stopped before its starter
    has returned or while one is running, and no starter runs for a record that was released or
    has a handle. -/
theorem starters_paired_iff (createRes : CreateRes) (unused : AutoRecord)
    (turns : List StarterTurn) :
    Run.Always (step createRes) Paired (fresh unused) turns ↔
      Run.Meets (step createRes) Timely (fresh unused) turns := by
  refine Run.always_iff_meets (I := Attached) ?_ ?_ (attached_fresh unused) ?_ turns
  · intro s t hs _ _
    exact hs.step t
  · intro s t hs hp
    exact paired_step_iff hp hs t
  · exact ⟨by simp [fresh], by simp [fresh], List.Perm.refl _⟩

/-- A device that reports its temperature every ten seconds. -/
def reportingDevice : Device DeviceProfile where
  name := "thermostat"
  profile := {
    name := "heating"
    cmdinfo := [{ name := "temperature", profile := "heating", isget := true, reqs := [] }] }
  autos := [{ resource := "temperature", interval := "10s" }]

/-- The memory of a record that is not in use. -/
def blankRecord : AutoRecord where
  device := ""
  resource := { name := "", profile := "", isget := true, reqs := [] }
  interval := 0
  protocols := []

/-- The autoevent is stopped before its job has run: `ae_stopper` is given no handle of
    `ae_starter`, and the job begins with a record that was released. -/
theorem stopped_before_started :
    ¬Run.Always (step fun _ => (none, none)) Paired (fresh blankRecord)
      (autoeventStart 0 reportingDevice ++ autoeventStop 0 reportingDevice ++ [.begin 0]) := by
  rintro ⟨-, -, h, -⟩
  exact absurd h.handles.length_eq (by decide)

end DeviceSdk
