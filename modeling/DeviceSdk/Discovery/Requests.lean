import DeviceSdk.Lib.Run
import DeviceSdk.Types

/-!
# Requests for discovery

`discovery.c` keeps one lock and one request id. A POST tries the lock, stores its id, queues a
job, unlocks, and then replies with the id that is stored; a job and a periodic tick call the
driver with the id that is stored, under the lock. The parties here are the POSTs, the jobs of the
thread pool and the ticks, in any order.

## Main definitions

- `DiscoveryState`, `DiscoveryState.step` — the state, and the turns of the parties
- `DiscoveryState.ExactlyOnce` — however the turns that are due are taken, each reply with a
  request id comes to one call of the driver under that id
- `DiscoveryState.Orderly` — the turns that keep this

## Main results

- `exactlyOnce_iff` — the accounts that `ExactlyOnce` comes to
- `discovery_exactly_once_iff`
-/

namespace DeviceSdk

/-- What `edgex_device_handler_discoveryv2` checks first. -/
structure DiscoverySettings where
  discover : Bool
  adminstate : AdminState
  discoveryEnabled : Bool

/-- The status and message of a POST that is refused. -/
def DiscoverySettings.refusal (svc : DiscoverySettings) : Option (ℕ × String) :=
  if !svc.discover then
    some (501, "Dynamic discovery is not implemented in this device service")
  else if svc.adminstate = .locked then
    some (423, "Device service is administratively locked")
  else if !svc.discoveryEnabled then
    some (503, "Discovery disabled by configuration")
  else none

/-- What a POST is answered. -/
inductive DiscoveryReply
  | error (code : ℕ) (message : String)
  | alreadyRunning
  | requestId (id : Option String)
  deriving DecidableEq

/-- Who holds the lock. A handler is named by the correlation id of its POST. -/
inductive LockHolder
  | handler (crlid : String)
  | worker
  | periodic
  deriving DecidableEq

/-- `edgex_device_periodic_discovery_t`, with the jobs in the thread pool, the handlers that have
    unlocked but not replied, and what the driver and the clients have seen, latest first. -/
structure DiscoveryState where
  svc : DiscoverySettings
  lock : Option LockHolder := none
  requestId : Option String := none
  jobs : ℕ := 0
  unlocked : List String := []
  calls : List (Option String) := []
  replies : List (String × DiscoveryReply) := []

/-- A turn of a party. A thread that waits for the lock has its turn once it gets it. -/
inductive DiscoveryTurn
  | configure (svc : DiscoverySettings)
  | post (crlid : String)
  | unlock
  | reply (crlid : String)
  | doDiscovery
  | periodic
  | finish

namespace DiscoveryState

/-- `edgex_device_handler_discoveryv2` up to its unlock. The id is stored and the job is queued
    under the lock, where no other party can do more than read the id. -/
def post (s : DiscoveryState) (crlid : String) : DiscoveryState :=
  match s.svc.refusal with
  | some (code, message) => { s with replies := (crlid, .error code message) :: s.replies }
  | none =>
    if s.lock = none then
      { s with lock := some (.handler crlid), requestId := some crlid, jobs := s.jobs + 1 }
    else { s with replies := (crlid, .alreadyRunning) :: s.replies }

/-- The driver is called with the id that is stored. -/
def callDriver (s : DiscoveryState) (holder : LockHolder) : DiscoveryState :=
  { s with lock := some holder, calls := s.requestId :: s.calls }

/-- One turn. A turn that is not due changes nothing. -/
def step (s : DiscoveryState) : DiscoveryTurn → DiscoveryState
  | .configure svc => { s with svc }
  | .post crlid => s.post crlid
  | .unlock =>
    match s.lock with
    | some (.handler crlid) => { s with lock := none, unlocked := crlid :: s.unlocked }
    | _ => s
  | .reply crlid =>
    if crlid ∈ s.unlocked then
      { s with unlocked := s.unlocked.erase crlid,
               replies := (crlid, .requestId s.requestId) :: s.replies }
    else s
  | .doDiscovery =>
    if s.lock = none ∧ 0 < s.jobs then { s with jobs := s.jobs - 1 }.callDriver .worker else s
  | .periodic => if s.lock = none then s.callDriver .periodic else s
  | .finish =>
    match s.lock with
    | some .worker | some .periodic => { s with lock := none }
    | _ => s

/-- Nothing has happened yet. -/
def start (svc : DiscoverySettings) : DiscoveryState := { svc }

/-- The POSTs that have stored their id and have not replied. -/
def inFlight (s : DiscoveryState) : List String :=
  match s.lock with
  | some (.handler crlid) => crlid :: s.unlocked
  | _ => s.unlocked

/-- Nothing is due. -/
structure Settled (s : DiscoveryState) : Prop where
  lock : s.lock = none
  jobs : s.jobs = 0
  unlocked : s.unlocked = []

/-- The calls of the driver under an id. -/
def executions (s : DiscoveryState) (id : String) : ℕ := s.calls.count (some id)

/-- The POSTs that were answered with an id. -/
def accepted (s : DiscoveryState) (id : String) : ℕ :=
  (s.replies.map Prod.snd).count (.requestId (some id))

end DiscoveryState

/-- The turns that bring to an end what has been begun. -/
def DiscoveryTurn.Finishing : DiscoveryTurn → Prop
  | unlock | reply _ | doDiscovery | finish => True
  | _ => False

namespace DiscoveryState

/-- Turns that leave nothing due. -/
structure Completes (s : DiscoveryState) (turns : List DiscoveryTurn) : Prop where
  finishing : ∀ t ∈ turns, t.Finishing
  settled : (Run.final step s turns).Settled

/-- Every POST that was answered with an id was answered with its own, and there are as many
    calls of the driver under an id as there are POSTs that were answered with it. -/
structure Exact (s : DiscoveryState) : Prop where
  own : ∀ crlid id, (crlid, .requestId id) ∈ s.replies → id = some crlid
  once : ∀ id, s.executions id = s.accepted id

/-- What has been begun can be brought to an end, and is exact however that happens. -/
def ExactlyOnce (s : DiscoveryState) : Prop :=
  (∃ turns, s.Completes turns) ∧
    ∀ turns, s.Completes turns → (Run.final step s turns).Exact

/-- A POST stores its id only while no job is queued and no reply is due under another id, and a
    tick calls the driver only while no id is stored. -/
def Orderly (s : DiscoveryState) : DiscoveryTurn → Prop
  | .post crlid =>
    s.svc.refusal = none → s.lock = none →
      s.requestId = some crlid ∨ (s.jobs = 0 ∧ s.unlocked = [])
  | .periodic => s.lock = none → s.requestId = none
  | _ => True

-- ════════════════════════════════════════════════════════════════════════
-- Accounts
-- ════════════════════════════════════════════════════════════════════════

/-- The calls under an id, with those of the jobs in the pool. -/
def due (s : DiscoveryState) (id : String) : ℕ :=
  s.executions id + if s.requestId = some id then s.jobs else 0

/-- The POSTs that are answered with an id, with those in flight. -/
def promised (s : DiscoveryState) (id : String) : ℕ :=
  s.accepted id + if s.requestId = some id then s.inFlight.length else 0

/-- Each POST has its own id, and its call. -/
structure Balanced (s : DiscoveryState) : Prop where
  replied : ∀ crlid id, (crlid, .requestId id) ∈ s.replies → id = some crlid
  inFlight : ∀ crlid ∈ s.inFlight, s.requestId = some crlid
  once : ∀ id, s.due id = s.promised id

/-- Without an id nothing is queued. -/
def Stored (s : DiscoveryState) : Prop := s.requestId = none → s.jobs = 0

theorem balanced_congr {s s' : DiscoveryState} (hreplies : s'.replies = s.replies)
    (hinFlight : s'.inFlight = s.inFlight) (hid : s'.requestId = s.requestId)
    (hcalls : s'.calls = s.calls) (hjobs : s'.jobs = s.jobs) : s'.Balanced ↔ s.Balanced := by
  have hdue : s'.due = s.due := by
    funext id
    rw [due, due, executions, executions, hcalls, hid, hjobs]
  have hpromised : s'.promised = s.promised := by
    funext id
    rw [promised, promised, accepted, accepted, hreplies, hid, hinFlight]
  constructor
  · rintro ⟨h₁, h₂, h₃⟩
    exact ⟨hreplies ▸ h₁, hinFlight ▸ hid ▸ h₂, hdue ▸ hpromised ▸ h₃⟩
  · rintro ⟨h₁, h₂, h₃⟩
    exact ⟨hreplies ▸ h₁, hinFlight ▸ hid ▸ h₂, hdue ▸ hpromised ▸ h₃⟩

variable {s : DiscoveryState}

theorem balanced_unlock : (s.step .unlock).Balanced ↔ s.Balanced := by
  rw [step]
  split
  next crlid hlock => exact balanced_congr rfl (by simp [inFlight, hlock]) rfl rfl rfl
  · rfl

theorem balanced_finish : (s.step .finish).Balanced ↔ s.Balanced := by
  rw [step]
  split
  next hlock => exact balanced_congr rfl (by simp [inFlight, hlock]) rfl rfl rfl
  next hlock => exact balanced_congr rfl (by simp [inFlight, hlock]) rfl rfl rfl
  · rfl

theorem inFlight_reply {crlid : String} (h : crlid ∈ s.unlocked) :
    s.inFlight.Perm (crlid :: (s.step (.reply crlid)).inFlight) := by
  have hperm := List.perm_cons_erase h
  rw [step, if_pos h]
  simp only [inFlight]
  split
  · exact (hperm.cons _).trans (List.Perm.swap _ _ _)
  · exact hperm

theorem balanced_reply (crlid : String) : (s.step (.reply crlid)).Balanced ↔ s.Balanced := by
  by_cases h : crlid ∈ s.unlocked
  · have hperm := inFlight_reply h
    have hlen := hperm.length_eq
    have hmem : ∀ c, c ∈ s.inFlight ↔ c = crlid ∨ c ∈ (s.step (.reply crlid)).inFlight :=
      fun c => hperm.mem_iff.trans List.mem_cons
    have hid : (s.step (.reply crlid)).requestId = s.requestId := by rw [step, if_pos h]
    have hreplies : (s.step (.reply crlid)).replies =
        (crlid, .requestId s.requestId) :: s.replies := by rw [step, if_pos h]
    have hdue : (s.step (.reply crlid)).due = s.due := by rw [step, if_pos h]; rfl
    have hpromised : (s.step (.reply crlid)).promised = s.promised := by
      funext id
      rw [promised, promised, accepted, accepted, hreplies, hid, hlen]
      by_cases hs : s.requestId = some id
      · simp [hs]
        omega
      · simp [hs]
    constructor
    · rintro ⟨h₁, h₂, h₃⟩
      rw [hreplies] at h₁
      rw [hid] at h₂
      refine ⟨fun c id hc => h₁ c id (List.mem_cons_of_mem _ hc), ?_, hdue ▸ hpromised ▸ h₃⟩
      intro c hc
      cases (hmem c).mp hc with
      | inl he => exact he ▸ h₁ crlid s.requestId List.mem_cons_self
      | inr hc' => exact h₂ c hc'
    · rintro ⟨h₁, h₂, h₃⟩
      refine ⟨?_, fun c hc => hid.trans (h₂ c ((hmem c).mpr (.inr hc))), hdue ▸ hpromised ▸ h₃⟩
      intro c id hc
      rw [hreplies] at hc
      cases List.mem_cons.mp hc with
      | inl he =>
        obtain ⟨rfl, he'⟩ := Prod.mk.inj he
        rw [DiscoveryReply.requestId.inj he']
        exact h₂ c ((hmem c).mpr (.inl rfl))
      | inr hc' => exact h₁ c id hc'
  · rw [step, if_neg h]

theorem executions_callDriver (holder : LockHolder) (id : String) :
    (s.callDriver holder).executions id =
      s.executions id + if s.requestId = some id then 1 else 0 := by
  simp [executions, callDriver, List.count_cons]

/-- A job moves its call from those that are due to those that were made. -/
theorem balanced_doDiscovery : (s.step .doDiscovery).Balanced ↔ s.Balanced := by
  rw [step]
  split
  next h =>
    obtain ⟨hlock, hjobs⟩ := h
    have hinFlight : ({ s with jobs := s.jobs - 1 }.callDriver .worker).inFlight = s.inFlight := by
      simp [inFlight, callDriver, hlock]
    have hdue : ({ s with jobs := s.jobs - 1 }.callDriver .worker).due = s.due := by
      funext id
      rw [due, due, executions_callDriver]
      by_cases hs : s.requestId = some id
      · simp [executions, callDriver, hs]
        omega
      · simp [executions, callDriver, hs]
    have hpromised :
        ({ s with jobs := s.jobs - 1 }.callDriver .worker).promised = s.promised := by
      funext id
      rw [promised, promised, hinFlight]
      rfl
    constructor
    · rintro ⟨h₁, h₂, h₃⟩
      exact ⟨h₁, hinFlight ▸ h₂, hdue ▸ hpromised ▸ h₃⟩
    · rintro ⟨h₁, h₂, h₃⟩
      exact ⟨h₁, hinFlight ▸ h₂, hdue ▸ hpromised ▸ h₃⟩
  · rfl

theorem balanced_finishing {t : DiscoveryTurn} (ht : t.Finishing) :
    (s.step t).Balanced ↔ s.Balanced := by
  cases t with
  | unlock => exact balanced_unlock
  | reply crlid => exact balanced_reply crlid
  | doDiscovery => exact balanced_doDiscovery
  | finish => exact balanced_finish
  | _ => exact ht.elim

theorem balanced_final {turns : List DiscoveryTurn} (h : ∀ t ∈ turns, t.Finishing) :
    (Run.final step s turns).Balanced ↔ s.Balanced := by
  induction turns generalizing s with
  | nil => rfl
  | cons t ts ih =>
    obtain ⟨ht, hts⟩ := List.forall_mem_cons.mp h
    exact (ih hts).trans (balanced_finishing ht)

/-- What remains to be done. -/
def work (s : DiscoveryState) : ℕ :=
  2 * s.jobs + s.unlocked.length +
    match s.lock with
    | none => 0
    | some (.handler _) => 2
    | some _ => 1

theorem exists_finishing_of_not_settled (h : ¬s.Settled) :
    ∃ t : DiscoveryTurn, t.Finishing ∧ (s.step t).work < s.work := by
  cases hlock : s.lock with
  | some holder =>
    cases holder with
    | handler crlid =>
      refine ⟨.unlock, trivial, ?_⟩
      simp only [step, work, hlock, List.length_cons]
      omega
    | worker => exact ⟨.finish, trivial, by simp [step, work, hlock]⟩
    | periodic => exact ⟨.finish, trivial, by simp [step, work, hlock]⟩
  | none =>
    by_cases hjobs : 0 < s.jobs
    · refine ⟨.doDiscovery, trivial, ?_⟩
      simp only [step, hlock, hjobs, true_and, if_true, work, callDriver]
      omega
    · cases hu : s.unlocked with
      | nil => exact absurd ⟨hlock, Nat.eq_zero_of_not_pos hjobs, hu⟩ h
      | cons crlid cs => exact ⟨.reply crlid, trivial, by simp [step, work, hlock, hu]⟩

theorem exists_completes (s : DiscoveryState) : ∃ turns, s.Completes turns := by
  obtain ⟨turns, hturns, hsettled⟩ := Run.exists_final_of_lt (P := Settled)
    (K := DiscoveryTurn.Finishing) work (fun _ => exists_finishing_of_not_settled) s
  exact ⟨turns, hturns, hsettled⟩

theorem Settled.balanced_iff (h : s.Settled) : s.Balanced ↔ s.Exact := by
  have hinFlight : s.inFlight = [] := by simp [inFlight, h.lock, h.unlocked]
  have honce : (∀ id, s.due id = s.promised id) ↔ ∀ id, s.executions id = s.accepted id := by
    simp [due, promised, hinFlight, h.jobs]
  constructor
  · rintro ⟨h₁, -, h₃⟩
    exact ⟨h₁, honce.mp h₃⟩
  · rintro ⟨h₁, h₃⟩
    exact ⟨h₁, by simp [hinFlight], honce.mpr h₃⟩

/-- Whether the turns that are due will be exact can be told before they are taken. -/
theorem exactlyOnce_iff : s.ExactlyOnce ↔ s.Balanced := by
  constructor
  · rintro ⟨⟨turns, h⟩, hexact⟩
    exact (balanced_final h.finishing).mp (h.settled.balanced_iff.mpr (hexact turns h))
  · intro hs
    refine ⟨exists_completes s, fun turns h => ?_⟩
    exact h.settled.balanced_iff.mp ((balanced_final h.finishing).mpr hs)

-- ════════════════════════════════════════════════════════════════════════
-- One turn
-- ════════════════════════════════════════════════════════════════════════

theorem Stored.step (h : s.Stored) (t : DiscoveryTurn) : (s.step t).Stored := by
  intro hid
  cases t with
  | configure svc => exact h hid
  | post crlid =>
    simp only [DiscoveryState.step, post] at hid ⊢
    split at hid
    · exact h hid
    · split at hid
      · cases hid
      · simp_all [Stored]
  | unlock =>
    simp only [DiscoveryState.step] at hid ⊢
    split at hid <;> exact h hid
  | reply crlid =>
    simp only [DiscoveryState.step] at hid ⊢
    split at hid <;> simp_all [Stored]
  | doDiscovery =>
    simp only [DiscoveryState.step] at hid ⊢
    split at hid <;> simp_all [Stored, callDriver]
  | periodic =>
    simp only [DiscoveryState.step] at hid ⊢
    split at hid <;> simp_all [Stored, callDriver]
  | finish =>
    simp only [DiscoveryState.step] at hid ⊢
    split at hid <;> exact h hid

/-- A POST that is not taken leaves the accounts alone. -/
theorem balanced_refused {crlid : String} {r : DiscoveryReply} (hr : ∀ id, r ≠ .requestId id) :
    Balanced { s with replies := (crlid, r) :: s.replies } ↔ s.Balanced := by
  have hreplies : ∀ c id, (c, .requestId id) ∈ (crlid, r) :: s.replies ↔
      (c, .requestId id) ∈ s.replies := by
    intro c id
    simp [(hr id).symm]
  have hpromised : promised { s with replies := (crlid, r) :: s.replies } = s.promised := by
    funext id
    simp [promised, accepted, inFlight, hr (some id)]
  constructor
  · rintro ⟨h₁, h₂, h₃⟩
    exact ⟨fun c id hc => h₁ c id ((hreplies c id).mpr hc), h₂, hpromised ▸ h₃⟩
  · rintro ⟨h₁, h₂, h₃⟩
    exact ⟨fun c id hc => h₁ c id ((hreplies c id).mp hc), h₂, hpromised ▸ h₃⟩

/-- A POST that is taken stays balanced where its id replaces none that is still needed. -/
theorem balanced_stored (h : s.Balanced) (hstored : s.Stored) (hlock : s.lock = none)
    (crlid : String) :
    Balanced { s with lock := some (.handler crlid), requestId := some crlid,
                      jobs := s.jobs + 1 } ↔
      s.requestId = some crlid ∨ (s.jobs = 0 ∧ s.unlocked = []) := by
  have hinFlight : s.inFlight = s.unlocked := by simp [inFlight, hlock]
  have honce : ∀ id, s.executions id + (if s.requestId = some id then s.jobs else 0) =
      s.accepted id + if s.requestId = some id then s.unlocked.length else 0 := by
    intro id
    rw [← hinFlight]
    exact h.once id
  constructor
  · rintro ⟨-, hown, hafter⟩
    by_cases hid : s.requestId = some crlid
    · exact .inl hid
    have hunlocked : s.unlocked = [] := by
      apply List.eq_nil_iff_forall_not_mem.mpr
      intro c hc
      have hnew : some crlid = some c := hown c (List.mem_cons_of_mem _ hc)
      exact hid (hnew ▸ h.inFlight c (hinFlight ▸ hc))
    refine .inr ⟨?_, hunlocked⟩
    cases hold : s.requestId with
    | none => exact hstored hold
    | some x =>
      have hne : crlid ≠ x := by
        rintro rfl
        exact hid hold
      have hbefore := honce x
      have hnew := hafter x
      simp only [due, promised, Option.some.injEq, if_neg hne] at hnew
      have hx : s.executions x + 0 = s.accepted x + 0 := hnew
      rw [if_pos hold, if_pos hold, hunlocked, List.length_nil] at hbefore
      omega
  · intro hcond
    refine ⟨h.replied, ?_, ?_⟩
    · intro c hc
      cases List.mem_cons.mp hc with
      | inl he => rw [he]
      | inr hc' =>
        rcases hcond with hid | ⟨-, hnil⟩
        · exact hid.symm.trans (h.inFlight c (hinFlight ▸ hc'))
        · rw [hnil] at hc'
          cases hc'
    · intro id
      have hbefore := honce id
      show s.executions id + (if some crlid = some id then s.jobs + 1 else 0) =
        s.accepted id + if some crlid = some id then s.unlocked.length + 1 else 0
      rcases hcond with hid | ⟨hjobs, hnil⟩
      · rw [hid] at hbefore
        split
        · simp_all
          omega
        · simp_all
      · simp_all

theorem balanced_post (h : s.Balanced) (hstored : s.Stored) (crlid : String) :
    (s.step (.post crlid)).Balanced ↔ s.Orderly (.post crlid) := by
  simp only [step, post, Orderly]
  cases hr : s.svc.refusal with
  | some r => simp [balanced_refused, h]
  | none =>
    by_cases hlock : s.lock = none
    · simp only [hlock, forall_const]
      exact balanced_stored h hstored hlock crlid
    · simp [hlock, balanced_refused, h]

theorem balanced_periodic (h : s.Balanced) :
    (s.step .periodic).Balanced ↔ s.Orderly .periodic := by
  simp only [step, Orderly]
  by_cases hlock : s.lock = none
  · have hinFlight : (s.callDriver .periodic).inFlight = s.inFlight := by
      simp [inFlight, callDriver, hlock]
    have hdue : ∀ id, (s.callDriver .periodic).due id =
        s.due id + if s.requestId = some id then 1 else 0 := by
      intro id
      rw [due, executions_callDriver, due, Nat.add_right_comm]
      rfl
    have hpromised : (s.callDriver .periodic).promised = s.promised := by
      funext id
      rw [promised, promised, hinFlight]
      rfl
    rw [if_pos hlock, forall_prop_of_true hlock]
    constructor
    · rintro ⟨-, -, hafter⟩
      cases hid : s.requestId with
      | none => rfl
      | some x =>
        have hx := hafter x
        rw [hdue, hpromised, h.once x, if_pos hid] at hx
        omega
    · intro hid
      refine ⟨h.replied, hinFlight ▸ h.inFlight, ?_⟩
      intro id
      rw [hdue, hpromised, h.once id, hid, if_neg (by simp), Nat.add_zero]
  · simp [hlock, h]

/-- A turn keeps the balance exactly where it is orderly. -/
theorem balanced_step_iff (h : s.Balanced) (hstored : s.Stored) (t : DiscoveryTurn) :
    (s.step t).Balanced ↔ s.Orderly t := by
  cases t with
  | configure svc =>
    have hsame : (s.step (.configure svc)).Balanced ↔ s.Balanced :=
      balanced_congr rfl rfl rfl rfl rfl
    exact iff_of_true (hsame.mpr h) trivial
  | post crlid => exact balanced_post h hstored crlid
  | periodic => exact balanced_periodic h
  | unlock => exact iff_of_true (balanced_unlock.mpr h) trivial
  | reply crlid => exact iff_of_true ((balanced_reply crlid).mpr h) trivial
  | doDiscovery => exact iff_of_true (balanced_doDiscovery.mpr h) trivial
  | finish => exact iff_of_true (balanced_finish.mpr h) trivial

theorem balanced_start (svc : DiscoverySettings) : (start svc).Balanced where
  replied := by simp [start]
  inFlight := by simp [start, DiscoveryState.inFlight]
  once := by simp [start, due, promised, executions, accepted]

end DiscoveryState

open DiscoveryState

/-- In a run, each POST that is answered with a request id comes to one call of the driver under
    that id, and no other POST to any, exactly when a POST stores its id only while nothing is due
    under another and no tick finds an id. -/
theorem discovery_exactly_once_iff (svc : DiscoverySettings) (turns : List DiscoveryTurn) :
    Run.Always step ExactlyOnce (start svc) turns ↔
      Run.Meets step Orderly (start svc) turns := by
  refine Run.always_iff_meets (I := Stored) ?_ ?_ (fun _ => rfl)
    (exactlyOnce_iff.mpr (balanced_start svc)) turns
  · intro s t hs _ _
    exact hs.step t
  · intro s t hs hp
    rw [exactlyOnce_iff] at hp ⊢
    exact balanced_step_iff hp hs t

/-- Two POSTs before the first job runs: the driver is never called under the id of the first. -/
theorem overwritten_id_not_called :
    ¬Run.Always step ExactlyOnce (start ⟨true, .unlocked, true⟩)
      [.post "a", .unlock, .reply "a", .post "b", .unlock, .reply "b"] := by
  rintro ⟨-, -, -, -, -, -, -, h⟩
  have hexact := h [.doDiscovery, .finish, .doDiscovery, .finish]
    ⟨by simp [DiscoveryTurn.Finishing], ⟨by decide, by decide, by decide⟩⟩
  exact absurd (hexact.once "a") (by decide)

end DeviceSdk
