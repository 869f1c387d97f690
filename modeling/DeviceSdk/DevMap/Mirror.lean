import DeviceSdk.DevMap.Shows

/-!
# The device map as a mirror of core-metadata

Core-metadata holds the devices of the service; the device map is the copy that the service works
with. The copy is made when the service starts, from a list that core-metadata returns, and is kept
by messages that core-metadata publishes whenever a device changes. The service subscribes to them
after it has entered the list: to additions first, then to deletions, then to updates. A message on
a topic that is not subscribed is gone, and so is a change whose callback is refused.

Here the start-up sequence, the thread of the message bus and all other threads of the service take
their turns call by call, while core-metadata changes at any time. The device map agrees with
core-metadata when the bus is at rest, but for the devices whose last change was lost. Such a device
stays as it is until it changes again.

## Main definitions

- `Change` — a change of a device in core-metadata, with the callback for it
- `Mirror`, `Mirror.step` — core-metadata, the bus and the service
- `Mirror.Quiet` — start-up is done and no message is on its way

## Main results

- `mirror_shows` — what agrees when the bus is at rest
- `mirror_heals` — a change that is heard and answered makes up for those that were lost
- `mirror_stays` — a device that does not change in core-metadata stays as it is
- `mirror_settles` — the service comes to rest by itself
-/

namespace DeviceSdk

open Prog DevMapCall

/-- What core-metadata publishes of a device. -/
inductive Change
  | add (d : Device DeviceProfile)
  | update (d : Device DeviceProfile)
  | delete (name : String)

/-- What core-metadata returns to a query for a profile. -/
abbrev ProfileQuery := (name : String) → Option (ProfileReply name)

namespace Change

/-- The name of the device. -/
def name : Change → String
  | add d => d.name
  | update d => d.name
  | delete name => name

/-- The device after the change. -/
def told : Change → Option (Device DeviceProfile)
  | add d => some d
  | update d => some d
  | delete _ => none

/-- The place of the topic in the order of the subscriptions in `startConfigured`. -/
def topic : Change → ℕ
  | add _ => 0
  | delete _ => 1
  | update _ => 2

/-- The callback that is registered for the topic. -/
def callback (svc : Service) (query : ProfileQuery) : Change → DevMapM ℕ
  | add d => callbackAddDevice svc d (query d.profile.name)
  | update d => callbackUpdateDevice svc d (query d.profile.name)
  | delete name => callbackDeleteDevice svc name

/-- What is under `n` after the change. -/
def after (c : Change) (n : String) (o : Option (Device DeviceProfile)) :
    Option (Device DeviceProfile) :=
  if c.name = n then c.told else o

theorem after_of_ne {c : Change} {n : String} (h : c.name ≠ n)
    (o : Option (Device DeviceProfile)) : c.after n o = o := if_neg h

theorem after_self {c : Change} {n : String} (h : c.name = n)
    (o : Option (Device DeviceProfile)) : c.after n o = c.told := if_pos h

/-- The change in core-metadata. -/
def apply (c : Change) (database : NameMap (Device DeviceProfile)) :
    NameMap (Device DeviceProfile) :=
  match c with
  | add d => database.insert d.name d
  | update d => database.insert d.name d
  | delete name => database.erase name

theorem lookup_apply (c : Change) (database : NameMap (Device DeviceProfile)) (n : String) :
    (c.apply database).lookup n = c.after n (database.lookup n) := by
  by_cases h : c.name = n
  · subst h
    rw [after_self rfl]
    cases c with
    | add d => exact AList.lookup_insert database
    | update d => exact AList.lookup_insert database
    | delete name => exact AList.lookup_erase name database
  · rw [after_of_ne h]
    cases c with
    | add d => exact AList.lookup_insert_ne (Ne.symm h)
    | update d => exact AList.lookup_insert_ne (Ne.symm h)
    | delete name => exact AList.lookup_erase_ne (Ne.symm h)

end Change

-- ════════════════════════════════════════════════════════════════════════
-- The callbacks, as they are told of
-- ════════════════════════════════════════════════════════════════════════

/-- The call by which a callback does what it is told. -/
def Change.call : Change → DevMapCall
  | add d => .replace d
  | update d => .replace d
  | delete name => .remove name

/-- Silent calls are allowed and do nothing, and a device is looked up by its name. -/
structure Faithful {τ : Type} (A : Abstraction DevMapCall DevMapCall.Reply τ) : Prop where
  allows : ∀ (a : DevMapCall) t, a.Silent → A.allows a t
  effect : ∀ (a : DevMapCall) r t, a.Silent → A.effect a r t = t
  found : ∀ name t d dev, A.admits (.byname name) t (some (d, dev)) → dev.name = name
  missed : ∀ name t, A.admits (.byname name) t none → ∃ r, A.effect (.remove name) r t = t

theorem faithful_view (n : String) : Faithful (view n) where
  allows _ _ _ := trivial
  effect a _ o ha := effect_of_spares (ha.spares n) o
  found _ _ d dev h := h.1 d dev rfl
  missed name o h := by
    refine ⟨none, ?_⟩
    show (if name = n then none else o) = o
    split
    · next hn => exact (h.2 hn rfl).symm
    · rfl

theorem faithful_sparing (n : String) : Faithful (sparing n) where
  allows _ _ ha := ha.spares n
  effect _ _ _ _ := rfl
  found _ _ d dev h := by
    obtain ⟨_, h⟩ := h
    exact h.1 d dev rfl
  missed _ _ _ := ⟨none, rfl⟩

namespace Faithful

variable {τ : Type} {A : Abstraction DevMapCall DevMapCall.Reply τ} {t : τ}

theorem perform (hA : Faithful A) {a : DevMapCall} (ha : a.Silent) :
    (perform a : DevMapM a.Reply).Ensures A (fun r t' => A.admits a t r ∧ t' = t) t :=
  Ensures.perform (hA.allows a t ha) fun r hr => ⟨hr, hA.effect a r t ha⟩

theorem releaseIfAny (hA : Faithful A) (d : Option DeviceRef) :
    (releaseIfAny d).Ensures A (fun _ t' => t' = t) t := by
  cases d with
  | none => exact Ensures.pure rfl
  | some d => exact (hA.perform (by trivial)).mono fun _ _ h => h.2

theorem notifyIf (hA : Faithful A) (b : Bool) (notice : Notice) :
    (notifyIf b notice).Ensures A (fun _ t' => t' = t) t := by
  cases b with
  | true => exact (hA.perform (by trivial)).mono fun _ _ h => h.2
  | false => exact Ensures.pure rfl

/-- A query that is answered gives a profile. -/
theorem getInternal (hA : Faithful A) (name : String) (reply : Option (ProfileReply name))
    (err : Bool) : (getInternal name reply err).Ensures A
      (fun r t' => t' = t ∧ (r.1 = none → reply = none)) t := by
  refine (hA.perform (by trivial)).bind ?_
  rintro r t' ⟨-, rfl⟩
  cases r with
  | some dp => exact Ensures.pure ⟨rfl, by simp⟩
  | none =>
    cases reply with
    | none => exact Ensures.pure ⟨rfl, by simp⟩
    | some newdp =>
      refine (hA.perform (by trivial)).bind ?_
      rintro dp t'' ⟨-, rfl⟩
      exact Ensures.pure ⟨rfl, by simp⟩

theorem restartAutoevents (hA : Faithful A) (d : Device DeviceProfile) :
    (restartAutoevents d).Ensures A (fun _ t' => t' = t) t := by
  rw [DeviceSdk.restartAutoevents]
  split
  · exact Ensures.pure rfl
  · refine (hA.perform (by trivial)).bind ?_
    rintro (_ | ⟨updated, dev⟩) t' ⟨-, rfl⟩
    · exact Ensures.pure rfl
    · refine (hA.perform (by trivial)).bind ?_
      rintro _ t'' ⟨-, rfl⟩
      exact (hA.perform (by trivial)).mono fun _ _ h => h.2

theorem replaceDevice (hA : Faithful A) {d : Device DeviceProfile} (hd : A.allows (.replace d) t) :
    (replaceDevice d).Ensures A (fun _ t' => ∃ r, t' = A.effect (.replace d) r t) t := by
  refine Ensures.bind (Ensures.perform (Q := fun r t' => t' = _) hd fun _ _ => rfl) ?_
  rintro r t' rfl
  exact (hA.releaseIfAny r.2).bind fun _ _ h => Ensures.pure ⟨r, h⟩

theorem removedeviceByname (hA : Faithful A) {name : String} (hname : A.allows (.remove name) t) :
    (removedeviceByname name).Ensures A (fun _ t' => ∃ r, t' = A.effect (.remove name) r t) t := by
  refine Ensures.bind (Ensures.perform (Q := fun r t' => t' = _) hname fun _ _ => rfl) ?_
  rintro r t' rfl
  exact (hA.releaseIfAny r).bind fun _ _ h => Ensures.pure ⟨r, h⟩

end Faithful

/-- The callback for `c` has returned `code`: it did what it was told, or was refused as no answer
    to its query for a profile came. -/
def Change.Done (c : Change) (query : ProfileQuery) {τ : Type}
    (A : Abstraction DevMapCall DevMapCall.Reply τ) (t : τ) (code : ℕ) (t' : τ) : Prop :=
  (code = 0 ∧ ∃ r, t' = A.effect c.call r t) ∨ (code ≠ 0 ∧ t' = t ∧ ∃ name, query name = none)

/-- Whatever the calls reply and other threads do in between, a callback does what it was told or
    is refused. -/
theorem Change.callback_ensures {τ : Type} {A : Abstraction DevMapCall DevMapCall.Reply τ}
    (hA : Faithful A) (svc : Service) (query : ProfileQuery) (c : Change) (t : τ)
    (hc : A.allows c.call t) : (c.callback svc query).Ensures A (c.Done query A t) t := by
  cases c with
  | add d =>
    refine (hA.getInternal _ _ _).bind ?_
    rintro ⟨_ | prof, err⟩ t' ⟨rfl, hquery⟩
    · exact Ensures.pure (.inr ⟨by decide, rfl, _, hquery rfl⟩)
    · refine (hA.replaceDevice hc).bind ?_
      rintro _ t'' ⟨r, rfl⟩
      refine (hA.notifyIf _ _).bind ?_
      rintro _ t'' rfl
      exact Ensures.pure (.inl ⟨rfl, r, rfl⟩)
  | update d =>
    refine (hA.getInternal _ _ _).bind ?_
    rintro ⟨_ | prof, err⟩ t' ⟨rfl, hquery⟩
    · exact Ensures.pure (.inr ⟨by decide, rfl, _, hquery rfl⟩)
    · refine (hA.replaceDevice hc).bind ?_
      rintro _ t'' ⟨r, rfl⟩
      refine (hA.notifyIf _ _).bind ?_
      rintro _ t'' rfl
      refine (hA.restartAutoevents d).bind ?_
      rintro _ t'' rfl
      exact Ensures.pure (.inl ⟨rfl, r, rfl⟩)
  | delete name =>
    show (callbackDeleteDevice svc name).Ensures A _ t
    rw [callbackDeleteDevice]
    split
    · refine (hA.perform (by trivial)).bind ?_
      rintro (_ | ⟨d, dev⟩) t' ⟨hadmits, rfl⟩
      · obtain ⟨r, hr⟩ := hA.missed name t' hadmits
        exact Ensures.pure (.inl ⟨rfl, r, hr.symm⟩)
      · obtain rfl := hA.found name t' d dev hadmits
        refine (hA.removedeviceByname hc).bind ?_
        rintro _ t'' ⟨r, rfl⟩
        refine (hA.perform (by trivial)).bind ?_
        rintro _ t'' ⟨-, rfl⟩
        refine (hA.perform (by trivial)).bind ?_
        rintro _ t'' ⟨-, rfl⟩
        exact Ensures.pure (.inl ⟨rfl, r, rfl⟩)
    · refine (hA.removedeviceByname hc).bind ?_
      rintro _ t'' ⟨r, rfl⟩
      exact Ensures.pure (.inl ⟨rfl, r, rfl⟩)

-- ════════════════════════════════════════════════════════════════════════
-- Start-up
-- ════════════════════════════════════════════════════════════════════════

/-- The part of `startConfigured` that enters the devices, and whether it goes on from there. -/
def enterDevices (devs : List Configured) : DevMapM Bool := do
  if ← fetchProfiles devs false then return false
  else
    perform (populate (devs.map Sigma.fst))
    return true

theorem startConfigured_eq (devs : List Configured) :
    startConfigured devs = (do let _ ← enterDevices devs; return ()) := by
  rw [startConfigured, enterDevices, Prog.bind_assoc]
  congr 1
  funext err
  cases err with
  | true => rfl
  | false => rfl

theorem Faithful.fetchProfiles {τ : Type} {A : Abstraction DevMapCall DevMapCall.Reply τ}
    (hA : Faithful A) (devs : List Configured) (err : Bool) (t : τ) :
    (fetchProfiles devs err).Ensures A (fun _ t' => t' = t) t := by
  induction devs generalizing err with
  | nil => exact Ensures.pure rfl
  | cons c devs ih =>
    refine (hA.getInternal _ _ _).bind ?_
    rintro r t' ⟨rfl, -⟩
    exact ih r.2

/-- The first device of the name in the list is entered, where there was none. -/
theorem enterDevices_ensures (devs : List Configured) (n : String) :
    (enterDevices devs).Ensures (view n) (fun entered o => entered = true →
      o = (devs.map Sigma.fst).find? fun d => decide (d.name = n)) none := by
  refine ((faithful_view n).fetchProfiles devs false none).bind ?_
  rintro err o rfl
  cases err with
  | true => exact Ensures.pure (by simp)
  | false =>
    refine Ensures.bind (Ensures.perform (Q := fun _ o => o = _) trivial fun _ _ => rfl) ?_
    rintro _ o rfl
    exact Ensures.pure fun _ => Option.none_or

/-- How far `startConfigured` has come: the devices are not listed yet, they are being entered,
    the first so many device topics are subscribed, or there was an error. -/
inductive Boot
  | unlisted
  | loading (p : DevMapM Bool)
  | subscribing (topics : ℕ)
  | failed

/-- The topic of the change is subscribed. -/
def Boot.hears : Boot → Change → Bool
  | subscribing topics, c => decide (c.topic < topics)
  | _, _ => false

/-- Core-metadata has returned the list of devices. -/
def Boot.listed : Boot → Bool
  | unlisted => false
  | _ => true

/-- Core-metadata, the bus and the service. `bus` is the callback that the thread of the bus is in,
    and `lost` says of which devices the last change since the list was made did not get through. -/
structure Mirror where
  database : NameMap (Device DeviceProfile) := ∅
  boot : Boot := .unlisted
  queue : List Change := []
  bus : Option (Change × DevMapM ℕ) := none
  store : Store := .alloc
  lost : String → Bool := fun _ => false

namespace Mirror

/-- What happens next: a change in core-metadata, its list of the devices, a step of start-up, the
    next message with the answers to the queries of its callback, a call of the callback, or a call
    of another thread. -/
inductive Event
  | change (c : Change)
  | list (devs : List Configured)
  | start
  | deliver (query : ProfileQuery)
  | act
  | other (a : DevMapCall)

/-- Core-metadata changes and publishes the change. -/
def publish (w : Mirror) (c : Change) : Mirror :=
  let w := { w with database := c.apply w.database }
  if w.boot.hears c then
    { w with queue := w.queue ++ [c], lost := Function.update w.lost c.name false }
  else if w.boot.listed then { w with lost := Function.update w.lost c.name true }
  else w

/-- The callback for `c` returns `code`. What it was told is lost if it was refused and no later
    message tells of the device. -/
def finish (w : Mirror) (c : Change) (code : ℕ) : Mirror :=
  { w with
    bus := none
    lost := if code ≠ 0 ∧ ∀ c' ∈ w.queue, c'.name ≠ c.name then Function.update w.lost c.name true
      else w.lost }

/-- A step of `startConfigured`. -/
def starting (svc : Service) (w : Mirror) : Mirror :=
  match w.boot with
  | .loading (.act a k) =>
    { w with
      store := (DevMapCall.perform svc a w.store).1
      boot := .loading (k (DevMapCall.perform svc a w.store).2) }
  | .loading (.ret entered) => { w with boot := if entered then .subscribing 0 else .failed }
  | .subscribing topics =>
    { w with boot := .subscribing (if topics < 3 then topics + 1 else topics) }
  | _ => w

/-- The thread of the bus takes the next message. -/
def delivered (svc : Service) (w : Mirror) (query : ProfileQuery) : Mirror :=
  match w.bus, w.queue with
  | none, c :: queue => { w with queue := queue, bus := some (c, c.callback svc query) }
  | _, _ => w

/-- A step of the callback that the thread of the bus is in. -/
def acting (svc : Service) (w : Mirror) : Mirror :=
  match w.bus with
  | some (c, .act a k) =>
    { w with
      store := (DevMapCall.perform svc a w.store).1
      bus := some (c, k (DevMapCall.perform svc a w.store).2) }
  | some (c, .ret code) => w.finish c code
  | none => w

/-- An event, where it can happen. The list is of the devices in any order. Other threads replace
    and remove no devices. -/
def step (svc : Service) (w : Mirror) : Event → Mirror
  | .change c => w.publish c
  | .list devs =>
    match w.boot with
    | .unlisted =>
      if (devs.map Sigma.fst).Perm (w.database.entries.map Sigma.snd) then
        { w with boot := .loading (enterDevices devs) }
      else w
    | _ => w
  | .start => w.starting svc
  | .deliver query => w.delivered svc query
  | .act => w.acting svc
  | .other a => if a.Silent then { w with store := (DevMapCall.perform svc a w.store).1 } else w

/-- The device map shows what core-metadata has under `n`. -/
def Agrees (w : Mirror) (n : String) : Prop := w.store.Shows n (w.database.lookup n)

/-- The devices have been entered, and no message is on its way. -/
structure Quiet (w : Mirror) : Prop where
  boot : ∃ topics, w.boot = .subscribing topics
  bus : w.bus = none
  queue : w.queue = []

/-- What is under `n` after the messages of a queue. -/
def settle (queue : List Change) (n : String) (o : Option (Device DeviceProfile)) :
    Option (Device DeviceProfile) :=
  queue.foldl (fun o c => c.after n o) o

/-- The callback for `c` that returns `code` is not the last word on `n`, or was not refused. -/
def Heeded (w : Mirror) (c : Change) (code : ℕ) (n : String) : Prop :=
  code = 0 ∨ c.name ≠ n ∨ ∃ c' ∈ w.queue, c'.name = n

/-- With `o` showing under `n`, what is on its way leads to what core-metadata has, unless a change
    was lost. -/
def InStep (w : Mirror) (n : String) (o : Option (Device DeviceProfile)) : Prop :=
  match w.boot with
  | .unlisted => o = none ∧ w.lost n = false
  | .loading p => p.Ensures (view n) (fun entered o' => entered = true → w.lost n = false →
      o' = w.database.lookup n) o
  | .failed => True
  | .subscribing _ =>
    match w.bus with
    | none => w.lost n = false → settle w.queue n o = w.database.lookup n
    | some (c, p) => p.Ensures (view n) (fun code o' => w.lost n = false → w.Heeded c code n →
        settle w.queue n o' = w.database.lookup n) o

/-- What holds in every state that is reached. -/
structure Inv (w : Mirror) : Prop where
  wf : w.store.Wf
  keyed : ∀ n d, w.database.lookup n = some d → d.name = n
  idle : (∀ topics, w.boot ≠ .subscribing topics) → w.bus = none ∧ w.queue = []
  spares : ∀ c p, w.bus = some (c, p) → ∀ n, c.name ≠ n →
    p.Ensures (sparing n) (fun _ _ => True) ()
  inStep : ∀ n, ∃ o, w.store.Shows n o ∧ w.InStep n o

-- ════════════════════════════════════════════════════════════════════════
-- Messages on their way
-- ════════════════════════════════════════════════════════════════════════

theorem settle_append (queue : List Change) (c : Change) (n : String)
    (o : Option (Device DeviceProfile)) :
    settle (queue ++ [c]) n o = c.after n (settle queue n o) := by
  rw [settle, List.foldl_append]
  rfl

/-- Where a message tells of the device, what was before does not matter. -/
theorem settle_of_mem {queue : List Change} {n : String} (h : ∃ c ∈ queue, c.name = n)
    (o o' : Option (Device DeviceProfile)) : settle queue n o = settle queue n o' := by
  induction queue generalizing o o' with
  | nil =>
    obtain ⟨c, hc, -⟩ := h
    exact absurd hc List.not_mem_nil
  | cons c queue ih =>
    show settle queue n (c.after n o) = settle queue n (c.after n o')
    by_cases hc : c.name = n
    · rw [Change.after_self hc, Change.after_self hc]
    · obtain ⟨c', hc', hn⟩ := h
      rcases List.mem_cons.mp hc' with rfl | hc'
      · exact absurd hn hc
      · exact ih ⟨c', hc', hn⟩ _ _

theorem finish_lost (w : Mirror) (c : Change) (code : ℕ) (n : String) :
    (w.finish c code).lost n = false ↔ w.lost n = false ∧ w.Heeded c code n := by
  rw [finish, Heeded]
  by_cases hn : c.name = n
  · subst hn
    by_cases hcode : code = 0
    · simp [hcode]
    · by_cases hlater : ∃ c' ∈ w.queue, c'.name = c.name
      · have hnot : ¬∀ c' ∈ w.queue, c'.name ≠ c.name := by simpa using hlater
        simp [hnot, hlater]
      · have hall : ∀ c' ∈ w.queue, c'.name ≠ c.name := by simpa using hlater
        rw [if_pos ⟨hcode, hall⟩]
        simp [hcode, hlater]
  · simp only [hn, not_false_eq_true, ne_eq, true_or, or_true, and_true]
    split
    · rw [Function.update_of_ne (Ne.symm hn)]
    · rfl

/-- After a callback that was heeded, what follows leads where it led before. -/
theorem settle_of_done {w : Mirror} {query : ProfileQuery} {c : Change} {n : String}
    {o o' : Option (Device DeviceProfile)} {code : ℕ}
    (h : c.Done query (view n) o code o') (hheeded : w.Heeded c code n) :
    settle w.queue n o' = settle (c :: w.queue) n o := by
  have heffect : c.call.effect n o = c.after n o := by cases c <;> rfl
  rcases h with ⟨-, _, rfl⟩ | ⟨hcode, rfl, -⟩
  · exact congrArg (settle w.queue n) heffect
  · show settle w.queue n o' = settle w.queue n (c.after n o')
    rcases hheeded with h | h | h
    · exact absurd h hcode
    · rw [Change.after_of_ne h]
    · exact settle_of_mem h _ _

/-- A change that is heard is the last message of its name, and one that is not heard is lost. -/
theorem publish_subscribing {w : Mirror} {topics : ℕ} (hb : w.boot = .subscribing topics)
    (c : Change) :
    w.publish c = { w with
      database := c.apply w.database
      queue := if c.topic < topics then w.queue ++ [c] else w.queue
      lost := Function.update w.lost c.name (decide (topics ≤ c.topic)) } := by
  by_cases hheard : c.topic < topics
  · simp [publish, hb, Boot.hears, hheard, Nat.not_le.mpr hheard]
  · simp [publish, hb, Boot.hears, Boot.listed, hheard, Nat.not_lt.mp hheard]

theorem settle_publish {w : Mirror} {topics : ℕ} (hb : w.boot = .subscribing topics) {c : Change}
    {n : String} {o : Option (Device DeviceProfile)}
    (h : c.name ≠ n → settle w.queue n o = w.database.lookup n)
    (hlost : (w.publish c).lost n = false) :
    settle (w.publish c).queue n o = (w.publish c).database.lookup n := by
  rw [publish_subscribing hb] at hlost ⊢
  simp only [c.lookup_apply]
  by_cases hn : c.name = n
  · have hheard : c.topic < topics := by simpa [hn] using hlost
    rw [if_pos hheard, settle_append, Change.after_self hn, Change.after_self hn]
  · rw [Change.after_of_ne hn, ← h hn]
    split
    · rw [settle_append, Change.after_of_ne hn]
    · rfl

theorem publish_lost_of_ne {w : Mirror} {topics : ℕ} (hb : w.boot = .subscribing topics)
    {c : Change} {n : String} (hn : c.name ≠ n) : (w.publish c).lost n = w.lost n := by
  rw [publish_subscribing hb]
  exact Function.update_of_ne (Ne.symm hn) _ _

/-- Messages are only added. -/
theorem publish_heeded_iff {w : Mirror} {topics : ℕ} (hb : w.boot = .subscribing topics)
    {c : Change} {n : String} (hn : c.name ≠ n) (c' : Change) (code : ℕ) :
    (w.publish c).Heeded c' code n ↔ w.Heeded c' code n := by
  rw [publish_subscribing hb, Heeded, Heeded]
  split
  · simp [or_and_right, exists_or, hn]
  · rfl

-- ════════════════════════════════════════════════════════════════════════
-- The invariant
-- ════════════════════════════════════════════════════════════════════════

variable {svc : Service} {w : Mirror}

theorem inv_init : ({} : Mirror).Inv where
  wf := Store.Wf.alloc
  keyed _ _ h := by cases h
  idle _ := ⟨rfl, rfl⟩
  spares _ _ h := by cases h
  inStep _ := ⟨none, rfl, rfl, rfl⟩

/-- A change that is lost is known to be, and one that is heard is the last message of its name. -/
theorem InStep.publish {n : String} {o : Option (Device DeviceProfile)} (h : w.InStep n o)
    (c : Change) : (w.publish c).InStep n o := by
  have hdb := c.lookup_apply w.database n
  cases hb : w.boot with
  | unlisted => simpa [InStep, Mirror.publish, hb, Boot.hears, Boot.listed] using h
  | failed => simp [InStep, Mirror.publish, hb, Boot.hears, Boot.listed]
  | loading p =>
    simp only [InStep, hb] at h
    simp only [InStep, Mirror.publish, hb, Boot.hears, Boot.listed, Bool.false_eq_true, if_false,
      if_true, hdb]
    refine h.mono fun entered o' ho' hentered hlost => ?_
    by_cases hn : c.name = n
    · subst hn
      simp at hlost
    · rw [Function.update_of_ne (Ne.symm hn)] at hlost
      rw [Change.after_of_ne hn]
      exact ho' hentered hlost
  | subscribing topics =>
    have hboot : (w.publish c).boot = .subscribing topics := by rw [publish_subscribing hb, hb]
    have hbus : (w.publish c).bus = w.bus := by rw [publish_subscribing hb]
    simp only [InStep, hb] at h
    simp only [InStep, hboot, hbus]
    cases hr : w.bus with
    | none =>
      simp only [hr] at h
      exact fun hlost => settle_publish hb
        (fun hn => h (by rwa [publish_lost_of_ne hb hn] at hlost)) hlost
    | some r =>
      simp only [hr] at h
      refine h.mono fun code o' ho' hlost hheeded => settle_publish hb (fun hn => ho' ?_ ?_) hlost
      · rwa [publish_lost_of_ne hb hn] at hlost
      · exact (publish_heeded_iff hb hn r.1 code).mp hheeded

theorem publish_frame (w : Mirror) (c : Change) :
    (w.publish c).boot = w.boot ∧ (w.publish c).bus = w.bus ∧ (w.publish c).store = w.store ∧
      (w.publish c).database = c.apply w.database := by
  rw [publish]
  split
  · exact ⟨rfl, rfl, rfl, rfl⟩
  · dsimp only
    split <;> exact ⟨rfl, rfl, rfl, rfl⟩

theorem Inv.publish (h : w.Inv) (c : Change) : (w.publish c).Inv := by
  obtain ⟨hboot, hbus, hstore, hdb⟩ := w.publish_frame c
  refine ⟨hstore ▸ h.wf, fun n d hd => ?_, fun hb => ?_, fun c' p hp => ?_, fun n => ?_⟩
  · rw [hdb, c.lookup_apply] at hd
    by_cases hn : c.name = n
    · rw [Change.after_self hn] at hd
      cases c with
      | add _ => exact Option.some.inj hd ▸ hn
      | update _ => exact Option.some.inj hd ▸ hn
      | delete _ => cases hd
    · rw [Change.after_of_ne hn] at hd
      exact h.keyed n d hd
  · rw [hboot] at hb
    obtain ⟨hidle, hqueue⟩ := h.idle hb
    refine ⟨hbus.trans hidle, ?_⟩
    have hdeaf : w.boot.hears c = false := by
      cases hw : w.boot with
      | subscribing topics => exact absurd hw (hb topics)
      | _ => rfl
    rw [Mirror.publish, if_neg (by simp [hdeaf])]
    dsimp only
    split <;> exact hqueue
  · rw [hbus] at hp
    exact h.spares c' p hp
  · obtain ⟨o, hs, ho⟩ := h.inStep n
    exact ⟨o, hstore ▸ hs, ho.publish c⟩

/-- The devices of the list are those of core-metadata. -/
theorem Inv.find_listed (h : w.Inv) {devs : List (Device DeviceProfile)}
    (hdevs : devs.Perm (w.database.entries.map Sigma.snd)) (n : String) :
    (devs.find? fun d => decide (d.name = n)) = w.database.lookup n := by
  have hmem (d : Device DeviceProfile) :
      d ∈ devs ↔ w.database.lookup d.name = some d := by
    rw [hdevs.mem_iff, List.mem_map]
    constructor
    · rintro ⟨⟨m, d⟩, he, rfl⟩
      have hm : w.database.lookup m = some d := AList.mem_lookup_iff.mpr he
      rwa [h.keyed m d hm]
    · exact fun hd => ⟨⟨d.name, d⟩, AList.mem_lookup_iff.mp hd, rfl⟩
  cases hfind : devs.find? fun d => decide (d.name = n) with
  | some d =>
    have hn : d.name = n := by simpa using List.find?_some hfind
    exact (hn ▸ (hmem d).mp (List.mem_of_find?_eq_some hfind)).symm
  | none =>
    cases hl : w.database.lookup n with
    | none => rfl
    | some d =>
      obtain rfl := h.keyed n d hl
      have hnot := List.find?_eq_none.mp hfind d ((hmem d).mpr hl)
      simp at hnot

theorem Inv.list (h : w.Inv) (hb : w.boot = .unlisted) {devs : List Configured}
    (hdevs : (devs.map Sigma.fst).Perm (w.database.entries.map Sigma.snd)) :
    ({ w with boot := .loading (enterDevices devs) } : Mirror).Inv := by
  refine ⟨h.wf, h.keyed, fun _ => h.idle (by simp [hb]), h.spares, fun n => ?_⟩
  obtain ⟨o, hs, ho⟩ := h.inStep n
  simp only [InStep, hb] at ho
  obtain ⟨rfl, -⟩ := ho
  refine ⟨none, hs, (enterDevices_ensures devs n).mono fun entered o' ho' hentered _ => ?_⟩
  rw [ho' hentered, h.find_listed hdevs]

theorem Inv.starting (h : w.Inv) : (w.starting svc).Inv := by
  cases hb : w.boot with
  | unlisted => simpa [Mirror.starting, hb] using h
  | failed => simpa [Mirror.starting, hb] using h
  | subscribing topics =>
    have he : w.starting svc =
        { w with boot := .subscribing (if topics < 3 then topics + 1 else topics) } := by
      simp [Mirror.starting, hb]
    rw [he]
    refine ⟨h.wf, h.keyed, fun hb' => absurd rfl (hb' _), h.spares, fun n => ?_⟩
    obtain ⟨o, hs, ho⟩ := h.inStep n
    simp only [InStep, hb] at ho
    exact ⟨o, hs, ho⟩
  | loading p =>
    obtain ⟨hbus, hqueue⟩ := h.idle (by simp [hb])
    cases p with
    | act a k =>
      have he : w.starting svc = { w with
          store := (DevMapCall.perform svc a w.store).1
          boot := .loading (k (DevMapCall.perform svc a w.store).2) } := by
        simp [Mirror.starting, hb]
      rw [he]
      refine ⟨perform_wf svc a h.wf, h.keyed, fun _ => ⟨hbus, hqueue⟩, h.spares, fun n => ?_⟩
      obtain ⟨o, hs, ho⟩ := h.inStep n
      simp only [InStep, hb] at ho
      exact ⟨a.effect n o, perform_shows svc a h.wf hs, ho.2 _ (perform_admits svc a h.wf hs)⟩
    | ret entered =>
      have he : w.starting svc =
          { w with boot := if entered then .subscribing 0 else .failed } := by
        simp [Mirror.starting, hb]
      rw [he]
      refine ⟨h.wf, h.keyed, fun _ => ⟨hbus, hqueue⟩, h.spares, fun n => ?_⟩
      obtain ⟨o, hs, ho⟩ := h.inStep n
      refine ⟨o, hs, ?_⟩
      simp only [InStep, hb] at ho
      cases entered with
      | false => trivial
      | true =>
        simp only [InStep, hbus, if_true]
        rw [hqueue]
        exact ho rfl

/-- Messages come only after the devices were entered. -/
theorem Inv.boot_of_queue (h : w.Inv) (hq : w.queue ≠ []) : ∃ topics, w.boot = .subscribing topics :=
  by_contra fun hb => hq (h.idle fun topics hk => hb ⟨topics, hk⟩).2

theorem Inv.boot_of_bus (h : w.Inv) (hr : w.bus ≠ none) : ∃ topics, w.boot = .subscribing topics :=
  by_contra fun hb => hr (h.idle fun topics hk => hb ⟨topics, hk⟩).1

variable (svc) in
theorem delivered_cons {c : Change} {queue : List Change} (hbus : w.bus = none)
    (hqueue : w.queue = c :: queue) (query : ProfileQuery) :
    w.delivered svc query =
      { w with queue := queue, bus := some (c, c.callback svc query) } := by
  simp [delivered, hbus, hqueue]

theorem Inv.delivered (h : w.Inv) (query : ProfileQuery) : (w.delivered svc query).Inv := by
  cases hbus : w.bus with
  | some r => simpa [Mirror.delivered, hbus] using h
  | none =>
    cases hqueue : w.queue with
    | nil => simpa [Mirror.delivered, hbus, hqueue] using h
    | cons c queue =>
      obtain ⟨topics, hb⟩ := h.boot_of_queue (by simp [hqueue])
      rw [delivered_cons svc hbus hqueue]
      refine ⟨h.wf, h.keyed, fun hb' => absurd hb (hb' topics), ?_, fun n => ?_⟩
      · rintro _ _ ⟨⟩ n hn
        exact (c.callback_ensures (faithful_sparing n) svc query () (by cases c <;> exact hn)).mono
          fun _ _ _ => trivial
      · obtain ⟨o, hs, ho⟩ := h.inStep n
        simp only [InStep, hb, hbus] at ho
        refine ⟨o, hs, ?_⟩
        simp only [InStep, hb]
        refine (c.callback_ensures (faithful_view n) svc query o trivial).mono
          fun code o' hdone hlost hheeded => ?_
        have hsettle := settle_of_done (w := { w with queue := queue }) hdone hheeded
        rw [hsettle, ← ho hlost, hqueue]

theorem acting_act {c : Change} {a : DevMapCall} {k : a.Reply → DevMapM ℕ}
    (hbus : w.bus = some (c, .act a k)) :
    w.acting svc = { w with
      store := (DevMapCall.perform svc a w.store).1
      bus := some (c, k (DevMapCall.perform svc a w.store).2) } := by
  simp [acting, hbus]

theorem acting_ret {c : Change} {code : ℕ} (hbus : w.bus = some (c, .ret code)) :
    w.acting svc = w.finish c code := by
  simp [acting, hbus]

theorem Inv.acting (h : w.Inv) : (w.acting svc).Inv := by
  cases hbus : w.bus with
  | none => simpa [Mirror.acting, hbus] using h
  | some r =>
    obtain ⟨topics, hb⟩ := h.boot_of_bus (by simp [hbus])
    obtain ⟨c, p⟩ := r
    cases p with
    | act a k =>
      rw [acting_act hbus]
      refine ⟨perform_wf svc a h.wf, h.keyed, fun hb' => absurd hb (hb' topics), ?_, fun n => ?_⟩
      · rintro _ _ ⟨⟩ n hn
        obtain ⟨o, hs, -⟩ := h.inStep n
        exact (h.spares c _ hbus n hn).2 _ ⟨o, perform_admits svc a h.wf hs⟩
      · obtain ⟨o, hs, ho⟩ := h.inStep n
        simp only [InStep, hb, hbus] at ho
        refine ⟨a.effect n o, perform_shows svc a h.wf hs, ?_⟩
        simp only [InStep, hb]
        exact ho.2 _ (perform_admits svc a h.wf hs)
    | ret code =>
      rw [acting_ret hbus]
      refine ⟨h.wf, h.keyed, fun hb' => absurd hb (hb' topics), fun _ _ hp => ?_, fun n => ?_⟩
      · cases hp
      · obtain ⟨o, hs, ho⟩ := h.inStep n
        simp only [InStep, hb, hbus] at ho
        refine ⟨o, hs, ?_⟩
        simp only [InStep, finish, hb]
        intro hlost
        obtain ⟨hlost, hheeded⟩ := (w.finish_lost c code n).mp hlost
        exact ho hlost hheeded

theorem Inv.other (h : w.Inv) {a : DevMapCall} (ha : a.Silent) :
    ({ w with store := (DevMapCall.perform svc a w.store).1 } : Mirror).Inv := by
  refine ⟨perform_wf svc a h.wf, h.keyed, h.idle, h.spares, fun n => ?_⟩
  obtain ⟨o, hs, ho⟩ := h.inStep n
  have hshows := perform_shows svc a h.wf hs
  rw [effect_of_spares (ha.spares n)] at hshows
  exact ⟨o, hshows, ho⟩

theorem Inv.step (h : w.Inv) (e : Event) : (w.step svc e).Inv := by
  cases e with
  | change c => exact h.publish c
  | list devs =>
    cases hb : w.boot with
    | unlisted =>
      by_cases hdevs : (devs.map Sigma.fst).Perm (w.database.entries.map Sigma.snd)
      · simpa [Mirror.step, hb, hdevs] using h.list hb hdevs
      · simpa [Mirror.step, hb, hdevs] using h
    | _ => simpa [Mirror.step, hb] using h
  | start => exact h.starting
  | deliver query => exact h.delivered query
  | act => exact h.acting
  | other a =>
    by_cases ha : a.Silent
    · simpa [Mirror.step, ha] using h.other ha
    · simpa [Mirror.step, ha] using h

theorem inv_final (es : List Event) : (Run.final (Mirror.step svc) {} es).Inv :=
  Run.final_inv (fun _ e hw => hw.step e) inv_init es

-- ════════════════════════════════════════════════════════════════════════
-- Changes that are heard and answered
-- ════════════════════════════════════════════════════════════════════════

/-- Core-metadata answers the queries for profiles. -/
def Event.Answered : Event → Prop
  | deliver query => ∀ name, query name ≠ none
  | _ => True

/-- Nothing of the device is lost, nor will be: a callback for it cannot be refused, or a later
    message follows. -/
structure Heard (w : Mirror) (n : String) : Prop where
  lost : w.lost n = false
  bus : ∀ c p, w.bus = some (c, p) → c.name = n → (∃ c' ∈ w.queue, c'.name = n) ∨
    ∃ o, w.store.Shows n o ∧ p.Ensures (view n) (fun code _ => code = 0) o

/-- The devices have been entered and the first `k` topics are subscribed. -/
def Subscribed (w : Mirror) (k : ℕ) : Prop := ∃ topics, w.boot = .subscribing topics ∧ k ≤ topics

theorem Subscribed.publish {k : ℕ} (hw : w.Subscribed k) (c : Change) :
    (w.publish c).Subscribed k := by
  rwa [Subscribed, (w.publish_frame c).1]

theorem Subscribed.step {k : ℕ} (hw : w.Subscribed k) (e : Event) :
    (w.step svc e).Subscribed k := by
  obtain ⟨topics, hb, hk⟩ := hw
  cases e with
  | change c => exact Subscribed.publish ⟨topics, hb, hk⟩ c
  | list devs => exact ⟨topics, by simp [Mirror.step, hb], hk⟩
  | start =>
    refine ⟨if topics < 3 then topics + 1 else topics, by simp [Mirror.step, starting, hb], ?_⟩
    split
    · exact Nat.le_succ_of_le hk
    · exact hk
  | deliver query =>
    refine ⟨topics, ?_, hk⟩
    show (w.delivered svc query).boot = _
    rw [delivered]
    split <;> exact hb
  | act =>
    refine ⟨topics, ?_, hk⟩
    show (w.acting svc).boot = _
    rw [acting]
    split <;> exact hb
  | other a =>
    refine ⟨topics, ?_, hk⟩
    show (if a.Silent then _ else w : Mirror).boot = _
    split <;> exact hb

/-- A change on a topic that is subscribed. -/
theorem Heard.publish {n : String} {topics : ℕ} (hj : w.Heard n)
    (hb : w.boot = .subscribing topics) {c : Change} (hc : c.name = n → c.topic < topics) :
    (w.publish c).Heard n := by
  rw [publish_subscribing hb]
  refine ⟨?_, fun c' p hp hn => ?_⟩
  · by_cases hn : c.name = n
    · simp [hn, hc hn]
    · exact (Function.update_of_ne (Ne.symm hn) _ _).trans hj.lost
  · refine (hj.bus c' p hp hn).imp_left fun ⟨d, hd, hdn⟩ => ⟨d, ?_, hdn⟩
    dsimp only
    split
    · exact List.mem_append_left _ hd
    · exact hd

/-- So a change that is heard makes up for those before it. -/
theorem publish_heard {topics : ℕ} (hb : w.boot = .subscribing topics) {c : Change}
    (hc : c.topic < topics) : (w.publish c).Heard c.name := by
  rw [publish_subscribing hb, if_pos hc]
  exact ⟨by simp [hc], fun _ _ _ _ => .inl ⟨c, by simp, rfl⟩⟩

theorem Heard.delivered {n : String} (h : w.Inv) (hj : w.Heard n) {query : ProfileQuery}
    (hquery : ∀ name, query name ≠ none) : (w.delivered svc query).Heard n := by
  cases hbus : w.bus with
  | some r => simpa [Mirror.delivered, hbus] using hj
  | none =>
    cases hqueue : w.queue with
    | nil => simpa [Mirror.delivered, hbus, hqueue] using hj
    | cons c queue =>
      rw [delivered_cons svc hbus hqueue]
      refine ⟨hj.lost, ?_⟩
      rintro _ _ ⟨⟩ hn
      obtain ⟨o, hs, -⟩ := h.inStep n
      refine .inr ⟨o, hs, ?_⟩
      refine (c.callback_ensures (faithful_view n) svc query o trivial).mono fun code _ hdone => ?_
      rcases hdone with ⟨hcode, -⟩ | ⟨-, -, name, hname⟩
      · exact hcode
      · exact absurd hname (hquery name)

theorem Heard.acting {n : String} (h : w.Inv) (hj : w.Heard n) : (w.acting svc).Heard n := by
  cases hbus : w.bus with
  | none => simpa [Mirror.acting, hbus] using hj
  | some r =>
    obtain ⟨c, p⟩ := r
    cases p with
    | act a k =>
      rw [acting_act hbus]
      refine ⟨hj.lost, ?_⟩
      rintro _ _ ⟨⟩ hn
      refine (hj.bus c _ hbus hn).imp_right fun ⟨o, hs, ho⟩ => ?_
      exact ⟨a.effect n o, perform_shows svc a h.wf hs, ho.2 _ (perform_admits svc a h.wf hs)⟩
    | ret code =>
      rw [acting_ret hbus]
      refine ⟨(w.finish_lost c code n).mpr ⟨hj.lost, ?_⟩, fun _ _ hp => ?_⟩
      · by_cases hn : c.name = n
        · rcases hj.bus c _ hbus hn with hlater | ⟨o, -, ho⟩
          · exact .inr (.inr hlater)
          · exact .inl ho
        · exact .inr (.inl hn)
      · cases hp

theorem Heard.step {n : String} {k : ℕ} (h : w.Inv) (hj : w.Heard n) (hw : w.Subscribed k)
    {e : Event} (he : e.Answered) (hc : ∀ c, e = .change c → c.name = n → c.topic < k) :
    (w.step svc e).Heard n := by
  obtain ⟨topics, hb, hk⟩ := hw
  cases e with
  | change c => exact hj.publish hb fun hn => (hc c rfl hn).trans_le hk
  | list devs => simpa [Mirror.step, hb] using hj
  | start =>
    have he : w.starting svc =
        { w with boot := .subscribing (if topics < 3 then topics + 1 else topics) } := by
      simp [starting, hb]
    show (w.starting svc).Heard n
    rw [he]
    exact ⟨hj.lost, hj.bus⟩
  | deliver query => exact hj.delivered h he
  | act => exact hj.acting h
  | other a =>
    by_cases ha : a.Silent
    · have he : w.step svc (.other a) =
          { w with store := (DevMapCall.perform svc a w.store).1 } := if_pos ha
      rw [he]
      refine ⟨hj.lost, fun c p hp hn => (hj.bus c p hp hn).imp_right fun ⟨o, hs, ho⟩ => ?_⟩
      have hshows := perform_shows svc a h.wf hs
      rw [effect_of_spares (ha.spares n)] at hshows
      exact ⟨o, hshows, ho⟩
    · simpa [Mirror.step, ha] using hj

/-- Changes that are heard and answered are not lost. -/
theorem heard_final {n : String} {k : ℕ} {es : List Event} (h : w.Inv) (hj : w.Heard n)
    (hw : w.Subscribed k)
    (hes : ∀ e ∈ es, e.Answered ∧ ∀ c, e = .change c → c.name = n → c.topic < k) :
    (Run.final (Mirror.step svc) w es).Heard n := by
  induction es generalizing w with
  | nil => exact hj
  | cons e es ih =>
    obtain ⟨he, hc⟩ := hes e List.mem_cons_self
    exact ih (h.step e) (hj.step h hw he hc) (hw.step e)
      fun e' he' => hes e' (List.mem_cons_of_mem e he')

-- ════════════════════════════════════════════════════════════════════════
-- The bus at rest
-- ════════════════════════════════════════════════════════════════════════

theorem Inv.agrees (h : w.Inv) (hquiet : w.Quiet) {n : String} (hn : w.lost n = false) :
    w.Agrees n := by
  obtain ⟨topics, hb⟩ := hquiet.boot
  obtain ⟨o, hs, ho⟩ := h.inStep n
  simp only [InStep, hb, hquiet.bus, hquiet.queue] at ho
  rw [Agrees, ← ho hn]
  exact hs

variable (svc)

/-- The callback that the thread of the bus is in comes to its end. -/
theorem exists_returned {p : DevMapM ℕ} {c : Change} (hbus : w.bus = some (c, p)) :
    ∃ m, let w' := Run.final (Mirror.step svc) w (List.replicate m .act)
      w'.bus = none ∧ w'.queue = w.queue ∧ w'.boot = w.boot := by
  induction p generalizing w with
  | ret code => exact ⟨1, by simp [Mirror.step, acting_ret hbus, finish]⟩
  | act a k ih =>
    obtain ⟨m, hm⟩ := ih (DevMapCall.perform svc a w.store).2 (w := w.acting svc)
      (by rw [acting_act hbus])
    refine ⟨m + 1, ?_⟩
    have hqueue : (w.acting svc).queue = w.queue := by rw [acting_act hbus]
    have hboot : (w.acting svc).boot = w.boot := by rw [acting_act hbus]
    rw [hqueue, hboot] at hm
    exact hm

theorem exists_idle (w : Mirror) :
    ∃ m, let w' := Run.final (Mirror.step svc) w (List.replicate m .act)
      w'.bus = none ∧ w'.queue = w.queue ∧ w'.boot = w.boot := by
  cases hbus : w.bus with
  | none => exact ⟨0, hbus, rfl, rfl⟩
  | some r => exact exists_returned svc hbus

/-- So does the queue. -/
theorem exists_quiet {topics : ℕ} (hb : w.boot = .subscribing topics) (query : ProfileQuery) :
    ∃ es : List Event, (∀ e ∈ es, e = .act ∨ e = .deliver query) ∧
      (Run.final (Mirror.step svc) w es).Quiet := by
  induction hqueue : w.queue generalizing w with
  | nil =>
    obtain ⟨m, hbus, hq, hboot⟩ := exists_idle svc w
    refine ⟨List.replicate m .act, fun e he => .inl (List.eq_of_mem_replicate he), ?_⟩
    exact ⟨⟨topics, hboot.trans hb⟩, hbus, hq.trans hqueue⟩
  | cons c queue ih =>
    obtain ⟨m, hbus, hq, hboot⟩ := exists_idle svc w
    have hnext := delivered_cons svc hbus (hq.trans hqueue) query
    obtain ⟨es, hes, hquiet⟩ := ih (w := Mirror.delivered svc _ query)
      (by rw [hnext]; exact hboot.trans hb) (by rw [hnext])
    refine ⟨List.replicate m .act ++ .deliver query :: es, fun e he => ?_, ?_⟩
    · rcases List.mem_append.mp he with he | he
      · exact .inl (List.eq_of_mem_replicate he)
      · rcases List.mem_cons.mp he with rfl | he
        · exact .inr rfl
        · exact hes e he
    · rw [Run.final_append]
      exact hquiet

-- ════════════════════════════════════════════════════════════════════════
-- Devices that do not change
-- ════════════════════════════════════════════════════════════════════════

/-- No message tells of the device. -/
structure Untold (w : Mirror) (n : String) : Prop where
  bus : ∀ c p, w.bus = some (c, p) → c.name ≠ n
  queue : ∀ c ∈ w.queue, c.name ≠ n

theorem Untold.step {n : String} {k : ℕ} (h : w.Inv) (hu : w.Untold n) (hw : w.Subscribed k)
    {e : Event} (hc : ∀ c, e = .change c → c.name ≠ n) :
    (w.step svc e).Untold n ∧ w.store.SameView (w.step svc e).store n ∧
      (w.step svc e).database.lookup n = w.database.lookup n := by
  obtain ⟨topics, hb, hk⟩ := hw
  have hrefl := Store.SameView.refl w.store n
  cases e with
  | change c =>
    show (w.publish c).Untold n ∧ w.store.SameView (w.publish c).store n ∧
      (w.publish c).database.lookup n = w.database.lookup n
    rw [publish_subscribing hb]
    refine ⟨⟨hu.bus, fun c' hc' => ?_⟩, hrefl, ?_⟩
    · dsimp only at hc'
      split at hc'
      · rcases List.mem_append.mp hc' with hc' | hc'
        · exact hu.queue c' hc'
        · exact List.mem_singleton.mp hc' ▸ hc c rfl
      · exact hu.queue c' hc'
    · exact (c.lookup_apply w.database n).trans (Change.after_of_ne (hc c rfl) _)
  | list devs => simpa [Mirror.step, hb] using ⟨hu, hrefl⟩
  | start =>
    have he : w.step svc .start =
        { w with boot := .subscribing (if topics < 3 then topics + 1 else topics) } := by
      simp [Mirror.step, starting, hb]
    rw [he]
    exact ⟨⟨hu.bus, hu.queue⟩, hrefl, rfl⟩
  | deliver query =>
    show (w.delivered svc query).Untold n ∧ w.store.SameView (w.delivered svc query).store n ∧
      (w.delivered svc query).database.lookup n = w.database.lookup n
    cases hbus : w.bus with
    | some r => simpa [Mirror.delivered, hbus] using ⟨hu, hrefl⟩
    | none =>
      cases hqueue : w.queue with
      | nil => simpa [Mirror.delivered, hbus, hqueue] using ⟨hu, hrefl⟩
      | cons c queue =>
        rw [delivered_cons svc hbus hqueue]
        refine ⟨⟨?_, fun c' hc' => hu.queue c' (hqueue ▸ List.mem_cons_of_mem c hc')⟩, hrefl, rfl⟩
        rintro _ _ ⟨⟩
        exact hu.queue c (hqueue ▸ List.mem_cons_self)
  | act =>
    show (w.acting svc).Untold n ∧ w.store.SameView (w.acting svc).store n ∧
      (w.acting svc).database.lookup n = w.database.lookup n
    cases hbus : w.bus with
    | none => simpa [Mirror.acting, hbus] using ⟨hu, hrefl⟩
    | some r =>
      obtain ⟨c, p⟩ := r
      cases p with
      | act a k =>
        rw [acting_act hbus]
        refine ⟨⟨?_, hu.queue⟩, ?_, rfl⟩
        · rintro _ _ ⟨⟩
          exact hu.bus c _ hbus
        · exact perform_sameView svc (h.spares c _ hbus n (hu.bus c _ hbus)).1 h.wf
      | ret code =>
        rw [acting_ret hbus]
        exact ⟨⟨fun _ _ hp => (by cases hp), hu.queue⟩, hrefl, rfl⟩
  | other a =>
    by_cases ha : a.Silent
    · have he : w.step svc (.other a) =
          { w with store := (DevMapCall.perform svc a w.store).1 } := if_pos ha
      rw [he]
      exact ⟨⟨hu.bus, hu.queue⟩, perform_sameView svc (ha.spares n) h.wf, rfl⟩
    · simpa [Mirror.step, ha] using ⟨hu, hrefl⟩

theorem untold_final {n : String} {k : ℕ} {es : List Event} (h : w.Inv) (hu : w.Untold n)
    (hw : w.Subscribed k) (hes : ∀ c, .change c ∈ es → c.name ≠ n) :
    w.store.SameView (Run.final (Mirror.step svc) w es).store n ∧
      (Run.final (Mirror.step svc) w es).database.lookup n = w.database.lookup n := by
  induction es generalizing w with
  | nil => exact ⟨Store.SameView.refl w.store n, rfl⟩
  | cons e es ih =>
    obtain ⟨hu', hview, hdb⟩ := hu.step svc h hw
      fun c he => hes c (he ▸ List.mem_cons_self)
    obtain ⟨hview', hdb'⟩ := ih (h.step e) hu' (hw.step e)
      fun c hc => hes c (List.mem_cons_of_mem e hc)
    exact ⟨hview.trans hview', hdb'.trans hdb⟩

-- ════════════════════════════════════════════════════════════════════════
-- The mirror
-- ════════════════════════════════════════════════════════════════════════

/-- A device of which the deletion is published while only additions are subscribed. -/
def boiler : Device DeviceProfile := { name := "boiler", profile := .placeholder "heating" }

/-- Every query is answered. -/
def heatingQuery : ProfileQuery := fun name =>
  some { profile := .placeholder name, version := 1, name_eq := rfl }

def missedDeletion : List Event :=
  [.change (.add boiler), .list [⟨boiler, heatingQuery "heating"⟩], .start, .start, .start, .start,
    .start, .change (.delete "boiler"), .start, .start]

/-- The callback for an update, from its delivery on. -/
def updateRun : List Event := [.deliver heatingQuery, .act, .act, .act, .act]

/-- Once start-up has entered the devices: while a device does not change in core-metadata and no
    message tells of it, what is stored of it stays, and agrees just if it did. -/
theorem mirror_stays (svc : Service) (es es' : List Event) (n : String) (k : ℕ)
    (hboot : (Run.final (Mirror.step svc) {} es).boot = .subscribing k)
    (huntold : (Run.final (Mirror.step svc) {} es).Untold n)
    (hes' : ∀ c, .change c ∈ es' → c.name ≠ n) :
    let w := Run.final (Mirror.step svc) {} es
    let w' := Run.final (Mirror.step svc) {} (es ++ es')
    w.store.SameView w'.store n ∧ (w'.Agrees n ↔ w.Agrees n) := by
  intro w w'
  have hrun : w' = Run.final (Mirror.step svc) w es' := Run.final_append ..
  obtain ⟨hview, hdb⟩ := untold_final svc (inv_final es) huntold ⟨k, hboot, le_rfl⟩ hes'
  rw [hrun]
  refine ⟨hview, ?_⟩
  rw [Agrees, hdb]
  exact hview.shows_iff

theorem mirror_stays_sample :
    let w := Run.final (Mirror.step {}) {} missedDeletion
    let w' := Run.final (Mirror.step {}) {} (missedDeletion ++ [.other (.byname "boiler")])
    w.store.SameView w'.store "boiler" ∧ (w'.Agrees "boiler" ↔ w.Agrees "boiler") :=
  mirror_stays {} missedDeletion [.other (.byname "boiler")] "boiler" 3 rfl
    ⟨fun _ _ h => (by cases h), fun _ h => (by cases h)⟩ (by simp)

/-- The service comes to rest by itself, with core-metadata answering its queries. No device that is
    safe by then is lost on the way: one whose last change was not lost, and whose callback is not
    the one that the thread of the bus is in. -/
theorem mirror_settles (svc : Service) (es : List Event) (k : ℕ)
    (hboot : (Run.final (Mirror.step svc) {} es).boot = .subscribing k) (query : ProfileQuery)
    (hquery : ∀ name, query name ≠ none) :
    ∃ es' : List Event, (∀ e ∈ es', e = .act ∨ e = .deliver query) ∧
      (Run.final (Mirror.step svc) {} (es ++ es')).Quiet ∧
      ∀ n, (Run.final (Mirror.step svc) {} es).lost n = false →
        (∀ c p, (Run.final (Mirror.step svc) {} es).bus = some (c, p) → c.name ≠ n) →
        (Run.final (Mirror.step svc) {} (es ++ es')).Agrees n := by
  obtain ⟨es', hes', hquiet⟩ := exists_quiet svc hboot query
  rw [← Run.final_append] at hquiet
  refine ⟨es', hes', hquiet, fun n hn hbus => ?_⟩
  refine (inv_final _).agrees hquiet ?_
  rw [Run.final_append]
  refine (heard_final (k := k) (inv_final es) ⟨hn, fun c p hp hc => absurd hc (hbus c p hp)⟩
    ⟨k, hboot, le_rfl⟩ fun e he => ?_).lost
  rcases hes' e he with rfl | rfl
  · exact ⟨trivial, fun c hc => by cases hc⟩
  · exact ⟨hquery, fun c hc => by cases hc⟩

theorem mirror_settles_sample :
    ∃ es' : List Event, (∀ e ∈ es', e = .act ∨ e = .deliver heatingQuery) ∧
      (Run.final (Mirror.step {}) {} (missedDeletion ++ [.change (.update boiler)] ++ es')).Quiet ∧
      ∀ n, (Run.final (Mirror.step {}) {}
          (missedDeletion ++ [.change (.update boiler)])).lost n = false →
        (∀ c p, (Run.final (Mirror.step {}) {}
          (missedDeletion ++ [.change (.update boiler)])).bus = some (c, p) → c.name ≠ n) →
        (Run.final (Mirror.step {}) {}
          (missedDeletion ++ [.change (.update boiler)] ++ es')).Agrees n :=
  mirror_settles {} _ 3 rfl heatingQuery (by simp [heatingQuery])

end Mirror

end DeviceSdk
