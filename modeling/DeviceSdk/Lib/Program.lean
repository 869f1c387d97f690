import DeviceSdk.Lib.Run

/-!
# Programs over atomic actions

A program is a tree of atomic actions: it performs one, and how it goes on depends on
the reply. Performed on its own, a program runs from its first action to its last. In
a pool, the actions of several programs interleave over a shared state in the order
that a schedule gives.

## Main definitions

- `Prog` — programs over actions `Act` whose replies have the types `Reply`
- `Prog.exec` — a program run on its own
- `Prog.Keeps` — a program, run on its own, keeps an invariant
- `Prog.Abstraction`, `Prog.Ensures` — a program told on an abstract state, where actions of others
  leave no trace
- `Pool` — programs that share a state; `Pool.step` lets one of them act
-/

/-- Programs over atomic actions. -/
inductive Prog (Act : Type) (Reply : Act → Type) (α : Type)
  | ret (a : α)
  | act (a : Act) (k : Reply a → Prog Act Reply α)

namespace Prog

variable {Act : Type} {Reply : Act → Type} {α β σ : Type}

/-- One program after another. -/
def bind : Prog Act Reply α → (α → Prog Act Reply β) → Prog Act Reply β
  | ret a, f => f a
  | act a k, f => act a fun r => (k r).bind f

instance : Monad (Prog Act Reply) where
  pure := ret
  bind := bind

/-- The program that performs a single action. -/
def perform (a : Act) : Prog Act Reply (Reply a) := act a ret

/-- A program that nothing interrupts. -/
def exec (sem : (a : Act) → σ → σ × Reply a) : Prog Act Reply α → σ → σ × α
  | ret a, s => (s, a)
  | act a k, s => (k (sem a s).2).exec sem (sem a s).1

variable (sem : (a : Act) → σ → σ × Reply a)

@[simp] theorem exec_pure (a : α) (s : σ) :
    (pure a : Prog Act Reply α).exec sem s = (s, a) := rfl

@[simp] theorem exec_perform (a : Act) (s : σ) :
    (perform a : Prog Act Reply (Reply a)).exec sem s = sem a s := rfl

@[simp] theorem exec_bind (p : Prog Act Reply α) (f : α → Prog Act Reply β) (s : σ) :
    (p >>= f).exec sem s = (f (p.exec sem s).2).exec sem (p.exec sem s).1 := by
  show (p.bind f).exec sem s = _
  induction p generalizing s with
  | ret a => rfl
  | act a k ih => exact ih (sem a s).2 (sem a s).1

theorem bind_assoc {γ : Type} (p : Prog Act Reply α) (f : α → Prog Act Reply β)
    (g : β → Prog Act Reply γ) : (p >>= f) >>= g = p >>= fun a => f a >>= g := by
  show (p.bind f).bind g = p.bind fun a => (f a).bind g
  induction p with
  | ret a => rfl
  | act a k ih => exact congrArg (act a) (funext ih)

/-- Run on its own, the program keeps `I`. -/
def Keeps (I : σ → Prop) (p : Prog Act Reply α) : Prop :=
  ∀ s, I s → I (p.exec sem s).1

variable {sem} {I : σ → Prop}

theorem Keeps.pure (a : α) : (pure a : Prog Act Reply α).Keeps sem I := fun _ hs => hs

theorem Keeps.perform {a : Act} (ha : ∀ s, I s → I (sem a s).1) :
    (perform a : Prog Act Reply (Reply a)).Keeps sem I := ha

theorem Keeps.bind {p : Prog Act Reply α} {f : α → Prog Act Reply β} (hp : p.Keeps sem I)
    (hf : ∀ a, (f a).Keeps sem I) : (p >>= f).Keeps sem I := by
  intro s hs
  rw [exec_bind]
  exact hf _ _ (hp s hs)

/-- What is told of the actions on an abstract state: when they may be performed, which replies
    they may give, and what they do when they give a reply. -/
structure Abstraction (Act : Type) (Reply : Act → Type) (τ : Type) where
  allows : Act → τ → Prop := fun _ _ => True
  admits : (a : Act) → τ → Reply a → Prop := fun _ _ _ => True
  effect : (a : Act) → Reply a → τ → τ

variable {τ : Type} {A : Abstraction Act Reply τ} {Q : α → τ → Prop}

/-- Whatever admissible replies it gets, the program performs what is allowed only, and `Q` holds
    of its result and of the abstract state at its end. -/
def Ensures (A : Abstraction Act Reply τ) (Q : α → τ → Prop) : Prog Act Reply α → τ → Prop
  | ret a, t => Q a t
  | act a k, t => A.allows a t ∧ ∀ r, A.admits a t r → (k r).Ensures A Q (A.effect a r t)

theorem Ensures.pure {a : α} {t : τ} (h : Q a t) : (pure a : Prog Act Reply α).Ensures A Q t := h

theorem Ensures.perform {a : Act} {t : τ} {Q : Reply a → τ → Prop} (ha : A.allows a t)
    (h : ∀ r, A.admits a t r → Q r (A.effect a r t)) :
    (perform a : Prog Act Reply (Reply a)).Ensures A Q t := ⟨ha, h⟩

theorem Ensures.mono {Q' : α → τ → Prop} {p : Prog Act Reply α} {t : τ} (h : p.Ensures A Q t)
    (hQ : ∀ a t, Q a t → Q' a t) : p.Ensures A Q' t := by
  induction p generalizing t with
  | ret a => exact hQ a t h
  | act a k ih => exact ⟨h.1, fun r hr => ih r (h.2 r hr)⟩

theorem Ensures.bind {Q' : β → τ → Prop} {p : Prog Act Reply α} {f : α → Prog Act Reply β} {t : τ}
    (hp : p.Ensures A Q t) (hf : ∀ a t, Q a t → (f a).Ensures A Q' t) :
    (p >>= f).Ensures A Q' t := by
  show (p.bind f).Ensures A Q' t
  induction p generalizing t with
  | ret a => exact hf a t hp
  | act a k ih => exact ⟨hp.1, fun r hr => ih r (hp.2 r hr)⟩

end Prog

/-- Programs that share a state. -/
structure Pool (Act : Type) (Reply : Act → Type) (α σ : Type) where
  threads : List (Prog Act Reply α)
  state : σ

namespace Pool

variable {Act : Type} {Reply : Act → Type} {α σ : Type}

/-- The action that the `i`-th program is about to perform. -/
def next? (c : Pool Act Reply α σ) (i : ℕ) : Option Act :=
  match c.threads[i]? with
  | some (.act a _) => some a
  | _ => none

/-- The `i`-th program performs its next action, if it has one. -/
def step (sem : (a : Act) → σ → σ × Reply a) (c : Pool Act Reply α σ) (i : ℕ) :
    Pool Act Reply α σ :=
  match c.threads[i]? with
  | some (.act a k) =>
    { threads := c.threads.set i (k (sem a c.state).2), state := (sem a c.state).1 }
  | _ => c

variable {sem : (a : Act) → σ → σ × Reply a}

theorem step_state (c : Pool Act Reply α σ) (i : ℕ) :
    (c.step sem i).state =
      match c.next? i with
      | some a => (sem a c.state).1
      | none => c.state := by
  cases hi : c.threads[i]? with
  | none => simp [step, next?, hi]
  | some p =>
    cases p with
    | ret a => simp [step, next?, hi]
    | act a k => simp [step, next?, hi]

/-- A schedule keeps a property of the shared state in every state exactly when each
    action that it lets through meets the condition for a single action. -/
theorem always_iff_meets {I P : σ → Prop} {C : Act → σ → Prop}
    (hI : ∀ a s, I s → I (sem a s).1)
    (hact : ∀ a s, I s → P s → (P (sem a s).1 ↔ C a s)) (c : Pool Act Reply α σ)
    (hs : I c.state) (hp : P c.state) (sched : List ℕ) :
    Run.Always (step sem) (fun c => P c.state) c sched ↔
      Run.Meets (step sem) (fun c i => ∀ a, c.next? i = some a → C a c.state) c sched := by
  refine Run.always_iff_meets (I := fun c : Pool Act Reply α σ => I c.state) ?_ ?_ hs hp sched
  · intro c i hi _ _
    rw [step_state]
    split
    · exact hI _ _ hi
    · exact hi
  · intro c i hi hp
    rw [step_state]
    cases hn : c.next? i with
    | none => simpa using hp
    | some a => simpa using hact a c.state hi hp

end Pool
