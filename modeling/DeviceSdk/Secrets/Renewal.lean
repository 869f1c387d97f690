import Mathlib

/-!
# Renewal of the Vault token

`vault_schedule_renewal` asks Vault about the token, and schedules a renewal for the time when a
tenth of its life is left. Where that time has come already, it calls `vault_perform_renewal`, which
renews the token and calls `vault_schedule_renewal` again. Nothing ends this while Vault grants
renewals that no longer extend the token.

## Main definitions

- `VaultReplies` — what Vault replies to the requests
- `vaultScheduleRenewal`, `vaultPerformRenewal` — the two functions, for a number of calls
- `VaultRound.Repeats` — a round after which there is another one

## Main results

- `vaultScheduleRenewal_returns_iff`
-/

namespace DeviceSdk

/-- What Vault tells about a token. -/
structure TokenInfo where
  renewable : Bool
  ttl : BitVec 64
  creationTtl : BitVec 64

namespace TokenInfo

/-- The time to wait, in seconds. -/
def wait (info : TokenInfo) : ℤ := (info.ttl - info.creationTtl.sdiv 10).toInt

end TokenInfo

/-- The replies to a request for information, which may fail, and to the renewal that may follow
    it. -/
structure VaultRound where
  info : Option TokenInfo
  renewed : Bool

/-- The replies, round after round. -/
abbrev VaultReplies := ℕ → VaultRound

/-- How a call ends. -/
inductive RenewalEnd
  | noInformation
  | nonRenewable
  | scheduled (wait : ℤ)
  | notRenewed
  deriving DecidableEq

/-- A call that has returned: how, and after how many requests. -/
structure RenewalReturn where
  ending : RenewalEnd
  requests : ℕ
  deriving DecidableEq

/-- One more request. -/
def RenewalReturn.after (r : RenewalReturn) : RenewalReturn := { r with requests := r.requests + 1 }

mutual

/-- `vault_schedule_renewal`, in a round of the replies. There is no result when the number of calls
    does not suffice. -/
def vaultScheduleRenewal (replies : VaultReplies) : ℕ → ℕ → Option RenewalReturn
  | 0, _ => none
  | calls + 1, n =>
    match (replies n).info with
    | none => some ⟨.noInformation, 1⟩
    | some info =>
      if info.renewable then
        if info.wait < 1 then
          (vaultPerformRenewal replies calls n).map RenewalReturn.after
        else some ⟨.scheduled info.wait, 1⟩
      else some ⟨.nonRenewable, 1⟩

/-- `vault_perform_renewal`, in a round of the replies. -/
def vaultPerformRenewal (replies : VaultReplies) : ℕ → ℕ → Option RenewalReturn
  | 0, _ => none
  | calls + 1, n =>
    if (replies n).renewed then
      (vaultScheduleRenewal replies calls (n + 1)).map RenewalReturn.after
    else some ⟨.notRenewed, 1⟩

end

/-- The token is renewable and less than a tenth of its life is left, and the renewal is granted. -/
def VaultRound.Repeats (r : VaultRound) : Prop :=
  ∃ info, r.info = some info ∧ info.renewable = true ∧ info.wait < 1 ∧ r.renewed = true

/-- A call returns after finitely many requests. -/
def RenewalReturns (replies : VaultReplies) : Prop :=
  ∃ calls r, vaultScheduleRenewal replies calls 0 = some r

variable {replies : VaultReplies}

/-- A round with another one behind it. -/
theorem schedule_of_repeats {n : ℕ} (h : (replies n).Repeats) (calls : ℕ) :
    vaultScheduleRenewal replies (calls + 2) n =
      (vaultScheduleRenewal replies calls (n + 1)).map fun r => r.after.after := by
  obtain ⟨info, hinfo, hrenewable, hwait, hrenewed⟩ := h
  rw [vaultScheduleRenewal, hinfo]
  dsimp only
  rw [if_pos hrenewable, if_pos hwait, vaultPerformRenewal, if_pos hrenewed, Option.map_map]
  rfl

/-- Any other round ends the call. -/
theorem exists_schedule_of_not_repeats {n : ℕ} (h : ¬ (replies n).Repeats) :
    ∃ r, vaultScheduleRenewal replies 2 n = some r := by
  rw [vaultScheduleRenewal]
  cases hinfo : (replies n).info with
  | none => exact ⟨_, rfl⟩
  | some info =>
    dsimp only
    by_cases hrenewable : info.renewable = true
    · rw [if_pos hrenewable]
      by_cases hwait : info.wait < 1
      · have hrenewed : (replies n).renewed ≠ true :=
          fun hr => h ⟨info, hinfo, hrenewable, hwait, hr⟩
        rw [if_pos hwait, vaultPerformRenewal, if_neg hrenewed]
        exact ⟨_, rfl⟩
      · rw [if_neg hwait]
        exact ⟨_, rfl⟩
    · rw [if_neg hrenewable]
      exact ⟨_, rfl⟩

/-- While every round has another one behind it, no number of calls suffices. -/
theorem schedule_eq_none (h : ∀ n, (replies n).Repeats) (calls n : ℕ) :
    vaultScheduleRenewal replies calls n = none := by
  induction calls using Nat.strongRecOn generalizing n with
  | ind calls ih =>
    match calls with
    | 0 => rw [vaultScheduleRenewal]
    | 1 =>
      obtain ⟨info, hinfo, hrenewable, hwait, -⟩ := h n
      rw [vaultScheduleRenewal, hinfo]
      dsimp only
      rw [if_pos hrenewable, if_pos hwait, vaultPerformRenewal, Option.map_none]
    | calls + 2 => rw [schedule_of_repeats (h n), ih calls (by omega), Option.map_none]

/-- From any round on, the call ends at the first round that ends it. -/
theorem exists_schedule (d n : ℕ) (h : ¬ (replies (n + d)).Repeats) :
    ∃ calls r, vaultScheduleRenewal replies calls n = some r := by
  induction d generalizing n with
  | zero => exact ⟨2, exists_schedule_of_not_repeats h⟩
  | succ d ih =>
    by_cases hn : (replies n).Repeats
    · have hrest : ¬ (replies (n + 1 + d)).Repeats := by
        rw [Nat.add_assoc, Nat.add_comm 1 d]
        exact h
      obtain ⟨calls, r, hr⟩ := ih (n + 1) hrest
      refine ⟨calls + 2, r.after.after, ?_⟩
      rw [schedule_of_repeats hn, hr]
      rfl
    · exact ⟨2, exists_schedule_of_not_repeats hn⟩

/-- The call returns exactly when some round ends it. -/
theorem vaultScheduleRenewal_returns_iff (replies : VaultReplies) :
    RenewalReturns replies ↔ ∃ n, ¬ (replies n).Repeats := by
  constructor
  · rintro ⟨calls, r, hr⟩
    by_contra hall
    rw [not_exists] at hall
    rw [schedule_eq_none fun n => not_not.mp (hall n)] at hr
    cases hr
  · rintro ⟨n, hn⟩
    exact exists_schedule n 0 (by rwa [Nat.zero_add])

/-- A token of an hour that has reached its maximum lifetime: it has two minutes left, and is
    renewed without being extended. -/
def cappedToken : VaultReplies := fun _ =>
  { info := some { renewable := true, ttl := 120, creationTtl := 3600 }, renewed := true }

/-- For it the call does not return. -/
theorem vaultScheduleRenewal_capped : ¬ ∀ replies, RenewalReturns replies := by
  intro h
  obtain ⟨calls, r, hr⟩ := h cappedToken
  have hrepeats : ∀ n, (cappedToken n).Repeats :=
    fun n => ⟨_, rfl, rfl, by decide, rfl⟩
  rw [schedule_eq_none hrepeats] at hr
  cases hr

end DeviceSdk
