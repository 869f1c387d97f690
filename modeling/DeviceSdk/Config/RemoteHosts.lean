import DeviceSdk.Lib.Words

/-!
# Remote service hosts

`parseRemoteServiceHosts` reads the names of three hosts from an option. The names stand between
commas and may have spaces around them. It takes them from a tokenizer that skips empty names,
looks at the first three only, and stores each before it knows how many there are.

## Main definitions

- `parseRemoteServiceHosts`
- `HostNames` — the options with three names
- `HostsRight` — exactly these are accepted, and nothing is stored of any other

## Main results

- `parseRemoteServiceHosts_right_iff`
-/

namespace DeviceSdk

/-- The fields of `devsdk_service_t` for a service that runs apart from the others. -/
structure ServiceHosts where
  localHost : Option String := none
  remoteHost : Option String := none
  bindHost : Option String := none
  remoteMode : Bool := false
  deriving DecidableEq

/-- The name that is made of a token. -/
def hostName (token : List Char) : String := String.ofList (Words.trim ' ' token)

/-- The `switch` on the number of tokens that have been there before. -/
def storeHost (svc : ServiceHosts) (token : List Char) : ℕ → ServiceHosts
  | 0 => { svc with localHost := some (hostName token) }
  | 1 => { svc with remoteHost := some (hostName token) }
  | 2 => { svc with bindHost := some (hostName token) }
  | _ => svc

/-- The loop over the tokens, which ends when `left` more have been counted. -/
def hostLoop : ℕ → ServiceHosts × ℕ → List Char → ServiceHosts × ℕ
  | 0, st, _ => st
  | left + 1, (svc, count), hosts =>
    match Words.next ',' hosts with
    | none => (svc, count)
    | some (token, saved) => hostLoop left (storeHost svc token count, count + 1) saved

/-- `parseRemoteServiceHosts`, with what it returns. -/
def parseRemoteServiceHosts (svc : ServiceHosts) (hoststr : Option String) : ServiceHosts × Bool :=
  match hoststr with
  | none => (svc, false)
  | some hosts =>
    if hosts.toList.length = 0 then (svc, false)
    else
      let (svc, count) := hostLoop 3 (svc, 0) hosts.toList
      if count ≠ 3 then (svc, false) else ({ svc with remoteMode := true }, true)

/-- A host name, and the text that it is with spaces around it. -/
def IsHost (piece : List Char) (name : String) : Prop :=
  Words.Around ' ' piece name.toList ∧ name ≠ "" ∧ ',' ∉ piece

/-- The option consists of three host names between commas. -/
def HostNames (hoststr : Option String) (localHost remoteHost bindHost : String) : Prop :=
  ∃ p q r, hoststr = some (String.ofList (p ++ ',' :: (q ++ ',' :: r))) ∧
    IsHost p localHost ∧ IsHost q remoteHost ∧ IsHost r bindHost

/-- Exactly three host names are accepted, and stored in order. Where the option is not accepted,
    the service stays as it was. -/
structure HostsRight (svc : ServiceHosts) (hoststr : Option String) : Prop where
  accepted : (parseRemoteServiceHosts svc hoststr).2 = true ↔ ∃ l r b, HostNames hoststr l r b
  stored : ∀ l r b, HostNames hoststr l r b →
    (parseRemoteServiceHosts svc hoststr).1 = ⟨some l, some r, some b, true⟩
  unchanged : (parseRemoteServiceHosts svc hoststr).2 = false →
    (parseRemoteServiceHosts svc hoststr).1 = svc

/-- The names of the first two tokens are those that the service has. -/
def HostsKept (svc : ServiceHosts) (tokens : List (List Char)) : Prop :=
  (∀ t ∈ tokens[0]?, svc.localHost = some (hostName t)) ∧
    ∀ t ∈ tokens[1]?, svc.remoteHost = some (hostName t)

/-- Of the pieces between commas at least three are not empty, and then there are no others and
    each has something else than spaces; or there are fewer that are not empty, and the service
    has their names already. -/
def HostsClear (svc : ServiceHosts) (hoststr : Option String) : Prop :=
  ∀ hosts ∈ hoststr,
    let pieces := hosts.toList.splitOn ','
    let tokens := pieces.filter (· ≠ [])
    if 3 ≤ tokens.length then pieces.length = 3 ∧ ∀ p ∈ pieces, ∃ c ∈ p, c ≠ ' '
    else HostsKept svc tokens

-- ════════════════════════════════════════════════════════════════════════
-- The loop
-- ════════════════════════════════════════════════════════════════════════

/-- The loop stores the words of the option, as many as are left to be counted. -/
theorem hostLoop_eq (left : ℕ) (svc : ServiceHosts) (count : ℕ) (hosts : List Char) :
    hostLoop left (svc, count) hosts =
      ((Words.all ',' hosts).take left).foldl
        (fun st token => (storeHost st.1 token st.2, st.2 + 1)) (svc, count) := by
  induction left generalizing svc count hosts with
  | zero => rfl
  | succ left ih =>
    rw [hostLoop]
    cases hnext : Words.next ',' hosts with
    | none => rw [Words.next_eq_none_iff.mp hnext, List.take_nil, List.foldl_nil]
    | some found =>
      rw [Words.all_of_next hnext, List.take_succ_cons, List.foldl_cons]
      exact ih _ _ _

/-- What the service stores of the words of an option, and whether it accepts them. -/
def storedHosts (svc : ServiceHosts) : List (List Char) → ServiceHosts × Bool
  | [] => (svc, false)
  | [t] => ({ svc with localHost := some (hostName t) }, false)
  | [t, u] =>
    ({ svc with localHost := some (hostName t), remoteHost := some (hostName u) }, false)
  | t :: u :: v :: _ => (⟨some (hostName t), some (hostName u), some (hostName v), true⟩, true)

theorem parseRemoteServiceHosts_some (svc : ServiceHosts) (hosts : String) :
    parseRemoteServiceHosts svc (some hosts) = storedHosts svc (Words.all ',' hosts.toList) := by
  rw [parseRemoteServiceHosts]
  by_cases hempty : hosts.toList.length = 0
  · rw [if_pos hempty, List.length_eq_zero_iff.mp hempty, Words.all_nil]
    rfl
  · rw [if_neg hempty, hostLoop_eq]
    rcases Words.all ',' hosts.toList with _ | ⟨t, _ | ⟨u, _ | ⟨v, ws⟩⟩⟩ <;> rfl

theorem storedHosts_accepted {svc : ServiceHosts} {tokens : List (List Char)} :
    (storedHosts svc tokens).2 = true ↔ 3 ≤ tokens.length := by
  rcases tokens with _ | ⟨t, _ | ⟨u, _ | ⟨v, ws⟩⟩⟩ <;> simp [storedHosts]

/-- Fewer than three words leave the service as it was when it has their names. -/
theorem storedHosts_unchanged_iff {svc : ServiceHosts} {tokens : List (List Char)}
    (h : ¬ 3 ≤ tokens.length) : (storedHosts svc tokens).1 = svc ↔ HostsKept svc tokens := by
  obtain ⟨localHost, remoteHost, bindHost, remoteMode⟩ := svc
  rcases tokens with _ | ⟨t, _ | ⟨u, _ | ⟨v, ws⟩⟩⟩
  · simp [storedHosts, HostsKept]
  · simp [storedHosts, HostsKept, eq_comm]
  · simp [storedHosts, HostsKept, eq_comm]
  · simp at h

-- ════════════════════════════════════════════════════════════════════════
-- Three names between commas
-- ════════════════════════════════════════════════════════════════════════

/-- A piece that something else than spaces is in has one name, which the code finds. -/
theorem isHost_iff {piece : List Char} (h : ',' ∉ piece) {name : String} :
    IsHost piece name ↔ (∃ c ∈ piece, c ≠ ' ') ∧ name = hostName piece := by
  have hblank : (∃ c ∈ piece, c ≠ ' ') ↔ Words.trim ' ' piece ≠ [] := by
    rw [ne_eq, Words.trim_eq_nil_iff]
    push Not
    exact Iff.rfl
  have hname : name.toList = Words.trim ' ' piece ↔ name = hostName piece := by
    rw [hostName, ← String.toList_inj, String.toList_ofList]
  rw [IsHost, Words.around_iff, hname, hblank]
  constructor
  · rintro ⟨rfl, hne, -⟩
    refine ⟨fun hnil => hne ?_, rfl⟩
    rw [hostName, hnil, String.ofList_nil]
  · rintro ⟨hne, rfl⟩
    refine ⟨rfl, fun hnil => hne ?_, h⟩
    have hlist := congrArg String.toList hnil
    rwa [hostName, String.toList_ofList] at hlist

/-- The pieces of an option with three names. -/
theorem hostNames_iff {hosts l r b : String} :
    HostNames (some hosts) l r b ↔
      ∃ p q t, hosts.toList.splitOn ',' = [p, q, t] ∧
        (∀ s ∈ [p, q, t], ∃ c ∈ s, c ≠ ' ') ∧
        l = hostName p ∧ r = hostName q ∧ b = hostName t := by
  constructor
  · rintro ⟨p, q, t, hhosts, hp, hq, ht⟩
    have hlist : hosts.toList = p ++ ',' :: (q ++ ',' :: t) := by
      rw [Option.some.inj hhosts, String.toList_ofList]
    obtain ⟨hpne, rfl⟩ := (isHost_iff hp.2.2).mp hp
    obtain ⟨hqne, rfl⟩ := (isHost_iff hq.2.2).mp hq
    obtain ⟨htne, rfl⟩ := (isHost_iff ht.2.2).mp ht
    refine ⟨p, q, t, ?_, by simp [hpne, hqne, htne], rfl, rfl, rfl⟩
    rw [hlist, List.splitOn_append_cons_self_of_not_mem hp.2.2,
      List.splitOn_append_cons_self_of_not_mem hq.2.2, List.splitOn_eq_singleton ht.2.2]
  · rintro ⟨p, q, t, hpieces, hne, rfl, rfl, rfl⟩
    obtain ⟨hcomma, hlist⟩ := (Segments.splitOn_eq_iff ',' (List.cons_ne_nil _ _)).mp hpieces
    have hhost (s : List Char) (hs : s ∈ [p, q, t]) : IsHost s (hostName s) :=
      (isHost_iff (hcomma s hs)).mpr ⟨hne s hs, rfl⟩
    refine ⟨p, q, t, ?_, hhost p (by simp), hhost q (by simp), hhost t (by simp)⟩
    rw [Option.some_inj, ← String.toList_inj, String.toList_ofList, hlist]
    simp [List.intercalate_cons_cons]

/-- An option has three names when it has three pieces, and something else than spaces in each. -/
theorem exists_hostNames_iff {hosts : String} :
    (∃ l r b, HostNames (some hosts) l r b) ↔
      (hosts.toList.splitOn ',').length = 3 ∧
        ∀ p ∈ hosts.toList.splitOn ',', ∃ c ∈ p, c ≠ ' ' := by
  constructor
  · rintro ⟨l, r, b, hnames⟩
    obtain ⟨p, q, t, hpieces, hne, -⟩ := hostNames_iff.mp hnames
    rw [hpieces]
    exact ⟨rfl, hne⟩
  · rintro ⟨hlen, hne⟩
    obtain ⟨p, q, t, hpieces⟩ := List.length_eq_three.mp hlen
    rw [hpieces] at hne
    exact ⟨_, _, _, hostNames_iff.mpr ⟨p, q, t, hpieces, hne, rfl, rfl, rfl⟩⟩

/-- The words of an option with three names are its pieces. -/
theorem all_eq_of_splitOn {hosts p q t : List Char} (h : hosts.splitOn ',' = [p, q, t])
    (hne : ∀ s ∈ [p, q, t], ∃ c ∈ s, c ≠ ' ') : Words.all ',' hosts = [p, q, t] := by
  rw [Words.all, h]
  refine List.filter_eq_self.mpr fun s hs => ?_
  obtain ⟨c, hc, -⟩ := hne s hs
  exact decide_eq_true (List.ne_nil_of_mem hc)

section Some

variable {svc : ServiceHosts} {hosts : String}

/-- An option that is accepted should be when it has three names, and is then read as it should. -/
theorem hostsRight_iff_of_accepted (h : 3 ≤ (Words.all ',' hosts.toList).length) :
    HostsRight svc (some hosts) ↔ ∃ l r b, HostNames (some hosts) l r b := by
  have htrue : (parseRemoteServiceHosts svc (some hosts)).2 = true := by
    rw [parseRemoteServiceHosts_some]
    exact storedHosts_accepted.mpr h
  refine ⟨fun hright => hright.accepted.mp htrue, fun hnames => ⟨iff_of_true htrue hnames, ?_, ?_⟩⟩
  · intro l r b hnames
    obtain ⟨p, q, t, hpieces, hne, rfl, rfl, rfl⟩ := hostNames_iff.mp hnames
    rw [parseRemoteServiceHosts_some, all_eq_of_splitOn hpieces hne]
    rfl
  · intro hfalse
    rw [htrue] at hfalse
    cases hfalse

/-- An option that is refused should be, and changes nothing when the service has its names. -/
theorem hostsRight_iff_of_refused (h : ¬ 3 ≤ (Words.all ',' hosts.toList).length) :
    HostsRight svc (some hosts) ↔ HostsKept svc (Words.all ',' hosts.toList) := by
  have hfalse : ¬ (parseRemoteServiceHosts svc (some hosts)).2 = true := by
    rwa [parseRemoteServiceHosts_some, storedHosts_accepted]
  have hnone : ¬ ∃ l r b, HostNames (some hosts) l r b := by
    rintro ⟨l, r, b, hnames⟩
    obtain ⟨p, q, t, hpieces, hne, -⟩ := hostNames_iff.mp hnames
    rw [all_eq_of_splitOn hpieces hne] at h
    exact h (Nat.le_refl 3)
  rw [← storedHosts_unchanged_iff h, ← parseRemoteServiceHosts_some]
  refine ⟨fun hright => hright.unchanged (Bool.eq_false_iff.mpr hfalse), fun hsame => ?_⟩
  exact ⟨iff_of_false hfalse hnone, fun l r b hnames => absurd ⟨l, r, b, hnames⟩ hnone,
    fun _ => hsame⟩

end Some

/-- For every service and every option, exactly three host names are accepted and stored in order,
    and a refused option changes nothing, exactly when the option has these three names, or at most
    two that are not empty, which the service has already. -/
theorem parseRemoteServiceHosts_right_iff (svc : ServiceHosts) (hoststr : Option String) :
    HostsRight svc hoststr ↔ HostsClear svc hoststr := by
  cases hoststr with
  | none =>
    have hnone : ¬ ∃ l r b, HostNames none l r b := by
      rintro ⟨l, r, b, p, q, t, hnone, -⟩
      cases hnone
    refine iff_of_true ⟨iff_of_false Bool.false_ne_true hnone, ?_, fun _ => rfl⟩ nofun
    exact fun l r b hnames => absurd ⟨l, r, b, hnames⟩ hnone
  | some hosts =>
    have hclear : HostsClear svc (some hosts) ↔
        if 3 ≤ (Words.all ',' hosts.toList).length then ∃ l r b, HostNames (some hosts) l r b
        else HostsKept svc (Words.all ',' hosts.toList) := by
      rw [exists_hostNames_iff]
      exact ⟨fun h => h hosts rfl, fun h _ hs => Option.some.inj hs ▸ h⟩
    rw [hclear]
    by_cases hlen : 3 ≤ (Words.all ',' hosts.toList).length
    · rw [if_pos hlen]
      exact hostsRight_iff_of_accepted hlen
    · rw [if_neg hlen]
      exact hostsRight_iff_of_refused hlen

/-- Two names are refused, and stay. -/
example : parseRemoteServiceHosts {} (some "a,b") =
    ({ localHost := some "a", remoteHost := some "b" }, false) := by decide

/-- A fourth name is not noticed. -/
theorem parseRemoteServiceHosts_fourth :
    ¬ ∀ (svc : ServiceHosts) (hoststr : Option String), HostsRight svc hoststr := by
  intro h
  have hnames := (h {} (some "a,b,c,d")).accepted.mp (by decide)
  have hlength := (exists_hostNames_iff.mp hnames).1
  revert hlength
  decide

end DeviceSdk
