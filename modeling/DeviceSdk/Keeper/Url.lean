import DeviceSdk.Config.Period
import DeviceSdk.Lib.Text

/-!
# The address of Keeper

`edgex_keeper_client_init` takes the host and the port from a URL. It looks for `://` and for the
first colon behind it, and reads what follows with `strtoul`. Where that does not end with the
text, nothing is stored, but the call succeeds all the same.

## Main definitions

- `keeperClientInit` — `edgex_keeper_client_init`, as far as the URL goes
- `UrlForm` — the URLs with a host and a port
- `InitRight` — exactly these are accepted, with their host and port

## Main results

- `keeperClientInit_right_iff`
-/

namespace DeviceSdk

/-- The address in a `keeper_impl_t`. -/
structure KeeperAddress where
  host : Option String
  port : BitVec 16
  deriving DecidableEq

/-- The outcome of the call. Without a colon it logs a text at an address that is not one. -/
inductive KeeperInit
  | accepted (keeper : KeeperAddress)
  | rejected
  | undefined
  deriving DecidableEq

/-- `edgex_keeper_client_init`, for a URL that is there. -/
def keeperClientInit (keeper : KeeperAddress) (url : String) : KeeperInit :=
  match Text.behindFirst "://" url with
  | none => .rejected
  | some pos =>
    match pos.toList.dropWhile (· ≠ ':') with
    | [] => .undefined
    | [_] => .rejected
    | _ :: text =>
      let (port, fin) := strtoul text
      if fin = [] then
        .accepted
          { host := some (String.ofList (pos.toList.takeWhile (· ≠ ':'))), port := port.setWidth 16 }
      else .accepted keeper

/-- The text of a port: a number in decimal from 1 to 65535. -/
structure PortText (text : List Char) (port : ℕ) : Prop where
  nonempty : text ≠ []
  digits : ∀ c ∈ text, c.isDigit = true
  value : digitsValue text = port
  pos : 1 ≤ port
  le : port ≤ 65535

/-- A URL with a host and a port. The scheme ends at the first `://`, and the host has no colon. -/
def UrlForm (url host : String) (port : ℕ) : Prop :=
  ∃ scheme text, ¬ Text.Occurs "://" scheme ∧
    url = scheme ++ ("://" ++ String.ofList (host.toList ++ ':' :: text)) ∧
    host ≠ "" ∧ ':' ∉ host.toList ∧ PortText text port

/-- A URL with a host and a port is accepted, and these are stored. Every other is rejected. -/
def InitRight (keeper : KeeperAddress) (url : String) : Prop :=
  (∀ host port, UrlForm url host port →
      keeperClientInit keeper url = .accepted { host := some host, port := BitVec.ofNat 16 port }) ∧
    ((¬ ∃ host port, UrlForm url host port) → keeperClientInit keeper url = .rejected)

/-- The first colon behind the first `://` is the end of the URL. -/
def EndsAtColon (url : String) : Prop :=
  ∃ scheme host, ¬ Text.Occurs "://" scheme ∧ ':' ∉ host ∧
    url = scheme ++ ("://" ++ String.ofList (host ++ [':']))

/-- The URL has a host and a port, or no `://`, or ends with the first colon behind that. -/
def UrlClear (url : String) : Prop :=
  (∃ host port, UrlForm url host port) ∨ ¬ Text.Occurs "://" url ∨ EndsAtColon url

/-- What stands behind the first `://`. -/
theorem behind_scheme_iff {url pos : String} :
    Text.behindFirst "://" url = some pos ↔
      ∃ scheme, ¬ Text.Occurs "://" scheme ∧ url = scheme ++ ("://" ++ pos) :=
  Text.behindFirst_eq_some_iff (c := ':') (t := ['/', '/']) rfl (by decide)

/-- The text in front of the first colon, and what it starts. -/
theorem munch_colon_iff {l host rest : List Char} :
    l.takeWhile (· ≠ ':') = host ∧ l.dropWhile (· ≠ ':') = ':' :: rest ↔
      ':' ∉ host ∧ l = host ++ ':' :: rest := by
  rw [Scan.munch_iff, Scan.stops_cons]
  constructor
  · rintro ⟨rfl, hhost, -⟩
    exact ⟨fun hmem => by simpa using hhost _ hmem, rfl⟩
  · rintro ⟨hhost, rfl⟩
    refine ⟨rfl, fun c hc => ?_, rfl⟩
    rw [decide_eq_true_iff]
    rintro rfl
    exact hhost hc

section Found

variable {url pos : String} (hpos : Text.behindFirst "://" url = some pos)

include hpos

/-- A URL has a host and a port when what is behind the first `://` has. -/
theorem urlForm_iff {host : String} {port : ℕ} :
    UrlForm url host port ↔
      ∃ text, pos.toList = host.toList ++ ':' :: text ∧ host ≠ "" ∧ ':' ∉ host.toList ∧
        PortText text port := by
  constructor
  · rintro ⟨scheme, text, hscheme, hurl, hrest⟩
    have hfound := behind_scheme_iff.mpr ⟨scheme, hscheme, hurl⟩
    rw [hpos, Option.some_inj] at hfound
    refine ⟨text, ?_, hrest⟩
    rw [hfound, String.toList_ofList]
  · rintro ⟨text, hlist, hrest⟩
    obtain ⟨scheme, hscheme, hurl⟩ := behind_scheme_iff.mp hpos
    refine ⟨scheme, text, hscheme, ?_, hrest⟩
    rw [← hlist, String.ofList_toList]
    exact hurl

theorem endsAtColon_iff : EndsAtColon url ↔ pos.toList.dropWhile (· ≠ ':') = [':'] := by
  constructor
  · rintro ⟨scheme, host, hscheme, hhost, hurl⟩
    have hfound := behind_scheme_iff.mpr ⟨scheme, hscheme, hurl⟩
    rw [hpos, Option.some_inj] at hfound
    rw [hfound, String.toList_ofList]
    exact (munch_colon_iff.mpr ⟨hhost, rfl⟩).2
  · intro hdrop
    obtain ⟨scheme, hscheme, hurl⟩ := behind_scheme_iff.mp hpos
    obtain ⟨hhost, hlist⟩ := munch_colon_iff.mp ⟨rfl, hdrop⟩
    refine ⟨scheme, _, hscheme, hhost, ?_⟩
    rw [← hlist, String.ofList_toList]
    exact hurl

theorem occurs_scheme : Text.Occurs "://" url := by
  by_contra hno
  rw [← Text.behindFirst_eq_none_iff, hpos] at hno
  cases hno

end Found

/-- A port is read as it stands. -/
theorem PortText.strtoul_eq {text : List Char} {port : ℕ} (h : PortText text port) :
    ((strtoul text).1.setWidth 16, (strtoul text).2) = (BitVec.ofNat 16 port, []) := by
  have hread : strtoul ([] ++ (text ++ [])) = (leadValue [] text, []) :=
    strtoul_lead ⟨[], [], rfl, by simp, .inl rfl⟩ h.nonempty h.digits (by simp [Scan.Stops])
  have hle := h.le
  have hsmall : ¬ 2 ^ 64 ≤ digitsValue text := by
    rw [h.value]
    omega
  rw [List.nil_append, List.append_nil, leadValue, if_neg hsmall, if_neg List.not_mem_nil,
    h.value] at hread
  rw [hread, BitVec.setWidth_ofNat_of_le (by decide)]

section Init

variable (keeper : KeeperAddress)

/-- A URL with a host and a port is accepted. -/
theorem keeperClientInit_of_form {url host : String} {port : ℕ} (h : UrlForm url host port) :
    keeperClientInit keeper url =
      .accepted { host := some host, port := BitVec.ofNat 16 port } := by
  obtain ⟨scheme, text, hscheme, hurl, -, hcolon, htext⟩ := h
  have hpos := behind_scheme_iff.mpr ⟨scheme, hscheme, hurl⟩
  obtain ⟨c, cs, rfl⟩ := List.exists_cons_of_ne_nil htext.nonempty
  obtain ⟨htake, hdrop⟩ := munch_colon_iff.mpr ⟨hcolon, Eq.refl (host.toList ++ ':' :: c :: cs)⟩
  have hread := htext.strtoul_eq
  rw [Prod.mk.injEq] at hread
  simp only [keeperClientInit, hpos, String.toList_ofList, htake, hdrop, hread.1, hread.2,
    if_true, String.ofList_toList]

/-- The URL is accepted whatever is behind its colon. -/
theorem keeperClientInit_of_colon {url pos : String}
    (hpos : Text.behindFirst "://" url = some pos) {text : List Char} (hne : text ≠ [])
    (hdrop : pos.toList.dropWhile (· ≠ ':') = ':' :: text) :
    ∃ stored, keeperClientInit keeper url = .accepted stored := by
  obtain ⟨c, cs, rfl⟩ := List.exists_cons_of_ne_nil hne
  simp only [keeperClientInit, hpos, hdrop]
  split
  · exact ⟨_, rfl⟩
  · exact ⟨_, rfl⟩

/-- Without a colon behind the first `://` there is no host and no port, and the call goes
    wrong. -/
theorem keeperClientInit_of_no_colon {url pos : String}
    (hpos : Text.behindFirst "://" url = some pos) (hdrop : pos.toList.dropWhile (· ≠ ':') = []) :
    keeperClientInit keeper url = .undefined ∧ (¬ ∃ host port, UrlForm url host port) ∧
      ¬ EndsAtColon url := by
  refine ⟨?_, ?_, ?_⟩
  · simp only [keeperClientInit, hpos, hdrop]
  · rintro ⟨host, port, hform⟩
    obtain ⟨text, hlist, -, hcolon, -⟩ := (urlForm_iff hpos).mp hform
    rw [(munch_colon_iff.mpr ⟨hcolon, hlist⟩).2] at hdrop
    cases hdrop
  · rw [endsAtColon_iff hpos, hdrop]
    exact List.cons_ne_nil _ _ ∘ Eq.symm

/-- Exactly the URLs of the right form are accepted, and with the right address, for exactly
    these URLs. -/
theorem keeperClientInit_right_iff (url : String) : InitRight keeper url ↔ UrlClear url := by
  have hform : InitRight keeper url ↔
      ((¬ ∃ host port, UrlForm url host port) → keeperClientInit keeper url = .rejected) :=
    and_iff_right fun host port h => keeperClientInit_of_form keeper h
  rw [hform, UrlClear]
  cases hpos : Text.behindFirst "://" url with
  | none =>
    have hrejected : keeperClientInit keeper url = .rejected := by
      simp only [keeperClientInit, hpos]
    exact iff_of_true (fun _ => hrejected) (.inr (.inl (Text.behindFirst_eq_none_iff.mp hpos)))
  | some pos =>
    have hoccurs := occurs_scheme hpos
    cases hdrop : pos.toList.dropWhile (· ≠ ':') with
    | nil =>
      obtain ⟨hinit, hno, hend⟩ := keeperClientInit_of_no_colon keeper hpos hdrop
      simp [hinit, hno, hend, hoccurs]
    | cons c text =>
      have hstops := Scan.stops_dropWhile (p := (· ≠ ':')) pos.toList
      rw [hdrop, Scan.stops_cons] at hstops
      obtain rfl : c = ':' := by simpa using hstops
      by_cases hne : text = []
      · subst hne
        have hrejected : keeperClientInit keeper url = .rejected := by
          simp only [keeperClientInit, hpos, hdrop]
        exact iff_of_true (fun _ => hrejected) (.inr (.inr ((endsAtColon_iff hpos).mpr hdrop)))
      · obtain ⟨stored, hinit⟩ := keeperClientInit_of_colon keeper hpos hne hdrop
        have hend : ¬ EndsAtColon url := by
          rw [endsAtColon_iff hpos, hdrop]
          simpa using hne
        simp [hinit, hend, hoccurs]

end Init

/-- The address before the call. -/
def unsetAddress : KeeperAddress := { host := none, port := 0 }

/-- A port that is not a number is accepted, and nothing is stored. -/
theorem keeperClientInit_port_text : ¬ ∀ keeper url, InitRight keeper url := by
  intro h
  have hpos : Text.behindFirst "://" "http://localhost:abc" = some "localhost:abc" := by
    decide +kernel
  have hno : ¬ ∃ host port, UrlForm "http://localhost:abc" host port := by
    rintro ⟨host, port, hform⟩
    obtain ⟨text, hlist, -, hcolon, htext⟩ := (urlForm_iff hpos).mp hform
    have hdrop := (munch_colon_iff.mpr ⟨hcolon, hlist⟩).2
    have hread : ("localhost:abc" : String).toList.dropWhile (· ≠ ':') = ':' :: ['a', 'b', 'c'] := by
      decide +kernel
    rw [hread] at hdrop
    have hdigit := htext.digits 'a' ((List.cons.inj hdrop).2 ▸ List.mem_cons_self)
    exact absurd hdigit (by decide)
  have haccepted : keeperClientInit unsetAddress "http://localhost:abc" ≠ .rejected := by
    decide +kernel
  exact haccepted ((h unsetAddress _).2 hno)

end DeviceSdk
