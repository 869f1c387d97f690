import DeviceSdk.Lib.Words
import DeviceSdk.Rest.Server

/-!
# Requests from other origins

With CORS enabled, `cors_request_ok` compares the headers of a request with what the configuration
allows: an origin, a list of methods and a list of header names. Names in lists stand between
commas and spaces. The configured lists are cut into names when the server is set up, in one pass
that counts them and one that copies them; the list of a request is read name by name.

## Main definitions

- `CorsConfig`, `enableCors` — the configuration
- `corsRequestOk`
- `CorsAllowed` — the requests that are to be accepted
- `LettersAgree` — the letters of the names in a request are those of the configured names

## Main results

- `corsRequestOk_right_iff`
- `httpHandler_allowed` — nothing else is handled
-/

namespace DeviceSdk

/-- The separators in `", "`. -/
def corsDelim (c : Char) : Bool := c = ',' || c = ' '

/-- A call of `strtok_r` on the rest of a list. -/
def corsToken (s : List Char) : Option (String × List Char) :=
  (Words.nextBy corsDelim s).map fun (elem, sptr) => (String.ofList elem, sptr)

/-- The loop of `cors_string_to_list` that counts. No list has more names than letters. -/
def countElems : ℕ → List Char → ℕ
  | 0, _ => 0
  | fuel + 1, s =>
    match corsToken s with
    | none => 0
    | some (_, sptr) => countElems fuel sptr + 1

/-- The loop that copies the names. There is no copy of a name that is not there. -/
def fillElems : ℕ → List Char → Option (List String)
  | 0, _ => some []
  | n + 1, s =>
    match corsToken s with
    | none => none
    | some (elem, sptr) => (elem :: ·) <$> fillElems n sptr

/-- `cors_string_to_list`. -/
def corsStringToList (str : String) : Option (List String) :=
  fillElems (countElems (str.toList.length + 1) str.toList) str.toList

/-- `cors_string_in_list`. -/
def corsStringInList (s : String) : List String → Bool
  | [] => false
  | l :: ls => if l = s then true else corsStringInList s ls

/-- `cors_config`. -/
structure CorsConfig where
  enabled : Bool := false
  allowedorigin : String := ""
  allowmethods : String := ""
  allowheaders : String := ""
  exposeheaders : String := ""
  allowcreds : String := ""
  maxage : String := ""
  allowmethodsParsed : List String := []
  allowheadersParsed : List String := []
  deriving DecidableEq

/-- `edgex_rest_server_enable_cors`. -/
def enableCors (origin methods headers expose : String) (creds : Bool) (maxage : ℤ) :
    Option CorsConfig := do
  let methodsParsed ← corsStringToList methods
  let headersParsed ← corsStringToList headers
  some
    { enabled := true
      allowedorigin := origin
      allowmethods := methods
      allowheaders := headers
      exposeheaders := expose
      allowcreds := if creds then "true" else "false"
      maxage := toString maxage
      allowmethodsParsed := methodsParsed
      allowheadersParsed := headersParsed }

/-- The loop over the header names of a request. -/
def corsHeadersOk (allowed : List String) : ℕ → List Char → Bool
  | 0, _ => true
  | fuel + 1, s =>
    match corsToken s with
    | none => true
    | some (elem, sptr) =>
      if !corsStringInList elem allowed then false else corsHeadersOk allowed fuel sptr

/-- `cors_request_ok`, for a request whose headers `conn` looks up. -/
def corsRequestOk (conn : String → Option String) (method : Option String) (cors : CorsConfig) :
    Bool :=
  if cors.allowedorigin ≠ "*" ∧ ∃ origin ∈ conn "Origin", cors.allowedorigin ≠ origin then false
  else
    let reqMethod := method.or (conn "Access-Control-Request-Method")
    if ∃ m ∈ reqMethod, corsStringInList m cors.allowmethodsParsed = false then false
    else
      match conn "Access-Control-Request-Headers" with
      | none => true
      | some hdrs => corsHeadersOk cors.allowheadersParsed (hdrs.toList.length + 1) hdrs.toList

/-- The names in a list. -/
def corsNames (text : String) : List String :=
  (Words.allBy corsDelim text.toList).map String.ofList

/-- Two names of headers, as HTTP compares them. -/
def SameHeader (a b : String) : Prop :=
  a.toList.map Char.toLower = b.toList.map Char.toLower

instance (a b : String) : Decidable (SameHeader a b) := inferInstanceAs (Decidable (_ = _))

section Allowed

variable (conn : String → Option String) (method : Option String) (origin methods headers : String)

/-- The origin and the method of a request are allowed. -/
def OriginMethodAllowed : Prop :=
  (origin = "*" ∨ ∀ o ∈ conn "Origin", o = origin) ∧
    ∀ m ∈ method.or (conn "Access-Control-Request-Method"), m ∈ corsNames methods

/-- The header names that a request asks for. -/
def requestedHeaders : List String :=
  ((conn "Access-Control-Request-Headers").map corsNames).getD []

/-- The requests that are to be accepted. -/
def CorsAllowed : Prop :=
  OriginMethodAllowed conn method origin methods ∧
    ∀ h ∈ requestedHeaders conn, ∃ a ∈ corsNames headers, SameHeader h a

/-- A request that may have all the headers that it asks for asks for them in the letters of the
    configuration. -/
def LettersAgree : Prop :=
  OriginMethodAllowed conn method origin methods →
    (∀ h ∈ requestedHeaders conn, ∃ a ∈ corsNames headers, SameHeader h a) →
      ∀ h ∈ requestedHeaders conn, h ∈ corsNames headers

instance : Decidable (OriginMethodAllowed conn method origin methods) :=
  inferInstanceAs (Decidable (_ ∧ _))

instance : Decidable (CorsAllowed conn method origin methods headers) :=
  inferInstanceAs (Decidable (_ ∧ _))

end Allowed

-- ════════════════════════════════════════════════════════════════════════
-- The three tokenizers
-- ════════════════════════════════════════════════════════════════════════

/-- The names that are still to be read. -/
def restNames (s : List Char) : List String := (Words.allBy corsDelim s).map String.ofList

theorem corsNames_eq (text : String) : corsNames text = restNames text.toList := rfl

theorem restNames_of_none {s : List Char} (h : corsToken s = none) : restNames s = [] := by
  rw [corsToken, Option.map_eq_none_iff, Words.nextBy_eq_none_iff] at h
  rw [restNames, h, List.map_nil]

theorem restNames_of_some {s sptr : List Char} {elem : String}
    (h : corsToken s = some (elem, sptr)) :
    restNames s = elem :: restNames sptr ∧ sptr.length < s.length := by
  rw [corsToken, Option.map_eq_some_iff] at h
  obtain ⟨⟨w, rest⟩, hnext, heq⟩ := h
  obtain ⟨rfl, rfl⟩ := Prod.mk.inj heq
  refine ⟨?_, Words.length_lt_of_nextBy hnext⟩
  rw [restNames, Words.allBy_of_nextBy hnext, List.map_cons, restNames]

theorem countElems_eq {fuel : ℕ} {s : List Char} (h : s.length < fuel) :
    countElems fuel s = (restNames s).length := by
  induction fuel generalizing s with
  | zero => omega
  | succ fuel ih =>
    rw [countElems]
    cases htok : corsToken s with
    | none => rw [restNames_of_none htok, List.length_nil]
    | some next =>
      obtain ⟨elem, sptr⟩ := next
      obtain ⟨hnames, hlt⟩ := restNames_of_some htok
      rw [hnames, List.length_cons]
      exact congrArg (· + 1) (ih (by omega))

/-- What has been counted is there to be copied. -/
theorem fillElems_eq (s : List Char) :
    fillElems (restNames s).length s = some (restNames s) := by
  induction hn : s.length using Nat.strong_induction_on generalizing s with
  | _ n ih =>
    cases htok : corsToken s with
    | none => rw [restNames_of_none htok, List.length_nil, fillElems]
    | some next =>
      obtain ⟨elem, sptr⟩ := next
      obtain ⟨hnames, hlt⟩ := restNames_of_some htok
      rw [hnames, List.length_cons, fillElems, htok]
      exact congrArg ((elem :: ·) <$> ·) (ih _ (hn ▸ hlt) sptr rfl)

theorem corsStringToList_eq (str : String) : corsStringToList str = some (corsNames str) := by
  rw [corsStringToList, countElems_eq (Nat.lt_succ_self _), fillElems_eq, corsNames_eq]

theorem corsStringInList_iff {s : String} {l : List String} :
    corsStringInList s l = true ↔ s ∈ l := by
  induction l with
  | nil => simp [corsStringInList]
  | cons a l ih =>
    rw [corsStringInList, List.mem_cons, eq_comm (a := s)]
    by_cases ha : a = s
    · simp [ha]
    · rw [if_neg ha, ih]
      simp [ha]

theorem corsHeadersOk_iff {allowed : List String} {fuel : ℕ} {s : List Char}
    (h : s.length < fuel) :
    corsHeadersOk allowed fuel s = true ↔ ∀ n ∈ restNames s, n ∈ allowed := by
  induction fuel generalizing s with
  | zero => omega
  | succ fuel ih =>
    rw [corsHeadersOk]
    cases htok : corsToken s with
    | none => simp [restNames_of_none htok]
    | some next =>
      obtain ⟨elem, sptr⟩ := next
      obtain ⟨hnames, hlt⟩ := restNames_of_some htok
      rw [hnames, List.forall_mem_cons, ← ih (by omega), ← corsStringInList_iff]
      show (if !corsStringInList elem allowed then false else _) = true ↔ _
      cases corsStringInList elem allowed <;> simp

-- ════════════════════════════════════════════════════════════════════════
-- The requests that are accepted
-- ════════════════════════════════════════════════════════════════════════

section Accepted

variable (conn : String → Option String) (method : Option String)
  (origin methods headers expose : String) (creds : Bool) (maxage : ℤ)

theorem enableCors_eq :
    enableCors origin methods headers expose creds maxage =
      some ⟨true, origin, methods, headers, expose, if creds then "true" else "false",
        toString maxage, corsNames methods, corsNames headers⟩ := by
  rw [enableCors, corsStringToList_eq, corsStringToList_eq]
  rfl

variable {origin methods headers expose creds maxage}

theorem corsRequestOk_eq_true (cors : CorsConfig) :
    corsRequestOk conn method cors = true ↔
      (cors.allowedorigin = "*" ∨ ∀ o ∈ conn "Origin", o = cors.allowedorigin) ∧
        (∀ m ∈ method.or (conn "Access-Control-Request-Method"), m ∈ cors.allowmethodsParsed) ∧
          ∀ n ∈ requestedHeaders conn, n ∈ cors.allowheadersParsed := by
  have horigin : ¬(cors.allowedorigin ≠ "*" ∧ ∃ o ∈ conn "Origin", cors.allowedorigin ≠ o) ↔
      cors.allowedorigin = "*" ∨ ∀ o ∈ conn "Origin", o = cors.allowedorigin := by
    rw [not_and_or, not_not, not_exists]
    simp only [not_and, not_not, eq_comm]
  have hmethod : ¬(∃ m ∈ method.or (conn "Access-Control-Request-Method"),
        corsStringInList m cors.allowmethodsParsed = false) ↔
      ∀ m ∈ method.or (conn "Access-Control-Request-Method"), m ∈ cors.allowmethodsParsed := by
    simp only [not_exists, not_and, Bool.not_eq_false, corsStringInList_iff]
  have hheaders : (match conn "Access-Control-Request-Headers" with
        | none => true
        | some hdrs =>
          corsHeadersOk cors.allowheadersParsed (hdrs.toList.length + 1) hdrs.toList) = true ↔
      ∀ n ∈ requestedHeaders conn, n ∈ cors.allowheadersParsed := by
    rw [requestedHeaders]
    cases conn "Access-Control-Request-Headers" with
    | none => simp
    | some hdrs => exact corsHeadersOk_iff (Nat.lt_succ_self _)
  rw [← horigin, ← hmethod, ← hheaders, corsRequestOk]
  split
  case isTrue hno => exact iff_of_false Bool.false_ne_true fun h => h.1 hno
  case isFalse hyes =>
    dsimp only
    split
    case isTrue hno => exact iff_of_false Bool.false_ne_true fun h => h.2.1 hno
    case isFalse hyes' => exact ⟨fun h => ⟨hyes, hyes', h⟩, fun h => h.2.2⟩

/-- A request is accepted when the names that it asks for are in the list letter by letter. -/
theorem corsRequestOk_iff {cors : CorsConfig}
    (h : enableCors origin methods headers expose creds maxage = some cors) :
    corsRequestOk conn method cors = true ↔
      OriginMethodAllowed conn method origin methods ∧
        ∀ n ∈ requestedHeaders conn, n ∈ corsNames headers := by
  obtain rfl := Option.some.inj (enableCors_eq .. ▸ h)
  rw [corsRequestOk_eq_true, OriginMethodAllowed, and_assoc]

/-- No request is accepted that is not to be. -/
theorem corsAllowed_of_accepted {cors : CorsConfig}
    (h : enableCors origin methods headers expose creds maxage = some cors)
    (hok : corsRequestOk conn method cors = true) :
    CorsAllowed conn method origin methods headers := by
  obtain ⟨hreq, hnames⟩ := (corsRequestOk_iff conn method h).mp hok
  exact ⟨hreq, fun n hn => ⟨n, hnames n hn, rfl⟩⟩

end Accepted

/-- CORS is enabled in any configuration, and then exactly the requests that are to be accepted
    are, as long as a request asks for its headers in the letters of the configuration. -/
theorem corsRequestOk_right_iff (origin methods headers expose : String) (creds : Bool)
    (maxage : ℤ) (conn : String → Option String) (method : Option String) :
    (∃ cors, enableCors origin methods headers expose creds maxage = some cors ∧
      (corsRequestOk conn method cors = true ↔
        CorsAllowed conn method origin methods headers)) ↔
      LettersAgree conn method origin methods headers := by
  constructor
  · rintro ⟨cors, hcors, hright⟩ hreq hnames
    exact ((corsRequestOk_iff conn method hcors).mp (hright.mpr ⟨hreq, hnames⟩)).2
  · intro hagree
    refine ⟨_, enableCors_eq .., corsAllowed_of_accepted conn method (enableCors_eq ..), ?_⟩
    rintro ⟨hreq, hnames⟩
    exact (corsRequestOk_iff conn method (enableCors_eq ..)).mpr
      ⟨hreq, hagree hreq hnames⟩

/-- A preflight request of a browser, which writes the names of headers in small letters. -/
def browserPreflight : String → Option String
  | "Origin" => some "https://localhost"
  | "Access-Control-Request-Method" => some "POST"
  | "Access-Control-Request-Headers" => some "content-type"
  | _ => none

/-- The methods and the headers that a service allows by default. -/
def defaultMethods : String := "GET, POST, PUT, PATCH, DELETE"

def defaultHeaders : String :=
  "Authorization, Accept, Accept-Language, Content-Language, Content-Type, X-Correlation-ID"

/-- With the lists that a service has by default it is refused. -/
theorem corsRequestOk_browserPreflight :
    ¬∀ (origin methods headers expose : String) (creds : Bool) (maxage : ℤ)
      (conn : String → Option String) (method : Option String),
      ∃ cors, enableCors origin methods headers expose creds maxage = some cors ∧
        (corsRequestOk conn method cors = true ↔
          CorsAllowed conn method origin methods headers) := by
  intro h
  obtain ⟨cors, hcors, hright⟩ :=
    h "https://localhost" defaultMethods defaultHeaders "" false 3600 browserPreflight none
  have hallowed : CorsAllowed browserPreflight none "https://localhost" defaultMethods
      defaultHeaders := by decide +kernel
  have hletters : ¬∀ n ∈ requestedHeaders browserPreflight, n ∈ corsNames defaultHeaders := by
    decide +kernel
  exact hletters ((corsRequestOk_iff browserPreflight none hcors).mp (hright.mpr hallowed)).2

-- ════════════════════════════════════════════════════════════════════════
-- The server
-- ════════════════════════════════════════════════════════════════════════

/-- A request whose headers `conn` looks up, as the server with this configuration sees it. -/
def corsRequest (cors : CorsConfig) (methodname url : String) (conn : String → Option String) :
    RestRequest where
  methodname := methodname
  url := url
  corsRequestOk method := corsRequestOk conn method cors

section Server

variable {H : Type} {svr : RestServer H} {req : RestRequest}

/-- A handler is only called for a request that has passed. -/
theorem callHandler_passed {found entry : HandlerEntry H} {params params' : NvPairs}
    (h : callHandler true req found params = .handled entry params') :
    req.corsRequestOk (some req.methodname) = true := by
  rw [callHandler] at h
  cases hok : req.corsRequestOk (some req.methodname) with
  | true => rfl
  | false =>
    rw [hok] at h
    split at h <;> cases h

theorem httpHandler_passed (hsvr : svr.corsEnabled = true) {entry : HandlerEntry H}
    {params : NvPairs} (h : httpHandler svr req = .handled entry params) :
    req.corsRequestOk (some req.methodname) = true := by
  simp only [httpHandler, hsvr, and_true] at h
  split at h
  · split at h <;> cases h
  · split at h
    · split at h <;> cases h
    · cases hfound : tryHandlers svr.handlers (processUrl req.url) [] with
      | mk found params' =>
        rw [hfound] at h
        cases found with
        | none => cases h
        | some entry' => exact callHandler_passed h

/-- With CORS enabled no request is handled that is not allowed. -/
theorem httpHandler_allowed (hsvr : svr.corsEnabled = true) {cors : CorsConfig}
    {origin methods headers expose : String} {creds : Bool} {maxage : ℤ}
    (hcors : enableCors origin methods headers expose creds maxage = some cors)
    {methodname url : String} {conn : String → Option String} {entry : HandlerEntry H}
    {params : NvPairs}
    (h : httpHandler svr (corsRequest cors methodname url conn) = .handled entry params) :
    CorsAllowed conn (some methodname) origin methods headers :=
  corsAllowed_of_accepted conn _ hcors (httpHandler_passed hsvr h)

end Server

end DeviceSdk
