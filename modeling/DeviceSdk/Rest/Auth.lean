import DeviceSdk.Command.Handler
import DeviceSdk.Iot.Map
import DeviceSdk.Rest.Server

/-!
# Requests that have to be authenticated

In secure mode `startConfigured` registers its handlers, but for the one of the health check, behind
`http_auth_wrapper`, and so does `devsdk_register_http_handler` in either mode. A wrapped handler is
called for a request with a token that the secret provider takes.

## Main definitions

- `requestIsAuthenticated`, `Handler.run` — `request_auth.c`
- `Service.step` — a service whose handlers are registered while requests come in
- `Routes.step` — the functions that the requests ask for, whether they may or not

## Main results

- `run_calls` — a service calls those of these functions that it admits
- `secure_calls_eq_filter`
- `secure_run_eq_insecure`
-/

namespace DeviceSdk

-- ════════════════════════════════════════════════════════════════════════
-- Servers with other handlers
-- ════════════════════════════════════════════════════════════════════════

section

variable {H K : Type} (f : H → K)

def HandlerEntry.map (entry : HandlerEntry H) : HandlerEntry K :=
  ⟨entry.url, entry.methods, f entry.handler⟩

def RestServer.map (svr : RestServer H) : RestServer K where
  handlers := svr.handlers.map (HandlerEntry.map f)
  corsEnabled := svr.corsEnabled

def Registration.map (r : Registration H) : Registration K := ⟨r.url, r.methods, f r.handler⟩

def RestOutcome.map : RestOutcome H → RestOutcome K
  | .preflight => .preflight
  | .listing text => .listing text
  | .methodNotAllowed => .methodNotAllowed
  | .notFound => .notFound
  | .forbidden => .forbidden
  | .handled entry params => .handled (entry.map f) params

theorem registerHandler_map (svr : RestServer H) (url : String) (methods : BitVec 32)
    (handler : H) : (svr.map f).registerHandler url methods (f handler) =
      (svr.registerHandler url methods handler).map f := by
  simp [RestServer.registerHandler, RestServer.map, HandlerEntry.map]

theorem tryHandlers_map (handlers : List (HandlerEntry H)) (elems : List String)
    (params : NvPairs) : tryHandlers (handlers.map (HandlerEntry.map f)) elems params =
      Prod.map (Option.map (HandlerEntry.map f)) id (tryHandlers handlers elems params) := by
  induction handlers generalizing params with
  | nil => rfl
  | cons h handlers ih =>
    rw [List.map_cons, tryHandlers, tryHandlers]
    have hurl : (h.map f).url = h.url := rfl
    rw [hurl]
    cases hm : matchUrlPattern h.url elems params with
    | mk found params' =>
      cases found with
      | true => rfl
      | false => exact ih params'

/-- The server does not look at the handlers that it calls. -/
theorem httpHandler_map (svr : RestServer H) (req : RestRequest) :
    httpHandler (svr.map f) req = (httpHandler svr req).map f := by
  have hlisting : handlerListing (svr.handlers.map (HandlerEntry.map f)) =
      handlerListing svr.handlers := by
    rw [handlerListing, List.map_map]
    rfl
  simp only [httpHandler, RestServer.map, hlisting, tryHandlers_map]
  split_ifs
  · rfl
  · rfl
  · rfl
  · rfl
  · cases htry : tryHandlers svr.handlers (processUrl req.url) [] with
    | mk found params =>
      cases found with
      | none => rfl
      | some h =>
        simp only [Prod.map, Option.map, id, callHandler]
        have hmethods : (h.map f).methods = h.methods := rfl
        rw [hmethods]
        split_ifs
        · rfl
        · rfl
        · rfl

end

namespace Rest

/-- `devsdk_http_request`. -/
structure HttpRequest where
  params : NvPairs
  qparams : IotMap
  method : HttpMethod
  data : List UInt8
  contentType : Option String
  authorizationHeaderValue : Option String

/-- `devsdk_http_reply`, as `http_handler` clears it. -/
structure HttpReply where
  code : ℕ := 0
  data : List UInt8 := []
  contentType : Option String := none

/-- What microhttpd has of a request. -/
structure Connection extends RestRequest where
  header : String → Option String
  arguments : List (String × Option String)
  body : List UInt8

/-- `queryIterator`. -/
def queryIterator (map : IotMap) (arg : String × Option String) : IotMap :=
  if ['d', 's', '-'].isPrefixOf arg.1.toList ∧ arg.1 ∉ [dsPush, dsReturn] then map
  else map.add arg.1 (.string (arg.2.getD ""))

/-- The request that `http_handler` calls a handler with. -/
def Connection.httpRequest (conn : Connection) (params : NvPairs) : HttpRequest where
  params := params
  qparams := conn.arguments.foldl queryIterator .empty
  method := methodFromString conn.methodname
  data := conn.body
  contentType := conn.header "Content-Type"
  authorizationHeaderValue := conn.header "Authorization"

-- ════════════════════════════════════════════════════════════════════════
-- Secret providers
-- ════════════════════════════════════════════════════════════════════════

/-- The parts of `vault_impl_t` that a request to Vault is made of. -/
structure Vault where
  token : String
  bearer : Bool
  jwtvalidateurl : String

/-- A request to Vault, with the header that says who asks. -/
structure VaultRequest where
  url : String
  header : Option (String × String)
  body : IotData

/-- What Vault answers, where it does and the text is JSON. -/
abbrev VaultServer := VaultRequest → Option IotData

/-- `MAX_TOKEN_LEN`. -/
def maxTokenLen : ℕ := 600

/-- `edgex_add_auth_hdr`. -/
def authHdr (jwtToken : String) : Option (String × String) :=
  if jwtToken = "" then none
  else some ("Authorization", "Bearer " ++ String.ofList (jwtToken.toList.take maxTokenLen))

/-- The header that `vault_initctx` has a request carry. -/
def Vault.header (vault : Vault) : Option (String × String) :=
  if vault.bearer then authHdr vault.token else some ("X-Vault-Token", vault.token)

/-- `vault_rest_post`. -/
def vaultRestPost (server : VaultServer) (vault : Vault) (url : String) (body : IotData) :
    Option IotData :=
  server ⟨url, vault.header, body⟩

/-- `vault_isjwtvalid`. -/
def vaultIsjwtvalid (server : VaultServer) (vault : Vault) (jwt : String) : Bool :=
  IotData.stringMapGetBool
    (vaultRestPost server vault vault.jwtvalidateurl (.map [("token", .string jwt)])) "active" false

/-- `edgex_secret_provider_t`. -/
inductive SecretProvider
  | insecure
  | vault (impl : Vault)

/-- `edgex_secrets_is_jwt_valid`. -/
def SecretProvider.isJwtValid (server : VaultServer) : SecretProvider → String → Bool
  | .insecure, _ => true
  | .vault impl, jwt => vaultIsjwtvalid server impl jwt

/-- The token behind `Bearer`, as `strncasecmp` compares it. -/
def bearerToken (value : String) : Option String :=
  if (value.toList.take 7).map Char.toLower = "bearer ".toList then
    some (String.ofList (value.toList.drop 7))
  else none

/-- Whether the `Authorization` header of a request has a token that the provider takes. -/
def SecretProvider.takes (server : VaultServer) (provider : SecretProvider)
    (header : Option String) : Bool :=
  match header.bind bearerToken with
  | none => false
  | some jwt => provider.isJwtValid server jwt

/-- `MHD_HTTP_UNAUTHORIZED`. -/
def httpUnauthorized : ℕ := 401

/-- `request_is_authenticated`. -/
def requestIsAuthenticated (server : VaultServer) (provider : SecretProvider) (req : HttpRequest)
    (reply : HttpReply) : Bool × HttpReply :=
  let validJwt := provider.takes server req.authorizationHeaderValue
  (validJwt, if validJwt then reply else { reply with code := httpUnauthorized })

-- ════════════════════════════════════════════════════════════════════════
-- Handlers
-- ════════════════════════════════════════════════════════════════════════

/-- The functions of the SDK that are registered, and those of the driver. -/
inductive RestFn (U : Type)
  | deviceNamev2 | discoveryv2 | discoveryDelete | configv2 | secret | version | ping2
  | user (handler : U)
  deriving DecidableEq

/-- What is registered: a function, or `http_auth_wrapper` with an `auth_wrapper_t`. -/
inductive Handler (U : Type)
  | plain (h : RestFn U)
  | httpAuthWrapper (secretprovider : SecretProvider) (h : RestFn U)

/-- A call of a function, while Vault answers so. -/
structure Call (U : Type) where
  fn : RestFn U
  req : HttpRequest
  server : VaultServer

section

variable {U S : Type}

/-- What the functions do with the state of the service and with a reply. -/
abbrev Exec (U S : Type) := RestFn U → HttpRequest → HttpReply → S → S × HttpReply

variable (exec : Exec U S)

/-- The state that a call leaves. -/
def Call.apply (s : S) (call : Call U) : S := (exec call.fn call.req {} s).1

/-- A handler at work: the calls that it makes, the state and the reply. -/
structure Ran (U S : Type) where
  calls : List (Call U)
  state : S
  reply : HttpReply

/-- A call of a handler that is registered. -/
def Handler.run (server : VaultServer) (req : HttpRequest) (reply : HttpReply) (s : S) :
    Handler U → Ran U S
  | .plain h =>
    let r := exec h req reply s
    ⟨[⟨h, req, server⟩], r.1, r.2⟩
  | .httpAuthWrapper provider h =>
    let auth := requestIsAuthenticated server provider req reply
    if auth.1 then
      let r := exec h req auth.2 s
      ⟨[⟨h, req, server⟩], r.1, r.2⟩
    else ⟨[], s, auth.2⟩

/-- A handler of `startConfigured`. -/
def builtin (secureMode : Bool) (provider : SecretProvider) (h : RestFn U) : Handler U :=
  if secureMode then .httpAuthWrapper provider h else .plain h

/-- The handlers that `startConfigured` registers. -/
def restHandlers (secureMode : Bool) (provider : SecretProvider) :
    List (Registration (Handler U)) :=
  [⟨"/api/v3/device/name/\x7bname\x7d/\x7bcmd\x7d", HttpMethod.get.bits ||| HttpMethod.put.bits,
      builtin secureMode provider .deviceNamev2⟩,
    ⟨"/api/v3/discovery", HttpMethod.post.bits, builtin secureMode provider .discoveryv2⟩,
    ⟨"/api/v3/discovery/requestId/\x7brequestId\x7d", HttpMethod.delete.bits,
      builtin secureMode provider .discoveryDelete⟩,
    ⟨"/api/v3/config", HttpMethod.get.bits, builtin secureMode provider .configv2⟩,
    ⟨"/api/v3/secret", HttpMethod.post.bits, builtin secureMode provider .secret⟩,
    ⟨"/api/version", HttpMethod.get.bits, builtin secureMode provider .version⟩,
    ⟨"/api/v3/ping", HttpMethod.get.bits, .plain .ping2⟩]

-- ════════════════════════════════════════════════════════════════════════
-- Runs of a service
-- ════════════════════════════════════════════════════════════════════════

/-- The parts of `devsdk_service_t` that requests meet, and the registrations of `startConfigured`
    that are still to come. -/
structure Service (U S : Type) where
  secureMode : Bool
  secretstore : SecretProvider
  daemon : Option (RestServer (Handler U)) := none
  pending : List (Registration (Handler U)) := []
  state : S

/-- The choice of `devsdk_service_start` by `EDGEX_SECURITY_SECRET_STORE`. -/
def serviceStart (env : Option String) (vault : Vault) (state : S) : Service U S :=
  if env = some "false" then { secureMode := false, secretstore := .insecure, state }
  else { secureMode := true, secretstore := .vault vault, state }

/-- What happens to a service, in any order: `startConfigured` goes on, threads of the driver
    register handlers, and requests come in. -/
inductive Event (U : Type)
  | restServerCreate
  | enableCors
  | registerNext
  | registerHttpHandler (url : String) (methods : BitVec 32) (handler : U)
  | request (conn : Connection) (server : VaultServer)

/-- A status and what is sent with it. -/
structure Response where
  status : ℕ
  body : List UInt8 := []
  contentType : String := "text/plain"

/-- What `http_handler` sends where no handler is called. -/
def refusal {H : Type} : RestOutcome H → Response
  | .preflight => { status := 204 }
  | .listing text => { status := httpOk, body := text.toUTF8.toList }
  | .methodNotAllowed => { status := httpMethodNotAllowed }
  | .notFound => { status := httpNotFound }
  | .forbidden => { status := 403 }
  | .handled _ _ => { status := httpOk }

/-- What `http_handler` sends of a reply. -/
def HttpReply.response (reply : HttpReply) : Response where
  status := reply.code
  body := reply.data
  contentType := reply.contentType.getD "text/plain"

/-- A step of a service: the service, the calls that are made, and the responses. -/
structure Stepped (U S : Type) where
  svc : Service U S
  calls : List (Call U) := []
  responses : List Response := []

/-- `http_handler` and the handler that it calls. -/
def Service.serve (svc : Service U S) (daemon : RestServer (Handler U)) (conn : Connection)
    (server : VaultServer) : Stepped U S :=
  match httpHandler daemon conn.toRestRequest with
  | .handled entry params =>
    let ran := entry.handler.run exec server (conn.httpRequest params) {} svc.state
    ⟨{ svc with state := ran.state }, ran.calls, [ran.reply.response]⟩
  | out => ⟨svc, [], [refusal out]⟩

def Service.step (svc : Service U S) : Event U → Stepped U S
  | .restServerCreate =>
    match svc.daemon with
    | some _ => ⟨svc, [], []⟩
    | none =>
      ⟨{ svc with daemon := some {}
                  pending := restHandlers svc.secureMode svc.secretstore }, [], []⟩
  | .enableCors =>
    ⟨{ svc with daemon := svc.daemon.map fun d => { d with corsEnabled := true } }, [], []⟩
  | .registerNext =>
    match svc.pending with
    | [] => ⟨svc, [], []⟩
    | r :: pending =>
      ⟨{ svc with daemon := svc.daemon.map fun d => d.registerHandler r.url r.methods r.handler
                  pending }, [], []⟩
  -- `devsdk_register_http_handler`, which fails before the server runs
  | .registerHttpHandler url methods handler =>
    ⟨{ svc with daemon := svc.daemon.map fun d =>
        d.registerHandler url methods (.httpAuthWrapper svc.secretstore (.user handler)) }, [], []⟩
  | .request conn server =>
    match svc.daemon with
    | none => ⟨svc, [], []⟩
    | some d => svc.serve exec d conn server

/-- The events, one after the other. -/
def Service.run (svc : Service U S) : List (Event U) → Stepped U S
  | [] => ⟨svc, [], []⟩
  | e :: es =>
    let first := svc.step exec e
    let rest := first.svc.run es
    ⟨rest.svc, first.calls ++ rest.calls, first.responses ++ rest.responses⟩

-- ════════════════════════════════════════════════════════════════════════
-- What the requests ask for
-- ════════════════════════════════════════════════════════════════════════

/-- The functions under their patterns, without the wrappers around them. -/
structure Routes (U : Type) where
  daemon : Option (RestServer (RestFn U)) := none
  pending : List (Registration (RestFn U)) := []

/-- The functions that `startConfigured` registers. -/
def restFns : List (Registration (RestFn U)) :=
  [⟨"/api/v3/device/name/\x7bname\x7d/\x7bcmd\x7d", HttpMethod.get.bits ||| HttpMethod.put.bits,
      .deviceNamev2⟩,
    ⟨"/api/v3/discovery", HttpMethod.post.bits, .discoveryv2⟩,
    ⟨"/api/v3/discovery/requestId/\x7brequestId\x7d", HttpMethod.delete.bits, .discoveryDelete⟩,
    ⟨"/api/v3/config", HttpMethod.get.bits, .configv2⟩,
    ⟨"/api/v3/secret", HttpMethod.post.bits, .secret⟩,
    ⟨"/api/version", HttpMethod.get.bits, .version⟩,
    ⟨"/api/v3/ping", HttpMethod.get.bits, .ping2⟩]

/-- The call that a request asks for. -/
def asked (daemon : RestServer (RestFn U)) (conn : Connection) (server : VaultServer) :
    List (Call U) :=
  match httpHandler daemon conn.toRestRequest with
  | .handled entry params => [⟨entry.handler, conn.httpRequest params, server⟩]
  | _ => []

/-- The routes after an event, and the calls that it asks for. -/
def Routes.step (routes : Routes U) : Event U → Routes U × List (Call U)
  | .restServerCreate =>
    match routes.daemon with
    | some _ => (routes, [])
    | none => ({ daemon := some {}, pending := restFns }, [])
  | .enableCors =>
    ({ routes with daemon := routes.daemon.map fun d => { d with corsEnabled := true } }, [])
  | .registerNext =>
    match routes.pending with
    | [] => (routes, [])
    | r :: pending =>
      ({ daemon := routes.daemon.map fun d => d.registerHandler r.url r.methods r.handler
         pending }, [])
  | .registerHttpHandler url methods handler =>
    ({ routes with
        daemon := routes.daemon.map fun d => d.registerHandler url methods (.user handler) }, [])
  | .request conn server =>
    match routes.daemon with
    | none => (routes, [])
    | some d => (routes, asked d conn server)

/-- The calls that a run asks for. -/
def Routes.calls (routes : Routes U) : List (Event U) → List (Call U)
  | [] => []
  | e :: es => (routes.step e).2 ++ (routes.step e).1.calls es

/-- The calls that a service makes if they are asked for. -/
def admits (secureMode : Bool) (provider : SecretProvider) (call : Call U) : Bool :=
  match call.fn with
  | .ping2 => true
  | .user _ => provider.takes call.server call.req.authorizationHeaderValue
  | _ => !secureMode || provider.takes call.server call.req.authorizationHeaderValue

/-- What a service registers for a function. -/
def handlerOf (secureMode : Bool) (provider : SecretProvider) : RestFn U → Handler U
  | .ping2 => .plain .ping2
  | .user h => .httpAuthWrapper provider (.user h)
  | h => builtin secureMode provider h

-- ════════════════════════════════════════════════════════════════════════
-- One handler
-- ════════════════════════════════════════════════════════════════════════

theorem run_httpAuthWrapper (server : VaultServer) (provider : SecretProvider) (req : HttpRequest)
    (h : RestFn U) (s : S) :
    (Handler.httpAuthWrapper provider h).run exec server req {} s =
      if provider.takes server req.authorizationHeaderValue then
        ⟨[⟨h, req, server⟩], (exec h req {} s).1, (exec h req {} s).2⟩
      else ⟨[], s, { code := httpUnauthorized }⟩ := by
  simp only [Handler.run, requestIsAuthenticated]
  split
  · rfl
  · rfl

/-- A handler that is registered calls its function for the requests that are admitted, and answers
    the others with 401. -/
theorem run_handlerOf (secureMode : Bool) (provider : SecretProvider) (server : VaultServer)
    (req : HttpRequest) (h : RestFn U) (s : S) :
    (handlerOf secureMode provider h).run exec server req {} s =
      if admits secureMode provider ⟨h, req, server⟩ then
        ⟨[⟨h, req, server⟩], (exec h req {} s).1, (exec h req {} s).2⟩
      else ⟨[], s, { code := httpUnauthorized }⟩ := by
  cases h with
  | ping2 => rfl
  | user h => exact run_httpAuthWrapper exec server provider req _ s
  | _ =>
    cases secureMode with
    | true => exact run_httpAuthWrapper exec server provider req _ s
    | false => rfl

/-- What a provider without secrets takes has the form of a token. -/
theorem takes_insecure {server : VaultServer} {provider : SecretProvider} {header : Option String}
    (h : provider.takes server header = true) :
    SecretProvider.insecure.takes server header = true := by
  rw [SecretProvider.takes] at h ⊢
  cases hjwt : header.bind bearerToken with
  | none =>
    rw [hjwt] at h
    cases h
  | some jwt => rfl

-- ════════════════════════════════════════════════════════════════════════
-- A service and what it is asked for
-- ════════════════════════════════════════════════════════════════════════

/-- The handlers of a service are those of the routes, each behind its wrapper. -/
structure Service.Registers (svc : Service U S) (routes : Routes U) : Prop where
  daemon : svc.daemon =
    routes.daemon.map (RestServer.map (handlerOf svc.secureMode svc.secretstore))
  pending : svc.pending =
    routes.pending.map (Registration.map (handlerOf svc.secureMode svc.secretstore))

theorem restHandlers_eq (secureMode : Bool) (provider : SecretProvider) :
    (restHandlers secureMode provider : List (Registration (Handler U))) =
      restFns.map (Registration.map (handlerOf secureMode provider)) := rfl

/-- What a service makes of the calls that an event asks for. -/
structure Stepped.Admits (svc : Service U S) (asked : List (Call U)) (out : Stepped U S) :
    Prop where
  secureMode : out.svc.secureMode = svc.secureMode
  secretstore : out.svc.secretstore = svc.secretstore
  calls : out.calls = asked.filter (admits svc.secureMode svc.secretstore)
  state : out.svc.state = out.calls.foldl (Call.apply exec) svc.state

variable {exec}

/-- A request, by the call that it asks for. -/
theorem serve_eq {svc : Service U S} {d : RestServer (RestFn U)} (conn : Connection)
    (server : VaultServer) :
    svc.serve exec (d.map (handlerOf svc.secureMode svc.secretstore)) conn server =
      match httpHandler d conn.toRestRequest with
      | .handled entry params =>
        let call : Call U := ⟨entry.handler, conn.httpRequest params, server⟩
        if admits svc.secureMode svc.secretstore call then
          ⟨{ svc with state := call.apply exec svc.state }, [call],
            [(exec call.fn call.req {} svc.state).2.response]⟩
        else ⟨svc, [], [{ status := httpUnauthorized }]⟩
      | out => ⟨svc, [], [refusal out]⟩ := by
  rw [Service.serve, httpHandler_map]
  cases hout : httpHandler d conn.toRestRequest with
  | handled entry params =>
    have hhandler : (entry.map (handlerOf svc.secureMode svc.secretstore)).handler =
        handlerOf svc.secureMode svc.secretstore entry.handler := rfl
    simp only [RestOutcome.map, hhandler, run_handlerOf]
    split_ifs
    · rfl
    · rfl
  | _ => rfl

theorem serve_admits {svc : Service U S} {d : RestServer (RestFn U)} (conn : Connection)
    (server : VaultServer) : Stepped.Admits exec svc (asked d conn server)
      (svc.serve exec (d.map (handlerOf svc.secureMode svc.secretstore)) conn server) := by
  rw [serve_eq, asked]
  cases hout : httpHandler d conn.toRestRequest with
  | handled entry params =>
    simp only
    split_ifs with hasked
    · exact ⟨rfl, rfl, by simp [hasked], rfl⟩
    · exact ⟨rfl, rfl, by simp [hasked], rfl⟩
  | _ => exact ⟨rfl, rfl, rfl, rfl⟩

theorem serve_registers {svc : Service U S} {routes : Routes U} (h : svc.Registers routes)
    (d : RestServer (Handler U)) (conn : Connection) (server : VaultServer) :
    (svc.serve exec d conn server).svc.Registers routes := by
  rw [Service.serve]
  split
  · exact ⟨h.daemon, h.pending⟩
  · exact h

variable (exec) in
/-- A step of a service follows the routes, and makes those of the calls that it admits. -/
theorem step_admits {svc : Service U S} {routes : Routes U} (h : svc.Registers routes)
    (e : Event U) : (svc.step exec e).svc.Registers (routes.step e).1 ∧
      Stepped.Admits exec svc (routes.step e).2 (svc.step exec e) := by
  cases e with
  | restServerCreate =>
    have hdaemon := h.daemon
    simp only [Service.step, Routes.step]
    cases hd : routes.daemon with
    | none =>
      rw [hd] at hdaemon
      simp only [hdaemon, Option.map_none]
      exact ⟨⟨rfl, restHandlers_eq _ _⟩, rfl, rfl, rfl, rfl⟩
    | some d =>
      rw [hd] at hdaemon
      simp only [hdaemon, Option.map_some]
      exact ⟨h, rfl, rfl, rfl, rfl⟩
  | enableCors =>
    refine ⟨⟨?_, h.pending⟩, rfl, rfl, rfl, rfl⟩
    simp only [Service.step, Routes.step, h.daemon, Option.map_map]
    rfl
  | registerNext =>
    have hpending := h.pending
    simp only [Service.step, Routes.step]
    cases hp : routes.pending with
    | nil =>
      rw [hp] at hpending
      simp only [hpending, List.map_nil]
      exact ⟨h, rfl, rfl, rfl, rfl⟩
    | cons r pending =>
      rw [hp] at hpending
      simp only [hpending, List.map_cons]
      refine ⟨⟨?_, rfl⟩, rfl, rfl, rfl, rfl⟩
      simp only [h.daemon, Option.map_map]
      congr 1
      funext d
      exact registerHandler_map _ _ _ _ _
  | registerHttpHandler url methods handler =>
    refine ⟨⟨?_, h.pending⟩, rfl, rfl, rfl, rfl⟩
    simp only [Service.step, Routes.step, h.daemon, Option.map_map]
    congr 1
    funext d
    exact registerHandler_map (handlerOf svc.secureMode svc.secretstore) d url methods
      (.user handler)
  | request conn server =>
    have hdaemon := h.daemon
    simp only [Service.step, Routes.step]
    cases hd : routes.daemon with
    | none =>
      rw [hd] at hdaemon
      simp only [hdaemon, Option.map_none]
      exact ⟨h, rfl, rfl, rfl, rfl⟩
    | some d =>
      rw [hd] at hdaemon
      simp only [hdaemon, Option.map_some]
      exact ⟨serve_registers h _ conn server, serve_admits conn server⟩

variable (exec) in
/-- A run of a service makes those of the calls that are asked for that it admits. -/
theorem run_admits {svc : Service U S} {routes : Routes U} (h : svc.Registers routes)
    (es : List (Event U)) : Stepped.Admits exec svc (routes.calls es) (svc.run exec es) := by
  induction es generalizing svc routes with
  | nil => exact ⟨rfl, rfl, rfl, rfl⟩
  | cons e es ih =>
    obtain ⟨hregisters, hstep⟩ := step_admits exec h e
    have hrest := ih hregisters
    refine ⟨hrest.secureMode.trans hstep.secureMode, hrest.secretstore.trans hstep.secretstore,
      ?_, ?_⟩
    · change (svc.step exec e).calls ++ ((svc.step exec e).svc.run exec es).calls = _
      rw [Routes.calls, List.filter_append, hstep.calls, hrest.calls, hstep.secureMode,
        hstep.secretstore]
    · change ((svc.step exec e).svc.run exec es).svc.state =
        ((svc.step exec e).calls ++ ((svc.step exec e).svc.run exec es).calls).foldl _ _
      rw [List.foldl_append, ← hstep.state, hrest.state]

theorem serviceStart_registers (env : Option String) (vault : Vault) (state : S) :
    (serviceStart env vault state : Service U S).Registers {} := by
  rw [serviceStart]
  split
  · exact ⟨rfl, rfl⟩
  · exact ⟨rfl, rfl⟩

/-- The routes after a run. -/
def Routes.after (routes : Routes U) : List (Event U) → Routes U
  | [] => routes
  | e :: es => (routes.step e).1.after es

variable (exec) in
theorem run_registers {svc : Service U S} {routes : Routes U} (h : svc.Registers routes)
    (es : List (Event U)) : (svc.run exec es).svc.Registers (routes.after es) := by
  induction es generalizing svc routes with
  | nil => exact h
  | cons e es ih => exact ih (step_admits exec h e).1

-- ════════════════════════════════════════════════════════════════════════
-- Secure mode
-- ════════════════════════════════════════════════════════════════════════

/-- The health check, and the calls for requests with a token that Vault takes. -/
def authorized (vault : Vault) (call : Call U) : Bool :=
  match call.fn with
  | .ping2 => true
  | _ => (SecretProvider.vault vault).takes call.server call.req.authorizationHeaderValue

/-- The one call of a request, to the health check or with a token that Vault says is active. -/
def Authenticated (vault : Vault) (call : Call U) : Prop :=
  call.fn = .ping2 ∨ ∃ jwt, call.req.authorizationHeaderValue.bind bearerToken = some jwt ∧
    IotData.stringMapGetBool
      (call.server ⟨vault.jwtvalidateurl, vault.header, .map [("token", .string jwt)]⟩)
      "active" false = true

theorem authenticated_of_authorized {vault : Vault} {call : Call U}
    (h : authorized vault call = true) : Authenticated vault call := by
  obtain ⟨fn, req, server⟩ := call
  have htoken (htakes : (SecretProvider.vault vault).takes server
      req.authorizationHeaderValue = true) : Authenticated vault (⟨fn, req, server⟩ : Call U) := by
    rw [SecretProvider.takes] at htakes
    cases hjwt : req.authorizationHeaderValue.bind bearerToken with
    | none =>
      rw [hjwt] at htakes
      cases htakes
    | some jwt =>
      rw [hjwt] at htakes
      exact .inr ⟨jwt, hjwt, htakes⟩
  cases fn with
  | ping2 => exact .inl rfl
  | _ => exact htoken h

theorem admits_secure (vault : Vault) :
    (admits true (.vault vault) : Call U → Bool) = authorized vault := by
  funext ⟨fn, req, server⟩
  cases fn <;> rfl

/-- In insecure mode all is admitted that is authorized. -/
theorem admits_insecure_of_authorized {vault : Vault} {call : Call U}
    (h : authorized vault call = true) : admits false .insecure call = true := by
  obtain ⟨fn, req, server⟩ := call
  cases fn with
  | user handler => exact takes_insecure h
  | _ => rfl

/-- The services of both modes follow the same routes. -/
theorem serviceStart_secure {env : Option String} (henv : env ≠ some "false") (vault : Vault)
    (state : S) : (serviceStart env vault state : Service U S) =
      { secureMode := true, secretstore := .vault vault, state } := by
  rw [serviceStart, if_neg henv]

variable (exec)

/-- Services of both modes that have registered the same. -/
structure Service.Paired (vault : Vault) (secure insecure : Service U S) (routes : Routes U) :
    Prop where
  left : secure.Registers routes
  right : insecure.Registers routes
  leftMode : secure.secureMode = true
  leftStore : secure.secretstore = .vault vault
  rightMode : insecure.secureMode = false
  rightStore : insecure.secretstore = .insecure
  state : secure.state = insecure.state

/-- A request with a token that is taken may call any function. -/
theorem admits_of_takes {secureMode : Bool} {provider : SecretProvider} {call : Call U}
    (h : provider.takes call.server call.req.authorizationHeaderValue = true) :
    admits secureMode provider call = true := by
  obtain ⟨fn, req, server⟩ := call
  cases fn with
  | ping2 => rfl
  | user handler => exact h
  | _ => exact Bool.or_eq_true_iff.mpr (.inr h)

theorem Service.Paired.serve {vault : Vault} {a b : Service U S} {routes : Routes U}
    (h : Service.Paired vault a b routes) (d : RestServer (RestFn U)) {conn : Connection}
    {server : VaultServer}
    (hauth : (SecretProvider.vault vault).takes server (conn.header "Authorization") = true) :
    let left := a.serve exec (d.map (handlerOf a.secureMode a.secretstore)) conn server
    let right := b.serve exec (d.map (handlerOf b.secureMode b.secretstore)) conn server
    left.calls = right.calls ∧ left.responses = right.responses ∧
      left.svc.state = right.svc.state := by
  simp only [serve_eq, h.state]
  cases hout : httpHandler d conn.toRestRequest with
  | handled entry params =>
    have hleft : admits a.secureMode a.secretstore
        (⟨entry.handler, conn.httpRequest params, server⟩ : Call U) = true := by
      rw [h.leftStore]
      exact admits_of_takes hauth
    have hright : admits b.secureMode b.secretstore
        (⟨entry.handler, conn.httpRequest params, server⟩ : Call U) = true := by
      rw [h.rightStore]
      exact admits_of_takes (takes_insecure hauth)
    simp only [hleft, hright, if_true, and_self]
  | _ => exact ⟨rfl, rfl, h.state⟩

/-- Only requests are answered, and only they change the state. -/
theorem step_quiet (svc : Service U S) {e : Event U}
    (he : ∀ conn server, e ≠ .request conn server) :
    (svc.step exec e).calls = [] ∧ (svc.step exec e).responses = [] ∧
      (svc.step exec e).svc.state = svc.state := by
  cases e with
  | restServerCreate =>
    cases hd : svc.daemon with
    | none => simp [Service.step, hd]
    | some d => simp [Service.step, hd]
  | enableCors => exact ⟨rfl, rfl, rfl⟩
  | registerNext =>
    cases hp : svc.pending with
    | nil => simp [Service.step, hp]
    | cons r pending => simp [Service.step, hp]
  | registerHttpHandler url methods handler => exact ⟨rfl, rfl, rfl⟩
  | request conn server => exact absurd rfl (he conn server)

/-- Both services make the same of an event whose request, if any, has a token. -/
theorem Service.Paired.step {vault : Vault} {a b : Service U S} {routes : Routes U}
    (h : Service.Paired vault a b routes) {e : Event U}
    (hauth : ∀ conn server, e = .request conn server →
      (SecretProvider.vault vault).takes server (conn.header "Authorization") = true) :
    (a.step exec e).calls = (b.step exec e).calls ∧
      (a.step exec e).responses = (b.step exec e).responses ∧
      Service.Paired vault (a.step exec e).svc (b.step exec e).svc (routes.step e).1 := by
  obtain ⟨hleft, hleft'⟩ := step_admits exec h.left e
  obtain ⟨hright, hright'⟩ := step_admits exec h.right e
  have hmade : (a.step exec e).calls = (b.step exec e).calls ∧
      (a.step exec e).responses = (b.step exec e).responses ∧
      (a.step exec e).svc.state = (b.step exec e).svc.state := by
    by_cases hrequest : ∃ conn server, e = .request conn server
    · obtain ⟨conn, server, rfl⟩ := hrequest
      have hserve (d : RestServer (RestFn U)) := h.serve exec d (hauth conn server rfl)
      simp only [Service.step, h.left.daemon, h.right.daemon]
      cases routes.daemon with
      | none => exact ⟨rfl, rfl, h.state⟩
      | some d => exact hserve d
    · have hquiet : ∀ conn server, e ≠ .request conn server :=
        fun conn server heq => hrequest ⟨conn, server, heq⟩
      obtain ⟨ha, ha', ha''⟩ := step_quiet exec a hquiet
      obtain ⟨hb, hb', hb''⟩ := step_quiet exec b hquiet
      exact ⟨ha.trans hb.symm, ha'.trans hb'.symm, ha''.trans (h.state.trans hb''.symm)⟩
  exact ⟨hmade.1, hmade.2.1, hleft, hright, hleft'.secureMode.trans h.leftMode,
    hleft'.secretstore.trans h.leftStore, hright'.secureMode.trans h.rightMode,
    hright'.secretstore.trans h.rightStore, hmade.2.2⟩

theorem run_agree {vault : Vault} {a b : Service U S} {routes : Routes U}
    (h : Service.Paired vault a b routes) (es : List (Event U))
    (hauth : ∀ conn server, .request conn server ∈ es →
      (SecretProvider.vault vault).takes server (conn.header "Authorization") = true) :
    (a.run exec es).calls = (b.run exec es).calls ∧
      (a.run exec es).responses = (b.run exec es).responses ∧
      Service.Paired vault (a.run exec es).svc (b.run exec es).svc (routes.after es) := by
  induction es generalizing a b routes with
  | nil => exact ⟨rfl, rfl, h⟩
  | cons e es ih =>
    obtain ⟨hcalls, hresponses, hstep⟩ := h.step exec (e := e) fun conn server he =>
      hauth conn server (by rw [he]; exact List.mem_cons_self)
    obtain ⟨hcalls', hresponses', hrest⟩ :=
      ih hstep fun conn server hmem => hauth conn server (List.mem_cons_of_mem _ hmem)
    exact ⟨congrArg₂ _ hcalls hcalls', congrArg₂ _ hresponses hresponses', hrest⟩

/-- A Vault that takes one token. -/
def sampleVault : Vault where
  token := "s.1"
  bearer := true
  jwtvalidateurl := "http://localhost:8200/v1/identity/oidc/introspect"

def sampleServer : VaultServer := fun req =>
  some (.map [("active", .bool (req.body.equal (.map [("token", .string "abc")])))])

/-- A request for the version with a header `Authorization`, or without. -/
def sampleConnection (authorization : Option String) : Connection where
  methodname := "GET"
  url := "/api/version"
  corsRequestOk _ := true
  header name := if name = "Authorization" then authorization else none
  arguments := []
  body := []

/-- A start, and requests before and after it. -/
def sampleEvents (authorization : Option String) : List (Event Unit) :=
  [.restServerCreate, .request (sampleConnection authorization) sampleServer] ++
    List.replicate 7 .registerNext ++ [.request (sampleConnection authorization) sampleServer]

def countCalls : Exec Unit ℕ := fun _ _ reply s => (s + 1, { reply with code := httpOk })

/-- Whatever is registered while the requests come in: of the calls that a service in insecure mode
    makes, one in secure mode makes those that are authorized, and nothing else changes its state. -/
theorem secure_calls_eq_filter {env : Option String} (henv : env ≠ some "false") (vault : Vault)
    (state : S) (es : List (Event U)) :
    let secure := (serviceStart env vault state).run exec es
    secure.calls = ((serviceStart (some "false") vault state).run exec es).calls.filter
        (authorized vault) ∧
      (∀ call ∈ secure.calls, Authenticated vault call) ∧
      secure.svc.state = secure.calls.foldl (Call.apply exec) state := by
  intro secure
  have hsecure : Stepped.Admits exec _ _ secure :=
    run_admits exec (serviceStart_registers env vault state) es
  have hinsecure := run_admits exec
    (serviceStart_registers (U := U) (some "false") vault state) es
  have hcalls := hsecure.calls
  have hstate := hsecure.state
  rw [serviceStart_secure henv] at hcalls hstate
  change secure.calls = List.filter (admits true (.vault vault)) _ at hcalls
  rw [admits_secure] at hcalls
  refine ⟨?_, ?_, hstate⟩
  · rw [hcalls, hinsecure.calls, List.filter_filter]
    refine List.filter_congr fun call _ => ?_
    cases hauth : authorized vault call with
    | false => rfl
    | true =>
      rw [Bool.true_and]
      exact (admits_insecure_of_authorized hauth).symm
  · intro call hmem
    rw [hcalls] at hmem
    exact authenticated_of_authorized (List.of_mem_filter hmem)

theorem secure_calls_eq_filter_sample : let secure :=
      (serviceStart none sampleVault 0).run countCalls (sampleEvents none)
    secure.calls = ((serviceStart (some "false") sampleVault 0).run countCalls
        (sampleEvents none)).calls.filter (authorized sampleVault) ∧
      (∀ call ∈ secure.calls, Authenticated sampleVault call) ∧
      secure.svc.state = secure.calls.foldl (Call.apply countCalls) 0 :=
  secure_calls_eq_filter countCalls (by decide) sampleVault 0 (sampleEvents none)

/-- A request for which a service in insecure mode calls a function, and one in secure mode may
    not, is answered with 401 and changes nothing, after whatever has happened to both. -/
theorem secure_refuses {env : Option String} (henv : env ≠ some "false") (vault : Vault)
    (state : S) (es : List (Event U)) (conn : Connection) (server : VaultServer) {c : Call U}
    (hcall : (((serviceStart (some "false") vault state).run exec es).svc.step exec
      (.request conn server)).calls = [c]) (hauth : authorized vault c = false) :
    let secure := ((serviceStart env vault state).run exec es).svc
    secure.step exec (.request conn server) =
      ⟨secure, [], [{ status := httpUnauthorized }]⟩ := by
  have hsecure := run_registers exec (serviceStart_registers env vault state) es
  have hinsecure := run_registers exec
    (serviceStart_registers (U := U) (some "false") vault state) es
  have hmade := run_admits exec (serviceStart_registers (U := U) env vault state) es
  have hasked := (step_admits exec hinsecure (.request conn server)).2.calls
  rw [hcall] at hasked
  intro secure
  have hmode : secure.secureMode = true := by
    refine hmade.secureMode.trans ?_
    rw [serviceStart_secure henv]
  have hstore : secure.secretstore = .vault vault := by
    refine hmade.secretstore.trans ?_
    rw [serviceStart_secure henv]
  have hdaemon := hsecure.daemon
  simp only [Routes.step] at hasked
  cases hd : (Routes.after {} es : Routes U).daemon with
  | none =>
    rw [hd] at hasked
    cases hasked
  | some d =>
    rw [hd] at hasked hdaemon
    change [c] = (asked d conn server).filter _ at hasked
    change secure.daemon = some (d.map (handlerOf secure.secureMode secure.secretstore)) at hdaemon
    simp only [Service.step, hdaemon, serve_eq]
    rw [asked] at hasked
    cases hout : httpHandler d conn.toRestRequest with
    | handled entry params =>
      rw [hout] at hasked
      have hmem : c ∈ [(⟨entry.handler, conn.httpRequest params, server⟩ : Call U)] :=
        List.mem_of_mem_filter (hasked ▸ List.mem_singleton_self c)
      obtain rfl := List.mem_singleton.mp hmem
      have hadmits := congrFun (admits_secure (U := U) vault)
        ⟨entry.handler, conn.httpRequest params, server⟩
      rw [hauth] at hadmits
      simp only [hmode, hstore, hadmits, Bool.false_eq_true, if_false]
    | _ =>
      rw [hout] at hasked
      cases hasked

theorem secure_refuses_sample : let events := sampleEvents none
    let secure := ((serviceStart none sampleVault 0).run countCalls events).svc
    secure.step countCalls (.request (sampleConnection none) sampleServer) =
      ⟨secure, [], [{ status := httpUnauthorized }]⟩ :=
  secure_refuses countCalls (by decide) sampleVault 0 (sampleEvents none) (sampleConnection none)
    sampleServer (c := ⟨.version, (sampleConnection none).httpRequest [], sampleServer⟩) rfl rfl

end

end Rest

end DeviceSdk
