import DeviceSdk.Rest.Server

/-!
# Bodies of HTTP requests

libmicrohttpd calls `http_handler` several times for a request: once to make a context, once for
each chunk of the body, and once more to handle the request. The body is collected in a buffer
that has room for a terminator, and the room that it takes is what is compared with
`MaxRequestSize`.

## Main definitions

- `HttpContext`, `httpHandlerCall` — the context of a request, and a call of `http_handler`
- `serve` — the calls for a request
- `BodyServed` — what a limit on the size of a body should come to

## Main results

- `serve_spec` — what a request comes to, in whatever chunks its body arrives
- `bodyServed_iff`
-/

namespace DeviceSdk

/-- `http_context_t`: the part of a body that has arrived, with a terminator. This buffer and the
    next chunk are in memory together, and so their sizes add up in a `size_t`. -/
structure HttpContext where
  data : Option (List UInt8) := none
  size : ℕ := 0

/-- The part of `edgex_rest_server` that a request is taken in with. -/
structure BodyServer (H : Type) extends RestServer H where
  maxsize : BitVec 64 := 0

/-- What a call of `http_handler` comes to: `MHD_YES` and the context for the next call, `MHD_NO`,
    or what is done with the request, whose `data` are these. -/
inductive CallResult (H : Type)
  | yes (ctx : HttpContext)
  | no
  | done (out : RestOutcome H) (data : Option (List UInt8)) (size : ℕ)

section

variable {H : Type} (svr : BodyServer H) (req : RestRequest)

/-- `http_handler`. -/
def httpHandlerCall (context : Option HttpContext) (upload : List UInt8) : CallResult H :=
  match context with
  | none => .yes {}
  | some ctx =>
    if upload ≠ [] then
      let required := ctx.size + upload.length + 1
      if svr.maxsize ≠ 0 ∧ svr.maxsize.toNat < required then .no
      else
        .yes { data := some ((ctx.data.getD []).take ctx.size ++ upload ++ [0])
               size := ctx.size + upload.length }
    else .done (httpHandler svr.toRestServer req) ctx.data ctx.size

/-- The calls with these data while they return `MHD_YES`, and a last call without data. -/
def serveFrom (context : Option HttpContext) : List (List UInt8) → CallResult H
  | [] => httpHandlerCall svr req context []
  | upload :: uploads =>
    match httpHandlerCall svr req context upload with
    | .yes ctx => serveFrom (some ctx) uploads
    | result => result

/-- The calls for a request whose body arrives in these chunks. -/
def serve (chunks : List (List UInt8)) : CallResult H := serveFrom svr req none ([] :: chunks)

/-- What a handler finds in the data of a request. -/
def bodyRead (data : Option (List UInt8)) (size : ℕ) : List UInt8 := (data.getD []).take size

/-- A request is handled with a body. -/
def Handles (body : List UInt8) (result : CallResult H) : Prop :=
  ∃ data, result = .done (httpHandler svr.toRestServer req) data body.length ∧
    bodyRead data body.length = body

/-- In whatever chunks a body arrives: it is rejected if it is larger than `MaxRequestSize`, and
    otherwise the request is handled with it. -/
def BodyServed (body : List UInt8) : Prop :=
  ∀ chunks : List (List UInt8), (∀ chunk ∈ chunks, chunk ≠ []) → chunks.flatten = body →
    if svr.maxsize ≠ 0 ∧ svr.maxsize.toNat < body.length then serve svr req chunks = .no
    else Handles svr req body (serve svr req chunks)

/-- A context holds what has arrived of a body. -/
structure HttpContext.Holds (ctx : HttpContext) (body : List UInt8) : Prop where
  size : ctx.size = body.length
  read : bodyRead ctx.data ctx.size = body

theorem holds_nil : HttpContext.Holds {} [] := ⟨rfl, rfl⟩

/-- A chunk is turned down, or is added to what has arrived. -/
theorem httpHandlerCall_chunk {ctx : HttpContext} {body chunk : List UInt8} (h : ctx.Holds body)
    (hchunk : chunk ≠ []) :
    if svr.maxsize ≠ 0 ∧ svr.maxsize.toNat ≤ (body ++ chunk).length then
      httpHandlerCall svr req (some ctx) chunk = .no
    else
      ∃ ctx', httpHandlerCall svr req (some ctx) chunk = .yes ctx' ∧ ctx'.Holds (body ++ chunk) := by
  have hfull : svr.maxsize.toNat < ctx.size + chunk.length + 1 ↔
      svr.maxsize.toNat ≤ (body ++ chunk).length := by
    rw [h.size, List.length_append, Nat.lt_succ_iff]
  simp only [httpHandlerCall, if_pos hchunk, hfull]
  split
  · rfl
  · refine ⟨_, rfl, ?_, ?_⟩
    · rw [h.size, List.length_append]
    · have hread : (ctx.data.getD []).take ctx.size = body := h.read
      have hsize : ctx.size + chunk.length = (body ++ chunk).length := by
        rw [h.size, List.length_append]
      rw [bodyRead, Option.getD_some, hread, hsize, List.take_left]

/-- From a context on, the chunks that are left are turned down as soon as the body is as large as
    `MaxRequestSize`, and otherwise the request is handled with all of it. -/
theorem serveFrom_spec {ctx : HttpContext} {body : List UInt8} (h : ctx.Holds body)
    (chunks : List (List UInt8)) (hchunks : ∀ chunk ∈ chunks, chunk ≠ []) :
    if chunks ≠ [] ∧ svr.maxsize ≠ 0 ∧ svr.maxsize.toNat ≤ (body ++ chunks.flatten).length then
      serveFrom svr req (some ctx) chunks = .no
    else Handles svr req (body ++ chunks.flatten) (serveFrom svr req (some ctx) chunks) := by
  induction chunks generalizing ctx body with
  | nil =>
    rw [if_neg fun hc => hc.1 rfl, List.flatten_nil, List.append_nil]
    refine ⟨ctx.data, ?_, ?_⟩
    · rw [← h.size]
      rfl
    · rw [← h.size]
      exact h.read
  | cons chunk chunks ih =>
    obtain ⟨hchunk, hrest⟩ := List.forall_mem_cons.mp hchunks
    have hcall := httpHandlerCall_chunk svr req h hchunk
    have hlen : (body ++ (chunk :: chunks).flatten).length =
        (body ++ chunk).length + chunks.flatten.length := by
      rw [List.flatten_cons, ← List.append_assoc, List.length_append]
    rw [serveFrom]
    by_cases hfull : svr.maxsize ≠ 0 ∧ svr.maxsize.toNat ≤ (body ++ chunk).length
    · rw [if_pos hfull] at hcall
      have hall : svr.maxsize.toNat ≤ (body ++ (chunk :: chunks).flatten).length := by
        rw [hlen]
        exact hfull.2.trans (Nat.le_add_right _ _)
      rw [if_pos ⟨List.cons_ne_nil chunk chunks, hfull.1, hall⟩, hcall]
    · rw [if_neg hfull] at hcall
      obtain ⟨ctx', hyes, hholds⟩ := hcall
      have hnext := ih hholds hrest
      have hcond : (chunks ≠ [] ∧ svr.maxsize ≠ 0 ∧
            svr.maxsize.toNat ≤ ((body ++ chunk) ++ chunks.flatten).length) ↔
          (chunk :: chunks ≠ [] ∧ svr.maxsize ≠ 0 ∧
            svr.maxsize.toNat ≤ (body ++ (chunk :: chunks).flatten).length) := by
        rw [List.flatten_cons, List.append_assoc]
        refine ⟨fun hc => ⟨List.cons_ne_nil chunk chunks, hc.2⟩, fun hc => ⟨?_, hc.2⟩⟩
        rintro rfl
        apply hfull
        simpa using hc.2
      rw [hyes]
      simp only [hcond] at hnext
      rwa [List.append_assoc, ← List.flatten_cons] at hnext

/-- A request comes to the same in whatever chunks its body arrives: it is turned down if the body
    is as large as `MaxRequestSize`, and otherwise handled with all of it. -/
theorem serve_spec (chunks : List (List UInt8)) (hchunks : ∀ chunk ∈ chunks, chunk ≠ []) :
    if svr.maxsize ≠ 0 ∧ svr.maxsize.toNat ≤ chunks.flatten.length then
      serve svr req chunks = .no
    else Handles svr req chunks.flatten (serve svr req chunks) := by
  have hfirst : serve svr req chunks = serveFrom svr req (some {}) chunks := rfl
  have hrun := serveFrom_spec svr req holds_nil chunks hchunks
  have hcond : (chunks ≠ [] ∧ svr.maxsize ≠ 0 ∧ svr.maxsize.toNat ≤ chunks.flatten.length) ↔
      (svr.maxsize ≠ 0 ∧ svr.maxsize.toNat ≤ chunks.flatten.length) := by
    refine ⟨fun hc => hc.2, fun hc => ⟨?_, hc⟩⟩
    rintro rfl
    apply hc.1
    apply BitVec.eq_of_toNat_eq
    simpa using hc.2
  rw [List.nil_append] at hrun
  rw [hfirst]
  simpa only [hcond] using hrun

/-- A body can arrive in non-empty chunks. -/
theorem exists_chunks (body : List UInt8) :
    ∃ chunks : List (List UInt8), (∀ chunk ∈ chunks, chunk ≠ []) ∧ chunks.flatten = body := by
  cases body with
  | nil => exact ⟨[], by simp, rfl⟩
  | cons b body => exact ⟨[b :: body], by simp, by simp⟩

/-- A body is rejected if and only if it is larger than `MaxRequestSize`, and otherwise handled as
    a whole, exactly where there is no limit or the body is not of just that size. -/
theorem bodyServed_iff (body : List UInt8) :
    BodyServed svr req body ↔ svr.maxsize = 0 ∨ body.length ≠ svr.maxsize.toNat := by
  constructor
  · intro h
    by_contra hat
    obtain ⟨hlimit, hsize⟩ := not_or.mp hat
    rw [not_not] at hsize
    obtain ⟨chunks, hchunks, rfl⟩ := exists_chunks body
    have hspec := serve_spec svr req chunks hchunks
    have hserved := h chunks hchunks rfl
    rw [if_pos ⟨hlimit, hsize.ge⟩] at hspec
    rw [if_neg fun hc => hc.2.ne' hsize, hspec] at hserved
    obtain ⟨data, hdone, -⟩ := hserved
    cases hdone
  · rintro h chunks hchunks rfl
    have hspec := serve_spec svr req chunks hchunks
    have hcond : (svr.maxsize ≠ 0 ∧ svr.maxsize.toNat ≤ chunks.flatten.length) ↔
        (svr.maxsize ≠ 0 ∧ svr.maxsize.toNat < chunks.flatten.length) := by
      refine and_congr_right fun hlimit => ?_
      have hne := h.resolve_left hlimit
      omega
    simpa only [hcond] using hspec

end

/-- A server that takes requests of one byte, and a request by `PUT`. -/
def oneByteServer : BodyServer Unit where maxsize := 1

def putRequest : RestRequest := ⟨"PUT", "/device", fun _ => true⟩

/-- A request of one byte is turned down. -/
theorem full_body_rejected :
    ¬ ∀ (H : Type) (svr : BodyServer H) (req : RestRequest) (body : List UInt8),
      BodyServed svr req body := by
  intro h
  obtain ⟨data, hdone, -⟩ := h Unit oneByteServer putRequest [7] [[7]] (by decide) rfl
  cases hdone

end DeviceSdk
