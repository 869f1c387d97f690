import DeviceSdk.Config.Override
import DeviceSdk.Lib.Segments

/-!
# Dispatch of HTTP requests

`rest-server.c`: handlers are registered for URL patterns, and a request goes to the first of
them whose pattern its URL matches. The names of a pattern are bound to components of the URL on
the way, in one list that failed attempts leave their bindings in.

## Main definitions

- `processUrl`, `matchUrlPattern` — the components of a URL, and the comparison with a pattern
- `RestServer.registerHandler`, `httpHandler`
- `Routed` — what a request should come to

## Main results

- `processUrl_eq` — the components are the segments that are not empty
- `lookup_matchUrlPattern` — what a name of the pattern is bound to
- `httpHandler_routed_iff`
-/

namespace DeviceSdk

/-- `devsdk_http_method`, with the values of the enumeration. -/
inductive HttpMethod
  | get | post | put | patch | delete | options | unknown
  deriving DecidableEq, Repr

def HttpMethod.bits : HttpMethod → BitVec 32
  | .get => 1
  | .post => 2
  | .put => 4
  | .patch => 8
  | .delete => 16
  | .options => 32
  | .unknown => 1024

/-- `method_from_string`. -/
def methodFromString (str : String) : HttpMethod :=
  if str = "GET" then .get
  else if str = "POST" then .post
  else if str = "PUT" then .put
  else if str = "PATCH" then .patch
  else if str = "DELETE" then .delete
  else if str = "OPTIONS" then .options
  else .unknown

/-- The loop of `processUrl`, in front of a component or behind the start `comp` of one. -/
def urlComponents : Option (List Char) → List Char → List String
  | none, [] => [""]
  | none, c :: cs => if c = '/' then urlComponents none cs else urlComponents (some [c]) cs
  | some comp, [] => [String.ofList comp]
  | some comp, c :: cs =>
    if c = '/' then String.ofList comp :: urlComponents none cs
    else urlComponents (some (comp ++ [c])) cs

/-- `processUrl`. -/
def processUrl (url : String) : List String := urlComponents none url.toList

/-- The placeholder for a name. -/
def placeholderFor (name : String) : String :=
  String.ofList ('\x7b' :: (name.toList ++ ['\x7d']))

/-- The name of a component of a pattern that is a placeholder. -/
def placeholder (component : String) : Option String :=
  let cs := component.toList
  if 3 ≤ cs.length ∧ cs.head? = some '\x7b' ∧ cs.getLast? = some '\x7d' then
    some (String.ofList ((cs.drop 1).take (cs.length - 2)))
  else none

/-- `match_url_pattern`, with the parameters as it leaves them. -/
def matchUrlPattern : List String → List String → NvPairs → Bool × NvPairs
  | p :: pattern, u :: url, params =>
    if p = u then matchUrlPattern pattern url params
    else
      match placeholder p with
      | some name => matchUrlPattern pattern url ((name, u) :: params)
      | none => (false, params)
  | [], [], params => (true, params)
  | _, _, params => (false, params)

/-- `handler_list`: a pattern, its methods, and the function with its context. -/
structure HandlerEntry (H : Type) where
  url : List String
  methods : BitVec 32
  handler : H

/-- The part of `edgex_rest_server` that a request is dispatched with. -/
structure RestServer (H : Type) where
  handlers : List (HandlerEntry H) := []
  corsEnabled : Bool := false

/-- What a request carries, and what `cors_request_ok` says of it for a method name or none. -/
structure RestRequest where
  methodname : String
  url : String
  corsRequestOk : Option String → Bool

/-- What `http_handler` does with a request. -/
inductive RestOutcome (H : Type)
  | preflight
  | listing (text : String)
  | methodNotAllowed
  | notFound
  | forbidden
  | handled (entry : HandlerEntry H) (params : NvPairs)

section

variable {H : Type}

/-- `edgex_rest_server_register_handler`. -/
def RestServer.registerHandler (svr : RestServer H) (url : String) (methods : BitVec 32)
    (handler : H) : RestServer H :=
  { svr with handlers := svr.handlers ++ [⟨processUrl url, methods, handler⟩] }

/-- The arguments of a call of `edgex_rest_server_register_handler`. -/
structure Registration (H : Type) where
  url : String
  methods : BitVec 32
  handler : H

/-- The handlers as they are registered, one after the other. -/
def RestServer.registerAll (svr : RestServer H) (regs : List (Registration H)) : RestServer H :=
  regs.foldl (fun svr r => svr.registerHandler r.url r.methods r.handler) svr

/-- The loop over the handlers. -/
def tryHandlers : List (HandlerEntry H) → List String → NvPairs →
    Option (HandlerEntry H) × NvPairs
  | [], _, params => (none, params)
  | h :: handlers, elems, params =>
    match matchUrlPattern h.url elems params with
    | (true, params) => (some h, params)
    | (false, params) => tryHandlers handlers elems params

/-- The listing of the handlers. -/
def handlerListing (handlers : List (HandlerEntry H)) : String :=
  String.join (handlers.map fun h => "/".intercalate h.url ++ "\n")

/-- The end of `http_handler`, for a handler that was found. -/
def callHandler (cors : Bool) (req : RestRequest) (h : HandlerEntry H) (params : NvPairs) :
    RestOutcome H :=
  if (methodFromString req.methodname).bits &&& h.methods ≠ 0 then
    if cors && !req.corsRequestOk (some req.methodname) then .forbidden
    else .handled h params
  else .methodNotAllowed

/-- `http_handler`, on its last call for a request. -/
def httpHandler (svr : RestServer H) (req : RestRequest) : RestOutcome H :=
  let method := methodFromString req.methodname
  if method = .options ∧ svr.corsEnabled then
    if req.corsRequestOk none then .preflight else .methodNotAllowed
  else if req.url = "" ∨ req.url = "/" then
    if method = .get then .listing (handlerListing svr.handlers) else .methodNotAllowed
  else
    match tryHandlers svr.handlers (processUrl req.url) [] with
    | (none, _) => .notFound
    | (some h, params) => callHandler svr.corsEnabled req h params

end

/-- The segments of a text between its slashes that are not empty, and an empty one where the last
    is. -/
def urlSegments (l : List Char) : List String :=
  ((l.splitOn '/').filter fun s => !s.isEmpty).map String.ofList ++
    if Segments.EndsEmpty '/' l then [""] else []

theorem urlSegments_slash (l : List Char) : urlSegments ('/' :: l) = urlSegments l := by
  have hends : Segments.EndsEmpty '/' ('/' :: l) ↔ Segments.EndsEmpty '/' l :=
    Segments.endsEmpty_append_cons '/' [] l
  have hsplit : ('/' :: l).splitOn '/' = [] :: l.splitOn '/' :=
    List.splitOn_append_cons_self_of_not_mem List.not_mem_nil l
  simp only [urlSegments, hends, hsplit]
  rfl

theorem urlSegments_cons {comp : List Char} (hne : comp ≠ []) (hno : '/' ∉ comp) (l : List Char) :
    urlSegments (comp ++ '/' :: l) = String.ofList comp :: urlSegments l := by
  have hkeep : (!comp.isEmpty) = true := by simpa using hne
  simp only [urlSegments, Segments.endsEmpty_append_cons,
    List.splitOn_append_cons_self_of_not_mem hno, List.filter_cons, hkeep, if_true, List.map_cons,
    List.cons_append]

theorem urlSegments_single {comp : List Char} (hne : comp ≠ []) (hno : '/' ∉ comp) :
    urlSegments comp = [String.ofList comp] := by
  have hkeep : (!comp.isEmpty) = true := by simpa using hne
  have hends : ¬ Segments.EndsEmpty '/' comp := by
    rintro (hnil | hlast)
    · exact hne hnil
    · exact hno (List.mem_of_getLast? hlast)
  simp [urlSegments, List.splitOn_eq_singleton hno, hends, hkeep]

/-- The loop, in front of a component and in one. -/
theorem urlComponents_eq (l : List Char) :
    urlComponents none l = urlSegments l ∧ ∀ comp, comp ≠ [] → '/' ∉ comp →
      urlComponents (some comp) l = urlSegments (comp ++ l) := by
  induction l with
  | nil =>
    refine ⟨rfl, fun comp hne hno => ?_⟩
    rw [urlComponents, List.append_nil, urlSegments_single hne hno]
  | cons c l ih =>
    obtain ⟨hfront, hin⟩ := ih
    by_cases hc : c = '/'
    · subst hc
      refine ⟨?_, fun comp hne hno => ?_⟩
      · rw [urlComponents, if_pos rfl, hfront, urlSegments_slash]
      · rw [urlComponents, if_pos rfl, hfront, urlSegments_cons hne hno]
    · refine ⟨?_, fun comp hne hno => ?_⟩
      · rw [urlComponents, if_neg hc, hin [c] (by simp) (by simpa using Ne.symm hc)]
        rfl
      · have hno' : '/' ∉ comp ++ [c] := by simpa [hno] using Ne.symm hc
        rw [urlComponents, if_neg hc, hin _ (by simp) hno', List.append_assoc]
        rfl

/-- The components of a URL are its segments that are not empty. A slash at its end leaves an
    empty component behind them. -/
theorem processUrl_eq (url : String) : processUrl url = urlSegments url.toList :=
  (urlComponents_eq url.toList).1

theorem placeholder_eq_some {component name : String} :
    placeholder component = some name ↔ name ≠ "" ∧ component = placeholderFor name := by
  have hinj (a b : String) : a = b ↔ a.toList = b.toList := String.toList_inj.symm
  rw [placeholder, hinj component, placeholderFor, String.toList_ofList, Ne, hinj name]
  generalize component.toList = cs
  constructor
  · intro h
    split at h
    case isFalse => cases h
    case isTrue hc =>
      obtain ⟨hlen, hhead, hlast⟩ := hc
      obtain ⟨rest, rfl⟩ := List.head?_eq_some_iff.mp hhead
      have hne : rest ≠ [] := by
        rintro rfl
        simp at hlen
      have hrest : rest.dropLast ++ ['\x7d'] = rest := by
        have hl := List.dropLast_append_getLast hne
        rw [List.getLast?_cons_of_ne_nil hne, List.getLast?_eq_some_getLast hne] at hlast
        rwa [Option.some.inj hlast] at hl
      have hname : name.toList = rest.dropLast := by
        rw [← Option.some.inj h, String.toList_ofList, List.drop_one, List.tail_cons,
          List.dropLast_eq_take, List.length_cons]
        rfl
      rw [hname, hrest]
      refine ⟨?_, rfl⟩
      intro hnil
      rw [show "".toList = [] from rfl] at hnil
      rw [hnil] at hrest
      rw [← hrest] at hlen
      simp at hlen
  · rintro ⟨hne, rfl⟩
    have hpos : name.toList ≠ [] := hne
    have hlen : 3 ≤ ('\x7b' :: (name.toList ++ ['\x7d'])).length := by
      have hlt := List.length_pos_iff.mpr hpos
      rw [List.length_cons, List.length_append, List.length_singleton]
      omega
    have hlast : ('\x7b' :: (name.toList ++ ['\x7d'])).getLast? = some '\x7d' := by
      rw [← List.cons_append, List.getLast?_concat]
    rw [if_pos ⟨hlen, rfl, hlast⟩]
    simp

/-- A URL has the shape of a pattern: as many components, and each that is no placeholder as it
    is. -/
def Matches (pattern url : List String) : Prop :=
  pattern.length = url.length ∧ ∀ e ∈ pattern.zip url, placeholder e.1 = none → e.1 = e.2

instance (pattern url : List String) : Decidable (Matches pattern url) :=
  inferInstanceAs (Decidable (_ ∧ _))

theorem matches_cons {p u : String} {pattern url : List String} :
    Matches (p :: pattern) (u :: url) ↔
      (placeholder p = none → p = u) ∧ Matches pattern url := by
  simp only [Matches, List.length_cons, Nat.add_right_cancel_iff, List.zip_cons_cons,
    List.forall_mem_cons]
  tauto

/-- The first component of `match_url_pattern` compares the shapes. -/
theorem matchUrlPattern_fst (pattern url : List String) (params : NvPairs) :
    (matchUrlPattern pattern url params).1 = decide (Matches pattern url) := by
  induction pattern, url, params using matchUrlPattern.induct with
  | case1 p pattern url params ih =>
    rw [matchUrlPattern, if_pos rfl, ih, decide_eq_decide, matches_cons]
    tauto
  | case2 p pattern u url params hne name hname ih =>
    rw [matchUrlPattern, if_neg hne, hname]
    simp only
    rw [ih, decide_eq_decide, matches_cons, hname]
    simp
  | case3 p pattern u url params hne hname =>
    rw [matchUrlPattern, if_neg hne, hname, eq_comm, decide_eq_false_iff_not, matches_cons]
    exact fun h => hne (h.1 hname)
  | case4 => simp [matchUrlPattern, Matches]
  | case5 pattern url params hcons hnil =>
    rw [matchUrlPattern.eq_3 _ _ _ hcons hnil, eq_comm, decide_eq_false_iff_not]
    rintro ⟨hlen, -⟩
    cases pattern with
    | nil =>
      cases url with
      | nil => exact hnil rfl rfl
      | cons u url => cases hlen
    | cons p pattern =>
      cases url with
      | nil => cases hlen
      | cons u url => exact hcons p pattern u url rfl rfl

/-- Nothing is bound to its own placeholder. -/
def Unbraced (params : NvPairs) : Prop := ∀ e ∈ params, e.2 ≠ placeholderFor e.1

theorem unbraced_matchUrlPattern (pattern url : List String) {params : NvPairs}
    (h : Unbraced params) : Unbraced (matchUrlPattern pattern url params).2 := by
  induction pattern, url, params using matchUrlPattern.induct with
  | case1 p pattern url params ih =>
    rw [matchUrlPattern, if_pos rfl]
    exact ih h
  | case2 p pattern u url params hne name hname ih =>
    rw [matchUrlPattern, if_neg hne, hname]
    apply ih
    intro e he
    cases List.mem_cons.mp he with
    | inl heq =>
      subst heq
      exact fun hu => hne ((placeholder_eq_some.mp hname).2.trans hu.symm)
    | inr hmem => exact h e hmem
  | case3 p pattern u url params hne hname =>
    rw [matchUrlPattern, if_neg hne, hname]
    exact h
  | case4 params =>
    rw [matchUrlPattern]
    exact h
  | case5 pattern url params hcons hnil =>
    rw [matchUrlPattern.eq_3 _ _ _ hcons hnil]
    exact h

/-- A name that the pattern does not have keeps its binding. -/
theorem lookup_matchUrlPattern_of_not_mem {name : String} (pattern url : List String)
    {params : NvPairs} (h : name ∉ pattern.filterMap placeholder) :
    (matchUrlPattern pattern url params).2.lookup name = params.lookup name := by
  induction pattern, url, params using matchUrlPattern.induct with
  | case1 p pattern url params ih =>
    rw [matchUrlPattern, if_pos rfl]
    apply ih
    intro hmem
    apply h
    rw [List.filterMap_cons]
    split
    · exact hmem
    · exact List.mem_cons_of_mem _ hmem
  | case2 p pattern u url params hne bound hname ih =>
    rw [List.filterMap_cons_some hname, List.mem_cons, not_or] at h
    rw [matchUrlPattern, if_neg hne, hname]
    simp only
    rw [ih h.2, List.lookup_cons, beq_false_of_ne h.1]
  | case3 p pattern u url params hne hname => rw [matchUrlPattern, if_neg hne, hname]
  | case4 params => rw [matchUrlPattern]
  | case5 pattern url params hcons hnil => rw [matchUrlPattern.eq_3 _ _ _ hcons hnil]

/-- A name of the pattern is bound to the component in its place, unless that is the placeholder
    itself. -/
theorem lookup_matchUrlPattern {pattern url : List String} {params : NvPairs} {name u : String}
    (hmatch : Matches pattern url) (hnames : (pattern.filterMap placeholder).Nodup)
    (hname : name ≠ "") (hmem : (placeholderFor name, u) ∈ pattern.zip url)
    (hu : u ≠ placeholderFor name) :
    (matchUrlPattern pattern url params).2.lookup name = some u := by
  have hbound : placeholder (placeholderFor name) = some name :=
    placeholder_eq_some.mpr ⟨hname, rfl⟩
  induction pattern generalizing url params with
  | nil => cases hmem
  | cons p pattern ih =>
    cases url with
    | nil => cases hmem
    | cons v url =>
      have htail : (pattern.filterMap placeholder).Nodup := by
        rw [List.filterMap_cons] at hnames
        split at hnames
        · exact hnames
        · exact (List.nodup_cons.mp hnames).2
      obtain ⟨hpv, hrest⟩ := matches_cons.mp hmatch
      rw [List.zip_cons_cons, List.mem_cons] at hmem
      cases hmem with
      | inl heq =>
        -- The binding is made here, and the names behind are others.
        obtain ⟨rfl, rfl⟩ := Prod.mk.inj heq
        rw [List.filterMap_cons_some hbound, List.nodup_cons] at hnames
        rw [matchUrlPattern, if_neg hu.symm, hbound]
        simp only
        rw [lookup_matchUrlPattern_of_not_mem pattern url hnames.1, List.lookup_cons_self]
      | inr hmem =>
        rw [matchUrlPattern]
        split
        · exact ih hrest htail hmem
        · next hne =>
          cases hp : placeholder p with
          | none => exact absurd (hpv hp) hne
          | some bound => exact ih hrest htail hmem

section

variable {H : Type}

/-- The handler that a URL should go to. -/
def firstMatch (handlers : List (HandlerEntry H)) (elems : List String) :
    Option (HandlerEntry H) :=
  handlers.find? fun h => decide (Matches h.url elems)

/-- The loop over the handlers finds the first match, with the parameters that its pattern leaves
    of some that are bound to no placeholder of their own. -/
theorem tryHandlers_spec (handlers : List (HandlerEntry H)) (elems : List String)
    {params : NvPairs} (h : Unbraced params) :
    (tryHandlers handlers elems params).1 = firstMatch handlers elems ∧
      ∀ entry, firstMatch handlers elems = some entry → Matches entry.url elems ∧
        ∃ earlier, Unbraced earlier ∧ (tryHandlers handlers elems params).2 =
          (matchUrlPattern entry.url elems earlier).2 := by
  induction handlers generalizing params with
  | nil => simp [tryHandlers, firstMatch]
  | cons entry handlers ih =>
    have hfst := matchUrlPattern_fst entry.url elems params
    by_cases hm : Matches entry.url elems
    · have hfirst : firstMatch (entry :: handlers) elems = some entry := by
        rw [firstMatch, List.find?_cons_of_pos (by simpa using hm)]
      rw [decide_eq_true hm] at hfst
      have htry : tryHandlers (entry :: handlers) elems params =
          (some entry, (matchUrlPattern entry.url elems params).2) := by
        rw [tryHandlers]
        split
        · next p' heq => rw [heq]
        · next p' heq => simp [heq] at hfst
      rw [htry, hfirst]
      refine ⟨rfl, ?_⟩
      rintro _ ⟨⟩
      exact ⟨hm, params, h, rfl⟩
    · have hfirst : firstMatch (entry :: handlers) elems = firstMatch handlers elems := by
        rw [firstMatch, List.find?_cons_of_neg (by simpa using hm), firstMatch]
      rw [decide_eq_false hm] at hfst
      have htry : tryHandlers (entry :: handlers) elems params =
          tryHandlers handlers elems (matchUrlPattern entry.url elems params).2 := by
        rw [tryHandlers]
        split
        · next p' heq => simp [heq] at hfst
        · next p' heq => rw [heq]
      rw [htry, hfirst]
      exact ih (unbraced_matchUrlPattern entry.url elems h)

/-- The entry that a registration leaves. -/
def Registration.entry (r : Registration H) : HandlerEntry H :=
  ⟨processUrl r.url, r.methods, r.handler⟩

theorem restServer_registerAll (svr : RestServer H) (regs : List (Registration H)) :
    svr.registerAll regs =
      { svr with handlers := svr.handlers ++ regs.map Registration.entry } := by
  induction regs generalizing svr with
  | nil => simp [RestServer.registerAll]
  | cons r regs ih =>
    rw [RestServer.registerAll, List.foldl_cons, ← RestServer.registerAll, ih]
    simp [RestServer.registerHandler, Registration.entry]

/-- The registration that a URL should go to. -/
def firstRegistered (regs : List (Registration H)) (elems : List String) :
    Option (Registration H) :=
  regs.find? fun r => decide (Matches (processUrl r.url) elems)

theorem firstMatch_map_entry (regs : List (Registration H)) (elems : List String) :
    firstMatch (regs.map Registration.entry) elems =
      (firstRegistered regs elems).map Registration.entry := by
  rw [firstMatch, List.find?_map]
  rfl

/-- The server that handlers are registered with. -/
def RestServer.ofRegistrations (cors : Bool) (regs : List (Registration H)) : RestServer H :=
  RestServer.registerAll { corsEnabled := cors } regs

/-- What a request should come to: the first handler whose pattern its URL has the shape of, with
    each name of the pattern bound to the component in its place. A method that the handler does
    not have, or an origin that is not allowed, is refused in its stead. -/
def Routed (cors : Bool) (regs : List (Registration H)) (req : RestRequest) (out : RestOutcome H) :
    Prop :=
  match firstRegistered regs (processUrl req.url) with
  | none => out = .notFound
  | some r =>
    if (methodFromString req.methodname).bits &&& r.methods = 0 then out = .methodNotAllowed
    else if cors && !req.corsRequestOk (some req.methodname) then out = .forbidden
    else ∃ params, out = .handled r.entry params ∧
      ∀ e ∈ (processUrl r.url).zip (processUrl req.url), ∀ name, placeholder e.1 = some name →
        nvpairsValue params name = some e.2

/-- A request that the handler found for its URL is called for. -/
def Served (cors : Bool) (req : RestRequest) (r : Registration H) : Prop :=
  (methodFromString req.methodname).bits &&& r.methods ≠ 0 ∧
    (cors && !req.corsRequestOk (some req.methodname)) = false

/-- The bindings that the handler is called with are the components of the URL exactly where none
    of them is the placeholder in its place. -/
theorem bindings_iff {pattern url : List String} {earlier : NvPairs} (hmatch : Matches pattern url)
    (hnames : (pattern.filterMap placeholder).Nodup) (hearlier : Unbraced earlier) :
    (∀ e ∈ pattern.zip url, ∀ name, placeholder e.1 = some name →
      nvpairsValue (matchUrlPattern pattern url earlier).2 name = some e.2) ↔
    ∀ e ∈ pattern.zip url, placeholder e.1 ≠ none → e.2 ≠ e.1 := by
  constructor
  · intro h e he hp heq
    obtain ⟨name, hname⟩ := Option.ne_none_iff_exists'.mp hp
    have hbound := h e he name hname
    rw [heq, (placeholder_eq_some.mp hname).2] at hbound
    obtain ⟨before, behind, hparams, -⟩ := List.lookup_eq_some_iff.mp hbound
    exact unbraced_matchUrlPattern pattern url hearlier (name, placeholderFor name)
      (by simp [hparams]) rfl
  · intro h e he name hname
    obtain ⟨hne, heq⟩ := placeholder_eq_some.mp hname
    apply lookup_matchUrlPattern hmatch hnames hne
    · rw [← heq]
      exact he
    · rw [← heq]
      exact h e he (by simp [hname])

/-- What the server does with a request that is neither a preflight nor for the listing. -/
theorem httpHandler_url {cors : Bool} {regs : List (Registration H)} {req : RestRequest}
    (hurl : req.url ≠ "" ∧ req.url ≠ "/")
    (hpre : ¬(methodFromString req.methodname = .options ∧ cors = true)) :
    httpHandler (RestServer.ofRegistrations cors regs) req =
      match tryHandlers (regs.map Registration.entry) (processUrl req.url) [] with
      | (none, _) => .notFound
      | (some h, params) => callHandler cors req h params := by
  have hroot : ¬(req.url = "" ∨ req.url = "/") := not_or.mpr hurl
  rw [RestServer.ofRegistrations, restServer_registerAll]
  simp only [httpHandler, if_neg hpre, if_neg hroot, List.nil_append]

/-- A request goes where it should, exactly where no component of its URL is literally the
    placeholder that the pattern has in its place. -/
theorem httpHandler_routed_iff (cors : Bool) (regs : List (Registration H)) (req : RestRequest)
    (hurl : req.url ≠ "" ∧ req.url ≠ "/")
    (hpre : ¬(methodFromString req.methodname = .options ∧ cors = true))
    (hnames : ∀ r, firstRegistered regs (processUrl req.url) = some r →
      ((processUrl r.url).filterMap placeholder).Nodup) :
    Routed cors regs req (httpHandler (RestServer.ofRegistrations cors regs) req) ↔
      ∀ r, firstRegistered regs (processUrl req.url) = some r → Served cors req r →
        ∀ e ∈ (processUrl r.url).zip (processUrl req.url), placeholder e.1 ≠ none → e.2 ≠ e.1 := by
  have hnil : Unbraced [] := fun e he => by cases he
  obtain ⟨hfst, hsnd⟩ :=
    tryHandlers_spec (regs.map Registration.entry) (processUrl req.url) hnil
  rw [firstMatch_map_entry] at hfst hsnd
  rw [httpHandler_url hurl hpre, Routed]
  generalize tryHandlers (regs.map Registration.entry) (processUrl req.url) [] = found at *
  obtain ⟨entry, params⟩ := found
  obtain rfl := hfst
  cases hfirst : firstRegistered regs (processUrl req.url) with
  | none => simp
  | some r =>
    obtain ⟨hmatch, earlier, hearlier, rfl⟩ := hsnd r.entry (by rw [hfirst]; rfl)
    have hbind := bindings_iff hmatch (hnames r hfirst) hearlier
    have hmethods : r.entry.methods = r.methods := rfl
    simp only [Option.map_some, Option.some.injEq, forall_eq', callHandler, Served, hmethods]
    by_cases hmethod : (methodFromString req.methodname).bits &&& r.methods = 0
    · rw [if_pos hmethod, if_neg (not_not.mpr hmethod)]
      exact ⟨fun _ h => absurd hmethod h.1, fun _ => rfl⟩
    · rw [if_neg hmethod, if_pos hmethod]
      cases horigin : cors && !req.corsRequestOk (some req.methodname) with
      | true => exact ⟨fun _ h => (by cases h.2), fun _ => rfl⟩
      | false =>
        constructor
        · rintro ⟨_, ⟨⟩, h⟩ -
          exact hbind.mp h
        · intro h
          exact ⟨_, rfl, hbind.mpr (h ⟨hmethod, rfl⟩)⟩

end

/-- One pattern with a name, for requests by `GET`. -/
def deviceRoutes : List (Registration Unit) := [⟨"/device/\x7bname\x7d", 1, ()⟩]

/-- A request by `GET`. -/
def getRequest (url : String) : RestRequest := ⟨"GET", url, fun _ => true⟩

theorem httpHandler_routed_pump :
    Routed false deviceRoutes (getRequest "/device/Pump")
      (httpHandler (RestServer.ofRegistrations false deviceRoutes)
        (getRequest "/device/Pump")) := by
  have h := httpHandler_routed_iff false deviceRoutes (getRequest "/device/Pump") (by decide)
    (by decide) (by decide)
  rw [h]
  intro r hr _
  obtain rfl : ⟨"/device/\x7bname\x7d", 1, ()⟩ = r := Option.some.inj hr
  decide

/-- A component that is literally the placeholder is not bound to the name. -/
theorem literal_placeholder_unbound :
    ¬Routed false deviceRoutes (getRequest "/device/\x7bname\x7d")
      (httpHandler (RestServer.ofRegistrations false deviceRoutes)
        (getRequest "/device/\x7bname\x7d")) := by
  rintro ⟨params, hout, hbound⟩
  obtain ⟨-, rfl⟩ := RestOutcome.handled.inj hout
  exact absurd (hbound ("\x7bname\x7d", "\x7bname\x7d") (by decide) "name" (by decide)) (by decide)

end DeviceSdk
