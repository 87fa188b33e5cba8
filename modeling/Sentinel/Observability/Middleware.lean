import Sentinel.Security.Dispatch
import Sentinel.Transition.Run

/-!
# Requests on their way through the middleware

The two middlewares of the service around its endpoints. `RequestObservabilityMiddleware` is the
outer one: it gives a request its id, counts it as in flight, and in the end counts the response.
`ProductionSecurityMiddleware` is the inner one. Between any two of their parts other requests may
take their turn, so the service is a transition system: an action moves one request to its next
phase. What an endpoint answers, and whether it raises, is up to the action, as is the id that would
be drawn. Only the clock does not go back.

`charges` and `calls` are the history of the requests that have taken a token of the limiter and of
those that an endpoint was called for.
-/

namespace Sentinel

open Collections Buckets Http Text Transition

/-! ## Correlation ids -/

/-- The characters of `REQUEST_ID_PATTERN`. -/
def isRequestIdChar (c : Char) : Bool :=
  ('A' ≤ c && c ≤ 'Z') || ('a' ≤ c && c ≤ 'z') || ('0' ≤ c && c ≤ '9')
    || c ∈ ['.', '_', ':', '/', '-']

/-- `REQUEST_ID_PATTERN.fullmatch`. -/
def matchesRequestId (text : String) : Bool :=
  1 ≤ text.length && text.length ≤ 128 && text.toList.all isRequestIdChar

/-- `str` of a UUID with the bits. -/
def uuidText (bits : BitVec 128) : String :=
  let digits := (List.range 32).map fun i ↦ Nat.digitChar (bits.toNat / 16 ^ (31 - i) % 16)
  String.ofList (digits.take 8 ++ ['-'] ++ (digits.drop 8).take 4 ++ ['-']
    ++ (digits.drop 12).take 4 ++ ['-'] ++ (digits.drop 16).take 4 ++ ['-'] ++ digits.drop 20)

/-- The correlation id of a request that is given as its `x-request-id`, with the UUID that would be
drawn. -/
def requestId (supplied : Option String) (uuid : BitVec 128) : String :=
  let suppliedRequestId := supplied.getD ""
  if matchesRequestId suppliedRequestId then suppliedRequestId else uuidText uuid

theorem isRequestIdChar_digitChar {n : ℕ} (h : n < 16) :
    isRequestIdChar (Nat.digitChar n) = true := by
  interval_cases n <;> decide

theorem matchesRequestId_uuidText (bits : BitVec 128) :
    matchesRequestId (uuidText bits) = true := by
  have hdigits : ∀ c ∈ (List.range 32).map (fun i ↦
      Nat.digitChar (bits.toNat / 16 ^ (31 - i) % 16)), isRequestIdChar c = true := by
    rintro _ hc
    obtain ⟨i, -, rfl⟩ := List.mem_map.mp hc
    exact isRequestIdChar_digitChar (Nat.mod_lt _ (by decide))
  have hlength : ((List.range 32).map (fun i ↦
      Nat.digitChar (bits.toNat / 16 ^ (31 - i) % 16))).length = 32 := by
    rw [List.length_map, List.length_range]
  rw [uuidText]
  generalize (List.range 32).map _ = digits at hdigits hlength
  have htake : ∀ m n, ∀ c ∈ (digits.drop m).take n, isRequestIdChar c = true :=
    fun m n c hc ↦ hdigits c (List.mem_of_mem_drop (List.mem_of_mem_take hc))
  have hdash : isRequestIdChar '-' = true := by decide
  simp only [matchesRequestId, Bool.and_eq_true, decide_eq_true_eq, String.length_ofList,
    String.toList_ofList, List.all_eq_true, List.mem_append, List.mem_singleton,
    List.length_append, List.length_take, List.length_drop, List.length_singleton, hlength]
  refine ⟨by omega, ?_⟩
  rintro c ((((((((hc | rfl) | hc) | rfl) | hc) | rfl) | hc) | rfl) | hc)
  · exact hdigits c (List.mem_of_mem_take hc)
  · exact hdash
  · exact htake _ _ c hc
  · exact hdash
  · exact htake _ _ c hc
  · exact hdash
  · exact htake _ _ c hc
  · exact hdash
  · exact hdigits c (List.mem_of_mem_drop hc)

/-- **A correlation id is always of the pattern**, whatever the client sends. -/
theorem matchesRequestId_requestId (supplied : Option String) (uuid : BitVec 128) :
    matchesRequestId (requestId supplied uuid) = true := by
  rw [requestId]
  by_cases h : matchesRequestId (supplied.getD "") = true
  · rwa [if_pos h]
  · rw [if_neg h]
    exact matchesRequestId_uuidText uuid

/-! ## Phases -/

variable {H β : Type*}

inductive Phase (H β : Type*)
  | accepted
  /-- The body has been read, where it is. -/
  | received (body : Option (List UInt8))
  /-- The limiter has let it pass. -/
  | admitted (body : Option (List UInt8)) (admittedAt : ℚ) (rateLimitRemaining : Option ℤ)
  /-- Its endpoint is running. -/
  | called (rateLimitRemaining : Option ℤ)
  /-- The inner middleware has a response, or an exception passes through it. -/
  | answered (wasCalled : Bool) (response : Option (HttpResponse H β))
  /-- The outer middleware has returned the response. Without one an exception has left it, and the
  bare `500` that the server sends then does not pass either middleware. -/
  | closed (wasCalled : Bool) (response : Option (HttpResponse H β))

structure Flight (H β : Type*) where
  request : HttpRequest H
  correlationId : String
  phase : Phase H β

structure EndpointCall (H : Type*) where
  flight : ℕ
  request : HttpRequest H
  body : Option (List UInt8)
  admittedAt : ℚ

/-- The labels of `sentinel_http_requests_total`. -/
structure HttpLabels where
  method : String
  route : String
  statusCode : ℕ
deriving DecidableEq

/-- The state of the service, as far as its middleware goes. -/
structure ServiceState (H β : Type*) where
  clock : ℚ
  buckets : BucketTable
  flights : List (Flight H β)
  inflightRequests : ℤ
  httpRequests : List HttpLabels
  charges : List (ℕ × RateRequest)
  calls : List (EndpointCall H)

inductive ServiceAction (H β : Type*)
  /-- A request comes in. -/
  | accept (request : HttpRequest H) (uuid : BitVec 128)
  /-- `_reject_oversized_request`. -/
  | receive (flight : ℕ)
  /-- `_reject_rate_limited_request`, with its reading of the clock. -/
  | limit (flight : ℕ) (now : ℚ)
  /-- `call_next`. -/
  | call (flight : ℕ)
  /-- The endpoint returns a response or raises. -/
  | answer (flight : ℕ) (response : Option (HttpResponse H β))
  /-- The outer middleware is left. -/
  | close (flight : ℕ)

def ServiceState.initial (H β : Type*) : ServiceState H β := ⟨0, Dict.empty, [], 0, [], [], []⟩

/-- The service, with its settings and the route of each request. -/
structure Service (H β : Type*) where
  framework : Framework H β
  settings : ServiceSettings
  /-- `request.scope["route"].path`, where the routing has found one. -/
  route : HttpRequest H → Option String

namespace Service

variable (service : Service H β)

/-- A request that the inner middleware rejects. -/
def rejected (request : HttpRequest H) (response : ErrorResponse) : Phase H β :=
  .answered false (some (service.framework.applySecurityHeaders service.settings request.path none
    (service.framework.jsonResponse response)))

/-- The phase after `_reject_oversized_request`. -/
def received (request : HttpRequest H) : Phase H β :=
  match service.framework.rejectOversizedRequest service.settings request with
  | .rejected response => service.rejected request response
  | .passed body => .received body
  | .disconnected => .answered false none

def Limits (request : HttpRequest H) : Prop :=
  service.settings.rateLimitEnabled = true ∧ request.path ∉ exemptPaths

instance (request : HttpRequest H) : Decidable (service.Limits request) :=
  inferInstanceAs (Decidable (_ ∧ _))

/-- The phase after `_reject_rate_limited_request`. -/
def limited (request : HttpRequest H) (body : Option (List UInt8)) (buckets : BucketTable)
    (now : ℚ) : Phase H β :=
  let charge : RateRequest := ⟨request.clientKey, now⟩
  match (service.settings.rejectRateLimitedRequest buckets request.path charge).1 with
  | some response => service.rejected request response
  | none => .admitted body now (service.settings.rateLimitRemaining buckets request.path charge)

def correlated (correlationId : String) (response : HttpResponse H β) : HttpResponse H β :=
  { response with
    headers := service.framework.set response.headers "X-Request-ID" correlationId }

/-- What the `finally` of the outer middleware counts. -/
def labels (request : HttpRequest H) (wasCalled : Bool) (response : Option (HttpResponse H β)) :
    HttpLabels where
  method := request.method
  -- a request that was rejected has not been routed
  route := if wasCalled then (service.route request).getD "unmatched" else "unmatched"
  statusCode := (response.map (·.statusCode)).getD 500

def step (state : ServiceState H β) : ServiceAction H β → Option (ServiceState H β)
  | .accept request uuid =>
    let correlationId := requestId (service.framework.get request.headers "x-request-id") uuid
    some { state with
      flights := state.flights ++ [⟨request, correlationId, .accepted⟩]
      inflightRequests := state.inflightRequests + 1 }
  | .receive i =>
    match state.flights[i]? with
    | some ⟨request, correlationId, .accepted⟩ =>
      some { state with
        flights := state.flights.set i ⟨request, correlationId, service.received request⟩ }
    | _ => none
  | .limit i now =>
    match state.flights[i]? with
    | some ⟨request, correlationId, .received body⟩ =>
      if state.clock ≤ now then
        let charge : RateRequest := ⟨request.clientKey, now⟩
        some { state with
          clock := now
          buckets :=
            (service.settings.rejectRateLimitedRequest state.buckets request.path charge).2
          flights := state.flights.set i
            ⟨request, correlationId, service.limited request body state.buckets now⟩
          charges :=
            if service.Limits request then state.charges ++ [(i, charge)] else state.charges }
      else none
    | _ => none
  | .call i =>
    match state.flights[i]? with
    | some ⟨request, correlationId, .admitted body admittedAt rateLimitRemaining⟩ =>
      some { state with
        flights := state.flights.set i ⟨request, correlationId, .called rateLimitRemaining⟩
        calls := state.calls ++ [⟨i, request, body, admittedAt⟩] }
    | _ => none
  | .answer i response =>
    match state.flights[i]? with
    | some ⟨request, correlationId, .called rateLimitRemaining⟩ =>
      some { state with
        flights := state.flights.set i ⟨request, correlationId, .answered true
          (response.map (service.framework.applySecurityHeaders service.settings request.path
            rateLimitRemaining))⟩ }
    | _ => none
  | .close i =>
    match state.flights[i]? with
    | some ⟨request, correlationId, .answered wasCalled response⟩ =>
      some { state with
        flights := state.flights.set i
          ⟨request, correlationId,
            .closed wasCalled (response.map (service.correlated correlationId))⟩
        inflightRequests := state.inflightRequests - 1
        httpRequests := state.httpRequests ++ [service.labels request wasCalled response] }
    | _ => none

theorem received_cases (request : HttpRequest H) :
    (∃ response, service.received request = service.rejected request response ∧
      service.framework.rejectOversizedRequest service.settings request = .rejected response) ∨
    (∃ body, service.received request = .received body ∧
      service.framework.rejectOversizedRequest service.settings request = .passed body) ∨
    service.received request = .answered false none := by
  rw [received]
  rcases service.framework.rejectOversizedRequest service.settings request with response | body | -
  · exact .inl ⟨response, rfl, rfl⟩
  · exact .inr (.inl ⟨body, rfl, rfl⟩)
  · exact .inr (.inr rfl)

theorem limited_cases (request : HttpRequest H) (body : Option (List UInt8))
    (buckets : BucketTable) (now : ℚ) :
    (∃ response, service.limited request body buckets now = service.rejected request response ∧
      (service.settings.rejectRateLimitedRequest buckets request.path
        ⟨request.clientKey, now⟩).1 = some response) ∨
    service.limited request body buckets now = .admitted body now
        (service.settings.rateLimitRemaining buckets request.path ⟨request.clientKey, now⟩) ∧
      (service.settings.rejectRateLimitedRequest buckets request.path
        ⟨request.clientKey, now⟩).1 = none := by
  rw [limited]
  rcases (service.settings.rejectRateLimitedRequest buckets request.path
    ⟨request.clientKey, now⟩).1 with _ | response
  · exact .inr ⟨rfl, rfl⟩
  · exact .inl ⟨response, rfl, rfl⟩

/-! ## What a step does -/

/-- The phases of a request follow one another. -/
inductive Advance (request : HttpRequest H) (correlationId : String) : Phase H β → Phase H β → Prop
  | receive : Advance request correlationId .accepted (service.received request)
  | limit (body : Option (List UInt8)) (buckets : BucketTable) (now : ℚ) :
      Advance request correlationId (.received body) (service.limited request body buckets now)
  | call (body : Option (List UInt8)) (admittedAt : ℚ) (rateLimitRemaining : Option ℤ) :
      Advance request correlationId (.admitted body admittedAt rateLimitRemaining)
        (.called rateLimitRemaining)
  | answer (rateLimitRemaining : Option ℤ) (response : Option (HttpResponse H β)) :
      Advance request correlationId (.called rateLimitRemaining) (.answered true (response.map
        (service.framework.applySecurityHeaders service.settings request.path rateLimitRemaining)))
  | close (wasCalled : Bool) (response : Option (HttpResponse H β)) :
      Advance request correlationId (.answered wasCalled response)
        (.closed wasCalled (response.map (service.correlated correlationId)))

/-- A step is a new request, or it moves one request to its next phase. -/
inductive Stepped (state : ServiceState H β) : ServiceState H β → Prop
  | accept (request : HttpRequest H) (correlationId : String)
      (hmatches : matchesRequestId correlationId = true) :
      Stepped state { state with
        flights := state.flights ++ [⟨request, correlationId, .accepted⟩]
        inflightRequests := state.inflightRequests + 1 }
  | receive (i : ℕ) (request : HttpRequest H) (correlationId : String)
      (hflight : state.flights[i]? = some ⟨request, correlationId, .accepted⟩) :
      Stepped state { state with
        flights := state.flights.set i ⟨request, correlationId, service.received request⟩ }
  | limit (i : ℕ) (request : HttpRequest H) (correlationId : String) (body : Option (List UInt8))
      (hflight : state.flights[i]? = some ⟨request, correlationId, .received body⟩) (now : ℚ)
      (hnow : state.clock ≤ now) :
      Stepped state { state with
        clock := now
        buckets := (service.settings.rejectRateLimitedRequest state.buckets request.path
          ⟨request.clientKey, now⟩).2
        flights := state.flights.set i
          ⟨request, correlationId, service.limited request body state.buckets now⟩
        charges := if service.Limits request then
            state.charges ++ [(i, ⟨request.clientKey, now⟩)] else state.charges }
  | call (i : ℕ) (request : HttpRequest H) (correlationId : String) (body : Option (List UInt8))
      (admittedAt : ℚ) (rateLimitRemaining : Option ℤ) (hflight : state.flights[i]?
        = some ⟨request, correlationId, .admitted body admittedAt rateLimitRemaining⟩) :
      Stepped state { state with
        flights := state.flights.set i ⟨request, correlationId, .called rateLimitRemaining⟩
        calls := state.calls ++ [⟨i, request, body, admittedAt⟩] }
  | answer (i : ℕ) (request : HttpRequest H) (correlationId : String)
      (rateLimitRemaining : Option ℤ)
      (hflight : state.flights[i]? = some ⟨request, correlationId, .called rateLimitRemaining⟩)
      (response : Option (HttpResponse H β)) :
      Stepped state { state with
        flights := state.flights.set i ⟨request, correlationId, .answered true (response.map
          (service.framework.applySecurityHeaders service.settings request.path
            rateLimitRemaining))⟩ }
  | close (i : ℕ) (request : HttpRequest H) (correlationId : String) (wasCalled : Bool)
      (response : Option (HttpResponse H β)) (hflight : state.flights[i]?
        = some ⟨request, correlationId, .answered wasCalled response⟩) :
      Stepped state { state with
        flights := state.flights.set i ⟨request, correlationId,
          .closed wasCalled (response.map (service.correlated correlationId))⟩
        inflightRequests := state.inflightRequests - 1
        httpRequests := state.httpRequests ++ [service.labels request wasCalled response] }

variable {service} {state state' : ServiceState H β}

theorem stepped {action : ServiceAction H β} (h : service.step state action = some state') :
    service.Stepped state state' := by
  cases action with
  | accept request uuid =>
    obtain rfl := Option.some_inj.mp h
    exact .accept request _ (matchesRequestId_requestId _ uuid)
  | receive i =>
    simp only [step] at h
    split at h
    · rename_i request correlationId hflight
      obtain rfl := Option.some_inj.mp h
      exact .receive i request correlationId hflight
    · cases h
  | limit i now =>
    simp only [step] at h
    split at h
    · rename_i request correlationId body hflight
      by_cases hnow : state.clock ≤ now
      · rw [if_pos hnow] at h
        obtain rfl := Option.some_inj.mp h
        exact .limit i request correlationId body hflight now hnow
      · rw [if_neg hnow] at h
        cases h
    · cases h
  | call i =>
    simp only [step] at h
    split at h
    · rename_i request correlationId body admittedAt rateLimitRemaining hflight
      obtain rfl := Option.some_inj.mp h
      exact .call i request correlationId body admittedAt rateLimitRemaining hflight
    · cases h
  | answer i response =>
    simp only [step] at h
    split at h
    · rename_i request correlationId rateLimitRemaining hflight
      obtain rfl := Option.some_inj.mp h
      exact .answer i request correlationId rateLimitRemaining hflight response
    · cases h
  | close i =>
    simp only [step] at h
    split at h
    · rename_i request correlationId wasCalled response hflight
      obtain rfl := Option.some_inj.mp h
      exact .close i request correlationId wasCalled response hflight
    · cases h

/-- The requests of a step: a new one, or the same with one of them in its next phase. -/
theorem Stepped.flights (h : service.Stepped state state') :
    (∃ request correlationId, matchesRequestId correlationId = true ∧
      state'.flights = state.flights ++ [⟨request, correlationId, .accepted⟩]) ∨
    ∃ i request correlationId phase phase',
      state.flights[i]? = some ⟨request, correlationId, phase⟩ ∧
      service.Advance request correlationId phase phase' ∧
      state'.flights = state.flights.set i ⟨request, correlationId, phase'⟩ := by
  cases h with
  | accept request correlationId hmatches => exact .inl ⟨request, correlationId, hmatches, rfl⟩
  | receive i request correlationId hflight =>
    exact .inr ⟨i, request, correlationId, _, _, hflight, .receive, rfl⟩
  | limit i request correlationId body hflight now =>
    exact .inr ⟨i, request, correlationId, _, _, hflight, .limit body state.buckets now, rfl⟩
  | call i request correlationId body admittedAt rateLimitRemaining hflight =>
    exact .inr ⟨i, request, correlationId, _, _, hflight,
      .call body admittedAt rateLimitRemaining, rfl⟩
  | answer i request correlationId rateLimitRemaining hflight response =>
    exact .inr ⟨i, request, correlationId, _, _, hflight, .answer rateLimitRemaining response, rfl⟩
  | close i request correlationId wasCalled response hflight =>
    exact .inr ⟨i, request, correlationId, _, _, hflight, .close wasCalled response, rfl⟩

/-- **What each phase keeps holds of every request.** -/
theorem forall_flights {P : Flight H β → Prop}
    (haccepted : ∀ request correlationId, matchesRequestId correlationId = true →
      P ⟨request, correlationId, .accepted⟩)
    (hadvance : ∀ {request correlationId phase phase'},
      service.Advance request correlationId phase phase' → P ⟨request, correlationId, phase⟩ →
      P ⟨request, correlationId, phase'⟩)
    {actions : List (ServiceAction H β)}
    (h : run service.step (.initial H β) actions = some state) :
    ∀ flight ∈ state.flights, P flight := by
  refine run_invariant (P := fun state ↦ ∀ flight ∈ state.flights, P flight) ?_ ?_ h
  · intro state action state' hall hstep flight hmem
    rcases (stepped hstep).flights with ⟨request, correlationId, hmatches, heq⟩
      | ⟨i, request, correlationId, phase, phase', hflight, hphase, heq⟩
    · rw [heq] at hmem
      rcases List.mem_append.mp hmem with hmem | hmem
      · exact hall flight hmem
      · rw [List.mem_singleton.mp hmem]
        exact haccepted request correlationId hmatches
    · rw [heq] at hmem
      rcases List.mem_or_eq_of_mem_set hmem with hmem | rfl
      · exact hall flight hmem
      · exact hadvance hphase (hall _ (List.mem_of_getElem? hflight))
  · intro flight hmem
    cases hmem

/-! ## A run -/

/-- A service that gives a token a second and takes four bytes. -/
def sample : Service (List (String × String)) String where
  framework := { fieldList with
    detailHeaders := fun _ ↦ [("content-type", "application/json")]
    detailBody := id
    decimal := fun _ ↦ none }
  settings := { SecuritySettings.sample 1 2 Nat.one_pos Nat.two_pos with
    maxRequestBytes := 4
    maxRequestBytes_pos := by decide }
  route _ := none

def sampleRequest (method : String) (chunks : List (List UInt8)) :
    HttpRequest (List (String × String)) where
  method := method
  path := "/v1/moderate"
  headers := [("X-Request-Id", "a b")]
  host := some "a"
  chunks := chunks
  complete := true

/-- Five requests at once: the endpoint answers the first one with a header of its own, the second
one is refused by the limiter and the third one for its size. The endpoint of the fourth one raises,
and the client of the last one goes away. -/
def sampleActions : List (ServiceAction (List (String × String)) String) :=
  [.accept (sampleRequest "POST" [[1], [2, 3]]) 0, .accept (sampleRequest "GET" []) 1,
    .accept (sampleRequest "POST" [[1, 2, 3], [4, 5]]) 2, .receive 0, .receive 1, .limit 0 1,
    .receive 2, .limit 1 1, .close 1, .call 0, .accept (sampleRequest "GET" []) 3, .close 2,
    .accept { sampleRequest "POST" [[1]] with complete := false } 4, .receive 3, .limit 3 3,
    .receive 4, .call 3, .answer 0 (some ⟨200, [("cache-control", "public")], "allow"⟩), .close 4,
    .answer 3 none, .close 0, .close 3]

theorem sampleActions_possible :
    (run sample.step (.initial _ _) sampleActions).isSome = true := by decide +kernel

end Service

end Sentinel
