import Sentinel.Http.Headers
import Sentinel.Security.Budget
import Sentinel.Security.Bounded
import Sentinel.Text.Integers

/-!
# What the security middleware does with a request

The parts of `ProductionSecurityMiddleware.dispatch` around the rate limiter: the size of a body is
checked twice, once as it is declared and once as it arrives, and every response gets the headers.
Here each part is a function of the request and the settings. How they follow one another while
other requests are on their way is a matter of `Sentinel.Observability.Middleware`.

The header fields, and the response that `JSONResponse` makes, are those of the framework.
-/

namespace Sentinel

open Collections Buckets Http Text

/-- `SecuritySettings`, with the fields that the limiter does not read. -/
structure ServiceSettings extends SecuritySettings where
  environment : String := "development"
  docsEnabled : Bool := true
  hstsEnabled : Bool := false
  maxRequestBytes : ℕ := 8 * 1024 * 1024
  maxRequestBytes_pos : 0 < maxRequestBytes

/-- What is read of a `Request`. The body comes in chunks, and the client may go away before the
last one. -/
structure HttpRequest (H : Type*) where
  method : String
  path : String
  headers : H
  /-- `request.client.host`. -/
  host : Option String
  chunks : List (List UInt8)
  complete : Bool

/-- A `Response`. -/
structure HttpResponse (H β : Type*) where
  statusCode : ℕ
  headers : H
  body : β

structure Framework (H β : Type*) extends HeaderStore H where
  /-- The headers of `JSONResponse(content={"detail": detail})`. -/
  detailHeaders : String → H
  /-- Its body. -/
  detailBody : String → β
  /-- The decimal digits beyond ASCII, for `int`. -/
  decimal : Char → Option ℕ

variable {H β : Type*}

/-- `_client_key`. -/
def HttpRequest.clientKey (request : HttpRequest H) : String := request.host.getD "unknown"

/-- The body, if it comes to its end. -/
def HttpRequest.body (request : HttpRequest H) : List UInt8 := request.chunks.flatten

/-! ## The size of a body -/

/-- `BODY_METHODS`. -/
def bodyMethods : List String := ["POST", "PUT", "PATCH"]

/-- `_error`. -/
def errorResponse (statusCode : ℕ) (detail : String) : ErrorResponse := ⟨statusCode, detail, []⟩

/-- What `_reject_oversized_request` comes to. -/
inductive Reception
  | rejected (response : ErrorResponse)
  /-- `request._body`, where it has been read. -/
  | passed (body : Option (List UInt8))
  /-- `ClientDisconnect`. -/
  | disconnected
deriving DecidableEq

def rejectDeclared (maxRequestBytes : ℕ) (decimal : Char → Option ℕ) (contentLength : String) :
    Option ErrorResponse :=
  match readInt decimal contentLength.toList with
  | none => some (errorResponse 400 "content-length must be an integer")
  | some declaredSize =>
    if declaredSize < 0 then some (errorResponse 400 "content-length must not be negative")
    else if (maxRequestBytes : ℤ) < declaredSize then
      some (errorResponse 413 "request body exceeds the configured limit")
    else none

/-- The loop over `request.stream()`. -/
def receiveChunks (maxRequestBytes : ℕ) (complete : Bool) (chunks : List (List UInt8))
    (received : ℕ) : List (List UInt8) → Reception
  | [] => if complete then .passed (some chunks.flatten) else .disconnected
  | chunk :: stream =>
    let received := received + chunk.length
    if maxRequestBytes < received then
      .rejected (errorResponse 413 "request body exceeds the configured limit")
    else receiveChunks maxRequestBytes complete (chunks ++ [chunk]) received stream

/-- `_reject_oversized_request`. -/
def Framework.rejectOversizedRequest (framework : Framework H β) (settings : ServiceSettings)
    (request : HttpRequest H) : Reception :=
  if request.method ∉ bodyMethods then .passed none
  else
    -- an empty field counts as none
    let contentLength := (framework.get request.headers "content-length").filter (· ≠ "")
    match contentLength.bind (rejectDeclared settings.maxRequestBytes framework.decimal) with
    | some response => .rejected response
    | none => receiveChunks settings.maxRequestBytes request.complete [] 0 request.chunks

/-! ## The headers of a response -/

/-- The paths of the documentation, which need their scripts. -/
def docsPaths : List String := ["/docs", "/redoc", "/openapi.json"]

/-- The fields that every response has. -/
def fixedHeaders : List (String × String) :=
  [("X-Content-Type-Options", "nosniff"),
    ("X-Frame-Options", "DENY"),
    ("Referrer-Policy", "no-referrer"),
    ("Permissions-Policy", "camera=(), microphone=(), geolocation=()"),
    ("Cache-Control", "no-store")]

/-- The fields of a response to a request that has been charged. -/
def SecuritySettings.rateLimitHeaders (settings : SecuritySettings) :
    Option ℤ → List (String × String)
  | none => []
  | some remaining =>
    [("RateLimit-Limit", toString settings.rateLimitRequests),
      ("RateLimit-Remaining", toString remaining),
      ("RateLimit-Reset", toString settings.rateLimitWindowSeconds)]

/-- The fields that `_apply_security_headers` sets, in order. -/
def ServiceSettings.securityHeaders (settings : ServiceSettings) (path : String)
    (rateLimitRemaining : Option ℤ) : List (String × String) :=
  fixedHeaders
    ++ (if path ∈ docsPaths then []
      else [("Content-Security-Policy",
        "default-src 'none'; frame-ancestors 'none'; base-uri 'none'")])
    ++ (if settings.hstsEnabled then
      [("Strict-Transport-Security", "max-age=31536000; includeSubDomains")] else [])
    ++ settings.rateLimitHeaders rateLimitRemaining

/-- `_apply_security_headers`. -/
def Framework.applySecurityHeaders (framework : Framework H β) (settings : ServiceSettings)
    (path : String) (rateLimitRemaining : Option ℤ) (response : HttpResponse H β) :
    HttpResponse H β :=
  { response with
    headers := framework.setAll response.headers
      (settings.securityHeaders path rateLimitRemaining) }

/-- A `JSONResponse` of `_error`, as it is sent on. -/
def Framework.jsonResponse (framework : Framework H β) (response : ErrorResponse) :
    HttpResponse H β where
  statusCode := response.statusCode
  headers := framework.setAll (framework.detailHeaders response.detail) response.headers
  body := framework.detailBody response.detail

/-- What `_reject_rate_limited_request` leaves in `request.state.rate_limit_remaining`. -/
def SecuritySettings.rateLimitRemaining (settings : SecuritySettings) (table : BucketTable)
    (path : String) (request : RateRequest) : Option ℤ :=
  if settings.rateLimitEnabled = false ∨ path ∈ exemptPaths then none
  else
    let answer := (settings.consumeToken table request.clientKey request.now).1
    if answer.allowed then some answer.remaining else none

/-! ## Which bodies pass -/

variable {maxRequestBytes : ℕ} {complete : Bool}

theorem receiveChunks_eq {chunks : List (List UInt8)}
    (h : chunks.flatten.length ≤ maxRequestBytes) (stream : List (List UInt8)) :
    receiveChunks maxRequestBytes complete chunks chunks.flatten.length stream
      = if maxRequestBytes < (chunks ++ stream).flatten.length then
          .rejected (errorResponse 413 "request body exceeds the configured limit")
        else if complete then .passed (some (chunks ++ stream).flatten) else .disconnected := by
  induction stream generalizing chunks with
  | nil => rw [receiveChunks.eq_1, List.append_nil, if_neg (c := _ < _) (not_lt.mpr h)]
  | cons chunk stream ih =>
    have hlength : (chunks ++ [chunk]).flatten.length = chunks.flatten.length + chunk.length := by
      rw [List.flatten_append, List.length_append, List.flatten_singleton]
    have htotal : (chunks ++ chunk :: stream).flatten.length
        = chunks.flatten.length + chunk.length + stream.flatten.length := by
      rw [List.flatten_append, List.flatten_cons, List.length_append, List.length_append,
        add_assoc]
    rw [receiveChunks.eq_2]
    by_cases hover : maxRequestBytes < chunks.flatten.length + chunk.length
    · rw [if_pos hover, if_pos (by omega)]
    · have hroom : (chunks ++ [chunk]).flatten.length ≤ maxRequestBytes := by omega
      have hnext := ih hroom
      rw [hlength, List.append_assoc, List.singleton_append] at hnext
      rw [if_neg hover, hnext]

variable {framework : Framework H β} {settings : ServiceSettings} {request : HttpRequest H}

/-- **The loop compares the whole body with the limit**, wherever the chunks end. -/
theorem receiveChunks_nil (stream : List (List UInt8)) :
    receiveChunks maxRequestBytes complete [] 0 stream
      = if maxRequestBytes < stream.flatten.length then
          .rejected (errorResponse 413 "request body exceeds the configured limit")
        else if complete then .passed (some stream.flatten) else .disconnected :=
  receiveChunks_eq (Nat.zero_le _) stream

/-- What is handed on is the body, whole and within the limit. -/
theorem rejectOversizedRequest_passed {body : Option (List UInt8)}
    (h : framework.rejectOversizedRequest settings request = .passed body) :
    (body = none ∧ request.method ∉ bodyMethods) ∨
      (body = some request.body ∧ request.method ∈ bodyMethods ∧
        request.body.length ≤ settings.maxRequestBytes ∧ request.complete = true) := by
  rw [Framework.rejectOversizedRequest] at h
  by_cases hmethod : request.method ∈ bodyMethods
  · rw [if_neg (not_not.mpr hmethod)] at h
    rcases hdeclared : ((framework.get request.headers "content-length").filter (· ≠ "")).bind
      (rejectDeclared settings.maxRequestBytes framework.decimal) with _ | response
    · simp only [hdeclared, receiveChunks_nil] at h
      split_ifs at h with hover hcomplete
      cases h
      exact .inr ⟨rfl, hmethod, not_lt.mp hover, hcomplete⟩
    · simp only [hdeclared] at h
      cases h
  · rw [if_pos hmethod] at h
    cases h
    exact .inl ⟨rfl, hmethod⟩

/-- **An honest client is judged by its body**: a length that is declared as it is changes
nothing. -/
theorem rejectOversizedRequest_declared (hmethod : request.method ∈ bodyMethods)
    (hcomplete : request.complete = true)
    (hlength : framework.get request.headers "content-length"
      = some (String.ofList (Nat.toDigits 10 request.body.length)))
    (hdigits : (Nat.toDigits 10 request.body.length).length ≤ maxStrDigits) :
    framework.rejectOversizedRequest settings request
      = if settings.maxRequestBytes < request.body.length then
          .rejected (errorResponse 413 "request body exceeds the configured limit")
        else .passed (some request.body) := by
  have hne : String.ofList (Nat.toDigits 10 request.body.length) ≠ "" := by
    intro heq
    exact Nat.toDigits_ne_nil (String.ofList_eq_empty_iff.mp heq)
  have hdeclared : rejectDeclared settings.maxRequestBytes framework.decimal
      (String.ofList (Nat.toDigits 10 request.body.length))
      = if settings.maxRequestBytes < request.body.length then
          some (errorResponse 413 "request body exceeds the configured limit") else none := by
    rw [rejectDeclared, String.toList_ofList, readInt_toDigits framework.decimal hdigits]
    simp only [Nat.cast_lt, not_lt.mpr (Int.natCast_nonneg _), if_false]
  have hfield : (some (String.ofList (Nat.toDigits 10 request.body.length))).filter
      (fun field ↦ decide (field ≠ "")) = some (String.ofList (Nat.toDigits 10 request.body.length))
      := by
    rw [Option.filter_some, if_pos (decide_eq_true hne)]
  rw [Framework.rejectOversizedRequest, if_neg (not_not.mpr hmethod), hlength, hfield]
  simp only [Option.bind_some, hdeclared]
  rw [receiveChunks_nil, hcomplete, ← HttpRequest.body, if_pos rfl]
  split_ifs <;> rfl

/-! ## Which headers a response has -/

/-- `REQUIRED_HEADERS` of the repository's own security check. -/
def requiredHeaders : List String :=
  ["Cache-Control", "Content-Security-Policy", "Permissions-Policy", "Referrer-Policy",
    "X-Content-Type-Options", "X-Frame-Options"]

/-- The names of the fields that do not depend on the limiter. -/
def plainHeaderNames : List String :=
  ["X-Content-Type-Options", "X-Frame-Options", "Referrer-Policy", "Permissions-Policy",
    "Cache-Control", "Content-Security-Policy", "Strict-Transport-Security"]

/-- The names of the fields of the limiter. -/
def rateLimitHeaderNames : List String :=
  ["RateLimit-Limit", "RateLimit-Remaining", "RateLimit-Reset"]

theorem nodup_securityHeaderNames :
    ((plainHeaderNames ++ rateLimitHeaderNames).map folded).Nodup := by
  decide +kernel

theorem securityHeaders_eq (settings : ServiceSettings) (path : String)
    (rateLimitRemaining : Option ℤ) : settings.securityHeaders path rateLimitRemaining
      = settings.securityHeaders path none ++ settings.rateLimitHeaders rateLimitRemaining := by
  rw [ServiceSettings.securityHeaders, ServiceSettings.securityHeaders,
    SecuritySettings.rateLimitHeaders.eq_1, List.append_nil]

theorem plainHeaders_sublist (settings : ServiceSettings) (path : String) :
    ((settings.securityHeaders path none).map Prod.fst).Sublist plainHeaderNames := by
  have hnames : plainHeaderNames = (fixedHeaders.map Prod.fst ++ ["Content-Security-Policy"])
      ++ ["Strict-Transport-Security"] := rfl
  rw [ServiceSettings.securityHeaders, SecuritySettings.rateLimitHeaders, List.append_nil,
    List.map_append, List.map_append, hnames]
  refine ((List.Sublist.refl _).append ?_).append ?_
  · split_ifs
    · exact List.nil_sublist _
    · exact List.Sublist.refl _
  · split_ifs
    · exact List.Sublist.refl _
    · exact List.nil_sublist _

theorem securityHeaders_sublist (settings : ServiceSettings) (path : String)
    (rateLimitRemaining : Option ℤ) :
    ((settings.securityHeaders path rateLimitRemaining).map Prod.fst).Sublist
      (plainHeaderNames ++ rateLimitHeaderNames) := by
  rw [securityHeaders_eq, List.map_append]
  refine (plainHeaders_sublist settings path).append ?_
  cases rateLimitRemaining with
  | none => exact List.nil_sublist _
  | some => exact List.Sublist.refl _

/-- **Every field that the middleware sets is there**, whatever the response had. -/
theorem get_applySecurityHeaders {path name value : String} {rateLimitRemaining : Option ℤ}
    (h : (name, value) ∈ settings.securityHeaders path rateLimitRemaining)
    (response : HttpResponse H β) :
    framework.get (framework.applySecurityHeaders settings path rateLimitRemaining
      response).headers name = some value := by
  refine framework.get_setAll_of_some (HeaderStore.lastValue_of_mem ?_ h)
  have hnames := nodup_securityHeaderNames.sublist
    ((securityHeaders_sublist settings path rateLimitRemaining).map folded)
  rwa [List.map_map] at hnames

/-- Another field stays what it was, where the limiter has no part in the response. -/
theorem get_applySecurityHeaders_of_notMem {name : String}
    (h : folded name ∉ plainHeaderNames.map folded) (path : String)
    (response : HttpResponse H β) :
    framework.get (framework.applySecurityHeaders settings path none response).headers name
      = framework.get response.headers name := by
  refine (framework.get_setAll _ _ _).trans ?_
  rw [HeaderStore.lastValue_eq_none, Option.none_or]
  have hnames := ((plainHeaders_sublist settings path).map folded).subset
  rw [List.map_map] at hnames
  exact fun hmem ↦ h (hnames hmem)

/-- The check of the repository asks for nothing else. -/
theorem exists_requiredHeader {path name : String} (hpath : path ∉ docsPaths)
    (hname : name ∈ requiredHeaders) (rateLimitRemaining : Option ℤ) :
    ∃ value, (name, value) ∈ settings.securityHeaders path rateLimitRemaining := by
  have hsubset : requiredHeaders ⊆ fixedHeaders.map Prod.fst ++ ["Content-Security-Policy"] := by
    decide +kernel
  rw [ServiceSettings.securityHeaders, if_neg hpath]
  rcases List.mem_append.mp (hsubset hname) with hfixed | hpolicy
  · obtain ⟨⟨_, value⟩, hmem, rfl⟩ := List.mem_map.mp hfixed
    exact ⟨value, by simp [hmem]⟩
  · rw [List.mem_singleton] at hpolicy
    subst hpolicy
    exact ⟨_, List.mem_append_left _ (List.mem_append_left _
      (List.mem_append_right _ List.mem_cons_self))⟩

end Sentinel
