import Sentinel.Observability.Middleware

/-!
# What every response says

The headers of the responses that the middleware returns, in every order in which requests take
their turns and whatever the endpoints answer. An endpoint may set the same fields; the middleware
sets them afterwards. What a client is told about its budget is in range. An endpoint that raises
leaves the middleware without a response, and nothing is promised of what the server sends instead.
-/

namespace Sentinel

open Collections Buckets Http Text Transition

/-! ## The limiter's part -/

namespace SecuritySettings

variable {settings : SecuritySettings} {buckets : BucketTable} {path : String}
  {charge : RateRequest}

theorem one_le_retryAfter (h : (settings.outcome buckets charge).answer.allowed = false) :
    1 ≤ (settings.outcome buckets charge).answer.retryAfter := by
  rw [outcome_answer, settle_eq] at h ⊢
  split_ifs at h ⊢
  exact le_max_left _ _

def refusalHeaders (settings : SecuritySettings) (seconds : ℤ) : List (String × String) :=
  [("Retry-After", toString seconds), ("RateLimit-Limit", toString settings.rateLimitRequests),
    ("RateLimit-Remaining", "0"), ("RateLimit-Reset", toString seconds)]

theorem rejectRateLimitedRequest_cases (settings : SecuritySettings) (buckets : BucketTable)
    (path : String) (charge : RateRequest) :
    ((settings.rejectRateLimitedRequest buckets path charge).1 = none ∧
      (settings.rateLimitEnabled = true → path ∉ exemptPaths →
        ∃ remaining : ℤ, settings.rateLimitRemaining buckets path charge = some remaining ∧
          0 ≤ remaining ∧ remaining ≤ settings.rateLimitRequests - 1)) ∨
    ∃ seconds : ℤ, 1 ≤ seconds ∧ (settings.rejectRateLimitedRequest buckets path charge).1
      = some ⟨429, "request rate limit exceeded", settings.refusalHeaders seconds⟩ := by
  have hremaining := settings.remaining_mem buckets charge
  have hretry : (settings.outcome buckets charge).answer.allowed = false →
      1 ≤ (settings.outcome buckets charge).answer.retryAfter := one_le_retryAfter
  rw [outcome] at hremaining hretry
  rw [rejectRateLimitedRequest, rateLimitRemaining]
  by_cases hexempt : settings.rateLimitEnabled = false ∨ path ∈ exemptPaths
  · rw [if_pos hexempt]
    refine .inl ⟨rfl, fun henabled hpath ↦ ?_⟩
    rcases hexempt with hdisabled | hmem
    · exact absurd (henabled.symm.trans hdisabled) (by decide)
    · exact absurd hmem hpath
  · rw [if_neg hexempt, if_neg hexempt]
    generalize settings.consumeToken buckets charge.clientKey charge.now = result at *
    obtain ⟨answer, table⟩ := result
    cases hallowed : answer.allowed with
    | true => exact .inl ⟨by simp [hallowed], fun _ _ ↦ ⟨answer.remaining, by simp [hallowed],
        hremaining⟩⟩
    | false => exact .inr ⟨answer.retryAfter, hretry hallowed, by simp [hallowed, refusalHeaders]⟩

end SecuritySettings

/-! ## Responses -/

variable {H β : Type*} {service : Service H β} {request : HttpRequest H} {correlationId : String}

/-- What a client is told by a response. -/
structure Secured (service : Service H β) (request : HttpRequest H) (wasCalled : Bool)
    (response : HttpResponse H β) : Prop where
  /-- The fields of every response. -/
  fields : ∀ name value, (name, value) ∈ service.settings.securityHeaders request.path none →
    service.framework.get response.headers name = some value
  /-- What is left of the budget after a call of the endpoint. -/
  budget : wasCalled = true → service.Limits request →
    ∃ remaining : ℤ, 0 ≤ remaining ∧ remaining ≤ service.settings.rateLimitRequests - 1 ∧
      ∀ name value, (name, value) ∈ service.settings.rateLimitHeaders (some remaining) →
        service.framework.get response.headers name = some value
  /-- A refusal is one of the three, and one for the budget says how long to wait. -/
  refusal : wasCalled = false → response.statusCode = 400 ∨ response.statusCode = 413 ∨
    response.statusCode = 429 ∧ ∃ seconds : ℤ, 1 ≤ seconds ∧
      ∀ name value, (name, value) ∈ service.settings.refusalHeaders seconds →
        service.framework.get response.headers name = some value

theorem secured_of_call {rateLimitRemaining : Option ℤ}
    (hremaining : service.Limits request → ∃ remaining : ℤ,
      rateLimitRemaining = some remaining ∧ 0 ≤ remaining ∧
        remaining ≤ service.settings.rateLimitRequests - 1)
    (response : HttpResponse H β) :
    Secured service request true (service.framework.applySecurityHeaders service.settings
      request.path rateLimitRemaining response) where
  fields name value hmem := by
    refine get_applySecurityHeaders ?_ response
    rw [ServiceSettings.securityHeaders] at hmem ⊢
    rw [SecuritySettings.rateLimitHeaders, List.append_nil] at hmem
    exact List.mem_append_left _ hmem
  budget _ hlimits := by
    obtain ⟨remaining, rfl, hlow, hhigh⟩ := hremaining hlimits
    exact ⟨remaining, hlow, hhigh, fun name value hmem ↦
      get_applySecurityHeaders (List.mem_append_right _ hmem) response⟩
  refusal h := by cases h

theorem secured_of_refusal {response : ErrorResponse}
    (h : response.statusCode = 400 ∨ response.statusCode = 413 ∨
      response.statusCode = 429 ∧ ∃ seconds : ℤ, 1 ≤ seconds ∧
        response.headers = service.settings.refusalHeaders seconds) :
    Secured service request false (service.framework.applySecurityHeaders service.settings
      request.path none (service.framework.jsonResponse response)) where
  fields name value hmem := get_applySecurityHeaders hmem _
  budget h := by cases h
  refusal _ := by
    refine h.imp_right (Or.imp_right fun ⟨hstatus, seconds, hseconds, hheaders⟩ ↦
      ⟨hstatus, seconds, hseconds, fun name value hmem ↦ ?_⟩)
    have hother : ∀ name ∈ (service.settings.refusalHeaders seconds).map Prod.fst,
        folded name ∉ plainHeaderNames.map folded := by
      have hnames : (service.settings.refusalHeaders seconds).map Prod.fst
          = ["Retry-After", "RateLimit-Limit", "RateLimit-Remaining", "RateLimit-Reset"] := rfl
      rw [hnames]
      decide +kernel
    have hnodup : ((service.settings.refusalHeaders seconds).map
        fun update ↦ folded update.1).Nodup := by
      have hnames : (service.settings.refusalHeaders seconds).map (fun update ↦ folded update.1)
          = ["Retry-After", "RateLimit-Limit", "RateLimit-Remaining", "RateLimit-Reset"].map folded
          := rfl
      rw [hnames]
      decide +kernel
    rw [get_applySecurityHeaders_of_notMem (hother name (List.mem_map_of_mem hmem)),
      Framework.jsonResponse, hheaders]
    exact service.framework.get_setAll_of_some (HeaderStore.lastValue_of_mem hnodup hmem)

theorem folded_requestId_notMem : folded "X-Request-ID" ∉
    (plainHeaderNames ++ rateLimitHeaderNames ++ ["Retry-After"]).map folded := by
  decide +kernel

theorem Secured.correlated {wasCalled : Bool} {response : HttpResponse H β}
    (h : Secured service request wasCalled response) (correlationId : String) :
    Secured service request wasCalled (service.correlated correlationId response) := by
  have hother : ∀ (fields : List (String × String)) {name value : String},
      fields.map Prod.fst ⊆ plainHeaderNames ++ rateLimitHeaderNames ++ ["Retry-After"] →
      (name, value) ∈ fields → service.framework.get
        (service.correlated correlationId response).headers name
        = service.framework.get response.headers name := by
    intro fields name value hsubset hmem
    refine (service.framework.get_set _ _ _ _).trans (if_neg fun heq ↦ ?_)
    have hname := hsubset (List.mem_map_of_mem (f := Prod.fst) hmem)
    exact folded_requestId_notMem (heq ▸ List.mem_map_of_mem hname)
  refine ⟨fun name value hmem ↦ ?_, fun hcalled hlimits ↦ ?_, fun hcalled ↦ ?_⟩
  · rw [hother _ (fun _ hname ↦ List.mem_append_left _ (List.mem_append_left _
      ((plainHeaders_sublist _ _).subset hname))) hmem]
    exact h.fields name value hmem
  · obtain ⟨remaining, hlow, hhigh, hfields⟩ := h.budget hcalled hlimits
    refine ⟨remaining, hlow, hhigh, fun name value hmem ↦ ?_⟩
    rw [hother (service.settings.rateLimitHeaders (some remaining))
      (fun _ hname ↦ List.mem_append_left _ (List.mem_append_right _ hname)) hmem]
    exact hfields name value hmem
  · refine (h.refusal hcalled).imp_right (Or.imp_right
      fun ⟨hstatus, seconds, hseconds, hfields⟩ ↦ ⟨hstatus, seconds, hseconds, ?_⟩)
    intro name value hmem
    have hnames : (service.settings.refusalHeaders seconds).map Prod.fst
        ⊆ plainHeaderNames ++ rateLimitHeaderNames ++ ["Retry-After"] := by
      show ["Retry-After", "RateLimit-Limit", "RateLimit-Remaining", "RateLimit-Reset"] ⊆ _
      decide +kernel
    rw [hother _ hnames hmem]
    exact hfields name value hmem

def Promised (service : Service H β) (flight : Flight H β) : Prop :=
  matchesRequestId flight.correlationId = true ∧
    match flight.phase with
    | .admitted _ _ rateLimitRemaining | .called rateLimitRemaining =>
      service.Limits flight.request → ∃ remaining : ℤ, rateLimitRemaining = some remaining ∧
        0 ≤ remaining ∧ remaining ≤ service.settings.rateLimitRequests - 1
    | .answered wasCalled (some response) => Secured service flight.request wasCalled response
    | .closed wasCalled (some response) => Secured service flight.request wasCalled response ∧
      service.framework.get response.headers "X-Request-ID" = some flight.correlationId
    | _ => True

namespace Service

theorem statusCode_of_rejectOversizedRequest {response : ErrorResponse}
    (h : service.framework.rejectOversizedRequest service.settings request = .rejected response) :
    response.statusCode = 400 ∨ response.statusCode = 413 := by
  rw [Framework.rejectOversizedRequest] at h
  split_ifs at h with hmethod
  rcases hdeclared : ((service.framework.get request.headers "content-length").filter
    (· ≠ "")).bind (rejectDeclared service.settings.maxRequestBytes service.framework.decimal)
    with _ | refusal
  · simp only [hdeclared, receiveChunks_nil] at h
    split_ifs at h
    obtain rfl := Reception.rejected.inj h
    exact .inr rfl
  · simp only [hdeclared] at h
    obtain rfl := Reception.rejected.inj h
    obtain ⟨contentLength, -, hrefusal⟩ := Option.bind_eq_some_iff.mp hdeclared
    rw [rejectDeclared] at hrefusal
    split at hrefusal
    · obtain rfl := Option.some_inj.mp hrefusal
      exact .inl rfl
    · split_ifs at hrefusal
      · obtain rfl := Option.some_inj.mp hrefusal
        exact .inl rfl
      · obtain rfl := Option.some_inj.mp hrefusal
        exact .inr rfl

/-- **Every phase keeps its promise.** -/
theorem Advance.promised {phase phase' : Phase H β}
    (h : service.Advance request correlationId phase phase')
    (hpromised : Promised service ⟨request, correlationId, phase⟩) :
    Promised service ⟨request, correlationId, phase'⟩ := by
  refine ⟨hpromised.1, ?_⟩
  cases h with
  | receive =>
    rcases service.received_cases request with ⟨response, heq, hresponse⟩ | ⟨body, heq, -⟩ | heq
    · rw [heq]
      exact secured_of_refusal ((statusCode_of_rejectOversizedRequest hresponse).imp_right .inl)
    · rw [heq]
      trivial
    · rw [heq]
      trivial
  | limit body buckets now =>
    have hcases := service.settings.rejectRateLimitedRequest_cases buckets request.path
      ⟨request.clientKey, now⟩
    rcases service.limited_cases request body buckets now with ⟨response, heq, hsome⟩ | ⟨heq, hnone⟩
    · rw [heq]
      rcases hcases with ⟨hnone, -⟩ | ⟨seconds, hseconds, hrefusal⟩
      · cases hnone.symm.trans hsome
      · obtain rfl := Option.some_inj.mp (hrefusal.symm.trans hsome)
        exact secured_of_refusal (.inr (.inr ⟨rfl, seconds, hseconds, rfl⟩))
    · rw [heq]
      rcases hcases with ⟨-, hremaining⟩ | ⟨seconds, -, hrefusal⟩
      · exact fun hlimits ↦ hremaining hlimits.1 hlimits.2
      · cases hnone.symm.trans hrefusal
  | call => exact hpromised.2
  | answer rateLimitRemaining response =>
    cases response with
    | none => trivial
    | some response => exact secured_of_call hpromised.2 response
  | close wasCalled response =>
    cases response with
    | none => trivial
    | some response =>
      have hsecured : Secured service request wasCalled response := hpromised.2
      refine ⟨hsecured.correlated correlationId, ?_⟩
      exact (service.framework.get_set _ _ _ _).trans (if_pos rfl)

theorem promised_of_run {actions : List (ServiceAction H β)} {state : ServiceState H β}
    (h : run service.step (.initial H β) actions = some state) :
    ∀ flight ∈ state.flights, Promised service flight :=
  forall_flights (fun _ _ hmatches ↦ ⟨hmatches, trivial⟩) Advance.promised h

/-- **Whatever an endpoint answers, and in whatever order requests take their turns**, a response
that the middleware returns has its fields, tells the truth about the budget, and has the id of its
request. -/
theorem responses_secured {actions : List (ServiceAction H β)} {state : ServiceState H β}
    (h : run service.step (.initial H β) actions = some state) (flight : Flight H β)
    (hflight : flight ∈ state.flights) (wasCalled : Bool) (response : HttpResponse H β)
    (hclosed : flight.phase = .closed wasCalled (some response)) :
    Secured service flight.request wasCalled response ∧
      (flight.request.path ∉ docsPaths → ∀ name ∈ requiredHeaders,
        (service.framework.get response.headers name).isSome = true) ∧
      service.framework.get response.headers "X-Request-ID" = some flight.correlationId ∧
      matchesRequestId flight.correlationId = true := by
  obtain ⟨hmatches, hphase⟩ := promised_of_run h flight hflight
  rw [hclosed] at hphase
  obtain ⟨hsecured, hcorrelated⟩ := hphase
  refine ⟨hsecured, fun hpath name hname ↦ ?_, hcorrelated, hmatches⟩
  obtain ⟨value, hmem⟩ := exists_requiredHeader hpath hname none
  rw [hsecured.fields name value hmem]
  rfl

theorem responses_secured_sample : ∃ state, run sample.step (.initial _ _) sampleActions
    = some state ∧ ∀ flight ∈ state.flights, ∀ wasCalled response,
      flight.phase = .closed wasCalled (some response) →
        Secured sample flight.request wasCalled response := by
  obtain ⟨state, h⟩ := Option.isSome_iff_exists.mp sampleActions_possible
  exact ⟨state, h, fun flight hflight wasCalled response hclosed ↦
    (responses_secured h flight hflight wasCalled response hclosed).1⟩

end Service

end Sentinel
