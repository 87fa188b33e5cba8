import Sentinel.Observability.Middleware

/-!
# What reaches an endpoint

The limiter and the size check protect the endpoints when requests overlap. In every order of steps
the table is that of the requests that were charged, in the order of the charges; a request is
charged at most once, and only after its body has been accepted. So what is admitted for a client in
an interval is within its budget. An admitted request may wait for its endpoint, so the calls are
dated by the admission of their requests; requests to exempt paths are not charged and not counted.

The invariant has two parts. `Guarded` follows each request: the phases go up, so a charge or a call
that there has been cannot come again. `grantedCount` counts: what the limiter has granted is
waiting for its endpoint or has been handed to it.
-/

namespace Sentinel

open Collections Buckets Http Text Transition

variable {H β : Type*} {service : Service H β} {state state' : ServiceState H β}

/-- How far a phase is. -/
def Phase.rank : Phase H β → ℕ
  | .accepted => 0
  | .received _ => 1
  | .admitted _ _ _ => 2
  | .called _ => 3
  | .answered _ _ => 4
  | .closed _ _ => 5

namespace Service

theorem rank_limited (service : Service H β) (request : HttpRequest H)
    (body : Option (List UInt8)) (buckets : BucketTable) (now : ℚ) :
    2 ≤ (service.limited request body buckets now).rank := by
  rcases service.limited_cases request body buckets now with ⟨response, heq, -⟩ | ⟨heq, -⟩
  · rw [heq]
    exact Nat.le_add_left 2 2
  · rw [heq]
    exact le_refl 2

theorem Advance.rank_lt {request : HttpRequest H} {correlationId : String}
    {phase phase' : Phase H β} (h : service.Advance request correlationId phase phase') :
    phase.rank < phase'.rank := by
  cases h with
  | receive =>
    rcases service.received_cases request with ⟨response, heq, -⟩ | ⟨body, heq, -⟩ | heq
    · rw [heq]
      exact Nat.succ_pos 3
    · rw [heq]
      exact Nat.one_pos
    · rw [heq]
      exact Nat.succ_pos 3
  | limit body buckets now => exact service.rank_limited request body buckets now
  | call => exact Nat.lt_succ_self 2
  | answer => exact Nat.lt_succ_self 3
  | close => exact Nat.lt_succ_self 4

theorem Stepped.getElem? (h : service.Stepped state state') {i : ℕ} {flight : Flight H β}
    (hflight : state.flights[i]? = some flight) : ∃ flight', state'.flights[i]? = some flight' ∧
      flight'.request = flight.request ∧ flight.phase.rank ≤ flight'.phase.rank := by
  have hlt : i < state.flights.length := (List.getElem?_eq_some_iff.mp hflight).1
  rcases h.flights with ⟨request, correlationId, -, heq⟩
    | ⟨j, request, correlationId, phase, phase', hother, hphase, heq⟩
  · refine ⟨flight, ?_, rfl, le_rfl⟩
    rw [heq, List.getElem?_append_left hlt, hflight]
  · by_cases hij : j = i
    · subst hij
      obtain rfl := Option.some_inj.mp (hother.symm.trans hflight)
      refine ⟨⟨request, correlationId, phase'⟩, ?_, rfl, hphase.rank_lt.le⟩
      rw [heq, List.getElem?_set_self hlt]
    · exact ⟨flight, by rw [heq, List.getElem?_set_ne hij, hflight], rfl, le_rfl⟩

/-! ## Each request -/

/-- The body that an accepted request goes on with. -/
def Passes (service : Service H β) (request : HttpRequest H) (body : Option (List UInt8)) : Prop :=
  service.framework.rejectOversizedRequest service.settings request = .passed body

/-- The body of a request that waits is one that has been accepted. -/
def Carries (service : Service H β) (flight : Flight H β) : Prop :=
  match flight.phase with
  | .received body | .admitted body _ _ => service.Passes flight.request body
  | _ => True

theorem Advance.carries {request : HttpRequest H} {correlationId : String}
    {phase phase' : Phase H β} (h : service.Advance request correlationId phase phase')
    (hcarries : service.Carries ⟨request, correlationId, phase⟩) :
    service.Carries ⟨request, correlationId, phase'⟩ := by
  cases h with
  | receive =>
    rcases service.received_cases request with ⟨response, heq, -⟩ | ⟨body, heq, hpasses⟩ | heq
    · rw [heq]
      trivial
    · rw [heq]
      exact hpasses
    · rw [heq]
      trivial
  | limit body buckets now =>
    rcases service.limited_cases request body buckets now with ⟨response, heq, -⟩ | ⟨heq, -⟩
    · rw [heq]
      trivial
    · rw [heq]
      exact hcarries
  | call => trivial
  | answer => trivial
  | close => trivial

theorem carries_of_run {actions : List (ServiceAction H β)}
    (h : run service.step (.initial H β) actions = some state) :
    ∀ flight ∈ state.flights, service.Carries flight :=
  forall_flights (fun _ _ _ ↦ trivial) Advance.carries h

/-- The charges and the calls belong to requests that are past them. -/
structure Guarded (service : Service H β) (state : ServiceState H β) : Prop where
  charged : ∀ charge ∈ state.charges, ∃ flight, state.flights[charge.1]? = some flight ∧
    2 ≤ flight.phase.rank ∧ service.Limits flight.request ∧
    charge.2.clientKey = flight.request.clientKey ∧ ∃ body, service.Passes flight.request body
  chargedOnce : (state.charges.map Prod.fst).Nodup
  called : ∀ call ∈ state.calls, ∃ flight, state.flights[call.flight]? = some flight ∧
    3 ≤ flight.phase.rank ∧ flight.request = call.request ∧ service.Passes call.request call.body
  calledOnce : (state.calls.map EndpointCall.flight).Nodup

theorem guarded_initial : service.Guarded (.initial H β) where
  charged _ h := by cases h
  chargedOnce := List.nodup_nil
  called _ h := by cases h
  calledOnce := List.nodup_nil

theorem nodup_concat {α : Type*} {history : List α} {key : α → ℕ} {i : ℕ} {x : α}
    (h : (history.map key).Nodup) (hkey : key x = i) (hnew : ∀ y ∈ history, key y ≠ i) :
    ((history ++ [x]).map key).Nodup := by
  rw [List.map_append]
  refine List.nodup_append.mpr ⟨h, List.nodup_singleton _, ?_⟩
  rintro _ hmem _ hmem' rfl
  obtain ⟨y, hy, heq⟩ := List.mem_map.mp hmem
  rw [List.map_singleton, List.mem_singleton, hkey] at hmem'
  exact hnew y hy (heq.trans hmem')

/-- **A step charges or calls for a request that was not charged or called for before.** -/
theorem Guarded.step (h : service.Guarded state) (hcarries : ∀ flight ∈ state.flights,
    service.Carries flight) (hstep : service.Stepped state state') : service.Guarded state' := by
  have hcharged : ∀ charge ∈ state.charges, ∃ flight, state'.flights[charge.1]? = some flight ∧
      2 ≤ flight.phase.rank ∧ service.Limits flight.request ∧
      charge.2.clientKey = flight.request.clientKey ∧
      ∃ body, service.Passes flight.request body := by
    intro charge hmem
    obtain ⟨flight, hflight, hrank, hlimits, hclient, hpasses⟩ := h.charged charge hmem
    obtain ⟨flight', hflight', hrequest, hle⟩ := hstep.getElem? hflight
    exact ⟨flight', hflight', hrank.trans hle, hrequest ▸ hlimits, hrequest ▸ hclient,
      hrequest ▸ hpasses⟩
  have hcalled : ∀ call ∈ state.calls, ∃ flight, state'.flights[call.flight]? = some flight ∧
      3 ≤ flight.phase.rank ∧ flight.request = call.request ∧
      service.Passes call.request call.body := by
    intro call hmem
    obtain ⟨flight, hflight, hrank, hsame, hpasses⟩ := h.called call hmem
    obtain ⟨flight', hflight', hrequest, hle⟩ := hstep.getElem? hflight
    exact ⟨flight', hflight', hrank.trans hle, hrequest.trans hsame, hpasses⟩
  cases hstep with
  | accept => exact ⟨hcharged, h.chargedOnce, hcalled, h.calledOnce⟩
  | receive => exact ⟨hcharged, h.chargedOnce, hcalled, h.calledOnce⟩
  | answer => exact ⟨hcharged, h.chargedOnce, hcalled, h.calledOnce⟩
  | close => exact ⟨hcharged, h.chargedOnce, hcalled, h.calledOnce⟩
  | limit i request correlationId body hflight now hnow =>
    by_cases hlimits : service.Limits request
    · have hnew : ∀ charge ∈ state.charges, charge.1 ≠ i := by
        rintro charge hmem rfl
        obtain ⟨flight, hflight', hrank, -⟩ := h.charged charge hmem
        obtain rfl := Option.some_inj.mp (hflight.symm.trans hflight')
        exact absurd hrank (Nat.not_succ_le_self 1)
      refine ⟨?_, ?_, hcalled, h.calledOnce⟩
      · simp only [if_pos hlimits]
        intro charge hmem
        rcases List.mem_append.mp hmem with hmem | hmem
        · exact hcharged charge hmem
        · obtain rfl := List.mem_singleton.mp hmem
          refine ⟨_, List.getElem?_set_self (List.getElem?_eq_some_iff.mp hflight).1,
            service.rank_limited request body state.buckets now, hlimits, rfl, body, ?_⟩
          exact hcarries _ (List.mem_of_getElem? hflight)
      · simp only [if_pos hlimits]
        exact nodup_concat h.chargedOnce rfl hnew
    · refine ⟨?_, ?_, hcalled, h.calledOnce⟩
      · simp only [if_neg hlimits]
        exact hcharged
      · simp only [if_neg hlimits]
        exact h.chargedOnce
  | call i request correlationId body admittedAt rateLimitRemaining hflight =>
    have hnew : ∀ call ∈ state.calls, call.flight ≠ i := by
      rintro call hmem rfl
      obtain ⟨flight, hflight', hrank, -⟩ := h.called call hmem
      obtain rfl := Option.some_inj.mp (hflight.symm.trans hflight')
      exact absurd hrank (Nat.not_succ_le_self 2)
    refine ⟨hcharged, h.chargedOnce, ?_, nodup_concat h.calledOnce rfl hnew⟩
    intro call hmem
    rcases List.mem_append.mp hmem with hmem | hmem
    · exact hcalled call hmem
    · obtain rfl := List.mem_singleton.mp hmem
      refine ⟨_, List.getElem?_set_self (List.getElem?_eq_some_iff.mp hflight).1, le_refl 3, rfl,
        ?_⟩
      exact hcarries _ (List.mem_of_getElem? hflight)

theorem guarded_of_run {actions : List (ServiceAction H β)}
    (h : run service.step (.initial H β) actions = some state) : service.Guarded state :=
  run_history (P := fun _ state ↦ service.Guarded state) guarded_initial
    (fun hrun hguarded hstep ↦ hguarded.step (carries_of_run hrun) (stepped hstep)) h

/-! ## The limiter -/

/-- The table is that of the requests that were charged, in the order of the charges. -/
structure Charged (service : Service H β) (state : ServiceState H β) : Prop where
  buckets : state.buckets = service.settings.tableOf (state.charges.map Prod.snd)
  timed : Timed (state.charges.map Prod.snd)
  past : ∀ charge ∈ state.charges.map Prod.snd, charge.now ≤ state.clock

theorem charged_initial : service.Charged (.initial H β) where
  buckets := rfl
  timed := List.Pairwise.nil
  past _ h := by cases h

theorem rejectRateLimitedRequest_snd (service : Service H β) (table : BucketTable)
    (request : HttpRequest H) (charge : RateRequest) :
    (service.settings.rejectRateLimitedRequest table request.path charge).2
      = if service.Limits request then service.settings.tableAfter table charge else table := by
  by_cases h : service.Limits request
  · rw [if_pos h, (service.settings.rejectRateLimitedRequest_eq table charge h.1 h.2).1]
  · rw [if_neg h, SecuritySettings.rejectRateLimitedRequest, if_pos]
    rw [Limits, not_and_or, Bool.not_eq_true, not_not] at h
    exact h

theorem Charged.step (h : service.Charged state) (hstep : service.Stepped state state') :
    service.Charged state' := by
  cases hstep with
  | accept => exact ⟨h.buckets, h.timed, h.past⟩
  | receive => exact ⟨h.buckets, h.timed, h.past⟩
  | call => exact ⟨h.buckets, h.timed, h.past⟩
  | answer => exact ⟨h.buckets, h.timed, h.past⟩
  | close => exact ⟨h.buckets, h.timed, h.past⟩
  | limit i request correlationId body hflight now hnow =>
    by_cases hlimits : service.Limits request
    · refine ⟨?_, ?_, ?_⟩
      · simp only [if_pos hlimits, rejectRateLimitedRequest_snd, List.map_append,
          List.map_singleton]
        rw [h.buckets, SecuritySettings.tableOf, SecuritySettings.tableOf, List.foldl_concat]
      · simp only [if_pos hlimits, List.map_append, List.map_singleton]
        refine List.pairwise_append.mpr ⟨h.timed, List.pairwise_singleton _ _, ?_⟩
        intro charge hmem later hlater
        rw [List.mem_singleton.mp hlater]
        exact (h.past charge hmem).trans hnow
      · simp only [if_pos hlimits, List.map_append, List.map_singleton, List.forall_mem_append,
          List.forall_mem_singleton, le_refl, and_true]
        exact fun charge hmem ↦ (h.past charge hmem).trans hnow
    · refine ⟨?_, ?_, ?_⟩
      · simp only [if_neg hlimits, rejectRateLimitedRequest_snd]
        exact h.buckets
      · simp only [if_neg hlimits]
        exact h.timed
      · simp only [if_neg hlimits]
        exact fun charge hmem ↦ (h.past charge hmem).trans hnow

/-! ## Counting what is granted -/

/-- A request of the client, to a path that is not exempt, that was let through by the limiter in
the interval. -/
def GrantedAt (client : String) (s e : ℚ) (request : HttpRequest H) (admittedAt : ℚ) : Prop :=
  request.clientKey = client ∧ request.path ∉ exemptPaths ∧ s ≤ admittedAt ∧ admittedAt ≤ e

instance (client : String) (s e : ℚ) (request : HttpRequest H) (admittedAt : ℚ) :
    Decidable (GrantedAt client s e request admittedAt) :=
  inferInstanceAs (Decidable (_ ∧ _))

/-- A call of an endpoint for such a request, whenever the call is made. -/
def calledFor (client : String) (s e : ℚ) (call : EndpointCall H) : Bool :=
  GrantedAt client s e call.request call.admittedAt

/-- Such a request that waits for its endpoint. -/
def waitingFor (client : String) (s e : ℚ) (flight : Flight H β) : Bool :=
  match flight.phase with
  | .admitted _ admittedAt _ => GrantedAt client s e flight.request admittedAt
  | _ => false

/-- What was granted in the interval: the calls, and the requests that wait. -/
def grantedCount (client : String) (s e : ℚ) (state : ServiceState H β) : ℕ :=
  state.calls.countP (calledFor client s e) + state.flights.countP (waitingFor client s e)

theorem outcomes_concat (settings : SecuritySettings) (table : BucketTable)
    (trace : List RateRequest) (charge : RateRequest) :
    settings.outcomes table (trace ++ [charge])
      = settings.outcomes table trace
        ++ [settings.outcome (trace.foldl settings.tableAfter table) charge] := by
  induction trace generalizing table with
  | nil => rfl
  | cons first trace ih => rw [List.cons_append, SecuritySettings.outcomes, ih]; rfl

theorem countP_set_of_getElem? {α : Type*} {l : List α} {i : ℕ} {x y : α} (p : α → Bool)
    (h : l[i]? = some x) :
    (l.set i y).countP p + (if p x then 1 else 0) = l.countP p + (if p y then 1 else 0) := by
  obtain ⟨hlt, hget⟩ := List.getElem?_eq_some_iff.mp h
  have hpos : p x = true → 0 < l.countP p :=
    fun hx ↦ List.countP_pos_iff.mpr ⟨x, List.mem_of_getElem? h, hx⟩
  rw [List.countP_set hlt, hget]
  split_ifs with hx hy
  · have := hpos hx
    omega
  · have := hpos hx
    omega
  · omega
  · omega

theorem countP_set_of_eq {α : Type*} {l : List α} {i : ℕ} {x y : α} {p : α → Bool}
    (h : l[i]? = some x) (hp : p x = p y) : (l.set i y).countP p = l.countP p := by
  have hmoved := countP_set_of_getElem? (y := y) p h
  rw [hp] at hmoved
  exact Nat.add_right_cancel hmoved

variable {client : String} {s e : ℚ}

theorem waitingFor_received (service : Service H β) (request : HttpRequest H)
    (correlationId : String) :
    waitingFor client s e ⟨request, correlationId, service.received request⟩ = false := by
  rcases service.received_cases request with ⟨response, heq, -⟩ | ⟨body, heq, -⟩ | heq
  · rw [heq]
    rfl
  · rw [heq]
    rfl
  · rw [heq]
    rfl

/-- The limiter lets a request through exactly if the charge is counted. -/
theorem waitingFor_limited {request : HttpRequest H} (hlimits : service.Limits request)
    (correlationId : String) (body : Option (List UInt8)) (buckets : BucketTable) (now : ℚ) :
    waitingFor client s e ⟨request, correlationId, service.limited request body buckets now⟩
      = decide
        (Counted client s e (service.settings.outcome buckets ⟨request.clientKey, now⟩)) := by
  have hallowed := (service.settings.rejectRateLimitedRequest_eq buckets
    ⟨request.clientKey, now⟩ hlimits.1 hlimits.2).2.1
  rw [Bool.eq_iff_iff, decide_eq_true_eq, Counted, ← hallowed]
  rcases service.limited_cases request body buckets now with ⟨response, heq, hsome⟩ | ⟨heq, hnone⟩
  · rw [heq]
    refine iff_of_false Bool.false_ne_true fun h ↦ ?_
    cases hsome.symm.trans h.2.1
  · rw [heq, waitingFor]
    simp only [decide_eq_true_eq, GrantedAt, hnone, true_and, hlimits.2, not_false_eq_true]
    exact Iff.rfl

theorem waitingFor_of_not_limits {request : HttpRequest H}
    (henabled : service.settings.rateLimitEnabled = true) (hlimits : ¬service.Limits request)
    (correlationId : String) (body : Option (List UInt8)) (buckets : BucketTable) (now : ℚ) :
    waitingFor client s e ⟨request, correlationId, service.limited request body buckets now⟩
      = false := by
  rcases service.limited_cases request body buckets now with ⟨response, heq, -⟩ | ⟨heq, -⟩
  · rw [heq]
    rfl
  · rw [heq, waitingFor]
    exact decide_eq_false fun h ↦ hlimits ⟨henabled, h.2.1⟩

/-- **What has been granted is what the limiter has given away**: nothing is granted twice and
nothing is lost between the limiter and the endpoint. -/
def Balanced (service : Service H β) (client : String) (s e : ℚ) (state : ServiceState H β) :
    Prop :=
  grantedCount client s e state
    = spent client s e (service.settings.outcomes Dict.empty (state.charges.map Prod.snd))

theorem Balanced.step (h : service.Balanced client s e state) (hcharged : service.Charged state)
    (henabled : service.settings.rateLimitEnabled = true) (hstep : service.Stepped state state') :
    service.Balanced client s e state' := by
  rw [Balanced, grantedCount] at h ⊢
  cases hstep with
  | accept request correlationId =>
    simp only [List.countP_append, List.countP_singleton, waitingFor]
    exact h
  | receive i request correlationId hflight =>
    rw [countP_set_of_eq hflight (service.waitingFor_received request correlationId).symm]
    exact h
  | limit i request correlationId body hflight now hnow =>
    have hmoved := countP_set_of_getElem?
      (y := ⟨request, correlationId, service.limited request body state.buckets now⟩)
      (waitingFor client s e) hflight
    by_cases hlimits : service.Limits request
    · rw [waitingFor_limited hlimits] at hmoved
      simp only [if_pos hlimits, List.map_append, List.map_singleton, outcomes_concat, spent_concat]
      rw [← SecuritySettings.tableOf, ← hcharged.buckets, ← h]
      simp only [decide_eq_true_eq] at hmoved
      rw [add_assoc, ← hmoved]
      rfl
    · rw [waitingFor_of_not_limits henabled hlimits] at hmoved
      simp only [if_neg hlimits]
      rw [← h, ← Nat.add_right_cancel hmoved]
  | call i request correlationId body admittedAt rateLimitRemaining hflight =>
    have hmoved := countP_set_of_getElem?
      (y := ⟨request, correlationId, .called rateLimitRemaining⟩) (waitingFor client s e) hflight
    have hcall : calledFor client s e ⟨i, request, body, admittedAt⟩ = waitingFor client s e
        (⟨request, correlationId, .admitted body admittedAt rateLimitRemaining⟩ : Flight H β) := rfl
    simp only [List.countP_append, List.countP_singleton, hcall, ← h]
    rw [add_assoc, add_left_cancel_iff, add_comm]
    exact hmoved
  | answer i request correlationId rateLimitRemaining hflight response =>
    have hmoved := countP_set_of_eq (p := waitingFor client s e) (y := ⟨request, correlationId,
      .answered true (response.map (service.framework.applySecurityHeaders service.settings
        request.path rateLimitRemaining))⟩) hflight rfl
    exact (congrArg _ hmoved).trans h
  | close i request correlationId wasCalled response hflight =>
    have hmoved := countP_set_of_eq (p := waitingFor client s e) (y := ⟨request, correlationId,
      .closed wasCalled (response.map (service.correlated correlationId))⟩) hflight rfl
    exact (congrArg _ hmoved).trans h

/-- **No client gets more admitted than its budget**, where the limiter is enabled. The calls may
come later, several at once. -/
theorem granted_le_budget {actions : List (ServiceAction H β)}
    (h : run service.step (.initial H β) actions = some state)
    (henabled : service.settings.rateLimitEnabled = true) (client : String) (s : ℚ) {d : ℚ}
    (hd : 0 ≤ d) : (grantedCount client s (s + d) state : ℚ)
      ≤ 2 * service.settings.rateLimitRequests
        + d * service.settings.rateLimitRequests / service.settings.rateLimitWindowSeconds := by
  obtain ⟨hcharged, hbalanced⟩ : service.Charged state ∧
      service.Balanced client s (s + d) state :=
    run_invariant (P := fun state ↦ service.Charged state ∧
        service.Balanced client s (s + d) state)
      (fun hP hstep ↦ ⟨hP.1.step (stepped hstep), hP.2.step hP.1 henabled (stepped hstep)⟩)
      ⟨charged_initial, rfl⟩ h
  have hspent := service.settings.spent_le hcharged.timed client
    (le_add_of_nonneg_right hd : s ≤ s + d)
  have hcost := (service.settings.moveCost_mem client s (s + d)
    (service.settings.outcomes Dict.empty (state.charges.map Prod.snd))).2
  have hrate : (s + d - s) * service.settings.flow.rate = d * service.settings.rateLimitRequests
      / service.settings.rateLimitWindowSeconds := by
    rw [add_sub_cancel_left, mul_div_assoc]
    rfl
  rw [hrate] at hspent
  rw [hbalanced]
  rw [SecuritySettings.capacity] at hspent hcost
  linarith

/-- What a service keeps in every order of steps. -/
structure Protected (service : Service H β) (state : ServiceState H β) : Prop where
  /-- An endpoint gets the whole body of a request, and it is within the limit. -/
  sized : ∀ call ∈ state.calls, ∀ body ∈ call.body,
    body = call.request.body ∧ body.length ≤ service.settings.maxRequestBytes
  calledOnce : (state.calls.map EndpointCall.flight).Nodup
  /-- Only requests whose body was accepted cost a token, and they cost one. -/
  charged : ∀ charge ∈ state.charges, ∃ flight, state.flights[charge.1]? = some flight ∧
    service.Limits flight.request ∧ charge.2.clientKey = flight.request.clientKey ∧
    ∃ body, service.Passes flight.request body
  chargedOnce : (state.charges.map Prod.fst).Nodup
  /-- The table does not grow with the clients. -/
  bounded : state.buckets.items.length ≤ service.settings.rateLimitMaxClients + 1
  /-- With rate limiting on, what is admitted for a client in an interval is within its budget. -/
  budget : service.settings.rateLimitEnabled = true → ∀ (client : String) (s d : ℚ), 0 ≤ d →
    (grantedCount client s (s + d) state : ℚ)
      ≤ 2 * service.settings.rateLimitRequests
        + d * service.settings.rateLimitRequests / service.settings.rateLimitWindowSeconds

/-- **In every order of steps** the endpoints are called for what the size check and the limiter
have let through, and for nothing else. -/
theorem protected_of_run {actions : List (ServiceAction H β)}
    (h : run service.step (.initial H β) actions = some state) : service.Protected state := by
  have hguarded := guarded_of_run h
  have hcharged : service.Charged state :=
    run_invariant (fun hP hstep ↦ hP.step (stepped hstep)) charged_initial h
  refine ⟨fun call hcall body hbody ↦ ?_, hguarded.calledOnce, fun charge hmem ↦ ?_,
    hguarded.chargedOnce, ?_, fun henabled client s d hd ↦ ?_⟩
  · obtain ⟨flight, -, -, -, hpasses⟩ := hguarded.called call hcall
    rcases rejectOversizedRequest_passed hpasses with ⟨hnone, -⟩ | ⟨hsome, -, hsize, -⟩
    · cases hnone.symm.trans hbody
    · obtain rfl := Option.some_inj.mp (hsome.symm.trans hbody)
      exact ⟨rfl, hsize⟩
  · obtain ⟨flight, hflight, -, hlimits, hclient, hpasses⟩ := hguarded.charged charge hmem
    exact ⟨flight, hflight, hlimits, hclient, hpasses⟩
  · have hclients := service.settings.length_clientKeys_tableOf (state.charges.map Prod.snd)
    have hsize := length_items_le state.buckets
    rw [← hcharged.buckets] at hclients
    omega
  · exact granted_le_budget h henabled client s hd

theorem protected_of_run_sample : ∃ state, run sample.step (.initial _ _) sampleActions
    = some state ∧ sample.Protected state := by
  obtain ⟨state, h⟩ := Option.isSome_iff_exists.mp sampleActions_possible
  exact ⟨state, h, protected_of_run h⟩

end Service

end Sentinel
