import Sentinel.Security.Admission

/-!
# What the metrics say about the requests

The gauge of the requests in flight and the counter of the responses, in every order in which
requests take their turns and whether or not their endpoints raise. Each request is counted in the
gauge until it leaves and in the counter from then on, under its own labels.
-/

namespace Sentinel

open Collections Http Transition

variable {H β : Type*} {service : Service H β} {state state' : ServiceState H β}

/-- A request that has left is counted with these labels. -/
def closedLabels (service : Service H β) (flight : Flight H β) : Option HttpLabels :=
  match flight.phase with
  | .closed wasCalled response => some (service.labels flight.request wasCalled response)
  | _ => none

/-- A request that has not left. -/
def inFlight (service : Service H β) (flight : Flight H β) : Bool :=
  (closedLabels service flight).isNone

/-- Whether a request has left with the labels. -/
def leftWith (service : Service H β) (labels : HttpLabels) (flight : Flight H β) : Bool :=
  closedLabels service flight == some labels

/-- The metrics tell where the requests are. -/
structure Metered (service : Service H β) (state : ServiceState H β) : Prop where
  gauge : state.inflightRequests = state.flights.countP (inFlight service)
  counter : ∀ labels, state.httpRequests.count labels
    = state.flights.countP (leftWith service labels)

namespace Service

theorem closedLabels_received (service : Service H β) (request : HttpRequest H)
    (correlationId : String) :
    closedLabels service ⟨request, correlationId, service.received request⟩ = none := by
  rcases service.received_cases request with ⟨response, heq, -⟩ | ⟨body, heq, -⟩ | heq
  · rw [heq]
    rfl
  · rw [heq]
    rfl
  · rw [heq]
    rfl

theorem closedLabels_limited (service : Service H β) (request : HttpRequest H)
    (correlationId : String) (body : Option (List UInt8)) (buckets : BucketTable) (now : ℚ) :
    closedLabels service ⟨request, correlationId, service.limited request body buckets now⟩
      = none := by
  rcases service.limited_cases request body buckets now with ⟨response, heq, -⟩ | ⟨heq, -⟩
  · rw [heq]
    rfl
  · rw [heq]
    rfl

theorem labels_correlated (service : Service H β) (request : HttpRequest H) (wasCalled : Bool)
    (response : Option (HttpResponse H β)) (correlationId : String) :
    service.labels request wasCalled (response.map (service.correlated correlationId))
      = service.labels request wasCalled response := by
  cases response with
  | none => rfl
  | some response => rfl

theorem metered_of_same (h : Metered service state) {i : ℕ} {flight flight' : Flight H β}
    (hflight : state.flights[i]? = some flight)
    (hsame : closedLabels service flight = closedLabels service flight')
    (hflights : state'.flights = state.flights.set i flight')
    (hgauge : state'.inflightRequests = state.inflightRequests)
    (hcounter : state'.httpRequests = state.httpRequests) : Metered service state' where
  gauge := by
    have hin : inFlight service flight = inFlight service flight' :=
      congrArg Option.isNone hsame
    rw [hgauge, hflights, countP_set_of_eq hflight hin, h.gauge]
  counter labels := by
    have hleft : leftWith service labels flight = leftWith service labels flight' :=
      congrArg (· == some labels) hsame
    rw [hcounter, hflights, countP_set_of_eq hflight hleft, h.counter]

theorem Stepped.metered (hstep : service.Stepped state state') (h : Metered service state) :
    Metered service state' := by
  cases hstep with
  | accept request correlationId =>
    refine ⟨?_, fun labels ↦ ?_⟩
    · simp only [List.countP_append, h.gauge, Nat.cast_add]
      rfl
    · simp only [List.countP_append, h.counter]
      rfl
  | receive i request correlationId hflight =>
    exact metered_of_same h hflight (service.closedLabels_received request correlationId).symm
      rfl rfl rfl
  | limit i request correlationId body hflight now =>
    exact metered_of_same h hflight
      (service.closedLabels_limited request correlationId body state.buckets now).symm rfl rfl rfl
  | call i request correlationId body admittedAt rateLimitRemaining hflight =>
    have hsame : closedLabels service
        ⟨request, correlationId, .admitted body admittedAt rateLimitRemaining⟩
          = closedLabels service ⟨request, correlationId, .called rateLimitRemaining⟩ := rfl
    exact metered_of_same h hflight hsame rfl rfl rfl
  | answer i request correlationId rateLimitRemaining hflight response =>
    exact metered_of_same h hflight (by rfl) rfl rfl rfl
  | close i request correlationId wasCalled response hflight =>
    have hlabels := service.labels_correlated request wasCalled response correlationId
    have hin := countP_set_of_getElem? (y := ⟨request, correlationId,
      .closed wasCalled (response.map (service.correlated correlationId))⟩)
      (inFlight service) hflight
    refine ⟨?_, fun labels ↦ ?_⟩
    · have hcount : ((state.flights.set i ⟨request, correlationId, .closed wasCalled
          (response.map (service.correlated correlationId))⟩).countP (inFlight service)) + 1
          = state.flights.countP (inFlight service) := hin
      show state.inflightRequests - 1 = _
      rw [h.gauge, ← hcount, Nat.cast_succ, add_sub_cancel_right]
    · have hleft := countP_set_of_getElem? (y := ⟨request, correlationId,
        .closed wasCalled (response.map (service.correlated correlationId))⟩)
        (leftWith service labels) hflight
      have hnew : leftWith service labels ⟨request, correlationId,
          .closed wasCalled (response.map (service.correlated correlationId))⟩
          = (service.labels request wasCalled response == labels) := by
        rw [← hlabels]
        exact Option.some_beq_some
      rw [hnew] at hleft
      rw [List.count_append, List.count_singleton, h.counter]
      exact hleft.symm

/-- **The gauge counts the requests that have not left, and the counter those that have**, by their
own labels. -/
theorem metered_of_run {actions : List (ServiceAction H β)}
    (h : run service.step (.initial H β) actions = some state) :
    state.inflightRequests = state.flights.countP (inFlight service) ∧
      state.httpRequests.Perm (state.flights.filterMap (closedLabels service)) ∧
      state.inflightRequests + state.httpRequests.length = state.flights.length := by
  have hmetered : Metered service state :=
    run_invariant (fun hP hstep ↦ (stepped hstep).metered hP) ⟨rfl, fun _ ↦ rfl⟩ h
  have hperm : state.httpRequests.Perm (state.flights.filterMap (closedLabels service)) := by
    rw [List.perm_iff_count]
    intro labels
    rw [hmetered.counter, List.count_filterMap]
    rfl
  refine ⟨hmetered.gauge, hperm, ?_⟩
  have hleft : state.flights.countP (fun flight ↦ !inFlight service flight)
      = state.httpRequests.length := by
    rw [hperm.length_eq, List.length_filterMap_eq_countP]
    exact List.countP_congr fun flight _ ↦ by rw [inFlight, Option.not_isNone]
  have hsplit := List.length_eq_countP_add_countP (inFlight service) (l := state.flights)
  simp only [Bool.not_eq_true, Bool.decide_eq_false, hleft] at hsplit
  rw [hmetered.gauge, hsplit, Nat.cast_add]

theorem metered_of_run_sample : ∃ state, run sample.step (.initial _ _) sampleActions
    = some state ∧ state.inflightRequests + state.httpRequests.length = state.flights.length := by
  obtain ⟨state, h⟩ := Option.isSome_iff_exists.mp sampleActions_possible
  exact ⟨state, h, (metered_of_run h).2.2⟩

end Service

end Sentinel
