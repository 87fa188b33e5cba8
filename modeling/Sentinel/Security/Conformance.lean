import Sentinel.Buckets.Conformance
import Sentinel.Security.Pruning

/-!
# Clients that keep to their budget

A client is refused exactly if it asks for more than its budget in some stretch of time, whatever
the other clients do. Others use other buckets, so what a client gets is what a bucket of its own
would give that is never forgotten: the simulation by the ideal limiter, looked at from one key. It
needs that the client is never sent to the overflow bucket, which it would share; where the others
are sent makes no difference.
-/

namespace Sentinel

open Collections Buckets

/-- Whether the requests of the client were allowed, in order. -/
def answersTo (client : String) (outcomes : List RateOutcome) : List Bool :=
  (outcomes.filter fun outcome ↦ outcome.request.clientKey = client).map (·.answer.allowed)

/-- The times of the requests of the client. -/
def timesOf (client : String) (trace : List RateRequest) : List ℚ :=
  (trace.filter fun request ↦ request.clientKey = client).map (·.now)

theorem answersTo_cons (client : String) (outcome : RateOutcome) (outcomes : List RateOutcome) :
    answersTo client (outcome :: outcomes) = if outcome.request.clientKey = client then
      outcome.answer.allowed :: answersTo client outcomes else answersTo client outcomes := by
  rw [answersTo, List.filter_cons]
  split_ifs with hkey hkey' hkey'
  · rfl
  · exact absurd (of_decide_eq_true hkey) hkey'
  · exact absurd (decide_eq_true hkey') hkey
  · rfl

theorem timesOf_cons (client : String) (request : RateRequest) (trace : List RateRequest) :
    timesOf client (request :: trace) = if request.clientKey = client then
      request.now :: timesOf client trace else timesOf client trace := by
  rw [timesOf, List.filter_cons]
  split_ifs with hkey hkey' hkey'
  · rfl
  · exact absurd (of_decide_eq_true hkey) hkey'
  · exact absurd (decide_eq_true hkey') hkey
  · rfl

namespace SecuritySettings

variable {settings : SecuritySettings} {table : BucketTable} {bank : String → TokenBucket}
  {request : RateRequest} {trace : List RateRequest} {now : ℚ} {client : String}

/-- The table has room whenever the client comes. -/
def HasRoomFor (settings : SecuritySettings) (client : String) (trace : List RateRequest) : Prop :=
  Transition.Along settings.step
    (fun table request ↦ request.clientKey = client → ¬settings.Overflows table request)
    Dict.empty trace

instance (trace : List RateRequest) : Decidable (settings.HasRoomFor client trace) :=
  Transition.decidableAlong _ _

theorem settle_fst_allowed (bucket : TokenBucket) :
    (settings.settle bucket now).1.allowed = (settings.flow.ask bucket now).1 := by
  rw [Bool.eq_iff_iff, settle_allowed, Flow.ask_granted]

/-- **A client has a bucket of its own**, to which the requests of the others do nothing. -/
theorem answersTo_outcomes (hclient : client ≠ overflowKey) (htimed : Timed trace)
    (h : settings.Banked now table bank) (hlater : ∀ request ∈ trace, now ≤ request.now)
    (hroom : Transition.Along settings.step
      (fun table request ↦ request.clientKey = client → ¬settings.Overflows table request)
      table trace) :
    answersTo client (settings.outcomes table trace)
      = settings.flow.answers (bank client) (timesOf client trace) := by
  induction trace generalizing now table bank with
  | nil => rfl
  | cons request trace ih =>
    obtain ⟨hfirst, hrest⟩ := List.pairwise_cons.mp htimed
    obtain ⟨hanswer, hnext⟩ := (h.mono (hlater request List.mem_cons_self)).tableAfter
    have hbank := settings.bankAfter_charge bank (settings.outcome table request) client
    have htail := ih hrest hnext hfirst (hroom.2 _ rfl)
    rw [outcomes, answersTo_cons, timesOf_cons, htail]
    by_cases hkey : request.clientKey = client
    · have hcharged : (settings.outcome table request).chargedKey = client :=
        (chargedKey_of_not_overflows (hroom.1 hkey)).trans hkey
      rw [if_pos hcharged.symm] at hbank
      rw [if_pos (show (settings.outcome table request).request.clientKey = client from hkey),
        if_pos hkey, Flow.answers, hanswer, settle_fst_allowed, hcharged, hbank]
      rfl
    · have hcharged : client ≠ (settings.outcome table request).chargedKey := by
        rcases settings.chargedKey_eq_or table request with hown | hoverflow
        · exact hown ▸ Ne.symm hkey
        · exact hoverflow ▸ hclient
      rw [if_neg hcharged] at hbank
      rw [if_neg (show (settings.outcome table request).request.clientKey ≠ client from hkey),
        if_neg hkey, hbank]

/-- **A client is never refused exactly if it keeps to its budget**, whatever the others do. -/
theorem served_iff_conforms (settings : SecuritySettings) (trace : List RateRequest)
    (htimed : Timed trace) (client : String) (hclient : client ≠ overflowKey)
    (hroom : settings.HasRoomFor client trace) :
    (∀ outcome ∈ settings.outcomes Dict.empty trace, outcome.request.clientKey = client →
      outcome.answer.allowed = true) ↔ settings.flow.Conforms (timesOf client trace) := by
  have hanswers : answersTo client (settings.outcomes Dict.empty trace)
      = settings.flow.answers (settings.fullBank client) (timesOf client trace) := by
    cases trace with
    | nil => rfl
    | cons request trace =>
      have hbegin : settings.Banked request.now Dict.empty settings.fullBank := banked_empty
      exact answersTo_outcomes hclient htimed hbegin
        (List.forall_mem_cons.mpr ⟨le_rfl, (List.pairwise_cons.mp htimed).1⟩) hroom
  have hsorted : (timesOf client trace).Pairwise (· ≤ ·) :=
    List.pairwise_map.mpr (htimed.filter _)
  have hfull : ∀ t, settings.flow.level (settings.fullBank client) t = settings.flow.capacity :=
    fun t ↦ Flow.level_full
  rw [← Flow.granted_iff_conforms hfull hsorted, ← hanswers, answersTo]
  simp only [List.forall_mem_map, List.mem_filter, decide_eq_true_eq, and_imp]

/-- Requests once a second, beside a client that floods. -/
def floodTrace : List RateRequest :=
  [⟨"a", 0⟩, ⟨"b", 0⟩, ⟨"b", 0⟩, ⟨"a", 1⟩, ⟨"b", 1⟩, ⟨"a", 2⟩]

theorem floodTrace_room :
    (SecuritySettings.sample 1 2 one_pos two_pos).HasRoomFor "a" floodTrace := by decide +kernel

theorem floodTrace_allowed : ∀ outcome ∈
    (SecuritySettings.sample 1 2 one_pos two_pos).outcomes Dict.empty floodTrace,
      outcome.request.clientKey = "a" → outcome.answer.allowed = true := by decide +kernel

theorem served_iff_conforms_sample :
    (SecuritySettings.sample 1 2 one_pos two_pos).flow.Conforms (timesOf "a" floodTrace) :=
  (served_iff_conforms (SecuritySettings.sample 1 2 one_pos two_pos) floodTrace
    (by decide +kernel) "a" (by decide) floodTrace_room).mp floodTrace_allowed

end SecuritySettings

end Sentinel
