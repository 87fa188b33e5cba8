import Mathlib.Algebra.Order.Ring.Rat
import Mathlib.Data.Rat.Floor
import Sentinel.Buckets.TokenBucket
import Sentinel.Collections.Dict

/-!
# The rate limiter

The part of `ProductionSecurityMiddleware` that limits requests. A client has a bucket of its own
in the table; a client that is new first lets the table forget the buckets that have been idle, and
takes the one overflow bucket where the table is full nevertheless. Times and tokens are exact
rationals in place of floats. Requests are taken one after the other, as the lock makes them, each
with its reading of the clock.

What is asked of a bucket is a matter of its level, which is that of `Buckets.TokenBucket`. The
table adds to it where the bucket comes from: `route` finds it and `held` is what is found. A bucket
that the table has forgotten was full, so all that forgetting changes is the size of the table.
-/

namespace Sentinel

open Collections Buckets

/-- What the limiter reads of `SecuritySettings`; the environment gives positive numbers only. -/
structure SecuritySettings where
  rateLimitEnabled : Bool := false
  rateLimitRequests : ℕ := 120
  rateLimitWindowSeconds : ℕ := 60
  rateLimitMaxClients : ℕ := 10000
  /-- `_positive_integer`. -/
  requests_pos : 0 < rateLimitRequests
  window_pos : 0 < rateLimitWindowSeconds
  maxClients_pos : 0 < rateLimitMaxClients

/-- `_TokenBucket`. -/
abbrev TokenBucket := Bucket ℚ

/-- `_buckets`. -/
abbrev BucketTable := Dict String TokenBucket

/-- What `_consume_token` returns. -/
structure RateAnswer where
  allowed : Bool
  remaining : ℤ
  retryAfter : ℤ
deriving DecidableEq

/-- The key of the bucket for the clients that have none of their own. -/
def overflowKey : String := "__overflow__"

namespace SecuritySettings

variable (settings : SecuritySettings)

/-- `capacity`. -/
def capacity : ℚ := settings.rateLimitRequests

/-- `refill_per_second`. -/
def refillPerSecond : ℚ := settings.capacity / settings.rateLimitWindowSeconds

/-- `stale_after`. -/
def staleAfter : ℚ := settings.rateLimitWindowSeconds * 2

/-- `_prune_buckets`. -/
def pruneBuckets (table : BucketTable) (now : ℚ) : BucketTable :=
  table.filter fun (_, bucket) ↦ ¬settings.staleAfter < now - bucket.updatedAt

/-- The table and the key that a request goes on with. -/
def route (table : BucketTable) (clientKey : String) (now : ℚ) : BucketTable × String :=
  match table.get clientKey with
  | some _ => (table, clientKey)
  | none =>
    let table := settings.pruneBuckets table now
    if settings.rateLimitMaxClients ≤ table.items.length then (table, overflowKey)
    else (table, clientKey)

/-- `setdefault(client_key, _TokenBucket(capacity, now))`. -/
def held (table : BucketTable) (key : String) (now : ℚ) : TokenBucket :=
  (table.get key).getD ⟨settings.capacity, now⟩

/-- `_consume_token` from `elapsed` on. -/
def settle (bucket : TokenBucket) (now : ℚ) : RateAnswer × TokenBucket :=
  let elapsed := max 0 (now - bucket.updatedAt)
  let tokens := min settings.capacity (bucket.tokens + elapsed * settings.refillPerSecond)
  if tokens < 1 then
    (⟨false, 0, max 1 ⌈(1 - tokens) / settings.refillPerSecond⌉⟩, ⟨tokens, now⟩)
  else (⟨true, ⌊tokens - 1⌋, 0⟩, ⟨tokens - 1, now⟩)

/-- `_consume_token`, with the table after it. -/
def consumeToken (table : BucketTable) (clientKey : String) (now : ℚ) : RateAnswer × BucketTable :=
  let (table, key) := settings.route table clientKey now
  let (answer, bucket) := settings.settle (settings.held table key now) now
  (answer, table.set key bucket)

end SecuritySettings

/-! ## Requests -/

/-- A request to an endpoint that is limited: its client and the reading of the clock. -/
structure RateRequest where
  clientKey : String
  now : ℚ
deriving DecidableEq

/-- The times do not decrease. -/
def Timed (trace : List RateRequest) : Prop :=
  trace.Pairwise fun request later ↦ request.now ≤ later.now

instance : DecidablePred Timed := fun trace ↦
  inferInstanceAs (Decidable (trace.Pairwise fun request later ↦ request.now ≤ later.now))

/-- A request, the bucket that was charged for it, and the answer. -/
structure RateOutcome where
  request : RateRequest
  chargedKey : String
  answer : RateAnswer
deriving DecidableEq

namespace SecuritySettings

variable (settings : SecuritySettings)

def outcome (table : BucketTable) (request : RateRequest) : RateOutcome :=
  ⟨request, (settings.route table request.clientKey request.now).2,
    (settings.consumeToken table request.clientKey request.now).1⟩

def tableAfter (table : BucketTable) (request : RateRequest) : BucketTable :=
  (settings.consumeToken table request.clientKey request.now).2

def outcomes : BucketTable → List RateRequest → List RateOutcome
  | _, [] => []
  | table, request :: trace =>
    settings.outcome table request :: outcomes (settings.tableAfter table request) trace

theorem request_mem_of_mem_outcomes {settings : SecuritySettings} {table : BucketTable}
    {trace : List RateRequest} {outcome : RateOutcome}
    (h : outcome ∈ settings.outcomes table trace) : outcome.request ∈ trace := by
  induction trace generalizing table with
  | nil => cases h
  | cons request trace ih =>
    rcases List.mem_cons.mp h with rfl | h
    · exact List.mem_cons_self
    · exact List.mem_cons_of_mem request (ih h)

end SecuritySettings

/-- The table after a trace, from the beginning. -/
def SecuritySettings.tableOf (settings : SecuritySettings) (trace : List RateRequest) :
    BucketTable :=
  trace.foldl settings.tableAfter Dict.empty

def SecuritySettings.sample (window clients : ℕ) (hwindow : 0 < window) (hclients : 0 < clients) :
    SecuritySettings :=
  ⟨true, 1, window, clients, one_pos, hwindow, hclients⟩

/-! ## The response -/

/-- `EXEMPT_PATHS`. -/
def exemptPaths : List String := ["/health", "/health/ready", "/metrics"]

/-- A `JSONResponse` of `_error`, with the headers that are set on it. -/
structure ErrorResponse where
  statusCode : ℕ
  detail : String
  headers : List (String × String)
deriving DecidableEq

/-- `_reject_rate_limited_request`, with the table after it. -/
def SecuritySettings.rejectRateLimitedRequest (settings : SecuritySettings) (table : BucketTable)
    (path : String) (request : RateRequest) : Option ErrorResponse × BucketTable :=
  if settings.rateLimitEnabled = false ∨ path ∈ exemptPaths then (none, table)
  else
    let (answer, table) := settings.consumeToken table request.clientKey request.now
    if answer.allowed then (none, table)
    else
      (some
        { statusCode := 429
          detail := "request rate limit exceeded"
          headers :=
            [("Retry-After", toString answer.retryAfter),
              ("RateLimit-Limit", toString settings.rateLimitRequests),
              ("RateLimit-Remaining", "0"),
              ("RateLimit-Reset", toString answer.retryAfter)] }, table)

/-! ## Levels -/

namespace SecuritySettings

variable (settings : SecuritySettings)

theorem one_le_capacity : 1 ≤ settings.capacity := by
  rw [capacity]
  exact_mod_cast settings.requests_pos

theorem window_cast_pos : (0 : ℚ) < settings.rateLimitWindowSeconds := by
  exact_mod_cast settings.window_pos

def flow : Flow ℚ where
  capacity := settings.capacity
  rate := settings.refillPerSecond
  one_le_capacity := settings.one_le_capacity
  rate_pos := div_pos (zero_lt_one.trans_le settings.one_le_capacity) settings.window_cast_pos

theorem window_mul_rate :
    settings.rateLimitWindowSeconds * settings.flow.rate = settings.capacity :=
  mul_div_cancel₀ _ settings.window_cast_pos.ne'

variable {settings} {table : BucketTable} {bucket : TokenBucket} {key clientKey : String}
  {now t : ℚ}

theorem settle_eq : settings.settle bucket now
    = (if settings.flow.level bucket now < 1 then
          ⟨false, 0, max 1 ⌈(1 - settings.flow.level bucket now) / settings.flow.rate⌉⟩
        else ⟨true, ⌊settings.flow.level bucket now - 1⌋, 0⟩,
      (settings.flow.ask bucket now).2) := by
  rcases lt_or_ge (settings.flow.level bucket now) 1 with h | h
  · rw [Flow.ask_of_lt h, if_pos h]
    exact if_pos h
  · rw [Flow.ask_of_le h, if_neg (not_lt.mpr h)]
    exact if_neg (not_lt.mpr h)

theorem settle_snd : (settings.settle bucket now).2 = (settings.flow.ask bucket now).2 := by
  rw [settle_eq]

theorem settle_congr {bucket' : TokenBucket}
    (h : settings.flow.level bucket now = settings.flow.level bucket' now) :
    settings.settle bucket now = settings.settle bucket' now := by
  rw [settle_eq, settle_eq, Flow.ask, Flow.ask, h]

theorem settle_allowed :
    (settings.settle bucket now).1.allowed = true ↔ 1 ≤ settings.flow.level bucket now := by
  rw [settle_eq]
  split_ifs with h
  · exact iff_of_false id (not_le.mpr h)
  · exact iff_of_true rfl (not_lt.mp h)

/-- The level that the bucket with the key has, or will have when it is made. -/
def levelAt (settings : SecuritySettings) (table : BucketTable) (key : String) (now : ℚ) : ℚ :=
  settings.flow.level (settings.held table key now) now

theorem levelAt_of_get_eq_none (h : table.get key = none) :
    settings.levelAt table key now = settings.capacity := by
  rw [levelAt, held, h, Option.getD_none]
  exact Flow.level_full

theorem levelAt_of_get_eq_some (h : table.get key = some bucket) :
    settings.levelAt table key now = settings.flow.level bucket now := by
  rw [levelAt, held, h, Option.getD_some]

theorem levelAt_le_capacity (settings : SecuritySettings) (table : BucketTable) (key : String)
    (now : ℚ) : settings.levelAt table key now ≤ settings.capacity :=
  Flow.level_le_capacity _ _ _

/-! ## The table -/

def Sound (settings : SecuritySettings) (now : ℚ) (table : BucketTable) : Prop :=
  ∀ key bucket, table.get key = some bucket →
    0 ≤ bucket.tokens ∧ bucket.tokens ≤ settings.capacity ∧ bucket.updatedAt ≤ now

theorem sound_empty : settings.Sound now Dict.empty := by
  intro key bucket h
  cases h

theorem Sound.mono (h : settings.Sound now table) (hle : now ≤ t) : settings.Sound t table :=
  fun key bucket hget ↦
    ⟨(h key bucket hget).1, (h key bucket hget).2.1, (h key bucket hget).2.2.trans hle⟩

theorem Sound.levelAt_nonneg (h : settings.Sound now table) (key : String) (t : ℚ) :
    0 ≤ settings.levelAt table key t := by
  refine Flow.level_nonneg ?_
  rw [held]
  cases hget : table.get key with
  | none => exact zero_le_one.trans settings.one_le_capacity
  | some bucket => exact (h key bucket hget).1

theorem Sound.levelAt_le_add (h : settings.Sound now table) (hle : now ≤ t) :
    settings.levelAt table key t
      ≤ settings.levelAt table key now + (t - now) * settings.flow.rate := by
  cases hget : table.get key with
  | none =>
    rw [levelAt_of_get_eq_none hget, levelAt_of_get_eq_none hget]
    exact le_add_of_nonneg_right (mul_nonneg (sub_nonneg.mpr hle) settings.flow.rate_pos.le)
  | some bucket =>
    rw [levelAt_of_get_eq_some hget, levelAt_of_get_eq_some hget]
    exact Flow.level_le_add (h key bucket hget).2.2 hle

theorem get_pruneBuckets : (settings.pruneBuckets table now).get key
    = (table.get key).filter fun bucket ↦ ¬settings.staleAfter < now - bucket.updatedAt :=
  Dict.get_filter

/-- A stale bucket is full, and more than twice over. -/
theorem two_mul_capacity_lt_of_stale (h : settings.staleAfter < now - bucket.updatedAt) :
    2 * settings.capacity < (now - bucket.updatedAt) * settings.flow.rate := by
  have hlt := mul_lt_mul_of_pos_right h settings.flow.rate_pos
  have hwindow := settings.window_mul_rate
  rw [staleAfter] at hlt
  linarith

/-- **Pruning does not change what a bucket would give.** -/
theorem Sound.level_of_stale (h : settings.Sound now table) (hget : table.get key = some bucket)
    (hstale : settings.staleAfter < now - bucket.updatedAt) (hle : now ≤ t) :
    settings.flow.level bucket t = settings.capacity := by
  refine Flow.level_eq_capacity (h key bucket hget).1 ?_
  have hlt := two_mul_capacity_lt_of_stale hstale
  have hcapacity := settings.one_le_capacity
  have hmono : (now - bucket.updatedAt) * settings.flow.rate
      ≤ (t - bucket.updatedAt) * settings.flow.rate :=
    mul_le_mul_of_nonneg_right (sub_le_sub_right hle _) settings.flow.rate_pos.le
  show settings.capacity ≤ _
  linarith

/-! ## Where a bucket comes from -/

/-- The three ways of a request. -/
inductive Routed (settings : SecuritySettings) (table : BucketTable) (clientKey : String)
    (now : ℚ) : BucketTable × String → Prop
  | stored (bucket : TokenBucket) (hget : table.get clientKey = some bucket) :
      Routed settings table clientKey now (table, clientKey)
  | created (hget : table.get clientKey = none)
      (hroom : (settings.pruneBuckets table now).items.length < settings.rateLimitMaxClients) :
      Routed settings table clientKey now (settings.pruneBuckets table now, clientKey)
  | overflow (hget : table.get clientKey = none)
      (hfull : settings.rateLimitMaxClients ≤ (settings.pruneBuckets table now).items.length) :
      Routed settings table clientKey now (settings.pruneBuckets table now, overflowKey)

theorem routed (settings : SecuritySettings) (table : BucketTable) (clientKey : String) (now : ℚ) :
    Routed settings table clientKey now (settings.route table clientKey now) := by
  rw [route]
  cases hget : table.get clientKey with
  | some bucket => exact .stored bucket hget
  | none =>
    simp only
    split_ifs with hfull
    · exact .overflow hget hfull
    · exact .created hget (not_le.mp hfull)

/-- A bucket is still there, or it was stale and has been forgotten. -/
theorem get_route (settings : SecuritySettings) (table : BucketTable) (clientKey : String)
    (now : ℚ) (key : String) : (settings.route table clientKey now).1.get key = table.get key ∨
    ∃ bucket, table.get key = some bucket ∧ settings.staleAfter < now - bucket.updatedAt ∧
      (settings.route table clientKey now).1.get key = none := by
  have hpruned : (settings.pruneBuckets table now).get key = table.get key ∨
      ∃ bucket, table.get key = some bucket ∧ settings.staleAfter < now - bucket.updatedAt ∧
        (settings.pruneBuckets table now).get key = none := by
    rw [get_pruneBuckets]
    cases hget : table.get key with
    | none => exact .inl rfl
    | some bucket =>
      by_cases hstale : settings.staleAfter < now - bucket.updatedAt
      · refine .inr ⟨bucket, rfl, hstale, ?_⟩
        simp [Option.filter, hstale]
      · refine .inl ?_
        simp [Option.filter, hstale]
  have hrouted := settings.routed table clientKey now
  generalize settings.route table clientKey now = found at hrouted
  cases hrouted with
  | stored => exact .inl rfl
  | created => exact hpruned
  | overflow => exact hpruned

theorem Sound.route (h : settings.Sound now table) (clientKey : String) :
    settings.Sound now (settings.route table clientKey now).1 := by
  intro key bucket hget
  rcases settings.get_route table clientKey now key with hsame | ⟨-, -, -, hnone⟩
  · exact h key bucket (hsame ▸ hget)
  · rw [hnone] at hget
    cases hget

theorem Sound.levelAt_route (h : settings.Sound now table) (clientKey key : String)
    (hle : now ≤ t) : settings.levelAt (settings.route table clientKey now).1 key t
      = settings.levelAt table key t := by
  rcases settings.get_route table clientKey now key with hsame | ⟨bucket, hget, hstale, hnone⟩
  · rw [levelAt, levelAt, held, held, hsame]
  · rw [levelAt_of_get_eq_none hnone, levelAt_of_get_eq_some hget, h.level_of_stale hget hstale hle]

/-! ## One request -/

variable {request : RateRequest}

theorem chargedKey_eq_or (settings : SecuritySettings) (table : BucketTable)
    (request : RateRequest) : (settings.outcome table request).chargedKey = request.clientKey ∨
      (settings.outcome table request).chargedKey = overflowKey := by
  show (settings.route table request.clientKey request.now).2 = request.clientKey ∨
    (settings.route table request.clientKey request.now).2 = overflowKey
  have hrouted := settings.routed table request.clientKey request.now
  generalize settings.route table request.clientKey request.now = found at hrouted
  cases hrouted with
  | stored => exact .inl rfl
  | created => exact .inl rfl
  | overflow => exact .inr rfl

theorem get_route_eq_none
    (h : (settings.outcome table request).chargedKey ≠ request.clientKey) :
    (settings.route table request.clientKey request.now).1.get request.clientKey = none := by
  have hkey : (settings.route table request.clientKey request.now).2 ≠ request.clientKey := h
  have hrouted := settings.routed table request.clientKey request.now
  generalize settings.route table request.clientKey request.now = found at hrouted hkey
  cases hrouted with
  | stored => exact absurd rfl hkey
  | created => exact absurd rfl hkey
  | overflow hget =>
    rw [get_pruneBuckets, hget]
    rfl

/-- The table after a request: the bucket that was charged, and what pruning has left. -/
theorem get_tableAfter (settings : SecuritySettings) (table : BucketTable)
    (request : RateRequest) (key : String) : (settings.tableAfter table request).get key
    = if key = (settings.outcome table request).chargedKey then
        some (settings.flow.ask (settings.held
          (settings.route table request.clientKey request.now).1
          (settings.outcome table request).chargedKey request.now) request.now).2
      else (settings.route table request.clientKey request.now).1.get key := by
  rw [tableAfter, consumeToken]
  simp only
  rw [Dict.get_set, settle_eq]
  rfl

theorem outcome_answer (settings : SecuritySettings) (table : BucketTable)
    (request : RateRequest) : (settings.outcome table request).answer
      = (settings.settle (settings.held (settings.route table request.clientKey request.now).1
        (settings.outcome table request).chargedKey request.now) request.now).1 := by
  simp only [outcome, consumeToken]

theorem outcome_allowed (h : settings.Sound request.now table) :
    (settings.outcome table request).answer.allowed = true ↔
      1 ≤ settings.levelAt table (settings.outcome table request).chargedKey request.now := by
  rw [← h.levelAt_route request.clientKey _ le_rfl]
  exact settle_allowed

theorem Sound.tableAfter (h : settings.Sound request.now table) :
    settings.Sound request.now (settings.tableAfter table request) := by
  intro key bucket hget
  rw [get_tableAfter] at hget
  split_ifs at hget with hkey
  · obtain rfl := Option.some_inj.mp hget
    have hheld : 0 ≤ (settings.held (settings.route table request.clientKey request.now).1
        (settings.outcome table request).chargedKey request.now).tokens := by
      rw [held]
      cases hroute : (settings.route table request.clientKey request.now).1.get
          (settings.outcome table request).chargedKey with
      | none => exact zero_le_one.trans settings.one_le_capacity
      | some bucket => exact (h.route _ _ bucket hroute).1
    have hmem := settings.flow.ask_tokens_mem hheld request.now
    exact ⟨hmem.1, hmem.2, Flow.ask_updatedAt.le⟩
  · exact h.route request.clientKey key bucket hget

/-- **What a request takes**: one token of the bucket that is charged, where it is allowed. -/
theorem levelAt_tableAfter (h : settings.Sound request.now table) :
    settings.levelAt (settings.tableAfter table request) key request.now
      = settings.levelAt table key request.now
        - if key = (settings.outcome table request).chargedKey ∧
            (settings.outcome table request).answer.allowed = true then 1 else 0 := by
  rw [← h.levelAt_route request.clientKey key le_rfl]
  by_cases hkey : key = (settings.outcome table request).chargedKey
  · have hget := settings.get_tableAfter table request key
    have hallowed : (settings.outcome table request).answer.allowed = true ↔ _ := outcome_allowed h
    rw [if_pos hkey, ← hkey] at hget
    rw [← hkey, ← h.levelAt_route request.clientKey key le_rfl] at hallowed
    rw [levelAt_of_get_eq_some hget]
    have hcapacity := settings.levelAt_le_capacity
      (settings.route table request.clientKey request.now).1 key request.now
    rcases lt_or_ge (settings.levelAt (settings.route table request.clientKey request.now).1 key
        request.now) 1 with hlt | hge
    · rw [if_neg fun hall ↦ absurd (hallowed.mp hall.2) (not_le.mpr hlt), sub_zero,
        Flow.ask_of_lt hlt]
      exact Flow.level_self.trans (min_eq_right hcapacity)
    · rw [if_pos ⟨hkey, hallowed.mpr hge⟩, Flow.ask_of_le hge]
      exact Flow.level_self.trans (min_eq_right ((sub_le_self _ zero_le_one).trans hcapacity))
  · have hget := settings.get_tableAfter table request key
    rw [if_neg hkey] at hget
    rw [if_neg fun hall ↦ hkey hall.1, sub_zero, levelAt, levelAt, held, held, hget]

/-! ## What a response says -/

/-- Where requests are limited, the response is the answer of the bucket: there is one if the
request is refused, and it names the wait. -/
theorem rejectRateLimitedRequest_eq (settings : SecuritySettings) (table : BucketTable)
    {path : String} (request : RateRequest) (henabled : settings.rateLimitEnabled = true)
    (hpath : path ∉ exemptPaths) :
    (settings.rejectRateLimitedRequest table path request).2 = settings.tableAfter table request ∧
      ((settings.rejectRateLimitedRequest table path request).1 = none ↔
        (settings.outcome table request).answer.allowed = true) ∧
      ∀ response ∈ (settings.rejectRateLimitedRequest table path request).1,
        response.headers.lookup "Retry-After"
          = some (toString (settings.outcome table request).answer.retryAfter) := by
  have hlimited : ¬(settings.rateLimitEnabled = false ∨ path ∈ exemptPaths) := by
    rw [henabled]
    exact fun h ↦ h.elim Bool.noConfusion hpath
  rw [rejectRateLimitedRequest, if_neg hlimited, tableAfter, outcome]
  rcases settings.consumeToken table request.clientKey request.now with ⟨answer, table'⟩
  cases hallowed : answer.allowed with
  | true => simp [hallowed]
  | false => simp [hallowed]

end SecuritySettings

end Sentinel
