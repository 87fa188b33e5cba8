import Sentinel.Security.Pruning

/-!
# The budget of a client

How many requests of one client are allowed in an interval. While a client is charged to one bucket
the usual count applies: what the bucket gives is what it held in the beginning and what has flown
in since. But a client moves. It goes from its own bucket to the overflow bucket when it has been
forgotten, and then the own bucket has had two windows to fill up, which pays for the full bucket
that it finds. It goes from the overflow bucket to a bucket of its own as soon as the table has
room, and this move is free: the new bucket is full, whatever the overflow bucket has just given.
One such move therefore costs a capacity, but the next one can only come after the client has been
forgotten again, and that pays for it.

## The invariant

`Live` says what has been given so far against the bucket that the client would be charged to: its
own one, at the time of the last look, or the overflow bucket now. Passing time and forgetting keep
it (`Live.route`), and so does a charge (`Live.charge_own`, `Live.charge_other`).
-/

namespace Sentinel

open Collections Buckets

/-! ## Counting -/

/-- A request of the client that is allowed in the interval. -/
def Counted (client : String) (s e : ℚ) (outcome : RateOutcome) : Prop :=
  outcome.request.clientKey = client ∧ outcome.answer.allowed = true ∧
    s ≤ outcome.request.now ∧ outcome.request.now ≤ e

instance (client : String) (s e : ℚ) : DecidablePred (Counted client s e) := fun outcome ↦ by
  unfold Counted
  infer_instance

/-- The number of requests of the client that are allowed in the interval. -/
def spent (client : String) (s e : ℚ) (outcomes : List RateOutcome) : ℕ :=
  outcomes.countP fun outcome ↦ Counted client s e outcome

/-- In the interval nothing is given to the client by its own bucket after the overflow bucket has
given it something. -/
def Settled (client : String) (s e : ℚ) (outcomes : List RateOutcome) : Prop :=
  (outcomes.filter fun outcome ↦ Counted client s e outcome).Pairwise fun earlier later ↦
    later.chargedKey = client → earlier.chargedKey = client

instance (client : String) (s e : ℚ) : DecidablePred (Settled client s e) := fun outcomes ↦ by
  unfold Settled
  infer_instance

/-- All that the client was given in the interval comes from its own bucket. -/
def Unmoved (client : String) (s e : ℚ) (outcomes : List RateOutcome) : Prop :=
  ∀ outcome ∈ outcomes, Counted client s e outcome → outcome.chargedKey = client

variable {client : String} {s e now t : ℚ} {past : List RateOutcome} {outcome : RateOutcome}

theorem spent_concat : spent client s e (past ++ [outcome])
    = spent client s e past + if Counted client s e outcome then 1 else 0 := by
  rw [spent, List.countP_append, List.countP_singleton, spent]
  simp only [decide_eq_true_eq]

theorem Settled.of_concat (h : Settled client s e (past ++ [outcome])) :
    Settled client s e past := by
  rw [Settled, List.filter_append] at h
  exact (List.pairwise_append.mp h).1

theorem Unmoved.of_concat (h : Unmoved client s e (past ++ [outcome])) :
    Unmoved client s e past :=
  fun earlier hmem ↦ h earlier (List.mem_append_left _ hmem)

/-- A move to the own bucket is seen, and nothing was given elsewhere before the first one. -/
theorem Settled.unmoved (h : Settled client s e (past ++ [outcome]))
    (hcounted : Counted client s e outcome) (hkey : outcome.chargedKey = client) :
    Unmoved client s e past := by
  intro earlier hmem hearlier
  rw [Settled, List.filter_append] at h
  refine (List.pairwise_append.mp h).2.2 earlier ?_ outcome ?_ hkey
  · exact List.mem_filter.mpr ⟨hmem, decide_eq_true hearlier⟩
  · exact List.mem_filter.mpr ⟨List.mem_singleton_self outcome, decide_eq_true hcounted⟩

namespace SecuritySettings

variable {settings : SecuritySettings} {table : BucketTable} {request : RateRequest}

/-- What a move to the own bucket has cost. -/
def moveCost (settings : SecuritySettings) (client : String) (s e : ℚ)
    (past : List RateOutcome) : ℚ :=
  if Settled client s e past then 0 else settings.capacity

theorem moveCost_mem (settings : SecuritySettings) (client : String) (s e : ℚ)
    (past : List RateOutcome) : 0 ≤ settings.moveCost client s e past ∧
      settings.moveCost client s e past ≤ settings.capacity := by
  have hcapacity := zero_le_one.trans settings.one_le_capacity
  rw [moveCost]
  split_ifs
  · exact ⟨le_rfl, hcapacity⟩
  · exact ⟨hcapacity, le_rfl⟩

theorem moveCost_le_concat (settings : SecuritySettings) (client : String) (s e : ℚ)
    (past : List RateOutcome) (outcome : RateOutcome) : settings.moveCost client s e past
      ≤ settings.moveCost client s e (past ++ [outcome]) := by
  by_cases h : Settled client s e (past ++ [outcome])
  · rw [moveCost, moveCost, if_pos h, if_pos h.of_concat]
  · rw [moveCost.eq_def settings client s e (past ++ [outcome]), if_neg h]
    exact (settings.moveCost_mem client s e past).2

/-! ## The invariant -/

/-- What was given so far, against the bucket that the client would be charged to. -/
structure Live (settings : SecuritySettings) (client : String) (s e : ℚ)
    (past : List RateOutcome) (table : BucketTable) (now : ℚ) : Prop where
  early : now < s → spent client s e past = 0
  /-- The own bucket was not looked at in the interval. -/
  untouched : ∀ bucket, table.get client = some bucket → bucket.updatedAt < s →
    spent client s e past = 0
  /-- The own bucket, at its last look. -/
  present : ∀ bucket, table.get client = some bucket → s ≤ bucket.updatedAt →
    spent client s e past + bucket.tokens ≤ settings.capacity
      + settings.moveCost client s e past + (bucket.updatedAt - s) * settings.flow.rate
  /-- The overflow bucket, now. -/
  absent : table.get client = none →
    spent client s e past + settings.levelAt table overflowKey now
      ≤ settings.capacity + max 0 (now - s) * settings.flow.rate
  /-- A client without a bucket that has not been given anything by the overflow bucket. -/
  unmoved : table.get client = none → Unmoved client s e past →
    spent client s e past ≤ max 0 (now - s) * settings.flow.rate

theorem live_empty : settings.Live client s e [] Dict.empty now where
  early _ := rfl
  untouched _ h := by cases h
  present _ h := by cases h
  absent _ := by
    have hlevel := settings.levelAt_le_capacity Dict.empty overflowKey now
    have hflow : 0 ≤ max 0 (now - s) * settings.flow.rate :=
      mul_nonneg (le_max_left _ _) settings.flow.rate_pos.le
    simp only [spent, List.countP_nil, Nat.cast_zero]
    linarith
  unmoved _ _ := by
    simp only [spent, List.countP_nil, Nat.cast_zero]
    exact mul_nonneg (le_max_left _ _) settings.flow.rate_pos.le

/-- **Time passes, and the table forgets.** -/
theorem Live.route (h : settings.Live client s e past table now) (hsound : settings.Sound now table)
    (hle : now ≤ t) (clientKey : String) :
    settings.Live client s e past (settings.route table clientKey t).1 t := by
  have hflow : 0 ≤ max 0 (t - s) * settings.flow.rate :=
    mul_nonneg (le_max_left _ _) settings.flow.rate_pos.le
  have hlevel := settings.levelAt_le_capacity table overflowKey t
  rw [← (hsound.mono hle).levelAt_route clientKey overflowKey le_rfl] at hlevel
  -- A bucket that is forgotten has paid for all that was given.
  have hpaid : ∀ bucket, table.get client = some bucket →
      settings.staleAfter < t - bucket.updatedAt →
      spent client s e past ≤ max 0 (t - s) * settings.flow.rate := by
    intro bucket hget hstale
    rcases lt_or_ge bucket.updatedAt s with hlt | hge
    · rw [h.untouched bucket hget hlt, Nat.cast_zero]
      exact hflow
    · have hpresent := h.present bucket hget hge
      have hcost := (settings.moveCost_mem client s e past).2
      have htwice := two_mul_capacity_lt_of_stale hstale
      have hmax : (t - s) * settings.flow.rate ≤ max 0 (t - s) * settings.flow.rate :=
        mul_le_mul_of_nonneg_right (le_max_right _ _) settings.flow.rate_pos.le
      have htokens := (hsound client bucket hget).1
      linarith [sub_mul t bucket.updatedAt settings.flow.rate,
        sub_mul bucket.updatedAt s settings.flow.rate, sub_mul t s settings.flow.rate]
  rcases settings.get_route table clientKey t client with hsame | ⟨bucket, hget, hstale, hnone⟩
  · refine ⟨fun hlt ↦ h.early (hle.trans_lt hlt),
      fun bucket hget ↦ h.untouched bucket (hsame ▸ hget),
      fun bucket hget ↦ h.present bucket (hsame ▸ hget), fun hnone ↦ ?_, fun hnone hunmoved ↦ ?_⟩
    · have habsent := h.absent (hsame ▸ hnone)
      rw [(hsound.mono hle).levelAt_route clientKey overflowKey le_rfl] at hlevel ⊢
      rcases lt_or_ge now s with hlt | hge
      · rw [h.early hlt, Nat.cast_zero]
        linarith
      · have hgrowth : settings.levelAt table overflowKey t
            ≤ settings.levelAt table overflowKey now + (t - now) * settings.flow.rate :=
          hsound.levelAt_le_add hle
        rw [max_eq_right (sub_nonneg.mpr hge)] at habsent
        rw [max_eq_right (sub_nonneg.mpr (hge.trans hle))]
        linarith [sub_mul t now settings.flow.rate, sub_mul now s settings.flow.rate,
          sub_mul t s settings.flow.rate]
    · refine (h.unmoved (hsame ▸ hnone) hunmoved).trans ?_
      exact mul_le_mul_of_nonneg_right (max_le_max le_rfl (sub_le_sub_right hle s))
        settings.flow.rate_pos.le
  · have hspent := hpaid bucket hget hstale
    refine ⟨fun hlt ↦ h.early (hle.trans_lt hlt), fun other hother ↦ ?_, fun other hother ↦ ?_,
      fun _ ↦ by linarith, fun _ _ ↦ hspent⟩
    · cases hnone.symm.trans hother
    · cases hnone.symm.trans hother

/-- Everybody is charged to the own bucket or to the overflow bucket. -/
def Charges (past : List RateOutcome) : Prop :=
  ∀ outcome ∈ past, outcome.chargedKey = outcome.request.clientKey ∨
    outcome.chargedKey = overflowKey

/-- Where a bucket of its own is made for a client that was given something by the overflow bucket,
this is a move. -/
theorem moveCost_of_created (h : Charges past)
    (hkey : (settings.outcome table request).chargedKey = client)
    (hmoved : ¬Unmoved client s e past)
    (hallowed : (settings.outcome table request).answer.allowed = true)
    (hbegin : s ≤ request.now) (hend : request.now ≤ e) :
    settings.moveCost client s e (past ++ [settings.outcome table request])
      = settings.capacity := by
  rw [moveCost, if_neg]
  intro hsettled
  by_cases hclient : request.clientKey = client
  · exact hmoved (hsettled.unmoved ⟨hclient, hallowed, hbegin, hend⟩ hkey)
  · -- a client with the key of the overflow bucket does not move
    refine hmoved fun earlier hmem hcounted ↦ ?_
    have hoverflow : overflowKey = client := by
      rcases settings.chargedKey_eq_or table request with hown | hoverflow
      · exact absurd (hown.symm.trans hkey) hclient
      · exact hoverflow.symm.trans hkey
    rcases h earlier hmem with hown | hother
    · exact hown.trans hcounted.1
    · exact hother.trans hoverflow

theorem spent_add_tokens_le (hsound : settings.Sound request.now table)
    (hkey : (settings.outcome table request).chargedKey = client) :
    spent client s e (past ++ [settings.outcome table request])
        + (settings.flow.ask (settings.held
          (settings.route table request.clientKey request.now).1 client request.now)
            request.now).2.tokens
      ≤ spent client s e past + settings.levelAt
        (settings.route table request.clientKey request.now).1 client request.now := by
  have hallowed : (settings.outcome table request).answer.allowed = true ↔ _ :=
    outcome_allowed hsound
  rw [hkey, ← hsound.levelAt_route request.clientKey client le_rfl] at hallowed
  rw [spent_concat, Nat.cast_add]
  rcases lt_or_ge (settings.levelAt (settings.route table request.clientKey request.now).1 client
      request.now) 1 with hlt | hge
  · rw [if_neg fun hcounted ↦ absurd (hallowed.mp hcounted.2.1) (not_le.mpr hlt),
      Flow.ask_of_lt hlt, Nat.cast_zero, add_zero]
    exact le_rfl
  · have hone : ((if Counted client s e (settings.outcome table request) then 1 else 0 : ℕ) : ℚ)
        ≤ 1 := by
      split_ifs <;> norm_num
    rw [Flow.ask_of_le hge]
    show _ + _ + (settings.levelAt _ client request.now - 1) ≤ _
    linarith

theorem Live.level_le (h : settings.Live client s e past
      (settings.route table request.clientKey request.now).1 request.now)
    (hsound : settings.Sound request.now table) (hcharges : Charges past)
    (hkey : (settings.outcome table request).chargedKey = client) (hbegin : s ≤ request.now)
    (hend : request.now ≤ e) :
    spent client s e past + settings.levelAt
        (settings.route table request.clientKey request.now).1 client request.now
      ≤ settings.capacity + settings.moveCost client s e (past ++ [settings.outcome table request])
        + (request.now - s) * settings.flow.rate := by
  have hcapacity := settings.levelAt_le_capacity
    (settings.route table request.clientKey request.now).1 client request.now
  have hcost := settings.moveCost_mem client s e (past ++ [settings.outcome table request])
  have hflow : 0 ≤ (request.now - s) * settings.flow.rate :=
    mul_nonneg (sub_nonneg.mpr hbegin) settings.flow.rate_pos.le
  cases hget : (settings.route table request.clientKey request.now).1.get client with
  | none =>
    have habsent := h.absent hget
    have hunmoved := h.unmoved hget
    rw [max_eq_right (sub_nonneg.mpr hbegin)] at habsent hunmoved
    by_cases hmoved : Unmoved client s e past
    · linarith [hunmoved hmoved]
    · -- this is the move, and it costs as much as the bucket holds
      have hfull : settings.levelAt (settings.route table request.clientKey request.now).1 client
          request.now = settings.capacity := levelAt_of_get_eq_none hget
      have hallowed : (settings.outcome table request).answer.allowed = true := by
        rw [outcome_allowed hsound, hkey, ← hsound.levelAt_route request.clientKey client le_rfl,
          hfull]
        exact settings.one_le_capacity
      rw [moveCost_of_created hcharges hkey hmoved hallowed hbegin hend]
      have hlevel := (hsound.route request.clientKey).levelAt_nonneg overflowKey request.now
      linarith
  | some bucket =>
    have hle := (hsound.route request.clientKey client bucket hget).2.2
    rcases lt_or_ge bucket.updatedAt s with hlt | hge
    · rw [h.untouched bucket hget hlt, Nat.cast_zero]
      linarith
    · have hpresent := h.present bucket hget hge
      have hmono := settings.moveCost_le_concat client s e past (settings.outcome table request)
      have hgrowth : settings.flow.level bucket request.now
          ≤ bucket.tokens + (request.now - bucket.updatedAt) * settings.flow.rate := by
        rw [Flow.level_of_le hle]
        exact min_le_right _ _
      rw [levelAt_of_get_eq_some hget]
      linarith [sub_mul request.now bucket.updatedAt settings.flow.rate,
        sub_mul bucket.updatedAt s settings.flow.rate, sub_mul request.now s settings.flow.rate]

/-- **A charge** of the own bucket. -/
theorem Live.charge_own (h : settings.Live client s e past
      (settings.route table request.clientKey request.now).1 request.now)
    (hsound : settings.Sound request.now table) (hcharges : Charges past)
    (hkey : (settings.outcome table request).chargedKey = client) (hend : request.now ≤ e) :
    settings.Live client s e (past ++ [settings.outcome table request])
      (settings.tableAfter table request) request.now := by
  set o := settings.outcome table request with ho
  have hget := settings.get_tableAfter table request client
  rw [← ho, hkey, if_pos rfl] at hget
  -- before the interval nothing is counted
  have hearly : request.now < s → spent client s e (past ++ [o]) = 0 := by
    intro hlt
    rw [spent_concat, h.early hlt, if_neg fun hcounted ↦ absurd hcounted.2.2.1 (not_le.mpr hlt)]
  refine ⟨hearly, fun bucket hbucket hlt ↦ hearly ?_, fun bucket hbucket hge ↦ ?_, fun hnone ↦ ?_,
    fun hnone ↦ ?_⟩
  · obtain rfl := Option.some_inj.mp (hget.symm.trans hbucket)
    rwa [Flow.ask_updatedAt] at hlt
  · obtain rfl := Option.some_inj.mp (hget.symm.trans hbucket)
    rw [Flow.ask_updatedAt] at hge ⊢
    exact (spent_add_tokens_le hsound hkey).trans (h.level_le hsound hcharges hkey hge hend)
  · cases hget.symm.trans hnone
  · cases hget.symm.trans hnone

theorem Live.charge_other (h : settings.Live client s e past
      (settings.route table request.clientKey request.now).1 request.now)
    (hsound : settings.Sound request.now table)
    (hkey : (settings.outcome table request).chargedKey ≠ client) :
    settings.Live client s e (past ++ [settings.outcome table request])
      (settings.tableAfter table request) request.now := by
  have hget := settings.get_tableAfter table request client
  rw [if_neg hkey.symm] at hget
  -- only a client without a bucket is counted here
  have hnone : Counted client s e (settings.outcome table request) →
      (settings.route table request.clientKey request.now).1.get client = none := by
    rintro ⟨hclient, -⟩
    have hclient' : request.clientKey = client := hclient
    subst hclient'
    exact get_route_eq_none hkey
  have hsame : Counted client s e (settings.outcome table request) ∨
      spent client s e (past ++ [settings.outcome table request]) = spent client s e past := by
    by_cases hcounted : Counted client s e (settings.outcome table request)
    · exact .inl hcounted
    · exact .inr (by rw [spent_concat, if_neg hcounted, add_zero])
  refine ⟨fun hlt ↦ ?_, fun bucket hbucket hlt ↦ ?_, fun bucket hbucket hge ↦ ?_, fun habsent ↦ ?_,
    fun habsent hunmoved ↦ ?_⟩
  · rcases hsame with hcounted | hsame
    · exact absurd hcounted.2.2.1 (not_le.mpr hlt)
    · rw [hsame, h.early hlt]
  · rw [hget] at hbucket
    rcases hsame with hcounted | hsame
    · cases (hnone hcounted).symm.trans hbucket
    · rw [hsame, h.untouched bucket hbucket hlt]
  · rw [hget] at hbucket
    rcases hsame with hcounted | hsame
    · cases (hnone hcounted).symm.trans hbucket
    · rw [hsame]
      have hmono := settings.moveCost_le_concat client s e past (settings.outcome table request)
      linarith [h.present bucket hbucket hge]
  · rw [hget] at habsent
    have hbefore := h.absent habsent
    rw [hsound.levelAt_route request.clientKey overflowKey le_rfl] at hbefore
    rw [levelAt_tableAfter hsound, spent_concat, Nat.cast_add]
    by_cases hcounted : Counted client s e (settings.outcome table request)
    · have hoverflow : overflowKey = (settings.outcome table request).chargedKey := by
        rcases settings.chargedKey_eq_or table request with hown | hoverflow
        · exact absurd (hown.trans hcounted.1) hkey
        · exact hoverflow.symm
      rw [if_pos hcounted, if_pos ⟨hoverflow, hcounted.2.1⟩, Nat.cast_one]
      linarith
    · rw [if_neg hcounted, Nat.cast_zero]
      split_ifs <;> linarith
  · rw [hget] at habsent
    rcases hsame with hcounted | hsame
    · exact absurd (hunmoved _ (List.mem_append_right _ List.mem_cons_self) hcounted) hkey
    · rw [hsame]
      exact h.unmoved habsent hunmoved.of_concat

/-- **A request keeps the invariant.** -/
theorem Live.tableAfter (h : settings.Live client s e past table now)
    (hsound : settings.Sound now table) (hcharges : Charges past) (hle : now ≤ request.now)
    (hend : request.now ≤ e) : settings.Live client s e (past ++ [settings.outcome table request])
      (settings.tableAfter table request) request.now := by
  have hroute := h.route hsound hle request.clientKey
  by_cases hkey : (settings.outcome table request).chargedKey = client
  · exact hroute.charge_own (hsound.mono hle) hcharges hkey hend
  · exact hroute.charge_other (hsound.mono hle) hkey

theorem Live.spent_le (h : settings.Live client s e past table now)
    (hsound : settings.Sound now table) (hse : s ≤ e) (hend : now ≤ e) :
    spent client s e past ≤ settings.capacity + settings.moveCost client s e past
      + (e - s) * settings.flow.rate := by
  have hcost := (settings.moveCost_mem client s e past).1
  have hcapacity := zero_le_one.trans settings.one_le_capacity
  have hflow : ∀ {u}, u ≤ e → (u - s) * settings.flow.rate ≤ (e - s) * settings.flow.rate :=
    fun hu ↦ mul_le_mul_of_nonneg_right (sub_le_sub_right hu s) settings.flow.rate_pos.le
  have hpos : 0 ≤ (e - s) * settings.flow.rate :=
    mul_nonneg (sub_nonneg.mpr hse) settings.flow.rate_pos.le
  cases hget : table.get client with
  | none =>
    have habsent := h.absent hget
    have hlevel := hsound.levelAt_nonneg overflowKey now
    rcases max_cases 0 (now - s) with ⟨hmax, -⟩ | ⟨hmax, -⟩
    · rw [hmax, zero_mul] at habsent
      linarith
    · rw [hmax] at habsent
      linarith [hflow hend]
  | some bucket =>
    obtain ⟨htokens, -, hupdated⟩ := hsound client bucket hget
    rcases lt_or_ge bucket.updatedAt s with hlt | hge
    · rw [h.untouched bucket hget hlt, Nat.cast_zero]
      linarith
    · linarith [h.present bucket hget hge, hflow (hupdated.trans hend)]

theorem spent_le_of_live {trace : List RateRequest} (htimed : Timed trace) (hse : s ≤ e)
    (hsound : settings.Sound now table) (hlater : ∀ request ∈ trace, now ≤ request.now)
    (hcharges : Charges past) (hlive : now ≤ e → settings.Live client s e past table now)
    (hspent : spent client s e past ≤ settings.capacity + settings.moveCost client s e past
      + (e - s) * settings.flow.rate) :
    spent client s e (past ++ settings.outcomes table trace) ≤ settings.capacity
      + settings.moveCost client s e (past ++ settings.outcomes table trace)
      + (e - s) * settings.flow.rate := by
  induction trace generalizing past table now with
  | nil => rwa [outcomes, List.append_nil]
  | cons request trace ih =>
    obtain ⟨hfirst, hrest⟩ := List.pairwise_cons.mp htimed
    have hle := hlater request List.mem_cons_self
    have hnext : Charges (past ++ [settings.outcome table request]) := by
      intro outcome hmem
      rcases List.mem_append.mp hmem with hmem | hmem
      · exact hcharges outcome hmem
      · rw [List.mem_singleton.mp hmem]
        exact settings.chargedKey_eq_or table request
    have hlive' : request.now ≤ e → settings.Live client s e
        (past ++ [settings.outcome table request]) (settings.tableAfter table request)
        request.now := fun hend ↦
      (hlive (hle.trans hend)).tableAfter hsound hcharges hle hend
    rw [outcomes, List.append_cons]
    refine ih hrest (hsound.mono hle).tableAfter hfirst hnext hlive' ?_
    rcases le_or_gt request.now e with hend | hafter
    · exact (hlive' hend).spent_le (hsound.mono hle).tableAfter hse hend
    · -- nothing is counted after the interval
      have hmono := settings.moveCost_le_concat client s e past (settings.outcome table request)
      rw [spent_concat, if_neg fun hcounted ↦ absurd hcounted.2.2.2 (not_le.mpr hafter), add_zero]
      linarith

theorem spent_le (settings : SecuritySettings) {trace : List RateRequest} (htimed : Timed trace)
    (client : String) (hse : s ≤ e) :
    spent client s e (settings.outcomes Dict.empty trace) ≤ settings.capacity
      + settings.moveCost client s e (settings.outcomes Dict.empty trace)
      + (e - s) * settings.flow.rate := by
  have hempty : (spent client s e [] : ℚ) ≤ settings.capacity + settings.moveCost client s e []
      + (e - s) * settings.flow.rate := by
    have hcost := (settings.moveCost_mem client s e []).1
    have hflow : 0 ≤ (e - s) * settings.flow.rate :=
      mul_nonneg (sub_nonneg.mpr hse) settings.flow.rate_pos.le
    rw [spent, List.countP_nil, Nat.cast_zero]
    linarith [settings.one_le_capacity]
  cases trace with
  | nil => exact hempty
  | cons request trace =>
    have hsound : settings.Sound request.now Dict.empty := sound_empty
    have hcharges : Charges [] := fun outcome hmem ↦ absurd hmem List.not_mem_nil
    have hrun := spent_le_of_live htimed hse hsound
      (List.forall_mem_cons.mpr ⟨le_rfl, (List.pairwise_cons.mp htimed).1⟩) hcharges
      (fun _ ↦ live_empty) hempty
    rwa [List.nil_append] at hrun

/-- **The budget of a client.** In an interval of length `d` a client is allowed at most a capacity
and what flows in, and one capacity more where the interval sees it move from the overflow bucket to
a bucket of its own. -/
theorem budget_with_moves (settings : SecuritySettings) (trace : List RateRequest)
    (htimed : Timed trace) (client : String) (s d : ℚ) (hd : 0 ≤ d) :
    (spent client s (s + d) (settings.outcomes Dict.empty trace) : ℚ)
        ≤ 2 * settings.rateLimitRequests
          + d * settings.rateLimitRequests / settings.rateLimitWindowSeconds ∧
      (Settled client s (s + d) (settings.outcomes Dict.empty trace) →
        (spent client s (s + d) (settings.outcomes Dict.empty trace) : ℚ)
          ≤ settings.rateLimitRequests
            + d * settings.rateLimitRequests / settings.rateLimitWindowSeconds) := by
  have hspent := settings.spent_le htimed client (le_add_of_nonneg_right hd : s ≤ s + d)
  have hcost := (settings.moveCost_mem client s (s + d)
    (settings.outcomes Dict.empty trace)).2
  have hrate : (s + d - s) * settings.flow.rate
      = d * settings.rateLimitRequests / settings.rateLimitWindowSeconds := by
    rw [add_sub_cancel_left, mul_div_assoc]
    rfl
  rw [hrate] at hspent
  rw [capacity] at hspent hcost
  refine ⟨by linarith, fun hsettled ↦ ?_⟩
  rw [moveCost, if_pos hsettled] at hspent
  linarith

/-- A token a second, and a table for two: `b` finds the table full, and half a second later the
buckets of the others are forgotten. -/
def moveTrace : List RateRequest := [⟨"a", 0⟩, ⟨"c", 0⟩, ⟨"b", 2⟩, ⟨"b", 5 / 2⟩]

/-- `b` moves and keeps the bound for two buckets; `a` does not and keeps that for one. -/
theorem budget_with_moves_sample :
    (spent "b" 2 (2 + 1 / 2) ((SecuritySettings.sample 1 2 one_pos two_pos).outcomes Dict.empty
      moveTrace) : ℚ) ≤ 2 * (1 : ℕ) + 1 / 2 * (1 : ℕ) / (1 : ℕ) ∧
    (spent "a" 0 (0 + 1 / 2) ((SecuritySettings.sample 1 2 one_pos two_pos).outcomes Dict.empty
      moveTrace) : ℚ) ≤ (1 : ℕ) + 1 / 2 * (1 : ℕ) / (1 : ℕ) :=
  ⟨(budget_with_moves (SecuritySettings.sample 1 2 one_pos two_pos) moveTrace (by decide +kernel)
      "b" 2 (1 / 2) (by norm_num)).1,
    (budget_with_moves (SecuritySettings.sample 1 2 one_pos two_pos) moveTrace (by decide +kernel)
      "a" 0 (1 / 2) (by norm_num)).2 (by decide +kernel)⟩

/-- **The bound for one bucket fails**: the overflow bucket and a new bucket give `b` two tokens
within half a second. -/
theorem budget_exceeded :
    ¬∀ (settings : SecuritySettings) (trace : List RateRequest), Timed trace →
      ∀ (client : String) (s d : ℚ), 0 ≤ d →
        (spent client s (s + d) (settings.outcomes Dict.empty trace) : ℚ)
          ≤ settings.rateLimitRequests
            + d * settings.rateLimitRequests / settings.rateLimitWindowSeconds := by
  intro h
  have hbound := h (SecuritySettings.sample 1 2 one_pos two_pos) moveTrace (by decide +kernel) "b" 2
    (1 / 2) (by norm_num)
  have hspent : spent "b" 2 (2 + 1 / 2) ((SecuritySettings.sample 1 2 one_pos two_pos).outcomes
      Dict.empty moveTrace) = 2 := by decide +kernel
  rw [hspent] at hbound
  norm_num [SecuritySettings.sample] at hbound

end SecuritySettings

end Sentinel
