import Sentinel.Security.Pruning

/-!
# Retry-After

What a refusal says about the bucket it comes from. The wait that it names is the first whole number
of seconds after which the bucket gives again. Requests that are refused in between write the
bucket back each time, with a new level at a new time; they move it along one line, so they do not
postpone anything. Nor does it matter whether the table still stores the bucket, because one that
it has forgotten would give too.

The own bucket of a client is not forgotten while its wait lasts: a wait is never longer than the
window, and only what has been idle for two windows is stale.
-/

namespace Sentinel

open Collections Buckets

namespace SecuritySettings

variable {settings : SecuritySettings} {table : BucketTable} {request : RateRequest}
  {now t t' start : ℚ} {key : String}

/-! ## The answer -/

theorem retryAfter_eq (h : settings.Sound request.now table)
    (hrefused : (settings.outcome table request).answer.allowed = false) :
    settings.levelAt table (settings.outcome table request).chargedKey request.now < 1 ∧
      (settings.outcome table request).answer.retryAfter
        = max 1 ⌈(1 - settings.levelAt table (settings.outcome table request).chargedKey
          request.now) / settings.flow.rate⌉ := by
  have hlt : settings.levelAt table (settings.outcome table request).chargedKey request.now
      < 1 := by
    rw [← not_le, ← outcome_allowed h, hrefused]
    exact Bool.false_ne_true
  refine ⟨hlt, ?_⟩
  rw [← h.levelAt_route request.clientKey _ le_rfl] at hlt ⊢
  rw [outcome_answer, settle_eq]
  exact congrArg RateAnswer.retryAfter (if_pos hlt)

theorem wait_le_retryAfter (h : settings.Sound request.now table)
    (hrefused : (settings.outcome table request).answer.allowed = false) :
    (1 - settings.levelAt table (settings.outcome table request).chargedKey request.now)
        / settings.flow.rate ≤ (settings.outcome table request).answer.retryAfter := by
  rw [(retryAfter_eq h hrefused).2]
  exact (Int.le_ceil _).trans (by exact_mod_cast le_max_right _ _)

theorem lt_wait_of_lt_retryAfter (h : settings.Sound request.now table)
    (hrefused : (settings.outcome table request).answer.allowed = false) {k : ℤ} (hpos : 1 ≤ k)
    (hk : k < (settings.outcome table request).answer.retryAfter) :
    (k : ℚ) < (1 - settings.levelAt table (settings.outcome table request).chargedKey request.now)
      / settings.flow.rate := by
  rw [(retryAfter_eq h hrefused).2, lt_max_iff] at hk
  exact Int.lt_ceil.mp (hk.resolve_left (not_lt.mpr hpos))

theorem wait_le_window (settings : SecuritySettings) (h : 0 ≤ start) :
    (1 - start) / settings.flow.rate ≤ settings.rateLimitWindowSeconds := by
  rw [div_le_iff₀ settings.flow.rate_pos, settings.window_mul_rate]
  linarith [settings.one_le_capacity]

/-! ## While the bucket refuses -/

/-- Since a time the bucket with the key has refused all that it was asked for. -/
structure Refusing (settings : SecuritySettings) (key : String) (start t now : ℚ)
    (table : BucketTable) : Prop where
  bank : ∃ bank, settings.Banked now table bank ∧ settings.flow.OnLine start t (bank key) ∧
    (bank key).updatedAt ≤ now

theorem Refusing.mono (h : settings.Refusing key start t now table) (hle : now ≤ t') :
    settings.Refusing key start t t' table := by
  obtain ⟨bank, hbanked, hline, hupdated⟩ := h.bank
  exact ⟨bank, hbanked.mono hle, hline, hupdated.trans hle⟩

theorem Refusing.sound (h : settings.Refusing key start t now table) :
    settings.Sound now table := by
  obtain ⟨bank, hbanked, -⟩ := h.bank
  exact hbanked.sound

theorem Refusing.one_le_levelAt (h : settings.Refusing key start t now table)
    (hwait : (1 - start) / settings.flow.rate ≤ now - t) : 1 ≤ settings.levelAt table key now := by
  obtain ⟨bank, hbanked, hline, hupdated⟩ := h.bank
  rw [hbanked.levelAt_eq key le_rfl]
  exact hline.one_le_level hupdated hwait

theorem Refusing.levelAt_lt_one (h : settings.Refusing key start t now table)
    (hwait : now - t < (1 - start) / settings.flow.rate) : settings.levelAt table key now < 1 := by
  obtain ⟨bank, hbanked, hline, hupdated⟩ := h.bank
  rw [hbanked.levelAt_eq key le_rfl]
  exact hline.level_lt_one hupdated hwait

theorem refusing_of_refused {bank : String → TokenBucket}
    (h : settings.Banked request.now table bank)
    (hrefused : (settings.outcome table request).answer.allowed = false) :
    settings.Refusing (settings.outcome table request).chargedKey
      (settings.levelAt table (settings.outcome table request).chargedKey request.now) request.now
      request.now (settings.tableAfter table request) := by
  have hlt := (retryAfter_eq h.sound hrefused).1
  rw [h.levelAt_eq _ le_rfl] at hlt ⊢
  have hbank : settings.bankAfter bank (charge (settings.outcome table request))
      (settings.outcome table request).chargedKey
        = (settings.flow.ask (bank (settings.outcome table request).chargedKey) request.now).2 := by
    rw [bankAfter_charge, if_pos rfl]
    rfl
  refine ⟨_, h.tableAfter.2, ?_, ?_⟩
  · rw [hbank]
    exact Flow.onLine_of_refused hlt
  · rw [hbank]
    exact Flow.ask_updatedAt.le

/-- **Polling does not end it**, nor do requests for other buckets. -/
theorem Refusing.tableAfter (h : settings.Refusing key start t request.now table)
    (hrefused : (settings.outcome table request).chargedKey = key →
      (settings.outcome table request).answer.allowed = false) :
    settings.Refusing key start t request.now (settings.tableAfter table request) := by
  obtain ⟨bank, hbanked, hline, hupdated⟩ := h.bank
  by_cases hkey : (settings.outcome table request).chargedKey = key
  · have hlt := (retryAfter_eq hbanked.sound (hrefused hkey)).1
    rw [hkey, hbanked.levelAt_eq _ le_rfl] at hlt
    have hbank : settings.bankAfter bank (charge (settings.outcome table request)) key
        = (settings.flow.ask (bank key) request.now).2 := by
      rw [bankAfter_charge, if_pos hkey.symm]
      rfl
    refine ⟨_, hbanked.tableAfter.2, ?_, ?_⟩
    · rw [hbank]
      exact hline.ask hupdated hlt
    · rw [hbank]
      exact Flow.ask_updatedAt.le
  · refine ⟨_, hbanked.tableAfter.2, ?_⟩
    rw [bankAfter_charge, if_neg (Ne.symm hkey)]
    exact ⟨hline, hupdated⟩

/-- Before the line has come to one token the bucket gives nothing. -/
theorem Refusing.refuses (h : settings.Refusing key start t request.now table)
    (hwait : request.now - t < (1 - start) / settings.flow.rate)
    (hkey : (settings.outcome table request).chargedKey = key) :
    (settings.outcome table request).answer.allowed = false := by
  rw [← Bool.not_eq_true, outcome_allowed h.sound, hkey, not_le]
  exact h.levelAt_lt_one hwait

/-- A line of refusals lasts while the bucket gives nothing, because it must not or cannot. -/
theorem Refusing.run {trace : List RateRequest} (htimed : Timed trace)
    (h : settings.Refusing key start t now table) (hlater : ∀ request ∈ trace, now ≤ request.now)
    (hrefused : ∀ outcome ∈ settings.outcomes table trace, outcome.chargedKey = key →
      outcome.answer.allowed = false ∨
        outcome.request.now - t < (1 - start) / settings.flow.rate)
    (hend : now ≤ t') (hends : ∀ request ∈ trace, request.now ≤ t') :
    settings.Refusing key start t t' (trace.foldl settings.tableAfter table) := by
  induction trace generalizing now table with
  | nil => exact h.mono hend
  | cons request trace ih =>
    obtain ⟨hfirst, hrest⟩ := List.pairwise_cons.mp htimed
    have hnow := h.mono (hlater request List.mem_cons_self)
    have hstep := hnow.tableAfter fun hkey ↦
      (hrefused _ List.mem_cons_self hkey).elim id fun hwait ↦ hnow.refuses hwait hkey
    exact ih hrest hstep hfirst (fun outcome houtcome ↦ hrefused outcome
      (List.mem_cons_of_mem _ houtcome)) (hends request List.mem_cons_self)
      fun later hmem ↦ hends later (List.mem_cons_of_mem request hmem)

/-! ## The own bucket -/

/-- The bucket with the key has been stored, and looked at since a time. -/
def StoredSince (table : BucketTable) (key : String) (t : ℚ) : Prop :=
  ∃ bucket, table.get key = some bucket ∧ t ≤ bucket.updatedAt

theorem storedSince_tableAfter (settings : SecuritySettings) (table : BucketTable)
    (request : RateRequest) : StoredSince (settings.tableAfter table request)
      (settings.outcome table request).chargedKey request.now := by
  rw [StoredSince, get_tableAfter, if_pos rfl]
  exact ⟨_, rfl, Flow.ask_updatedAt.ge⟩

theorem StoredSince.tableAfter (h : StoredSince table key t) (hle : t ≤ request.now)
    (hfresh : request.now - t ≤ settings.staleAfter) :
    StoredSince (settings.tableAfter table request) key t := by
  obtain ⟨bucket, hget, hupdated⟩ := h
  rw [StoredSince, get_tableAfter]
  split_ifs with hkey
  · exact ⟨_, rfl, hle.trans Flow.ask_updatedAt.ge⟩
  · rcases settings.get_route table request.clientKey request.now key with
      hsame | ⟨bucket', hget', hstale, -⟩
    · exact ⟨bucket, hsame.trans hget, hupdated⟩
    · obtain rfl := Option.some_inj.mp (hget.symm.trans hget')
      linarith

theorem StoredSince.run {trace : List RateRequest} (h : StoredSince table key t)
    (hlater : ∀ request ∈ trace, t ≤ request.now)
    (hfresh : ∀ request ∈ trace, request.now - t ≤ settings.staleAfter) :
    StoredSince (trace.foldl settings.tableAfter table) key t := by
  induction trace generalizing table with
  | nil => exact h
  | cons request trace ih =>
    exact ih (h.tableAfter (hlater request List.mem_cons_self) (hfresh request List.mem_cons_self))
      (fun later hmem ↦ hlater later (List.mem_cons_of_mem request hmem))
      fun later hmem ↦ hfresh later (List.mem_cons_of_mem request hmem)

theorem StoredSince.chargedKey_eq (h : StoredSince table request.clientKey t) :
    (settings.outcome table request).chargedKey = request.clientKey := by
  obtain ⟨bucket, hget, -⟩ := h
  refine chargedKey_of_not_overflows fun hoverflows ↦ ?_
  cases hget.symm.trans hoverflows.1

/-! ## The promise -/

/-- What a refusal promises about a later answer, given the outcomes in between. -/
structure Honoured (refusal answer : RateOutcome) (between : List RateOutcome) : Prop where
  /-- After the wait the bucket gives, if it has given nothing in between. -/
  sufficient : answer.chargedKey = refusal.chargedKey →
    refusal.request.now + refusal.answer.retryAfter ≤ answer.request.now →
    (∀ outcome ∈ between, outcome.chargedKey = refusal.chargedKey →
      outcome.answer.allowed = false) → answer.answer.allowed = true
  /-- After fewer seconds it does not. -/
  tight : answer.chargedKey = refusal.chargedKey → ∀ k : ℤ, 1 ≤ k → k < refusal.answer.retryAfter →
    answer.request.now = refusal.request.now + k → answer.answer.allowed = false
  /-- A client that was refused by its own bucket is charged there after fewer seconds. -/
  own : refusal.chargedKey = refusal.request.clientKey →
    answer.request.clientKey = refusal.request.clientKey → ∀ k : ℤ, 1 ≤ k →
    k < refusal.answer.retryAfter → answer.request.now = refusal.request.now + k →
    answer.chargedKey = refusal.chargedKey

theorem honoured {between : List RateRequest} {denied later : RateRequest}
    (htimed : Timed (denied :: (between ++ [later]))) {bank : String → TokenBucket}
    (h : settings.Banked denied.now table bank)
    (hdenied : (settings.outcome table denied).answer.allowed = false) :
    Honoured (settings.outcome table denied)
      (settings.outcome (between.foldl settings.tableAfter (settings.tableAfter table denied))
        later)
      (settings.outcomes (settings.tableAfter table denied) between) := by
  obtain ⟨hfirst, hrest⟩ := List.pairwise_cons.mp htimed
  obtain ⟨hbetween, -, hlast⟩ := List.pairwise_append.mp hrest
  have hrefusing := refusing_of_refused h hdenied
  have hlater : denied.now ≤ later.now := hfirst later (by simp)
  have hafter : ∀ request ∈ between, denied.now ≤ request.now := fun request hmem ↦
    hfirst request (List.mem_append_left _ hmem)
  have hends : ∀ request ∈ between, request.now ≤ later.now := fun request hmem ↦
    hlast request hmem later List.mem_cons_self
  refine ⟨fun hkey hwait hgives ↦ ?_, fun hkey k hpos hk hnow ↦ ?_,
    fun hown hclient k hpos hk hnow ↦ ?_⟩
  · have hend := hrefusing.run hbetween hafter (fun outcome hmem hcharged ↦
      .inl (hgives outcome hmem hcharged)) hlater hends
    rw [outcome_allowed hend.sound, hkey]
    refine hend.one_le_levelAt ((wait_le_retryAfter h.sound hdenied).trans ?_)
    have hwait' : denied.now + ((settings.outcome table denied).answer.retryAfter : ℚ)
        ≤ later.now := hwait
    linarith
  · have hk' := lt_wait_of_lt_retryAfter h.sound hdenied hpos hk
    have hnow' : later.now = denied.now + k := hnow
    have hend := hrefusing.run hbetween hafter (fun outcome hmem hcharged ↦ .inr ?_) hlater hends
    · refine hend.refuses ?_ hkey
      linarith
    · have hle := hends outcome.request (request_mem_of_mem_outcomes hmem)
      linarith
  · have hk' := lt_wait_of_lt_retryAfter h.sound hdenied hpos hk
    have hnow' : later.now = denied.now + k := hnow
    have hwindow := settings.wait_le_window
      (h.sound.levelAt_nonneg (settings.outcome table denied).chargedKey denied.now)
    have hstale : (k : ℚ) ≤ settings.staleAfter := by
      rw [staleAfter]
      linarith [settings.window_cast_pos]
    have hstored := (storedSince_tableAfter settings table denied).run hafter fun request hmem ↦ by
      linarith [hends request hmem]
    have hsame : later.clientKey = (settings.outcome table denied).chargedKey :=
      hclient.trans hown.symm
    rw [← hsame] at hstored ⊢
    exact hstored.chargedKey_eq

/-- **Retry-After is sufficient, tight and not postponed by polling**, in every state that the
limiter can come to. -/
theorem retry_after_exact (settings : SecuritySettings) (before between : List RateRequest)
    (denied later : RateRequest) (htimed : Timed (before ++ denied :: (between ++ [later])))
    (hdenied : (settings.outcome (settings.tableOf before) denied).answer.allowed = false) :
    Honoured (settings.outcome (settings.tableOf before) denied)
      (settings.outcome (settings.tableOf (before ++ denied :: between)) later)
      (settings.outcomes (settings.tableOf (before ++ [denied])) between) := by
  have hsplit : Timed (before ++ [denied]) := by
    refine htimed.sublist ?_
    exact List.Sublist.append_left (List.Sublist.cons_cons denied (List.nil_sublist _)) before
  obtain ⟨bank, hbanked⟩ := exists_banked hsplit
  have hhonoured := honoured (List.pairwise_append.mp htimed).2.1 hbanked hdenied
  simp only [tableOf, List.foldl_append, List.foldl_cons, List.foldl_nil] at hhonoured ⊢
  exact hhonoured

/-- A token every two seconds: a refusal after half a second names two seconds, and a request in
between does not change that. -/
theorem retry_after_exact_sample :
    ((SecuritySettings.sample 2 1 two_pos one_pos).outcome
      ((SecuritySettings.sample 2 1 two_pos one_pos).tableOf
        [⟨"a", 0⟩, ⟨"a", 1 / 2⟩, ⟨"a", 1⟩]) ⟨"a", 5 / 2⟩).answer.allowed = true ∧
    ((SecuritySettings.sample 2 1 two_pos one_pos).outcome
      ((SecuritySettings.sample 2 1 two_pos one_pos).tableOf
        [⟨"a", 0⟩, ⟨"a", 1 / 2⟩, ⟨"a", 1⟩]) ⟨"a", 3 / 2⟩).answer.allowed = false := by
  constructor
  · exact (retry_after_exact (SecuritySettings.sample 2 1 two_pos one_pos) [⟨"a", 0⟩] [⟨"a", 1⟩]
      ⟨"a", 1 / 2⟩ ⟨"a", 5 / 2⟩ (by decide +kernel) (by decide +kernel)).sufficient
        (by decide +kernel) (by decide +kernel) (by decide +kernel)
  · exact (retry_after_exact (SecuritySettings.sample 2 1 two_pos one_pos) [⟨"a", 0⟩] [⟨"a", 1⟩]
      ⟨"a", 1 / 2⟩ ⟨"a", 3 / 2⟩ (by decide +kernel) (by decide +kernel)).tight
        (by decide +kernel) 1 le_rfl (by decide +kernel) (by decide +kernel)

end SecuritySettings

end Sentinel
